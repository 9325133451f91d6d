import Mathlib.Data.Finset.Basic
import Mathlib.Tactic.Common

/-! The features of the virtual CPU: the list of required and disabled ones in the domain XML, and
what is read back of it. -/
namespace DispService.Transponster

/-- The order in which a set of names is gone through, any one. -/
structure HashOrder where
  order : Finset String → List String
  nodup : ∀ s, (order s).Nodup
  mem : ∀ s n, n ∈ order s ↔ n ∈ s

inductive EPolicy where
  | force
  | require
  | optional
  | disable
  | forbid
deriving DecidableEq, Repr

structure Feature where
  name : String
  policy : EPolicy
deriving DecidableEq

/-- The features of the host. -/
structure HostFeatures where
  disabled : List String
  required : List String
deriving DecidableEq

/-- What is read and changed of the configuration. -/
structure FeaturesConfig where
  /-- The names that its masks disable, as `CCpuHelper::getDisabledFeatures` finds them. -/
  disabled : Finset String
  isVirtualizedHV : Bool

/-- `CCpuHelper::update`, with the names that the mask of the host disables if it can be had. -/
def CCpuHelper.update (mask : Option (Finset String)) (conf : FeaturesConfig) : FeaturesConfig :=
  match mask with
  | none => conf
  | some disabled => { conf with disabled := disabled }

namespace CpuFeaturesMask

/-- The host runs the module of AMD processors, or not. -/
def getNestedVtName (kvmAmd : Bool) : String :=
  if kvmAmd then "svm" else "vmx"

/-- The required features and the disabled ones, with the nested one moved where it is asked for and
the host does not disable it. -/
def nest (conf : FeaturesConfig) (v : String) (d r features : Finset String) :
    Finset String × Finset String :=
  if conf.isVirtualizedHV = true ∧ v ∉ d then (insert v r, features.erase v) else (r, features)

def require (hash : HashOrder) (r features : Finset String) : List Feature :=
  ((hash.order r).filter fun name => decide (name ∉ features) && name != "invtsc").map
    fun name => ⟨name, .require⟩

def disable (hash : HashOrder) (features : Finset String) : List Feature :=
  (hash.order features).map fun name => ⟨name, .disable⟩

def getFeatures (hash : HashOrder) (kvmAmd : Bool) (conf : FeaturesConfig)
    (cpuFeatures : Option HostFeatures) : List Feature :=
  let features := insert "svm" (insert "vmx" (insert "arat" conf.disabled))
  match cpuFeatures with
  | none => disable hash (features.erase "hypervisor")
  | some u =>
      let d := u.disabled.toFinset
      let (r, features) := nest conf (getNestedVtName kvmAmd) d u.required.toFinset features
      let features := features ∪ d
      require hash r features ++ disable hash (features.erase "hypervisor")

/-- The enumerator `Qt::CaseInsensitive`. -/
def caseInsensitive : Nat := 0

/-- The comma operator: the value is that of the right operand. -/
def comma {α β : Type} (_left : α) (right : β) : β := right

/-- The condition of the search: what the comparison finds is the left operand of a comma. -/
def isSought (kvmAmd : Bool) (f : Feature) : Bool :=
  comma (compare f.name (getNestedVtName kvmAmd)) caseInsensitive != 0

def setDisabledFeatures (kvmAmd : Bool) (mask : Option (Finset String)) (featureList : List Feature)
    (conf : FeaturesConfig) : FeaturesConfig :=
  let conf :=
    match featureList.find? (isSought kvmAmd) with
    | some f => if f.policy = .disable then { conf with isVirtualizedHV := false } else conf
    | none => conf
  CCpuHelper.update mask conf

/-- The nested virtualization is asked for, and the host does not disable it. -/
def Nested (kvmAmd : Bool) (conf : FeaturesConfig) (cpuFeatures : Option HostFeatures) : Prop :=
  conf.isVirtualizedHV = true ∧ ∃ u ∈ cpuFeatures, getNestedVtName kvmAmd ∉ u.disabled

/-- The host disables the feature; or the user does, or it is one of three that are always disabled,
unless it is the nested one and that is asked for. -/
def Disabled (kvmAmd : Bool) (conf : FeaturesConfig) (cpuFeatures : Option HostFeatures)
    (n : String) : Prop :=
  (∃ u ∈ cpuFeatures, n ∈ u.disabled) ∨
    (n ∈ conf.disabled ∨ n ∈ ["arat", "vmx", "svm"]) ∧
      ¬ (n = getNestedVtName kvmAmd ∧ Nested kvmAmd conf cpuFeatures)

/-- The host requires the feature, or it is the nested one and that is asked for. -/
def Required (kvmAmd : Bool) (conf : FeaturesConfig) (cpuFeatures : Option HostFeatures)
    (n : String) : Prop :=
  (∃ u ∈ cpuFeatures, n ∈ u.required) ∨ n = getNestedVtName kvmAmd ∧ Nested kvmAmd conf cpuFeatures

/-- What the list of features is. -/
structure Listed (kvmAmd : Bool) (conf : FeaturesConfig) (cpuFeatures : Option HostFeatures)
    (l : List Feature) : Prop where
  once : (l.map Feature.name).Nodup
  policies : ∀ f ∈ l, f.policy = .require ∨ f.policy = .disable
  disable : ∀ n, ⟨n, .disable⟩ ∈ l ↔ Disabled kvmAmd conf cpuFeatures n ∧ n ≠ "hypervisor"
  require : ∀ n, ⟨n, .require⟩ ∈ l ↔
    Required kvmAmd conf cpuFeatures n ∧ ¬ Disabled kvmAmd conf cpuFeatures n ∧ n ≠ "invtsc"

/-- All that the user or the host disables is listed so, and what else is listed is required. -/
structure Separated (conf : FeaturesConfig) (cpuFeatures : Option HostFeatures)
    (l : List Feature) : Prop where
  once : (l.map Feature.name).Nodup
  disable : ∀ n, n ∈ conf.disabled ∨ (∃ u ∈ cpuFeatures, n ∈ u.disabled) → n ≠ "hypervisor" →
    ⟨n, .disable⟩ ∈ l
  require : ∀ f ∈ l, f.name ∉ conf.disabled → (∀ u ∈ cpuFeatures, f.name ∉ u.disabled) →
    f.policy = .require

variable {hash : HashOrder} {kvmAmd : Bool} {conf : FeaturesConfig} {r features : Finset String}
  {n : String}

theorem mem_require {p : EPolicy} : ⟨n, p⟩ ∈ require hash r features ↔
    p = .require ∧ n ∈ r ∧ n ∉ features ∧ n ≠ "invtsc" := by
  simp only [require, List.mem_map, List.mem_filter, hash.mem, Feature.mk.injEq,
    Bool.and_eq_true, decide_eq_true_eq, bne_iff_ne]
  constructor
  · rintro ⟨_, ⟨hr, hfeatures, hname⟩, rfl, rfl⟩
    exact ⟨rfl, hr, hfeatures, hname⟩
  · rintro ⟨rfl, hr, hfeatures, hname⟩
    exact ⟨n, ⟨hr, hfeatures, hname⟩, rfl, rfl⟩

theorem mem_disable {p : EPolicy} : ⟨n, p⟩ ∈ disable hash features ↔
    p = .disable ∧ n ∈ features := by
  simp only [disable, List.mem_map, hash.mem, Feature.mk.injEq]
  constructor
  · rintro ⟨_, hfeatures, rfl, rfl⟩
    exact ⟨rfl, hfeatures⟩
  · rintro ⟨rfl, hfeatures⟩
    exact ⟨n, hfeatures, rfl, rfl⟩

theorem names_require : (require hash r features).map Feature.name =
    (hash.order r).filter fun name => decide (name ∉ features) && name != "invtsc" := by
  rw [require, List.map_map]
  exact List.map_id _

theorem names_disable : (disable hash features).map Feature.name = hash.order features := by
  rw [disable, List.map_map]
  exact List.map_id _

/-- What is required is not disabled. -/
theorem listed_once : ((require hash r features ++ disable hash (features.erase "hypervisor")).map
    Feature.name).Nodup := by
  rw [List.map_append, names_require, names_disable, List.nodup_append]
  refine ⟨(hash.nodup r).filter _, hash.nodup _, ?_⟩
  rintro a ha b hb rfl
  rw [List.mem_filter, Bool.and_eq_true, decide_eq_true_eq] at ha
  rw [hash.mem, Finset.mem_erase] at hb
  exact ha.2.1 hb.2

/-- The nested feature is asked for, as `getFeatures` tests it. -/
theorem nested_some {u : HostFeatures} : Nested kvmAmd conf (some u) ↔
    conf.isVirtualizedHV = true ∧ getNestedVtName kvmAmd ∉ u.disabled.toFinset := by
  simp [Nested]

theorem mem_nest {u : HostFeatures} :
    (n ∈ (nest conf (getNestedVtName kvmAmd) u.disabled.toFinset r features).1 ↔
      n ∈ r ∨ n = getNestedVtName kvmAmd ∧ Nested kvmAmd conf (some u)) ∧
    (n ∈ (nest conf (getNestedVtName kvmAmd) u.disabled.toFinset r features).2 ↔
      n ∈ features ∧ ¬ (n = getNestedVtName kvmAmd ∧ Nested kvmAmd conf (some u))) := by
  rw [nested_some]
  unfold nest
  split
  · next h =>
    constructor
    · rw [Finset.mem_insert, or_comm]
      exact or_congr_right (by simp only [h, and_true, not_false_eq_true])
    · rw [Finset.mem_erase, and_comm]
      exact and_congr_right fun _ => by simp only [h, and_true, not_false_eq_true, ne_eq]
  · next h =>
    exact ⟨by simp only [h, and_false, or_false], by simp only [h, and_false, not_false_eq_true,
      and_true]⟩

/-- The features that are disabled before the host is asked. -/
theorem mem_own : n ∈ insert "svm" (insert "vmx" (insert "arat" conf.disabled)) ↔
    n ∈ conf.disabled ∨ n ∈ ["arat", "vmx", "svm"] := by
  simp only [Finset.mem_insert, List.mem_cons, List.not_mem_nil, or_false]
  tauto

theorem disabled_none : Disabled kvmAmd conf none n ↔
    n ∈ insert "svm" (insert "vmx" (insert "arat" conf.disabled)) := by
  rw [mem_own]
  simp [Disabled, Nested]

theorem disabled_some {u : HostFeatures} : Disabled kvmAmd conf (some u) n ↔
    n ∈ (nest conf (getNestedVtName kvmAmd) u.disabled.toFinset r
      (insert "svm" (insert "vmx" (insert "arat" conf.disabled)))).2 ∪ u.disabled.toFinset := by
  rw [Finset.mem_union, mem_nest.2, mem_own, List.mem_toFinset, or_comm]
  simp [Disabled]

theorem required_some {u : HostFeatures} : Required kvmAmd conf (some u) n ↔
    n ∈ (nest conf (getNestedVtName kvmAmd) u.disabled.toFinset u.required.toFinset
      features).1 := by
  rw [mem_nest.1, List.mem_toFinset]
  simp [Required]

theorem getFeatures_listed (hash : HashOrder) (kvmAmd : Bool) (conf : FeaturesConfig)
    (cpuFeatures : Option HostFeatures) :
    Listed kvmAmd conf cpuFeatures (getFeatures hash kvmAmd conf cpuFeatures) := by
  cases cpuFeatures with
  | none =>
    refine ⟨?_, ?_, fun n => ?_, fun n => ?_⟩
    · rw [getFeatures, names_disable]
      exact hash.nodup _
    · rintro ⟨n, p⟩ hf
      exact .inr (mem_disable.mp hf).1
    · rw [getFeatures, mem_disable, Finset.mem_erase, disabled_none]
      exact ⟨fun h => ⟨h.2.2, h.2.1⟩, fun h => ⟨rfl, h.2, h.1⟩⟩
    · rw [getFeatures, mem_disable]
      exact iff_of_false (fun h => by cases h.1) fun h => by simp [Required, Nested] at h
  | some u =>
    refine ⟨listed_once, ?_, fun n => ?_, fun n => ?_⟩
    · rintro ⟨n, p⟩ hf
      obtain hf | hf := List.mem_append.mp hf
      · exact .inl (mem_require.mp hf).1
      · exact .inr (mem_disable.mp hf).1
    · rw [getFeatures, List.mem_append, mem_require, mem_disable, Finset.mem_erase, disabled_some]
      constructor
      · rintro (h | ⟨-, hname, hmem⟩)
        · cases h.1
        · exact ⟨hmem, hname⟩
      · rintro ⟨hmem, hname⟩
        exact .inr ⟨rfl, hname, hmem⟩
    · rw [getFeatures, List.mem_append, mem_require, mem_disable, required_some, disabled_some]
      constructor
      · rintro (⟨-, hr, hfeatures, hname⟩ | h)
        · exact ⟨hr, hfeatures, hname⟩
        · cases h.1
      · rintro ⟨hr, hfeatures, hname⟩
        exact .inl ⟨rfl, hr, hfeatures, hname⟩

/-- The flag that the configuration has after the list is read. -/
theorem isVirtualizedHV_read {mask : Option (Finset String)} {l : List Feature} :
    (setDisabledFeatures kvmAmd mask l conf).isVirtualizedHV =
      match l.find? (isSought kvmAmd) with
      | some f => conf.isVirtualizedHV && f.policy != .disable
      | none => conf.isVirtualizedHV := by
  have hupdate : ∀ c : FeaturesConfig,
      (CCpuHelper.update mask c).isVirtualizedHV = c.isVirtualizedHV := by
    intro c
    cases mask <;> rfl
  rw [setDisabledFeatures, hupdate]
  cases l.find? (isSought kvmAmd) with
  | none => rfl
  | some f => cases hp : f.policy <;> simp [hp]

/-- The list of features; and after it is read back, the flag is off only where the nested feature
is listed as disabled. -/
theorem features_listed (hash : HashOrder) (kvmAmd : Bool) (conf : FeaturesConfig)
    (cpuFeatures : Option HostFeatures) :
    Listed kvmAmd conf cpuFeatures (getFeatures hash kvmAmd conf cpuFeatures) ∧
      ∀ mask conf', conf'.isVirtualizedHV = true →
        (setDisabledFeatures kvmAmd mask (getFeatures hash kvmAmd conf cpuFeatures)
          conf').isVirtualizedHV = false →
        ⟨getNestedVtName kvmAmd, .disable⟩ ∈ getFeatures hash kvmAmd conf cpuFeatures := by
  refine ⟨getFeatures_listed hash kvmAmd conf cpuFeatures, ?_⟩
  intro mask conf' hon hoff
  rw [isVirtualizedHV_read] at hoff
  split at hoff
  · next f hfound =>
    have hsought := List.find?_some hfound
    cases hsought
  · rw [hon] at hoff
    cases hoff

/-- The names gone through in the order of a list of the set. -/
theorem exists_hashOrder : Nonempty HashOrder := by
  classical
  exact ⟨⟨Finset.toList, Finset.nodup_toList, fun _ _ => Finset.mem_toList⟩⟩

/-- The user disables the nested feature, and asks for nested virtualization. -/
theorem getFeatures_requires_disabled : ∃ hash kvmAmd conf cpuFeatures,
    ¬ Separated conf cpuFeatures (getFeatures hash kvmAmd conf cpuFeatures) := by
  obtain ⟨hash⟩ := exists_hashOrder
  refine ⟨hash, false, ⟨{"vmx"}, true⟩, some ⟨[], []⟩, fun separated => ?_⟩
  have hlisted := separated.disable "vmx" (.inl (by decide)) (by decide)
  rw [(getFeatures_listed hash false ⟨{"vmx"}, true⟩ (some ⟨[], []⟩)).disable "vmx"] at hlisted
  obtain ⟨h | ⟨-, h⟩, -⟩ := hlisted
  · simp at h
  · exact h ⟨rfl, rfl, ⟨[], []⟩, rfl, by simp⟩

end CpuFeaturesMask

end DispService.Transponster
