import Mathlib.Data.List.Basic
import Mathlib.Logic.Function.Basic

/-! The filters of the network adapters: they are defined and undefined one by one, and a
definition that fails is taken back. -/
namespace DispService.Libvirt.Filter

/-- An adapter with the name of its filter and the rules of its firewall. -/
structure Adapter where
  name : String
  isEnabled : Bool
  rules : String
deriving DecidableEq

/-- The filters that libvirt has, by name. -/
abbrev Filters := String → Option String

/-- `List::undefine` of a list; `may` says which calls libvirt carries out. -/
def undefine (may : Adapter → Bool) (ignore_errors : Bool) :
    List Adapter → Filters → Bool × Filters
  | [], filters => (true, filters)
  | a :: rest, filters =>
      if !a.isEnabled then undefine may ignore_errors rest filters
      else if may a then
        undefine may ignore_errors rest (Function.update filters a.name none)
      else if ignore_errors then (false, (undefine may ignore_errors rest filters).2)
      else (false, filters)

/-- The loop of `List::define`; what was defined is undefined when a call fails. -/
def defineLoop (may : Adapter → Bool) (adapters : List Adapter) :
    List Adapter → Filters → Bool × Filters
  | [], filters => (true, filters)
  | a :: rest, filters =>
      if !a.isEnabled then defineLoop may adapters rest filters
      else if may a then
        defineLoop may adapters rest (Function.update filters a.name (some a.rules))
      else (false, (undefine (fun _ => true) true adapters filters).2)

def define (may : Adapter → Bool) (adapters : List Adapter) (filters : Filters) :
    Bool × Filters :=
  defineLoop may adapters adapters filters

def undefine_unused (may : Adapter → Bool) (ignore_errors : Bool)
    (old_adapters new_adapters : List Adapter) (filters : Filters) : Bool × Filters :=
  undefine may ignore_errors
    (old_adapters.filter fun a => !(new_adapters.map Adapter.name).contains a.name) filters

/-- The rules that the adapters leave under a name. -/
def definedBy : List Adapter → String → Option String
  | [], _ => none
  | a :: rest, n =>
      (definedBy rest n).or (if a.isEnabled && a.name == n then some a.rules else none)

variable {may : Adapter → Bool} {adapters : List Adapter} {filters : Filters} {n : String}

theorem definedBy_cons_of_ne {a : Adapter} (h : a.name ≠ n) :
    definedBy (a :: adapters) n = definedBy adapters n := by
  rw [definedBy]
  simp [h]

theorem definedBy_eq_none :
    definedBy adapters n = none ↔ ∀ a ∈ adapters, a.isEnabled = true → a.name ≠ n := by
  induction adapters with
  | nil => exact iff_of_true rfl fun a ha => absurd ha List.not_mem_nil
  | cons a adapters ih =>
      unfold definedBy
      rw [Option.or_eq_none_iff, ih, List.forall_mem_cons, and_comm]
      apply and_congr_left'
      cases a.isEnabled <;> simp

theorem undefine_apply (ignore_errors : Bool) :
    (undefine (fun _ => true) ignore_errors adapters filters).2 n =
      if definedBy adapters n = none then filters n else none := by
  induction adapters generalizing filters with
  | nil => rfl
  | cons a adapters ih =>
      unfold undefine definedBy
      cases hen : a.isEnabled
      · simp only [Bool.not_false, if_true]
        rw [ih]
        simp
      · simp only [Bool.not_true, Bool.false_eq_true, if_false, if_true]
        rw [ih]
        by_cases hn : a.name = n
        · subst hn
          simp
        · rw [Function.update_of_ne (Ne.symm hn)]
          simp [hn]

theorem undefine_ok {ignore_errors : Bool} :
    (undefine may ignore_errors adapters filters).1 = true ↔
      ∀ a ∈ adapters, a.isEnabled = true → may a = true := by
  induction adapters generalizing filters with
  | nil => exact iff_of_true rfl fun a ha => absurd ha List.not_mem_nil
  | cons a adapters ih =>
      rw [List.forall_mem_cons]
      unfold undefine
      cases hen : a.isEnabled
      · simp [ih]
      · cases hmay : may a
        · cases ignore_errors <;> simp
        · simp [ih]

theorem defineLoop_ok {all : List Adapter} :
    (defineLoop may all adapters filters).1 = true ↔
      ∀ a ∈ adapters, a.isEnabled = true → may a = true := by
  induction adapters generalizing filters with
  | nil => exact iff_of_true rfl fun a ha => absurd ha List.not_mem_nil
  | cons a adapters ih =>
      rw [List.forall_mem_cons]
      unfold defineLoop
      cases hen : a.isEnabled
      · simp [ih]
      · cases hmay : may a <;> simp [ih]

theorem defineLoop_apply {all : List Adapter}
    (h : ∀ a ∈ adapters, a.isEnabled = true → may a = true) :
    (defineLoop may all adapters filters).2 n = (definedBy adapters n).or (filters n) := by
  induction adapters generalizing filters with
  | nil => rfl
  | cons a adapters ih =>
      obtain ⟨ha, hrest⟩ := List.forall_mem_cons.mp h
      unfold defineLoop definedBy
      cases hen : a.isEnabled
      · simp only [Bool.not_false, if_true]
        rw [ih hrest]
        simp
      · simp only [Bool.not_true, Bool.false_eq_true, if_false, ha hen, if_true]
        rw [ih hrest, Option.or_assoc]
        by_cases hn : a.name = n
        · subst hn
          simp
        · rw [Function.update_of_ne (Ne.symm hn)]
          simp [hn]

/-- A definition that fails undefines the filters of all its adapters. -/
theorem defineLoop_failed {all : List Adapter} (hsub : ∀ a ∈ adapters, a ∈ all)
    (h : ¬ ∀ a ∈ adapters, a.isEnabled = true → may a = true) :
    (defineLoop may all adapters filters).2 n =
      if definedBy all n = none then filters n else none := by
  induction adapters generalizing filters with
  | nil => exact absurd (fun a ha => absurd ha List.not_mem_nil) h
  | cons a adapters ih =>
      have hrest := fun b hb => hsub b (List.mem_cons_of_mem a hb)
      unfold defineLoop
      cases hen : a.isEnabled
      · simp only [Bool.not_false, if_true]
        apply ih hrest
        intro hall
        apply h
        rw [List.forall_mem_cons]
        exact ⟨fun hon => absurd (hen.symm.trans hon) Bool.false_ne_true, hall⟩
      · cases hmay : may a
        · simp only [Bool.not_true, Bool.false_eq_true, if_false]
          exact undefine_apply true
        · simp only [Bool.not_true, Bool.false_eq_true, if_false, if_true]
          rw [ih hrest]
          · by_cases hn : a.name = n
            · have hdef : definedBy all n ≠ none := by
                intro hnone
                exact definedBy_eq_none.mp hnone a (hsub a List.mem_cons_self) hen hn
              rw [if_neg hdef, if_neg hdef]
            · rw [Function.update_of_ne (Ne.symm hn)]
          · intro hall
            apply h
            rw [List.forall_mem_cons]
            exact ⟨fun _ => hmay, hall⟩

theorem define_ok :
    (define may adapters filters).1 = true ↔
      ∀ a ∈ adapters, a.isEnabled = true → may a = true :=
  defineLoop_ok

/-- A failed definition leaves the filters as they were exactly when none of the adapters
had one. -/
theorem define_failed_keeps_iff (h : (define may adapters filters).1 = false) :
    (define may adapters filters).2 = filters ↔
      ∀ n, definedBy adapters n ≠ none → filters n = none := by
  have hfail : ¬ ∀ a ∈ adapters, a.isEnabled = true → may a = true := by
    rw [← @define_ok may adapters filters, h]
    exact Bool.false_ne_true
  rw [funext_iff]
  apply forall_congr'
  intro n
  unfold define
  rw [defineLoop_failed (fun _ ha => ha) hfail]
  by_cases hnone : definedBy adapters n = none
  · simp [hnone]
  · simp [hnone, eq_comm]

/-- What is done when a domain cannot be defined after its new filters were. -/
def rollback (old_adapters new_adapters : List Adapter) (filters : Filters) : Filters :=
  (undefine_unused (fun _ => true) true new_adapters old_adapters
    (define (fun _ => true) old_adapters filters).2).2

theorem definedBy_unused (old_adapters new_adapters : List Adapter) :
    definedBy (new_adapters.filter fun a => !(old_adapters.map Adapter.name).contains a.name) n =
      if n ∈ old_adapters.map Adapter.name then none else definedBy new_adapters n := by
  induction new_adapters with
  | nil => exact (ite_self _).symm
  | cons a new_adapters ih =>
      rw [List.filter_cons]
      by_cases hin : a.name ∈ old_adapters.map Adapter.name
      · rw [if_neg (by simp [hin]), ih]
        split
        · rfl
        · rename_i hn
          have hne : a.name ≠ n := fun heq => hn (heq ▸ hin)
          exact (definedBy_cons_of_ne hne).symm
      · rw [if_pos (by simp [hin])]
        by_cases hn : n ∈ old_adapters.map Adapter.name
        · have hne : a.name ≠ n := fun heq => hin (heq ▸ hn)
          rw [definedBy_cons_of_ne hne, ih, if_pos hn, if_pos hn]
        · rw [if_neg hn] at ih ⊢
          rw [definedBy, definedBy, ih]

theorem rollback_apply (old_adapters new_adapters : List Adapter) :
    rollback old_adapters new_adapters filters n =
      if definedBy new_adapters n ≠ none ∧ n ∉ old_adapters.map Adapter.name then none
      else (definedBy old_adapters n).or (filters n) := by
  unfold rollback undefine_unused
  rw [undefine_apply, definedBy_unused]
  unfold define
  rw [defineLoop_apply fun _ _ _ => rfl]
  by_cases hold : n ∈ old_adapters.map Adapter.name
  · simp [hold]
  · by_cases hnew : definedBy new_adapters n = none
    · simp [hnew]
    · simp [hold, hnew]

/-- A filter comes through the definition of the new ones and its rollback: it is the one
of an old adapter, or it is not touched, or what is defined anew is undefined or the same. -/
def Kept (old_adapters new_adapters : List Adapter) (filters : Filters) (n : String) : Prop :=
  (definedBy old_adapters n ≠ none → filters n = definedBy old_adapters n) ∧
    (definedBy old_adapters n = none → definedBy new_adapters n ≠ none →
      filters n = if n ∈ old_adapters.map Adapter.name then definedBy new_adapters n else none)

theorem rollback_keeps_iff (old_adapters new_adapters : List Adapter)
    (h : (define may new_adapters filters).1 = true) :
    rollback old_adapters new_adapters (define may new_adapters filters).2 = filters ↔
      ∀ n, Kept old_adapters new_adapters filters n := by
  rw [funext_iff]
  apply forall_congr'
  intro n
  unfold define at h ⊢
  rw [rollback_apply, defineLoop_apply (defineLoop_ok.mp h)]
  unfold Kept
  cases hold : definedBy old_adapters n with
  | none =>
      cases hnew : definedBy new_adapters n with
      | none => simp
      | some rules =>
          by_cases hmem : n ∈ old_adapters.map Adapter.name
          · simp [hmem, eq_comm]
          · simp [hmem, eq_comm]
  | some rules =>
      have hmem : n ∈ old_adapters.map Adapter.name := by
        by_contra hno
        have hnone : definedBy old_adapters n = none := by
          rw [definedBy_eq_none]
          intro a ha _ heq
          exact hno (heq ▸ List.mem_map_of_mem ha)
        rw [hold] at hnone
        cases hnone
      simp [hmem, eq_comm]

end DispService.Libvirt.Filter
