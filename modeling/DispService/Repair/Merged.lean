import DispService.Repair.Assigned

/-! When the merge of the devices of one class keeps what was stored. -/
namespace DispService.Repair

universe u v

variable {κ : Type u} {δ : Type v} {k : Kind κ δ} {p : Device κ → Bool}
  {f : Device κ → Device κ → Device κ} {old new devices target : List (Device κ)}
  {passes : List (Device κ → Bool)} {present : List Nat}

/-- What no step of the merge changes after the indices are given. -/
def Device.header (d : Device κ) : Nat × Nat × Bool × Nat × Nat :=
  (d.index, d.itemId, d.disabled, d.origin)

/-- A step that copies by index keeps header and key, and does nothing to a device
that it copies onto itself. -/
structure Kind.Copies (k : Kind κ δ) (f : Device κ → Device κ → Device κ) : Prop where
  header : ∀ d x, (f d x).header = d.header
  key : ∀ d x, k.key (f d x).body = k.key d.body
  self : ∀ d, f d d = d

structure Kind.Lawful (k : Kind κ δ) : Prop where
  copy : k.Copies k.copy
  settle : k.Copies k.settle
  /-- A device that got the index of a match is found by itself. -/
  own : ∀ n s x, k.found n s = true → x.index = s.index → k.key x.body = k.key n.body →
    k.found x x = true
  /-- Disabled devices are added by one of the passes, or there is none. -/
  passes : k.passes = [] ∨ ∃ p ∈ k.passes, ∀ d : Device κ, d.disabled = true → p d = true

theorem getDeviceByIndex_self (distinct : (devices.map (·.index)).Nodup) {d : Device κ}
    (hd : d ∈ devices) : getDeviceByIndex devices d.index = some d := by
  unfold getDeviceByIndex
  induction devices with
  | nil => cases hd
  | cons x devices ih =>
      obtain ⟨hx, hrest⟩ := List.nodup_cons.mp distinct
      rcases List.mem_cons.mp hd with rfl | hd
      · exact List.find?_cons_of_pos (decide_eq_true rfl)
      · rw [List.find?_cons_of_neg]
        · exact ih hrest hd
        · rw [decide_eq_true_eq]
          exact fun heq => hx (List.mem_map.mpr ⟨d, hd, heq.symm⟩)

theorem getDeviceByIndex_isNone {i : Nat} :
    (getDeviceByIndex devices i).isNone = decide (i ∉ devices.map (·.index)) := by
  unfold getDeviceByIndex
  rw [Bool.eq_iff_iff, Option.isNone_iff_eq_none, List.find?_eq_none, decide_eq_true_eq]
  constructor
  · intro h hin
    obtain ⟨d, hd, heq⟩ := List.mem_map.mp hin
    exact h d hd (decide_eq_true heq)
  · intro h d hd heq
    exact h (List.mem_map.mpr ⟨d, hd, of_decide_eq_true heq⟩)

/-- What a copying step makes of one device. -/
def Device.copied (f : Device κ → Device κ → Device κ) (old : List (Device κ)) (d : Device κ) :
    Device κ :=
  match getDeviceByIndex old d.index with
  | none => d
  | some x => f d x

theorem copyFrom_map : copyFrom f old target = target.map (Device.copied f old) := rfl

theorem copied_header (copies : k.Copies f) (old : List (Device κ)) (d : Device κ) :
    (d.copied f old).header = d.header ∧ k.key (d.copied f old).body = k.key d.body := by
  unfold Device.copied
  split
  · exact ⟨rfl, rfl⟩
  · exact ⟨copies.header d _, copies.key d _⟩

theorem copied_index (copies : k.Copies f) (old : List (Device κ)) (d : Device κ) :
    (d.copied f old).index = d.index :=
  congrArg Prod.fst (copied_header copies old d).1

theorem copyFrom_index (copies : k.Copies f) (old : List (Device κ)) :
    (copyFrom f old target).map (·.index) = target.map (·.index) := by
  rw [copyFrom_map, List.map_map]
  exact List.map_congr_left fun d _ => copied_index copies old d

/-- A copying step leaves stored devices as they are. -/
theorem copyFrom_stored (copies : k.Copies f) (distinct : (old.map (·.index)).Nodup)
    (h : ∀ d ∈ target, d ∈ old) : copyFrom f old target = target := by
  rw [copyFrom_map]
  refine (List.map_congr_left fun d hd => ?_).trans (List.map_id target)
  unfold Device.copied
  rw [getDeviceByIndex_self distinct (h d hd)]
  exact copies.self d

theorem addMissing_eq (distinct : (old.map (·.index)).Nodup) :
    addMissing p old target =
      target ++ old.filter fun d => p d && decide (d.index ∉ target.map (·.index)) := by
  unfold addMissing
  induction old generalizing target with
  | nil => simp
  | cons d old ih =>
      obtain ⟨hd, hrest⟩ := List.nodup_cons.mp distinct
      rw [List.foldl_cons, getDeviceByIndex_isNone]
      by_cases hadd : (p d && decide (d.index ∉ target.map (·.index))) = true
      · rw [if_pos hadd, ih hrest, List.filter_cons, if_pos hadd, List.append_assoc]
        refine congrArg (target ++ d :: ·) ?_
        apply List.filter_congr
        intro x hx
        have hne : x.index ≠ d.index := fun heq => hd (List.mem_map.mpr ⟨x, hx, heq⟩)
        simp [hne]
      · rw [if_neg hadd, ih hrest, List.filter_cons, if_neg hadd]

/-- What the passes append to devices with the present indices. -/
def appended : List (Device κ → Bool) → List (Device κ) → List Nat → List (Device κ)
  | [], _, _ => []
  | p :: ps, old, present =>
      let added := old.filter fun d => p d && decide (d.index ∉ present)
      added ++ appended ps old (present ++ added.map (·.index))

theorem addMissing_all (distinct : (old.map (·.index)).Nodup) :
    passes.foldl (fun target p => addMissing p old target) target =
      target ++ appended passes old (target.map (·.index)) := by
  induction passes generalizing target with
  | nil => simp [appended]
  | cons p ps ih =>
      rw [List.foldl_cons, ih, addMissing_eq distinct, List.append_assoc, List.map_append]
      rfl

theorem appended_mem {d : Device κ} (h : d ∈ appended passes old present) :
    d ∈ old ∧ d.index ∉ present := by
  induction passes generalizing present with
  | nil => cases h
  | cons p ps ih =>
      rcases List.mem_append.mp h with h | h
      · obtain ⟨hin, hp⟩ := List.mem_filter.mp h
        rw [Bool.and_eq_true, decide_eq_true_eq] at hp
        exact ⟨hin, hp.2⟩
      · obtain ⟨hin, hno⟩ := ih h
        exact ⟨hin, fun hp => hno (List.mem_append_left _ hp)⟩

theorem appended_distinct (distinct : (old.map (·.index)).Nodup) :
    ((appended passes old present).map (·.index)).Nodup := by
  induction passes generalizing present with
  | nil => exact List.nodup_nil
  | cons p ps ih =>
      unfold appended
      rw [List.map_append]
      refine List.nodup_append.mpr ⟨distinct.sublist (List.filter_sublist.map _), ih, ?_⟩
      rintro a ha b hb rfl
      obtain ⟨d, hd, hindex⟩ := List.mem_map.mp hb
      refine (appended_mem hd).2 (List.mem_append_right _ ?_)
      rw [hindex]
      exact ha

theorem eq_of_index (distinct : (old.map (·.index)).Nodup) {a b : Device κ} (ha : a ∈ old)
    (hb : b ∈ old) (heq : a.index = b.index) : a = b := by
  have hself := getDeviceByIndex_self distinct ha
  rw [heq, getDeviceByIndex_self distinct hb] at hself
  exact (Option.some.inj hself).symm

theorem appended_covers (distinct : (old.map (·.index)).Nodup) (hp : p ∈ passes) {d : Device κ}
    (hd : d ∈ old) (hadds : p d = true) :
    d.index ∈ present ∨ d ∈ appended passes old present := by
  induction passes generalizing present with
  | nil => cases hp
  | cons q ps ih =>
      by_cases hin : d.index ∈ present
      · exact .inl hin
      · refine .inr ?_
        unfold appended
        rw [List.mem_append, List.mem_filter]
        by_cases hq : q d = true
        · exact .inl ⟨hd, by rw [hq, Bool.true_and]; exact decide_eq_true hin⟩
        · refine .inr ?_
          rcases List.mem_cons.mp hp with rfl | hps
          · exact absurd hadds hq
          · refine (ih hps).resolve_left fun hmem => ?_
            rcases List.mem_append.mp hmem with hmem | hmem
            · exact hin hmem
            · obtain ⟨x, hx, hindex⟩ := List.mem_map.mp hmem
              obtain ⟨hxold, hqx⟩ := List.mem_filter.mp hx
              rw [Bool.and_eq_true] at hqx
              rw [eq_of_index distinct hxold hd hindex] at hqx
              exact hq hqx.1

theorem appended_congr {other : List Nat} (h : ∀ i, i ∈ present ↔ i ∈ other) :
    appended passes old present = appended passes old other := by
  induction passes generalizing present other with
  | nil => rfl
  | cons p ps ih =>
      have hadded : (old.filter fun d => p d && decide (d.index ∉ present)) =
          old.filter fun d => p d && decide (d.index ∉ other) := by
        apply List.filter_congr
        intro d _
        simp only [h]
      unfold appended
      rw [hadded]
      refine congrArg _ (ih fun i => ?_)
      rw [List.mem_append, List.mem_append, h]

/-- The stored devices that the domain has. -/
def enabled (old : List (Device κ)) : List (Device κ) := old.filter fun d => !d.disabled

/-- The stored devices that the merge appends. -/
def Kind.late (k : Kind κ δ) (old : List (Device κ)) : List (Device κ) :=
  appended k.passes old ((enabled old).map (·.index))

/-- The domain has exactly the stored enabled devices, in any order and with any
indices. -/
structure Kind.Translated (k : Kind κ δ) (old new : List (Device κ)) : Prop where
  running : ∀ n ∈ new, n.disabled = false
  same : (new.map fun n => (n.origin, k.key n.body)).Perm
    ((enabled old).map fun s => ((s.index, s.itemId), k.key s.body))

/-- What a merge promises for a class of devices. -/
structure Kind.Repaired (k : Kind κ δ) (old new merged : List (Device κ)) : Prop where
  distinct : (merged.map (·.index)).Nodup
  origins : ∀ n ∈ new, ∃ x ∈ merged, x.disabled = false ∧ x.origin = n.origin ∧
    k.key x.body = k.key n.body
  indices : ∀ x ∈ merged, x.disabled = false → (x.index, x.itemId) = x.origin
  /-- Of the classes whose disabled devices are kept, each is there once, unchanged. -/
  disabled : k.passes ≠ [] → ∀ d ∈ old, d.disabled = true →
    merged.filter (fun x => decide (x.index = d.index)) = [d]

/-- The devices that are appended come in the order of the indices, after all others. -/
structure Kind.Ordered (k : Kind κ δ) (old : List (Device κ)) : Prop where
  late : (k.late old).Pairwise fun a b => a.index ≤ b.index
  after : ∀ e ∈ old, e.disabled = false → ∀ d ∈ k.late old, e.index ≤ d.index

/-- When the merge keeps its promises. -/
structure Kind.Clear (k : Kind κ δ) (old new : List (Device κ)) : Prop where
  picks : Picks k.found old [] new
  selves : ∀ d ∈ k.late old, k.found d d = true
  ordered : k.Ordered old

end DispService.Repair
