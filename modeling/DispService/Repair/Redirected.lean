import DispService.Repair.Assigned
import DispService.Repair.Repairer

/-! The boot list while the devices get other indices. An entry is rewritten at most once, and the
search passes over what was rewritten, so that old and new indices never meet. -/
namespace DispService.Repair

/-- The device of the class that an entry names, among those that have been moved. -/
def target (type : DeviceType) (done : List (Nat × Nat)) (b : BootDevice) : Option (Nat × Nat) :=
  if b.type = type then done.find? fun p => p.1 = b.index else none

/-- An entry after the devices `done` have been moved, with the flag of the copy. -/
def moved (type : DeviceType) (done : List (Nat × Nat)) (b : BootDevice) : BootDevice × Bool :=
  match target type done b with
  | some p => ({ b with index := p.2 }, false)
  | none => (b, true)

/-- The entries of the class name different devices. -/
def ClassDistinct (type : DeviceType) (boot : List BootDevice) : Prop :=
  ((boot.filter fun b => b.type = type).map BootDevice.index).Nodup

instance (type : DeviceType) (boot : List BootDevice) : Decidable (ClassDistinct type boot) :=
  inferInstanceAs (Decidable (List.Nodup _))

section Moved

variable {type : DeviceType} {done ps : List (Nat × Nat)} {b : BootDevice} {boot : List BootDevice}

theorem target_append : target type (done ++ ps) b = (target type done b).or (target type ps b) := by
  unfold target
  by_cases htype : b.type = type
  · rw [if_pos htype, if_pos htype, if_pos htype, List.find?_append]
  · rw [if_neg htype, if_neg htype, if_neg htype, Option.or_none]

theorem target_single {old new : Nat} :
    target type [(old, new)] b = if b.type = type ∧ b.index = old then some (old, new) else none := by
  unfold target
  by_cases htype : b.type = type
  · by_cases hindex : b.index = old
    · simp [htype, hindex]
    · simp [htype, hindex, Ne.symm hindex]
  · simp [htype]

/-- The device of an entry is among those that have been moved. -/
theorem target_mem {p : Nat × Nat} (h : target type done b = some p) :
    p ∈ done ∧ p.1 = b.index ∧ b.type = type := by
  unfold target at h
  by_cases htype : b.type = type
  · rw [if_pos htype] at h
    exact ⟨List.mem_of_find?_eq_some h, by simpa using List.find?_some h, htype⟩
  · rw [if_neg htype] at h
    cases h

theorem ClassDistinct.tail (distinct : ClassDistinct type (b :: boot)) :
    ClassDistinct type boot := by
  refine distinct.sublist (List.Sublist.map _ ?_)
  exact (List.sublist_cons_self b boot).filter _

theorem ClassDistinct.apart (distinct : ClassDistinct type (b :: boot)) (hb : b.type = type) :
    ∀ c ∈ boot, c.type = type → c.index ≠ b.index := by
  intro c hc htype heq
  unfold ClassDistinct at distinct
  rw [List.filter_cons_of_pos (by simpa using hb), List.map_cons, List.nodup_cons] at distinct
  exact distinct.1 (List.mem_map.mpr ⟨c, List.mem_filter.mpr ⟨hc, by simpa using htype⟩, heq⟩)

theorem moved_append {old new : Nat} (h : ¬ (b.type = type ∧ b.index = old)) :
    moved type (done ++ [(old, new)]) b = moved type done b := by
  unfold moved
  rw [target_append, target_single, if_neg h, Option.or_none]

theorem change_skip {old new : Nat} {left : Bool} {bs : List (BootDevice × Bool)}
    (h : left = true → ¬ (b.type = type ∧ b.index = old)) :
    change type old new ((b, left) :: bs) = (b, left) :: change type old new bs := by
  rw [change, if_neg]
  simp only [Bool.and_eq_true, decide_eq_true_eq, not_and]
  rintro ⟨hleft, hindex⟩ htype
  exact h hleft ⟨htype, hindex⟩

/-- One more device is moved. -/
theorem change_moved {old new : Nat} (distinct : ClassDistinct type boot)
    (hnew : old ∉ done.map Prod.fst) :
    change type old new (boot.map (moved type done)) =
      boot.map (moved type (done ++ [(old, new)])) := by
  induction boot with
  | nil => rfl
  | cons b boot ih =>
      rw [List.map_cons, List.map_cons]
      by_cases hb : b.type = type ∧ b.index = old
      · -- the entry is found, and no later one of the class has its index
        have htarget : target type done b = none := by
          cases hfind : target type done b with
          | none => rfl
          | some p =>
              obtain ⟨hp, hindex, _⟩ := target_mem hfind
              exact absurd (List.mem_map.mpr ⟨p, hp, hindex.trans hb.2⟩) hnew
        have hrest : boot.map (moved type (done ++ [(old, new)])) = boot.map (moved type done) := by
          refine List.map_congr_left fun c hc => moved_append ?_
          rintro ⟨htype, heq⟩
          exact distinct.apart hb.1 c hc htype (heq.trans hb.2.symm)
        have hbefore : moved type done b = (b, true) := by rw [moved, htarget]
        have hafter : moved type (done ++ [(old, new)]) b = ({ b with index := new }, false) := by
          rw [moved, target_append, htarget, target_single, if_pos hb, Option.none_or]
        rw [hrest, hbefore, hafter, change, if_pos (by simp [hb.1, hb.2])]
      · rw [moved_append hb, ← ih distinct.tail]
        have hskip : (moved type done b).2 = true →
            ¬ ((moved type done b).1.type = type ∧ (moved type done b).1.index = old) := by
          unfold moved
          cases target type done b with
          | none => exact fun _ => hb
          | some p => exact fun h => by cases h
        exact change_skip hskip

theorem foldl_change_moved (distinct : ClassDistinct type boot)
    (hnew : ((done ++ ps).map Prod.fst).Nodup) :
    ps.foldl (fun bs p => change type p.1 p.2 bs) (boot.map (moved type done)) =
      boot.map (moved type (done ++ ps)) := by
  induction ps generalizing done with
  | nil => rw [List.foldl_nil, List.append_nil]
  | cons p ps ih =>
      have hout : p.1 ∉ done.map Prod.fst := by
        rw [List.map_append, List.map_cons, List.nodup_append] at hnew
        exact fun hin => hnew.2.2 _ hin _ List.mem_cons_self rfl
      have hassoc : done ++ [p] ++ ps = done ++ p :: ps := by simp
      rw [List.foldl_cons, change_moved distinct hout, ih (hassoc ▸ hnew), hassoc]

end Moved

universe u

section Redirect

variable {κ : Type u} {type : DeviceType} {boot : List BootDevice} {before after : List (Device κ)}

/-- The old and the new index of every device. -/
def moves (before after : List (Device κ)) : List (Nat × Nat) :=
  (before.zip after).map fun p => (p.1.index, p.2.index)

theorem moves_nodup (hbefore : (before.map (·.index)).Nodup) (hlength : after.length = before.length) :
    ((moves before after).map Prod.fst).Nodup := by
  have hfst : (moves before after).map Prod.fst = ((before.zip after).map Prod.fst).map (·.index) := by
    rw [moves, List.map_map, List.map_map]
    rfl
  rwa [hfst, List.map_fst_zip (Nat.le_of_eq hlength.symm)]

/-- All entries are rewritten at once. -/
theorem redirect_eq (distinct : ClassDistinct type boot)
    (hbefore : (before.map (·.index)).Nodup) (hlength : after.length = before.length) :
    redirect type boot before after =
      boot.map fun b => (moved type (moves before after) b).1 := by
  have hfold : (moves before after).foldl (fun bs p => change type p.1 p.2 bs)
      (boot.map (moved type [])) = boot.map (moved type (moves before after)) :=
    foldl_change_moved distinct (moves_nodup hbefore hlength)
  rw [moves, List.foldl_map] at hfold
  have hstart : boot.map (fun b => (b, true)) = boot.map (moved type []) := by
    refine List.map_congr_left fun b _ => ?_
    simp [moved, target]
  unfold redirect
  rw [hstart, hfold, List.map_map]
  rfl

theorem target_moves {b : BootDevice} (hbefore : (before.map (·.index)).Nodup)
    (hlength : after.length = before.length) {d : Device κ × Device κ} (hd : d ∈ before.zip after)
    (htype : b.type = type) (hindex : b.index = d.1.index) :
    target type (moves before after) b = some (d.1.index, d.2.index) := by
  have hmem : (d.1.index, d.2.index) ∈ moves before after := List.mem_map.mpr ⟨d, hd, rfl⟩
  cases hfind : target type (moves before after) b with
  | none =>
      rw [target, if_pos htype] at hfind
      exact absurd hindex.symm (by simpa using List.find?_eq_none.mp hfind _ hmem)
  | some p =>
      obtain ⟨hp, heq, _⟩ := target_mem hfind
      exact congrArg some (List.inj_on_of_nodup_map (moves_nodup hbefore hlength) hp hmem
        (heq.trans hindex))

end Redirect

/-- The devices `after` are the devices `new` with other indices, and `devices` is their list in
order. The entries of the boot list go with them. -/
structure Reindexed {κ δ : Type} (k : Kind κ δ) (old new after devices : List (Device κ))
    (boot boot' : List BootDevice) : Prop where
  length : after.length = new.length
  same : ∀ d ∈ new.zip after, d.2 = { d.1 with index := d.2.index, itemId := d.2.itemId }
  order : devices.Perm after
  ascending : devices.Pairwise fun a b => a.index < b.index
  matching : ∀ d ∈ new.zip after, ∀ s ∈ old, s.index = d.2.index → k.found d.1 s = true
  bootLength : boot'.length = boot.length
  others : ∀ (j : Nat) (b : BootDevice), boot[j]? = some b → b.type ≠ k.type → boot'[j]? = some b
  follows : ∀ (j : Nat) (b : BootDevice), boot[j]? = some b → b.type = k.type →
    ∀ d ∈ new.zip after, d.1.index = b.index → boot'[j]? = some { b with index := d.2.index }

section Index

variable {κ δ : Type} {k : Kind κ δ} {old new : List (Device κ)} {boot : List BootDevice}

theorem assigned_pair {p : Device κ × Device κ} (hp : p ∈ new.zip (assigned k.found old new)) :
    p.2 = { p.1 with index := p.2.index, itemId := p.2.itemId } ∧
      ((∃ s ∈ old, k.found p.1 s = true ∧ p.2.index = s.index) ∨
        ∀ s ∈ old, p.2.index ≠ s.index) := by
  obtain ⟨heq, hsource⟩ := assign_pair (mergeSort_sorted _) hp
  refine ⟨heq, hsource.imp_right fun hout s hs hindex => hout ?_⟩
  rw [hindex]
  exact List.mem_mergeSort.mpr (List.mem_map_of_mem hs)

theorem assigned_distinct (hold : (old.map (·.index)).Nodup) :
    ((assigned k.found old new).map (·.index)).Nodup :=
  assign_distinct hold (mergeSort_sorted _) fun _ hs =>
    List.mem_mergeSort.mpr (List.mem_map_of_mem hs)

theorem sort_ascending {devices : List (Device κ)} (distinct : (devices.map (·.index)).Nodup) :
    (sort devices).Pairwise fun a b => a.index < b.index := by
  have hdistinct : ((sort devices).map (·.index)).Nodup :=
    (sort_perm.map _).nodup_iff.mpr distinct
  have hne : (sort devices).Pairwise fun a b => a.index ≠ b.index := List.pairwise_map.mp hdistinct
  exact sort_sorted.imp₂ (fun _ _ => Nat.lt_of_le_of_ne) hne

/-- The boot order survives the new indices of a class of devices. -/
theorem index_reindexed (hold : (old.map (·.index)).Nodup) (hnew : (new.map (·.index)).Nodup)
    (hboot : ClassDistinct k.type boot) :
    Reindexed k old new (assigned k.found old new) (k.index old new boot).1 boot
      (k.index old new boot).2 := by
  have hlength : (assigned k.found old new).length = new.length := assign_length
  have hredirect : (k.index old new boot).2 =
      boot.map fun b => (moved k.type (moves new (assigned k.found old new)) b).1 :=
    redirect_eq hboot hnew hlength
  constructor
  case length => exact hlength
  case same => exact fun d hd => (assigned_pair hd).1
  case order => exact sort_perm
  case ascending => exact sort_ascending (assigned_distinct hold)
  case matching =>
    intro d hd s hs hindex
    rcases (assigned_pair hd).2 with ⟨t, ht, hfound, heq⟩ | hnone
    · have hst : s = t := List.inj_on_of_nodup_map hold hs ht (hindex.trans heq)
      exact hst ▸ hfound
    · exact absurd hindex.symm (hnone s hs)
  case bootLength => rw [hredirect, List.length_map]
  case others =>
    intro j b hj htype
    rw [hredirect, List.getElem?_map, hj, Option.map_some, moved, target, if_neg htype]
  case follows =>
    intro j b hj htype d hd hindex
    rw [hredirect, List.getElem?_map, hj, Option.map_some, moved,
      target_moves hnew hlength hd htype hindex.symm]

/-- Two disks change places and a third one is new. -/
theorem index_reindexed_swapped :
    let disk (i : Nat) (name : String) : Device HardDisk :=
      { index := i, itemId := i, body := ⟨name, "", "", "", "", 0⟩ }
    let old := [disk 0 "a", disk 1 "b"]
    let new := [disk 0 "b", disk 1 "a", disk 2 "c"]
    let boot := [⟨.hardDisk, 0⟩, ⟨.hardDisk, 1⟩, ⟨.opticalDisk, 0⟩]
    Reindexed hardDisk old new (assigned hardDisk.found old new) (hardDisk.index old new boot).1 boot
      (hardDisk.index old new boot).2 := by
  intro disk old new boot
  exact index_reindexed (by decide) (by decide) (by decide)

end Index

end DispService.Repair
