import DispService.Restore.Replaced

/-! When what was at a target is there again, and not only somewhere, after an assembly
that came to nothing. -/
namespace DispService.Restore

open DispService.Lib FileSystem Local

section Conditions

variable (kinds : String → Option Kind) (i : Item)

/-- The target is as it was when a move that is not done goes. -/
def BackDropped : Prop :=
  (kinds i.dst = none → Cleared kinds i ∨ i.may .dropRename = false) ∧
    (kinds i.dst ≠ none →
      AsideWhole kinds i ∧ i.may .dropRename = true ∨
        InPlace kinds i ∧
          (Cleared kinds i ∨ i.may .dropRename = false ∨
            kinds i.restore = some .folder ∧ kinds i.dst = some .file))

/-- The target is as it was when a move that is done is reverted. -/
def BackReverted : Prop :=
  i.may .revertUnlink = true ∧
    (kinds i.dst = none → Cleared kinds i ∨ i.may .revertRename = false) ∧
    (kinds i.dst ≠ none → AsideWhole kinds i ∧ i.may .revertRename = true)

/-- All targets are as they were when what `do_` came to is undone. -/
def BackUndone (items : List Item) : Prop :=
  (∀ i ∈ items.takeWhile (Moves kinds ·), BackReverted kinds i) ∧
    ∀ i ∈ items.dropWhile (Moves kinds ·), BackDropped kinds i

end Conditions

section Slot

variable {kinds : String → Option Kind} {i : Item}

theorem dropped_back (hne : i.dst ≠ i.restore) :
    (((slots i (initial kinds)).setAside i.may).dropMove i.may).dst = initial kinds i.dst ↔
      BackDropped kinds i := by
  rw [setAside_initial]
  unfold BackDropped AsideWhole InPlace Cleared Slots.dropMove Slots.transfer Slots.put
    Slots.clear initial
  cases hmay : i.may .aside <;> cases hunlink : i.may .asideUnlink <;>
    cases hdrop : i.may .dropRename <;> cases hd : kinds i.dst with
    | none =>
        cases hr : kinds i.restore with
        | none => simp [mv]
        | some k' => cases k' <;> simp [mv]
    | some k =>
        cases k <;> cases hr : kinds i.restore with
        | none => simp [mv]
        | some k' => cases k' <;> simp [mv, hne.symm]

/-- A move that is not done leaves nothing of its source at the target. -/
theorem dropped_ne (hdst : i.from_ ≠ i.dst) (hrestore : i.from_ ≠ i.restore)
    (hsrc : kinds i.from_ ≠ none) :
    (((slots i (initial kinds)).setAside i.may).dropMove i.may).dst ≠ initial kinds i.from_ := by
  obtain ⟨k, hk⟩ := Option.ne_none_iff_exists'.mp hsrc
  rw [setAside_initial]
  unfold Slots.dropMove Slots.transfer Slots.put Slots.clear initial
  cases hmay : i.may .aside <;> cases hunlink : i.may .asideUnlink <;>
    cases hdrop : i.may .dropRename <;> cases hd : kinds i.dst with
    | none =>
        cases hr : kinds i.restore with
        | none => simp [mv, hk]
        | some k' => cases k' <;> simp [mv, hk, hrestore.symm]
    | some k =>
        cases k <;> cases hr : kinds i.restore with
        | none => simp [mv, hk, hdst.symm]
        | some k' => cases k' <;> simp [mv, hk, hdst.symm, hrestore.symm]

theorem setAside_restore_none (hk : kinds i.dst = none) :
    ((slots i (initial kinds)).setAside i.may).restore = none ↔ Cleared kinds i := by
  rw [setAside_initial]
  unfold Cleared Slots.transfer Slots.put Slots.clear initial
  cases i.may .aside <;> cases i.may .asideUnlink <;> simp [hk, mv]

/-- What reverting a done move leaves at the target. -/
theorem revertMove_dst {may : Site → Bool} {s : Slots} {c : Option Content} (hdst : s.dst ≠ none)
    (hne : s.dst ≠ c) :
    (s.revertMove may).dst = c ↔
      may .revertUnlink = true ∧ (if may .revertRename = true then s.restore else none) = c := by
  obtain ⟨src, dst, restore⟩ := s
  obtain ⟨d, rfl⟩ := Option.ne_none_iff_exists'.mp hdst
  unfold Slots.revertMove Slots.destroyDone Slots.put Slots.clear
  cases hback : may .revertUnlink <;> cases hrename : may .revertRename <;>
    cases restore <;> simp_all [mv]

section Done

variable (hfrom : i.from_ ≠ "") (hmoves : Moves kinds i) (hsrc : i.from_ ≠ i.dst)
include hfrom hmoves hsrc

/-- The content at the target of a move that is done is not the old one. -/
theorem done_ne :
    (((slots i (initial kinds)).setAside i.may).doMove i.may).dst ≠ none ∧
      (((slots i (initial kinds)).setAside i.may).doMove i.may).dst ≠ initial kinds i.dst := by
  obtain ⟨y, hput⟩ := Option.isSome_iff_exists.mp ((put_isSome hfrom).mpr hmoves)
  rw [doMove_eq_put hput]
  apply And.intro (Option.some_ne_none y)
  intro hold
  obtain ⟨k, hk, hy⟩ := initial_eq_some.mp hold.symm
  apply mv_ne (put_eq_mv hput) _ (hold ▸ setAside_dst_or)
  · rw [hy]
  · rfl
  · intro x hx
    obtain ⟨k', -, rfl⟩ := initial_eq_some.mp hx
    rw [hy]
    exact hsrc

theorem done_back (hne : i.dst ≠ i.restore) :
    ((((slots i (initial kinds)).setAside i.may).doMove i.may).revertMove i.may).dst =
      initial kinds i.dst ↔ BackReverted kinds i := by
  have hnew := done_ne hfrom hmoves hsrc
  have hkeep : (((slots i (initial kinds)).setAside i.may).doMove i.may).restore =
      ((slots i (initial kinds)).setAside i.may).restore := rfl
  rw [revertMove_dst hnew.1 hnew.2, hkeep]
  unfold BackReverted
  apply and_congr_right'
  cases hk : kinds i.dst with
  | none =>
      have hold : initial kinds i.dst = none := by
        unfold initial
        rw [hk]
        rfl
      rw [hold]
      cases i.may .revertRename
      · simp
      · simp [setAside_restore_none hk]
  | some k =>
      have hold := initial_eq_some.mpr ⟨k, hk, rfl⟩
      rw [hold]
      cases i.may .revertRename
      · simp
      · simp [setAside_restore hne hk]

end Done

end Slot

section Runs

variable {below : String → String → Bool} {mayTrash : String → Bool}
variable {kinds : String → Option Kind} {items : List Item}

theorem undone_back {done pend : List Item} (h : Disjoint below (done ++ pend))
    (hfrom : ∀ i ∈ done ++ pend, i.from_ ≠ "") (hmoves : ∀ i ∈ done, Moves kinds i) :
    (∀ i ∈ done ++ pend,
      undone below done pend (setAsideAll below (done ++ pend) (initial kinds)) i.dst =
        initial kinds i.dst) ↔
      (∀ i ∈ done, BackReverted kinds i) ∧ ∀ i ∈ pend, BackDropped kinds i := by
  rw [List.forall_mem_append]
  apply and_congr
  · apply forall₂_congr
    intro i hi
    have hmem := List.mem_append_left pend hi
    have hne := hfrom i hmem
    have hown := h.own i hmem hne
    rw [← done_back hne (hmoves i hi) hown.from_dst.ne hown.dst_restore.ne, setAsideAll,
      undone_done h.each hi (initial kinds) _ (region_dst i), ← slots_setAside hne hown,
      ← slots_doMove hne hown, ← slots_revertMove hne hown]
    rfl
  · apply forall₂_congr
    intro i hi
    have hmem := List.mem_append_right done hi
    have hne := hfrom i hmem
    have hown := h.own i hmem hne
    rw [← dropped_back hown.dst_restore.ne, setAsideAll,
      undone_pend h.each hi (initial kinds) _ (region_dst i), ← slots_setAside hne hown,
      ← slots_dropMove hne hown]
    rfl

/-- What `do_` comes to. -/
def doneWith (below : String → String → Bool) (kinds : String → Option Kind)
    (items : List Item) : PrlResult × Assembly × Fs :=
  (build below items (initial kinds)).1.do_ below (build below items (initial kinds)).2

variable (h : Disjoint below items) (hfrom : ∀ i ∈ items, i.from_ ≠ "")
include h

theorem doneWith_failed :
    (doneWith below kinds items).1.failed = false ↔ ∀ i ∈ items, Moves kinds i := by
  unfold doneWith
  rw [do_eq_of_disjoint kinds h.each h.own, ← all_moves_iff]
  split
  · rename_i hall
    exact iff_of_true rfl hall
  · rename_i hall
    exact iff_of_false (fun hno => by cases hno) hall

/-- An assembly that was reverted leaves the targets alone. -/
theorem destroy_reverted_dst (fs : Fs) {i : Item} (hi : i ∈ items) :
    ((doneWith below kinds items).2.1.revert below (doneWith below kinds items).2.2).1.destroy
      below mayTrash fs i.dst = fs i.dst := by
  unfold doneWith
  rw [do_eq_of_disjoint kinds h.each h.own]
  dsimp only
  rw [revert_eq, destroy_none]
  exact emptyTrash_agree h hi _ _ (Or.inl rfl)

include hfrom

/-- The assembly goes before `do_`. -/
theorem destroyed_back :
    (∀ i ∈ items, (build below items (initial kinds)).1.destroy below mayTrash
      (build below items (initial kinds)).2 i.dst = initial kinds i.dst) ↔
      ∀ i ∈ items, BackDropped kinds i := by
  have hundone := @undone_back below kinds [] items h hfrom fun i hi => absurd hi List.not_mem_nil
  apply Iff.trans _ (hundone.trans (and_iff_right fun i hi => absurd hi List.not_mem_nil))
  apply forall₂_congr
  intro i hi
  have hrun := congrFun (@run_destroyed below mayTrash items (initial kinds)) i.dst
  rw [emptyTrash_agree h hi _ _ (Or.inl rfl)] at hrun
  exact Eq.congr_left hrun

theorem undone_split_back :
    (∀ i ∈ items, undone below (items.takeWhile (Moves kinds ·)) (items.dropWhile (Moves kinds ·))
      (setAsideAll below items (initial kinds)) i.dst = initial kinds i.dst) ↔
      BackUndone kinds items := by
  have hsplit := @moves_split kinds items
  have hundone := @undone_back below kinds (items.takeWhile (Moves kinds ·))
    (items.dropWhile (Moves kinds ·)) (hsplit.symm ▸ h) (hsplit.symm ▸ hfrom)
    (moves_takeWhile kinds items)
  rw [hsplit] at hundone
  exact hundone

/-- A move failed, and the assembly goes. -/
theorem failed_back (hfail : ¬ ∀ i ∈ items, Moves kinds i) :
    (∀ i ∈ items, (doneWith below kinds items).2.1.destroy below mayTrash
      (doneWith below kinds items).2.2 i.dst = initial kinds i.dst) ↔ BackUndone kinds items := by
  have hpend : items.dropWhile (Moves kinds ·) ≠ [] := by
    intro hnil
    exact hfail (all_moves_iff.mp (List.all_eq_true.mpr (List.dropWhile_eq_nil_iff.mp hnil)))
  rw [← @undone_split_back below kinds items h hfrom]
  apply forall₂_congr
  intro i hi
  unfold doneWith
  rw [do_eq_of_disjoint kinds h.each h.own]
  dsimp only
  rw [destroy_pending _ hpend]
  exact Eq.congr_left (emptyTrash_agree h hi _ _ (Or.inl rfl))

/-- What is not moved is not at its target. -/
theorem failed_ne (hfail : ¬ ∀ i ∈ items, Moves kinds i) (hsrc : ∀ i ∈ items, kinds i.from_ ≠ none) :
    ¬ ∀ i ∈ items, (doneWith below kinds items).2.1.destroy below mayTrash
      (doneWith below kinds items).2.2 i.dst = initial kinds i.from_ := by
  intro hnew
  have hpend : items.dropWhile (Moves kinds ·) ≠ [] := by
    intro hnil
    exact hfail (all_moves_iff.mp (List.all_eq_true.mpr (List.dropWhile_eq_nil_iff.mp hnil)))
  obtain ⟨i, hi⟩ := List.exists_mem_of_ne_nil _ hpend
  have hmem := (List.dropWhile_sublist _).subset hi
  have hne := hfrom i hmem
  have hown := h.own i hmem hne
  have hsep : Separate below
      (items.takeWhile (Moves kinds ·) ++ items.dropWhile (Moves kinds ·)) :=
    (@moves_split kinds items).symm ▸ h.each
  have hundone := undone_pend hsep hi (initial kinds) _ (region_dst i)
  rw [moves_split] at hundone
  apply dropped_ne hown.from_dst.ne hown.from_restore.ne (hsrc i hmem)
  rw [← hnew i hmem, ← slots_setAside hne hown, ← slots_dropMove hne hown]
  apply hundone.symm.trans
  unfold doneWith
  rw [do_eq_of_disjoint kinds h.each h.own]
  dsimp only
  rw [destroy_pending _ hpend]
  exact (emptyTrash_agree h hmem _ _ (Or.inl rfl)).symm

/-- What `do_` did, in full or in part, is reverted. -/
theorem reverted_back :
    (∀ i ∈ items, ((doneWith below kinds items).2.1.revert below
      (doneWith below kinds items).2.2).2 i.dst = initial kinds i.dst) ↔ BackUndone kinds items := by
  rw [← @undone_split_back below kinds items h hfrom]
  unfold doneWith
  rw [do_eq_of_disjoint kinds h.each h.own]
  dsimp only
  rw [revert_eq]
  rfl

section Committed

variable (hall : ∀ i ∈ items, Moves kinds i) {i : Item} (hi : i ∈ items)
include hall hi

/-- All moves are done, and the assembly goes. -/
theorem committed_eq :
    (doneWith below kinds items).2.1.destroy below mayTrash (doneWith below kinds items).2.2 i.dst =
      (((slots i (initial kinds)).setAside i.may).doMove i.may).dst := by
  have hne := hfrom i hi
  have hown := h.own i hi hne
  have hsep : Separate below (items ++ []) := (List.append_nil items).symm ▸ h.each
  have hmoved := moved_agree hsep hi (initial kinds)
  rw [List.append_nil] at hmoved
  unfold doneWith
  rw [do_eq_of_disjoint kinds h.each h.own, takeWhile_of_all hall, dropWhile_of_all hall]
  apply (congrFun (@destroy_ready below mayTrash items (trashOf items) _) i.dst).trans
  apply (@committed_dst below mayTrash items h i hi _).trans
  apply (hmoved _ (region_dst i)).trans
  rw [← slots_setAside hne hown, ← slots_doMove hne hown]
  rfl

theorem committed_new :
    (doneWith below kinds items).2.1.destroy below mayTrash (doneWith below kinds items).2.2 i.dst =
      initial kinds i.from_ ↔ SafeDone kinds i := by
  rw [committed_eq h hfrom hall hi]
  exact done_dst (hfrom i hi) (hall i hi) (h.own i hi (hfrom i hi)).from_dst.ne

theorem committed_not_old :
    (doneWith below kinds items).2.1.destroy below mayTrash (doneWith below kinds items).2.2 i.dst ≠
      initial kinds i.dst := by
  rw [committed_eq h hfrom hall hi]
  exact (done_ne (hfrom i hi) (hall i hi) (h.own i hi (hfrom i hi)).from_dst.ne).2

end Committed

end Runs

end DispService.Restore
