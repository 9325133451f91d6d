import DispService.Restore.Kept
import Mathlib.Data.List.TakeWhile

/-! The assembly from its first move to its destructor. It keeps the data that it replaces
exactly when no call fails whose failure it ignores. -/
namespace DispService.Restore

open DispService.Lib FileSystem Local

/-- The ways to use an assembly. -/
inductive Use where
  | destroyed | done | reverted
deriving DecidableEq

/-- What `do_` says, if it was called, what it leaves, and what is left in the end. -/
structure Outcome where
  result : Option PrlResult
  moved : Fs
  final : Fs

section Runs

variable (below : String → String → Bool)

def build (items : List Item) (fs : Fs) : Assembly × Fs :=
  items.foldl (fun r i =>
    if i.external then r.1.addExternal below r.2 i.src i.dst i.may
    else r.1.addEssential below r.2 i.src.absoluteFilePath i.dst i.may) ({}, fs)

def run (use : Use) (mayTrash : String → Bool) (items : List Item) (fs : Fs) : Outcome :=
  let a := build below items fs
  match use with
  | .destroyed => ⟨none, a.2, a.1.destroy below mayTrash a.2⟩
  | .done =>
      let r := a.1.do_ below a.2
      ⟨some r.1, r.2.2, r.2.1.destroy below mayTrash r.2.2⟩
  | .reverted =>
      let r := a.1.do_ below a.2
      let b := r.2.1.revert below r.2.2
      ⟨some r.1, r.2.2, b.1.destroy below mayTrash b.2⟩

/-- The paths of different items have nothing in common, and the folders in the trash
hold no target. -/
structure Disjoint (items : List Item) : Prop where
  own : ∀ i ∈ items, i.from_ ≠ "" → ApartPaths below i
  each : items.Pairwise fun i j => ∀ p, region below i p → ¬ region below j p
  trash : ∀ i ∈ items, i.external = true → ∀ j ∈ items,
    ¬ Within below i.src.absolutePath j.dst ∧ ¬ Within below i.src.absolutePath j.restore

/-- What the target is to hold. -/
def newContent (kinds : String → Option Kind) (i : Item) : Option Content :=
  if i.from_ = "" then initial kinds i.dst else initial kinds i.from_

/-- The targets that are replaced. -/
def Replaced (kinds : String → Option Kind) (i : Item) : Prop :=
  i.from_ ≠ "" ∧ kinds i.dst ≠ none

/-- Success is what it says, and short of it nothing that was replaced is lost. -/
def KeepsData (use : Use) (mayTrash : String → Bool) (kinds : String → Option Kind)
    (items : List Item) : Prop :=
  let o := run below use mayTrash items (initial kinds)
  (o.result = some .success → ∀ i ∈ items, o.moved i.dst = newContent kinds i) ∧
    (o.result = some .success ∧ use = .done → ∀ i ∈ items, o.final i.dst = newContent kinds i) ∧
    (¬ (o.result = some .success ∧ use = .done) → ∀ i ∈ items, i.from_ ≠ "" →
      ∀ c, initial kinds i.dst = some c → (slots i o.final).Keeps c)

/-- The moves up to the first that fails are safe to revert, and the others to drop. -/
def SafeUndone (kinds : String → Option Kind) (items : List Item) : Prop :=
  (∀ i ∈ items.takeWhile (Moves kinds ·), Replaced kinds i → SafeReverted kinds i) ∧
    ∀ i ∈ items.dropWhile (Moves kinds ·), Replaced kinds i → SafeDropped kinds i

def Safe (use : Use) (kinds : String → Option Kind) (items : List Item) : Prop :=
  match use with
  | .destroyed => ∀ i ∈ items, Replaced kinds i → SafeDropped kinds i
  | .done =>
      (∀ i ∈ items, Moves kinds i) ∧ (∀ i ∈ items, Replaced kinds i → SafeDone kinds i) ∨
        (∃ i ∈ items, ¬ Moves kinds i) ∧ SafeUndone kinds items
  | .reverted => SafeUndone kinds items

variable {below}

theorem do_spec (i : Item) (fs : Fs) :
    i.move.do_ below fs =
      if doOk below i fs = true then (true, i.doneMove, doMove below i fs)
      else (false, i.move, fs) := by
  by_cases hfrom : i.from_ = ""
  · rw [do_same hfrom, doOk_same hfrom, if_pos rfl, doMove_same hfrom]
  · rw [do_eq hfrom, doOk_eq hfrom, doMove_eq hfrom]

theorem new_spec (i : Item) (fs : Fs) :
    Move.new below fs i.from_ i.dst i.may = (i.move, setAside below i fs) := by
  unfold setAside Move.new Item.move
  by_cases hfrom : i.from_ = ""
  · rw [if_pos hfrom, if_pos hfrom]
  · rw [if_neg hfrom, if_neg hfrom]
    rfl

/-- The folders that the assembly removes with its moves. -/
def trashOf (items : List Item) : List String :=
  (items.filter Item.external).map fun i => i.src.absolutePath

theorem build_step (a : Assembly) (i : Item) (fs : Fs) :
    (if i.external then a.addExternal below fs i.src i.dst i.may
      else a.addEssential below fs i.src.absoluteFilePath i.dst i.may) =
      ({ a with
          m_pending := a.m_pending ++ [i.move]
          m_trash := a.m_trash ++ trashOf [i] }, setAside below i fs) := by
  have hnew := @new_spec below i fs
  cases hext : i.external
  · simp only [Bool.false_eq_true, if_false, Assembly.addEssential, trashOf]
    simp only [Item.from_, hext, Bool.false_eq_true, if_false] at hnew
    simp [hnew, hext]
  · simp only [if_true, Assembly.addExternal, trashOf]
    simp only [Item.from_, hext, if_true] at hnew
    simp [hnew, hext]

theorem build_from (items : List Item) (a : Assembly) (fs : Fs) :
    items.foldl (fun r i =>
      if i.external then r.1.addExternal below r.2 i.src i.dst i.may
      else r.1.addEssential below r.2 i.src.absoluteFilePath i.dst i.may) (a, fs) =
      ({ a with
          m_pending := a.m_pending ++ items.map Item.move
          m_trash := a.m_trash ++ trashOf items },
        items.foldl (fun fs i => setAside below i fs) fs) := by
  induction items generalizing a fs with
  | nil => simp [trashOf]
  | cons i items ih =>
      rw [List.foldl_cons, build_step, ih]
      simp [trashOf, List.filter_cons]
      split <;> simp

theorem build_eq (items : List Item) (fs : Fs) :
    build below items fs =
      (⟨items.map Item.move, [], trashOf items, true⟩,
        items.foldl (fun fs i => setAside below i fs) fs) :=
  build_from items {} fs

section Local

variable {items done pend : List Item}

/-- Nothing that a move does to its own paths is seen by another. -/
def Separate (below : String → String → Bool) (items : List Item) : Prop :=
  items.Pairwise fun i j => ∀ p, region below i p → ¬ region below j p

theorem doLoop_eq (ok : Item → Bool) (hsep : Separate below items) (ready : List Move) (fs : Fs)
    (h : ∀ i ∈ items, doOk below i fs = ok i) :
    Assembly.doLoop below (items.map Item.move) ready fs =
      (if items.all ok = true then .success else .backupRestoreInternalError,
        (items.dropWhile ok).map Item.move, ready ++ (items.takeWhile ok).map Item.doneMove,
        (items.takeWhile ok).foldl (fun fs i => doMove below i fs) fs) := by
  induction items generalizing ready fs with
  | nil => simp [Assembly.doLoop]
  | cons i items ih =>
      obtain ⟨hhead, htail⟩ := List.pairwise_cons.mp hsep
      rw [List.map_cons, Assembly.doLoop, do_spec, h i List.mem_cons_self]
      cases hok : ok i
      · simp [hok]
      · have hrest : ∀ j ∈ items, doOk below j (doMove below i fs) = ok j := by
          intro j hj
          rw [← h j (List.mem_cons_of_mem i hj)]
          apply doOk_congr
          apply (confined_doMove i).agree
          intro p hp hi
          exact hhead j hj p hi hp
        simp [hok, ih htail _ _ hrest]

variable (hsep : Separate below (done ++ pend))
include hsep

theorem moved_agree {i : Item} (hi : i ∈ done) (fs : Fs) :
    AgreeOn (region below i)
      (done.foldl (fun fs i => doMove below i fs)
        ((done ++ pend).foldl (fun fs i => setAside below i fs) fs))
      (doMove below i (setAside below i fs)) := by
  have hdone := (List.pairwise_append.mp hsep).1
  have haside := foldl_agree (fun i _ => @confined_setAside below i) hsep
    (List.mem_append_left pend hi) fs
  apply (foldl_agree (fun i _ => confined_doMove i) hdone hi _).trans
  exact (confined_doMove i).sees _ _ haside

/-- What is left when the moves that are done are reverted and the others dropped. -/
def undone (below : String → String → Bool) (done pend : List Item) (fs : Fs) : Fs :=
  pend.foldl (fun fs i => dropMove below i fs)
    (done.foldl (fun fs i => revertMove below i fs) (done.foldl (fun fs i => doMove below i fs) fs))

theorem undone_done {i : Item} (hi : i ∈ done) (fs : Fs) :
    AgreeOn (region below i)
      (undone below done pend ((done ++ pend).foldl (fun fs i => setAside below i fs) fs))
      (revertMove below i (doMove below i (setAside below i fs))) := by
  obtain ⟨hdone, -, hcross⟩ := List.pairwise_append.mp hsep
  apply (foldl_agree_of_disjoint (fun j _ => confined_dropMove j) (hcross i hi) _).trans
  apply (foldl_agree (fun j _ => confined_revertMove j) hdone hi _).trans
  exact (confined_revertMove i).sees _ _ (moved_agree hsep hi fs)

theorem undone_pend {i : Item} (hi : i ∈ pend) (fs : Fs) :
    AgreeOn (region below i)
      (undone below done pend ((done ++ pend).foldl (fun fs i => setAside below i fs) fs))
      (dropMove below i (setAside below i fs)) := by
  obtain ⟨-, hpend, hcross⟩ := List.pairwise_append.mp hsep
  have hother : ∀ j ∈ done, ∀ p, region below i p → ¬ region below j p :=
    fun j hj p hp hq => hcross j hj i hi p hq hp
  apply (foldl_agree (fun j _ => confined_dropMove j) hpend hi _).trans
  apply (confined_dropMove i).sees
  apply (foldl_agree_of_disjoint (fun j _ => confined_revertMove j) hother _).trans
  apply (foldl_agree_of_disjoint (fun j _ => confined_doMove j) hother _).trans
  exact foldl_agree (fun i _ => confined_setAside i) hsep (List.mem_append_right done hi) fs

end Local

section Outcomes

variable {mayTrash : String → Bool} {kinds : String → Option Kind} {items : List Item}

/-- The removal of the folders of the sources. -/
def emptyTrash (below : String → String → Bool) (mayTrash : String → Bool) (items : List Item)
    (fs : Fs) : Fs :=
  (trashOf items).foldl (fun fs x => (unlink below (mayTrash x) fs x).2) fs

theorem emptyTrash_agree (h : Disjoint below items) {i : Item} (hi : i ∈ items) (fs : Fs) :
    AgreeOn (fun p => p = i.dst ∨ p = i.restore) (emptyTrash below mayTrash items fs) fs := by
  unfold emptyTrash trashOf
  apply foldl_agree_of_disjoint (P := fun x => Within below x)
  · intro x _
    exact confined_unlink (mayTrash x) x
  · intro x hx p hp hin
    obtain ⟨j, hj, rfl⟩ := List.mem_map.mp hx
    obtain ⟨hj, hext⟩ := List.mem_filter.mp hj
    have htrash := h.trash j hj hext i hi
    cases hp with
    | inl hdst => exact htrash.1 (hdst ▸ hin)
    | inr hrestore => exact htrash.2 (hrestore ▸ hin)

/-- The state after the constructors. -/
def setAsideAll (below : String → String → Bool) (items : List Item) (fs : Fs) : Fs :=
  items.foldl (fun fs i => setAside below i fs) fs

theorem doOk_setAsideAll (hsep : Separate below items)
    (hown : ∀ i ∈ items, i.from_ ≠ "" → ApartPaths below i) {i : Item} (hi : i ∈ items) :
    doOk below i (setAsideAll below items (initial kinds)) = decide (Moves kinds i) := by
  by_cases hfrom : i.from_ = ""
  · rw [doOk_same hfrom]
    exact (decide_eq_true (Or.inl hfrom)).symm
  · have haside := foldl_agree (fun i _ => @confined_setAside below i) hsep hi
      (initial kinds)
    rw [setAsideAll, doOk_congr i haside, doOk_slots hfrom (hown i hi hfrom),
      slots_setAside hfrom (hown i hi hfrom), Bool.eq_iff_iff, put_isSome hfrom, decide_eq_true_iff]

theorem do_eq_of_disjoint (kinds : String → Option Kind) (hsep : Separate below items)
    (hown : ∀ i ∈ items, i.from_ ≠ "" → ApartPaths below i) :
    (build below items (initial kinds)).1.do_ below (build below items (initial kinds)).2 =
      (if items.all (Moves kinds ·) = true then .success else .backupRestoreInternalError,
        ⟨(items.dropWhile (Moves kinds ·)).map Item.move,
          (items.takeWhile (Moves kinds ·)).map Item.doneMove, trashOf items, true⟩,
        (items.takeWhile (Moves kinds ·)).foldl (fun fs i => doMove below i fs)
          (setAsideAll below items (initial kinds))) := by
  rw [build_eq]
  unfold Assembly.do_
  have hloop := doLoop_eq (fun i => decide (Moves kinds i)) hsep []
    (setAsideAll below items (initial kinds)) fun i hi => doOk_setAsideAll hsep hown hi
  unfold setAsideAll at hloop ⊢
  dsimp only
  rw [hloop]
  rfl

theorem revert_eq (done pend : List Item) (trash : List String) (fs : Fs) :
    Assembly.revert below ⟨pend.map Item.move, done.map Item.doneMove, trash, true⟩ fs =
      (⟨[], [], trash, true⟩,
        pend.foldl (fun fs i => dropMove below i fs)
          (done.foldl (fun fs i => revertMove below i fs) fs)) := by
  unfold Assembly.revert
  simp only [List.foldl_map]
  rfl

theorem destroy_none (trash : List String) (fs : Fs) :
    Assembly.destroy below mayTrash ⟨[], [], trash, true⟩ fs =
      trash.foldl (fun fs x => (unlink below (mayTrash x) fs x).2) fs :=
  rfl

theorem destroy_pending (done : List Item) {pend : List Item} (hpend : pend ≠ [])
    (trash : List String) (fs : Fs) :
    Assembly.destroy below mayTrash ⟨pend.map Item.move, done.map Item.doneMove, trash, true⟩ fs =
      trash.foldl (fun fs x => (unlink below (mayTrash x) fs x).2)
        (pend.foldl (fun fs i => dropMove below i fs)
          (done.foldl (fun fs i => revertMove below i fs) fs)) := by
  unfold Assembly.destroy
  rw [revert_eq]
  simp [hpend]

theorem destroy_ready (done : List Item) (trash : List String) (fs : Fs) :
    Assembly.destroy below mayTrash ⟨[], done.map Item.doneMove, trash, true⟩ fs =
      trash.foldl (fun fs x => (unlink below (mayTrash x) fs x).2)
        (done.foldl (fun fs i => commitMove below i fs) fs) := by
  unfold Assembly.destroy
  simp only [List.foldl_map]
  rfl

theorem run_destroyed (items : List Item) (fs : Fs) :
    (run below .destroyed mayTrash items fs).final =
      emptyTrash below mayTrash items (undone below [] items (setAsideAll below items fs)) := by
  unfold run emptyTrash undone
  dsimp only
  rw [build_eq]
  by_cases hnil : items = []
  · subst hnil
    rfl
  · exact destroy_pending [] hnil _ _

theorem slots_congr {i : Item} {f g : Fs} (hfrom : i.from_ ≠ "")
    (h : AgreeOn (region below i) f g) : slots i f = slots i g := by
  unfold slots
  rw [h _ (region_from i hfrom), h _ (region_dst i), h _ (region_restore i hfrom)]

theorem keeps_congr {i : Item} {f g : Fs} {c : Content}
    (h : AgreeOn (fun p => p = i.dst ∨ p = i.restore) f g) :
    (slots i f).Keeps c ↔ (slots i g).Keeps c := by
  unfold Slots.Keeps slots
  rw [h i.dst (Or.inl rfl), h i.restore (Or.inr rfl)]

theorem initial_eq_some {p : String} {c : Content} :
    initial kinds p = some c ↔ ∃ k, kinds p = some k ∧ c = ⟨p, k, []⟩ := by
  unfold initial
  rw [Option.map_eq_some_iff]
  exact exists_congr fun k => and_congr_right fun _ => eq_comm

section Undone

variable {done pend : List Item} (h : Disjoint below (done ++ pend))
include h

theorem undone_keeps_done (hmoves : ∀ i ∈ done, Moves kinds i) {i : Item} (hi : i ∈ done)
    (hfrom : i.from_ ≠ "") {k : Kind} (hk : kinds i.dst = some k) :
    (slots i (undone below done pend
      (setAsideAll below (done ++ pend) (initial kinds)))).Keeps ⟨i.dst, k, []⟩ ↔
      SafeReverted kinds i := by
  have hown := h.own i (List.mem_append_left pend hi) hfrom
  rw [setAsideAll, slots_congr hfrom (undone_done h.each hi (initial kinds)),
    slots_revertMove hfrom hown, slots_doMove hfrom hown, slots_setAside hfrom hown]
  exact done_reverted_keeps hfrom (hmoves i hi) hown.from_dst.ne hown.dst_restore.ne hk

theorem undone_keeps_pend {i : Item} (hi : i ∈ pend) (hfrom : i.from_ ≠ "") {k : Kind}
    (hk : kinds i.dst = some k) :
    (slots i (undone below done pend
      (setAsideAll below (done ++ pend) (initial kinds)))).Keeps ⟨i.dst, k, []⟩ ↔
      SafeDropped kinds i := by
  have hown := h.own i (List.mem_append_right done hi) hfrom
  rw [setAsideAll, slots_congr hfrom (undone_pend h.each hi (initial kinds)),
    slots_dropMove hfrom hown, slots_setAside hfrom hown]
  exact dropped_keeps hown.dst_restore.ne hk

theorem undone_keeps (mayTrash : String → Bool) (kinds : String → Option Kind)
    (hmoves : ∀ i ∈ done, Moves kinds i) :
    (∀ i ∈ done ++ pend, i.from_ ≠ "" → ∀ c, initial kinds i.dst = some c →
      (slots i (emptyTrash below mayTrash (done ++ pend) (undone below done pend
        (setAsideAll below (done ++ pend) (initial kinds))))).Keeps c) ↔
      (∀ i ∈ done, Replaced kinds i → SafeReverted kinds i) ∧
        ∀ i ∈ pend, Replaced kinds i → SafeDropped kinds i := by
  constructor
  · intro hkeeps
    constructor
    · intro i hi hrep
      obtain ⟨k, hk⟩ := Option.ne_none_iff_exists'.mp hrep.2
      have hmem := List.mem_append_left pend hi
      have hkept := hkeeps i hmem hrep.1 _ (initial_eq_some.mpr ⟨k, hk, rfl⟩)
      rw [keeps_congr (emptyTrash_agree h hmem _)] at hkept
      exact (undone_keeps_done h hmoves hi hrep.1 hk).mp hkept
    · intro i hi hrep
      obtain ⟨k, hk⟩ := Option.ne_none_iff_exists'.mp hrep.2
      have hmem := List.mem_append_right done hi
      have hkept := hkeeps i hmem hrep.1 _ (initial_eq_some.mpr ⟨k, hk, rfl⟩)
      rw [keeps_congr (emptyTrash_agree h hmem _)] at hkept
      exact (undone_keeps_pend h hi hrep.1 hk).mp hkept
  · intro hsafe i hi hfrom c hc
    obtain ⟨k, hk, rfl⟩ := initial_eq_some.mp hc
    have hrep : Replaced kinds i := ⟨hfrom, fun hnone => Option.some_ne_none k (hk ▸ hnone)⟩
    rw [keeps_congr (emptyTrash_agree h hi _)]
    cases List.mem_append.mp hi with
    | inl hdone => exact (undone_keeps_done h hmoves hdone hfrom hk).mpr (hsafe.1 i hdone hrep)
    | inr hpend => exact (undone_keeps_pend h hpend hfrom hk).mpr (hsafe.2 i hpend hrep)

end Undone

/-- What stands at a target when all moves are done. -/
theorem moved_dst (h : Disjoint below items) {i : Item} (hi : i ∈ items)
    (hmoves : Moves kinds i) :
    items.foldl (fun fs i => doMove below i fs) (setAsideAll below items (initial kinds)) i.dst =
      newContent kinds i ↔ (Replaced kinds i → SafeDone kinds i) := by
  have hsep : Separate below (items ++ []) := (List.append_nil items).symm ▸ h.each
  have hmoved := moved_agree hsep hi (initial kinds)
  rw [List.append_nil] at hmoved
  rw [setAsideAll, hmoved _ (region_dst i)]
  unfold newContent Replaced
  by_cases hfrom : i.from_ = ""
  · rw [doMove_same hfrom, setAside_same hfrom]
    simp [hfrom]
  · have hown := h.own i hi hfrom
    have hdst : doMove below i (setAside below i (initial kinds)) i.dst =
        (((slots i (initial kinds)).setAside i.may).doMove i.may).dst := by
      rw [← slots_setAside hfrom hown, ← slots_doMove hfrom hown]
      rfl
    rw [if_neg hfrom, hdst, done_dst hfrom hmoves hown.from_dst.ne]
    constructor
    · intro hsafe _
      exact hsafe
    · intro hsafe hfolder
      exact hsafe ⟨hfrom, by rw [hfolder]; exact Option.some_ne_none _⟩ hfolder

theorem committed_dst (h : Disjoint below items) {i : Item} (hi : i ∈ items) (fs : Fs) :
    emptyTrash below mayTrash items (items.foldl (fun fs i => commitMove below i fs) fs) i.dst =
      fs i.dst := by
  have hcommit := foldl_agree (fun i _ => @confined_commitMove below i) h.each hi fs
  rw [emptyTrash_agree h hi _ _ (Or.inl rfl), hcommit _ (region_dst i)]
  by_cases hfrom : i.from_ = ""
  · rw [commitMove_same hfrom]
  · exact commitMove_dst (h.own i hi hfrom) hfrom

theorem moves_split (items : List Item) :
    items.takeWhile (Moves kinds ·) ++ items.dropWhile (Moves kinds ·) = items :=
  List.takeWhile_append_dropWhile

theorem moves_takeWhile (kinds : String → Option Kind) (items : List Item) :
    ∀ i ∈ items.takeWhile (Moves kinds ·), Moves kinds i :=
  fun _ hi => of_decide_eq_true (List.mem_takeWhile_imp (p := (Moves kinds ·)) hi)

theorem all_moves_iff :
    items.all (Moves kinds ·) = true ↔ ∀ i ∈ items, Moves kinds i := by
  simp

/-- A move that can be reverted was not a move into the old target. -/
theorem SafeReverted.safeDone {i : Item} (h : SafeReverted kinds i) : SafeDone kinds i := by
  intro hfolder hin
  obtain ⟨⟨haside, hwhole⟩, -⟩ := h
  cases hin with
  | inl hno => exact Bool.false_ne_true (hno.symm.trans haside)
  | inr hmixed =>
      cases hwhole with
      | inl hcleared => exact hmixed.1 hcleared
      | inr hfile => cases hfile.2.symm.trans hfolder

theorem undone_keeps_split (mayTrash : String → Bool) (kinds : String → Option Kind)
    (h : Disjoint below items) :
    (∀ i ∈ items, i.from_ ≠ "" → ∀ c, initial kinds i.dst = some c →
      (slots i (emptyTrash below mayTrash items (undone below
        (items.takeWhile (Moves kinds ·)) (items.dropWhile (Moves kinds ·))
        (setAsideAll below items (initial kinds))))).Keeps c) ↔ SafeUndone kinds items := by
  have hsplit : Disjoint below
      (items.takeWhile (Moves kinds ·) ++ items.dropWhile (Moves kinds ·)) :=
    (moves_split items).symm ▸ h
  have hkeeps := undone_keeps hsplit mayTrash kinds (moves_takeWhile kinds items)
  rw [moves_split] at hkeeps
  exact hkeeps

theorem takeWhile_of_all (hall : ∀ i ∈ items, Moves kinds i) :
    items.takeWhile (Moves kinds ·) = items :=
  List.takeWhile_eq_self_iff.mpr fun i hi => decide_eq_true (hall i hi)

theorem dropWhile_of_all (hall : ∀ i ∈ items, Moves kinds i) :
    items.dropWhile (Moves kinds ·) = [] :=
  List.dropWhile_eq_nil_iff.mpr fun i hi => decide_eq_true (hall i hi)

theorem keepsData_destroyed (h : Disjoint below items) :
    KeepsData below .destroyed mayTrash kinds items ↔ Safe .destroyed kinds items := by
  have hkeeps := @undone_keeps below [] items h mayTrash kinds
    (fun i hi => absurd hi List.not_mem_nil)
  have hresult : (run below .destroyed mayTrash items (initial kinds)).result = none := rfl
  unfold KeepsData
  dsimp only
  rw [run_destroyed, hresult]
  simp only [reduceCtorEq, false_and, not_false_eq_true, forall_const, IsEmpty.forall_iff,
    true_and]
  apply hkeeps.trans
  simp [Safe]

/-- All moves are done: the originals are removed, and the targets stay. -/
theorem keepsData_committed (h : Disjoint below items) (hall : ∀ i ∈ items, Moves kinds i) :
    KeepsData below .done mayTrash kinds items ↔
      ∀ i ∈ items, Replaced kinds i → SafeDone kinds i := by
  have hdo := do_eq_of_disjoint kinds h.each h.own
  rw [if_pos (all_moves_iff.mpr hall), takeWhile_of_all hall, dropWhile_of_all hall] at hdo
  unfold KeepsData run
  dsimp only
  rw [hdo]
  have hmoved := fun i hi => moved_dst h hi (hall i hi)
  have hfinal : ∀ i ∈ items, Assembly.destroy below mayTrash
      ⟨[], items.map Item.doneMove, trashOf items, true⟩
      (items.foldl (fun fs i => doMove below i fs)
        (setAsideAll below items (initial kinds))) i.dst =
      items.foldl (fun fs i => doMove below i fs)
        (setAsideAll below items (initial kinds)) i.dst := by
    intro i hi
    rw [destroy_ready]
    exact committed_dst h hi _
  constructor
  · intro hkeeps i hi
    exact (hmoved i hi).mp (hkeeps.1 rfl i hi)
  · intro hsafe
    have hdst := fun i hi => (hmoved i hi).mpr (hsafe i hi)
    refine ⟨fun _ => hdst, fun _ i hi => (hfinal i hi).trans (hdst i hi), ?_⟩
    intro hno
    exact absurd ⟨rfl, rfl⟩ hno

/-- A move fails: what is done is reverted, and the rest dropped. -/
theorem keepsData_failed (h : Disjoint below items) (hfail : ∃ i ∈ items, ¬ Moves kinds i) :
    KeepsData below .done mayTrash kinds items ↔ SafeUndone kinds items := by
  have hdo := do_eq_of_disjoint kinds h.each h.own
  have hnot : ¬ items.all (Moves kinds ·) = true := by
    rw [all_moves_iff]
    intro hall
    obtain ⟨i, hi, hno⟩ := hfail
    exact hno (hall i hi)
  have hpend : items.dropWhile (Moves kinds ·) ≠ [] := by
    intro hnil
    exact hnot (List.all_eq_true.mpr (List.dropWhile_eq_nil_iff.mp hnil))
  rw [if_neg hnot] at hdo
  unfold KeepsData run
  dsimp only
  rw [hdo]
  simp only [Option.some.injEq, reduceCtorEq, false_and, not_false_eq_true, forall_const,
    IsEmpty.forall_iff, true_and]
  rw [destroy_pending _ hpend]
  exact undone_keeps_split mayTrash kinds h

theorem keepsData_reverted (h : Disjoint below items) :
    KeepsData below .reverted mayTrash kinds items ↔ SafeUndone kinds items := by
  have hdo := do_eq_of_disjoint kinds h.each h.own
  have hkeeps := undone_keeps_split mayTrash kinds h
  unfold KeepsData run
  dsimp only
  rw [hdo]
  dsimp only
  rw [revert_eq, destroy_none]
  simp only [reduceCtorEq, and_false, not_false_eq_true, forall_const, IsEmpty.forall_iff,
    true_and]
  constructor
  · intro hall
    exact hkeeps.mp hall.2
  · intro hsafe
    refine ⟨?_, hkeeps.mpr hsafe⟩
    intro hok i hi
    have hall : ∀ i ∈ items, Moves kinds i := by
      by_contra hno
      rw [if_neg (by rw [all_moves_iff]; exact hno)] at hok
      cases hok
    rw [takeWhile_of_all hall]
    apply (moved_dst h hi (hall i hi)).mpr
    intro hrep
    exact (hsafe.1 i ((takeWhile_of_all hall).symm ▸ hi) hrep).safeDone

/-- The assembly keeps the data that it replaces exactly when every target that was
there is set aside whole or left alone, no source is moved into an old target, and what
is undone is put back. -/
theorem keepsData_iff (h : Disjoint below items) (use : Use) :
    KeepsData below use mayTrash kinds items ↔ Safe use kinds items := by
  cases use with
  | destroyed => exact keepsData_destroyed h
  | reverted => exact keepsData_reverted h
  | done =>
      unfold Safe
      by_cases hall : ∀ i ∈ items, Moves kinds i
      · apply (keepsData_committed h hall).trans
        constructor
        · intro hsafe
          exact Or.inl ⟨hall, hsafe⟩
        · rintro (⟨-, hsafe⟩ | ⟨⟨i, hi, hno⟩, -⟩)
          · exact hsafe
          · exact absurd (hall i hi) hno
      · have hfail : ∃ i ∈ items, ¬ Moves kinds i := by
          simpa only [not_forall, exists_prop] using hall
        apply (keepsData_failed h hfail).trans
        constructor
        · intro hsafe
          exact Or.inr ⟨hfail, hsafe⟩
        · rintro (⟨hyes, -⟩ | ⟨-, hsafe⟩)
          · exact absurd hyes hall
          · exact hsafe

end Outcomes

/-- A folder that takes the place of another. -/
def folderItem (may : Site → Bool) : Item :=
  ⟨false, ⟨"/tmp/a", "/tmp"⟩, "/vz/a", may⟩

def foldersAt (path : String) : Option Kind :=
  if path = "/tmp/a" ∨ path = "/vz/a" then some .folder else none

theorem folderItem_disjoint (may : Site → Bool) : Disjoint pathBelow [folderItem may] where
  own := by
    intro i hi _
    obtain rfl := List.mem_singleton.mp hi
    have hfrom : (folderItem may).from_ = "/tmp/a" := rfl
    have hdst : (folderItem may).dst = "/vz/a" := rfl
    have hrestore : (folderItem may).restore = "/vz/a.restore" := rfl
    constructor
    · rw [hfrom, hdst]
      unfold Apart
      decide
    · rw [hfrom, hrestore]
      unfold Apart
      decide
    · rw [hdst, hrestore]
      unfold Apart
      decide
  each := List.pairwise_singleton _ _
  trash := by
    intro i hi hext
    obtain rfl := List.mem_singleton.mp hi
    cases hext

/-- All calls are carried out, and the new folder is in the place of the old one. -/
theorem keepsData_folder :
    KeepsData pathBelow .done (fun _ => true) foldersAt [folderItem fun _ => true] :=
  (keepsData_iff (folderItem_disjoint _) .done).mpr
    (Or.inl ⟨by decide, fun i hi _ => by obtain rfl := List.mem_singleton.mp hi; decide⟩)

/-- The new folder cannot be removed when the move is reverted; the destructor then
removes the old one. -/
theorem loses_folder :
    ¬ KeepsData pathBelow .reverted (fun _ => true) foldersAt
      [folderItem fun site => site != .revertUnlink] := by
  intro h
  have hkept := h.2.2 (by decide) _ (List.mem_singleton.mpr rfl) (by decide)
    ⟨"/vz/a", .folder, []⟩ (by decide)
  unfold Slots.Keeps at hkept
  revert hkept
  decide

end Runs

end DispService.Restore
