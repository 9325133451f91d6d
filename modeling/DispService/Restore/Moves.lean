import DispService.Restore.Assembly

/-! The life of one move: set aside by its constructor, done, and then dropped,
reverted or committed. Each stage is confined to the paths of the move. -/
namespace DispService.Restore

open DispService.Lib FileSystem Local

/-- What is added to an assembly. -/
structure Item where
  external : Bool
  src : QFileInfo
  dst : String
  may : Site → Bool

namespace Item

/-- The source that the move gets: none where the target is restored in its place. -/
def from_ (i : Item) : String :=
  if i.external then i.src.absoluteFilePath
  else if i.src.absoluteFilePath = i.dst then "" else i.src.absoluteFilePath

def restore (i : Item) : String :=
  i.dst ++ ".restore"

def move (i : Item) : Move :=
  ⟨i.from_, i.dst, if i.from_ = "" then "" else i.restore, .m_from, i.may⟩

def doneMove (i : Item) : Move :=
  { i.move with m_trash := if i.from_ = "" then .m_to else .m_revert }

end Item

section Stages

variable (below : String → String → Bool)

def region (i : Item) (q : String) : Prop :=
  if i.from_ = "" then Within below i.dst q
  else Within below i.from_ q ∨ Within below i.dst q ∨ Within below i.restore q

/-- The constructor. -/
def setAside (i : Item) (fs : Fs) : Fs :=
  (Move.new below fs i.from_ i.dst i.may).2

def doOk (i : Item) (fs : Fs) : Bool :=
  (i.move.do_ below fs).1

def doMove (i : Item) (fs : Fs) : Fs :=
  (i.move.do_ below fs).2.2

def dropMove (i : Item) (fs : Fs) : Fs :=
  i.move.destroy below fs

def revertMove (i : Item) (fs : Fs) : Fs :=
  let r := i.doneMove.revert below fs
  r.2.1.destroy below r.2.2

def commitMove (i : Item) (fs : Fs) : Fs :=
  let r := i.doneMove.commit below .commit fs
  r.2.1.destroy below r.2.2

/-- The destructor of a move that is done: `.restore` is removed, at the second attempt
if need be. -/
def destroyDone (i : Item) (fs : Fs) : Fs :=
  if (unlink below (i.may .destroyCommit) fs i.restore).1 = true then
    (unlink below (i.may .destroyCommit) fs i.restore).2
  else
    (unlink below (i.may .destroyTrash) fs i.restore).2

variable {below} {i : Item} {fs : Fs}

theorem restore_ne (i : Item) : i.restore ≠ "" := by
  unfold Item.restore
  intro h
  simp at h

theorem unlink_snd_of_not {may : Bool} {p : String} (h : (unlink below may fs p).1 = false) :
    (unlink below may fs p).2 = fs := by
  unfold unlink at h ⊢
  split
  · rename_i hp
    simp [hp] at h
  · rename_i hp
    rw [hp] at h
    dsimp only at h
    split
    · rename_i hmay
      simp [hmay] at h
    · rfl

theorem rename_snd_of_not {may : Bool} {a b : String} (h : (rename below may fs a b).1 = false) :
    (rename below may fs a b).2 = fs := by
  unfold rename at h ⊢
  split
  · rfl
  · rename_i heq
    rw [heq] at h
    cases h

section Essential

variable (hfrom : i.from_ = "")
include hfrom

theorem setAside_same : setAside below i fs = fs := by
  unfold setAside Move.new
  rw [if_pos hfrom]

theorem doOk_same : doOk below i fs = true := by
  unfold doOk Move.do_
  simp [Item.move, Move.done, hfrom]

theorem doMove_same : doMove below i fs = fs := by
  unfold doMove Move.do_
  simp [Item.move, Move.done, hfrom]

theorem do_same : i.move.do_ below fs = (true, i.doneMove, fs) := by
  unfold Move.do_
  simp [Item.doneMove, Item.move, Move.done, hfrom]

theorem dropMove_same : dropMove below i fs = (unlink below (i.may .dropUnlink) fs i.dst).2 := by
  unfold dropMove Move.destroy
  simp [Item.move, Move.done, hfrom]

theorem commitMove_same : commitMove below i fs = fs := by
  unfold commitMove Move.commit Move.destroy
  simp [Item.doneMove, Item.move, Move.done, hfrom]

theorem revertMove_same :
    revertMove below i fs = (unlink below (i.may .revertUnlink) fs i.dst).2 := by
  have hrevert : i.doneMove.revert below fs =
      if (unlink below (i.may .revertUnlink) fs i.dst).1 = true then
        (true, { i.doneMove with m_trash := .null },
          (unlink below (i.may .revertUnlink) fs i.dst).2)
      else (false, i.doneMove, fs) := by
    unfold Move.revert
    simp only [Item.doneMove, Item.move, Move.done, hfrom, Move.trash]
    cases h : unlink below (i.may .revertUnlink) fs i.dst with
    | mk ok fs' =>
        cases ok
        · have hsame := unlink_snd_of_not (congrArg Prod.fst h)
          rw [h] at hsame
          dsimp only at hsame
          simp [h, hsame]
        · simp [h]
  unfold revertMove
  rw [hrevert]
  split
  · simp [Move.destroy]
  · rename_i h
    rw [unlink_snd_of_not (Bool.eq_false_iff.mpr h)]
    simp [Item.doneMove, Item.move, Move.destroy, Move.done, Move.commit, hfrom]

end Essential

section Replacing

variable (hfrom : i.from_ ≠ "")
include hfrom

theorem setAside_eq :
    setAside below i fs =
      (rename below (i.may .aside) (unlink below (i.may .asideUnlink) fs i.restore).2 i.dst
        i.restore).2 := by
  unfold setAside Move.new
  rw [if_neg hfrom]
  rfl

theorem do_eq :
    i.move.do_ below fs =
      if (rename below (i.may .do_) fs i.from_ i.dst).1 = true then
        (true, i.doneMove, (rename below (i.may .do_) fs i.from_ i.dst).2)
      else (false, i.move, fs) := by
  unfold Move.do_
  simp only [Item.doneMove, Item.move, Move.done, hfrom]
  cases h : rename below (i.may .do_) fs i.from_ i.dst with
  | mk ok fs' =>
      cases ok
      · have hsame := rename_snd_of_not (congrArg Prod.fst h)
        rw [h] at hsame
        dsimp only at hsame
        simp [hsame]
      · simp

theorem doOk_eq : doOk below i fs = (rename below (i.may .do_) fs i.from_ i.dst).1 := by
  unfold doOk
  rw [do_eq hfrom]
  split
  · rename_i h
    exact h.symm
  · rename_i h
    exact (Bool.eq_false_iff.mpr h).symm

theorem doMove_eq : doMove below i fs = (rename below (i.may .do_) fs i.from_ i.dst).2 := by
  unfold doMove
  rw [do_eq hfrom]
  split
  · rfl
  · rename_i h
    exact (rename_snd_of_not (Bool.eq_false_iff.mpr h)).symm

theorem dropMove_eq :
    dropMove below i fs =
      (rename below (i.may .dropRename) (unlink below (i.may .dropUnlink) fs i.from_).2 i.restore
        i.dst).2 := by
  unfold dropMove Move.destroy
  simp [Item.move, Move.done, hfrom, restore_ne i]

theorem destroy_doneMove : i.doneMove.destroy below fs = destroyDone below i fs := by
  unfold Move.destroy Move.commit destroyDone
  simp only [Item.doneMove, Item.move, Move.done, hfrom, Move.trash, if_false, restore_ne i]
  cases h : unlink below (i.may .destroyCommit) fs i.restore with
  | mk ok fs' =>
      cases ok
      · have hsame := unlink_snd_of_not (congrArg Prod.fst h)
        rw [h] at hsame
        dsimp only at hsame
        simp [hsame]
      · simp

theorem commitMove_eq :
    commitMove below i fs =
      if (unlink below (i.may .commit) fs i.restore).1 = true then
        (unlink below (i.may .commit) fs i.restore).2
      else destroyDone below i fs := by
  rw [← destroy_doneMove hfrom]
  unfold commitMove
  have hcommit : i.doneMove.commit below .commit fs =
      if (unlink below (i.may .commit) fs i.restore).1 = true then
        (true, { i.doneMove with m_revert := "", m_trash := .null },
          (unlink below (i.may .commit) fs i.restore).2)
      else (false, i.doneMove, fs) := by
    unfold Move.commit
    simp only [Item.doneMove, Item.move, Move.done, hfrom, if_false, restore_ne i]
    cases h : unlink below (i.may .commit) fs i.restore with
    | mk ok fs' =>
        cases ok
        · have hsame := unlink_snd_of_not (congrArg Prod.fst h)
          rw [h] at hsame
          dsimp only at hsame
          simp [hsame]
        · simp
  rw [hcommit]
  split
  · simp [Move.destroy]
  · rfl

theorem revertMove_eq :
    revertMove below i fs =
      if (unlink below (i.may .revertUnlink) fs i.dst).1 = true then
        let fs := (unlink below (i.may .revertUnlink) fs i.dst).2
        if (rename below (i.may .revertRename) fs i.restore i.dst).1 = true then
          (rename below (i.may .revertRename) fs i.restore i.dst).2
        else destroyDone below i fs
      else destroyDone below i fs := by
  have hrevert : i.doneMove.revert below fs =
      if (unlink below (i.may .revertUnlink) fs i.dst).1 = true then
        let fs := (unlink below (i.may .revertUnlink) fs i.dst).2
        if (rename below (i.may .revertRename) fs i.restore i.dst).1 = true then
          (true, { i.doneMove with m_revert := "", m_trash := .null },
            (rename below (i.may .revertRename) fs i.restore i.dst).2)
        else (false, i.doneMove, fs)
      else (false, i.doneMove, fs) := by
    unfold Move.revert
    simp only [Item.doneMove, Item.move, Move.done, hfrom, if_false, restore_ne i]
    cases h : unlink below (i.may .revertUnlink) fs i.dst with
    | mk ok fs' =>
        cases ok
        · have hsame := unlink_snd_of_not (congrArg Prod.fst h)
          rw [h] at hsame
          dsimp only at hsame
          simp [hsame]
        · cases hback : rename below (i.may .revertRename) fs' i.restore i.dst with
          | mk ok' fs'' =>
              cases ok'
              · have hsame := rename_snd_of_not (congrArg Prod.fst hback)
                rw [hback] at hsame
                dsimp only at hsame
                simp [hback, hsame]
              · simp [hback]
  unfold revertMove
  rw [hrevert]
  split
  · dsimp only
    split
    · simp [Move.destroy]
    · exact destroy_doneMove hfrom
  · exact destroy_doneMove hfrom

end Replacing

section Confinement

variable (i : Item)

theorem region_same (hfrom : i.from_ = "") : region below i = Within below i.dst := by
  funext q
  exact if_pos hfrom

theorem region_eq (hfrom : i.from_ ≠ "") :
    region below i =
      fun q => Within below i.from_ q ∨ Within below i.dst q ∨ Within below i.restore q := by
  funext q
  exact if_neg hfrom

section Calls

variable (hfrom : i.from_ ≠ "") (may : Bool)
include hfrom

theorem confined_unlink_from :
    Confined (region below i) fun fs => (unlink below may fs i.from_).2 := by
  rw [region_eq i hfrom]
  exact (confined_unlink may i.from_).mono fun _ => Or.inl

theorem confined_unlink_dst :
    Confined (region below i) fun fs => (unlink below may fs i.dst).2 := by
  rw [region_eq i hfrom]
  exact (confined_unlink may i.dst).mono fun _ h => Or.inr (Or.inl h)

theorem confined_unlink_restore :
    Confined (region below i) fun fs => (unlink below may fs i.restore).2 := by
  rw [region_eq i hfrom]
  exact (confined_unlink may i.restore).mono fun _ h => Or.inr (Or.inr h)

theorem confined_rename_in :
    Confined (region below i) fun fs => (rename below may fs i.from_ i.dst).2 := by
  rw [region_eq i hfrom]
  apply (confined_rename may i.from_ i.dst).mono
  intro q h
  exact h.imp_right Or.inl

theorem confined_rename_aside :
    Confined (region below i) fun fs => (rename below may fs i.dst i.restore).2 := by
  rw [region_eq i hfrom]
  exact (confined_rename may i.dst i.restore).mono fun _ => Or.inr

theorem confined_rename_back :
    Confined (region below i) fun fs => (rename below may fs i.restore i.dst).2 := by
  rw [region_eq i hfrom]
  exact (confined_rename may i.restore i.dst).mono fun _ h => Or.inr h.symm

theorem region_from : region below i i.from_ := by
  rw [region_eq i hfrom]
  exact Or.inl (within_self _)

theorem region_restore : region below i i.restore := by
  rw [region_eq i hfrom]
  exact Or.inr (Or.inr (within_self _))

theorem confined_destroyDone : Confined (region below i) (destroyDone below i) := by
  apply Confined.ite (confined_unlink_restore i hfrom _) (confined_unlink_restore i hfrom _)
  intro f g h
  exact unlink_fst_congr (h _ (region_restore i hfrom))

end Calls

theorem region_dst : region below i i.dst := by
  by_cases hfrom : i.from_ = ""
  · rw [region_same i hfrom]
    exact within_self _
  · rw [region_eq i hfrom]
    exact Or.inr (Or.inl (within_self _))

theorem confined_setAside : Confined (region below i) (setAside below i) := by
  by_cases hfrom : i.from_ = ""
  · exact (Confined.id _).congr fun _ => setAside_same hfrom
  · apply Confined.congr _ fun _ => setAside_eq hfrom
    exact (confined_unlink_restore i hfrom _).comp (confined_rename_aside i hfrom _)

theorem doOk_congr {f g : Fs} (h : AgreeOn (region below i) f g) :
    doOk below i f = doOk below i g := by
  by_cases hfrom : i.from_ = ""
  · rw [doOk_same hfrom, doOk_same hfrom]
  · rw [doOk_eq hfrom, doOk_eq hfrom]
    exact rename_fst_congr (h _ (region_from i hfrom)) (h _ (region_dst i))

theorem confined_doMove : Confined (region below i) (doMove below i) := by
  by_cases hfrom : i.from_ = ""
  · exact (Confined.id _).congr fun _ => doMove_same hfrom
  · exact (confined_rename_in i hfrom _).congr fun _ => doMove_eq hfrom

theorem confined_dropMove : Confined (region below i) (dropMove below i) := by
  by_cases hfrom : i.from_ = ""
  · rw [region_same i hfrom]
    exact (confined_unlink _ _).congr fun _ => dropMove_same hfrom
  · apply Confined.congr _ fun _ => dropMove_eq hfrom
    exact (confined_unlink_from i hfrom _).comp (confined_rename_back i hfrom _)

theorem confined_commitMove : Confined (region below i) (commitMove below i) := by
  by_cases hfrom : i.from_ = ""
  · exact (Confined.id _).congr fun _ => commitMove_same hfrom
  · apply Confined.congr _ fun _ => commitMove_eq hfrom
    apply Confined.ite (confined_unlink_restore i hfrom _) (confined_destroyDone i hfrom)
    intro f g h
    exact unlink_fst_congr (h _ (region_restore i hfrom))

theorem confined_revertMove : Confined (region below i) (revertMove below i) := by
  by_cases hfrom : i.from_ = ""
  · rw [region_same i hfrom]
    exact (confined_unlink _ _).congr fun _ => revertMove_same hfrom
  · apply Confined.congr _ fun _ => revertMove_eq hfrom
    have hback : Confined (region below i) fun fs : Fs =>
        if (rename below (i.may .revertRename) fs i.restore i.dst).1 = true then
          (rename below (i.may .revertRename) fs i.restore i.dst).2
        else destroyDone below i fs := by
      apply Confined.ite (confined_rename_back i hfrom _) (confined_destroyDone i hfrom)
      intro f g h
      exact rename_fst_congr (h _ (region_restore i hfrom)) (h _ (region_dst i))
    apply Confined.ite ((confined_unlink_dst i hfrom _).comp hback) (confined_destroyDone i hfrom)
    intro f g h
    exact unlink_fst_congr (h _ (region_dst i))

end Confinement

end Stages

end DispService.Restore
