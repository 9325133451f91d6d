import DispService.Restore.Moves

/-! A move seen through its three paths. When none of them lies within another, each
stage acts on the contents of the three alone, and what it leaves of the old content is a
matter of the calls that are carried out. -/
namespace DispService.Restore

open DispService.Lib FileSystem

/-- What stands at the source, at the target and at its `.restore`. -/
@[ext]
structure Slots where
  src : Option Content
  dst : Option Content
  restore : Option Content

namespace Slots

/-- What a renaming puts at its destination. -/
def put (may : Bool) (a b : Option Content) : Option Content :=
  if may = true then mv a b else none

/-- What a renaming leaves at its source and at its destination. -/
def transfer (may : Bool) (a b : Option Content) : Option Content × Option Content :=
  match put may a b with
  | none => (a, b)
  | some y => (none, some y)

/-- What a removal leaves. -/
def clear (may : Bool) (p : Option Content) : Option Content :=
  if may = true then none else p

def setAside (may : Site → Bool) (s : Slots) : Slots :=
  let r := transfer (may .aside) s.dst (clear (may .asideUnlink) s.restore)
  { s with dst := r.1, restore := r.2 }

def doMove (may : Site → Bool) (s : Slots) : Slots :=
  let r := transfer (may .do_) s.src s.dst
  { s with src := r.1, dst := r.2 }

def dropMove (may : Site → Bool) (s : Slots) : Slots :=
  let r := transfer (may .dropRename) s.restore s.dst
  { src := clear (may .dropUnlink) s.src, dst := r.2, restore := r.1 }

def destroyDone (may : Site → Bool) (s : Slots) : Slots :=
  { s with restore := clear (may .destroyTrash) (clear (may .destroyCommit) s.restore) }

def revertMove (may : Site → Bool) (s : Slots) : Slots :=
  match clear (may .revertUnlink) s.dst with
  | some _ => destroyDone may s
  | none =>
      match put (may .revertRename) s.restore none with
      | none => destroyDone may { s with dst := none }
      | some y => { s with dst := some y, restore := none }

end Slots

def slots (i : Item) (fs : Fs) : Slots :=
  ⟨fs i.from_, fs i.dst, fs i.restore⟩

section Apart

variable (below : String → String → Bool)

/-- None of the two paths lies within the other. -/
def Apart (p q : String) : Prop :=
  ¬ Within below p q ∧ ¬ Within below q p

variable {below} {may : Bool} {fs : Fs} {a b q : String}

theorem Apart.symm (h : Apart below a b) : Apart below b a :=
  ⟨h.2, h.1⟩

theorem Apart.ne (h : Apart below a b) : a ≠ b :=
  fun heq => h.1 (Or.inl heq.symm)

theorem rename_apart (hab : Apart below a b) :
    rename below may fs a b =
      match Slots.put may (fs a) (fs b) with
      | none => (false, fs)
      | some y =>
          (true, fun q => if q = b then some y else if Within below a q then none else fs q) := by
  cases may
  · exact rename_of_not
  · cases h : mv (fs a) (fs b) with
    | none =>
        rw [rename_of_refused h]
        simp [Slots.put, h]
    | some y =>
        rw [rename_of_mv hab.1 h]
        simp [Slots.put, h]

theorem rename_apart_fst (hab : Apart below a b) :
    (rename below may fs a b).1 = (Slots.put may (fs a) (fs b)).isSome := by
  rw [rename_apart hab]
  split
  · rename_i h
    rw [h]
    rfl
  · rename_i h
    rw [h]
    rfl

theorem rename_apart_dst (hab : Apart below a b) :
    (rename below may fs a b).2 b = (Slots.transfer may (fs a) (fs b)).2 := by
  rw [rename_apart hab]
  unfold Slots.transfer
  split
  · rfl
  · exact if_pos rfl

theorem rename_apart_src (hab : Apart below a b) :
    (rename below may fs a b).2 a = (Slots.transfer may (fs a) (fs b)).1 := by
  rw [rename_apart hab]
  unfold Slots.transfer
  split
  · rfl
  · exact (if_neg hab.ne).trans (if_pos (within_self a))

theorem rename_apart_other (hab : Apart below a b) (ha : Apart below a q) (hb : Apart below b q) :
    (rename below may fs a b).2 q = fs q := by
  rw [rename_apart hab]
  split
  · rfl
  · exact (if_neg hb.ne.symm).trans (if_neg ha.1)

theorem unlink_self (p : String) : (unlink below may fs p).2 p = Slots.clear may (fs p) := by
  unfold unlink Slots.clear
  cases h : fs p with
  | none => simp [h]
  | some c => cases may <;> simp [h, within_self]

theorem unlink_other (h : Apart below a q) : (unlink below may fs a).2 q = fs q :=
  (confined_unlink may a).frame fs q h.1

theorem unlink_fst (p : String) :
    (unlink below may fs p).1 = (Slots.clear may (fs p)).isNone := by
  unfold unlink Slots.clear
  cases h : fs p with
  | none => simp
  | some c => cases may <;> simp

end Apart

/-- The paths of a move that replaces something. -/
structure ApartPaths (below : String → String → Bool) (i : Item) : Prop where
  from_dst : Apart below i.from_ i.dst
  from_restore : Apart below i.from_ i.restore
  dst_restore : Apart below i.dst i.restore

section Stages

variable {below : String → String → Bool} {i : Item} {fs : Fs}
variable (hfrom : i.from_ ≠ "") (h : ApartPaths below i)
include hfrom h

theorem slots_setAside : slots i (setAside below i fs) = (slots i fs).setAside i.may := by
  rw [setAside_eq hfrom]
  ext1
  · apply (rename_apart_other h.dst_restore h.from_dst.symm h.from_restore.symm).trans
    exact unlink_other h.from_restore.symm
  · apply (rename_apart_src h.dst_restore).trans
    rw [unlink_other h.dst_restore.symm, unlink_self]
    rfl
  · apply (rename_apart_dst h.dst_restore).trans
    rw [unlink_other h.dst_restore.symm, unlink_self]
    rfl

theorem doOk_slots :
    doOk below i fs = (Slots.put (i.may .do_) (slots i fs).src (slots i fs).dst).isSome := by
  rw [doOk_eq hfrom]
  exact rename_apart_fst h.from_dst

theorem slots_doMove : slots i (doMove below i fs) = (slots i fs).doMove i.may := by
  rw [doMove_eq hfrom]
  ext1
  · exact rename_apart_src h.from_dst
  · exact rename_apart_dst h.from_dst
  · exact rename_apart_other h.from_dst h.from_restore h.dst_restore

theorem slots_dropMove : slots i (dropMove below i fs) = (slots i fs).dropMove i.may := by
  rw [dropMove_eq hfrom]
  ext1
  · apply (rename_apart_other h.dst_restore.symm h.from_restore.symm h.from_dst.symm).trans
    exact unlink_self _
  · apply (rename_apart_dst h.dst_restore.symm).trans
    rw [unlink_other h.from_restore, unlink_other h.from_dst]
    rfl
  · apply (rename_apart_src h.dst_restore.symm).trans
    rw [unlink_other h.from_restore, unlink_other h.from_dst]
    rfl

omit hfrom in
theorem slots_destroyDone :
    slots i (destroyDone below i fs) = (slots i fs).destroyDone i.may := by
  have hkeep : ∀ site q, Apart below i.restore q →
      (unlink below (i.may site) fs i.restore).2 q = fs q :=
    fun _ _ => unlink_other
  unfold destroyDone
  split
  · rename_i hok
    rw [unlink_fst] at hok
    ext1
    · exact hkeep _ _ h.from_restore.symm
    · exact hkeep _ _ h.dst_restore.symm
    · apply (unlink_self _).trans
      dsimp only [Slots.destroyDone, slots]
      rw [Option.isNone_iff_eq_none.mp hok]
      exact (ite_self _).symm
  · rename_i hok
    rw [unlink_fst, Bool.not_eq_true, Option.isNone_eq_false_iff] at hok
    ext1
    · exact hkeep _ _ h.from_restore.symm
    · exact hkeep _ _ h.dst_restore.symm
    · apply (unlink_self _).trans
      have hno : i.may .destroyCommit = false := by
        cases hmay : i.may .destroyCommit
        · rfl
        · rw [hmay] at hok
          cases hok
      dsimp only [Slots.destroyDone, slots]
      rw [hno]
      rfl

theorem slots_revertMove : slots i (revertMove below i fs) = (slots i fs).revertMove i.may := by
  rw [revertMove_eq hfrom]
  unfold Slots.revertMove
  have hslot : (slots i fs).dst = fs i.dst := rfl
  have hslot' : (slots i fs).restore = fs i.restore := rfl
  rw [hslot, hslot']
  have hunlink : slots i (unlink below (i.may .revertUnlink) fs i.dst).2 =
      { slots i fs with dst := Slots.clear (i.may .revertUnlink) (fs i.dst) } := by
    ext1
    · exact unlink_other h.from_dst.symm
    · exact unlink_self _
    · exact unlink_other h.dst_restore
  cases hclear : Slots.clear (i.may .revertUnlink) (fs i.dst) with
  | some c =>
      rw [if_neg (by rw [unlink_fst, hclear]; exact Bool.false_ne_true)]
      exact slots_destroyDone h
  | none =>
      rw [if_pos (by rw [unlink_fst, hclear]; rfl)]
      rw [hclear] at hunlink
      dsimp only
      generalize (unlink below (i.may .revertUnlink) fs i.dst).2 = fs' at hunlink
      have hdst : fs' i.dst = none := congrArg Slots.dst hunlink
      have hrestore : fs' i.restore = fs i.restore := congrArg Slots.restore hunlink
      have hsrc : fs' i.from_ = fs i.from_ := congrArg Slots.src hunlink
      have hok : (rename below (i.may .revertRename) fs' i.restore i.dst).1 = _ :=
        rename_apart_fst h.dst_restore.symm
      rw [hdst, hrestore] at hok
      cases hput : Slots.put (i.may .revertRename) (fs i.restore) none with
      | none =>
          rw [hput] at hok
          rw [hok, if_neg (by exact Bool.false_ne_true)]
          exact (slots_destroyDone h).trans (congrArg (Slots.destroyDone i.may) hunlink)
      | some y =>
          rw [hput] at hok
          rw [hok, if_pos (by rfl)]
          ext1
          · exact (rename_apart_other h.dst_restore.symm h.from_restore.symm
              h.from_dst.symm).trans hsrc
          · apply (rename_apart_dst h.dst_restore.symm).trans
            rw [hdst, hrestore]
            simp only [Slots.transfer, hput]
          · apply (rename_apart_src h.dst_restore.symm).trans
            rw [hdst, hrestore]
            simp only [Slots.transfer, hput]

omit hfrom in
/-- The commit leaves what stands at the target. -/
theorem commitMove_dst (hfrom : i.from_ ≠ "") : commitMove below i fs i.dst = fs i.dst := by
  have hkeep : ∀ site, (unlink below (i.may site) fs i.restore).2 i.dst = fs i.dst :=
    fun _ => unlink_other h.dst_restore.symm
  rw [commitMove_eq hfrom]
  unfold destroyDone
  split
  · exact hkeep _
  · split
    · exact hkeep _
    · exact hkeep _

end Stages

end DispService.Restore
