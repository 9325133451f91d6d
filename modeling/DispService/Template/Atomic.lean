import DispService.Template.Storage
import Mathlib.Data.List.Basic

/-! When a commit is atomic. The undo step of an import does not take back an entry that is
there already, and that of an unlink does not push one in its place. -/
namespace DispService.Template

open Instrument

universe u

variable {γ : Type u}

namespace Operation

/-- The operation goes through on these entries. -/
def Passes (o : Operation γ) (e : String → Option γ) : Prop :=
  match o.work with
  | .import_ m_content made =>
      m_content.failed = false ∧ made.isSome = true ∧ o.getLock = true ∧ o.rename = true ∧
        reserved o.m_name = false ∧ e o.m_name = none
  | .export_ m_content => m_content.failed = false
  | .unlink =>
      o.getLock = true ∧ (reserved o.m_name = true ∨ e o.m_name ≠ none →
        o.rename = true ∧ reserved o.m_name = false)

/-- What the operation makes of the entries. -/
def apply (o : Operation γ) (e : String → Option γ) : String → Option γ :=
  match o.work with
  | .import_ _ made => fun n => if n = o.m_name then made else e n
  | .export_ _ => e
  | .unlink => fun n => if n = o.m_name then none else e n

/-- The content that the operation imports. -/
def imports (o : Operation γ) (n : String) : Option γ :=
  match o.work with
  | .import_ _ made => if n = o.m_name then made else none
  | .export_ _ => none
  | .unlink => none

end Operation

def PassesAll : List (Operation γ) → (String → Option γ) → Prop
  | [], _ => True
  | o :: rest, e => o.Passes e ∧ PassesAll rest (o.apply e)

/-- The entries after operations that go through. -/
def expected (l : List (Operation γ)) (e : String → Option γ) : String → Option γ :=
  l.foldl (fun e o => o.apply e) e

/-- What was imported last under each name. -/
def imported : List (Operation γ) → String → Option γ
  | [], _ => none
  | o :: rest, n => (imported rest n).or (o.imports n)

section Step

variable {o : Operation γ} {k : Nat} {s : Store γ}

/-- The stage that a folder of the sandbox is for. -/
def Slot.stage : Slot → Nat
  | .b k => k
  | .w k => k

theorem push_sandbox {rename : Bool} {name : String} {k j : Slot} (h : j ≠ k) :
    (s.push rename name k).2.sandbox j = s.sandbox j := by
  unfold Store.push
  split
  · split
    · exact if_neg h
    · rfl
  · rfl

theorem draw_sandbox {rename : Bool} {name : String} {k j : Slot} (h : j ≠ k) :
    (s.draw rename name k).2.sandbox j = s.sandbox j := by
  unfold Store.draw
  split
  · split
    · exact if_neg h
    · rfl
  · rfl

theorem unlinkDo_sandbox {j : Slot} (h : j ≠ .b k) :
    (o.unlinkDo k s).2.sandbox j = s.sandbox j := by
  unfold Operation.unlinkDo
  split
  · rfl
  · split
    · rfl
    · exact draw_sandbox h

theorem importDo_sandbox {m_content : PrlResult} {made : Option γ} {j : Slot} (h : j ≠ .w k) :
    (o.importDo k m_content made s).2.sandbox j = s.sandbox j := by
  have hmade : (s.setSlot (.w k) made).sandbox j = s.sandbox j := if_neg h
  unfold Operation.importDo
  dsimp only
  split
  · exact hmade
  · split
    · exact hmade
    · exact (push_sandbox h).trans hmade

/-- An operation leaves the folders alone that are not its own. -/
theorem redo_slot {j : Slot} (h : o.slot k ≠ some j) :
    ((o.step k).redo s).2.sandbox j = s.sandbox j := by
  unfold Operation.slot at h
  unfold Operation.step
  cases hwork : o.work with
  | import_ m_content made =>
      rw [hwork] at h
      exact importDo_sandbox fun heq => h (congrArg some heq.symm)
  | export_ m_content => rfl
  | unlink =>
      rw [hwork] at h
      exact unlinkDo_sandbox fun heq => h (congrArg some heq.symm)

theorem undo_slot {j : Slot} (h : o.slot k ≠ some j) :
    ∀ u ∈ (o.step k).undo, ∀ s, (u s).sandbox j = s.sandbox j := by
  intro u hu s
  unfold Operation.slot at h
  unfold Operation.step at hu
  cases hwork : o.work with
  | import_ m_content made =>
      rw [hwork] at hu h
      obtain rfl := Option.some.inj hu
      have hne : j ≠ .w k := fun heq => h (congrArg some heq.symm)
      exact if_neg hne
  | export_ m_content =>
      rw [hwork] at hu
      cases hu
  | unlink =>
      rw [hwork] at hu h
      obtain rfl := Option.some.inj hu
      unfold Operation.unlinkUndo
      split
      · rfl
      · exact push_sandbox fun heq => h (congrArg some heq.symm)

theorem slot_stage {j : Slot} (h : j.stage ≠ k) : o.slot k ≠ some j := by
  unfold Operation.slot
  intro heq
  cases hwork : o.work with
  | import_ m_content made =>
      rw [hwork] at heq
      exact h (Option.some.inj heq ▸ rfl)
  | export_ m_content =>
      rw [hwork] at heq
      cases heq
  | unlink =>
      rw [hwork] at heq
      exact h (Option.some.inj heq ▸ rfl)

end Step

section Prefix

variable {o : Operation γ} {l : List (Operation γ)} {k : Nat} {s : Store γ}

/-- No folder is there yet for the stages to come. -/
def Fresh (k : Nat) (s : Store γ) : Prop :=
  ∀ j, k ≤ j → s.sandbox (.b j) = none

theorem Fresh.next (h : Fresh k s) (o : Operation γ) : Fresh (k + 1) ((o.step k).redo s).2 := by
  intro j hj
  rw [redo_slot (slot_stage (by simp only [Slot.stage]; omega))]
  exact h j (by omega)

/-- What was imported stays, the rest is as it was. -/
def kept (l : List (Operation γ)) (e : String → Option γ) : String → Option γ :=
  fun n => (imported l n).or (e n)

end Prefix

end DispService.Template
