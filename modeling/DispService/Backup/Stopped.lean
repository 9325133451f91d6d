import DispService.Backup.Removal

/-! Where a batch of removals may stop. None of its actions is undone, so it stops where the
action stops that fails, or in which the process dies. -/
namespace DispService.Backup

open Instrument

/-- The actions one after another, up to the one that fails. -/
def run : Stop → List Action → Store → PrlResult × Store
  | _, [], s => (.success, s)
  | none, a :: l, s =>
      if (a.perform s).1.failed then a.perform s else run none l (a.perform s).2
  | some (0, left), a :: _, s => (a.failure, a.interrupted left s)
  | some (k + 1, left), a :: l, s =>
      if (a.perform s).1.failed then a.perform s else run (some (k, left)) l (a.perform s).2

theorem failure_failed (a : Action) : a.failure.failed = true := by
  cases a <;> rfl

theorem rollback_nil (e : PrlResult × Store) : Batch.finish (e.1, [], e.2) = e := by
  unfold Batch.finish
  split <;> rfl

theorem finish_cons {rest : Batch Store} {a : Action} {s : Store} {e : PrlResult × Store}
    (h : Batch.finish (Batch.loop rest [] (a.perform s).2) = e) :
    Batch.finish (Batch.loop (⟨a.perform, none⟩ :: rest) [] s) =
      if (a.perform s).1.failed then a.perform s else e := by
  split
  · rename_i hfail
    rw [Batch.loop_failed (by exact hfail)]
    exact rollback_nil (a.perform s)
  · rename_i hok
    rw [Batch.loop_ok (by exact Bool.eq_false_iff.mpr hok)]
    exact h

theorem finish_loop (stop : Stop) (l : List Action) (s : Store) :
    Batch.finish (Batch.loop (batch stop l) [] s) = run stop l s := by
  induction l generalizing stop s with
  | nil => cases stop <;> rfl
  | cons a l ih =>
      match stop with
      | none => exact finish_cons (ih none _)
      | some (k + 1, left) => exact finish_cons (ih (some (k, left)) _)
      | some (0, left) =>
          unfold batch run
          rw [Batch.loop_failed (by exact failure_failed a)]
          exact rollback_nil (a.failure, a.interrupted left s)

theorem execute_eq {l : List Action} (hl : l ≠ []) (stop : Stop) (s : Store) :
    (batch stop l).execute s = run stop l s := by
  rw [← finish_loop]
  cases l with
  | nil => exact absurd rfl hl
  | cons a l =>
      match stop with
      | none => rfl
      | some (0, left) => rfl
      | some (k + 1, left) => rfl

/-- The property holds wherever the actions stop. -/
def Holds (P : Store → Prop) (l : List Action) (s : Store) : Prop :=
  ∀ stop, P (run stop l s).2

section Holds

variable {P : Store → Prop} {a : Action} {l l' : List Action} {s : Store}

theorem holds_nil : Holds P [] s ↔ P s := by
  constructor
  · exact fun h => h none
  · intro h stop
    cases stop <;> exact h

/-- An action that succeeds leads to the actions after it. -/
theorem holds_cons (hok : (a.perform s).1.failed = false) :
    Holds P (a :: l) s ↔ (∀ left, P (a.interrupted left s)) ∧ Holds P l (a.perform s).2 := by
  have hne := Bool.eq_false_iff.mp hok
  have hnone : run none (a :: l) s = run none l (a.perform s).2 := if_neg hne
  have hsucc : ∀ k left,
      run (some (k + 1, left)) (a :: l) s = run (some (k, left)) l (a.perform s).2 :=
    fun _ _ => if_neg hne
  constructor
  · intro h
    refine ⟨fun left => h (some (0, left)), fun stop => ?_⟩
    match stop with
    | none => exact hnone ▸ h none
    | some (k, left) => exact hsucc k left ▸ h (some (k + 1, left))
  · intro ⟨hleft, hrest⟩ stop
    match stop with
    | none => exact hnone.symm ▸ hrest none
    | some (0, left) => exact hleft left
    | some (k + 1, left) => exact (hsucc k left).symm ▸ hrest (some (k, left))

/-- No action comes after one that fails. -/
theorem holds_failed (hfail : (a.perform s).1.failed = true)
    (hleft : ∀ left, P (a.interrupted left s)) (hend : P (a.perform s).2) :
    Holds P (a :: l) s := by
  intro stop
  match stop with
  | none =>
      have hrun : run none (a :: l) s = a.perform s := if_pos hfail
      exact hrun.symm ▸ hend
  | some (0, left) => exact hleft left
  | some (k + 1, left) =>
      have hrun : run (some (k + 1, left)) (a :: l) s = a.perform s := if_pos hfail
      exact hrun.symm ▸ hend

/-- A folder may be left as it was. -/
theorem interrupted_all (a : Action) (s : Store) :
    a.interrupted ⟨fun _ _ => true, fun _ => true⟩ s = s := by
  cases a with
  | rmdir folder =>
      unfold Action.interrupted Store.clear
      simp
  | unlink file => rfl
  | rebase file base => rfl
  | save from_ to_ uuid number => rfl

theorem Holds.self (h : Holds P l s) : P s := by
  cases l with
  | nil => exact holds_nil.mp h
  | cons a l => exact interrupted_all a s ▸ h (some (0, ⟨fun _ _ => true, fun _ => true⟩))

end Holds

/-- The store once all the actions are performed. -/
def performAll (l : List Action) (s : Store) : Store :=
  l.foldl (fun s a => (a.perform s).2) s

/-- The actions that do not fail by themselves. -/
def Action.removes : Action → Bool
  | .rmdir _ => true
  | .unlink _ => true
  | .rebase _ _ => true
  | .save _ _ _ _ => false

theorem perform_ok {a : Action} (ha : a.removes = true) (s : Store) :
    (a.perform s).1.failed = false := by
  cases a with
  | save from_ to_ uuid number => cases ha
  | rmdir folder => rfl
  | unlink file => rfl
  | rebase file base => rfl

theorem holds_append {P : Store → Prop} {l l' : List Action} (hl : ∀ a ∈ l, a.removes = true)
    {s : Store} :
    Holds P (l ++ l') s ↔ Holds P l s ∧ Holds P l' (performAll l s) := by
  induction l generalizing s with
  | nil =>
      constructor
      · exact fun h => ⟨holds_nil.mpr h.self, h⟩
      · exact fun h => h.2
  | cons a l ih =>
      obtain ⟨ha, hl⟩ := List.forall_mem_cons.mp hl
      have hok := perform_ok ha s
      rw [List.cons_append, holds_cons hok, holds_cons hok, ih hl, and_assoc]
      rfl

theorem run_none {l : List Action} (hl : ∀ a ∈ l, a.removes = true) (s : Store) :
    run none l s = (.success, performAll l s) := by
  induction l generalizing s with
  | nil => rfl
  | cons a l ih =>
      obtain ⟨ha, hl⟩ := List.forall_mem_cons.mp hl
      have hok := Bool.eq_false_iff.mp (perform_ok ha s)
      exact (if_neg hok).trans (ih hl _)

end DispService.Backup
