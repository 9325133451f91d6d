import DispService.Template.Atomic

/-! A commit of a catalog, whatever was logged on it and committed before. -/
namespace DispService.Template

open Instrument

universe u

variable {γ : Type u}

/-- The operations that are to be committed. -/
def Mode.log : Mode γ → List (Operation γ)
  | .blank => []
  | .read m_log => m_log
  | .both m_log => m_log

namespace Catalog

/-- The commit does all that was logged, or nothing. -/
structure Atomic (c : Catalog γ) : Prop where
  failed : c.commit.1.failed = true → c.commit.2.store.entries = c.store.entries
  done : c.commit.1.failed = false →
    c.commit.2.store.entries = expected c.m_batch.log c.store.entries
  sandbox : ∀ k, c.commit.2.store.sandbox k = none

/-- What was imported before an operation that fails was there already. -/
def Safe (c : Catalog γ) : Prop :=
  ∀ pre o post, c.m_batch.log = pre ++ o :: post → PassesAll pre c.store.entries →
    ¬ o.Passes (expected pre c.store.entries) →
      ∀ n x, imported pre n = some x → c.store.entries n = some x

/-- The sandbox is empty, and a batch that only reads has nothing to write. -/
structure Ready (c : Catalog γ) : Prop where
  sandbox : ∀ k, c.store.sandbox k = none
  reads : ∀ m_log, c.m_batch = .read m_log → ∀ o ∈ m_log, o.isBoth = false

end Catalog

section Execute

variable {o : Operation γ} {l pre post : List (Operation γ)} {k : Nat} {s : Store γ}

/-- The folders that are no operation's stay as they are. -/
theorem execute_sandbox (k : Nat) (l : List (Operation γ)) {j : Slot} (hj : j ∉ slots k l)
    {s : Store γ} (hs : s.sandbox j = none) :
    (Batch.execute (steps k l) s).2.sandbox j = none := by
  apply Batch.Preserves.execute (P := fun s : Store γ => s.sandbox j = none) _ hs
  clear hs
  induction l generalizing k with
  | nil => exact fun i hi => absurd hi List.not_mem_nil
  | cons o l ih =>
      rw [slots, List.mem_append, not_or] at hj
      have hslot : o.slot k ≠ some j := fun heq => hj.1 (Option.mem_toList.mpr heq)
      intro i hi
      cases List.mem_cons.mp hi with
      | inr hin => exact ih (k + 1) hj.2 i hin
      | inl heq =>
          subst heq
          constructor
          · exact fun s hs => (redo_slot hslot).trans hs
          · exact fun u hu s hs => (undo_slot hslot u hu s).trans hs

theorem slots_reads (h : ∀ o ∈ l, o.isBoth = false) (k : Nat) : slots k l = [] := by
  induction l generalizing k with
  | nil => rfl
  | cons o l ih =>
      obtain ⟨ho, hl⟩ := List.forall_mem_cons.mp h
      unfold slots Operation.slot
      rw [ih hl]
      unfold Operation.isBoth at ho
      cases hwork : o.work with
      | import_ m_content made =>
          rw [hwork] at ho
          cases ho
      | export_ m_content => rfl
      | unlink =>
          rw [hwork] at ho
          cases ho

end Execute

namespace Catalog

variable {c : Catalog γ}

theorem Ready.fresh (h : c.Ready) : Fresh 0 c.store :=
  fun j _ => h.sandbox (.b j)

theorem Ready.commit_sandbox (h : c.Ready) (k : Slot) : c.commit.2.store.sandbox k = none := by
  unfold commit
  cases hbatch : c.m_batch with
  | blank => exact h.sandbox k
  | read m_log =>
      have hslots : k ∉ slots 0 m_log := by
        rw [slots_reads (h.reads m_log hbatch)]
        exact List.not_mem_nil
      exact execute_sandbox 0 m_log hslots (h.sandbox k)
  | both m_log =>
      change (if k ∈ slots 0 m_log then none else _) = none
      by_cases hk : k ∈ slots 0 m_log
      · exact if_pos hk
      · exact (if_neg hk).trans (execute_sandbox 0 m_log hk (h.sandbox k))

theorem Ready.commit (h : c.Ready) : c.commit.2.Ready where
  sandbox := h.commit_sandbox
  reads := by
    intro m_log hbatch
    unfold Catalog.commit at hbatch
    cases hold : c.m_batch with
    | blank =>
        rw [hold] at hbatch
        cases hold.symm.trans hbatch
    | read l =>
        rw [hold] at hbatch
        cases hbatch
        exact fun o ho => absurd ho List.not_mem_nil
    | both l =>
        rw [hold] at hbatch
        cases hbatch

theorem Ready.add (h : c.Ready) {s : Store γ} (hs : ∀ k, s.sandbox k = none) (r : Request γ)
    (m_log : List (Operation γ)) : (c.add r s m_log).2.Ready := by
  unfold Catalog.add
  split
  · exact ⟨hs, fun _ hno => by cases hno⟩
  · split
    · exact ⟨hs, h.reads⟩
    · constructor
      · intro k
        change (if k = _ then none else s.sandbox k) = none
        split
        · rfl
        · exact hs k
      · exact fun _ hno => by cases hno

theorem Ready.prepare (h : c.Ready) (r : Request γ) (k : Slot) :
    (c.prepare r).2.sandbox k = none := by
  unfold Catalog.prepare
  split
  · exact h.sandbox k
  · split <;> rfl

theorem Ready.log (h : c.Ready) (r : Request γ) : (c.log r).2.Ready := by
  unfold Catalog.log
  cases hbatch : c.m_batch with
  | blank =>
      cases hboth : r.operation.isBoth
      · dsimp only
        split
        · exact h
        · refine ⟨h.sandbox, ?_⟩
          intro m_log hread o ho
          cases hread
          rw [List.mem_singleton.mp ho]
          exact hboth
      · dsimp only
        split
        · exact h
        · split
          · exact ⟨h.prepare r, fun _ hno => by cases hno⟩
          · exact h.add (h.prepare r) r []
  | read m_log =>
      cases hboth : r.operation.isBoth
      · refine ⟨h.sandbox, ?_⟩
        intro l hread o ho
        cases hread
        cases List.mem_append.mp ho with
        | inl hin => exact h.reads m_log hbatch o hin
        | inr hin =>
            rw [List.mem_singleton.mp hin]
            exact hboth
      · exact h
  | both m_log => exact h.add h.sandbox r m_log

end Catalog

/-- The operations are accepted, and carried out as they say. -/
def request (m_name : String) (work : Work Unit) : Event Unit :=
  .log ⟨⟨m_name, work, true, true⟩, true, .success, .success, .success⟩

end DispService.Template
