import DispService.Lib.Run
import Mathlib.Tactic.Common

/-! The reaction queue of a VM. `show` works under the mutex of the queue; a runner
takes it to look at the head and to dequeue, and releases it while the reaction
runs. -/
namespace DispService.Libvirt.Reaction

open DispService.Lib

variable {ρ : Type*}

/-- Where a runner stands in the loop of `Shell::run`. -/
inductive Phase (ρ : Type*) where
  /-- In the pool, or about to lock at the top of the loop. -/
  | top
  | executing (y : ρ)
  /-- The reaction has returned, the mutex is not yet taken again. -/
  | executed
deriving DecidableEq

/-- The queue with its runners, and the histories of the calls. -/
structure Demonstrator (ρ : Type*) where
  queue : List ρ := []
  /-- A `show` that holds the mutex, with what it found `isEmpty` to be. -/
  showing : Option Bool := none
  runners : List (Phase ρ) := []
  shown : List ρ := []
  begun : List ρ := []
  ended : List ρ := []

inductive Label (ρ : Type*) where
  | showBegin (reaction : ρ)
  | showEnd
  | head (runner : Nat)
  | react (runner : Nat)
  | dequeue (runner : Nat)

/-- One step; `none` where the thread waits for the mutex or is not there. -/
def step (s : Demonstrator ρ) : Label ρ → Option (Demonstrator ρ)
  | .showBegin reaction =>
      match s.showing with
      | some _ => none
      | none =>
          some { s with
            showing := some s.queue.isEmpty
            queue := s.queue ++ [reaction]
            shown := s.shown ++ [reaction] }
  | .showEnd =>
      match s.showing with
      | none => none
      | some false => some { s with showing := none }
      | some true => some { s with showing := none, runners := s.runners ++ [.top] }
  | .head i =>
      match s.showing, s.runners[i]?, s.queue with
      | none, some .top, [] => some { s with runners := s.runners.eraseIdx i }
      | none, some .top, y :: _ =>
          some { s with runners := s.runners.set i (.executing y), begun := s.begun ++ [y] }
      | _, _, _ => none
  | .react i =>
      match s.runners[i]? with
      | some (.executing y) =>
          some { s with runners := s.runners.set i .executed, ended := s.ended ++ [y] }
      | _ => none
  | .dequeue i =>
      match s.showing, s.runners[i]? with
      | none, some .executed =>
          if s.queue.tail = [] then
            some { s with queue := s.queue.tail, runners := s.runners.eraseIdx i }
          else
            some { s with queue := s.queue.tail, runners := s.runners.set i .top }
      | _, _ => none

/-- The steps that are taken. -/
def Step (s : Demonstrator ρ) (l : Label ρ) (t : Demonstrator ρ) : Prop :=
  step s l = some t

/-- The head of the queue stays there while its reaction runs: it stands for the
one runner. -/
inductive Served : Demonstrator ρ → Prop where
  | idle (calls : List ρ) : Served ⟨[], none, [], calls, calls, calls⟩
  | starting (calls : List ρ) (y : ρ) : Served ⟨[y], some true, [], calls ++ [y], calls, calls⟩
  | top (showing : Option Bool) (hshowing : showing ≠ some true) (calls : List ρ) (y : ρ)
      (queue : List ρ) :
      Served ⟨y :: queue, showing, [.top], calls ++ y :: queue, calls, calls⟩
  | executing (showing : Option Bool) (hshowing : showing ≠ some true) (calls : List ρ) (y : ρ)
      (queue : List ρ) :
      Served ⟨y :: queue, showing, [.executing y], calls ++ y :: queue, calls ++ [y], calls⟩
  | executed (showing : Option Bool) (hshowing : showing ≠ some true) (calls : List ρ) (y : ρ)
      (queue : List ρ) :
      Served ⟨y :: queue, showing, [.executed], calls ++ y :: queue, calls ++ [y], calls ++ [y]⟩

theorem ne_some_true {showing : Option Bool} (hshowing : showing ≠ some true) :
    showing = none ∨ showing = some false := by
  cases showing with
  | none => exact Or.inl rfl
  | some x =>
      cases x
      · exact Or.inr rfl
      · exact absurd rfl hshowing

theorem served_idle {calls : List ρ} {l : Label ρ} {t : Demonstrator ρ}
    (hstep : Step ⟨[], none, [], calls, calls, calls⟩ l t) : Served t := by
  unfold Step at hstep
  cases l with
  | showBegin reaction =>
      cases hstep
      exact .starting calls reaction
  | showEnd => cases hstep
  | head i => cases hstep
  | react i => cases hstep
  | dequeue i => cases hstep

theorem served_starting {calls : List ρ} {y : ρ} {l : Label ρ} {t : Demonstrator ρ}
    (hstep : Step ⟨[y], some true, [], calls ++ [y], calls, calls⟩ l t) : Served t := by
  unfold Step at hstep
  cases l with
  | showBegin reaction => cases hstep
  | showEnd =>
      cases hstep
      exact .top none (by simp) calls y []
  | head i => cases hstep
  | react i => cases hstep
  | dequeue i => cases hstep

theorem served_top {showing : Option Bool} (hshowing : showing ≠ some true) {calls : List ρ} {y : ρ}
    {queue : List ρ} {l : Label ρ} {t : Demonstrator ρ}
    (hstep : Step ⟨y :: queue, showing, [.top], calls ++ y :: queue, calls, calls⟩ l t) :
    Served t := by
  unfold Step at hstep
  rcases ne_some_true hshowing with rfl | rfl
  · cases l with
    | showBegin reaction =>
        cases hstep
        rw [List.append_assoc]
        exact .top (some false) (by simp) calls y (queue ++ [reaction])
    | showEnd => cases hstep
    | head i =>
        cases i with
        | zero =>
            cases hstep
            exact .executing none hshowing calls y queue
        | succ i => cases hstep
    | react i => cases i <;> cases hstep
    | dequeue i => cases i <;> cases hstep
  · cases l with
    | showBegin reaction => cases hstep
    | showEnd =>
        cases hstep
        exact .top none (by simp) calls y queue
    | head i => cases i <;> cases hstep
    | react i => cases i <;> cases hstep
    | dequeue i => cases i <;> cases hstep

theorem served_executing {showing : Option Bool} (hshowing : showing ≠ some true) {calls : List ρ}
    {y : ρ} {queue : List ρ} {l : Label ρ} {t : Demonstrator ρ}
    (hstep : Step ⟨y :: queue, showing, [.executing y], calls ++ y :: queue, calls ++ [y],
      calls⟩ l t) : Served t := by
  unfold Step at hstep
  cases l with
  | showBegin reaction =>
      rcases ne_some_true hshowing with rfl | rfl
      · cases hstep
        rw [List.append_assoc]
        exact .executing (some false) (by simp) calls y (queue ++ [reaction])
      · cases hstep
  | showEnd =>
      rcases ne_some_true hshowing with rfl | rfl
      · cases hstep
      · cases hstep
        exact .executing none (by simp) calls y queue
  | head i =>
      rcases ne_some_true hshowing with rfl | rfl
      · cases i <;> cases hstep
      · cases i <;> cases hstep
  | react i =>
      cases i with
      | zero =>
          cases hstep
          exact .executed showing hshowing calls y queue
      | succ i => cases hstep
  | dequeue i =>
      rcases ne_some_true hshowing with rfl | rfl
      · cases i <;> cases hstep
      · cases i <;> cases hstep

theorem served_executed {showing : Option Bool} (hshowing : showing ≠ some true) {calls : List ρ}
    {y : ρ} {queue : List ρ} {l : Label ρ} {t : Demonstrator ρ}
    (hstep : Step ⟨y :: queue, showing, [.executed], calls ++ y :: queue, calls ++ [y],
      calls ++ [y]⟩ l t) : Served t := by
  unfold Step at hstep
  rcases ne_some_true hshowing with rfl | rfl
  · cases l with
    | showBegin reaction =>
        cases hstep
        rw [List.append_assoc]
        exact .executed (some false) (by simp) calls y (queue ++ [reaction])
    | showEnd => cases hstep
    | head i => cases i <;> cases hstep
    | react i => cases i <;> cases hstep
    | dequeue i =>
        cases i with
        | zero =>
            cases queue with
            | nil =>
                cases hstep
                exact .idle (calls ++ [y])
            | cons z queue =>
                cases hstep
                rw [List.append_cons]
                exact .top none (by simp) (calls ++ [y]) z queue
        | succ i => cases hstep
  · cases l with
    | showBegin reaction => cases hstep
    | showEnd =>
        cases hstep
        exact .executed none (by simp) calls y queue
    | head i => cases i <;> cases hstep
    | react i => cases i <;> cases hstep
    | dequeue i => cases i <;> cases hstep

theorem served_step (s : Demonstrator ρ) (l : Label ρ) (t : Demonstrator ρ) (served : Served s)
    (hstep : Step s l t) : Served t := by
  cases served with
  | idle calls => exact served_idle hstep
  | starting calls y => exact served_starting hstep
  | top showing hshowing calls y queue => exact served_top hshowing hstep
  | executing showing hshowing calls y queue => exact served_executing hshowing hstep
  | executed showing hshowing calls y queue => exact served_executed hshowing hstep

/-- The reactions that are shown and have not ended. -/
def unexecuted (s : Demonstrator ρ) : List ρ :=
  s.shown.drop s.ended.length

theorem unexecuted_showBegin {s t : Demonstrator ρ} (served : Served s) {reaction : ρ}
    (hstep : Step s (.showBegin reaction) t) : unexecuted t = unexecuted s ++ [reaction] := by
  have hprefix : s.ended.length ≤ s.shown.length := by cases served <;> simp
  unfold Step step at hstep
  dsimp only at hstep
  split at hstep
  · cases hstep
  · cases hstep
    exact List.drop_append_of_le_length hprefix

/-- The reaction that ends is the first of them. -/
theorem unexecuted_react {s t : Demonstrator ρ} (served : Served s) {i : Nat} {y : ρ}
    (hrunner : s.runners[i]? = some (.executing y)) (hstep : Step s (.react i) t) :
    unexecuted s = y :: unexecuted t := by
  cases served with
  | executing showing hshowing calls z queue =>
      cases i with
      | zero =>
          cases hrunner
          cases hstep
          simp [unexecuted]
      | succ i => cases hrunner
  | idle calls => cases hrunner
  | starting calls z => cases hrunner
  | top showing hshowing calls z queue => cases i <;> cases hrunner
  | executed showing hshowing calls z queue => cases i <;> cases hrunner

theorem unexecuted_other {s t : Demonstrator ρ} {l : Label ρ} (hshow : ∀ r, l ≠ .showBegin r)
    (hreact : ∀ i, l ≠ .react i) (hstep : Step s l t) : unexecuted t = unexecuted s := by
  unfold Step step at hstep
  cases l with
  | showBegin reaction => exact absurd rfl (hshow reaction)
  | react i => exact absurd rfl (hreact i)
  | showEnd =>
      dsimp only at hstep
      split at hstep
      · cases hstep
      · cases hstep
        rfl
      · cases hstep
        rfl
  | head i =>
      dsimp only at hstep
      split at hstep
      · cases hstep
        rfl
      · cases hstep
        rfl
      · cases hstep
  | dequeue i =>
      dsimp only at hstep
      split at hstep
      · split at hstep
        · cases hstep
          rfl
        · cases hstep
          rfl
      · cases hstep

theorem Served.unexecuted_eq_nil {s : Demonstrator ρ} (served : Served s) (h : s.queue = []) :
    unexecuted s = [] := by
  cases served with
  | idle calls => simp [unexecuted]
  | starting calls y => cases h
  | top showing hshowing calls y queue => cases h
  | executing showing hshowing calls y queue => cases h
  | executed showing hshowing calls y queue => cases h

/-- What is still to be done when no further `show` comes. -/
def work (s : Demonstrator ρ) : Nat :=
  3 * s.queue.length +
    (match s.showing with | none => 0 | some false => 1 | some true => 3) +
    (match s.runners with | [.top] => 2 | [.executing _] => 1 | _ => 0)

/-- A queue that is not empty is never left alone: a step other than a new `show` is
possible. -/
theorem Served.progress {s : Demonstrator ρ} (served : Served s) (pending : s.queue ≠ []) :
    ∃ l t, (∀ reaction, l ≠ .showBegin reaction) ∧ Step s l t := by
  cases served with
  | idle calls => exact absurd rfl pending
  | starting calls y => exact ⟨.showEnd, _, by simp, rfl⟩
  | top showing hshowing calls y queue =>
      rcases ne_some_true hshowing with rfl | rfl
      · exact ⟨.head 0, _, by simp, rfl⟩
      · exact ⟨.showEnd, _, by simp, rfl⟩
  | executing showing hshowing calls y queue => exact ⟨.react 0, _, by simp, rfl⟩
  | executed showing hshowing calls y queue =>
      rcases ne_some_true hshowing with rfl | rfl
      · cases queue with
        | nil => exact ⟨.dequeue 0, _, by simp, rfl⟩
        | cons z queue => exact ⟨.dequeue 0, _, by simp, rfl⟩
      · exact ⟨.showEnd, _, by simp, rfl⟩

/-- Every step other than a new `show` brings the queue closer to its end. -/
theorem Served.work_lt {s t : Demonstrator ρ} (served : Served s) {l : Label ρ}
    (hstep : Step s l t) (old : ∀ reaction, l ≠ .showBegin reaction) : work t < work s := by
  unfold Step at hstep
  cases l with
  | showBegin reaction => exact absurd rfl (old reaction)
  | showEnd =>
      cases served with
      | idle calls => cases hstep
      | starting calls y =>
          cases hstep
          simp [work]
      | top showing hshowing calls y queue =>
          rcases ne_some_true hshowing with rfl | rfl
          · cases hstep
          · cases hstep
            simp [work]
      | executing showing hshowing calls y queue =>
          rcases ne_some_true hshowing with rfl | rfl
          · cases hstep
          · cases hstep
            simp [work]
      | executed showing hshowing calls y queue =>
          rcases ne_some_true hshowing with rfl | rfl
          · cases hstep
          · cases hstep
            simp [work]
  | head i =>
      cases served with
      | top showing hshowing calls y queue =>
          rcases ne_some_true hshowing with rfl | rfl
          · cases i with
            | zero =>
                cases hstep
                simp [work]
            | succ i => cases hstep
          · cases hstep
      | idle calls => cases hstep
      | starting calls y => cases hstep
      | executing showing hshowing calls y queue =>
          rcases ne_some_true hshowing with rfl | rfl <;> cases i <;> cases hstep
      | executed showing hshowing calls y queue =>
          rcases ne_some_true hshowing with rfl | rfl <;> cases i <;> cases hstep
  | react i =>
      cases served with
      | executing showing hshowing calls y queue =>
          cases i with
          | zero =>
              cases hstep
              simp [work]
          | succ i => cases hstep
      | idle calls => cases hstep
      | starting calls y => cases hstep
      | top showing hshowing calls y queue => cases i <;> cases hstep
      | executed showing hshowing calls y queue => cases i <;> cases hstep
  | dequeue i =>
      cases served with
      | executed showing hshowing calls y queue =>
          rcases ne_some_true hshowing with rfl | rfl
          · cases i with
            | zero =>
                cases queue with
                | nil =>
                    cases hstep
                    simp [work]
                | cons z queue =>
                    cases hstep
                    simp only [work, List.length_cons, List.set_cons_zero, List.tail_cons]
                    omega
            | succ i => cases hstep
          · cases hstep
      | idle calls => cases hstep
      | starting calls y => cases hstep
      | top showing hshowing calls y queue =>
          rcases ne_some_true hshowing with rfl | rfl <;> cases i <;> cases hstep
      | executing showing hshowing calls y queue =>
          rcases ne_some_true hshowing with rfl | rfl <;> cases i <;> cases hstep

/-- In every interleaving at most one runner is there; the reactions begin in the order
of their `show` calls, none before the one ahead of it has ended; and when no `show`
and no runner is under way the queue is empty and every reaction has run once. While
it is not empty some thread can move, and no run stays busy without new calls. -/
theorem reactions_served_of_run {labels : List (Label ρ)} {s : Demonstrator ρ}
    (run : Run Step {} labels s) :
    s.runners.length ≤ 1 ∧
    (∃ later, s.shown = s.begun ++ later) ∧
    (s.begun = s.ended ∨ ∃ y, s.begun = s.ended ++ [y]) ∧
    (s.showing = none → s.runners = [] → s.queue = [] ∧ s.ended = s.shown) ∧
    (s.queue ≠ [] → ∃ l t, (∀ reaction, l ≠ .showBegin reaction) ∧ Step s l t) ∧
    (∀ l t, Step s l t → (∀ reaction, l ≠ .showBegin reaction) → work t < work s) := by
  have served : Served s := run.preserves served_step (.idle [])
  refine ⟨?_, ?_, ?_, ?_, served.progress, fun l t => served.work_lt⟩
  · cases served <;> simp
  · cases served <;> simp
  · cases served <;> simp
  · cases served <;> simp

/-- A reaction shows another one while it runs. -/
theorem reactions_served_of_two :
    ∃ s : Demonstrator String, Run Step {} [.showBegin "a", .showEnd, .head 0, .showBegin "b",
      .showEnd, .react 0, .dequeue 0, .head 0, .react 0, .dequeue 0] s ∧
      s.ended = ["a", "b"] ∧ s.queue = [] := by
  have run : Run Step ({} : Demonstrator String) [.showBegin "a", .showEnd, .head 0,
      .showBegin "b", .showEnd, .react 0, .dequeue 0, .head 0, .react 0, .dequeue 0]
      ⟨[], none, [], ["a", "b"], ["a", "b"], ["a", "b"]⟩ :=
    .cons rfl (.cons rfl (.cons rfl (.cons rfl (.cons rfl (.cons rfl (.cons rfl (.cons rfl
      (.cons rfl (.cons rfl (.nil _))))))))))
  have hidle := (reactions_served_of_run run).2.2.2.1 rfl rfl
  exact ⟨_, run, hidle.2, hidle.1⟩

end DispService.Libvirt.Reaction
