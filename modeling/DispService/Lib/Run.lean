import Mathlib.Logic.Relation

/-! Finite runs of a labelled transition system. The labels are the requests in
the order in which they are served, so a statement over all runs is a statement
over every interleaving. -/
namespace DispService.Lib

variable {σ ℓ γ : Type*}

inductive Run (step : σ → ℓ → σ → Prop) : σ → List ℓ → σ → Prop where
  | nil (s : σ) : Run step s [] s
  | cons {s t u : σ} {l : ℓ} {ls : List ℓ} (head : step s l t) (tail : Run step t ls u) :
      Run step s (l :: ls) u

/-- The step relation of an executable total step. -/
def Graph (f : σ → ℓ → σ) (s : σ) (l : ℓ) (t : σ) : Prop :=
  f s l = t

/-- The steps whose label is admissible in the state they start from. -/
def Guarded (guard : σ → ℓ → Prop) (step : σ → ℓ → σ → Prop) (s : σ) (l : ℓ) (t : σ) : Prop :=
  guard s l ∧ step s l t

/-- Run a history variable beside the system. It reads the step and never
restricts it. -/
def Recorded (record : σ → ℓ → γ → γ) (step : σ → ℓ → σ → Prop)
    (s : σ × γ) (l : ℓ) (t : σ × γ) : Prop :=
  step s.1 l t.1 ∧ t.2 = record s.1 l s.2

theorem Recorded.graph (record : σ → ℓ → γ → γ) (f : σ → ℓ → σ) (s : σ) (g : γ) (l : ℓ) :
    Recorded record (Graph f) (s, g) l (f s l, record s l g) :=
  ⟨rfl, rfl⟩

theorem Recorded.guarded {guard : σ → ℓ → Prop} (record : σ → ℓ → γ → γ) (f : σ → ℓ → σ)
    {s : σ} (g : γ) {l : ℓ} (h : guard s l) :
    Recorded record (Guarded guard (Graph f)) (s, g) l (f s l, record s l g) :=
  ⟨⟨h, rfl⟩, rfl⟩

namespace Run

variable {step : σ → ℓ → σ → Prop} {s t u : σ} {l : ℓ} {ls ks : List ℓ}

/-- Prepend a step whose history is recorded. -/
theorem recorded {record : σ → ℓ → γ → γ} {g : γ} {x : σ × γ} (head : step s l t)
    (tail : Run (Recorded record step) (t, record s l g) ls x) :
    Run (Recorded record step) (s, g) (l :: ls) x :=
  .cons ⟨head, rfl⟩ tail

/-- An executable step runs through every list of requests. -/
theorem foldl (f : σ → ℓ → σ) (s : σ) (ls : List ℓ) : Run (Graph f) s ls (ls.foldl f s) := by
  induction ls generalizing s with
  | nil => exact .nil s
  | cons l ls ih => exact .cons rfl (ih (f s l))

/-- A step that may be disabled runs through the requests it accepts. -/
theorem foldlM {f : σ → ℓ → Option σ} (h : ls.foldlM f s = some t) :
    Run (fun s l t => f s l = some t) s ls t := by
  induction ls generalizing s with
  | nil =>
      cases h
      exact .nil _
  | cons l ls ih =>
      rw [List.foldlM_cons] at h
      cases hstep : f s l with
      | none => simp [hstep] at h
      | some s' =>
          rw [hstep] at h
          exact .cons hstep (ih h)

/-- An invariant that every step keeps holds at the end of every run. -/
theorem preserves {p : σ → Prop} (keep : ∀ s l t, p s → step s l t → p t)
    (run : Run step s ls t) (start : p s) : p t := by
  induction run with
  | nil s => exact start
  | cons head tail ih => exact ih (keep _ _ _ start head)

theorem append (first : Run step s ls t) (second : Run step t ks u) :
    Run step s (ls ++ ks) u := by
  induction first with
  | nil s => exact second
  | cons head tail ih => exact .cons head (ih second)

end Run

end DispService.Lib

/-! Promises along the run of an executable system. A promise has a part about
the states and a part about the steps; a run keeps it just when every step of it
is safe, if safety is what an invariant needs and what the promise forces. -/
namespace DispService.Lib

universe u v

variable {σ : Type u} {ℓ : Type v}

/-- The state promise holds in every state of a run, the step promise at every step. -/
def Along (step : σ → ℓ → σ) (p : σ → Prop) (q : σ → ℓ → Prop) : σ → List ℓ → Prop
  | s, [] => p s
  | s, l :: ls => p s ∧ q s l ∧ Along step p q (step s l) ls

/-- Every step of a run satisfies a condition on the state it starts from. -/
def Steps (step : σ → ℓ → σ) (g : σ → ℓ → Prop) : σ → List ℓ → Prop
  | _, [] => True
  | s, l :: ls => g s l ∧ Steps step g (step s l) ls

instance Steps.decidable (step : σ → ℓ → σ) (g : σ → ℓ → Prop) [∀ s l, Decidable (g s l)] (s : σ)
    (ls : List ℓ) : Decidable (Steps step g s ls) :=
  match ls with
  | [] => .isTrue trivial
  | l :: ls =>
      have := decidable step g (step s l) ls
      inferInstanceAs (Decidable (_ ∧ _))

variable {step : σ → ℓ → σ} {p : σ → Prop} {q g : σ → ℓ → Prop} {s : σ} {ls : List ℓ}

theorem Along.start (h : Along step p q s ls) : p s := by
  cases ls with
  | nil => exact h
  | cons l ls => exact h.1

/-- The state promise holds where the run ends. -/
theorem Along.last (h : Along step p q s ls) : p (ls.foldl step s) := by
  induction ls generalizing s with
  | nil => exact h
  | cons l ls ih => exact ih h.2.2

theorem Steps.all (h : ∀ s l, g s l) : Steps step g s ls := by
  induction ls generalizing s with
  | nil => trivial
  | cons l ls ih => exact ⟨h s l, ih⟩

theorem Steps.at_middle {l : ℓ} {ls' : List ℓ} (h : Steps step g s (ls ++ l :: ls')) :
    g (ls.foldl step s) l := by
  induction ls generalizing s with
  | nil => exact h.1
  | cons l' ls ih => exact ih h.2

/-- Steps that keep an invariant have what it gives them. -/
theorem Steps.of_invariant {f : σ → ℓ → Prop} (keep : ∀ s l, p s → g s l → f s l ∧ p (step s l))
    (run : Steps step g s ls) (start : p s) : Steps step f s ls := by
  induction ls generalizing s with
  | nil => trivial
  | cons l ls ih =>
      obtain ⟨hf, hp⟩ := keep s l start run.1
      exact ⟨hf, ih run.2 hp⟩

/-- An invariant under which the steps of a run are safe gives the promise. -/
theorem Along.of_steps {invariant : σ → Prop} (kept : ∀ s, invariant s → p s)
    (keep : ∀ s l, invariant s → g s l → q s l ∧ invariant (step s l))
    (start : invariant s) (run : Steps step g s ls) : Along step p q s ls := by
  induction ls generalizing s with
  | nil => exact kept s start
  | cons l ls ih =>
      obtain ⟨hq, hnext⟩ := keep s l start run.1
      exact ⟨kept s start, hq, ih hnext run.2⟩

theorem along_iff_steps (enabled : σ → ℓ → Prop) {safe : σ → ℓ → Prop} {invariant : σ → Prop}
    (kept : ∀ s, invariant s → p s)
    (harmless : ∀ s l, invariant s → enabled s l → safe s l → q s l)
    (keep : ∀ s l, invariant s → enabled s l → safe s l → invariant (step s l))
    (need : ∀ s l, invariant s → enabled s l → q s l → p (step s l) → safe s l)
    (start : invariant s) (run : Steps step enabled s ls) :
    Along step p q s ls ↔ Steps step safe s ls := by
  induction ls generalizing s with
  | nil => exact iff_of_true (kept s start) trivial
  | cons l ls ih =>
      constructor
      · intro h
        have hsafe := need s l start run.1 h.2.1 h.2.2.start
        exact ⟨hsafe, (ih (keep s l start run.1 hsafe) run.2).mp h.2.2⟩
      · intro h
        exact ⟨kept s start, harmless s l start run.1 h.1,
          (ih (keep s l start run.1 h.1) run.2).mpr h.2⟩

end DispService.Lib
