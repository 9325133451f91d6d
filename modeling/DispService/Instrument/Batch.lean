import DispService.PrlResult

/-! A batch of steps, each with the step that undoes it: the steps are run in order, and
when one fails those before it are undone, the last one first. -/
namespace DispService.Instrument

universe u

structure Step (σ : Type u) where
  redo : σ → PrlResult × σ
  undo : Option (σ → σ)

abbrev Batch (σ : Type u) := List (Step σ)

namespace Batch

variable {σ : Type u}

def rollback (m_undo : List (σ → σ)) (s : σ) : σ :=
  m_undo.foldl (fun s u => u s) s

/-- The loop of `execute`. -/
def loop : Batch σ → List (σ → σ) → σ → PrlResult × List (σ → σ) × σ
  | [], m_undo, s => (.success, m_undo, s)
  | i :: rest, m_undo, s =>
      let r := i.redo s
      if r.1.failed then (r.1, m_undo, r.2)
      else loop rest (i.undo.toList ++ m_undo) r.2

def execute (m_transaction : Batch σ) (s : σ) : PrlResult × σ :=
  if m_transaction.isEmpty then (.uninitialized, s)
  else
    let r := loop m_transaction [] s
    if r.1.failed then (r.1, rollback r.2.1 r.2.2) else (r.1, r.2.2)

/-- What `execute` makes of the loop's result. -/
def finish (r : PrlResult × List (σ → σ) × σ) : PrlResult × σ :=
  if r.1.failed then (r.1, rollback r.2.1 r.2.2) else (r.1, r.2.2)

theorem execute_cons (i : Step σ) (rest : Batch σ) (s : σ) :
    execute (i :: rest) s = finish (loop (i :: rest) [] s) :=
  rfl

section Loop

variable {i : Step σ} {rest : Batch σ} {m_undo : List (σ → σ)} {s : σ}

theorem loop_ok (h : (i.redo s).1.failed = false) :
    loop (i :: rest) m_undo s = loop rest (i.undo.toList ++ m_undo) (i.redo s).2 :=
  if_neg (Bool.eq_false_iff.mp h)

theorem loop_failed (h : (i.redo s).1.failed = true) :
    loop (i :: rest) m_undo s = ((i.redo s).1, m_undo, (i.redo s).2) :=
  if_pos h

end Loop

theorem finish_failed {code : PrlResult} {m_undo : List (σ → σ)} {s : σ}
    (h : code.failed = true) : finish (code, m_undo, s) = (code, rollback m_undo s) :=
  if_pos h

theorem finish_ok {m_undo : List (σ → σ)} {s : σ} : finish (.success, m_undo, s) = (.success, s) :=
  rfl

/-- Every step succeeds, when run after those before it. -/
def Passes : Batch σ → σ → Prop
  | [], _ => True
  | i :: rest, s => (i.redo s).1.failed = false ∧ Passes rest (i.redo s).2

def redoAll : Batch σ → σ → σ
  | [], s => s
  | i :: rest, s => redoAll rest (i.redo s).2

theorem passes_append {b c : Batch σ} {s : σ} :
    Passes (b ++ c) s ↔ Passes b s ∧ Passes c (redoAll b s) := by
  induction b generalizing s with
  | nil => exact (true_and _).symm ▸ Iff.rfl
  | cons i b ih =>
      apply (and_congr_right fun _ => ih).trans
      exact and_assoc.symm

theorem redoAll_append (b c : Batch σ) (s : σ) :
    redoAll (b ++ c) s = redoAll c (redoAll b s) := by
  induction b generalizing s with
  | nil => rfl
  | cons i b ih => exact ih (i.redo s).2

theorem loop_of_passes {b : Batch σ} {s : σ} (h : Passes b s) (m_undo : List (σ → σ)) :
    (loop b m_undo s).1 = .success ∧ (loop b m_undo s).2.2 = redoAll b s := by
  induction b generalizing s m_undo with
  | nil => exact ⟨rfl, rfl⟩
  | cons i b ih =>
      obtain ⟨hok, hrest⟩ := h
      unfold loop
      dsimp only
      rw [if_neg (by rw [hok]; exact Bool.false_ne_true)]
      exact ih hrest _

theorem loop_of_not_passes {b : Batch σ} {s : σ} (h : ¬ Passes b s) (m_undo : List (σ → σ)) :
    (loop b m_undo s).1.failed = true := by
  induction b generalizing s m_undo with
  | nil => exact absurd trivial h
  | cons i b ih =>
      unfold loop
      dsimp only
      cases hok : (i.redo s).1.failed
      · exact ih (fun hrest => h ⟨hok, hrest⟩) _
      · exact hok

theorem execute_of_passes {b : Batch σ} {s : σ} (hne : b ≠ []) (h : Passes b s) :
    b.execute s = (.success, redoAll b s) := by
  obtain ⟨hcode, hstate⟩ := loop_of_passes h []
  unfold execute
  rw [if_neg (by simpa using hne)]
  dsimp only
  rw [hcode, hstate]
  rfl

theorem execute_failed_iff {b : Batch σ} {s : σ} (hne : b ≠ []) :
    (b.execute s).1.failed = true ↔ ¬ Passes b s := by
  constructor
  · intro hfailed hpasses
    rw [execute_of_passes hne hpasses] at hfailed
    cases hfailed
  · intro h
    have hloop := loop_of_not_passes h []
    unfold execute
    rw [if_neg (by simpa using hne)]
    dsimp only
    rw [if_pos hloop]
    exact hloop

/-- The steps that undo what was done, the last one first. -/
def undos (b : Batch σ) : List (σ → σ) :=
  (b.filterMap Step.undo).reverse

theorem undos_cons (i : Step σ) (b : Batch σ) : undos (i :: b) = undos b ++ i.undo.toList := by
  unfold undos
  cases hu : i.undo <;> simp [hu]

/-- Where the loop stops: the steps before have passed, and their undo steps are at hand. -/
theorem loop_stops {b : Batch σ} {s : σ} (h : ¬ Passes b s) (m_undo : List (σ → σ)) :
    ∃ pre i post, b = pre ++ i :: post ∧ Passes pre s ∧
      (i.redo (redoAll pre s)).1.failed = true ∧
      loop b m_undo s =
        ((i.redo (redoAll pre s)).1, undos pre ++ m_undo, (i.redo (redoAll pre s)).2) := by
  induction b generalizing s m_undo with
  | nil => exact absurd trivial h
  | cons i b ih =>
      unfold loop
      dsimp only
      cases hok : (i.redo s).1.failed
      · obtain ⟨pre, j, post, rfl, hpre, hfail, hloop⟩ :=
          ih (fun hrest => h ⟨hok, hrest⟩) (i.undo.toList ++ m_undo)
        refine ⟨i :: pre, j, post, rfl, ⟨hok, hpre⟩, hfail, ?_⟩
        rw [undos_cons, List.append_assoc]
        exact hloop
      · exact ⟨[], i, b, rfl, trivial, hok, rfl⟩

/-- A failed batch has run the steps up to the one that fails, and undone the others. -/
theorem execute_stops {b : Batch σ} {s : σ} (hne : b ≠ []) (h : ¬ Passes b s) :
    ∃ pre i post, b = pre ++ i :: post ∧ Passes pre s ∧
      (i.redo (redoAll pre s)).1.failed = true ∧
      b.execute s = ((i.redo (redoAll pre s)).1,
        rollback (undos pre) (i.redo (redoAll pre s)).2) := by
  obtain ⟨pre, i, post, hb, hpre, hfail, hloop⟩ := loop_stops h []
  refine ⟨pre, i, post, hb, hpre, hfail, ?_⟩
  unfold execute
  rw [if_neg (by simpa using hne), hloop]
  dsimp only
  rw [if_pos hfail, List.append_nil]

section Invariant

variable {P : σ → Prop}

/-- Neither the steps nor their undo steps break the property. -/
def Preserves (P : σ → Prop) (b : Batch σ) : Prop :=
  ∀ i ∈ b, (∀ s, P s → P (i.redo s).2) ∧ ∀ u ∈ i.undo, ∀ s, P s → P (u s)

theorem Preserves.append {b c : Batch σ} (hb : Preserves P b) (hc : Preserves P c) :
    Preserves P (b ++ c) := by
  intro i hi
  cases List.mem_append.mp hi with
  | inl h => exact hb i h
  | inr h => exact hc i h

theorem Preserves.rollback {m_undo : List (σ → σ)} (h : ∀ u ∈ m_undo, ∀ s, P s → P (u s))
    {s : σ} (hs : P s) : P (rollback m_undo s) := by
  induction m_undo generalizing s with
  | nil => exact hs
  | cons u m_undo ih =>
      apply ih
      · intro v hv
        exact h v (List.mem_cons_of_mem u hv)
      · exact h u List.mem_cons_self s hs

theorem Preserves.loop {b : Batch σ} (h : Preserves P b) {m_undo : List (σ → σ)}
    (hundo : ∀ u ∈ m_undo, ∀ s, P s → P (u s)) {s : σ} (hs : P s) :
    P (loop b m_undo s).2.2 ∧ ∀ u ∈ (loop b m_undo s).2.1, ∀ s, P s → P (u s) := by
  induction b generalizing m_undo s with
  | nil => exact ⟨hs, hundo⟩
  | cons i b ih =>
      obtain ⟨hredo, hi⟩ := h i List.mem_cons_self
      unfold Batch.loop
      dsimp only
      split
      · exact ⟨hredo s hs, hundo⟩
      · apply ih fun j hj => h j (List.mem_cons_of_mem i hj)
        · intro u hu
          cases List.mem_append.mp hu with
          | inl hown => exact hi u (Option.mem_toList.mp hown)
          | inr hold => exact hundo u hold
        · exact hredo s hs

/-- A property that holds once the first step is made holds in the end, if its undo step
does not break it either. -/
theorem Preserves.execute_cons {i : Step σ} {b : Batch σ} (h : Preserves P b)
    (hi : ∀ u ∈ i.undo, ∀ s, P s → P (u s)) {s : σ} (hs : P (i.redo s).2) :
    P (execute (i :: b) s).2 := by
  unfold execute Batch.loop
  dsimp only [List.isEmpty_cons]
  rw [if_neg Bool.false_ne_true]
  cases hok : (i.redo s).1.failed
  · have hundo : ∀ u ∈ i.undo.toList ++ [], ∀ s, P s → P (u s) := by
      intro u hu
      rw [List.append_nil] at hu
      exact hi u (Option.mem_toList.mp hu)
    obtain ⟨hend, hrest⟩ := h.loop hundo hs
    simp only [Bool.false_eq_true, if_false]
    split
    · exact Preserves.rollback hrest hend
    · exact hend
  · simp only [if_true, hok]
    exact hs

theorem Preserves.execute {b : Batch σ} (h : Preserves P b) {s : σ} (hs : P s) :
    P (execute b s).2 := by
  cases b with
  | nil => exact hs
  | cons i b =>
      obtain ⟨hredo, hundo⟩ := h i List.mem_cons_self
      exact Preserves.execute_cons (fun j hj => h j (List.mem_cons_of_mem i hj)) hundo (hredo s hs)

end Invariant

end Batch

end DispService.Instrument
