import Mathlib.Computability.Language

/-! The language of a glob: letters, places for one letter and places for any text. -/
namespace DispService.Lib.Glob

variable {α : Type*}

inductive Piece (α : Type*) where
  | letter (a : α)
  | one
  | many

def Piece.language : Piece α → Language α
  | .letter a => ({[a]} : Set (List α))
  | .one => {w : List α | ∃ a, w = [a]}
  | .many => ⊤

def language (p : List (Piece α)) : Language α := (p.map Piece.language).prod

variable {p q : List (Piece α)} {s t u : List α} {a c : α}

theorem mem_nil : s ∈ language ([] : List (Piece α)) ↔ s = [] :=
  Language.mem_one s

theorem mem_cons {x : Piece α} :
    s ∈ language (x :: p) ↔ ∃ u ∈ x.language, ∃ t ∈ language p, u ++ t = s := by
  unfold language
  rw [List.map_cons, List.prod_cons]
  exact Language.mem_mul

theorem mem_append :
    s ∈ language (q ++ p) ↔ ∃ u ∈ language q, ∃ t ∈ language p, u ++ t = s := by
  unfold language
  rw [List.map_append, List.prod_append]
  exact Language.mem_mul

theorem mem_letter : s ∈ language (.letter a :: p) ↔ ∃ t ∈ language p, s = a :: t := by
  rw [mem_cons]
  constructor
  · rintro ⟨u, rfl, t, ht, rfl⟩
    exact ⟨t, ht, rfl⟩
  · rintro ⟨t, ht, rfl⟩
    exact ⟨[a], rfl, t, ht, rfl⟩

theorem mem_one : s ∈ language (.one :: p) ↔ ∃ a, ∃ t ∈ language p, s = a :: t := by
  rw [mem_cons]
  constructor
  · rintro ⟨u, ⟨a, rfl⟩, t, ht, rfl⟩
    exact ⟨a, t, ht, rfl⟩
  · rintro ⟨a, t, ht, rfl⟩
    exact ⟨[a], ⟨a, rfl⟩, t, ht, rfl⟩

theorem mem_many : s ∈ language (.many :: p) ↔ ∃ t ∈ language p, t <:+ s := by
  rw [mem_cons]
  constructor
  · rintro ⟨u, -, t, ht, rfl⟩
    exact ⟨t, ht, u, rfl⟩
  · rintro ⟨t, ht, u, rfl⟩
    exact ⟨u, trivial, t, ht, rfl⟩

/-- A place for any text takes what stands before. -/
theorem mem_many_suffix (h : t ∈ language (.many :: p)) (hts : t <:+ s) :
    s ∈ language (.many :: p) := by
  obtain ⟨r, hr, hrt⟩ := mem_many.mp h
  exact mem_many.mpr ⟨r, hr, hrt.trans hts⟩

theorem mem_many_cons :
    c :: s ∈ language (.many :: p) ↔ c :: s ∈ language p ∨ ∃ t ∈ language p, t <:+ s := by
  rw [mem_many]
  constructor
  · rintro ⟨t, ht, hts⟩
    rcases List.suffix_cons_iff.mp hts with rfl | hts
    · exact .inl ht
    · exact .inr ⟨t, ht, hts⟩
  · rintro (h | ⟨t, ht, hts⟩)
    · exact ⟨c :: s, h, List.suffix_rfl⟩
    · exact ⟨t, ht, hts.trans (List.suffix_cons c s)⟩

/-- No place takes any text, so that all texts are as long as the glob. -/
def Fixed (q : List (Piece α)) : Prop :=
  .many ∉ q

theorem Fixed.length (h : Fixed q) (hu : u ∈ language q) : u.length = q.length := by
  induction q generalizing u with
  | nil =>
      rw [mem_nil.mp hu]
      rfl
  | cons x q ih =>
      have htail : Fixed q := fun hmem => h (.tail x hmem)
      cases x with
      | letter a =>
          obtain ⟨t, ht, rfl⟩ := mem_letter.mp hu
          simp [ih htail ht]
      | one =>
          obtain ⟨a, t, ht, rfl⟩ := mem_one.mp hu
          simp [ih htail ht]
      | many => exact absurd (.head q) h

/-- A text that begins with the fixed part is no shorter. -/
theorem Fixed.length_le (h : Fixed q) (hs : s ∈ language (q ++ p)) : q.length ≤ s.length := by
  obtain ⟨u, hu, t, -, rfl⟩ := mem_append.mp hs
  rw [List.length_append, h.length hu]
  exact Nat.le_add_right _ _

/-- Where the fixed part is met first is as good a place as any later one: what follows it there
ends with what follows it later. -/
theorem Fixed.earliest (h : Fixed q) (hu : u ∈ language q) (hts : t <:+ u ++ s)
    (ht : t ∈ language (q ++ .many :: p)) : s ∈ language (.many :: p) := by
  obtain ⟨u', hu', t', ht', rfl⟩ := mem_append.mp ht
  have hlen : u'.length = u.length := (h.length hu').trans (h.length hu).symm
  have hle := hts.length_le
  rw [List.length_append, List.length_append, hlen] at hle
  have hsuffix : t' <:+ s :=
    List.suffix_of_suffix_length_le ((List.suffix_append u' t').trans hts)
      (List.suffix_append u s) (by omega)
  exact mem_many_suffix ht' hsuffix

end DispService.Lib.Glob
