import Mathlib.Data.List.Basic

/-! Backtracking patterns: a small algebra of regular expressions over any alphabet. A pattern
maps a text to the rests that are left after each way in which it can match the beginning, so
that an exact match is one that leaves nothing. -/
namespace DispService.Lib

abbrev Pattern (α : Type) := List α → List (List α)

namespace Pattern

variable {α : Type} {p q : Pattern α} {R R' R'' : List α → Prop}

def one (P : α → Bool) : Pattern α
  | [] => []
  | c :: s => if P c then [s] else []

def andThen (p q : Pattern α) : Pattern α := fun s => (p s).flatMap q

def optional (p : Pattern α) : Pattern α := fun s => p s ++ [s]

/-- `{n}` -/
def times (p : Pattern α) : Nat → Pattern α
  | 0 => fun s => [s]
  | n + 1 => p.andThen (times p n)

/-- `{0,n}` -/
def upTo (p : Pattern α) : Nat → Pattern α
  | 0 => fun s => [s]
  | n + 1 => (p.andThen (upTo p n)).optional

/-- `{lo,hi}` -/
def range (p : Pattern α) (lo hi : Nat) : Pattern α := (p.times lo).andThen (p.upTo (hi - lo))

/-- Any number of letters of one class. -/
def many (P : α → Bool) : Pattern α
  | [] => [[]]
  | c :: s => (if P c then many P s else []) ++ [c :: s]

def exactMatch (p : Pattern α) (s : List α) : Bool := (p s).any List.isEmpty

/-- Whatever the pattern matches satisfies `R`. -/
def Consumes (p : Pattern α) (R : List α → Prop) : Prop :=
  ∀ s t, t ∈ p s → ∃ u, s = u ++ t ∧ R u

theorem Consumes.exact (h : p.Consumes R) {s : List α} (hs : p.exactMatch s = true) : R s := by
  obtain ⟨t, ht, hempty⟩ := List.any_eq_true.mp hs
  obtain rfl := List.isEmpty_iff.mp hempty
  obtain ⟨u, rfl, hu⟩ := h s [] ht
  simpa using hu

theorem Consumes.weaken (h : p.Consumes R) (hr : ∀ u, R u → R' u) : p.Consumes R' := by
  intro s t ht
  obtain ⟨u, hs, hu⟩ := h s t ht
  exact ⟨u, hs, hr u hu⟩

theorem consumes_one (P : α → Bool) : (one P).Consumes fun u => ∃ c, u = [c] ∧ P c = true := by
  intro s t ht
  cases s with
  | nil => simp [one] at ht
  | cons c s =>
      by_cases hc : P c = true
      · simp only [one, hc, if_true, List.mem_singleton] at ht
        exact ⟨[c], by simp [ht], c, rfl, hc⟩
      · simp [one, hc] at ht

theorem Consumes.andThen (hp : p.Consumes R) (hq : q.Consumes R')
    (hr : ∀ u v, R u → R' v → R'' (u ++ v)) : (p.andThen q).Consumes R'' := by
  intro s t ht
  obtain ⟨m, hm, hmt⟩ := List.mem_flatMap.mp ht
  obtain ⟨u, rfl, hu⟩ := hp s m hm
  obtain ⟨v, rfl, hv⟩ := hq m t hmt
  exact ⟨u ++ v, by simp, hr u v hu hv⟩

theorem Consumes.optional (hp : p.Consumes R) (hnil : R []) : p.optional.Consumes R := by
  intro s t ht
  rcases List.mem_append.mp ht with ht | ht
  · exact hp s t ht
  · exact ⟨[], (List.mem_singleton.mp ht).symm, hnil⟩

section Closed

variable (hnil : R []) (happend : ∀ u v, R u → R v → R (u ++ v))
include hnil happend

theorem Consumes.times (hp : p.Consumes R) (n : Nat) : (p.times n).Consumes R := by
  induction n with
  | zero => exact fun s t ht => ⟨[], (List.mem_singleton.mp ht).symm, hnil⟩
  | succ n ih => exact hp.andThen ih happend

theorem Consumes.upTo (hp : p.Consumes R) (n : Nat) : (p.upTo n).Consumes R := by
  induction n with
  | zero => exact fun s t ht => ⟨[], (List.mem_singleton.mp ht).symm, hnil⟩
  | succ n ih => exact (hp.andThen ih happend).optional hnil

end Closed

theorem consumes_many (P : α → Bool) : (many P).Consumes fun u => ∀ c ∈ u, P c = true := by
  intro s
  induction s with
  | nil => exact fun t ht => ⟨[], (List.mem_singleton.mp ht).symm, by simp⟩
  | cons c s ih =>
      intro t ht
      rcases List.mem_append.mp ht with ht | ht
      · by_cases hc : P c = true
        · simp only [hc, if_true] at ht
          obtain ⟨u, rfl, hu⟩ := ih t ht
          exact ⟨c :: u, rfl, by simpa [hc] using hu⟩
        · simp [hc] at ht
      · exact ⟨[], (List.mem_singleton.mp ht).symm, by simp⟩

/-- All letters of what is matched lie in one class. -/
def Letters (p : Pattern α) (P : α → Prop) : Prop := p.Consumes fun u => ∀ c ∈ u, P c

section Letters

variable {P : α → Prop}

theorem letters_one {Q : α → Bool} (h : ∀ c, Q c = true → P c) : (one Q).Letters P := by
  refine (consumes_one Q).weaken ?_
  rintro u ⟨c, rfl, hc⟩
  simpa using h c hc

theorem Letters.andThen (hp : p.Letters P) (hq : q.Letters P) : (p.andThen q).Letters P :=
  Consumes.andThen hp hq fun _ _ hu hv c hc => (List.mem_append.mp hc).elim (hu c) (hv c)

theorem Letters.optional (hp : p.Letters P) : p.optional.Letters P :=
  Consumes.optional hp (by simp)

theorem Letters.times (hp : p.Letters P) (n : Nat) : (p.times n).Letters P :=
  Consumes.times (by simp) (fun _ _ hu hv c hc => (List.mem_append.mp hc).elim (hu c) (hv c)) hp n

theorem Letters.upTo (hp : p.Letters P) (n : Nat) : (p.upTo n).Letters P :=
  Consumes.upTo (by simp) (fun _ _ hu hv c hc => (List.mem_append.mp hc).elim (hu c) (hv c)) hp n

theorem Letters.range (hp : p.Letters P) (lo hi : Nat) : (p.range lo hi).Letters P :=
  (hp.times lo).andThen (hp.upTo (hi - lo))

end Letters

/-- What is matched holds a given letter. -/
def Holds (p : Pattern α) (a : α) : Prop := p.Consumes fun u => a ∈ u

section Holds

variable {a : α}

theorem Consumes.any (hp : p.Consumes R) : p.Consumes fun _ => True := hp.weaken fun _ _ => trivial

theorem holds_one {Q : α → Bool} (h : ∀ c, Q c = true → c = a) : (one Q).Holds a := by
  refine (consumes_one Q).weaken ?_
  rintro u ⟨c, rfl, hc⟩
  simp [h c hc]

theorem Holds.andThen_left (hp : p.Holds a) (hq : q.Consumes R) : (p.andThen q).Holds a :=
  Consumes.andThen hp hq fun _ _ hu _ => List.mem_append_left _ hu

theorem Holds.andThen_right (hp : p.Consumes R) (hq : q.Holds a) : (p.andThen q).Holds a :=
  Consumes.andThen hp hq fun _ _ _ hv => List.mem_append_right _ hv

end Holds

end Pattern

end DispService.Lib
