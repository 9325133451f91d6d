import Mathlib.Data.List.Infix
import Mathlib.Data.List.TakeWhile

/-! The texts of paths from the root: the names between their slashes, and the texts in which no
name is left to be resolved. -/
namespace DispService.Lib.PathText

abbrev Text := List Char

/-- The text up to the next slash. -/
def firstName (s : Text) : Text := s.takeWhile (· != '/')

/-- Neither nothing nor a name that stands for another folder. -/
def IsName (s : Text) : Prop := s ≠ [] ∧ s ≠ ['.'] ∧ s ≠ ['.', '.']

def IsAbsolute (p : Text) : Prop := p.head? = some '/'

/-- A name comes after each slash but the last. -/
def Clean (p : Text) : Prop :=
  IsAbsolute p ∧ ∀ s ∈ p.tails, IsAbsolute s → s.tail = [] ∨ IsName (firstName s.tail)

/-- A name comes after each slash. -/
def Folder (p : Text) : Prop :=
  IsAbsolute p ∧ ∀ s ∈ p.tails, IsAbsolute s → IsName (firstName s.tail)

instance (s : Text) : Decidable (IsName s) := inferInstanceAs (Decidable (_ ∧ _ ∧ _))

instance (p : Text) : Decidable (IsAbsolute p) := inferInstanceAs (Decidable (_ = _))

instance (p : Text) : Decidable (Clean p) := inferInstanceAs (Decidable (_ ∧ _))

instance (p : Text) : Decidable (Folder p) := inferInstanceAs (Decidable (_ ∧ _))

/-- A function that resolves the names of a path from the root. Names above the root may stay. -/
structure Resolves (absolute : Text → Text) : Prop where
  clean : ∀ p, Clean p → absolute p = p
  stays : ∀ p, IsAbsolute p → IsAbsolute (absolute p)
  again : ∀ p, IsAbsolute p → absolute (absolute p) = absolute p
  resolved : ∀ p, IsAbsolute p → IsName (firstName (absolute p).tail) → Clean (absolute p)

variable {p old new s t : Text}

theorem IsName.append (h : IsName s) (t : Text) : IsName (s ++ t) := by
  obtain ⟨hnil, hdot, hdots⟩ := h
  cases s with
  | nil => exact absurd rfl hnil
  | cons a s =>
    cases s with
    | nil =>
      refine ⟨List.cons_ne_nil _ _, fun heq => ?_, fun heq => ?_⟩ <;>
      · rw [List.cons_append, List.cons.injEq] at heq
        exact hdot (by rw [heq.1])
    | cons b s =>
      refine ⟨List.cons_ne_nil _ _, fun heq => ?_, fun heq => ?_⟩
      · rw [List.cons_append, List.cons_append, List.cons.injEq] at heq
        exact List.cons_ne_nil _ _ heq.2
      · rw [List.cons_append, List.cons_append, List.cons.injEq, List.cons.injEq] at heq
        exact hdots (by rw [heq.1, heq.2.1, (List.append_eq_nil_iff.mp heq.2.2).1])

/-- Text that is appended lengthens the last name at most. -/
theorem IsName.firstName_append (h : IsName (firstName s)) (t : Text) :
    IsName (firstName (s ++ t)) := by
  rw [firstName, List.takeWhile_append]
  split
  · next hlength =>
    have hall : firstName s = s := (List.takeWhile_prefix _).eq_of_length hlength
    rw [hall] at h
    exact h.append _
  · exact h

theorem Folder.clean (h : Folder p) : Clean p :=
  ⟨h.1, fun s hs habs => .inr (h.2 s hs habs)⟩

theorem IsAbsolute.append (h : IsAbsolute s) (t : Text) : IsAbsolute (s ++ t) := by
  rw [IsAbsolute, List.head?_append, h, Option.some_or]

/-- The first name after a folder's slash stays one, whatever is appended. -/
theorem IsAbsolute.firstName_tail (h : IsAbsolute s) (hname : IsName (firstName s.tail))
    (t : Text) : IsName (firstName (s ++ t).tail) := by
  cases s with
  | nil => cases h
  | cons c s => exact hname.firstName_append t

/-- What is clean after one folder is clean after another. -/
theorem Clean.swap (hnew : Folder new) (h : Clean (old ++ t)) : Clean (new ++ t) := by
  refine ⟨hnew.1.append t, fun s hs habs => ?_⟩
  have hrest : s <:+ t → s.tail = [] ∨ IsName (firstName s.tail) := fun hst =>
    h.2 s ((List.mem_tails _ _).mpr (hst.trans (List.suffix_append old t))) habs
  obtain ⟨front, heq⟩ := (List.mem_tails _ _).mp hs
  rcases List.append_eq_append_iff.mp heq with ⟨a, hfront, hs'⟩ | ⟨c, hc, ht⟩
  · cases a with
    | nil =>
      rw [List.nil_append] at hs'
      exact hrest (hs' ▸ List.suffix_rfl)
    | cons x a =>
      have habs' : IsAbsolute (x :: a) := by
        rw [hs', List.cons_append] at habs
        exact habs
      have hname := hnew.2 (x :: a) ((List.mem_tails _ _).mpr ⟨front, hfront.symm⟩) habs'
      rw [hs']
      exact .inr (habs'.firstName_tail hname t)
  · exact hrest ⟨c, ht.symm⟩

variable {absolute : Text → Text}

/-- What is found in a folder is clean. -/
theorem Resolves.clean_append (h : Resolves absolute) (hold : Folder old) (hp : IsAbsolute p)
    (heq : absolute p = old ++ t) : Clean (old ++ t) := by
  have hname := hold.2 old ((List.mem_tails _ _).mpr List.suffix_rfl) hold.1
  have hclean := h.resolved p hp
  rw [heq] at hclean
  exact hclean (hold.1.firstName_tail hname t)

/-- No path has one folder in its text and is found, with the same rest, in another. -/
theorem Resolves.not_moved (h : Resolves absolute) (hold : Folder old) (hnew : Folder new)
    (hne : old ≠ new) (hp : IsAbsolute p) (heq : absolute p = old ++ t) : new ++ t ≠ p := by
  intro hmoved
  have hclean := (h.clean_append hold hp heq).swap hnew
  rw [← hmoved, h.clean _ hclean] at heq
  exact hne (List.append_cancel_right heq).symm

end DispService.Lib.PathText
