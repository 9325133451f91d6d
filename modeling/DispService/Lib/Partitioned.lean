import Mathlib.Data.List.Basic
import Mathlib.Data.List.Perm.Basic

/-! Lists that are rearranged in place so that the items of a predicate come first, and the scans
that rely on it: the first item that fails the predicate ends the ones that meet it. -/
namespace DispService.Lib

variable {α : Type*}

/-- No item that meets the predicate stands behind one that fails it. -/
def Partitioned (p : α → Bool) (l : List α) : Prop :=
  ∃ front back, l = front ++ back ∧ (∀ a ∈ front, p a = true) ∧ ∀ a ∈ back, p a = false

/-- A rearrangement by a predicate. Which items of one kind come before which is left open. -/
structure Partitioner (α : Type*) where
  arrange : (α → Bool) → List α → List α
  perm : ∀ p l, (arrange p l).Perm l
  partitioned : ∀ p l, Partitioned p (arrange p l)

/-- The rearrangement that keeps the order inside both kinds. -/
def Partitioner.stable : Partitioner α where
  arrange p l := l.filter p ++ l.filter fun a => !p a
  perm p l := List.filter_append_perm p l
  partitioned p l := by
    refine ⟨_, _, rfl, fun a ha => List.of_mem_filter ha, fun a ha => ?_⟩
    have hnot := List.of_mem_filter ha
    simpa using hnot

namespace Partitioned

variable {p : α → Bool} {l : List α}

/-- The items before the first one that fails are all that meet the predicate. -/
theorem takeWhile_eq (h : Partitioned p l) : l.takeWhile p = l.filter p := by
  obtain ⟨front, back, rfl, hfront, hback⟩ := h
  have hnone : back.filter p = [] := List.filter_eq_nil_iff.mpr fun a ha => by simp [hback a ha]
  rw [List.takeWhile_append_of_pos hfront, List.filter_append, List.filter_eq_self.mpr hfront, hnone]
  cases back with
  | nil => rfl
  | cons b back => rw [List.takeWhile_cons_of_neg (by simp [hback b])]

/-- From the first one that fails on, all of them do. -/
theorem dropWhile_eq (h : Partitioned p l) : l.dropWhile p = l.filter fun a => !p a := by
  obtain ⟨front, back, rfl, hfront, hback⟩ := h
  have hnone : front.filter (fun a => !p a) = [] :=
    List.filter_eq_nil_iff.mpr fun a ha => by simp [hfront a ha]
  have hall : back.filter (fun a => !p a) = back :=
    List.filter_eq_self.mpr fun a ha => by simp [hback a ha]
  rw [List.dropWhile_append_of_pos hfront, List.filter_append, hnone, hall, List.nil_append]
  cases back with
  | nil => rfl
  | cons b back => rw [List.dropWhile_cons_of_neg (by simp [hback b])]

end Partitioned

end DispService.Lib

/-! The binary search for the first item that fails a predicate, and what it finds in a list that
is arranged by the predicate. -/
namespace DispService.Lib

variable {α : Type*}

/-- The search in so many items from the first on. The fuel bounds their number. -/
def searchFrom (p : α → Bool) (l : List α) : Nat → Nat → Nat → Nat
  | 0, first, _ => first
  | fuel + 1, first, count =>
      if count = 0 then first
      else
        let step := count / 2
        match l[first + step]? with
        | none => first
        | some x =>
            if p x then searchFrom p l fuel (first + step + 1) (count - (step + 1))
            else searchFrom p l fuel first step

/-- Where the items that meet the predicate end. -/
def lowerBound (p : α → Bool) (l : List α) : Nat :=
  searchFrom p l l.length 0 l.length

section LowerBound

variable {p : α → Bool} {l front back : List α}

theorem searchFrom_eq {fuel first count : Nat} (hfront : ∀ a ∈ front, p a = true)
    (hback : ∀ a ∈ back, p a = false) (hfuel : count ≤ fuel) (hfirst : first ≤ front.length)
    (hcount : front.length ≤ first + count) (hlength : first + count ≤ (front ++ back).length) :
    searchFrom p (front ++ back) fuel first count = front.length := by
  induction fuel generalizing first count with
  | zero =>
    rw [searchFrom]
    omega
  | succ fuel ih =>
    rw [searchFrom]
    split
    · next hzero => omega
    · next hzero =>
      have hin : first + count / 2 < (front ++ back).length := by omega
      dsimp only
      rw [List.getElem?_eq_getElem hin]
      dsimp only
      by_cases hbefore : first + count / 2 < front.length
      · have hp : p (front ++ back)[first + count / 2] = true := by
          rw [List.getElem_append_left hbefore]
          exact hfront _ (List.getElem_mem hbefore)
        rw [if_pos hp]
        exact ih (by omega) (by omega) (by omega) (by omega)
      · have hp : p (front ++ back)[first + count / 2] = false := by
          rw [List.getElem_append_right (Nat.not_lt.mp hbefore)]
          exact hback _ (List.getElem_mem _)
        rw [if_neg (by rw [hp]; exact Bool.false_ne_true)]
        exact ih (by omega) (by omega) (by omega) (by omega)

/-- In a list that is arranged by the predicate the search ends between its two parts. -/
theorem lowerBound_append (hfront : ∀ a ∈ front, p a = true) (hback : ∀ a ∈ back, p a = false) :
    lowerBound p (front ++ back) = front.length :=
  searchFrom_eq hfront hback (Nat.le_refl _) (Nat.zero_le _)
    (by rw [Nat.zero_add, List.length_append]; exact Nat.le_add_right _ _)
    (Nat.le_of_eq (Nat.zero_add _))

end LowerBound

end DispService.Lib
