import Mathlib.Data.List.Basic

/-! The search for a name that is not taken: a letter is put before the name until it is free.
Longer and longer names are tried, so that the taken names run out. -/
namespace DispService.Lib

variable {α : Type*}

/-- The search, with a bound on the number of names that are tried. -/
def freeName [DecidableEq α] (letter : α) (taken : List (List α)) : Nat → List α → Option (List α)
  | 0, _ => none
  | fuel + 1, name =>
      if taken.contains name then freeName letter taken fuel (letter :: name) else some name

variable {letter : α} {taken : List (List α)} {name : List α}

/-- The taken names that are no shorter. -/
def ahead (taken : List (List α)) (name : List α) : Nat :=
  taken.countP fun t => name.length ≤ t.length

theorem ahead_le : ahead taken name ≤ taken.length :=
  List.countP_le_length

theorem ahead_cons (h : name ∈ taken) : ahead taken (letter :: name) < ahead taken name := by
  unfold ahead
  induction taken with
  | nil => cases h
  | cons t taken ih =>
      have hle : (taken.countP fun t => (letter :: name).length ≤ t.length) ≤
          taken.countP fun t => name.length ≤ t.length := by
        refine List.countP_mono_left fun x _ hx => ?_
        simp only [List.length_cons, decide_eq_true_eq] at hx ⊢
        omega
      rw [List.countP_cons, List.countP_cons]
      rcases List.mem_cons.mp h with rfl | h
      · have hself : ¬ (letter :: name).length ≤ name.length := by
          rw [List.length_cons]
          omega
        simp only [hself, decide_false, Nat.le_refl, decide_true, Bool.false_eq_true, if_false,
          if_true]
        omega
      · have hlt := ih h
        by_cases hlong : (letter :: name).length ≤ t.length
        · have hshort : name.length ≤ t.length := by
            rw [List.length_cons] at hlong
            omega
          simp only [hlong, hshort, decide_true, if_true]
          omega
        · simp only [hlong, decide_false, Bool.false_eq_true, if_false]
          omega

/-- The search ends within one more than the taken names, and what it finds is free. -/
theorem freeName_some [DecidableEq α] {fuel : Nat} (enough : ahead taken name < fuel) :
    ∃ k, freeName letter taken fuel name = some (List.replicate k letter ++ name) ∧
      List.replicate k letter ++ name ∉ taken := by
  induction fuel generalizing name with
  | zero => omega
  | succ fuel ih =>
      rw [freeName]
      by_cases h : name ∈ taken
      · have hless := @ahead_cons _ letter _ _ h
        obtain ⟨k, hk, hfree⟩ := @ih (letter :: name) (by omega)
        have hmove : List.replicate k letter ++ letter :: name =
            List.replicate (k + 1) letter ++ name := by
          rw [List.replicate_succ', List.append_assoc, List.singleton_append]
        rw [hmove] at hk hfree
        exact ⟨k + 1, by rw [if_pos (by simpa using h), hk], hfree⟩
      · exact ⟨0, by rw [if_neg (by simpa using h)]; rfl, h⟩

/-- What is found is the name with letters before it. -/
theorem freeName_eq [DecidableEq α] {fuel : Nat} {x : List α}
    (h : freeName letter taken fuel name = some x) : ∃ k, x = List.replicate k letter ++ name := by
  induction fuel generalizing name with
  | zero => cases h
  | succ fuel ih =>
      rw [freeName] at h
      split at h
      · obtain ⟨k, rfl⟩ := ih h
        refine ⟨k + 1, ?_⟩
        rw [List.replicate_succ', List.append_assoc, List.singleton_append]
      · cases h
        exact ⟨0, rfl⟩

/-- With a larger bound the same name is found. -/
theorem freeName_mono [DecidableEq α] {fuel fuel' : Nat} {x : List α} (hle : fuel ≤ fuel')
    (h : freeName letter taken fuel name = some x) : freeName letter taken fuel' name = some x := by
  induction fuel generalizing name fuel' with
  | zero => cases h
  | succ fuel ih =>
      obtain ⟨fuel', rfl⟩ := Nat.exists_eq_succ_of_ne_zero (show fuel' ≠ 0 by omega)
      rw [freeName] at h ⊢
      split at h
      · next htaken =>
        rw [if_pos htaken]
        exact ih (by omega) h
      · next hfree =>
        rw [if_neg hfree]
        exact h

end DispService.Lib
