import Mathlib.Data.List.Basic
import Mathlib.Data.List.Induction

/-! Keys that are held by names. An entry claims every key that it lists, and releases those that it
still holds; the last claim of a key wins. -/
namespace DispService.Lib.Holders

variable {α κ ω : Type*} [DecidableEq ω] (name : α → ω) (lists : α → κ → Bool)

def claim (held : κ → Option ω) (a : α) : κ → Option ω :=
  fun x => if lists a x then some (name a) else held x

def release (held : κ → Option ω) (a : α) : κ → Option ω :=
  fun x => if lists a x ∧ held x = some (name a) then none else held x

/-- The last entry that lists the key. -/
def holder (entries : List α) (x : κ) : Option α :=
  entries.reverse.find? fun a => lists a x

variable {name lists} {entries : List α} {a : α} {x : κ}

theorem holder_append (entries : List α) (a : α) (x : κ) :
    holder lists (entries ++ [a]) x = if lists a x then some a else holder lists entries x := by
  unfold holder
  rw [List.reverse_append, List.reverse_singleton, List.singleton_append, List.find?_cons]
  cases lists a x <;> rfl

theorem holder_mem (h : holder lists entries x = some a) : a ∈ entries ∧ lists a x = true :=
  ⟨List.mem_reverse.mp (List.mem_of_find?_eq_some h), List.find?_some (p := fun a => lists a x) h⟩

theorem holder_none_iff : holder lists entries x = none ↔ ∀ a ∈ entries, lists a x = false := by
  simp [holder]

theorem holder_isSome (ha : a ∈ entries) (hx : lists a x = true) :
    ∃ b, holder lists entries x = some b := by
  refine Option.isSome_iff_exists.mp (Option.isSome_iff_ne_none.mpr fun hnone => ?_)
  rw [holder_none_iff.mp hnone a ha] at hx
  exact absurd hx (by simp)

/-- The only entry that lists the key holds it in every order. -/
theorem holder_of_unique (ha : a ∈ entries) (hx : lists a x = true)
    (honly : ∀ b ∈ entries, lists b x = true → b = a) : holder lists entries x = some a := by
  obtain ⟨b, hb⟩ := holder_isSome ha hx
  rw [hb, honly b (holder_mem hb).1 (holder_mem hb).2]

theorem holder_filter (p : α → Bool) (hp : ∀ a, lists a x = true → p a = true) :
    holder lists (entries.filter p) x = holder lists entries x := by
  unfold holder
  rw [← List.filter_reverse, List.find?_filter]
  congr 1
  funext a
  cases hx : lists a x with
  | false => simp
  | true => simp [hp a hx]

theorem foldl_claim (entries : List α) (held : κ → Option ω) (x : κ) :
    entries.foldl (claim name lists) held x = ((holder lists entries x).map name).or (held x) := by
  induction entries using List.reverseRecOn with
  | nil => rfl
  | append_singleton entries a ih =>
      rw [List.foldl_append, List.foldl_cons, List.foldl_nil, holder_append]
      unfold claim
      split
      · rfl
      · exact ih

/-- Releases change only what one of the entries still holds, in every order. -/
theorem foldl_release (entries : List α) (held : κ → Option ω) (x : κ) :
    entries.foldl (release name lists) held x =
      if ∃ a ∈ entries, lists a x = true ∧ held x = some (name a) then none else held x := by
  induction entries generalizing held with
  | nil => simp
  | cons a entries ih =>
      rw [List.foldl_cons, ih]
      by_cases ha : lists a x = true ∧ held x = some (name a)
      · have hnone : release name lists held a x = none := if_pos ha
        have hex : ∃ b ∈ a :: entries, lists b x = true ∧ held x = some (name b) :=
          ⟨a, List.mem_cons_self .., ha⟩
        rw [hnone, if_pos hex]
        exact ite_self none
      · have hsame : release name lists held a x = held x := if_neg ha
        rw [hsame]
        refine if_congr ?_ rfl rfl
        constructor
        · rintro ⟨b, hb, h⟩
          exact ⟨b, List.mem_cons_of_mem a hb, h⟩
        · rintro ⟨b, hb, h⟩
          rcases List.mem_cons.mp hb with rfl | hb
          · exact absurd h ha
          · exact ⟨b, hb, h⟩

end DispService.Lib.Holders
