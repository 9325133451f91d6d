import Mathlib.Data.List.Basic
import Mathlib.Data.List.Range

/-! Rule lists that decide by the first match. Rules carry a priority and a decision; a list whose
priorities are numbered on from some start is already in its order, and a stretch of rules with one
decision decides by whether any of them matches. -/
namespace DispService.Lib.FirstMatch

variable {ρ ν : Type} {priority : ρ → Nat} {rules rules' : List ρ} {n : Nat}

def byPriority (priority : ρ → Nat) (rules : List ρ) : List ρ :=
  rules.mergeSort fun a b => priority a ≤ priority b

/-- The decision of the first rule that matches. -/
def firstMatch (hits : ρ → Bool) (decision : ρ → ν) (rules : List ρ) : Option ν :=
  (rules.find? hits).map decision

/-- The priorities count up from `n`. -/
def Numbered (priority : ρ → Nat) (n : Nat) (rules : List ρ) : Prop :=
  rules.map priority = List.range' n rules.length

theorem numbered_nil : Numbered priority n [] := rfl

theorem Numbered.append (h : Numbered priority n rules)
    (h' : Numbered priority (n + rules.length) rules') :
    Numbered priority n (rules ++ rules') := by
  unfold Numbered at *
  rw [List.map_append, h, h', List.length_append, List.range'_append_1]

theorem Numbered.increasing (h : Numbered priority n rules) :
    rules.Pairwise fun a b => priority a < priority b := by
  rw [← List.pairwise_map (f := priority) (R := (· < ·)), h]
  exact List.pairwise_lt_range'

theorem byPriority_increasing (h : rules.Pairwise fun a b => priority a < priority b) :
    byPriority priority rules = rules := by
  apply List.mergeSort_of_pairwise
  exact h.imp fun hab => by simpa using hab.le

theorem firstMatch_append (hits : ρ → Bool) (decision : ρ → ν) (rules rules' : List ρ) :
    firstMatch hits decision (rules ++ rules') =
      (firstMatch hits decision rules).or (firstMatch hits decision rules') := by
  unfold firstMatch
  rw [List.find?_append]
  cases rules.find? hits <;> rfl

theorem firstMatch_uniform {hits : ρ → Bool} {decision : ρ → ν} {v : ν}
    (h : ∀ r ∈ rules, decision r = v) :
    firstMatch hits decision rules = if rules.any hits then some v else none := by
  unfold firstMatch
  induction rules with
  | nil => rfl
  | cons r rules ih =>
      by_cases hr : hits r = true
      · simp [hr, h r (by simp)]
      · have hr' : hits r = false := by simpa using hr
        simpa [List.find?_cons, hr'] using ih fun s hs => h s (List.mem_cons_of_mem r hs)

end DispService.Lib.FirstMatch
