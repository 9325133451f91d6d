import Mathlib.Data.List.Basic

/-! Balanced use of one resource along a trace. `call a` says what the event `a`
does to the resource: `some true` acquires it, `some false` releases it, `none`
leaves it alone. -/
namespace DispService.Lib.Balance

variable {α : Type*}

/-- Whether the resource is held after the trace. -/
def after (call : α → Option Bool) (held : Bool) : List α → Bool
  | [] => held
  | a :: as => after call ((call a).getD held) as

/-- Every acquisition finds the resource free and every release finds it held. -/
def Balanced (call : α → Option Bool) (held : Bool) : List α → Prop
  | [] => True
  | a :: as => (∀ up ∈ call a, held = !up) ∧ Balanced call ((call a).getD held) as

instance decidableBalanced (call : α → Option Bool) (held : Bool) :
    (trace : List α) → Decidable (Balanced call held trace)
  | [] => isTrue trivial
  | a :: as =>
      have := decidableBalanced call ((call a).getD held) as
      inferInstanceAs (Decidable (_ ∧ _))

variable {call weak : α → Option Bool} {held : Bool} {trace more : List α}

theorem after_append : after call held (trace ++ more) = after call (after call held trace) more := by
  induction trace generalizing held with
  | nil => rfl
  | cons a as ih => exact ih

theorem balanced_append :
    Balanced call held (trace ++ more) ↔
      Balanced call held trace ∧ Balanced call (after call held trace) more := by
  induction trace generalizing held with
  | nil => simp [Balanced, after]
  | cons a as ih => simp only [List.cons_append, Balanced, after, ih, and_assoc]

theorem after_congr (same : ∀ a ∈ trace, weak a = call a) :
    after weak held trace = after call held trace := by
  induction trace generalizing held with
  | nil => rfl
  | cons a as ih =>
      unfold after
      rw [same a List.mem_cons_self]
      apply ih
      intro b hb
      exact same b (List.mem_cons_of_mem a hb)

theorem balanced_congr (same : ∀ a ∈ trace, weak a = call a) :
    Balanced weak held trace ↔ Balanced call held trace := by
  induction trace generalizing held with
  | nil => rfl
  | cons a as ih =>
      unfold Balanced
      rw [same a List.mem_cons_self]
      apply and_congr_right
      intro _
      apply ih
      intro b hb
      exact same b (List.mem_cons_of_mem a hb)

/-- Where only acquisitions are left out, less is held. -/
theorem after_of_weak {lower : Bool} (below : lower = true → held = true)
    (lost : ∀ a, weak a = call a ∨ weak a = none ∧ call a = some true)
    (h : after weak lower trace = true) : after call held trace = true := by
  induction trace generalizing lower held with
  | nil => exact below h
  | cons a as ih =>
      unfold after at h ⊢
      refine ih ?_ h
      intro hlow
      cases lost a with
      | inl hsame =>
          rw [hsame] at hlow
          cases hcall : call a with
          | none =>
              rw [hcall] at hlow
              exact below hlow
          | some up =>
              rw [hcall] at hlow
              exact hlow
      | inr hlost => simp [hlost.2]

end DispService.Lib.Balance
