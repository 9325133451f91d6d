/-! Work between a preparation and its undoing. The preparation makes entries that were
not there; what the work leaves of the rest is put back from them. -/
namespace DispService.Lib

universe u v

variable {ι : Type u} {γ : Type v}

/-- A preparation that has turned `before` into `prepared`: the entries it made, the
entries it guards, and what undoes it. `stuck` says that the undoing itself fails. -/
structure Bracket (made guarded : ι → Prop) (stuck : Prop) (before prepared : ι → Option γ)
    (cleanup rollback : (ι → Option γ) → ι → Option γ) : Prop where
  same : ∀ q, ¬ made q → prepared q = before q
  fresh : ∀ q, made q → before q = none ∧ prepared q ≠ none
  present : ∀ q, guarded q → prepared q ≠ none
  cleaned : ∀ x q, made q → cleanup x q = none
  spared : ∀ x q, ¬ made q → cleanup x q = x q
  apart : ∀ x q, ¬ made q → ¬ guarded q → rollback x q = x q
  undone : ¬ stuck → ∀ x, (∀ q, made q → x q = prepared q) →
    (∀ q, made q → rollback x q = none) ∧ ∀ q, guarded q → rollback x q = before q
  left : stuck → ∀ x, (∀ q, made q → x q = prepared q) → ∃ q, made q ∧ rollback x q ≠ none

namespace Bracket

variable {made guarded : ι → Prop} {stuck : Prop} {before prepared x : ι → Option γ}
  {cleanup rollback : (ι → Option γ) → ι → Option γ}

/-- An entry that is not there after the preparation was not there before, and belongs
to others. -/
theorem absent (b : Bracket made guarded stuck before prepared cleanup rollback) {q : ι}
    (h : prepared q = none) : ¬ made q ∧ ¬ guarded q ∧ before q = none := by
  have hmade : ¬ made q := fun hq => (b.fresh q hq).2 h
  refine ⟨hmade, fun hq => b.present q hq h, ?_⟩
  rw [← b.same q hmade]
  exact h

/-- The cleanup undoes the preparation where the work left things alone. -/
theorem cleanup_same (b : Bracket made guarded stuck before prepared cleanup rollback) {q : ι}
    (h : ¬ made q → x q = prepared q) : cleanup x q = before q := by
  by_cases hq : made q
  · rw [b.cleaned x q hq, (b.fresh q hq).1]
  · rw [b.spared x q hq, h hq, b.same q hq]

/-- The rollback undoes the preparation where the work left things alone, and for what is
guarded in any case. -/
theorem rollback_same (b : Bracket made guarded stuck before prepared cleanup rollback)
    (hok : ¬ stuck) (hmade : ∀ q, made q → x q = prepared q) {q : ι}
    (h : guarded q ∨ x q = prepared q) : rollback x q = before q := by
  obtain ⟨hnone, hback⟩ := b.undone hok x hmade
  by_cases hg : guarded q
  · exact hback q hg
  · by_cases hq : made q
    · rw [hnone q hq, (b.fresh q hq).1]
    · rw [b.apart x q hq hg, h.resolve_left hg, b.same q hq]

/-- What the work has left behind stays. -/
theorem rollback_keeps (b : Bracket made guarded stuck before prepared cleanup rollback) {q : ι}
    (hprepared : prepared q = none) (hx : x q ≠ none) :
    before q = none ∧ rollback x q ≠ none := by
  obtain ⟨hmade, hguarded, hbefore⟩ := b.absent hprepared
  refine ⟨hbefore, ?_⟩
  rw [b.apart x q hmade hguarded]
  exact hx

/-- A rollback that fails leaves something behind. -/
theorem rollback_leaves (b : Bracket made guarded stuck before prepared cleanup rollback)
    (hstuck : stuck) (hmade : ∀ q, made q → x q = prepared q) :
    ∃ q, made q ∧ before q = none ∧ rollback x q ≠ none := by
  obtain ⟨q, hq, hleft⟩ := b.left hstuck x hmade
  exact ⟨q, hq, (b.fresh q hq).1, hleft⟩

end Bracket

end DispService.Lib
