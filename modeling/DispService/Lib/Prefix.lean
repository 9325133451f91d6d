import Mathlib.Data.Nat.Basic
import Mathlib.Tactic.Ring

/-! Masks that are a run of one bits, and the networks of a mask whose run starts at the top: the
addresses that agree above the lowest one bit. -/
namespace DispService.Lib

variable {a b k w : Nat}

/-- `j` one bits above `k` zeros. -/
def OnesAbove (k j n : Nat) : Prop :=
  n = 2 ^ k * (2 ^ j - 1)

/-- The mask of the networks of `2 ^ k` addresses, in `w` bits. -/
def topMask (w k : Nat) : Nat :=
  2 ^ w - 2 ^ k

theorem topMask_eq (hk : k ≤ w) : topMask w k = (2 ^ (w - k) - 1) * 2 ^ k := by
  have hpow : 2 ^ w = 2 ^ (w - k) * 2 ^ k := by
    rw [← Nat.pow_add, Nat.sub_add_cancel hk]
  rw [topMask, hpow, Nat.sub_mul, Nat.one_mul]

/-- The mask keeps what stands above its zeros. -/
theorem land_topMask (ha : a < 2 ^ w) (hk : k ≤ w) : a &&& topMask w k = a / 2 ^ k * 2 ^ k := by
  rw [topMask_eq hk]
  apply Nat.eq_of_testBit_eq
  intro i
  rw [Nat.testBit_and, Nat.testBit_mul_two_pow, Nat.testBit_mul_two_pow,
    Nat.testBit_two_pow_sub_one, Nat.testBit_div_two_pow]
  by_cases hi : k ≤ i
  · rw [Nat.sub_add_cancel hi]
    by_cases hw : i < w
    · have hlt : i - k < w - k := by omega
      simp [hi, hlt]
    · have hbit : a.testBit i = false :=
        Nat.testBit_lt_two_pow (ha.trans_le (Nat.pow_le_pow_right (by decide) (not_lt.mp hw)))
      simp [hbit]
  · simp [hi]

/-- Addresses of one network are less than its size apart. -/
theorem same_network (ha : a < 2 ^ w) (hb : b < 2 ^ w) (hk : k ≤ w)
    (h : a &&& topMask w k = b &&& topMask w k) : a < b + 2 ^ k := by
  rw [land_topMask ha hk, land_topMask hb hk] at h
  have hdiv := Nat.eq_of_mul_eq_mul_right (Nat.two_pow_pos k) h
  have hmod := Nat.mod_lt a (Nat.two_pow_pos k)
  have hae := Nat.div_add_mod a (2 ^ k)
  have hbe := Nat.div_add_mod b (2 ^ k)
  rw [hdiv] at hae
  omega

/-- What lies between two addresses of one network is of that network. -/
theorem between_network {c : Nat} (hc : c < 2 ^ w) (hk : k ≤ w) (hab : a ≤ b) (hbc : b ≤ c)
    (h : a &&& topMask w k = c &&& topMask w k) : b &&& topMask w k = a &&& topMask w k := by
  have hb : b < 2 ^ w := hbc.trans_lt hc
  rw [land_topMask (hab.trans_lt hb) hk, land_topMask hc hk] at h
  rw [land_topMask hb hk, land_topMask (hab.trans_lt hb) hk]
  have hdiv := Nat.eq_of_mul_eq_mul_right (Nat.two_pow_pos k) h
  have hlow : a / 2 ^ k ≤ b / 2 ^ k := Nat.div_le_div_right hab
  have hhigh : b / 2 ^ k ≤ c / 2 ^ k := Nat.div_le_div_right hbc
  rw [show b / 2 ^ k = a / 2 ^ k by omega]

/-- A one bit below a run of ones that starts at the lowest bit. -/
theorem ones_step {n j : Nat} (hone : n % 2 = 1) (h : n / 2 = 2 ^ j - 1) : n = 2 ^ (j + 1) - 1 := by
  have hpos := Nat.two_pow_pos j
  rw [Nat.pow_succ]
  omega

theorem OnesAbove.of_ones {n j : Nat} (h : n = 2 ^ j - 1) : OnesAbove 0 j n := by
  rw [OnesAbove, Nat.pow_zero, Nat.one_mul]
  exact h

/-- A zero bit below a run of ones. -/
theorem OnesAbove.step {n j : Nat} (hzero : n % 2 = 0) (h : OnesAbove k j (n / 2)) :
    OnesAbove (k + 1) j n := by
  unfold OnesAbove at h ⊢
  have htwice : n = 2 * (n / 2) := by omega
  rw [htwice, h, Nat.pow_succ, Nat.mul_comm (2 ^ k) 2, Nat.mul_assoc]

/-- Zero bits at the bottom stand below the run. -/
theorem OnesAbove.le {n j m : Nat} (h : OnesAbove k j n) (hn : n ≠ 0) (hm : n % 2 ^ m = 0) :
    m ≤ k := by
  unfold OnesAbove at h
  by_contra hlt
  have hj : j ≠ 0 := by
    rintro rfl
    simp at h
    exact hn h
  have hdvd : 2 ^ k * 2 ∣ 2 ^ k * (2 ^ j - 1) := by
    rw [← h, ← Nat.pow_succ]
    exact (Nat.pow_dvd_pow 2 (by omega)).trans (Nat.dvd_of_mod_eq_zero hm)
  have htwo : 2 ∣ 2 ^ j - 1 := Nat.dvd_of_mul_dvd_mul_left (Nat.two_pow_pos k) hdvd
  obtain ⟨i, rfl⟩ := Nat.exists_eq_succ_of_ne_zero hj
  have hpos := Nat.two_pow_pos i
  rw [Nat.pow_succ] at htwo
  omega

/-- A run of ones that reaches the top bit is the mask. -/
theorem OnesAbove.top {n j : Nat} (h : OnesAbove k j n) (hn : n < 2 ^ w) (top : 2 ^ (w - 1) ≤ n)
    (hw : 0 < w) : n = topMask w k ∧ k < w := by
  unfold OnesAbove at h
  have hpow : 2 ^ k * (2 ^ j - 1) = 2 ^ (k + j) - 2 ^ k := by
    rw [Nat.mul_sub, Nat.mul_one, ← Nat.pow_add]
  rw [hpow] at h
  have hle : k + j ≤ w := by
    by_contra hgt
    have hlarge : 2 ^ (w + 1) ≤ 2 ^ (k + j) := Nat.pow_le_pow_right (by decide) (by omega)
    by_cases hj : j = 0
    · subst hj
      simp at h
      have hpos := Nat.two_pow_pos (w - 1)
      omega
    · have hhalf : 2 ^ k * 2 ≤ 2 ^ (k + j) := by
        rw [← Nat.pow_succ]
        exact Nat.pow_le_pow_right (by decide) (by omega)
      rw [Nat.pow_succ] at hlarge
      omega
  have hge : w ≤ k + j := by
    by_contra hlt
    have hsmall : 2 ^ (k + j) ≤ 2 ^ (w - 1) := Nat.pow_le_pow_right (by decide) (by omega)
    have hpos := Nat.two_pow_pos k
    have htop := Nat.two_pow_pos (w - 1)
    omega
  have heq : k + j = w := by omega
  rw [heq] at h
  refine ⟨h, ?_⟩
  by_contra hkw
  have hk : k = w := by omega
  rw [hk] at h
  have hpos := Nat.two_pow_pos (w - 1)
  omega

end DispService.Lib
