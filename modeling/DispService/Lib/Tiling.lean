import Mathlib.Data.List.Nodup
import Mathlib.Tactic.Ring

/-! Blocks of one size that follow each other from zero on. -/
namespace DispService.Lib

variable {c i n v : Nat}

/-- The numbers from `i * c` on, `c` of them. -/
def block (c i : Nat) : List Nat :=
  List.range' (i * c) c

theorem mem_block : v ∈ block c i ↔ i * c ≤ v ∧ v < (i + 1) * c := by
  rw [block, List.mem_range'_1, Nat.succ_mul]

theorem mem_block_iff_div (hc : 0 < c) : v ∈ block c i ↔ v / c = i := by
  rw [mem_block, Nat.div_eq_iff hc, Nat.succ_mul]
  omega

theorem block_disjoint {j : Nat} (hne : i ≠ j) : (block c i).Disjoint (block c j) := by
  intro v hi hj
  have hc : 0 < c := by
    rw [mem_block, Nat.succ_mul] at hi
    omega
  rw [mem_block_iff_div hc] at hi hj
  exact hne (hi.symm.trans hj)

theorem blocks_disjoint (c n : Nat) : ((List.range n).map (block c)).Pairwise List.Disjoint := by
  rw [List.pairwise_map]
  exact List.nodup_range.imp fun hne => block_disjoint hne

/-- `n` blocks cover what is below `n * c`. -/
theorem mem_blocks : (∃ b ∈ (List.range n).map (block c), v ∈ b) ↔ v < n * c := by
  simp only [List.mem_map, List.mem_range, exists_exists_and_eq_and]
  constructor
  · rintro ⟨i, hi, hv⟩
    have hle : (i + 1) * c ≤ n * c := Nat.mul_le_mul_right c hi
    exact (mem_block.mp hv).2.trans_le hle
  · intro hv
    have hc : 0 < c := by
      by_contra hzero
      rw [Nat.eq_zero_of_not_pos hzero, Nat.mul_zero] at hv
      omega
    exact ⟨v / c, Nat.div_lt_of_lt_mul (Nat.mul_comm n c ▸ hv), (mem_block_iff_div hc).mpr rfl⟩

theorem blocks_cover_iff {total : Nat} :
    (∀ v, (∃ b ∈ (List.range n).map (block c), v ∈ b) ↔ v < total) ↔ n * c = total := by
  simp only [mem_blocks]
  constructor
  · intro h
    have hle := h (n * c)
    have hge := h total
    omega
  · rintro rfl v
    exact Iff.rfl

/-- Equal shares of a number, taken below a bound, make up the whole just where it stays below and
is divided. -/
theorem share_iff {m w : Nat} (hw : 0 < w) : n * (m % w / n) = m ↔ m < w ∧ n ∣ m := by
  constructor
  · intro h
    have hle : n * (m % w / n) ≤ m % w := Nat.mul_div_le _ _
    have hlt : m % w < w := Nat.mod_lt m hw
    exact ⟨by omega, ⟨_, h.symm⟩⟩
  · rintro ⟨hlt, hdvd⟩
    rw [Nat.mod_eq_of_lt hlt, Nat.mul_div_cancel' hdvd]

end DispService.Lib
