import Mathlib.Data.List.Basic

/-! A growable byte array whose size field may be rewritten by hand: shrinking
it keeps the memory, so that a later write of the size brings the bytes back. -/
namespace DispService.Lib

universe u

structure Buffer (β : Type u) where
  memory : List β := []
  size : Nat := 0
  capacity : Nat

namespace Buffer

variable {β : Type u} {b : Buffer β} {bs : List β} {n : Nat}

/-- The part of the memory the size covers. -/
def bytes (b : Buffer β) : List β :=
  b.memory.take b.size

/-- Write at the end. Beyond the capacity the memory is allocated anew, with
`slack n` bytes more than the `n` needed. -/
def append (slack : Nat → Nat) (b : Buffer β) (bs : List β) : Buffer β :=
  let n := b.size + bs.length
  { memory := b.bytes ++ bs ++ b.memory.drop n,
    size := n,
    capacity := if n ≤ b.capacity then b.capacity else n + slack n }

def resize (b : Buffer β) (n : Nat) : Buffer β :=
  { b with size := n }

/-- The size covers memory that is there and that is allocated. -/
structure Valid (b : Buffer β) : Prop where
  size_le : b.size ≤ b.memory.length
  fits : b.size ≤ b.capacity

@[simp]
theorem append_size (slack : Nat → Nat) : (b.append slack bs).size = b.size + bs.length :=
  rfl

@[simp]
theorem bytes_resize_zero : (b.resize 0).bytes = [] :=
  List.take_zero

theorem Valid.length (h : b.Valid) : b.bytes.length = b.size := by
  unfold bytes
  rw [List.length_take]
  exact Nat.min_eq_left h.size_le

theorem Valid.bytes_eq_nil_iff (h : b.Valid) : b.bytes = [] ↔ b.size = 0 := by
  rw [← h.length, List.length_eq_zero_iff]

theorem Valid.bytes_append (h : b.Valid) (slack : Nat → Nat) :
    (b.append slack bs).bytes = b.bytes ++ bs := by
  have hlength : b.size + bs.length = (b.bytes ++ bs).length := by
    rw [List.length_append, h.length]
  unfold append bytes
  dsimp only
  rw [hlength]
  exact List.take_left

theorem Valid.append (h : b.Valid) (slack : Nat → Nat) : (b.append slack bs).Valid where
  size_le := by
    have hlength := h.length
    simp only [Buffer.append, List.length_append, hlength]
    omega
  fits := by
    simp only [Buffer.append]
    split
    · assumption
    · omega

theorem Valid.resize (h : b.Valid) (hn : n ≤ b.size) : (b.resize n).Valid where
  size_le := Nat.le_trans hn h.size_le
  fits := Nat.le_trans hn h.fits

end Buffer

end DispService.Lib
