import Mathlib.Data.List.Basic

/-! A heap of separately allocated cells. An access to a cell that was never
allocated or is already freed has no result. Addresses are not reused. -/
namespace DispService.Lib

structure Heap (α : Type*) where
  cells : List (Option α)
  deriving DecidableEq, Repr

namespace Heap

variable {α : Type*}

def empty : Heap α :=
  ⟨[]⟩

def read (h : Heap α) (a : Nat) : Option α :=
  (h.cells[a]?).join

/-- The address of the next allocation. -/
def next (h : Heap α) : Nat :=
  h.cells.length

def alloc (h : Heap α) (v : α) : Heap α :=
  ⟨h.cells ++ [some v]⟩

def put (h : Heap α) (a : Nat) (c : Option α) : Heap α :=
  ⟨h.cells.set a c⟩

def modify (h : Heap α) (a : Nat) (f : α → α) : Option (Heap α) :=
  (h.read a).map fun v => h.put a (some (f v))

def free (h : Heap α) (a : Nat) : Option (Heap α) :=
  (h.read a).map fun _ => h.put a none

theorem lt_next_of_read {h : Heap α} {a : Nat} {v : α} (hread : h.read a = some v) :
    a < h.next := by
  by_contra hge
  have hnone : h.cells[a]? = none := List.getElem?_eq_none (Nat.le_of_not_lt hge)
  simp [read, hnone] at hread

theorem read_alloc (h : Heap α) (v : α) (a : Nat) :
    (h.alloc v).read a = if a = h.next then some v else h.read a := by
  unfold read alloc next
  by_cases heq : a = h.cells.length
  · simp [heq]
  · rw [if_neg heq]
    by_cases hlt : a < h.cells.length
    · rw [List.getElem?_append_left hlt]
    · have hge : (h.cells ++ [some v]).length ≤ a := by
        rw [List.length_append, List.length_singleton]
        omega
      rw [List.getElem?_eq_none hge, List.getElem?_eq_none (Nat.le_of_not_lt hlt)]

theorem read_alloc_next (h : Heap α) (v : α) : (h.alloc v).read h.next = some v := by
  rw [read_alloc, if_pos rfl]

theorem read_put_self {h : Heap α} {a : Nat} {v : α} (hread : h.read a = some v)
    (c : Option α) : (h.put a c).read a = c := by
  have hlt : a < h.cells.length := lt_next_of_read hread
  simp [read, put, hlt]

theorem read_put_ne (h : Heap α) {a b : Nat} (hne : b ≠ a) (c : Option α) :
    (h.put a c).read b = h.read b := by
  unfold read put
  rw [List.getElem?_set_ne hne.symm]

@[simp] theorem next_alloc (h : Heap α) (v : α) : (h.alloc v).next = h.next + 1 := by
  simp [next, alloc]

@[simp] theorem next_put (h : Heap α) (a : Nat) (c : Option α) : (h.put a c).next = h.next := by
  simp [next, put]

theorem modify_of_read {h : Heap α} {a : Nat} {v : α} (hread : h.read a = some v) (f : α → α) :
    h.modify a f = some (h.put a (some (f v))) := by
  rw [modify, hread, Option.map_some]

theorem modify_alloc (h : Heap α) (v : α) (f : α → α) :
    (h.alloc v).modify h.next f = some (h.alloc (f v)) := by
  rw [modify_of_read (read_alloc_next h v)]
  simp [put, alloc, next]

theorem free_of_read {h : Heap α} {a : Nat} {v : α} (hread : h.read a = some v) :
    h.free a = some (h.put a none) := by
  rw [free, hread, Option.map_some]

end Heap

end DispService.Lib
