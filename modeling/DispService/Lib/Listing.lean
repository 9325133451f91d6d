import Mathlib.Data.List.Basic
import Mathlib.Algebra.Order.Ring.Nat

/-! What a folder holds, as the system lists it, and the walk through it with a queue of
the folders that are found. The walk comes to every entry. -/
namespace DispService.Lib

/-- The entries of a folder, one after another. -/
inductive Listing (ν α : Type*) where
  | nil
  | leaf (name : ν) (a : α) (rest : Listing ν α)
  | folder (name : ν) (inner rest : Listing ν α)

namespace Listing

variable {ν α : Type*}

/-- All that lies below; a folder has no value of its own. -/
def entries (p : List ν) : Listing ν α → List (List ν × Option α)
  | nil => []
  | leaf name a rest => (p ++ [name], some a) :: entries p rest
  | folder name inner rest =>
      (p ++ [name], none) :: (entries (p ++ [name]) inner ++ entries p rest)

/-- The entries of the folder itself. -/
def children (p : List ν) : Listing ν α → List (List ν × Option α)
  | nil => []
  | leaf name a rest => (p ++ [name], some a) :: children p rest
  | folder name _ rest => (p ++ [name], none) :: children p rest

/-- The folders among them. -/
def folders (p : List ν) : Listing ν α → List (List ν × Listing ν α)
  | nil => []
  | leaf _ _ rest => folders p rest
  | folder name inner rest => (p ++ [name], inner) :: folders p rest

def size : Listing ν α → Nat
  | nil => 0
  | leaf _ _ rest => size rest
  | folder _ inner rest => size inner + 1 + size rest

/-- The walk, with a bound on the number of folders. -/
def walkQueue : Nat → List (List ν × Listing ν α) → List (List ν × Option α)
  | 0, _ => []
  | _ + 1, [] => []
  | n + 1, (p, l) :: queue => l.children p ++ walkQueue n (queue ++ l.folders p)

def walk (l : Listing ν α) : List (List ν × Option α) :=
  walkQueue (l.size + 1) [([], l)]

/-- The folders that are still to come. -/
def load (queue : List (List ν × Listing ν α)) : Nat :=
  (queue.map fun q => q.2.size + 1).sum

theorem load_append (queue queue' : List (List ν × Listing ν α)) :
    load (queue ++ queue') = load queue + load queue' := by
  unfold load
  rw [List.map_append, List.sum_append]

theorem load_folders (p : List ν) (l : Listing ν α) : load (l.folders p) = l.size := by
  induction l with
  | nil => rfl
  | leaf _ _ _ ih => exact ih
  | folder name inner rest _ ih =>
      have hcons : load ((folder name inner rest).folders p) =
          inner.size + 1 + load (rest.folders p) := List.sum_cons
      rw [hcons, ih]
      rfl

theorem mem_entries (p : List ν) (l : Listing ν α) (x : List ν × Option α) :
    x ∈ l.entries p ↔ x ∈ l.children p ∨ ∃ q ∈ l.folders p, x ∈ q.2.entries q.1 := by
  induction l with
  | nil => simp [entries, children, folders]
  | leaf name a rest ih =>
      rw [entries, children, folders, List.mem_cons, List.mem_cons, ih, or_assoc]
  | folder name inner rest _ ih =>
      rw [entries, children, folders, List.mem_cons, List.mem_append, List.mem_cons, ih, or_assoc,
        List.exists_mem_cons_iff]
      exact or_congr_right or_left_comm

/-- With a bound that is large enough the walk comes to all that lies below. -/
theorem mem_walkQueue {n : Nat} {queue : List (List ν × Listing ν α)} (h : load queue ≤ n)
    (x : List ν × Option α) :
    x ∈ walkQueue n queue ↔ ∃ q ∈ queue, x ∈ q.2.entries q.1 := by
  induction n generalizing queue with
  | zero =>
      cases queue with
      | nil => simp [walkQueue]
      | cons q queue =>
          have hcons : load (q :: queue) = q.2.size + 1 + load queue := List.sum_cons
          omega
  | succ n ih =>
      cases queue with
      | nil => simp [walkQueue]
      | cons q queue =>
          have hcons : load (q :: queue) = q.2.size + 1 + load queue := List.sum_cons
          have hrest : load (queue ++ q.2.folders q.1) ≤ n := by
            rw [load_append, load_folders]
            omega
          unfold walkQueue
          rw [List.mem_append, ih hrest, List.exists_mem_cons_iff, mem_entries, or_assoc]
          apply or_congr_right
          simp only [List.mem_append, or_and_right, exists_or]
          exact or_comm

theorem mem_walk (l : Listing ν α) (x : List ν × Option α) : x ∈ l.walk ↔ x ∈ l.entries [] := by
  have hload : load [(([] : List ν), l)] ≤ l.size + 1 := Nat.le_refl _
  unfold walk
  rw [mem_walkQueue hload]
  simp

end Listing

end DispService.Lib
