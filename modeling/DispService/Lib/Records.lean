import Mathlib.Data.Finset.Basic

/-! An open file as the system calls see it, bytes and an offset, and files that consist of records
of one size: while the offset stands between two records, a call deals with one record. And tables
of places, of which the free ones are used again: as a set of what they store. -/
namespace DispService.Lib

/-- An open file. The offsets at which it was read or written are kept. -/
structure OpenFile (β : Type*) where
  bytes : List β := []
  pos : Nat := 0
  offsets : List Nat := []

namespace OpenFile

variable {β : Type*} {f : OpenFile β} {size : Nat}

/-- `read`: what there is, up to `n` bytes. -/
def read (f : OpenFile β) (n : Nat) : List β × OpenFile β :=
  let got := (f.bytes.drop f.pos).take n
  (got, { f with pos := f.pos + got.length, offsets := f.pos :: f.offsets })

/-- `write`, which overwrites and extends; a hole is filled. -/
def write (fill : β) (bs : List β) (f : OpenFile β) : OpenFile β :=
  let before := (f.bytes ++ List.replicate (f.pos - f.bytes.length) fill).take f.pos
  { bytes := before ++ bs ++ f.bytes.drop (f.pos + bs.length)
    pos := f.pos + bs.length
    offsets := f.pos :: f.offsets }

def rewind (f : OpenFile β) : OpenFile β :=
  { f with pos := 0 }

/-- `lseek` backwards; it fails before the beginning. -/
def back (n : Nat) (f : OpenFile β) : Option (OpenFile β) :=
  if f.pos < n then none else some { f with pos := f.pos - n }

/-- A read that gives something leaves less to be read. -/
theorem read_lt (n : Nat) (h : (f.read n).1 ≠ []) :
    (f.read n).2.bytes.length - (f.read n).2.pos < f.bytes.length - f.pos := by
  unfold read at h ⊢
  dsimp only at h ⊢
  have hpos := List.length_pos_iff.mpr h
  have hle : ((f.bytes.drop f.pos).take n).length ≤ f.bytes.length - f.pos := by
    rw [← List.length_drop]
    exact List.length_take_le' _ _
  omega

/-- The file consists of records, and the offset stands after `pre`. -/
structure Between (size : Nat) (f : OpenFile β) (pre post : List (List β)) : Prop where
  bytes : f.bytes = pre.flatten ++ post.flatten
  pos : f.pos = pre.flatten.length
  before : ∀ r ∈ pre, r.length = size
  after : ∀ r ∈ post, r.length = size
  aligned : ∀ o ∈ f.offsets, size ∣ o

namespace Between

variable {pre post : List (List β)} {r new : List β}

theorem dvd_flatten {rs : List (List β)} (h : ∀ r ∈ rs, r.length = size) :
    size ∣ rs.flatten.length := by
  induction rs with
  | nil => exact Nat.dvd_zero size
  | cons r rs ih =>
      rw [List.flatten_cons, List.length_append, h r (List.mem_cons_self ..)]
      exact Nat.dvd_add (Nat.dvd_refl size) (ih fun r' hr' => h r' (List.mem_cons_of_mem r hr'))

theorem dvd_pos (h : Between size f pre post) : size ∣ f.pos := by
  rw [h.pos]
  exact dvd_flatten h.before

theorem dvd_offsets (h : Between size f pre post) : ∀ o ∈ f.pos :: f.offsets, size ∣ o := by
  intro o ho
  rcases List.mem_cons.mp ho with rfl | ho
  · exact h.dvd_pos
  · exact h.aligned o ho

theorem rewind (h : Between size f pre post) : Between size f.rewind [] (pre ++ post) where
  bytes := by
    rw [List.flatten_append]
    exact h.bytes
  pos := rfl
  before := by simp
  after := by
    intro r hr
    exact (List.mem_append.mp hr).elim (h.before r) (h.after r)
  aligned := h.aligned

/-- A record is read. -/
theorem read_cons (h : Between size f pre (r :: post)) :
    (f.read size).1 = r ∧ Between size (f.read size).2 (pre ++ [r]) post := by
  have hr := h.after r (List.mem_cons_self ..)
  have hgot : (f.bytes.drop f.pos).take size = r := by
    rw [h.bytes, h.pos, List.drop_left, List.flatten_cons, ← hr, List.take_left]
  refine ⟨hgot, ?_, ?_, ?_, ?_, h.dvd_offsets⟩
  · simp [OpenFile.read, h.bytes]
  · simp only [OpenFile.read, hgot]
    simp [h.pos]
  · intro r' hr'
    rcases List.mem_append.mp hr' with hr' | hr'
    · exact h.before r' hr'
    · rw [List.mem_singleton.mp hr', hr]
  · exact fun r' hr' => h.after r' (List.mem_cons_of_mem r hr')

/-- At the end nothing is read. -/
theorem read_nil (h : Between size f pre []) :
    (f.read size).1 = [] ∧ Between size (f.read size).2 pre [] := by
  have hgot : (f.bytes.drop f.pos).take size = [] := by
    rw [h.bytes, h.pos, List.drop_left, List.flatten_nil, List.take_nil]
  refine ⟨hgot, h.bytes, ?_, h.before, h.after, h.dvd_offsets⟩
  simp only [OpenFile.read, hgot]
  simp [h.pos]

/-- The record before the offset. -/
theorem back (h : Between size f (pre ++ [r]) post) :
    ∃ f', f.back size = some f' ∧ Between size f' pre (r :: post) ∧ f'.bytes = f.bytes := by
  have hr : r.length = size := h.before r (by simp)
  have hpos : f.pos = pre.flatten.length + size := by
    rw [h.pos, List.flatten_append, List.flatten_singleton, List.length_append, hr]
  refine ⟨{ f with pos := f.pos - size }, ?_, ⟨?_, ?_, ?_, ?_, h.aligned⟩, rfl⟩
  · unfold OpenFile.back
    rw [if_neg (by omega)]
  · simp [h.bytes]
  · show f.pos - size = _
    omega
  · exact fun r' hr' => h.before r' (List.mem_append_left _ hr')
  · intro r' hr'
    rcases List.mem_cons.mp hr' with rfl | hr'
    · exact hr
    · exact h.after r' hr'

theorem mem_snoc (h : ∀ r ∈ pre, r.length = size) (hnew : new.length = size) :
    ∀ r ∈ pre ++ [new], r.length = size := by
  intro r hr
  rcases List.mem_append.mp hr with hr | hr
  · exact h r hr
  · rwa [List.mem_singleton.mp hr]

/-- A record is overwritten. -/
theorem write_cons {fill : β} (h : Between size f pre (r :: post)) (hnew : new.length = size) :
    Between size (f.write fill new) (pre ++ [new]) post where
  bytes := by
    have hr : new.length = r.length := hnew.trans (h.after r (List.mem_cons_self ..)).symm
    have hdrop : (f.bytes.drop (f.pos + new.length)) = post.flatten := by
      rw [← List.drop_drop, h.bytes, h.pos, List.drop_left, List.flatten_cons, hr, List.drop_left]
    have htake : (f.bytes ++ List.replicate (f.pos - f.bytes.length) fill).take f.pos =
        pre.flatten := by
      rw [h.bytes, h.pos, List.append_assoc, List.take_left]
    simp only [OpenFile.write, hdrop, htake]
    simp
  pos := by
    simp [OpenFile.write, h.pos]
  before := mem_snoc h.before hnew
  after := fun r' hr' => h.after r' (List.mem_cons_of_mem r hr')
  aligned := h.dvd_offsets

/-- A record is added at the end. -/
theorem write_nil {fill : β} (h : Between size f pre []) (hnew : new.length = size) :
    Between size (f.write fill new) (pre ++ [new]) [] where
  bytes := by
    have hbytes : f.bytes = pre.flatten := by
      rw [h.bytes]
      simp
    have hdrop : f.bytes.drop (f.pos + new.length) = [] := by
      rw [hbytes, h.pos]
      exact List.drop_eq_nil_of_le (Nat.le_add_right _ _)
    have htake : (f.bytes ++ List.replicate (f.pos - f.bytes.length) fill).take f.pos =
        pre.flatten := by
      rw [hbytes, h.pos, List.take_left]
    simp only [OpenFile.write, hdrop, htake]
    simp
  pos := by
    simp [OpenFile.write, h.pos]
  before := mem_snoc h.before hnew
  after := h.after
  aligned := h.dvd_offsets

end Between

end OpenFile

namespace Slots

variable {α : Type*} [DecidableEq α] {ps : List (Option α)} {s : Finset α} {x : α}

/-- The first free place is taken, and a new one only when there is none. -/
def add (x : α) (ps : List (Option α)) : List (Option α) :=
  if some x ∈ ps then ps
  else if none ∈ ps then ps.replace none (some x)
  else ps ++ [some x]

def remove (x : α) (ps : List (Option α)) : List (Option α) :=
  ps.replace (some x) none

/-- In how many places an element is stored. -/
def copies (x : α) (ps : List (Option α)) : Nat :=
  ps.count (some x)

/-- The places store the elements of the set, each once. -/
def Stores (ps : List (Option α)) (s : Finset α) : Prop :=
  ∀ x, copies x ps = if x ∈ s then 1 else 0

theorem Stores.nil : Stores ([] : List (Option α)) ∅ :=
  fun _ => rfl

theorem Stores.mem_iff (h : Stores ps s) : some x ∈ ps ↔ x ∈ s := by
  have hcopies : ps.count (some x) = if x ∈ s then 1 else 0 := h x
  rw [← List.count_pos_iff, hcopies]
  split
  · rename_i hx
    exact iff_of_true Nat.one_pos hx
  · rename_i hx
    exact iff_of_false (Nat.lt_irrefl 0) hx

theorem Stores.add (h : Stores ps s) : Stores (Slots.add x ps) (insert x s) := by
  intro y
  unfold Slots.add
  by_cases hx : x ∈ s
  · rw [if_pos (h.mem_iff.mpr hx), Finset.insert_eq_of_mem hx]
    exact h y
  · have hnew : some x ∉ ps := fun hmem => hx (h.mem_iff.mp hmem)
    have hcount : ps.count (some y) + (if x = y then 1 else 0) =
        if y ∈ insert x s then 1 else 0 := by
      have hcopies : ps.count (some y) = if y ∈ s then 1 else 0 := h y
      rw [hcopies]
      by_cases hy : x = y
      · subst hy
        simp [hx]
      · simp [hy, Ne.symm hy]
    unfold copies
    rw [if_neg hnew, ← hcount]
    by_cases hfree : none ∈ ps
    · rw [if_pos hfree, List.count_replace]
      simp [hfree]
    · rw [if_neg hfree, List.count_append, List.count_singleton]
      simp

theorem Stores.remove (h : Stores ps s) : Stores (Slots.remove x ps) (s.erase x) := by
  intro y
  unfold Slots.remove
  by_cases hx : x ∈ s
  · have hmem : ps.contains (some x) = true := by simpa using h.mem_iff.mpr hx
    have hcopies : ps.count (some y) = if y ∈ s then 1 else 0 := h y
    unfold copies
    rw [List.count_replace, if_pos hmem, hcopies]
    by_cases hy : x = y
    · subst hy
      simp [hx]
    · simp [hy, Ne.symm hy]
  · have hno : some x ∉ ps := fun hmem => hx (h.mem_iff.mp hmem)
    rw [List.replace_of_not_mem hno, Finset.erase_eq_of_notMem hx]
    exact h y

variable {pre post : List (Option α)}

theorem replace_first {a b : Option α} (h : a ∉ pre) :
    (pre ++ a :: post).replace a b = pre ++ b :: post := by
  rw [List.replace_append_right h]
  simp

theorem add_of_mem (h : some x ∈ ps) : add x ps = ps :=
  if_pos h

/-- The first free place is taken. -/
theorem add_first (hnew : some x ∉ pre ++ none :: post) (h : none ∉ pre) :
    add x (pre ++ none :: post) = pre ++ some x :: post := by
  unfold add
  rw [if_neg hnew, if_pos (by simp), replace_first h]

theorem add_last (hnew : some x ∉ ps) (h : none ∉ ps) : add x ps = ps ++ [some x] := by
  unfold add
  rw [if_neg hnew, if_neg h]

theorem remove_first (h : some x ∉ pre) :
    remove x (pre ++ some x :: post) = pre ++ none :: post :=
  replace_first h

theorem remove_of_notMem (h : some x ∉ ps) : remove x ps = ps :=
  List.replace_of_not_mem h

end Slots

end DispService.Lib
