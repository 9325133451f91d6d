import Mathlib.Data.List.Sort
import Mathlib.Order.Defs.LinearOrder

/-! Enumerations of entries in the order of a key. Entries whose keys are equal come in any order,
so that a fact about every enumeration tells which of them the order can decide. -/
namespace DispService.Lib

variable {α κ : Type*} [LinearOrder κ] {key : α → κ} {entries listed : List α} {a b : α}

/-- The first item of a kind, with those before it. -/
theorem exists_first {p : α → Prop} (h : ∃ a ∈ listed, p a) :
    ∃ front a back, listed = front ++ a :: back ∧ (∀ b ∈ front, ¬ p b) ∧ p a := by
  induction listed with
  | nil =>
      obtain ⟨a, ha, -⟩ := h
      cases ha
  | cons b listed ih =>
      by_cases hb : p b
      · exact ⟨[], b, listed, rfl, fun a ha => (by cases ha), hb⟩
      · obtain ⟨a, ha, hp⟩ := h
        have hmem : a ∈ listed := by
          rcases List.mem_cons.mp ha with rfl | ha
          · exact absurd hp hb
          · exact ha
        obtain ⟨front, a, back, rfl, hfront, hp⟩ := ih ⟨a, hmem, hp⟩
        refine ⟨b :: front, a, back, rfl, fun x hx => ?_, hp⟩
        rcases List.mem_cons.mp hx with rfl | hx
        · exact hb
        · exact hfront x hx

/-- The entries one after another, by their keys. -/
structure Enumerates (key : α → κ) (entries listed : List α) : Prop where
  perm : listed.Perm entries
  ordered : listed.Pairwise fun a b => key a ≤ key b

namespace Enumerates

theorem mem_iff (h : Enumerates key entries listed) : a ∈ listed ↔ a ∈ entries :=
  h.perm.mem_iff

theorem sorted (entries : List α) :
    Enumerates key entries (entries.mergeSort fun a b => key a ≤ key b) where
  perm := List.mergeSort_perm _ _
  ordered := by
    have hpairs := @List.pairwise_mergeSort _ (fun a b : α => decide (key a ≤ key b))
      (fun a b c hab hbc => by simp only [decide_eq_true_eq] at *; exact hab.trans hbc)
      (fun a b => by simpa using le_total (key a) (key b)) entries
    exact hpairs.imp fun hab => by simpa using hab

/-- What stands behind an entry has no lesser key. -/
theorem le_of_split (h : Enumerates key entries listed) {front back : List α}
    (split : listed = front ++ a :: back) (hb : b ∈ back) : key a ≤ key b := by
  have hordered := h.ordered
  rw [split] at hordered
  exact List.rel_of_pairwise_cons (List.pairwise_append.mp hordered).2.1 hb

/-- Of two entries, the one whose key is not the greater comes first in some enumeration. -/
theorem exists_before [DecidableEq α] (ha : a ∈ entries) (hb : b ∈ entries) (hab : a ≠ b)
    (hle : key a ≤ key b) :
    ∃ front back, Enumerates key entries (front ++ a :: back) ∧ b ∈ back := by
  obtain ⟨hperm, hordered⟩ := @sorted _ _ _ key (entries.erase a)
  generalize (entries.erase a).mergeSort _ = rest at hperm hordered
  refine ⟨rest.filter fun x => key x < key a, rest.filter fun x => !decide (key x < key a),
    ⟨?_, ?_⟩, ?_⟩
  · have hsplit := List.filter_append_perm (fun x => decide (key x < key a)) rest
    exact List.perm_middle.trans ((hsplit.trans hperm).cons a |>.trans (List.perm_cons_erase ha).symm)
  · refine List.pairwise_append.mpr ⟨hordered.filter _,
      List.pairwise_cons.mpr ⟨fun x hx => ?_, hordered.filter _⟩, fun x hx y hy => ?_⟩
    · have hx := List.of_mem_filter hx
      simpa using hx
    · have hx : key x < key a := by simpa using List.of_mem_filter hx
      rcases List.mem_cons.mp hy with rfl | hy
      · exact hx.le
      · have hy : key a ≤ key y := by simpa using List.of_mem_filter hy
        exact hx.le.trans hy
  · refine List.mem_filter.mpr ⟨hperm.mem_iff.mpr ?_, by simpa using hle⟩
    exact (List.mem_erase_of_ne hab.symm).mpr hb

/-- The first entry of a kind, where its key is less than those of the others. -/
theorem first_of_least (h : Enumerates key entries listed) {p : α → Prop} (ha : a ∈ entries)
    (hp : p a) (least : ∀ b ∈ entries, b ≠ a → p b → key a < key b) :
    ∃ front back, listed = front ++ a :: back ∧ ∀ b ∈ front, ¬ p b := by
  obtain ⟨front, b, back, split, hfront, hb⟩ := exists_first ⟨a, h.mem_iff.mpr ha, hp⟩
  have hmem := h.mem_iff.mpr ha
  by_cases heq : b = a
  · exact ⟨front, back, heq ▸ split, hfront⟩
  · have hlt := least b (h.mem_iff.mp (split ▸ by simp)) heq hb
    rw [split] at hmem
    rcases List.mem_append.mp hmem with hmem | hmem
    · exact absurd hp (hfront a hmem)
    · rcases List.mem_cons.mp hmem with hmem | hmem
      · exact absurd hmem.symm heq
      · exact absurd (h.le_of_split split hmem) (not_le.mpr hlt)

/-- Where two keys differ, they tell which of the entries comes first. -/
theorem mem_back_iff (h : Enumerates key entries listed) {front back : List α}
    (split : listed = front ++ a :: back) (hb : b ∈ entries) (hne : b ≠ a)
    (hkey : key b ≠ key a) : b ∈ back ↔ key a < key b := by
  constructor
  · intro hmem
    exact lt_of_le_of_ne (h.le_of_split split hmem) hkey.symm
  · intro hlt
    have hmem := h.mem_iff.mpr hb
    rw [split] at hmem
    rcases List.mem_append.mp hmem with hmem | hmem
    · obtain ⟨f, g, rfl⟩ := List.append_of_mem hmem
      have hle := @h.le_of_split _ _ _ _ _ _ b a f (g ++ a :: back)
        (by rw [split, List.append_assoc, List.cons_append]) (by simp)
      exact absurd hlt (not_lt.mpr hle)
    · rcases List.mem_cons.mp hmem with heq | hmem
      · exact absurd heq hne
      · exact hmem

end Enumerates

end DispService.Lib
