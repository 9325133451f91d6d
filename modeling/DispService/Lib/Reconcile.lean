import Mathlib.Data.List.Perm.Basic

/-! A list of entries that is brought in step with a sample: each element of the sample goes to the
entry with its key, or to a new one. -/
namespace DispService.Lib.Reconcile

variable {α β κ : Type*} [DecidableEq κ] (key : β → κ) (fresh : κ → β)

/-- The first entry with the key is changed, or a new one is put at the end. A change that fails
fails the whole. -/
def findOrAppend (k : κ) (f : β → Option β) : List β → Option (List β)
  | [] => (f (fresh k)).map fun y => [y]
  | x :: xs =>
      if key x = k then (f x).map fun y => y :: xs
      else (findOrAppend k f xs).map fun ys => x :: ys

def absorb (id : α → κ) (f : α → β → Option β) (sample : List α) (xs : List β) :
    Option (List β) :=
  sample.foldlM (fun xs a => findOrAppend key fresh (id a) (f a) xs) xs

/-- The entry that the change for a key starts from. -/
def current (k : κ) (xs : List β) : β := (xs.find? fun x => key x = k).getD (fresh k)

variable {key fresh} {xs ys : List β} {x y : β} {k : κ} {f : β → Option β}

theorem current_of_mem (hkeys : (xs.map key).Nodup) (hx : x ∈ xs) :
    current key fresh (key x) xs = x := by
  unfold current
  induction xs with
  | nil => cases hx
  | cons z xs ih =>
      rw [List.map_cons, List.nodup_cons] at hkeys
      rw [List.find?_cons]
      rcases List.mem_cons.mp hx with rfl | hx
      · simp
      · have hne : key z ≠ key x := fun heq => hkeys.1 (heq ▸ List.mem_map_of_mem hx)
        simp only [hne, decide_false]
        exact ih hkeys.2 hx

theorem current_of_notMem (hk : k ∉ xs.map key) : current key fresh k xs = fresh k := by
  unfold current
  have hnone : xs.find? (fun x => key x = k) = none := by
    rw [List.find?_eq_none]
    intro x hx heq
    exact hk (of_decide_eq_true heq ▸ List.mem_map_of_mem hx)
  rw [hnone]
  rfl

theorem current_key (hfresh : ∀ k, key (fresh k) = k) (k : κ) (xs : List β) :
    key (current key fresh k xs) = k := by
  unfold current
  cases hfind : xs.find? fun x => key x = k with
  | none => exact hfresh k
  | some x => exact of_decide_eq_true (List.find?_some (p := fun x => decide (key x = k)) hfind)

/-- Entries with a key of their own are found wherever they stand. -/
theorem current_congr (hxs : (xs.map key).Nodup) (hys : (ys.map key).Nodup)
    (hsame : ∀ x, key x = k → (x ∈ ys ↔ x ∈ xs)) :
    current key fresh k ys = current key fresh k xs := by
  by_cases hk : k ∈ xs.map key
  · obtain ⟨x, hx, rfl⟩ := List.mem_map.mp hk
    rw [current_of_mem hxs hx, current_of_mem hys ((hsame x rfl).mpr hx)]
  · have hk' : k ∉ ys.map key := by
      rintro hmem
      obtain ⟨x, hx, rfl⟩ := List.mem_map.mp hmem
      exact hk (List.mem_map_of_mem ((hsame x rfl).mp hx))
    rw [current_of_notMem hk, current_of_notMem hk']

/-- One change: the entry of the key is the changed one, the others stay. -/
theorem findOrAppend_perm (hkeys : (xs.map key).Nodup)
    (hf : f (current key fresh k xs) = some y) :
    ∃ ys, findOrAppend key fresh k f xs = some ys ∧
      ys.Perm (y :: xs.filter fun x => key x ≠ k) := by
  induction xs with
  | nil => exact ⟨[y], by simpa [findOrAppend, current] using hf, .refl _⟩
  | cons x xs ih =>
      rw [List.map_cons, List.nodup_cons] at hkeys
      by_cases hx : key x = k
      · have hcurrent : current key fresh k (x :: xs) = x := by
          simp [current, hx]
        have hrest : (x :: xs).filter (fun x => key x ≠ k) = xs := by
          rw [List.filter_cons_of_neg (by simp [hx]), List.filter_eq_self]
          intro z hz
          have hne : key z ≠ k := fun heq =>
            hkeys.1 (hx.trans heq.symm ▸ List.mem_map_of_mem hz)
          simpa using hne
        rw [hcurrent] at hf
        exact ⟨y :: xs, by simp [findOrAppend, hx, hf], by rw [hrest]⟩
      · have hcurrent : current key fresh k (x :: xs) = current key fresh k xs := by
          simp [current, hx]
        obtain ⟨ys, hys, hperm⟩ := ih hkeys.2 (hcurrent ▸ hf)
        refine ⟨x :: ys, by simp [findOrAppend, hx, hys], ?_⟩
        rw [List.filter_cons_of_pos (by simp [hx])]
        exact (hperm.cons x).trans (.swap y x _)

section Absorb

variable {id : α → κ} {F : α → β → Option β} {sample : List α}

/-- A whole sample: its elements have the changed entries, and the entries that it does not have
stay as they are. -/
theorem absorb_perm (hfresh : ∀ k, key (fresh k) = k)
    (hkey : ∀ a x y, F a x = some y → key y = key x) (hkeys : (xs.map key).Nodup)
    (hids : (sample.map id).Nodup) {g : α → β}
    (hF : ∀ a ∈ sample, F a (current key fresh (id a) xs) = some (g a)) :
    ∃ ys, absorb key fresh id F sample xs = some ys ∧
      ys.Perm (xs.filter (fun x => key x ∉ sample.map id) ++ sample.map g) := by
  induction sample generalizing xs with
  | nil => exact ⟨xs, rfl, by simp⟩
  | cons a sample ih =>
      rw [List.map_cons, List.nodup_cons] at hids
      have hga := hF a (List.mem_cons_self ..)
      obtain ⟨zs, hzs, hperm⟩ := findOrAppend_perm hkeys hga
      have hkeyga : key (g a) = id a := (hkey _ _ _ hga).trans (current_key hfresh _ _)
      have hzkeys : (zs.map key).Nodup := by
        refine (hperm.map key).nodup_iff.mpr ?_
        rw [List.map_cons, List.nodup_cons, hkeyga]
        refine ⟨?_, (hkeys.sublist (List.filter_sublist.map key))⟩
        intro hmem
        obtain ⟨x, hx, heq⟩ := List.mem_map.mp hmem
        exact of_decide_eq_true (List.mem_filter.mp hx).2 heq
      have hF' : ∀ b ∈ sample, F b (current key fresh (id b) zs) = some (g b) := by
        intro b hb
        have hne : id b ≠ id a := fun heq => hids.1 (heq ▸ List.mem_map_of_mem hb)
        have hsame : ∀ x, key x = id b → (x ∈ zs ↔ x ∈ xs) := by
          intro x hx
          rw [hperm.mem_iff, List.mem_cons, List.mem_filter]
          constructor
          · rintro (rfl | hmem)
            · exact absurd (hx.symm.trans hkeyga) hne
            · exact hmem.1
          · exact fun hmem => .inr ⟨hmem, decide_eq_true (hx ▸ hne)⟩
        rw [current_congr hkeys hzkeys hsame]
        exact hF b (List.mem_cons_of_mem a hb)
      obtain ⟨ys, hys, hrest⟩ := ih hzkeys hids.2 hF'
      refine ⟨ys, ?_, hrest.trans ?_⟩
      · unfold absorb
        rw [List.foldlM_cons, hzs]
        exact hys
      · have hfilter : (zs.filter fun x => key x ∉ sample.map id).Perm
            (g a :: xs.filter fun x => key x ∉ (a :: sample).map id) := by
          refine (hperm.filter _).trans ?_
          rw [List.filter_cons_of_pos (by simpa [hkeyga] using hids.1), List.filter_filter]
          refine .cons _ (.of_eq (List.filter_congr fun x _ => ?_))
          by_cases hxa : key x = id a <;> by_cases hxs : key x ∈ sample.map id <;>
            simp [hxa, hxs]
        refine (hfilter.append_right _).trans ?_
        rw [List.map_cons]
        exact List.perm_middle.symm

/-- The sample has an element for each entry. -/
theorem absorb_exact (hfresh : ∀ k, key (fresh k) = k)
    (hkey : ∀ a x y, F a x = some y → key y = key x) (hkeys : (xs.map key).Nodup)
    (hids : (sample.map id).Nodup) {g : α → β}
    (hF : ∀ a ∈ sample, F a (current key fresh (id a) xs) = some (g a))
    (hsample : ∀ x ∈ xs, key x ∈ sample.map id) :
    ∃ ys, absorb key fresh id F sample xs = some ys ∧ ys.Perm (sample.map g) := by
  obtain ⟨ys, hys, hperm⟩ := absorb_perm hfresh hkey hkeys hids hF
  have hnone : xs.filter (fun x => key x ∉ sample.map id) = [] := by
    rw [List.filter_eq_nil_iff]
    intro x hx
    simpa using hsample x hx
  rw [hnone, List.nil_append] at hperm
  exact ⟨ys, hys, hperm⟩

end Absorb

end DispService.Lib.Reconcile
