import Mathlib.Data.Finmap

/-! Tables of tables. Two tables without empty inner tables are equal when they
have the same entries. -/
namespace DispService.Lib

abbrev Nested (κ ι β : Type*) := Finmap fun _ : κ => Finmap fun _ : ι => β

namespace Nested

variable {κ ι β : Type*} [DecidableEq κ] [DecidableEq ι]

def entry (t : Nested κ ι β) (k : κ) (i : ι) : Option β :=
  (t.lookup k).bind fun inner => inner.lookup i

def NoEmpty (t : Nested κ ι β) : Prop :=
  ∀ k inner, t.lookup k = some inner → inner ≠ ∅

@[simp] theorem entry_empty (k : κ) (i : ι) : entry (∅ : Nested κ ι β) k i = none := by
  simp [entry]

omit [DecidableEq ι] in
theorem noEmpty_empty : NoEmpty (∅ : Nested κ ι β) := by
  intro k inner h
  simp at h

theorem entry_of_lookup {t : Nested κ ι β} {k : κ} {inner : Finmap fun _ : ι => β}
    (h : t.lookup k = some inner) (i : ι) : entry t k i = inner.lookup i := by
  rw [entry, h, Option.bind_some]

theorem entry_of_lookup_none {t : Nested κ ι β} {k : κ} (h : t.lookup k = none) (i : ι) :
    entry t k i = none := by
  rw [entry, h, Option.bind_none]

theorem entry_insert (t : Nested κ ι β) (k k' : κ) (inner : Finmap fun _ : ι => β) (i : ι) :
    entry (t.insert k inner) k' i = if k' = k then inner.lookup i else entry t k' i := by
  by_cases hk : k' = k
  · rw [if_pos hk, hk]
    exact entry_of_lookup (Finmap.lookup_insert t) i
  · rw [if_neg hk, entry, entry, Finmap.lookup_insert_of_ne t hk]

/-- The entries decide which keys a table without empty inner tables has. -/
theorem NoEmpty.lookup_none_of {t t' : Nested κ ι β} (h : NoEmpty t)
    (same : ∀ k i, entry t k i = entry t' k i) {k : κ} (hk : t'.lookup k = none) :
    t.lookup k = none := by
  cases hl : t.lookup k with
  | none => rfl
  | some inner =>
    refine absurd ?_ (h k inner hl)
    apply Finmap.ext_lookup
    intro i
    rw [← entry_of_lookup hl, same, entry_of_lookup_none hk, Finmap.lookup_empty]

theorem NoEmpty.ext {t t' : Nested κ ι β} (h : NoEmpty t) (h' : NoEmpty t')
    (same : ∀ k i, entry t k i = entry t' k i) : t = t' := by
  apply Finmap.ext_lookup
  intro k
  cases hl : t'.lookup k with
  | none => exact h.lookup_none_of same hl
  | some inner' =>
    cases hl' : t.lookup k with
    | none =>
      rw [h'.lookup_none_of (fun k i => (same k i).symm) hl'] at hl
      cases hl
    | some inner =>
      have hinner : inner = inner' := by
        apply Finmap.ext_lookup
        intro i
        rw [← entry_of_lookup hl', same, entry_of_lookup hl]
      rw [hinner]

section Drop

variable [DecidableEq β]

/-- Erase the key whose inner table has become empty. -/
def dropEmpty (t : Nested κ ι β) (k : κ) : Nested κ ι β :=
  if t.lookup k = some ∅ then t.erase k else t

@[simp] theorem entry_dropEmpty (t : Nested κ ι β) (k k' : κ) (i : ι) :
    entry (dropEmpty t k) k' i = entry t k' i := by
  unfold dropEmpty
  split
  · rename_i h
    by_cases hk : k' = k
    · rw [hk, entry_of_lookup h, entry_of_lookup_none (Finmap.lookup_erase k t),
        Finmap.lookup_empty]
    · rw [entry, entry, Finmap.lookup_erase_ne hk]
  · rfl

theorem NoEmpty.dropEmpty_insert {t : Nested κ ι β} (h : NoEmpty t) (k : κ)
    (inner : Finmap fun _ : ι => β) : NoEmpty (dropEmpty (t.insert k inner) k) := by
  intro k' inner' hl
  unfold dropEmpty at hl
  by_cases hk : k' = k
  · rw [hk] at hl
    split at hl
    · rw [Finmap.lookup_erase] at hl
      cases hl
    · rename_i hne
      intro hempty
      exact hne (hempty ▸ hl)
  · split at hl
    · rw [Finmap.lookup_erase_ne hk, Finmap.lookup_insert_of_ne t hk] at hl
      exact h k' inner' hl
    · rw [Finmap.lookup_insert_of_ne t hk] at hl
      exact h k' inner' hl

end Drop

end Nested

section SetAll

variable {κ ι γ : Type*} [DecidableEq κ] [DecidableEq ι]

/-- One value for all listed entries of one key. -/
def setAll (e : κ → ι → γ) (k : κ) (keys : List ι) (o : γ) : κ → ι → γ :=
  fun k' i => if k' = k ∧ i ∈ keys then o else e k' i

theorem setAll_of_mem (e : κ → ι → γ) {k : κ} {keys : List ι} (o : γ) {i : ι} (hi : i ∈ keys) :
    setAll e k keys o k i = o :=
  if_pos ⟨rfl, hi⟩

theorem setAll_of_not {k k' : κ} {keys : List ι} {i : ι} (h : k' = k → i ∉ keys) (e : κ → ι → γ)
    (o : γ) : setAll e k keys o k' i = e k' i := by
  apply if_neg
  rintro ⟨hk, hi⟩
  exact h hk hi

theorem setAll_comm {k k' : κ} {keys keys' : List ι} (h : k' = k → ∀ i ∈ keys', i ∉ keys)
    (e : κ → ι → γ) (o o' : γ) :
    setAll (setAll e k keys o) k' keys' o' = setAll (setAll e k' keys' o') k keys o := by
  funext j i
  by_cases hnew : j = k' ∧ i ∈ keys'
  · obtain ⟨rfl, hi⟩ := hnew
    rw [setAll_of_mem _ _ hi, setAll_of_not (fun hk => h hk i hi), setAll_of_mem _ _ hi]
  · rw [setAll_of_not (fun hj hi => hnew ⟨hj, hi⟩)]
    unfold setAll
    rw [if_neg hnew]

/-- Setting entries back to what they were undoes the setting. -/
theorem setAll_undo {e : κ → ι → γ} {k : κ} {keys : List ι} {o : γ} (h : ∀ i ∈ keys, e k i = o)
    (o' : γ) : setAll (setAll e k keys o') k keys o = e := by
  funext j i
  by_cases hset : j = k ∧ i ∈ keys
  · obtain ⟨rfl, hi⟩ := hset
    rw [setAll_of_mem _ _ hi, h i hi]
  · rw [setAll_of_not (fun hj hi => hset ⟨hj, hi⟩), setAll_of_not (fun hj hi => hset ⟨hj, hi⟩)]

end SetAll

section Fold

variable {ι β : Type*} [DecidableEq ι]

/-- Give all listed keys the same value. -/
theorem lookup_insertAll (keys : List ι) (b : β) (inner : Finmap fun _ : ι => β) (i : ι) :
    (keys.foldl (fun t key => t.insert key b) inner).lookup i =
      if i ∈ keys then some b else inner.lookup i := by
  induction keys generalizing inner with
  | nil => simp
  | cons key keys ih =>
    rw [List.foldl_cons, ih]
    by_cases hi : i ∈ keys
    · simp [hi]
    · by_cases hkey : i = key
      · subst hkey
        simp [hi]
      · simp [hi, hkey, Finmap.lookup_insert_of_ne inner hkey]

theorem lookup_eraseAll (keys : List ι) (inner : Finmap fun _ : ι => β) (i : ι) :
    (keys.foldl (fun t key => t.erase key) inner).lookup i =
      if i ∈ keys then none else inner.lookup i := by
  induction keys generalizing inner with
  | nil => simp
  | cons key keys ih =>
    rw [List.foldl_cons, ih]
    by_cases hi : i ∈ keys
    · simp [hi]
    · by_cases hkey : i = key
      · subst hkey
        simp [hi]
      · simp [hi, hkey, Finmap.lookup_erase_ne hkey]

end Fold

end DispService.Lib
