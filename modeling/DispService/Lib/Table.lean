import Mathlib.Data.Finmap
import Mathlib.Data.List.AList

/-! Tables with string keys. -/
namespace DispService.Lib

abbrev Table (α : Type*) := Finmap fun _ : String => α

namespace Table

variable {α : Type*}

theorem lookup_insert (t : Table α) (k k' : String) (v : α) :
    (t.insert k v).lookup k' = if k' = k then some v else t.lookup k' := by
  by_cases hk : k' = k
  · rw [if_pos hk, hk]
    exact Finmap.lookup_insert t
  · rw [if_neg hk]
    exact Finmap.lookup_insert_of_ne t hk

theorem lookup_erase (t : Table α) (k k' : String) :
    (t.erase k).lookup k' = if k' = k then none else t.lookup k' := by
  by_cases hk : k' = k
  · rw [if_pos hk, hk]
    exact Finmap.lookup_erase k t
  · rw [if_neg hk]
    exact Finmap.lookup_erase_ne hk

theorem mem_iff (t : Table α) (k : String) : k ∈ t ↔ ∃ v, t.lookup k = some v := by
  rw [← Finmap.lookup_isSome, Option.isSome_iff_exists]

theorem notMem_iff (t : Table α) (k : String) : k ∉ t ↔ t.lookup k = none :=
  Finmap.lookup_eq_none.symm

theorem mem_insert_iff (t : Table α) (k k' : String) (v : α) :
    k' ∈ t.insert k v ↔ k' = k ∨ k' ∈ t :=
  Finmap.mem_insert

theorem mem_erase_iff (t : Table α) (k k' : String) : k' ∈ t.erase k ↔ k' ≠ k ∧ k' ∈ t :=
  Finmap.mem_erase

@[simp] theorem notMem_empty (k : String) : k ∉ (∅ : Table α) :=
  Finmap.notMem_empty

/-- Every entry satisfies `p`. -/
def All (p : String → α → Prop) (t : Table α) : Prop :=
  ∀ k v, t.lookup k = some v → p k v

variable {p q : String → α → Prop} {t : Table α}

theorem All.empty : All p (∅ : Table α) := by
  intro k v h
  simp at h

theorem All.mono (all : All p t) (h : ∀ k v, p k v → q k v) : All q t := by
  intro k v hlookup
  exact h k v (all k v hlookup)

theorem All.insert (all : All p t) {k : String} {v : α} (h : p k v) : All p (t.insert k v) := by
  intro k' v' hlookup
  rw [lookup_insert] at hlookup
  split at hlookup
  · rename_i hk
    cases hlookup
    rw [hk]
    exact h
  · exact all k' v' hlookup

theorem All.erase (all : All p t) (k : String) : All p (t.erase k) := by
  intro k' v' hlookup
  rw [lookup_erase] at hlookup
  split at hlookup
  · cases hlookup
  · exact all k' v' hlookup

end Table

end DispService.Lib

/-! Hashes with unique keys. An `AList` plays the `QHash`: its entry list is
the order in which an iterator meets the keys, its lookups are the content. -/
namespace DispService.Lib.Hash

variable {κ ν : Type*}

/-- One pass of an erasing iterator: each value is rewritten in place, and the
entry is dropped when the rewriting answers `none`. -/
def walkEntries (rewrite : κ → ν → Option ν) :
    List (Sigma fun _ : κ => ν) → List (Sigma fun _ : κ => ν)
  | [] => []
  | ⟨key, value⟩ :: rest =>
    match rewrite key value with
    | some value => ⟨key, value⟩ :: walkEntries rewrite rest
    | none => walkEntries rewrite rest

theorem walkEntries_keys_sublist (rewrite : κ → ν → Option ν)
    (entries : List (Sigma fun _ : κ => ν)) :
    (walkEntries rewrite entries).keys.Sublist entries.keys := by
  induction entries with
  | nil => exact .slnil
  | cons entry rest ih =>
    obtain ⟨key, value⟩ := entry
    rw [walkEntries]
    split
    · exact ih.cons_cons key
    · exact ih.cons key

def walk (rewrite : κ → ν → Option ν) (hash : AList fun _ : κ => ν) : AList fun _ : κ => ν :=
  ⟨walkEntries rewrite hash.entries,
    List.Sublist.nodup (walkEntries_keys_sublist rewrite hash.entries) hash.nodupKeys⟩

variable [DecidableEq κ]

private theorem dlookup_walkEntries (rewrite : κ → ν → Option ν) (key : κ)
    {entries : List (Sigma fun _ : κ => ν)} (nodup : entries.NodupKeys) :
    (walkEntries rewrite entries).dlookup key = (entries.dlookup key).bind (rewrite key) := by
  induction entries with
  | nil => rfl
  | cons entry rest ih =>
    obtain ⟨head, value⟩ := entry
    obtain ⟨hhead, hrest⟩ := List.nodupKeys_cons.mp nodup
    by_cases hkey : key = head
    · subst hkey
      have habsent : (walkEntries rewrite rest).dlookup key = none := by
        rw [List.dlookup_eq_none]
        exact fun h => hhead ((walkEntries_keys_sublist rewrite rest).subset h)
      rw [walkEntries, List.dlookup_cons_eq]
      cases hvalue : rewrite key value with
      | none => simpa [hvalue] using habsent
      | some value' => simp [hvalue]
    · rw [walkEntries, List.dlookup_cons_ne rest ⟨head, value⟩ hkey]
      cases hvalue : rewrite head value with
      | none => exact ih hrest
      | some value' =>
        rw [← ih hrest]
        exact List.dlookup_cons_ne _ (⟨head, value'⟩ : Sigma fun _ : κ => ν) hkey

/-- The walk visits every entry: no neighbour of a dropped one is skipped. -/
@[simp] theorem lookup_walk (rewrite : κ → ν → Option ν) (hash : AList fun _ : κ => ν) (key : κ) :
    (walk rewrite hash).lookup key = (hash.lookup key).bind (rewrite key) :=
  dlookup_walkEntries rewrite key hash.nodupKeys

end DispService.Lib.Hash
