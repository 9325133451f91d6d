import Mathlib.Order.Bounds.Basic
import DispService.PrivateNetwork.Configured
import DispService.Shaping.Text

/-! A new id for a private network, from the files of the kernel as they are read: the smallest
one that is free. -/
namespace DispService.PrivateNetwork

open DispService.Shaping (Text number toUInt toUInt_number not_mem_number number_ne_nil)

/-- `split(": ")`; `acc` is the current part so far, backwards. -/
def splitFrom : Text → Text → List Text
  | ':' :: ' ' :: s, acc => acc.reverse :: splitFrom s []
  | a :: s, acc => splitFrom s (a :: acc)
  | [], acc => [acc.reverse]

/-- `tmp.at(0)` after `split(": ", QString::SkipEmptyParts)`. -/
def firstPart (line : Text) : Option Text :=
  ((splitFrom line []).filter fun part => !part.isEmpty).head?

/-- The file is what `readLine` returns until its end; one that cannot be opened is none. A line
without any part gives none. -/
def readIdsFromFile (file : Option (List Text)) (ids : Finset Nat) : Option (Finset Nat) :=
  (file.getD []).foldlM
    (fun ids line => (firstPart line).map fun part => insert (toUInt part).toNat ids) ids

variable (h : Host)

def knownIds (nets : List Network) (file file6 : Option (List Text)) : Option (Finset Nat) := do
  let ids ← readIdsFromFile file ∅
  let ids ← readIdsFromFile file6 ids
  pure (ids ∪ ((nets.map (·.networkId)).filter (· ≠ h.generateId)).toFinset)

/-- "search for first available ID" -/
def firstAvailable (known : Finset Nat) : Option Nat :=
  (List.range' 1 (known.card + 1)).find? (· ∉ known)

/-- `generate_new_id`, with the files read. -/
def generateNewIdFrom (nets : List Network) (file file6 : Option (List Text)) : Option Nat :=
  (knownIds h nets file file6).map fun known => (firstAvailable known).getD h.generateId

/-- A network of the kernel's file: its id, and the text after it. -/
structure Entry where
  id : UInt32
  rest : Text

def Entry.line (e : Entry) : Text := number e.id.toNat ++ ':' :: ' ' :: e.rest

/-- A file of the kernel, if it is there. -/
abbrev Table := Option (List Entry)

def Table.lines (t : Table) : Option (List Text) := t.map (·.map Entry.line)

def Table.ids (t : Table) : Finset Nat := ((t.getD []).map (·.id.toNat)).toFinset

section Files

variable {ids : Finset Nat} {t t6 : Table} {nets : List Network}

theorem splitFrom_colon {word acc rest : Text} (hword : ':' ∉ word) :
    splitFrom (word ++ ':' :: ' ' :: rest) acc = (acc.reverse ++ word) :: splitFrom rest [] := by
  induction word generalizing acc with
  | nil => simp [splitFrom]
  | cons a word ih =>
      have ha : a ≠ ':' := fun heq => hword (by simp [heq])
      have hrest : ':' ∉ word := fun hmem => hword (List.mem_cons_of_mem a hmem)
      rw [List.cons_append, splitFrom, ih hrest]
      · simp
      · intro s heq
        exact fun _ => ha heq

theorem firstPart_line (e : Entry) : firstPart e.line = some (number e.id.toNat) := by
  have hcolon : ':' ∉ number e.id.toNat := not_mem_number (by decide)
  have hne : (number e.id.toNat).isEmpty = false := by simpa using number_ne_nil e.id.toNat
  unfold firstPart Entry.line
  rw [splitFrom_colon hcolon, List.reverse_nil, List.nil_append, List.filter_cons, hne]
  rfl

/-- The ids of a file of the kernel are read as they are. -/
theorem readIdsFromFile_lines : readIdsFromFile t.lines ids = some (ids ∪ t.ids) := by
  have hlist : ∀ (es : List Entry) (ids : Finset Nat),
      (es.map Entry.line).foldlM
        (fun ids line => (firstPart line).map fun part => insert (toUInt part).toNat ids) ids =
      some (ids ∪ (es.map (·.id.toNat)).toFinset) := by
    intro es
    induction es with
    | nil =>
        intro ids
        simp
    | cons e es ih =>
        intro ids
        rw [List.map_cons, List.foldlM_cons, firstPart_line, Option.map_some, toUInt_number]
        refine (ih _).trans ?_
        rw [List.map_cons, List.toFinset_cons, Finset.union_insert, Finset.insert_union]
  unfold readIdsFromFile Table.lines Table.ids
  cases t with
  | none => simp
  | some es => exact hlist es ids

theorem knownIds_lines : knownIds h nets t.lines t6.lines =
    some (t.ids ∪ t6.ids ∪ ((nets.map (·.networkId)).filter (· ≠ h.generateId)).toFinset) := by
  unfold knownIds
  rw [readIdsFromFile_lines, Finset.empty_union]
  refine (congrArg (· >>= _) readIdsFromFile_lines).trans ?_
  rfl

end Files

section Free

variable {known : Finset Nat}

/-- Among one more positive numbers than there are known ids, one is not known. -/
theorem exists_free (known : Finset Nat) : ∃ i ∈ List.range' 1 (known.card + 1), i ∉ known := by
  by_contra hno
  have hsub : (List.range' 1 (known.card + 1)).toFinset ⊆ known := fun i hi =>
    not_not.mp fun hi' => hno ⟨i, List.mem_toFinset.mp hi, hi'⟩
  have hcard := Finset.card_le_card hsub
  rw [List.toFinset_card_of_nodup List.nodup_range', List.length_range'] at hcard
  omega

/-- The search ends with the smallest positive number that is not known. -/
theorem firstAvailable_isLeast (known : Finset Nat) :
    ∃ i, firstAvailable known = some i ∧ IsLeast {i | 0 < i ∧ i ∉ known} i ∧
      i ≤ known.card + 1 := by
  obtain ⟨j, hj, hfree⟩ := exists_free known
  unfold firstAvailable
  cases hfind : (List.range' 1 (known.card + 1)).find? (· ∉ known) with
  | none => exact absurd (decide_eq_true hfree) (List.find?_eq_none.mp hfind j hj)
  | some i =>
      obtain ⟨hnew, hmem, hbefore⟩ := List.find?_range'_eq_some.mp hfind
      rw [List.mem_range'_1] at hmem
      refine ⟨i, rfl, ⟨⟨by omega, of_decide_eq_true hnew⟩, ?_⟩, by omega⟩
      rintro k ⟨hpos, hk⟩
      by_contra hlt
      have hknown := hbefore k hpos (by omega)
      simp [hk] at hknown

end Free

variable {h}

/-- The search of files that list the ids of the kernel is the search of the kernel. -/
theorem generateNewIdFrom_eq {kernel : Finset Fact} {t t6 : Table} {nets : List Network}
    (files : ∀ n, (n ∈ t.ids ↔ Fact.id .v4 n ∈ kernel) ∧ (n ∈ t6.ids ↔ Fact.id .v6 n ∈ kernel)) :
    generateNewIdFrom h nets t.lines t6.lines = some (generateNewId h nets kernel) := by
  have hids : readIds kernel = t.ids ∪ t6.ids := by
    ext n
    rw [mem_readIds, Finset.mem_union, (files n).1, (files n).2]
    constructor
    · rintro ⟨f, hf⟩
      cases f with
      | v4 => exact .inl hf
      | v6 => exact .inr hf
    · rintro (hf | hf)
      · exact ⟨.v4, hf⟩
      · exact ⟨.v6, hf⟩
  unfold generateNewIdFrom generateNewId
  rw [knownIds_lines, hids]
  rfl

variable (h)

/-- The new id is the smallest positive one that neither file and no configured network has; a
network with `PRL_PRIVNET_GENERATE_ID` has none yet. It is too small for the 32-bit counter to
wrap. -/
theorem generateNewId_isLeast (nets : List Network) (t t6 : Table) :
    ∃ i known, knownIds h nets t.lines t6.lines = some known ∧ firstAvailable known = some i ∧
      generateNewIdFrom h nets t.lines t6.lines = some i ∧
      IsLeast {i | 0 < i ∧ i ∉ t.ids ∧ i ∉ t6.ids ∧
        ∀ net ∈ nets, net.networkId ≠ h.generateId → net.networkId ≠ i} i ∧
      i ≤ known.card + 1 := by
  obtain ⟨i, hi, hleast, hsmall⟩ := firstAvailable_isLeast
    (t.ids ∪ t6.ids ∪ ((nets.map (·.networkId)).filter (· ≠ h.generateId)).toFinset)
  refine ⟨i, _, knownIds_lines h, hi, ?_, ?_, hsmall⟩
  · unfold generateNewIdFrom
    rw [knownIds_lines, Option.map_some, hi]
    rfl
  · have hset : {i | 0 < i ∧ i ∉ t.ids ∧ i ∉ t6.ids ∧
        ∀ net ∈ nets, net.networkId ≠ h.generateId → net.networkId ≠ i} =
        {i | 0 < i ∧ i ∉ t.ids ∪ t6.ids ∪
          ((nets.map (·.networkId)).filter (· ≠ h.generateId)).toFinset} := by
      ext n
      refine and_congr_right fun _ => ?_
      rw [Finset.mem_union, Finset.mem_union, not_or, not_or, and_assoc]
      refine and_congr_right fun _ => and_congr_right fun _ => ?_
      rw [List.mem_toFinset, List.mem_filter, List.mem_map]
      constructor
      · rintro hnets ⟨⟨net, hnet, rfl⟩, hid⟩
        exact hnets net hnet (of_decide_eq_true hid) rfl
      · rintro hno net hnet hid rfl
        exact hno ⟨⟨net, hnet, rfl⟩, decide_eq_true hid⟩
    rw [hset]
    exact hleast

end DispService.PrivateNetwork
