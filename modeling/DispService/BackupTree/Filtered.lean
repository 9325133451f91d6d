import DispService.BackupTree.Task

/-! What the filters pick. A sequence is picked if its head can be read and it holds the item; the
loops pick the first machine that has such a sequence, and with the chain filter all that is listed
behind the sequence as well. -/
namespace DispService.BackupTree

open Lib

namespace Sequence

/-- The head of the sequence can be read. -/
def Opens (q : Sequence) (head : Nat) : Prop :=
  q.getIndex.head? = some head ∧ (q.loadHead head).isSome ∧ (q.getDisks head).isSome

/-- The metadata of an item after the head can be read. -/
def loads (q : Sequence) (n : Nat) : Bool :=
  (Branch.tail q n).isSome

/-- The item is the head, or can be read. -/
def Item (q : Sequence) (head n : Nat) : Prop :=
  n ∈ q.getIndex ∧ (n = head ∨ q.loads n = true)

/-- The items from one on, in the order of the sequence. -/
def from_ (q : Sequence) (n : Nat) : List Nat :=
  q.getIndex.dropWhile fun m => m != n

end Sequence

/-- An item shows the head of a sequence and those of the other numbers that can be read. -/
structure Shows (q : Sequence) (head : Nat) (numbers : List Nat) (i : BackupItem) : Prop where
  sequence : i.sequence = q.uuid
  number : i.number = head
  tail : i.partialBackupItems.map PartialBackupItem.number = (numbers.erase head).filter q.loads

section Branch

variable {q : Sequence} {head n : Nat} {numbers : List Nat}

theorem tail_number {p : PartialBackupItem} (h : Branch.tail q n = some p) : p.number = n := by
  unfold Branch.tail Sequence.getTailItem at h
  cases hload : q.loadTail n with
  | none =>
      rw [hload] at h
      cases h
  | some data =>
      rw [hload] at h
      cases hdisks : q.getDisks n with
      | none => simp [hdisks] at h
      | some d =>
          simp only [hdisks, Option.map_some, Option.some.injEq] at h
          rw [← h]

theorem tail_numbers :
    (numbers.filterMap (Branch.tail q)).map PartialBackupItem.number =
      numbers.filter q.loads := by
  induction numbers with
  | nil => rfl
  | cons n numbers ih =>
      cases htail : Branch.tail q n with
      | none =>
          rw [List.filterMap_cons_none htail, ih, List.filter_cons_of_neg]
          simp [Sequence.loads, htail]
      | some p =>
          rw [List.filterMap_cons_some htail, List.map_cons, ih, tail_number htail,
            List.filter_cons_of_pos]
          simp [Sequence.loads, htail]

theorem filterList_some (opens : q.Opens head) (hne : numbers ≠ []) :
    ∃ i, Branch.filterList q head numbers = some i ∧ Shows q head numbers i := by
  obtain ⟨-, hload, hdisks⟩ := opens
  obtain ⟨b, hb⟩ := Option.isSome_iff_exists.mp hload
  obtain ⟨d, hd⟩ := Option.isSome_iff_exists.mp hdisks
  refine ⟨{ sequence := q.uuid, number := head, dateTime := b.1, data := b.2, disks := d,
            partialBackupItems := (numbers.erase head).filterMap (Branch.tail q) }, ?_,
    rfl, rfl, tail_numbers⟩
  rw [Branch.filterList, if_neg (by simpa using hne), Sequence.getHeadItem, hb, hd]
  rfl

theorem filterList_none (h : q.getIndex.head? = some head) (closed : ¬ q.Opens head) :
    Branch.filterList q head numbers = none := by
  unfold Branch.filterList Sequence.getHeadItem
  split
  · rfl
  · cases hload : q.loadHead head with
    | none => rfl
    | some b =>
        cases hdisks : q.getDisks head with
        | none => rfl
        | some d => exact absurd ⟨h, by simp [hload], by simp [hdisks]⟩ closed

theorem show_some (opens : q.Opens head) :
    ∃ i, Branch.show q = some i ∧ Shows q head q.getIndex i := by
  obtain ⟨rest, hindex⟩ := List.head?_eq_some_iff.mp opens.1
  rw [Branch.show, hindex]
  exact filterList_some opens (List.cons_ne_nil _ _)

theorem show_none (closed : ∀ head, ¬ q.Opens head) : Branch.show q = none := by
  unfold Branch.show
  split
  · rfl
  · next first rest hindex => exact filterList_none (by rw [hindex]; rfl) (closed first)

/-- The sequence of the request, with the item in it. -/
structure Matches (r : Request) (q : Sequence) : Prop where
  uuid : q.uuid = r.s
  item : r.n ∈ q.getIndex
  opens : ∃ head, q.Opens head

variable {r : Request}

theorem mem_from (h : n ∈ q.getIndex) : ∃ rest, q.from_ n = n :: rest := by
  obtain ⟨front, back, hsplit, hfront⟩ := List.eq_append_cons_of_mem h
  refine ⟨back, ?_⟩
  unfold Sequence.from_
  rw [hsplit, List.dropWhile_append_of_pos, List.dropWhile_cons_of_neg]
  · simp
  · intro m hm
    have hne : m ≠ n := fun heq => hfront (heq ▸ hm)
    simpa using hne

theorem filterOne_some (h : Matches r q) (opens : q.Opens head) :
    ∃ i, Branch.filterOne q r.s r.n = some i ∧ Shows q head [r.n] i := by
  obtain ⟨rest, hindex⟩ := List.head?_eq_some_iff.mp opens.1
  have hmem : (head :: rest).contains r.n = true := by
    rw [← hindex]
    simpa using h.item
  rw [Branch.filterOne, if_neg (by simp [h.uuid]), hindex]
  simp only [hmem, Bool.not_true, Bool.false_eq_true, if_false]
  exact filterList_some opens (List.cons_ne_nil _ _)

theorem filterOne_none (h : ¬ Matches r q) : Branch.filterOne q r.s r.n = none := by
  unfold Branch.filterOne
  split
  · rfl
  · next huuid =>
      split
      · rfl
      · next first rest hindex =>
          split
          · rfl
          · next hmem =>
              refine filterList_none (by rw [hindex]; rfl) fun opens => h ⟨?_, ?_, _, opens⟩
              · exact (by simpa using huuid : r.s = q.uuid).symm
              · rw [hindex]
                rw [Bool.not_eq_true, Bool.not_eq_false'] at hmem
                exact List.contains_iff_mem.mp hmem

theorem filterChain_some (h : Matches r q) (opens : q.Opens head) :
    ∃ i, Branch.filterChain q r.s r.n = some i ∧ Shows q head (q.from_ r.n) i := by
  obtain ⟨rest, hindex⟩ := List.head?_eq_some_iff.mp opens.1
  obtain ⟨tail, htail⟩ := mem_from h.item
  have hdrop := htail
  unfold Sequence.from_ at hdrop
  rw [hindex] at hdrop
  rw [Branch.filterChain, if_neg (by simp [h.uuid]), hindex]
  simp only [hdrop]
  rw [htail]
  exact filterList_some opens (List.cons_ne_nil _ _)

theorem filterChain_none (h : ¬ Matches r q) : Branch.filterChain q r.s r.n = none := by
  unfold Branch.filterChain
  split
  · rfl
  · next huuid =>
      split
      · rfl
      · next first rest hindex =>
          split
          · rfl
          · next p x hdrop =>
              refine filterList_none (by rw [hindex]; rfl) fun opens => h ⟨?_, ?_, _, opens⟩
              · exact (by simpa using huuid : r.s = q.uuid).symm
              · rw [hindex]
                have hp := List.head?_dropWhile_not (fun n => n != r.n) (first :: rest)
                rw [hdrop] at hp
                have hp : p = r.n := by simpa using hp
                have hmem := (List.dropWhile_sublist fun n => n != r.n).subset
                  (hdrop ▸ List.mem_cons_self .. : p ∈ _)
                rwa [hp] at hmem

end Branch

section Machine

variable {isUuid : String → Bool} {r : Request} {dates : DateSort} {isConnected : Nat → Bool}
  {qs : List Sequence} {q : Sequence} {items : List BackupItem} {k : Nat}

/-- The sequences that the user can read and that are not locked. -/
def accessible (isUuid : String → Bool) (qs : List Sequence) : List Sequence :=
  (getIndexForRead isUuid qs).filter fun q => !q.locked

/-- The items that the loop over the sequences adds where the connection holds. -/
def collect (r : Request) : List Sequence → List BackupItem → List BackupItem
  | [], items => items
  | q :: qs, items =>
      match branch r items q with
      | none => collect r qs items
      | some i => if r.filterSingleBackup then items ++ [i] else collect r qs (items ++ [i])

theorem showSequences_some {items' : List BackupItem} {k' : Nat}
    (h : showSequences r isConnected qs k items = some (items', k')) :
    items' = collect r (qs.filter fun q => !q.locked) items := by
  induction qs generalizing k items with
  | nil =>
      cases h
      rfl
  | cons q qs ih =>
      unfold showSequences at h
      split at h
      · cases h
      · split at h
        · next hlocked =>
            rw [List.filter_cons_of_neg (by simp [hlocked])]
            exact ih h
        · next hlocked =>
            rw [List.filter_cons_of_pos (by simpa using hlocked), collect]
            cases hbranch : branch r items q with
            | none =>
                rw [hbranch] at h
                exact ih h
            | some i =>
                simp only [hbranch] at h ⊢
                split at h
                · next hsingle =>
                    cases h
                    rw [if_pos hsingle]
                · next hsingle =>
                    rw [if_neg hsingle]
                    exact ih h

theorem showSequences_connected : ∃ k', showSequences r (fun _ => true) qs k items =
    some (collect r (qs.filter fun q => !q.locked) items, k') := by
  suffices h : ∃ out, showSequences r (fun _ => true) qs k items = some out by
    obtain ⟨⟨items', k'⟩, h⟩ := h
    exact ⟨k', by rw [h, showSequences_some h]⟩
  induction qs generalizing k items with
  | nil => exact ⟨_, rfl⟩
  | cons q qs ih =>
      rw [showSequences]
      simp only [Bool.not_true, Bool.false_eq_true, if_false]
      split
      · exact ih
      · cases branch r items q with
        | none => exact ih
        | some i =>
            simp only
            split
            · exact ⟨_, rfl⟩
            · exact ih

/-- Without the sequence of the request, a filter picks nothing. -/
theorem collect_none (filtered : r.backupFilterEnabled = true)
    (h : ∀ q ∈ qs, ¬ Matches r q) : collect r qs [] = [] := by
  induction qs with
  | nil => rfl
  | cons q qs ih =>
      have hnone : branch r [] q = none := by
        unfold branch
        split
        · exact filterOne_none (h q (List.mem_cons_self ..))
        · next hsingle =>
            have hchain : r.filterBackupChain = true := by
              simpa [Request.backupFilterEnabled, hsingle] using filtered
            rw [if_pos (by simpa using hchain)]
            exact filterChain_none (h q (List.mem_cons_self ..))
      rw [collect, hnone]
      exact ih fun q hq => h q (List.mem_cons_of_mem _ hq)

theorem collect_append {front : List Sequence} (filtered : r.backupFilterEnabled = true)
    (h : ∀ q ∈ front, ¬ Matches r q) : collect r (front ++ qs) [] = collect r qs [] := by
  induction front with
  | nil => rfl
  | cons q front ih =>
      have hnone := @collect_none _ [q] filtered fun q' hq' =>
        List.mem_singleton.mp hq' ▸ h q (List.mem_cons_self ..)
      rw [collect] at hnone
      rw [List.cons_append, collect]
      cases hbranch : branch r [] q with
      | none => exact ih fun q hq => h q (List.mem_cons_of_mem _ hq)
      | some i =>
          rw [hbranch] at hnone
          simp [collect] at hnone

/-- The single-backup filter picks the one item. -/
theorem collect_single (single : r.filterSingleBackup = true) {front back : List Sequence}
    (h : ∀ q ∈ front, ¬ Matches r q) {i : BackupItem}
    (hi : Branch.filterOne q r.s r.n = some i) :
    collect r (front ++ q :: back) [] = [i] := by
  rw [collect_append (by simp [Request.backupFilterEnabled, single]) h, collect]
  simp [branch, single, hi]

/-- Behind the first item, every sequence is shown as a whole. -/
theorem collect_show (single : r.filterSingleBackup = false) (hne : items ≠ []) :
    collect r qs items = items ++ qs.filterMap Branch.show := by
  induction qs generalizing items with
  | nil => rw [collect, List.filterMap_nil, List.append_nil]
  | cons q qs ih =>
      have hbranch : branch r items q = Branch.show q := by
        simp [branch, single, hne]
      rw [collect, hbranch]
      cases hshow : Branch.show q with
      | none => rw [ih hne, List.filterMap_cons_none hshow]
      | some i =>
          simp only [single, Bool.false_eq_true, if_false]
          rw [ih (by simp), List.filterMap_cons_some hshow, List.append_assoc, List.cons_append,
            List.nil_append]

theorem collect_chain (single : r.filterSingleBackup = false) (chain : r.filterBackupChain = true)
    {front back : List Sequence} (h : ∀ q ∈ front, ¬ Matches r q) {i : BackupItem}
    (hi : Branch.filterChain q r.s r.n = some i) :
    collect r (front ++ q :: back) [] = i :: back.filterMap Branch.show := by
  have hbranch : branch r [] q = some i := by simp [branch, single, chain, hi]
  rw [collect_append (by simp [Request.backupFilterEnabled, chain]) h, collect, hbranch]
  simp only [single, Bool.false_eq_true, if_false]
  rw [collect_show single (by simp)]
  rfl

end Machine

end DispService.BackupTree
