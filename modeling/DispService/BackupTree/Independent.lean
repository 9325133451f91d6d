import DispService.BackupTree.Filtered

/-! When the answer to a filtered request does not depend on the order in which the file system
lists the catalogue: no second machine and, with the chain filter, no second sequence of the
machine stands at a place that the order by name leaves open. -/
namespace DispService.BackupTree

open Lib

section Reply

variable {isUuid : String → Bool} {r : Request} {dates : DateSort} {isConnected : Nat → Bool}

/-- What is shown of a machine where the connection holds. -/
def shown (isUuid : String → Bool) (r : Request) (dates : DateSort)
    (sequences : Ve → List Sequence) (e : Ve) : Option VmItem :=
  if skipped isUuid r e then none
  else
    match e.loadItem with
    | none => none
    | some v =>
        if inappropriate r v then none
        else
          let items := collect r (accessible isUuid (sequences e)) []
          if items.isEmpty then none else some ⟨e.name, v, dates.sort items⟩

/-- With a filter, the tree is the first machine of which anything is shown. -/
theorem showVes_some (filtered : r.backupFilterEnabled = true) {sequences : Ve → List Sequence}
    {es : List Ve} {k : Nat} {bTree : List VmItem}
    (h : showVes isUuid r dates isConnected sequences es k [] = some bTree) :
    bTree = (es.findSome? (shown isUuid r dates sequences)).toList := by
  induction es generalizing k with
  | nil =>
      cases h
      rfl
  | cons e es ih =>
      unfold showVes at h
      rw [List.findSome?_cons, shown]
      split at h
      · cases h
      · split at h
        · next hskip =>
            rw [if_pos hskip]
            exact ih h
        · next hskip =>
            rw [if_neg hskip]
            cases hload : e.loadItem with
            | none =>
                rw [hload] at h
                exact ih h
            | some v =>
                simp only [hload] at h ⊢
                split at h
                · next hkind =>
                    rw [if_pos hkind]
                    exact ih h
                · next hkind =>
                    rw [if_neg hkind]
                    split at h
                    · cases h
                    · next items k' hitems =>
                        have hitems : items = collect r (accessible isUuid (sequences e)) [] :=
                          showSequences_some hitems
                        rw [← hitems]
                        split at h
                        · next hempty =>
                            rw [if_pos hempty]
                            exact ih h
                        · next hempty =>
                            rw [if_neg hempty]
                            cases h
                            rfl

theorem showVes_connected {sequences : Ve → List Sequence} {es : List Ve} {k : Nat}
    {bTree : List VmItem} :
    ∃ tree, showVes isUuid r dates (fun _ => true) sequences es k bTree = some tree := by
  induction es generalizing k bTree with
  | nil => exact ⟨_, rfl⟩
  | cons e es ih =>
      rw [showVes]
      simp only [Bool.not_true, Bool.false_eq_true, if_false]
      split
      · exact ih
      · split
        · exact ih
        · split
          · exact ih
          · obtain ⟨k', hitems⟩ : ∃ k', showSequences r (fun _ => true)
                (getIndexForRead isUuid (sequences e)) (k + 1) [] = some (_, k') :=
              showSequences_connected
            rw [hitems]
            simp only
            split
            · exact ih
            · split
              · exact ⟨_, rfl⟩
              · exact ih

end Reply

/-- An item of a reply: its machine, its sequence and its number. -/
abbrev Id := String × String × Nat

def BackupItem.ids (name : String) (i : BackupItem) : List Id :=
  (name, i.sequence, i.number) :: i.partialBackupItems.map fun p => (name, i.sequence, p.number)

/-- The reply contains an item. -/
def Contains (bTree : List VmItem) (x : Id) : Prop :=
  ∃ v ∈ bTree, ∃ i ∈ v.backupItems, x ∈ i.ids v.name

/-- The reply contains it as an item after the head of its sequence. -/
def Increment (bTree : List VmItem) (x : Id) : Prop :=
  ∃ v ∈ bTree, ∃ i ∈ v.backupItems, x ∈ i.partialBackupItems.map fun p => (v.name, i.sequence, p.number)

/-- The machine can be shown to the request. -/
structure Eligible (isUuid : String → Bool) (r : Request) (e : Ve) : Prop where
  asked : skipped isUuid r e = false
  loads : ∃ v, e.loadItem = some v ∧ inappropriate r v = false

/-- The machine holds the item of the request. -/
def Found (isUuid : String → Bool) (r : Request) (e : Ve) : Prop :=
  Eligible isUuid r e ∧ ∃ q ∈ accessible isUuid e.sequences, Matches r q

section Found

variable {isUuid : String → Bool} {r : Request} {dates : DateSort}
  {sequences : Ve → List Sequence} {e : Ve} {qs qs' : List Sequence}

theorem mem_accessible {q : Sequence} : q ∈ accessible isUuid qs ↔
    q ∈ qs ∧ isUuid q.uuid = true ∧ q.readable = true ∧ q.locked = false := by
  unfold accessible getIndexForRead
  simp only [List.mem_filter, Bool.and_eq_true, Bool.not_eq_true']
  tauto

/-- Something is picked just where the item of the request is held. -/
theorem collect_ne_nil (filtered : r.backupFilterEnabled = true) :
    collect r qs [] ≠ [] ↔ ∃ q ∈ qs, Matches r q := by
  constructor
  · intro h
    by_contra hnone
    exact h (collect_none filtered fun q hq hmatches => hnone ⟨q, hq, hmatches⟩)
  · intro h
    obtain ⟨front, q, back, rfl, hfront, hmatches⟩ := exists_first h
    obtain ⟨head, opens⟩ := hmatches.opens
    cases hsingle : r.filterSingleBackup with
    | true =>
        obtain ⟨i, hi, -⟩ := filterOne_some hmatches opens
        rw [collect_single hsingle hfront hi]
        exact List.cons_ne_nil _ _
    | false =>
        have hchain : r.filterBackupChain = true := by
          simpa [Request.backupFilterEnabled, hsingle] using filtered
        obtain ⟨i, hi, -⟩ := filterChain_some hmatches opens
        rw [collect_chain hsingle hchain hfront hi]
        exact List.cons_ne_nil _ _

theorem shown_isSome (filtered : r.backupFilterEnabled = true)
    (perm : (sequences e).Perm e.sequences) :
    (shown isUuid r dates sequences e).isSome = true ↔ Found isUuid r e := by
  have hperm : ∀ q, q ∈ accessible isUuid (sequences e) ↔ q ∈ accessible isUuid e.sequences := by
    intro q
    rw [mem_accessible, mem_accessible, perm.mem_iff]
  have hitems := @collect_ne_nil _ (accessible isUuid (sequences e)) filtered
  unfold shown
  split
  · next hskip => exact iff_of_false (by simp) fun h => by simp [h.1.asked] at hskip
  · next hskip =>
      split
      · next hload =>
          refine iff_of_false (by simp) fun h => ?_
          obtain ⟨v, hv, -⟩ := h.1.loads
          rw [hload] at hv
          cases hv
      · next v hload =>
          split
          · next hkind =>
              refine iff_of_false (by simp) fun h => ?_
              obtain ⟨v', hv', hkind'⟩ := h.1.loads
              rw [hload] at hv'
              cases hv'
              simp [hkind] at hkind'
          · next hkind =>
              have heligible : Eligible isUuid r e :=
                ⟨by simpa using hskip, v, hload, by simpa using hkind⟩
              simp only
              split
              · next hempty =>
                  refine iff_of_false (by simp) fun h => ?_
                  obtain ⟨q, hq, hmatches⟩ := h.2
                  exact hitems.mpr ⟨q, (hperm q).mpr hq, hmatches⟩ (by simpa using hempty)
              · next hempty =>
                  refine iff_of_true rfl ⟨heligible, ?_⟩
                  obtain ⟨q, hq, hmatches⟩ := hitems.mp (by simpa using hempty)
                  exact ⟨q, (hperm q).mp hq, hmatches⟩

theorem shown_eq {v : VmItem} (h : shown isUuid r dates sequences e = some v) :
    v.name = e.name ∧
      v.backupItems = dates.sort (collect r (accessible isUuid (sequences e)) []) := by
  unfold shown at h
  split at h
  · cases h
  · split at h
    · cases h
    · split at h
      · cases h
      · simp only at h
        split at h
        · cases h
        · cases h
          exact ⟨rfl, rfl⟩

end Found

/-- The item has been read with the sequence, whose head stands for the numbers that follow. -/
def Sequence.Holds (q : Sequence) (name : String) (head : Nat) (numbers : List Nat) (x : Id) :
    Prop :=
  ∃ m, x = (name, q.uuid, m) ∧ (m = head ∨ m ∈ numbers ∧ q.loads m = true)

/-- The item is shown with all of its sequence. -/
def Sequence.Whole (q : Sequence) (name : String) (x : Id) : Prop :=
  ∃ head, q.Opens head ∧ q.Holds name head q.getIndex x

theorem Shows.mem_ids {q : Sequence} {head : Nat} {numbers : List Nat} {i : BackupItem}
    {name : String} {x : Id} (h : Shows q head numbers i) :
    x ∈ i.ids name ↔ q.Holds name head numbers x := by
  have htail : i.partialBackupItems.map (fun p => (name, i.sequence, p.number)) =
      ((numbers.erase head).filter q.loads).map fun m => (name, q.uuid, m) := by
    rw [← h.tail, h.sequence, List.map_map]
    rfl
  rw [BackupItem.ids, htail, h.sequence, h.number, List.mem_cons]
  simp only [List.mem_map, List.mem_filter]
  constructor
  · rintro (rfl | ⟨m, ⟨hmem, hloads⟩, rfl⟩)
    · exact ⟨head, rfl, .inl rfl⟩
    · exact ⟨m, rfl, .inr ⟨List.mem_of_mem_erase hmem, hloads⟩⟩
  · rintro ⟨m, rfl, hm⟩
    by_cases heq : m = head
    · exact .inl (by rw [heq])
    · obtain ⟨hmem, hloads⟩ := hm.resolve_left heq
      exact .inr ⟨m, ⟨(List.mem_erase_of_ne heq).mpr hmem, hloads⟩, rfl⟩

/-- The answer about one item: what the request is for, and of other items only what the filter
admits. -/
structure Answers (r : Request) (v : Ve) (q : Sequence) (head : Nat) (bTree : List VmItem) :
    Prop where
  single : r.filterSingleBackup = true → Contains bTree (v.name, q.uuid, r.n) ∧
    ∀ x, Increment bTree x → x = (v.name, q.uuid, r.n)
  chain : r.filterSingleBackup = false → ∀ m, Contains bTree (v.name, q.uuid, m) ↔
    m = head ∨ m ∈ q.from_ r.n ∧ q.loads m = true

/-- Every reply answers, and all replies contain the same items. -/
structure Independent {κ : Type} [LinearOrder κ] (key : String → κ) (isUuid : String → Bool)
    (r : Request) (dates : DateSort) (c : Catalogue) (v : Ve) (q : Sequence) (head : Nat) :
    Prop where
  replies : ∀ listing : Listing key c,
    ∃ bTree, getBackupTree isUuid r dates (fun _ => true) listing = some bTree
  answers : ∀ (listing : Listing key c) isConnected bTree,
    getBackupTree isUuid r dates isConnected listing = some bTree → Answers r v q head bTree
  same : ∀ (listing listing' : Listing key c) isConnected isConnected' bTree bTree',
    getBackupTree isUuid r dates isConnected listing = some bTree →
    getBackupTree isUuid r dates isConnected' listing' = some bTree' →
    ∀ x, Contains bTree x ↔ Contains bTree' x

section Listed

variable {κ : Type} [LinearOrder κ] {key : String → κ} {isUuid : String → Bool} {r : Request}
  {dates : DateSort} {isConnected : Nat → Bool} {c : Catalogue} {v : Ve} {q : Sequence}
  {head : Nat} {listing : Listing key c} {bTree : List VmItem}

theorem reply_some (filtered : r.backupFilterEnabled = true)
    (h : getBackupTree isUuid r dates isConnected listing = some bTree) :
    bTree = (listing.ves.findSome? (shown isUuid r dates listing.sequences)).toList := by
  unfold getBackupTree at h
  split at h
  · cases h
  · exact showVes_some filtered h

theorem reply_connected :
    ∃ bTree, getBackupTree isUuid r dates (fun _ => true) listing = some bTree :=
  showVes_connected

theorem listed_isSome (filtered : r.backupFilterEnabled = true) (hv : v ∈ c.ves) :
    (shown isUuid r dates listing.sequences v).isSome = true ↔ Found isUuid r v :=
  shown_isSome filtered (listing.listsEach v hv).perm

/-- The machine that is listed before all others that hold the item is the one of the reply. -/
theorem reply_first (filtered : r.backupFilterEnabled = true) {front back : List Ve}
    (split : listing.ves = front ++ v :: back) (found : Found isUuid r v)
    (none : ∀ w ∈ front, ¬ Found isUuid r w)
    (h : getBackupTree isUuid r dates isConnected listing = some bTree) :
    ∃ w, bTree = [w] ∧ w.name = v.name ∧ ∀ i, i ∈ w.backupItems ↔
      i ∈ collect r (accessible isUuid (listing.sequences v)) [] := by
  have hmem : ∀ w ∈ listing.ves, w ∈ c.ves := fun w hw => listing.lists.mem_iff.mp hw
  rw [split] at hmem
  obtain ⟨w, hw⟩ : ∃ w, shown isUuid r dates listing.sequences v = some w :=
    Option.isSome_iff_exists.mp ((listed_isSome filtered (hmem v (by simp))).mpr found)
  have hfirst : listing.ves.findSome? (shown isUuid r dates listing.sequences) = some w := by
    refine List.findSome?_eq_some_iff.mpr ⟨front, v, back, split, hw, fun u hu => ?_⟩
    rw [← Option.not_isSome_iff_eq_none,
      listed_isSome filtered (hmem u (List.mem_append_left _ hu))]
    exact none u hu
  obtain ⟨hname, hitems⟩ := shown_eq hw
  refine ⟨w, by rw [reply_some filtered h, hfirst]; rfl, hname, fun i => ?_⟩
  rw [hitems, (dates.perm _).mem_iff]

/-- A sequence of a machine is known by its uuid. -/
theorem Ve.eq_of_uuid (v : Ve) {p p' : Sequence} (hp : p ∈ v.sequences) (hp' : p' ∈ v.sequences)
    (huuid : p.uuid = p'.uuid) : p = p' :=
  List.inj_on_of_nodup_map v.distinct hp hp' huuid

/-- The requested item exists and can be shown to the request. -/
structure Existing (isUuid : String → Bool) (r : Request) (c : Catalogue) (v : Ve) (q : Sequence)
    (head : Nat) : Prop where
  filtered : r.backupFilterEnabled = true
  ve : v ∈ c.ves
  eligible : Eligible isUuid r v
  sequence : q ∈ accessible isUuid v.sequences
  uuid : q.uuid = r.s
  opens : q.Opens head
  item : q.Item head r.n

namespace Existing

theorem matches_ (h : Existing isUuid r c v q head) : Matches r q :=
  ⟨h.uuid, h.item.1, head, h.opens⟩

theorem found (h : Existing isUuid r c v q head) : Found isUuid r v :=
  ⟨h.eligible, q, h.sequence, h.matches_⟩

theorem chain (h : Existing isUuid r c v q head) (single : r.filterSingleBackup = false) :
    r.filterBackupChain = true := by
  have hfiltered := h.filtered
  rw [Request.backupFilterEnabled, single, Bool.false_or] at hfiltered
  exact hfiltered

/-- What is picked of the machine, around the sequence of the request. -/
theorem collect_eq (h : Existing isUuid r c v q head) {front back : List Sequence}
    (split : listing.sequences v = front ++ q :: back) :
    accessible isUuid (listing.sequences v) =
        accessible isUuid front ++ q :: accessible isUuid back ∧
      ∀ p ∈ accessible isUuid front, ¬ Matches r p := by
  have hperm := (listing.listsEach v h.ve).perm
  constructor
  · obtain ⟨-, huuid, hread, hlocked⟩ := mem_accessible.mp h.sequence
    rw [split]
    simp [accessible, getIndexForRead, huuid, hread, hlocked]
  · intro p hp hmatches
    have hnodup := (hperm.map Sequence.uuid).nodup_iff.mpr v.distinct
    rw [split, List.map_append, List.map_cons] at hnodup
    have hmem := List.mem_map_of_mem (f := Sequence.uuid) (mem_accessible.mp hp).1
    rw [hmatches.uuid, ← h.uuid] at hmem
    exact (List.nodup_append.mp hnodup).2.2 _ hmem _ (List.mem_cons_self ..) rfl

/-- The single-backup filter shows the head and the item. -/
theorem single_ids (h : Existing isUuid r c v q head) (single : r.filterSingleBackup = true)
    {front back : List Sequence} (split : listing.sequences v = front ++ q :: back) :
    ∃ i, collect r (accessible isUuid (listing.sequences v)) [] = [i] ∧ Shows q head [r.n] i := by
  obtain ⟨heq, hfront⟩ := h.collect_eq split
  obtain ⟨i, hi, hshows⟩ := filterOne_some h.matches_ h.opens
  exact ⟨i, by rw [heq, collect_single single hfront hi], hshows⟩

/-- The chain filter shows the head and the items from the one on, and all of each sequence that
is listed behind. -/
theorem chain_ids (h : Existing isUuid r c v q head) (single : r.filterSingleBackup = false)
    {front back : List Sequence} (split : listing.sequences v = front ++ q :: back) (x : Id) :
    (∃ i ∈ collect r (accessible isUuid (listing.sequences v)) [], x ∈ i.ids v.name) ↔
      q.Holds v.name head (q.from_ r.n) x ∨
        ∃ p ∈ accessible isUuid back, p.Whole v.name x := by
  obtain ⟨heq, hfront⟩ := h.collect_eq split
  obtain ⟨i, hi, hshows⟩ := filterChain_some h.matches_ h.opens
  rw [heq, collect_chain single (h.chain single) hfront hi]
  constructor
  · rintro ⟨j, hj, hx⟩
    rcases List.mem_cons.mp hj with rfl | hj
    · exact .inl (hshows.mem_ids.mp hx)
    · obtain ⟨p, hp, hshow⟩ := List.mem_filterMap.mp hj
      by_cases hopens : ∃ head', p.Opens head'
      · obtain ⟨head', hopens⟩ := hopens
        obtain ⟨j', hj', hshows'⟩ := show_some hopens
        rw [hshow] at hj'
        cases hj'
        exact .inr ⟨p, hp, head', hopens, hshows'.mem_ids.mp hx⟩
      · rw [show_none (not_exists.mp hopens)] at hshow
        cases hshow
  · rintro (hx | ⟨p, hp, head', hopens, hx⟩)
    · exact ⟨i, List.mem_cons_self .., hshows.mem_ids.mpr hx⟩
    · obtain ⟨j, hj, hshows'⟩ := show_some hopens
      exact ⟨j, List.mem_cons_of_mem _ (List.mem_filterMap.mpr ⟨p, hp, hj⟩),
        hshows'.mem_ids.mpr hx⟩

end Existing

end Listed

end DispService.BackupTree
