import DispService.BackupTree.Independent
import Mathlib.Data.List.Lex
import Mathlib.Data.Char

/-! The condition on the names of a catalogue under which a filtered reply is independent of the
listing, and a catalogue that does not meet it. -/
namespace DispService.BackupTree

open Lib

/-- The order by name places the machine of the item before every other that holds it and, for the
chain filter, tells the sequence of the item from every other that can be shown. -/
structure Placed {κ : Type} [LinearOrder κ] (key : String → κ) (isUuid : String → Bool)
    (r : Request) (c : Catalogue) (v : Ve) (q : Sequence) : Prop where
  first : ∀ w ∈ c.ves, w ≠ v → Found isUuid r w → key v.name < key w.name
  apart : r.filterSingleBackup = false → ∀ p ∈ accessible isUuid v.sequences, p ≠ q →
    (∃ head, p.Opens head) → key p.uuid ≠ key q.uuid

section Placed

variable {κ : Type} [LinearOrder κ] {key : String → κ} {isUuid : String → Bool} {r : Request}
  {dates : DateSort} {isConnected : Nat → Bool} {c : Catalogue} {v : Ve} {q : Sequence}
  {head : Nat} {listing : Listing key c} {bTree : List VmItem}

theorem mem_increment {i : BackupItem} {n : Nat} (h : Shows q head [n] i) {name : String} {x : Id}
    (hx : x ∈ i.partialBackupItems.map fun p => (name, i.sequence, p.number)) :
    x = (name, q.uuid, n) := by
  obtain ⟨p, hp, rfl⟩ := List.mem_map.mp hx
  have hmem := List.mem_map_of_mem (f := PartialBackupItem.number) hp
  rw [h.tail] at hmem
  rw [h.sequence, List.mem_singleton.mp (List.mem_of_mem_erase (List.mem_of_mem_filter hmem))]

/-- The reply of a listing: the one machine, and what is picked of it. -/
theorem Placed.reply (placed : Placed key isUuid r c v q) (h : Existing isUuid r c v q head)
    (hreply : getBackupTree isUuid r dates isConnected listing = some bTree) :
    ∃ w, bTree = [w] ∧ w.name = v.name ∧ ∀ i, i ∈ w.backupItems ↔
      i ∈ collect r (accessible isUuid (listing.sequences v)) [] := by
  obtain ⟨front, back, split, hfront⟩ := listing.lists.first_of_least h.ve h.found placed.first
  exact reply_first h.filtered split h.found hfront hreply

/-- The items of a reply to the chain filter: those behind the sequence of the request are told by
their names. -/
theorem Placed.chain_iff (placed : Placed key isUuid r c v q) (h : Existing isUuid r c v q head)
    (single : r.filterSingleBackup = false)
    (hreply : getBackupTree isUuid r dates isConnected listing = some bTree) (x : Id) :
    Contains bTree x ↔ q.Holds v.name head (q.from_ r.n) x ∨
      ∃ p ∈ accessible isUuid v.sequences, p ≠ q ∧ key q.uuid < key p.uuid ∧ p.Whole v.name x := by
  obtain ⟨w, rfl, hname, hitems⟩ := placed.reply h hreply
  have hlists := listing.listsEach v h.ve
  have hmem := hlists.mem_iff.mpr (mem_accessible.mp h.sequence).1
  obtain ⟨front, back, split⟩ := List.append_of_mem hmem
  have hcontains : Contains [w] x ↔
      ∃ i ∈ collect r (accessible isUuid (listing.sequences v)) [], x ∈ i.ids v.name := by
    simp only [Contains, List.mem_singleton, exists_eq_left, hname, hitems]
  rw [hcontains, h.chain_ids single split]
  refine or_congr Iff.rfl ⟨?_, ?_⟩
  · rintro ⟨p, hp, hwhole⟩
    obtain ⟨hback, hreads⟩ := mem_accessible.mp hp
    have hseq : p ∈ v.sequences := hlists.mem_iff.mp (split ▸ by simp [hback])
    have hne : p ≠ q := by
      rintro rfl
      have hnodup := (hlists.perm.map Sequence.uuid).nodup_iff.mpr v.distinct
      have hnodup := List.Nodup.of_map _ hnodup
      rw [split] at hnodup
      exact (List.nodup_cons.mp (List.nodup_append.mp hnodup).2.1).1 hback
    have hacc : p ∈ accessible isUuid v.sequences := mem_accessible.mpr ⟨hseq, hreads⟩
    obtain ⟨head', hopens, hx⟩ := hwhole
    have hkey := placed.apart single p hacc hne ⟨head', hopens⟩
    exact ⟨p, hacc, hne, (hlists.mem_back_iff split hseq hne hkey).mp hback, head', hopens, hx⟩
  · rintro ⟨p, hp, hne, hlt, hwhole⟩
    obtain ⟨hseq, hreads⟩ := mem_accessible.mp hp
    have hback := (hlists.mem_back_iff split hseq hne hlt.ne').mpr hlt
    exact ⟨p, mem_accessible.mpr ⟨hback, hreads⟩, hwhole⟩

theorem Placed.single_iff (placed : Placed key isUuid r c v q) (h : Existing isUuid r c v q head)
    (single : r.filterSingleBackup = true)
    (hreply : getBackupTree isUuid r dates isConnected listing = some bTree) :
    (∀ x, Contains bTree x ↔ q.Holds v.name head [r.n] x) ∧
      ∀ x, Increment bTree x → x = (v.name, q.uuid, r.n) := by
  obtain ⟨w, rfl, hname, hitems⟩ := placed.reply h hreply
  have hlists := listing.listsEach v h.ve
  have hmem := hlists.mem_iff.mpr (mem_accessible.mp h.sequence).1
  obtain ⟨front, back, split⟩ := List.append_of_mem hmem
  obtain ⟨i, hcollect, hshows⟩ := h.single_ids single split
  constructor
  · intro x
    simp only [Contains, List.mem_singleton, exists_eq_left, hname, hitems, hcollect]
    exact hshows.mem_ids
  · rintro x ⟨u, hu, j, hj, hx⟩
    cases List.mem_singleton.mp hu
    rw [hitems, hcollect] at hj
    cases List.mem_singleton.mp hj
    rw [← hname]
    exact mem_increment hshows hx

/-- Where the names tell the place, every reply answers. -/
theorem Placed.answers (placed : Placed key isUuid r c v q) (h : Existing isUuid r c v q head)
    (hreply : getBackupTree isUuid r dates isConnected listing = some bTree) :
    Answers r v q head bTree := by
  constructor
  · intro single
    obtain ⟨hcontains, hincrement⟩ := placed.single_iff h single hreply
    refine ⟨(hcontains _).mpr ⟨r.n, rfl, ?_⟩, hincrement⟩
    exact h.item.2.imp_right fun hloads => ⟨List.mem_singleton_self _, hloads⟩
  · intro single m
    rw [placed.chain_iff h single hreply]
    constructor
    · rintro (⟨m', heq, hm⟩ | ⟨p, hp, hne, -, head', -, m', heq, -⟩)
      · cases heq
        exact hm
      · have huuid : q.uuid = p.uuid := (Prod.mk.inj (Prod.mk.inj heq).2).1
        exact absurd (v.eq_of_uuid (mem_accessible.mp hp).1 (mem_accessible.mp h.sequence).1
          huuid.symm) hne
    · exact fun hm => .inl ⟨m, rfl, hm⟩

theorem Placed.same (placed : Placed key isUuid r c v q) (h : Existing isUuid r c v q head)
    {listing' : Listing key c} {isConnected' : Nat → Bool} {bTree' : List VmItem}
    (hreply : getBackupTree isUuid r dates isConnected listing = some bTree)
    (hreply' : getBackupTree isUuid r dates isConnected' listing' = some bTree') (x : Id) :
    Contains bTree x ↔ Contains bTree' x := by
  cases hsingle : r.filterSingleBackup with
  | true =>
      rw [(placed.single_iff h hsingle hreply).1, (placed.single_iff h hsingle hreply').1]
  | false => rw [placed.chain_iff h hsingle hreply, placed.chain_iff h hsingle hreply']

theorem Listing.exists_of {ves : List Ve} {qs : List Sequence}
    (lists : Enumerates (fun v => key v.name) c.ves ves)
    (listsEach : Enumerates (fun q => key q.uuid) v.sequences qs) :
    ∃ listing : Listing key c, listing.ves = ves ∧ listing.sequences v = qs := by
  classical
  refine ⟨⟨ves, fun w => if w = v then qs else
    w.sequences.mergeSort fun p q => key p.uuid ≤ key q.uuid, lists, fun w _ => ?_⟩, rfl, ?_⟩
  · by_cases hw : w = v
    · rw [if_pos hw, hw]
      exact listsEach
    · rw [if_neg hw]
      exact .sorted _
  · exact if_pos rfl

theorem Contains.name {w : VmItem} {x : Id} (h : Contains [w] x) : x.1 = w.name := by
  obtain ⟨u, hu, i, -, hx⟩ := h
  cases List.mem_singleton.mp hu
  rcases List.mem_cons.mp hx with rfl | hx
  · rfl
  · obtain ⟨p, -, rfl⟩ := List.mem_map.mp hx
    rfl

/-- A machine that can be listed before would be the one of the reply. -/
theorem Independent.first (independent : Independent key isUuid r dates c v q head)
    (h : Existing isUuid r c v q head) (w : Ve) (hw : w ∈ c.ves) (hne : w ≠ v)
    (found : Found isUuid r w) : key v.name < key w.name := by
  classical
  by_contra hle
  obtain ⟨front, back, lists, hback⟩ := @Enumerates.exists_before Ve κ _
    (fun v => key v.name) _ _ _ _ hw h.ve hne (not_lt.mp hle)
  obtain ⟨listing, hves, -⟩ := Listing.exists_of lists (.sorted v.sequences)
  obtain ⟨f, u, b, hsplit, hnone, hfound⟩ :=
    @exists_first _ (front ++ [w]) (Found isUuid r) ⟨w, by simp, found⟩
  have heq : front ++ w :: back = f ++ u :: (b ++ back) := by
    have happend := congrArg (· ++ back) hsplit
    simpa using happend
  have hnodup : (front ++ w :: back).Nodup :=
    lists.perm.nodup_iff.mpr (List.Nodup.of_map _ c.distinct)
  have hu : u ≠ v := by
    rintro rfl
    rw [heq] at hnodup
    exact (List.nodup_cons.mp (List.nodup_append.mp hnodup).2.1).1
      (List.mem_append_right _ hback)
  have hmem : u ∈ c.ves := lists.mem_iff.mp (heq ▸ by simp)
  obtain ⟨bTree, hreply⟩ := independent.replies listing
  obtain ⟨w', rfl, hname, -⟩ := reply_first h.filtered (hves.trans heq) hfound hnone hreply
  have hcontains : ∃ m, Contains [w'] (v.name, q.uuid, m) := by
    have hanswers := independent.answers listing _ _ hreply
    cases hsingle : r.filterSingleBackup with
    | true => exact ⟨_, (hanswers.single hsingle).1⟩
    | false => exact ⟨head, (hanswers.chain hsingle head).mpr (.inl rfl)⟩
  obtain ⟨m, hcontains⟩ := hcontains
  exact hu (List.inj_on_of_nodup_map c.distinct hmem h.ve (hname.symm.trans hcontains.name.symm))

/-- A sequence that can be listed before or behind would be shown or not. -/
theorem Independent.apart (independent : Independent key isUuid r dates c v q head)
    (h : Existing isUuid r c v q head) (single : r.filterSingleBackup = false) (p : Sequence)
    (hp : p ∈ accessible isUuid v.sequences) (hne : p ≠ q) (hopens : ∃ head, p.Opens head) :
    key p.uuid ≠ key q.uuid := by
  classical
  intro hkey
  obtain ⟨head', hopens⟩ := hopens
  obtain ⟨hseq, hreads⟩ := mem_accessible.mp hp
  have hq := (mem_accessible.mp h.sequence).1
  have hchain : ∀ front back, Enumerates (fun q => key q.uuid) v.sequences (front ++ q :: back) →
      ∃ listing : Listing key c, ∃ bTree,
        getBackupTree isUuid r dates (fun _ => true) listing = some bTree ∧
        ∀ x, Contains bTree x ↔ q.Holds v.name head (q.from_ r.n) x ∨
          ∃ p ∈ accessible isUuid back, p.Whole v.name x := by
    intro front back lists
    obtain ⟨listing, hves, hsequences⟩ :=
      Listing.exists_of (@Enumerates.sorted _ _ _ (fun v : Ve => key v.name) c.ves) lists
    obtain ⟨f, b, hsplit, hnone⟩ := listing.lists.first_of_least h.ve h.found
      (independent.first h)
    obtain ⟨bTree, hreply⟩ := independent.replies listing
    obtain ⟨w, rfl, hname, hitems⟩ := reply_first h.filtered hsplit h.found hnone hreply
    refine ⟨listing, _, hreply, fun x => ?_⟩
    rw [← h.chain_ids single hsequences]
    simp only [Contains, List.mem_singleton, exists_eq_left, hname, hitems]
  obtain ⟨front, back, lists, hback⟩ := @Enumerates.exists_before Sequence κ _
    (fun q => key q.uuid) _ _ _ _ hq hseq hne.symm hkey.ge
  obtain ⟨front', back', lists', hback'⟩ := @Enumerates.exists_before Sequence κ _
    (fun q => key q.uuid) _ _ _ _ hseq hq hne hkey.le
  obtain ⟨f, b, rfl⟩ := List.append_of_mem hback'
  have hsplit : front' ++ p :: (f ++ q :: b) = (front' ++ p :: f) ++ q :: b := by simp
  obtain ⟨listing, bTree, hreply, hcontains⟩ := hchain _ _ lists
  obtain ⟨listing', bTree', hreply', hcontains'⟩ := hchain _ _ (hsplit ▸ lists')
  have hwhole : p.Whole v.name (v.name, p.uuid, head') := ⟨head', hopens, head', rfl, .inl rfl⟩
  have hshown := (hcontains _).mpr (.inr ⟨p, mem_accessible.mpr ⟨hback, hreads⟩, hwhole⟩)
  rcases (hcontains' _).mp ((independent.same _ _ _ _ _ _ hreply hreply' _).mp hshown) with
    ⟨m, heq, -⟩ | ⟨p', hp', head'', -, m, heq, -⟩
  · have huuid : p.uuid = q.uuid := (Prod.mk.inj (Prod.mk.inj heq).2).1
    exact hne (v.eq_of_uuid hseq hq huuid)
  · have huuid : p.uuid = p'.uuid := (Prod.mk.inj (Prod.mk.inj heq).2).1
    have hb : p' ∈ b := (mem_accessible.mp hp').1
    have hseq' : p' ∈ v.sequences := lists'.mem_iff.mp (by simp [hb])
    have hnodup := lists'.perm.nodup_iff.mpr (List.Nodup.of_map _ v.distinct)
    rw [v.eq_of_uuid hseq hseq' huuid] at hnodup
    have hnot := (List.nodup_cons.mp (List.nodup_append.mp hnodup).2.1).1
    exact hnot (by simp [hb])

end Placed

/-- The reply to a filtered request is independent of the listing just where the names tell the
place of the item. -/
theorem independent_iff {κ : Type} [LinearOrder κ] (key : String → κ) (isUuid : String → Bool)
    (r : Request) (dates : DateSort) (c : Catalogue) (v : Ve) (q : Sequence) (head : Nat)
    (existing : Existing isUuid r c v q head) :
    Independent key isUuid r dates c v q head ↔ Placed key isUuid r c v q := by
  constructor
  · exact fun independent => ⟨independent.first existing, independent.apart existing⟩
  · intro placed
    exact ⟨fun _ => reply_connected, fun _ _ _ => placed.answers existing,
      fun _ _ _ _ _ _ hreply hreply' => placed.same existing hreply hreply'⟩

/-- The order of `QDir`: by name, in small letters. -/
def byName (name : String) : List Char :=
  name.toList.map Char.toLower

def isUuidText (name : String) : Bool :=
  name.toList.length == 38 && name.toList.zipIdx.all fun (c, i) =>
    if i == 0 then c == '{'
    else if i == 37 then c == '}'
    else if i == 9 || i == 14 || i == 19 || i == 24 then c == '-'
    else c.isDigit || ('a' ≤ c.toLower && c.toLower ≤ 'f')

def byDate : DateSort where
  sort l := l.mergeSort fun a b => a.dateTime ≤ b.dateTime
  perm l := List.mergeSort_perm l _
  ordered l := (@Enumerates.sorted _ _ _ BackupItem.dateTime l).ordered

/-- A sequence of a base backup and one more. -/
def twoItems (uuid : String) : Sequence where
  uuid := uuid
  readable := true
  locked := false
  base := true
  lairs := [2]
  loadHead n := some (n, "head")
  loadTail _ := some "item"
  getDisks _ := some ["disk"]

theorem twoItems_index (uuid : String) : (twoItems uuid).getIndex = [1, 2] := by
  simp [Sequence.getIndex, twoItems, Sequence.BASE]

theorem twoItems_opens (uuid : String) : (twoItems uuid).Opens 1 :=
  ⟨by rw [twoItems_index]; rfl, rfl, rfl⟩

def oneMachine (first second : String) (h : first ≠ second) : Ve where
  name := "{00000000-0000-0000-0000-000000000000}"
  loadItem := some ⟨.vm, ""⟩
  sequences := [twoItems first, twoItems second]
  distinct := by simpa [twoItems] using h

theorem oneMachine_uuid {first second : String} {h : first ≠ second} :
    isUuidText (oneMachine first second h).name = true := by
  change isUuidText "{00000000-0000-0000-0000-000000000000}" = true
  decide +kernel

def oneCatalogue (v : Ve) : Catalogue := ⟨[v], by simp⟩

/-- The chain of the second item of a sequence. -/
def chainOf (s : String) : Request where
  vm := true
  ct := false
  backupId := false
  chain := true
  uuid := s ++ ".2"
  s := s
  n := 2

theorem chainOf_existing {first second : String} (hne : first ≠ second)
    (hfirst : isUuidText first = true) :
    Existing isUuidText (chainOf first) (oneCatalogue (oneMachine first second hne))
      (oneMachine first second hne) (twoItems first) 1 where
  filtered := rfl
  ve := List.mem_singleton_self _
  eligible := ⟨by rw [skipped, oneMachine_uuid]; rfl, _, rfl, rfl⟩
  sequence := mem_accessible.mpr ⟨List.mem_cons_self .., hfirst, rfl, rfl⟩
  uuid := rfl
  opens := twoItems_opens first
  item := ⟨by rw [twoItems_index]; exact .tail _ (.head _), .inr rfl⟩

/-- Two sequences whose names differ in the case of a letter only. -/
theorem independent_differs_case :
    Existing isUuidText (chainOf "{0000000a-0000-0000-0000-000000000000}")
      (oneCatalogue (oneMachine "{0000000a-0000-0000-0000-000000000000}"
        "{0000000A-0000-0000-0000-000000000000}" (by decide)))
      (oneMachine "{0000000a-0000-0000-0000-000000000000}"
        "{0000000A-0000-0000-0000-000000000000}" (by decide))
      (twoItems "{0000000a-0000-0000-0000-000000000000}") 1 ∧
    ¬ Independent byName isUuidText (chainOf "{0000000a-0000-0000-0000-000000000000}") byDate
      (oneCatalogue (oneMachine "{0000000a-0000-0000-0000-000000000000}"
        "{0000000A-0000-0000-0000-000000000000}" (by decide)))
      (oneMachine "{0000000a-0000-0000-0000-000000000000}"
        "{0000000A-0000-0000-0000-000000000000}" (by decide))
      (twoItems "{0000000a-0000-0000-0000-000000000000}") 1 := by
  have existing := @chainOf_existing "{0000000a-0000-0000-0000-000000000000}"
    "{0000000A-0000-0000-0000-000000000000}" (by decide) (by decide +kernel)
  refine ⟨existing, fun independent => ?_⟩
  have hother : twoItems "{0000000A-0000-0000-0000-000000000000}" ∈ accessible isUuidText
      (oneMachine "{0000000a-0000-0000-0000-000000000000}"
        "{0000000A-0000-0000-0000-000000000000}" (by decide)).sequences :=
    mem_accessible.mpr ⟨.tail _ (.head _), by decide +kernel, rfl, rfl⟩
  refine independent.apart existing rfl _ hother (fun heq => ?_) ⟨1, twoItems_opens _⟩ ?_
  · have huuid := congrArg Sequence.uuid heq
    revert huuid
    decide
  · change byName "{0000000A-0000-0000-0000-000000000000}" =
      byName "{0000000a-0000-0000-0000-000000000000}"
    decide +kernel

/-- The same catalogue with names that the order tells apart. -/
theorem independent_iff_named :
    Independent byName isUuidText (chainOf "{0000000a-0000-0000-0000-000000000000}") byDate
      (oneCatalogue (oneMachine "{0000000a-0000-0000-0000-000000000000}"
        "{0000000b-0000-0000-0000-000000000000}" (by decide)))
      (oneMachine "{0000000a-0000-0000-0000-000000000000}"
        "{0000000b-0000-0000-0000-000000000000}" (by decide))
      (twoItems "{0000000a-0000-0000-0000-000000000000}") 1 := by
  refine (independent_iff byName isUuidText _ byDate _ _ _ 1
    (chainOf_existing (by decide) (by decide +kernel))).mpr ⟨fun w hw hne => ?_, ?_⟩
  · exact absurd (List.mem_singleton.mp hw) hne
  · intro _ p hp hne _
    obtain ⟨hmem, -⟩ := mem_accessible.mp hp
    rcases List.mem_cons.mp hmem with rfl | hmem
    · exact absurd rfl hne
    · cases List.mem_singleton.mp hmem
      change byName "{0000000b-0000-0000-0000-000000000000}" ≠
        byName "{0000000a-0000-0000-0000-000000000000}"
      decide +kernel

end DispService.BackupTree
