import DispService.Backup.Exact
import DispService.Lib.Run
import DispService.Product.Distinct
import Mathlib.Data.Finmap

/-! The creation of backups: whether a backup is made on top of the last ones, and what its archives
are based on. -/
namespace DispService.Backup.Creation

open Lib Product

/-- A configuration, as far as its disks. -/
structure Config where
  vmType : BackupDevice.VmType
  hardDisks : List HardDisk
  getDeviceSizeInBytes : HardDisk → Nat

/-- The archives of a model. Every search for a name ends. -/
def vmTibsOf (p : Model) : List (Component × QString) :=
  (p.getVmTibs (p.hardDisks.length + 1)).getD []

def ctTibsOf (p : Model) : List (Component × QString) :=
  (p.getCtTibs (p.hardDisks.length + 1)).getD []

/-- `Object::State`: the sizes of the images by their absolute paths, which are made of a home and
of a name. -/
def stateOf (absolute : QString → QString → QString) (model : Config) (h : QString) :
    Finmap fun _ : QString => Nat :=
  let p : Model := ⟨[], h, model.hardDisks, .tib⟩
  let x := if model.vmType = .vm then vmTibsOf p else ctTibsOf p
  x.foldl (fun list c => list.insert (absolute c.1.home c.1.image)
    (model.getDeviceSizeInBytes c.1.device)) ∅

/-- `Sequence::BASE`. -/
def BASE : Nat := 1

def PRL_PARTIAL_BACKUP_START_NUMBER : Nat := 2

/-- An item, with the configuration in its folder and its archives, by the names of the images. -/
structure Item where
  number : Nat
  dateTime : Nat
  config : Config
  /-- Made for a client from `BACKUP_PROTO_V4` on. -/
  remoteV4 : Bool
  archives : List (QString × QString)

structure Sequence where
  uuid : String
  items : List Item
  /-- In the metadata of the head. -/
  lastNumber : Nat
  /-- The number of the item that was created last, which is stored nowhere. -/
  lastCreated : Nat

def Sequence.index (q : Sequence) : List Nat :=
  q.items.map Item.number

abbrev Catalog := String → Option Sequence

/-- A request, with what is found for it. -/
structure Request where
  /-- `PBT_FULL`. -/
  full : Bool
  /-- `PVM_CT_VZFS_BACKUP`. -/
  vzfs : Bool
  /-- `BACKUP_PROTO_V4 <= m_nRemoteVersion`. -/
  remoteV4 : Bool
  bitmaps : List String
  config : Config
  home : QString
  currentDateTime : Nat
  createUuid : String
  getIndexForWrite : List String
  /-- The metadata lock is not to be had. -/
  locked : String → Bool
  loadsHead : String → Bool
  loadsConfig : Bool
  /-- The folder of a sequence. -/
  getSequence : String → QString
  /-- What the server of older clients reports. -/
  loadTibFiles : List (QString × QString)

inductive Failure where
  /-- The first item of an empty index is asked for. -/
  | emptyIndex
  | backupInternalError
deriving DecidableEq, Repr

/-- What `m_nFlags`, `m_sBackupUuid` and `m_nBackupNumber` come to. -/
structure Decision where
  full : Bool
  uuid : String
  number : Nat
deriving DecidableEq, Repr

namespace Request

variable (absolute : QString → QString → QString) (r : Request) (s : Catalog)

/-- One round of the loop over the index, with the sequence and the date that were last taken. -/
def later (a : Option (Sequence × Nat)) (u : String) :
    Except Failure (Option (Sequence × Nat)) :=
  match s u with
  | none => .ok a
  | some q =>
      if r.locked u then .ok a
      else match q.items with
        | [] => .error .emptyIndex
        | b :: _ =>
            if r.loadsHead u && decide ((a.map Prod.snd).getD 0 ≤ b.dateTime) then
              .ok (some (q, b.dateTime))
            else .ok a

def getLastBaseBackup : Except Failure (Option Sequence) := do
  let a ← r.getIndexForWrite.foldlM (r.later s) none
  return a.map Prod.fst

/-- The disk lists of the configuration and of the head are the same, both with the home of the
configuration. -/
def SameDisks (head : Item) : Prop :=
  stateOf absolute r.config r.home = stateOf absolute head.config r.home

instance (head : Item) : Decidable (r.SameDisks absolute head) :=
  inferInstanceAs (Decidable (_ = _))

def wasHddListChanged (q : Sequence) : Except Failure Bool :=
  match q.items with
  | [] => .error .emptyIndex
  | head :: _ =>
      if r.loadsConfig then .ok (decide (¬ r.SameDisks absolute head))
      else .error .backupInternalError

end Request

namespace Sequence

def next (q : Sequence) : Nat :=
  match q.index.getLast? with
  | none => BASE
  | some n => n + 1

/-- The last incremental backup is found. -/
def Continues (q : Sequence) : Prop :=
  q.lastNumber ≠ 0 → q.next = q.lastNumber + 1

instance (q : Sequence) : Decidable q.Continues :=
  inferInstanceAs (Decidable (_ → _))

end Sequence

namespace Request

variable (absolute : QString → QString → QString) (r : Request) (s : Catalog)

/-- The result of the test for bitmaps takes the place of that of the test for disks. -/
def guessBackupType (m_lastBase : Option Sequence) : Except Failure Decision :=
  let base : Decision := ⟨true, r.createUuid, BASE⟩
  if r.full then .ok base
  else match m_lastBase with
    | none => .ok base
    | some q =>
        if ¬ q.Continues then .ok base
        else if r.vzfs then .ok ⟨false, q.uuid, q.next⟩
        else do
          let f ← r.wasHddListChanged absolute q
          let f := if r.remoteV4 then !r.bitmaps.contains q.uuid else f
          return if f then base else ⟨false, q.uuid, q.next⟩

/-- The archives of the images in an item. -/
def product (uuid : String) (n : Nat) : List (Component × QString) :=
  vmTibsOf ⟨r.getSequence uuid, r.home, r.config.hardDisks,
    .numbered PRL_PARTIAL_BACKUP_START_NUMBER n⟩

/-- The new archives, by the names of their files, each with the one that it is based on. -/
def prepareImages (uuid : String) (n : Nat) : List (Component × QString × Option QString) :=
  if r.remoteV4 then
    let x := if PRL_PARTIAL_BACKUP_START_NUMBER ≤ n then r.product uuid (n - 1) else []
    (r.product uuid n).mapIdx fun i t => (t.1, archiveName t, x[i]?.map archiveName)
  else []

/-- What is saved for the item. -/
def item (d : Decision) : Item where
  number := d.number
  dateTime := r.currentDateTime
  config := r.config
  remoteV4 := r.remoteV4
  archives :=
    if r.remoteV4 then
      (r.prepareImages d.uuid d.number).map fun t => (t.1.image, t.2.1)
    else r.loadTibFiles

/-- A creation that succeeds. The uuid of a new sequence is not that of another one. -/
def create : Option Catalog :=
  match (r.getLastBaseBackup s).bind (r.guessBackupType absolute) with
  | .error _ => none
  | .ok d =>
      match d.full, s d.uuid with
      | true, none => some (Function.update s d.uuid (some ⟨d.uuid, [r.item d], 0, BASE⟩))
      | false, some q =>
          some (Function.update s d.uuid
            (some { q with items := q.items ++ [r.item d], lastNumber := d.number, lastCreated := d.number }))
      | _, _ => none

end Request

/-- What a removal that succeeds leaves of a sequence. With the chain kept only the item goes, and
the metadata of a head moves to the item after it. -/
def Sequence.remove (keepChain : Bool) (number : Nat) (q : Sequence) : Option Sequence :=
  if keepChain then some { q with items := q.items.filter fun x => x.number ≠ number }
  else if number ∈ q.index.tail then
    some { q with items := q.items.filter fun x => x.number < number }
  else none

inductive Operation where
  | create (r : Request)
  | remove (keepChain : Bool) (uuid : String) (number : Nat)
  | removeAll

/-- An operation that succeeds. -/
def perform (absolute : QString → QString → QString) (s : Catalog) : Operation → Option Catalog
  | .create r => r.create absolute s
  | .remove keepChain uuid number =>
      match s uuid with
      | none => none
      | some q =>
          if keepChain ∧ number ∉ q.index then none
          else some (Function.update s uuid (q.remove keepChain number))
  | .removeAll => some fun _ => none

section Removal

open Remove

variable {p : Backup.Sequence} {q : Sequence} {number : Nat}

theorem index_filter (q : Sequence) (keep : Nat → Bool) :
    ({ q with items := q.items.filter fun x => keep x.number } : Sequence).index =
      q.index.filter keep := by
  rw [Sequence.index, Sequence.index, List.filter_map]
  rfl

theorem remove_kept {n : Nat} :
    (∃ q' ∈ q.remove true number, n ∈ q'.index) ↔ n ∈ q.index ∧ n ≠ number := by
  have hremove : q.remove true number =
      some { q with items := q.items.filter fun x => x.number ≠ number } := rfl
  rw [hremove]
  simp only [Option.mem_some_iff, exists_eq_left']
  rw [index_filter q fun k => k ≠ number, List.mem_filter]
  simp

theorem remove_tail (h : number ∈ q.index.tail) {n : Nat} :
    (∃ q' ∈ q.remove false number, n ∈ q'.index) ↔ n ∈ q.index ∧ n < number := by
  have hremove : q.remove false number =
      some { q with items := q.items.filter fun x => x.number < number } := if_pos h
  rw [hremove]
  simp only [Option.mem_some_iff, exists_eq_left']
  rw [index_filter q fun k => k < number, List.mem_filter]
  simp

/-- With the chain kept, just the folder of the item is gone. -/
theorem shifter_lair {c : Confectioner.Catalog} {l : List Action}
    (hl : Confectioner.shifter c p number = .ok l) (hloads : Loads p number) (s : Store) (n : Nat) :
    (performAll l s).lair p.m_uuid n = true ↔ s.lair p.m_uuid n = true ∧ n ≠ number := by
  obtain ⟨version, hversion, hsupported⟩ := shifter_supported hl
  obtain ⟨pre, post, hindex⟩ := List.append_of_mem hloads.1
  rw [shifter_split hversion hsupported hindex] at hl
  cases hl
  obtain ⟨s', hlair, -, hrun⟩ := apply_deletes (q := p) ⟨post.head?, pre.getLast?⟩ number s
  rw [hrun]
  by_cases heq : n = number
  · subst heq
    rw [unlinkItem_lair_self hloads]
    simp
  · rw [unlinkItem_lair (fun h => absurd h heq), hlair]
    simp [heq]

/-- The folders that are left are those of the items that are left. -/
theorem remove_lair (hindex : p.index = q.index) (hloads : ∀ n ∈ p.index, Loads p n)
    {keepChain : Bool} {c : Confectioner.Catalog} {l : List Action}
    (hl : (if keepChain then Confectioner.shifter c p number
      else .ok (Confectioner.flavor p number)) = .ok l) (s : Store) {n : Nat} (hn : n ∈ p.index) :
    (performAll l s).lair p.m_uuid n = true ↔
      s.lair p.m_uuid n = true ∧ ∃ q' ∈ q.remove keepChain number, n ∈ q'.index := by
  cases keepChain with
  | true =>
    have hmem : number ∈ p.index := by
      by_contra hno
      obtain ⟨e, he, -⟩ := shifter_absent (c := c) hno
      cases he.symm.trans hl
    rw [shifter_lair hl (hloads number hmem)]
    rw [remove_kept, ← hindex]
    simp [hn]
  | false =>
    simp only [Bool.false_eq_true, if_false, Except.ok.injEq] at hl
    subst hl
    by_cases htail : number ∈ q.index.tail
    · obtain ⟨h, rest, hcons⟩ := List.exists_cons_of_ne_nil (List.ne_nil_of_mem hn)
      rw [← hindex, hcons, List.tail_cons] at htail
      obtain ⟨pre, post, rfl⟩ := List.append_of_mem htail
      have hsplit : p.index = (h :: pre) ++ number :: post := hcons
      rw [flavor_tail hsplit (List.cons_ne_nil _ _)]
      have htail' : number ∈ q.index.tail := by
        rw [← hindex, hcons, List.tail_cons]
        exact htail
      rw [remove_tail htail', ← hindex]
      by_cases hlt : n < number
      · rw [unlinkItems_lair fun hin => absurd (List.of_mem_filter hin) (by simpa using hlt)]
        simp [hlt, hn]
      · have hin : n ∈ p.index.filter (number ≤ ·) :=
          List.mem_filter.mpr ⟨hn, by simpa using hlt⟩
        rw [(unlinkItems_done hin (hloads n hn) s).1]
        simp [hlt]
    · obtain ⟨h, rest, hcons⟩ := List.exists_cons_of_ne_nil (List.ne_nil_of_mem hn)
      have hhead : number = h ∨ number ∉ p.index := by
        rw [← hindex, hcons, List.tail_cons] at htail
        rw [hcons, List.mem_cons]
        by_cases heq : number = h
        · exact .inl heq
        · exact .inr fun h => h.elim heq htail
      rw [flavor_head hcons hhead]
      have hload := hloads h (hcons ▸ List.mem_cons_self)
      have hparent : (Item.loaded p h).getParent = .sequence p.m_uuid := by
        rw [loaded_ok hload.1 hload.2]
        rfl
      rw [hparent]
      simp [Sequence.remove, htail, performAll, Action.perform, Store.clear, Folder.hasLair]

end Removal

end DispService.Backup.Creation
