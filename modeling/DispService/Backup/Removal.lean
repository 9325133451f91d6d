import DispService.Instrument.Batch

/-! The removal of backups: what is to be carried out for a request, and what it does to the
backups of a VM. -/
namespace DispService.Backup

open Instrument

/-- An archive file, by its sequence and its name. -/
abbrev File := String × String

/-- The metadata of the head of a sequence, and of the items after it. -/
inductive Data where
  | backupItem | partialBackupItem
deriving DecidableEq

/-- A sequence of backups: its items, and the archive files of each. -/
structure Sequence where
  m_uuid : String
  index : List Nat
  ascending : index.Pairwise (· < ·)
  getTibFileList : Nat → List String
  apart : ∀ m n f, m ≠ n → f ∈ getTibFileList m → f ∉ getTibFileList n
  /-- What comes of reading the metadata of an item. -/
  loadFromFile : Nat → PrlResult

def Sequence.files (s : Sequence) (number : Nat) : List File :=
  (s.getTibFileList number).map fun f => (s.m_uuid, f)

/-- What is on disk: the folders of the items with their metadata, and the archive files, each
with the file that it is based on. -/
structure Store where
  lair : String → Nat → Bool
  data : String → Nat → Data
  file : File → Bool
  base : File → Option File

/-- What a removal that fails leaves of a folder. -/
structure Left where
  lair : String → Nat → Bool
  file : File → Bool

inductive Folder where
  | catalog
  | sequence (uuid : String)
  | item (uuid : String) (number : Nat)
  /-- The path that is made of an empty name. It is none of the others. -/
  | unnamed
deriving DecidableEq

namespace Folder

/-- The folder holds that of an item. -/
def hasLair : Folder → String → Nat → Bool
  | catalog, _, _ => true
  | sequence uuid, u, _ => u == uuid
  | item uuid number, u, n => u == uuid && n == number
  | unnamed, _, _ => false

/-- The archive files lie in the folder of their sequence. -/
def hasFile : Folder → File → Bool
  | catalog, _ => true
  | sequence uuid, f => f.1 == uuid
  | item _ _, _ => false
  | unnamed, _ => false

end Folder

namespace Store

def clear (s : Store) (folder : Folder) (left : Left) : Store :=
  { s with
    lair := fun u n => s.lair u n && (!folder.hasLair u n || left.lair u n)
    file := fun f => s.file f && (!folder.hasFile f || left.file f) }

end Store

/-- What the actions of a batch call. -/
inductive Action where
  | rmdir (folder : Folder)
  | unlink (file : File)
  | rebase (file : File) (base : Option File)
  | save (from_ to_ : Data) (uuid : String) (number : Nat)
deriving DecidableEq

namespace Action

/-- `Meta` on the data of the item that goes and of the one that takes its place. -/
def save_ (from_ to_ : Data) (uuid : String) (number : Nat) (s : Store) : PrlResult × Store :=
  match from_, to_ with
  | from_, .partialBackupItem =>
      (.success, { s with data := fun u n => if u = uuid ∧ n = number then from_ else s.data u n })
  | _, .backupItem => (.invalidArg, s)

def perform (a : Action) (s : Store) : PrlResult × Store :=
  match a with
  | rmdir folder => (.success, s.clear folder ⟨fun _ _ => false, fun _ => false⟩)
  | unlink file => (.success, { s with file := fun f => s.file f && f != file })
  | rebase file base =>
      (.success, { s with base := fun f => if f = file then base else s.base f })
  | save from_ to_ uuid number => save_ from_ to_ uuid number s

def failure : Action → PrlResult
  | rmdir _ => .backupCannotRemoveDirectory
  | unlink _ => .operationFailed
  | rebase _ _ => .backupInternalError
  | save _ _ _ _ => .failure

/-- What an action comes to that fails, or in which the process dies. -/
def interrupted (a : Action) (left : Left) (s : Store) : Store :=
  match a with
  | rmdir folder => s.clear folder left
  | unlink _ => s
  | rebase _ _ => s
  | save _ _ _ _ => s

end Action

/-- Which action of a batch fails, and what it leaves. -/
abbrev Stop := Option (Nat × Left)

def batch : Stop → List Action → Batch Store
  | _, [] => []
  | none, a :: l => ⟨a.perform, none⟩ :: batch none l
  | some (0, left), a :: l => ⟨fun s => (a.failure, a.interrupted left s), none⟩ :: batch none l
  | some (k + 1, left), a :: l => ⟨a.perform, none⟩ :: batch (some (k, left)) l

namespace Remove

structure Item where
  m_number : Nat := 0
  m_files : List File := []
  /-- `none` is an empty name. -/
  m_lair : Option (String × Nat) := none
  m_data : Data := .backupItem
deriving DecidableEq

namespace Item

def load (x : Item) (sequence_ : Sequence) : PrlResult × Item :=
  if x.m_number ∉ sequence_.index then (.backupBackupNotFound, x)
  else if (sequence_.loadFromFile x.m_number).failed then (sequence_.loadFromFile x.m_number, x)
  else
    (.success,
      { x with
        m_files := sequence_.files x.m_number
        m_lair := some (sequence_.m_uuid, x.m_number)
        m_data := if sequence_.index.head? = some x.m_number then .backupItem
          else .partialBackupItem })

/-- The callers of `load` do not look at its result. -/
def loaded (sequence_ : Sequence) (number : Nat) : Item :=
  (Item.load { m_number := number } sequence_).2

def getLair (x : Item) : Folder :=
  match x.m_lair with
  | some (u, n) => .item u n
  | none => .unnamed

/-- The folder that the lair lies in. -/
def getParent (x : Item) : Folder :=
  match x.m_lair with
  | some (u, _) => .sequence u
  | none => .unnamed

end Item

/-- `Flavor` on an item, and `Remover::unlinkItem`. -/
def unlinkItem (item_ : Item) : List Action :=
  .rmdir item_.getLair :: item_.m_files.map .unlink

def rebaseItem (item_ base_ : Item) : List Action :=
  item_.m_files.mapIdx fun i f => .rebase f base_.m_files[i]?

structure Shifter where
  m_next : Option Nat := none
  m_preceding : Option Nat := none

def Shifter.apply (x : Shifter) (sequence_ : Sequence) (item_ : Nat) : List Action :=
  let c := Item.loaded sequence_ item_
  match x.m_next with
  | none => unlinkItem c
  | some next =>
      let n := Item.loaded sequence_ next
      let p := match x.m_preceding with
        | none => {}
        | some preceding => Item.loaded sequence_ preceding
      rebaseItem n p ++ [.save c.m_data n.m_data sequence_.m_uuid n.m_number] ++ unlinkItem c

namespace Confectioner

section Flavor

variable (sequence_ : Sequence) (m_number : Nat)

/-- The loop over the index: the items, and the position of the requested one. -/
def collect : List Nat → List Item → Nat → List Item × Nat
  | [], o, z => (o, z)
  | n :: rest, o, z =>
      collect rest (o ++ [Item.loaded sequence_ n]) (if n = m_number then o.length else z)

def flavor : List Action :=
  let e := collect sequence_ m_number sequence_.index [] 0
  if e.2 = 0 then
    match e.1 with
    | [] => []
    | x :: _ => [.rmdir x.getParent]
  else (e.1.drop e.2).flatMap unlinkItem

end Flavor

/-- The version of the catalogue, and the first one that a chain can be kept in. -/
structure Catalog where
  getVersion : Except PrlResult Nat
  BACKUP_PROTO_V4 : Nat

def shifter (catalog_ : Catalog) (sequence_ : Sequence) (m_number : Nat) :
    Except PrlResult (List Action) :=
  match catalog_.getVersion with
  | .error _ => .error .backupBackupNotFound
  | .ok version =>
      if version < catalog_.BACKUP_PROTO_V4 then .error .backupUnsupportedKeepChain
      else
        let p := sequence_.index.idxOf m_number
        if sequence_.index.length ≤ p then .error .backupBackupNotFound
        else
          let producer_ : Shifter :=
            { m_preceding := if p = 0 then none else sequence_.index[p - 1]?
              m_next := if sequence_.index.getLast? = some m_number then none
                else sequence_.index[p + 1]? }
          .ok (producer_.apply sequence_ m_number)

end Confectioner

end Remove

/-- The sequences that other tasks have locked. -/
structure Lock where
  m_exclusive : String → Bool
  m_shared : String → Bool

namespace Lock

variable (l : Lock)

def grabShared (sequence_ : String) : PrlResult :=
  if l.m_exclusive sequence_ then .backupLockedForWriting else .success

def grabExclusive (sequence_ : String) : PrlResult :=
  if l.m_exclusive sequence_ then .backupLockedForWriting
  else if l.m_shared sequence_ then .backupLockedForReading
  else .success

/-- The sequences are locked one after another. -/
def grabAll : List String → PrlResult
  | [] => .success
  | u :: rest => if (grabExclusive l u).failed then grabExclusive l u else grabAll rest

end Lock

/-- `Task_RemoveVmBackupTarget`, with the answers to its calls. -/
structure Task where
  /-- The uuid and the number of the backup id, if it is not empty. -/
  m_sBackupId : Option (String × Nat)
  keepChain : Bool
  ignoreNotExists : Bool
  getIndexForRead : List String
  getIndexForWrite : List String
  getSequence : String → Sequence
  uuids : ∀ u, (getSequence u).m_uuid = u
  catalog : Remove.Confectioner.Catalog
  /-- The locks when the batch is prepared, and when it is carried out. -/
  prepareLock : Lock
  executeLock : Lock

namespace Task

variable (t : Task)

/-- A batch, with the sequences that are to be locked for it. -/
abbrev Prepared := Except PrlResult (List Action × List String)

def removeAllBackupsForVm : Prepared :=
  if t.getIndexForWrite.isEmpty then .error .backupBackupNotFound
  else .ok ([.rmdir .catalog], t.getIndexForWrite)

def prepare : Prepared :=
  match t.m_sBackupId with
  | none => t.removeAllBackupsForVm
  | some (m_sBackupUuid, m_nBackupNumber) =>
      if m_sBackupUuid ∉ t.getIndexForRead then .error .backupBackupUuidNotFound
      else if (t.prepareLock.grabShared m_sBackupUuid).failed then
        .error (t.prepareLock.grabShared m_sBackupUuid)
      else
        let s := t.getSequence m_sBackupUuid
        if s.index.length = 1 ∧ t.getIndexForRead.length = 1 then t.removeAllBackupsForVm
        else if t.keepChain then
          match Remove.Confectioner.shifter t.catalog s m_nBackupNumber with
          | .error e => .error e
          | .ok l => .ok (l, [m_sBackupUuid])
        else .ok (Remove.Confectioner.flavor s m_nBackupNumber, [m_sBackupUuid])

def do_ (stop : Stop) (x : List Action × List String) (s : Store) : PrlResult × Store :=
  if (t.executeLock.grabAll x.2).failed then (t.executeLock.grabAll x.2, s)
  else (batch stop x.1).execute s

def run_body (stop : Stop) (s : Store) : PrlResult × Store :=
  let r := match t.prepare with
    | .error e => (e, s)
    | .ok x => t.do_ stop x s
  if r.1 = .backupBackupUuidNotFound ∧ t.ignoreNotExists then (.success, r.2) else r

end Task

end DispService.Backup
