import Mathlib.Data.List.Sort
import DispService.Lib.Enumeration

/-! The metadata of a backup catalogue as it is read from the disk, and what one sequence of
backups shows of itself under each filter. -/
namespace DispService.BackupTree

structure PartialBackupItem where
  /-- The item whose metadata these are. -/
  number : Nat
  data : String
  disks : List String
deriving DecidableEq, Repr

structure BackupItem where
  /-- The sequence and the item whose metadata these are. -/
  sequence : String
  number : Nat
  dateTime : Int
  data : String
  disks : List String
  partialBackupItems : List PartialBackupItem
deriving DecidableEq, Repr

/-- A sequence of backups on the disk. -/
structure Sequence where
  uuid : String
  /-- The user can read its folder. -/
  readable : Bool
  /-- Another task holds its exclusive lock. -/
  locked : Bool
  /-- The folder of the base backup exists. -/
  base : Bool
  /-- The numbers of the item folders that hold metadata, as they are listed. -/
  lairs : List Nat
  /-- The metadata of an item, read as those of a head: their date and the rest. -/
  loadHead : Nat → Option (Int × String)
  /-- The metadata of an item, read as those of a later one. -/
  loadTail : Nat → Option String
  getDisks : Nat → Option (List String)

namespace Sequence

variable (q : Sequence)

def BASE : Nat := 1

def getIndex : List Nat :=
  let output := q.lairs.mergeSort fun a b => a ≤ b
  if q.base then BASE :: output else output

def getHeadItem (at_ : Nat) : Option BackupItem :=
  (q.loadHead at_).map fun (dateTime, data) => ⟨q.uuid, at_, dateTime, data, [], []⟩

def getTailItem (at_ : Nat) : Option PartialBackupItem :=
  (q.loadTail at_).map fun data => ⟨at_, data, []⟩

end Sequence

namespace Branch

variable (q : Sequence)

/-- An item after the head, where its metadata can be read. -/
def tail (n : Nat) : Option PartialBackupItem :=
  match q.getTailItem n with
  | none => none
  | some p =>
      match q.getDisks n with
      | none => none
      | some d => some { p with disks := d }

def filterList (head : Nat) (filter : List Nat) : Option BackupItem :=
  if filter.isEmpty then none
  else
    match q.getHeadItem head with
    | none => none
    | some b =>
        match q.getDisks head with
        | none => none
        | some d =>
            some { b with
              disks := d
              partialBackupItems := (filter.erase head).filterMap (tail q) }

def «show» : Option BackupItem :=
  match q.getIndex with
  | [] => none
  | first :: rest => filterList q first (first :: rest)

def filterOne (sequence : String) (number : Nat) : Option BackupItem :=
  if sequence != q.uuid then none
  else
    match q.getIndex with
    | [] => none
    | first :: rest =>
        if !(first :: rest).contains number then none else filterList q first [number]

def filterChain (sequence : String) (number : Nat) : Option BackupItem :=
  if sequence != q.uuid then none
  else
    match q.getIndex with
    | [] => none
    | first :: rest =>
        match (first :: rest).dropWhile fun n => n != number with
        | [] => none
        | p :: x => filterList q first (p :: x)

end Branch

end DispService.BackupTree

/-! The backup tree of a server: the folders of the machines and of their sequences are listed by
name, and the loop over them picks what the flags of the request ask for. -/
namespace DispService.BackupTree

open Lib

inductive VmType where
  | vm | ctVzfs | ctPloop | ctVzwin
deriving DecidableEq, Repr

/-- The metadata of a machine. -/
structure VeItem where
  vmType : VmType
  data : String
deriving DecidableEq, Repr

/-- The folder of a machine, with the metadata if they can be read. -/
structure Ve where
  name : String
  loadItem : Option VeItem
  sequences : List Sequence
  distinct : (sequences.map Sequence.uuid).Nodup

structure Catalogue where
  ves : List Ve
  distinct : (ves.map Ve.name).Nodup

/-- The catalogue as `QDir` lists it. Names that are equal in their order come in any order. -/
structure Listing {κ : Type} [LinearOrder κ] (key : String → κ) (c : Catalogue) where
  ves : List Ve
  sequences : Ve → List Sequence
  lists : Enumerates (fun v => key v.name) c.ves ves
  listsEach : ∀ v ∈ c.ves, Enumerates (fun q => key q.uuid) v.sequences (sequences v)

/-- The order by date; items of one date come in any order. -/
structure DateSort where
  sort : List BackupItem → List BackupItem
  perm : ∀ l, (sort l).Perm l
  ordered : ∀ l, (sort l).Pairwise fun a b => a.dateTime ≤ b.dateTime

structure VmItem where
  name : String
  item : VeItem
  backupItems : List BackupItem
deriving DecidableEq, Repr

/-- The request. The flags are `PBT_VM`, `PBT_CT`, `PBT_BACKUP_ID` and `PBT_CHAIN`. -/
structure Request where
  vm : Bool
  ct : Bool
  backupId : Bool
  chain : Bool
  /-- The uuid of a machine, or the id of a backup. -/
  uuid : String
  /-- What `parseBackupId` makes of it. -/
  s : String
  n : Nat

namespace Request

variable (r : Request)

/-- Machines are shown by default. -/
def showsVm : Bool :=
  if !r.vm && !r.ct then true else r.vm

def filterSingleBackup : Bool := r.backupId

def filterBackupChain : Bool := r.chain

def backupFilterEnabled : Bool := r.filterSingleBackup || r.filterBackupChain

end Request

section Target

variable (isUuid : String → Bool) (r : Request) (dates : DateSort) (isConnected : Nat → Bool)

/-- `getIndexForRead` of the folders that are listed. -/
def getIndexForRead (sequences : List Sequence) : List Sequence :=
  sequences.filter fun q => isUuid q.uuid && q.readable

/-- What the filter picks of a sequence, after the items that are already there. -/
def branch (items : List BackupItem) (q : Sequence) : Option BackupItem :=
  if r.filterSingleBackup then Branch.filterOne q r.s r.n
  else if r.filterBackupChain && items.isEmpty then Branch.filterChain q r.s r.n
  else Branch.show q

/-- The loop over the sequences of a machine. The answers of `isConnected` are numbered; there is
no outcome where one of them is no. -/
def showSequences : List Sequence → Nat → List BackupItem → Option (List BackupItem × Nat)
  | [], k, items => some (items, k)
  | q :: qs, k, items =>
      if !isConnected k then none
      else if q.locked then showSequences qs (k + 1) items
      else
        match branch r items q with
        | none => showSequences qs (k + 1) items
        | some i =>
            if r.filterSingleBackup then some (items ++ [i], k + 1)
            else showSequences qs (k + 1) (items ++ [i])

/-- The machine is skipped before its sequences are looked at. -/
def skipped (e : Ve) : Bool :=
  !isUuid e.name || (!r.backupFilterEnabled && !r.uuid.isEmpty && r.uuid != e.name)

/-- The kind of the machine is not asked for. -/
def inappropriate (v : VeItem) : Bool :=
  let t := v.vmType == .vm
  (t && !r.showsVm) || (!t && !r.ct)

/-- The loop over the machines. -/
def showVes (sequences : Ve → List Sequence) :
    List Ve → Nat → List VmItem → Option (List VmItem)
  | [], _, bTree => some bTree
  | e :: es, k, bTree =>
      if !isConnected k then none
      else if skipped isUuid r e then showVes sequences es (k + 1) bTree
      else
        match e.loadItem with
        | none => showVes sequences es (k + 1) bTree
        | some v =>
            if inappropriate r v then showVes sequences es (k + 1) bTree
            else
              match showSequences r isConnected (getIndexForRead isUuid (sequences e)) (k + 1)
                [] with
              | none => none
              | some (items, k) =>
                  if items.isEmpty then showVes sequences es k bTree
                  else
                    let bTree := bTree ++ [⟨e.name, v, dates.sort items⟩]
                    if r.backupFilterEnabled then some bTree else showVes sequences es k bTree

/-- The tree of the reply; none where the connection is lost. -/
def getBackupTree {κ : Type} [LinearOrder κ] {key : String → κ} {c : Catalogue}
    (listing : Listing key c) : Option (List VmItem) :=
  if !isConnected 0 then none
  else showVes isUuid r dates isConnected listing.sequences listing.ves 1 []

end Target

end DispService.BackupTree
