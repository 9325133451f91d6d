import DispService.Lib.Partitioned
import DispService.PrlResult

/-! The backups that are attached to a machine as hard disks: which disks of two configurations
are new, common and gone, the events this takes, and the visits of these events one after
another. -/
namespace DispService.BackupDevice

open Lib

/-- What is read of a `QUrl`. -/
structure QUrl where
  isEmpty : Bool
  isValid : Bool
  scheme : String
  path : String
deriving DecidableEq, Repr

inductive DeviceEnabled where
  | enabled
  | disabled
deriving DecidableEq, Repr

inductive DeviceConnected where
  | connected
  | disconnected
deriving DecidableEq, Repr

structure CVmHardDisk where
  index : Int
  enabled : DeviceEnabled
  connected : DeviceConnected
  storageURL : QUrl
deriving DecidableEq, Repr

inductive VmType where
  | vm
  | ct
deriving DecidableEq, Repr

namespace Finding

def getStorageUrl (disk : CVmHardDisk) : Option QUrl :=
  if disk.storageURL.isEmpty || !disk.storageURL.isValid then none else some disk.storageURL

def isKindOf (disk : CVmHardDisk) : Bool :=
  match getStorageUrl disk with
  | some u => u.scheme == "backup"
  | none => false

def isEnabled (disk : CVmHardDisk) : Bool :=
  disk.enabled == .enabled && disk.connected == .connected

def getUrlPath (disk : CVmHardDisk) : String :=
  match getStorageUrl disk with
  | some u => u.path
  | none => ""

end Finding

/-- `IndexInRange`, of one disk or of a list of them. -/
def indexInRange (range : List CVmHardDisk) (candidate : CVmHardDisk) : Bool :=
  (range.map CVmHardDisk.index).contains candidate.index

namespace Url

/-- Two different disks that have the same non-empty URL. -/
def same (new old : CVmHardDisk) : Bool :=
  if new.index == old.index then false
  else
    let path := Finding.getUrlPath new
    !path.isEmpty && path == Finding.getUrlPath old

/-- Two instances of one disk with different URLs. -/
def changed (new old : CVmHardDisk) : Bool :=
  if new.index != old.index then false
  else Finding.getUrlPath new != Finding.getUrlPath old

end Url

/-- An event and the disk it is about; what a visit of `Setup` writes back into the disk is
nothing that is read here. -/
inductive Event where
  | setup (uuid home : String) (model : CVmHardDisk)
  | enable (uuid : String) (model : CVmHardDisk)
  | disable (uuid home : String) (model : CVmHardDisk)
  | teardown (uuid home : String) (model : CVmHardDisk)
  | cleanup (uuid : String) (model : CVmHardDisk)
deriving DecidableEq, Repr

structure Factory where
  uuid : String
  home : String
  /-- `getVmTypeByUuid` of the directory, which leaves the type as it is where it fails. -/
  getVmTypeByUuid : String → Option VmType

namespace Factory

variable (factory : Factory)

def novel (disk : CVmHardDisk) : List Event :=
  .setup factory.uuid factory.home disk ::
    if !Finding.isEnabled disk then [.disable factory.uuid factory.home disk] else []

def removed (disk : CVmHardDisk) : List Event :=
  match (factory.getVmTypeByUuid factory.uuid).getD .vm with
  | .vm => [.teardown factory.uuid factory.home disk]
  | .ct => [.cleanup factory.uuid disk]

def updated (old new : CVmHardDisk) : Option Event × Option Event :=
  let x := Finding.isEnabled new
  if x != Finding.isEnabled old then
    if x then (some (.enable factory.uuid new), none)
    else (none, some (.disable factory.uuid factory.home new))
  else (none, none)

end Factory

/-- A visitor with its own state `σ`, and topics `τ` for the errors it reports. -/
structure Visitor (σ τ : Type) where
  setTopic : Option τ → σ → σ
  visit : Event → σ → PrlResult × σ

/-- The outcome of a batch: the code, the visits that were made with their codes, and the state. -/
structure Visits (σ : Type) where
  output : PrlResult
  visited : List (Event × PrlResult)
  state : σ

section Batch

variable {σ τ : Type} (visitor : Visitor σ τ)

/-- The loop of `Batch`: it ends at the first event that fails. -/
def acceptAll : List Event → PrlResult → σ → Visits σ
  | [], output, s => ⟨output, [], s⟩
  | b :: batch, _, s =>
      let (output, s) := visitor.visit b s
      if output.failed then ⟨output, [(b, output)], s⟩
      else
        let rest := acceptAll batch output s
        { rest with visited := (b, output) :: rest.visited }

def Batch.accept (batch : List Event) (s : σ) : Visits σ :=
  acceptAll visitor batch .success s

end Batch

namespace Validator

variable (old new : List CVmHardDisk)

def checkModified : Bool :=
  old.any fun d => new.any fun candidate => Url.changed candidate d

def checkDuplicated : Bool :=
  new.any fun d => !(Finding.getUrlPath d).isEmpty && new.any fun candidate => Url.same candidate d

def run : PrlResult :=
  if checkModified old new then .attachBackupUrlChangeProhibited
  else if checkDuplicated new then .attachBackupAlreadyAttached
  else .success

end Validator

/-- `m_result` and `m_validated` are one field. -/
structure Difference where
  from_ : List CVmHardDisk
  to_ : List CVmHardDisk
  factory : Factory
  result : Option PrlResult

namespace Difference

def new (partition : Partitioner CVmHardDisk) (from_ to_ : List CVmHardDisk)
    (factory : Factory) : Difference :=
  let to_ := partition.arrange (indexInRange from_) to_
  let from_ := partition.arrange (indexInRange to_) from_
  ⟨from_, to_, factory, none⟩

def validate (d : Difference) : PrlResult × Difference :=
  match d.result with
  | some result => (result, d)
  | none =>
      let result := Validator.run d.from_ d.to_
      (result, { d with result := some result })

def getNovel (d : Difference) (batch : List Event) : PrlResult × List Event × Difference :=
  let (output, d) := d.validate
  if output.failed then (output, batch, d)
  else
    let rest := d.to_.dropWhile (indexInRange d.from_)
    (output, batch ++ rest.flatMap d.factory.novel, d)

def getRemoved (d : Difference) (batch : List Event) : PrlResult × List Event × Difference :=
  let (output, d) := d.validate
  if output.failed then (output, batch, d)
  else
    let rest := d.from_.dropWhile (indexInRange d.to_)
    (output, batch ++ rest.flatMap d.factory.removed, d)

/-- The loop of `getUpdated`. A search that fails yields the end of the common disks, whose item
is the first of `rest`; where there is none, the loop has no outcome. -/
def addUpdated (factory : Factory) (common rest : List CVmHardDisk) :
    List CVmHardDisk → List Event → Option (List Event)
  | [], batch => some batch
  | x :: xs, batch => do
      let y ← (common.find? (indexInRange [x])).or rest.head?
      let z := factory.updated x y
      addUpdated factory common rest xs (batch ++ z.1.toList ++ z.2.toList)

/-- `getUpdated` where both kinds of events go to one batch. -/
def getUpdated (d : Difference) (batch : List Event) :
    Option (PrlResult × List Event × Difference) := do
  let (output, d) := d.validate
  if output.failed then return (output, batch, d)
  let batch ← addUpdated d.factory (d.to_.takeWhile (indexInRange d.from_))
    (d.to_.dropWhile (indexInRange d.from_)) (d.from_.takeWhile (indexInRange d.to_)) batch
  return (output, batch, d)

end Difference

structure Transition (σ τ : Type) where
  diff : Difference
  visitor : Visitor σ τ
  topic : Option τ

namespace Transition

variable {σ τ : Type}

def do_ (t : Transition σ τ) (batch : List Event) (s : σ) : Visits σ :=
  let visits := Batch.accept t.visitor batch (t.visitor.setTopic t.topic s)
  { visits with state := t.visitor.setTopic none visits.state }

def replace (t : Transition σ τ) (s : σ) : Option (Visits σ × Transition σ τ) := do
  let (output, batch, d) := t.diff.getNovel []
  if output.failed then return (⟨output, [], s⟩, { t with diff := d })
  let (output, batch, d) ← d.getUpdated batch
  if output.failed then return (⟨output, [], s⟩, { t with diff := d })
  return (t.do_ batch s, { t with diff := d })

def remove (t : Transition σ τ) (s : σ) : Visits σ :=
  let (output, batch, _) := t.diff.getRemoved []
  if output.failed then ⟨output, [], s⟩ else t.do_ batch s

end Transition

namespace Dao

def getEnabled (store : List CVmHardDisk) : List CVmHardDisk :=
  store.filter fun d => Finding.isKindOf d && Finding.isEnabled d

def getDisabled (store : List CVmHardDisk) : List CVmHardDisk :=
  store.filter fun d => Finding.isKindOf d && !Finding.isEnabled d

def getAll (store : List CVmHardDisk) : List CVmHardDisk :=
  getEnabled store ++ getDisabled store

end Dao

structure Service (σ τ : Type) where
  factory : Factory
  visitor : Visitor σ τ
  topic : Option τ
  hardDisks : List CVmHardDisk

namespace Service

variable {σ τ : Type} (partition : Partitioner CVmHardDisk) (service : Service σ τ)

def getTransition (new : List CVmHardDisk) : Transition σ τ where
  diff := .new partition (Dao.getAll service.hardDisks) (Dao.getAll new) service.factory
  visitor := service.visitor
  topic := service.topic

/-- No outcome means that a disk past the end of a list was read. -/
def setDifference (new : List CVmHardDisk) (s : σ) : Option (Visits σ) := do
  let (replaced, t) ← (service.getTransition partition new).replace s
  if replaced.output.failed then return replaced
  let removed := t.remove replaced.state
  return { removed with visited := replaced.visited ++ removed.visited }

end Service

end DispService.BackupDevice
