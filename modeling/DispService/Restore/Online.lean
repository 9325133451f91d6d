import DispService.Instrument.Batch
import DispService.Restore.Closed

/-! The online restore over an existing VM: its files are set aside by an assembly, the
new ones are built in their place, and the batch undoes its steps when one fails. -/
namespace DispService.Restore.Online

open DispService.Lib FileSystem Instrument

/-- What a domain is defined from. -/
inductive Config where
  | object | product
deriving DecidableEq

/-- A part of the backup: the file it is restored to, and the answers to the calls of
`Image::execute` for it. -/
structure Component where
  restorePath : QFileInfo
  mount : PrlResult
  strand : PrlResult
  mkdir : PrlResult
  build : PrlResult

/-- A request to restore over an existing VM, with the answers to the calls. -/
structure Request where
  /-- The folder of the VM. -/
  home : String
  /-- The system names of its images. -/
  images : List String
  /-- The name made for what is set aside. -/
  uuid : String
  isEfiEnabled : Bool
  components : List Component
  may : String → Site → Bool
  mkdir : PrlResult
  escort : PrlResult
  define : PrlResult
  start : PrlResult
  rebase : PrlResult
  unlink : String → Bool

structure World where
  fs : Fs
  /-- What libvirt has the domain defined from. -/
  domain : Option Config
  running : Bool
  assembly : Assembly
  /-- `m_2unlink` of each image. -/
  m_2unlink : Nat → String

/-- `QFileInfo(n).absolutePath()`. -/
def absolutePath (n : String) : String :=
  String.ofList ((n.toList.reverse.dropWhile (· != '/')).drop 1).reverse

/-- What the restore creates has no origin. -/
def created (kind : Kind) : Content :=
  ⟨"", kind, []⟩

def mkdir (fs : Fs) (p : String) : Fs :=
  Function.update fs p (some ((fs p).getD (created .folder)))

def craftFile (fs : Fs) (p : String) : Fs :=
  Function.update fs p (some (created .file))

section Calls

variable (below : String → String → Bool)

namespace Request

variable (r : Request)

/-- The images that lie outside of the folder of the VM. -/
def disks : List String :=
  r.images.filter fun n => ['/'].isPrefixOf n.toList && !r.home.toList.isPrefixOf n.toList

/-- The name for what is set aside. -/
def aside (n : String) : String :=
  n ++ "." ++ r.uuid

def external (n : String) : Item :=
  ⟨true, ⟨n, absolutePath n⟩, r.aside n, r.may n⟩

def essential : Item :=
  ⟨false, ⟨r.home, absolutePath r.home⟩, r.aside r.home, r.may r.home⟩

def items : List Item :=
  r.disks.map r.external ++ [r.essential]

def m_componentList : List String :=
  r.disks.map r.aside ++ [r.aside r.home]

end Request

namespace Image

/-- `Image::rollback`. -/
def rollback (k : Nat) (w : World) : World :=
  let x := w.m_2unlink k
  let w := { w with m_2unlink := Function.update w.m_2unlink k "" }
  if x = "" then w else { w with fs := (unlink below true w.fs x).2 }

/-- `Image::execute`. -/
def execute (k : Nat) (c : Component) (w : World) : PrlResult × World :=
  if w.m_2unlink k ≠ "" then (.doubleInit, w)
  else if c.mount.failed then (c.mount, w)
  else if c.strand.failed then (c.strand, w)
  else
    let w :=
      if c.mkdir.failed then w
      else
        { w with
          fs := Online.mkdir w.fs c.restorePath.absolutePath
          m_2unlink := Function.update w.m_2unlink k c.restorePath.absolutePath }
    if c.build.failed then (c.build, rollback below k w)
    else
      let w := { w with fs := craftFile w.fs c.restorePath.absoluteFilePath }
      if w.m_2unlink k = "" then
        (c.build,
          { w with m_2unlink := Function.update w.m_2unlink k c.restorePath.absoluteFilePath })
      else (c.build, w)

end Image

section Builder

variable (r : Request)

/-- What `addBackupObject` makes of the assembly and of the file system. -/
def backupObject (fs : Fs) : Assembly × Fs :=
  let a := build below r.items fs
  ({ a.1 with m_trashPolicy := false }, a.2)

def addBackupObject : Step World where
  redo w :=
    let x := w.assembly.do_ below w.fs
    (x.1, { w with assembly := x.2.1, fs := x.2.2 })
  undo := some fun w =>
    let x := w.assembly.revert below w.fs
    { w with assembly := x.1, fs := x.2 }

def addPrepare : Step World where
  redo w := (r.mkdir, if r.mkdir.failed then w else { w with fs := mkdir w.fs r.home })
  undo := some fun w => { w with fs := (unlink below true w.fs r.home).2 }

/-- The files come into the folder of the VM, of which nothing but its being there is
looked at. -/
def addEscort : Step World where
  redo w := (r.escort, w)
  undo := none

def addCraftImages : Nat → List Component → Batch World
  | _, [] => []
  | k, c :: components =>
      ⟨Image.execute below k c, some (Image.rollback below k)⟩ :: addCraftImages (k + 1) components

def addDefine : Step World where
  redo w := (r.define, if r.define.failed then w else { w with domain := some .product })
  undo := some fun w => { w with domain := some .object }

def addStart : Step World where
  redo w := (r.start, if r.start.failed then w else { w with running := true })
  undo := some fun w => { w with running := false }

def unlinkOld (c : String) : Step World where
  redo w :=
    let x := unlink below (r.unlink c) w.fs c
    (if x.1 then .success else .cantRemoveEntry, { w with fs := x.2 })
  undo := none

def addRebase : Batch World :=
  ⟨fun w => (r.rebase, w), none⟩ :: r.m_componentList.map (unlinkOld below r)

def batch : Batch World :=
  addBackupObject below :: addPrepare below r :: addEscort r ::
    (addCraftImages below 0 r.components ++ addDefine r :: addStart r :: addRebase below r)

end Builder

/-- The end of the request: the last owner of the assembly is gone. -/
def World.destroy (w : World) : World :=
  { w with fs := w.assembly.destroy below (fun _ => true) w.fs }

/-- `Chain::Online::handle` for a VM that exists. -/
def handle (r : Request) (w : World) : PrlResult × World :=
  let a := backupObject below r w.fs
  let w := { w with assembly := a.1, fs := a.2 }
  if r.isEfiEnabled then (.unsupportedDeviceType, w.destroy below)
  else
    let e := (batch below r).execute w
    (e.1, e.2.destroy below)

/-- Before the request everything is in its place, and nothing is at hand. -/
def before (kinds : String → Option Kind) : World :=
  ⟨initial kinds, some .object, false, {}, fun _ => ""⟩

/-- A failure leaves everything as it was, and a success nothing of the old. -/
def Atomic (kinds : String → Option Kind) (r : Request) : Prop :=
  let o := handle below r (before kinds)
  if o.1.failed = true then o.2.fs = initial kinds ∧ o.2.domain = some .object
  else OldOnly (r.home :: r.disks) (fun _ => False) o.2.fs

/-- No check and no step of the batch fails. -/
structure NoFailure (kinds : String → Option Kind) (r : Request) : Prop where
  isEfiEnabled : r.isEfiEnabled = false
  aside : ∀ n ∈ r.home :: r.disks, r.may n .do_ = true ∧ kinds n ≠ none
  mkdir : r.mkdir.failed = false
  escort : r.escort.failed = false
  images : ∀ c ∈ r.components,
    c.mount.failed = false ∧ c.strand.failed = false ∧ c.build.failed = false
  define : r.define.failed = false
  start : r.start.failed = false
  rebase : r.rebase.failed = false
  unlink : ∀ c ∈ r.m_componentList, r.unlink c = true

/-- The folder of the VM is there, the name made for what is set aside is new, and what
undoes a step does not fail. -/
structure Existing (kinds : String → Option Kind) (r : Request) : Prop where
  home_ne : r.home ≠ ""
  home : kinds r.home ≠ none
  fresh : ∀ n ∈ r.home :: r.disks, kinds (r.aside n) = none
  apart : ∀ i ∈ r.items, ApartPaths below i
  separate : Separate below r.items
  undoes : ∀ n site, site ≠ .do_ → r.may n site = true

end Calls

end DispService.Restore.Online
