import DispService.Instrument.Batch
import DispService.Lib.Listing

/-! The commands that a move of a VM is made of, and what they do to the two folders and
to the registration. -/
namespace DispService.Move

open DispService.Lib DispService.Instrument

/-- The folder that the VM is moved from, and the one it is moved to. -/
inductive Place where
  | source | target
deriving DecidableEq

/-- What is no folder: `config` is the configuration with its backup, and `special` what
`QDir::System` lists. -/
inductive Leaf where
  | file (content : String)
  | config
  | special
deriving DecidableEq

abbrev Path := List String
abbrev Entry := Path × Option Leaf

structure Folder where
  /-- The home that the configuration in the folder stores. -/
  homePath : Option Place
  entries : List Entry
deriving DecidableEq

structure World where
  source : Option Folder
  target : Option Folder
  /-- The home in the item of the VM directory. -/
  vmHome : Option Place
  /-- The home in the item that is made for a template. -/
  template : Option Place
  m_guard : Bool
  /-- What was at the target when the source was removed; no command reads it. -/
  atRemoval : Option (Option Folder)
deriving DecidableEq

namespace World

def folder (w : World) : Place → Option Folder
  | .source => w.source
  | .target => w.target

def setFolder (w : World) (p : Place) (f : Option Folder) : World :=
  match p with
  | .source => { w with source := f }
  | .target => { w with target := f }

end World

/-- An image in the folder of the VM. -/
structure Disk where
  systemName : Path
  connected : Bool

/-- What a removal that fails leaves. -/
structure Left where
  config : Bool
  entries : Path → Bool

def Folder.only (f : Folder) (left : Left) : Folder :=
  ⟨if left.config then f.homePath else none, f.entries.filter fun x => left.entries x.1⟩

/-- A request to move a VM, with the answers to the calls. -/
structure Request where
  /-- What the folder of the VM holds. -/
  home : Listing String Leaf
  /-- The target lies within the source. -/
  nested : Bool
  isTemplate : Bool
  isEfiEnabled : Bool
  serialPorts : Bool
  images : List Disk
  haEnabled : Bool
  /-- The VM is running or paused. -/
  running : Bool
  /-- `CFileHelper::GetMountPoint` of the source and of the parent of the target. -/
  mountPoint : Place → String
  cdUp : Bool
  pcs_fs : Bool
  isSharedFS : Place → Bool
  newHome : Bool
  WriteDirectory : Path → Bool
  copyFile : Path → PrlResult
  /-- `PRL_VMTIMING_LOGFILENAME`, and with `VMDIR_DEFAULT_VM_MIGRATE_SUFFIX`. -/
  statlog : String
  statlogMigrate : String
  getEntryLists : PrlResult
  prepare : PrlResult
  copyVolume : PrlResult
  atomicMoveFile : Bool
  updateVmDirItem : PrlResult
  saveConfig : PrlResult
  updateClusterResourcePath : PrlResult
  addClusterResource : PrlResult
  removeClusterResource : PrlResult
  /-- What `ClearAndDeleteDir` leaves if it fails. -/
  clearAndDeleteDir : Option (Place → Left)
  setConfig : PrlResult
  findForEntry : Place → PrlResult
  insert : PrlResult
  found : Bool
  findByRoot : PrlResult
  checkAndLock : PrlResult
  log : PrlResult
  saveToFile : PrlResult
  lock : Bool
  push : PrlResult
  query : PrlResult
  deleteVmDirectoryItem : PrlResult
  persist : PrlResult
  insertVmDirectoryItem : PrlResult

namespace Command

variable (r : Request)

def remove (w : World) : PrlResult × World :=
  let w := { w with atRemoval := some w.target }
  match r.clearAndDeleteDir with
  | none => (.success, { w with source := none, target := if r.nested then none else w.target })
  | some left =>
      (.cantRemoveEntry,
        { w with
          source := w.source.map (·.only (left .source))
          target := if r.nested then w.target.map (·.only (left .target)) else w.target })

/-- What a copy of the entry adds to the target. -/
def put (source : Folder) (x : Entry) (target : Folder) : Folder :=
  if x.2 = some .config then { target with homePath := source.homePath }
  else { target with entries := x :: target.entries }

/-- `Copy::process` -/
def process (source : Folder) (x : Entry) (target : Folder) : PrlResult × Folder :=
  match x with
  | (p, none) => if r.WriteDirectory p then (.success, put source x target) else (.operationFailed, target)
  | (p, some _) =>
      if (r.copyFile p).failed then (r.copyFile p, target) else (.success, put source x target)

def processAll (source : Folder) : List Entry → Folder → PrlResult × Folder
  | [], target => (.success, target)
  | x :: rest, target =>
      let e := process r source x target
      if e.1.failed then e else processAll source rest e.2

/-- `Copy::operator()` to a place that is empty. A copy into the source finds itself in
the queue, and goes on until a call fails. -/
def copyTo (source : Folder) : PrlResult × Option Folder :=
  if !r.WriteDirectory [] then (.operationFailed, none)
  else
    let e := processAll r source r.home.walk ⟨none, []⟩
    if e.1.failed then (e.1, some e.2)
    else if r.nested then (.operationFailed, some e.2)
    else (.success, some e.2)

def copy (w : World) : PrlResult × World :=
  match w.source with
  | none => (.operationFailed, w)
  | some source =>
      let e := copyTo r source
      (e.1, { w with target := e.2 })

def rename (atomicMoveFile : Bool) (from_ to_ : Place) (w : World) : PrlResult × World :=
  match w.folder from_, w.folder to_ with
  | some f, none =>
      if atomicMoveFile && !r.nested then
        (.success, (w.setFolder from_ none).setFolder to_ (some f))
      else (.operationFailed, w)
  | _, _ => (.operationFailed, w)

/-- The item is changed before it is saved. -/
def directory (updateVmDirItem : PrlResult) (value_ : Place) (w : World) : PrlResult × World :=
  match w.vmHome with
  | none => (.operationFailed, w)
  | some _ => (updateVmDirItem, { w with vmHome := some value_ })

/-- A file is not written into a folder that is missing. -/
def config (saveConfig : PrlResult) (value_ : Place) (w : World) : PrlResult × World :=
  if saveConfig.failed then (saveConfig, w)
  else
    match w.folder value_ with
    | none => (.failure, w)
    | some f => (.success, w.setFolder value_ (some { f with homePath := some value_ }))

def cluster (w : World) : PrlResult × World :=
  if !r.haEnabled then (.success, w)
  else if r.isSharedFS .target then
    if r.isSharedFS .source then (r.updateClusterResourcePath, w) else (r.addClusterResource, w)
  else if r.isSharedFS .source then (r.removeClusterResource, w)
  else (.success, w)

def libvirt (w : World) : PrlResult × World :=
  if r.isTemplate then (.success, w)
  else if r.setConfig.failed then (.operationFailed, w)
  else (.success, w)

/-- An entry that is to be copied, and where to. -/
abbrev Item := Entry × Path

/-- The folders of `CVmMigrateHelper::GetEntryListsVmHome`. -/
def folders : List Entry :=
  r.home.walk.filter (·.2 = none)

/-- The files of `CVmMigrateHelper::GetEntryListsVmHome`: without the configuration and
the log, and with another name for the statistics. -/
def files : List Item :=
  let list := r.home.walk.filter fun x => x.2 ≠ none ∧ x.2 ≠ some .special
  let kept := list.filter fun x =>
    x.2 ≠ some .config ∧ x.1 ≠ ["virtuozzo.log"] ∧ x.1 ≠ [r.statlog]
  kept.map (fun x => (x, x.1)) ++
    (list.filter fun x => x.1 = [r.statlog]).map fun x => (x, [r.statlogMigrate])

/-- The images that are copied apart from the other files. -/
def special : List Disk :=
  r.images.filter (·.connected)

/-- The files of `Estimate`. -/
def regularFiles : List Item :=
  (special r).foldl (fun f d => f.eraseP (·.2 = d.systemName)) (files r)

def writeDirectories : List Entry → Folder → PrlResult × Folder
  | [], target => (.success, target)
  | x :: rest, target =>
      if r.WriteDirectory x.1 then
        writeDirectories rest { target with entries := x :: target.entries }
      else (.makeDirectory, target)

def copyFiles : List Item → Folder → PrlResult × Folder
  | [], target => (.success, target)
  | x :: rest, target =>
      if (r.copyFile x.1.1).failed then (r.copyFile x.1.1, target)
      else copyFiles rest { target with entries := (x.2, x.1.2) :: target.entries }

def regular (w : World) : PrlResult × World :=
  let e := writeDirectories r (folders r) (w.target.getD ⟨none, []⟩)
  if e.1.failed then (e.1, { w with target := some e.2 })
  else
    let e := copyFiles r (regularFiles r) e.2
    (e.1, { w with target := some e.2 })

/-- `Facade::prepare`: the images are made, and are empty. -/
def prepare (w : World) : PrlResult × World :=
  let target := w.target.getD ⟨none, []⟩
  (r.prepare,
    { w with target := some { target with
        entries := (special r).map (fun d => (d.systemName, some (.file ""))) ++ target.entries } })

/-- `Facade::execute`: the images get the contents of the old ones. -/
def execute (w : World) : PrlResult × World :=
  let names := (special r).map Disk.systemName
  let target := w.target.getD ⟨none, []⟩
  if r.copyVolume.failed then (r.copyVolume, w)
  else
    (.success,
      { w with target := some { target with
          entries := r.home.walk.filter (fun x => x.1 ∈ names ∧ x.2 ≠ some .config) ++
            target.entries.filter (fun x => x.1 ∉ names) } })

/-- `Storage::import`: the template is copied to a sandbox, which takes its place when it
is complete. -/
def importStorage (w : World) : PrlResult × World :=
  match w.source with
  | none => (.operationFailed, w)
  | some source =>
      if r.log.failed then (r.log, w)
      else
        let e := copyTo r source
        if e.1.failed then (e.1, w)
        else if r.saveToFile.failed then (r.saveToFile, w)
        else if !r.lock then (.failure, w)
        else if r.push.failed then (r.push, w)
        else (.success, { w with target := e.2.map fun f => { f with homePath := some .target } })

def sweep (w : World) : World :=
  { w with target := none }

def query (w : World) : PrlResult × World :=
  (r.query, w)

def deleteVmDirectoryItem (w : World) : PrlResult × World :=
  if r.deleteVmDirectoryItem.failed then (r.deleteVmDirectoryItem, w)
  else (.success, { w with vmHome := none })

/-- `Registrar::begin` -/
def begin_ (w : World) : PrlResult × World :=
  if w.m_guard then (.doubleInit, w)
  else if r.checkAndLock.failed then (r.checkAndLock, w)
  else (.success, { w with m_guard := true })

/-- The batch of the registrar. -/
def m_instrument : Batch World :=
  [⟨fun w => (r.persist, w), some fun w => w⟩,
    ⟨fun w =>
      if r.insertVmDirectoryItem.failed then (r.insertVmDirectoryItem, w)
      else (.success, { w with template := some .target }),
      some fun w => { w with template := none }⟩]

/-- `Registrar::execute` -/
def register (w : World) : PrlResult × World :=
  if !w.m_guard then (.uninitialized, w) else (m_instrument r).execute w

/-- `Registrar::rollback`: what its batch has registered goes, and the lock. -/
def rollback (w : World) : World :=
  if !w.m_guard then w else { w with template := none, m_guard := false }

/-- `Registrar::commit` -/
def commit (w : World) : PrlResult × World :=
  if !w.m_guard then (.uninitialized, w) else (.success, { w with m_guard := false })

end Command

end DispService.Move
