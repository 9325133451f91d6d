import DispService.Restore.Closed

/-! The parts of a VM or container that is restored: they are made in temporary places,
and handed to an assembly that is to move them. -/
namespace DispService.Restore

open DispService.Lib FileSystem

/-- What the restore makes at a path. -/
def made (fs : Fs) (p : String) (kind : Kind) : Fs :=
  Function.update fs p (some ⟨p, kind, []⟩)

/-- `Toolkit::folderExists`. -/
def folderExists (fs : Fs) (p : String) : Bool :=
  (fs p).any (·.kind = .folder)

/-- `Assistant::make`; the last argument is the answer of the system. -/
def assistMake (fs : Fs) (path_ : String) (mkdir : PrlResult) : PrlResult × Fs :=
  if folderExists fs path_ then (.backupRestoreDirectoryAlreadyExist, fs)
  else if mkdir.failed then (.backupRestoreCannotCreateDirectory, fs)
  else (.success, made fs path_ .folder)

section Calls

variable (below : String → String → Bool)

/-- `CFileHelper::ClearAndDeleteDir` of several folders. -/
def clearAll (may : String → Bool) (paths : List String) (fs : Fs) : Fs :=
  paths.foldl (fun fs p => (unlink below (may p) fs p).2) fs

namespace Target

/-- A disk of the VM, with the answers to the calls for it. -/
structure Hdd where
  index : Nat
  intermediate : QFileInfo
  /-- Where it is to be moved; empty for a disk in the folder of the VM. -/
  final : String
  mkdir : PrlResult
  restore : PrlResult

structure Vm where
  m_home : String
  m_hddMap : List Hdd := []
  m_auto : List String := []

/-- A request to restore a VM, with the answers to the calls. -/
structure Request where
  /-- The folder of the VM. -/
  home : String
  m_sTargetPath : String
  tibs : List Hdd
  operationIsCancelled : Bool
  /-- `none` where nothing is to be converted. -/
  convertHardware : Option PrlResult
  isBad : Bool
  mkdirHome : PrlResult
  escort : PrlResult
  checkFreeDiskSpace : PrlResult
  sendPkg : PrlResult
  fixHardWareList : PrlResult
  chown : PrlResult
  may : String → Site → Bool
  mayClear : String → Bool

namespace Vm

def make (v : Vm) (fs : Fs) (path_ : String) (mkdir : PrlResult) : PrlResult × Vm × Fs :=
  if path_ ∈ v.m_auto then (.success, v, fs)
  else
    let x := v.m_home == path_
    let e := assistMake fs path_ mkdir
    if !e.1.failed then (e.1, { v with m_auto := path_ :: v.m_auto }, e.2)
    else if !x && e.1 == .backupRestoreDirectoryAlreadyExist then (.success, v, e.2)
    else (e.1, v, e.2)

def createHome (v : Vm) (fs : Fs) (mkdir : PrlResult) : PrlResult × Vm × Fs :=
  v.make fs v.m_home mkdir

/-- `m_hddMap.insert`. -/
def insert (m_hddMap : List Hdd) (d : Hdd) : List Hdd :=
  m_hddMap.takeWhile (·.index < d.index) ++ d :: m_hddMap.dropWhile (·.index < d.index)

def add (v : Vm) (fs : Fs) (d : Hdd) : PrlResult × Vm × Fs :=
  if v.m_hddMap.any (·.index = d.index) then (.success, v, fs)
  else
    let e := v.make fs d.intermediate.absolutePath d.mkdir
    if e.1.failed then e
    else (.success, { e.2.1 with m_hddMap := insert e.2.1.m_hddMap d }, e.2.2)

/-- The loop over the components. -/
def addAll : List Hdd → Vm → Fs → PrlResult × Vm × Fs
  | [], v, fs => (.success, v, fs)
  | d :: tibs, v, fs =>
      let e := v.add fs d
      if e.1.failed then e else addAll tibs e.2.1 e.2.2

def restore : List Hdd → Fs → PrlResult × Fs
  | [], fs => (.success, fs)
  | d :: m_hddMap, fs =>
      if d.restore.failed then (d.restore, fs)
      else restore m_hddMap (made fs d.intermediate.absoluteFilePath .file)

/-- What `assemble` adds to the assembly. -/
def items (v : Vm) (dst_ : String) (may : String → Site → Bool) : List Item :=
  (v.m_hddMap.filter (·.final ≠ "")).map (fun d => ⟨true, d.intermediate, d.final, may d.final⟩) ++
    if v.m_home ∈ v.m_auto then [⟨false, ⟨v.m_home, v.m_home⟩, dst_, may dst_⟩] else []

/-- What is left to the destructor. -/
def leftover (v : Vm) : List String :=
  v.m_auto.filter fun p =>
    p ≠ v.m_home ∧ ∀ d ∈ v.m_hddMap, d.final ≠ "" → d.intermediate.absolutePath ≠ p

def assemble (v : Vm) (dst_ : String) (may : String → Site → Bool) (fs : Fs) :
    Assembly × Vm × Fs :=
  let a := build below (v.items dst_ may) fs
  (a.1, { v with m_auto := v.leftover }, a.2)

/-- The destructor. -/
def destroy (mayClear : String → Bool) (v : Vm) (fs : Fs) : Fs :=
  clearAll below mayClear v.m_auto fs

end Vm

/-- `restoreVmToTargetPath` up to `assemble`. -/
def fill (r : Request) (fs : Fs) : PrlResult × Vm × Fs :=
  let u : Vm := { m_home := r.m_sTargetPath }
  if r.operationIsCancelled then (.operationWasCanceled, u, fs)
  else if r.convertHardware.any (·.failed) then (r.convertHardware.getD .success, u, fs)
  else if r.isBad then (.backupRestoreInternalError, u, fs)
  else
    let e := u.createHome fs r.mkdirHome
    if e.1.failed then e
    else
      let e := Vm.addAll r.tibs e.2.1 e.2.2
      if e.1.failed then e
      else if r.escort.failed then (r.escort, e.2)
      else if r.checkFreeDiskSpace.failed then (r.checkFreeDiskSpace, e.2)
      else
        let x := Vm.restore e.2.1.m_hddMap e.2.2
        if x.1.failed then (x.1, e.2.1, x.2)
        else if r.sendPkg.failed then (r.sendPkg, e.2.1, x.2)
        else if r.fixHardWareList.failed then (r.fixHardWareList, e.2.1, x.2)
        else (.success, e.2.1, x.2)

def restoreVmToTargetPath (r : Request) (fs : Fs) : PrlResult × Option Assembly × Fs :=
  let e := fill r fs
  if e.1.failed then (e.1, none, e.2.1.destroy below r.mayClear e.2.2)
  else if r.chown.failed then
    (.backupRestoreInternalError, none, e.2.1.destroy below r.mayClear e.2.2)
  else
    let a := e.2.1.assemble below r.home r.may e.2.2
    (.success, some a.1, a.2.1.destroy below r.mayClear a.2.2)

end Target

namespace Ploop

/-- An image of the container, with the answers to the calls for it. -/
structure Image where
  m_final : String
  m_intermediate : QFileInfo
  mkdir : PrlResult
  /-- The query for the size. -/
  query : PrlResult
  make : Bool
  mount : PrlResult
  assist : PrlResult
  setEncryption : PrlResult

/-- A request to restore a container, with the answers to the calls. -/
structure Request where
  /-- The folder of the container. -/
  home : String
  m_sTargetPath : String
  imageList : List Image
  operationIsCancelled : Bool
  mkdirTarget : PrlResult
  /-- `PVM_CT_PLOOP_BACKUP`, else `PVM_CT_VZFS_BACKUP`. -/
  ploop : Bool
  getFiles : PrlResult
  create_env_private : Bool
  finish : PrlResult
  may : String → Site → Bool
  mayClear : String → Bool

namespace Image

/-- `join` has something to move. -/
def joins (i : Image) : Bool :=
  i.m_final != i.m_intermediate.absoluteFilePath

/-- `Image::do_`, with what `m_auto` becomes. -/
def do_ (i : Image) (fs : Fs) : PrlResult × String × Fs :=
  let a := i.m_intermediate.absolutePath
  let e := if i.joins then assistMake fs a i.mkdir else (.success, fs)
  let m_auto := if i.joins && !e.1.failed then a else ""
  if e.1.failed && e.1 != .backupRestoreDirectoryAlreadyExist then (e.1, m_auto, e.2)
  else if i.query.failed then (i.query, m_auto, e.2)
  else if !i.make then (.vmCreateHddImgInvalidCreate, m_auto, e.2)
  else
    let fs := made e.2 i.m_intermediate.absoluteFilePath .folder
    if i.mount.failed then (.diskMountFailed, m_auto, fs)
    else if i.assist.failed then (i.assist, m_auto, fs)
    else (i.setEncryption, m_auto, fs)

/-- What `join` adds to the assembly. -/
def item (may : String → Site → Bool) (i : Image) : Item :=
  ⟨true, i.m_intermediate, i.m_final, may i.m_final⟩

end Image

namespace Flavor

/-- The loop of `restore` over the images, with the folders made for them. -/
def restoreLoop : List Image → Fs → PrlResult × List String × Fs
  | [], fs => (.success, [], fs)
  | i :: rest, fs =>
      let e := i.do_ fs
      if e.1.failed then (e.1, [e.2.1], e.2.2)
      else
        let x := restoreLoop rest e.2.2
        (x.1, e.2.1 :: x.2.1, x.2.2)

def restore (r : Request) (fs : Fs) : PrlResult × List String × Fs :=
  if !r.create_env_private then (.backupRestoreInternalError, [], fs)
  else restoreLoop r.imageList fs

/-- What `assemble` adds to the assembly. -/
def items (r : Request) : List Item :=
  ⟨false, ⟨r.m_sTargetPath, r.m_sTargetPath⟩, r.home, r.may r.home⟩ ::
    (r.imageList.filter Image.joins).map (Image.item r.may)

end Flavor

/-- `Ct::operator()`; the images that are not joined remove what was made for them. -/
def ct (r : Request) (fs : Fs) : PrlResult × Option Assembly × Fs :=
  let e := Flavor.restore r fs
  let auto := e.2.1.filter (· ≠ "")
  if e.1.failed then (e.1, none, clearAll below r.mayClear auto e.2.2)
  else if r.finish.failed then (r.finish, none, clearAll below r.mayClear auto e.2.2)
  else
    let a := build below (Flavor.items r) e.2.2
    (.success, some a.1, a.2)

def restoreCtToTargetPath (r : Request) (fs : Fs) : PrlResult × Option Assembly × Fs :=
  if r.operationIsCancelled then (.operationWasCanceled, none, fs)
  else
    let e := assistMake fs r.m_sTargetPath r.mkdirTarget
    if e.1.failed then (e.1, none, e.2)
    else if !r.ploop then (.unimplemented, none, e.2)
    else
      let x : PrlResult × Option Assembly × Fs :=
        if r.getFiles.failed then (r.getFiles, none, e.2) else ct below r e.2
      if x.1.failed then (x.1, x.2.1, clearAll below r.mayClear [r.m_sTargetPath] x.2.2) else x

end Ploop

end Calls

end DispService.Restore
