import Mathlib.Data.List.Basic
import DispService.PrlResult

/-! The VM directory catalogue and the operations that change its directories and
their items. Each call works under the lock of the catalogue. -/
namespace DispService.Directory

structure CVmDirectoryItem where
  vmUuid : String
  vmName : String
  vmHome : String
  deriving DecidableEq, Repr

/-- An entry of the temporary catalogue: the parameters of a VM that is being
worked on. -/
structure TemporaryCatalogueItem where
  vmUuid : String
  vmXmlPath : String
  vmName : String
  sItemId : String
  deriving DecidableEq, Repr

/-- A temporary entry and its history, which no operation reads: whether
`checkAndLockNotExists` admitted it. -/
structure TemporaryEntry where
  item : TemporaryCatalogueItem
  admitted : Bool
  deriving DecidableEq, Repr

structure CVmDirectory where
  uuid : String
  items : List CVmDirectoryItem
  temporaryCatalogue : List TemporaryEntry
  deriving DecidableEq, Repr

structure CVmDirectories where
  directories : List CVmDirectory
  /-- The uuids of the directories that are never saved. -/
  ephemeral : List String
  /-- What was last saved: the directories with their items. -/
  file : List (String × List CVmDirectoryItem)
  deriving DecidableEq, Repr

/-- The calls into the XML model, with what their callers rely on. -/
structure XmlModel where
  /-- The position of a directory, from the uuids of all. -/
  getVmDirectoryByUuid : List String → String → Option Nat
  addVmDirectory : List CVmDirectory → CVmDirectory → List CVmDirectory
  addVmDirectoryItem : List CVmDirectoryItem → CVmDirectoryItem → List CVmDirectoryItem
  addVmDirectory_eq : ∀ ds d, addVmDirectory ds d = ds ++ [d]
  addVmDirectoryItem_eq : ∀ items item, addVmDirectoryItem items item = items ++ [item]

/-- A model that finds the first directory with the uuid. -/
def firstXml : XmlModel where
  getVmDirectoryByUuid uuids uuid := uuids.findIdx? fun u => u = uuid
  addVmDirectory ds d := ds ++ [d]
  addVmDirectoryItem items item := items ++ [item]
  addVmDirectory_eq _ _ := rfl
  addVmDirectoryItem_eq _ _ := rfl

namespace CVmDirectories

variable (xml : XmlModel)

def getVmDirectory (s : CVmDirectories) (dirUuid : String) : Option (Nat × CVmDirectory) := do
  let i ← xml.getVmDirectoryByUuid (s.directories.map CVmDirectory.uuid) dirUuid
  let d ← s.directories[i]?
  return (i, d)

def modifyDirectory (s : CVmDirectories) (i : Nat) (f : CVmDirectory → CVmDirectory) :
    CVmDirectories :=
  { s with directories := s.directories.modify i f }

def modifyItems (s : CVmDirectories) (i : Nat)
    (f : List CVmDirectoryItem → List CVmDirectoryItem) : CVmDirectories :=
  s.modifyDirectory i fun d => { d with items := f d.items }

theorem getElem?_modifyDirectory (s : CVmDirectories) (i j : Nat) (f : CVmDirectory → CVmDirectory) :
    (s.modifyDirectory i f).directories[j]? =
      (s.directories[j]?).map fun d => if i = j then f d else d :=
  List.getElem?_modify f i s.directories j

theorem getVmDirectory_eq_some {xml : XmlModel} {s : CVmDirectories} {dirUuid : String} {i : Nat}
    {d : CVmDirectory} :
    s.getVmDirectory xml dirUuid = some (i, d) ↔
      xml.getVmDirectoryByUuid (s.directories.map CVmDirectory.uuid) dirUuid = some i ∧
        s.directories[i]? = some d := by
  unfold getVmDirectory
  simp only [Option.bind_eq_bind, Option.bind_eq_some_iff, Option.pure_def, Option.some.injEq,
    Prod.mk.injEq]
  constructor
  · rintro ⟨j, hget, e, he, rfl, rfl⟩
    exact ⟨hget, he⟩
  · rintro ⟨hget, hd⟩
    exact ⟨i, hget, d, hd, rfl, rfl⟩

theorem getElem?_of_getVmDirectory {xml : XmlModel} {s : CVmDirectories} {dirUuid : String}
    {i : Nat} {d : CVmDirectory} (h : s.getVmDirectory xml dirUuid = some (i, d)) :
    s.directories[i]? = some d :=
  (getVmDirectory_eq_some.mp h).2

/-- What a save writes. -/
def persistent (s : CVmDirectories) : List (String × List CVmDirectoryItem) :=
  (s.directories.filter fun d => d.uuid ∉ s.ephemeral).map fun d => (d.uuid, d.items)

/-- `saveToFile` tells whether the file can be written. -/
def saveVmDirCatalogue (saveToFile : Bool) (s : CVmDirectories) : PrlResult × CVmDirectories :=
  if saveToFile then (.success, { s with file := s.persistent }) else (.saveVmCatalog, s)

@[simp] theorem directories_saveVmDirCatalogue (saveToFile : Bool) (s : CVmDirectories) :
    (saveVmDirCatalogue saveToFile s).2.directories = s.directories := by
  cases saveToFile with
  | true => rfl
  | false => rfl

def addNewVmDirectory (saveToFile : Bool) (s : CVmDirectories) :
    Option CVmDirectory → PrlResult × CVmDirectories
  | none => (.invalidParam, s)
  | some pVmDir =>
      if (s.getVmDirectory xml pVmDir.uuid).isSome then
        (.vmDirConfigAlreadyExists, s)
      else
        saveVmDirCatalogue saveToFile
          { s with directories := xml.addVmDirectory s.directories pVmDir }

def addVmDirItem (saveToFile : Bool) (s : CVmDirectories) (dirUuid : String) :
    Option CVmDirectoryItem → PrlResult × CVmDirectories
  | none => (.invalidParam, s)
  | some pVmDirItem =>
      match s.getVmDirectory xml dirUuid with
      | none => (.vmDirectoryNotExist, s)
      | some (i, d) =>
          if ∃ item ∈ d.items, item.vmUuid = pVmDirItem.vmUuid then
            (.entryAlreadyExists, s)
          else
            let s := s.modifyItems i fun items => xml.addVmDirectoryItem items pVmDirItem
            let (res, s) := saveVmDirCatalogue saveToFile s
            if res.failed then
              -- pointers are compared here; no other item has the uuid of the new one
              (res, s.modifyItems i fun items => items.erase pVmDirItem)
            else
              (res, s)

def deleteVmDirItem (saveToFile : Bool) (s : CVmDirectories) (dirUuid vmUuid : String) :
    PrlResult × CVmDirectories :=
  match s.getVmDirectory xml dirUuid with
  | none => (.vmDirectoryNotExist, s)
  | some (i, d) =>
      match d.items.find? fun item => item.vmUuid = vmUuid with
      | none => (.entryDoesNotExist, s)
      | some pItem =>
          let s := s.modifyItems i fun items => items.eraseP fun item => item.vmUuid = vmUuid
          let (res, s) := saveVmDirCatalogue saveToFile s
          if res.failed then
            (res, s.modifyItems i fun items => xml.addVmDirectoryItem items pItem)
          else
            (res, s)

end CVmDirectories

end DispService.Directory

/-! The temporary entries that keep VM parameters from being taken twice. -/
namespace DispService.Directory

namespace CVmDirectories

variable (xml : XmlModel) (isPathsEqual : String → String → Bool)

/-- The errors of one registered item. -/
def itemErrors (lockItem : TemporaryCatalogueItem) (item : CVmDirectoryItem) : List PrlResult :=
  (if lockItem.vmUuid ≠ "" ∧ lockItem.vmUuid = item.vmUuid then
    [.vmAlreadyRegisteredVmUuid] else []) ++
  (if lockItem.vmName ≠ "" ∧ item.vmName = lockItem.vmName then
    [.vmAlreadyRegisteredVmName] else []) ++
  (if lockItem.vmXmlPath ≠ "" ∧ item.vmHome ≠ "" ∧
      isPathsEqual item.vmHome lockItem.vmXmlPath then
    [.vmAlreadyRegisteredVmPath] else [])

/-- The loop over the registered items: the errors it throws, none when it ends. All
errors are collected only when the caller takes a list of them. -/
def checkItems (collect : Bool) (lockItem : TemporaryCatalogueItem) :
    List PrlResult → List CVmDirectoryItem → List PrlResult
  | errorList, [] => errorList
  | errorList, item :: items =>
      let errorList := errorList ++ itemErrors isPathsEqual lockItem item
      if errorList ≠ [] ∧ lockItem.vmUuid = item.vmUuid ∧
          isPathsEqual item.vmHome lockItem.vmXmlPath ∧ item.vmName = lockItem.vmName then
        [.vmAlreadyRegistered]
      else if !collect ∧ errorList ≠ [] then
        errorList
      else
        checkItems collect lockItem errorList items

/-- The test against one temporary entry. -/
def isLocked (lockItem item : TemporaryCatalogueItem) : Bool :=
  (lockItem.vmUuid ≠ "" ∧ lockItem.vmUuid = item.vmUuid) ∨
    (lockItem.vmXmlPath ≠ "" ∧ isPathsEqual lockItem.vmXmlPath item.vmXmlPath) ∨
    (lockItem.vmName ≠ "" ∧ lockItem.vmName = item.vmName)

def pushTemporary (s : CVmDirectories) (i : Nat) (entry : TemporaryEntry) : CVmDirectories :=
  s.modifyDirectory i fun d => { d with temporaryCatalogue := d.temporaryCatalogue ++ [entry] }

/-- The list of errors, whose first is the result; success is the empty list. -/
def checkAndLockNotExistsExclusiveVmParameters (collect : Bool) (s : CVmDirectories)
    (dirUuid : String) (lockItem : TemporaryCatalogueItem) : List PrlResult × CVmDirectories :=
  match s.getVmDirectory xml dirUuid with
  | none => ([.vmDirectoryNotExist], s)
  | some (i, d) =>
      match checkItems isPathsEqual collect lockItem [] d.items with
      | error :: errorList => (error :: errorList, s)
      | [] =>
          if d.temporaryCatalogue.any fun entry => isLocked isPathsEqual lockItem entry.item then
            ([.vmAlreadyRegisteredUniqueParams], s)
          else
            ([], s.pushTemporary i ⟨lockItem, true⟩)

/-- Only the uuid is compared. -/
def uuidIsLocked (d : CVmDirectory) (lockItem : TemporaryCatalogueItem) : Bool :=
  d.temporaryCatalogue.any fun entry =>
    lockItem.vmUuid ≠ "" ∧ lockItem.vmUuid = entry.item.vmUuid

def lockExistingExclusiveVmParameters (s : CVmDirectories) (dirUuid : String)
    (lockItem : TemporaryCatalogueItem) : PrlResult × CVmDirectories :=
  match s.getVmDirectory xml dirUuid with
  | none => (.vmDirectoryNotExist, s)
  | some (i, d) =>
      if ¬ ∃ item ∈ d.items, lockItem.vmUuid = item.vmUuid then
        (.vmUuidNotFound, s)
      else if uuidIsLocked d lockItem then
        (.vmAlreadyRegisteredUniqueParams, s)
      else
        (.success, s.pushTemporary i ⟨lockItem, false⟩)

def lockExclusiveVmParameters (s : CVmDirectories) (dirUuid : String)
    (lockItem : TemporaryCatalogueItem) : PrlResult × CVmDirectories :=
  match s.getVmDirectory xml dirUuid with
  | none => (.vmDirectoryNotExist, s)
  | some (i, d) =>
      if uuidIsLocked d lockItem then
        (.vmAlreadyRegisteredUniqueParams, s)
      else
        (.success, s.pushTemporary i ⟨lockItem, false⟩)

/-- The first entry with the item's id is removed. -/
def unlockExclusiveVmParameters (s : CVmDirectories) (dirUuid : String)
    (lockItem : TemporaryCatalogueItem) : CVmDirectories :=
  match s.getVmDirectory xml dirUuid with
  | none => s
  | some (i, _) =>
      s.modifyDirectory i fun d =>
        { d with temporaryCatalogue :=
            d.temporaryCatalogue.eraseP fun entry => entry.item.sItemId = lockItem.sItemId }

/-- The overload for all directories. -/
def unlockInAll (s : CVmDirectories) (lockItem : TemporaryCatalogueItem) : CVmDirectories :=
  s.directories.foldl (fun s d => unlockExclusiveVmParameters xml s d.uuid lockItem) s

/-- The loop of the overload for a list of directories; an empty list means all. -/
def checkAndLockLoop (collect : Bool) (lstDirUuid : List String)
    (lockItem : TemporaryCatalogueItem) :
    List CVmDirectory → CVmDirectories → List PrlResult × CVmDirectories
  | [], s => ([], s)
  | d :: ds, s =>
      if lstDirUuid ≠ [] ∧ d.uuid ∉ lstDirUuid then
        checkAndLockLoop collect lstDirUuid lockItem ds s
      else
        match checkAndLockNotExistsExclusiveVmParameters xml isPathsEqual collect s d.uuid
            lockItem with
        | ([], s) => checkAndLockLoop collect lstDirUuid lockItem ds s
        | (errorList, s) => (errorList, unlockInAll xml s lockItem)

def checkAndLockInList (collect : Bool) (s : CVmDirectories) (lstDirUuid : List String)
    (lockItem : TemporaryCatalogueItem) : List PrlResult × CVmDirectories :=
  checkAndLockLoop xml isPathsEqual collect lstDirUuid lockItem s.directories s

end CVmDirectories

end DispService.Directory
