import DispService.PrlResult

/-! The store of one VM configuration: the cache, the main file and the backup
file, written one after another by `Access::Mixed`. -/
namespace DispService.VmConfig

universe u

/-- A configuration file. A blank or damaged one does not load. -/
inductive File (γ : Type u) where
  | absent
  | broken
  | valid (config : γ)
deriving DecidableEq, Repr

namespace File

variable {γ : Type u}

/-- `QFile::exists`. -/
def exists_ : File γ → Bool
  | absent => false
  | _ => true

/-- `loadFromFile`. -/
def load : File γ → Option γ
  | valid c => some c
  | _ => none

end File

/-- What becomes of a write. One that fails leaves the file alone or breaks it. -/
inductive Write where
  | written
  | refused
  | spoiled
deriving DecidableEq, Repr

/-- What becomes of the file operations of one request. -/
structure Outcomes where
  /-- `CreateBlankFile` of the backup. -/
  createBackup : Bool := true
  writeBackup : Write := .written
  writeMain : Write := .written
  setOwner : Bool := true
  /-- The user of a restore is the owner of the VM. -/
  owner : Bool := true
  /-- `CreateBlankFile` of the main file. -/
  createMain : Bool := true
  setPermissions : Bool := true
  /-- The removal inside `PRL_ASSERT` takes place. -/
  remove : Bool := false
deriving DecidableEq, Repr

/-- `Mixed` for one path. -/
structure Store (γ : Type u) where
  cache : Option γ := none
  main : File γ := .absent
  backup : File γ := .absent
deriving DecidableEq, Repr

variable {γ : Type u}

/-- `saveToFile`. -/
def saveToFile (config : γ) (w : Write) (f : File γ) : PrlResult × File γ :=
  match w with
  | .written => (.success, .valid config)
  | .refused => (.failure, f)
  | .spoiled => (.failure, .broken)

/-- `Work::saveConfig`: a new file gets its owner after its content. -/
def saveConfig (config : γ) (w : Write) (setOwner : Bool) (f : File γ) : PrlResult × File γ :=
  let r := saveToFile config w f
  if r.1.failed then r
  else if !f.exists_ && !setOwner then (.cantChangeOwnerOfFile, r.2)
  else r

namespace Backup

/-- `Backup::prepareTarget`; `none` when there is no file to write to. -/
def prepareTarget (o : Outcomes) (f : File γ) : Option (File γ) :=
  if f.exists_ then some f
  else if o.createBackup then some .broken
  else none

/-- What `Mixed::save` does to the backup, its errors only traced. -/
def save (config : γ) (o : Outcomes) (f : File γ) : File γ :=
  match prepareTarget o f with
  | none => f
  | some f => (saveConfig config o.writeBackup o.setOwner f).2

end Backup

namespace Store

section

-- `isConfigCacheEnabled`
variable (enabled : Bool)

def updateCache (config : Option γ) (s : Store γ) : Store γ :=
  if enabled then { s with cache := config } else s

def getFromCache (s : Store γ) : Option γ :=
  if enabled then s.cache else none

def forget (s : Store γ) : Store γ :=
  s.updateCache enabled none

def load (direct : Bool) (s : Store γ) : (PrlResult × Option γ) × Store γ :=
  let disk := match s.main.load with
    | some c => ((PrlResult.success, some c), s.updateCache enabled (some c))
    | none => ((PrlResult.parseVmConfig, none), s.forget enabled)
  if direct then disk
  else
    match s.getFromCache enabled with
    | some c => ((.success, some c), s)
    | none => disk

def save (config : γ) (o : Outcomes) (s : Store γ) : PrlResult × Store γ :=
  let s := { s with backup := Backup.save config o s.backup }
  let r := saveConfig config o.writeMain o.setOwner s.main
  let s := { s with main := r.2 }
  if r.1.failed then (r.1, s) else (r.1, s.updateCache enabled (some config))

/-- `Restore::prepareSource`, with the configuration it loads. -/
def prepareSource (s : Store γ) : PrlResult × Option γ :=
  match s.main.load with
  | some _ => (.vmConfigIsAlreadyValid, none)
  | none =>
      match s.backup.load with
      | none => (.fileNotFound, none)
      | some c => (if s.main.exists_ then .success else .noVmDirConfigFound, some c)

/-- `Restore::prepareTarget` for a main file that is not there. -/
def prepareTarget (o : Outcomes) (s : Store γ) : PrlResult × Store γ :=
  if !o.createMain then (.failure, s)
  else if !o.setPermissions then
    -- the removal is the argument of an assertion
    (.cantChangeFilePermissions, { s with main := if o.remove then .absent else .broken })
  else (.success, { s with main := .broken })

/-- `Restore::operator()`. -/
def rewrite (config : γ) (o : Outcomes) (s : Store γ) : PrlResult × Store γ :=
  let r := saveConfig config o.writeMain o.setOwner s.main
  let s := { s with main := r.2 }
  if r.1.failed then (r.1, s) else (r.1, s.updateCache enabled (some config))

def restore (o : Outcomes) (s : Store γ) : PrlResult × Store γ :=
  match s.prepareSource with
  | (.noVmDirConfigFound, some c) =>
      if !o.owner then (.unimplemented, s)
      else
        let r := s.prepareTarget o
        if r.1.failed then r else r.2.rewrite enabled c o
  | (.success, some c) => s.rewrite enabled c o
  | (e, _) => (e, s)

end

/-- `Mixed::canRestore`. -/
def canRestore (s : Store γ) : Bool :=
  s.backup.load.isSome

end Store

end DispService.VmConfig
