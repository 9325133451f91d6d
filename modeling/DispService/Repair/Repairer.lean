import DispService.Repair.Devices

/-! The steps of `Repairer<untranslatable_types>`. -/
namespace DispService.Repair

structure HardDisk where
  systemName : String
  serialNumber : String := ""
  targetDeviceName : String := ""
  uuid : String := ""
  storageURL : String := ""
  size : Nat := 0
deriving DecidableEq, Repr

structure OpticalDisk where
  interfaceType : Nat
  stackIndex : Nat
  systemName : String := ""
  userFriendlyName : String := ""
  description : String := ""
  label : String := ""
deriving DecidableEq, Repr

structure FloppyDisk where
  targetDeviceName : String
  interfaceType : Nat := 0
  stackIndex : Nat := 0
  systemName : String := ""
  userFriendlyName : String := ""
  description : String := ""
deriving DecidableEq, Repr

structure NetworkAdapter where
  macAddress : String
  hostInterfaceName : String
  autoApply : Bool := false
  hostMacAddress : String := ""
  filterRef : String := ""
  preventIpSpoof : Bool := false
  preventMacSpoof : Bool := false
  preventPromisc : Bool := false
  firewall : String := ""
deriving DecidableEq, Repr

structure RemoteDisplay where
  mode : Nat
  hostName : String
  encrypted : Bool
  portNumber : Nat
  webSocketPortNumber : Nat
deriving DecidableEq, Repr

structure Identification where
  homePath : String
  creationDate : String
  sourceVmUuid : String
  vmUptimeStartDateTime : String
  linkedVmUuid : String
deriving DecidableEq, Repr

/-- The parts of `CVmConfiguration` that a step reads or writes; an object that is
copied as a whole stands as its text. -/
structure Config where
  identification : Identification
  osType : Nat
  osVersion : Nat
  defaultBackupDirectory : String
  runtimeOptions : String
  autoStart : Nat
  autoStartDelay : Nat
  autoStop : Nat
  bootDevices : List BootDevice
  cpu : String
  highAvailability : String
  clusterOptions : String
  remoteDisplay : Option RemoteDisplay
  hardDisks : List (Device HardDisk)
  opticalDisks : List (Device OpticalDisk)
  floppyDisks : List (Device FloppyDisk)
  networkAdapters : List (Device NetworkAdapter)
deriving DecidableEq

/-- `Virtuozzo::fromBase26`, and the folding of case in `Qt::CaseInsensitive`. -/
structure Text where
  fromBase26 : String → Nat
  fold : String → String

def HardDisk.found (needle item : Device HardDisk) : Bool :=
  if item.body.systemName = needle.body.systemName then true
  else if item.body.serialNumber = "" then
    decide (item.body.targetDeviceName ≠ "") &&
      decide (item.body.targetDeviceName = needle.body.targetDeviceName)
  else decide (item.body.serialNumber = needle.body.serialNumber)

def OpticalDisk.found (needle item : Device OpticalDisk) : Bool :=
  decide (item.body.stackIndex = needle.body.stackIndex) &&
    decide (item.body.interfaceType = needle.body.interfaceType)

/-- The number of a drive in a target such as "fda". -/
def Text.drive (text : Text) (target : String) : Nat :=
  text.fromBase26 (String.ofList (target.toList.drop 2))

def FloppyDisk.found (text : Text) (needle item : Device FloppyDisk) : Bool :=
  decide (item.index = text.drive needle.body.targetDeviceName)

def NetworkAdapter.found (text : Text) (needle item : Device NetworkAdapter) : Bool :=
  if item.body.macAddress ≠ "" ∧ needle.body.macAddress ≠ "" then
    decide (text.fold item.body.macAddress = text.fold needle.body.macAddress)
  else decide (item.body.hostInterfaceName = needle.body.hostInterfaceName)

/-- The first loop of `HardDisks::do_`. -/
def HardDisk.copy (h x : Device HardDisk) : Device HardDisk :=
  { h with body := { h.body with
      uuid := x.body.uuid, storageURL := x.body.storageURL,
      size := if h.body.size = 0 then x.body.size else h.body.size } }

def OpticalDisk.copy (h x : Device OpticalDisk) : Device OpticalDisk :=
  { h with body := { h.body with
      systemName := x.body.systemName, userFriendlyName := x.body.userFriendlyName,
      description := x.body.description, label := x.body.label } }

/-- If a filter is referred to, the stored packet filter is not taken. -/
def NetworkAdapter.copy (a x : Device NetworkAdapter) : Device NetworkAdapter :=
  let open_ := decide (a.body.filterRef = "")
  { a with body := { a.body with
      autoApply := x.body.autoApply, hostMacAddress := x.body.hostMacAddress,
      preventIpSpoof := if open_ then x.body.preventIpSpoof else a.body.preventIpSpoof,
      preventMacSpoof := if open_ then x.body.preventMacSpoof else a.body.preventMacSpoof,
      preventPromisc := if open_ then x.body.preventPromisc else a.body.preventPromisc,
      firewall := x.body.firewall } }

/-- `updateDisconnected`, for an optical drive. -/
def OpticalDisk.settle (d o : Device OpticalDisk) : Device OpticalDisk :=
  if o.connected then d
  else
    { d with
      connected := false
      body := { d.body with
        systemName := o.body.systemName, userFriendlyName := o.body.userFriendlyName,
        description := o.body.description } }

/-- `updateDisconnected`, for a floppy drive. -/
def FloppyDisk.settle (d o : Device FloppyDisk) : Device FloppyDisk :=
  if o.connected then d
  else
    { d with
      connected := false
      body := { d.body with
        systemName := o.body.systemName, userFriendlyName := o.body.userFriendlyName,
        description := o.body.description } }

def hardDisk : Kind HardDisk (String × String × String) where
  type := .hardDisk
  found := HardDisk.found
  copy := HardDisk.copy
  passes := [fun d => !d.connected, (·.disabled)]
  settle := fun d _ => d
  key := fun b => (b.systemName, b.serialNumber, b.targetDeviceName)

def opticalDisk : Kind OpticalDisk (Nat × Nat) where
  type := .opticalDisk
  found := OpticalDisk.found
  copy := OpticalDisk.copy
  passes := [(·.disabled)]
  settle := OpticalDisk.settle
  key := fun b => (b.interfaceType, b.stackIndex)

def floppyDisk (text : Text) : Kind FloppyDisk String where
  type := .floppyDisk
  found := FloppyDisk.found text
  copy := fun d _ => d
  passes := [(·.disabled)]
  settle := FloppyDisk.settle
  key := fun b => b.targetDeviceName

def networkAdapter (text : Text) : Kind NetworkAdapter (String × String) where
  type := .genericNetworkAdapter
  found := NetworkAdapter.found text
  copy := NetworkAdapter.copy
  passes := []
  settle := fun d _ => d
  key := fun b => (b.macAddress, b.hostInterfaceName)

abbrev Step := Config → Config → Config

def Identification.do_ : Step := fun new old => { new with identification := old.identification }

def OsInfo.do_ : Step := fun new old => { new with osType := old.osType, osVersion := old.osVersion }

def BackupDirectory.do_ : Step := fun new old =>
  { new with defaultBackupDirectory := old.defaultBackupDirectory }

def RuntimeOptions.do_ : Step := fun new old => { new with runtimeOptions := old.runtimeOptions }

/-- One `Config::Index::Device` of `Patch::Index::do_`: the new devices and the boot
list. -/
def Kind.index {κ : Type} {δ : Type} (k : Kind κ δ) (old new : List (Device κ))
    (boot : List BootDevice) : List (Device κ) × List BootDevice :=
  (sort (assigned k.found old new), redirect k.type boot new (assigned k.found old new))

def Index.do_ (text : Text) : Step := fun new old =>
  let hdd := hardDisk.index old.hardDisks new.hardDisks new.bootDevices
  let cdrom := opticalDisk.index old.opticalDisks new.opticalDisks hdd.2
  let floppy := (floppyDisk text).index old.floppyDisks new.floppyDisks cdrom.2
  let net := (networkAdapter text).index old.networkAdapters new.networkAdapters floppy.2
  { new with
    autoStart := old.autoStart, autoStartDelay := old.autoStartDelay, autoStop := old.autoStop,
    hardDisks := hdd.1, opticalDisks := cdrom.1, floppyDisks := floppy.1,
    networkAdapters := net.1, bootDevices := net.2 }

def Cpu.do_ : Step := fun new old => { new with cpu := old.cpu }

def NetworkDevices.do_ : Step := fun new old =>
  { new with networkAdapters :=
      copyFrom NetworkAdapter.copy old.networkAdapters new.networkAdapters }

def HardDisks.do_ : Step := fun new old =>
  let disks := copyFrom HardDisk.copy old.hardDisks new.hardDisks
  { new with hardDisks := addMissing (fun d => !d.connected) old.hardDisks disks }

def OpticalDisks.do_ : Step := fun new old =>
  { new with opticalDisks := copyFrom OpticalDisk.copy old.opticalDisks new.opticalDisks }

def State.do_ : Step := fun new old =>
  let floppies := addMissing (·.disabled) old.floppyDisks new.floppyDisks
  let cdroms := addMissing (·.disabled) old.opticalDisks new.opticalDisks
  { new with
    hardDisks := addMissing (·.disabled) old.hardDisks new.hardDisks,
    floppyDisks := copyFrom FloppyDisk.settle old.floppyDisks floppies,
    opticalDisks := copyFrom OpticalDisk.settle old.opticalDisks cdroms }

def HighAvailability.do_ : Step := fun new old =>
  { new with highAvailability := old.highAvailability, clusterOptions := old.clusterOptions }

def Pivot.do_ : Step := fun new old =>
  match old.remoteDisplay with
  | none => new
  | some x =>
      { new with remoteDisplay := new.remoteDisplay.map fun y =>
          { y with
            hostName := x.hostName, encrypted := x.encrypted, portNumber := x.portNumber,
            webSocketPortNumber := x.webSocketPortNumber } }

def untranslatableTypes (text : Text) : List Step :=
  [Identification.do_, OsInfo.do_, BackupDirectory.do_, RuntimeOptions.do_, Index.do_ text,
    Cpu.do_, NetworkDevices.do_, HardDisks.do_, OpticalDisks.do_, State.do_,
    HighAvailability.do_, Pivot.do_]

/-- `Repairer<untranslatable_types>`: the stored configuration is merged into the new one. -/
def repair (text : Text) (new old : Config) : Config :=
  (untranslatableTypes text).foldl (fun config step => step config old) new

/-- The last step does not touch the devices. -/
theorem Pivot.devices (new old : Config) :
    (Pivot.do_ new old).hardDisks = new.hardDisks ∧
    (Pivot.do_ new old).opticalDisks = new.opticalDisks ∧
    (Pivot.do_ new old).floppyDisks = new.floppyDisks ∧
    (Pivot.do_ new old).networkAdapters = new.networkAdapters := by
  unfold Pivot.do_
  cases old.remoteDisplay <;> exact ⟨rfl, rfl, rfl, rfl⟩

/-- Each class is merged on its own. -/
theorem repair_devices (text : Text) (new old : Config) :
    (repair text new old).hardDisks = hardDisk.merge old.hardDisks new.hardDisks ∧
    (repair text new old).opticalDisks = opticalDisk.merge old.opticalDisks new.opticalDisks ∧
    (repair text new old).floppyDisks = (floppyDisk text).merge old.floppyDisks new.floppyDisks ∧
    (repair text new old).networkAdapters =
      (networkAdapter text).merge old.networkAdapters new.networkAdapters := by
  obtain ⟨hhdd, hcdrom, hfloppy, hnet⟩ := Pivot.devices
    ((untranslatableTypes text).dropLast.foldl (fun config step => step config old) new) old
  refine ⟨hhdd.trans ?_, hcdrom.trans ?_, hfloppy.trans ?_, hnet.trans ?_⟩
  · exact copyFrom_id.symm
  · rfl
  · unfold Kind.merge floppyDisk
    rw [copyFrom_id]
    rfl
  · exact copyFrom_id.symm

end DispService.Repair
