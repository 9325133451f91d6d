import DispService.Transponster.Clustered
import Mathlib.Data.List.Count

/-! The addresses of disks on their buses, and the controllers that are made for them. -/
namespace DispService.Transponster

inductive EType9 where
  | ide
  | sata
deriving DecidableEq, Repr

/-- The bus of a controller: by its type, or SCSI of a model. -/
inductive VChoice5126 where
  | type (bus : EType9)
  | scsi (model : EModel)
deriving DecidableEq, Repr

structure Controller where
  index : UInt16
  choice5126 : VChoice5126
deriving DecidableEq, Repr

structure Driveaddress where
  controller : UInt16
  bus : Option UInt16 := none
  target : Option UInt16 := none
  unit : Option UInt16 := none
deriving DecidableEq, Repr

namespace Scsi

def MAX_TARGETS : UInt16 := 256

/-- The model is that of the factory. -/
structure Arrangement where
  m_device : UInt16 := 0
  m_controller : UInt16 := 0
  m_factory : EModel
deriving DecidableEq, Repr

/-- The address of the next device, and the list that the arrangements share. -/
def Arrangement.next (a : Arrangement) (controllers : List Controller) :
    Driveaddress × Arrangement × List Controller :=
  let t := a.m_device % MAX_TARGETS
  if t = 0 then
    let c := UInt16.ofNat controllers.length
    ({ controller := c, target := some t },
      { a with m_controller := c, m_device := a.m_device + 1 },
      controllers ++ [⟨c, .scsi a.m_factory⟩])
  else
    ({ controller := a.m_controller, target := some t },
      { a with m_device := a.m_device + 1 }, controllers)

structure Bus where
  m_hyperv : Arrangement := { m_factory := .hvScsi }
  m_virtio : Arrangement := { m_factory := .virtioScsi }
  m_controllers : List Controller := []
deriving DecidableEq, Repr

def Bus.next (b : Bus) : EModel → Driveaddress × Bus
  | .hvScsi =>
      let r := b.m_hyperv.next b.m_controllers
      (r.1, { b with m_hyperv := r.2.1, m_controllers := r.2.2 })
  | _ =>
      let r := b.m_virtio.next b.m_controllers
      (r.1, { b with m_virtio := r.2.1, m_controllers := r.2.2 })

end Scsi

structure Attachment where
  m_scsi : Scsi.Bus := {}
  m_controllers : List Controller := []
deriving DecidableEq, Repr

namespace Attachment

def IDE_UNITS : UInt32 := 2
def IDE_BUSES : UInt32 := 2
def SATA_UNITS : UInt32 := 6

variable (a : Attachment)

def craftIde (index_ : UInt32) : Driveaddress × Attachment :=
  let c := (index_ / IDE_UNITS / IDE_BUSES).toUInt16
  let b := (index_ / IDE_UNITS % IDE_BUSES).toUInt16
  let u := (index_ % IDE_UNITS).toUInt16
  ({ controller := c, bus := some b, unit := some u },
    if 0 < c ∧ u = 0 ∧ b = 0 then
      { a with m_controllers := a.m_controllers ++ [⟨c, .type .ide⟩] }
    else a)

def craftSata (index_ : UInt32) : Driveaddress × Attachment :=
  let c := (index_ / SATA_UNITS).toUInt16
  let u := (index_ % SATA_UNITS).toUInt16
  ({ controller := c, unit := some u },
    if 0 < c ∧ u = 0 then
      { a with m_controllers := a.m_controllers ++ [⟨c, .type .sata⟩] }
    else a)

def craftScsi (model_ : Option EModel) : Driveaddress × Attachment :=
  let r := a.m_scsi.next (model_.getD .auto)
  (r.1, { a with m_scsi := r.2 })

def getControllers : List Controller :=
  a.m_controllers ++ a.m_scsi.m_controllers

end Attachment

/-- `Boot::List`, with the address of each disk that it has built. -/
structure BootList where
  m_attachment : Attachment := {}
  m_deviceList : List (Clustered × Option Driveaddress) := []
deriving DecidableEq, Repr

namespace BootList

variable (l : BootList)

def put (m : Clustered) (r : Driveaddress × Attachment) : BootList :=
  ⟨r.2, l.m_deviceList ++ [(m, some r.1)]⟩

/-- A device that has no bus is not built by the source. -/
def build (m : Clustered) : BootList :=
  match m.getBus with
  | some .ide => l.put m (l.m_attachment.craftIde m.dataSource.stackIndex)
  | some .sata => l.put m (l.m_attachment.craftSata m.dataSource.stackIndex)
  | some .scsi => l.put m (l.m_attachment.craftScsi m.getScsiModel)
  | _ => { l with m_deviceList := l.m_deviceList ++ [(m, none)] }

def add (m : Clustered) : BootList :=
  if m.Added then l.build m else l

/-- The addresses, with their buses. -/
def addresses : List (Option EBus × Driveaddress) :=
  l.m_deviceList.filterMap fun x => x.2.map fun a => (x.1.getBus, a)

end BootList

/-- The model of the controllers that serve a model. -/
def Clustered.family (m : Clustered) : EModel :=
  match m.getScsiModel with
  | some .hvScsi => .hvScsi
  | _ => .virtioScsi

/-- Addresses are distinct, and refer to controllers that are there. -/
structure BootList.Addressed (l : BootList) : Prop where
  distinct : l.addresses.Nodup
  scsi : ∀ m a, (m, some a) ∈ l.m_deviceList → m.getBus = some .scsi →
    l.m_attachment.m_scsi.m_controllers[a.controller.toNat]? = some ⟨a.controller, .scsi m.family⟩
  targets : ∀ c, (l.addresses.filter fun x => x.1 = some .scsi ∧ x.2.controller = c).length ≤ 256
  positions : ∀ i (c : Controller), l.m_attachment.m_scsi.m_controllers[i]? = some c → c.index.toNat = i
  ide : ∀ m a, (m, some a) ∈ l.m_deviceList → m.getBus = some .ide → 0 < a.controller →
    l.m_attachment.getControllers.count ⟨a.controller, .type .ide⟩ = 1
  sata : ∀ m a, (m, some a) ∈ l.m_deviceList → m.getBus = some .sata → 0 < a.controller →
    l.m_attachment.getControllers.count ⟨a.controller, .type .sata⟩ = 1

/-- The disks of a bus, from the first to the last that is added. -/
def onBus (ms : List Clustered) (b : EBus) : List Clustered :=
  ms.filter fun m => m.Added ∧ m.getBus = some b

/-- Every controller with a number above 0 has a disk at its first place, and no index is so high
that its place comes twice. -/
structure Dense (units : Nat) (ms : List Clustered) : Prop where
  first : ∀ m ∈ ms, 0 < m.dataSource.stackIndex.toNat / units % 65536 →
    ∃ e ∈ ms, e.dataSource.stackIndex.toNat % units = 0 ∧
      e.dataSource.stackIndex.toNat / units % 65536 =
        m.dataSource.stackIndex.toNat / units % 65536
  near : ms.Pairwise fun m e => m.dataSource.stackIndex.toNat % (units * 65536) ≠
    e.dataSource.stackIndex.toNat % (units * 65536)

/-- The controllers that so many disks take. -/
def controllersOf (n : Nat) : Nat :=
  (n + 255) / 256

/-- The list has no gaps on IDE and SATA, and its SCSI controllers can be numbered. -/
structure Attachable (ms : List Clustered) : Prop where
  ide : Dense 4 (onBus ms .ide)
  sata : Dense 6 (onBus ms .sata)
  scsi : controllersOf ((onBus ms .scsi).countP fun m => m.family = .hvScsi) +
    controllersOf ((onBus ms .scsi).countP fun m => m.family ≠ .hvScsi) ≤ 65536

end DispService.Transponster
