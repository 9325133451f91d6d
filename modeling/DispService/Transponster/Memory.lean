import DispService.Transponster.Hardware
import Mathlib.Algebra.Order.Ring.Nat
import Mathlib.Tactic.Common

/-! The sizes of the memory, written into the domain XML and read back. -/
namespace DispService.Transponster

namespace Xml

/-- A number of type `ulong`; the unit is neither written nor read. -/
structure ScaledInteger where
  ownValue : UInt64 := 0
deriving DecidableEq

structure Memory where
  scaledInteger : ScaledInteger := {}
deriving DecidableEq

structure MaxMemory where
  scaledInteger : ScaledInteger := {}
  slots : UInt32 := 0
deriving DecidableEq

/-- The elements of a domain that hold sizes of its memory. -/
structure Domain where
  memory : Option Memory
  currentMemory : Option ScaledInteger
  maxMemory : Option MaxMemory
deriving DecidableEq

end Xml

/-- `new CVmMemory(other)`. -/
def CVmMemory.copy (other : Option CVmMemory) : CVmMemory :=
  other.getD ⟨0, 0, 0, 0, false⟩

/-- `Resources`, with the hardware of its configuration. A getter leaves the target as it is where
it returns `none`. -/
structure Resources where
  hardware : Option CVmHardware
deriving DecidableEq

namespace Resources

/-- The memory is replaced by a changed copy. -/
def updateMemory (r : Resources) (f : CVmMemory → CVmMemory) : Resources where
  hardware := r.hardware.map fun h => { h with memory := some (f (.copy h.memory)) }

def setMemory (r : Resources) (src : Xml.Memory) : Resources :=
  r.updateMemory fun m => { m with ramSize := (src.scaledInteger.ownValue >>> 10).toUInt32 }

/-- The shift is made in the 32 bits of the size. -/
def getMemory (r : Resources) (dst : Xml.Memory) : Option Xml.Memory := do
  let h ← r.hardware
  let m ← h.memory
  return { dst with scaledInteger := { ownValue := (m.ramSize <<< 10).toUInt64 } }

def setMaxMemory (r : Resources) (src : Xml.MaxMemory) : Resources :=
  r.updateMemory fun m =>
    { m with
      maxRamSize := (src.scaledInteger.ownValue >>> 10).toUInt32
      maxSlots := src.slots
      isEnableHotplug := true }

/-- Without hotplug the target is returned as it came. -/
def getMaxMemory (r : Resources) (dst : Xml.MaxMemory) : Option Xml.MaxMemory := do
  let h ← r.hardware
  let m ← h.memory
  if m.isEnableHotplug then
    let dst := { dst with scaledInteger := { ownValue := (m.maxRamSize <<< 10).toUInt64 } }
    return if m.maxSlots ≠ 0 then { dst with slots := m.maxSlots } else dst
  else return dst

def setCurrentMemory (r : Resources) (src : Xml.ScaledInteger) : Resources :=
  r.updateMemory fun m => { m with ramSize := (src.ownValue >>> 10).toUInt32 }

def getCurrentMemory (r : Resources) (dst : Xml.ScaledInteger) : Option Xml.ScaledInteger := do
  let h ← r.hardware
  let m ← h.memory
  return { dst with ownValue := (m.ramSize <<< 10).toUInt64 }

end Resources

inductive ResourcesResult where
  | success
  | uninitialized
  | badVmConfigFileSpecified
deriving DecidableEq, Repr

/-- `Vm::Reverse::Builder::setResources`, as far as the memory. -/
def Reverse.Builder.setResources (result : Option Xml.Domain) (input : Option CVmHardware) :
    ResourcesResult × Option Xml.Domain :=
  match result, input with
  | none, _ => (.uninitialized, none)
  | some d, none => (.badVmConfigFileSpecified, some d)
  | some d, some h =>
      let u : Resources := ⟨some h⟩
      let d := match u.getMemory {} with
        | some m => { d with memory := some m }
        | none => d
      let d := match u.getCurrentMemory {} with
        | some m => { d with currentMemory := some m }
        | none => d
      let d := match u.getMaxMemory {} with
        | some m => { d with maxMemory := some m }
        | none => d
      (.success, some d)

/-- `Vm::Direct::Vm::setResources`, as far as the memory. -/
def Direct.Vm.setResources (result : Option Resources) (input : Xml.Domain) :
    ResourcesResult × Option Resources :=
  match result with
  | none => (.uninitialized, none)
  | some r =>
      let r := match input.memory with
        | some m => r.setMemory m
        | none => r
      let r := match input.currentMemory with
        | some m => r.setCurrentMemory m
        | none => r
      let r := match input.maxMemory with
        | some m => r.setMaxMemory m
        | none => r
      (.success, some r)

/-- A size of the domain XML for a size in MiB and back. -/
def shifted (size : UInt32) : UInt32 :=
  ((size <<< 10).toUInt64 >>> 10).toUInt32

theorem shifted_toNat (size : UInt32) :
    (shifted size).toNat = size.toNat * 1024 % 2 ^ 32 / 1024 := by
  have hlt : size.toNat * 1024 % 2 ^ 32 < 2 ^ 32 := Nat.mod_lt _ (by decide)
  have hten : (10 : UInt32).toNat % 32 = 10 := rfl
  have hten' : (10 : UInt64).toNat % 64 = 10 := rfl
  rw [shifted, UInt64.toNat_toUInt32, UInt64.toNat_shiftRight, UInt32.toNat_toUInt64,
    UInt32.toNat_shiftLeft, hten, hten', Nat.shiftLeft_eq, Nat.shiftRight_eq_div_pow]
  exact Nat.mod_eq_of_lt (Nat.lt_of_le_of_lt (Nat.div_le_self _ _) hlt)

/-- A size comes back if it is below 4 TiB. -/
theorem shifted_eq_iff {size : UInt32} : shifted size = size ↔ size.toNat < 2 ^ 22 := by
  rw [← UInt32.toNat_inj, shifted_toNat]
  omega

variable {d : Xml.Domain} {cpu cpu' : Option CVmCpu} {m : CVmMemory} {memory : Option CVmMemory}

/-- The elements that are written for a memory. The one of the maximum is written always. -/
theorem build_memory : Reverse.Builder.setResources (some d) (some ⟨cpu, some m⟩) =
    (.success, some
      { memory := some ⟨⟨(m.ramSize <<< 10).toUInt64⟩⟩
        currentMemory := some ⟨(m.ramSize <<< 10).toUInt64⟩
        maxMemory := some
          (if m.isEnableHotplug then ⟨⟨(m.maxRamSize <<< 10).toUInt64⟩, m.maxSlots⟩ else {}) }) := by
  cases hhotplug : m.isEnableHotplug with
  | false => simp [Reverse.Builder.setResources, Resources.getMemory, Resources.getCurrentMemory,
      Resources.getMaxMemory, hhotplug]
  | true =>
    by_cases hslots : m.maxSlots = 0
    · simp [Reverse.Builder.setResources, Resources.getMemory, Resources.getCurrentMemory,
        Resources.getMaxMemory, hhotplug, hslots]
    · simp [Reverse.Builder.setResources, Resources.getMemory, Resources.getCurrentMemory,
        Resources.getMaxMemory, hhotplug, hslots]

/-- Written and read back, the memory is what it was. -/
def MemoryBack (d : Xml.Domain) (cpu : Option CVmCpu) (m : CVmMemory) (prototype : CVmHardware) :
    Prop :=
  ∃ d' h' m', Reverse.Builder.setResources (some d) (some ⟨cpu, some m⟩) = (.success, some d') ∧
    Direct.Vm.setResources (some ⟨some prototype⟩) d' = (.success, some ⟨some h'⟩) ∧
    h'.memory = some m' ∧ m'.ramSize = m.ramSize ∧ m'.isEnableHotplug = m.isEnableHotplug ∧
    (m.isEnableHotplug = true → m'.maxRamSize = m.maxRamSize ∧ m'.maxSlots = m.maxSlots)

/-- What is read: hotplug is always on. -/
theorem read_memory {max : Xml.MaxMemory} {size : UInt32} :
    Direct.Vm.setResources (some ⟨some ⟨cpu', memory⟩⟩)
        ⟨some ⟨⟨(size <<< 10).toUInt64⟩⟩, some ⟨(size <<< 10).toUInt64⟩, some max⟩ =
      (.success, some ⟨some ⟨cpu', some
        { CVmMemory.copy memory with
          ramSize := shifted size
          maxRamSize := (max.scaledInteger.ownValue >>> 10).toUInt32
          maxSlots := max.slots
          isEnableHotplug := true }⟩⟩) :=
  rfl

/-- The memory comes back just with hotplug and with sizes below 4 TiB. -/
theorem memoryBack_iff {prototype : CVmHardware} : MemoryBack d cpu m prototype ↔
    m.isEnableHotplug = true ∧ m.ramSize.toNat < 2 ^ 22 ∧ m.maxRamSize.toNat < 2 ^ 22 := by
  obtain ⟨cpu', memory⟩ := prototype
  rw [← shifted_eq_iff, ← shifted_eq_iff]
  constructor
  · rintro ⟨d', h', m', hbuild, hread, hm', hram, hhotplug, hmax⟩
    rw [build_memory] at hbuild
    cases hbuild
    rw [read_memory] at hread
    cases hread
    cases hm'
    have hon : m.isEnableHotplug = true := hhotplug.symm
    have hmax := (hmax hon).1
    rw [if_pos hon] at hmax
    exact ⟨hon, hram, hmax⟩
  · rintro ⟨hon, hram, hmax⟩
    refine ⟨_, _, _, build_memory, read_memory, rfl, hram, hon.symm, fun _ => ?_⟩
    rw [if_pos hon]
    exact ⟨hmax, rfl⟩

/-- Without hotplug, 1 GiB comes back with hotplug. -/
theorem memoryBack_unplugged : ¬ ∀ d cpu m prototype, MemoryBack d cpu m prototype := by
  intro h
  obtain ⟨d', h', m', hbuild, hread, hm', -, hhotplug, -⟩ :=
    h ⟨none, none, none⟩ none ⟨1024, 0, 0, 0, false⟩ ⟨none, none⟩
  rw [build_memory] at hbuild
  cases hbuild
  rw [read_memory] at hread
  cases hread
  cases hm'
  cases hhotplug

end DispService.Transponster
