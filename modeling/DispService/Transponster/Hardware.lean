import Mathlib.Tactic.Common

/-! The processor and the memory of a configuration, as far as the domain XML is made of them. -/
namespace DispService.Transponster

inductive PrlCpulimitType where
  | mhz
  | percents
deriving DecidableEq, Repr, Inhabited

structure CVmCpu where
  /-- The cores of a socket. -/
  number : UInt32
  sockets : UInt32
  cpuUnits : UInt32
  /-- In percents. -/
  cpuLimit : UInt32
  cpuLimitType : PrlCpulimitType
  cpuLimitValue : UInt32
  cpuMask : String
  nodeMask : String
  numaNodes : UInt32
  isEnableHotplug : Bool
deriving DecidableEq, Inhabited

/-- The sizes are in MiB. -/
structure CVmMemory where
  ramSize : UInt32
  maxRamSize : UInt32
  maxSlots : UInt32
  maxNumaRamSize : UInt32
  isEnableHotplug : Bool
deriving DecidableEq

structure CVmHardware where
  cpu : Option CVmCpu
  memory : Option CVmMemory
deriving DecidableEq

end DispService.Transponster
