import DispService.Transponster.Hardware
import Mathlib.Tactic.Common
import Mathlib.Algebra.Order.Ring.Int

/-! The tuning of the processors: the writer of the domain XML and its reader, with the numbers as
they are computed in 32 and 64 bits. -/
namespace DispService.Transponster

/-- A default period and the frequency of the host, of what is known of its virtual processors. -/
structure CVCpuInfo where
  defaultPeriod : UInt32
  mhz : UInt32
deriving DecidableEq

structure VtInfo where
  /-- The information of `QemuKvm`, if there is such a part and it has it. -/
  vCpuInfo : Option CVCpuInfo
  isGlobalCpuLimit : Bool
deriving DecidableEq

namespace Xml

/-- A `PCountCPU` is a number of 16 bits. -/
structure Vcpu where
  cpuset : Option String
  ownValue : UInt16
deriving DecidableEq

/-- The periods are of type `ulong`, the quotas of type `long`. -/
structure Cputune where
  shares : Option UInt32
  globalPeriod : Option Nat
  globalQuota : Option Int
  period : Option Nat
  quota : Option Int
deriving DecidableEq

inductive EMode8 where
  | strict
  | preferred
  | interleave
deriving DecidableEq, Repr

/-- A set of nodes, or the way to place them. -/
inductive VMemory where
  | nodeset (value : Option String)
  | placement
deriving DecidableEq

structure Memory1 where
  mode : Option EMode8
  memory : VMemory
deriving DecidableEq

structure Numatune where
  memory : Option Memory1
deriving DecidableEq

end Xml

inductive CpuResult where
  | success
  | uninitialized
  | noData
deriving DecidableEq, Repr

/-- What ends a step without a result. Unsigned arithmetic that wraps is told apart as well. -/
inductive Fault where
  | absent
  | divisionByZero
  | overflow
deriving DecidableEq, Repr

/-- The value that a `qint32` takes from a wider number. -/
def toQint32 (n : Int) : Int :=
  Int.bmod n (2 ^ 32)

/-- `static_cast<quint64>`. -/
def toQuint64 (n : Int) : Nat :=
  (n % 2 ^ 64).toNat

namespace Reverse

/-- `Vm::Reverse::Cpu`, as far as it writes the tuning. -/
structure Cpu where
  input : CVmCpu
  vt : VtInfo
  tune : Option Xml.Cputune
deriving DecidableEq

namespace Cpu

def new (input : CVmCpu) (vt : VtInfo) : Cpu where
  input := input
  vt := vt
  tune := if vt.vCpuInfo.isSome then some ⟨none, none, none, none, none⟩ else none

def setUnits (c : Cpu) : CpuResult × Cpu :=
  match c.tune, c.vt.vCpuInfo with
  | some t, some v =>
      let t :=
        if 0 ≠ c.input.cpuUnits then { t with shares := some (c.input.cpuUnits * 1024 / 1000) }
        else t
      let t :=
        if c.vt.isGlobalCpuLimit then
          { t with globalPeriod := some v.defaultPeriod.toNat, globalQuota := some (-1) }
        else { t with period := some v.defaultPeriod.toNat, quota := some (-1) }
      (.success, { c with tune := some t })
  | _, _ => (.uninitialized, c)

/-- The quota of all processors: the limit of the period, rounded up. -/
def quotaOf (l d : Int) (period : Nat) : Nat :=
  let p := toQuint64 l * period % 2 ^ 64
  (p + toQuint64 d + (2 ^ 64 - 1)) % 2 ^ 64 / toQuint64 d % 2 ^ 32

def setLimit (c : Cpu) : Except Fault (CpuResult × Cpu) :=
  let l := toQint32 c.input.cpuLimitValue.toNat
  if 0 = l then .ok (.success, c)
  else
    match c.tune, c.vt.vCpuInfo with
    | some t, some v =>
        let d := if c.input.cpuLimitType = .percents then 100 else v.mhz.toNat
        if d = 0 then .error .divisionByZero
        else
          let q := quotaOf l d v.defaultPeriod.toNat
          if c.vt.isGlobalCpuLimit then
            .ok (.success, { c with tune := some { t with globalQuota := some q } })
          else
            let n := (c.input.number * c.input.sockets).toNat
            if n = 0 then .error .divisionByZero
            else .ok (.success, { c with tune := some { t with quota := some (q / n : Nat) } })
    | _, _ => .ok (.uninitialized, c)

theorem setLimit_zero {c : Cpu} (h : toQint32 c.input.cpuLimitValue.toNat = 0) :
    c.setLimit = .ok (.success, c) := by
  unfold setLimit
  rw [if_pos h.symm]

end Cpu

end Reverse

namespace Direct

/-- `Vm::Direct::Cpu`. -/
structure Cpu where
  result : Option CVmCpu
  /-- A `qint32`. -/
  period : Option Int
  vcpu : Option Xml.Vcpu
  tune : Option Xml.Cputune
  numa : Option Xml.Numatune
deriving DecidableEq

namespace Cpu

def new (vcpu : Option Xml.Vcpu) (tune : Option Xml.Cputune) (numa : Option Xml.Numatune)
    (prototype : CVmCpu) (vt : VtInfo) : Cpu where
  result := some prototype
  period := vt.vCpuInfo.map fun v => toQint32 v.defaultPeriod.toNat
  vcpu := vcpu
  tune := tune
  numa := numa

def setMask (c : Cpu) : Except Fault (CpuResult × Cpu) :=
  match c.result with
  | none => .ok (.uninitialized, c)
  | some r =>
      match c.vcpu with
      | none => .ok (.noData, c)
      | some v =>
          match v.cpuset with
          | none => .ok (.success, c)
          | some cpuset => .ok (.success, { c with result := some { r with cpuMask := cpuset } })

/-- The set of nodes that is visited, or nothing. -/
def nodeset : Xml.VMemory → String
  | .nodeset (some mask) => mask
  | .nodeset none => ""
  | .placement => ""

/-- The guard reads the mode just where there is no memory, and without it the mode is read as
well. -/
def setNode (c : Cpu) : Except Fault (CpuResult × Cpu) :=
  match c.result with
  | none => .ok (.uninitialized, c)
  | some r =>
      match c.numa with
      | none => .ok (.success, c)
      | some numa =>
          match numa.memory with
          | none => .error .absent
          | some m =>
              match m.mode with
              | none => .error .absent
              | some mode =>
                  if mode = .strict then
                    .ok (.success, { c with result := some { r with nodeMask := nodeset m.memory } })
                  else .ok (.success, c)

def setUnits (c : Cpu) : Except Fault (CpuResult × Cpu) :=
  match c.result with
  | none => .ok (.uninitialized, c)
  | some r =>
      match c.tune.bind Xml.Cputune.shares with
      | none => .ok (.success, c)
      | some shares =>
          if shares.toNat * 1000 < 2 ^ 32 then
            .ok (.success, { c with result := some { r with cpuUnits := shares * 1000 / 1024 } })
          else .error .overflow

/-- The limit of a quota, in percents of the period. -/
def limitOf (q p : Int) : Except Fault UInt32 :=
  if q = -1 then .ok 0
  else if q * 100 < -2 ^ 31 ∨ 2 ^ 31 ≤ q * 100 then .error .overflow
  else if p = 0 then .error .divisionByZero
  else if q * 100 = -2 ^ 31 ∧ p = -1 then .error .overflow
  else .ok (.ofInt ((q * 100).tdiv p))

/-- Without a period in the domain XML, nothing is computed where there is a default one, and the
default one is read where there is none. -/
def setLimit (c : Cpu) : Except Fault (CpuResult × Cpu) :=
  match c.result with
  | none => .ok (.uninitialized, c)
  | some r =>
      match c.tune with
      | none => .ok (.success, c)
      | some t =>
          match t.quota with
          | none => .ok (.success, c)
          | some quota =>
              let q := toQint32 quota
              match t.period with
              | some period => do
                  let limit ← limitOf q (toQint32 period)
                  return (.success, { c with result := some { r with cpuLimit := limit } })
              | none =>
                  match c.period with
                  | some _ => .ok (.success, c)
                  | none => .error .absent

def setNumber (c : Cpu) : Except Fault (CpuResult × Cpu) :=
  match c.result with
  | none => .ok (.uninitialized, c)
  | some r =>
      match c.vcpu with
      | none => .ok (.noData, c)
      | some v =>
          .ok (.success,
            { c with result := some { r with number := v.ownValue.toUInt32, sockets := 1 } })

variable {c : Cpu} {t : Xml.Cputune}

/-- With a period in the domain XML, the limit is that of the quota. -/
theorem setLimit_period {r : CVmCpu} {quota : Int} {p : Nat} (hr : c.result = some r)
    (ht : c.tune = some t) (hq : t.quota = some quota) (hp : t.period = some p) :
    c.setLimit = (limitOf (toQint32 quota) (toQint32 p)).map fun limit =>
      (.success, { c with result := some { r with cpuLimit := limit } }) := by
  unfold setLimit
  simp only [hr, ht, hq, hp]
  cases limitOf (toQint32 quota) (toQint32 p) <;> rfl

/-- Setting the limit keeps the units. -/
theorem setLimit_units {o : CpuResult × Cpu} {r : CVmCpu} (h : c.setLimit = .ok o)
    (hr : c.result = some r) : ∃ r' ∈ o.2.result, r'.cpuUnits = r.cpuUnits := by
  cases htune : c.tune with
  | none =>
    simp only [setLimit, hr, htune, Except.ok.injEq] at h
    exact ⟨r, h ▸ hr, rfl⟩
  | some t =>
    cases hquota : t.quota with
    | none =>
      simp only [setLimit, hr, htune, hquota, Except.ok.injEq] at h
      exact ⟨r, h ▸ hr, rfl⟩
    | some quota =>
      cases hperiod : t.period with
      | some period =>
        rw [setLimit_period hr htune hquota hperiod] at h
        cases hlimit : limitOf (toQint32 quota) (toQint32 period) with
        | error fault => simp [hlimit, Except.map] at h
        | ok limit =>
          simp only [hlimit, Except.map, Except.ok.injEq] at h
          subst h
          exact ⟨_, rfl, rfl⟩
      | none =>
        cases hdefault : c.period with
        | none => simp [setLimit, hr, htune, hquota, hperiod, hdefault] at h
        | some period =>
          simp only [setLimit, hr, htune, hquota, hperiod, hdefault, Except.ok.injEq] at h
          exact ⟨r, h ▸ hr, rfl⟩

theorem setLimit_none (ht : c.tune.bind Xml.Cputune.quota = none) :
    c.setLimit = .ok (if c.result.isSome then .success else .uninitialized, c) := by
  unfold setLimit
  cases hr : c.result with
  | none => rfl
  | some r =>
    cases htune : c.tune with
    | none => rfl
    | some t =>
      rw [htune, Option.bind_some] at ht
      simp [ht]

end Cpu

end Direct

end DispService.Transponster
