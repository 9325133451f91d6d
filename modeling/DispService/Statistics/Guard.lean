import DispService.Lib.Reconcile
import DispService.Lib.Run
import Mathlib.Algebra.Order.Floor.Ring
import Mathlib.Data.Rat.Floor

/-! The statistics of the host as the collecting thread stores them: each list is brought in step
with a sample in a way of its own. -/
namespace DispService.Statistics
open Lib Lib.Reconcile

structure CpuStatInfo where
  m_nUser : UInt64
  m_nNice : UInt64
  m_nSystem : UInt64
  m_nIdle : UInt64
  m_nWait : UInt64

structure DiskPartStatInfo where
  m_sSystemName : String
  m_nTotalBytes : UInt64
  m_nFreeBytes : UInt64

structure DiskStatInfo extends DiskPartStatInfo where
  m_lstPartsStatInfo : List DiskPartStatInfo
  distinct : (m_lstPartsStatInfo.map (·.m_sSystemName)).Nodup

structure DisksStatInfo where
  m_lstDisksStatInfo : List DiskStatInfo
  distinct : (m_lstDisksStatInfo.map (·.m_sSystemName)).Nodup

inductive ProcessState where
  | run | sleep | stop | zombie | idle
  deriving DecidableEq

structure ProcStatInfo where
  m_sCommandName : String
  m_nId : UInt32
  m_sOwnerUser : String
  m_nTotalMemUsage : UInt64
  m_nRealMemUsage : UInt64
  m_nVirtMemUsage : UInt64
  m_nStartTime : UInt64
  m_nTotalTime : UInt64
  m_nUserTime : UInt64
  m_nSystemTime : UInt64
  m_nState : ProcessState

structure ProcsStatInfo where
  m_lstProcsStatInfo : List ProcStatInfo
  distinct : (m_lstProcsStatInfo.map (·.m_nId)).Nodup

structure CpuStatistics where
  userTime : UInt64 := 0
  systemTime : UInt64 := 0
  totalTime : UInt64 := 0
  percentsUsage : UInt64 := 0
  deriving DecidableEq

structure DiskPartStatistics where
  deviceSystemName : String
  usageDiskSpace : UInt64 := 0
  freeDiskSpace : UInt64 := 0

structure DiskStatistics extends DiskPartStatistics where
  partitions : List DiskPartStatistics := []

structure ProcInfoStatistics where
  procId : UInt32
  commandName : String := ""
  ownerUser : String := ""
  totalMemUsage : UInt64 := 0
  realMemUsage : UInt64 := 0
  virtualMemUsage : UInt64 := 0
  startTime : UInt64 := 0
  totalTime : UInt64 := 0
  userTime : UInt64 := 0
  systemTime : UInt64 := 0
  state : ProcessState := .stop
  percentsUsage : UInt32 := 0

structure HostStatistics where
  cpus : List CpuStatistics := []
  disks : List DiskStatistics := []
  processes : List ProcInfoStatistics := []

def CalcCpuTotalTime (pCpuStatInfo : CpuStatInfo) : UInt64 :=
  pCpuStatInfo.m_nUser + pCpuStatInfo.m_nNice + pCpuStatInfo.m_nSystem + pCpuStatInfo.m_nIdle +
    pCpuStatInfo.m_nWait

section Cpus

-- The share of the processor between two samples is computed in floating point.
variable (percents : CpuStatInfo → CpuStatInfo → UInt64)

def storeCpu (pPrevStat : Option (List CpuStatInfo)) (i : Nat) (pCpuStatInfo : CpuStatInfo)
    (pCpuStatistics : CpuStatistics) : CpuStatistics :=
  let timed := { pCpuStatistics with
    userTime := pCpuStatInfo.m_nUser / 1000
    systemTime := pCpuStatInfo.m_nSystem / 1000
    totalTime := CalcCpuTotalTime pCpuStatInfo / 1000 }
  match pPrevStat with
  | none => { timed with percentsUsage := 50 }
  | some prev =>
      match prev[i]? with
      | none => timed
      | some pPrevCpuStatInfo =>
          { timed with percentsUsage := percents pCpuStatInfo pPrevCpuStatInfo }

/-- The loop from index `i` on. The list grows and never shrinks. -/
def storeCpus (pPrevStat : Option (List CpuStatInfo)) :
    List CpuStatInfo → Nat → List CpuStatistics → List CpuStatistics
  | [], _, cpus => cpus
  | pCpuStatInfo :: rest, i, cpus =>
      let expanded := if cpus.length = i then cpus ++ [{}] else cpus
      storeCpus pPrevStat rest (i + 1) (expanded.modify i (storeCpu percents pPrevStat i pCpuStatInfo))

def StoreCpusStatInfo (pPrevStat : Option (List CpuStatInfo)) (pCurrStat : List CpuStatInfo)
    (stats : HostStatistics) : HostStatistics :=
  { stats with cpus := storeCpus percents pPrevStat pCurrStat 0 stats.cpus }

end Cpus

def storePartition (pDiskPartStatInfo : DiskPartStatInfo)
    (pDiskPartStatistics : DiskPartStatistics) : DiskPartStatistics :=
  { pDiskPartStatistics with
    usageDiskSpace := pDiskPartStatInfo.m_nTotalBytes - pDiskPartStatInfo.m_nFreeBytes
    freeDiskSpace := pDiskPartStatInfo.m_nFreeBytes }

def storeDisk (pDiskStatInfo : DiskStatInfo) (pDiskStatistics : DiskStatistics) :
    Option DiskStatistics :=
  (absorb (·.deviceSystemName) (fun name => { deviceSystemName := name })
    (·.m_sSystemName) (fun info part => some (storePartition info part))
    pDiskStatInfo.m_lstPartsStatInfo pDiskStatistics.partitions).map fun partitions =>
      { pDiskStatistics with
        usageDiskSpace := pDiskStatInfo.m_nTotalBytes - pDiskStatInfo.m_nFreeBytes
        freeDiskSpace := pDiskStatInfo.m_nFreeBytes
        partitions }

/-- The disks and partitions that the sample does not have stay in the lists. -/
def StoreDisksStatInfo (pDisksStatInfo : DisksStatInfo) (stats : HostStatistics) :
    Option HostStatistics :=
  (absorb (·.deviceSystemName) (fun name => { deviceSystemName := name })
    (·.m_sSystemName) storeDisk pDisksStatInfo.m_lstDisksStatInfo stats.disks).map fun disks =>
      { stats with disks }

/-- The product is one of 32-bit numbers. A division by zero ends the process. -/
def CalcPercentsUsage (nTotalTime nTotalTimePrev : UInt64) (nCpus nDeltaMs : UInt32) :
    Option UInt32 :=
  if nCpus = 0 ∨ nDeltaMs = 0 then some 0
  else if nDeltaMs * nCpus = 0 then none
  else some (100 * (nTotalTime - nTotalTimePrev) / (nDeltaMs * nCpus).toUInt64).toUInt32

section Processes

variable (nCpus nDeltaMs : UInt32)

def ProcStatPresents (pProcsStatInfo : ProcsStatInfo)
    (pProcInfoStatistics : ProcInfoStatistics) : Bool :=
  pProcsStatInfo.m_lstProcsStatInfo.any fun info => pProcInfoStatistics.procId == info.m_nId

def storeProc (pProcStatInfo : ProcStatInfo) (pProcInfoStatistics : ProcInfoStatistics) :
    Option ProcInfoStatistics :=
  let nTotalTimePrev := pProcInfoStatistics.totalTime
  (if nTotalTimePrev ≠ 0 then
    CalcPercentsUsage pProcStatInfo.m_nTotalTime nTotalTimePrev nCpus nDeltaMs
  else some 0).map fun nPercentsUsage =>
    { pProcInfoStatistics with
      percentsUsage := nPercentsUsage
      commandName := pProcStatInfo.m_sCommandName
      ownerUser := pProcStatInfo.m_sOwnerUser
      totalMemUsage := pProcStatInfo.m_nTotalMemUsage
      realMemUsage := pProcStatInfo.m_nRealMemUsage
      virtualMemUsage := pProcStatInfo.m_nVirtMemUsage
      startTime := pProcStatInfo.m_nStartTime
      totalTime := pProcStatInfo.m_nTotalTime
      userTime := pProcStatInfo.m_nUserTime
      systemTime := pProcStatInfo.m_nSystemTime
      state := pProcStatInfo.m_nState }

/-- The processes that the sample does not have are erased before the others are stored. -/
def StoreProcsStatInfo (pProcsStatInfo : ProcsStatInfo) (stats : HostStatistics) :
    Option HostStatistics :=
  (absorb (·.procId) (fun procId => { procId }) (·.m_nId) (storeProc nCpus nDeltaMs)
    pProcsStatInfo.m_lstProcsStatInfo
    (stats.processes.filter (ProcStatPresents pProcsStatInfo))).map fun processes =>
      { stats with processes }

end Processes

/-- A call of the collecting thread. The number of processors is read at each call. -/
inductive Sample where
  | cpus (pPrevStat : Option (List CpuStatInfo)) (pCurrStat : List CpuStatInfo)
  | disks (pDisksStatInfo : DisksStatInfo)
  | procs (pProcsStatInfo : ProcsStatInfo) (nCpus nDeltaMs : UInt32)

section Step

variable (percents : CpuStatInfo → CpuStatInfo → UInt64)

def store (sample : Sample) (stats : HostStatistics) : Option HostStatistics :=
  match sample with
  | .cpus pPrevStat pCurrStat => some (StoreCpusStatInfo percents pPrevStat pCurrStat stats)
  | .disks pDisksStatInfo => StoreDisksStatInfo pDisksStatInfo stats
  | .procs pProcsStatInfo nCpus nDeltaMs => StoreProcsStatInfo nCpus nDeltaMs pProcsStatInfo stats

def step (stats : Option HostStatistics) (sample : Sample) :
    Option HostStatistics :=
  stats.bind (store percents sample)

end Step

end DispService.Statistics
