import DispService.Statistics.Guard
import Mathlib.Data.List.Nodup

/-! After each call the stored list is the sample, and the share of a process is the one of its two
latest samples, in every run whose samples drop no processor and no disk and whose products stay
within their types. -/
namespace DispService.Statistics
open Lib Lib.Reconcile

def CpuStatInfo.times (info : CpuStatInfo) : UInt64 × UInt64 × UInt64 :=
  (info.m_nUser / 1000, info.m_nSystem / 1000, CalcCpuTotalTime info / 1000)

def CpuStatistics.times (stat : CpuStatistics) : UInt64 × UInt64 × UInt64 :=
  (stat.userTime, stat.systemTime, stat.totalTime)

def DiskPartStatInfo.Carried (info : DiskPartStatInfo) (stat : DiskPartStatistics) : Prop :=
  stat.deviceSystemName = info.m_sSystemName ∧
    stat.usageDiskSpace = info.m_nTotalBytes - info.m_nFreeBytes ∧
    stat.freeDiskSpace = info.m_nFreeBytes

/-- One entry for each element of the sample, in any order. -/
def Pairs {α β : Type} (carried : α → β → Prop) (sample : List α) (stored : List β) : Prop :=
  ∃ entry : α → β, stored.Perm (sample.map entry) ∧ ∀ info ∈ sample, carried info (entry info)

def DiskStatInfo.Carried (info : DiskStatInfo) (stat : DiskStatistics) : Prop :=
  info.toDiskPartStatInfo.Carried stat.toDiskPartStatistics ∧
    Pairs DiskPartStatInfo.Carried info.m_lstPartsStatInfo stat.partitions

def ProcStatInfo.values (info : ProcStatInfo) :=
  (info.m_nId, info.m_sCommandName, info.m_sOwnerUser, info.m_nTotalMemUsage, info.m_nRealMemUsage,
    info.m_nVirtMemUsage, info.m_nStartTime, info.m_nTotalTime, info.m_nUserTime,
    info.m_nSystemTime, info.m_nState)

def ProcInfoStatistics.values (stat : ProcInfoStatistics) :=
  (stat.procId, stat.commandName, stat.ownerUser, stat.totalMemUsage, stat.realMemUsage,
    stat.virtualMemUsage, stat.startTime, stat.totalTime, stat.userTime,
    stat.systemTime, stat.state)

/-- The share of the interval on all processors. -/
def share (before now : UInt64) (nCpus nDeltaMs : UInt32) : ℤ :=
  ⌊(100 * ((now.toNat : ℚ) - before.toNat)) / (nDeltaMs.toNat * nCpus.toNat)⌋

/-- A process with an entry in the stored list gets the share of its two samples. -/
def ProcStatInfo.Carried (nCpus nDeltaMs : UInt32) (stored : List ProcInfoStatistics)
    (info : ProcStatInfo) (stat : ProcInfoStatistics) : Prop :=
  stat.values = info.values ∧
    ∀ earlier ∈ stored, earlier.procId = info.m_nId →
      (stat.percentsUsage.toNat : ℤ) = share earlier.totalTime info.m_nTotalTime nCpus nDeltaMs

def Reconciled (before : HostStatistics) (sample : Sample) (after : HostStatistics) : Prop :=
  match sample with
  | .cpus _ pCurrStat =>
      after = { before with cpus := after.cpus } ∧
        after.cpus.map CpuStatistics.times = pCurrStat.map CpuStatInfo.times
  | .disks pDisksStatInfo =>
      after = { before with disks := after.disks } ∧
        Pairs DiskStatInfo.Carried pDisksStatInfo.m_lstDisksStatInfo after.disks
  | .procs pProcsStatInfo nCpus nDeltaMs =>
      after = { before with processes := after.processes } ∧
        Pairs (ProcStatInfo.Carried nCpus nDeltaMs before.processes)
          pProcsStatInfo.m_lstProcsStatInfo after.processes

/-- The share is computed without a wrap of a product or of the difference. -/
def Exact (nCpus nDeltaMs : UInt32) (before now : UInt64) : Prop :=
  nCpus = 0 ∨ nDeltaMs = 0 ∨
    if before = 0 then 100 * now.toNat < nDeltaMs.toNat * nCpus.toNat
    else before ≤ now ∧ 100 * (now.toNat - before.toNat) < 2 ^ 64 ∧
      nDeltaMs.toNat * nCpus.toNat < 2 ^ 32 ∧
      100 * (now.toNat - before.toNat) / (nDeltaMs.toNat * nCpus.toNat) < 2 ^ 32

/-- The sample has an element for each stored processor, disk and partition, and no process makes
the share wrap. -/
def Fit (before : HostStatistics) : Sample → Prop
  | .cpus _ pCurrStat => before.cpus.length ≤ pCurrStat.length
  | .disks pDisksStatInfo =>
      (before.disks.map (·.deviceSystemName)).Nodup ∧
        ∀ disk ∈ before.disks, ∃ info ∈ pDisksStatInfo.m_lstDisksStatInfo,
          info.m_sSystemName = disk.deviceSystemName ∧
            (disk.partitions.map (·.deviceSystemName)).Nodup ∧
            ∀ part ∈ disk.partitions,
              part.deviceSystemName ∈ info.m_lstPartsStatInfo.map (·.m_sSystemName)
  | .procs pProcsStatInfo nCpus nDeltaMs =>
      ((before.processes.filter (ProcStatPresents pProcsStatInfo)).map (·.procId)).Nodup ∧
        ∀ info ∈ pProcsStatInfo.m_lstProcsStatInfo, ∀ earlier ∈ before.processes,
          earlier.procId = info.m_nId →
            Exact nCpus nDeltaMs earlier.totalTime info.m_nTotalTime

section Cpus

variable (percents : CpuStatInfo → CpuStatInfo → UInt64)

@[simp] theorem storeCpu_times (pPrevStat : Option (List CpuStatInfo)) (i : Nat)
    (info : CpuStatInfo) (stat : CpuStatistics) :
    (storeCpu percents pPrevStat i info stat).times = info.times := by
  unfold storeCpu
  cases pPrevStat with
  | none => rfl
  | some prev =>
      dsimp only
      split <;> rfl

theorem modify_length_append {α : Type} (f : α → α) (x : α) (xs ys : List α) :
    (xs ++ x :: ys).modify xs.length f = xs ++ f x :: ys := by
  induction xs with
  | nil => rfl
  | cons y xs ih => simpa using ih

/-- The loop goes on behind the entries it has stored. -/
theorem storeCpus_times (pPrevStat : Option (List CpuStatInfo)) (sample : List CpuStatInfo)
    (stored rest : List CpuStatistics) :
    (storeCpus percents pPrevStat sample stored.length (stored ++ rest)).map CpuStatistics.times =
      stored.map CpuStatistics.times ++ sample.map CpuStatInfo.times ++
        (rest.drop sample.length).map CpuStatistics.times := by
  induction sample generalizing stored rest with
  | nil => simp [storeCpus]
  | cons info sample ih =>
      have hexpand : ∃ stat : CpuStatistics,
          (if (stored ++ rest).length = stored.length then stored ++ rest ++ [({} : CpuStatistics)]
            else stored ++ rest) = stored ++ stat :: rest.tail := by
        cases rest with
        | nil => exact ⟨{}, by simp⟩
        | cons stat rest => exact ⟨stat, by simp⟩
      obtain ⟨stat, hstat⟩ := hexpand
      have hnext := ih (stored ++ [storeCpu percents pPrevStat stored.length info stat]) rest.tail
      simp only [List.length_append, List.length_singleton, List.append_assoc,
        List.singleton_append] at hnext
      simp only [storeCpus, hstat]
      rw [modify_length_append, hnext]
      simp

theorem StoreCpusStatInfo_reconciled {before : HostStatistics} {pPrevStat : Option (List CpuStatInfo)}
    {pCurrStat : List CpuStatInfo} (fit : Fit before (.cpus pPrevStat pCurrStat)) :
    Reconciled before (.cpus pPrevStat pCurrStat)
      (StoreCpusStatInfo percents pPrevStat pCurrStat before) := by
  refine ⟨rfl, ?_⟩
  have htimes := storeCpus_times percents pPrevStat pCurrStat [] before.cpus
  rw [List.drop_eq_nil_of_le fit] at htimes
  simpa [StoreCpusStatInfo] using htimes

end Cpus

section Disks

theorem pairs_of_absorb {α β κ : Type} [DecidableEq κ] (key : β → κ) (fresh : κ → β) (id : α → κ)
    (F : α → β → Option β) (carried : α → β → Prop) {sample : List α} {xs : List β}
    (hfresh : ∀ k, key (fresh k) = k) (hkey : ∀ a x y, F a x = some y → key y = key x)
    (hkeys : (xs.map key).Nodup) (hids : (sample.map id).Nodup)
    (hsample : ∀ x ∈ xs, key x ∈ sample.map id)
    (hF : ∀ a ∈ sample, ∃ y, F a (current key fresh (id a) xs) = some y ∧ carried a y) :
    ∃ ys, absorb key fresh id F sample xs = some ys ∧ Pairs carried sample ys := by
  let entry a := (F a (current key fresh (id a) xs)).getD (fresh (id a))
  have hentry : ∀ a ∈ sample, F a (current key fresh (id a) xs) = some (entry a) ∧
      carried a (entry a) := by
    intro a ha
    obtain ⟨y, hy, hcarried⟩ := hF a ha
    have heq : entry a = y := by simp [entry, hy]
    rw [heq]
    exact ⟨hy, hcarried⟩
  obtain ⟨ys, hys, hperm⟩ := absorb_exact hfresh hkey hkeys hids
    (fun a ha => (hentry a ha).1) hsample
  exact ⟨ys, hys, entry, hperm, fun a ha => (hentry a ha).2⟩

theorem storePartition_carried (info : DiskPartStatInfo) (part : DiskPartStatistics)
    (hname : part.deviceSystemName = info.m_sSystemName) :
    info.Carried (storePartition info part) :=
  ⟨hname, rfl, rfl⟩

theorem storeDisk_name {info : DiskStatInfo} {disk stored : DiskStatistics}
    (h : storeDisk info disk = some stored) : stored.deviceSystemName = disk.deviceSystemName := by
  obtain ⟨partitions, _, rfl⟩ := Option.map_eq_some_iff.mp h
  rfl

theorem storeDisk_carried {info : DiskStatInfo} {disk : DiskStatistics}
    (hname : disk.deviceSystemName = info.m_sSystemName)
    (hparts : (disk.partitions.map (·.deviceSystemName)).Nodup)
    (hsample : ∀ part ∈ disk.partitions,
      part.deviceSystemName ∈ info.m_lstPartsStatInfo.map (·.m_sSystemName)) :
    ∃ stored, storeDisk info disk = some stored ∧ info.Carried stored := by
  obtain ⟨partitions, hstored, hpairs⟩ := pairs_of_absorb
    (fun part : DiskPartStatistics => part.deviceSystemName)
    (fun name => { deviceSystemName := name }) (fun info : DiskPartStatInfo => info.m_sSystemName)
    (fun info part => some (storePartition info part)) DiskPartStatInfo.Carried
    (fun _ => rfl) (fun _ _ _ h => by cases h; rfl) hparts info.distinct hsample
    (fun part _ => ⟨_, rfl, storePartition_carried part _ (current_key (fun _ => rfl) _ _)⟩)
  exact ⟨_, Option.map_eq_some_iff.mpr ⟨partitions, hstored, rfl⟩, ⟨hname, rfl, rfl⟩, hpairs⟩

theorem StoreDisksStatInfo_reconciled {before : HostStatistics} {pDisksStatInfo : DisksStatInfo}
    (fit : Fit before (.disks pDisksStatInfo)) :
    ∃ after, StoreDisksStatInfo pDisksStatInfo before = some after ∧
      Reconciled before (.disks pDisksStatInfo) after := by
  obtain ⟨hnames, hfit⟩ := fit
  obtain ⟨disks, hstored, hpairs⟩ := pairs_of_absorb
    (fun disk : DiskStatistics => disk.deviceSystemName)
    (fun name => { deviceSystemName := name }) (fun info : DiskStatInfo => info.m_sSystemName)
    storeDisk DiskStatInfo.Carried
    (fun _ => rfl) (fun _ _ _ => storeDisk_name) hnames pDisksStatInfo.distinct
    (fun disk hdisk => by
      obtain ⟨info, hinfo, hname, _⟩ := hfit disk hdisk
      exact List.mem_map.mpr ⟨info, hinfo, hname⟩)
    (fun info hinfo => by
      by_cases hmem : info.m_sSystemName ∈ before.disks.map (·.deviceSystemName)
      · obtain ⟨disk, hdisk, hname⟩ := List.mem_map.mp hmem
        obtain ⟨info', hinfo', hname', hparts, hsample⟩ := hfit disk hdisk
        have heq : info' = info :=
          List.inj_on_of_nodup_map pDisksStatInfo.distinct hinfo' hinfo (hname'.trans hname)
        subst heq
        have hcurrent : current (fun disk : DiskStatistics => disk.deviceSystemName)
            (fun name => { deviceSystemName := name }) disk.deviceSystemName before.disks = disk :=
          current_of_mem hnames hdisk
        rw [← hname, hcurrent]
        exact storeDisk_carried hname hparts hsample
      · rw [current_of_notMem hmem]
        exact storeDisk_carried rfl .nil (fun _ h => nomatch h))
  exact ⟨_, Option.map_eq_some_iff.mpr ⟨disks, hstored, rfl⟩, rfl, hpairs⟩

end Disks

section Processes

variable {nCpus nDeltaMs : UInt32}

theorem share_of_le {before now : UInt64} (hle : before ≤ now) :
    share before now nCpus nDeltaMs =
      ((100 * (now.toNat - before.toNat) / (nDeltaMs.toNat * nCpus.toNat) : ℕ) : ℤ) := by
  have hcast : (100 * ((now.toNat : ℚ) - before.toNat)) / (nDeltaMs.toNat * nCpus.toNat) =
      ((100 * (now.toNat - before.toNat) : ℕ) : ℤ) / ((nDeltaMs.toNat * nCpus.toNat : ℕ) : ℚ) := by
    push_cast [Nat.cast_sub (UInt64.le_iff_toNat_le.mp hle)]
    rfl
  rw [share, hcast, Rat.floor_intCast_div_natCast]
  rfl

/-- Without a wrap the division is the one of the numbers. -/
theorem CalcPercentsUsage_share {before now : UInt64} (hcpus : nCpus ≠ 0) (hdelta : nDeltaMs ≠ 0)
    (hle : before ≤ now) (hdiff : 100 * (now.toNat - before.toNat) < 2 ^ 64)
    (hprod : nDeltaMs.toNat * nCpus.toNat < 2 ^ 32)
    (hquot : 100 * (now.toNat - before.toNat) / (nDeltaMs.toNat * nCpus.toNat) < 2 ^ 32) :
    ∃ nPercentsUsage, CalcPercentsUsage now before nCpus nDeltaMs = some nPercentsUsage ∧
      (nPercentsUsage.toNat : ℤ) = share before now nCpus nDeltaMs := by
  have hproduct : (nDeltaMs * nCpus).toNat = nDeltaMs.toNat * nCpus.toNat := by
    rw [UInt32.toNat_mul, Nat.mod_eq_of_lt hprod]
  have hnonzero : nDeltaMs * nCpus ≠ 0 := by
    intro hzero
    rw [hzero] at hproduct
    rcases Nat.mul_eq_zero.mp hproduct.symm with h | h
    · exact hdelta (UInt32.toNat_inj.mp h)
    · exact hcpus (UInt32.toNat_inj.mp h)
  refine ⟨_, by rw [CalcPercentsUsage, if_neg (not_or.mpr ⟨hcpus, hdelta⟩), if_neg hnonzero], ?_⟩
  rw [share_of_le hle, UInt64.toNat_toUInt32, UInt64.toNat_div, UInt64.toNat_mul,
    UInt64.toNat_sub_of_le _ _ hle, UInt32.toNat_toUInt64, hproduct]
  rw [show (100 : UInt64).toNat = 100 from rfl, Nat.mod_eq_of_lt hdiff, Nat.mod_eq_of_lt hquot]

theorem share_of_zero (before now : UInt64) (h : nCpus = 0 ∨ nDeltaMs = 0) :
    share before now nCpus nDeltaMs = 0 := by
  rcases h with rfl | rfl <;> simp [share]

theorem storeProc_values {info : ProcStatInfo} {proc stored : ProcInfoStatistics}
    (h : storeProc nCpus nDeltaMs info proc = some stored) (hid : proc.procId = info.m_nId) :
    stored.values = info.values := by
  obtain ⟨nPercentsUsage, _, rfl⟩ := Option.map_eq_some_iff.mp h
  simp [ProcInfoStatistics.values, ProcStatInfo.values, hid]

theorem storeProc_id {info : ProcStatInfo} {proc stored : ProcInfoStatistics}
    (h : storeProc nCpus nDeltaMs info proc = some stored) : stored.procId = proc.procId := by
  obtain ⟨nPercentsUsage, _, rfl⟩ := Option.map_eq_some_iff.mp h
  rfl

theorem storeProc_share {info : ProcStatInfo} {proc : ProcInfoStatistics}
    (exact : Exact nCpus nDeltaMs proc.totalTime info.m_nTotalTime) :
    ∃ stored, storeProc nCpus nDeltaMs info proc = some stored ∧
      (stored.percentsUsage.toNat : ℤ) =
        share proc.totalTime info.m_nTotalTime nCpus nDeltaMs := by
  have hpercents : ∃ nPercentsUsage,
      (if proc.totalTime ≠ 0 then
        CalcPercentsUsage info.m_nTotalTime proc.totalTime nCpus nDeltaMs else some 0) =
          some nPercentsUsage ∧
        (nPercentsUsage.toNat : ℤ) =
          share proc.totalTime info.m_nTotalTime nCpus nDeltaMs := by
    by_cases hzero : nCpus = 0 ∨ nDeltaMs = 0
    · refine ⟨0, ?_, (share_of_zero _ _ hzero).symm⟩
      simp [CalcPercentsUsage, hzero]
    · obtain ⟨hcpus, hdelta⟩ := not_or.mp hzero
      have hexact := (exact.resolve_left hcpus).resolve_left hdelta
      split at hexact
      · next hbefore =>
          refine ⟨0, by simp [hbefore], ?_⟩
          have hle : proc.totalTime ≤ info.m_nTotalTime := by simp [hbefore]
          rw [share_of_le hle, hbefore]
          have hsmall : 100 * (info.m_nTotalTime.toNat - (0 : UInt64).toNat) <
              nDeltaMs.toNat * nCpus.toNat := by simpa using hexact
          rw [Nat.div_eq_of_lt hsmall]
          rfl
      · next hbefore =>
          obtain ⟨hle, hdiff, hprod, hquot⟩ := hexact
          rw [if_pos hbefore]
          exact CalcPercentsUsage_share hcpus hdelta hle hdiff hprod hquot
  obtain ⟨nPercentsUsage, hsome, hshare⟩ := hpercents
  exact ⟨_, Option.map_eq_some_iff.mpr ⟨nPercentsUsage, hsome, rfl⟩, hshare⟩

theorem procStatPresents_iff (sample : ProcsStatInfo) (proc : ProcInfoStatistics) :
    ProcStatPresents sample proc = true ↔
      proc.procId ∈ sample.m_lstProcsStatInfo.map (·.m_nId) := by
  simp only [ProcStatPresents, List.any_eq_true, beq_iff_eq, List.mem_map]
  exact exists_congr fun info => and_congr_right fun _ => eq_comm

theorem StoreProcsStatInfo_reconciled {before : HostStatistics} {pProcsStatInfo : ProcsStatInfo}
    (fit : Fit before (.procs pProcsStatInfo nCpus nDeltaMs)) :
    ∃ after, StoreProcsStatInfo nCpus nDeltaMs pProcsStatInfo before = some after ∧
      Reconciled before (.procs pProcsStatInfo nCpus nDeltaMs) after := by
  obtain ⟨hids, hexact⟩ := fit
  let kept := before.processes.filter (ProcStatPresents pProcsStatInfo)
  have hkept : ∀ proc, proc ∈ kept ↔ proc ∈ before.processes ∧
      proc.procId ∈ pProcsStatInfo.m_lstProcsStatInfo.map (·.m_nId) := by
    intro proc
    rw [List.mem_filter, procStatPresents_iff]
  obtain ⟨processes, hstored, hpairs⟩ := pairs_of_absorb (fun proc : ProcInfoStatistics => proc.procId)
    (fun procId => { procId }) (fun info : ProcStatInfo => info.m_nId) (storeProc nCpus nDeltaMs)
    (ProcStatInfo.Carried nCpus nDeltaMs before.processes)
    (fun _ => rfl) (fun _ _ _ => storeProc_id) hids pProcsStatInfo.distinct
    (fun proc hproc => ((hkept proc).mp hproc).2)
    (fun info hinfo => by
      have hinfoId : info.m_nId ∈ pProcsStatInfo.m_lstProcsStatInfo.map (·.m_nId) :=
        List.mem_map_of_mem hinfo
      by_cases hmem : info.m_nId ∈ kept.map (·.procId)
      · obtain ⟨proc, hproc, hid⟩ := List.mem_map.mp hmem
        have hcurrent : current (fun proc : ProcInfoStatistics => proc.procId)
            (fun procId => { procId }) proc.procId kept = proc := current_of_mem hids hproc
        obtain ⟨stored, hstored, hshare⟩ :=
          storeProc_share (hexact info hinfo proc ((hkept proc).mp hproc).1 hid)
        rw [← hid, hcurrent]
        refine ⟨stored, hstored, storeProc_values hstored hid, ?_⟩
        intro earlier hearlier hearlierId
        have hearlierKept : earlier ∈ kept := (hkept earlier).mpr ⟨hearlier, hearlierId ▸ hinfoId⟩
        have heq : earlier = proc :=
          List.inj_on_of_nodup_map hids hearlierKept hproc (hearlierId.trans hid.symm)
        rw [heq]
        exact hshare
      · rw [current_of_notMem hmem]
        have hnew : storeProc nCpus nDeltaMs info { procId := info.m_nId } = some _ := rfl
        refine ⟨_, hnew, storeProc_values hnew rfl, ?_⟩
        intro earlier hearlier hearlierId
        have hearlierKept : earlier ∈ kept := (hkept earlier).mpr ⟨hearlier, hearlierId ▸ hinfoId⟩
        exact absurd (hearlierId ▸ List.mem_map_of_mem hearlierKept) hmem)
  exact ⟨_, Option.map_eq_some_iff.mpr ⟨processes, hstored, rfl⟩, rfl, hpairs⟩

end Processes

section Runs

variable {percents : CpuStatInfo → CpuStatInfo → UInt64} {stats : HostStatistics}
  {samples : List Sample}

theorem store_reconciled {before : HostStatistics} {sample : Sample} (fit : Fit before sample) :
    ∃ after, store percents sample before = some after ∧ Reconciled before sample after := by
  cases sample with
  | cpus pPrevStat pCurrStat => exact ⟨_, rfl, StoreCpusStatInfo_reconciled percents fit⟩
  | disks pDisksStatInfo => exact StoreDisksStatInfo_reconciled fit
  | procs pProcsStatInfo nCpus nDeltaMs => exact StoreProcsStatInfo_reconciled fit

/-- The process is alive, and the call has brought its list in step with the sample. -/
def Stored (percents : CpuStatInfo → CpuStatInfo → UInt64) (stats : Option HostStatistics)
    (sample : Sample) : Prop :=
  ∃ before after, stats = some before ∧ step percents stats sample = some after ∧
    Reconciled before sample after

/-- The sample fits what is stored, while the process is alive. -/
def Fits (stats : Option HostStatistics) (sample : Sample) : Prop :=
  ∀ before, stats = some before → Fit before sample

theorem stored_along (fits : Steps (step percents) Fits (some stats) samples) :
    Along (step percents) (fun stats => stats.isSome) (Stored percents) (some stats) samples := by
  induction samples generalizing stats with
  | nil => rfl
  | cons sample samples ih =>
      have hstore : ∃ after, store percents sample stats = some after ∧
          Reconciled stats sample after := store_reconciled (fits.1 stats rfl)
      obtain ⟨after, hafter, hreconciled⟩ := hstore
      have hstep : step percents (some stats) sample = some after := hafter
      have hrest := fits.2
      rw [hstep] at hrest
      refine ⟨rfl, ⟨stats, after, rfl, hstep, hreconciled⟩, ?_⟩
      rw [hstep]
      exact ih hrest

end Runs

def process (m_nId : UInt32) (m_nTotalTime : UInt64) : ProcStatInfo where
  m_sCommandName := "cmd"
  m_nId
  m_sOwnerUser := "root"
  m_nTotalMemUsage := 40
  m_nRealMemUsage := 20
  m_nVirtMemUsage := 20
  m_nStartTime := 7
  m_nTotalTime
  m_nUserTime := 0
  m_nSystemTime := 0
  m_nState := .run

/-- A process ends, one goes on and one starts. -/
theorem stored_along_processes :
    Along (step fun _ _ => 0) (fun stats => stats.isSome) (Stored fun _ _ => 0) (some {})
      [.procs ⟨[process 1 400, process 2 100], by decide⟩ 4 1000,
        .procs ⟨[process 3 200, process 2 1100], by decide⟩ 4 1000] := by
  refine stored_along ⟨?_, ?_, trivial⟩
  · intro before hbefore
    cases hbefore
    exact ⟨.nil, fun info _ earlier h => nomatch h⟩
  · intro before hbefore
    have htimes : before.processes.map (fun proc => (proc.procId, proc.totalTime)) =
        [(1, 400), (2, 100)] := by
      cases hbefore
      rfl
    refine ⟨by cases hbefore; decide, ?_⟩
    intro info hinfo earlier hearlier hid
    have hstored : (earlier.procId, earlier.totalTime) ∈
        [((1 : UInt32), (400 : UInt64)), (2, 100)] :=
      htimes ▸ List.mem_map.mpr ⟨earlier, hearlier, rfl⟩
    simp only [List.mem_cons, List.not_mem_nil, or_false, Prod.mk.injEq] at hinfo hstored
    rcases hinfo with rfl | rfl <;> rcases hstored with ⟨hpid, htime⟩ | ⟨hpid, htime⟩
    · exact absurd (hpid.symm.trans hid) (by decide)
    · exact absurd (hpid.symm.trans hid) (by decide)
    · exact absurd (hpid.symm.trans hid) (by decide)
    · rw [htime]
      refine .inr (.inr ?_)
      rw [if_neg (by decide)]
      decide

def busy : CpuStatInfo := ⟨3000, 0, 1000, 4000, 0⟩

/-- A processor is taken away and its entry stays. -/
theorem stored_fails :
    ¬ Along (step fun _ _ => 0) (fun stats => stats.isSome) (Stored fun _ _ => 0) (some {})
      [.cpus none [busy, busy], .cpus none [busy]] := by
  rintro ⟨-, -, -, ⟨before, after, hbefore, hafter, -, htimes⟩, -⟩
  cases hbefore
  cases hafter
  exact absurd (congrArg List.length htimes) (by decide)

end DispService.Statistics
