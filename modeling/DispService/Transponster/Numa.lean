import DispService.Lib.Tiling
import DispService.Shaping.Text
import DispService.Transponster.CpuFeatures
import DispService.Transponster.Hardware
import Mathlib.Data.List.TakeWhile

/-! The NUMA nodes of the virtual machine: how its processors and its memory are shared out to the
cells of the domain XML. -/
namespace DispService.Transponster

open Lib Shaping

/-- A `PCpuset` and a `PMemoryKB1`, in KiB. -/
structure Cell where
  id : Option UInt32
  cpus : Text
  memory : UInt32
deriving DecidableEq

structure Topology where
  cores : UInt32
  threads : UInt32
  sockets : UInt32
deriving DecidableEq

namespace Xml

/-- What is written of the `cpu` element; its mode is always the host model. -/
structure Cpu where
  featureList : List Feature
  topology : Option Topology
  numa : Option (List Cell)

end Xml

/-- What `getFeatures` is told besides the configuration. -/
structure FeaturesHost where
  hash : HashOrder
  kvmAmd : Bool
  cpuFeatures : Option HostFeatures

namespace Resources

/-- The one cell of a machine whose memory can be plugged in. -/
def hotplugCell (u : CVmCpu) (m : CVmMemory) : Cell :=
  let x := (u.sockets * u.number).toInt32
  { id := some 0
    cpus := if x < 2 then ['0'] else '0' :: '-' :: integer (x - 1).toInt
    memory := m.maxNumaRamSize <<< 10 }

/-- The cell of one node. -/
def nodeCell (numaCpus numaMemory : UInt32) (i : UInt32) : Cell where
  id := none
  cpus :=
    if numaCpus = 1 then number i.toNat
    else number (i * numaCpus).toNat ++ '-' :: number ((i + 1) * numaCpus - 1).toNat
  memory := numaMemory

/-- The cells of the nodes, or none where there are more nodes than processors. -/
def nodeCells (u : CVmCpu) (m : CVmMemory) : Option (List Cell) :=
  let numaNodes := u.numaNodes
  let numaMemory := (m.ramSize <<< 10) / numaNodes
  let numaCpus := (u.number * u.sockets) / numaNodes
  if numaCpus = 0 then none
  else some ((List.range numaNodes.toNat).map fun i => nodeCell numaCpus numaMemory (.ofNat i))

/-- The nodes that the machine has are written. -/
def numaEnabled (u : CVmCpu) (m : CVmMemory) : Bool :=
  !m.isEnableHotplug && !u.isEnableHotplug && decide (u.numaNodes > 1)

/-- `Resources::getCpu`, where the parts that it asks for are there. -/
def cpuOf (host : FeaturesHost) (conf : FeaturesConfig) (u : CVmCpu) (m : CVmMemory) :
    Option Xml.Cpu :=
  if u.number = 0 then none
  else
    let dst : Xml.Cpu := {
      featureList := CpuFeaturesMask.getFeatures host.hash host.kvmAmd conf host.cpuFeatures
      topology := if u.isEnableHotplug then none else some ⟨u.number, 1, u.sockets⟩
      numa := if m.isEnableHotplug then some [hotplugCell u m] else none }
    if numaEnabled u m then
      match nodeCells u m with
      | none => none
      | some cellList => some { dst with numa := if cellList.isEmpty then dst.numa else some cellList }
    else some dst

/-- The hardware, the processor or the memory may not be there; the memory is used without a test,
and there is no result where it is null. A result of `none` is the return value `false`. -/
def getCpu (host : FeaturesHost) (conf : FeaturesConfig) (h : Option CVmHardware) :
    Option (Option Xml.Cpu) :=
  match h.bind CVmHardware.cpu with
  | none => some none
  | some u =>
      match h.bind CVmHardware.memory with
      | none => if u.number = 0 then some none else none
      | some m => some (cpuOf host conf u m)

end Resources

/-- The processors that a text names: a number, or a range with its two ends. -/
def readCpus (cpus : Text) : Option (List Nat) :=
  match cpus.dropWhile (· != '-') with
  | [] => (digits? cpus).map fun a => [a]
  | _ :: last => do
      let a ← digits? (cpus.takeWhile (· != '-'))
      let b ← digits? last
      return List.range' a (b + 1 - a)

/-- The cells have ranges that are pairwise disjoint and together are the processors below `cpus`,
and their memory adds up to `memory`. -/
structure Covers (cells : List Cell) (cpus memory : Nat) : Prop where
  ranges : ∃ parts : List (List Nat), cells.map (fun c => readCpus c.cpus) = parts.map some ∧
    parts.Pairwise List.Disjoint ∧ ∀ v, (∃ p ∈ parts, v ∈ p) ↔ v < cpus
  memory : (cells.map fun c => c.memory.toNat).sum = memory

/-- The processors and the memory in KiB are numbers of 32 bits, and the nodes divide both. -/
structure EvenlyShared (u : CVmCpu) (m : CVmMemory) : Prop where
  cpusFit : u.number.toNat * u.sockets.toNat < 2 ^ 32
  cpus : u.numaNodes.toNat ∣ u.number.toNat * u.sockets.toNat
  memoryFits : m.ramSize.toNat * 1024 < 2 ^ 32
  memory : u.numaNodes.toNat ∣ m.ramSize.toNat * 1024

theorem dropWhile_number (n : Nat) (rest : Text) :
    (number n ++ '-' :: rest).dropWhile (· != '-') = '-' :: rest := by
  rw [List.dropWhile_append_of_pos]
  · rfl
  · intro c hc
    have hne : c ≠ '-' := by
      rintro rfl
      exact not_mem_number (by decide) hc
    simpa using hne

theorem takeWhile_number (n : Nat) (rest : Text) :
    (number n ++ '-' :: rest).takeWhile (· != '-') = number n := by
  rw [List.takeWhile_append_of_pos]
  · simp
  · intro c hc
    have hne : c ≠ '-' := by
      rintro rfl
      exact not_mem_number (by decide) hc
    simpa using hne

theorem readCpus_number (n : Nat) : readCpus (number n) = some [n] := by
  have hdrop : (number n).dropWhile (· != '-') = [] := by
    refine List.dropWhile_eq_nil_iff.mpr fun c hc => ?_
    have hne : c ≠ '-' := by
      rintro rfl
      exact not_mem_number (by decide) hc
    simpa using hne
  rw [readCpus, hdrop]
  simp [digits?_number]

theorem readCpus_range (a b : Nat) :
    readCpus (number a ++ '-' :: number b) = some (List.range' a (b + 1 - a)) := by
  rw [readCpus, dropWhile_number]
  simp [takeWhile_number, digits?_number]

namespace Resources

variable {host : FeaturesHost} {conf : FeaturesConfig} {h : Option CVmHardware} {u : CVmCpu}
  {m : CVmMemory} {cells : List Cell} {dst : Xml.Cpu}

/-- The cell of a node names the block of the node. -/
theorem readCpus_nodeCell {numaCpus numaMemory numaNodes : UInt32} {i : Nat} (hcpus : numaCpus ≠ 0)
    (hi : i < numaNodes.toNat) (hfit : numaNodes.toNat * numaCpus.toNat < 2 ^ 32) :
    readCpus (nodeCell numaCpus numaMemory (.ofNat i)).cpus =
      some (block numaCpus.toNat i) := by
  have hpos : 0 < numaCpus.toNat := by
    by_contra hzero
    exact hcpus (UInt32.toNat.inj (Nat.eq_zero_of_not_pos hzero))
  have hle : (i + 1) * numaCpus.toNat ≤ numaNodes.toNat * numaCpus.toNat :=
    Nat.mul_le_mul_right _ hi
  have hsmall : i + 1 < 2 ^ 32 := by
    have hnodes := numaNodes.toNat_lt
    omega
  have hindex : (UInt32.ofNat i).toNat = i :=
    UInt32.toNat_ofNat_of_lt' (show i < 2 ^ 32 by omega)
  unfold nodeCell
  dsimp only
  by_cases hone : numaCpus = 1
  · rw [if_pos hone, hindex, readCpus_number, hone]
    simp [block]
  · rw [if_neg hone, readCpus_range]
    have hsucc : (i + 1) * numaCpus.toNat = i * numaCpus.toNat + numaCpus.toNat :=
      Nat.succ_mul _ _
    have hstart : (UInt32.ofNat i * numaCpus).toNat = i * numaCpus.toNat := by
      rw [UInt32.toNat_mul, hindex, Nat.mod_eq_of_lt (by omega)]
    have hstop : ((UInt32.ofNat i + 1) * numaCpus).toNat = (i + 1) * numaCpus.toNat := by
      rw [UInt32.toNat_mul, UInt32.toNat_add, hindex]
      change (i + 1) % 2 ^ 32 * _ % 2 ^ 32 = _
      rw [Nat.mod_eq_of_lt hsmall, Nat.mod_eq_of_lt (by omega)]
    have hlast : ((UInt32.ofNat i + 1) * numaCpus - 1).toNat = (i + 1) * numaCpus.toNat - 1 := by
      have hone' : (1 : UInt32) ≤ (UInt32.ofNat i + 1) * numaCpus := by
        rw [UInt32.le_iff_toNat_le, hstop]
        change 1 ≤ _
        omega
      rw [UInt32.toNat_sub_of_le _ _ hone', hstop]
      rfl
    rw [hstart, hlast, block]
    congr 2
    omega

/-- The cells of the nodes name the blocks of the nodes, and each has the same memory. -/
theorem nodeCells_some (hcells : nodeCells u m = some cells) :
    cells.map (fun c => readCpus c.cpus) = ((List.range u.numaNodes.toNat).map
        (block ((u.number * u.sockets) / u.numaNodes).toNat)).map some ∧
      (cells.map fun c => c.memory.toNat).sum =
        u.numaNodes.toNat * ((m.ramSize <<< 10) / u.numaNodes).toNat := by
  unfold nodeCells at hcells
  dsimp only at hcells
  split at hcells
  · cases hcells
  next hcpus =>
    cases hcells
    constructor
    · rw [List.map_map, List.map_map]
      apply List.map_congr_left
      intro i hi
      refine readCpus_nodeCell hcpus (List.mem_range.mp hi) ?_
      rw [UInt32.toNat_div]
      exact (Nat.mul_div_le _ _).trans_lt (UInt32.toNat_lt _)
    · rw [List.map_map]
      simp [Function.comp_def, nodeCell]

/-- The cells cover the processors and the memory just where both are evenly shared. -/
theorem covers_nodeCells (hcells : nodeCells u m = some cells) :
    Covers cells (u.number.toNat * u.sockets.toNat) (m.ramSize.toNat * 1024) ↔
      EvenlyShared u m := by
  obtain ⟨hread, hsum⟩ := nodeCells_some hcells
  have hcpus : ((u.number * u.sockets) / u.numaNodes).toNat =
      u.number.toNat * u.sockets.toNat % 2 ^ 32 / u.numaNodes.toNat := by
    rw [UInt32.toNat_div, UInt32.toNat_mul]
  have hmemory : ((m.ramSize <<< 10) / u.numaNodes).toNat =
      m.ramSize.toNat * 1024 % 2 ^ 32 / u.numaNodes.toNat := by
    rw [UInt32.toNat_div, UInt32.toNat_shiftLeft, Nat.shiftLeft_eq]
    rfl
  constructor
  · rintro ⟨⟨parts, hparts, -, hcover⟩, hall⟩
    rw [hread] at hparts
    have heq := List.map_injective_iff.mpr (Option.some_injective _) hparts
    rw [← heq, blocks_cover_iff, hcpus, share_iff (by decide)] at hcover
    rw [hsum, hmemory, share_iff (by decide)] at hall
    exact ⟨hcover.1, hcover.2, hall.1, hall.2⟩
  · intro even
    refine ⟨⟨_, hread, blocks_disjoint _ _, ?_⟩, ?_⟩
    · rw [blocks_cover_iff, hcpus, share_iff (by decide)]
      exact ⟨even.cpusFit, even.cpus⟩
    · rw [hsum, hmemory, share_iff (by decide)]
      exact ⟨even.memoryFits, even.memory⟩

theorem cpuOf_cells (enabled : numaEnabled u m = true) (hdst : cpuOf host conf u m = some dst) :
    ∃ cells, nodeCells u m = some cells ∧ dst.numa = some cells := by
  unfold cpuOf at hdst
  split at hdst
  · cases hdst
  · cases hcells : nodeCells u m with
    | none => simp [hcells] at hdst
    | some cells =>
      refine ⟨cells, rfl, ?_⟩
      have hne : cells.isEmpty = false := by
        unfold nodeCells at hcells
        dsimp only at hcells
        split at hcells
        · cases hcells
        · cases hcells
          have hpos : 0 < u.numaNodes.toNat := by
            simp only [numaEnabled, Bool.and_eq_true, decide_eq_true_eq] at enabled
            have hlt := UInt32.lt_iff_toNat_lt.mp enabled.2
            omega
          rw [List.isEmpty_eq_false_iff_exists_mem]
          exact ⟨_, List.mem_map_of_mem (List.mem_range.mpr hpos)⟩
      simp only [hcells, hne, Bool.false_eq_true, if_false, Option.some.injEq] at hdst
      rw [← hdst]

/-- The cells that are written cover the processors and the memory just where the nodes share both
evenly, and both are numbers of 32 bits. -/
theorem getCpu_covers_iff (enabled : numaEnabled u m = true)
    (hdst : getCpu host conf (some ⟨some u, some m⟩) = some (some dst)) :
    (∃ cells, dst.numa = some cells ∧
      Covers cells (u.number.toNat * u.sockets.toNat) (m.ramSize.toNat * 1024)) ↔
      EvenlyShared u m := by
  have hcpu : cpuOf host conf u m = some dst := Option.some.inj hdst
  obtain ⟨cells, hcells, hnuma⟩ := cpuOf_cells enabled hcpu
  rw [← covers_nodeCells hcells, hnuma]
  simp

/-- Two nodes with a processor each. -/
def twoNodes : CVmCpu where
  number := 1
  sockets := 2
  cpuUnits := 1000
  cpuLimit := 0
  cpuLimitType := .percents
  cpuLimitValue := 0
  cpuMask := ""
  nodeMask := ""
  numaNodes := 2
  isEnableHotplug := false

def fixedMemory (ramSize : UInt32) : CVmMemory :=
  ⟨ramSize, 0, 0, 0, false⟩

theorem getCpu_covers_iff_two : ∃ host conf dst,
    getCpu host conf (some ⟨some twoNodes, some (fixedMemory 2048)⟩) = some (some dst) ∧
    ((∃ cells, dst.numa = some cells ∧
      Covers cells (twoNodes.number.toNat * twoNodes.sockets.toNat)
        ((fixedMemory 2048).ramSize.toNat * 1024)) ↔
      EvenlyShared twoNodes (fixedMemory 2048)) := by
  obtain ⟨hash⟩ := CpuFeaturesMask.exists_hashOrder
  refine ⟨⟨hash, false, none⟩, ⟨∅, false⟩, _, rfl, ?_⟩
  exact getCpu_covers_iff (by decide) rfl

/-- With four TiB of memory, the memory of each cell is 0. -/
theorem getCpu_loses_memory : ∃ host conf u m dst, numaEnabled u m = true ∧
    getCpu host conf (some ⟨some u, some m⟩) = some (some dst) ∧
    ¬ ∃ cells, dst.numa = some cells ∧
      Covers cells (u.number.toNat * u.sockets.toNat) (m.ramSize.toNat * 1024) := by
  obtain ⟨hash⟩ := CpuFeaturesMask.exists_hashOrder
  have enabled : numaEnabled twoNodes (fixedMemory 4194304) = true := by decide
  obtain ⟨dst, hdst⟩ : ∃ dst, cpuOf ⟨hash, false, none⟩ ⟨∅, false⟩ twoNodes
      (fixedMemory 4194304) = some dst := ⟨_, rfl⟩
  refine ⟨⟨hash, false, none⟩, ⟨∅, false⟩, twoNodes, fixedMemory 4194304, dst, enabled,
    congrArg some hdst, ?_⟩
  rintro ⟨cells, hnuma, hcovers⟩
  obtain ⟨cells', hcells, hnuma'⟩ := cpuOf_cells enabled hdst
  cases hnuma.symm.trans hnuma'
  have hfits := ((covers_nodeCells hcells).mp hcovers).memoryFits
  exact absurd hfits (by decide)

end Resources

/-! ## The check of the configuration -/

namespace CVmValidateConfig

inductive PrlErrVmconf where
  | numanodesCpuHotplug
  | numanodesMemoryHotplug
  | numanodesNumberNotSupported
  | numanodesInconsistentWithCpu
deriving DecidableEq, Repr

/-- What `CheckNumaNodes` finds. -/
def checkNumaNodes (u : CVmCpu) (m : CVmMemory) : List PrlErrVmconf :=
  if u.numaNodes < 2 then []
  else
    (if u.isEnableHotplug then [.numanodesCpuHotplug] else []) ++
    (if m.isEnableHotplug then [.numanodesMemoryHotplug] else []) ++
    (if u.numaNodes &&& (u.numaNodes - 1) ≠ 0 then [.numanodesNumberNotSupported] else []) ++
    (if u.sockets % u.numaNodes ≠ 0 then [.numanodesInconsistentWithCpu] else [])

variable {u : CVmCpu} {m : CVmMemory}

/-- In a configuration that passes the check, the nodes are a power of two and divide the
sockets. -/
theorem checkNumaNodes_nil (many : ¬ u.numaNodes < 2) (passes : checkNumaNodes u m = []) :
    u.isEnableHotplug = false ∧ m.isEnableHotplug = false ∧ (∃ k, u.numaNodes.toNat = 2 ^ k) ∧
      u.numaNodes.toNat ∣ u.sockets.toNat := by
  unfold checkNumaNodes at passes
  rw [if_neg many] at passes
  simp only [List.append_eq_nil_iff, ite_eq_right_iff, reduceCtorEq, imp_false, not_not,
    Bool.not_eq_true, ne_eq] at passes
  obtain ⟨⟨⟨hcpu, hmemory⟩, hpower⟩, hdvd⟩ := passes
  have hone : (1 : UInt32) ≤ u.numaNodes := by
    rw [UInt32.lt_iff_toNat_lt] at many
    rw [UInt32.le_iff_toNat_le]
    change ¬ _ < 2 at many
    change 1 ≤ _
    omega
  have hnat := congrArg UInt32.toNat hpower
  rw [UInt32.toNat_and, UInt32.toNat_sub_of_le _ _ hone] at hnat
  have hpos : u.numaNodes.toNat ≠ 0 := by
    rw [UInt32.le_iff_toNat_le] at hone
    change 1 ≤ _ at hone
    omega
  refine ⟨hcpu, hmemory, (Nat.and_sub_one_eq_zero_iff_isPowerOfTwo hpos).mp hnat, ?_⟩
  have hmod := congrArg UInt32.toNat hdvd
  rw [UInt32.toNat_mod] at hmod
  exact Nat.dvd_of_mod_eq_zero hmod

/-- What passes the check is evenly shared where no number is too large. -/
theorem evenlyShared_iff (many : ¬ u.numaNodes < 2) (passes : checkNumaNodes u m = [])
    (few : u.numaNodes.toNat ≤ 1024) :
    EvenlyShared u m ↔ u.number.toNat * u.sockets.toNat < 2 ^ 32 ∧
      m.ramSize.toNat * 1024 < 2 ^ 32 := by
  obtain ⟨-, -, ⟨k, hk⟩, hsockets⟩ := checkNumaNodes_nil many passes
  constructor
  · intro even
    exact ⟨even.cpusFit, even.memoryFits⟩
  · rintro ⟨hcpus, hmemory⟩
    refine ⟨hcpus, hsockets.mul_left _, hmemory, ?_⟩
    have hdvd : 2 ^ k ∣ 2 ^ 10 := by
      refine Nat.pow_dvd_pow 2 ?_
      rw [hk] at few
      exact (Nat.pow_le_pow_iff_right (by decide)).mp (few : 2 ^ k ≤ 2 ^ 10)
    rw [hk]
    exact hdvd.mul_left _

end CVmValidateConfig

end DispService.Transponster
