import Mathlib.Tactic.Common

/-! The images of a hard disk in the domain XML: a chain of backing stores, the last image
outermost. -/
namespace DispService.Transponster

inductive EStartupPolicy where
  | mandatory
  | requisite
  | optional
deriving DecidableEq, Repr

/-- The source of a disk that is a file. -/
structure Source where
  file : Option String
  startupPolicy : Option EStartupPolicy
deriving DecidableEq

/-- The alternatives of the source of a disk; nothing is read of those that are no file. -/
inductive VDiskSource where
  | file (value : Option Source)
  | other
deriving DecidableEq

inductive VStorageFormat where
  | raw
  | qcow2
deriving DecidableEq, Repr

/-- A chain is a backing store, with the chain below it if one is set, or ends here, with an empty
element or none. -/
inductive VDiskBackingChain where
  | backingStore (format : VStorageFormat) (diskSource : VDiskSource)
      (diskBackingChain : Option VDiskBackingChain)
  | empty (value : Bool)

structure CVmHddPartition where
  systemName : String
deriving DecidableEq

inductive HardDiskEmulatedType where
  | realHardDisk
  | hardDiskImage
deriving DecidableEq, Repr

/-- What is read of a `CVmHardDisk` to write its chain. -/
structure CVmHardDisk where
  emulatedType : HardDiskEmulatedType
  lstPartition : List CVmHddPartition
deriving DecidableEq

namespace Hdd

/-- One step of the loop of `Hdd::setBackingChain`: the chain so far is put below the image. -/
def wrap (a : VDiskBackingChain) (x : CVmHddPartition) : VDiskBackingChain :=
  if x.systemName = "" then a
  else .backingStore .qcow2 (.file (some ⟨some x.systemName, some .optional⟩)) (some a)

/-- The chain of the disk, which is none for a real disk. -/
def setBackingChain (hdd : CVmHardDisk) : VDiskBackingChain :=
  if hdd.emulatedType ≠ .hardDiskImage then .empty false
  else hdd.lstPartition.foldl wrap (.empty true)

end Hdd

/-- The visitor of the source of one backing store. -/
def BackingChain.visit (partitions : List CVmHddPartition) : VDiskSource → List CVmHddPartition
  | .file (some ⟨some f, _⟩) => if f = "" then partitions else ⟨f⟩ :: partitions
  | .file _ => partitions
  | .other => partitions

/-- The loop of `Disk` over the chain, with the partitions so far. There is no result where a store
has no chain set below it. -/
def Disk.readChain : VDiskBackingChain → List CVmHddPartition → Option (List CVmHddPartition)
  | .empty _, partitions => some partitions
  | .backingStore _ _ none, _ => none
  | .backingStore _ source (some c), partitions =>
      Disk.readChain c (BackingChain.visit partitions source)

/-- A new disk has no partitions. -/
def Disk.partitions (chain : VDiskBackingChain) : Option (List CVmHddPartition) :=
  Disk.readChain chain []

/-- The images that are named. -/
def named (partitions : List CVmHddPartition) : List CVmHddPartition :=
  partitions.filter fun x => x.systemName != ""

/-- What is wrapped last is met first, and what is met later goes before it. -/
theorem readChain_wrap (xs : List CVmHddPartition) (a : VDiskBackingChain)
    (partitions : List CVmHddPartition) :
    Disk.readChain (xs.foldl Hdd.wrap a) partitions =
      Disk.readChain a (named xs ++ partitions) := by
  induction xs generalizing a with
  | nil => rfl
  | cons x xs ih =>
    rw [List.foldl_cons, ih]
    by_cases hx : x.systemName = ""
    · have hnamed : named (x :: xs) = named xs := by simp [named, hx]
      rw [Hdd.wrap, if_pos hx, hnamed]
    · have hnamed : named (x :: xs) = x :: named xs := by simp [named, hx]
      rw [Hdd.wrap, if_neg hx, hnamed, Disk.readChain, BackingChain.visit, if_neg hx]
      rfl

/-- The images that are read back are those of the disk that are named, in their order. -/
theorem partitions_setBackingChain (hdd : CVmHardDisk) :
    Disk.partitions (Hdd.setBackingChain hdd) =
      some (if hdd.emulatedType = .hardDiskImage then named hdd.lstPartition else []) := by
  unfold Disk.partitions Hdd.setBackingChain
  by_cases h : hdd.emulatedType = .hardDiskImage
  · rw [if_neg (not_not.mpr h), if_pos h, readChain_wrap, List.append_nil]
    rfl
  · rw [if_pos h, if_neg h]
    rfl

/-- The images of an image disk are all read back, and a real disk has no chain. -/
theorem backingChain_back (hdd : CVmHardDisk) (names : ∀ x ∈ hdd.lstPartition, x.systemName ≠ "") :
    Disk.partitions (Hdd.setBackingChain hdd) =
      some (if hdd.emulatedType = .hardDiskImage then hdd.lstPartition else []) := by
  have hnamed : named hdd.lstPartition = hdd.lstPartition :=
    List.filter_eq_self.mpr fun x hx => by simpa using names x hx
  rw [partitions_setBackingChain, hnamed]

theorem backingChain_back_three :
    Disk.partitions (Hdd.setBackingChain ⟨.hardDiskImage, [⟨"base"⟩, ⟨"first"⟩, ⟨"second"⟩]⟩) =
      some [⟨"base"⟩, ⟨"first"⟩, ⟨"second"⟩] :=
  backingChain_back ⟨.hardDiskImage, [⟨"base"⟩, ⟨"first"⟩, ⟨"second"⟩]⟩ (by simp)

/-- The partition of a real disk is not written. -/
theorem backingChain_real : ∃ hdd : CVmHardDisk, (∀ x ∈ hdd.lstPartition, x.systemName ≠ "") ∧
    Disk.partitions (Hdd.setBackingChain hdd) ≠ some hdd.lstPartition :=
  ⟨⟨.realHardDisk, [⟨"/dev/sda1"⟩]⟩, by simp, by decide⟩

end DispService.Transponster
