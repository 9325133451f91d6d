import Mathlib.Data.List.Nodup
import Mathlib.Data.List.TakeWhile
import Mathlib.Data.Nat.Digits.Lemmas
import DispService.BackupDevice.Service
import DispService.Lib.FreeName

/-! The archives of a backup: each image of a machine gets a file in the store of the backup,
whose name is made of that of the image. -/
namespace DispService.Product

open Lib

abbrev QString := List Char

namespace QFileInfo

/-- What follows the last slash. -/
def fileName (path : QString) : QString :=
  (path.reverse.takeWhile fun c => c != '/').reverse

/-- `QDir::filePath`, and the path of `QFileInfo` of a folder and a file in it. -/
def filePath (dir file : QString) : QString :=
  if file.head? == some '/' then file
  else if file.isEmpty || dir.isEmpty || dir.getLast? == some '/' then dir ++ file
  else dir ++ '/' :: file

theorem fileName_slash (path : QString) : '/' ∉ fileName path := by
  intro h
  have hmem := List.mem_takeWhile_imp (List.mem_reverse.mp h)
  simp at hmem

theorem fileName_append {dir file : QString} (slash : '/' ∉ file)
    (last : dir = [] ∨ dir.getLast? = some '/') : fileName (dir ++ file) = file := by
  have hall : ∀ c ∈ file.reverse, (c != '/') = true := by
    intro c hc
    have hne : c ≠ '/' := fun heq => slash (heq ▸ List.mem_reverse.mp hc)
    simpa using hne
  rw [fileName, List.reverse_append, List.takeWhile_append_of_pos hall]
  rcases last with rfl | hlast
  · simp
  · obtain ⟨front, rfl⟩ := List.getLast?_eq_some_iff.mp hlast
    simp

/-- A file in a folder keeps its name. -/
theorem fileName_filePath {dir file : QString} (slash : '/' ∉ file) (hne : file ≠ []) :
    fileName (filePath dir file) = file := by
  have hhead : ¬ (file.head? == some '/') = true := by
    intro h
    exact slash (List.mem_of_mem_head? (by simpa using h))
  rw [filePath, if_neg hhead]
  by_cases hdir : dir = [] ∨ dir.getLast? = some '/'
  · rw [if_pos (by rcases hdir with h | h <;> simp [h])]
    exact fileName_append slash hdir
  · rw [if_neg (by simpa [hne] using hdir), ← List.singleton_append, ← List.append_assoc]
    exact fileName_append slash (.inr (by simp))

end QFileInfo

inductive EmulatedType where
  | hardDiskImage | containerHardDisk | other
deriving DecidableEq, Repr

structure HardDisk extends BackupDevice.CVmHardDisk where
  emulatedType : EmulatedType
  systemName : QString
  userFriendlyName : QString
  /-- `Clustered::Flavor::isRaw` of the disk. -/
  isRaw : Bool
deriving DecidableEq

/-- What an archive is made of. -/
structure Component where
  device : HardDisk
  image : QString
  home : QString
deriving DecidableEq

/-- The end of the names of archives, which is put after the name of an image. -/
structure Suffix where
  text : QString
  slash : '/' ∉ text
  ne_nil : text ≠ []

namespace Suffix

/-- The end that a `Model` starts with. -/
def tib : Suffix := ⟨['.', 't', 'i', 'b'], by decide, by decide⟩

/-- `Suffix(index)()`, with the number from which on items are numbered. -/
def numbered (PRL_PARTIAL_BACKUP_START_NUMBER index : Nat) : Suffix where
  text := (if PRL_PARTIAL_BACKUP_START_NUMBER ≤ index then '.' :: Nat.toDigits 10 index else []) ++
    ['.', 'q', 'c', 'o', 'w', '2']
  slash := by
    have hdigits : '/' ∉ Nat.toDigits 10 index := by
      intro h
      have hdigit := Nat.isDigit_of_mem_toDigits (by decide) (by decide) h
      revert hdigit
      decide
    split <;> simp [hdigits]
  ne_nil := by simp

end Suffix

/-- `Product::Model`, with the hard disks of its configuration. -/
structure Model where
  store : QString
  home : QString
  hardDisks : List HardDisk
  suffix : Suffix

namespace Model

variable (model : Model) (fuel : Nat)

/-- `getImages` of the configuration. -/
def getImages : List HardDisk :=
  model.hardDisks.filter fun d => d.enabled == .enabled &&
    (d.emulatedType == .hardDiskImage || d.emulatedType == .containerHardDisk) &&
    !BackupDevice.Finding.isKindOf d.toCVmHardDisk

/-- The loop that searches a name, with a bound on its rounds. -/
def getTibName (prototype : QString) (met : List QString) : Option QString :=
  freeName '_' met fuel (QFileInfo.fileName prototype ++ model.suffix.text)

/-- The loop of `getCtTibs` over the images after the first one, `t` being the last archive. -/
def ctTibs : List HardDisk → QString → List QString → Option (List (Component × QString))
  | [], _, _ => some []
  | h :: g, t, w => do
      let w := w ++ [QFileInfo.fileName t]
      let n := h.userFriendlyName
      let t := QFileInfo.filePath model.store (← model.getTibName fuel n w)
      let rest ← ctTibs g t w
      return (⟨h, n, model.home⟩, t) :: rest

def getCtTibs : Option (List (Component × QString)) :=
  match model.getImages with
  | [] => some []
  | front :: g => do
      let n := front.userFriendlyName
      let r := if n.isEmpty then ['r', 'o', 'o', 't', '.', 'h', 'd', 'd'] else n
      let t := QFileInfo.filePath model.store
        ['p', 'r', 'i', 'v', 'a', 't', 'e', '.', 't', 'i', 'b']
      let rest ← model.ctTibs fuel g t []
      return (⟨front, r, model.home⟩, t) :: rest

/-- The name without the slashes at its end. -/
def chopped (n : QString) : QString :=
  (n.reverse.dropWhile fun c => c == '/').reverse

def vmTibs : List HardDisk → List QString → Option (List (Component × QString))
  | [], _ => some []
  | h :: g, w =>
      if h.isRaw then vmTibs g w
      else do
        let n := chopped h.systemName
        let t := QFileInfo.filePath model.store (← model.getTibName fuel n w)
        let rest ← vmTibs g (w ++ [QFileInfo.fileName t])
        return (⟨h, n, model.home⟩, t) :: rest

def getVmTibs : Option (List (Component × QString)) :=
  model.vmTibs fuel model.getImages []

end Model

end DispService.Product

/-! No two images of a machine share an archive: every name is searched until no earlier archive
has it, and the search ends. -/
namespace DispService.Product

open Lib

/-- The name of an archive. -/
def archiveName (t : Component × QString) : QString :=
  QFileInfo.fileName t.2

/-- Archives for the images `images`, one for each and in their order, under names that differ from
each other and from those that are `met`. -/
structure Assigned (images : List HardDisk) (met : List QString)
    (tibs : List (Component × QString)) : Prop where
  devices : tibs.map (fun t => t.1.device) = images
  distinct : (tibs.map archiveName).Nodup
  apart : ∀ name ∈ met, name ∉ tibs.map archiveName

section Assigned

variable {model : Model} {fuel : Nat} {images : List HardDisk} {met : List QString}
  {tibs : List (Component × QString)}

theorem Assigned.nil : Assigned [] met [] :=
  ⟨rfl, List.nodup_nil, fun _ _ => List.not_mem_nil⟩

/-- One more archive before the others, whose search has met its name. -/
theorem Assigned.cons {t : Component × QString} {disk : HardDisk} (device : t.1.device = disk)
    (free : archiveName t ∉ met) (h : Assigned images (met ++ [archiveName t]) tibs) :
    Assigned (disk :: images) met (t :: tibs) where
  devices := by rw [List.map_cons, h.devices, device]
  distinct := by
    rw [List.map_cons]
    exact List.nodup_cons.mpr ⟨h.apart _ (by simp), h.distinct⟩
  apart := by
    intro name hname hmem
    rw [List.map_cons] at hmem
    rcases List.mem_cons.mp hmem with rfl | hmem
    · exact free hname
    · exact h.apart name (List.mem_append_left _ hname) hmem

/-- The name that is found is that of the file in the store. -/
theorem getTibName_some (prototype : QString) (enough : met.length < fuel) :
    ∃ name, model.getTibName fuel prototype met = some name ∧ name ∉ met ∧
      QFileInfo.fileName (QFileInfo.filePath model.store name) = name := by
  obtain ⟨k, hk, hfree⟩ := @freeName_some _ '_' met
    (QFileInfo.fileName prototype ++ model.suffix.text) _ _ (Nat.lt_of_le_of_lt ahead_le enough)
  refine ⟨_, hk, hfree, QFileInfo.fileName_filePath ?_ ?_⟩
  · simp [QFileInfo.fileName_slash, model.suffix.slash]
  · simp [model.suffix.ne_nil]

theorem vmTibs_assigned (enough : met.length + images.length < fuel) :
    ∃ tibs, model.vmTibs fuel images met = some tibs ∧
      Assigned (images.filter fun h => !h.isRaw) met tibs := by
  induction images generalizing met with
  | nil => exact ⟨[], rfl, .nil⟩
  | cons h g ih =>
      rw [List.length_cons] at enough
      rw [Model.vmTibs]
      cases hraw : h.isRaw with
      | true =>
          rw [if_pos rfl, List.filter_cons_of_neg (by simp [hraw])]
          exact ih (by omega)
      | false =>
          obtain ⟨name, hname, hfree, hfile⟩ := @getTibName_some model fuel met
            (Model.chopped h.systemName) (by omega)
          obtain ⟨rest, hrest, assigned⟩ := @ih (met ++ [name]) (by simp; omega)
          refine ⟨(⟨h, Model.chopped h.systemName, model.home⟩,
            QFileInfo.filePath model.store name) :: rest, ?_, ?_⟩
          · simp only [Bool.false_eq_true, if_false, hname, hfile, hrest, Option.bind_eq_bind,
              Option.bind_some, Option.pure_def]
          · rw [List.filter_cons_of_pos (by simp [hraw])]
            refine .cons rfl ?_ ?_
            · rwa [archiveName, hfile]
            · rwa [archiveName, hfile]

theorem ctTibs_assigned {t : QString} (enough : met.length + images.length < fuel) :
    ∃ tibs, model.ctTibs fuel images t met = some tibs ∧
      Assigned images (met ++ [QFileInfo.fileName t]) tibs := by
  induction images generalizing met t with
  | nil => exact ⟨[], rfl, .nil⟩
  | cons h g ih =>
      rw [List.length_cons] at enough
      obtain ⟨name, hname, hfree, hfile⟩ := @getTibName_some model fuel
        (met ++ [QFileInfo.fileName t]) h.userFriendlyName (by simp; omega)
      obtain ⟨rest, hrest, assigned⟩ := @ih (met ++ [QFileInfo.fileName t])
        (QFileInfo.filePath model.store name) (by simp; omega)
      refine ⟨(⟨h, h.userFriendlyName, model.home⟩, QFileInfo.filePath model.store name) :: rest,
        ?_, .cons rfl ?_ ?_⟩
      · simp only [Model.ctTibs, hname, hrest, Option.bind_eq_bind, Option.bind_some,
          Option.pure_def]
      · rwa [archiveName, hfile]
      · exact assigned

theorem getVmTibs_assigned (enough : model.getImages.length < fuel) :
    ∃ tibs, model.getVmTibs fuel = some tibs ∧
      Assigned (model.getImages.filter fun h => !h.isRaw) [] tibs :=
  vmTibs_assigned (by simpa using enough)

theorem getCtTibs_assigned (enough : model.getImages.length < fuel) :
    ∃ tibs, model.getCtTibs fuel = some tibs ∧ Assigned model.getImages [] tibs := by
  unfold Model.getCtTibs
  cases himages : model.getImages with
  | nil => exact ⟨[], rfl, .nil⟩
  | cons front g =>
      rw [himages, List.length_cons] at enough
      obtain ⟨rest, hrest, assigned⟩ := @ctTibs_assigned model fuel g []
        (QFileInfo.filePath model.store
          ['p', 'r', 'i', 'v', 'a', 't', 'e', '.', 't', 'i', 'b']) (by simp; omega)
      refine ⟨_, ?_, .cons (t := (⟨front, if front.userFriendlyName.isEmpty then
        ['r', 'o', 'o', 't', '.', 'h', 'd', 'd'] else front.userFriendlyName, model.home⟩, _)) rfl
        List.not_mem_nil assigned⟩
      simp only [hrest, Option.bind_eq_bind, Option.bind_some, Option.pure_def]
      rfl

end Assigned

/-- With more rounds than there are images, every search ends, and the archives are one for each
image, in order, under distinct names. -/
theorem tibs_distinct (model : Model) (fuel : Nat) (enough : model.getImages.length < fuel) :
    (∃ tibs, model.getCtTibs fuel = some tibs ∧
      tibs.map (fun t => t.1.device) = model.getImages ∧ (tibs.map archiveName).Nodup) ∧
    ∃ tibs, model.getVmTibs fuel = some tibs ∧
      tibs.map (fun t => t.1.device) = model.getImages.filter (fun h => !h.isRaw) ∧
      (tibs.map archiveName).Nodup := by
  obtain ⟨ct, hct, assigned⟩ := getCtTibs_assigned enough
  obtain ⟨vm, hvm, assigned'⟩ := getVmTibs_assigned enough
  exact ⟨⟨ct, hct, assigned.devices, assigned.distinct⟩,
    ⟨vm, hvm, assigned'.devices, assigned'.distinct⟩⟩

/-- A disk image under a name. -/
def imageNamed (index : Int) (name : QString) : HardDisk where
  index := index
  enabled := .enabled
  connected := .connected
  storageURL := ⟨true, false, "", ""⟩
  emulatedType := .hardDiskImage
  systemName := name
  userFriendlyName := name
  isRaw := false

/-- Three images of one name, the last of which already has the letter before it. -/
def sameNames : Model where
  store := ['/', 's']
  home := ['/', 'h']
  hardDisks := [imageNamed 0 ['/', 'a', '/', 'd'], imageNamed 1 ['/', 'b', '/', 'd', '/'],
    imageNamed 2 ['/', 'a', '/', '_', 'd']]
  suffix := .tib

theorem tibs_distinct_same :
    (∃ tibs, sameNames.getCtTibs 4 = some tibs ∧
      tibs.map (fun t => t.1.device) = sameNames.getImages ∧ (tibs.map archiveName).Nodup) ∧
    ∃ tibs, sameNames.getVmTibs 4 = some tibs ∧
      tibs.map (fun t => t.1.device) = sameNames.getImages.filter (fun h => !h.isRaw) ∧
      (tibs.map archiveName).Nodup :=
  tibs_distinct sameNames 4 (by decide)

example : (sameNames.getVmTibs 4).map (List.map archiveName) =
    some [['d', '.', 't', 'i', 'b'], ['_', 'd', '.', 't', 'i', 'b'],
      ['_', '_', 'd', '.', 't', 'i', 'b']] := by decide

end DispService.Product
