import DispService.Lib.PathText

/-! The paths of devices that move with the home of a machine. -/
namespace DispService.Edit.DevicePath

open Lib.PathText

inductive DeviceType where
  | hardDisk
  | opticalDisk
  | floppyDisk
  | serialPort
  | parallelPort
deriving DecidableEq

inductive EmulatedType where
  | useRealHdd
  | useImageFile
  | useOutputFile
  | serialSocket
  | other (n : Nat)
deriving DecidableEq

structure CVmDevice where
  deviceType : DeviceType
  emulatedType : EmulatedType
  userFriendlyName : Text
  systemName : Text
deriving DecidableEq

/-- The devices whose paths are corrected, and the store of the firmware. -/
structure CVmConfiguration where
  m_lstOpticalDisks : List CVmDevice
  m_lstFloppyDisks : List CVmDevice
  m_lstSerialPorts : List CVmDevice
  m_lstParallelPorts : List CVmDevice
  m_lstHardDisks : List CVmDevice
  nvram : Text
deriving DecidableEq

section Correct

/-- `BuildDevicePath`, where the path that Qt makes of an absolute one is a parameter. -/
def buildDevicePath (absolute : Text → Text) (sOldVmHomePath sNewVmHomePath sDevicePath : Text) :
    Text :=
  if ¬ IsAbsolute sDevicePath then sDevicePath
  else
    let sCorrectedPath := absolute sDevicePath
    let sNormalizedOldVmHomePath := absolute sOldVmHomePath
    let sNormalizedNewVmHomePath := absolute sNewVmHomePath
    if sNormalizedOldVmHomePath <+: sCorrectedPath then
      sNormalizedNewVmHomePath ++ sCorrectedPath.drop sNormalizedOldVmHomePath.length
    else sCorrectedPath

namespace CVmDevice

variable (vmDevice : CVmDevice)

def isRealHdd : Bool :=
  vmDevice.deviceType = .hardDisk && vmDevice.emulatedType = .useRealHdd

def isFile : Bool :=
  vmDevice.emulatedType = .useImageFile || vmDevice.emulatedType = .useOutputFile ||
    vmDevice.emulatedType = .serialSocket && vmDevice.deviceType = .serialPort

/-- `CorrectDevicePaths`, for a way to correct a path. -/
def correct (build : Text → Text) : CVmDevice :=
  if vmDevice.isRealHdd || vmDevice.isFile then
    let d := if !vmDevice.isRealHdd then
        { vmDevice with userFriendlyName := build vmDevice.userFriendlyName }
      else vmDevice
    { d with systemName := build vmDevice.systemName }
  else vmDevice

/-- The paths of a device that are corrected. -/
def corrected : List Text :=
  if vmDevice.isRealHdd then [vmDevice.systemName]
  else if vmDevice.isFile then [vmDevice.userFriendlyName, vmDevice.systemName]
  else []

end CVmDevice

namespace CVmConfiguration

variable (c : CVmConfiguration)

/-- `CorrectDevicePathsInVmConfig`, for a way to correct a path. -/
def correct (build : Text → Text) : CVmConfiguration where
  m_lstOpticalDisks := c.m_lstOpticalDisks.map (·.correct build)
  m_lstFloppyDisks := c.m_lstFloppyDisks.map (·.correct build)
  m_lstSerialPorts := c.m_lstSerialPorts.map (·.correct build)
  m_lstParallelPorts := c.m_lstParallelPorts.map (·.correct build)
  m_lstHardDisks := c.m_lstHardDisks.map (·.correct build)
  nvram := build c.nvram

def devices : List CVmDevice :=
  c.m_lstOpticalDisks ++ c.m_lstFloppyDisks ++ c.m_lstSerialPorts ++ c.m_lstParallelPorts ++
    c.m_lstHardDisks

def corrected : List Text := c.nvram :: c.devices.flatMap CVmDevice.corrected

/-- All paths of a configuration. -/
def paths : List Text :=
  c.nvram :: c.devices.flatMap fun d => [d.userFriendlyName, d.systemName]

end CVmConfiguration

variable (absolute : Text → Text)

def correctDevicePathsInVmConfig (pVmConfig : CVmConfiguration)
    (sOldVmHomePath sNewVmHomePath : Text) : CVmConfiguration :=
  pVmConfig.correct (buildDevicePath absolute sOldVmHomePath sNewVmHomePath)

/-- The path is a folder, or is below it. -/
def AtOrBelow (home p : Text) : Prop :=
  IsAbsolute p ∧ (absolute p = home ∨ home ++ ['/'] <+: absolute p)

instance (home p : Text) : Decidable (AtOrBelow absolute home p) :=
  inferInstanceAs (Decidable (_ ∧ _))

/-- A path moves with the old home when it is there. -/
def expected (old new p : Text) : Text :=
  if AtOrBelow absolute old p then new ++ (absolute p).drop old.length else p

/-- What a change of the home does to a configuration. -/
structure Right (old new : Text) (c : CVmConfiguration) : Prop where
  rewritten : correctDevicePathsInVmConfig absolute c old new = c.correct (expected absolute old new)
  restored : (∀ p ∈ c.paths, ¬ AtOrBelow absolute new p) →
    correctDevicePathsInVmConfig absolute (correctDevicePathsInVmConfig absolute c old new) new old =
      c

/-- The absolute paths outside of the old home are written as Qt writes them, and none has the old
home as a part of a name; and the same for the way back. -/
structure Regular (old new : Text) (c : CVmConfiguration) : Prop where
  rewritten : ∀ p ∈ c.corrected, IsAbsolute p →
    AtOrBelow absolute old p ∨ absolute p = p ∧ ¬ old <+: p
  restored : (∀ p ∈ c.paths, ¬ AtOrBelow absolute new p) → ∀ p ∈ c.corrected, IsAbsolute p →
    absolute p = p ∧ (old <+: p ∨ ¬ new <+: p)

end Correct

section Fields

variable {f g : Text → Text}

theorem CVmDevice.correct_eq_iff (d : CVmDevice) :
    d.correct f = d.correct g ↔ ∀ p ∈ d.corrected, f p = g p := by
  rw [correct, correct, corrected]
  cases d.isRealHdd <;> cases d.isFile <;> simp

/-- What a device is does not change with its paths. -/
theorem CVmDevice.correct_types (d : CVmDevice) :
    (d.correct f).deviceType = d.deviceType ∧ (d.correct f).emulatedType = d.emulatedType := by
  rw [correct]
  cases d.isRealHdd <;> cases d.isFile <;> exact ⟨rfl, rfl⟩

theorem CVmDevice.correct_correct (d : CVmDevice) :
    (d.correct f).correct g = d.correct (g ∘ f) := by
  have htypes := d.correct_types (f := f)
  have hreal : (d.correct f).isRealHdd = d.isRealHdd := by
    rw [isRealHdd, htypes.1, htypes.2, ← isRealHdd]
  have hfile : (d.correct f).isFile = d.isFile := by
    rw [isFile, htypes.1, htypes.2, ← isFile]
  rw [correct, hreal, hfile, correct, correct]
  cases d.isRealHdd <;> cases d.isFile <;> rfl

theorem CVmDevice.correct_id (d : CVmDevice) : d.correct id = d := by
  rw [correct]
  cases d.isRealHdd <;> cases d.isFile <;> rfl

theorem devices_eq_iff (l : List CVmDevice) :
    l.map (·.correct f) = l.map (·.correct g) ↔
      ∀ p ∈ l.flatMap CVmDevice.corrected, f p = g p := by
  rw [List.map_inj_left, List.forall_mem_flatMap]
  exact forall₂_congr fun d _ => d.correct_eq_iff

theorem devices_correct_correct (l : List CVmDevice) :
    (l.map (·.correct f)).map (·.correct g) = l.map (·.correct (g ∘ f)) := by
  rw [List.map_map]
  exact List.map_congr_left fun d _ => d.correct_correct

theorem devices_id (l : List CVmDevice) : l.map (·.correct id) = l :=
  (List.map_congr_left fun d _ => d.correct_id).trans (List.map_id _)

/-- Two ways to correct agree just when they do on the paths that are corrected. -/
theorem CVmConfiguration.correct_eq_iff (c : CVmConfiguration) :
    c.correct f = c.correct g ↔ ∀ p ∈ c.corrected, f p = g p := by
  rw [correct, correct, CVmConfiguration.mk.injEq, devices_eq_iff, devices_eq_iff, devices_eq_iff,
    devices_eq_iff, devices_eq_iff, corrected, devices, List.forall_mem_cons]
  simp only [List.flatMap_append, List.forall_mem_append]
  tauto

theorem CVmConfiguration.correct_correct (c : CVmConfiguration) :
    (c.correct f).correct g = c.correct (g ∘ f) := by
  rw [correct, correct, correct]
  simp only [devices_correct_correct, Function.comp_apply]

theorem CVmConfiguration.correct_eq_self (c : CVmConfiguration) :
    c.correct f = c ↔ ∀ p ∈ c.corrected, f p = p := by
  have hid : c.correct id = c := by
    rw [correct]
    simp only [devices_id, id_eq]
  have hiff := c.correct_eq_iff (f := f) (g := id)
  rw [hid] at hiff
  exact hiff

end Fields

section Build

variable {absolute : Text → Text} {old new p t : Text}

theorem build_relative (hp : ¬ IsAbsolute p) : buildDevicePath absolute old new p = p := if_pos hp

/-- A path that begins with the text of the old home gets the new one. -/
theorem build_home (h : Resolves absolute) (hold : Folder old) (hnew : Folder new)
    (hp : IsAbsolute p) (heq : absolute p = old ++ t) :
    buildDevicePath absolute old new p = new ++ t := by
  rw [buildDevicePath, if_neg (not_not.mpr hp)]
  dsimp only
  rw [h.clean old hold.clean, h.clean new hnew.clean, heq, if_pos (List.prefix_append old t),
    List.drop_left]

theorem build_other (h : Resolves absolute) (hold : Folder old) (hp : IsAbsolute p)
    (hnot : ¬ old <+: absolute p) : buildDevicePath absolute old new p = absolute p := by
  rw [buildDevicePath, if_neg (not_not.mpr hp)]
  dsimp only
  rw [h.clean old hold.clean, if_neg hnot]

theorem AtOrBelow.prefix (h : AtOrBelow absolute old p) : old <+: absolute p := by
  rcases h.2 with heq | hbelow
  · exact heq ▸ List.prefix_rfl
  · exact (List.prefix_append old ['/']).trans hbelow

/-- A path becomes what is expected just when it is there, or begins otherwise and is written so. -/
theorem build_expected (h : Resolves absolute) (hold : Folder old) (hnew : Folder new)
    (hne : old ≠ new) :
    buildDevicePath absolute old new p = expected absolute old new p ↔
      (IsAbsolute p → AtOrBelow absolute old p ∨ absolute p = p ∧ ¬ old <+: p) := by
  by_cases hp : IsAbsolute p
  · by_cases hbelow : AtOrBelow absolute old p
    · obtain ⟨t, ht⟩ := hbelow.prefix
      refine iff_of_true ?_ fun _ => .inl hbelow
      rw [build_home h hold hnew hp ht.symm, expected, if_pos hbelow, ← ht, List.drop_left]
    · rw [expected, if_neg hbelow]
      by_cases hprefix : old <+: absolute p
      · obtain ⟨t, ht⟩ := hprefix
        rw [build_home h hold hnew hp ht.symm]
        refine iff_of_false (h.not_moved hold hnew hne hp ht.symm) fun hcond => ?_
        obtain ⟨hwritten, hnot⟩ := (hcond hp).resolve_left hbelow
        rw [hwritten] at ht
        exact hnot ⟨t, ht⟩
      · rw [build_other h hold hp hprefix]
        refine ⟨fun heq _ => .inr ⟨heq, heq ▸ hprefix⟩, fun hcond => ?_⟩
        exact ((hcond hp).resolve_left hbelow).1
  · have hbelow : ¬ AtOrBelow absolute old p := fun hbelow => hp hbelow.1
    refine iff_of_true ?_ fun habs => absurd habs hp
    rw [build_relative hp, expected, if_neg hbelow]

/-- A path comes back just when it is written as Qt writes it, and does not begin with the new home
unless it did with the old one. -/
theorem build_back (h : Resolves absolute) (hold : Folder old) (hnew : Folder new)
    (hne : old ≠ new) :
    buildDevicePath absolute new old (buildDevicePath absolute old new p) = p ↔
      (IsAbsolute p → absolute p = p ∧ (old <+: p ∨ ¬ new <+: p)) := by
  by_cases hp : IsAbsolute p
  · by_cases hprefix : old <+: absolute p
    · obtain ⟨t, ht⟩ := hprefix
      have hclean := (h.clean_append hold hp ht.symm).swap hnew
      rw [build_home h hold hnew hp ht.symm,
        build_home h hnew hold (hnew.1.append t) (h.clean _ hclean)]
      rw [ht]
      refine ⟨fun heq _ => ⟨heq, .inl ⟨t, ht.trans heq⟩⟩, fun hcond => (hcond hp).1⟩
    · have hagain := h.again p hp
      rw [build_other h hold hp hprefix]
      by_cases hback : new <+: absolute p
      · obtain ⟨t, ht⟩ := hback
        rw [build_home h hnew hold (h.stays p hp) (hagain.trans ht.symm)]
        refine iff_of_false (h.not_moved hnew hold hne.symm hp ht.symm) fun hcond => ?_
        obtain ⟨hwritten, hcases⟩ := hcond hp
        rw [hwritten] at ht hprefix
        exact hcases.elim hprefix fun hnot => hnot ⟨t, ht⟩
      · rw [build_other h hnew (h.stays p hp) (hagain.symm ▸ hback), hagain]
        exact ⟨fun heq _ => ⟨heq, .inr (heq ▸ hback)⟩, fun hcond => (hcond hp).1⟩
  · refine iff_of_true ?_ fun habs => absurd habs hp
    rw [build_relative hp, build_relative hp]

/-- The paths of a configuration are corrected as expected, and come back, just when they are
regular. -/
theorem right_iff (h : Resolves absolute) (hold : Folder old) (hnew : Folder new) (hne : old ≠ new)
    (c : CVmConfiguration) : Right absolute old new c ↔ Regular absolute old new c := by
  have hrewritten : correctDevicePathsInVmConfig absolute c old new =
      c.correct (expected absolute old new) ↔
        ∀ p ∈ c.corrected, IsAbsolute p → AtOrBelow absolute old p ∨ absolute p = p ∧ ¬ old <+: p :=
    c.correct_eq_iff.trans (forall₂_congr fun _ _ => build_expected h hold hnew hne)
  have hrestored : correctDevicePathsInVmConfig absolute
      (correctDevicePathsInVmConfig absolute c old new) new old = c ↔
        ∀ p ∈ c.corrected, IsAbsolute p → absolute p = p ∧ (old <+: p ∨ ¬ new <+: p) := by
    rw [correctDevicePathsInVmConfig, correctDevicePathsInVmConfig, c.correct_correct,
      c.correct_eq_self]
    exact forall₂_congr fun _ _ => build_back h hold hnew hne
  exact ⟨fun hr => ⟨hrewritten.mp hr.rewritten, fun hnone => hrestored.mp (hr.restored hnone)⟩,
    fun hr => ⟨hrewritten.mpr hr.rewritten, fun hnone => hrestored.mpr (hr.restored hnone)⟩⟩

end Build

/-- Clean paths as they are. -/
def cleanOnly (p : Text) : Text := if Clean p then p else ['/']

theorem cleanOnly_cases (p : Text) : cleanOnly p = p ∧ Clean p ∨ cleanOnly p = ['/'] := by
  rw [cleanOnly]
  split
  · next hclean => exact .inl ⟨rfl, hclean⟩
  · exact .inr rfl

theorem cleanOnly_resolves : Resolves cleanOnly where
  clean _ hclean := if_pos hclean
  stays p _ := by
    rcases cleanOnly_cases p with ⟨heq, hclean⟩ | heq
    · exact heq.symm ▸ hclean.1
    · exact heq.symm ▸ (by decide)
  again p _ := by
    rcases cleanOnly_cases p with ⟨heq, -⟩ | heq
    · rw [heq, heq]
    · rw [heq]
      decide
  resolved p _ _ := by
    rcases cleanOnly_cases p with ⟨heq, hclean⟩ | heq
    · exact heq.symm ▸ hclean
    · exact heq.symm ▸ (by decide)

/-- A configuration with one disk. -/
def oneDisk (path : Text) : CVmConfiguration :=
  ⟨[], [], [], [], [⟨.hardDisk, .useImageFile, path, path⟩], []⟩

theorem right_inside :
    Right cleanOnly "/vz/a".toList "/vz/b".toList (oneDisk "/vz/a/d".toList) ↔
      Regular cleanOnly "/vz/a".toList "/vz/b".toList (oneDisk "/vz/a/d".toList) :=
  right_iff cleanOnly_resolves (by decide +kernel) (by decide +kernel) (by decide) _

/-- The disk of a sibling folder moves too. -/
theorem not_right_sibling : ¬ ∀ (absolute : Text → Text), Resolves absolute →
    ∀ (old new : Text), Folder old → Folder new → old ≠ new →
      ¬ AtOrBelow absolute old new → ¬ AtOrBelow absolute new old →
      ∀ c : CVmConfiguration, Right absolute old new c := by
  intro hall
  have hright := hall cleanOnly cleanOnly_resolves "/vz/a".toList "/vz/b".toList (by decide +kernel)
    (by decide +kernel) (by decide) (by decide +kernel) (by decide +kernel)
    (oneDisk "/vz/ab/d".toList)
  have hrewritten := hright.rewritten
  revert hrewritten
  decide +kernel

end DispService.Edit.DevicePath
