import Mathlib.Data.List.Nodup

/-! The disks and drives of a configuration, and the names of their targets in the domain XML. -/
namespace DispService.Transponster

inductive PrlMassStorageInterfaceType where
  | ide
  | scsi
  | sata
  | virtioBlock
  | usb
  | other (value : Nat)
deriving DecidableEq, Repr

inductive PrlClusteredDeviceSubtype where
  | busLogic
  | lsiSas
  | lsiSpi
  | virtioScsi
  | hyperVScsi
  | other
deriving DecidableEq, Repr

inductive EBus where
  | ide
  | fdc
  | scsi
  | virtio
  | usb
  | sata
deriving DecidableEq, Repr

namespace PrlMassStorageInterfaceType

/-- The prefix of the names of its targets. -/
def target : PrlMassStorageInterfaceType → String
  | ide => "hd"
  | scsi => "sd"
  | sata => "hd"
  | virtioBlock => "vd"
  | usb => "sd"
  | other _ => "xx"

def bus : PrlMassStorageInterfaceType → Option EBus
  | ide => some .ide
  | scsi => some .scsi
  | sata => some .sata
  | virtioBlock => some .virtio
  | usb => some .usb
  | other _ => none

end PrlMassStorageInterfaceType

inductive EModel where
  | auto
  | buslogic
  | lsilogic
  | lsisas1078
  | virtioScsi
  | hvScsi
deriving DecidableEq, Repr

inductive EmulatedType where
  | real
  | image
  | other
deriving DecidableEq, Repr

structure CVmClusteredDevice where
  index : UInt32
  enabled : Bool
  connected : Bool
  emulatedType : EmulatedType
  interfaceType : PrlMassStorageInterfaceType
  stackIndex : UInt32
  subType : PrlClusteredDeviceSubtype
deriving DecidableEq, Repr

/-- The place that the configuration gives to a device. -/
def CVmClusteredDevice.place (d : CVmClusteredDevice) : PrlMassStorageInterfaceType × UInt32 :=
  (d.interfaceType, d.stackIndex)

/-- What a device is wrapped in by its builder. -/
inductive Clustered where
  | hardDisk (d : CVmClusteredDevice)
  | opticalDisk (d : CVmClusteredDevice)
  | floppyDisk (d : CVmClusteredDevice)
deriving DecidableEq, Repr

namespace Clustered

variable (toBase26 : UInt32 → String)

def dataSource : Clustered → CVmClusteredDevice
  | hardDisk d | opticalDisk d | floppyDisk d => d

def getTarget (m : Clustered) : String :=
  m.dataSource.interfaceType.target

def getTargetName : Clustered → String
  | floppyDisk d => "fd" ++ toBase26 d.index
  | m => m.getTarget ++ toBase26 m.dataSource.stackIndex

def getBus : Clustered → Option EBus
  | floppyDisk _ => some .fdc
  | m => m.dataSource.interfaceType.bus

def getScsiModel (m : Clustered) : Option EModel :=
  match m.dataSource.subType with
  | .busLogic => some .buslogic
  | .lsiSas => some .lsisas1078
  | .lsiSpi => some .lsilogic
  | .virtioScsi => some .virtioScsi
  | .hyperVScsi => some .hvScsi
  | .other => none

/-- The devices for which `Boot::List::add` builds something. -/
def Added : Clustered → Bool
  | hardDisk d => d.enabled
  | opticalDisk d => decide (d.emulatedType ≠ .real) && d.enabled
  | floppyDisk d => d.enabled

end Clustered

/-- The disks and drives of `CVmHardware`. -/
structure Drives where
  m_lstHardDisks : List CVmClusteredDevice
  m_lstFloppyDisks : List CVmClusteredDevice
  m_lstOpticalDisks : List CVmClusteredDevice

namespace Drives

variable (h : Drives) (toBase26 : UInt32 → String)

def devices : List CVmClusteredDevice :=
  h.m_lstHardDisks ++ h.m_lstFloppyDisks ++ h.m_lstOpticalDisks

/-- What `Builder::setDevices` builds, in its order. -/
def built : List Clustered :=
  ((h.m_lstHardDisks.filter CVmClusteredDevice.connected).map Clustered.hardDisk ++
    h.m_lstFloppyDisks.map Clustered.floppyDisk ++
    h.m_lstOpticalDisks.map Clustered.opticalDisk).filter Clustered.Added

/-- No two devices share a prefix of their interfaces and an index. -/
structure Apart : Prop where
  ide_sata : ∀ a ∈ h.built, ∀ b ∈ h.built, a.getBus = some .ide → b.getBus = some .sata →
    a.dataSource.stackIndex ≠ b.dataSource.stackIndex
  scsi_usb : ∀ a ∈ h.built, ∀ b ∈ h.built, a.getBus = some .scsi → b.getBus = some .usb →
    a.dataSource.stackIndex ≠ b.dataSource.stackIndex
  others : ∀ a ∈ h.built, ∀ b ∈ h.built, a.getBus = none → b.getBus = none →
    a.dataSource.interfaceType ≠ b.dataSource.interfaceType →
    a.dataSource.stackIndex ≠ b.dataSource.stackIndex
  floppies : (h.m_lstFloppyDisks.filter CVmClusteredDevice.enabled).Pairwise fun a b => a.index ≠ b.index

end Drives

section Names

variable {h : Drives} {toBase26 : UInt32 → String} {a b : Clustered}

theorem append_inj_two {p q x y : String} (hlength : p.length = q.length) :
    p ++ x = q ++ y ↔ p = q ∧ x = y := by
  constructor
  · intro heq
    have hlist := congrArg String.toList heq
    rw [String.toList_append, String.toList_append] at hlist
    obtain ⟨hp, hx⟩ := List.append_inj hlist hlength
    exact ⟨String.toList_inj.mp hp, String.toList_inj.mp hx⟩
  · rintro ⟨rfl, rfl⟩
    rfl

theorem target_length (i : PrlMassStorageInterfaceType) : i.target.length = 2 := by
  cases i <;> simp only [PrlMassStorageInterfaceType.target] <;> rfl

/-- The interfaces with one prefix. -/
theorem target_eq_iff {i j : PrlMassStorageInterfaceType} : i.target = j.target ↔ i = j ∨
    (i.bus = some .ide ∧ j.bus = some .sata ∨ i.bus = some .sata ∧ j.bus = some .ide) ∨
    (i.bus = some .scsi ∧ j.bus = some .usb ∨ i.bus = some .usb ∧ j.bus = some .scsi) ∨
    i.bus = none ∧ j.bus = none := by
  cases i <;> cases j <;> simp [PrlMassStorageInterfaceType.target, PrlMassStorageInterfaceType.bus]

theorem floppy_name_iff (hinjective : Function.Injective toBase26) {d d' : CVmClusteredDevice} :
    (Clustered.floppyDisk d).getTargetName toBase26 = (Clustered.floppyDisk d').getTargetName toBase26 ↔
      d.index = d'.index := by
  unfold Clustered.getTargetName
  rw [append_inj_two rfl]
  exact ⟨fun heq => hinjective heq.2, fun heq => ⟨rfl, congrArg toBase26 heq⟩⟩

theorem disk_name (hb : ∀ d, b ≠ .floppyDisk d) : b.getTargetName toBase26 =
    b.dataSource.interfaceType.target ++ toBase26 b.dataSource.stackIndex := by
  cases b with
  | floppyDisk d => exact absurd rfl (hb d)
  | hardDisk d => rfl
  | opticalDisk d => rfl

theorem disk_bus (hb : ∀ d, b ≠ .floppyDisk d) : b.getBus = b.dataSource.interfaceType.bus := by
  cases b with
  | floppyDisk d => exact absurd rfl (hb d)
  | hardDisk d => rfl
  | opticalDisk d => rfl

theorem disk_of_bus (hb : b.getBus ≠ some .fdc) (d : CVmClusteredDevice) : b ≠ .floppyDisk d := by
  rintro rfl
  exact hb rfl

/-- No floppy has the name of a disk. -/
theorem floppy_name_ne {d : CVmClusteredDevice} (hb : ∀ d', b ≠ .floppyDisk d') :
    (Clustered.floppyDisk d).getTargetName toBase26 ≠ b.getTargetName toBase26 := by
  rw [disk_name hb, Clustered.getTargetName, ne_eq, append_inj_two (by rw [target_length]; rfl)]
  rintro ⟨hfd, -⟩
  cases hi : b.dataSource.interfaceType <;> simp [hi, PrlMassStorageInterfaceType.target] at hfd

theorem disk_name_iff (hinjective : Function.Injective toBase26) (ha : ∀ d, a ≠ .floppyDisk d)
    (hb : ∀ d, b ≠ .floppyDisk d) : a.getTargetName toBase26 = b.getTargetName toBase26 ↔
      a.dataSource.interfaceType.target = b.dataSource.interfaceType.target ∧
        a.dataSource.stackIndex = b.dataSource.stackIndex := by
  rw [disk_name ha, disk_name hb, append_inj_two (by rw [target_length, target_length])]
  exact and_congr_right fun _ => ⟨fun heq => hinjective heq, congrArg toBase26⟩

theorem built_eq : h.built =
    ((h.m_lstHardDisks.filter CVmClusteredDevice.connected).filter CVmClusteredDevice.enabled).map
      Clustered.hardDisk ++
    (h.m_lstFloppyDisks.filter CVmClusteredDevice.enabled).map Clustered.floppyDisk ++
    (h.m_lstOpticalDisks.filter fun d => decide (d.emulatedType ≠ .real) && d.enabled).map
      Clustered.opticalDisk := by
  unfold Drives.built
  rw [List.filter_append, List.filter_append, List.filter_map, List.filter_map, List.filter_map]
  rfl

theorem built_places (distinct : (h.devices.map CVmClusteredDevice.place).Nodup) :
    h.built.Pairwise fun a b => a.dataSource.place ≠ b.dataSource.place := by
  have hsublist : (h.built.map Clustered.dataSource).Sublist h.devices := by
    rw [built_eq]
    simp only [List.map_append, List.map_map]
    refine .append (.append ?_ ?_) ?_
    · exact (List.map_id _).symm ▸ (List.filter_sublist.trans List.filter_sublist)
    · exact (List.map_id _).symm ▸ List.filter_sublist
    · exact (List.map_id _).symm ▸ List.filter_sublist
  have hnodup := (hsublist.map CVmClusteredDevice.place).nodup distinct
  rw [List.map_map] at hnodup
  exact List.pairwise_map.mp hnodup

theorem names_apart (hinjective : Function.Injective toBase26)
    (hnames : (h.built.map (Clustered.getTargetName toBase26)).Nodup) : h.Apart := by
  -- two disks with one prefix and different interfaces
  have hne : ∀ a ∈ h.built, ∀ b ∈ h.built, a.getBus ≠ some .fdc → b.getBus ≠ some .fdc →
      a.dataSource.interfaceType.target = b.dataSource.interfaceType.target →
      a.dataSource.interfaceType ≠ b.dataSource.interfaceType →
      a.dataSource.stackIndex ≠ b.dataSource.stackIndex := by
    intro a ha b hb hfa hfb htarget hother hstack
    have hname := (disk_name_iff hinjective (disk_of_bus hfa) (disk_of_bus hfb)).mpr
      ⟨htarget, hstack⟩
    exact hother (congrArg (fun c => c.dataSource.interfaceType)
      (List.inj_on_of_nodup_map hnames ha hb hname))
  refine ⟨fun a ha b hb hba hbb => ?_, fun a ha b hb hba hbb => ?_,
    fun a ha b hb hba hbb hother => ?_, ?_⟩
  · have hfa : a.getBus ≠ some .fdc := by rw [hba]; decide
    have hfb : b.getBus ≠ some .fdc := by rw [hbb]; decide
    rw [disk_bus (disk_of_bus hfa)] at hba
    rw [disk_bus (disk_of_bus hfb)] at hbb
    refine hne a ha b hb hfa hfb (target_eq_iff.mpr (.inr (.inl (.inl ⟨hba, hbb⟩)))) fun heq => ?_
    rw [heq, hbb] at hba
    cases hba
  · have hfa : a.getBus ≠ some .fdc := by rw [hba]; decide
    have hfb : b.getBus ≠ some .fdc := by rw [hbb]; decide
    rw [disk_bus (disk_of_bus hfa)] at hba
    rw [disk_bus (disk_of_bus hfb)] at hbb
    refine hne a ha b hb hfa hfb (target_eq_iff.mpr (.inr (.inr (.inl (.inl ⟨hba, hbb⟩)))))
      fun heq => ?_
    rw [heq, hbb] at hba
    cases hba
  · have hfa : a.getBus ≠ some .fdc := by rw [hba]; decide
    have hfb : b.getBus ≠ some .fdc := by rw [hbb]; decide
    rw [disk_bus (disk_of_bus hfa)] at hba
    rw [disk_bus (disk_of_bus hfb)] at hbb
    exact hne a ha b hb hfa hfb (target_eq_iff.mpr (.inr (.inr (.inr ⟨hba, hbb⟩)))) hother
  · have hsublist : ((h.m_lstFloppyDisks.filter CVmClusteredDevice.enabled).map
        Clustered.floppyDisk).Sublist h.built := by
      rw [built_eq]
      exact (List.sublist_append_right _ _).trans (List.sublist_append_left _ _)
    have hfloppies := (hsublist.map (Clustered.getTargetName toBase26)).nodup hnames
    rw [List.map_map] at hfloppies
    refine (List.pairwise_map.mp hfloppies).imp fun hother heq => ?_
    exact hother ((floppy_name_iff hinjective).mpr heq)

theorem apart_names (hinjective : Function.Injective toBase26)
    (distinct : (h.devices.map CVmClusteredDevice.place).Nodup) (hapart : h.Apart) :
    (h.built.map (Clustered.getTargetName toBase26)).Nodup := by
  have hfloppies : h.built.Pairwise fun a b =>
      ∀ d d', a = .floppyDisk d → b = .floppyDisk d' → d.index ≠ d'.index := by
    rw [built_eq, List.pairwise_append, List.pairwise_append]
    refine ⟨⟨List.pairwise_map.mpr (List.pairwise_of_forall fun a b d d' hno => by cases hno),
      List.pairwise_map.mpr (hapart.floppies.imp ?_), ?_⟩,
      List.pairwise_map.mpr (List.pairwise_of_forall fun a b d d' hno => by cases hno), ?_⟩
    · rintro a b hindex d d' ⟨⟩ ⟨⟩
      exact hindex
    · rintro a ha b - d d' rfl
      obtain ⟨e, -, hno⟩ := List.mem_map.mp ha
      cases hno
    · rintro a - b hb d d' - rfl
      obtain ⟨e, -, hno⟩ := List.mem_map.mp hb
      cases hno
  refine List.pairwise_map.mpr (((built_places distinct).and hfloppies).imp_of_mem ?_)
  rintro a b ha hb ⟨hplace, hindex⟩ hname
  by_cases hfa : ∃ d, a = .floppyDisk d
  · obtain ⟨d, rfl⟩ := hfa
    by_cases hfb : ∃ d', b = .floppyDisk d'
    · obtain ⟨d', rfl⟩ := hfb
      exact hindex d d' rfl rfl ((floppy_name_iff hinjective).mp hname)
    · exact floppy_name_ne (fun d' hno => hfb ⟨d', hno⟩) hname
  · by_cases hfb : ∃ d', b = .floppyDisk d'
    · obtain ⟨d', rfl⟩ := hfb
      exact floppy_name_ne (fun d' hno => hfa ⟨d', hno⟩) hname.symm
    · have hda : ∀ d, a ≠ .floppyDisk d := fun d hno => hfa ⟨d, hno⟩
      have hdb : ∀ d, b ≠ .floppyDisk d := fun d hno => hfb ⟨d, hno⟩
      obtain ⟨htarget, hstack⟩ := (disk_name_iff hinjective hda hdb).mp hname
      have hother : a.dataSource.interfaceType ≠ b.dataSource.interfaceType :=
        fun hsame => hplace (Prod.ext hsame hstack)
      rcases target_eq_iff.mp htarget with hsame | hcases
      · exact hother hsame
      · rw [← disk_bus hda, ← disk_bus hdb] at hcases
        rcases hcases with (⟨hide, hsata⟩ | ⟨hsata, hide⟩) | (⟨hscsi, husb⟩ | ⟨husb, hscsi⟩) |
          ⟨hnone, hnone'⟩
        · exact hapart.ide_sata a ha b hb hide hsata hstack
        · exact hapart.ide_sata b hb a ha hide hsata hstack.symm
        · exact hapart.scsi_usb a ha b hb hscsi husb hstack
        · exact hapart.scsi_usb b hb a ha hscsi husb hstack.symm
        · exact hapart.others a ha b hb hnone hnone' hother hstack

/-- The targets have different names just if no two disks share a prefix of their interfaces and an
index, and no two floppies an item index. -/
theorem names_nodup_iff (hinjective : Function.Injective toBase26)
    (distinct : (h.devices.map CVmClusteredDevice.place).Nodup) :
    (h.built.map (Clustered.getTargetName toBase26)).Nodup ↔ h.Apart :=
  ⟨names_apart hinjective, apart_names hinjective distinct⟩

end Names

/-- A hard disk at a place. -/
def diskAt (i : PrlMassStorageInterfaceType) (stackIndex : UInt32) : CVmClusteredDevice :=
  ⟨0, true, true, .image, i, stackIndex, .other⟩

/-- Names by length, which begin like those of base 26. -/
def unary (n : UInt32) : String :=
  String.ofList (List.replicate (n.toNat + 1) 'a')

theorem unary_injective : Function.Injective unary := by
  intro m n heq
  have hlength := congrArg List.length (String.ofList_injective heq)
  rw [List.length_replicate, List.length_replicate] at hlength
  exact UInt32.toNat_inj.mp (Nat.succ.inj hlength)

theorem names_nodup_two :
    (([diskAt .ide 0, diskAt .scsi 0].map fun d => Clustered.getTargetName unary (.hardDisk d)) =
      ["hda", "sda"]) ∧
    (((⟨[diskAt .ide 0, diskAt .scsi 0], [], []⟩ : Drives).built.map
      (Clustered.getTargetName unary)).Nodup ↔
        (⟨[diskAt .ide 0, diskAt .scsi 0], [], []⟩ : Drives).Apart) :=
  ⟨rfl, names_nodup_iff unary_injective (by decide)⟩

/-- An IDE disk and a SATA disk with one index have one name. -/
theorem names_clash : ¬ ∀ (toBase26 : UInt32 → String) (h : Drives),
    Function.Injective toBase26 → (h.devices.map CVmClusteredDevice.place).Nodup →
    (h.built.map (Clustered.getTargetName toBase26)).Nodup := by
  intro hall
  have hnodup := hall unary ⟨[diskAt .ide 0, diskAt .sata 0], [], []⟩ unary_injective (by decide)
  revert hnodup
  decide

end DispService.Transponster
