import DispService.Repair.Clear
import DispService.Repair.Repairer

/-! The merge of the four classes of devices, and of a whole configuration. -/
namespace DispService.Repair

universe u v

theorem HardDisk.found_self (d : Device HardDisk) : HardDisk.found d d = true :=
  if_pos rfl

theorem OpticalDisk.found_iff {n d : Device OpticalDisk} :
    OpticalDisk.found n d = true ↔ opticalDisk.key d.body = opticalDisk.key n.body := by
  unfold OpticalDisk.found opticalDisk
  simp [and_comm]

theorem NetworkAdapter.found_self (text : Text) (d : Device NetworkAdapter) :
    NetworkAdapter.found text d d = true := by
  unfold NetworkAdapter.found
  split <;> exact decide_eq_true rfl

/-- Copying nothing is lawful. -/
theorem Kind.copies_none {κ : Type u} {δ : Type v} (k : Kind κ δ) : k.Copies fun d _ => d :=
  ⟨fun _ _ => rfl, fun _ _ => rfl, fun _ => rfl⟩

theorem hardDisk_lawful : hardDisk.Lawful where
  copy :=
    { header := fun _ _ => rfl
      key := fun _ _ => rfl
      self := by
        intro d
        unfold hardDisk HardDisk.copy
        simp only [ite_self] }
  settle := hardDisk.copies_none
  own := fun _ _ x _ _ _ => HardDisk.found_self x
  passes := .inr ⟨(·.disabled), by simp [hardDisk], fun _ h => h⟩

theorem opticalDisk_lawful : opticalDisk.Lawful where
  copy := ⟨fun _ _ => rfl, fun _ _ => rfl, fun _ => rfl⟩
  settle :=
    { header := by
        intro d x
        unfold opticalDisk OpticalDisk.settle
        dsimp only
        split <;> rfl
      key := by
        intro d x
        unfold opticalDisk OpticalDisk.settle
        dsimp only
        split <;> rfl
      self := by
        rintro ⟨index, itemId, disabled, connected, body, origin⟩
        cases connected <;> rfl }
  own := fun _ _ _ _ _ _ => OpticalDisk.found_iff.mpr rfl
  passes := .inr ⟨(·.disabled), by simp [opticalDisk], fun _ h => h⟩

/-- A floppy drive is found by the number in its target. -/
theorem floppyDisk_lawful (text : Text) : (floppyDisk text).Lawful where
  copy := (floppyDisk text).copies_none
  settle :=
    { header := by
        intro d x
        unfold floppyDisk FloppyDisk.settle
        dsimp only
        split <;> rfl
      key := by
        intro d x
        unfold floppyDisk FloppyDisk.settle
        dsimp only
        split <;> rfl
      self := by
        rintro ⟨index, itemId, disabled, connected, body, origin⟩
        cases connected <;> rfl }
  own := by
    intro n s x hfound hindex hkey
    have htarget : x.body.targetDeviceName = n.body.targetDeviceName := hkey
    have hdrive := of_decide_eq_true hfound
    refine decide_eq_true ?_
    rw [hindex, hdrive, htarget]
  passes := .inr ⟨(·.disabled), by simp [floppyDisk], fun _ h => h⟩

theorem networkAdapter_lawful (text : Text) : (networkAdapter text).Lawful where
  copy :=
    { header := fun _ _ => rfl
      key := fun _ _ => rfl
      self := by
        intro d
        unfold networkAdapter NetworkAdapter.copy
        simp only [ite_self] }
  settle := (networkAdapter text).copies_none
  own := fun _ _ x _ _ _ => NetworkAdapter.found_self text x
  passes := .inl rfl

section Whole

variable {text : Text} {new old r : Config}

/-- Indices are distinct in each class. -/
structure Config.Distinct (c : Config) : Prop where
  hardDisks : (c.hardDisks.map (·.index)).Nodup
  opticalDisks : (c.opticalDisks.map (·.index)).Nodup
  floppyDisks : (c.floppyDisks.map (·.index)).Nodup
  networkAdapters : (c.networkAdapters.map (·.index)).Nodup

/-- The configuration comes from a domain with exactly the stored enabled devices. -/
structure Config.Translated (text : Text) (old new : Config) : Prop where
  hardDisks : hardDisk.Translated old.hardDisks new.hardDisks
  opticalDisks : opticalDisk.Translated old.opticalDisks new.opticalDisks
  floppyDisks : (floppyDisk text).Translated old.floppyDisks new.floppyDisks
  networkAdapters : (networkAdapter text).Translated old.networkAdapters new.networkAdapters

/-- What the merge promises. -/
structure Config.Repaired (text : Text) (old new merged : Config) : Prop where
  hardDisks : hardDisk.Repaired old.hardDisks new.hardDisks merged.hardDisks
  opticalDisks : opticalDisk.Repaired old.opticalDisks new.opticalDisks merged.opticalDisks
  floppyDisks : (floppyDisk text).Repaired old.floppyDisks new.floppyDisks merged.floppyDisks
  networkAdapters :
    (networkAdapter text).Repaired old.networkAdapters new.networkAdapters merged.networkAdapters
  again : repair text merged merged = merged

/-- When it keeps the promises. -/
structure Config.Clear (text : Text) (old new : Config) : Prop where
  hardDisks : hardDisk.Clear old.hardDisks new.hardDisks
  opticalDisks : opticalDisk.Clear old.opticalDisks new.opticalDisks
  floppyDisks : (floppyDisk text).Clear old.floppyDisks new.floppyDisks
  networkAdapters : (networkAdapter text).Clear old.networkAdapters new.networkAdapters

@[simp]
theorem change_same {type : DeviceType} {i : Nat} {bs : List (BootDevice × Bool)} :
    (change type i i bs).map Prod.fst = bs.map Prod.fst := by
  induction bs with
  | nil => rfl
  | cons b bs ih =>
      obtain ⟨b, left⟩ := b
      unfold change
      split
      · rename_i h
        simp only [Bool.and_eq_true, decide_eq_true_eq] at h
        rw [← h.1.2]
        rfl
      · exact congrArg (b :: ·) ih

/-- The boot list follows the indices: where none changes, it does not. -/
theorem redirect_same {κ : Type u} {type : DeviceType} {boot : List BootDevice}
    {devices : List (Device κ)} : redirect type boot devices devices = boot := by
  unfold redirect
  suffices h : ∀ bs : List (BootDevice × Bool),
      ((devices.zip devices).foldl (fun bs p => change type p.1.index p.2.index bs) bs).map
        Prod.fst = bs.map Prod.fst by
    rw [h, List.map_map]
    exact List.map_id boot
  intro bs
  induction devices generalizing bs with
  | nil => rfl
  | cons d devices ih =>
      rw [List.zip_cons_cons, List.foldl_cons, ih, change_same]

/-- The configuration without its devices. -/
def Config.frame (c : Config) : Config :=
  { c with hardDisks := [], opticalDisks := [], floppyDisks := [], networkAdapters := [] }

attribute [ext] Config

theorem Pivot.frame {c : Config} (hc : c.frame = r.frame) : (Pivot.do_ c r).frame = r.frame := by
  unfold Pivot.do_
  cases hdisplay : r.remoteDisplay with
  | none => exact hc
  | some x =>
      have hself : c.remoteDisplay = some x :=
        (congrArg Config.remoteDisplay hc).trans hdisplay
      rw [← hc]
      unfold Config.frame
      dsimp only
      rw [hself, Option.map_some]

/-- The steps after the indices leave the frame of the stored configuration. -/
theorem step_frame {c : Config} {step : Step} (hstep : step ∈ (untranslatableTypes text).drop 5)
    (hc : c.frame = r.frame) : (step c r).frame = r.frame := by
  simp only [untranslatableTypes, List.drop_succ_cons, List.drop_zero, List.mem_cons,
    List.not_mem_nil, or_false] at hstep
  rcases hstep with rfl | rfl | rfl | rfl | rfl | rfl | rfl
  · have hcpu : c.cpu = r.cpu := congrArg (·.cpu) hc
    rw [← hc]
    unfold Cpu.do_ Config.frame
    rw [hcpu]
  · exact hc
  · exact hc
  · exact hc
  · exact hc
  · have hha : c.highAvailability = r.highAvailability := congrArg (·.highAvailability) hc
    have hcluster : c.clusterOptions = r.clusterOptions := congrArg (·.clusterOptions) hc
    rw [← hc]
    unfold HighAvailability.do_ Config.frame
    rw [hha, hcluster]
  · exact Pivot.frame hc

theorem steps_frame {steps : List Step} {c : Config}
    (hsteps : ∀ step ∈ steps, step ∈ (untranslatableTypes text).drop 5)
    (hc : c.frame = r.frame) :
    (steps.foldl (fun config step => step config r) c).frame = r.frame := by
  induction steps generalizing c with
  | nil => exact hc
  | cons step steps ih =>
      exact ih (fun s hs => hsteps s (List.mem_cons_of_mem _ hs))
        (step_frame (hsteps step List.mem_cons_self) hc)

/-- A merge with itself changes at most the devices and the boot list. -/
theorem repair_frame (hboot : (Index.do_ text r r).bootDevices = r.bootDevices) :
    (repair text r r).frame = r.frame := by
  have hidentification : Identification.do_ r r = r := rfl
  have hos : OsInfo.do_ r r = r := rfl
  have hbackup : BackupDirectory.do_ r r = r := rfl
  have hruntime : RuntimeOptions.do_ r r = r := rfl
  have hindex : (Index.do_ text r r).frame = r.frame := by
    unfold Config.frame
    rw [hboot]
    rfl
  unfold repair
  rw [untranslatableTypes, List.foldl_cons, List.foldl_cons, List.foldl_cons, List.foldl_cons,
    List.foldl_cons, hidentification, hos, hbackup, hruntime]
  exact @steps_frame text r _ _ (fun _ h => h) hindex

theorem eq_of_frame {c : Config} (hc : c.frame = r.frame) (hhdd : c.hardDisks = r.hardDisks)
    (hcdrom : c.opticalDisks = r.opticalDisks) (hfloppy : c.floppyDisks = r.floppyDisks)
    (hnet : c.networkAdapters = r.networkAdapters) : c = r := by
  have heq : c = { c.frame with
      hardDisks := c.hardDisks, opticalDisks := c.opticalDisks, floppyDisks := c.floppyDisks,
      networkAdapters := c.networkAdapters } := rfl
  rw [heq, hc, hhdd, hcdrom, hfloppy, hnet]
  rfl

/-- A class whose devices each find themselves leaves the boot list. -/
theorem Kind.index_self {κ : Type} {δ : Type} {k : Kind κ δ} {devices : List (Device κ)}
    (selves : ∀ x ∈ devices, k.found x x = true) (boot : List BootDevice) :
    (k.index devices devices boot).2 = boot := by
  unfold Kind.index
  rw [assigned, assign_self selves]
  exact redirect_same

/-- A merge with itself changes nothing just when it changes no class of devices. -/
theorem repair_again (distinct : r.Distinct) : repair text r r = r ↔
    hardDisk.merge r.hardDisks r.hardDisks = r.hardDisks ∧
    opticalDisk.merge r.opticalDisks r.opticalDisks = r.opticalDisks ∧
    (floppyDisk text).merge r.floppyDisks r.floppyDisks = r.floppyDisks ∧
    (networkAdapter text).merge r.networkAdapters r.networkAdapters = r.networkAdapters := by
  obtain ⟨h1, h2, h3, h4⟩ := repair_devices text r r
  rw [← h1, ← h2, ← h3, ← h4]
  constructor
  · intro h
    rw [h]
    exact ⟨rfl, rfl, rfl, rfl⟩
  · rintro ⟨hhdd, hcdrom, hfloppy, hnet⟩
    refine eq_of_frame (repair_frame ?_) hhdd hcdrom hfloppy hnet
    rw [h1] at hhdd
    rw [h2] at hcdrom
    rw [h3] at hfloppy
    rw [h4] at hnet
    have hlast := Kind.index_self
      (of_merge_self (networkAdapter_lawful text) distinct.networkAdapters hnet).1
    refine (hlast _).trans ?_
    refine (Kind.index_self
      (of_merge_self (floppyDisk_lawful text) distinct.floppyDisks hfloppy).1 _).trans ?_
    refine (Kind.index_self
      (of_merge_self opticalDisk_lawful distinct.opticalDisks hcdrom).1 _).trans ?_
    exact Kind.index_self (of_merge_self hardDisk_lawful distinct.hardDisks hhdd).1 _

/-- The merge keeps its promises just when the matching of every class is clear and its
appended devices come last. -/
theorem repaired_iff (distinct : old.Distinct) (translated : Config.Translated text old new) :
    Config.Repaired text old new (repair text new old) ↔ Config.Clear text old new := by
  obtain ⟨h1, h2, h3, h4⟩ := repair_devices text new old
  have hhdd := class_iff hardDisk_lawful distinct.hardDisks translated.hardDisks
  have hcdrom := class_iff opticalDisk_lawful distinct.opticalDisks translated.opticalDisks
  have hfloppy := class_iff (floppyDisk_lawful text) distinct.floppyDisks translated.floppyDisks
  have hnet := class_iff (networkAdapter_lawful text) distinct.networkAdapters
    translated.networkAdapters
  rw [← h1] at hhdd
  rw [← h2] at hcdrom
  rw [← h3] at hfloppy
  rw [← h4] at hnet
  constructor
  · rintro ⟨rhdd, rcdrom, rfloppy, rnet, again⟩
    obtain ⟨ahdd, acdrom, afloppy, anet⟩ := (repair_again
      ⟨rhdd.distinct, rcdrom.distinct, rfloppy.distinct, rnet.distinct⟩).mp again
    exact ⟨hhdd.mp ⟨rhdd, ahdd⟩, hcdrom.mp ⟨rcdrom, acdrom⟩, hfloppy.mp ⟨rfloppy, afloppy⟩,
      hnet.mp ⟨rnet, anet⟩⟩
  · rintro ⟨chdd, ccdrom, cfloppy, cnet⟩
    obtain ⟨rhdd, ahdd⟩ := hhdd.mpr chdd
    obtain ⟨rcdrom, acdrom⟩ := hcdrom.mpr ccdrom
    obtain ⟨rfloppy, afloppy⟩ := hfloppy.mpr cfloppy
    obtain ⟨rnet, anet⟩ := hnet.mpr cnet
    exact ⟨rhdd, rcdrom, rfloppy, rnet, (repair_again
      ⟨rhdd.distinct, rcdrom.distinct, rfloppy.distinct, rnet.distinct⟩).mpr
        ⟨ahdd, acdrom, afloppy, anet⟩⟩

/-- Names, serial numbers and the places of drives are distinct as well. -/
structure Config.WellFormed (c : Config) : Prop extends c.Distinct where
  names : (c.hardDisks.map (·.body.systemName)).Nodup
  serials : ((c.hardDisks.map (·.body.serialNumber)).filter (decide <| · ≠ "")).Nodup
  drives : (c.opticalDisks.map fun d => (d.body.interfaceType, d.body.stackIndex)).Nodup
  floppies : (c.floppyDisks.map fun d => (d.body.interfaceType, d.body.stackIndex)).Nodup

/-- Optical drives are told apart by interface and stack index: the matching is clear
wherever they are distinct. -/
theorem opticalDisk_picks {old new : List (Device OpticalDisk)} {used : List Nat}
    (drives : (old.map fun d => opticalDisk.key d.body).Nodup)
    (fresh : (new.map (·.origin.1)).Nodup) (unused : ∀ n ∈ new, n.origin.1 ∉ used)
    (stored : ∀ n ∈ new, ∃ s ∈ old, (s.index, s.itemId) = n.origin ∧
      opticalDisk.key s.body = opticalDisk.key n.body) :
    Picks opticalDisk.found old used new := by
  induction new generalizing used with
  | nil => trivial
  | cons n ns ih =>
      obtain ⟨hn, hrest⟩ := List.nodup_cons.mp fresh
      obtain ⟨s, hs, horigin, hkey⟩ := stored n List.mem_cons_self
      have hindex : s.index = n.origin.1 := congrArg Prod.fst horigin
      have hin : s ∈ remaining old used := by
        refine List.mem_filter.mpr ⟨hs, decide_eq_true ?_⟩
        rw [hindex]
        exact unused n List.mem_cons_self
      refine ⟨⟨s, ?_, horigin⟩, ih hrest ?_ fun m hm => stored m (List.mem_cons_of_mem _ hm)⟩
      · obtain ⟨t, ht⟩ := Option.isSome_iff_exists.mp
          (List.find?_isSome.mpr ⟨s, hin, OpticalDisk.found_iff.mpr hkey⟩)
        have htold := (List.mem_filter.mp (List.mem_of_find?_eq_some ht)).1
        have htkey := OpticalDisk.found_iff.mp (List.find?_some ht)
        refine Eq.trans ht (congrArg some ?_)
        exact List.inj_on_of_nodup_map drives htold hs (htkey.trans hkey.symm)
      · intro m hm hused
        rcases List.mem_cons.mp hused with heq | hused
        · exact hn (List.mem_map.mpr ⟨m, hm, heq⟩)
        · exact unused m (List.mem_cons_of_mem _ hm) hused

/-- For optical drives only the order of the appended ones is left to ask. -/
theorem opticalDisk_clear {old new : List (Device OpticalDisk)}
    (distinct : (old.map (·.index)).Nodup)
    (drives : (old.map fun d => opticalDisk.key d.body).Nodup)
    (translated : opticalDisk.Translated old new) :
    opticalDisk.Clear old new ↔ opticalDisk.Ordered old := by
  refine ⟨fun clear => clear.ordered, fun ordered => ⟨?_, ?_, ordered⟩⟩
  · refine opticalDisk_picks drives ?_ (fun _ _ => List.not_mem_nil) fun n hn => ?_
    · exact translated.indices.nodup_iff.mpr
        (distinct.sublist (List.filter_sublist.map _))
    · have hin := translated.same.mem_iff.mp (List.mem_map_of_mem hn)
      obtain ⟨s, hs, heq⟩ := List.mem_map.mp hin
      obtain ⟨horigin, hkey⟩ := Prod.mk.inj heq
      exact ⟨s, (List.mem_filter.mp hs).1, horigin, hkey⟩
  · exact fun _ _ => OpticalDisk.found_iff.mpr rfl

/-- A configuration with these devices. -/
def Config.having (hdds : List (Device HardDisk)) (cdroms : List (Device OpticalDisk))
    (floppies : List (Device FloppyDisk)) (nets : List (Device NetworkAdapter)) : Config where
  identification := ⟨"/vz/vm.pvm", "", "", "", ""⟩
  osType := 0
  osVersion := 0
  defaultBackupDirectory := ""
  runtimeOptions := ""
  autoStart := 0
  autoStartDelay := 0
  autoStop := 0
  bootDevices := []
  cpu := ""
  highAvailability := ""
  clusterOptions := ""
  remoteDisplay := none
  hardDisks := hdds
  opticalDisks := cdroms
  floppyDisks := floppies
  networkAdapters := nets

/-- Letters for drives up to "z". -/
def letters : Text where
  fromBase26 := fun s => match s.toList with
    | [c] => c.toNat - 'a'.toNat
    | _ => 0
  fold := fun s => String.ofList (s.toList.map Char.toLower)

/-- A disk of each kind and an adapter, and a disabled disk after the enabled one. -/
theorem repaired_each :
    let disk : HardDisk := { systemName := "a.hdd", targetDeviceName := "sda" }
    let drive : OpticalDisk := { interfaceType := 1, stackIndex := 0 }
    let floppy : FloppyDisk := { targetDeviceName := "fda" }
    let net : NetworkAdapter := { macAddress := "001C42000001", hostInterfaceName := "vme1" }
    let off : Device HardDisk :=
      { index := 1, itemId := 1, disabled := true
        body := { systemName := "b.hdd", targetDeviceName := "sdb" } }
    let old := Config.having [{ index := 0, itemId := 7, body := disk }, off]
      [{ index := 0, itemId := 0, body := drive }] [{ index := 0, itemId := 0, body := floppy }]
      [{ index := 0, itemId := 0, body := net }]
    let new := Config.having [{ index := 3, itemId := 3, body := disk, origin := (0, 7) }]
      [{ index := 5, itemId := 5, body := drive, origin := (0, 0) }]
      [{ index := 2, itemId := 2, body := floppy, origin := (0, 0) }]
      [{ index := 0, itemId := 4, body := net, origin := (0, 0) }]
    Config.Repaired letters old new (repair letters new old) := by
  intro disk drive floppy net off old new
  refine (@repaired_iff letters new old ⟨by decide, by decide, by decide, by decide⟩
    ⟨⟨by decide, by decide⟩, ⟨by decide, by decide⟩, ⟨by decide, by decide⟩,
      ⟨by decide, by decide⟩⟩).mpr ⟨?_, ?_, ?_, ?_⟩
  · exact ⟨⟨⟨_, rfl, rfl⟩, trivial⟩, by decide, by decide, by decide⟩
  · exact ⟨⟨⟨_, rfl, rfl⟩, trivial⟩, by decide, by decide, by decide⟩
  · exact ⟨⟨⟨{ index := 0, itemId := 0, body := floppy }, by decide, rfl⟩, trivial⟩, by decide,
      by decide, by decide⟩
  · exact ⟨⟨⟨{ index := 0, itemId := 0, body := net }, by decide, rfl⟩, trivial⟩, by decide,
      by decide, by decide⟩

/-- A disabled disk without a serial number has kept the target that an enabled one now
has: it is taken for that one. -/
theorem stale_target_taken : ¬ ∀ (text : Text) (old new : Config), old.WellFormed →
    Config.Translated text old new →
    Config.Repaired text old new (repair text new old) := by
  intro h
  let off : Device HardDisk :=
    { index := 0, itemId := 0, disabled := true
      body := { systemName := "off.hdd", targetDeviceName := "sda" } }
  let on : Device HardDisk :=
    { index := 1, itemId := 1, body := { systemName := "on.hdd", targetDeviceName := "sda" } }
  have distinct : (Config.having [off, on] [] [] []).Distinct :=
    ⟨by decide, by decide, by decide, by decide⟩
  have translated : Config.Translated letters (Config.having [off, on] [] [] [])
      (Config.having [on] [] [] []) :=
    ⟨⟨by decide, by decide⟩, ⟨by decide, by decide⟩, ⟨by decide, by decide⟩,
      ⟨by decide, by decide⟩⟩
  have hrepaired := h letters _ _ ⟨distinct, by decide, by decide, by decide, by decide⟩ translated
  have hdisks := hrepaired.hardDisks
  rw [(repair_devices letters _ _).1] at hdisks
  obtain ⟨⟨s, hs, horigin⟩, -⟩ :=
    hdisks.picks hardDisk_lawful distinct.hardDisks translated.hardDisks
  have hoff : s = off := (Option.some.inj hs).symm
  rw [hoff] at horigin
  exact absurd horigin (by decide)

end Whole

end DispService.Repair
