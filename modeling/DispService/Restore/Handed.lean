import DispService.Restore.Temporary

/-! A VM or a container is restored to the temporary places: what is handed out, and what
becomes of the targets. -/
namespace DispService.Restore

open DispService.Lib FileSystem Local

namespace Target

namespace Request

/-- What the restore may make something at. -/
def Temp (r : Request) (p : String) : Prop :=
  p = r.m_sTargetPath ∨
    ∃ d ∈ r.tibs, p = d.intermediate.absolutePath ∨ p = d.intermediate.absoluteFilePath

/-- The disks, each index once. -/
def disks (r : Request) : List Hdd :=
  r.tibs.foldl (fun m d => if m.any (·.index = d.index) then m else Vm.insert m d) []

/-- What is to be moved: the disks that belong elsewhere, and the folder. -/
def items (r : Request) : List Item :=
  (r.disks.filter (·.final ≠ "")).map
      (fun d => ⟨true, d.intermediate, d.final, r.may d.final⟩) ++
    [⟨false, ⟨r.m_sTargetPath, r.m_sTargetPath⟩, r.home, r.may r.home⟩]

/-- What stands where the parts are made. -/
def parts (r : Request) : (String → Option Kind) → String → Option Kind :=
  placed (r.disks.map (·.intermediate.absoluteFilePath)) [r.m_sTargetPath]

/-- A folder of a disk that is not moved. -/
def Left (r : Request) (p : String) : Prop :=
  p ≠ r.m_sTargetPath ∧ (∃ d ∈ r.tibs, p = d.intermediate.absolutePath) ∧
    ∀ d ∈ r.disks, d.final ≠ "" → d.intermediate.absolutePath ≠ p

/-- The temporary names are fresh. -/
structure Fresh (below : String → String → Bool) (r : Request) : Prop where
  from_ : ∀ i ∈ r.items, i.from_ ≠ ""
  disjoint : Disjoint below r.items
  temp : ∀ d, r.Temp d → Clear below r.items d
  left : ∀ d, r.Left d → ∀ i ∈ r.items, ¬ Within below d i.from_

end Request

variable {below : String → String → Bool} {r : Request} {kinds : String → Option Kind}

/-- While the parts are made. -/
structure Filling (r : Request) (kinds : String → Option Kind) (v : Vm) (fs : Fs) : Prop where
  m_home : v.m_home = r.m_sTargetPath
  auto : ∀ p ∈ v.m_auto, p = r.m_sTargetPath ∨ ∃ d ∈ r.tibs, p = d.intermediate.absolutePath
  disks : ∀ d ∈ v.m_hddMap, d ∈ r.tibs
  filled : Filled r.Temp (initial kinds) fs

/-- The folder of the VM is made. -/
structure Housed (v : Vm) (fs : Fs) : Prop where
  auto : v.m_home ∈ v.m_auto
  kind : kindsOf fs v.m_home = some .folder

namespace Filling

variable {v : Vm} {fs : Fs} {path_ : String}

theorem make (h : Filling r kinds v fs) (mkdir : PrlResult)
    (hpath : path_ = r.m_sTargetPath ∨ ∃ d ∈ r.tibs, path_ = d.intermediate.absolutePath) :
    Filling r kinds (v.make fs path_ mkdir).2.1 (v.make fs path_ mkdir).2.2 := by
  have htemp : r.Temp path_ := by
    apply hpath.imp_right
    rintro ⟨d, hd, hp⟩
    exact ⟨d, hd, Or.inl hp⟩
  have hfilled := h.filled.trans (.assistMake htemp fs mkdir)
  unfold Vm.make
  dsimp only
  split
  · exact h
  · split
    · refine ⟨h.m_home, ?_, h.disks, hfilled⟩
      intro p hp
      cases List.mem_cons.mp hp with
      | inl heq => exact heq ▸ hpath
      | inr hin => exact h.auto p hin
    · split
      · exact ⟨h.m_home, h.auto, h.disks, hfilled⟩
      · exact ⟨h.m_home, h.auto, h.disks, hfilled⟩

theorem add (h : Filling r kinds v fs) {d : Hdd} (hd : d ∈ r.tibs) :
    Filling r kinds (v.add fs d).2.1 (v.add fs d).2.2 := by
  have hmake := h.make d.mkdir (Or.inr ⟨d, hd, rfl⟩)
  unfold Vm.add
  dsimp only
  split
  · exact h
  · split
    · exact hmake
    · refine ⟨hmake.m_home, hmake.auto, ?_, hmake.filled⟩
      intro x hx
      cases List.mem_append.mp hx with
      | inl hbefore => exact hmake.disks x ((List.takeWhile_sublist _).subset hbefore)
      | inr hrest =>
          cases List.mem_cons.mp hrest with
          | inl heq => exact heq ▸ hd
          | inr hafter => exact hmake.disks x ((List.dropWhile_sublist _).subset hafter)

theorem addAll (h : Filling r kinds v fs) {tibs : List Hdd} (htibs : ∀ d ∈ tibs, d ∈ r.tibs) :
    Filling r kinds (Vm.addAll tibs v fs).2.1 (Vm.addAll tibs v fs).2.2 := by
  induction tibs generalizing v fs with
  | nil => exact h
  | cons d tibs ih =>
      have hadd := h.add (htibs d List.mem_cons_self)
      unfold Vm.addAll
      dsimp only
      split
      · exact hadd
      · exact ih hadd fun x hx => htibs x (List.mem_cons_of_mem d hx)

end Filling

theorem filled_restore {S : String → Prop} {m_hddMap : List Hdd}
    (h : ∀ d ∈ m_hddMap, S d.intermediate.absoluteFilePath) (fs : Fs) :
    Filled S fs (Vm.restore m_hddMap fs).2 := by
  induction m_hddMap generalizing fs with
  | nil => exact .refl fs
  | cons d m_hddMap ih =>
      obtain ⟨hd, hrest⟩ := List.forall_mem_cons.mp h
      unfold Vm.restore
      split
      · exact .refl fs
      · exact (Filled.made hd fs .file).trans (ih hrest _)

theorem restore_kind {m_hddMap : List Hdd} {fs : Fs} (p : String)
    (h : (Vm.restore m_hddMap fs).1.failed = false) :
    kindsOf (Vm.restore m_hddMap fs).2 p =
      if p ∈ m_hddMap.map (·.intermediate.absoluteFilePath) then some .file else kindsOf fs p := by
  induction m_hddMap generalizing fs with
  | nil => rfl
  | cons d m_hddMap ih =>
      unfold Vm.restore at h ⊢
      obtain ⟨-, heq⟩ := ite_ok h id
      rw [heq] at h ⊢
      rw [ih h, kindsOf_made, List.map_cons]
      by_cases hp : p = d.intermediate.absoluteFilePath
      · simp [hp]
      · simp [hp]

/-- A failure of `fill` or a success, the parts are in the temporary places. -/
theorem filling_fill (r : Request) (kinds : String → Option Kind) :
    Filling r kinds (fill r (initial kinds)).2.1 (fill r (initial kinds)).2.2 := by
  have hstart : Filling r kinds { m_home := r.m_sTargetPath } (initial kinds) :=
    ⟨rfl, fun p hp => absurd hp List.not_mem_nil, fun d hd => absurd hd List.not_mem_nil,
      .refl _⟩
  have hhome := hstart.make r.mkdirHome (Or.inl rfl)
  have hadd := hhome.addAll fun d (hd : d ∈ r.tibs) => hd
  have hrestore := hadd.filled.trans (filled_restore
    (fun d hd => Or.inr ⟨d, hadd.disks d hd, Or.inr rfl⟩) _)
  have hdone := Filling.mk hadd.m_home hadd.auto hadd.disks hrestore
  let P : PrlResult × Vm × Fs → Prop := fun e => Filling r kinds e.2.1 e.2.2
  have hite : ∀ {c : Bool} {a b}, P a → P b → P (if c = true then a else b) :=
    fun ha hb => iteInduction (motive := P) (fun _ => ha) fun _ => hb
  apply hite hstart
  apply hite hstart
  apply hite hstart
  apply hite hhome
  apply hite hadd
  refine hite (by exact hadd) ?_
  refine hite (by exact hadd) ?_
  refine hite (by exact hdone) ?_
  refine hite (by exact hdone) ?_
  exact hite hdone hdone

namespace Housed

variable {v : Vm} {fs : Fs}

theorem createHome {mkdir : PrlResult} (hnew : v.m_auto = []) (h : (v.createHome fs mkdir).1.failed = false) :
    Housed (v.createHome fs mkdir).2.1 (v.createHome fs mkdir).2.2 := by
  unfold Vm.createHome Vm.make at h ⊢
  dsimp only at h ⊢
  have hno : v.m_home ∉ v.m_auto := by
    rw [hnew]
    exact List.not_mem_nil
  rw [if_neg hno] at h ⊢
  cases hmade : (assistMake fs v.m_home mkdir).1.failed
  · simp only [Bool.not_false, if_true]
    exact ⟨List.mem_cons_self, assistMake_folder hmade⟩
  · simp [hmade] at h

theorem make (h : Housed v fs) (path_ : String) (mkdir : PrlResult) :
    Housed (v.make fs path_ mkdir).2.1 (v.make fs path_ mkdir).2.2 := by
  unfold Vm.make
  dsimp only
  split
  · exact h
  · split
    · exact ⟨List.mem_cons_of_mem _ h.auto, assistMake_keeps h.kind⟩
    · split
      · exact ⟨h.auto, assistMake_keeps h.kind⟩
      · exact ⟨h.auto, assistMake_keeps h.kind⟩

theorem add (h : Housed v fs) {d : Hdd} : Housed (v.add fs d).2.1 (v.add fs d).2.2 := by
  have hmake := h.make d.intermediate.absolutePath d.mkdir
  unfold Vm.add
  dsimp only
  split
  · exact h
  · split
    · exact hmake
    · exact ⟨hmake.auto, hmake.kind⟩

theorem addAll (h : Housed v fs) (tibs : List Hdd) :
    Housed (Vm.addAll tibs v fs).2.1 (Vm.addAll tibs v fs).2.2 := by
  induction tibs generalizing v fs with
  | nil => exact h
  | cons d tibs ih =>
      unfold Vm.addAll
      dsimp only
      split
      · exact h.add
      · exact ih h.add

end Housed

theorem make_hddMap (v : Vm) (fs : Fs) (path_ : String) (mkdir : PrlResult) :
    (v.make fs path_ mkdir).2.1.m_hddMap = v.m_hddMap := by
  unfold Vm.make
  dsimp only
  split
  · rfl
  · split
    · rfl
    · split <;> rfl

theorem add_hddMap {v : Vm} {fs : Fs} {d : Hdd} (h : (v.add fs d).1.failed = false) :
    (v.add fs d).2.1.m_hddMap =
      if v.m_hddMap.any (·.index = d.index) then v.m_hddMap else Vm.insert v.m_hddMap d := by
  unfold Vm.add at h ⊢
  dsimp only at h ⊢
  split
  · rfl
  · rename_i hnew
    rw [if_neg hnew] at h
    obtain ⟨-, heq⟩ := ite_ok h id
    rw [heq]
    exact congrArg (Vm.insert · d) (make_hddMap _ _ _ _)

theorem addAll_hddMap {v : Vm} {fs : Fs} {tibs : List Hdd}
    (h : (Vm.addAll tibs v fs).1.failed = false) :
    (Vm.addAll tibs v fs).2.1.m_hddMap =
      tibs.foldl (fun m d => if m.any (·.index = d.index) then m else Vm.insert m d)
        v.m_hddMap := by
  induction tibs generalizing v fs with
  | nil => rfl
  | cons d tibs ih =>
      unfold Vm.addAll at h ⊢
      dsimp only at h ⊢
      obtain ⟨hok, heq⟩ := ite_ok h id
      rw [heq] at h ⊢
      rw [ih h, List.foldl_cons, add_hddMap (Bool.eq_false_iff.mpr hok)]

/-- All the parts are there. -/
structure Complete (r : Request) (kinds : String → Option Kind) (v : Vm) (fs : Fs) : Prop where
  auto : v.m_home ∈ v.m_auto
  disks : v.m_hddMap = r.disks
  kind : ∀ i ∈ r.items, kindsOf fs i.from_ = r.parts kinds i.from_

/-- A part that is moved is the folder of the VM or the file of a disk. -/
theorem from_cases {i : Item} (hi : i ∈ r.items) (hfrom : i.from_ ≠ "") :
    i.from_ = r.m_sTargetPath ∨ i.from_ ∈ r.disks.map (·.intermediate.absoluteFilePath) := by
  cases List.mem_append.mp hi with
  | inl hdisk =>
      obtain ⟨d, hd, rfl⟩ := List.mem_map.mp hdisk
      exact Or.inr (List.mem_map_of_mem (List.mem_filter.mp hd).1)
  | inr hhome =>
      obtain rfl := List.mem_singleton.mp hhome
      have hne : r.m_sTargetPath ≠ r.home := fun hsame => hfrom (if_pos hsame)
      exact Or.inl (if_neg hne)

theorem fill_complete (hfrom : ∀ i ∈ r.items, i.from_ ≠ "")
    (h : (fill r (initial kinds)).1.failed = false) :
    Complete r kinds (fill r (initial kinds)).2.1 (fill r (initial kinds)).2.2 := by
  have hhome := (filling_fill r kinds).m_home
  unfold fill at h hhome ⊢
  dsimp only at h hhome ⊢
  obtain ⟨-, heq⟩ := ite_ok h fun _ => rfl
  rw [heq] at h hhome ⊢
  have hconvert : r.convertHardware.any (·.failed) = true →
      (r.convertHardware.getD .success).failed = true := by
    cases r.convertHardware with
    | none => exact fun hno => absurd hno Bool.false_ne_true
    | some e => exact id
  obtain ⟨-, heq⟩ := ite_ok h hconvert
  rw [heq] at h hhome ⊢
  obtain ⟨-, heq⟩ := ite_ok h fun _ => rfl
  rw [heq] at h hhome ⊢
  obtain ⟨hmade, heq⟩ := ite_ok h id
  rw [heq] at h hhome ⊢
  obtain ⟨hadd, heq⟩ := ite_ok h id
  rw [heq] at h hhome ⊢
  obtain ⟨-, heq⟩ := ite_ok h id
  rw [heq] at h hhome ⊢
  obtain ⟨-, heq⟩ := ite_ok h id
  rw [heq] at h hhome ⊢
  obtain ⟨hrestore, heq⟩ := ite_ok h id
  rw [heq] at h hhome ⊢
  obtain ⟨-, heq⟩ := ite_ok h id
  rw [heq] at h hhome ⊢
  obtain ⟨-, heq⟩ := ite_ok h id
  rw [heq] at hhome ⊢
  have hhoused := (Housed.createHome rfl (Bool.eq_false_iff.mpr hmade)).addAll r.tibs
  have hdisks := (addAll_hddMap (Bool.eq_false_iff.mpr hadd)).trans
    (congrArg (fun m => r.tibs.foldl _ m) (make_hddMap _ _ _ _))
  refine ⟨hhoused.auto, hdisks, ?_⟩
  intro i hi
  have hkind := restore_kind i.from_ (Bool.eq_false_iff.mpr hrestore)
  apply hkind.trans
  rw [hdisks]
  unfold Request.parts placed
  apply ite_congr rfl (fun _ => rfl)
  intro hno
  have htarget := (from_cases hi (hfrom i hi)).resolve_right hno
  rw [htarget, if_pos (List.mem_singleton.mpr rfl), ← hhoused.kind]
  exact congrArg _ hhome.symm

theorem disks_subset {m : List Hdd} {tibs : List Hdd} {d : Hdd}
    (hd : d ∈ tibs.foldl (fun m d => if m.any (·.index = d.index) then m else Vm.insert m d) m) :
    d ∈ m ∨ d ∈ tibs := by
  induction tibs generalizing m with
  | nil => exact Or.inl hd
  | cons x tibs ih =>
      cases ih hd with
      | inr hin => exact Or.inr (List.mem_cons_of_mem x hin)
      | inl hin =>
          dsimp only at hin
          split at hin
          · exact Or.inl hin
          · cases List.mem_append.mp hin with
            | inl hbefore => exact Or.inl ((List.takeWhile_sublist _).subset hbefore)
            | inr hrest =>
                cases List.mem_cons.mp hrest with
                | inl heq => exact Or.inr (heq ▸ List.mem_cons_self)
                | inr hafter => exact Or.inl ((List.dropWhile_sublist _).subset hafter)

theorem parts_eq {p : String} (hp : ¬ r.Temp p) : r.parts kinds p = kinds p := by
  unfold Request.parts placed
  have hfile : p ∉ r.disks.map (·.intermediate.absoluteFilePath) := by
    intro hin
    obtain ⟨d, hd, rfl⟩ := List.mem_map.mp hin
    exact hp (Or.inr ⟨d, (disks_subset hd).resolve_left List.not_mem_nil, Or.inr rfl⟩)
  rw [if_neg hfile, if_neg fun hin => hp (Or.inl (List.mem_singleton.mp hin))]

theorem handed_vm (h : r.Fresh below) (kinds : String → Option Kind) :
    Handed below r.items kinds (r.parts kinds)
      (restoreVmToTargetPath below r (initial kinds)) := by
  have hfilling := filling_fill r kinds
  have htemp : ∀ p ∈ (fill r (initial kinds)).2.1.m_auto, r.Temp p := by
    intro p hp
    apply (hfilling.auto p hp).imp_right
    rintro ⟨d, hd, hpath⟩
    exact ⟨d, hd, Or.inl hpath⟩
  unfold restoreVmToTargetPath
  dsimp only
  split
  · rename_i hfail
    exact handed_failed r.mayClear hfilling.filled h.temp htemp hfail
  · rename_i hok
    have hcomplete := fill_complete h.from_ (Bool.eq_false_iff.mpr hok)
    split
    · exact handed_failed r.mayClear hfilling.filled h.temp htemp rfl
    · have hitems : (fill r (initial kinds)).2.1.items r.home r.may = r.items := by
        unfold Vm.items Request.items
        rw [hcomplete.disks, if_pos hcomplete.auto, hfilling.m_home]
      have hleft : ∀ p ∈ (fill r (initial kinds)).2.1.leftover,
          p ∈ (fill r (initial kinds)).2.1.m_auto := fun p hp => (List.mem_filter.mp hp).1
      have hkeep : ∀ p ∈ (fill r (initial kinds)).2.1.leftover, ∀ i ∈ r.items,
          ¬ Within below p i.from_ := by
        intro p hp
        obtain ⟨hauto, hcond⟩ := List.mem_filter.mp hp
        have hcond := of_decide_eq_true hcond
        rw [hfilling.m_home, hcomplete.disks] at hcond
        exact h.left p ⟨hcond.1, (hfilling.auto p hauto).resolve_left hcond.1, hcond.2⟩
      have hbuilt := handed_built r.mayClear hfilling.filled h.temp
        (fun p hp => htemp p (hleft p hp)) h.from_ hkeep hcomplete.kind fun p hp => parts_eq hp
      unfold Vm.assemble Vm.destroy
      rw [hitems]
      exact hbuilt

end Target

namespace Ploop

namespace Request

/-- What the restore may make something at. -/
def Temp (r : Request) (p : String) : Prop :=
  p = r.m_sTargetPath ∨ ∃ i ∈ r.imageList,
    i.joins = true ∧ p = i.m_intermediate.absolutePath ∨ p = i.m_intermediate.absoluteFilePath

/-- What stands where the parts are made. -/
def parts (r : Request) : (String → Option Kind) → String → Option Kind :=
  placed [] (r.m_sTargetPath :: r.imageList.map (·.m_intermediate.absoluteFilePath))

/-- The temporary names are fresh. -/
structure Fresh (below : String → String → Bool) (r : Request) : Prop where
  from_ : ∀ i ∈ Flavor.items r, i.from_ ≠ ""
  disjoint : Disjoint below (Flavor.items r)
  temp : ∀ d, r.Temp d → Clear below (Flavor.items r) d

end Request

variable {below : String → String → Bool} {r : Request} {kinds : String → Option Kind} {fs : Fs}

namespace Image

variable (i : Image)

/-- The folder for the image. -/
def folder (fs : Fs) : PrlResult × Fs :=
  if i.joins then assistMake fs i.m_intermediate.absolutePath i.mkdir else (.success, fs)

def auto (fs : Fs) : String :=
  if i.joins && !(i.folder fs).1.failed then i.m_intermediate.absolutePath else ""

theorem do_cases (fs : Fs) :
    (i.do_ fs).1.failed = true ∧ (i.do_ fs).2 = (i.auto fs, (i.folder fs).2) ∨
      (i.do_ fs).2 =
        (i.auto fs, made (i.folder fs).2 i.m_intermediate.absoluteFilePath .folder) := by
  let P : PrlResult × String × Fs → Prop := fun e =>
    e.1.failed = true ∧ e.2 = (i.auto fs, (i.folder fs).2) ∨
      e.2 = (i.auto fs, made (i.folder fs).2 i.m_intermediate.absoluteFilePath .folder)
  have hite : ∀ {c : Bool} {a b}, (c = true → P a) → P b → P (if c = true then a else b) :=
    fun ha hb => iteInduction (motive := P) ha fun _ => hb
  refine hite (fun hfail => Or.inl ⟨(Bool.and_eq_true_iff.mp hfail).1, rfl⟩) ?_
  refine hite (fun hfail => Or.inl ⟨hfail, rfl⟩) ?_
  refine hite (fun _ => Or.inl ⟨rfl, rfl⟩) ?_
  refine hite (fun _ => Or.inr rfl) ?_
  exact hite (fun _ => Or.inr rfl) (Or.inr rfl)

theorem do_auto (fs : Fs) : (i.do_ fs).2.1 = i.auto fs := by
  cases i.do_cases fs with
  | inl hfail => rw [hfail.2]
  | inr hmade => rw [hmade]

theorem do_filled {S : String → Prop} (hfolder : i.joins = true → S i.m_intermediate.absolutePath)
    (hfile : S i.m_intermediate.absoluteFilePath) (fs : Fs) : Filled S fs (i.do_ fs).2.2 := by
  have hfirst : Filled S fs (i.folder fs).2 := by
    unfold folder
    split
    · rename_i hjoins
      exact .assistMake (hfolder hjoins) fs i.mkdir
    · exact .refl fs
  cases i.do_cases fs with
  | inl hfail => exact hfail.2 ▸ hfirst
  | inr hmade => exact hmade ▸ hfirst.trans (.made hfile _ .folder)

theorem do_keeps {q : String} (h : kindsOf fs q = some .folder) :
    kindsOf (i.do_ fs).2.2 q = some .folder := by
  have hfirst : kindsOf (i.folder fs).2 q = some .folder := by
    unfold folder
    split
    · exact assistMake_keeps h
    · exact h
  cases i.do_cases fs with
  | inl hfail => rwa [hfail.2]
  | inr hmade =>
      rw [hmade, kindsOf_made, hfirst]
      exact ite_self _

theorem do_folder (h : (i.do_ fs).1.failed = false) :
    kindsOf (i.do_ fs).2.2 i.m_intermediate.absoluteFilePath = some .folder := by
  cases i.do_cases fs with
  | inl hfail =>
      rw [hfail.1] at h
      cases h
  | inr hmade => rw [hmade, kindsOf_made, if_pos rfl]

end Image

theorem restoreLoop_filled {S : String → Prop} {images : List Image}
    (h : ∀ i ∈ images, (i.joins = true → S i.m_intermediate.absolutePath) ∧
      S i.m_intermediate.absoluteFilePath) (fs : Fs) :
    Filled S fs (Flavor.restoreLoop images fs).2.2 ∧
      ∀ a ∈ (Flavor.restoreLoop images fs).2.1, a ≠ "" → S a := by
  induction images generalizing fs with
  | nil => exact ⟨.refl fs, fun a ha => absurd ha List.not_mem_nil⟩
  | cons i images ih =>
      obtain ⟨hi, hrest⟩ := List.forall_mem_cons.mp h
      have hfirst := i.do_filled hi.1 hi.2 fs
      have hauto : (i.do_ fs).2.1 ≠ "" → S (i.do_ fs).2.1 := by
        rw [i.do_auto]
        unfold Image.auto
        split
        · rename_i hmade
          exact fun _ => hi.1 (Bool.and_eq_true_iff.mp hmade).1
        · exact fun hno => absurd rfl hno
      have htail := ih hrest (i.do_ fs).2.2
      unfold Flavor.restoreLoop
      dsimp only
      split
      · exact ⟨hfirst, fun a ha => List.mem_singleton.mp ha ▸ hauto⟩
      · exact ⟨hfirst.trans htail.1, List.forall_mem_cons.mpr ⟨hauto, htail.2⟩⟩

theorem restoreLoop_keeps {images : List Image} {q : String} (h : kindsOf fs q = some .folder) :
    kindsOf (Flavor.restoreLoop images fs).2.2 q = some .folder := by
  induction images generalizing fs with
  | nil => exact h
  | cons i images ih =>
      unfold Flavor.restoreLoop
      dsimp only
      split
      · exact i.do_keeps h
      · exact ih (i.do_keeps h)

theorem restoreLoop_folders {images : List Image}
    (h : (Flavor.restoreLoop images fs).1.failed = false) :
    ∀ i ∈ images, kindsOf (Flavor.restoreLoop images fs).2.2
      i.m_intermediate.absoluteFilePath = some .folder := by
  induction images generalizing fs with
  | nil => exact fun i hi => absurd hi List.not_mem_nil
  | cons i images ih =>
      unfold Flavor.restoreLoop at h ⊢
      dsimp only at h ⊢
      obtain ⟨hok, heq⟩ := ite_ok h id
      rw [heq] at h ⊢
      rw [List.forall_mem_cons]
      exact ⟨restoreLoop_keeps (i.do_folder (Bool.eq_false_iff.mpr hok)), ih h⟩

theorem parts_eq {p : String} (hp : ¬ r.Temp p) : r.parts kinds p = kinds p := by
  unfold Request.parts placed
  have hfolder : p ∉ r.m_sTargetPath :: r.imageList.map (·.m_intermediate.absoluteFilePath) := by
    intro hin
    apply hp
    apply (List.mem_cons.mp hin).imp_right
    intro himage
    obtain ⟨i, hi, rfl⟩ := List.mem_map.mp himage
    exact ⟨i, hi, Or.inr rfl⟩
  rw [if_neg List.not_mem_nil, if_neg hfolder]

/-- A part that is moved is the folder of the container or an image. -/
theorem from_cases {i : Item} (hi : i ∈ Flavor.items r) (hfrom : i.from_ ≠ "") :
    i.from_ = r.m_sTargetPath ∨
      i.from_ ∈ r.imageList.map (·.m_intermediate.absoluteFilePath) := by
  cases List.mem_cons.mp hi with
  | inl hhome =>
      subst hhome
      have hne : r.m_sTargetPath ≠ r.home := fun hsame => hfrom (if_pos hsame)
      exact Or.inl (if_neg hne)
  | inr himage =>
      obtain ⟨image, hjoined, rfl⟩ := List.mem_map.mp himage
      exact Or.inr (List.mem_map_of_mem (List.mem_filter.mp hjoined).1)

section Handing

variable (h : r.Fresh below) (hfilled : Filled r.Temp (initial kinds) fs)
include h hfilled

theorem handed_body (htarget : kindsOf fs r.m_sTargetPath = some .folder) :
    Handed below (Flavor.items r) kinds (r.parts kinds) (ct below r fs) := by
  have hloop := @restoreLoop_filled r.Temp r.imageList
    (fun i hi => ⟨fun hjoins => Or.inr ⟨i, hi, Or.inl ⟨hjoins, rfl⟩⟩,
      Or.inr ⟨i, hi, Or.inr rfl⟩⟩) fs
  have hrestore : Filled r.Temp (initial kinds) (Flavor.restore r fs).2.2 ∧
      ∀ a ∈ (Flavor.restore r fs).2.1.filter (· ≠ ""), r.Temp a := by
    unfold Flavor.restore
    split
    · exact ⟨hfilled, fun a ha => absurd ha List.not_mem_nil⟩
    · refine ⟨hfilled.trans hloop.1, ?_⟩
      intro a ha
      obtain ⟨ha, hne⟩ := List.mem_filter.mp ha
      exact hloop.2 a ha (of_decide_eq_true hne)
  unfold ct
  dsimp only
  split
  · rename_i hfail
    exact handed_failed r.mayClear hrestore.1 h.temp hrestore.2 hfail
  · rename_i hok
    split
    · rename_i hfail
      exact handed_failed r.mayClear hrestore.1 h.temp hrestore.2 hfail
    · have hfolders : kindsOf (Flavor.restore r fs).2.2 r.m_sTargetPath = some .folder ∧
          ∀ i ∈ r.imageList, kindsOf (Flavor.restore r fs).2.2
            i.m_intermediate.absoluteFilePath = some .folder := by
        have hok := Bool.eq_false_iff.mpr hok
        unfold Flavor.restore at hok ⊢
        obtain ⟨-, heq⟩ := ite_ok hok fun _ => rfl
        rw [heq] at hok ⊢
        exact ⟨restoreLoop_keeps htarget, restoreLoop_folders hok⟩
      have hkind : ∀ i ∈ Flavor.items r,
          kindsOf (Flavor.restore r fs).2.2 i.from_ = r.parts kinds i.from_ := by
        intro i hi
        unfold Request.parts placed
        rw [if_neg List.not_mem_nil]
        cases from_cases hi (h.from_ i hi) with
        | inl htarget =>
            rw [htarget, if_pos List.mem_cons_self]
            exact hfolders.1
        | inr himage =>
            rw [if_pos (List.mem_cons_of_mem _ himage)]
            obtain ⟨image, hmem, hpath⟩ := List.mem_map.mp himage
            rw [← hpath]
            exact hfolders.2 image hmem
      have hnone : ∀ d ∈ ([] : List String), r.Temp d := fun d hd => absurd hd List.not_mem_nil
      exact handed_built r.mayClear hrestore.1 h.temp hnone h.from_
        (fun d hd => absurd hd List.not_mem_nil) hkind fun p hp => parts_eq hp

end Handing

theorem handed_ct (h : r.Fresh below) (kinds : String → Option Kind) :
    Handed below (Flavor.items r) kinds (r.parts kinds)
      (restoreCtToTargetPath below r (initial kinds)) := by
  have htemp : r.Temp r.m_sTargetPath := Or.inl rfl
  have hfilled := Filled.assistMake htemp (initial kinds) r.mkdirTarget
  have hnone : ∀ d ∈ ([] : List String), r.Temp d := fun d hd => absurd hd List.not_mem_nil
  have htarget : ∀ d ∈ [r.m_sTargetPath], r.Temp d :=
    fun d hd => List.mem_singleton.mp hd ▸ htemp
  unfold restoreCtToTargetPath
  dsimp only
  split
  · exact Or.inl ⟨rfl, rfl, fun _ _ => rfl⟩
  split
  · rename_i hfail
    exact handed_failed r.mayClear hfilled h.temp hnone hfail
  rename_i hok
  split
  · exact handed_failed r.mayClear hfilled h.temp hnone rfl
  by_cases hfiles : r.getFiles.failed = true
  · rw [if_pos hfiles, if_pos hfiles]
    exact handed_failed r.mayClear hfilled h.temp htarget hfiles
  rw [if_neg hfiles]
  cases handed_body h hfilled (assistMake_folder (Bool.eq_false_iff.mpr hok)) with
  | inl hfailed =>
      obtain ⟨hfail, hno, hdst⟩ := hfailed
      rw [if_pos hfail]
      refine Or.inl ⟨hfail, hno, ?_⟩
      intro i hi
      have hkeep : ∀ fs : Fs, clearAll below r.mayClear [r.m_sTargetPath] fs i.dst = fs i.dst :=
        fun fs => clearAll_apply r.mayClear fun d hd => (h.temp d (htarget d hd)).dst hi
      exact (hkeep _).trans (hdst i hi)
  | inr hbuilt =>
      obtain ⟨kinds', hsame, heq⟩ := hbuilt
      rw [heq]
      exact Or.inr ⟨kinds', hsame, if_neg Bool.false_ne_true⟩

end Ploop

end DispService.Restore
