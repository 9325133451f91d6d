import DispService.Move.Commands

/-! The chain of the ways to move a VM, each a batch of commands. -/
namespace DispService.Move

open DispService.Lib DispService.Instrument

namespace Chain

variable (r : Request)

/-- The item of the VM directory; its undo step does not look at the result. -/
def directory : Step World :=
  ⟨Command.directory r.updateVmDirItem .target,
    some fun w => (Command.directory .success .source w).2⟩

def config : Step World :=
  ⟨Command.config r.saveConfig .target, some fun w => (Command.config .success .source w).2⟩

/-- A step without an undo step. -/
def once (redo : World → PrlResult × World) : Step World :=
  ⟨redo, none⟩

def offlineBatch : Batch World :=
  [once (Command.copy r), directory r, config r, once (Command.cluster r),
    once (Command.remove r), once (Command.libvirt r)]

def offline (w : World) : PrlResult × World :=
  (offlineBatch r).execute w

def renameBatch : Batch World :=
  [⟨Command.rename r r.atomicMoveFile .source .target,
      some fun w => (Command.rename r true .target .source w).2⟩,
    directory r, config r, once (Command.cluster r), once (Command.libvirt r)]

def rename (w : World) : PrlResult × World :=
  let x := r.mountPoint .source
  if x = "" then (.operationFailed, w)
  else if !r.cdUp then (.unexpected, w)
  else
    let y := r.mountPoint .target
    if y = "" then (.operationFailed, w)
    else if x ≠ y ∨ r.pcs_fs = true then offline r w
    else (renameBatch r).execute w

/-- `Estimate`, as far as it can fail. -/
def estimate : PrlResult :=
  if r.serialPorts || r.isEfiEnabled then .unsupportedDeviceType else r.getEntryLists

def nexusBatch : Batch World :=
  [once (Command.regular r), once (Command.prepare r), directory r, config r,
    once (Command.cluster r), once (Command.execute r), once (Command.remove r),
    once (Command.libvirt r)]

def nexus (w : World) : PrlResult × World :=
  if !r.running then rename r w
  else if (estimate r).failed then (estimate r, w)
  else (nexusBatch r).execute w

def importBatch : Batch World :=
  [⟨Command.begin_ r, some Command.rollback⟩, ⟨Command.importStorage r, some Command.sweep⟩,
    once (Command.query r), once (Command.remove r), once (Command.deleteVmDirectoryItem r),
    once (Command.register r), once Command.commit]

def import_ (w : World) : PrlResult × World :=
  if !(r.findForEntry .source).failed then (.vmRequestNotSupported, w)
  else if (r.findForEntry .target).failed then nexus r w
  else if !r.isTemplate then (.vmRequestNotSupported, w)
  else if r.insert.failed && r.insert != .vmDirConfigAlreadyExists then (r.insert, w)
  else if !r.found then (.unexpected, w)
  else if r.findByRoot.failed then (r.findByRoot, w)
  else (importBatch r).execute w

end Chain

/-- `Task_MoveVm::run_body` -/
def run_body (r : Request) (w : World) : PrlResult × World :=
  if !r.newHome then (.operationFailed, w) else Chain.import_ r w

/-- The VM is registered, and nothing is at the target. -/
def Request.world (r : Request) : World where
  source := some ⟨some .source, (r.home.entries []).filter (·.2 ≠ some .config)⟩
  target := none
  vmHome := some .source
  template := none
  m_guard := false
  atRemoval := none

/-- The folder is that of the VM, and its configuration names it. -/
structure Complete (r : Request) (p : Place) (f : Folder) : Prop where
  homePath : f.homePath = some p
  entries : ∀ x ∈ r.home.entries [], x.2 ≠ some .config → x ∈ f.entries

/-- The VM is registered at the folder, and is all there. -/
structure Kept (r : Request) (p : Place) (w : World) : Prop where
  registered : w.vmHome.or w.template = some p
  complete : ∃ f, w.folder p = some f ∧ Complete r p f

/-- The move never loses the VM, and what it took from the source was at the target. -/
structure Sound (r : Request) (e : PrlResult × World) : Prop where
  failed : e.1.failed = true → ∃ p, Kept r p e.2
  done : e.1.failed = false → Kept r .target e.2
  removed : ∀ f, e.2.atRemoval = some f →
    (∃ f, e.2.source = some f ∧ Complete r .source f) ∨ ∃ g, f = some g ∧ Complete r .target g

end DispService.Move

/-! When a copy of the folder is complete. -/
namespace DispService.Move

open DispService.Lib DispService.Instrument

section Copies

variable (r : Request)

/-- The call for an entry is carried out. -/
def Request.Copied (x : Entry) : Prop :=
  match x with
  | (p, none) => r.WriteDirectory p = true
  | (p, some _) => (r.copyFile p).failed = false

/-- The whole folder is copied. -/
def Request.Copies : Prop :=
  r.nested = false ∧ r.WriteDirectory [] = true ∧ ∀ x ∈ r.home.entries [], r.Copied x

variable {r} {source : Folder}

theorem process_ok {x : Entry} {t : Folder} :
    (Command.process r source x t).1.failed = false ↔ r.Copied x := by
  obtain ⟨p, leaf⟩ := x
  unfold Command.process Request.Copied
  cases leaf with
  | none =>
      dsimp only
      split
      · rename_i hdir
        exact iff_of_true rfl hdir
      · rename_i hdir
        exact iff_of_false (fun hno => by cases hno) hdir
  | some leaf =>
      dsimp only
      split
      · exact Iff.rfl
      · rename_i hok
        exact iff_of_true rfl (Bool.eq_false_iff.mpr hok)

theorem process_put {x : Entry} {t : Folder} (h : r.Copied x) :
    (Command.process r source x t).2 = Command.put source x t := by
  obtain ⟨p, leaf⟩ := x
  unfold Command.process
  unfold Request.Copied at h
  cases leaf with
  | none => exact congrArg Prod.snd (if_pos h)
  | some leaf => exact congrArg Prod.snd (if_neg (Bool.eq_false_iff.mp h))

theorem processAll_ok {l : List Entry} {t : Folder} :
    (Command.processAll r source l t).1.failed = false ↔ ∀ x ∈ l, r.Copied x := by
  induction l generalizing t with
  | nil => exact iff_of_true rfl fun x hx => absurd hx List.not_mem_nil
  | cons x l ih =>
      rw [List.forall_mem_cons]
      unfold Command.processAll
      dsimp only
      split
      · rename_i hfail
        apply iff_of_false (fun hno => Bool.false_ne_true (hno.symm.trans hfail))
        intro hall
        rw [process_ok.mpr hall.1] at hfail
        cases hfail
      · rename_i hok
        rw [ih]
        exact (and_iff_right (process_ok.mp (Bool.eq_false_iff.mpr hok))).symm

theorem mem_put {x y : Entry} {t : Folder} (h : x ∈ t.entries) :
    x ∈ (Command.put source y t).entries := by
  unfold Command.put
  split
  · exact h
  · exact List.mem_cons_of_mem y h

theorem put_self {x : Entry} {t : Folder} (h : x.2 ≠ some .config) :
    x ∈ (Command.put source x t).entries := by
  unfold Command.put
  rw [if_neg h]
  exact List.mem_cons_self

/-- The target holds what was copied to it, and what it held before. -/
theorem processAll_entries {l : List Entry} {t : Folder} (h : ∀ x ∈ l, r.Copied x) {x : Entry}
    (hx : x ∈ t.entries ∨ x ∈ l ∧ x.2 ≠ some .config) :
    x ∈ (Command.processAll r source l t).2.entries := by
  induction l generalizing t with
  | nil => exact hx.resolve_right fun hno => List.not_mem_nil hno.1
  | cons y l ih =>
      obtain ⟨hy, hrest⟩ := List.forall_mem_cons.mp h
      unfold Command.processAll
      dsimp only
      rw [if_neg (Bool.eq_false_iff.mp (process_ok.mpr hy)), process_put hy]
      apply ih hrest
      rcases hx with hold | ⟨hnew, hne⟩
      · exact Or.inl (mem_put hold)
      · cases List.mem_cons.mp hnew with
        | inl heq => exact Or.inl (heq ▸ put_self (heq ▸ hne))
        | inr hin => exact Or.inr ⟨hin, hne⟩

theorem copyTo_ok : (Command.copyTo r source).1.failed = false ↔ r.Copies := by
  unfold Command.copyTo Request.Copies
  cases hdir : r.WriteDirectory []
  · exact iff_of_false (fun hno => by cases hno) fun hno => by cases hno.2.1
  · have hall : (∀ x ∈ r.home.walk, r.Copied x) ↔ ∀ x ∈ r.home.entries [], r.Copied x :=
      forall_congr' fun x => imp_congr_left (Listing.mem_walk r.home x)
    dsimp only
    rw [if_neg (by decide), ← hall, ← @processAll_ok r source r.home.walk ⟨none, []⟩]
    cases hcopy : (Command.processAll r source r.home.walk ⟨none, []⟩).1.failed
    · cases r.nested <;> simp [PrlResult.failed]
    · simp [hcopy]

theorem copyTo_entries (h : r.Copies) : ∃ f, (Command.copyTo r source).2 = some f ∧
    ∀ x ∈ r.home.entries [], x.2 ≠ some .config → x ∈ f.entries := by
  obtain ⟨hnested, hdir, hall⟩ := h
  have hwalk : ∀ x ∈ r.home.walk, r.Copied x :=
    fun x hx => hall x ((Listing.mem_walk r.home x).mp hx)
  have hok := Bool.eq_false_iff.mp (processAll_ok.mpr hwalk : (Command.processAll r source
    r.home.walk ⟨none, []⟩).1.failed = false)
  refine ⟨(Command.processAll r source r.home.walk ⟨none, []⟩).2, ?_, ?_⟩
  · unfold Command.copyTo
    dsimp only
    rw [hdir, if_neg (by decide), if_neg hok, hnested, if_neg Bool.false_ne_true]
  · intro x hx hne
    exact processAll_entries hwalk (Or.inr ⟨(Listing.mem_walk r.home x).mpr hx, hne⟩)

/-- The configuration is copied as it is. -/
theorem processAll_homePath {l : List Entry} {t : Folder} {p : Place}
    (hs : source.homePath ≠ some p) (ht : t.homePath ≠ some p) :
    (Command.processAll r source l t).2.homePath ≠ some p := by
  induction l generalizing t with
  | nil => exact ht
  | cons x l ih =>
      have hput : (Command.put source x t).homePath ≠ some p := by
        unfold Command.put
        split
        · exact hs
        · exact ht
      have hprocess : (Command.process r source x t).2.homePath ≠ some p := by
        obtain ⟨path, leaf⟩ := x
        unfold Command.process
        cases leaf with
        | none =>
            dsimp only
            split
            · exact hput
            · exact ht
        | some leaf =>
            dsimp only
            split
            · exact ht
            · exact hput
      unfold Command.processAll
      dsimp only
      split
      · exact hprocess
      · exact ih hprocess

theorem copyTo_homePath {p : Place} (hs : source.homePath ≠ some p) {f : Folder}
    (hf : (Command.copyTo r source).2 = some f) : f.homePath ≠ some p := by
  have hall := @processAll_homePath r source r.home.walk ⟨none, []⟩ p hs (Option.some_ne_none p).symm
  unfold Command.copyTo at hf
  dsimp only at hf
  split at hf
  · cases hf
  · split at hf
    · exact Option.some.inj hf ▸ hall
    · split at hf
      · exact Option.some.inj hf ▸ hall
      · exact Option.some.inj hf ▸ hall

end Copies

section Regular

variable {r : Request} {w : World}

/-- Where a regular file goes. -/
def Command.Item.entry (x : Command.Item) : Entry :=
  (x.2, x.1.2)

theorem writeDirectories_entries {l : List Entry} {t : Folder}
    (h : (Command.writeDirectories r l t).1.failed = false) (x : Entry) :
    x ∈ (Command.writeDirectories r l t).2.entries ↔ x ∈ l ∨ x ∈ t.entries := by
  induction l generalizing t with
  | nil => exact (or_iff_right List.not_mem_nil).symm
  | cons y l ih =>
      unfold Command.writeDirectories at h ⊢
      split at h
      · rename_i hmade
        rw [if_pos hmade, ih h, List.mem_cons, List.mem_cons, or_assoc]
        exact or_left_comm
      · cases h

theorem writeDirectories_homePath (l : List Entry) (t : Folder) :
    (Command.writeDirectories r l t).2.homePath = t.homePath := by
  induction l generalizing t with
  | nil => rfl
  | cons y l ih =>
      unfold Command.writeDirectories
      split
      · exact ih _
      · rfl

theorem copyFiles_entries {l : List Command.Item} {t : Folder}
    (h : (Command.copyFiles r l t).1.failed = false) (x : Entry) :
    x ∈ (Command.copyFiles r l t).2.entries ↔ x ∈ l.map Command.Item.entry ∨ x ∈ t.entries := by
  induction l generalizing t with
  | nil => exact (or_iff_right List.not_mem_nil).symm
  | cons y l ih =>
      unfold Command.copyFiles at h ⊢
      split at h
      · rename_i hfail
        exact absurd (h.symm.trans hfail) Bool.false_ne_true
      · rename_i hok
        rw [if_neg hok, ih h, List.map_cons, List.mem_cons, List.mem_cons, or_assoc]
        exact or_left_comm

theorem copyFiles_homePath (l : List Command.Item) (t : Folder) :
    (Command.copyFiles r l t).2.homePath = t.homePath := by
  induction l generalizing t with
  | nil => rfl
  | cons y l ih =>
      unfold Command.copyFiles
      split
      · rfl
      · exact ih _

/-- The regular files are copied. -/
def Request.Carries (r : Request) : Prop :=
  (∀ x ∈ Command.folders r, r.WriteDirectory x.1 = true) ∧
    ∀ x ∈ Command.regularFiles r, (r.copyFile x.1.1).failed = false

theorem writeDirectories_ok {l : List Entry} {t : Folder} :
    (Command.writeDirectories r l t).1.failed = false ↔ ∀ x ∈ l, r.WriteDirectory x.1 = true := by
  induction l generalizing t with
  | nil => exact iff_of_true rfl fun x hx => absurd hx List.not_mem_nil
  | cons y l ih =>
      unfold Command.writeDirectories
      rw [List.forall_mem_cons]
      split
      · rename_i hmade
        exact ih.trans (and_iff_right hmade).symm
      · rename_i hno
        exact iff_of_false (fun hok => by cases hok) fun hall => hno hall.1

theorem copyFiles_ok {l : List Command.Item} {t : Folder} :
    (Command.copyFiles r l t).1.failed = false ↔ ∀ x ∈ l, (r.copyFile x.1.1).failed = false := by
  induction l generalizing t with
  | nil => exact iff_of_true rfl fun x hx => absurd hx List.not_mem_nil
  | cons y l ih =>
      unfold Command.copyFiles
      rw [List.forall_mem_cons]
      split
      · rename_i hfail
        apply iff_of_false
        · exact fun hok => Bool.false_ne_true (hok.symm.trans hfail)
        · exact fun hall => Bool.false_ne_true (hall.1.symm.trans hfail)
      · rename_i hok
        exact ih.trans (and_iff_right (Bool.eq_false_iff.mpr hok)).symm

theorem regular_ok : (Command.regular r w).1.failed = false ↔ r.Carries := by
  unfold Command.regular Request.Carries
  dsimp only
  split
  · rename_i hfail
    apply iff_of_false
    · exact fun hok => Bool.false_ne_true (hok.symm.trans hfail)
    · exact fun hall => Bool.false_ne_true ((writeDirectories_ok.mpr hall.1).symm.trans hfail)
  · rename_i hok
    exact copyFiles_ok.trans
      (and_iff_right (writeDirectories_ok.mp (Bool.eq_false_iff.mpr hok))).symm

/-- What the regular files come to at a target that is empty. -/
theorem regular_world : ∃ f, Command.regular r r.world =
    ((Command.regular r r.world).1, { r.world with target := some f }) ∧ f.homePath = none ∧
      ((Command.regular r r.world).1.failed = false → ∀ x, x ∈ f.entries ↔
        x ∈ Command.folders r ∨ x ∈ (Command.regularFiles r).map Command.Item.entry) := by
  have htarget : r.world.target.getD ⟨none, []⟩ = ⟨none, []⟩ := rfl
  unfold Command.regular
  dsimp only
  rw [htarget]
  split
  · rename_i hfail
    refine ⟨_, rfl, writeDirectories_homePath _ _, ?_⟩
    intro hok
    exact absurd (hok.symm.trans hfail) Bool.false_ne_true
  · rename_i hok
    refine ⟨_, rfl, (copyFiles_homePath _ _).trans (writeDirectories_homePath _ _), ?_⟩
    intro hcopied x
    rw [copyFiles_entries hcopied, writeDirectories_entries (Bool.eq_false_iff.mpr hok)]
    simp [or_comm]

/-- The images and the regular files are all there is. -/
def Request.Gathered (r : Request) : Prop :=
  ∀ x ∈ r.home.entries [], x.2 ≠ some .config →
    x.1 ∈ (Command.special r).map Disk.systemName ∨ x.2 = none ∨
      x ∈ (Command.regularFiles r).map Command.Item.entry

/-- What is at the target after the images are copied. -/
theorem gathered_iff {f : Folder} (h : ∀ x, x ∈ f.entries ↔
      x ∈ Command.folders r ∨ x ∈ (Command.regularFiles r).map Command.Item.entry) :
    (∀ x ∈ r.home.entries [], x.2 ≠ some .config →
      x ∈ r.home.walk.filter (fun x => x.1 ∈ (Command.special r).map Disk.systemName ∧
          x.2 ≠ some .config) ++
        ((Command.special r).map (fun d => (d.systemName, some (Leaf.file ""))) ++
          f.entries).filter (fun x => x.1 ∉ (Command.special r).map Disk.systemName)) ↔
      r.Gathered := by
  unfold Request.Gathered
  apply forall_congr'
  intro x
  apply imp_congr_right
  intro hx
  apply imp_congr_right
  intro hne
  have hwalk := (Listing.mem_walk r.home x).mpr hx
  have hfolder : x ∈ Command.folders r ↔ x.2 = none := by
    unfold Command.folders
    rw [List.mem_filter, decide_eq_true_iff]
    exact and_iff_right hwalk
  rw [List.mem_append, List.mem_filter, List.mem_filter, List.mem_append, h x, hfolder,
    decide_eq_true_iff, decide_eq_true_iff]
  by_cases hname : x.1 ∈ (Command.special r).map Disk.systemName
  · exact iff_of_true (Or.inl ⟨hwalk, hname, hne⟩) (Or.inl hname)
  · have hblank : x ∉ (Command.special r).map (fun d => (d.systemName, some (Leaf.file ""))) := by
      intro hin
      obtain ⟨d, hd, rfl⟩ := List.mem_map.mp hin
      exact hname (List.mem_map_of_mem hd)
    simp [hname, hblank]

end Regular

end DispService.Move
