import DispService.Move.Copied

/-! When a move keeps the VM: what is removed from the source may not be followed by a
step that fails, nor a change that is not undone be followed by anything. -/
namespace DispService.Move

open DispService.Lib DispService.Instrument

namespace Request

variable (r : Request)

/-- A removal that fails leaves all the files. -/
def Leaves (left : Place → Left) : Prop :=
  ∀ x ∈ r.home.entries [], x.2 ≠ some .config → (left .source).entries x.1 = true

/-- The cluster takes the new place of the VM. -/
def Clustered : Prop :=
  r.haEnabled = true →
    match r.isSharedFS .target, r.isSharedFS .source with
    | true, true => r.updateClusterResourcePath.failed = false
    | true, false => r.addClusterResource.failed = false
    | false, true => r.removeClusterResource.failed = false
    | false, false => True

/-- Libvirt takes the configuration. -/
def Told : Prop :=
  r.isTemplate = false → r.setConfig.failed = false

/-- The source is gone for good, or none of it. -/
def RemovalSafe (complete : Prop) : Prop :=
  match r.clearAndDeleteDir with
  | none => r.Told ∧ r.nested = false ∧ complete
  | some left => r.Leaves left

end Request

variable {r : Request} {w : World}

theorem cluster_eq (w : World) :
    Command.cluster r w = ((Command.cluster r r.world).1, w) := by
  unfold Command.cluster
  cases r.haEnabled <;> cases r.isSharedFS .target <;> cases r.isSharedFS .source <;> rfl

theorem libvirt_eq (w : World) :
    Command.libvirt r w = ((Command.libvirt r r.world).1, w) := by
  unfold Command.libvirt
  cases r.isTemplate <;> cases r.setConfig.failed <;> rfl

theorem cluster_ok : (Command.cluster r r.world).1.failed = false ↔ r.Clustered := by
  unfold Command.cluster Request.Clustered
  cases r.haEnabled <;> cases r.isSharedFS .target <;> cases r.isSharedFS .source <;>
    simp [PrlResult.failed]

theorem libvirt_ok : (Command.libvirt r r.world).1.failed = false ↔ r.Told := by
  unfold Command.libvirt Request.Told
  cases r.isTemplate <;> cases r.setConfig.failed <;> simp [PrlResult.failed]

theorem kept_source {s : Folder} (hhome : w.vmHome = some .source) (hsource : w.source = some s)
    (h : Complete r .source s) : Kept r .source w where
  registered := by
    rw [hhome]
    rfl
  complete := ⟨s, hsource, h⟩

theorem Kept.place {p q : Place} (h : Kept r p w) (hhome : w.vmHome = some q) : p = q := by
  have hreg := h.registered
  rw [hhome] at hreg
  exact (Option.some.inj hreg).symm

theorem world_complete (r : Request) :
    Complete r .source ⟨some .source, (r.home.entries []).filter (·.2 ≠ some .config)⟩ where
  homePath := rfl
  entries := fun _ hx hne => List.mem_filter.mpr ⟨hx, decide_eq_true hne⟩

/-- Nothing is taken from the source yet. -/
structure Untouched (r : Request) (w : World) : Prop where
  vmHome : w.vmHome = some .source
  source : w.source = r.world.source
  atRemoval : w.atRemoval = none

theorem untouched_world (r : Request) : Untouched r r.world :=
  ⟨rfl, rfl, rfl⟩

theorem Untouched.sound (h : Untouched r w) {code : PrlResult} (hfail : code.failed = true) :
    Sound r (code, w) where
  failed := fun _ => ⟨.source, kept_source h.vmHome h.source (world_complete r)⟩
  done := fun hok => absurd (hok.symm.trans hfail) Bool.false_ne_true
  removed := by
    intro f hf
    rw [h.atRemoval] at hf
    cases hf

section Registration

/-- The undo step of the configuration, and that of the directory. -/
def undos : List (World → World) :=
  [fun w => (Command.config .success .source w).2, fun w => (Command.directory .success .source w).2]

theorem rollback_undos (hhome : w.vmHome = some .target) :
    Batch.rollback undos w =
      { w with
        source := w.source.map fun s => { s with homePath := some .source }
        vmHome := some .source } := by
  unfold Batch.rollback undos
  dsimp only [List.foldl_cons, List.foldl_nil]
  have hconfig : (Command.config .success .source w).2 =
      { w with source := w.source.map fun s => { s with homePath := some .source } } := by
    unfold Command.config World.folder World.setFolder
    dsimp only
    rw [if_neg (by decide)]
    cases hs : w.source with
    | none => exact congrArg (fun s => { w with source := s }) hs
    | some s => rfl
  rw [hconfig]
  unfold Command.directory
  dsimp only
  rw [hhome]

/-- What the registration at the target comes to, and what is left to do. -/
theorem loop_registration (hhome : w.vmHome = some .source) {f : Folder}
    (htarget : w.target = some f) (rest : Batch World) (m_undo : List (World → World)) :
    Batch.loop (Chain.directory r :: Chain.config r :: rest) m_undo w =
      if r.updateVmDirItem.failed then
        (r.updateVmDirItem, m_undo, { w with vmHome := some .target })
      else if r.saveConfig.failed then
        (r.saveConfig, undos.tail ++ m_undo, { w with vmHome := some .target })
      else Batch.loop rest (undos ++ m_undo)
        { w with vmHome := some .target, target := some { f with homePath := some .target } } := by
  have hdirectory : (Chain.directory r).redo w =
      (r.updateVmDirItem, { w with vmHome := some .target }) := by
    unfold Chain.directory Command.directory
    dsimp only
    rw [hhome]
  split
  · rename_i hfail
    rw [Batch.loop_failed (by rw [hdirectory]; exact hfail), hdirectory]
  · rename_i hok
    rw [Batch.loop_ok (by rw [hdirectory]; exact Bool.eq_false_iff.mpr hok), hdirectory]
    split
    · rename_i hfail
      have hconfig : (Chain.config r).redo { w with vmHome := some .target } =
          (r.saveConfig, { w with vmHome := some .target }) := if_pos hfail
      rw [Batch.loop_failed (by rw [hconfig]; exact hfail), hconfig]
      rfl
    · rename_i hok
      have hconfig : (Chain.config r).redo { w with vmHome := some .target } =
          (.success, { w with
            vmHome := some .target, target := some { f with homePath := some .target } }) := by
        unfold Chain.config Command.config World.folder World.setFolder
        dsimp only
        rw [if_neg hok, htarget]
      rw [Batch.loop_ok (by rw [hconfig]; rfl), hconfig]
      rfl

/-- The VM is registered at the target, and the source is still there. -/
structure Registered (r : Request) (w : World) (g : Folder) : Prop where
  vmHome : w.vmHome = some .target
  source : w.source = r.world.source
  target : w.target = some g
  homePath : g.homePath = some .target
  atRemoval : w.atRemoval = none

namespace Registered

variable {g : Folder} (h : Registered r w g)
include h

theorem undone {code : PrlResult} (hfail : code.failed = true) :
    Sound r (Batch.finish (code, undos, w)) := by
  rw [Batch.finish_failed hfail, rollback_undos h.vmHome]
  apply Untouched.sound _ hfail
  refine ⟨rfl, ?_, h.atRemoval⟩
  dsimp only
  rw [h.source]
  rfl

/-- The source is removed in part, and the VM is registered there again. -/
theorem removal_failed {left : Place → Left} (hremove : r.clearAndDeleteDir = some left) :
    Sound r (Batch.finish (Batch.loop
      [Chain.once (Command.remove r), Chain.once (Command.libvirt r)] undos w)) ↔
        r.Leaves left := by
  have hredo : (Chain.once (Command.remove r)).redo w = (.cantRemoveEntry,
      { w with
        atRemoval := some w.target
        source := w.source.map (·.only (left .source))
        target := if r.nested then w.target.map (·.only (left .target)) else w.target }) := by
    unfold Chain.once Command.remove
    dsimp only
    rw [hremove]
  rw [Batch.loop_failed (by rw [hredo]; rfl), hredo, Batch.finish_failed rfl]
  rw [rollback_undos (by exact h.vmHome)]
  dsimp only
  rw [h.source]
  have hmem : ∀ x, x ∈ (⟨if (left .source).config then some .source else none,
      ((r.home.entries []).filter (·.2 ≠ some .config)).filter
        fun x => (left .source).entries x.1⟩ : Folder).entries ↔
      (x ∈ r.home.entries [] ∧ x.2 ≠ some .config) ∧ (left .source).entries x.1 = true := by
    intro x
    dsimp only
    rw [List.mem_filter, List.mem_filter, decide_eq_true_iff]
  constructor
  · intro hsound x hx hne
    obtain ⟨p, hkept⟩ := hsound.failed rfl
    obtain rfl := hkept.place (q := .source) rfl
    obtain ⟨f, hf, hcomplete⟩ := hkept.complete
    obtain rfl := Option.some.inj hf
    exact ((hmem x).mp (hcomplete.entries x hx hne)).2
  · intro hleaves
    have hcomplete : Complete r .source
        ⟨some .source, ((r.home.entries []).filter (·.2 ≠ some .config)).filter
          fun x => (left .source).entries x.1⟩ :=
      ⟨rfl, fun x hx hne => (hmem x).mpr ⟨⟨hx, hne⟩, hleaves x hx hne⟩⟩
    refine ⟨fun _ => ⟨.source, kept_source rfl rfl hcomplete⟩, ?_, ?_⟩
    · exact fun hok => by cases hok
    · exact fun _ _ => Or.inl ⟨_, rfl, hcomplete⟩

/-- The source is removed, and nothing may fail. -/
theorem removal_done (hremove : r.clearAndDeleteDir = none) :
    Sound r (Batch.finish (Batch.loop
      [Chain.once (Command.remove r), Chain.once (Command.libvirt r)] undos w)) ↔
        (Command.libvirt r r.world).1.failed = false ∧ r.nested = false ∧
          Complete r .target g := by
  have hredo : (Chain.once (Command.remove r)).redo w = (.success,
      { w with
        atRemoval := some w.target
        source := none
        target := if r.nested then none else w.target }) := by
    unfold Chain.once Command.remove
    dsimp only
    rw [hremove]
  rw [Batch.loop_ok (by rw [hredo]; rfl), hredo]
  have hlibvirt : ∀ w : World, (Chain.once (Command.libvirt r)).redo w =
      ((Command.libvirt r r.world).1, w) := libvirt_eq
  cases hcode : (Command.libvirt r r.world).1.failed
  · rw [Batch.loop_ok (by rw [hlibvirt]; exact hcode), hlibvirt]
    have hend : Batch.loop [] ((Chain.once (Command.libvirt r)).undo.toList ++
        ((Chain.once (Command.remove r)).undo.toList ++ undos))
        { w with
          atRemoval := some w.target
          source := none
          target := if r.nested then none else w.target } =
        (.success, undos, { w with
          atRemoval := some w.target
          source := none
          target := if r.nested then none else w.target }) := rfl
    rw [hend, Batch.finish_ok]
    constructor
    · intro hsound
      obtain ⟨f, hf, hcomplete⟩ := (hsound.done rfl).complete
      have hf : (if r.nested then none else w.target) = some f := hf
      cases hnested : r.nested
      · rw [hnested, if_neg Bool.false_ne_true, h.target] at hf
        obtain rfl := Option.some.inj hf
        exact ⟨rfl, rfl, hcomplete⟩
      · rw [hnested, if_pos rfl] at hf
        cases hf
    · rintro ⟨-, hnested, hcomplete⟩
      rw [hnested, if_neg Bool.false_ne_true]
      refine ⟨(fun hno => by cases hno), fun _ => ⟨?_, ?_⟩, ?_⟩
      · dsimp only
        rw [h.vmHome]
        rfl
      · exact ⟨g, h.target, hcomplete⟩
      · intro f hf
        exact Or.inr ⟨g, (Option.some.inj hf).symm.trans h.target, hcomplete⟩
  · have hundo : (Chain.once (Command.remove r)).undo.toList ++ undos = undos := rfl
    rw [Batch.loop_failed (by rw [hlibvirt]; exact hcode), hlibvirt, Batch.finish_failed hcode,
      hundo, rollback_undos (by exact h.vmHome)]
    apply iff_of_false
    · intro hsound
      obtain ⟨p, hkept⟩ := hsound.failed hcode
      obtain rfl := hkept.place (q := .source) rfl
      obtain ⟨f, hf, -⟩ := hkept.complete
      cases hf
    · exact fun hno => by cases hno.1

theorem removal_sound :
    Sound r (Batch.finish (Batch.loop
      [Chain.once (Command.remove r), Chain.once (Command.libvirt r)] undos w)) ↔
        r.RemovalSafe (Complete r .target g) := by
  unfold Request.RemovalSafe
  split
  · rename_i hremove
    rw [← libvirt_ok]
    exact h.removal_done hremove
  · rename_i left hremove
    exact h.removal_failed hremove

end Registered

theorem Registered.once_failed {g : Folder} (h : Registered r w g)
    {redo : World → PrlResult × World} {rest : Batch World}
    (hfail : (redo w).1.failed = true) (hsame : (redo w).2 = w) :
    Sound r (Batch.finish (Batch.loop (Chain.once redo :: rest) undos w)) := by
  have hloop : Batch.loop (Chain.once redo :: rest) undos w = ((redo w).1, undos, (redo w).2) :=
    Batch.loop_failed hfail
  rw [hloop, hsame]
  exact h.undone hfail

/-- The catalogue cannot be saved, and the item that was changed stays so. -/
theorem not_sound_directory {f : Folder} {code : PrlResult} (hfail : code.failed = true)
    (htarget : w.target = some f) (hhome : f.homePath ≠ some .target) :
    ¬ Sound r (Batch.finish (code, [], { w with vmHome := some .target })) := by
  rw [Batch.finish_failed hfail]
  intro hsound
  obtain ⟨p, hkept⟩ := hsound.failed hfail
  obtain rfl := hkept.place (q := .target) rfl
  obtain ⟨g, hg, hcomplete⟩ := hkept.complete
  have hg : w.target = some g := hg
  obtain rfl := Option.some.inj (htarget.symm.trans hg)
  exact hhome hcomplete.homePath

/-- The folder that is at the target, and its registration there. -/
theorem registration_sound (hw : Untouched r w) {f : Folder} (htarget : w.target = some f)
    (hhome : f.homePath ≠ some .target) {rest : Batch World} {P : Prop}
    (hrest : ∀ w', Registered r w' { f with homePath := some .target } →
      (Sound r (Batch.finish (Batch.loop rest undos w')) ↔ P)) :
    Sound r (Batch.finish (Batch.loop (Chain.directory r :: Chain.config r :: rest) [] w)) ↔
      r.updateVmDirItem.failed = false ∧ (r.saveConfig.failed = false → P) := by
  rw [loop_registration hw.vmHome htarget]
  split
  · rename_i hfail
    apply iff_of_false (not_sound_directory hfail htarget hhome)
    exact fun hno => Bool.false_ne_true (hno.1.symm.trans hfail)
  · rename_i hok
    split
    · rename_i hfail
      rw [Batch.finish_failed hfail]
      apply iff_of_true
      · apply Untouched.sound _ hfail
        exact ⟨rfl, hw.source, hw.atRemoval⟩
      · exact ⟨Bool.eq_false_iff.mpr hok, fun hno => absurd (hno.symm.trans hfail) (by decide)⟩
    · rename_i hsave
      have hreg : Registered r
          { w with vmHome := some .target, target := some { f with homePath := some .target } }
          { f with homePath := some .target } := ⟨rfl, hw.source, rfl, rfl, hw.atRemoval⟩
      apply (hrest _ hreg).trans
      constructor
      · exact fun hp => ⟨Bool.eq_false_iff.mpr hok, fun _ => hp⟩
      · exact fun hp => hp.2 (Bool.eq_false_iff.mpr hsave)

end Registration

section Offline

/-- The offline move: the catalogue can be saved, and no step fails that follows a removal. -/
def Request.OfflineSafe (r : Request) : Prop :=
  r.Copies → r.updateVmDirItem.failed = false ∧ (r.saveConfig.failed = false →
    r.Clustered → r.RemovalSafe True)

theorem removalSafe_congr {P Q : Prop} (h : P ↔ Q) : r.RemovalSafe P ↔ r.RemovalSafe Q := by
  unfold Request.RemovalSafe
  rw [h]

theorem offline_iff : Sound r (Chain.offline r r.world) ↔ r.OfflineSafe := by
  let source : Folder := ⟨some .source, (r.home.entries []).filter (·.2 ≠ some .config)⟩
  have hredo : (Chain.once (Command.copy r)).redo r.world = ((Command.copyTo r source).1,
      { r.world with target := (Command.copyTo r source).2 }) := rfl
  unfold Chain.offline Chain.offlineBatch Request.OfflineSafe
  rw [Batch.execute_cons, ← cluster_ok]
  have hw : Untouched r { r.world with target := (Command.copyTo r source).2 } := ⟨rfl, rfl, rfl⟩
  by_cases hcopies : r.Copies
  · have hok := (@copyTo_ok r source).mpr hcopies
    obtain ⟨f, hf, hentries⟩ := @copyTo_entries r source hcopies
    have hhome : f.homePath ≠ some .target := copyTo_homePath (fun hno => by cases hno) hf
    rw [Batch.loop_ok (by rw [hredo]; exact hok), hredo]
    apply Iff.trans _ (forall_prop_of_true hcopies).symm
    apply registration_sound hw hf hhome
    intro w' hw'
    have hcluster : (Chain.once (Command.cluster r)).redo w' =
        ((Command.cluster r r.world).1, w') := cluster_eq w'
    cases hcode : (Command.cluster r r.world).1.failed
    · rw [Batch.loop_ok (by rw [hcluster]; exact hcode), hcluster]
      apply hw'.removal_sound.trans
      apply Iff.trans _ (forall_prop_of_true rfl).symm
      exact removalSafe_congr (iff_true_intro ⟨rfl, hentries⟩)
    · apply iff_of_true
      · exact hw'.once_failed (by rw [cluster_eq]; exact hcode) (by rw [cluster_eq])
      · exact fun hno => by cases hno
  · have hfail : (Command.copyTo r source).1.failed = true := by
      rw [← Bool.not_eq_false, copyTo_ok]
      exact hcopies
    rw [Batch.loop_failed (by rw [hredo]; exact hfail), hredo, Batch.finish_failed hfail]
    apply iff_of_true
    · exact hw.sound hfail
    · exact fun hno => absurd hno hcopies

end Offline

section Nexus

/-- The online move; it also has to take everything along, and elsewhere. -/
def Request.NexusSafe (r : Request) : Prop :=
  r.Carries → r.prepare.failed = false →
    r.updateVmDirItem.failed = false ∧ (r.saveConfig.failed = false → r.Clustered →
      r.copyVolume.failed = false → r.RemovalSafe r.Gathered)

/-- The images are copied, the source is removed, and the domain is told. -/
theorem execute_sound {g : Folder} (h : Registered r w g) {f : Folder}
    (hf : ∀ x, x ∈ f.entries ↔
      x ∈ Command.folders r ∨ x ∈ (Command.regularFiles r).map Command.Item.entry)
    (hg : g.entries = (Command.special r).map (fun d => (d.systemName, some (Leaf.file ""))) ++
      f.entries) :
    Sound r (Batch.finish (Batch.loop [Chain.once (Command.execute r),
      Chain.once (Command.remove r), Chain.once (Command.libvirt r)] undos w)) ↔
        (r.copyVolume.failed = false → r.RemovalSafe r.Gathered) := by
  cases hcopy : r.copyVolume.failed
  · let g' : Folder := { g with
      entries := r.home.walk.filter
          (fun x => x.1 ∈ (Command.special r).map Disk.systemName ∧ x.2 ≠ some .config) ++
        g.entries.filter (fun x => x.1 ∉ (Command.special r).map Disk.systemName) }
    have hredo : (Chain.once (Command.execute r)).redo w = (.success, { w with target := some g' }) := by
      unfold Chain.once Command.execute
      dsimp only
      rw [hcopy, if_neg Bool.false_ne_true, h.target]
      rfl
    have hregistered : Registered r { w with target := some g' } g' :=
      ⟨h.vmHome, h.source, rfl, h.homePath, h.atRemoval⟩
    rw [Batch.loop_ok (by rw [hredo]; rfl), hredo]
    apply hregistered.removal_sound.trans
    apply Iff.trans _ (forall_prop_of_true rfl).symm
    apply removalSafe_congr
    rw [← gathered_iff hf, ← hg]
    exact ⟨fun hcomplete => hcomplete.entries, fun hall => ⟨h.homePath, hall⟩⟩
  · have hredo : Command.execute r w = (r.copyVolume, w) := if_pos hcopy
    apply iff_of_true
    · exact h.once_failed (by rw [hredo]; exact hcopy) (by rw [hredo])
    · exact fun hno => by cases hno

theorem nexusBatch_iff : Sound r ((Chain.nexusBatch r).execute r.world) ↔ r.NexusSafe := by
  obtain ⟨f, hregular, hhome, hentries⟩ := @regular_world r
  unfold Chain.nexusBatch Request.NexusSafe
  rw [Batch.execute_cons, ← cluster_ok, ← regular_ok]
  have hredo : (Chain.once (Command.regular r)).redo r.world =
      ((Command.regular r r.world).1, { r.world with target := some f }) := hregular
  cases hok : (Command.regular r r.world).1.failed
  swap
  · have hw : Untouched r { r.world with target := some f } := ⟨rfl, rfl, rfl⟩
    rw [Batch.loop_failed (by rw [hredo]; exact hok), hredo, Batch.finish_failed hok]
    exact iff_of_true (hw.sound hok) fun hno => by cases hno
  rw [Batch.loop_ok (by rw [hredo]; exact hok), hredo, forall_prop_of_true rfl]
  let g : Folder := { f with
    entries := (Command.special r).map (fun d => (d.systemName, some (Leaf.file ""))) ++ f.entries }
  have hredo' : (Chain.once (Command.prepare r)).redo { r.world with target := some f } =
      (r.prepare, { r.world with target := some g }) := rfl
  have hw : Untouched r { r.world with target := some g } := ⟨rfl, rfl, rfl⟩
  cases hprepare : r.prepare.failed
  swap
  · rw [Batch.loop_failed (by rw [hredo']; exact hprepare), hredo', Batch.finish_failed hprepare]
    exact iff_of_true (hw.sound hprepare) fun hno => by cases hno
  rw [Batch.loop_ok (by rw [hredo']; exact hprepare), hredo', forall_prop_of_true rfl]
  apply registration_sound hw rfl (by rw [hhome]; exact (Option.some_ne_none _).symm)
  intro w' hw'
  have hcluster : (Chain.once (Command.cluster r)).redo w' =
      ((Command.cluster r r.world).1, w') := cluster_eq w'
  cases hcode : (Command.cluster r r.world).1.failed
  · rw [Batch.loop_ok (by rw [hcluster]; exact hcode), hcluster, forall_prop_of_true rfl]
    exact execute_sound hw' (hentries hok) rfl
  · apply iff_of_true
    · exact hw'.once_failed (by rw [cluster_eq]; exact hcode) (by rw [cluster_eq])
    · exact fun hno => by cases hno

end Nexus

section Rename

/-- The move by renaming: the catalogue can be saved, and nothing fails once the
configuration is. -/
def Request.RenameSafe (r : Request) : Prop :=
  r.atomicMoveFile = true → r.nested = false → r.updateVmDirItem.failed = false ∧
    (r.saveConfig.failed = false → r.Clustered ∧ r.Told)

/-- The folder of the VM, with the home that its configuration stores. -/
def Request.folder (r : Request) (p : Place) : Folder :=
  ⟨some p, (r.home.entries []).filter (·.2 ≠ some .config)⟩

theorem folder_complete (r : Request) (p : Place) : Complete r p (r.folder p) where
  homePath := rfl
  entries := fun _ hx hne => List.mem_filter.mpr ⟨hx, decide_eq_true hne⟩

/-- The undo steps of a move by renaming. -/
def renameUndo (r : Request) (w : World) : World :=
  (Command.rename r true .target .source w).2

theorem rename_back (hnested : r.nested = false) {f : Folder} (hsource : w.source = none)
    (htarget : w.target = some f) :
    renameUndo r w = { w with source := some f, target := none } := by
  unfold renameUndo Command.rename World.folder World.setFolder
  dsimp only
  rw [hsource, htarget, hnested]
  rfl

/-- The configuration is not written where the folder is to be moved back to. -/
theorem not_sound_renamed (hnested : r.nested = false) (hhome : w.vmHome = some .target)
    (hsource : w.source = none) (htarget : w.target = some (r.folder .target)) {code : PrlResult}
    (hfail : code.failed = true) :
    ¬ Sound r (Batch.finish (code, undos ++ [renameUndo r], w)) := by
  have hrollback : Batch.rollback (undos ++ [renameUndo r]) w =
      renameUndo r (Batch.rollback undos w) := List.foldl_append
  have hundos : Batch.rollback undos w = { w with vmHome := some .source } := by
    rw [rollback_undos hhome, hsource]
    rfl
  have hback := @rename_back r { w with vmHome := some .source } hnested _ hsource htarget
  rw [Batch.finish_failed hfail, hrollback, hundos, hback]
  intro hsound
  obtain ⟨p, hkept⟩ := hsound.failed hfail
  obtain rfl := hkept.place (q := .source) rfl
  obtain ⟨f, hf, hcomplete⟩ := hkept.complete
  obtain rfl := Option.some.inj hf
  cases hcomplete.homePath

/-- The folder is renamed, and has to be registered. -/
def Request.renamed (r : Request) : World :=
  { r.world with source := none, target := some (r.folder .source) }

/-- What is left to do once the folder is registered. -/
theorem finished_sound (hnested : r.nested = false) (hhome : w.vmHome = some .target)
    (hsource : w.source = none) (htarget : w.target = some (r.folder .target))
    (hremoval : w.atRemoval = none) :
    Sound r (Batch.finish (Batch.loop
      [Chain.once (Command.cluster r), Chain.once (Command.libvirt r)]
      (undos ++ [renameUndo r]) w)) ↔
        (Command.cluster r r.world).1.failed = false ∧
          (Command.libvirt r r.world).1.failed = false := by
  have hcluster : (Chain.once (Command.cluster r)).redo w =
      ((Command.cluster r r.world).1, w) := cluster_eq w
  have hlibvirt : (Chain.once (Command.libvirt r)).redo w =
      ((Command.libvirt r r.world).1, w) := libvirt_eq w
  cases hcode : (Command.cluster r r.world).1.failed
  · rw [Batch.loop_ok (by rw [hcluster]; exact hcode), hcluster]
    cases hcode' : (Command.libvirt r r.world).1.failed
    · rw [Batch.loop_ok (by rw [hlibvirt]; exact hcode'), hlibvirt]
      apply iff_of_true
      · refine ⟨(fun hno => by cases hno), fun _ => ⟨?_, r.folder .target, htarget, ?_⟩, ?_⟩
        · exact congrArg (Option.or · w.template) hhome
        · exact folder_complete r .target
        · intro f hf
          cases hremoval.symm.trans hf
      · exact ⟨rfl, rfl⟩
    · rw [Batch.loop_failed (by rw [hlibvirt]; exact hcode'), hlibvirt]
      apply iff_of_false
      · exact not_sound_renamed hnested hhome hsource htarget hcode'
      · exact fun hno => by cases hno.2
  · rw [Batch.loop_failed (by rw [hcluster]; exact hcode), hcluster]
    apply iff_of_false
    · exact not_sound_renamed hnested hhome hsource htarget hcode
    · exact fun hno => by cases hno.1

theorem renamed_sound (hnested : r.nested = false) :
    Sound r (Batch.finish (Batch.loop
      [Chain.directory r, Chain.config r, Chain.once (Command.cluster r),
        Chain.once (Command.libvirt r)] [renameUndo r] r.renamed)) ↔
      r.updateVmDirItem.failed = false ∧ (r.saveConfig.failed = false →
        (Command.cluster r r.world).1.failed = false ∧
          (Command.libvirt r r.world).1.failed = false) := by
  rw [@loop_registration r r.renamed rfl _ rfl]
  split
  · rename_i hfail
    rw [Batch.finish_failed hfail]
    have hback : Batch.rollback [renameUndo r] { r.renamed with vmHome := some .target } =
        { r.world with vmHome := some .target } :=
      @rename_back r { r.renamed with vmHome := some .target } hnested _ rfl rfl
    rw [hback]
    apply iff_of_false
    · intro hsound
      obtain ⟨p, hkept⟩ := hsound.failed hfail
      obtain rfl := hkept.place (q := .target) rfl
      obtain ⟨f, hf, -⟩ := hkept.complete
      cases hf
    · exact fun hno => Bool.false_ne_true (hno.1.symm.trans hfail)
  · rename_i hok
    split
    · rename_i hfail
      rw [Batch.finish_failed hfail]
      have hback : Batch.rollback (undos.tail ++ [renameUndo r])
          { r.renamed with vmHome := some .target } = r.world :=
        @rename_back r r.renamed hnested _ rfl rfl
      rw [hback]
      apply iff_of_true
      · exact (untouched_world r).sound hfail
      · exact ⟨Bool.eq_false_iff.mpr hok, fun hno => absurd (hno.symm.trans hfail) (by decide)⟩
    · rename_i hsave
      apply Iff.trans (@finished_sound r _ hnested rfl rfl rfl rfl)
      constructor
      · exact fun h => ⟨Bool.eq_false_iff.mpr hok, fun _ => h⟩
      · exact fun h => h.2 (Bool.eq_false_iff.mpr hsave)

theorem renameBatch_iff : Sound r ((Chain.renameBatch r).execute r.world) ↔ r.RenameSafe := by
  let step : Step World :=
    ⟨Command.rename r r.atomicMoveFile .source .target, some (renameUndo r)⟩
  have hbatch : Chain.renameBatch r = step :: [Chain.directory r, Chain.config r,
      Chain.once (Command.cluster r), Chain.once (Command.libvirt r)] := rfl
  unfold Request.RenameSafe
  rw [hbatch, Batch.execute_cons, ← cluster_ok, ← libvirt_ok]
  by_cases hmoves : r.atomicMoveFile = true ∧ r.nested = false
  · obtain ⟨hmove, hnested⟩ := hmoves
    have hredo : step.redo r.world = (.success, r.renamed) := by
      dsimp only [step]
      unfold Command.rename
      rw [hmove, hnested]
      rfl
    rw [Batch.loop_ok (by rw [hredo]; rfl), hredo]
    rw [forall_prop_of_true hmove, forall_prop_of_true hnested]
    exact renamed_sound hnested
  · have hno : ¬ (r.atomicMoveFile && !r.nested) = true := by
      intro h
      rw [Bool.and_eq_true, Bool.not_eq_true'] at h
      exact hmoves h
    have hredo : step.redo r.world = (.operationFailed, r.world) := if_neg hno
    rw [Batch.loop_failed (by rw [hredo]; rfl), hredo]
    apply iff_of_true
    · exact (untouched_world r).sound rfl
    · exact fun hmove hnested => absurd ⟨hmove, hnested⟩ hmoves

end Rename

end DispService.Move
