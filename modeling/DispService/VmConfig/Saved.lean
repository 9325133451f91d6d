import DispService.Lib.Run
import DispService.VmConfig.Mixed

/-! What a configuration store keeps through any sequence of requests, and which
saves it has to be spared for that. -/
namespace DispService.VmConfig

open DispService.Lib

universe u

variable {γ : Type u}

/-- A store with its history: the configuration of the last successful save, of
the last successful save or restore, and whether the main file was changed from
outside since. -/
structure World (γ : Type u) where
  store : Store γ := {}
  saved : Option γ := none
  last : Option γ := none
  touched : Bool := false

inductive Event (γ : Type u) where
  | load (direct : Bool)
  | save (config : γ) (o : Outcomes)
  | forget
  | restore (o : Outcomes)
  /-- The main file is lost. -/
  | lose
  /-- The main file is damaged. -/
  | damage

section

variable (enabled : Bool)

def World.step (w : World γ) : Event γ → World γ
  | .load direct => { w with store := (w.store.load enabled direct).2 }
  | .save config o =>
      let r := w.store.save enabled config o
      if r.1.failed then { w with store := r.2 }
      else { store := r.2, saved := some config, last := some config }
  | .forget => { w with store := w.store.forget enabled }
  | .restore o =>
      let r := w.store.restore enabled o
      if r.1.failed then { w with store := r.2 }
      else { w with store := r.2, last := r.2.main.load, touched := false }
  | .lose => { w with store := { w.store with main := .absent }, touched := true }
  | .damage => { w with store := { w.store with main := .broken }, touched := true }

/-- A load gives the last configuration that was saved or restored, and so does
a restore after the main file is lost. -/
structure Kept (w : World γ) : Prop where
  loads : w.touched = false → ∀ direct c, (w.store.load enabled direct).1.2 = some c →
    w.last = some c
  restores : ∀ f : File γ, f.load = none → ∀ o,
    (Store.restore enabled o { w.store with main := f }).1.failed = false →
      ∃ c, (Store.restore enabled o { w.store with main := f }).2.main = .valid c ∧
        w.saved = some c

/-- A save that reports a failure changes neither what a load gives nor the backup. -/
def Harmless (w : World γ) : Event γ → Prop
  | .save config o =>
      (w.store.save enabled config o).1.failed = true →
        (∀ direct, ((w.store.save enabled config o).2.load enabled direct).1.2 =
          (w.store.load enabled direct).1.2) ∧
        (w.store.save enabled config o).2.backup = w.store.backup
  | _ => True

/-- The store's promises through a whole run. -/
def Holds : World γ → List (Event γ) → Prop :=
  Along (World.step enabled) (Kept enabled) (Harmless enabled)

end

/-- The main file is written and its owner, if it is new, set. -/
def Written (o : Outcomes) (f : File γ) : Prop :=
  o.writeMain = .written ∧ (f.exists_ = true ∨ o.setOwner = true)

instance (o : Outcomes) (f : File γ) : Decidable (Written o f) :=
  inferInstanceAs (Decidable (_ ∧ _))

/-- The write does not reach the backup file, or leaves it as it is. -/
def Spared (config : γ) (o : Outcomes) : File γ → Prop
  | .absent => o.createBackup = false
  | .broken => o.writeBackup ≠ .written
  | .valid c => o.writeBackup = .refused ∨ (o.writeBackup = .written ∧ c = config)

/-- A save that writes the main file does not leave the backup with another
configuration, and one that does not write it touches no readable file. -/
def Safe (w : World γ) : Event γ → Prop
  | .save config o =>
      if Written o w.store.main then
        o.writeBackup ≠ .refused ∨ ∀ c, w.store.backup = .valid c → c = config
      else
        (o.writeMain = .refused ∨ (o.writeMain = .spoiled ∧ w.store.main.load = none)) ∧
          Spared config o w.store.backup
  | _ => True

/-- Every step of a run is safe. -/
def AllSafe (enabled : Bool) : World γ → List (Event γ) → Prop :=
  Steps (World.step enabled) Safe

section

variable {enabled : Bool} {w : World γ} {s : Store γ} {config : γ} {o : Outcomes} {f : File γ}

theorem saveConfig_written (h : Written o f) :
    saveConfig config o.writeMain o.setOwner f = (.success, .valid config) := by
  unfold saveConfig
  rw [h.1]
  rcases h.2 with hexists | howner
  · simp [saveToFile, PrlResult.failed, hexists]
  · simp [saveToFile, PrlResult.failed, howner]

/-- The codes and files of a write that is not done. -/
theorem saveConfig_failed (h : ¬ Written o f) :
    (saveConfig config o.writeMain o.setOwner f).1.failed = true ∧
      ((o.writeMain = .refused ∧ (saveConfig config o.writeMain o.setOwner f).2 = f) ∨
        (o.writeMain = .spoiled ∧ (saveConfig config o.writeMain o.setOwner f).2 = .broken) ∨
        (o.writeMain = .written ∧ f = .absent ∧
          (saveConfig config o.writeMain o.setOwner f).2 = .valid config)) := by
  unfold saveConfig
  cases hw : o.writeMain with
  | refused => exact ⟨rfl, .inl ⟨rfl, rfl⟩⟩
  | spoiled => exact ⟨rfl, .inr (.inl ⟨rfl, rfl⟩)⟩
  | written =>
      unfold Written at h
      cases f with
      | absent =>
          have howner : o.setOwner = false := by
            cases hset : o.setOwner with
            | false => rfl
            | true => exact absurd ⟨hw, .inr hset⟩ h
          rw [howner]
          exact ⟨rfl, .inr (.inr ⟨rfl, rfl, rfl⟩)⟩
      | broken => exact absurd ⟨hw, .inl rfl⟩ h
      | valid c => exact absurd ⟨hw, .inl rfl⟩ h

/-- A successful save. -/
theorem save_written (h : Written o s.main) :
    s.save enabled config o = (.success,
      Store.updateCache enabled (some config)
        { s with backup := Backup.save config o s.backup, main := .valid config }) := by
  unfold Store.save
  dsimp only
  rw [saveConfig_written h]
  rfl

theorem save_failed (h : ¬ Written o s.main) :
    s.save enabled config o =
      ((saveConfig config o.writeMain o.setOwner s.main).1,
        { s with
          backup := Backup.save config o s.backup,
          main := (saveConfig config o.writeMain o.setOwner s.main).2 }) := by
  unfold Store.save
  dsimp only
  rw [if_pos (saveConfig_failed h).1]

theorem save_failed_iff :
    (s.save enabled config o).1.failed = true ↔ ¬ Written o s.main := by
  by_cases h : Written o s.main
  · rw [save_written h]
    exact iff_of_false Bool.false_ne_true (fun hno => hno h)
  · rw [save_failed h]
    exact iff_of_true (saveConfig_failed h).1 h

theorem spared_iff : Backup.save config o f = f ↔ Spared config o f := by
  unfold Backup.save Backup.prepareTarget Spared
  cases f with
  | absent =>
      cases hcreate : o.createBackup with
      | false => simp [File.exists_]
      | true =>
          cases hwrite : o.writeBackup <;>
            simp [File.exists_, saveConfig, saveToFile, PrlResult.failed]
  | broken =>
      cases hwrite : o.writeBackup <;>
        simp [File.exists_, saveConfig, saveToFile, PrlResult.failed]
  | valid c =>
      have hsame : (File.valid config = .valid c) ↔ c = config :=
        ⟨fun h => (File.valid.inj h).symm, fun h => congrArg File.valid h.symm⟩
      cases hwrite : o.writeBackup with
      | written => exact hsame.trans ⟨fun h => .inr ⟨rfl, h⟩, fun h => h.elim nofun And.right⟩
      | refused => exact iff_of_true rfl (.inl rfl)
      | spoiled => exact iff_of_false nofun (fun h => h.elim nofun fun hno => by cases hno.1)

/-- The configuration a save leaves in the backup. -/
theorem backup_load {c : γ} (h : (Backup.save config o f).load = some c) :
    c = config ∨ (o.writeBackup = .refused ∧ f = .valid c) := by
  unfold Backup.save Backup.prepareTarget at h
  cases f with
  | absent =>
      cases hcreate : o.createBackup with
      | false => simp [File.exists_, hcreate, File.load] at h
      | true =>
          cases hwrite : o.writeBackup <;>
            simp [File.exists_, hcreate, hwrite, saveConfig, saveToFile, PrlResult.failed,
              File.load] at h
          exact .inl h.symm
  | broken =>
      cases hwrite : o.writeBackup <;>
        simp [File.exists_, hwrite, saveConfig, saveToFile, PrlResult.failed, File.load] at h
      exact .inl h.symm
  | valid d =>
      cases hwrite : o.writeBackup <;>
        simp [File.exists_, hwrite, saveConfig, saveToFile, PrlResult.failed, File.load] at h
      · exact .inl h.symm
      · rw [h]
        exact .inr ⟨rfl, rfl⟩

theorem updateCache_main (c : Option γ) : (s.updateCache enabled c).main = s.main := by
  unfold Store.updateCache
  split <;> rfl

theorem updateCache_backup (c : Option γ) : (s.updateCache enabled c).backup = s.backup := by
  unfold Store.updateCache
  split <;> rfl

theorem getFromCache_updateCache {c : Option γ} {d : γ}
    (h : (s.updateCache enabled c).getFromCache enabled = some d) : c = some d := by
  unfold Store.getFromCache Store.updateCache at h
  cases enabled with
  | true => exact h
  | false => cases h

theorem load_direct : (s.load enabled true).1.2 = s.main.load := by
  unfold Store.load
  dsimp only
  rw [if_pos rfl]
  cases s.main.load <;> rfl

/-- What a load gives is the cache entry or what the main file holds. -/
theorem load_value (direct : Bool) : (s.load enabled direct).1.2 =
    if direct then s.main.load else (s.getFromCache enabled).orElse fun _ => s.main.load := by
  cases direct with
  | true => exact load_direct
  | false =>
      unfold Store.load
      dsimp only
      rw [if_neg Bool.false_ne_true, if_neg Bool.false_ne_true]
      cases s.getFromCache enabled with
      | some c => rfl
      | none => cases s.main.load <;> rfl

/-- A failed save spares the loads just when it leaves what the main file holds. -/
theorem loads_iff (h : ¬ Written o s.main) :
    (∀ direct, ((s.save enabled config o).2.load enabled direct).1.2 =
      (s.load enabled direct).1.2) ↔
      o.writeMain = .refused ∨ (o.writeMain = .spoiled ∧ s.main.load = none) := by
  obtain ⟨-, hmain⟩ := @saveConfig_failed _ config _ _ h
  have hcache : (s.save enabled config o).2.getFromCache enabled = s.getFromCache enabled := by
    rw [save_failed h]
    rfl
  have hsame : (s.save enabled config o).2.main =
      (saveConfig config o.writeMain o.setOwner s.main).2 := by
    rw [save_failed h]
  constructor
  · intro hloads
    have hdirect := hloads true
    rw [load_direct, load_direct, hsame] at hdirect
    rcases hmain with ⟨hrefused, -⟩ | ⟨hspoiled, hfile⟩ | ⟨-, habsent, hfile⟩
    · exact .inl hrefused
    · rw [hfile] at hdirect
      exact .inr ⟨hspoiled, hdirect.symm⟩
    · rw [hfile, habsent] at hdirect
      cases hdirect
  · intro hkept direct
    have hload : (s.save enabled config o).2.main.load = s.main.load := by
      rw [hsame]
      rcases hmain with ⟨-, hfile⟩ | ⟨hspoiled, hfile⟩ | ⟨hwritten, -⟩
      · rw [hfile]
      · rw [hfile]
        rcases hkept with hno | ⟨-, hnone⟩
        · rw [hspoiled] at hno
          cases hno
        · exact hnone.symm
      · rcases hkept with hno | ⟨hno, -⟩
        · rw [hwritten] at hno
          cases hno
        · rw [hwritten] at hno
          cases hno
    rw [load_value, load_value, hcache, hload]

/-- A restore fails early or rewrites a main file that is there and does not load. -/
theorem restore_cases (enabled : Bool) (o : Outcomes) (s : Store γ) :
    ((s.restore enabled o).1.failed = true ∧
      ((s.restore enabled o).2 = s ∨
        ∃ f : File γ, f.load = none ∧ (s.restore enabled o).2 = { s with main := f })) ∨
    ∃ (c : γ) (f : File γ), s.main.load = none ∧ s.backup.load = some c ∧ f.exists_ = true ∧
      f.load = none ∧ s.restore enabled o = Store.rewrite enabled c o { s with main := f } := by
  unfold Store.restore Store.prepareSource
  cases hmain : s.main.load with
  | some c => exact .inl ⟨rfl, .inl rfl⟩
  | none =>
      cases hbackup : s.backup.load with
      | none => exact .inl ⟨rfl, .inl rfl⟩
      | some c =>
          cases hexists : s.main.exists_ with
          | true => exact .inr ⟨c, s.main, rfl, rfl, hexists, hmain, rfl⟩
          | false =>
              dsimp only [Bool.false_eq_true, if_false]
              cases howner : o.owner with
              | false => exact .inl ⟨rfl, .inl rfl⟩
              | true =>
                  unfold Store.prepareTarget
                  cases hcreate : o.createMain with
                  | false => exact .inl ⟨rfl, .inl rfl⟩
                  | true =>
                      cases hset : o.setPermissions with
                      | true => exact .inr ⟨c, .broken, rfl, rfl, rfl, rfl, rfl⟩
                      | false =>
                          refine .inl ⟨rfl, .inr ⟨_, ?_, rfl⟩⟩
                          cases o.remove <;> rfl

theorem rewrite_written (h : Written o s.main) : s.rewrite enabled config o =
    (.success, Store.updateCache enabled (some config) { s with main := .valid config }) := by
  unfold Store.rewrite
  dsimp only
  rw [saveConfig_written h]
  rfl

theorem rewrite_failed (h : ¬ Written o s.main) : s.rewrite enabled config o =
    ((saveConfig config o.writeMain o.setOwner s.main).1,
      { s with main := (saveConfig config o.writeMain o.setOwner s.main).2 }) := by
  unfold Store.rewrite
  dsimp only
  rw [if_pos (saveConfig_failed h).1]

/-- A restore that succeeds writes what the backup holds. -/
theorem restore_succeeded (h : (s.restore enabled o).1.failed = false) :
    ∃ c, s.backup.load = some c ∧ (s.restore enabled o).2.main = .valid c ∧
      (s.restore enabled o).2.backup = s.backup ∧
      ∀ d, (s.restore enabled o).2.getFromCache enabled = some d → d = c := by
  rcases restore_cases enabled o s with ⟨hfailed, -⟩ | ⟨c, f, -, hbackup, -, -, hrewrite⟩
  · rw [hfailed] at h
    cases h
  · rw [hrewrite] at h ⊢
    by_cases hwritten : Written o f
    · rw [rewrite_written hwritten]
      exact ⟨c, hbackup, updateCache_main _, updateCache_backup _,
        fun d hd => (Option.some.inj (getFromCache_updateCache hd)).symm⟩
    · rw [rewrite_failed hwritten, (saveConfig_failed hwritten).1] at h
      cases h

/-- A restore that fails leaves backup and cache alone, and no new configuration
in the main file. -/
theorem restore_failed (h : (s.restore enabled o).1.failed = true) :
    (s.restore enabled o).2.backup = s.backup ∧ (s.restore enabled o).2.cache = s.cache ∧
      ∀ c, (s.restore enabled o).2.main.load = some c → s.main.load = some c := by
  rcases restore_cases enabled o s with ⟨-, hsame | ⟨f, hf, hstore⟩⟩ |
    ⟨c, f, hmain, -, hexists, hf, hrewrite⟩
  · rw [hsame]
    exact ⟨rfl, rfl, fun c hc => hc⟩
  · rw [hstore]
    refine ⟨rfl, rfl, fun c hc => ?_⟩
    rw [hf] at hc
    cases hc
  · rw [hrewrite] at h ⊢
    by_cases hwritten : Written o f
    · rw [rewrite_written hwritten] at h
      cases h
    · rw [rewrite_failed hwritten]
      refine ⟨rfl, rfl, fun d hd => ?_⟩
      obtain ⟨-, ⟨-, hfile⟩ | ⟨-, hfile⟩ | ⟨-, habsent, -⟩⟩ :=
        @saveConfig_failed _ c _ _ hwritten
      · rw [hfile, hf] at hd
        cases hd
      · rw [hfile] at hd
        cases hd
      · rw [habsent] at hexists
        cases hexists

/-- A restore in which everything goes well. -/
theorem restore_lost {c : γ} (hmain : s.main.load = none) (hbackup : s.backup.load = some c) :
    (s.restore enabled {}).1.failed = false := by
  cases hexists : s.main.exists_ with
  | true =>
      have hok : (s.rewrite enabled c {}).1.failed = false := by
        rw [rewrite_written ⟨rfl, .inl hexists⟩]
        rfl
      unfold Store.restore Store.prepareSource
      rw [hmain, hbackup, hexists]
      exact hok
  | false =>
      unfold Store.restore Store.prepareSource
      rw [hmain, hbackup, hexists]
      rfl

end

end DispService.VmConfig
