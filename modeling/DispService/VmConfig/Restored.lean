import DispService.VmConfig.Saved

/-! The store keeps its promises through a run just when every save of the run
writes the main file and the backup, or neither. -/
namespace DispService.VmConfig

open DispService.Lib

universe u

variable {γ : Type u} {enabled : Bool} {w : World γ} {s : Store γ} {config : γ} {o : Outcomes}
  {e : Event γ} {es : List (Event γ)}

/-- Whatever can be read is the configuration of the last save. -/
structure Inv (enabled : Bool) (w : World γ) : Prop where
  last : w.last = w.saved
  cache : ∀ c, w.store.getFromCache enabled = some c → w.saved = some c
  main : ∀ c, w.store.main.load = some c → w.saved = some c
  backup : ∀ c, w.store.backup.load = some c → w.saved = some c

theorem start_inv : Inv enabled ({} : World γ) where
  last := rfl
  cache := by
    intro c h
    cases enabled <;> cases h
  main := by
    intro c h
    cases h
  backup := by
    intro c h
    cases h

theorem Inv.kept (h : Inv enabled w) : Kept enabled w where
  loads := by
    intro _ direct c hload
    rw [load_value] at hload
    rw [h.last]
    cases direct with
    | true => exact h.main c hload
    | false =>
        rw [if_neg Bool.false_ne_true] at hload
        cases hcache : w.store.getFromCache enabled with
        | none =>
            rw [hcache] at hload
            exact h.main c hload
        | some d =>
            rw [hcache] at hload
            rw [h.cache d hcache]
            exact hload
  restores := by
    intro f _ o hok
    obtain ⟨c, hbackup, hmain, -⟩ := restore_succeeded hok
    exact ⟨c, hmain, h.backup c hbackup⟩

/-- The invariant speaks of what can be read. -/
theorem Inv.congr (h : Inv enabled w) {t : World γ} (last : t.last = w.last)
    (saved : t.saved = w.saved)
    (cache : ∀ c, t.store.getFromCache enabled = some c → w.saved = some c)
    (main : ∀ c, t.store.main.load = some c → w.saved = some c)
    (backup : ∀ c, t.store.backup.load = some c → w.saved = some c) : Inv enabled t where
  last := by rw [last, h.last, saved]
  cache := by
    rw [saved]
    exact cache
  main := by
    rw [saved]
    exact main
  backup := by
    rw [saved]
    exact backup

/-- Putting into the cache what the main file holds, or nothing. -/
theorem Inv.updateCache (h : Inv enabled w) {c : Option γ}
    (hc : ∀ d, c = some d → w.saved = some d) :
    Inv enabled { w with store := w.store.updateCache enabled c } := by
  refine h.congr rfl rfl (fun d hd => hc d (getFromCache_updateCache hd)) ?_ ?_
  · intro d hd
    rw [updateCache_main] at hd
    exact h.main d hd
  · intro d hd
    rw [updateCache_backup] at hd
    exact h.backup d hd

theorem Inv.load (h : Inv enabled w) (direct : Bool) :
    Inv enabled { w with store := (w.store.load enabled direct).2 } := by
  have hloaded : (w.store.load enabled direct).2 = w.store ∨
      (w.store.load enabled direct).2 = w.store.updateCache enabled w.store.main.load := by
    unfold Store.load
    cases w.store.main.load <;> cases direct <;> cases w.store.getFromCache enabled <;>
      first | exact .inl rfl | exact .inr rfl
  rcases hloaded with hstay | hput
  · rw [hstay]
    exact h
  · rw [hput]
    exact h.updateCache h.main

/-- A successful save after which the backup holds nothing older. -/
theorem save_inv (hwritten : Written o w.store.main)
    (safe : o.writeBackup ≠ .refused ∨ ∀ c, w.store.backup = .valid c → c = config) :
    Inv enabled (w.step enabled (.save config o)) := by
  have hstep : w.step enabled (.save config o) =
      { store := Store.updateCache enabled (some config)
          { w.store with
            backup := Backup.save config o w.store.backup, main := .valid config },
        saved := some config, last := some config } := by
    unfold World.step
    dsimp only
    rw [save_written hwritten]
    rfl
  rw [hstep]
  refine ⟨rfl, fun c hc => getFromCache_updateCache hc, fun c hc => ?_, fun c hc => ?_⟩
  · rw [updateCache_main] at hc
    exact hc
  · rw [updateCache_backup] at hc
    rcases backup_load hc with rfl | ⟨hrefused, hold⟩
    · rfl
    · rcases safe with hno | hsame
      · exact absurd hrefused hno
      · rw [hsame c hold]

/-- A save that writes nothing that could be read. -/
theorem Inv.unsaved (h : Inv enabled w) (hwritten : ¬ Written o w.store.main)
    (main : o.writeMain = .refused ∨ (o.writeMain = .spoiled ∧ w.store.main.load = none))
    (spared : Spared config o w.store.backup) :
    Inv enabled (w.step enabled (.save config o)) := by
  obtain ⟨hfailed, -⟩ := @saveConfig_failed _ config _ _ hwritten
  have hloads := (@loads_iff _ enabled _ config _ hwritten).mpr main true
  have hcache : (w.store.save enabled config o).2.getFromCache enabled =
      w.store.getFromCache enabled := by
    rw [save_failed hwritten]
    rfl
  have hbackup : (w.store.save enabled config o).2.backup = w.store.backup := by
    rw [save_failed hwritten]
    exact spared_iff.mpr spared
  have hstep : w.step enabled (.save config o) =
      { w with store := (w.store.save enabled config o).2 } := by
    unfold World.step
    dsimp only
    rw [if_pos (save_failed_iff.mpr hwritten)]
  rw [hstep]
  rw [load_direct, load_direct] at hloads
  refine h.congr rfl rfl ?_ ?_ ?_
  · rw [hcache]
    exact h.cache
  · rw [hloads]
    exact h.main
  · rw [hbackup]
    exact h.backup

theorem Inv.restore (h : Inv enabled w) (o : Outcomes) :
    Inv enabled (w.step enabled (.restore o)) := by
  unfold World.step
  dsimp only
  cases hcode : (w.store.restore enabled o).1.failed with
  | true =>
      rw [if_pos rfl]
      obtain ⟨hbackup, hcache, hmain⟩ := restore_failed hcode
      refine h.congr rfl rfl ?_ (fun c hc => h.main c (hmain c hc)) ?_
      · intro c hc
        unfold Store.getFromCache at hc
        rw [hcache] at hc
        exact h.cache c hc
      · rw [hbackup]
        exact h.backup
  | false =>
      rw [if_neg Bool.false_ne_true]
      obtain ⟨c, hload, hmain, hbackup, hcache⟩ := restore_succeeded hcode
      have hsaved := h.backup c hload
      refine ⟨?_, fun d hd => ?_, fun d hd => ?_, fun d hd => ?_⟩
      · rw [hmain]
        exact hsaved.symm
      · rw [hcache d hd]
        exact hsaved
      · rw [hmain] at hd
        rw [← Option.some.inj hd]
        exact hsaved
      · rw [hbackup] at hd
        exact h.backup d hd

theorem Inv.step (h : Inv enabled w) (safe : Safe w e) : Inv enabled (w.step enabled e) := by
  cases e with
  | load direct => exact h.load direct
  | forget => exact h.updateCache fun _ hno => by cases hno
  | restore o => exact h.restore o
  | lose => exact h.congr rfl rfl h.cache (fun _ hno => by cases hno) h.backup
  | damage => exact h.congr rfl rfl h.cache (fun _ hno => by cases hno) h.backup
  | save config o =>
      by_cases hwritten : Written o w.store.main
      · rw [Safe, if_pos hwritten] at safe
        exact save_inv hwritten safe
      · rw [Safe, if_neg hwritten] at safe
        exact h.unsaved hwritten safe.1 safe.2

/-- A safe save that fails harms nothing. -/
theorem Safe.harmless (safe : Safe w e) : Harmless enabled w e := by
  cases e with
  | save config o =>
      intro hfailed
      have hwritten := save_failed_iff.mp hfailed
      rw [Safe, if_neg hwritten] at safe
      refine ⟨(loads_iff hwritten).mpr safe.1, ?_⟩
      rw [save_failed hwritten]
      exact spared_iff.mpr safe.2
  | load _ => trivial
  | forget => trivial
  | restore _ => trivial
  | lose => trivial
  | damage => trivial

/-- What a store that keeps its promises has in the backup. -/
theorem Kept.backup (kept : Kept enabled w) {c : γ} (hload : w.store.backup.load = some c) :
    w.saved = some c := by
  have hok := @restore_lost _ enabled { w.store with main := .absent } _ rfl hload
  obtain ⟨d, hmain, hsaved⟩ := kept.restores .absent rfl {} hok
  obtain ⟨e, hbackup, hrestored, -⟩ := restore_succeeded hok
  rw [hrestored] at hmain
  have heq : e = d := File.valid.inj hmain
  rw [hsaved, ← heq, ← hload]
  exact hbackup.symm

/-- A step after which the store keeps its promises was safe. -/
theorem safe_of_kept (harmless : Harmless enabled w e) (kept : Kept enabled (w.step enabled e)) :
    Safe w e := by
  cases e with
  | load _ => trivial
  | forget => trivial
  | restore _ => trivial
  | lose => trivial
  | damage => trivial
  | save config o =>
      unfold Safe
      dsimp only
      by_cases hwritten : Written o w.store.main
      · rw [if_pos hwritten]
        by_cases hrefused : o.writeBackup = .refused
        · refine .inr fun c hc => ?_
          have hbackup : Backup.save config o w.store.backup = .valid c := by
            rw [hc]
            exact spared_iff.mpr (.inl hrefused)
          have hcode : (w.store.save enabled config o).1.failed = false := by
            rw [save_written hwritten]
            rfl
          have hstep : (w.step enabled (.save config o)).saved = some config ∧
              (w.step enabled (.save config o)).store.backup = .valid c := by
            unfold World.step
            dsimp only
            rw [hcode, if_neg Bool.false_ne_true, save_written hwritten]
            exact ⟨rfl, (updateCache_backup _).trans hbackup⟩
          have hload : (w.step enabled (.save config o)).store.backup.load = some c := by
            rw [hstep.2]
            rfl
          have hsaved := kept.backup hload
          rw [hstep.1] at hsaved
          exact (Option.some.inj hsaved).symm
        · exact .inl hrefused
      · rw [if_neg hwritten]
        obtain ⟨hloads, hbackup⟩ := harmless (save_failed_iff.mpr hwritten)
        rw [save_failed hwritten] at hbackup
        exact ⟨(loads_iff hwritten).mp hloads, spared_iff.mp hbackup⟩

/-- Through every run the store gives and restores the last configuration saved,
and failed saves change nothing, just when every save of the run writes both
files or neither. -/
theorem store_holds_iff (enabled : Bool) (es : List (Event γ)) :
    Holds enabled {} es ↔ AllSafe enabled {} es :=
  along_iff_steps (fun _ _ => True) (fun _ inv => inv.kept)
    (fun _ _ _ _ safe => safe.harmless) (fun _ _ inv _ safe => inv.step safe)
    (fun _ _ _ _ harmless kept => safe_of_kept harmless kept) start_inv
    (.all fun _ _ => trivial)

/-- The second save fails on the main file only; the backup holds its configuration. -/
theorem not_holds_backup :
    ¬ Holds true ({} : World Nat) [.save 1 {}, .save 2 { writeMain := .refused }, .lose] := by
  rintro ⟨-, -, -, harmless, -⟩
  obtain ⟨-, hbackup⟩ := harmless rfl
  cases hbackup

end DispService.VmConfig
