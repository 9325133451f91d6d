import DispService.Move.Imported

/-! When a move keeps the VM, whichever way the chain takes. -/
namespace DispService.Move

open DispService.Lib DispService.Instrument

namespace Request

variable (r : Request)

/-- A VM that is not running is renamed, or copied to another file system. -/
def StoppedSafe : Prop :=
  r.mountPoint .source ≠ "" → r.cdUp = true → r.mountPoint .target ≠ "" →
    if r.mountPoint .source ≠ r.mountPoint .target ∨ r.pcs_fs = true then r.OfflineSafe
    else r.RenameSafe

/-- There is nothing in the way of an online move. -/
def Estimated : Prop :=
  r.serialPorts = false ∧ r.isEfiEnabled = false ∧ r.getEntryLists.failed = false

def MoveSafe : Prop :=
  if r.running = false then r.StoppedSafe else r.Estimated → r.NexusSafe

/-- The storage is there, and the template may be moved into it. -/
def Admitted : Prop :=
  r.isTemplate = true ∧ (r.insert.failed = true → r.insert = .vmDirConfigAlreadyExists) ∧
    r.found = true ∧ r.findByRoot.failed = false

def Safe : Prop :=
  r.newHome = true → (r.findForEntry .source).failed = true →
    if (r.findForEntry .target).failed = true then r.MoveSafe else r.Admitted → r.ImportSafe

end Request

variable {r : Request}

theorem refused {code : PrlResult} (h : code.failed = true) : Sound r (code, r.world) :=
  (untouched_world r).sound h

/-- A guard that refuses the request leaves the VM as it is. -/
theorem guarded_iff {c : Prop} [Decidable c] {e : PrlResult × World} {code : PrlResult} {P : Prop}
    (hcode : code.failed = true) (h : Sound r e ↔ P) :
    Sound r (if c then (code, r.world) else e) ↔ (¬ c → P) := by
  split
  · rename_i hc
    exact iff_of_true (refused hcode) fun hno => absurd hc hno
  · rename_i hc
    exact h.trans ⟨fun hp _ => hp, fun hp => hp hc⟩

theorem rename_iff : Sound r (Chain.rename r r.world) ↔ r.StoppedSafe := by
  unfold Chain.rename Request.StoppedSafe
  dsimp only
  apply guarded_iff rfl
  have hcd : (r.cdUp = true) ↔ ¬ (!r.cdUp) = true := by
    rw [Bool.not_eq_true', Bool.not_eq_false]
  rw [hcd]
  apply guarded_iff rfl
  apply guarded_iff rfl
  split
  · exact offline_iff
  · exact renameBatch_iff

theorem nexus_iff : Sound r (Chain.nexus r r.world) ↔ r.MoveSafe := by
  unfold Chain.nexus Request.MoveSafe
  cases hrunning : r.running
  · exact rename_iff
  · have hestimate : r.Estimated ↔ ¬ (Chain.estimate r).failed = true := by
      unfold Request.Estimated Chain.estimate
      cases r.serialPorts <;> cases r.isEfiEnabled <;> simp [PrlResult.failed]
    have hrunning : ¬ (!true) = true := Bool.false_ne_true
    rw [if_neg hrunning, if_neg (Bool.false_ne_true ∘ Eq.symm), hestimate]
    by_cases hfail : (Chain.estimate r).failed = true
    · rw [if_pos hfail]
      exact iff_of_true (refused hfail) fun hno => absurd hfail hno
    · rw [if_neg hfail]
      exact nexusBatch_iff.trans ⟨fun hp _ => hp, fun hp => hp hfail⟩

theorem import_iff : Sound r (Chain.import_ r r.world) ↔
    ((r.findForEntry .source).failed = true →
      if (r.findForEntry .target).failed = true then r.MoveSafe
      else r.Admitted → r.ImportSafe) := by
  have hsource : (r.findForEntry .source).failed = true ↔
      ¬ (!(r.findForEntry .source).failed) = true := by
    rw [Bool.not_eq_true', Bool.not_eq_false]
  unfold Chain.import_
  rw [hsource]
  apply guarded_iff rfl
  by_cases htarget : (r.findForEntry .target).failed = true
  · rw [if_pos htarget, if_pos htarget]
    exact nexus_iff
  rw [if_neg htarget, if_neg htarget]
  have hadmitted : (r.Admitted → r.ImportSafe) ↔
      (¬ (!r.isTemplate) = true → ¬ (r.insert.failed && r.insert != .vmDirConfigAlreadyExists) = true →
        ¬ (!r.found) = true → ¬ r.findByRoot.failed = true → r.ImportSafe) := by
    unfold Request.Admitted
    simp only [and_imp, Bool.not_eq_true', Bool.not_eq_false, Bool.and_eq_true, bne_iff_ne, ne_eq,
      not_and, not_not, Bool.not_eq_true]
  rw [hadmitted]
  apply guarded_iff rfl
  by_cases hinsert : (r.insert.failed && r.insert != .vmDirConfigAlreadyExists) = true
  · rw [if_pos hinsert]
    apply iff_of_true (refused (Bool.and_eq_true_iff.mp hinsert).1)
    exact fun hno => absurd hinsert hno
  rw [if_neg hinsert, forall_prop_of_true hinsert]
  apply guarded_iff rfl
  by_cases hroot : r.findByRoot.failed = true
  · rw [if_pos hroot]
    exact iff_of_true (refused hroot) fun hno => absurd hroot hno
  rw [if_neg hroot, forall_prop_of_true hroot]
  exact importBatch_iff

/-- The move keeps the VM if and only if no step fails that it cannot take back. -/
theorem move_sound_iff (r : Request) : Sound r (run_body r r.world) ↔ r.Safe := by
  unfold run_body Request.Safe
  have hhome : (r.newHome = true) ↔ ¬ (!r.newHome) = true := by
    rw [Bool.not_eq_true', Bool.not_eq_false]
  rw [hhome]
  exact guarded_iff rfl import_iff

/-- A stopped VM without files, and what is asked for it. -/
def offlineHome (setConfig : PrlResult) : Request where
  home := .nil
  nested := false
  isTemplate := false
  isEfiEnabled := false
  serialPorts := false
  images := []
  haEnabled := false
  running := false
  mountPoint := fun p => if p = .source then "/" else "/mnt"
  cdUp := true
  pcs_fs := false
  isSharedFS := fun _ => false
  newHome := true
  WriteDirectory := fun _ => true
  copyFile := fun _ => .success
  statlog := "statistic.log"
  statlogMigrate := "statistic.log.migrate"
  getEntryLists := .success
  prepare := .success
  copyVolume := .success
  atomicMoveFile := true
  updateVmDirItem := .success
  saveConfig := .success
  updateClusterResourcePath := .success
  addClusterResource := .success
  removeClusterResource := .success
  clearAndDeleteDir := none
  setConfig := setConfig
  findForEntry := fun _ => .fileNotFound
  insert := .success
  found := false
  findByRoot := .success
  checkAndLock := .success
  log := .success
  saveToFile := .success
  lock := true
  push := .success
  query := .success
  deleteVmDirectoryItem := .success
  persist := .success
  insertVmDirectoryItem := .success

/-- Libvirt does not take the configuration: the source is gone by then. -/
theorem not_sound_offline :
    ¬ Sound (offlineHome .failure) (run_body (offlineHome .failure) (offlineHome .failure).world) := by
  intro hsound
  obtain ⟨p, hkept⟩ := hsound.failed (by decide)
  obtain rfl := hkept.place (q := .source) (by decide)
  obtain ⟨f, hf, -⟩ := hkept.complete
  have hgone : (run_body (offlineHome .failure) (offlineHome .failure).world).2.source = none := by
    decide
  cases hgone.symm.trans hf

end DispService.Move
