import DispService.PrlResult

/-! The dispatcher commands that take part in exclusive VM operations and the
reference tables that group them. -/
namespace DispService.Exclusive

/-- The commands the reconciliation rules name; `other` stands for the rest of
the protocol, which every rule treats alike. -/
inductive Command where
  | dirVmClone
  | dirVmCloneLinked
  | dirVmMigrate
  | dirVmMigrateClone
  | dirVmDelete
  | dirUnregVm
  | dirVmEditCommit
  | dirCopyImage
  | dirVmMove
  | vmStop
  | vmStart
  | vmStartEx
  | vmResume
  | vmDropSuspendedState
  | vmUpdateSecurity
  | vmCreateSnapshot
  | vmSwitchToSnapshot
  | vmDeleteSnapshot
  | vmUpdateSnapshotData
  | vmResizeDisk
  | vmCompact
  | vmConvertDisks
  | vmLock
  | vmMount
  | vmUmount
  | createVmBackup
  | restoreVmBackup
  | ctlVmEditWithRename
  | ctlVmEditWithHardwareChanged
  | ctlVmEditFirewall
  | ctlVmEditBootcampReconfigure
  | ctlVmCommitDiskUnfinished
  | ctlApplyVmConfig
  | ctlCreateVmBackup
  | ctlUpdateShadowVm
  | ctConvert
  | other (code : Nat)
deriving DecidableEq, Repr

namespace Reference

def clones : List Command :=
  [.dirVmClone, .dirVmMigrateClone]

def snapshots : List Command :=
  [.vmCreateSnapshot, .vmDeleteSnapshot, .vmSwitchToSnapshot, .vmUpdateSnapshotData,
    .ctlVmCommitDiskUnfinished]

def backupConflicts : List Command :=
  [.createVmBackup, .restoreVmBackup, .dirVmDelete, .dirVmMigrate, .dirVmMigrateClone,
    .dirUnregVm, .vmCompact, .vmResizeDisk, .ctlVmEditWithRename, .vmConvertDisks, .dirVmMove]

def snapshotConflicts : List Command :=
  [.dirVmClone, .dirVmCloneLinked, .dirVmMigrate, .dirVmMigrateClone, .dirVmDelete,
    .dirUnregVm, .dirVmEditCommit, .ctlVmEditWithRename, .ctlVmEditWithHardwareChanged,
    .ctlVmEditFirewall, .createVmBackup, .restoreVmBackup, .vmResizeDisk, .vmCompact,
    .vmConvertDisks, .dirCopyImage, .dirVmMove]

def isClone (query : Command) : Bool :=
  clones.contains query

def isSnapshot (query : Command) : Bool :=
  snapshots.contains query

def hasBackupConflict (query : Command) : Bool :=
  backupConflicts.contains query

def hasSnapshotConflict (query : Command) : Bool :=
  snapshotConflicts.contains query

end Reference

/-- The commands `registerOp` accepts. -/
def Command.supported : Command → Bool
  | .dirVmClone | .dirVmCloneLinked | .dirVmMigrate | .dirVmMigrateClone | .dirVmDelete
  | .dirUnregVm | .vmStop | .vmStart | .vmStartEx | .dirVmEditCommit | .vmDropSuspendedState
  | .ctlVmEditWithRename | .vmUpdateSecurity | .ctlVmEditWithHardwareChanged
  | .ctlVmEditFirewall | .ctlVmEditBootcampReconfigure | .vmCreateSnapshot
  | .vmSwitchToSnapshot | .vmDeleteSnapshot | .createVmBackup | .restoreVmBackup
  | .vmResizeDisk | .vmCompact | .vmLock | .vmUpdateSnapshotData | .vmConvertDisks
  | .vmMount | .vmUmount | .dirCopyImage | .dirVmMove | .ctlVmCommitDiskUnfinished
  | .vmResume | .ctlApplyVmConfig | .ctConvert => true
  | .ctlCreateVmBackup | .ctlUpdateShadowVm | .other _ => false

end DispService.Exclusive

/-! The commands registered for one VM and the rule that decides whether a
newcomer may join them. -/
namespace DispService.Exclusive

/-- `IOSender::Handle`; the empty handle is the null one. -/
abbrev Handle := String

structure Unit where
  taskId : String
  session : Handle
  command : Command
deriving DecidableEq, Repr

/-- `Newcomer` and `Native` add no data to `Unit`; they name the two roles of
the rule. -/
abbrev Newcomer := Unit
abbrev Native := Unit

/-- The three-valued answers of the rule: `none` is `boost::logic::indeterminate`. -/
abbrev Tribool := Option Bool

def Unit.isReconciled (self party : Unit) : Tribool :=
  let x := party.command
  if x = self.command then
    match x with
    | .dirVmClone | .dirCopyImage | .dirVmMigrateClone => some true
    | _ => some false
  else
    match self.command with
    | .dirVmEditCommit =>
      match x with
      | .vmStart | .vmResume | .vmStartEx => some true
      | _ => none
    | .vmCompact =>
      match x with
      | .vmStartEx => some true
      | _ => none
    | .ctlVmEditFirewall | .ctlVmEditBootcampReconfigure | .ctlVmEditWithHardwareChanged =>
      match x with
      | .vmStartEx => none
      | _ => some true
    | command =>
      if Reference.isClone command && Reference.isClone x then some true else none

def Newcomer.isReconciled (newcomer : Newcomer) (native : Native) : Tribool :=
  match Unit.isReconciled newcomer native with
  | some b => some b
  | none =>
    let x := native.command
    match newcomer.command with
    | .vmLock | .vmStop =>
      match x with
      | .vmStartEx => some true
      | _ => some (newcomer.session == native.session)
    | .dirVmEditCommit =>
      match x with
      | .vmCompact => some true
      | _ => none
    | .ctlApplyVmConfig =>
      match x with
      | .vmLock | .dirVmMove | .dirVmMigrate => some false
      | _ => some true
    | .ctlVmEditWithRename =>
      match x with
      | .dirVmEditCommit => some true
      | _ => none
    | .dirVmMove | .dirVmMigrate | .dirVmMigrateClone | .vmCompact | .createVmBackup
    | .ctlUpdateShadowVm =>
      match x with
      | .vmStartEx => some true
      | _ => none
    | .restoreVmBackup =>
      match x with
      | .vmStart | .vmResume | .vmStartEx => some false
      | _ => some (!Reference.hasBackupConflict x)
    | .vmCreateSnapshot | .vmDeleteSnapshot | .vmSwitchToSnapshot
    | .ctlVmCommitDiskUnfinished => some (!Reference.hasSnapshotConflict x)
    | .vmResizeDisk =>
      match x with
      | .vmStartEx => some true
      | .dirVmEditCommit => if newcomer.taskId = native.taskId then some true else none
      | _ => none
    | .vmStartEx =>
      match x with
      | .vmStart | .vmResume | .dirVmMigrate | .dirVmMigrateClone | .vmSwitchToSnapshot =>
        some true
      | _ => none
    | _ => none

def Native.isReconciled (native : Native) (newcomer : Newcomer) : Bool :=
  match Unit.isReconciled native newcomer with
  | some b => b
  | none =>
    match Newcomer.isReconciled newcomer native with
    | some b => b
    | none =>
      let x := newcomer.command
      match native.command with
      | .vmLock => native.session == newcomer.session
      | .createVmBackup =>
        -- the snapshot case falls through to the default when the tasks differ
        if x = .vmCreateSnapshot ∧ native.taskId = newcomer.taskId then true
        else !Reference.hasBackupConflict x
      | .restoreVmBackup =>
        match x with
        | .vmStart | .vmResume => false
        | _ => !(Reference.hasBackupConflict x || Reference.isSnapshot x)
      | .vmStartEx =>
        match x with
        | .vmResume => true
        | _ => false
      | _ => false

structure Conflict where
  running : Unit
  pending : Unit
deriving DecidableEq, Repr

namespace Conflict

def getResult (conflict : Conflict) : PrlResult :=
  match conflict.running.command with
  | .dirVmClone | .dirVmCloneLinked => .vmLockedForClone
  | .dirVmDelete => .vmLockedForDelete
  | .dirUnregVm => .vmLockedForUnregister
  | .dirVmEditCommit | .ctlApplyVmConfig => .vmLockedForEditCommit
  | .vmStart => .vmLockedForExecute
  | .vmStartEx => .vmLockedForExecuteEx
  | .dirVmMigrate | .dirVmMigrateClone => .vmLockedForMigrate
  | .ctlVmEditWithRename => .vmLockedForEditCommitWithRename
  | .vmUpdateSecurity => .vmLockedForUpdateSecurity
  | .ctlVmEditWithHardwareChanged | .ctlVmEditBootcampReconfigure =>
    .vmMustBeStoppedForChangeDevices
  | .vmCreateSnapshot => .vmLockedForCreateSnapshot
  | .vmSwitchToSnapshot => .vmLockedForSwitchToSnapshot
  | .vmDeleteSnapshot | .ctlVmCommitDiskUnfinished => .vmLockedForDeleteToSnapshot
  | .createVmBackup => .vmLockedForBackup
  | .ctlCreateVmBackup => .vmLockedCtlForBackup
  | .restoreVmBackup => .vmLockedForRestoreFromBackup
  | .vmLock => .vmIsExclusivelyLocked
  | .vmResizeDisk => .vmLockedForDiskResize
  | .vmCompact => .vmLockedForDiskCompact
  | .vmConvertDisks => .vmLockedForDiskConvert
  | .ctlVmEditFirewall => .vmLockedForChangeFirewall
  | .dirCopyImage => .vmLockedForCopyImage
  | .dirVmMove => .vmLockedForMove
  | _ => .vmLockedForInternalReason

@[simp] theorem getResult_failed (conflict : Conflict) : conflict.getResult.failed = true := by
  unfold getResult
  split <;> rfl

theorem getResult_ne_success (conflict : Conflict) : conflict.getResult ≠ .success := by
  intro h
  have hfailed := conflict.getResult_failed
  simp [h, PrlResult.failed] at hfailed

/-- `operator()`: a task never waits for itself; anyone else sleeps until the
gang changes or a timeout passes, and then tries again (`none`). -/
def wait (conflict : Conflict) : Option PrlResult :=
  if conflict.pending.taskId ≠ "" ∧ conflict.pending.taskId = conflict.running.taskId then
    some conflict.getResult
  else none

theorem wait_eq_some {conflict : Conflict} {code : PrlResult} (h : conflict.wait = some code) :
    conflict.getResult = code := by
  unfold wait at h
  split at h
  · exact Option.some.inj h
  · cases h

end Conflict

/-- The order in which `foreach` visits a `QHash`: any permutation of its items. -/
structure Visit (α : Type) where
  order : List α → List α
  perm : ∀ items, (order items).Perm items

def Visit.asStored (α : Type) : Visit α :=
  ⟨id, fun _ => .refl _⟩

/-- `m_store` holds the natives from the latest joined to the earliest one, the
order in which `QMultiHash` keeps the values of one key. -/
structure Gang where
  store : List Native
deriving DecidableEq, Repr

namespace Gang

def empty : Gang :=
  ⟨[]⟩

def isEmpty (gang : Gang) : Bool :=
  gang.store.isEmpty

def join (gang : Gang) (visit : Visit Native) (party : Unit) : Except Conflict Gang :=
  match (visit.order gang.store).find? fun x => !Native.isReconciled x party with
  | some x => .error ⟨x, party⟩
  | none => .ok ⟨party :: gang.store⟩

def findFirst (gang : Gang) (command : Command) : Option Unit :=
  gang.store.find? fun x => x.command = command

/-- Erase the latest native that `drop` selects; `none` is the answer `false`. -/
def eraseBy (gang : Gang) (drop : Native → Bool) : Option Gang :=
  if gang.store.any drop then some ⟨gang.store.eraseP drop⟩ else none

def eraseFirst (gang : Gang) (command : Command) : Option Gang :=
  gang.eraseBy fun x => x.command = command

def eraseFirstOf (gang : Gang) (command : Command) (session : Handle) : Option Gang :=
  gang.eraseBy fun x => x.command = command ∧ x.session = session

theorem join_eq_ok_iff {gang joined : Gang} {visit : Visit Native} {party : Unit} :
    gang.join visit party = .ok joined ↔
      (∀ x ∈ gang.store, Native.isReconciled x party = true) ∧ joined = ⟨party :: gang.store⟩ := by
  unfold join
  split
  · rename_i x hx
    have hmem : x ∈ gang.store := (visit.perm _).mem_iff.mp (List.mem_of_find?_eq_some hx)
    have hbad := List.find?_some hx
    simp only [Bool.not_eq_true'] at hbad
    simp only [reduceCtorEq, false_iff, not_and]
    intro hall
    simp [hall x hmem] at hbad
  · rename_i hnone
    have hall : ∀ x ∈ gang.store, Native.isReconciled x party = true := by
      intro x hx
      have := List.find?_eq_none.mp hnone x ((visit.perm _).mem_iff.mpr hx)
      simpa using this
    constructor
    · intro h
      exact ⟨hall, (Except.ok.inj h).symm⟩
    · rintro ⟨-, rfl⟩
      rfl

/-- The conflict that `join` reports names a native that is really there. -/
theorem join_eq_error {gang : Gang} {visit : Visit Native} {party : Unit} {conflict : Conflict}
    (h : gang.join visit party = .error conflict) :
    conflict.running ∈ gang.store ∧ Native.isReconciled conflict.running party = false := by
  unfold join at h
  split at h
  · rename_i x hx
    cases h
    exact ⟨(visit.perm _).mem_iff.mp (List.mem_of_find?_eq_some hx),
      by simpa using List.find?_some hx⟩
  · cases h

theorem eraseBy_eq_some_iff {gang erased : Gang} {drop : Native → Bool} :
    gang.eraseBy drop = some erased ↔
      gang.store.any drop = true ∧ erased = ⟨gang.store.eraseP drop⟩ := by
  unfold eraseBy
  split
  · rename_i hany
    simp only [hany, Option.some.injEq, true_and]
    exact eq_comm
  · rename_i hnone
    simp [hnone]

theorem eraseBy_eq_none_iff {gang : Gang} {drop : Native → Bool} :
    gang.eraseBy drop = none ↔ gang.store.any drop = false := by
  simp [eraseBy]

/-- Erasing takes one native away. -/
theorem eraseBy_length {gang erased : Gang} {drop : Native → Bool}
    (h : gang.eraseBy drop = some erased) :
    erased.store.length + 1 = gang.store.length := by
  obtain ⟨hany, rfl⟩ := eraseBy_eq_some_iff.mp h
  obtain ⟨x, hx, hp⟩ := List.any_eq_true.mp hany
  have hpos : 0 < gang.store.length := List.length_pos_of_mem hx
  have hlength := List.length_eraseP_of_mem hx hp
  simp only
  omega

theorem eraseFirst_of_findFirst {gang : Gang} {command : Command} {found : Unit}
    (h : gang.findFirst command = some found) :
    gang.eraseFirst command = some ⟨gang.store.eraseP fun x => x.command = command⟩ := by
  refine eraseBy_eq_some_iff.mpr ⟨?_, rfl⟩
  have hcommand := List.find?_some h
  exact List.any_eq_true.mpr ⟨found, List.mem_of_find?_eq_some h, hcommand⟩

/-- `while (eraseFirst(command, session)) {}` -/
def eraseAllOf (gang : Gang) (command : Command) (session : Handle) : Gang :=
  match _h : gang.eraseFirstOf command session with
  | some erased => erased.eraseAllOf command session
  | none => gang
termination_by gang.store.length
decreasing_by
  have := eraseBy_length _h
  omega

theorem filter_eraseP {α : Type} {keep drop : α → Bool}
    (disjoint : ∀ x, drop x = true → keep x = false) (items : List α) : (items.eraseP drop).filter keep = items.filter keep := by
  induction items with
  | nil => rfl
  | cons x rest ih =>
    by_cases hx : drop x = true
    · rw [List.eraseP_cons_of_pos hx, List.filter_cons_of_neg (by simp [disjoint x hx])]
    · rw [List.eraseP_cons_of_neg hx]
      simp only [List.filter_cons, ih]

theorem eraseAllOf_store (gang : Gang) (command : Command) (session : Handle) :
    (gang.eraseAllOf command session).store =
      gang.store.filter fun x => !decide (x.command = command ∧ x.session = session) := by
  induction gang using eraseAllOf.induct command session with
  | case1 gang erased h ih =>
    rw [eraseAllOf, h, ih]
    obtain ⟨-, rfl⟩ := eraseBy_eq_some_iff.mp h
    exact filter_eraseP (by simp) _
  | case2 gang h =>
    rw [eraseAllOf, h]
    symm
    rw [List.filter_eq_self]
    intro x hx
    have := List.any_eq_false.mp (eraseBy_eq_none_iff.mp h) x hx
    simpa only [decide_eq_true_eq, Bool.not_eq_true', decide_eq_false_iff_not] using this

end Gang

end DispService.Exclusive
