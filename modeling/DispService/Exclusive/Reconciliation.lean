import DispService.Exclusive.Gang
import DispService.Lib.Run
import DispService.Lib.Table

/-! `CDspVmDirHelper::ExclusiveVmOperations`: the registry of running VM
operations. Every method holds the mutex for its whole body, except that a
blocked `registerOp` gives it up between two passes of its loop; so one pass of
that loop and one call of any other method are the atomic steps. -/
namespace DispService.Exclusive

open Lib

/-- `m_opHash`; writing through the reference to a found gang is `insert`. -/
abbrev OpHash := AList fun _ : String => Gang

def makeKey (vmUuid vmDirUuid : String) : String :=
  vmUuid ++ vmDirUuid

/-- The registrations of one key, latest first. -/
def registrations (opHash : OpHash) (key : String) : List Unit :=
  (opHash.lookup key).elim [] Gang.store

/-- How a pass of the loop in `registerOp` ends. -/
inductive Pass where
  | returned (code : PrlResult)
  | again
deriving DecidableEq, Repr

/-- One pass of the loop. `expired` tells whether two timeouts have gone by
since the call began. -/
def registerOp (opHash : OpHash) (visit : Visit Native) (vmUuid vmDirUuid : String)
    (cmd : Command) (session : Handle) (taskId : String) (expired : Bool) : Pass × OpHash :=
  if !cmd.supported then (.returned .invalidArg, opHash)
  else
    let key := makeKey vmUuid vmDirUuid
    let opHash := if key ∈ opHash then opHash else opHash.insert key Gang.empty
    let gang := (opHash.lookup key).getD Gang.empty
    match gang.join visit ⟨taskId, session, cmd⟩ with
    | .ok joined => (.returned .success, opHash.insert key joined)
    | .error conflict =>
      if expired then (.returned conflict.getResult, opHash)
      else
        match conflict.wait with
        | some code => (.returned code, opHash)
        | none => (.again, opHash)

/-- A pass either lets the newcomer into its gang or leaves the registry alone.
Only a first pass can create the gang, and then nobody is there to conflict. -/
theorem registerOp_cases (opHash : OpHash) (visit : Visit Native) (vmUuid vmDirUuid : String)
    (cmd : Command) (session : Handle) (taskId : String) (expired : Bool) :
    (∃ joined,
      ((opHash.lookup (makeKey vmUuid vmDirUuid)).getD Gang.empty).join visit
        ⟨taskId, session, cmd⟩ = .ok joined ∧
      registerOp opHash visit vmUuid vmDirUuid cmd session taskId expired =
        (.returned .success, opHash.insert (makeKey vmUuid vmDirUuid) joined)) ∨
    ((registerOp opHash visit vmUuid vmDirUuid cmd session taskId expired).2 = opHash ∧
      (registerOp opHash visit vmUuid vmDirUuid cmd session taskId expired).1 ≠
        .returned .success) := by
  unfold registerOp
  cases hsupported : cmd.supported with
  | false => exact .inr ⟨rfl, by simp⟩
  | true =>
    by_cases hkey : makeKey vmUuid vmDirUuid ∈ opHash
    · simp only [Bool.not_true, Bool.false_eq_true, ↓reduceIte, hkey]
      cases hjoin : Gang.join _ visit ⟨taskId, session, cmd⟩ with
      | ok joined => exact .inl ⟨joined, rfl, rfl⟩
      | error conflict =>
        right
        cases expired with
        | true => exact ⟨rfl, by simpa using conflict.getResult_ne_success⟩
        | false =>
          cases hwait : conflict.wait with
          | none => simp [hwait]
          | some code =>
            obtain rfl := Conflict.wait_eq_some hwait
            simpa [hwait] using conflict.getResult_ne_success
    · have hlookup : opHash.lookup (makeKey vmUuid vmDirUuid) = none :=
        AList.lookup_eq_none.mpr hkey
      have hjoin : Gang.empty.join visit ⟨taskId, session, cmd⟩ =
          .ok ⟨[⟨taskId, session, cmd⟩]⟩ :=
        Gang.join_eq_ok_iff.mpr ⟨by simp [Gang.empty], rfl⟩
      exact .inl ⟨_, by simpa [hlookup] using hjoin, by simp [hkey, hjoin, AList.insert_insert]⟩

/-- Drop the key of a gang that has lost its last member. -/
def storeGang (opHash : OpHash) (key : String) (gang : Gang) : OpHash :=
  if gang.isEmpty then opHash.erase key else opHash.insert key gang

def unregisterOp (opHash : OpHash) (vmUuid vmDirUuid : String) (cmd : Command)
    (session : Handle) : PrlResult × OpHash :=
  let key := makeKey vmUuid vmDirUuid
  let notFound := if cmd = .vmLock then PrlResult.vmIsNotLocked else .failure
  match opHash.lookup key with
  | none => (notFound, opHash)
  | some gang =>
    if cmd = .vmLock then
      match gang.eraseFirstOf .vmLock session with
      | none => (.notLockOwnerSessionTriesToUnlock, opHash)
      | some erased => (.success, storeGang opHash key erased)
    else
      match gang.eraseFirst cmd with
      | some erased => (.success, storeGang opHash key erased)
      | none => (notFound, opHash)

/-- A call either erases the latest registration it may take or changes
nothing; only the exclusive lock asks for the session. -/
theorem unregisterOp_cases (opHash : OpHash) (vmUuid vmDirUuid : String) (cmd : Command)
    (session : Handle) :
    (∃ gang erased, opHash.lookup (makeKey vmUuid vmDirUuid) = some gang ∧
      gang.eraseBy (fun x => x.command = cmd ∧ (cmd = .vmLock → x.session = session)) =
        some erased ∧
      unregisterOp opHash vmUuid vmDirUuid cmd session =
        (.success, storeGang opHash (makeKey vmUuid vmDirUuid) erased)) ∨
    ((cmd = .vmLock ∨ (registrations opHash (makeKey vmUuid vmDirUuid)).find?
        (fun x => x.command = cmd) = none) ∧
      (unregisterOp opHash vmUuid vmDirUuid cmd session).1 ≠ .success ∧
      (unregisterOp opHash vmUuid vmDirUuid cmd session).2 = opHash) := by
  have hcode : (if cmd = .vmLock then PrlResult.vmIsNotLocked else .failure) ≠ .success := by
    split <;> decide
  cases hgang : opHash.lookup (makeKey vmUuid vmDirUuid) with
  | none => exact .inr ⟨.inr (by simp [registrations, hgang]), by simpa [unregisterOp, hgang]⟩
  | some gang =>
    by_cases hlock : cmd = .vmLock
    · subst hlock
      cases herase : gang.eraseFirstOf .vmLock session with
      | none => exact .inr ⟨.inl rfl, by simp [unregisterOp, hgang, herase]⟩
      | some erased =>
        exact .inl ⟨gang, erased, rfl, by simpa [Gang.eraseFirstOf] using herase,
          by simp [unregisterOp, hgang, herase]⟩
    · cases herase : gang.eraseFirst cmd with
      | none =>
        right
        refine ⟨.inr ?_, by simp [unregisterOp, hgang, hlock, herase]⟩
        simpa [registrations, hgang] using
          List.any_eq_false.mp (Gang.eraseBy_eq_none_iff.mp herase)
      | some erased =>
        exact .inl ⟨gang, erased, rfl, by simpa [Gang.eraseFirst, hlock] using herase,
          by simp [unregisterOp, hgang, hlock, herase]⟩

def replaceOp (opHash : OpHash) (visit : Visit Native) (vmUuid vmDirUuid : String)
    (fromCmd toCmd : Command) (session : Handle) : PrlResult × OpHash :=
  let key := makeKey vmUuid vmDirUuid
  match opHash.lookup key with
  | none => (.failure, opHash)
  | some gang =>
    match gang.findFirst fromCmd with
    | none => (.failure, opHash)
    | some found =>
      let erased := (gang.eraseFirst fromCmd).getD gang
      match erased.join visit ⟨found.taskId, session, toCmd⟩ with
      | .ok joined => (.success, opHash.insert key joined)
      | .error conflict => (conflict.getResult, opHash.insert key erased)

theorem replaceOp_of_not_found {opHash : OpHash} (visit : Visit Native) {vmUuid vmDirUuid : String}
    {fromCmd : Command} (toCmd : Command) (session : Handle)
    (h : (opHash.lookup (makeKey vmUuid vmDirUuid)).bind (·.findFirst fromCmd) = none) :
    replaceOp opHash visit vmUuid vmDirUuid fromCmd toCmd session = (.failure, opHash) := by
  unfold replaceOp
  cases hgang : opHash.lookup (makeKey vmUuid vmDirUuid) with
  | none => simp only [hgang]
  | some gang =>
    have hfound : gang.findFirst fromCmd = none := by simpa [hgang] using h
    simp only [hgang, hfound]

/-- Once the old registration is found it is erased, whatever `join` answers. -/
theorem replaceOp_of_found {opHash : OpHash} (visit : Visit Native) {vmUuid vmDirUuid : String}
    {fromCmd : Command} (toCmd : Command) (session : Handle) {gang : Gang} {found : Unit}
    (hgang : opHash.lookup (makeKey vmUuid vmDirUuid) = some gang)
    (hfound : gang.findFirst fromCmd = some found) :
    replaceOp opHash visit vmUuid vmDirUuid fromCmd toCmd session =
      match (Gang.mk (gang.store.eraseP fun x => x.command = fromCmd)).join visit
        ⟨found.taskId, session, toCmd⟩ with
      | .ok joined => (.success, opHash.insert (makeKey vmUuid vmDirUuid) joined)
      | .error conflict => (conflict.getResult, opHash.insert (makeKey vmUuid vmDirUuid)
          ⟨gang.store.eraseP fun x => x.command = fromCmd⟩) := by
  unfold replaceOp
  simp only [hgang, hfound, Gang.eraseFirst_of_findFirst hfound, Option.getD_some]

def getVmLockerHandle (opHash : OpHash) (vmUuid vmDirUuid : String) : Handle :=
  match opHash.lookup (makeKey vmUuid vmDirUuid) with
  | none => ""
  | some gang =>
    match gang.findFirst .vmLock with
    | some locker => locker.session
    | none => ""

def cleanupSessionVmLocks (opHash : OpHash) (session : Handle) : OpHash :=
  Hash.walk (fun _ gang =>
    let gang := gang.eraseAllOf .vmLock session
    if gang.isEmpty then none else some gang) opHash

inductive Operation where
  | registerOp (visit : Visit Native) (vmUuid vmDirUuid : String) (cmd : Command)
      (session : Handle) (taskId : String) (expired : Bool)
  | unregisterOp (vmUuid vmDirUuid : String) (cmd : Command) (session : Handle)
  | replaceOp (visit : Visit Native) (vmUuid vmDirUuid : String) (fromCmd toCmd : Command)
      (session : Handle)
  | cleanupSessionVmLocks (session : Handle)

def Operation.apply (opHash : OpHash) : Operation → OpHash
  | .registerOp visit vmUuid vmDirUuid cmd session taskId expired =>
    (Exclusive.registerOp opHash visit vmUuid vmDirUuid cmd session taskId expired).2
  | .unregisterOp vmUuid vmDirUuid cmd session =>
    (Exclusive.unregisterOp opHash vmUuid vmDirUuid cmd session).2
  | .replaceOp visit vmUuid vmDirUuid fromCmd toCmd session =>
    (Exclusive.replaceOp opHash visit vmUuid vmDirUuid fromCmd toCmd session).2
  | .cleanupSessionVmLocks session => Exclusive.cleanupSessionVmLocks opHash session

end DispService.Exclusive

/-! Who may share a VM. Joining compares a newcomer with everyone present, so
the members of a gang are pairwise reconciled in the order in which they came;
erasing keeps that, but replacing gives up the old registration before it knows
whether the new one is let in. -/
namespace DispService.Exclusive

open Lib

/-- Every member, as the newcomer it was, is reconciled with each member that
joined before it. -/
def Gang.Reconciled (gang : Gang) : Prop :=
  gang.store.Pairwise fun later earlier => Native.isReconciled earlier later = true

def GangsReconciled (opHash : OpHash) : Prop :=
  ∀ key gang, opHash.lookup key = some gang → gang.store ≠ [] ∧ gang.Reconciled

theorem Gang.reconciled_join {gang joined : Gang} {visit : Visit Native} {party : Unit}
    (reconciled : gang.Reconciled) (h : gang.join visit party = .ok joined) :
    joined.store ≠ [] ∧ joined.Reconciled := by
  obtain ⟨hall, rfl⟩ := join_eq_ok_iff.mp h
  exact ⟨List.cons_ne_nil _ _, List.pairwise_cons.mpr ⟨hall, reconciled⟩⟩

theorem Gang.reconciled_eraseBy {gang erased : Gang} {drop : Native → Bool}
    (reconciled : gang.Reconciled) (h : gang.eraseBy drop = some erased) : erased.Reconciled := by
  obtain ⟨-, rfl⟩ := eraseBy_eq_some_iff.mp h
  exact reconciled.sublist List.eraseP_sublist

theorem Gang.reconciled_eraseAllOf {gang : Gang} (reconciled : gang.Reconciled)
    (command : Command) (session : Handle) : (gang.eraseAllOf command session).Reconciled := by
  unfold Gang.Reconciled
  rw [eraseAllOf_store]
  exact reconciled.sublist List.filter_sublist

theorem Gang.isEmpty_eq_false_iff {gang : Gang} : gang.isEmpty = false ↔ gang.store ≠ [] := by
  simp [Gang.isEmpty]

section Invariant

variable {opHash : OpHash}

theorem GangsReconciled.insert (inv : GangsReconciled opHash) {gang : Gang}
    (sound : gang.store ≠ [] ∧ gang.Reconciled) (key : String) :
    GangsReconciled (opHash.insert key gang) := by
  intro key' gang' h
  by_cases hkey : key' = key
  · subst hkey
    rw [AList.lookup_insert] at h
    cases h
    exact sound
  · rw [AList.lookup_insert_ne hkey] at h
    exact inv key' gang' h

theorem GangsReconciled.erase (inv : GangsReconciled opHash) (key : String) :
    GangsReconciled (opHash.erase key) := by
  intro key' gang' h
  by_cases hkey : key' = key
  · subst hkey
    simp at h
  · rw [AList.lookup_erase_ne hkey] at h
    exact inv key' gang' h

theorem GangsReconciled.storeGang (inv : GangsReconciled opHash) {gang : Gang}
    (reconciled : gang.Reconciled) (key : String) :
    GangsReconciled (storeGang opHash key gang) := by
  unfold Exclusive.storeGang
  split
  · exact inv.erase key
  · rename_i hempty
    exact inv.insert ⟨Gang.isEmpty_eq_false_iff.mp (by simpa using hempty), reconciled⟩ key

/-- The gang that `registerOp` looks at is reconciled, the fresh empty one too. -/
theorem GangsReconciled.getD (inv : GangsReconciled opHash) (key : String) :
    ((opHash.lookup key).getD Gang.empty).Reconciled := by
  cases h : opHash.lookup key with
  | none => exact List.Pairwise.nil
  | some gang => exact (inv key gang h).2

theorem GangsReconciled.apply (inv : GangsReconciled opHash) (operation : Operation) :
    GangsReconciled (operation.apply opHash) := by
  cases operation with
  | registerOp visit vmUuid vmDirUuid cmd session taskId expired =>
    obtain ⟨joined, hjoin, h⟩ | ⟨h, -⟩ :=
      registerOp_cases opHash visit vmUuid vmDirUuid cmd session taskId expired
    · simp only [Operation.apply, h]
      exact inv.insert (Gang.reconciled_join (inv.getD _) hjoin) _
    · simp only [Operation.apply, h]
      exact inv
  | unregisterOp vmUuid vmDirUuid cmd session =>
    simp only [Operation.apply, Exclusive.unregisterOp]
    split
    · exact inv
    · rename_i gang hgang
      have hreconciled := (inv _ gang hgang).2
      split
      · split
        · exact inv
        · rename_i erased herased
          exact inv.storeGang (Gang.reconciled_eraseBy hreconciled herased) _
      · split
        · rename_i erased herased
          exact inv.storeGang (Gang.reconciled_eraseBy hreconciled herased) _
        · exact inv
  | replaceOp visit vmUuid vmDirUuid fromCmd toCmd session =>
    simp only [Operation.apply]
    cases hfound : (opHash.lookup (makeKey vmUuid vmDirUuid)).bind (·.findFirst fromCmd) with
    | none =>
      rw [replaceOp_of_not_found visit toCmd session hfound]
      exact inv
    | some found =>
      obtain ⟨gang, hgang, hfound⟩ := Option.bind_eq_some_iff.mp hfound
      rw [replaceOp_of_found visit toCmd session hgang hfound]
      have herased := Gang.reconciled_eraseBy (inv _ gang hgang).2
        (Gang.eraseFirst_of_findFirst hfound)
      split
      · rename_i joined hjoin
        exact inv.insert (Gang.reconciled_join herased hjoin) _
      · rename_i conflict hjoin
        -- the refused newcomer leaves the native it conflicts with behind
        exact inv.insert ⟨List.ne_nil_of_mem (Gang.join_eq_error hjoin).1, herased⟩ _
  | cleanupSessionVmLocks session =>
    intro key gang h
    simp only [Operation.apply, Exclusive.cleanupSessionVmLocks, Hash.lookup_walk,
      Option.bind_eq_some_iff] at h
    obtain ⟨old, hold, h⟩ := h
    split at h
    · cases h
    · rename_i hempty
      cases h
      exact ⟨Gang.isEmpty_eq_false_iff.mp (by simpa using hempty),
        Gang.reconciled_eraseAllOf (inv key old hold).2 _ _⟩

end Invariant

/-- In every reachable state no gang is empty and its members are pairwise
reconciled in joining order. -/
theorem gangs_reconciled_of_run {operations : List Operation} {opHash : OpHash}
    (run : Run (Graph Operation.apply) ∅ operations opHash) : GangsReconciled opHash := by
  refine run.preserves (fun before operation after inv step => ?_) ?_
  · exact step ▸ inv.apply operation
  · intro key gang h
    simp at h

/-- A VM that is started and then edited. -/
theorem gangs_reconciled_of_started_and_edited :
    GangsReconciled (Operation.apply
      (Operation.apply ∅ (.registerOp (Visit.asStored _) "vm" "dir" .vmStartEx "a" "" false))
      (.registerOp (Visit.asStored _) "vm" "dir" .dirVmEditCommit "b" "t" false)) :=
  gangs_reconciled_of_run (.cons rfl (.cons rfl (.nil _)))

/-- What a caller of `replaceOp` relies on when it gets an error. -/
def ReplaceKeepsRegistry (opHash : OpHash) (visit : Visit Native) (vmUuid vmDirUuid : String)
    (fromCmd toCmd : Command) (session : Handle) : Prop :=
  (replaceOp opHash visit vmUuid vmDirUuid fromCmd toCmd session).1.failed = true →
    (replaceOp opHash visit vmUuid vmDirUuid fromCmd toCmd session).2 = opHash

/-- Nobody else in the gang refuses the command that is to take the place of
the registration found. -/
def ReplacementAdmitted (opHash : OpHash) (vmUuid vmDirUuid : String) (fromCmd toCmd : Command)
    (session : Handle) : Prop :=
  ∀ gang found, opHash.lookup (makeKey vmUuid vmDirUuid) = some gang →
    gang.findFirst fromCmd = some found →
    ∀ x ∈ gang.store.eraseP (fun x => x.command = fromCmd),
      Native.isReconciled x ⟨found.taskId, session, toCmd⟩ = true

theorem insert_ne_of_length {opHash : OpHash} {key : String} {gang erased : Gang}
    (hgang : opHash.lookup key = some gang)
    (hlength : erased.store.length + 1 = gang.store.length) : opHash.insert key erased ≠ opHash := by
  intro h
  have hlookup := AList.lookup_insert (a := key) (b := erased) opHash
  rw [h, hgang] at hlookup
  cases hlookup
  omega

/-- `replaceOp` gives the old registration back on an error exactly when no
third command refuses the new one. -/
theorem replaceOp_keeps_registry_iff (opHash : OpHash) (visit : Visit Native)
    (vmUuid vmDirUuid : String) (fromCmd toCmd : Command) (session : Handle) :
    ReplaceKeepsRegistry opHash visit vmUuid vmDirUuid fromCmd toCmd session ↔
      ReplacementAdmitted opHash vmUuid vmDirUuid fromCmd toCmd session := by
  unfold ReplaceKeepsRegistry ReplacementAdmitted
  cases hfound : (opHash.lookup (makeKey vmUuid vmDirUuid)).bind (·.findFirst fromCmd) with
  | none =>
    rw [replaceOp_of_not_found visit toCmd session hfound]
    refine ⟨fun _ gang found hgang h => ?_, fun _ _ => rfl⟩
    simp [hgang, h] at hfound
  | some found =>
    obtain ⟨gang, hgang, hfound⟩ := Option.bind_eq_some_iff.mp hfound
    have hadmitted : (∀ gang' found', opHash.lookup (makeKey vmUuid vmDirUuid) = some gang' →
        gang'.findFirst fromCmd = some found' →
        ∀ x ∈ gang'.store.eraseP (fun x => x.command = fromCmd),
          Native.isReconciled x ⟨found'.taskId, session, toCmd⟩ = true) ↔
        ∀ x ∈ gang.store.eraseP (fun x => x.command = fromCmd),
          Native.isReconciled x ⟨found.taskId, session, toCmd⟩ = true := by
      constructor
      · exact fun h => h gang found hgang hfound
      · intro h gang' found' hgang' hfound'
        cases Option.some.inj (hgang.symm.trans hgang')
        cases Option.some.inj (hfound.symm.trans hfound')
        exact h
    rw [hadmitted, replaceOp_of_found visit toCmd session hgang hfound]
    split
    · rename_i joined hjoin
      have hall := (Gang.join_eq_ok_iff.mp hjoin).1
      exact ⟨fun _ => hall, fun _ hfailed => by simp [PrlResult.failed] at hfailed⟩
    · rename_i conflict hjoin
      have hne := insert_ne_of_length hgang
        (Gang.eraseBy_length (Gang.eraseFirst_of_findFirst hfound))
      obtain ⟨hmem, hrefused⟩ := Gang.join_eq_error hjoin
      constructor
      · exact fun hkeeps => absurd (hkeeps conflict.getResult_failed) hne
      · intro hall
        simp [hall _ hmem] at hrefused

/-- A running VM is being edited; turning the edit into a hardware change is
refused because of the run, and the edit has lost its registration. -/
theorem replaceOp_drops_edit_of_running_vm :
    ∃ operations opHash, Run (Graph Operation.apply) ∅ operations opHash ∧
      (⟨"t", "b", .dirVmEditCommit⟩ : Unit) ∈ registrations opHash "vmdir" ∧
      (replaceOp opHash (Visit.asStored _) "vm" "dir" .dirVmEditCommit
        .ctlVmEditWithHardwareChanged "b").1 = .vmLockedForExecuteEx ∧
      registrations (replaceOp opHash (Visit.asStored _) "vm" "dir" .dirVmEditCommit
        .ctlVmEditWithHardwareChanged "b").2 "vmdir" = [⟨"", "a", .vmStartEx⟩] ∧
      ¬ReplaceKeepsRegistry opHash (Visit.asStored _) "vm" "dir" .dirVmEditCommit
        .ctlVmEditWithHardwareChanged "b" := by
  refine ⟨[.registerOp (Visit.asStored _) "vm" "dir" .vmStartEx "a" "" false,
    .registerOp (Visit.asStored _) "vm" "dir" .dirVmEditCommit "b" "t" false], _,
    .cons rfl (.cons rfl (.nil _)), by decide, by decide, by decide, ?_⟩
  intro hkeeps
  have hsame := congrArg (registrations · "vmdir") (hkeeps (by decide))
  exact absurd hsame (by decide)

end DispService.Exclusive
