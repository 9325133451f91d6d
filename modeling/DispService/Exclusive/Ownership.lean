import DispService.Exclusive.Reconciliation

/-! Whose registration goes away. The exclusive lock is erased by command and
session; every other command is erased by command alone, the latest joined
first. -/
namespace DispService.Exclusive

open Lib

/-- The registrations of a command that a session holds for one key. -/
def held (opHash : OpHash) (key : String) (session : Handle) (cmd : Command) : Nat :=
  (registrations opHash key).countP fun x => x.command = cmd ∧ x.session = session

/-- `unregisterOp` takes one registration away from the caller when it reports
success, none when it reports an error, and none from anybody else. -/
def UnregistersOwn (opHash : OpHash) (vmUuid vmDirUuid : String) (cmd : Command)
    (session : Handle) : Prop :=
  ∀ key session' cmd',
    held opHash key session' cmd' =
      held (unregisterOp opHash vmUuid vmDirUuid cmd session).2 key session' cmd' +
        if (unregisterOp opHash vmUuid vmDirUuid cmd session).1 = .success ∧
            key = makeKey vmUuid vmDirUuid ∧ session' = session ∧ cmd' = cmd then 1 else 0

/-- The registration that a search by command meets first is the caller's. -/
def FindsOwn (opHash : OpHash) (vmUuid vmDirUuid : String) (cmd : Command)
    (session : Handle) : Prop :=
  cmd = .vmLock ∨ ∀ found,
    (registrations opHash (makeKey vmUuid vmDirUuid)).find? (fun x => x.command = cmd) =
      some found → found.session = session

theorem registrations_insert (opHash : OpHash) (key key' : String) (gang : Gang) :
    registrations (opHash.insert key gang) key' =
      if key' = key then gang.store else registrations opHash key' := by
  unfold registrations
  split
  · rename_i hkey
    subst hkey
    rw [AList.lookup_insert]
    rfl
  · rename_i hkey
    rw [AList.lookup_insert_ne hkey]

theorem registrations_storeGang (opHash : OpHash) (key key' : String) (gang : Gang) :
    registrations (storeGang opHash key gang) key' =
      if key' = key then gang.store else registrations opHash key' := by
  unfold storeGang
  split
  · rename_i hempty
    have hstore : gang.store = [] := by simpa [Gang.isEmpty] using hempty
    unfold registrations
    split
    · rename_i hkey
      subst hkey
      rw [AList.lookup_erase, hstore]
      rfl
    · rename_i hkey
      rw [AList.lookup_erase_ne hkey]
  · exact registrations_insert opHash key key' gang

theorem countP_eraseP {α : Type} (count drop : α → Bool) {items : List α} {first : α}
    (h : items.find? drop = some first) :
    items.countP count = (items.eraseP drop).countP count + if count first then 1 else 0 := by
  induction items with
  | nil => cases h
  | cons x rest ih =>
    by_cases hx : drop x = true
    · rw [List.find?_cons_of_pos hx] at h
      cases h
      rw [List.eraseP_cons_of_pos hx, List.countP_cons]
    · rw [List.find?_cons_of_neg hx] at h
      rw [List.eraseP_cons_of_neg hx, List.countP_cons, List.countP_cons, ih h]
      omega

/-- A successful `unregisterOp` takes away exactly the registration found first. -/
theorem held_storeGang {opHash : OpHash} {key : String} {gang erased : Gang}
    {drop : Native → Bool} (hgang : opHash.lookup key = some gang)
    (herase : gang.eraseBy drop = some erased) :
    ∃ first, gang.store.find? drop = some first ∧
      ∀ key' session' cmd', held opHash key' session' cmd' =
        held (storeGang opHash key erased) key' session' cmd' +
          if key' = key ∧ first.command = cmd' ∧ first.session = session' then 1 else 0 := by
  obtain ⟨hany, rfl⟩ := Gang.eraseBy_eq_some_iff.mp herase
  obtain ⟨x, hx, hdrop⟩ := List.any_eq_true.mp hany
  cases hfirst : gang.store.find? drop with
  | none => exact absurd hdrop (List.find?_eq_none.mp hfirst x hx)
  | some first =>
    refine ⟨first, rfl, fun key' session' cmd' => ?_⟩
    unfold held
    rw [registrations_storeGang]
    by_cases hkey : key' = key
    · subst hkey
      have hstore : registrations opHash key' = gang.store := by simp [registrations, hgang]
      rw [hstore, countP_eraseP _ drop hfirst]
      simp
    · simp [hkey]

theorem unregistersOwn_iff_findsOwn (opHash : OpHash) (vmUuid vmDirUuid : String) (cmd : Command)
    (session : Handle) :
    UnregistersOwn opHash vmUuid vmDirUuid cmd session ↔
      FindsOwn opHash vmUuid vmDirUuid cmd session := by
  unfold UnregistersOwn FindsOwn
  obtain ⟨gang, erased, hgang, herase, h⟩ | ⟨habsent, hcode, h⟩ :=
    unregisterOp_cases opHash vmUuid vmDirUuid cmd session
  · obtain ⟨first, hfirst, hheld⟩ := held_storeGang hgang herase
    have hstore : registrations opHash (makeKey vmUuid vmDirUuid) = gang.store := by
      simp [registrations, hgang]
    have hdrop : first.command = cmd ∧ (cmd = .vmLock → first.session = session) := by
      simpa only [decide_eq_true_eq] using List.find?_some hfirst
    simp only [h, true_and, hstore]
    constructor
    · intro hown
      have hcaller := (hheld (makeKey vmUuid vmDirUuid) session cmd).symm.trans (hown _ _ _)
      have hsession : first.session = session := by
        by_contra hne
        simp [hne] at hcaller
      by_cases hlock : cmd = .vmLock
      · exact .inl hlock
      · refine .inr fun found hfound => ?_
        simp only [hlock, false_implies, and_true] at hfirst
        rw [hfirst] at hfound
        exact Option.some.inj hfound ▸ hsession
    · intro hfinds key session' cmd'
      have hsession : first.session = session := by
        rcases hfinds with hlock | hall
        · exact hdrop.2 hlock
        · by_cases hlock : cmd = .vmLock
          · exact hdrop.2 hlock
          · simp only [hlock, false_implies, and_true] at hfirst
            exact hall first hfirst
      rw [hheld, hdrop.1, hsession]
      simp only [eq_comm, and_comm]
  · simp only [h, hcode, false_and, ↓reduceIte, Nat.add_zero, implies_true, true_iff]
    exact habsent.imp id fun hnone found hfound => by simp [hnone] at hfound

/-- What each session believes it holds: its successful registrations less its
successful `unregisterOp` calls. -/
abbrev Ledger := String → Handle → Command → Nat

def Ledger.update (ledger : Ledger) (key : String) (session : Handle) (cmd : Command)
    (f : Nat → Nat) : Ledger :=
  fun key' session' cmd' =>
    if key' = key ∧ session' = session ∧ cmd' = cmd then f (ledger key' session' cmd')
    else ledger key' session' cmd'

def record (opHash : OpHash) (operation : Operation) (ledger : Ledger) : Ledger :=
  match operation with
  | .registerOp visit vmUuid vmDirUuid cmd session taskId expired =>
    if (registerOp opHash visit vmUuid vmDirUuid cmd session taskId expired).1 =
        .returned .success then
      ledger.update (makeKey vmUuid vmDirUuid) session cmd (· + 1)
    else ledger
  | .unregisterOp vmUuid vmDirUuid cmd session =>
    if (unregisterOp opHash vmUuid vmDirUuid cmd session).1 = .success then
      ledger.update (makeKey vmUuid vmDirUuid) session cmd (· - 1)
    else ledger
  | _ => ledger

/-- The steps of an interleaving of `registerOp` and `unregisterOp` in which
every `unregisterOp` finds its caller's registration first. -/
def TakesOwn (opHash : OpHash) : Operation → Prop
  | .registerOp .. => True
  | .unregisterOp vmUuid vmDirUuid cmd session => FindsOwn opHash vmUuid vmDirUuid cmd session
  | _ => False

theorem held_registerOp {opHash : OpHash} {visit : Visit Native} {key : String}
    {party : Unit} {joined : Gang}
    (hjoin : ((opHash.lookup key).getD Gang.empty).join visit party = .ok joined)
    (key' : String) (session' : Handle) (cmd' : Command) :
    held (opHash.insert key joined) key' session' cmd' =
      held opHash key' session' cmd' +
        if key' = key ∧ session' = party.session ∧ cmd' = party.command then 1 else 0 := by
  obtain ⟨-, rfl⟩ := Gang.join_eq_ok_iff.mp hjoin
  unfold held
  rw [registrations_insert]
  by_cases hkey : key' = key
  · subst hkey
    have hstore : registrations opHash key' = ((opHash.lookup key').getD Gang.empty).store := by
      unfold registrations
      cases opHash.lookup key' <;> rfl
    rw [hstore, if_pos rfl, List.countP_cons]
    congr 1
    refine if_congr ?_ rfl rfl
    simp only [decide_eq_true_eq, true_and]
    constructor <;> rintro ⟨rfl, rfl⟩ <;> exact ⟨rfl, rfl⟩
  · simp [hkey]

/-- The gangs hold what the ledger says. -/
def Accounted (state : OpHash × Ledger) : Prop :=
  ∀ key session cmd, held state.1 key session cmd = state.2 key session cmd

/-- The step lemma: the ledger stays true when each session takes its own. -/
theorem Accounted.apply {opHash : OpHash} {ledger : Ledger} {operation : Operation}
    (hledger : Accounted (opHash, ledger)) (own : TakesOwn opHash operation) :
    Accounted (operation.apply opHash, record opHash operation ledger) := by
  intro key session cmd
  dsimp only [Accounted] at hledger ⊢
  cases operation with
  | registerOp visit vmUuid vmDirUuid cmd' session' taskId expired =>
    obtain ⟨joined, hjoin, h⟩ | ⟨h, hcode⟩ :=
      registerOp_cases opHash visit vmUuid vmDirUuid cmd' session' taskId expired
    · simp only [Operation.apply, record, h, ↓reduceIte, held_registerOp hjoin, hledger,
        Ledger.update]
      split <;> rfl
    · simp only [Operation.apply, record, h, hcode, ↓reduceIte, hledger]
  | unregisterOp vmUuid vmDirUuid cmd' session' =>
    have hown := (unregistersOwn_iff_findsOwn _ _ _ _ _).mpr own key session cmd
    simp only [Operation.apply, record]
    rw [hledger] at hown
    split
    · rename_i hsuccess
      simp only [hsuccess, true_and] at hown
      simp only [Ledger.update]
      split <;> simp_all
    · rename_i hcode
      simpa [hcode] using hown.symm
  | replaceOp visit vmUuid vmDirUuid fromCmd toCmd session' => exact own.elim
  | cleanupSessionVmLocks session' => exact own.elim

/-- In a run in which every `unregisterOp` finds its caller's registration first,
every session keeps what it registered until it unregisters it itself; and in
the state reached that condition is exactly what the next call needs. -/
theorem registrations_stay_with_their_sessions {operations : List Operation} {opHash : OpHash}
    {ledger : Ledger}
    (run : Run (Recorded record (Guarded TakesOwn (Graph Operation.apply))) (∅, fun _ _ _ => 0)
      operations (opHash, ledger)) :
    (∀ key session cmd, held opHash key session cmd = ledger key session cmd) ∧
    ∀ vmUuid vmDirUuid cmd session,
      UnregistersOwn opHash vmUuid vmDirUuid cmd session ↔
        FindsOwn opHash vmUuid vmDirUuid cmd session := by
  have keep : ∀ before operation after, Accounted before →
      Recorded record (Guarded TakesOwn (Graph Operation.apply)) before operation after →
      Accounted after := by
    rintro before operation ⟨after, _⟩ hledger ⟨⟨own, rfl⟩, rfl⟩
    exact hledger.apply own
  exact ⟨run.preserves keep fun _ _ _ => rfl, unregistersOwn_iff_findsOwn opHash⟩

private def cloneBy (session : Handle) : Operation :=
  .registerOp (Visit.asStored _) "vm" "dir" .dirVmClone session "" false

theorem registrations_stay_with_two_cloning_sessions :
    held (Operation.apply (Operation.apply (Operation.apply ∅ (cloneBy "a")) (cloneBy "b"))
      (.unregisterOp "vm" "dir" .dirVmClone "b")) "vmdir" "a" .dirVmClone = 1 := by
  have hfinds : FindsOwn (Operation.apply (Operation.apply ∅ (cloneBy "a")) (cloneBy "b"))
      "vm" "dir" .dirVmClone "b" := by
    refine .inr fun found hfound => ?_
    have hfirst : found = ⟨"", "b", .dirVmClone⟩ :=
      Option.some.inj (hfound.symm.trans (by decide))
    rw [hfirst]
  have run : Run (Recorded record (Guarded TakesOwn (Graph Operation.apply))) (∅, fun _ _ _ => 0)
      [cloneBy "a", cloneBy "b", .unregisterOp "vm" "dir" .dirVmClone "b"] _ :=
    .cons (Recorded.guarded record _ _ trivial) (.cons (Recorded.guarded record _ _ trivial)
      (.cons (Recorded.guarded record _ _ hfinds) (.nil _)))
  exact (registrations_stay_with_their_sessions run).1 "vmdir" "a" .dirVmClone

/-- Two sessions clone a VM; the first one that finishes takes the registration
of the other away and leaves its own behind. -/
theorem unregisterOp_takes_clone_of_other_session :
    ∃ opHash ledger,
      Run (Recorded record (Graph Operation.apply)) (∅, fun _ _ _ => 0)
        [cloneBy "a", cloneBy "b", .unregisterOp "vm" "dir" .dirVmClone "a"] (opHash, ledger) ∧
      ledger "vmdir" "b" .dirVmClone = 1 ∧ held opHash "vmdir" "b" .dirVmClone = 0 ∧
      ledger "vmdir" "a" .dirVmClone = 0 ∧ held opHash "vmdir" "a" .dirVmClone = 1 :=
  ⟨_, _, .cons (Recorded.graph _ _ _ _ _) (.cons (Recorded.graph _ _ _ _ _)
    (.cons (Recorded.graph _ _ _ _ _) (.nil _))), by decide, by decide, by decide, by decide⟩

/-- The exclusive locks that `cleanupSessionVmLocks` has to drop. -/
def isLockOf (session : Handle) (x : Unit) : Bool :=
  x.command = .vmLock ∧ x.session = session

theorem lookup_cleanupSessionVmLocks (opHash : OpHash) (session : Handle) (key : String) :
    (cleanupSessionVmLocks opHash session).lookup key =
      (opHash.lookup key).bind fun gang =>
        if (gang.eraseAllOf .vmLock session).isEmpty then none
        else some (gang.eraseAllOf .vmLock session) :=
  Hash.lookup_walk _ opHash key

theorem registrations_cleanupSessionVmLocks (opHash : OpHash) (session : Handle) (key : String) :
    registrations (cleanupSessionVmLocks opHash session) key =
      (registrations opHash key).filter fun x => !isLockOf session x := by
  unfold registrations
  rw [lookup_cleanupSessionVmLocks]
  cases opHash.lookup key with
  | none => rfl
  | some gang =>
    have hstore := gang.eraseAllOf_store .vmLock session
    simp only [Option.bind_some, Option.elim_some]
    split
    · rename_i hempty
      have hnil : (gang.eraseAllOf .vmLock session).store = [] := by
        simpa [Gang.isEmpty] using hempty
      rw [← hnil] at *
      exact hstore
    · exact hstore

theorem getVmLockerHandle_eq (opHash : OpHash) (vmUuid vmDirUuid : String) :
    getVmLockerHandle opHash vmUuid vmDirUuid =
      (((registrations opHash (makeKey vmUuid vmDirUuid)).find? fun x =>
        x.command = .vmLock).map (·.session)).getD "" := by
  unfold getVmLockerHandle registrations
  cases opHash.lookup (makeKey vmUuid vmDirUuid) with
  | none => rfl
  | some gang =>
    simp only [Gang.findFirst, Option.elim_some]
    cases gang.store.find? fun x => x.command = .vmLock <;> rfl

/-- The clean-up of a session takes exactly its exclusive locks, from every key,
and leaves no empty gang. The empty handle is the answer "not locked". -/
theorem cleanupSessionVmLocks_takes_exactly_its_locks (opHash : OpHash) (session : Handle) :
    (∀ key, registrations (cleanupSessionVmLocks opHash session) key =
      (registrations opHash key).filter fun x => !isLockOf session x) ∧
    (∀ key, ∀ x ∈ registrations (cleanupSessionVmLocks opHash session) key,
      ¬(x.command = .vmLock ∧ x.session = session)) ∧
    (∀ key gang, (cleanupSessionVmLocks opHash session).lookup key = some gang →
      gang.store ≠ []) ∧
    ∀ vmUuid vmDirUuid,
      getVmLockerHandle (cleanupSessionVmLocks opHash session) vmUuid vmDirUuid = session →
      session = "" := by
  have hnone : ∀ key, ∀ x ∈ registrations (cleanupSessionVmLocks opHash session) key,
      ¬(x.command = .vmLock ∧ x.session = session) := by
    intro key x hx
    rw [registrations_cleanupSessionVmLocks, List.mem_filter] at hx
    intro hlock
    simp [isLockOf, hlock] at hx
  refine ⟨registrations_cleanupSessionVmLocks opHash session, hnone, ?_, ?_⟩
  · intro key gang h
    rw [lookup_cleanupSessionVmLocks, Option.bind_eq_some_iff] at h
    obtain ⟨old, -, h⟩ := h
    split at h
    · cases h
    · rename_i hempty
      cases h
      exact Gang.isEmpty_eq_false_iff.mp (by simpa using hempty)
  · intro vmUuid vmDirUuid h
    rw [getVmLockerHandle_eq] at h
    cases hlocker : (registrations (cleanupSessionVmLocks opHash session)
        (makeKey vmUuid vmDirUuid)).find? fun x => x.command = .vmLock with
    | none => simpa [hlocker] using h.symm
    | some locker =>
      have hcommand : locker.command = .vmLock := by simpa using List.find?_some hlocker
      have hsession : locker.session = session := by simpa [hlocker] using h
      exact absurd ⟨hcommand, hsession⟩ (hnone _ locker (List.mem_of_find?_eq_some hlocker))

end DispService.Exclusive
