import DispService.Exclusive.Ownership

/-! A registration whose command never joins itself: while it is in its gang, no operation that
spares it can add another one or take it away, and its owner's `unregisterOp` takes just it. -/
namespace DispService.Exclusive

def unitsOf (opHash : OpHash) (key : String) (cmd : Command) : List Unit :=
  (registrations opHash key).filter fun x => x.command = cmd

/-- The operation takes no registration of the command away from the gang. -/
def Operation.Spares (key : String) (cmd : Command) : Operation → Prop
  | .registerOp .. => True
  | .unregisterOp vmUuid vmDirUuid cmd' _ => makeKey vmUuid vmDirUuid = key → cmd' ≠ cmd
  | .replaceOp _ vmUuid vmDirUuid fromCmd _ _ => makeKey vmUuid vmDirUuid = key → fromCmd ≠ cmd
  | .cleanupSessionVmLocks _ => cmd ≠ .vmLock

theorem eraseP_eq_erase {α : Type} [DecidableEq α] {drop : α → Bool} {items : List α} {own : α}
    (h : items.filter drop = [own]) : items.eraseP drop = items.erase own := by
  have hown : drop own = true :=
    List.of_mem_filter (h ▸ List.mem_singleton.mpr rfl : own ∈ items.filter drop)
  induction items with
  | nil => rfl
  | cons x rest ih =>
    by_cases hx : drop x = true
    · rw [List.filter_cons_of_pos hx] at h
      obtain ⟨rfl, -⟩ := List.cons.inj h
      rw [List.eraseP_cons_of_pos hx, List.erase_cons_head]
    · have hne : ¬ (x == own) = true := fun heq => hx (eq_of_beq heq ▸ hown)
      rw [List.filter_cons_of_neg hx] at h
      rw [List.eraseP_cons_of_neg hx, List.erase_cons_tail hne, ih h]

section Sole

variable {opHash : OpHash} {key : String} {own : Unit}

/-- Nobody joins with a command that is in the gang, unless it is one that may run twice. -/
theorem isReconciled_same {party : Unit} (hown : own.command = .ctlApplyVmConfig)
    (hparty : party.command = own.command) : Native.isReconciled own party = false := by
  have h : Unit.isReconciled own party = some false := by
    simp [Unit.isReconciled, hparty, hown]
  simp [Native.isReconciled, h]

theorem unitsOf_insert (key' : String) (gang : Gang) (cmd : Command) :
    unitsOf (opHash.insert key' gang) key cmd =
      if key = key' then gang.store.filter fun x => x.command = cmd
      else unitsOf opHash key cmd := by
  unfold unitsOf
  rw [registrations_insert]
  split <;> rfl

theorem getD_store (key : String) :
    ((opHash.lookup key).getD Gang.empty).store = registrations opHash key := by
  unfold registrations
  cases opHash.lookup key <;> rfl

/-- A newcomer leaves the registrations of the command as they are, if there is one. -/
theorem unitsOf_join {visit : Visit Native} {party : Unit} {gang joined : Gang}
    (hown : own.command = .ctlApplyVmConfig)
    (hsole : gang.store.filter (fun x => x.command = .ctlApplyVmConfig) = [own])
    (hjoin : gang.join visit party = .ok joined) :
    joined.store.filter (fun x => x.command = .ctlApplyVmConfig) = [own] := by
  obtain ⟨hall, rfl⟩ := Gang.join_eq_ok_iff.mp hjoin
  have hmem : own ∈ gang.store := by
    have h : own ∈ gang.store.filter fun x => x.command = .ctlApplyVmConfig :=
      hsole ▸ List.mem_singleton.mpr rfl
    exact (List.mem_filter.mp h).1
  have hne : party.command ≠ .ctlApplyVmConfig := by
    intro hparty
    have hfalse := isReconciled_same hown (hparty.trans hown.symm)
    rw [hall own hmem] at hfalse
    cases hfalse
  rw [List.filter_cons_of_neg (by simpa using hne)]
  exact hsole

theorem sole_apply {operation : Operation} (hown : own.command = .ctlApplyVmConfig)
    (hsole : unitsOf opHash key .ctlApplyVmConfig = [own])
    (hspares : operation.Spares key .ctlApplyVmConfig) :
    unitsOf (operation.apply opHash) key .ctlApplyVmConfig = [own] := by
  cases operation with
  | registerOp visit vmUuid vmDirUuid cmd session taskId expired =>
    dsimp only [Operation.apply]
    obtain ⟨joined, hjoin, h⟩ | ⟨h, -⟩ :=
      registerOp_cases opHash visit vmUuid vmDirUuid cmd session taskId expired
    · rw [h, unitsOf_insert]
      split
      · rename_i hkey
        subst hkey
        exact unitsOf_join hown (by rw [getD_store]; exact hsole) hjoin
      · exact hsole
    · rw [h]
      exact hsole
  | unregisterOp vmUuid vmDirUuid cmd session =>
    dsimp only [Operation.apply]
    obtain ⟨gang, erased, hgang, herase, h⟩ | ⟨-, -, h⟩ :=
      unregisterOp_cases opHash vmUuid vmDirUuid cmd session
    · rw [h]
      unfold unitsOf
      rw [registrations_storeGang]
      split
      · rename_i hkey
        subst hkey
        obtain ⟨-, rfl⟩ := Gang.eraseBy_eq_some_iff.mp herase
        have hstore : registrations opHash (makeKey vmUuid vmDirUuid) = gang.store := by
          simp [registrations, hgang]
        unfold unitsOf at hsole
        rw [hstore] at hsole
        dsimp only
        rw [Gang.filter_eraseP, hsole]
        intro x hx
        have hcmd : x.command = cmd := (of_decide_eq_true hx).1
        simpa [hcmd] using hspares rfl
      · exact hsole
    · rw [h]
      exact hsole
  | replaceOp visit vmUuid vmDirUuid fromCmd toCmd session =>
    dsimp only [Operation.apply]
    cases hfind : (opHash.lookup (makeKey vmUuid vmDirUuid)).bind (·.findFirst fromCmd) with
    | none =>
      rw [replaceOp_of_not_found visit toCmd session hfind]
      exact hsole
    | some found =>
      obtain ⟨gang, hgang, hfound⟩ := Option.bind_eq_some_iff.mp hfind
      rw [replaceOp_of_found visit toCmd session hgang hfound]
      by_cases hkey : key = makeKey vmUuid vmDirUuid
      · have hstore : registrations opHash key = gang.store := by
          rw [registrations, hkey, hgang]
          rfl
        have herased : (gang.store.eraseP fun x => x.command = fromCmd).filter
            (fun x => x.command = .ctlApplyVmConfig) = [own] := by
          unfold unitsOf at hsole
          rw [hstore] at hsole
          rw [Gang.filter_eraseP, hsole]
          intro x hx
          have hcmd : x.command = fromCmd := of_decide_eq_true hx
          simpa [hcmd] using hspares hkey.symm
        split
        · rename_i joined hjoin
          rw [unitsOf_insert, if_pos hkey]
          exact unitsOf_join hown herased hjoin
        · rw [unitsOf_insert, if_pos hkey]
          exact herased
      · split <;> rw [unitsOf_insert, if_neg hkey] <;> exact hsole
  | cleanupSessionVmLocks session =>
    dsimp only [Operation.apply]
    unfold unitsOf at hsole ⊢
    rw [registrations_cleanupSessionVmLocks, List.filter_filter, ← hsole]
    refine List.filter_congr fun x _ => ?_
    by_cases hx : x.command = .ctlApplyVmConfig <;> simp [isLockOf, hx]

theorem sole_foldl {operations : List Operation} (hown : own.command = .ctlApplyVmConfig)
    (hsole : unitsOf opHash key .ctlApplyVmConfig = [own])
    (hspares : ∀ operation ∈ operations, operation.Spares key .ctlApplyVmConfig) :
    unitsOf (operations.foldl Operation.apply opHash) key .ctlApplyVmConfig = [own] := by
  induction operations generalizing opHash with
  | nil => exact hsole
  | cons operation operations ih =>
    exact ih (sole_apply hown hsole (hspares operation (List.mem_cons_self ..)))
      fun operation' h => hspares operation' (List.mem_cons_of_mem operation h)

/-- Whoever gets in with the command is the only one of it in the gang. -/
theorem registerOp_sole {visit : Visit Native} {vmUuid vmDirUuid : String} {session : Handle}
    {taskId : String} {expired : Bool} {registered : OpHash}
    (h : registerOp opHash visit vmUuid vmDirUuid .ctlApplyVmConfig session taskId expired =
      (.returned .success, registered)) :
    unitsOf registered (makeKey vmUuid vmDirUuid) .ctlApplyVmConfig =
      [⟨taskId, session, .ctlApplyVmConfig⟩] := by
  obtain ⟨joined, hjoin, heq⟩ | ⟨-, hcode⟩ :=
    registerOp_cases opHash visit vmUuid vmDirUuid .ctlApplyVmConfig session taskId expired
  · rw [heq] at h
    obtain ⟨-, rfl⟩ := Prod.mk.inj h
    obtain ⟨hall, rfl⟩ := Gang.join_eq_ok_iff.mp hjoin
    rw [unitsOf_insert, if_pos rfl, List.filter_cons_of_pos (by simp)]
    congr 1
    rw [List.filter_eq_nil_iff]
    intro x hx hcmd
    have hfalse : Native.isReconciled x ⟨taskId, session, .ctlApplyVmConfig⟩ = false :=
      isReconciled_same (of_decide_eq_true hcmd) (of_decide_eq_true hcmd).symm
    rw [hall x hx] at hfalse
    cases hfalse
  · rw [h] at hcode
    exact absurd rfl hcode

/-- Its owner takes it away, and nothing else. -/
theorem unregisterOp_sole {vmUuid vmDirUuid : String} (session : Handle)
    (hsole : unitsOf opHash (makeKey vmUuid vmDirUuid) .ctlApplyVmConfig = [own])
    (key : String) :
    registrations (unregisterOp opHash vmUuid vmDirUuid .ctlApplyVmConfig session).2 key =
      if key = makeKey vmUuid vmDirUuid then (registrations opHash key).erase own
      else registrations opHash key := by
  obtain ⟨gang, erased, hgang, herase, h⟩ | ⟨hnone, -, h⟩ :=
    unregisterOp_cases opHash vmUuid vmDirUuid .ctlApplyVmConfig session
  · have hstore : registrations opHash (makeKey vmUuid vmDirUuid) = gang.store := by
      simp [registrations, hgang]
    rw [h, registrations_storeGang]
    split
    · rename_i hkey
      subst hkey
      obtain ⟨-, rfl⟩ := Gang.eraseBy_eq_some_iff.mp herase
      rw [hstore]
      refine eraseP_eq_erase (hstore ▸ ?_)
      rw [← hsole]
      exact List.filter_congr fun x _ => by simp
    · rfl
  · have hown : own ∈ unitsOf opHash (makeKey vmUuid vmDirUuid) .ctlApplyVmConfig :=
      hsole ▸ List.mem_singleton.mpr rfl
    obtain ⟨hmem, hcmd⟩ := List.mem_filter.mp hown
    exact absurd hcmd (List.find?_eq_none.mp (hnone.resolve_left fun h => by cases h) own hmem)

end Sole

end DispService.Exclusive
