import DispService.Edit.Service

/-! An edit leaves nothing behind just when it does not fail after its mark is set, save for an
action that fails where the directory has the uuid of the VM; and `Atomic` gives back exactly what
it registered, however the edit ends. -/
namespace DispService.Edit

open Exclusive (OpHash Operation)
open MergeHelper

universe u

variable {κ : Type u} {enabled : Bool} {homePath : κ → String} {edit : Edit κ} {s : Service κ}

section Load

variable {item : Option (DirectoryItem κ)} {configs : String → VmConfig.Store κ}

theorem load_files (enabled direct : Bool) (store : VmConfig.Store κ) :
    (store.load enabled direct).2.main = store.main ∧
      (store.load enabled direct).2.backup = store.backup := by
  unfold VmConfig.Store.load VmConfig.Store.forget
  cases direct <;> cases store.getFromCache enabled <;> cases store.main.load <;>
    simp [VmConfig.updateCache_main, VmConfig.updateCache_backup]

/-- Loading changes the cache only. -/
theorem getVmConfigByUuid_files (enabled : Bool) (item : Option (DirectoryItem κ))
    (configs : String → VmConfig.Store κ) (path : String) :
    ((getVmConfigByUuid enabled item configs).2 path).main = (configs path).main ∧
      ((getVmConfigByUuid enabled item configs).2 path).backup = (configs path).backup := by
  cases item with
  | none => exact ⟨rfl, rfl⟩
  | some item =>
      cases item with
      | container config => cases config <;> exact ⟨rfl, rfl⟩
      | vm vmHome =>
          have hload := load_files enabled false (configs vmHome)
          have hupdate : ((getVmConfigByUuid enabled (some (.vm vmHome)) configs).2 path) =
              Function.update configs vmHome ((configs vmHome).load enabled false).2 path := by
            unfold getVmConfigByUuid
            dsimp only
            split <;> rfl
          rw [hupdate]
          by_cases hpath : path = vmHome
          · subst hpath
            rw [Function.update_self]
            exact hload
          · rw [Function.update_of_ne hpath]
            exact ⟨rfl, rfl⟩

theorem getVmConfigByUuid_failed (h : (getVmConfigByUuid enabled item configs).1.2 = none) :
    (if (getVmConfigByUuid enabled item configs).1.1.failed then
      (getVmConfigByUuid enabled item configs).1.1 else .fileNotFound) ≠ .success := by
  split
  · rename_i hfailed
    intro hsuccess
    rw [hsuccess] at hfailed
    cases hfailed
  · exact nofun

end Load

section Begun

variable {m : MergeHelper κ} {o u m_uuid f : String} {now k : Nat} {x y : κ}

theorem followShot_stored {id : Nat} : (m.followShot id y).Stored k ↔ m.Stored k := by
  unfold Stored followShot
  rw [ne_eq, ne_eq, AList.lookup_eq_none, AList.lookup_eq_none, AList.mem_replace]

/-- The state in which the action has edited the configuration. -/
def begun (m : MergeHelper κ) (now : Nat) (m_uuid f : String) (x y : κ) : MergeHelper κ :=
  (m.registerBeginEdit now m_uuid f x).followShot m.nextId y

theorem begun_mark : (begun m now m_uuid f x y).mark o u =
    if o = m_uuid ∧ u = f then some ⟨now, m.nextId⟩ else m.mark o u :=
  registerBeginEdit_mark o u

theorem begun_stored (h : (begun m now m_uuid f x y).Stored k) : k = m.nextId ∨ m.Stored k :=
  (registerBeginEdit_stored.mp (followShot_stored.mp h)).1

end Begun

section Ended

variable {m : MergeHelper κ} {o u m_uuid f : String} {now later k : Nat} {x y : κ}

/-- The mark is taken back with its shot. -/
theorem cleanup_mark : ((begun m now m_uuid f x y).cleanupBeginEditMark m_uuid f).mark o u =
    if o = m_uuid ∧ u = f then none else m.mark o u := by
  rw [cleanupBeginEditMark_mark, begun_mark]
  split <;> rfl

theorem cleanup_stored
    (h : ((begun m now m_uuid f x y).cleanupBeginEditMark m_uuid f).Stored k) : m.Stored k := by
  obtain ⟨hstored, hno⟩ := cleanupBeginEditMark_stored.mp h
  refine (begun_stored hstored).resolve_left fun hk => hno ⟨⟨now, m.nextId⟩, ?_, hk.symm⟩
  rw [begun_mark, if_pos ⟨rfl, rfl⟩]

theorem commit_mark : ((begun m now m_uuid f x y).registerCommit later m_uuid f).mark o u =
    if o = m_uuid ∧ u = f then none else m.mark o u := by
  rw [registerCommit_mark, begun_mark]
  split <;> rfl

theorem commit_stored
    (h : ((begun m now m_uuid f x y).registerCommit later m_uuid f).Stored k) : m.Stored k := by
  obtain ⟨hstored, hno⟩ := registerCommit_stored.mp h
  refine (begun_stored hstored).resolve_left fun hk => hno ⟨⟨now, m.nextId⟩, ?_, hk.symm⟩
  rw [begun_mark, if_pos ⟨rfl, rfl⟩]

theorem clean_of_ended {begins : Prop} {r : PrlResult × Service κ}
    (hmark : ∀ o u, r.2.dispatcher.mark o u =
      if o = edit.m_uuid ∧ u = f then none else s.dispatcher.mark o u)
    (hstored : ∀ k, r.2.dispatcher.Stored k → s.dispatcher.Stored k)
    (hfiles : r.1 ≠ .success → ∀ path, (r.2.configs path).main = (s.configs path).main ∧
      (r.2.configs path).backup = (s.configs path).backup) :
    Clean edit f begins s r where
  marks := by
    intro o hne
    have ho : ¬ (o = edit.m_uuid ∧ f = f) := fun h => hne ((hmark o f).trans (if_pos h))
    exact ⟨(hmark o f).trans (if_neg ho), fun h => ho ⟨h.1, rfl⟩⟩
  shots := hstored
  others := fun o u hu => (hmark o u).trans (if_neg fun h => hu h.2)
  files := hfiles

end Ended

section Unlocked

variable (homePath) {actor : Actor} {x : κ}

theorem unlocked_none (hactor : edit.m_actor = some actor)
    (hload : (getVmConfigByUuid enabled edit.item s.configs).1.2 = none) :
    (Unlocked enabled homePath edit s).2 =
      { s with configs := (getVmConfigByUuid enabled edit.item s.configs).2 } := by
  simp only [Unlocked, hactor, hload]

/-- The end of an edit whose configuration is loaded, by what becomes of the action and the save. -/
theorem unlocked_some (hactor : edit.m_actor = some actor)
    (hload : (getVmConfigByUuid enabled edit.item s.configs).1.2 = some x) :
    let d := actor.vmDirectoryUuid
    let f := handle d edit.m_uuid
    let r := Unlocked enabled homePath edit s
    let y := (edit.action x).1
    let m := begun s.dispatcher edit.begun edit.m_uuid f x y
    match (edit.action x).2 with
    | some _ => r.2.dispatcher = m.cleanupBeginEditMark d f ∧
        r.2.configs = (getVmConfigByUuid enabled edit.item s.configs).2
    | none =>
        if VmConfig.Written edit.outcomes (s.configs (homePath y)).main then
          r.1 = .success ∧ r.2.dispatcher = m.registerCommit edit.committed edit.m_uuid f
        else r.2.dispatcher = m := by
  dsimp only
  unfold Unlocked
  simp only [hactor, hload]
  cases haction : (edit.action x).2 with
  | some error => exact ⟨rfl, rfl⟩
  | none =>
      dsimp only
      rw [← (getVmConfigByUuid_files enabled edit.item s.configs
        (homePath (edit.action x).1)).1]
      by_cases hwritten : VmConfig.Written edit.outcomes
          ((getVmConfigByUuid enabled edit.item s.configs).2
            (homePath (edit.action x).1)).main
      · rw [if_pos hwritten, if_neg fun hfailed => VmConfig.save_failed_iff.mp hfailed hwritten]
        exact ⟨rfl, rfl⟩
      · rw [if_neg hwritten, if_pos (VmConfig.save_failed_iff.mpr hwritten)]
        rfl

theorem unlocked_leavesNothing (fit : Fit enabled homePath edit s) :
    LeavesNothing edit (Begins enabled edit s) s (Unlocked enabled homePath edit s) := by
  unfold LeavesNothing
  cases hactor : edit.m_actor with
  | none => simp only [Unlocked, hactor]
  | some actor =>
      dsimp only
      have hfiles := getVmConfigByUuid_files enabled edit.item s.configs
      cases hload : (getVmConfigByUuid enabled edit.item s.configs).1.2 with
      | none =>
          have hrest := unlocked_none homePath hactor hload
          have hbegins : ¬ Begins enabled edit s := by
            rintro ⟨x, hx⟩
            rw [hload] at hx
            cases hx
          refine ⟨fun o _ => ?_, fun k h => ?_, fun o u _ => ?_, fun _ path => ?_⟩
          · rw [hrest]
            exact ⟨rfl, fun h => hbegins h.2⟩
          · rw [hrest] at h
            exact h
          · rw [hrest]
          · rw [hrest]
            exact hfiles path
      | some x =>
          have hends := unlocked_some homePath hactor hload
          have hfit := fit actor x hactor hload
          dsimp only at hends
          cases haction : (edit.action x).2 with
          | some error =>
              rw [haction] at hends hfit
              dsimp only at hends hfit
              obtain ⟨hdispatcher, hconfigs⟩ := hends
              refine clean_of_ended (fun o u => ?_) (fun k h => ?_) fun _ path => ?_
              · rw [hdispatcher, hfit]
                exact cleanup_mark
              · rw [hdispatcher, hfit] at h
                exact cleanup_stored h
              · rw [hconfigs]
                exact hfiles path
          | none =>
              rw [haction] at hends hfit
              dsimp only at hends hfit
              rw [if_pos hfit] at hends
              obtain ⟨hcode, hdispatcher⟩ := hends
              refine clean_of_ended (fun o u => ?_) (fun k h => ?_) fun hno => absurd hcode hno
              · rw [hdispatcher]
                exact commit_mark
              · rw [hdispatcher] at h
                exact commit_stored h

/-- The mark stays when the action fails elsewhere, and when the save fails. -/
theorem fit_of_leavesNothing
    (h : LeavesNothing edit (Begins enabled edit s) s (Unlocked enabled homePath edit s)) :
    Fit enabled homePath edit s := by
  intro actor x hactor hload
  unfold LeavesNothing at h
  rw [hactor] at h
  dsimp only at h
  have hbegins : Begins enabled edit s := ⟨x, hload⟩
  have hgone : (Unlocked enabled homePath edit s).2.dispatcher.mark edit.m_uuid
      (handle actor.vmDirectoryUuid edit.m_uuid) = none := by
    by_contra hne
    exact (h.marks edit.m_uuid hne).2 ⟨rfl, hbegins⟩
  have hends := unlocked_some homePath hactor hload
  dsimp only at hends
  cases haction : (edit.action x).2 with
  | some error =>
      rw [haction] at hends
      dsimp only at hends ⊢
      by_contra hne
      rw [hends.1, cleanupBeginEditMark_mark, if_neg fun h => hne h.1.symm, begun_mark,
        if_pos ⟨rfl, rfl⟩] at hgone
      cases hgone
  | none =>
      rw [haction] at hends
      dsimp only at hends ⊢
      by_contra hwritten
      rw [if_neg hwritten] at hends
      rw [hends, begun_mark, if_pos ⟨rfl, rfl⟩] at hgone
      cases hgone

theorem unlocked_operations :
    (Unlocked enabled homePath edit s).2.operations = s.operations := by
  unfold Unlocked
  cases edit.m_actor with
  | none => rfl
  | some actor =>
      dsimp only
      cases (getVmConfigByUuid enabled edit.item s.configs).1.2 with
      | none => rfl
      | some x =>
          dsimp only
          cases (edit.action x).2 with
          | some error => rfl
          | none =>
              dsimp only
              split <;> rfl

end Unlocked

section Atomic

variable (homePath) {visit : Exclusive.Visit Exclusive.Native} {expired : Bool}
  {others : ∀ key, Others key} {actor : Actor} {r : PrlResult × Service κ}

/-- Either the operation is not let in, or the edit runs between its registration and its release. -/
theorem atomic_cases (hactor : edit.m_actor = some actor)
    (h : Atomic enabled homePath visit expired edit others s = some r) :
    let d := actor.vmDirectoryUuid
    let registered := Exclusive.registerOp s.operations visit edit.m_uuid d .ctlApplyVmConfig
      actor.session "" expired
    (registered.1 ≠ .returned .success ∧ registered.2 = s.operations ∧ r.1 ≠ .success ∧
        r.2 = s) ∨
    (registered.1 = .returned .success ∧
      let u := Unlocked enabled homePath edit { s with operations := registered.2 }
      let during := (others (Exclusive.makeKey edit.m_uuid d)).operations.foldl
        Operation.apply registered.2
      r = (u.1, { u.2 with operations := (Exclusive.unregisterOp during edit.m_uuid d
        .ctlApplyVmConfig actor.session).2 })) := by
  dsimp only
  unfold Atomic at h
  rw [hactor] at h
  dsimp only at h
  have hcases := Exclusive.registerOp_cases s.operations visit edit.m_uuid actor.vmDirectoryUuid
    .ctlApplyVmConfig actor.session "" expired
  cases hregistered : Exclusive.registerOp s.operations visit edit.m_uuid actor.vmDirectoryUuid
      .ctlApplyVmConfig actor.session "" expired with
  | mk pass operations =>
      rw [hregistered] at h hcases
      cases pass with
      | again => cases h
      | returned output =>
          dsimp only at h hcases ⊢
          by_cases houtput : output = .success
          · subst houtput
            rw [if_neg (by decide)] at h
            refine .inr ⟨rfl, ?_⟩
            rw [unlocked_operations] at h
            exact (Option.some.inj h).symm
          · have hfailed : output.failed = true := by simpa [PrlResult.failed] using houtput
            rw [if_pos hfailed] at h
            cases h
            obtain ⟨joined, -, heq⟩ | ⟨hsame, -⟩ := hcases
            · exact absurd (Exclusive.Pass.returned.inj (congrArg Prod.fst heq)) houtput
            · subst hsame
              exact .inl ⟨fun heq => houtput (Exclusive.Pass.returned.inj heq), rfl, houtput, rfl⟩

theorem atomic_leavesNothing (fit : Fit enabled homePath edit s)
    (h : Atomic enabled homePath visit expired edit others s = some r) :
    LeavesNothing edit (LetIn visit expired edit s ∧ Begins enabled edit s) s r := by
  unfold LeavesNothing
  cases hactor : edit.m_actor with
  | none =>
      unfold Atomic at h
      rw [hactor] at h
      cases h
      rfl
  | some actor =>
      dsimp only
      obtain ⟨hout, -, -, hsame⟩ | ⟨hin, hr⟩ := atomic_cases homePath hactor h
      · have hnot : ¬ LetIn visit expired edit s := by
          rintro ⟨actor', hactor', hin⟩
          rw [hactor] at hactor'
          cases hactor'
          exact hout hin
        refine ⟨fun o _ => ?_, fun k h => ?_, fun o u _ => ?_, fun _ path => ?_⟩
        · rw [hsame]
          exact ⟨rfl, fun h => hnot h.2.1⟩
        · rw [hsame] at h
          exact h
        · rw [hsame]
        · rw [hsame]
          exact ⟨rfl, rfl⟩
      · let s' := { s with operations := (Exclusive.registerOp s.operations visit edit.m_uuid
          actor.vmDirectoryUuid .ctlApplyVmConfig actor.session "" expired).2 }
        have fit' : Fit enabled homePath edit s' := fit
        have hclean := unlocked_leavesNothing homePath fit'
        unfold LeavesNothing at hclean
        rw [hactor] at hclean
        rw [hr]
        refine ⟨fun o hne => ?_, hclean.shots, hclean.others, hclean.files⟩
        obtain ⟨hmark, hno⟩ := hclean.marks o hne
        exact ⟨hmark, fun h => hno ⟨h.1, h.2.2⟩⟩

theorem atomic_released (h : Atomic enabled homePath visit expired edit others s = some r) :
    Released visit expired edit others s r.2 := by
  intro actor hactor
  dsimp only
  obtain ⟨hout, -, -, hsame⟩ | ⟨hin, hr⟩ := atomic_cases homePath hactor h
  · rw [if_neg hout, hsame]
  · rw [if_pos hin, hr]
    have hregistered : Exclusive.registerOp s.operations visit edit.m_uuid actor.vmDirectoryUuid
        .ctlApplyVmConfig actor.session "" expired =
          (.returned .success, (Exclusive.registerOp s.operations visit edit.m_uuid
            actor.vmDirectoryUuid .ctlApplyVmConfig actor.session "" expired).2) :=
      Prod.ext hin rfl
    have hsole := Exclusive.sole_foldl rfl (Exclusive.registerOp_sole hregistered)
      (others (Exclusive.makeKey edit.m_uuid actor.vmDirectoryUuid)).spares
    refine ⟨?_, fun key' => Exclusive.unregisterOp_sole actor.session hsole key'⟩
    have hmem := List.mem_singleton.mpr (rfl : (⟨"", actor.session, .ctlApplyVmConfig⟩ :
      Exclusive.Unit) = _)
    rw [← hsole] at hmem
    exact (List.mem_filter.mp hmem).1

end Atomic

section Edits

variable (enabled homePath) (visit : Exclusive.Visit Exclusive.Native) (expired : Bool)
  (edit : Edit κ) (others : ∀ key, Others key) (s : Service κ)

theorem leavesNothing_iff_fit :
    (LeavesNothing edit (Begins enabled edit s) s (Unlocked enabled homePath edit s) ∧
      ∀ r, Atomic enabled homePath visit expired edit others s = some r →
        LeavesNothing edit (LetIn visit expired edit s ∧ Begins enabled edit s) s r ∧
          Released visit expired edit others s r.2) ↔
      Fit enabled homePath edit s :=
  ⟨fun h => fit_of_leavesNothing homePath h.1, fun fit =>
    ⟨unlocked_leavesNothing homePath fit, fun _ h =>
      ⟨atomic_leavesNothing homePath fit h, atomic_released homePath h⟩⟩⟩

end Edits

/-- The action of an edit that is not possible. -/
def refused : Edit String where
  m_uuid := "vm"
  m_actor := some ⟨"dir", "session"⟩
  item := some (.vm "/vz/vm/config.pvs")
  action := fun x => (x, some .failure)

def stored : Service String where
  configs := fun _ => { main := .valid "config" }

/-- The mark is cleaned up under the uuid of the directory, and stays under the one of the VM. -/
theorem leavesNothing_fails :
    ¬ LeavesNothing refused (Begins true refused stored) stored
      (Unlocked true (fun _ => "/vz/vm/config.pvs") refused stored) := by
  intro h
  have hmark : (Unlocked true (fun _ => "/vz/vm/config.pvs") refused
      stored).2.dispatcher.mark "vm" "dir-vm" ≠ none := by decide
  exact (h.marks "vm" hmark).2 ⟨rfl, "config", rfl⟩

end DispService.Edit
