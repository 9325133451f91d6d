import DispService.Libvirt.Filter
import DispService.Restore.Handed

/-! The offline restore over an existing VM or container. A failure leaves what was there
exactly when it comes before the first move, or is one of those that the code reverts. -/
namespace DispService.Restore.Offline

open DispService.Lib FileSystem Libvirt.Filter

/-- The configuration that the VM is defined from. -/
inductive Definition where
  | old | new
deriving DecidableEq

structure World where
  fs : Fs
  domain : Definition
  filters : Filters

/-- A request to restore over a VM, with the answers to the calls that follow the restore
to the temporary folder. -/
structure VmRequest extends Target.Request where
  /-- The first load of the configuration; a failure is only traced. -/
  loadConfig : PrlResult
  saveVmConfig : PrlResult
  reloadConfig : PrlResult
  /-- The adapters of the configuration that is replaced, and of the one restored. -/
  adapters : List Adapter
  new_adapters : List Adapter
  mayDefine : Adapter → Bool
  mayUndefine : Adapter → Bool
  spawnPersistent : PrlResult
  /-- `none` where there is no converter. -/
  doV2V : Option PrlResult
  mayTrash : String → Bool

namespace VmRequest

/-- The adapters that are rolled back to: none if the configuration was not loaded. -/
def old_adapters (r : VmRequest) : List Adapter :=
  if r.loadConfig.failed then [] else r.adapters

end VmRequest

/-- A request to restore over a container, with the answers to the calls. -/
structure CtRequest extends Ploop.Request where
  /-- The request names a folder of its own. -/
  hasHome : Bool
  ctId : String
  sCtName : String
  name : String
  get_env_status : PrlResult
  running : Bool
  lock_env : Bool
  register_env : PrlResult
  set_env_uptime : PrlResult
  mayTrash : String → Bool

section Calls

variable (below : String → String → Bool)

/-- The owner of the assembly is gone. -/
def World.destroy (mayTrash : String → Bool) (a : Assembly) (w : World) : World :=
  { w with fs := a.destroy below mayTrash w.fs }

/-- The rest of `restoreVmOverExisting`, once the parts are moved. -/
def redefineVm (r : VmRequest) (a : Assembly) (w : World) : PrlResult × World :=
  if r.reloadConfig.failed then (r.reloadConfig, w.destroy below r.mayTrash a)
  else
    let r1 := define r.mayDefine r.new_adapters w.filters
    let w := { w with filters := r1.2 }
    if !r1.1 then
      let x := a.revert below w.fs
      (.vmApplyFilterConfigFailed, { w with fs := x.2 }.destroy below r.mayTrash x.1)
    else if r.spawnPersistent.failed then
      let x := a.revert below w.fs
      (r.spawnPersistent,
        { w with
          filters := rollback r.old_adapters r.new_adapters w.filters
          fs := x.2 }.destroy below r.mayTrash x.1)
    else
      let w := { w with domain := .new }
      if r.doV2V.any (·.failed) then (r.doV2V.getD .success, w.destroy below r.mayTrash a)
      else
        let ret := undefine_unused r.mayUndefine false r.old_adapters r.new_adapters w.filters
        let w := { w with filters := ret.2 }
        if !ret.1 then (.failure, w.destroy below r.mayTrash a)
        else (.success, w.destroy below r.mayTrash a)

def restoreVmOverExisting (r : VmRequest) (w : World) : PrlResult × World :=
  match Target.restoreVmToTargetPath below r.toRequest w.fs with
  | (e, none, fs) => (e, { w with fs := fs })
  | (_, some a, fs) =>
      let w := { w with fs := fs }
      if r.saveVmConfig.failed then (r.saveVmConfig, w.destroy below r.mayTrash a)
      else
        let d := a.do_ below w.fs
        let w := { w with fs := d.2.2 }
        if d.1.failed then (d.1, w.destroy below r.mayTrash d.2.1)
        else redefineVm below r d.2.1 w

/-- The loop that is left by `break`: what it comes to, and the assembly. -/
def restoreCtBody (r : CtRequest) (fs : Fs) : PrlResult × Option Assembly × Fs :=
  match Ploop.restoreCtToTargetPath below r.toRequest fs with
  | (e, none, fs) => (e, none, fs)
  | (_, some x, fs) =>
      -- what `do_` returns is overwritten
      let d := x.do_ below fs
      if r.register_env.failed then (r.register_env, some d.2.1, d.2.2)
      else (r.set_env_uptime, some d.2.1, d.2.2)

/-- The rest of `restoreCtOverExisting`, once the container is locked. -/
def replaceCt (r : CtRequest) (w : World) : PrlResult × World :=
  match restoreCtBody below r w.fs with
  | (e, none, fs) => (e, { w with fs := fs })
  | (e, some x, fs) =>
      if e.failed then
        let a := x.revert below fs
        let fs := clearAll below r.mayClear [r.m_sTargetPath] a.2
        (e, { w with fs := fs }.destroy below r.mayTrash a.1)
      else (e, { w with fs := fs }.destroy below r.mayTrash x)

/-- The registration and the uptime are set to those of the container that was there. -/
def restoreCtOverExisting (r : CtRequest) (w : World) : PrlResult × World :=
  if r.hasHome then (.backupRestoreExistingSetPrivate, w)
  else if r.ctId = "" ∨ r.sCtName = "" ∨ r.home = "" then (.backupRestoreInternalError, w)
  else if (if r.name = "" then r.sCtName else r.name) ≠ r.sCtName then (.badParameters, w)
  else if r.get_env_status.failed then (r.get_env_status, w)
  else if r.running then (.backupRestoreVmRunning, w)
  else if !r.lock_env then (.backupRestoreInternalError, w)
  else replaceCt below r w

/-- A failure leaves all as it was, and success is what it says. -/
def Sound (items : List Item) (kinds parts : String → Option Kind) (filters : Filters)
    (e : PrlResult × World) : Prop :=
  (e.1.failed = true →
    (∀ i ∈ items, e.2.fs i.dst = initial kinds i.dst) ∧ e.2.domain = .old ∧
      e.2.filters = filters) ∧
    (e.1.failed = false → ∀ i ∈ items, e.2.fs i.dst = initial parts i.from_)

namespace VmRequest

variable (r : VmRequest) (kinds : String → Option Kind) (filters : Filters)

def Definable : Prop :=
  ∀ a ∈ r.new_adapters, a.isEnabled = true → r.mayDefine a = true

/-- The filters of the old adapters that are gone can be undefined. -/
def Undefinable : Prop :=
  ∀ a ∈ r.old_adapters, a.name ∉ r.new_adapters.map Adapter.name → a.isEnabled = true →
    r.mayUndefine a = true

instance : Decidable r.Definable :=
  inferInstanceAs (Decidable (∀ a ∈ _, _ → _))

/-- The calls that follow the moves, none of which fails unless it is undone. -/
def Redefined : Prop :=
  let parts := r.parts kinds
  if r.reloadConfig.failed then False
  else if ¬ r.Definable then
    BackUndone parts r.items ∧ ∀ n, definedBy r.new_adapters n ≠ none → filters n = none
  else if r.spawnPersistent.failed then
    BackUndone parts r.items ∧ ∀ n, Kept r.old_adapters r.new_adapters filters n
  else r.doV2V.any (·.failed) = false ∧ r.Undefinable ∧ ∀ i ∈ r.items, SafeDone parts i

/-- The way that the calls take. -/
def Safe : Prop :=
  let parts := r.parts kinds
  if (Target.restoreVmToTargetPath below r.toRequest (initial kinds)).1.failed then True
  else if r.saveVmConfig.failed then ∀ i ∈ r.items, BackDropped parts i
  else if ¬ ∀ i ∈ r.items, Moves parts i then BackUndone parts r.items
  else r.Redefined kinds filters

end VmRequest

namespace CtRequest

variable (r : CtRequest) (kinds : String → Option Kind)

/-- The request is turned down before anything is done. -/
def Refused : Prop :=
  r.hasHome = true ∨ (r.ctId = "" ∨ r.sCtName = "" ∨ r.home = "") ∨
    (if r.name = "" then r.sCtName else r.name) ≠ r.sCtName ∨ r.get_env_status.failed = true ∨
    r.running = true ∨ r.lock_env = false

instance : Decidable r.Refused :=
  inferInstanceAs (Decidable (_ ∨ _ ∨ _ ∨ _ ∨ _ ∨ _))

/-- The way that the calls take. -/
def Safe : Prop :=
  let parts := r.parts kinds
  if r.Refused then True
  else if (Ploop.restoreCtToTargetPath below r.toRequest (initial kinds)).1.failed then True
  else if r.register_env.failed ∨ r.set_env_uptime.failed then
    BackUndone parts (Ploop.Flavor.items r.toRequest)
  else
    ∀ i ∈ Ploop.Flavor.items r.toRequest, Moves parts i ∧ SafeDone parts i

end CtRequest

variable {below} {items : List Item} {kinds parts : String → Option Kind} {filters : Filters}

theorem sound_failed {e : PrlResult × World} (h : e.1.failed = true) :
    Sound items kinds parts filters e ↔
      (∀ i ∈ items, e.2.fs i.dst = initial kinds i.dst) ∧ e.2.domain = .old ∧
        e.2.filters = filters := by
  unfold Sound
  simp [h]

theorem sound_ok {e : PrlResult × World} (h : e.1.failed = false) :
    Sound items kinds parts filters e ↔ ∀ i ∈ items, e.2.fs i.dst = initial parts i.from_ := by
  unfold Sound
  simp [h]

/-- The filters of the old adapters that are gone were all undefined. -/
theorem undefinable_iff (r : VmRequest) :
    (undefine_unused r.mayUndefine false r.old_adapters r.new_adapters filters).1 = true ↔
      r.Undefinable := by
  unfold undefine_unused
  rw [undefine_ok]
  unfold VmRequest.Undefinable
  apply forall_congr'
  intro a
  rw [List.mem_filter]
  simp

section Targets

variable {kinds' : String → Option Kind}

/-- The parts are where they were made, and nothing else is at the targets. -/
structure Built (below : String → String → Bool) (items : List Item)
    (kinds parts kinds' : String → Option Kind) : Prop where
  disjoint : Disjoint below items
  from_ : ∀ i ∈ items, i.from_ ≠ ""
  same : ∀ i ∈ items, SameAt parts kinds' i
  dst : ∀ i ∈ items, initial kinds' i.dst = initial kinds i.dst
  nonempty : items ≠ []

namespace Built

variable (h : Built below items kinds parts kinds') {f : Fs} (mayTrash : String → Bool)
include h

theorem dst_congr : (∀ i ∈ items, f i.dst = initial kinds i.dst) ↔
    ∀ i ∈ items, f i.dst = initial kinds' i.dst := by
  apply forall₂_congr
  intro i hi
  rw [h.dst i hi]

theorem from_congr : (∀ i ∈ items, f i.dst = initial parts i.from_) ↔
    ∀ i ∈ items, f i.dst = initial kinds' i.from_ := by
  apply forall₂_congr
  intro i hi
  unfold initial
  rw [(h.same i hi).1]

theorem moves : (∀ i ∈ items, Moves kinds' i) ↔ ∀ i ∈ items, Moves parts i :=
  forall₂_congr fun i hi => (h.same i hi).moves

theorem destroyed : (∀ i ∈ items, (build below items (initial kinds')).1.destroy below mayTrash
    (build below items (initial kinds')).2 i.dst = initial kinds i.dst) ↔
      ∀ i ∈ items, BackDropped parts i := by
  apply h.dst_congr.trans
  apply (destroyed_back h.disjoint h.from_).trans
  exact forall₂_congr fun i hi => (h.same i hi).backDropped

theorem failed (hfail : ¬ ∀ i ∈ items, Moves kinds' i) :
    (∀ i ∈ items, (doneWith below kinds' items).2.1.destroy below mayTrash
      (doneWith below kinds' items).2.2 i.dst = initial kinds i.dst) ↔ BackUndone parts items := by
  apply h.dst_congr.trans
  exact (failed_back h.disjoint h.from_ hfail).trans (backUndone_congr h.same)

theorem reverted {g : Fs} (hg : ∀ i ∈ items, g i.dst =
    ((doneWith below kinds' items).2.1.revert below (doneWith below kinds' items).2.2).2 i.dst) :
    (∀ i ∈ items, ((doneWith below kinds' items).2.1.revert below
      (doneWith below kinds' items).2.2).1.destroy below mayTrash g i.dst = initial kinds i.dst) ↔
        BackUndone parts items := by
  apply h.dst_congr.trans
  apply Iff.trans _ ((reverted_back h.disjoint h.from_).trans (backUndone_congr h.same))
  apply forall₂_congr
  intro i hi
  rw [destroy_reverted_dst h.disjoint g hi, hg i hi]

theorem committed_old (hall : ∀ i ∈ items, Moves kinds' i) :
    ¬ ∀ i ∈ items, (doneWith below kinds' items).2.1.destroy below mayTrash
      (doneWith below kinds' items).2.2 i.dst = initial kinds i.dst := by
  intro hold
  obtain ⟨i, hi⟩ := List.exists_mem_of_ne_nil _ h.nonempty
  exact committed_not_old h.disjoint h.from_ hall hi (h.dst_congr.mp hold i hi)

theorem committed (hall : ∀ i ∈ items, Moves kinds' i) :
    (∀ i ∈ items, (doneWith below kinds' items).2.1.destroy below mayTrash
      (doneWith below kinds' items).2.2 i.dst = initial parts i.from_) ↔
        ∀ i ∈ items, SafeDone parts i := by
  apply h.from_congr.trans
  apply forall₂_congr
  intro i hi
  exact (committed_new h.disjoint h.from_ hall hi).trans (h.same i hi).safeDone

end Built

end Targets

section Vm

variable {r : VmRequest} (h : r.Fresh below)

include h in
theorem vm_built {kinds' : String → Option Kind}
    (hsame : ∀ i ∈ r.items, SameAt (r.parts kinds) kinds' i) :
    Built below r.items kinds (r.parts kinds) kinds' where
  disjoint := h.disjoint
  from_ := h.from_
  same := hsame
  nonempty := List.append_ne_nil_of_right_ne_nil _ (List.cons_ne_nil _ _)
  dst := by
    intro i hi
    have hparts : r.parts kinds i.dst = kinds i.dst :=
      Target.parts_eq fun htemp => (h.temp _ htemp).dst hi (within_self _)
    unfold initial
    rw [(hsame i hi).2.1, hparts]

theorem redefined_iff {kinds' : String → Option Kind}
    (hbuilt : Built below r.items kinds (r.parts kinds) kinds')
    (hall : ∀ i ∈ r.items, Moves kinds' i) :
    Sound r.items kinds (r.parts kinds) filters
      (redefineVm below r (doneWith below kinds' r.items).2.1
        ⟨(doneWith below kinds' r.items).2.2, .old, filters⟩) ↔ r.Redefined kinds filters := by
  unfold redefineVm VmRequest.Redefined
  dsimp only
  by_cases hreload : r.reloadConfig.failed = true
  · rw [if_pos hreload, if_pos hreload]
    apply (sound_failed hreload).trans
    exact iff_false_intro fun hno => hbuilt.committed_old r.mayTrash hall hno.1
  rw [if_neg hreload, if_neg hreload]
  by_cases hdefine : r.Definable
  swap
  · have hno : (define r.mayDefine r.new_adapters filters).1 = false :=
      Bool.eq_false_iff.mpr fun hyes => hdefine (define_ok.mp hyes)
    rw [if_pos hdefine, if_pos (by rw [hno]; rfl)]
    apply (sound_failed rfl).trans
    exact and_congr (hbuilt.reverted r.mayTrash fun i hi => rfl)
      ((and_iff_right rfl).trans (define_failed_keeps_iff hno))
  have hyes : (define r.mayDefine r.new_adapters filters).1 = true := define_ok.mpr hdefine
  rw [if_neg (not_not_intro hdefine), if_neg (by rw [hyes]; exact Bool.false_ne_true)]
  by_cases hspawn : r.spawnPersistent.failed = true
  · rw [if_pos hspawn, if_pos hspawn]
    apply (sound_failed hspawn).trans
    exact and_congr (hbuilt.reverted r.mayTrash fun i hi => rfl)
      ((and_iff_right rfl).trans (rollback_keeps_iff r.old_adapters r.new_adapters hyes))
  rw [if_neg hspawn, if_neg hspawn]
  -- from here on the domain is the new one, and a failure comes too late
  by_cases hv2v : r.doV2V.any (·.failed) = true
  · have hfail : (r.doV2V.getD .success).failed = true := by
      revert hv2v
      cases r.doV2V with
      | none => exact fun hno => absurd hno Bool.false_ne_true
      | some e => exact id
    rw [if_pos hv2v]
    apply (sound_failed hfail).trans
    apply iff_of_false
    · exact fun hno => by cases hno.2.1
    · exact fun hno => Bool.false_ne_true (hno.1.symm.trans hv2v)
  rw [if_neg hv2v]
  by_cases hunused : r.Undefinable
  · have hret := (@undefinable_iff (define r.mayDefine r.new_adapters filters).2 r).mpr hunused
    rw [if_neg (by rw [hret]; exact Bool.false_ne_true)]
    apply (sound_ok rfl).trans
    apply (hbuilt.committed r.mayTrash hall).trans
    exact ⟨fun hsafe => ⟨Bool.eq_false_iff.mpr hv2v, hunused, hsafe⟩, fun hsafe => hsafe.2.2⟩
  · have hret := Bool.eq_false_iff.mpr fun hyes => hunused
      ((@undefinable_iff (define r.mayDefine r.new_adapters filters).2 r).mp hyes)
    rw [if_pos (by rw [hret]; rfl)]
    apply (sound_failed rfl).trans
    apply iff_of_false
    · exact fun hno => by cases hno.2.1
    · exact fun hno => hunused hno.2.1

include h in
/-- The restore over a VM is sound exactly when no call fails between the last move and
the definition of the filters, nor any after that of the domain, and what is undone comes
back. -/
theorem vm_iff : Sound r.items kinds (r.parts kinds) filters
    (restoreVmOverExisting below r ⟨initial kinds, .old, filters⟩) ↔
      r.Safe below kinds filters := by
  have hhanded := Target.handed_vm h kinds
  unfold restoreVmOverExisting VmRequest.Safe
  dsimp only
  generalize Target.restoreVmToTargetPath below r.toRequest (initial kinds) = e at hhanded ⊢
  obtain ⟨code, assembly, fs⟩ := e
  rcases hhanded with ⟨hfail, hnone, hdst⟩ | ⟨kinds', hsame, heq⟩
  · dsimp only at hfail hnone hdst
    subst hnone
    rw [if_pos hfail, iff_true]
    exact (sound_failed hfail).mpr ⟨hdst, rfl, rfl⟩
  · cases heq
    have hbuilt := vm_built h hsame
    have hdo : (build below r.items (initial kinds')).1.do_ below
      (build below r.items (initial kinds')).2 = doneWith below kinds' r.items := rfl
    have hmoves := @doneWith_failed below kinds' r.items h.disjoint
    have hsuccess : PrlResult.success.failed = false := rfl
    dsimp only
    rw [hdo, hsuccess, if_neg Bool.false_ne_true]
    by_cases hsave : r.saveVmConfig.failed = true
    · rw [if_pos hsave, if_pos hsave]
      apply (sound_failed hsave).trans
      exact (and_iff_left ⟨rfl, rfl⟩).trans (hbuilt.destroyed r.mayTrash)
    rw [if_neg hsave, if_neg hsave]
    by_cases hall : ∀ i ∈ r.items, Moves kinds' i
    · rw [if_neg (Bool.eq_false_iff.mp (hmoves.mpr hall)),
        if_neg (not_not_intro (hbuilt.moves.mp hall))]
      exact redefined_iff hbuilt hall
    · have hfail : (doneWith below kinds' r.items).1.failed = true := by
        rw [← Bool.not_eq_false, hmoves]
        exact hall
      rw [if_pos hfail, if_pos fun hno => hall (hbuilt.moves.mpr hno)]
      refine Iff.trans (sound_failed (by exact hfail)) ?_
      exact (and_iff_left ⟨rfl, rfl⟩).trans (hbuilt.failed r.mayTrash hall)

end Vm

section Ct

variable {r : CtRequest}

theorem ct_refused (h : r.Refused) (w : World) :
    (restoreCtOverExisting below r w).1.failed = true ∧ (restoreCtOverExisting below r w).2 = w := by
  unfold restoreCtOverExisting
  let P : PrlResult × World → Prop := fun e => e.1.failed = true ∧ e.2 = w
  have hite : ∀ {c : Prop} [Decidable c] {a b}, (c → P a) → (¬ c → P b) → P (if c then a else b) :=
    fun ha hb => iteInduction (motive := P) ha hb
  refine hite (fun _ => ⟨rfl, rfl⟩) fun hhome => ?_
  refine hite (fun _ => ⟨rfl, rfl⟩) fun hnames => ?_
  refine hite (fun _ => ⟨rfl, rfl⟩) fun hname => ?_
  refine hite (fun hstatus => ⟨hstatus, rfl⟩) fun hstatus => ?_
  refine hite (fun _ => ⟨rfl, rfl⟩) fun hrunning => ?_
  refine hite (fun _ => ⟨rfl, rfl⟩) fun hlock => ?_
  rcases h with h | h | h | h | h | h
  · exact absurd h hhome
  · exact absurd h hnames
  · exact absurd h hname
  · exact absurd h hstatus
  · exact absurd h hrunning
  · exact absurd (by rw [h]; rfl) hlock

theorem ct_locked (h : ¬ r.Refused) (w : World) :
    restoreCtOverExisting below r w = replaceCt below r w := by
  obtain ⟨hhome, h⟩ := not_or.mp h
  obtain ⟨hnames, h⟩ := not_or.mp h
  obtain ⟨hname, h⟩ := not_or.mp h
  obtain ⟨hstatus, h⟩ := not_or.mp h
  obtain ⟨hrunning, hlock⟩ := not_or.mp h
  unfold restoreCtOverExisting
  rw [if_neg hhome, if_neg hnames, if_neg hname, if_neg hstatus, if_neg hrunning]
  cases hopen : r.lock_env
  · exact absurd hopen hlock
  · rfl

variable (h : r.Fresh below)
include h

theorem ct_dst {i : Item} (hi : i ∈ Ploop.Flavor.items r.toRequest) {d : String}
    (hd : r.Temp d) : ¬ Within below d i.dst :=
  (h.temp d hd).dst hi

theorem ct_built {kinds' : String → Option Kind}
    (hsame : ∀ i ∈ Ploop.Flavor.items r.toRequest, SameAt (r.parts kinds) kinds' i) :
    Built below (Ploop.Flavor.items r.toRequest) kinds (r.parts kinds) kinds' where
  disjoint := h.disjoint
  from_ := h.from_
  same := hsame
  nonempty := List.cons_ne_nil _ _
  dst := by
    intro i hi
    have hparts : r.parts kinds i.dst = kinds i.dst :=
      Ploop.parts_eq fun htemp => ct_dst h hi htemp (within_self _)
    unfold initial
    rw [(hsame i hi).2.1, hparts]

theorem ct_from {i : Item} (hi : i ∈ Ploop.Flavor.items r.toRequest) :
    r.parts kinds i.from_ ≠ none := by
  unfold Ploop.Request.parts placed
  have hmem : i.from_ ∈
      r.m_sTargetPath :: r.imageList.map (·.m_intermediate.absoluteFilePath) := by
    cases Ploop.from_cases hi (h.from_ i hi) with
    | inl htarget => exact htarget ▸ List.mem_cons_self
    | inr himage => exact List.mem_cons_of_mem _ himage
  rw [if_neg List.not_mem_nil, if_pos hmem]
  exact Option.some_ne_none _

/-- The restore over a container is sound exactly when what is reverted comes back, or
`do_`, whose result is not looked at, moves all the parts. -/
theorem ct_iff : Sound (Ploop.Flavor.items r.toRequest) kinds (r.parts kinds) filters
    (restoreCtOverExisting below r ⟨initial kinds, .old, filters⟩) ↔ r.Safe below kinds := by
  unfold CtRequest.Safe
  by_cases hrefused : r.Refused
  · obtain ⟨hfail, hworld⟩ := @ct_refused below r hrefused ⟨initial kinds, .old, filters⟩
    rw [if_pos hrefused, iff_true]
    apply (sound_failed hfail).mpr
    rw [hworld]
    exact ⟨fun _ _ => rfl, rfl, rfl⟩
  rw [if_neg hrefused, ct_locked hrefused]
  have hhanded := Ploop.handed_ct h kinds
  unfold replaceCt restoreCtBody
  dsimp only
  generalize Ploop.restoreCtToTargetPath below r.toRequest (initial kinds) = e at hhanded ⊢
  obtain ⟨code, assembly, fs⟩ := e
  rcases hhanded with ⟨hfail, hnone, hdst⟩ | ⟨kinds', hsame, heq⟩
  · dsimp only at hfail hnone hdst
    subst hnone
    rw [if_pos hfail, iff_true]
    exact (sound_failed hfail).mpr ⟨hdst, rfl, rfl⟩
  · cases heq
    have hbuilt := ct_built h hsame
    have hdo : (build below (Ploop.Flavor.items r.toRequest) (initial kinds')).1.do_ below
      (build below (Ploop.Flavor.items r.toRequest) (initial kinds')).2 =
        doneWith below kinds' (Ploop.Flavor.items r.toRequest) := rfl
    have hsuccess : PrlResult.success.failed = false := rfl
    have hkeep : ∀ (fs : Fs), ∀ i ∈ Ploop.Flavor.items r.toRequest,
        clearAll below r.mayClear [r.m_sTargetPath] fs i.dst = fs i.dst := by
      intro fs i hi
      apply clearAll_apply
      intro d hd
      exact ct_dst h hi (Or.inl (List.mem_singleton.mp hd))
    dsimp only
    rw [hdo, hsuccess, if_neg Bool.false_ne_true]
    by_cases hregister : r.register_env.failed = true
    · rw [if_pos hregister, if_pos (Or.inl hregister)]
      dsimp only
      rw [if_pos hregister]
      apply (sound_failed hregister).trans
      exact (and_iff_left ⟨rfl, rfl⟩).trans (hbuilt.reverted r.mayTrash (hkeep _))
    rw [if_neg hregister]
    dsimp only
    by_cases huptime : r.set_env_uptime.failed = true
    · rw [if_pos huptime, if_pos (Or.inr huptime)]
      apply (sound_failed huptime).trans
      exact (and_iff_left ⟨rfl, rfl⟩).trans (hbuilt.reverted r.mayTrash (hkeep _))
    rw [if_neg huptime, if_neg (not_or_intro hregister huptime)]
    apply (sound_ok (Bool.eq_false_iff.mpr huptime)).trans
    by_cases hall : ∀ i ∈ Ploop.Flavor.items r.toRequest, Moves kinds' i
    · apply (hbuilt.committed r.mayTrash hall).trans
      apply forall₂_congr
      intro i hi
      exact (and_iff_right (hbuilt.moves.mp hall i hi)).symm
    · apply iff_of_false
      · rw [hbuilt.from_congr]
        apply failed_ne h.disjoint h.from_ hall
        intro i hi
        rw [(hsame i hi).1]
        exact ct_from h hi
      · intro hmoved
        exact hall (hbuilt.moves.mpr fun i hi => (hmoved i hi).1)

end Ct

/-- The offline restore over what exists is sound exactly on the ways that are safe. -/
theorem sound_iff (below : String → String → Bool) (kinds : String → Option Kind) :
    (∀ (r : VmRequest) (filters : Filters), r.Fresh below →
      (Sound r.items kinds (r.parts kinds) filters
        (restoreVmOverExisting below r ⟨initial kinds, .old, filters⟩) ↔
          r.Safe below kinds filters)) ∧
      ∀ (r : CtRequest) (filters : Filters), r.Fresh below →
        (Sound (Ploop.Flavor.items r.toRequest) kinds (r.parts kinds) filters
          (restoreCtOverExisting below r ⟨initial kinds, .old, filters⟩) ↔
            r.Safe below kinds) :=
  ⟨fun _ _ h => vm_iff h, fun _ _ h => ct_iff h⟩

/-- A VM without disks; the last argument is the answer to the reload. -/
def diskless (reloadConfig : PrlResult) : VmRequest where
  home := "/vz/a"
  m_sTargetPath := "/vz/a.1.restore"
  tibs := []
  operationIsCancelled := false
  convertHardware := none
  isBad := false
  mkdirHome := .success
  escort := .success
  checkFreeDiskSpace := .success
  sendPkg := .success
  fixHardWareList := .success
  chown := .success
  may := fun _ _ => true
  mayClear := fun _ => true
  loadConfig := .success
  saveVmConfig := .success
  reloadConfig := reloadConfig
  adapters := []
  new_adapters := []
  mayDefine := fun _ => true
  mayUndefine := fun _ => true
  spawnPersistent := .success
  doV2V := none
  mayTrash := fun _ => true

/-- A container without disks elsewhere; the argument says whether its folder can be moved. -/
def imageless (may : Bool) : CtRequest where
  home := "/vz/a"
  m_sTargetPath := "/vz/a.1.restore"
  imageList := []
  operationIsCancelled := false
  mkdirTarget := .success
  ploop := true
  getFiles := .success
  create_env_private := true
  finish := .success
  may := fun _ site => site != .do_ || may
  mayClear := fun _ => true
  hasHome := false
  ctId := "101"
  sCtName := "a"
  name := ""
  get_env_status := .success
  running := false
  lock_env := true
  register_env := .success
  set_env_uptime := .success
  mayTrash := fun _ => true

def home (path : String) : Option Kind :=
  if path = "/vz/a" then some .folder else none

/-- The folder that is moved in both. -/
def homeItem (may : Site → Bool) : Item :=
  ⟨false, ⟨"/vz/a.1.restore", "/vz/a.1.restore"⟩, "/vz/a", may⟩

theorem homeItem_from (may : Site → Bool) : (homeItem may).from_ = "/vz/a.1.restore" :=
  rfl

theorem homeItem_restore (may : Site → Bool) : (homeItem may).restore = "/vz/a.restore" :=
  rfl

theorem homeItem_clear (may : Site → Bool) : Clear pathBelow [homeItem may] "/vz/a.1.restore" := by
  intro i hi p hp
  obtain rfl := List.mem_singleton.mp hi
  constructor
  · intro (hdst : Within pathBelow "/vz/a" p)
    exact absurd (within_comparable hp hdst) (by decide)
  · rw [homeItem_restore]
    intro hrestore
    exact absurd (within_comparable hp hrestore) (by decide)

theorem homeItem_disjoint (may : Site → Bool) : Disjoint pathBelow [homeItem may] where
  own := by
    intro i hi _
    obtain rfl := List.mem_singleton.mp hi
    have hdst : (homeItem may).dst = "/vz/a" := rfl
    constructor
    · rw [homeItem_from, hdst]
      unfold Apart
      decide
    · rw [homeItem_from, homeItem_restore]
      unfold Apart
      decide
    · rw [hdst, homeItem_restore]
      unfold Apart
      decide
  each := List.pairwise_singleton _ _
  trash := by
    intro i hi hext
    obtain rfl := List.mem_singleton.mp hi
    cases hext

theorem homeItem_from_ne (may : Site → Bool) : ∀ i ∈ [homeItem may], i.from_ ≠ "" := by
  intro i hi
  obtain rfl := List.mem_singleton.mp hi
  rw [homeItem_from]
  decide

theorem diskless_fresh (reloadConfig : PrlResult) : (diskless reloadConfig).Fresh pathBelow where
  from_ := homeItem_from_ne _
  disjoint := homeItem_disjoint _
  temp := by
    rintro d (rfl | ⟨x, hx, -⟩)
    · exact homeItem_clear _
    · cases hx
  left := by
    rintro d ⟨-, ⟨x, hx, -⟩, -⟩
    cases hx

theorem imageless_fresh (may : Bool) : (imageless may).Fresh pathBelow where
  from_ := homeItem_from_ne _
  disjoint := homeItem_disjoint _
  temp := by
    rintro d (rfl | ⟨x, hx, -⟩)
    · exact homeItem_clear _
    · cases hx

/-- All calls are carried out, and both are restored. -/
theorem sound_home :
    Sound (diskless .success).items home ((diskless .success).parts home) (fun _ => none)
        (restoreVmOverExisting pathBelow (diskless .success) ⟨initial home, .old, fun _ => none⟩) ∧
      Sound (Ploop.Flavor.items (imageless true).toRequest) home ((imageless true).parts home)
        (fun _ => none)
        (restoreCtOverExisting pathBelow (imageless true) ⟨initial home, .old, fun _ => none⟩) := by
  constructor
  · apply ((sound_iff pathBelow home).1 (diskless .success) (fun _ => none)
      (diskless_fresh .success)).mpr
    unfold VmRequest.Safe VmRequest.Redefined
    dsimp only
    rw [if_neg (by decide), if_neg (by decide), if_neg (by decide), if_neg (by decide),
      if_neg (by decide), if_neg (by decide)]
    exact ⟨rfl, fun a ha => absurd ha List.not_mem_nil, by decide⟩
  · apply ((sound_iff pathBelow home).2 (imageless true) (fun _ => none)
      (imageless_fresh true)).mpr
    unfold CtRequest.Safe
    dsimp only
    rw [if_neg (by decide), if_neg (by decide), if_neg (by decide)]
    decide

/-- The configuration cannot be loaded again after the move, and the assembly that is not
reverted removes the old folder. The folder of a container cannot be moved, and the restore
is a success. -/
theorem not_sound_home :
    ¬ Sound (diskless .failure).items home ((diskless .failure).parts home) (fun _ => none)
        (restoreVmOverExisting pathBelow (diskless .failure) ⟨initial home, .old, fun _ => none⟩) ∧
      ¬ Sound (Ploop.Flavor.items (imageless false).toRequest) home ((imageless false).parts home)
        (fun _ => none)
        (restoreCtOverExisting pathBelow (imageless false)
          ⟨initial home, .old, fun _ => none⟩) := by
  constructor
  · intro h
    have hold := (h.1 (by decide)).1 _ (List.mem_singleton.mpr rfl)
    revert hold
    decide
  · intro h
    have hnew := h.2 (by decide) _ (List.mem_singleton.mpr rfl)
    revert hnew
    decide

end Calls

end DispService.Restore.Offline
