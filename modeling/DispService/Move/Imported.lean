import DispService.Move.Kept

/-! When the move of a template into a storage keeps it. Until the source is removed all is
undone; after that the copy would be swept away, so no step may fail. -/
namespace DispService.Move

open DispService.Lib DispService.Instrument

namespace Request

variable (r : Request)

/-- The storage takes the copy over. -/
def Imports : Prop :=
  r.log.failed = false ∧ r.Copies ∧ r.saveToFile.failed = false ∧ r.lock = true ∧
    r.push.failed = false

/-- The template is gone from the source for good, or none of it. -/
def HandoverSafe : Prop :=
  match r.clearAndDeleteDir with
  | none =>
      r.deleteVmDirectoryItem.failed = false ∧ r.persist.failed = false ∧
        r.insertVmDirectoryItem.failed = false
  | some left => r.Leaves left ∧ (left .source).config = true

def ImportSafe : Prop :=
  r.checkAndLock.failed = false → r.Imports → r.query.failed = false → r.HandoverSafe

end Request

variable {r : Request} {w : World}

/-- The undo steps once the template is in the storage. -/
def sweeps : List (World → World) :=
  [Command.sweep, Command.rollback]

theorem rollback_sweeps (hguard : w.m_guard = true) :
    Batch.rollback sweeps w = { w with target := none, template := none, m_guard := false } :=
  if_neg (by
    change ¬ (!w.m_guard) = true
    rw [hguard]
    exact Bool.false_ne_true)

theorem not_sound_lost (hsource : w.source = none) (htarget : w.target = none)
    {code : PrlResult} (hfail : code.failed = true) : ¬ Sound r (code, w) := by
  intro hsound
  obtain ⟨p, hkept⟩ := hsound.failed hfail
  obtain ⟨f, hf, -⟩ := hkept.complete
  cases p with
  | source => cases hsource.symm.trans hf
  | target => cases htarget.symm.trans hf

theorem not_sound_swept (hguard : w.m_guard = true) (hsource : w.source = none)
    {code : PrlResult} (hfail : code.failed = true) :
    ¬ Sound r (Batch.finish (code, sweeps, w)) := by
  rw [Batch.finish_failed hfail, rollback_sweeps hguard]
  have hsource : { w with target := none, template := none, m_guard := false }.source = none :=
    hsource
  exact not_sound_lost hsource rfl hfail

theorem register_eq (hguard : w.m_guard = true) :
    Command.register r w =
      if r.persist.failed then (r.persist, w)
      else if r.insertVmDirectoryItem.failed then (r.insertVmDirectoryItem, w)
      else (.success, { w with template := some .target }) := by
  have hok : PrlResult.success.failed = false := rfl
  unfold Command.register Command.m_instrument
  rw [hguard, Batch.execute_cons]
  cases hpersist : r.persist.failed <;> cases hinsert : r.insertVmDirectoryItem.failed <;>
    simp [Batch.loop, Batch.finish, Batch.rollback, hok, hguard, hpersist, hinsert]

/-- What is left to do when the source is gone. -/
theorem handed_over_sound (hguard : w.m_guard = true) (hsource : w.source = none) {g : Folder}
    (htarget : w.target = some g) (hcomplete : Complete r .target g)
    (hremoval : w.atRemoval = some (some g)) :
    Sound r (Batch.finish (Batch.loop
      [Chain.once (Command.deleteVmDirectoryItem r), Chain.once (Command.register r),
        Chain.once Command.commit] sweeps w)) ↔
      r.deleteVmDirectoryItem.failed = false ∧ r.persist.failed = false ∧
        r.insertVmDirectoryItem.failed = false := by
  cases hdelete : r.deleteVmDirectoryItem.failed
  swap
  · have hredo : (Chain.once (Command.deleteVmDirectoryItem r)).redo w =
        (r.deleteVmDirectoryItem, w) := if_pos hdelete
    rw [Batch.loop_failed (by rw [hredo]; exact hdelete), hredo]
    exact iff_of_false (not_sound_swept hguard hsource hdelete) fun hno => by cases hno.1
  let w' : World := { w with vmHome := none }
  have hredo : (Chain.once (Command.deleteVmDirectoryItem r)).redo w = (.success, w') :=
    if_neg (Bool.eq_false_iff.mp hdelete)
  have hregister : (Chain.once (Command.register r)).redo w' = Command.register r w' := rfl
  rw [Batch.loop_ok (by rw [hredo]; rfl), hredo, and_iff_right rfl]
  cases hpersist : r.persist.failed
  swap
  · have hredo : Command.register r w' = (r.persist, w') :=
      (@register_eq r w' hguard).trans (if_pos hpersist)
    rw [Batch.loop_failed (by rw [hregister, hredo]; exact hpersist), hregister, hredo]
    apply iff_of_false
    · exact @not_sound_swept r w' hguard hsource _ hpersist
    · exact fun hno => by cases hno.1
  cases hinsert : r.insertVmDirectoryItem.failed
  swap
  · have hredo : Command.register r w' = (r.insertVmDirectoryItem, w') := by
      rw [@register_eq r w' hguard, if_neg (Bool.eq_false_iff.mp hpersist), if_pos hinsert]
    rw [Batch.loop_failed (by rw [hregister, hredo]; exact hinsert), hregister, hredo]
    apply iff_of_false
    · exact @not_sound_swept r w' hguard hsource _ hinsert
    · exact fun hno => by cases hno.2
  have hredo : Command.register r w' = (.success, { w' with template := some .target }) := by
    rw [@register_eq r w' hguard, if_neg (Bool.eq_false_iff.mp hpersist),
      if_neg (Bool.eq_false_iff.mp hinsert)]
  have hcommit : (Chain.once Command.commit).redo { w' with template := some .target } =
      (.success, { w' with template := some .target, m_guard := false }) :=
    if_neg (by
      change ¬ (!w.m_guard) = true
      rw [hguard]
      exact Bool.false_ne_true)
  rw [Batch.loop_ok (by rw [hregister, hredo]; rfl), hregister, hredo,
    Batch.loop_ok (by rw [hcommit]; rfl), hcommit]
  apply iff_of_true _ ⟨rfl, rfl⟩
  refine ⟨(fun hno => by cases hno), fun _ => ⟨rfl, g, htarget, hcomplete⟩, ?_⟩
  intro f hf
  exact Or.inr ⟨g, Option.some.inj (hf.symm.trans hremoval), hcomplete⟩

/-- The template is in the storage, and the source is still there. -/
structure Stored (r : Request) (w : World) (g : Folder) : Prop where
  m_guard : w.m_guard = true
  vmHome : w.vmHome = some .source
  template : w.template = none
  source : w.source = r.world.source
  target : w.target = some g
  complete : Complete r .target g
  atRemoval : w.atRemoval = none

namespace Stored

variable {g : Folder} (h : Stored r w g)
include h

/-- What a removal that fails leaves is registered again, as it is. -/
theorem removal_failed {left : Place → Left} (hremove : r.clearAndDeleteDir = some left)
    (rest : Batch World) :
    Sound r (Batch.finish (Batch.loop (Chain.once (Command.remove r) :: rest) sweeps w)) ↔
      r.Leaves left ∧ (left .source).config = true := by
  have hredo : (Chain.once (Command.remove r)).redo w = (.cantRemoveEntry,
      { w with
        atRemoval := some w.target
        source := w.source.map (·.only (left .source))
        target := if r.nested then w.target.map (·.only (left .target)) else w.target }) := by
    unfold Chain.once Command.remove
    dsimp only
    rw [hremove]
  rw [Batch.loop_failed (by rw [hredo]; rfl), hredo, Batch.finish_failed rfl]
  rw [rollback_sweeps (by exact h.m_guard)]
  dsimp only
  rw [h.source]
  have hmem : ∀ x, x ∈ ((r.folder .source).only (left .source)).entries ↔
      (x ∈ r.home.entries [] ∧ x.2 ≠ some .config) ∧ (left .source).entries x.1 = true := by
    intro x
    unfold Folder.only Request.folder
    dsimp only
    rw [List.mem_filter, List.mem_filter, decide_eq_true_iff]
  constructor
  · intro hsound
    obtain ⟨p, hkept⟩ := hsound.failed rfl
    obtain rfl := hkept.place (q := .source) h.vmHome
    obtain ⟨f, hf, hcomplete⟩ := hkept.complete
    obtain rfl := Option.some.inj hf
    constructor
    · exact fun x hx hne => ((hmem x).mp (hcomplete.entries x hx hne)).2
    · have hpath := hcomplete.homePath
      unfold Folder.only at hpath
      cases hconfig : (left .source).config
      · rw [hconfig] at hpath
        cases hpath
      · rfl
  · rintro ⟨hleaves, hconfig⟩
    have hcomplete : Complete r .source ((r.folder .source).only (left .source)) :=
      ⟨if_pos hconfig, fun x hx hne => (hmem x).mpr ⟨⟨hx, hne⟩, hleaves x hx hne⟩⟩
    refine ⟨fun _ => ⟨.source, ?_, _, rfl, hcomplete⟩, (fun hno => by cases hno), ?_⟩
    · exact congrArg (Option.or · none) h.vmHome
    · exact fun _ _ => Or.inl ⟨_, rfl, hcomplete⟩

theorem removal_sound (hnested : r.nested = false) :
    Sound r (Batch.finish (Batch.loop
      [Chain.once (Command.remove r), Chain.once (Command.deleteVmDirectoryItem r),
        Chain.once (Command.register r), Chain.once Command.commit] sweeps w)) ↔
      r.HandoverSafe := by
  unfold Request.HandoverSafe
  split
  · rename_i hremove
    have hredo : (Chain.once (Command.remove r)).redo w = (.success,
        { w with atRemoval := some w.target, source := none }) := by
      unfold Chain.once Command.remove
      dsimp only
      rw [hremove, hnested]
      rfl
    rw [Batch.loop_ok (by rw [hredo]; rfl), hredo]
    exact @handed_over_sound r { w with atRemoval := some w.target, source := none } h.m_guard rfl
      g h.target h.complete (congrArg some h.target)
  · rename_i left hremove
    exact h.removal_failed hremove _

theorem query_sound (hnested : r.nested = false) :
    Sound r (Batch.finish (Batch.loop
      [Chain.once (Command.query r), Chain.once (Command.remove r),
        Chain.once (Command.deleteVmDirectoryItem r), Chain.once (Command.register r),
        Chain.once Command.commit] sweeps w)) ↔
      (r.query.failed = false → r.HandoverSafe) := by
  have hredo : (Chain.once (Command.query r)).redo w = (r.query, w) := rfl
  cases hquery : r.query.failed
  · rw [Batch.loop_ok (by rw [hredo]; exact hquery), hredo, forall_prop_of_true rfl]
    exact h.removal_sound hnested
  · rw [Batch.loop_failed (by rw [hredo]; exact hquery), hredo, Batch.finish_failed hquery,
      rollback_sweeps h.m_guard]
    have hw : Untouched r { w with target := none, template := none, m_guard := false } :=
      ⟨h.vmHome, h.source, h.atRemoval⟩
    apply iff_of_true
    · exact hw.sound hquery
    · exact fun hno => by cases hno

end Stored

theorem importStorage_eq (hw : w.source = r.world.source) :
    (∃ g, Command.importStorage r w = (.success, { w with target := some g }) ∧
      r.Imports ∧ Complete r .target g) ∨
    ∃ code : PrlResult, Command.importStorage r w = (code, w) ∧ code.failed = true ∧
      ¬ r.Imports := by
  have hsource : w.source = some (r.folder .source) := hw
  unfold Command.importStorage Request.Imports
  rw [hsource]
  dsimp only
  split
  · rename_i hfail
    exact Or.inr ⟨_, rfl, hfail, fun hno => Bool.false_ne_true (hno.1.symm.trans hfail)⟩
  rename_i hlog
  split
  · rename_i hfail
    refine Or.inr ⟨_, rfl, hfail, fun hno => ?_⟩
    exact Bool.false_ne_true ((copyTo_ok.mpr hno.2.1).symm.trans hfail)
  rename_i hcopies
  split
  · rename_i hfail
    exact Or.inr ⟨_, rfl, hfail, fun hno => Bool.false_ne_true (hno.2.2.1.symm.trans hfail)⟩
  rename_i hsave
  split
  · rename_i hfail
    refine Or.inr ⟨_, rfl, rfl, fun hno => ?_⟩
    rw [hno.2.2.2.1] at hfail
    cases hfail
  rename_i hlock
  split
  · rename_i hfail
    exact Or.inr ⟨_, rfl, hfail, fun hno => Bool.false_ne_true (hno.2.2.2.2.symm.trans hfail)⟩
  rename_i hpush
  have hcopies := copyTo_ok.mp (Bool.eq_false_iff.mpr hcopies)
  obtain ⟨f, hf, hentries⟩ := @copyTo_entries r (r.folder .source) hcopies
  refine Or.inl ⟨{ f with homePath := some .target }, ?_, ⟨?_, hcopies, ?_, ?_, ?_⟩, rfl, hentries⟩
  · rw [hf]
    rfl
  · exact Bool.eq_false_iff.mpr hlog
  · exact Bool.eq_false_iff.mpr hsave
  · rw [Bool.not_eq_true', Bool.not_eq_false] at hlock
    exact hlock
  · exact Bool.eq_false_iff.mpr hpush

theorem importBatch_iff : Sound r ((Chain.importBatch r).execute r.world) ↔ r.ImportSafe := by
  have hbegin : Command.begin_ r r.world =
      if r.checkAndLock.failed then (r.checkAndLock, r.world)
      else (.success, { r.world with m_guard := true }) := rfl
  unfold Chain.importBatch Request.ImportSafe
  rw [Batch.execute_cons]
  cases hlock : r.checkAndLock.failed
  swap
  · rw [hlock, if_pos rfl] at hbegin
    rw [Batch.loop_failed (by dsimp only; rw [hbegin]; exact hlock)]
    dsimp only
    rw [hbegin, Batch.finish_failed hlock]
    apply iff_of_true
    · exact (untouched_world r).sound hlock
    · exact fun hno => by cases hno
  let w : World := { r.world with m_guard := true }
  rw [hlock, if_neg Bool.false_ne_true] at hbegin
  rw [Batch.loop_ok (by dsimp only; rw [hbegin]; rfl)]
  dsimp only
  rw [hbegin, forall_prop_of_true rfl]
  rcases @importStorage_eq r w rfl with ⟨g, himport, himports, hcomplete⟩ |
    ⟨code, himport, hcode, hno⟩
  · have hstored : Stored r { w with target := some g } g :=
      ⟨rfl, rfl, rfl, rfl, rfl, hcomplete, rfl⟩
    rw [Batch.loop_ok (by dsimp only; rw [himport]; rfl)]
    dsimp only
    rw [himport, forall_prop_of_true himports]
    exact hstored.query_sound himports.2.1.1
  · rw [Batch.loop_failed (by dsimp only; rw [himport]; exact hcode)]
    dsimp only
    rw [himport, Batch.finish_failed hcode]
    apply iff_of_true
    · exact Untouched.sound ⟨rfl, rfl, rfl⟩ hcode
    · exact fun himports => absurd himports hno

end DispService.Move
