import DispService.Lib.Run
import DispService.Patches.Logic
import Mathlib.Data.List.Nodup

/-! Which patches are marked, which are stored, and when no patch is lost through a sequence of
starts: just when each visit that loads a configuration and cannot save it had no key pending that
stands for a patch the configuration is without. -/
namespace DispService.Patches
open Lib

variable {γ : Type}

theorem MAKE_VM_KEY_injective : Function.Injective MAKE_VM_KEY := by
  intro vm vm' h
  have hlists : vm.vmDirUuid.text.toList ++ ("-".toList ++ vm.vmUuid.text.toList) =
      vm'.vmDirUuid.text.toList ++ ("-".toList ++ vm'.vmUuid.text.toList) := by
    have := congrArg String.toList h
    simpa [MAKE_VM_KEY, String.toList_append] using this
  have hlength : vm.vmDirUuid.text.toList.length = vm'.vmDirUuid.text.toList.length := by
    rw [String.length_toList, String.length_toList, vm.vmDirUuid.length_eq,
      vm'.vmDirUuid.length_eq]
  obtain ⟨hdir, hrest⟩ := List.append_inj hlists hlength
  have huuid := List.append_cancel_left hrest
  obtain ⟨⟨d, hd⟩, ⟨v, hv⟩⟩ := vm
  obtain ⟨⟨d', hd'⟩, ⟨v', hv'⟩⟩ := vm'
  obtain rfl : d = d' := String.toList_inj.mp hdir
  obtain rfl : v = v' := String.toList_inj.mp huuid
  rfl

section Each

variable (e : Effects γ) (lstPatches : PKeyId → Bool)

theorem needApplyPatch_init (p : XmlPatch) : p.needApplyPatch .pkInitService = true := by
  unfold XmlPatch.needApplyPatch
  split <;> rfl

/-- The patch takes effect when it is executed, the one of the displays with its key. -/
def Effective (p : XmlPatch) : Prop :=
  p = CPatchVmMultiDisplay → lstPatches .bug438530_MultiDisplay = true

/-- What the loop over patches of different fields makes of a configuration. -/
structure Executed (ps : List XmlPatch) (before : VmConfiguration γ)
    (r : Bool × VmConfiguration γ) (flag : Bool) : Prop where
  stamped : ∀ p ∈ ps, p.isFieldPatched r.2 = true
  others : ∀ path, path ∉ ps.map (·.m_qsPath) → r.2.patchStamp path = before.patchStamp path
  patched : ∀ q, r.2.patched q = true ↔ before.patched q = true ∨
    ∃ p ∈ ps, q = .xml p ∧ p.isFieldPatched before = false ∧ Effective lstPatches p
  flag : r.1 = true ↔ flag = true ∨ ∃ p ∈ ps, p.isFieldPatched before = false
  idle : (∀ p ∈ ps, p.isFieldPatched before = true) → r.2 = before

theorem tryToPatch_stamped {p : XmlPatch} {x : VmConfiguration γ}
    (h : p.isFieldPatched x = true) :
    p.tryToPatch e .pkInitService lstPatches x = (false, x) := by
  simp [XmlPatch.tryToPatch, h]

theorem tryToPatch_unstamped {p : XmlPatch} {x : VmConfiguration γ}
    (h : p.isFieldPatched x = false) :
    p.tryToPatch e .pkInitService lstPatches x =
      (true, p.markAsPatched (p.patch e .pkInitService lstPatches x)) := by
  simp [XmlPatch.tryToPatch, h, needApplyPatch_init]

theorem patch_stamp (p : XmlPatch) (x : VmConfiguration γ) :
    (p.patch e .pkInitService lstPatches x).patchStamp = x.patchStamp := by
  unfold XmlPatch.patch
  dsimp only
  split <;> rfl

theorem patch_patched (p : XmlPatch) (x : VmConfiguration γ) (q : Patch) :
    (p.patch e .pkInitService lstPatches x).patched q = true ↔
      x.patched q = true ∨ (q = .xml p ∧ Effective lstPatches p) := by
  have heffective : (p = CPatchVmMultiDisplay ∧
      (lstPatches .bug438530_MultiDisplay ||
        decide (PatcherKind.pkInitService ≠ .pkInitService)) = false) ↔
      ¬ Effective lstPatches p := by
    simp [Effective]
  unfold XmlPatch.patch
  dsimp only
  by_cases h : Effective lstPatches p
  · rw [if_neg fun hno => heffective.mp hno h]
    by_cases hq : q = .xml p <;> simp [VmConfiguration.apply, hq, h]
  · rw [if_pos (heffective.mpr h)]
    simp [h]

section Try

variable (p : XmlPatch) (x : VmConfiguration γ)

theorem tryToPatch_flag :
    (p.tryToPatch e .pkInitService lstPatches x).1 = true ↔ p.isFieldPatched x = false := by
  cases h : p.isFieldPatched x with
  | true => simp [tryToPatch_stamped e lstPatches h]
  | false => simp [tryToPatch_unstamped e lstPatches h]

theorem tryToPatch_field :
    p.isFieldPatched (p.tryToPatch e .pkInitService lstPatches x).2 = true := by
  cases h : p.isFieldPatched x with
  | true =>
      rw [tryToPatch_stamped e lstPatches h]
      exact h
  | false =>
      rw [tryToPatch_unstamped e lstPatches h]
      simp [XmlPatch.isFieldPatched, XmlPatch.markAsPatched]

theorem tryToPatch_others {path : String} (hpath : path ≠ p.m_qsPath) :
    (p.tryToPatch e .pkInitService lstPatches x).2.patchStamp path = x.patchStamp path := by
  cases h : p.isFieldPatched x with
  | true => rw [tryToPatch_stamped e lstPatches h]
  | false =>
      rw [tryToPatch_unstamped e lstPatches h]
      dsimp only [XmlPatch.markAsPatched]
      rw [Function.update_of_ne hpath, patch_stamp]

theorem tryToPatch_patched (q : Patch) :
    (p.tryToPatch e .pkInitService lstPatches x).2.patched q = true ↔
      x.patched q = true ∨
        (q = .xml p ∧ p.isFieldPatched x = false ∧ Effective lstPatches p) := by
  cases h : p.isFieldPatched x with
  | true => simp [tryToPatch_stamped e lstPatches h]
  | false =>
      rw [tryToPatch_unstamped e lstPatches h]
      simpa [XmlPatch.markAsPatched] using patch_patched e lstPatches p x q

end Try

theorem applyEach_executed {ps : List XmlPatch} (distinct : (ps.map (·.m_qsPath)).Nodup)
    (flag : Bool) (x : VmConfiguration γ) :
    Executed lstPatches ps x (applyEach e .pkInitService lstPatches ps flag x) flag := by
  induction ps generalizing flag x with
  | nil =>
      exact ⟨nofun, fun _ _ => rfl, fun q => by simp [applyEach], by simp [applyEach],
        fun _ => rfl⟩
  | cons p ps ih =>
      rw [List.map_cons, List.nodup_cons] at distinct
      obtain ⟨hp, distinct⟩ := distinct
      let t := p.tryToPatch e .pkInitService lstPatches x
      have hrun : applyEach e .pkInitService lstPatches (p :: ps) flag x =
          applyEach e .pkInitService lstPatches ps (flag || t.1) t.2 := rfl
      have hrest := ih distinct (flag || t.1) t.2
      rw [← hrun] at hrest
      have hfield : ∀ p' ∈ ps, p'.isFieldPatched t.2 = p'.isFieldPatched x := by
        intro p' hp'
        have hpath : p'.m_qsPath ≠ p.m_qsPath := fun heq => hp (heq ▸ List.mem_map_of_mem hp')
        unfold XmlPatch.isFieldPatched
        rw [tryToPatch_others e lstPatches p x hpath]
      constructor
      · intro p' hp'
        rcases List.mem_cons.mp hp' with rfl | hp'
        · unfold XmlPatch.isFieldPatched
          rw [hrest.others _ hp]
          exact tryToPatch_field e lstPatches p' x
        · exact hrest.stamped p' hp'
      · intro path hpath
        rw [List.map_cons, List.mem_cons, not_or] at hpath
        rw [hrest.others path hpath.2]
        exact tryToPatch_others e lstPatches p x hpath.1
      · intro q
        rw [hrest.patched q, tryToPatch_patched, or_assoc]
        refine or_congr_right ?_
        rw [List.exists_mem_cons_iff]
        refine or_congr_right (exists_congr fun p' => and_congr_right fun hp' => ?_)
        rw [hfield p' hp']
      · rw [hrest.flag, Bool.or_eq_true, tryToPatch_flag, or_assoc, List.exists_mem_cons_iff]
        refine or_congr_right (or_congr_right
          (exists_congr fun p' => and_congr_right fun hp' => ?_))
        rw [hfield p' hp']
      · intro hidle
        have hsame : t.2 = x := by
          simp only [t, tryToPatch_stamped e lstPatches (hidle p (List.mem_cons_self ..))]
        rw [hrest.idle fun p' hp' => (hfield p' hp').trans (hidle p' (List.mem_cons_of_mem p hp')),
          hsame]

theorem paths_distinct : (getXmlPatches.map (·.m_qsPath)).Nodup := by
  decide

theorem applyXmlPatches_executed (x : VmConfiguration γ) :
    Executed lstPatches getXmlPatches x (applyXmlPatches e .pkInitService lstPatches x) false :=
  applyEach_executed e lstPatches paths_distinct false x

end Each

section Loaded

variable (e : Effects γ) {lstPatches : PKeyId → Bool} {x : VmConfiguration γ} {q : Patch}

theorem apply_if_patched {key : Bool} {q' : Patch} {f : γ → γ} :
    (if key = true then x.apply q' f else x).patched q = true ↔
      x.patched q = true ∨ (q = q' ∧ key = true) := by
  cases key with
  | false => simp
  | true => by_cases hq : q = q' <;> simp [VmConfiguration.apply, hq]

theorem apply_if_stamp {key : Bool} {q' : Patch} {f : γ → γ} :
    (if key = true then x.apply q' f else x).patchStamp = x.patchStamp := by
  split <;> rfl

theorem isFieldPatched_congr {y : VmConfiguration γ} (h : y.patchStamp = x.patchStamp)
    (p : XmlPatch) : p.isFieldPatched y = p.isFieldPatched x := by
  unfold XmlPatch.isFieldPatched
  rw [h]

theorem patchLoaded_stamped {p : XmlPatch} (hp : p ∈ getXmlPatches) :
    p.isFieldPatched (patchLoaded e lstPatches x).2 = true := by
  unfold patchLoaded
  dsimp only
  rw [isFieldPatched_congr apply_if_stamp]
  exact (applyXmlPatches_executed e lstPatches _).stamped p hp

theorem patchLoaded_patched :
    (patchLoaded e lstPatches x).2.patched q = true ↔
      x.patched q = true ∨
        (q = .serverUuid ∧ lstPatches .bug7938_ShouldFixServerUuidInVmConfigs = true) ∨
        (q = .hostMacs ∧ lstPatches .PSBM_13394_vmNetworkAdapterHostMac = true) ∨
        (∃ p ∈ getXmlPatches, q = .xml p ∧ p.isFieldPatched x = false ∧
          Effective lstPatches p) ∨
        (q = .appVersion ∧ lstPatches .bug477998_app_version = true) := by
  unfold patchLoaded
  dsimp only
  rw [apply_if_patched, (applyXmlPatches_executed e lstPatches _).patched, apply_if_patched,
    apply_if_patched]
  simp only [isFieldPatched_congr apply_if_stamp, or_assoc]

theorem patchLoaded_flag :
    (patchLoaded e lstPatches x).1 = true ↔
      lstPatches .bug7938_ShouldFixServerUuidInVmConfigs = true ∨
        lstPatches .PSBM_13394_vmNetworkAdapterHostMac = true ∨
        (∃ p ∈ getXmlPatches, p.isFieldPatched x = false) ∨
        lstPatches .bug477998_app_version = true := by
  unfold patchLoaded
  simp only [Bool.or_eq_true, (applyXmlPatches_executed e lstPatches _).flag,
    isFieldPatched_congr apply_if_stamp, Bool.false_eq_true, false_or, or_assoc]

/-- The configuration has the patch of a key that was pending. -/
theorem patchLoaded_key {k : PKeyId} (hq : k.content = some q) (hk : lstPatches k = true)
    (hmulti : CPatchVmMultiDisplay.isFieldPatched x = true →
      x.patched (.xml CPatchVmMultiDisplay) = true) :
    (patchLoaded e lstPatches x).2.patched q = true := by
  rw [patchLoaded_patched]
  cases k with
  | bug7938_ShouldFixServerUuidInVmConfigs =>
      cases hq
      exact .inr (.inl ⟨rfl, hk⟩)
  | bug438530_MultiDisplay =>
      cases hq
      cases hstamp : CPatchVmMultiDisplay.isFieldPatched x with
      | true => exact .inl (hmulti hstamp)
      | false =>
          exact .inr (.inr (.inr (.inl
            ⟨CPatchVmMultiDisplay, List.mem_cons_self .., rfl, hstamp, fun _ => hk⟩)))
  | bug477998_app_version =>
      cases hq
      exact .inr (.inr (.inr (.inr ⟨rfl, hk⟩)))
  | PWE_3918_changeAutoStartLoadOption => cases hq
  | PSBM_13394_vmNetworkAdapterHostMac =>
      cases hq
      exact .inr (.inr (.inl ⟨rfl, hk⟩))

end Loaded

/-- A key is set for the VM, or was set for all. -/
def State.Known (s : State γ) (vm : VmIdent) (k : PKeyId) : Prop :=
  s.isSet k (some (MAKE_VM_KEY vm)) = true ∨ s.isSet k none = true

theorem pending_iff (s : State γ) (vm : VmIdent) (k : PKeyId) :
    pending s vm k = true ↔ ¬ s.Known vm k := by
  simp [pending, State.Known]

/-- What is known to be patched is, and what a key stands for is patched only if it is known or the
field has its stamp. -/
structure Backed (s : State γ) : Prop where
  keys : ∀ vm k q, k.content = some q → s.Known vm k → (s.configs vm).patched q = true
  stamps : ∀ vm, ∀ p ∈ getXmlPatches, p.isFieldPatched (s.configs vm) = true →
    (s.configs vm).patched (.xml p) = true
  only : ∀ vm k q, k.content = some q → (s.configs vm).patched q = true →
    s.Known vm k ∨
      (k = .bug438530_MultiDisplay ∧ CPatchVmMultiDisplay.isFieldPatched (s.configs vm) = true)

/-- A patch is marked only if the stored configuration has it. -/
structure Marked (s : State γ) : Prop where
  keys : ∀ vm k q, k.content = some q → s.isSet k (some (MAKE_VM_KEY vm)) = true →
    (s.configs vm).patched q = true
  stamps : ∀ vm, ∀ p ∈ getXmlPatches, p.isFieldPatched (s.configs vm) = true →
    (s.configs vm).patched (.xml p) = true

/-- Every patch of the keys and of the fields. -/
def Complete (x : VmConfiguration γ) : Prop :=
  (∀ k q, PKeyId.content k = some q → x.patched q = true) ∧
    ∀ p ∈ getXmlPatches, x.patched (.xml p) = true

/-- A visit that loads and saves leaves every patch stored, and after it nothing is left to patch,
whatever becomes of the other VMs. -/
def Applied (s : State γ) (v : Visit γ) : Prop :=
  v.loads = true → v.saves = true →
    Complete ((visit s v).configs v.vm) ∧
      ∀ others : List (Visit γ), (∀ o ∈ others, o.vm ≠ v.vm) → ∀ again : Visit γ, again.vm = v.vm →
        patchVmConfig again (others.foldl visit (visit s v)) =
          (false, others.foldl visit (visit s v))

/-- When a loaded configuration cannot be saved, no key is pending for a patch it is without. -/
def Safe (s : State γ) (v : Visit γ) : Prop :=
  v.loads = true → v.saves = false → ∀ k, pending s v.vm k = true →
    k = .PWE_3918_changeAutoStartLoadOption ∨
      (k = .bug438530_MultiDisplay ∧
        CPatchVmMultiDisplay.isFieldPatched (s.configs v.vm) = true)

section Visit

variable {s : State γ} {v : Visit γ}

/-- What a visit does: nothing, marking alone, or marking and storing. -/
theorem visit_cases (s : State γ) (v : Visit γ) :
    (v.loads = false ∧ visit s v = s) ∨
    (v.loads = true ∧
      let r := patchLoaded v.effects (pending s v.vm) (s.configs v.vm)
      (((r.1 = false ∨ v.saves = false) ∧ visit s v = (collectVmPatches s v.vm).2) ∨
        (v.saves = true ∧ visit s v = { (collectVmPatches s v.vm).2 with
          configs := Function.update s.configs v.vm r.2 }))) := by
  unfold visit patchVmConfig
  cases hloads : v.loads with
  | false => exact .inl ⟨rfl, rfl⟩
  | true =>
      refine .inr ⟨rfl, ?_⟩
      dsimp only [collectVmPatches]
      cases hflag : (patchLoaded v.effects (pending s v.vm) (s.configs v.vm)).1 with
      | false => exact .inl ⟨.inl rfl, rfl⟩
      | true =>
          cases hsaves : v.saves with
          | false => exact .inl ⟨.inr rfl, rfl⟩
          | true => exact .inr ⟨rfl, rfl⟩

theorem collected_isSet (vm vm' : VmIdent) (k : PKeyId) :
    (collectVmPatches s vm).2.isSet k (some (MAKE_VM_KEY vm')) = true ↔
      vm' = vm ∨ s.isSet k (some (MAKE_VM_KEY vm')) = true := by
  simp [collectVmPatches, MAKE_VM_KEY_injective.eq_iff]

theorem visit_isSet (vm : VmIdent) (k : PKeyId) :
    (visit s v).isSet k (some (MAKE_VM_KEY vm)) = true ↔
      (vm = v.vm ∧ v.loads = true) ∨ s.isSet k (some (MAKE_VM_KEY vm)) = true := by
  obtain ⟨hloads, h⟩ | ⟨hloads, ⟨-, h⟩ | ⟨-, h⟩⟩ := visit_cases s v
  · simp [h, hloads]
  · rw [h, collected_isSet]
    simp [hloads]
  · rw [h]
    simpa [hloads] using collected_isSet v.vm vm k

theorem visit_isSet_none (k : PKeyId) : (visit s v).isSet k none = s.isSet k none := by
  obtain ⟨-, h⟩ | ⟨-, ⟨-, h⟩ | ⟨-, h⟩⟩ := visit_cases s v <;> rw [h] <;> rfl

theorem visit_known (vm : VmIdent) (k : PKeyId) :
    (visit s v).Known vm k ↔ (vm = v.vm ∧ v.loads = true) ∨ s.Known vm k := by
  unfold State.Known
  rw [visit_isSet, visit_isSet_none, or_assoc]

theorem visit_configs_of_ne {vm : VmIdent} (h : vm ≠ v.vm) :
    (visit s v).configs vm = s.configs vm := by
  obtain ⟨-, heq⟩ | ⟨-, ⟨-, heq⟩ | ⟨-, heq⟩⟩ := visit_cases s v
  · rw [heq]
  · rw [heq]
    rfl
  · rw [heq]
    exact Function.update_of_ne h ..

/-- The configuration of the VM that is visited. -/
theorem visit_configs (hloads : v.loads = true) :
    let r := patchLoaded v.effects (pending s v.vm) (s.configs v.vm)
    ((r.1 = false ∨ v.saves = false) ∧ (visit s v).configs v.vm = s.configs v.vm) ∨
      (v.saves = true ∧ (visit s v).configs v.vm = r.2) := by
  obtain ⟨hno, -⟩ | ⟨-, ⟨hkept, h⟩ | ⟨hsaves, h⟩⟩ := visit_cases s v
  · rw [hloads] at hno
    cases hno
  · exact .inl ⟨hkept, by rw [h]; rfl⟩
  · exact .inr ⟨hsaves, by rw [h]; exact Function.update_self ..⟩

/-- Nothing to save means that no key is pending for a patch that is not there. -/
theorem key_of_idle (backed : Backed s) {e : Effects γ} {vm : VmIdent} {k : PKeyId} {q : Patch}
    (hidle : (patchLoaded e (pending s vm) (s.configs vm)).1 = false) (hq : k.content = some q)
    (hk : pending s vm k = true) : (s.configs vm).patched q = true := by
  have hno := fun h => Bool.false_ne_true (hidle.symm.trans ((patchLoaded_flag e).mpr h))
  cases k with
  | bug7938_ShouldFixServerUuidInVmConfigs => exact absurd (.inl hk) hno
  | bug438530_MultiDisplay =>
      cases hq
      refine backed.stamps vm _ (List.mem_cons_self ..) ?_
      by_contra hstamp
      exact hno (.inr (.inr (.inl
        ⟨CPatchVmMultiDisplay, List.mem_cons_self .., Bool.not_eq_true _ ▸ hstamp⟩)))
  | bug477998_app_version => exact absurd (.inr (.inr (.inr hk))) hno
  | PWE_3918_changeAutoStartLoadOption => cases hq
  | PSBM_13394_vmNetworkAdapterHostMac => exact absurd (.inr (.inl hk)) hno

theorem Backed.visit_key (backed : Backed s) (safe : Safe s v) (hloads : v.loads = true)
    {k : PKeyId} {q : Patch} (hq : k.content = some q) :
    ((visit s v).configs v.vm).patched q = true := by
  obtain ⟨hkept, h⟩ | ⟨-, h⟩ := visit_configs hloads <;> rw [h]
  · by_cases hk : pending s v.vm k = true
    · rcases hkept with hidle | hsaves
      · exact key_of_idle backed hidle hq hk
      · obtain rfl | ⟨rfl, hstamp⟩ := safe hloads hsaves k hk
        · cases hq
        · cases hq
          exact backed.stamps v.vm _ (List.mem_cons_self ..) hstamp
    · exact backed.keys v.vm k q hq (not_not.mp ((pending_iff s v.vm k).not.mp hk))
  · by_cases hk : pending s v.vm k = true
    · exact patchLoaded_key v.effects hq hk (backed.stamps v.vm _ (List.mem_cons_self ..))
    · rw [patchLoaded_patched]
      exact .inl (backed.keys v.vm k q hq (not_not.mp ((pending_iff s v.vm k).not.mp hk)))

theorem Backed.visit_stamp (backed : Backed s) (hloads : v.loads = true) {p : XmlPatch}
    (hp : p ∈ getXmlPatches)
    (hstamp : p.isFieldPatched ((visit s v).configs v.vm) = true) :
    ((visit s v).configs v.vm).patched (.xml p) = true := by
  obtain ⟨-, h⟩ | ⟨-, h⟩ := visit_configs hloads <;> rw [h] at hstamp ⊢
  · exact backed.stamps v.vm p hp hstamp
  · rw [patchLoaded_patched]
    cases hbefore : p.isFieldPatched (s.configs v.vm) with
    | true => exact .inl (backed.stamps v.vm p hp hbefore)
    | false =>
        by_cases heffective : Effective (pending s v.vm) p
        · exact .inr (.inr (.inr (.inl ⟨p, hp, rfl, hbefore, heffective⟩)))
        · obtain ⟨rfl, hk⟩ := Classical.not_imp.mp heffective
          exact .inl (backed.keys v.vm .bug438530_MultiDisplay _ rfl
            (not_not.mp ((pending_iff s v.vm _).not.mp hk)))

theorem Backed.visit (backed : Backed s) (safe : Safe s v) : Backed (visit s v) := by
  by_cases hloads : v.loads = true
  · constructor
    · intro vm k q hq hknown
      by_cases hvm : vm = v.vm
      · subst hvm
        exact backed.visit_key safe hloads hq
      · rw [visit_configs_of_ne hvm]
        rw [visit_known] at hknown
        exact backed.keys vm k q hq (hknown.resolve_left fun h => hvm h.1)
    · intro vm p hp hstamp
      by_cases hvm : vm = v.vm
      · subst hvm
        exact backed.visit_stamp hloads hp hstamp
      · rw [visit_configs_of_ne hvm] at hstamp ⊢
        exact backed.stamps vm p hp hstamp
    · intro vm k q hq hpatched
      rw [visit_known]
      by_cases hvm : vm = v.vm
      · exact .inl (.inl ⟨hvm, hloads⟩)
      · rw [visit_configs_of_ne hvm] at hpatched ⊢
        exact (backed.only vm k q hq hpatched).imp_left .inr
  · obtain ⟨-, h⟩ | ⟨hyes, -⟩ := visit_cases s v
    · rw [h]
      exact backed
    · exact absurd hyes hloads

theorem Backed.marked (backed : Backed s) : Marked s where
  keys := fun vm k q hq h => backed.keys vm k q hq (.inl h)
  stamps := backed.stamps

end Visit

section Settled

variable {s : State γ} {v : Visit γ} {vm : VmIdent}

/-- The VM has every mark and every stamp. -/
structure Settled (s : State γ) (vm : VmIdent) : Prop where
  keys : ∀ k, s.isSet k (some (MAKE_VM_KEY vm)) = true
  stamps : ∀ p ∈ getXmlPatches, p.isFieldPatched (s.configs vm) = true

theorem settled_visit (hloads : v.loads = true) (hsaves : v.saves = true) :
    Settled (visit s v) v.vm where
  keys := fun k => visit_isSet v.vm k |>.mpr (.inl ⟨rfl, hloads⟩)
  stamps := by
    intro p hp
    obtain ⟨hkept, h⟩ | ⟨-, h⟩ := visit_configs (s := s) hloads <;> rw [h]
    · have hidle := hkept.resolve_right (by simp [hsaves])
      by_contra hstamp
      exact Bool.false_ne_true (hidle.symm.trans ((patchLoaded_flag v.effects).mpr
        (.inr (.inr (.inl ⟨p, hp, Bool.not_eq_true _ ▸ hstamp⟩)))))
    · exact patchLoaded_stamped v.effects hp

theorem Settled.foldl (settled : Settled s vm) {others : List (Visit γ)}
    (hothers : ∀ o ∈ others, o.vm ≠ vm) : Settled (others.foldl visit s) vm := by
  induction others generalizing s with
  | nil => exact settled
  | cons o others ih =>
      refine ih ⟨fun k => visit_isSet vm k |>.mpr (.inr (settled.keys k)), fun p hp => ?_⟩
        fun o' h => hothers o' (List.mem_cons_of_mem o h)
      rw [visit_configs_of_ne (hothers o (List.mem_cons_self ..)).symm]
      exact settled.stamps p hp

/-- A settled VM is left alone. -/
theorem Settled.idle (settled : Settled s vm) {again : Visit γ} (hvm : again.vm = vm) :
    patchVmConfig again s = (false, s) := by
  subst hvm
  unfold patchVmConfig
  cases again.loads with
  | false => rfl
  | true =>
      have hpending : ∀ k, pending s again.vm k = false := by
        intro k
        simp [pending, settled.keys k]
      have hflag : (patchLoaded again.effects (pending s again.vm) (s.configs again.vm)).1 =
          false := by
        by_contra hflag
        obtain h | h | ⟨p, hp, h⟩ | h := (patchLoaded_flag again.effects).mp
          (Bool.not_eq_false _ ▸ hflag)
        · rw [hpending] at h
          cases h
        · rw [hpending] at h
          cases h
        · rw [settled.stamps p hp] at h
          cases h
        · rw [hpending] at h
          cases h
      have hsame : (collectVmPatches s again.vm).2 = s := by
        have hset : (fun k key => key = some (MAKE_VM_KEY again.vm) || s.isSet k key) =
            s.isSet := by
          funext k key
          by_cases hkey : key = some (MAKE_VM_KEY again.vm)
          · rw [hkey, settled.keys k]
            simp
          · simp [hkey]
        exact congrArg (fun isSet => State.mk isSet s.configs) hset
      dsimp only [collectVmPatches] at hsame ⊢
      rw [hflag]
      exact congrArg (Prod.mk false) hsame

end Settled

section Starts

variable {s : State γ} {v : Visit γ}

theorem Backed.applied (backed : Backed s) (safe : Safe s v) : Applied s v := by
  intro hloads hsaves
  have settled : Settled (Patches.visit s v) v.vm := settled_visit hloads hsaves
  have after := backed.visit safe
  refine ⟨⟨fun k q hq => after.keys v.vm k q hq (.inl (settled.keys k)), fun p hp =>
    after.stamps v.vm p hp (settled.stamps p hp)⟩, fun others hothers again hvm => ?_⟩
  exact (settled.foldl hothers).idle hvm

/-- A key that is marked although the save fails gives away that its patch is stored. -/
theorem Backed.safe (backed : Backed s) (marked : Marked (Patches.visit s v)) : Safe s v := by
  intro hloads hsaves k hk
  cases hq : k.content with
  | none =>
      left
      cases k <;> first | rfl | cases hq
  | some q =>
      have hset : (Patches.visit s v).isSet k (some (MAKE_VM_KEY v.vm)) = true :=
        visit_isSet v.vm k |>.mpr (.inl ⟨rfl, hloads⟩)
      have hpatched := marked.keys v.vm k q hq hset
      obtain ⟨-, h⟩ | ⟨hyes, -⟩ := visit_configs (s := s) hloads
      · rw [h] at hpatched
        exact .inr ((backed.only v.vm k q hq hpatched).resolve_left ((pending_iff s v.vm k).mp hk))
      · rw [hsaves] at hyes
        cases hyes

end Starts

/-- The marks and stamps that are there at first are taken at their word. -/
def seed (isSet : PKeyId → Option String → Bool) (content : VmIdent → γ)
    (patchStamp : VmIdent → String → String) : State γ where
  isSet
  configs := fun vm =>
    let known := fun k => isSet k (some (MAKE_VM_KEY vm)) || isSet k none
    { content := content vm
      patchStamp := patchStamp vm
      patched := fun
        | .serverUuid => known .bug7938_ShouldFixServerUuidInVmConfigs
        | .hostMacs => known .PSBM_13394_vmNetworkAdapterHostMac
        | .appVersion => known .bug477998_app_version
        | .xml p => patchStamp vm p.m_qsPath = p.m_qsStamp ||
            (p = CPatchVmMultiDisplay && known .bug438530_MultiDisplay) }

variable (isSet : PKeyId → Option String → Bool) (content : VmIdent → γ)
  (patchStamp : VmIdent → String → String)

theorem seed_backed : Backed (seed isSet content patchStamp) where
  keys := by
    intro vm k q hq hknown
    have hset : (isSet k (some (MAKE_VM_KEY vm)) || isSet k none) = true := by
      simpa [State.Known, seed] using hknown
    cases k with
    | bug438530_MultiDisplay =>
        cases hq
        refine (Bool.or_eq_true ..).mpr (.inr ?_)
        simpa [seed] using hset
    | PWE_3918_changeAutoStartLoadOption => cases hq
    | _ =>
        cases hq
        simpa [seed] using hset
  stamps := by
    intro vm p _ hstamp
    have hfield : patchStamp vm p.m_qsPath = p.m_qsStamp := of_decide_eq_true hstamp
    simp [seed, hfield]
  only := by
    intro vm k q hq hpatched
    cases k with
    | bug438530_MultiDisplay =>
        cases hq
        simp only [seed, Bool.or_eq_true, decide_eq_true_eq, Bool.and_eq_true] at hpatched
        rcases hpatched with hstamp | ⟨-, hknown⟩
        · exact .inr ⟨rfl, decide_eq_true hstamp⟩
        · exact .inl hknown
    | PWE_3918_changeAutoStartLoadOption => cases hq
    | _ =>
        cases hq
        left
        simpa [State.Known, seed] using hpatched

/-- Patches are not lost in a sequence of starts just when no visit marks one that it cannot store. -/
theorem marked_iff_safe (starts : List (Start γ)) :
    Along visit Marked Applied (seed isSet content patchStamp) (patchVmConfigs starts) ↔
      Steps visit Safe (seed isSet content patchStamp) (patchVmConfigs starts) :=
  along_iff_steps (fun _ _ => True) (fun _ backed => backed.marked)
    (fun _ _ backed _ safe => backed.applied safe) (fun _ _ backed _ safe => backed.visit safe)
    (fun _ _ backed _ _ marked => backed.safe marked) (seed_backed isSet content patchStamp)
    (.all fun _ _ => trivial)

def vm : VmIdent where
  vmDirUuid := ⟨"{00000000-0000-0000-0000-000000000001}", by decide⟩
  vmUuid := ⟨"{00000000-0000-0000-0000-000000000002}", by decide⟩

/-- One start loads the configuration and cannot save it. -/
def unsaved : Start Unit where
  isDispVersionChanged := true
  visits := [⟨vm, true, false, ⟨id, id, id, fun _ _ => id⟩⟩]

theorem marked_fails :
    ¬ Along visit Marked Applied (seed (fun _ _ => false) (fun _ => ()) fun _ _ => "")
      (patchVmConfigs [unsaved]) := by
  rintro ⟨-, -, marked⟩
  have hset : (visit (seed (fun _ _ => false) (fun _ => ()) fun _ _ => "")
      ⟨vm, true, false, ⟨id, id, id, fun _ _ => id⟩⟩).isSet
        .bug7938_ShouldFixServerUuidInVmConfigs (some (MAKE_VM_KEY vm)) = true :=
    (visit_isSet vm _).mpr (.inl ⟨rfl, rfl⟩)
  have hpatched := marked.keys vm _ _ rfl hset
  obtain ⟨-, h⟩ | ⟨hyes, -⟩ := visit_configs
    (s := seed (fun _ _ => false) (fun _ => ()) fun _ _ => "")
    (v := ⟨vm, true, false, ⟨id, id, id, fun _ _ => id⟩⟩) rfl
  · rw [h] at hpatched
    cases hpatched
  · cases hyes

end DispService.Patches
