import DispService.Transponster.Attachment
import Mathlib.Data.Finset.Card
import Mathlib.Data.List.Infix

/-! When the addresses of all disks are distinct, and their controllers are there. -/
namespace DispService.Transponster

open Scsi (Arrangement Bus MAX_TARGETS)

/-- The model of the controllers of an arrangement. -/
def modelOf : Bool → EModel
  | true => .hvScsi
  | false => .virtioScsi

def Scsi.Bus.arrangement (b : Bus) : Bool → Arrangement
  | true => b.m_hyperv
  | false => b.m_virtio

def countOf (f : Bool) (es : List (Bool × Driveaddress)) : Nat :=
  es.countP fun x => x.1 = f

/-- The counters and the list of controllers, after so many addresses. -/
structure Counted (b : Bus) (es : List (Bool × Driveaddress)) : Prop where
  factory : ∀ f, (b.arrangement f).m_factory = modelOf f
  device : ∀ f, (b.arrangement f).m_device = UInt16.ofNat (countOf f es)
  length : b.m_controllers.length = controllersOf (countOf true es) + controllersOf (countOf false es)
  numbered : ∀ i (c : Controller), b.m_controllers[i]? = some c →
    c.index = UInt16.ofNat i ∧ ∃ f, c.choice5126 = .scsi (modelOf f)

/-- As long as the numbers of the controllers do not wrap. -/
structure Served (b : Bus) (es : List (Bool × Driveaddress)) : Prop where
  served : ∀ x ∈ es, b.m_controllers[x.2.controller.toNat]? =
    some ⟨x.2.controller, .scsi (modelOf x.1)⟩
  shape : ∀ x ∈ es, ∃ t : UInt16, t.toNat < 256 ∧
    x.2 = { controller := x.2.controller, target := some t }
  nodup : (es.map Prod.snd).Nodup
  /-- The controller that is not full has only lower targets. -/
  current : ∀ f, countOf f es % 256 ≠ 0 →
    b.m_controllers[(b.arrangement f).m_controller.toNat]? =
      some ⟨(b.arrangement f).m_controller, .scsi (modelOf f)⟩ ∧
    ∀ x ∈ es, x.2.controller = (b.arrangement f).m_controller →
      ∀ t : UInt16, x.2.target = some t → t.toNat < countOf f es % 256

section Scsi

variable {b b' : Bus} {es : List (Bool × Driveaddress)} {f g : Bool} {a : Driveaddress}

/-- What the next address of a family does. -/
inductive Next (b : Bus) (f : Bool) : Driveaddress → Bus → Prop where
  | opened {b' : Bus} (full : (b.arrangement f).m_device % MAX_TARGETS = 0)
      (controllers : b'.m_controllers = b.m_controllers ++
        [⟨UInt16.ofNat b.m_controllers.length, .scsi (b.arrangement f).m_factory⟩])
      (self : b'.arrangement f = { b.arrangement f with
        m_controller := UInt16.ofNat b.m_controllers.length
        m_device := (b.arrangement f).m_device + 1 })
      (other : ∀ g, g ≠ f → b'.arrangement g = b.arrangement g) :
      Next b f { controller := UInt16.ofNat b.m_controllers.length, target := some 0 } b'
  | filled {b' : Bus} (room : (b.arrangement f).m_device % MAX_TARGETS ≠ 0)
      (controllers : b'.m_controllers = b.m_controllers)
      (self : b'.arrangement f =
        { b.arrangement f with m_device := (b.arrangement f).m_device + 1 })
      (other : ∀ g, g ≠ f → b'.arrangement g = b.arrangement g) :
      Next b f { controller := (b.arrangement f).m_controller
                 target := some ((b.arrangement f).m_device % MAX_TARGETS) } b'

theorem arrangement_next (b : Bus) (f : Bool)
    (hnext : a = ((b.arrangement f).next b.m_controllers).1)
    (hself : b'.arrangement f = ((b.arrangement f).next b.m_controllers).2.1)
    (hcontrollers : b'.m_controllers = ((b.arrangement f).next b.m_controllers).2.2)
    (hother : ∀ g, g ≠ f → b'.arrangement g = b.arrangement g) : Next b f a b' := by
  unfold Arrangement.next at hnext hself hcontrollers
  dsimp only at hnext hself hcontrollers
  by_cases hfull : (b.arrangement f).m_device % MAX_TARGETS = 0
  · rw [if_pos hfull] at hnext hself hcontrollers
    rw [hnext, hfull]
    exact .opened hfull hcontrollers hself hother
  · rw [if_neg hfull] at hnext hself hcontrollers
    rw [hnext]
    exact .filled hfull hcontrollers hself hother

/-- Every model but that of Hyper-V is served by the same controllers. -/
theorem bus_next (b : Bus) (m : EModel) :
    Next b (decide (m = .hvScsi)) (b.next m).1 (b.next m).2 := by
  have hother : ∀ f g : Bool, g ≠ f → g = !f := by decide
  cases m with
  | hvScsi =>
    refine arrangement_next b true rfl rfl rfl fun g hg => ?_
    rw [hother _ _ hg]
    rfl
  | _ =>
    refine arrangement_next b false rfl rfl rfl fun g hg => ?_
    rw [hother _ _ hg]
    rfl

theorem getElem?_snoc {α : Type} {l : List α} {x y : α} {i : Nat} :
    (l ++ [x])[i]? = some y ↔ l[i]? = some y ∨ i = l.length ∧ y = x := by
  rw [List.getElem?_append]
  split
  · next hlt =>
    exact ⟨.inl, fun h => h.resolve_right fun heq => absurd heq.1 (Nat.ne_of_lt hlt)⟩
  · next hge =>
    rw [List.getElem?_eq_none (Nat.not_lt.mp hge), List.getElem?_singleton]
    constructor
    · intro h
      split at h
      · next hzero => exact .inr ⟨by omega, (Option.some.inj h).symm⟩
      · cases h
    · rintro (h | ⟨rfl, rfl⟩)
      · cases h
      · rw [Nat.sub_self, if_pos rfl]

theorem toNat_device (n : Nat) : (UInt16.ofNat n % MAX_TARGETS).toNat = n % 256 := by
  rw [UInt16.toNat_mod, UInt16.toNat_ofNat']
  exact Nat.mod_mod_of_dvd n (by decide)

theorem countOf_append (f : Bool) (es : List (Bool × Driveaddress)) (g : Bool) (a : Driveaddress) :
    countOf f (es ++ [(g, a)]) = countOf f es + if g = f then 1 else 0 := by
  unfold countOf
  rw [List.countP_append, List.countP_singleton]
  simp

theorem Counted.full_iff (h : Counted b es) (f : Bool) :
    (b.arrangement f).m_device % MAX_TARGETS = 0 ↔ countOf f es % 256 = 0 := by
  rw [h.device f, ← UInt16.toNat_inj, toNat_device]
  rfl

theorem Counted.next (h : Counted b es) (hnext : Next b f a b') :
    Counted b' (es ++ [(f, a)]) := by
  have hdevice : ∀ g, b'.arrangement g = b.arrangement g ∨ g = f →
      (g = f → (b'.arrangement g).m_device = (b.arrangement g).m_device + 1) →
      (b'.arrangement g).m_device = UInt16.ofNat (countOf g (es ++ [(f, a)])) := by
    intro g hother hself
    rw [countOf_append]
    by_cases hg : g = f
    · rw [hself hg, if_pos hg.symm, h.device g, UInt16.ofNat_add]
      rfl
    · rw [(hother.resolve_right hg), if_neg fun hsame => hg hsame.symm, h.device g]
      rfl
  have hsize : controllersOf (countOf true (es ++ [(f, a)])) +
      controllersOf (countOf false (es ++ [(f, a)])) =
      controllersOf (countOf true es) + controllersOf (countOf false es) +
        if countOf f es % 256 = 0 then 1 else 0 := by
    rw [countOf_append, countOf_append]
    unfold controllersOf
    cases f with
    | true =>
      simp only [if_true, Bool.true_eq_false, if_false]
      split <;> omega
    | false =>
      simp only [if_true, Bool.false_eq_true, if_false]
      split <;> omega
  cases hnext with
  | opened full controllers self other =>
    have hzero := (h.full_iff f).mp full
    refine ⟨fun g => ?_, fun g => hdevice g ?_ ?_, ?_, ?_⟩
    · by_cases hg : g = f
      · rw [hg, self]
        exact h.factory f
      · rw [other g hg]
        exact h.factory g
    · exact (Classical.em (g = f)).elim .inr fun hg => .inl (other g hg)
    · rintro rfl
      rw [self]
    · rw [controllers, hsize, if_pos hzero, List.length_append, h.length]
      rfl
    · intro i c hc
      rw [controllers] at hc
      rcases getElem?_snoc.mp hc with hold | ⟨rfl, rfl⟩
      · exact h.numbered i c hold
      · exact ⟨rfl, f, congrArg VChoice5126.scsi (h.factory f)⟩
  | filled room controllers self other =>
    have hzero : ¬ countOf f es % 256 = 0 := fun hzero => room ((h.full_iff f).mpr hzero)
    refine ⟨fun g => ?_, fun g => hdevice g ?_ ?_, ?_, ?_⟩
    · by_cases hg : g = f
      · rw [hg, self]
        exact h.factory f
      · rw [other g hg]
        exact h.factory g
    · exact (Classical.em (g = f)).elim .inr fun hg => .inl (other g hg)
    · rintro rfl
      rw [self]
    · rw [controllers, hsize, if_neg hzero, h.length]
      rfl
    · rw [controllers]
      exact h.numbered

theorem Served.next (hc : Counted b es) (h : Served b es) (hnext : Next b f a b')
    (hlength : b'.m_controllers.length ≤ 65536) : Served b' (es ++ [(f, a)]) := by
  have hcounts : ∀ g, countOf g (es ++ [(f, a)]) = countOf g es + if f = g then 1 else 0 :=
    fun g => countOf_append g es f a
  have hmem : ∀ x, x ∈ es ++ [(f, a)] ↔ x ∈ es ∨ x = (f, a) := by
    intro x
    rw [List.mem_append, List.mem_singleton]
  have hbelow : ∀ x ∈ es, x.2.controller.toNat < b.m_controllers.length := by
    intro x hx
    by_contra hge
    have hserved := h.served x hx
    rw [List.getElem?_eq_none (Nat.not_lt.mp hge)] at hserved
    cases hserved
  cases hnext with
  | opened full controllers self other =>
    have hzero := (hc.full_iff f).mp full
    have hlt : b.m_controllers.length < 65536 := by
      rw [controllers, List.length_append] at hlength
      exact hlength
    have hindex : (UInt16.ofNat b.m_controllers.length).toNat = b.m_controllers.length := by
      rw [UInt16.toNat_ofNat']
      exact Nat.mod_eq_of_lt hlt
    have hfresh : ∀ x ∈ es, x.2.controller ≠ UInt16.ofNat b.m_controllers.length := by
      intro x hx heq
      have hlow := hbelow x hx
      rw [heq, hindex] at hlow
      exact Nat.lt_irrefl _ hlow
    have hnew : b'.m_controllers[(UInt16.ofNat b.m_controllers.length).toNat]? =
        some ⟨UInt16.ofNat b.m_controllers.length, .scsi (modelOf f)⟩ := by
      rw [controllers, getElem?_snoc, hindex, hc.factory f]
      exact .inr ⟨rfl, rfl⟩
    have hold : ∀ (i : Nat) (c : Controller), b.m_controllers[i]? = some c →
        b'.m_controllers[i]? = some c := by
      intro i c hi
      rw [controllers]
      exact getElem?_snoc.mpr (.inl hi)
    refine ⟨fun x hx => ?_, fun x hx => ?_, ?_, fun g hg => ?_⟩
    · rcases (hmem x).mp hx with hx | rfl
      · exact hold _ _ (h.served x hx)
      · exact hnew
    · rcases (hmem x).mp hx with hx | rfl
      · exact h.shape x hx
      · exact ⟨0, by decide, rfl⟩
    · rw [List.map_append]
      refine List.nodup_append.mpr ⟨h.nodup, List.nodup_singleton _, ?_⟩
      rintro y hy z hz rfl
      obtain ⟨x, hx, rfl⟩ := List.mem_map.mp hy
      exact hfresh x hx (congrArg Driveaddress.controller (List.mem_singleton.mp hz))
    · by_cases hgf : f = g
      · subst hgf
        rw [self]
        refine ⟨hnew, fun x hx hsame t ht => ?_⟩
        rcases (hmem x).mp hx with hx | rfl
        · exact absurd hsame (hfresh x hx)
        · cases ht
          rw [hcounts, if_pos rfl]
          show 0 < _
          omega
      · rw [hcounts, if_neg hgf] at hg
        obtain ⟨hctrl, hlow⟩ := h.current g hg
        rw [other g fun hsame => hgf hsame.symm, hcounts, if_neg hgf]
        refine ⟨hold _ _ hctrl, fun x hx hsame t ht => ?_⟩
        rcases (hmem x).mp hx with hx | rfl
        · exact hlow x hx hsame t ht
        · have hself : UInt16.ofNat b.m_controllers.length = (b.arrangement g).m_controller := hsame
          have hin := (List.getElem?_eq_some_iff.mp hctrl).1
          rw [← hself, hindex] at hin
          exact absurd hin (Nat.lt_irrefl _)
  | filled room controllers self other =>
    have hzero : countOf f es % 256 ≠ 0 := fun hzero => room ((hc.full_iff f).mpr hzero)
    obtain ⟨hctrl, hlow⟩ := h.current f hzero
    have htarget : ((b.arrangement f).m_device % MAX_TARGETS).toNat = countOf f es % 256 := by
      rw [hc.device f, toNat_device]
    refine ⟨fun x hx => ?_, fun x hx => ?_, ?_, fun g hg => ?_⟩
    · rw [controllers]
      rcases (hmem x).mp hx with hx | rfl
      · exact h.served x hx
      · exact hctrl
    · rcases (hmem x).mp hx with hx | rfl
      · exact h.shape x hx
      · exact ⟨_, by rw [htarget]; omega, rfl⟩
    · rw [List.map_append]
      refine List.nodup_append.mpr ⟨h.nodup, List.nodup_singleton _, ?_⟩
      rintro y hy z hz rfl
      obtain ⟨x, hx, rfl⟩ := List.mem_map.mp hy
      have hsame := List.mem_singleton.mp hz
      have hless := hlow x hx (congrArg Driveaddress.controller hsame) _
        (congrArg Driveaddress.target hsame)
      rw [htarget] at hless
      exact Nat.lt_irrefl _ hless
    · by_cases hgf : f = g
      · subst hgf
        rw [self, controllers]
        refine ⟨hctrl, fun x hx hsame t ht => ?_⟩
        rw [hcounts, if_pos rfl] at hg ⊢
        rcases (hmem x).mp hx with hx | rfl
        · have hless := hlow x hx hsame t ht
          omega
        · cases ht
          rw [htarget]
          omega
      · rw [hcounts, if_neg hgf] at hg
        obtain ⟨hctrl', hlow'⟩ := h.current g hg
        rw [other g fun hsame => hgf hsame.symm, hcounts, if_neg hgf, controllers]
        refine ⟨hctrl', fun x hx hsame t ht => ?_⟩
        rcases (hmem x).mp hx with hx | rfl
        · exact hlow' x hx hsame t ht
        · -- the controllers of the two arrangements have different models
          have hmodel := hctrl.symm.trans (hsame ▸ hctrl')
          cases f <;> cases g <;> simp [modelOf] at hmodel hgf

end Scsi

def ideAddress (index_ : UInt32) : Driveaddress :=
  (({} : Attachment).craftIde index_).1

def sataAddress (index_ : UInt32) : Driveaddress :=
  (({} : Attachment).craftSata index_).1

/-- The place is the first of a controller with a number above 0. -/
def opens (units : Nat) (index_ : UInt32) : Prop :=
  0 < index_.toNat / units % 65536 ∧ index_.toNat % units = 0

instance (units : Nat) (index_ : UInt32) : Decidable (opens units index_) :=
  inferInstanceAs (Decidable (_ ∧ _))

/-- The controller that is made for the place of a device. -/
def moldyOf (m : Clustered) : Option Controller :=
  match m.getBus with
  | some .ide =>
      if opens 4 m.dataSource.stackIndex then
        some ⟨(ideAddress m.dataSource.stackIndex).controller, .type .ide⟩
      else none
  | some .sata =>
      if opens 6 m.dataSource.stackIndex then
        some ⟨(sataAddress m.dataSource.stackIndex).controller, .type .sata⟩
      else none
  | _ => none

/-- The SCSI addresses, with the arrangements that they come from. -/
def BootList.scsi (l : BootList) : List (Bool × Driveaddress) :=
  l.m_deviceList.filterMap fun x =>
    if x.1.getBus = some .scsi then x.2.map fun a => (decide (x.1.family = .hvScsi), a) else none

/-- What the list has done with the devices that were added. -/
structure Ran (ms : List Clustered) (l : BootList) : Prop where
  devices : l.m_deviceList.map Prod.fst = ms.filter Clustered.Added
  ide : ∀ x ∈ l.m_deviceList, x.1.getBus = some .ide →
    x.2 = some (ideAddress x.1.dataSource.stackIndex)
  sata : ∀ x ∈ l.m_deviceList, x.1.getBus = some .sata →
    x.2 = some (sataAddress x.1.dataSource.stackIndex)
  others : ∀ x ∈ l.m_deviceList, x.2.isSome → x.1.getBus = some .ide ∨ x.1.getBus = some .sata ∨
    x.1.getBus = some .scsi
  moldy : l.m_attachment.m_controllers = (ms.filter Clustered.Added).filterMap moldyOf
  families : l.scsi.map Prod.fst = (onBus ms .scsi).map fun m => decide (m.family = .hvScsi)
  counted : Counted l.m_attachment.m_scsi l.scsi
  served : l.m_attachment.m_scsi.m_controllers.length ≤ 65536 → Served l.m_attachment.m_scsi l.scsi

section Run

variable {ms : List Clustered} {l : BootList} {m : Clustered} {i j : UInt32} {a : Attachment}

theorem craftIde_eq : a.craftIde i = (ideAddress i,
    if opens 4 i then
      { a with m_controllers := a.m_controllers ++ [⟨(ideAddress i).controller, .type .ide⟩] }
    else a) := by
  have hopens : (0 < (i / Attachment.IDE_UNITS / Attachment.IDE_BUSES).toUInt16 ∧
      (i % Attachment.IDE_UNITS).toUInt16 = 0 ∧
      (i / Attachment.IDE_UNITS % Attachment.IDE_BUSES).toUInt16 = 0) ↔ opens 4 i := by
    rw [UInt16.lt_iff_toNat_lt, ← UInt16.toNat_inj, ← UInt16.toNat_inj, opens]
    simp only [Attachment.IDE_UNITS, Attachment.IDE_BUSES, UInt32.toNat_toUInt16,
      UInt32.toNat_div, UInt32.toNat_mod, UInt32.reduceToNat, UInt16.reduceToNat]
    omega
  unfold Attachment.craftIde
  simp only [hopens]
  rfl

theorem craftSata_eq : a.craftSata i = (sataAddress i,
    if opens 6 i then
      { a with m_controllers := a.m_controllers ++ [⟨(sataAddress i).controller, .type .sata⟩] }
    else a) := by
  have hopens : (0 < (i / Attachment.SATA_UNITS).toUInt16 ∧
      (i % Attachment.SATA_UNITS).toUInt16 = 0) ↔ opens 6 i := by
    rw [UInt16.lt_iff_toNat_lt, ← UInt16.toNat_inj, opens]
    simp only [Attachment.SATA_UNITS, UInt32.toNat_toUInt16,
      UInt32.toNat_div, UInt32.toNat_mod, UInt32.reduceToNat, UInt16.reduceToNat]
    omega
  unfold Attachment.craftSata
  simp only [hopens]
  rfl

theorem ideAddress_inj :
    ideAddress i = ideAddress j ↔ i.toNat % (4 * 65536) = j.toNat % (4 * 65536) := by
  simp only [ideAddress, Attachment.craftIde, Driveaddress.mk.injEq, Option.some.injEq,
    ← UInt16.toNat_inj, true_and, Attachment.IDE_UNITS, Attachment.IDE_BUSES,
    UInt32.toNat_toUInt16, UInt32.toNat_div, UInt32.toNat_mod, UInt32.reduceToNat]
  omega

theorem sataAddress_inj :
    sataAddress i = sataAddress j ↔ i.toNat % (6 * 65536) = j.toNat % (6 * 65536) := by
  simp only [sataAddress, Attachment.craftSata, Driveaddress.mk.injEq, Option.some.injEq,
    ← UInt16.toNat_inj, true_and, Attachment.SATA_UNITS,
    UInt32.toNat_toUInt16, UInt32.toNat_div, UInt32.toNat_mod, UInt32.reduceToNat]
  omega

theorem ideAddress_controller : (ideAddress i).controller.toNat = i.toNat / 4 % 65536 := by
  simp only [ideAddress, Attachment.craftIde, Attachment.IDE_UNITS, Attachment.IDE_BUSES,
    UInt32.toNat_toUInt16, UInt32.toNat_div, UInt32.reduceToNat]
  omega

theorem sataAddress_controller : (sataAddress i).controller.toNat = i.toNat / 6 % 65536 := by
  simp only [sataAddress, Attachment.craftSata, Attachment.SATA_UNITS,
    UInt32.toNat_toUInt16, UInt32.toNat_div, UInt32.reduceToNat]

theorem family_eq (m : Clustered) :
    decide (m.getScsiModel.getD .auto = .hvScsi) = decide (m.family = .hvScsi) := by
  unfold Clustered.family
  cases m.getScsiModel with
  | none => rfl
  | some model => cases model <;> rfl

theorem scsi_append (x : Clustered × Option Driveaddress) (attachment : Attachment) :
    BootList.scsi ⟨attachment, l.m_deviceList ++ [x]⟩ = l.scsi ++
      if x.1.getBus = some .scsi then
        (x.2.map fun a => (decide (x.1.family = .hvScsi), a)).toList else [] := by
  unfold BootList.scsi
  rw [List.filterMap_append]
  congr 1
  rw [List.filterMap_cons, List.filterMap_nil]
  by_cases hbus : x.1.getBus = some .scsi
  · rw [if_pos hbus, if_pos hbus]
    cases x.2 <;> rfl
  · rw [if_neg hbus, if_neg hbus]

theorem onBus_append (b : EBus) (hadded : m.Added = true) :
    onBus (ms ++ [m]) b = onBus ms b ++ if m.getBus = some b then [m] else [] := by
  unfold onBus
  rw [List.filter_append]
  congr 1
  by_cases hbus : m.getBus = some b
  · simp [hadded, hbus]
  · simp [hbus]

/-- A device that is not added leaves everything as it is. -/
theorem Ran.skip (h : Ran ms l) (hadded : m.Added = false) : Ran (ms ++ [m]) l := by
  have hkeep : ∀ p : Clustered → Bool, p m = false → (ms ++ [m]).filter p = ms.filter p := by
    intro p hp
    rw [List.filter_append, List.filter_singleton, hp]
    exact List.append_nil _
  refine ⟨?_, h.ide, h.sata, h.others, ?_, ?_, h.counted, h.served⟩
  · rw [hkeep _ hadded]
    exact h.devices
  · rw [hkeep _ hadded]
    exact h.moldy
  · rw [onBus, hkeep _ (by simp [hadded])]
    exact h.families

theorem filter_added (hadded : m.Added = true) :
    (ms ++ [m]).filter Clustered.Added = ms.filter Clustered.Added ++ [m] := by
  rw [List.filter_append, List.filter_singleton, hadded]
  rfl

/-- What comes of a device with a bus other than SCSI. -/
theorem Ran.plain (h : Ran ms l) (hadded : m.Added = true) {o : Option Driveaddress}
    {c : List Controller} (hscsi : m.getBus ≠ some .scsi)
    (hide : m.getBus = some .ide → o = some (ideAddress m.dataSource.stackIndex))
    (hsata : m.getBus = some .sata → o = some (sataAddress m.dataSource.stackIndex))
    (hothers : o.isSome → m.getBus = some .ide ∨ m.getBus = some .sata ∨ m.getBus = some .scsi)
    (hc : c = l.m_attachment.m_controllers ++ (moldyOf m).toList) :
    Ran (ms ++ [m])
      ⟨{ l.m_attachment with m_controllers := c }, l.m_deviceList ++ [(m, o)]⟩ := by
  have hsame : BootList.scsi
      ⟨{ l.m_attachment with m_controllers := c }, l.m_deviceList ++ [(m, o)]⟩ = l.scsi := by
    rw [scsi_append, if_neg hscsi]
    exact List.append_nil _
  refine ⟨?_, List.forall_mem_append.mpr ⟨h.ide, List.forall_mem_singleton.mpr hide⟩,
    List.forall_mem_append.mpr ⟨h.sata, List.forall_mem_singleton.mpr hsata⟩,
    List.forall_mem_append.mpr ⟨h.others, List.forall_mem_singleton.mpr hothers⟩, ?_, ?_, ?_, ?_⟩
  · rw [filter_added hadded, List.map_append, h.devices]
    rfl
  · rw [filter_added hadded, List.filterMap_append, ← h.moldy, List.filterMap_cons,
      List.filterMap_nil]
    show c = _
    rw [hc]
    cases moldyOf m <;> rfl
  · rw [hsame, onBus_append _ hadded, if_neg hscsi, List.append_nil]
    exact h.families
  · rw [hsame]
    exact h.counted
  · rw [hsame]
    exact h.served

/-- What comes of a device on a SCSI bus. -/
theorem Ran.scsi (h : Ran ms l) (hadded : m.Added = true) (hbus : m.getBus = some .scsi)
    {d : Driveaddress} {b : Bus}
    (hnext : Next l.m_attachment.m_scsi (decide (m.family = .hvScsi)) d b) :
    Ran (ms ++ [m]) ⟨{ l.m_attachment with m_scsi := b }, l.m_deviceList ++ [(m, some d)]⟩ := by
  have hmoldy : moldyOf m = none := by rw [moldyOf, hbus]
  have hide : m.getBus = some .ide → some d = some (ideAddress m.dataSource.stackIndex) := by
    rw [hbus]
    nofun
  have hsata : m.getBus = some .sata → some d = some (sataAddress m.dataSource.stackIndex) := by
    rw [hbus]
    nofun
  have hsame : BootList.scsi ⟨{ l.m_attachment with m_scsi := b },
      l.m_deviceList ++ [(m, some d)]⟩ = l.scsi ++ [(decide (m.family = .hvScsi), d)] := by
    rw [scsi_append, if_pos hbus]
    rfl
  refine ⟨?_, List.forall_mem_append.mpr ⟨h.ide, List.forall_mem_singleton.mpr hide⟩,
    List.forall_mem_append.mpr ⟨h.sata, List.forall_mem_singleton.mpr hsata⟩,
    List.forall_mem_append.mpr ⟨h.others, List.forall_mem_singleton.mpr fun _ => .inr (.inr hbus)⟩,
    ?_, ?_, ?_, ?_⟩
  · rw [filter_added hadded, List.map_append, h.devices]
    rfl
  · rw [filter_added hadded, List.filterMap_append, ← h.moldy, List.filterMap_cons,
      List.filterMap_nil, hmoldy]
    exact (List.append_nil _).symm
  · rw [hsame, onBus_append _ hadded, if_pos hbus, List.map_append, List.map_append, h.families]
    rfl
  · rw [hsame]
    exact h.counted.next hnext
  · intro hlength
    rw [hsame]
    refine Served.next h.counted (h.served (Nat.le_trans ?_ hlength)) hnext hlength
    cases hnext with
    | opened full controllers self other =>
      rw [controllers, List.length_append]
      exact Nat.le_add_right _ _
    | filled room controllers self other => rw [controllers]

/-- A controller is appended if the place is the first of one. -/
theorem attachment_eq (p : Prop) [Decidable p] (c : Controller) :
    (if p then { a with m_controllers := a.m_controllers ++ [c] } else a) =
      { a with m_controllers := a.m_controllers ++ (if p then some c else none).toList } := by
  split
  · rfl
  · exact congrArg (Attachment.mk _) (List.append_nil _).symm

theorem Ran.add (h : Ran ms l) (m : Clustered) : Ran (ms ++ [m]) (l.add m) := by
  unfold BootList.add
  cases hadded : m.Added with
  | false => exact h.skip hadded
  | true =>
    rw [if_pos rfl, BootList.build]
    split
    · next hbus =>
      rw [BootList.put, craftIde_eq, attachment_eq]
      refine h.plain hadded (by rw [hbus]; decide) (fun _ => rfl) (fun hno => ?_)
        (fun _ => .inl hbus) (by rw [moldyOf, hbus])
      rw [hbus] at hno
      cases hno
    · next hbus =>
      rw [BootList.put, craftSata_eq, attachment_eq]
      refine h.plain hadded (by rw [hbus]; decide) (fun hno => ?_) (fun _ => rfl)
        (fun _ => .inr (.inl hbus)) (by rw [moldyOf, hbus])
      rw [hbus] at hno
      cases hno
    · next hbus =>
      have hnext := bus_next l.m_attachment.m_scsi (m.getScsiModel.getD .auto)
      rw [family_eq] at hnext
      exact h.scsi hadded hbus hnext
    · next hide hsata hscsi =>
      have hmoldy : moldyOf m = none := by
        unfold moldyOf
        split
        · next hbus => exact absurd hbus hide
        · next hbus => exact absurd hbus hsata
        · rfl
      refine h.plain hadded hscsi (fun hno => absurd hno hide) (fun hno => absurd hno hsata)
        (fun hno => by cases hno) ?_
      rw [hmoldy]
      exact (List.append_nil _).symm

theorem ran_start : Ran [] {} where
  devices := rfl
  ide := fun _ hx => absurd hx List.not_mem_nil
  sata := fun _ hx => absurd hx List.not_mem_nil
  others := fun _ hx => absurd hx List.not_mem_nil
  moldy := rfl
  families := rfl
  counted := by
    refine ⟨fun f => ?_, fun f => ?_, rfl, fun i c hno => by cases hno⟩ <;> cases f <;> rfl
  served := fun _ => ⟨fun _ hx => absurd hx List.not_mem_nil, fun _ hx => absurd hx List.not_mem_nil,
    List.nodup_nil, fun f hno => absurd rfl hno⟩

theorem run_ran (ms : List Clustered) : Ran ms (ms.foldl BootList.add {}) := by
  induction ms using List.reverseRecOn with
  | nil => exact ran_start
  | append_singleton ms m ih =>
    rw [List.foldl_append]
    exact ih.add m

theorem onBus_eq (b : EBus) : onBus ms b =
    (ms.filter Clustered.Added).filter fun m => decide (m.getBus = some b) := by
  unfold onBus
  rw [List.filter_filter]
  refine List.filter_congr fun m _ => ?_
  cases m.Added <;> simp

theorem onBus_pairwise {b : EBus} {R : Clustered → Clustered → Prop} (h : Ran ms l) :
    (onBus ms b).Pairwise R ↔ l.m_deviceList.Pairwise fun x y =>
      x.1.getBus = some b → y.1.getBus = some b → R x.1 y.1 := by
  rw [onBus_eq, ← h.devices, List.filter_map, List.pairwise_map, List.pairwise_filter]
  simp only [Function.comp_apply, decide_eq_true_eq]

theorem addresses_nodup_iff : l.addresses.Nodup ↔ l.m_deviceList.Pairwise fun x y =>
    ∀ a b, x.2 = some a → y.2 = some b → (x.1.getBus, a) ≠ (y.1.getBus, b) := by
  unfold BootList.addresses
  rw [List.Nodup, List.pairwise_filterMap]
  refine List.Pairwise.iff fun x y => ?_
  simp only [Option.map_eq_some_iff, forall_exists_index, and_imp]
  constructor
  · exact fun h a b ha hb => h _ a ha rfl _ b hb rfl
  · rintro h _ a ha rfl _ b hb rfl
    exact h a b ha hb

/-- At most one element has a property that no two have. -/
theorem countP_le_one {α : Type} {p : α → Bool} {l : List α}
    (h : l.Pairwise fun x y => ¬ (p x = true ∧ p y = true)) : l.countP p ≤ 1 := by
  induction l with
  | nil => exact Nat.zero_le 1
  | cons x l ih =>
    obtain ⟨hx, hl⟩ := List.pairwise_cons.mp h
    rw [List.countP_cons]
    split
    · next hpx =>
      have hnone : l.countP p = 0 := List.countP_eq_zero.mpr fun y hy hpy => hx y hy ⟨hpx, hpy⟩
      rw [hnone]
    · exact ih hl

/-- The devices at the first place of a controller are one. -/
theorem dense_iff {units : Nat} {es : List Clustered} (near : es.Pairwise fun m e =>
    m.dataSource.stackIndex.toNat % (units * 65536) ≠
      e.dataSource.stackIndex.toNat % (units * 65536)) :
    Dense units es ↔ ∀ m ∈ es, 0 < m.dataSource.stackIndex.toNat / units % 65536 →
      es.countP (fun e => decide (opens units e.dataSource.stackIndex ∧
        e.dataSource.stackIndex.toNat / units % 65536 =
          m.dataSource.stackIndex.toNat / units % 65536)) = 1 := by
  have hone : ∀ n, es.countP (fun e => decide (opens units e.dataSource.stackIndex ∧
      e.dataSource.stackIndex.toNat / units % 65536 = n)) ≤ 1 := by
    intro n
    refine countP_le_one (near.imp fun hne hboth => hne ?_)
    obtain ⟨⟨⟨-, hx⟩, hxn⟩, ⟨-, hy⟩, hyn⟩ := hboth.imp of_decide_eq_true of_decide_eq_true
    rw [Nat.mod_mul, Nat.mod_mul, hx, hy, hxn, hyn]
  constructor
  · intro dense m hm hpos
    obtain ⟨e, he, hzero, heq⟩ := dense.first m hm hpos
    refine Nat.le_antisymm (hone _) (List.countP_pos_iff.mpr ⟨e, he, ?_⟩)
    exact decide_eq_true ⟨⟨heq ▸ hpos, hzero⟩, heq⟩
  · intro hcount
    refine ⟨fun m hm hpos => ?_, near⟩
    have hpositive := hcount m hm hpos
    obtain ⟨e, he, hopens⟩ := List.countP_pos_iff.mp (by rw [hpositive]; exact Nat.one_pos)
    have hboth := of_decide_eq_true hopens
    exact ⟨e, he, hboth.1.2, hboth.2⟩

theorem scsi_nodup_iff : (l.scsi.map Prod.snd).Nodup ↔ l.m_deviceList.Pairwise fun x y =>
    x.1.getBus = some .scsi → y.1.getBus = some .scsi →
      ∀ a b, x.2 = some a → y.2 = some b → a ≠ b := by
  unfold BootList.scsi
  rw [List.Nodup, List.pairwise_map, List.pairwise_filterMap]
  refine List.Pairwise.iff fun x y => ?_
  constructor
  · intro h hx hy a b ha hb
    refine h (decide (x.1.family = .hvScsi), a) ?_ (decide (y.1.family = .hvScsi), b) ?_
    · rw [if_pos hx, ha]
      rfl
    · rw [if_pos hy, hb]
      rfl
  · intro h u hu v hv
    split at hu
    · next hx =>
      split at hv
      · next hy =>
        obtain ⟨a, ha, rfl⟩ := Option.map_eq_some_iff.mp hu
        obtain ⟨b, hb, rfl⟩ := Option.map_eq_some_iff.mp hv
        exact h hx hy a b ha hb
      · cases hv
    · cases hu

/-- The controllers of the other buses are made with their first places. -/
theorem moldy_count (h : Ran ms l) {b : EBus} {bus : EType9} {units : Nat}
    {address : UInt32 → Driveaddress} (c : UInt16)
    (hcontroller : ∀ i, (address i).controller.toNat = i.toNat / units % 65536)
    (hmoldy : ∀ m, moldyOf m = some ⟨c, .type bus⟩ ↔ m.getBus = some b ∧
      opens units m.dataSource.stackIndex ∧ (address m.dataSource.stackIndex).controller = c) :
    l.m_attachment.getControllers.count ⟨c, .type bus⟩ =
      (onBus ms b).countP fun e => decide (opens units e.dataSource.stackIndex ∧
        e.dataSource.stackIndex.toNat / units % 65536 = c.toNat) := by
  have hscsi : l.m_attachment.m_scsi.m_controllers.count ⟨c, .type bus⟩ = 0 := by
    refine List.count_eq_zero.mpr fun hin => ?_
    obtain ⟨i, hi⟩ := List.getElem?_of_mem hin
    obtain ⟨-, f, hf⟩ := h.counted.numbered i _ hi
    cases hf
  rw [Attachment.getControllers, List.count_append, hscsi, Nat.add_zero, h.moldy, onBus_eq]
  generalize ms.filter Clustered.Added = es
  rw [List.count_filterMap, List.countP_filter]
  refine List.countP_congr fun m _ => ?_
  rw [beq_iff_eq, hmoldy, ← UInt16.toNat_inj, hcontroller, Bool.and_eq_true, decide_eq_true_eq,
    decide_eq_true_eq]
  exact and_comm

theorem ide_count (h : Ran ms l) (c : UInt16) :
    l.m_attachment.getControllers.count ⟨c, .type .ide⟩ =
      (onBus ms .ide).countP fun e => decide (opens 4 e.dataSource.stackIndex ∧
        e.dataSource.stackIndex.toNat / 4 % 65536 = c.toNat) := by
  refine moldy_count h c (fun i => ideAddress_controller) fun m => ?_
  unfold moldyOf
  split
  · next hbus => split <;> simp [*]
  · next hbus => split <;> simp [*]
  · next hide hsata => exact iff_of_false (Option.some_ne_none _).symm fun hboth => hide hboth.1

theorem sata_count (h : Ran ms l) (c : UInt16) :
    l.m_attachment.getControllers.count ⟨c, .type .sata⟩ =
      (onBus ms .sata).countP fun e => decide (opens 6 e.dataSource.stackIndex ∧
        e.dataSource.stackIndex.toNat / 6 % 65536 = c.toNat) := by
  refine moldy_count h c (fun i => sataAddress_controller) fun m => ?_
  unfold moldyOf
  split
  · next hbus => split <;> simp [*]
  · next hbus => split <;> simp [*]
  · next hide hsata => exact iff_of_false (Option.some_ne_none _).symm fun hboth => hsata hboth.1

theorem mem_onBus (h : Ran ms l) {b : EBus} :
    m ∈ onBus ms b ↔ ∃ o, (m, o) ∈ l.m_deviceList ∧ m.getBus = some b := by
  rw [onBus_eq, List.mem_filter, ← h.devices, List.mem_map, decide_eq_true_eq]
  constructor
  · rintro ⟨⟨x, hx, rfl⟩, hbus⟩
    exact ⟨x.2, hx, hbus⟩
  · rintro ⟨o, hin, hbus⟩
    exact ⟨⟨(m, o), hin, rfl⟩, hbus⟩

/-- The addresses on a bus are those of distinct indices, and have their controllers. -/
theorem dense_of_bus (h : Ran ms l) (haddressed : l.Addressed) {b : EBus} {bus : EType9}
    {units : Nat} {address : UInt32 → Driveaddress}
    (hplace : ∀ x ∈ l.m_deviceList, x.1.getBus = some b →
      x.2 = some (address x.1.dataSource.stackIndex))
    (hinj : ∀ i j, i.toNat % (units * 65536) = j.toNat % (units * 65536) → address i = address j)
    (hcontroller : ∀ i, (address i).controller.toNat = i.toNat / units % 65536)
    (hcount : ∀ c, l.m_attachment.getControllers.count ⟨c, .type bus⟩ =
      (onBus ms b).countP fun e => decide (opens units e.dataSource.stackIndex ∧
        e.dataSource.stackIndex.toNat / units % 65536 = c.toNat))
    (hone : ∀ m a, (m, some a) ∈ l.m_deviceList → m.getBus = some b → 0 < a.controller →
      l.m_attachment.getControllers.count ⟨a.controller, .type bus⟩ = 1) :
    Dense units (onBus ms b) := by
  have hnear : (onBus ms b).Pairwise fun m e => m.dataSource.stackIndex.toNat % (units * 65536) ≠
      e.dataSource.stackIndex.toNat % (units * 65536) := by
    refine (onBus_pairwise h).mpr ((addresses_nodup_iff.mp haddressed.distinct).imp_of_mem
      fun {x y} hx hy hne hbx hby heq => ?_)
    refine hne _ _ (hplace x hx hbx) (hplace y hy hby) ?_
    rw [hbx, hby, hinj _ _ heq]
  refine (dense_iff hnear).mpr fun m hm hpos => ?_
  obtain ⟨o, hin, hbus⟩ := (mem_onBus h).mp hm
  have ho : o = some (address m.dataSource.stackIndex) := hplace _ hin hbus
  subst ho
  have hmade := hone m _ hin hbus (UInt16.lt_iff_toNat_lt.mpr (hcontroller _ ▸ hpos))
  rw [hcount, hcontroller] at hmade
  exact hmade

theorem dense_of_addressed (h : Ran ms l) (haddressed : l.Addressed) :
    Dense 4 (onBus ms .ide) ∧ Dense 6 (onBus ms .sata) :=
  ⟨dense_of_bus h haddressed h.ide (fun _ _ => ideAddress_inj.mpr)
      (fun _ => ideAddress_controller) (ide_count h) haddressed.ide,
    dense_of_bus h haddressed h.sata (fun _ _ => sataAddress_inj.mpr)
      (fun _ => sataAddress_controller) (sata_count h) haddressed.sata⟩

theorem countOf_scsi (h : Ran ms l) (f : Bool) : countOf f l.scsi =
    (onBus ms .scsi).countP fun m => decide (m.family = .hvScsi) = f := by
  have hcount : countOf f l.scsi = (l.scsi.map Prod.fst).countP fun g => decide (g = f) := by
    rw [List.countP_map]
    rfl
  rw [hcount, h.families, List.countP_map]
  rfl

/-- The number of controllers of both arrangements. -/
theorem scsi_length (h : Ran ms l) : l.m_attachment.m_scsi.m_controllers.length =
    controllersOf ((onBus ms .scsi).countP fun m => m.family = .hvScsi) +
      controllersOf ((onBus ms .scsi).countP fun m => m.family ≠ .hvScsi) := by
  rw [h.counted.length, countOf_scsi h, countOf_scsi h]
  simp

theorem attachable_of_addressed (h : Ran ms l) (haddressed : l.Addressed) : Attachable ms := by
  obtain ⟨hide, hsata⟩ := dense_of_addressed h haddressed
  refine ⟨hide, hsata, ?_⟩
  rw [← scsi_length h]
  by_contra hwraps
  -- the controller after 65536 others has the number of the first one
  have hlt := Nat.not_le.mp hwraps
  have hget := List.getElem?_eq_getElem hlt
  have hindex := (h.counted.numbered _ _ hget).1
  have hposition := haddressed.positions _ _ hget
  rw [hindex] at hposition
  cases hposition

theorem addressed_of_attachable (h : Ran ms l) (hattachable : Attachable ms) : l.Addressed := by
  have hlength : l.m_attachment.m_scsi.m_controllers.length ≤ 65536 := by
    rw [scsi_length h]
    exact hattachable.scsi
  have hserved := h.served hlength
  have hdistinct : l.addresses.Nodup := by
    have hide := (onBus_pairwise h).mp hattachable.ide.near
    have hsata := (onBus_pairwise h).mp hattachable.sata.near
    have hscsi := scsi_nodup_iff.mp hserved.nodup
    refine addresses_nodup_iff.mpr (((hide.and hsata).and hscsi).imp_of_mem ?_)
    rintro x y hx hy ⟨⟨hide, hsata⟩, hscsi⟩ a b ha hb heq
    have hbus : x.1.getBus = y.1.getBus := congrArg Prod.fst heq
    obtain rfl : a = b := congrArg Prod.snd heq
    rcases h.others x hx (by rw [ha]; rfl) with hbx | hbx | hbx
    · have hby := hbus ▸ hbx
      have hsame := (h.ide x hx hbx).symm.trans (ha.trans (hb.symm.trans (h.ide y hy hby)))
      exact hide hbx hby (ideAddress_inj.mp (Option.some.inj hsame))
    · have hby := hbus ▸ hbx
      have hsame := (h.sata x hx hbx).symm.trans (ha.trans (hb.symm.trans (h.sata y hy hby)))
      exact hsata hbx hby (sataAddress_inj.mp (Option.some.inj hsame))
    · exact hscsi hbx (hbus ▸ hbx) a a ha hb rfl
  have hscsi : ∀ m a, (m, some a) ∈ l.m_deviceList → m.getBus = some .scsi →
      (decide (m.family = .hvScsi), a) ∈ l.scsi := by
    intro m a hin hbus
    refine List.mem_filterMap.mpr ⟨_, hin, ?_⟩
    rw [if_pos hbus]
    rfl
  refine ⟨hdistinct, fun m a hin hbus => ?_, fun c => ?_, fun i c hi => ?_,
    fun m a hin hbus hpos => ?_, fun m a hin hbus hpos => ?_⟩
  · rw [hserved.served _ (hscsi m a hin hbus)]
    have hmodel : modelOf (decide (m.family = .hvScsi)) = m.family := by
      unfold Clustered.family
      split <;> rfl
    rw [hmodel]
  · -- the targets of one controller are distinct numbers below 256
    let all := (List.range 256).map fun t : Nat =>
      (some EBus.scsi, ({ controller := c, target := some (UInt16.ofNat t) } : Driveaddress))
    have hsubset : (l.addresses.filter fun x =>
        decide (x.1 = some .scsi ∧ x.2.controller = c)) ⊆ all := by
      rintro ⟨b, a⟩ hx
      obtain ⟨hin, hboth⟩ := List.mem_filter.mp hx
      obtain ⟨rfl, rfl⟩ := of_decide_eq_true hboth
      obtain ⟨⟨m, o⟩, hm, ho⟩ := List.mem_filterMap.mp hin
      obtain ⟨a', rfl, heq⟩ := Option.map_eq_some_iff.mp ho
      obtain ⟨hbus, rfl⟩ := Prod.mk.inj heq
      obtain ⟨t, ht, hshape⟩ := hserved.shape _ (hscsi m a' hm hbus)
      refine List.mem_map.mpr ⟨t.toNat, List.mem_range.mpr ht, ?_⟩
      rw [UInt16.ofNat_toNat]
      exact congrArg (Prod.mk _) hshape.symm
    have hlength := ((hdistinct.filter _).subperm hsubset).length_le
    rw [List.length_map, List.length_range] at hlength
    exact hlength
  · rw [(h.counted.numbered i c hi).1, UInt16.toNat_ofNat']
    have hlt := (List.getElem?_eq_some_iff.mp hi).1
    exact Nat.mod_eq_of_lt (Nat.lt_of_lt_of_le hlt hlength)
  · have ha : a = ideAddress m.dataSource.stackIndex := Option.some.inj (h.ide _ hin hbus)
    subst ha
    rw [ide_count h, ideAddress_controller]
    refine (dense_iff hattachable.ide.near).mp hattachable.ide m ((mem_onBus h).mpr ⟨_, hin, hbus⟩) ?_
    rw [← ideAddress_controller]
    exact UInt16.lt_iff_toNat_lt.mp hpos
  · have ha : a = sataAddress m.dataSource.stackIndex := Option.some.inj (h.sata _ hin hbus)
    subst ha
    rw [sata_count h, sataAddress_controller]
    refine (dense_iff hattachable.sata.near).mp hattachable.sata m
      ((mem_onBus h).mpr ⟨_, hin, hbus⟩) ?_
    rw [← sataAddress_controller]
    exact UInt16.lt_iff_toNat_lt.mp hpos

end Run

/-- All disks have addresses of their own with controllers that are there, just when IDE and SATA
are filled from the first place of each controller and the numbers do not wrap. -/
theorem addressed_iff (ms : List Clustered) :
    (ms.foldl BootList.add {}).Addressed ↔ Attachable ms :=
  ⟨attachable_of_addressed (run_ran ms), addressed_of_attachable (run_ran ms)⟩

/-- A single IDE disk at index 5 is at a controller that nobody made. -/
theorem not_addressed_gap :
    ¬ ∀ ms : List Clustered, (ms.map fun m => m.dataSource.place).Nodup →
      (ms.foldl BootList.add {}).Addressed := by
  intro h
  have haddressed := h [.hardDisk (diskAt .ide 5)] (by decide)
  have hcount := haddressed.ide (.hardDisk (diskAt .ide 5)) (ideAddress 5) (by decide) rfl (by decide)
  revert hcount
  decide

end DispService.Transponster
