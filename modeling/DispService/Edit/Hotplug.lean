import Mathlib.Data.List.Basic
import Mathlib.Order.Defs.PartialOrder

/-! The actions on a running machine that a change of its configuration calls for: which devices of
a class are plugged and unplugged, and in which order. -/
namespace DispService.Edit.Hotplug

inductive Enabled where
  | deviceDisabled
  | deviceEnabled
deriving DecidableEq

inductive Connected where
  | deviceDisconnected
  | deviceConnected
deriving DecidableEq

/-- A device of a class, with what else tells it apart. -/
structure Device (β : Type) where
  enabled : Enabled
  connected : Connected
  body : β
deriving DecidableEq

variable {β : Type}

/-- What an action calls at the editor of the domain. -/
inductive Action (β : Type) where
  | plug (d : Device β)
  | unplug (d : Device β)
  | update (d : Device β)
  | event
deriving DecidableEq

/-- The two readings of `canPlug`. -/
structure Traits (β : Type) where
  canPlug : Device β → Bool
  canPlugUpdate : Device β → Device β → Bool

namespace Generic

def canPlug (novel_ : Device β) : Bool :=
  decide (novel_.enabled = .deviceEnabled) && decide (novel_.connected = .deviceConnected)

def canPlugUpdate (original_ update_ : Device β) : Bool :=
  decide (update_.enabled = .deviceEnabled) && decide (update_.connected = .deviceConnected) &&
    (decide (update_.enabled ≠ original_.enabled) || decide (update_.connected ≠ original_.connected))

def traits : Traits β := ⟨canPlug, canPlugUpdate⟩

end Generic

-- `Specific<CVmGenericNetworkAdapter>`
namespace NetworkAdapter

def canPlug (novel_ : Device β) : Bool := decide (novel_.enabled = .deviceEnabled)

def canPlugUpdate (original_ update_ : Device β) : Bool :=
  decide (update_.enabled = .deviceEnabled) && decide (update_.enabled ≠ original_.enabled)

def canUpdate (original_ update_ : Device β) : Bool :=
  decide (update_.enabled = .deviceEnabled) && decide (update_.enabled = original_.enabled) &&
    decide (update_.connected ≠ original_.connected)

def traits : Traits β := ⟨canPlug, canPlugUpdate⟩

end NetworkAdapter

section Plan

-- When an item of a list is the device that is looked for.
variable (same : Device β → Device β → Bool)

/-- `match`, for the first item that is the same. -/
def lookup (needle_ : Device β) (haystack_ : List (Device β)) : Option (Device β) :=
  haystack_.find? fun x => same x needle_

variable (traits : Traits β)

/-- The device is to be plugged when a list is left for the one that has it. -/
def isNovel (l : List (Device β)) (d : Device β) : Bool :=
  match lookup same d l with
  | none => traits.canPlug d
  | some x => traits.canPlugUpdate x d

/-- Each action is put before those that are there. -/
def prepend (actions output : List (Action β)) : List (Action β) :=
  actions.foldl (fun output a => a :: output) output

/-- `Generic<T>::operator()` -/
def Generic.plan (start final : List (Device β)) : List (Action β) :=
  let output := prepend ((final.filter (isNovel same traits start)).map .plug) []
  prepend ((start.filter (isNovel same traits final)).map .unplug) output

/-- `Factory<CVmGenericNetworkAdapter>::operator()` -/
def Factory.plan (start final : List (Device β)) : List (Action β) :=
  let output := Generic.plan same NetworkAdapter.traits start final
  let c := (final.filter fun d =>
    match lookup same d start with
    | none => false
    | some x => NetworkAdapter.canUpdate x d).map Action.update
  if c.isEmpty then output else prepend (.event :: c) output

/-- The devices that are plugged in the machine. -/
abbrev Machine (β : Type) := List (Device β)

def Machine.has (s : Machine β) (d : Device β) : Bool := s.any fun x => same x d

/-- The machine has no place for a device it has, and nothing to take out for one it has not. -/
def Machine.execute (s : Machine β) : Action β → Option (Machine β)
  | .plug d => if s.has same d then none else some (d :: s)
  | .unplug d => if s.has same d then some (s.filter fun x => !same x d) else none
  | .update _ => some s
  | .event => some s

/-- The chain of actions, one by one. -/
def Machine.run (s : Machine β) : List (Action β) → Option (Machine β)
  | [] => some s
  | a :: rest => (s.execute same a).bind fun s' => s'.run rest

/-- A list has a device that can be plugged. -/
def Wants (l : List (Device β)) (d : Device β) : Prop :=
  ∃ x ∈ l, traits.canPlug x = true ∧ same x d = true

/-- The devices that are plugged are those of a list that can be. -/
def Reflects (s : Machine β) (l : List (Device β)) : Prop :=
  ∀ d, s.has same d = true ↔ Wants same traits l d

/-- No two items of a list are one device. -/
def Distinct (l : List (Device β)) : Prop :=
  l.Pairwise fun a b => same a b = false

/-- What is expected of a plan. -/
structure Sound (start final : List (Device β)) (plan : List (Action β)) : Prop where
  /-- It runs, and what is wanted is plugged then. -/
  run : ∀ s, Reflects same traits s start →
    ∃ s', s.run same plan = some s' ∧ Reflects same traits s' final
  ordered : plan.Pairwise fun a b => ∀ d e, ¬ (a = .plug d ∧ b = .unplug e)
  /-- What both lists want is left alone. -/
  untouched : ∀ d, Wants same traits start d → Wants same traits final d →
    ∀ e, (Action.plug e ∈ plan ∨ Action.unplug e ∈ plan) → same e d = false

end Plan

/-- An update is to be plugged when it can be and the original could not. -/
structure Traits.Lawful (traits : Traits β) : Prop where
  update : ∀ x d, traits.canPlugUpdate x d = (traits.canPlug d && !traits.canPlug x)

theorem Generic.lawful : (Generic.traits : Traits β).Lawful where
  update x d := by
    cases x with
    | mk xe xc xb =>
      cases d with
      | mk de dc db => cases xe <;> cases xc <;> cases de <;> cases dc <;> rfl

theorem NetworkAdapter.lawful : (NetworkAdapter.traits : Traits β).Lawful where
  update x d := by
    cases x with
    | mk xe xc xb =>
      cases d with
      | mk de dc db => cases xe <;> cases de <;> rfl

theorem prepend_eq (actions output : List (Action β)) :
    prepend actions output = actions.reverse ++ output := by
  induction actions generalizing output with
  | nil => rfl
  | cons a actions ih =>
    rw [prepend, List.foldl_cons, ← prepend, ih, List.reverse_cons, List.append_assoc]
    rfl

section Same

variable {same : Device β → Device β → Bool} {traits : Traits β}
  {start final l : List (Device β)} {d e : Device β}

theorem lookup_some (hsame : Equivalence fun a b => same a b = true) (hdistinct : Distinct same l)
    {x : Device β} : lookup same d l = some x ↔ x ∈ l ∧ same x d = true := by
  refine ⟨fun h => ⟨List.mem_of_find?_eq_some h, (List.find?_eq_some_iff_append.mp h).1⟩, fun ⟨hx, hxd⟩ => ?_⟩
  obtain ⟨front, back, rfl⟩ := List.append_of_mem hx
  refine List.find?_eq_some_iff_append.mpr ⟨hxd, front, back, rfl, fun a ha => ?_⟩
  have hax := (List.pairwise_append.mp hdistinct).2.2 a ha x List.mem_cons_self
  rw [Bool.not_eq_true']
  by_contra had
  have hsameax := hsame.trans (Bool.not_eq_false _ ▸ had) (hsame.symm hxd)
  rw [hax] at hsameax
  exact Bool.false_ne_true hsameax

theorem wants_same (hsame : Equivalence fun a b => same a b = true) (hde : same d e = true) :
    Wants same traits l d → Wants same traits l e := by
  rintro ⟨x, hx, hplug, hxd⟩
  exact ⟨x, hx, hplug, hsame.trans hxd hde⟩

/-- What is to be plugged can be, and the list that is left does not have it. -/
theorem isNovel_iff (hlawful : traits.Lawful) (hsame : Equivalence fun a b => same a b = true)
    (hdistinct : Distinct same l) :
    isNovel same traits l d = true ↔ traits.canPlug d = true ∧ ¬ Wants same traits l d := by
  rw [isNovel]
  cases hlookup : lookup same d l with
  | none =>
    dsimp only
    refine (and_iff_left ?_).symm
    rintro ⟨x, hx, -, hxd⟩
    rw [(lookup_some hsame hdistinct).mpr ⟨hx, hxd⟩] at hlookup
    cases hlookup
  | some x =>
    obtain ⟨hx, hxd⟩ := (lookup_some hsame hdistinct).mp hlookup
    dsimp only
    rw [hlawful.update, Bool.and_eq_true, Bool.not_eq_true']
    refine and_congr_right fun _ => ⟨?_, fun hwants => ?_⟩
    · rintro hplug ⟨y, hy, hyplug, hyd⟩
      have hxy := (lookup_some hsame hdistinct).mpr ⟨hy, hyd⟩
      rw [hlookup, Option.some.injEq] at hxy
      rw [hxy, hyplug] at hplug
      exact Bool.false_ne_true hplug.symm
    · by_contra hplug
      exact hwants ⟨x, hx, Bool.not_eq_false _ ▸ hplug, hxd⟩

end Same

section Run

variable {same : Device β → Device β → Bool} {s : Machine β}

theorem run_append (a b : List (Action β)) (s : Machine β) :
    s.run same (a ++ b) = (s.run same a).bind fun s' => s'.run same b := by
  induction a generalizing s with
  | nil => rfl
  | cons x a ih =>
    rw [List.cons_append, Machine.run, Machine.run]
    cases s.execute same x with
    | none => rfl
    | some s' => exact ih s'

theorem has_iff {d : Device β} : s.has same d = true ↔ ∃ x ∈ s, same x d = true := by
  rw [Machine.has, List.any_eq_true]

theorem has_unplugged (hsame : Equivalence fun a b => same a b = true) (u d : Device β) :
    Machine.has same (s.filter fun x => !same x u) d = true ↔
      s.has same d = true ∧ same u d = false := by
  rw [has_iff, has_iff]
  constructor
  · rintro ⟨x, hx, hxd⟩
    obtain ⟨hmem, hxu⟩ := List.mem_filter.mp hx
    refine ⟨⟨x, hmem, hxd⟩, ?_⟩
    by_contra hud
    have hsamexu := hsame.trans hxd (hsame.symm (Bool.not_eq_false _ ▸ hud))
    rw [hsamexu] at hxu
    exact Bool.false_ne_true hxu
  · rintro ⟨⟨x, hx, hxd⟩, hud⟩
    refine ⟨x, List.mem_filter.mpr ⟨hx, ?_⟩, hxd⟩
    rw [Bool.not_eq_true']
    by_contra hxu
    have hsameud := hsame.trans (hsame.symm (Bool.not_eq_false _ ▸ hxu)) hxd
    rw [hud] at hsameud
    exact Bool.false_ne_true hsameud

/-- Devices that are plugged and are not one another go, one by one. -/
theorem run_unplugs (hsame : Equivalence fun a b => same a b = true) (us : List (Device β))
    (hdistinct : Distinct same us) (hhas : ∀ u ∈ us, s.has same u = true) :
    ∃ s', s.run same (us.map .unplug) = some s' ∧
      ∀ d, s'.has same d = true ↔ s.has same d = true ∧ ∀ u ∈ us, same u d = false := by
  induction us generalizing s with
  | nil => exact ⟨s, rfl, fun d => (and_iff_left fun u hu => absurd hu List.not_mem_nil).symm⟩
  | cons u us ih =>
    obtain ⟨hhead, htail⟩ := List.pairwise_cons.mp hdistinct
    have hstep : s.execute same (.unplug u) = some (s.filter fun x => !same x u) :=
      if_pos (hhas u List.mem_cons_self)
    obtain ⟨s', hrun, hs'⟩ := ih htail fun v hv =>
      (has_unplugged hsame u v).mpr ⟨hhas v (List.mem_cons_of_mem _ hv), hhead v hv⟩
    refine ⟨s', ?_, fun d => ?_⟩
    · rw [List.map_cons, Machine.run, hstep]
      exact hrun
    · rw [hs', has_unplugged hsame, List.forall_mem_cons, and_assoc]

/-- Devices that are not plugged and are not one another come, one by one. -/
theorem run_plugs (ps : List (Device β))
    (hdistinct : Distinct same ps) (hhas : ∀ p ∈ ps, s.has same p = false) :
    ∃ s', s.run same (ps.map .plug) = some s' ∧
      ∀ d, s'.has same d = true ↔ s.has same d = true ∨ ∃ p ∈ ps, same p d = true := by
  induction ps generalizing s with
  | nil => exact ⟨s, rfl, fun d => (or_iff_left fun ⟨p, hp, _⟩ => absurd hp List.not_mem_nil).symm⟩
  | cons p ps ih =>
    obtain ⟨hhead, htail⟩ := List.pairwise_cons.mp hdistinct
    have hstep : s.execute same (.plug p) = some (p :: s) := by
      rw [Machine.execute, hhas p List.mem_cons_self, if_neg Bool.false_ne_true]
    have hnext : ∀ d, Machine.has same (p :: s) d = (same p d || s.has same d) := fun d =>
      List.any_cons
    obtain ⟨s', hrun, hs'⟩ := ih (s := p :: s) htail fun q hq => by
      rw [hnext, hhead q hq, hhas q (List.mem_cons_of_mem _ hq)]
      rfl
    refine ⟨s', ?_, fun d => ?_⟩
    · rw [List.map_cons, Machine.run, hstep]
      exact hrun
    · rw [hs', hnext, Bool.or_eq_true, List.exists_mem_cons_iff, or_assoc, or_left_comm]

/-- Updates change nothing that is plugged. -/
theorem run_quiet (as : List (Action β)) (has : ∀ a ∈ as, a = .event ∨ ∃ d, a = .update d) :
    s.run same as = some s := by
  induction as with
  | nil => rfl
  | cons a as ih =>
    obtain ⟨hhead, htail⟩ := List.forall_mem_cons.mp has
    rw [Machine.run]
    rcases hhead with rfl | ⟨d, rfl⟩ <;> exact ih htail

end Run

section Plan

variable {same : Device β → Device β → Bool} {traits : Traits β} {start final : List (Device β)}

theorem Generic.plan_eq (same : Device β → Device β → Bool) (traits : Traits β)
    (start final : List (Device β)) :
    Generic.plan same traits start final =
      (start.filter (isNovel same traits final)).reverse.map .unplug ++
        (final.filter (isNovel same traits start)).reverse.map .plug := by
  rw [Generic.plan, prepend_eq, prepend_eq, List.append_nil, List.map_reverse, List.map_reverse]

theorem distinct_novel (traits : Traits β) (final : List (Device β)) (hsame : Equivalence fun a b => same a b = true)
    (hdistinct : Distinct same start) :
    Distinct same (start.filter (isNovel same traits final)).reverse := by
  refine List.pairwise_reverse.mpr ((hdistinct.sublist List.filter_sublist).imp fun hab => ?_)
  by_contra hba
  have hsameab := hsame.symm (Bool.not_eq_false _ ▸ hba)
  rw [hab] at hsameab
  exact Bool.false_ne_true hsameab

theorem mem_novel (start : List (Device β)) (d : Device β) (hlawful : traits.Lawful)
    (hsame : Equivalence fun a b => same a b = true) (hfinal : Distinct same final) :
    d ∈ (start.filter (isNovel same traits final)).reverse ↔
      d ∈ start ∧ traits.canPlug d = true ∧ ¬ Wants same traits final d := by
  rw [List.mem_reverse, List.mem_filter, isNovel_iff hlawful hsame hfinal]

theorem wants_self (hsame : Equivalence fun a b => same a b = true) {l : List (Device β)}
    {d : Device β} (hd : d ∈ l) (hplug : traits.canPlug d = true) : Wants same traits l d :=
  ⟨d, hd, hplug, hsame.refl d⟩

/-- The plan takes a machine from the devices of one list to those of the other. -/
theorem Generic.plan_run (hlawful : traits.Lawful)
    (hsame : Equivalence fun a b => same a b = true) (hstart : Distinct same start)
    (hfinal : Distinct same final) {s : Machine β} (hs : Reflects same traits s start) :
    ∃ s', s.run same (Generic.plan same traits start final) = some s' ∧
      Reflects same traits s' final := by
  have hunplug := fun d => mem_novel start d hlawful hsame hfinal
  have hplug := fun d => mem_novel final d hlawful hsame hstart
  obtain ⟨s₁, hrun₁, hs₁⟩ := run_unplugs (s := s) hsame _
    (distinct_novel traits final hsame hstart) fun u hu => by
      obtain ⟨hmem, hcan, -⟩ := (hunplug u).mp hu
      exact (hs u).mpr (wants_self hsame hmem hcan)
  obtain ⟨s₂, hrun₂, hs₂⟩ := run_plugs (s := s₁) _
    (distinct_novel traits start hsame hfinal) fun p hp => by
      obtain ⟨-, -, hnot⟩ := (hplug p).mp hp
      by_contra hhas
      exact hnot ((hs p).mp ((hs₁ p).mp (Bool.not_eq_false _ ▸ hhas)).1)
  refine ⟨s₂, ?_, fun d => ?_⟩
  · rw [Generic.plan_eq, run_append, hrun₁]
    exact hrun₂
  · rw [hs₂, hs₁, hs]
    constructor
    · rintro (⟨⟨x, hx, hcan, hxd⟩, hkept⟩ | ⟨p, hp, hpd⟩)
      · -- a device that stays is wanted by the other list too
        have hwants : Wants same traits final x := by
          by_contra hnot
          have hgone := hkept x ((hunplug x).mpr ⟨hx, hcan, hnot⟩)
          rw [hxd] at hgone
          exact Bool.false_ne_true hgone.symm
        exact wants_same hsame hxd hwants
      · obtain ⟨hmem, hcan, -⟩ := (hplug p).mp hp
        exact ⟨p, hmem, hcan, hpd⟩
    · rintro ⟨y, hy, hcan, hyd⟩
      by_cases hwants : Wants same traits start y
      · refine .inl ⟨wants_same hsame hyd hwants, fun u hu => ?_⟩
        obtain ⟨-, -, hnot⟩ := (hunplug u).mp hu
        by_contra hud
        exact hnot ⟨y, hy, hcan, hsame.trans hyd (hsame.symm (Bool.not_eq_false _ ▸ hud))⟩
      · exact .inr ⟨y, (hplug y).mpr ⟨hy, hcan, hwants⟩, hyd⟩

theorem Generic.plan_ordered :
    (Generic.plan same traits start final).Pairwise
      fun a b => ∀ d e, ¬ (a = .plug d ∧ b = .unplug e) := by
  rw [Generic.plan_eq]
  refine List.pairwise_append.mpr ⟨?_, ?_, ?_⟩
  · refine List.pairwise_map.mpr (List.pairwise_of_forall fun u v d e h => ?_)
    cases h.1
  · refine List.pairwise_map.mpr (List.pairwise_of_forall fun u v d e h => ?_)
    cases h.2
  · intro a ha b hb d e h
    obtain ⟨u, -, rfl⟩ := List.mem_map.mp ha
    cases h.1

theorem Generic.plan_untouched (hlawful : traits.Lawful)
    (hsame : Equivalence fun a b => same a b = true) (hstart : Distinct same start)
    (hfinal : Distinct same final) {d : Device β} (hd : Wants same traits start d)
    (hd' : Wants same traits final d) {e : Device β}
    (he : Action.plug e ∈ Generic.plan same traits start final ∨
      Action.unplug e ∈ Generic.plan same traits start final) : same e d = false := by
  by_contra hed
  have hsameed : same d e = true := hsame.symm (Bool.not_eq_false _ ▸ hed)
  rw [Generic.plan_eq, List.mem_append, List.mem_append] at he
  have hunplug : e ∉ (start.filter (isNovel same traits final)).reverse := fun h =>
    ((mem_novel _ _ hlawful hsame hfinal).mp h).2.2 (wants_same hsame hsameed hd')
  have hplug : e ∉ (final.filter (isNovel same traits start)).reverse := fun h =>
    ((mem_novel _ _ hlawful hsame hstart).mp h).2.2 (wants_same hsame hsameed hd)
  rcases he with (h | h) | (h | h) <;> obtain ⟨x, hx, hxe⟩ := List.mem_map.mp h <;> cases hxe
  · exact hplug hx
  · exact hunplug hx

theorem Generic.plan_sound (hlawful : traits.Lawful)
    (hsame : Equivalence fun a b => same a b = true) (hstart : Distinct same start)
    (hfinal : Distinct same final) :
    Sound same traits start final (Generic.plan same traits start final) where
  run _ hs := Generic.plan_run hlawful hsame hstart hfinal hs
  ordered := Generic.plan_ordered
  untouched _ hd hd' _ he := Generic.plan_untouched hlawful hsame hstart hfinal hd hd' he

/-- The updates of adapters come first. -/
theorem Factory.plan_eq (same : Device β → Device β → Bool) (start final : List (Device β)) :
    ∃ quiet, Factory.plan same start final =
        quiet ++ Generic.plan same NetworkAdapter.traits start final ∧
      ∀ a ∈ quiet, a = .event ∨ ∃ d, a = .update d := by
  rw [Factory.plan]
  split
  · exact ⟨[], rfl, fun a ha => absurd ha List.not_mem_nil⟩
  · refine ⟨_, prepend_eq _ _, fun a ha => ?_⟩
    rw [List.mem_reverse, List.mem_cons, List.mem_map] at ha
    rcases ha with rfl | ⟨d, -, rfl⟩
    · exact .inl rfl
    · exact .inr ⟨d, rfl⟩

theorem Sound.append {plan quiet : List (Action β)} (h : Sound same traits start final plan)
    (hquiet : ∀ a ∈ quiet, a = .event ∨ ∃ d, a = .update d) :
    Sound same traits start final (quiet ++ plan) where
  run s hs := by
    obtain ⟨s', hrun, hs'⟩ := h.run s hs
    refine ⟨s', ?_, hs'⟩
    rw [run_append, run_quiet quiet hquiet]
    exact hrun
  ordered := by
    have hnot : ∀ a ∈ quiet, ∀ d, a ≠ .plug d := by
      intro a ha d
      rcases hquiet a ha with rfl | ⟨e, rfl⟩ <;> intro hplug <;> cases hplug
    refine List.pairwise_append.mpr ⟨?_, h.ordered, fun a ha b _ d e hab => hnot a ha d hab.1⟩
    exact List.Pairwise.imp_of_mem (fun ha _ _ d e hab => hnot _ ha d hab.1)
      (List.pairwise_of_forall fun _ _ => trivial : quiet.Pairwise fun _ _ => True)
  untouched d hd hd' e he := by
    refine h.untouched d hd hd' e ?_
    rw [List.mem_append, List.mem_append] at he
    rcases he with (he | he) | (he | he)
    · rcases hquiet _ he with hcase | ⟨x, hcase⟩ <;> cases hcase
    · exact .inl he
    · rcases hquiet _ he with hcase | ⟨x, hcase⟩ <;> cases hcase
    · exact .inr he

end Plan

/-- The plan for a class of devices, and that for network adapters. -/
theorem hotplug_sound {same : Device β → Device β → Bool}
    (hsame : Equivalence fun a b => same a b = true) {start final : List (Device β)}
    (hstart : Distinct same start) (hfinal : Distinct same final) :
    Sound same Generic.traits start final (Generic.plan same Generic.traits start final) ∧
      Sound same NetworkAdapter.traits start final (Factory.plan same start final) := by
  refine ⟨Generic.plan_sound Generic.lawful hsame hstart hfinal, ?_⟩
  obtain ⟨quiet, hplan, hquiet⟩ := Factory.plan_eq same start final
  rw [hplan]
  exact (Generic.plan_sound NetworkAdapter.lawful hsame hstart hfinal).append hquiet

/-- Devices by their bodies. -/
def sameBody (a b : Device Nat) : Bool := a.body == b.body

theorem sameBody_equivalence : Equivalence fun a b => sameBody a b = true where
  refl _ := beq_self_eq_true _
  symm h := beq_iff_eq.mpr (beq_iff_eq.mp h).symm
  trans h h' := beq_iff_eq.mpr ((beq_iff_eq.mp h).trans (beq_iff_eq.mp h'))

theorem hotplug_sound_swap :
    Generic.plan sameBody Generic.traits [⟨.deviceEnabled, .deviceConnected, 1⟩]
        [⟨.deviceEnabled, .deviceConnected, 2⟩] =
      [.unplug ⟨.deviceEnabled, .deviceConnected, 1⟩,
        .plug ⟨.deviceEnabled, .deviceConnected, 2⟩] ∧
    Sound sameBody Generic.traits [⟨.deviceEnabled, .deviceConnected, 1⟩]
      [⟨.deviceEnabled, .deviceConnected, 2⟩]
      (Generic.plan sameBody Generic.traits [⟨.deviceEnabled, .deviceConnected, 1⟩]
        [⟨.deviceEnabled, .deviceConnected, 2⟩]) :=
  ⟨by decide, (hotplug_sound sameBody_equivalence (List.pairwise_singleton _ _)
    (List.pairwise_singleton _ _)).1⟩

end DispService.Edit.Hotplug
