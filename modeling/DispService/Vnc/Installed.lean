import DispService.Vnc.Starter

/-! The starter's promises hold through a run just when exits find their own server
and no start outlives a `Terminate` with its ticket. -/
namespace DispService.Vnc.Starter

open DispService.Lib

variable {d : Starter} {i k : Nat}

theorem setHold_owner {h : Hold} (x : Nat) :
    ((d.setHold k h).processes x).owner = (d.processes x).owner := by
  unfold setHold
  by_cases hx : x = k
  · subst hx
    simp
  · simp [hx]

theorem setHold_self {h : Hold} : ((d.setHold k h).processes k).hold = h := by
  simp [setHold]

theorem setHold_other {h : Hold} {x : Nat} (hx : x ≠ k) :
    (d.setHold k h).processes x = d.processes x := by
  simp [setHold, hx]

theorem setFate_self {f : Fate} : (d.setFate i f).fate i = f := by
  simp [setFate]

theorem setFate_other {f : Fate} {x : Nat} (hx : x ≠ i) : (d.setFate i f).fate x = d.fate x := by
  simp [setFate, hx]

theorem destroy_owner (x : Nat) : ((d.destroy i).processes x).owner = (d.processes x).owner := by
  unfold destroy
  dsimp only
  split <;> rfl

theorem destroy_own {x : Nat} (hx : (d.processes x).owner = i) :
    ((d.destroy i).processes x).hold = doom (d.processes x).hold := by
  unfold destroy
  dsimp only
  rw [if_pos hx]

theorem destroy_other {x : Nat} (hx : (d.processes x).owner ≠ i) :
    (d.destroy i).processes x = d.processes x := by
  unfold destroy
  dsimp only
  rw [if_neg hx]

theorem doom_ne_guarded (h : Hold) : doom h ≠ .guarded := by
  cases h <;> decide

theorem doom_loose {h : Hold} (hloose : doom h = .loose) : h = .loose := by
  cases h with
  | loose => rfl
  | guarded => cases hloose
  | doomed => cases hloose
  | gone => cases hloose

theorem doom_gone {h : Hold} (hgone : h = .gone) : doom h = .gone := by
  subst hgone
  rfl

structure Inv (d : Starter) : Prop where
  installed : ∀ i, d.fate i = .installed ↔ d.impl = some i
  /-- A ticket is out only while nothing is installed. -/
  ticket : d.ticket ≠ none → d.impl = none
  own : ∀ i k, d.fate i = .crashed k → k < d.launched ∧ (d.processes k).owner = i
  fresh : ∀ k, d.launched ≤ k → (d.processes k).hold = .gone
  loose : ∀ k, (d.processes k).hold = .loose → d.fate (d.processes k).owner = .starting
  guarded : ∀ k, (d.processes k).hold = .guarded →
    d.fate (d.processes k).owner = .starting ∨ d.fate (d.processes k).owner = .installed
  heeded : ∀ i, d.asked i = true → d.fate i = .starting ∨ d.fate i = .failed

theorem start_inv : Inv {} where
  installed := fun _ => iff_of_false (fun hno => by cases hno) (fun hno => by cases hno)
  ticket := fun _ => rfl
  own := fun _ _ hno => by cases hno
  fresh := fun _ _ => rfl
  loose := fun _ hno => by cases hno
  guarded := fun _ hno => by cases hno
  heeded := fun _ hno => by cases hno

theorem Inv.kept (h : Inv d) : Kept d where
  installed := h.installed
  single := by
    intro i j hi hj
    have hi' := (h.installed i).mp hi
    rw [(h.installed j).mp hj] at hi'
    exact (Option.some.inj hi').symm
  own := fun i k hk => (h.own i k hk).2
  stopped := by
    intro k hstarting hinstalled
    cases hhold : (d.processes k).hold with
    | loose => exact absurd (h.loose k hhold) hstarting
    | guarded => exact absurd (h.guarded k hhold) (not_or.mpr ⟨hstarting, hinstalled⟩)
    | doomed => exact .inl rfl
    | gone => exact .inr rfl
  heeded := h.heeded

/-- A process that has been launched changes hands. -/
theorem Inv.setHold {h : Hold} (inv : Inv d) (present : k < d.launched) (hloose : h ≠ .loose)
    (hguarded : h = .guarded → d.fate (d.processes k).owner = .starting) :
    Inv (d.setHold k h) where
  installed := inv.installed
  ticket := inv.ticket
  own := by
    intro i x hx
    rw [setHold_owner]
    exact inv.own i x hx
  fresh := by
    intro x hx
    have hlaunched : d.launched ≤ x := hx
    rw [setHold_other (by omega)]
    exact inv.fresh x hlaunched
  loose := by
    intro x hx
    rw [setHold_owner]
    by_cases hxk : x = k
    · subst hxk
      rw [setHold_self] at hx
      exact absurd hx hloose
    · rw [setHold_other hxk] at hx
      exact inv.loose x hx
  guarded := by
    intro x hx
    rw [setHold_owner]
    by_cases hxk : x = k
    · subst hxk
      rw [setHold_self] at hx
      exact .inl (hguarded hx)
    · rw [setHold_other hxk] at hx
      exact inv.guarded x hx
  heeded := inv.heeded

/-- A unit comes to its end and its components go with it. -/
theorem Inv.retire {f : Fate} {impl ticket : Option Nat} (h : Inv d)
    (hinstalled : f ≠ .installed) (hne : impl ≠ some i)
    (himpl : ∀ j, j ≠ i → (d.fate j = .installed ↔ impl = some j))
    (hticket : ticket ≠ none → impl = none)
    (hown : ∀ k, f = .crashed k → k < d.launched ∧ (d.processes k).owner = i)
    (hasked : d.asked i = true → f = .failed)
    (hloose : ∀ k, (d.processes k).owner = i → (d.processes k).hold ≠ .loose) :
    Inv (({ d with impl, ticket }.setFate i f).destroy i) where
  installed := by
    intro j
    by_cases hj : j = i
    · subst hj
      exact iff_of_false (fun hno => hinstalled (setFate_self.symm.trans hno)) hne
    · have hfate : ({ d with impl, ticket }.setFate i f).fate j = d.fate j := setFate_other hj
      exact hfate ▸ himpl j hj
  ticket := hticket
  own := by
    intro j x hx
    rw [destroy_owner]
    by_cases hj : j = i
    · subst hj
      exact hown x (setFate_self.symm.trans hx)
    · have hfate : ({ d with impl, ticket }.setFate i f).fate j = d.fate j := setFate_other hj
      exact h.own j x (hfate.symm.trans hx)
  fresh := by
    intro x hx
    have hgone : (d.processes x).hold = .gone := h.fresh x hx
    by_cases hxi : (d.processes x).owner = i
    · exact (destroy_own hxi).trans (doom_gone hgone)
    · exact (congrArg Process.hold (destroy_other hxi)).trans hgone
  loose := by
    intro x hx
    rw [destroy_owner]
    by_cases hxi : (d.processes x).owner = i
    · have hdoom := (destroy_own hxi).symm.trans hx
      exact absurd (doom_loose hdoom) (hloose x hxi)
    · have hhold := (congrArg Process.hold (destroy_other hxi)).symm.trans hx
      exact (setFate_other hxi).trans (h.loose x hhold)
  guarded := by
    intro x hx
    rw [destroy_owner]
    by_cases hxi : (d.processes x).owner = i
    · exact absurd ((destroy_own hxi).symm.trans hx) (doom_ne_guarded _)
    · have hhold := (congrArg Process.hold (destroy_other hxi)).symm.trans hx
      have hfate : ({ d with impl, ticket }.setFate i f).fate (d.processes x).owner =
          d.fate (d.processes x).owner := setFate_other hxi
      exact hfate ▸ h.guarded x hhold
  heeded := by
    intro j hj
    by_cases hji : j = i
    · subst hji
      exact .inr (setFate_self.trans (hasked hj))
    · have hfate : ({ d with impl, ticket }.setFate i f).fate j = d.fate j := setFate_other hji
      exact hfate ▸ h.heeded j hj

theorem Inv.launched (h : Inv d) (hold : (d.processes k).hold ≠ .gone) : k < d.launched := by
  by_contra hno
  exact hold (h.fresh k (by omega))

theorem Inv.begin (h : Inv d) : Inv d.begin := by
  unfold Starter.begin
  by_cases himpl : d.impl.isSome = true
  · rw [if_pos himpl]
    exact h
  · rw [if_neg himpl]
    have hnone : d.impl = none := Option.not_isSome_iff_eq_none.mp himpl
    exact ⟨h.installed, fun _ => hnone, h.own, h.fresh, h.loose, h.guarded, h.heeded⟩

theorem Inv.launch (h : Inv d) (idle : d.Idle i) : Inv (d.step (.launch i)) := by
  have hother : ∀ x, x ≠ d.launched →
      (d.step (.launch i)).processes x = d.processes x := fun x hx =>
    Function.update_of_ne hx _ _
  have hself : (d.step (.launch i)).processes d.launched = ⟨i, .loose⟩ :=
    Function.update_self _ _ _
  refine ⟨h.installed, h.ticket, fun j x hx => ?_, fun x hx => ?_, fun x hx => ?_,
    fun x hx => ?_, h.heeded⟩
  · obtain ⟨hlt, howner⟩ := h.own j x hx
    rw [hother x (by omega)]
    exact ⟨Nat.lt_succ_of_lt hlt, howner⟩
  · have hlt : d.launched + 1 ≤ x := hx
    rw [hother x (by omega)]
    exact h.fresh x (by omega)
  · by_cases hxl : x = d.launched
    · subst hxl
      rw [hself]
      exact idle.2.1
    · rw [hother x hxl] at hx ⊢
      exact h.loose x hx
  · by_cases hxl : x = d.launched
    · subst hxl
      rw [hself] at hx
      cases hx
    · rw [hother x hxl] at hx ⊢
      exact h.guarded x hx

/-- A starting unit is not the installed one. -/
theorem Inv.apart (h : Inv d) (starting : d.fate i = .starting) : d.impl ≠ some i := by
  intro himpl
  rw [(h.installed i).mpr himpl] at starting
  cases starting

theorem Inv.fail (h : Inv d) (idle : d.Idle i) : Inv (d.fail i) :=
  @Inv.retire d i .failed d.impl d.ticket h (fun hno => by cases hno) (h.apart idle.2.1)
    (fun j _ => h.installed j) h.ticket (fun _ hno => by cases hno) (fun _ => rfl) idle.2.2

theorem Inv.finish (h : Inv d) (idle : d.Idle i) (safe : d.ticket = some i → d.asked i = false) :
    Inv (d.finish i) := by
  unfold Starter.finish
  by_cases hticket : d.ticket = some i
  · rw [if_pos hticket]
    have hnone : d.impl = none := h.ticket (by rw [hticket]; exact Option.some_ne_none i)
    have hother : ∀ j, j ≠ i →
        ({ d with ticket := none, impl := some i }.setFate i .installed).fate j = d.fate j :=
      fun j hj => setFate_other hj
    have hself : ({ d with ticket := none, impl := some i }.setFate i .installed).fate i =
        .installed := setFate_self
    refine ⟨fun j => ?_, fun hno => absurd rfl hno, fun j x hx => ?_, h.fresh, fun x hx => ?_,
      fun x hx => ?_, fun j hj => ?_⟩
    · by_cases hj : j = i
      · subst hj
        exact iff_of_true hself rfl
      · rw [hother j hj]
        refine iff_of_false (fun hno => ?_) (fun hno => hj (Option.some.inj hno).symm)
        rw [h.installed j, hnone] at hno
        cases hno
    · by_cases hj : j = i
      · subst hj
        rw [hself] at hx
        cases hx
      · rw [hother j hj] at hx
        exact h.own j x hx
    · have hloose : (d.processes x).hold = .loose := hx
      have hne : (d.processes x).owner ≠ i := fun heq => idle.2.2 x heq hloose
      exact (hother _ hne).trans (h.loose x hloose)
    · by_cases hxi : (d.processes x).owner = i
      · refine .inr ?_
        exact (congrArg _ hxi).trans hself
      · have hguarded := h.guarded x hx
        rw [← hother _ hxi] at hguarded
        exact hguarded
    · by_cases hji : j = i
      · subst hji
        have hasked : d.asked j = true := hj
        rw [safe hticket] at hasked
        cases hasked
      · rw [hother j hji]
        exact h.heeded j hj
  · rw [if_neg hticket]
    exact h.fail idle

theorem Inv.ask (h : Inv d) : Inv d.ask := by
  refine ⟨h.installed, h.ticket, h.own, h.fresh, h.loose, h.guarded, fun j hj => ?_⟩
  have hasked : (d.asked j || (decide (j < d.units) && decide (d.fate j = .starting))) = true := hj
  cases hold : d.asked j with
  | true => exact h.heeded j hold
  | false =>
      rw [hold, Bool.false_or, Bool.and_eq_true, decide_eq_true_eq, decide_eq_true_eq] at hasked
      exact .inl hasked.2

/-- The installed unit is torn down. -/
theorem Inv.unseat {f : Fate} (h : Inv d) (himpl : d.impl = some i) (hinstalled : f ≠ .installed)
    (hown : ∀ k, f = .crashed k → k < d.launched ∧ (d.processes k).owner = i) :
    Inv (({ d with impl := none, ticket := none }.setFate i f).destroy i) := by
  have hfate := (h.installed i).mpr himpl
  refine h.retire hinstalled (fun hno => by cases hno) (fun j hj => ?_)
    (fun hno => absurd rfl hno) hown (fun hasked => ?_) (fun x hx hloose => ?_)
  · rw [h.installed j, himpl]
    exact iff_of_false (fun hno => hj (Option.some.inj hno).symm) (fun hno => by cases hno)
  · have hno := h.heeded i hasked
    rw [hfate] at hno
    rcases hno with hno | hno <;> cases hno
  · have hno := h.loose x hloose
    rw [hx, hfate] at hno
    cases hno

theorem Inv.Terminate (h : Inv d) : Inv d.Terminate := by
  unfold Starter.Terminate
  split
  · exact h
  · rename_i i himpl
    exact h.unseat himpl (fun hno => by cases hno) (fun _ hno => by cases hno)

theorem Inv.doOnExit (h : Inv d) (launched : k < d.launched)
    (safe : d.impl = none ∨ d.impl = some (d.processes k).owner) : Inv (d.doOnExit k) := by
  unfold Starter.doOnExit
  split
  · rename_i himpl
    exact ⟨h.installed, fun hno => absurd rfl hno, h.own, h.fresh, h.loose, h.guarded, h.heeded⟩
  · rename_i i himpl
    refine h.unseat himpl (fun hno => by cases hno) (fun x hx => ?_)
    obtain rfl := Fate.crashed.inj hx
    rcases safe with hnone | hown
    · rw [himpl] at hnone
      cases hnone
    · rw [himpl] at hown
      exact ⟨launched, (Option.some.inj hown).symm⟩

theorem Inv.gone (h : Inv d) (hold : (d.processes k).hold ≠ .gone) : Inv (d.setHold k .gone) :=
  h.setHold (h.launched hold) (fun hno => by cases hno) (fun hno => by cases hno)

theorem Inv.step (h : Inv d) {l : Event} (enabled : d.Enabled l) (safe : d.Safe l) :
    Inv (d.step l) := by
  cases l with
  | begin => exact h.begin
  | launch i => exact h.launch enabled
  | attach k =>
      have hloose : (d.processes k).hold = .loose := enabled
      refine h.setHold (h.launched ?_) (fun hno => by cases hno) (fun _ => h.loose k hloose)
      rw [hloose]
      exact Hold.noConfusion
  | kill k =>
      have hloose : (d.processes k).hold = .loose := enabled
      refine h.gone ?_
      rw [hloose]
      exact Hold.noConfusion
  | fail i => exact h.fail enabled
  | finish i => exact h.finish enabled safe
  | terminate => exact h.ask.Terminate
  | exit k =>
      have hne : (d.processes k).hold ≠ .gone := by
        rcases enabled with hold | hold
        · rw [hold]
          exact Hold.noConfusion
        · rw [hold]
          exact Hold.noConfusion
      refine (h.gone hne).doOnExit (h.launched hne) ?_
      rw [setHold_owner]
      exact safe
  | reap k =>
      have hdoomed : (d.processes k).hold = .doomed := enabled
      refine h.gone ?_
      rw [hdoomed]
      exact Hold.noConfusion

/-- What the promises ask of an event. -/
theorem Kept.need {l : Event} (kept : Kept (d.step l)) : d.Safe l := by
  cases l with
  | finish i =>
      intro hticket
      by_contra hasked
      have hkept : Kept (d.finish i) := kept
      unfold Starter.finish at hkept
      rw [if_pos hticket] at hkept
      have hno := hkept.heeded i (Bool.not_eq_false _ ▸ hasked)
      rw [setFate_self] at hno
      rcases hno with hno | hno <;> cases hno
  | exit k =>
      by_contra hno
      have hkept : Kept ((d.setHold k .gone).doOnExit k) := kept
      unfold Starter.doOnExit at hkept
      split at hkept
      · rename_i himpl
        exact hno (.inl himpl)
      · rename_i i himpl
        have howner := hkept.own i k setFate_self
        rw [destroy_owner] at howner
        have hsame : (d.processes k).owner = i := (setHold_owner k).symm.trans howner
        exact hno (.inr (himpl.trans (congrArg some hsame.symm)))
  | begin => trivial
  | launch i => trivial
  | attach k => trivial
  | kill k => trivial
  | fail i => trivial
  | terminate => trivial
  | reap k => trivial

/-- In a run of events that can come, the starter keeps its promises in every state
just when every exit and every finish is safe. -/
theorem installed_iff_safe {es : List Event} (possible : Possible {} es) :
    Along step Kept (fun _ _ => True) {} es ↔ Steps step Safe {} es :=
  along_iff_steps Enabled (fun _ h => h.kept) (fun _ _ _ _ _ => trivial)
    (fun _ _ h enabled safe => h.step enabled safe)
    (fun _ _ _ _ _ kept => kept.need) start_inv possible

/-- A server starts, is terminated, and the next one loses its process. -/
theorem installed_iff_safe_twice :
    Along step Kept (fun _ _ => True) {}
      [.begin, .launch 0, .attach 0, .finish 0, .terminate, .reap 0, .begin, .launch 1, .attach 1,
        .finish 1, .exit 1] ↔
    Steps step Safe {}
      [.begin, .launch 0, .attach 0, .finish 0, .terminate, .reap 0, .begin, .launch 1, .attach 1,
        .finish 1, .exit 1] :=
  installed_iff_safe (by
    simp [Possible, Steps, Enabled, Idle, step, Starter.begin, Starter.finish, Starter.Terminate,
      Starter.ask, destroy, setHold, setFate, doom, Function.update]
    grind)

/-- `Terminate` comes while the server starts; the server is installed all the same. -/
theorem not_installed_terminate :
    Possible {} [.begin, .launch 0, .attach 0, .terminate, .finish 0] ∧
    ¬ Along step Kept (fun _ _ => True) {} [.begin, .launch 0, .attach 0, .terminate, .finish 0] := by
  constructor
  · simp [Possible, Steps, Enabled, Idle, step, Starter.begin, Starter.Terminate, Starter.ask,
      setHold, Function.update]
    grind
  · intro h
    have hheeded := h.last.heeded 0 (by decide)
    exact absurd hheeded (by decide)

end DispService.Vnc.Starter
