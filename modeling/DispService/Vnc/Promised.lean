import DispService.Vnc.Evicted

/-! Every event keeps the driver's invariant when it is safe, and shows when it
is not. -/
namespace DispService.Vnc.Driver

open DispService.Lib

variable {d : Driver} {t : Nat} {f g : Tunnel → Tunnel}

theorem modify_modify : (d.modify t f).modify t g = d.modify t (g ∘ f) := by
  unfold modify
  congr 1
  funext x
  by_cases hx : x = t
  · simp [hx]
  · simp [hx]

/-- A change of a tunnel the liquidator does not see. -/
structure Quiet (f : Tunnel → Tunnel) : Prop where
  watched : ∀ x, (f x).watched = x.watched
  exits : ∀ x : Tunnel, x.stunnel = !x.finished → (f x).stunnel = !(f x).finished

theorem Quiet.watched_modify (hf : Quiet f) (x : Nat) :
    ((d.modify t f).tunnels x).watched = (d.tunnels x).watched := by
  by_cases hx : x = t
  · subst hx
    rw [modify_self, hf.watched]
  · rw [modify_other hx]

theorem exits_modify (base : Base d)
    (hf : ∀ x : Tunnel, x.stunnel = !x.finished → (f x).stunnel = !(f x).finished) (x : Nat) :
    ((d.modify t f).tunnels x).stunnel = !((d.modify t f).tunnels x).finished := by
  by_cases hx : x = t
  · subst hx
    rw [modify_self]
    exact hf _ (base.exits x)
  · rw [modify_other hx]
    exact base.exits x

theorem fresh_modify (base : Base d) (present : t < d.adopted) (x : Nat)
    (hx : d.adopted ≤ x) : (d.modify t f).tunnels x = {} := by
  rw [modify_other (by omega)]
  exact base.fresh x hx

theorem gone_modify_other {x : Nat} (hx : x ≠ t) : (d.modify t f).Gone x ↔ d.Gone x := by
  unfold Gone
  rw [modify_other hx]
  rfl

/-- The phase does not look at the flags of process and socket. -/
theorem Phase.modify (h : Phase d) (hf : Quiet f) : Phase (d.modify t f) := by
  cases h with
  | before liquidator executed watched =>
      exact .before liquidator executed fun x => (hf.watched_modify x).trans (watched x)
  | launching liquidator executed starting active watched =>
      exact .launching liquidator executed starting active
        fun x => (hf.watched_modify x).trans (watched x)
  | watching y liquidator executed starting active present watched =>
      refine .watching y liquidator executed starting active present fun x => ?_
      rw [hf.watched_modify]
      exact watched x
  | done liquidator executed starting active watched =>
      refine .done liquidator executed starting active fun x hx => ?_
      rw [hf.watched_modify] at hx
      exact watched x hx

theorem Base.modify (base : Base d) (present : t < d.adopted)
    (hf : ∀ x : Tunnel, x.stunnel = !x.finished → (f x).stunnel = !(f x).finished)
    (before : ¬ d.Gone t) (after : ¬ (d.modify t f).Gone t) : Base (d.modify t f) := by
  refine ⟨base.alone, fresh_modify base present, exits_modify base hf, base.once, fun x => ?_,
    base.own, base.scripts, base.prompt, base.late⟩
  by_cases hx : x = t
  · subst hx
    exact iff_of_false (fun hin => before ((base.rips x).mp hin)) after
  · rw [gone_modify_other hx]
    exact base.rips x

/-- A tunnel loses its process or its socket and keeps the other. -/
theorem Inv.modify (h : Inv d) (present : t < d.adopted) (hf : Quiet f) (before : ¬ d.Gone t)
    (after : ¬ (d.modify t f).Gone t) : Inv (d.modify t f) where
  base := h.base.modify present hf.exits before after
  active := h.active
  phase := h.phase.modify hf

/-- A tunnel loses the last of both. -/
theorem Inv.modify_rip (h : Inv d) (present : t < d.adopted) (hf : Quiet f)
    (before : ¬ d.Gone t) (after : (d.modify t f).Gone t) (placed : d.Placed t) :
    Inv ((d.modify t f).rip t) := by
  have base := h.base
  have absent : t ∉ d.ripped := fun hin => before ((base.rips t).mp hin)
  refine rip_inv ?_ (h.phase.modify hf) placed absent
  refine ⟨base.alone, fresh_modify base present, exits_modify base hf.exits, ?_, fun x => ?_,
    base.own, base.scripts, base.prompt, base.late⟩
  · refine List.nodup_append.mpr ⟨base.once, List.nodup_singleton t, ?_⟩
    rintro a ha b hb rfl
    exact absent (List.mem_singleton.mp hb ▸ ha)
  · have hmem : x ∈ d.ripped ++ [t] ↔ x ∈ d.ripped ∨ x = t := by simp
    refine hmem.trans ?_
    by_cases hx : x = t
    · subst hx
      exact iff_of_true (.inr rfl) after
    · have hgone : (d.modify t f).Gone x ↔ d.Gone x := gone_modify_other hx
      refine Iff.trans ?_ hgone.symm
      rw [← base.rips x]
      exact ⟨fun hor => hor.resolve_right hx, .inl⟩

/-- `reactDisconnect` after a change that only notes a notification. -/
theorem Inv.reactDisconnect (h : Inv d) (present : t < d.adopted) (hf : Quiet f)
    (stunnel : ∀ x, (f x).stunnel = x.stunnel) (collapsing : ∀ x, (f x).collapsing = x.collapsing)
    (safe : d.SafeDisconnect t) :
    Inv ((d.modify t f).reactDisconnect t) := by
  have hg : Quiet ((fun x => { x with keepAlive := false }) ∘ f) :=
    ⟨hf.watched, hf.exits⟩
  have before : ¬ d.Gone t := by
    rintro ⟨-, hstunnel, halive⟩
    rcases safe.1 with hno | hno
    · rw [hstunnel] at hno
      cases hno
    · rw [halive] at hno
      cases hno
  unfold Driver.reactDisconnect
  dsimp only
  rw [modify_modify]
  have hself : ((d.modify t ((fun x => { x with keepAlive := false }) ∘ f)).tunnels t).stunnel =
      (d.tunnels t).stunnel := by
    rw [modify_self]
    exact stunnel _
  rw [hself]
  cases hstunnel : (d.tunnels t).stunnel with
  | true =>
      rw [if_pos rfl]
      refine (h.modify present hg before ?_).close ?_
      · rintro ⟨-, hno, -⟩
        rw [hself, hstunnel] at hno
        cases hno
      · intro hcollapsing
        rw [modify_self] at hcollapsing
        exact safe.2 (.inr ((collapsing _).symm.trans hcollapsing))
  | false =>
      rw [if_neg Bool.false_ne_true]
      refine h.modify_rip present hg before ⟨present, hself.trans hstunnel, ?_⟩
        (safe.2 (.inl hstunnel))
      rw [modify_self]
      rfl

theorem Inv.reactFinish (h : Inv d) (present : t < d.adopted)
    (running : (d.tunnels t).finished = false)
    (safe : (d.tunnels t).keepAlive = false ∨ (d.tunnels t).collapsing = true → d.Placed t) :
    Inv ((d.modify t fun x => { x with finished := true }).reactFinish t) := by
  have hstunnel : (d.tunnels t).stunnel = true := by
    rw [h.base.exits t, running]
    rfl
  have hg : Quiet ((fun x => { x with stunnel := false }) ∘ fun x => { x with finished := true }) :=
    ⟨fun _ => rfl, fun _ _ => rfl⟩
  have before : ¬ d.Gone t := by
    rintro ⟨-, hno, -⟩
    rw [hstunnel] at hno
    cases hno
  unfold Driver.reactFinish
  dsimp only
  rw [modify_modify]
  have hself : ((d.modify t ((fun x => { x with stunnel := false }) ∘
      fun x => { x with finished := true })).tunnels t).keepAlive = (d.tunnels t).keepAlive := by
    rw [modify_self]
    rfl
  rw [hself]
  cases halive : (d.tunnels t).keepAlive with
  | true =>
      rw [if_pos rfl]
      refine (h.modify present hg before ?_).close ?_
      · rintro ⟨-, -, hno⟩
        rw [hself, halive] at hno
        cases hno
      · intro hcollapsing
        rw [modify_self] at hcollapsing
        exact safe (.inr hcollapsing)
  | false =>
      rw [if_neg Bool.false_ne_true]
      refine h.modify_rip present hg before ⟨present, ?_, hself.trans halive⟩ (safe (.inl halive))
      rw [modify_self]
      rfl

theorem modify_id : d.modify t id = d := by
  unfold modify
  congr 1
  funext x
  by_cases hx : x = t
  · simp [hx]
  · simp [hx]

theorem Inv.cleanup (h : Inv d) (safe : ∀ t, d.active = some t → d.SafeDisconnect t) :
    Inv d.cleanup := by
  unfold Driver.cleanup
  cases hactive : d.active with
  | none => exact h
  | some t =>
      have hstep := h.reactDisconnect (f := id) (h.active t hactive).1
        ⟨fun _ => rfl, fun _ hx => hx⟩ (fun _ => rfl) (fun _ => rfl) (safe t hactive)
      rw [modify_id] at hstep
      exact hstep

/-- The active tunnel is there and has not raised `ripped`. -/
theorem Inv.present (h : Inv d) (hactive : d.active = some t) :
    t < d.adopted ∧ ¬ d.Gone t :=
  ⟨(h.active t hactive).1, fun gone => (h.active t hactive).2 ((h.base.rips t).mpr gone)⟩

theorem Inv.quitting (h : Inv d) : Inv { d with quitting := true } := by
  have base := h.base
  refine ⟨⟨base.alone, base.fresh, base.exits, base.once, base.rips, base.own, base.scripts,
    base.prompt, base.late⟩, h.active, ?_⟩
  cases h.phase with
  | before liquidator executed watched => exact .before liquidator executed watched
  | launching liquidator executed starting active watched =>
      exact .launching liquidator executed starting active watched
  | watching x liquidator executed starting active present watched =>
      exact .watching x liquidator executed starting active present watched
  | done liquidator executed starting active watched =>
      exact .done liquidator executed starting active watched

theorem Inv.collapse (h : Inv d) : Inv d.collapse := by
  unfold Driver.collapse
  cases hactive : d.active with
  | none => exact h
  | some t =>
      obtain ⟨present, before⟩ := h.present hactive
      refine h.modify present ⟨fun _ => rfl, fun _ hx => hx⟩ before ?_
      unfold Gone
      rw [modify_self]
      exact before

/-- The liquidator is put on the active tunnel. -/
theorem Inv.watch (h : Inv d) (hactive : d.active = some t) (hexecuted : d.executed = 0)
    (hstarting : d.starting = none) (hwatched : ∀ x, (d.tunnels x).watched = false) :
    Inv ({ d with liquidator := true }.modify t fun x => { x with watched := true }) := by
  obtain ⟨present, before⟩ := h.present hactive
  have base := h.base
  have hbase : Base { d with liquidator := true } :=
    ⟨base.alone, base.fresh, base.exits, base.once, base.rips, base.own, base.scripts,
      fun _ => .inl rfl, base.late⟩
  refine ⟨hbase.modify present (fun _ hx => hx) before ?_, h.active, ?_⟩
  · unfold Gone
    rw [modify_self]
    exact before
  · refine .watching t rfl hexecuted hstarting (.inr hactive) (h.active t hactive) fun x => ?_
    by_cases hx : x = t
    · subst hx
      rw [modify_self]
      exact iff_of_true rfl rfl
    · rw [modify_other hx]
      refine iff_of_false (fun hno => ?_) hx
      have hfalse : (d.tunnels x).watched = true := hno
      rw [hwatched x] at hfalse
      cases hfalse

theorem stop_active (h : d.active = some t) :
    d.stop = { d with liquidator := true }.modify t fun x => { x with watched := true } := by
  unfold Driver.stop
  simp only [h]

theorem stop_idle (h : d.active = none) : d.stop =
    if d.starting.isNone then execute { d with liquidator := true }
    else { d with liquidator := true } := by
  unfold Driver.stop
  simp only [h]

theorem Inv.stop (h : Inv d) (enabled : d.liquidator = false) : Inv d.stop := by
  cases h.phase with
  | launching liquidator =>
      rw [liquidator] at enabled
      cases enabled
  | watching _ liquidator =>
      rw [liquidator] at enabled
      cases enabled
  | done liquidator =>
      rw [liquidator] at enabled
      cases enabled
  | before _ executed watched =>
      have base := h.base
      cases hactive : d.active with
      | some t =>
          have hstarting : d.starting = none := by
            rcases base.alone with hnone | hno
            · exact hnone
            · rw [hactive] at hno
              cases hno
          rw [stop_active hactive]
          exact h.watch hactive executed hstarting watched
      | none =>
          have hbase : ∀ e, Base { d with liquidator := true, executed := e } := fun e =>
            ⟨base.alone, base.fresh, base.exits, base.once, base.rips, base.own, base.scripts,
              fun _ => .inl rfl, base.late⟩
          rw [stop_idle hactive]
          by_cases hstarting : d.starting = none
          · rw [if_pos (by rw [hstarting]; rfl)]
            refine ⟨hbase _, h.active, .done rfl ?_ hstarting hactive fun x hx => ?_⟩
            · exact congrArg (· + 1) executed
            · have hfalse : (d.tunnels x).watched = true := hx
              rw [watched x] at hfalse
              cases hfalse
          · rw [if_neg (by rw [Option.isNone_iff_eq_none]; exact hstarting)]
            exact ⟨hbase _, h.active, .launching rfl executed hstarting hactive watched⟩

/-- A script is launched while there is no tunnel and no liquidator. -/
theorem launched_inv (h : Inv d) (active : d.active = none) (liquidator : d.liquidator = false)
    (executed : d.executed = 0) (watched : ∀ x, (d.tunnels x).watched = false)
    {s scripts : Nat} {replaced : List Nat}
    (hscripts : ∀ x < scripts, x ∈ d.launched ++ [s] ∨ x ∈ replaced) :
    Inv { d with
      starting := some s, pending := none, launched := d.launched ++ [s], scripts, replaced } := by
  have base := h.base
  refine ⟨⟨.inr active, base.fresh, base.exits, base.once, base.rips, base.own, fun x hx => ?_,
    fun hno => absurd rfl hno, base.late⟩, h.active, .before liquidator executed watched⟩
  rcases hscripts x hx with hl | hr
  · exact .inl hl
  · exact .inr (.inl hr)

theorem Inv.before (h : Inv d) (liquidator : d.liquidator = false) :
    d.executed = 0 ∧ ∀ x, (d.tunnels x).watched = false := by
  cases h.phase with
  | before _ executed watched => exact ⟨executed, watched⟩
  | launching hno =>
      rw [liquidator] at hno
      cases hno
  | watching _ hno =>
      rw [liquidator] at hno
      cases hno
  | done hno =>
      rw [liquidator] at hno
      cases hno

/-- Every script but the one that waits is launched or replaced. -/
theorem Base.settled (base : Base d) {s : Nat} (hs : s < d.scripts) :
    s ∈ d.launched ∨ s ∈ d.replaced ++ d.pending.toList := by
  rcases base.scripts s hs with hl | hr | hp
  · exact .inl hl
  · exact .inr (List.mem_append_left _ hr)
  · exact .inr (by rw [hp]; simp)

/-- The driver with a new script that waits. -/
def queue (d : Driver) : Driver :=
  { d with
    pending := some d.scripts, scripts := d.scripts + 1,
    replaced := d.replaced ++ d.pending.toList }

theorem start_stopped (h : d.liquidator = true) : d.start = d := by
  unfold Driver.start
  rw [if_pos h]

theorem start_busy (h : d.liquidator = false) (busy : d.active ≠ none ∨ d.starting ≠ none) :
    d.start = d.queue := by
  unfold Driver.start
  rw [if_neg (by simp [h])]
  dsimp only
  by_cases hactive : d.active = none
  · rw [if_neg (by simp [hactive]), if_neg (by simpa [hactive] using busy)]
    rfl
  · rw [if_pos (Option.isSome_iff_ne_none.mpr hactive)]
    rfl

theorem start_idle (h : d.liquidator = false) (active : d.active = none)
    (starting : d.starting = none) : d.start = d.queue.launch := by
  unfold Driver.start
  simp only [h, active, starting]
  unfold queue
  simp [active, starting, h]

theorem launch_some {s : Nat} (h : d.pending = some s) : d.launch =
    { d with
      starting := some s, pending := none, launched := d.launched ++ [s],
      late := d.late + d.liquidator.toNat } := by
  unfold launch
  simp only [h]

theorem Inv.queue (h : Inv d) (liquidator : d.liquidator = false)
    (busy : d.active ≠ none ∨ d.starting ≠ none) : Inv d.queue := by
  have base := h.base
  refine ⟨⟨base.alone, base.fresh, base.exits, base.once, base.rips, base.own, fun x hx => ?_,
    fun _ => .inr busy, base.late⟩, h.active, ?_⟩
  · rcases Nat.lt_succ_iff_lt_or_eq.mp hx with hlt | rfl
    · rcases base.settled hlt with hl | hr
      · exact .inl hl
      · exact .inr (.inl hr)
    · exact .inr (.inr rfl)
  · obtain ⟨executed, watched⟩ := h.before liquidator
    exact .before liquidator executed watched

theorem Inv.start (h : Inv d) : Inv d.start := by
  by_cases hliquidator : d.liquidator = true
  · rw [start_stopped hliquidator]
    exact h
  · have hfalse : d.liquidator = false := Bool.not_eq_true _ ▸ hliquidator
    by_cases busy : d.active ≠ none ∨ d.starting ≠ none
    · rw [start_busy hfalse busy]
      exact h.queue hfalse busy
    · have hactive : d.active = none := by
        by_contra hno
        exact busy (.inl hno)
      have hstarting : d.starting = none := by
        by_contra hno
        exact busy (.inr hno)
      obtain ⟨executed, watched⟩ := h.before hfalse
      have hlate : d.late + d.liquidator.toNat = d.late := by simp [hfalse]
      rw [start_idle hfalse hactive hstarting, launch_some (d := d.queue) rfl]
      unfold Driver.queue
      dsimp only
      rw [hlate]
      refine launched_inv h hactive hfalse executed watched fun x hx => ?_
      rcases Nat.lt_succ_iff_lt_or_eq.mp hx with hlt | rfl
      · rcases h.base.settled hlt with hl | hr
        · exact .inl (List.mem_append_left _ hl)
        · exact .inr hr
      · exact .inl (by simp)

theorem abort_stopped (h : d.liquidator = true) :
    d.abort = execute { d with starting := none } := by
  unfold Driver.abort
  simp only [h, if_true]

theorem abort_idle (h : d.liquidator = false) (pending : d.pending = none) :
    d.abort = { d with starting := none } := by
  unfold Driver.abort
  simp [h, pending]

theorem abort_pending {s : Nat} (h : d.liquidator = false) (pending : d.pending = some s) :
    d.abort = launch { d with starting := none } := by
  unfold Driver.abort
  simp [h, pending]

theorem Inv.abort (h : Inv d) (enabled : d.starting ≠ none) : Inv d.abort := by
  have base := h.base
  have hactive : d.active = none := base.alone.resolve_left enabled
  have hbase : (d.liquidator = true ∨ d.pending = none) → ∀ e,
      Base { d with starting := none, executed := e } := fun hidle e =>
    ⟨.inl rfl, base.fresh, base.exits, base.once, base.rips, base.own, base.scripts,
      fun hp => .inl (hidle.resolve_right hp), base.late⟩
  cases h.phase with
  | before liquidator executed watched =>
      cases hpending : d.pending with
      | none =>
          rw [abort_idle liquidator hpending]
          exact ⟨hbase (.inr hpending) d.executed, h.active, .before liquidator executed watched⟩
      | some s =>
          have hlate : d.late + d.liquidator.toNat = d.late := by simp [liquidator]
          rw [abort_pending liquidator hpending,
            launch_some (d := { d with starting := none }) hpending]
          dsimp only
          rw [hlate]
          refine launched_inv h hactive liquidator executed watched fun x hx => ?_
          rcases base.scripts x hx with hl | hr | hp
          · exact .inl (List.mem_append_left _ hl)
          · exact .inr hr
          · rw [hpending] at hp
            exact .inl (by simp [Option.some.inj hp])
  | launching liquidator executed _ _ watched =>
      rw [abort_stopped liquidator]
      refine ⟨hbase (.inl liquidator) _, h.active, .done liquidator ?_ rfl hactive fun x hx => ?_⟩
      · exact congrArg (· + 1) executed
      · have hfalse : (d.tunnels x).watched = true := hx
        rw [watched x] at hfalse
        cases hfalse
  | watching _ _ _ starting => exact absurd starting enabled
  | done _ _ starting => exact absurd starting enabled

/-- The driver with the new tunnel. -/
def welcome (d : Driver) : Driver :=
  { d with active := some d.adopted, starting := none, adopted := d.adopted + 1 }

theorem adopt_free (h : d.liquidator = false) : d.adopt = d.welcome := by
  unfold Driver.adopt
  dsimp only
  rw [if_neg (by simp [h])]
  rfl

theorem adopt_stopped (h : d.liquidator = true) :
    d.adopt = d.welcome.modify d.adopted fun x => { x with watched := true } := by
  unfold Driver.adopt
  dsimp only
  rw [if_pos h]
  rfl

/-- A tunnel that has just come has both process and socket. -/
theorem Base.newborn (base : Base d) : d.adopted ∉ d.ripped ∧ ¬ d.welcome.Gone d.adopted := by
  refine ⟨fun hin => ?_, fun hgone => ?_⟩
  · exact absurd ((base.rips _).mp hin).1 (Nat.lt_irrefl _)
  · have hstunnel : (d.tunnels d.adopted).stunnel = false := hgone.2.1
    rw [base.fresh d.adopted (Nat.le_refl _)] at hstunnel
    cases hstunnel

theorem Base.welcome (base : Base d) : Base d.welcome where
  alone := .inl rfl
  fresh := fun x hx => base.fresh x (Nat.le_of_succ_le hx)
  exits := base.exits
  once := base.once
  rips := by
    intro x
    by_cases hx : x = d.adopted
    · subst hx
      exact iff_of_false base.newborn.1 base.newborn.2
    · refine (base.rips x).trans ⟨fun hgone => ?_, fun hgone => ?_⟩
      · exact ⟨Nat.lt_succ_of_lt hgone.1, hgone.2⟩
      · have hlt : x < d.adopted + 1 := hgone.1
        exact ⟨by omega, hgone.2⟩
  own := base.own
  scripts := base.scripts
  prompt := fun _ => .inr (.inl (by unfold Driver.welcome; simp))
  late := base.late

theorem Base.welcome_active (base : Base d) (x : Nat) (hx : d.welcome.active = some x) :
    x < d.adopted + 1 ∧ x ∉ d.ripped := by
  obtain rfl := Option.some.inj hx
  exact ⟨Nat.lt_succ_self _, base.newborn.1⟩

theorem Inv.adopt (h : Inv d) (enabled : d.starting ≠ none) : Inv d.adopt := by
  have base := h.base
  cases h.phase with
  | before liquidator executed watched =>
      rw [adopt_free liquidator]
      exact ⟨base.welcome, base.welcome_active, .before liquidator executed watched⟩
  | launching liquidator executed _ _ watched =>
      rw [adopt_stopped liquidator]
      refine ⟨base.welcome.modify (Nat.lt_succ_self _) (fun _ hx => hx) base.newborn.2 ?_,
        base.welcome_active, .watching d.adopted liquidator executed rfl (.inr rfl)
          ⟨Nat.lt_succ_self _, base.newborn.1⟩ fun x => ?_⟩
      · unfold Gone
        rw [modify_self]
        exact base.newborn.2
      · by_cases hx : x = d.adopted
        · subst hx
          rw [modify_self]
          exact iff_of_true rfl rfl
        · rw [modify_other hx]
          refine iff_of_false (fun hno => ?_) hx
          have hfalse : (d.tunnels x).watched = true := hno
          rw [watched x] at hfalse
          cases hfalse
  | watching _ _ _ starting => exact absurd starting enabled
  | done _ _ starting => exact absurd starting enabled

theorem Inv.step (h : Inv d) {l : Event} (enabled : d.Enabled l) (safe : d.Safe l) :
    Inv (d.step l) := by
  cases l with
  | start => exact h.start
  | stop => exact h.stop enabled
  | cleanup => exact h.cleanup safe
  | aboutToQuit => exact h.quitting.collapse
  | adopt => exact h.adopt enabled
  | abort => exact h.abort enabled
  | finished t => exact h.reactFinish enabled.1 enabled.2 safe
  | disconnected t =>
      exact h.reactDisconnect enabled.1 ⟨fun _ => rfl, fun _ hx => hx⟩ (fun _ => rfl)
        (fun _ => rfl) safe
  | told t =>
      exact h.reactDisconnect enabled.2.1 ⟨fun _ => rfl, fun _ hx => hx⟩ (fun _ => rfl)
        (fun _ => rfl) safe

end DispService.Vnc.Driver
