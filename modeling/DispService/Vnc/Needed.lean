import DispService.Vnc.Promised

/-! A signal that comes where the driver does not expect it breaks a promise. -/
namespace DispService.Vnc.Driver

open DispService.Lib

variable {d : Driver} {t : Nat} {f : Tunnel → Tunnel}

theorem close_needs (kept : Kept (d.close t)) (collapsing : (d.tunnels t).collapsing = true) :
    d.Placed t := by
  unfold Driver.close at kept
  rw [if_pos collapsing] at kept
  by_contra hno
  rcases evict_unplaced hno with hmisplaced | hlate
  · exact hmisplaced kept.own
  · exact hlate kept.late

theorem rip_needs (kept : Kept (d.rip t)) : d.Placed t ∧ t ∉ d.ripped := by
  constructor
  · by_contra hno
    rcases rip_unplaced hno with hmisplaced | hlate
    · exact hmisplaced kept.own
    · exact hlate kept.late
  · have hnodup := kept.once
    rw [rip_ripped] at hnodup
    intro hin
    exact (List.nodup_append.mp hnodup).2.2 t hin t (List.mem_singleton_self t) rfl

theorem reactDisconnect_needs (base : Base d) (present : t < d.adopted)
    (stunnel : ∀ x, (f x).stunnel = x.stunnel) (collapsing : ∀ x, (f x).collapsing = x.collapsing)
    (kept : Kept ((d.modify t f).reactDisconnect t)) : d.SafeDisconnect t := by
  unfold Driver.reactDisconnect at kept
  dsimp only at kept
  rw [modify_modify] at kept
  have hself : ((d.modify t ((fun x => { x with keepAlive := false }) ∘ f)).tunnels t).stunnel =
      (d.tunnels t).stunnel := by
    rw [modify_self]
    exact stunnel _
  rw [hself] at kept
  cases hstunnel : (d.tunnels t).stunnel with
  | true =>
      rw [if_pos hstunnel] at kept
      refine ⟨.inl hstunnel, fun hany => ?_⟩
      have hcollapsing : (d.tunnels t).collapsing = true :=
        hany.resolve_left (by rw [hstunnel]; exact Bool.noConfusion)
      have hneeds := close_needs kept
      rw [modify_self] at hneeds
      exact hneeds ((collapsing _).trans hcollapsing)
  | false =>
      rw [if_neg (by rw [hstunnel]; exact Bool.false_ne_true)] at kept
      obtain ⟨placed, absent⟩ := rip_needs kept
      refine ⟨.inr ?_, fun _ => placed⟩
      by_contra halive
      exact absent ((base.rips t).mpr ⟨present, hstunnel, Bool.not_eq_true _ ▸ halive⟩)

theorem reactFinish_needs
    (kept : Kept ((d.modify t fun x => { x with finished := true }).reactFinish t)) :
    (d.tunnels t).keepAlive = false ∨ (d.tunnels t).collapsing = true → d.Placed t := by
  unfold Driver.reactFinish at kept
  dsimp only at kept
  rw [modify_modify] at kept
  have hself : ((d.modify t ((fun x => { x with stunnel := false }) ∘
      fun x => { x with finished := true })).tunnels t).keepAlive = (d.tunnels t).keepAlive := by
    rw [modify_self]
    rfl
  rw [hself] at kept
  intro hany
  by_cases halive : (d.tunnels t).keepAlive = true
  · rw [if_pos halive] at kept
    have hcollapsing := hany.resolve_left (by rw [halive]; exact Bool.noConfusion)
    have hneeds := close_needs kept
    rw [modify_self] at hneeds
    exact hneeds hcollapsing
  · rw [if_neg halive] at kept
    exact (rip_needs kept).1

/-- What the promises ask of an event. -/
theorem Inv.need (h : Inv d) {l : Event} (enabled : d.Enabled l) (kept : Kept (d.step l)) :
    d.Safe l := by
  cases l with
  | cleanup =>
      intro t hactive
      have hkept : Kept d.cleanup := kept
      unfold Driver.cleanup at hkept
      simp only [hactive] at hkept
      refine reactDisconnect_needs (f := id) h.base (h.active t hactive).1 (fun _ => rfl)
        (fun _ => rfl) ?_
      rw [modify_id]
      exact hkept
  | finished t => exact reactFinish_needs kept
  | disconnected t =>
      exact reactDisconnect_needs (f := fun x => { x with disconnected := true }) h.base enabled.1
        (fun _ => rfl) (fun _ => rfl) kept
  | told t =>
      exact reactDisconnect_needs (f := fun x => { x with told := true }) h.base enabled.2.1
        (fun _ => rfl) (fun _ => rfl) kept
  | start => trivial
  | stop => trivial
  | aboutToQuit => trivial
  | adopt => trivial
  | abort => trivial

/-- In a run of events that can come, the driver keeps its promises in every state
just when every signal of a tunnel is safe. -/
theorem kept_iff_safe {es : List Event} (possible : Possible {} es) :
    Along step Kept (fun _ _ => True) {} es ↔ Steps step Safe {} es :=
  along_iff_steps Enabled (fun _ h => h.kept) (fun _ _ _ _ _ => trivial)
    (fun _ _ h enabled safe => h.step enabled safe)
    (fun _ _ h enabled _ kept => h.need enabled kept) start_inv possible

/-- Two scripts come, the first one's tunnel is torn down by an update of the port. -/
theorem kept_iff_safe_update :
    Along step Kept (fun _ _ => True) {}
      [.start, .adopt, .start, .cleanup, .finished 0, .adopt, .stop, .finished 1, .disconnected 1] ↔
    Steps step Safe {}
      [.start, .adopt, .start, .cleanup, .finished 0, .adopt, .stop, .finished 1,
        .disconnected 1] :=
  kept_iff_safe (by simp [Possible, Steps, Enabled, step, Driver.start, Driver.adopt,
    Driver.cleanup, Driver.stop, Driver.reactDisconnect, Driver.reactFinish, Driver.close,
    Driver.rip, evict, launch, Driver.modify])

/-- A script waits behind a tunnel when the frontend goes; it is launched when the
tunnel does. -/
theorem not_kept_after_stop :
    Possible {} [.start, .start, .adopt, .stop, .disconnected 0, .finished 0] ∧
    ¬ Along step Kept (fun _ _ => True) {}
      [.start, .start, .adopt, .stop, .disconnected 0, .finished 0] := by
  constructor
  · simp [Possible, Steps, Enabled, step, Driver.start, Driver.adopt, Driver.stop,
      Driver.reactDisconnect, Driver.close, launch, Driver.modify]
  · intro h
    have hlate := h.last.late
    exact absurd hlate (by decide)

end DispService.Vnc.Driver
