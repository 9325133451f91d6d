import DispService.Exec.Streams

/-! What comes of the output of a program in a guest, whatever the order in which the channels are
read, signalled and sent on. -/
namespace DispService.Exec

open Lib

/-- The releases of a channel. -/
def Callback.releases : Callback → Nat
  | .gone => 1
  | _ => 0

/-- What is known of a device as long as its callback alone closes it. -/
structure Sound (d : ReadDevice) : Prop where
  finished : d.m_finished = true → d.callback.ended = true
  opened : d.hung = false → d.isOpen = true

/-- What is always known of a device. -/
structure Closed (d : ReadDevice) : Prop where
  ended : d.callback.ended = true → d.m_finished = true
  hung : d.hung = true → d.callback.ended = true

/-- What the callback of a channel may do to its device. -/
structure Filled (d d' : ReadDevice) : Prop where
  grown : ∃ b, d'.received = d.received ++ b ∧ d'.m_data = d.m_data ++ b ∧
    (b ≠ [] → ∃ full, d'.callback = .appended full)
  sent : d'.sent = d.sent
  opened : d'.isOpen = true → d.isOpen = true
  ended : d.callback.ended = true →
    d'.callback.ended = true ∧ d'.m_data = d.m_data ∧ d'.hung = d.hung
  sound : Sound d → Sound d'
  closed : Closed d → Closed d'

structure Inv (s : State) : Prop where
  kept : ∀ ch, (s.device ch).received = (s.device ch).sent ++ held s ch ++ (s.device ch).m_data
  closed : ∀ ch, Closed (s.device ch)
  sound : s.left = false → ∀ ch, Sound (s.device ch)
  count : ∀ n, s.m_finished = some n →
    n = (s.device .stdout).callback.releases + (s.device .stderr).callback.releases
  acquired : s.m_finished = none → ∀ ch, (s.device ch).callback = .gone
  result : s.m_result = true → s.m_finished = none
  sign : s.m_sign = true → s.m_result = true
  /-- What is in a device is signalled, or about to be, or the mediator is at it. -/
  pending : s.left = false → ∀ ch ∈ s.m_objects, (s.device ch).isOpen = true →
    (s.device ch).m_data ≠ [] → .readyRead ch ∈ s.queue ∨ s.slot = .readAll ch ∨
      (∃ a, s.slot = .sendToClient ch a) ∨ ∃ full, (s.device ch).callback = .appended full
  dropped : ∀ ch, ch ∉ s.m_objects →
    s.canceled = true ∨ (s.device ch).m_data = [] ∧ (s.device ch).callback.ended = true
  slots : ∀ ch, s.slot = .readAll ch ∨ (∃ a, s.slot = .sendToClient ch a) ∨ s.slot = .atEnd ch →
    ch ∈ s.m_objects
  /-- Once the program has exited, nothing is signalled behind the timer. -/
  posted : s.m_sign = true → .timer ∉ s.queue ∨ ∃ l, s.queue = l ++ [.timer] ∧ .timer ∉ l
  timers : s.queue.count .timer ≤ 1
  quit : s.quit = true → s.canceled = true ∨ s.broken = true ∨
    ∀ ch, (s.device ch).callback.ended = true ∧
      ((s.device ch).hung = false → (s.device ch).m_data = [] ∧ held s ch = [])
  left : s.left = true → s.quit = true

section Device

variable {d d' : ReadDevice}

theorem Filled.refl (d : ReadDevice) : Filled d d :=
  ⟨⟨[], by simp⟩, rfl, id, fun h => ⟨h, rfl, rfl⟩, id, id⟩

/-- The callback goes on, and nothing else. -/
theorem filled_callback (hended : d.callback.ended = true → d'.callback.ended = true)
    (hnew : d'.callback.ended = true → d.callback.ended = true)
    (heq : { d' with callback := d.callback } = d) : Filled d d' := by
  have heq' : d' = { d with callback := d'.callback } := by
    rw [← heq]
  rw [heq'] at hended hnew ⊢
  exact ⟨⟨[], by simp⟩, rfl, id, fun h => ⟨hended h, rfl, rfl⟩,
    fun h => ⟨fun hf => hended (h.finished hf), h.opened⟩,
    fun h => ⟨fun he => h.ended (hnew he), fun hh => hended (h.hung hh)⟩⟩

theorem filled_hangup (h : d.callback.ended = false) :
    Filled d { d.close with callback := .release, hung := true } where
  grown := ⟨[], by simp [ReadDevice.close]⟩
  sent := rfl
  opened hno := by cases hno
  ended hno := by
    rw [h] at hno
    cases hno
  sound _ := ⟨fun _ => rfl, fun hno => by cases hno⟩
  closed _ := ⟨fun _ => rfl, fun _ => rfl⟩

theorem filled_react (hangup : Bool) : Filled d (d.react hangup) := by
  unfold ReadDevice.react
  split
  · rename_i hidle
    split
    · exact filled_hangup (by simp [hidle.1, Callback.ended])
    · exact filled_callback (by simp [hidle.1, Callback.ended]) (by simp [Callback.ended]) rfl
  · exact .refl d

theorem filled_recv (r : Recv) : Filled d (d.recv r) := by
  unfold ReadDevice.recv
  split
  · rename_i hreading
    have hnot : d.callback.ended = false := by simp [hreading, Callback.ended]
    split
    · exact filled_callback (by simp [hnot]) (by simp [Callback.ended]) rfl
    · exact .refl d
    · rename_i b bs
      refine ⟨⟨b :: bs, rfl, rfl, fun _ => ⟨_, rfl⟩⟩, rfl, id, by simp [hnot], fun h => ?_, fun h => ?_⟩
      · exact ⟨fun hf => absurd (h.finished hf) (by simp [hnot]), h.opened⟩
      · exact ⟨fun hno => (by cases hno), fun hh => absurd (h.hung hh) (by simp [hnot])⟩
    · have hended : d.setEof.callback.ended = true := by
        unfold ReadDevice.setEof
        dsimp only
        split <;> rfl
      exact ⟨⟨[], by simp [ReadDevice.setEof]⟩, rfl, id, by simp [hnot],
        fun h => ⟨fun _ => hended, h.opened⟩, fun h => ⟨fun _ => rfl, fun _ => hended⟩⟩
    · exact filled_hangup hnot
  · exact .refl d

theorem react_gone (hangup : Bool) : (d.react hangup).callback = .gone ↔ d.callback = .gone := by
  unfold ReadDevice.react
  split
  · rename_i hidle
    rw [hidle.1]
    split <;> simp
  · exact Iff.rfl

theorem recv_gone (r : Recv) : (d.recv r).callback = .gone ↔ d.callback = .gone := by
  unfold ReadDevice.recv
  split
  · rename_i hreading
    rw [hreading]
    split
    · simp
    · simp [hreading]
    · simp [ReadDevice.appendData]
    · unfold ReadDevice.setEof
      dsimp only
      split <;> simp
    · simp
  · exact Iff.rfl

end Device

section Callbacks

variable {s : State} {ch : Channel} {d : ReadDevice}

theorem Inv.gone (inv : Inv s) (h : s.m_sign = true) (ch : Channel) :
    (s.device ch).callback = .gone :=
  inv.acquired (inv.result (inv.sign h)) ch

/-- The callback of a channel does a step. -/
theorem Inv.fill (inv : Inv s) (h : Filled (s.device ch) d) {queue : List Posted}
    {m_finished : Option Nat}
    (hqueue : queue = s.queue ∨ ∃ p, p ≠ .timer ∧ queue = s.queue ++ [p] ∧
      (s.device ch).callback ≠ .gone)
    (hpending : ∀ full, (s.device ch).callback = .appended full →
      .readyRead ch ∈ queue ∨ ∃ full, d.callback = .appended full)
    (hcount : ∀ n, m_finished = some n → ∃ m, s.m_finished = some m ∧
      n + (s.device ch).callback.releases = m + d.callback.releases)
    (hacquired : m_finished = none ↔ s.m_finished = none)
    (hgone : (s.device ch).callback = .gone → d.callback = .gone) :
    Inv { s with device := Function.update s.device ch d, queue, m_finished } := by
  have hmem : ∀ p ∈ s.queue, p ∈ queue := by
    intro p hp
    obtain rfl | ⟨q, -, rfl, -⟩ := hqueue
    · exact hp
    · exact List.mem_append_left _ hp
  refine ⟨fun ch' => ?_, fun ch' => ?_, fun hleft ch' => ?_, fun n hn => ?_, fun hnone ch' => ?_,
    fun hresult => hacquired.mpr (inv.result hresult), inv.sign, fun hleft ch' hobject hopen hdata => ?_,
    fun ch' hobject => ?_, inv.slots, fun hsign => ?_, ?_, fun hquit => ?_, inv.left⟩
  · change (Function.update s.device ch d ch').received =
      (Function.update s.device ch d ch').sent ++ held s ch' ++ (Function.update s.device ch d ch').m_data
    by_cases hch : ch' = ch
    · subst hch
      obtain ⟨b, hreceived, hdata, -⟩ := h.grown
      rw [Function.update_self, hreceived, hdata, h.sent, inv.kept ch', List.append_assoc]
    · rw [Function.update_of_ne hch]
      exact inv.kept ch'
  · change Closed (Function.update s.device ch d ch')
    by_cases hch : ch' = ch
    · subst hch
      rw [Function.update_self]
      exact h.closed (inv.closed ch')
    · rw [Function.update_of_ne hch]
      exact inv.closed ch'
  · change Sound (Function.update s.device ch d ch')
    by_cases hch : ch' = ch
    · subst hch
      rw [Function.update_self]
      exact h.sound (inv.sound hleft ch')
    · rw [Function.update_of_ne hch]
      exact inv.sound hleft ch'
  · obtain ⟨m, hm, hnm⟩ := hcount n hn
    have hcount' := inv.count m hm
    change n = (Function.update s.device ch d .stdout).callback.releases +
      (Function.update s.device ch d .stderr).callback.releases
    cases ch with
    | stdout =>
        rw [Function.update_self, Function.update_of_ne (by decide)]
        omega
    | stderr =>
        rw [Function.update_self, Function.update_of_ne (by decide)]
        omega
  · change (Function.update s.device ch d ch').callback = .gone
    have hgone' := inv.acquired (hacquired.mp hnone)
    by_cases hch : ch' = ch
    · subst hch
      rw [Function.update_self]
      exact hgone (hgone' ch')
    · rw [Function.update_of_ne hch]
      exact hgone' ch'
  · change (Function.update s.device ch d ch').isOpen = true at hopen
    change (Function.update s.device ch d ch').m_data ≠ [] at hdata
    change .readyRead ch' ∈ queue ∨ s.slot = .readAll ch' ∨ (∃ a, s.slot = .sendToClient ch' a) ∨
      ∃ full, (Function.update s.device ch d ch').callback = .appended full
    by_cases hch : ch' = ch
    · subst hch
      rw [Function.update_self] at hopen hdata ⊢
      obtain ⟨b, -, hgrown, hfull⟩ := h.grown
      by_cases hb : b = []
      · rw [hgrown, hb, List.append_nil] at hdata
        obtain hposted | hread | hsend | ⟨full, happended⟩ :=
          inv.pending hleft ch' hobject (h.opened hopen) hdata
        · exact .inl (hmem _ hposted)
        · exact .inr (.inl hread)
        · exact .inr (.inr (.inl hsend))
        · exact (hpending full happended).imp id fun h => .inr (.inr h)
      · exact .inr (.inr (.inr (hfull hb)))
    · rw [Function.update_of_ne hch] at hopen hdata ⊢
      exact (inv.pending hleft ch' hobject hopen hdata).imp (hmem _) id
  · change s.canceled = true ∨ (Function.update s.device ch d ch').m_data = [] ∧
      (Function.update s.device ch d ch').callback.ended = true
    by_cases hch : ch' = ch
    · subst hch
      rw [Function.update_self]
      refine (inv.dropped ch' hobject).imp id fun hend => ?_
      obtain ⟨hended, hdata, -⟩ := h.ended hend.2
      exact ⟨hdata.trans hend.1, hended⟩
    · rw [Function.update_of_ne hch]
      exact inv.dropped ch' hobject
  · obtain rfl | ⟨p, -, -, hno⟩ := hqueue
    · exact inv.posted hsign
    · exact absurd (inv.gone hsign ch) hno
  · obtain rfl | ⟨p, hp, rfl, -⟩ := hqueue
    · exact inv.timers
    · have htimers := inv.timers
      simpa [List.count_append, hp] using htimers
  · refine (inv.quit hquit).imp id fun h' => h'.imp id fun hall ch' => ?_
    change (Function.update s.device ch d ch').callback.ended = true ∧
      ((Function.update s.device ch d ch').hung = false →
        (Function.update s.device ch d ch').m_data = [] ∧ held s ch' = [])
    by_cases hch : ch' = ch
    · subst hch
      rw [Function.update_self]
      obtain ⟨hended, hdata, hhung⟩ := h.ended (hall ch').1
      rw [hdata, hhung]
      exact ⟨hended, (hall ch').2⟩
    · rw [Function.update_of_ne hch]
      exact hall ch'

theorem Callback.releases_congr {c c' : Callback} (h : c = .gone ↔ c' = .gone) :
    c.releases = c'.releases := by
  by_cases hc : c = .gone
  · rw [hc, h.mp hc]
  · have hc' := mt h.mpr hc
    cases c <;> cases c' <;> simp_all [Callback.releases]

/-- The callback does a step of its own. -/
theorem Inv.quiet (inv : Inv s) (h : Filled (s.device ch) d)
    (hgone : d.callback = .gone ↔ (s.device ch).callback = .gone)
    (hpending : ∀ full, (s.device ch).callback = .appended full → d.callback = .appended full) :
    Inv { s with device := Function.update s.device ch d } :=
  inv.fill h (.inl rfl) (fun full hfull => .inr ⟨full, hpending full hfull⟩)
    (fun n hn => ⟨n, hn, by rw [Callback.releases_congr hgone]⟩) Iff.rfl hgone.mpr

theorem Inv.react (inv : Inv s) (hangup : Bool) :
    Inv (s.modify ch fun d => d.react hangup) :=
  inv.quiet (filled_react hangup) (react_gone hangup) fun full hfull => by
    simp [ReadDevice.react, hfull]

theorem Inv.recv (inv : Inv s) (r : Recv) : Inv (s.modify ch fun d => d.recv r) :=
  inv.quiet (filled_recv r) (recv_gone r) fun full hfull => by
    simp [ReadDevice.recv, hfull]

theorem Inv.emit (inv : Inv s) : Inv (s.emit ch) := by
  unfold State.emit
  split
  · rename_i full hfull
    have hfilled : Filled (s.device ch)
        { s.device ch with callback := if full then .reading else .idle } := by
      refine filled_callback ?_ ?_ rfl
      · simp [hfull, Callback.ended]
      · cases full <;> simp [Callback.ended]
    refine inv.fill hfilled (.inr ⟨.readyRead ch, by simp, rfl, by simp [hfull]⟩)
      (fun _ _ => .inl (List.mem_append_right _ (List.mem_singleton.mpr rfl)))
      (fun n hn => ⟨n, hn, ?_⟩) Iff.rfl (by simp [hfull])
    cases full <;> simp [hfull, Callback.releases]
  · rename_i heof
    have hfilled : Filled (s.device ch) { s.device ch with callback := .release } := by
      refine filled_callback ?_ ?_ rfl
      · simp [Callback.ended]
      · simp [heof, Callback.ended]
    refine inv.fill hfilled (.inr ⟨.readChannelFinished ch, by simp, rfl, by simp [heof]⟩)
      (by simp [heof]) (fun n hn => ⟨n, hn, ?_⟩) Iff.rfl (by simp [heof])
    simp [heof, Callback.releases]
  · exact inv

theorem Inv.release (inv : Inv s) : Inv (s.release ch) := by
  unfold State.release
  split
  · rename_i hrelease
    have hfilled : Filled (s.device ch) { s.device ch with callback := .gone } := by
      refine filled_callback ?_ ?_ rfl
      · simp [Callback.ended]
      · simp [hrelease, Callback.ended]
    refine inv.fill hfilled (.inl rfl) (by simp [hrelease]) (fun n hn => ?_) ?_ fun _ => rfl
    · obtain ⟨m, hm, rfl⟩ := Option.map_eq_some_iff.mp hn
      exact ⟨m, hm, by simp [hrelease, Callback.releases]⟩
    · simp
  · exact inv

end Callbacks

section Task

variable {s : State} {ch : Channel}

theorem Inv.start : Inv {} where
  kept _ := rfl
  closed _ := ⟨fun h => (by cases h), fun h => (by cases h)⟩
  sound _ _ := ⟨fun h => (by cases h), fun _ => rfl⟩
  count n h := by
    cases h
    rfl
  acquired h := by cases h
  result h := by cases h
  sign h := by cases h
  pending _ _ _ _ h := absurd rfl h
  dropped ch h := by cases ch <;> simp at h
  slots _ h := by simp at h
  posted h := by cases h
  timers := by simp
  quit h := by cases h
  left h := by cases h

theorem Inv.timer (inv : Inv s) (h : .timer ∉ s.queue) :
    Inv { s with queue := s.queue ++ [.timer] } := by
  refine ⟨inv.kept, inv.closed, inv.sound, inv.count, inv.acquired, inv.result, inv.sign,
    fun hleft ch hobject hopen hdata => ?_, inv.dropped, inv.slots, fun _ => .inr ⟨s.queue, rfl, h⟩,
    ?_, inv.quit, inv.left⟩
  · exact (inv.pending hleft ch hobject hopen hdata).imp (List.mem_append_left _) id
  · simp [List.count_append, List.count_eq_zero_of_not_mem h]

theorem Inv.cancel (inv : Inv s) : Inv { s with canceled := true } :=
  ⟨inv.kept, inv.closed, inv.sound, inv.count, inv.acquired, inv.result, inv.sign, inv.pending,
    fun _ _ => .inl rfl, inv.slots, inv.posted, inv.timers, fun _ => .inl rfl, inv.left⟩

theorem Inv.leave (inv : Inv s) : Inv s.leave := by
  unfold State.leave
  split
  · rename_i hquit
    have hheld : ∀ ch, held s ch = [] := fun ch => by simp [held, hquit.2]
    refine ⟨fun ch => ?_, fun ch => ⟨fun _ => rfl, (inv.closed ch).hung⟩, fun h => (by cases h),
      inv.count, inv.acquired, inv.result, inv.sign, fun h => (by cases h), inv.dropped,
      fun ch h => ?_, inv.posted, inv.timers, fun _ => ?_, fun _ => hquit.1⟩
    · have hkept := inv.kept ch
      rw [hheld ch] at hkept
      exact hkept
    · simp at h
    · refine (inv.quit hquit.1).imp id fun h => h.imp id fun hall ch => ?_
      exact ⟨(hall ch).1, fun hhung => ⟨((hall ch).2 hhung).1, rfl⟩⟩
  · exact inv

/-- The task takes an event, or goes on with one, and holds nothing. -/
theorem Inv.goto (inv : Inv s) {queue : List Posted} {slot : Slot} (hleft : s.left = false)
    (hslot : State.left { s with slot } = false) (hheld : ∀ ch, held { s with slot } ch = held s ch)
    (hpending : ∀ ch ∈ s.m_objects, (s.device ch).isOpen = true → (s.device ch).m_data ≠ [] →
      .readyRead ch ∈ s.queue ∨ s.slot = .readAll ch → .readyRead ch ∈ queue ∨ slot = .readAll ch)
    (hsend : ∀ ch a, s.slot ≠ .sendToClient ch a)
    (hslots : ∀ ch, slot = .readAll ch ∨ (∃ a, slot = .sendToClient ch a) ∨ slot = .atEnd ch →
      ch ∈ s.m_objects)
    (hqueue : queue = s.queue ∨ ∃ p, s.queue = p :: queue) :
    Inv { s with queue, slot } := by
  refine ⟨fun ch => ?_, inv.closed, fun _ => inv.sound hleft, inv.count, inv.acquired, inv.result,
    inv.sign, fun _ ch hobject hopen hdata => ?_, inv.dropped, hslots, fun hsign => ?_, ?_,
    fun hquit => ?_, fun hno => absurd (hno.symm.trans hslot) (by simp)⟩
  · have hkept := inv.kept ch
    rw [← hheld ch] at hkept
    exact hkept
  · obtain hposted | hread | ⟨a, ha⟩ | happended := inv.pending hleft ch hobject hopen hdata
    · exact (hpending ch hobject hopen hdata (.inl hposted)).imp id .inl
    · exact (hpending ch hobject hopen hdata (.inr hread)).imp id .inl
    · exact absurd ha (hsend ch a)
    · exact .inr (.inr (.inr happended))
  · obtain rfl | ⟨p, hp⟩ := hqueue
    · exact inv.posted hsign
    · have hposted := inv.posted hsign
      rw [hp] at hposted
      obtain hno | ⟨l, hl, hno⟩ := hposted
      · exact .inl fun h => hno (List.mem_cons_of_mem _ h)
      · cases l with
        | nil =>
            cases hl
            exact .inl List.not_mem_nil
        | cons q l =>
            cases hl
            exact .inr ⟨l, rfl, fun h => hno (List.mem_cons_of_mem _ h)⟩
  · obtain rfl | ⟨p, hp⟩ := hqueue
    · exact inv.timers
    · have htimers := inv.timers
      rw [hp, List.count_cons] at htimers
      change queue.count .timer ≤ 1
      omega
  · refine (inv.quit hquit).imp id fun h => h.imp id fun hall ch => ⟨(hall ch).1, fun hhung => ?_⟩
    exact ⟨((hall ch).2 hhung).1, (hheld ch).trans ((hall ch).2 hhung).2⟩

end Task

end DispService.Exec
