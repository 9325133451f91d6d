import DispService.Pump.Flow

/-! What the service has accepted after any run of the sending pump, and when a
pump that has come to rest has sent its whole stream. -/
namespace DispService.Pump.Push

open DispService.Lib

universe u v

variable {κ : Type u} {β : Type v} {service : Nat → SendResult} {slack : Nat → Nat}
  {k : Packer κ} {w : World κ β} {q u : Queue κ β} {p : Package κ β}

/-- The parts of the world the stream is made of. -/
theorem Stream.congr {w' : World κ β} (h : Stream k w q) (hdevice : w'.device = w.device)
    (hchannel : w'.channel = w.channel) (hoffered : w'.offered = w.offered)
    (hread : w'.read = w.read) (haccepted : w'.accepted = w.accepted) : Stream k w' q where
  valid := h.valid
  packer := h.packer
  held := by
    rw [haccepted, hread]
    exact h.held
  offered := by
    rw [hread, hdevice, hoffered]
    exact h.offered
  finished := by
    rw [hchannel, hdevice]
    exact h.finished
  line := by
    rw [haccepted, hchannel]
    exact h.line

theorem setState_stay (state : State) (q : Queue κ β) :
    w.setState (stay state q) = { w with state := state, queue := some q } := by
  unfold World.setState stay
  simp

theorem Waits.congr {w' : World κ β} (h : Waits w) (state : w'.state = w.state)
    (channel : w'.channel = .finished ↔ w.channel = .finished)
    (device : w.device ≠ [] → w'.device ≠ []) : Waits w' := by
  rcases h with hsending | ⟨hstate, hdevice, hgoing⟩
  · exact .inl (state.trans hsending)
  · exact .inr ⟨state.trans hstate, device hdevice, fun hno => hgoing (channel.mp hno)⟩

theorem Clear.congr {w' : World κ β} (calls : w'.calls = w.calls) :
    Clear service w' ↔ Clear service w := by
  unfold Clear
  rw [calls]

theorem Fresh.congr {w' : World κ β} (h : Fresh k w) (accepted : w'.accepted = w.accepted)
    (quits : w'.quits = w.quits) : Fresh k w' where
  accepted := by
    rw [accepted]
    exact h.accepted
  quits := quits.trans h.quits

theorem Ended.congr {w' : World κ β} (h : Ended k w q)
    (channel : w'.channel = .finished ↔ w.channel = .finished)
    (accepted : w'.accepted = w.accepted) : Ended k w' q where
  finished := channel.mpr h.finished
  items := h.items
  accepted := by
    rw [accepted]
    exact h.accepted

theorem Phase.congr {w' : World κ β} (h : Phase service k w q) (state : w'.state = w.state)
    (channel : w'.channel = .finished ↔ w.channel = .finished)
    (flying : w'.flying = w.flying) (calls : w'.calls = w.calls)
    (accepted : w'.accepted = w.accepted) (quits : w'.quits = w.quits)
    (device : w.device ≠ [] → w'.device ≠ []) : Phase service k w' q := by
  have hclear : Clear service w' ↔ Clear service w := Clear.congr calls
  cases h with
  | reading hstate clear fresh hflying items size going =>
      exact .reading (state.trans hstate) (hclear.mpr clear) (fresh.congr accepted quits)
        (flying.trans hflying) items size (fun hno => going (channel.mp hno))
  | sending p hstate clear fresh hflying made =>
      exact .sending p (hstate.congr state channel device) (hclear.mpr clear)
        (fresh.congr accepted quits) (flying.trans hflying) made
  | stalled hstate refused fresh hflying =>
      exact .stalled (hstate.congr state channel device) (fun hno => refused (hclear.mp hno))
        (fresh.congr accepted quits) (flying.trans hflying)
  | closing hstate clear ended hflying hquits =>
      exact .closing (state.trans hstate) (hclear.mpr clear) (ended.congr channel accepted)
        (flying.trans hflying) (quits.trans hquits)
  | success hstate clear ended hflying hquits =>
      exact .success (state.trans hstate) (hclear.mpr clear) (ended.congr channel accepted)
        (flying.trans hflying) (quits.trans hquits)

/-- A machine that waits for `onSent` goes on waiting while its queue changes. -/
theorem Phase.waits {w' : World κ β} {q' : Queue κ β} (h : Phase service k w q)
    (before : Waits w) (state : Waits w') (flying : w'.flying = w.flying)
    (calls : w'.calls = w.calls) (accepted : w'.accepted = w.accepted)
    (quits : w'.quits = w.quits) : Phase service k w' q' := by
  have hclear : Clear service w' ↔ Clear service w := Clear.congr calls
  have hne : ∀ s, w.state = s → s ≠ .sending → s ≠ .obstruction → False := by
    rintro s rfl hsending hobstruction
    rcases before with h | ⟨h, -⟩
    · exact hsending h
    · exact hobstruction h
  cases h with
  | sending p _ clear fresh hflying made =>
      exact .sending p state (hclear.mpr clear) (fresh.congr accepted quits)
        (flying.trans hflying) made
  | stalled _ refused fresh hflying =>
      exact .stalled state (fun hno => refused (hclear.mp hno)) (fresh.congr accepted quits)
        (flying.trans hflying)
  | reading hstate => exact (hne _ hstate (by decide) (by decide)).elim
  | closing hstate => exact (hne _ hstate (by decide) (by decide)).elim
  | success hstate => exact (hne _ hstate (by decide) (by decide)).elim

/-- Bytes that come before the channel is closed. -/
theorem Good.arrive (h : Good service k w) {bytes : List β} (opened : w.channel = .opened) :
    Good service k
      { w with device := w.device ++ bytes, offered := w.offered ++ bytes, announced := true } := by
  have going : w.channel ≠ .finished := by
    rw [opened]
    exact fun hno => by cases hno
  have hoffered : w.read ++ w.device = w.offered →
      w.read ++ (w.device ++ bytes) = w.offered ++ bytes := by
    intro h
    rw [← List.append_assoc, h]
  rcases h with ⟨q, live⟩ | failed
  · have hstream := live.stream
    refine .inl ⟨q, live.queue, live.name, ?_, fun _ => .inl rfl, ?_⟩
    · exact ⟨hstream.valid, hstream.packer, hstream.held, hoffered hstream.offered,
        fun hno => absurd hno going, hstream.line⟩
    · exact live.phase.congr rfl Iff.rfl rfl rfl rfl rfl (fun hdevice => by simp [hdevice])
  · exact .inr ⟨failed.queue, failed.refused, failed.fresh.congr rfl rfl, failed.ordered,
      hoffered failed.offered⟩

theorem Good.close (h : Good service k w) (opened : w.channel = .opened) :
    Good service k { w with channel := .closed } := by
  have going : w.channel ≠ .finished := by
    rw [opened]
    exact fun hno => by cases hno
  have closed : Channel.closed ≠ .finished := fun hno => by cases hno
  rcases h with ⟨q, live⟩ | failed
  · have hstream := live.stream
    refine .inl ⟨q, live.queue, live.name, ?_, live.quiet, ?_⟩
    · obtain ⟨ds, hds, hline⟩ := hstream.line
      rw [if_neg going] at hline
      exact ⟨hstream.valid, hstream.packer, hstream.held, hstream.offered,
        fun hno => absurd hno closed, ds, hds, hline.trans (by rw [if_neg closed])⟩
    · exact live.phase.congr rfl
        ⟨fun hno => absurd hno closed, fun hno => absurd hno going⟩ rfl rfl rfl rfl id
  · exact .inr ⟨failed.queue, failed.refused, failed.fresh.congr rfl rfl, failed.ordered,
      failed.offered⟩

/-- The device is read, then `dequeue` is called with nothing in the air. -/
theorem Stream.readDequeue (h : Stream k w q) (name : w.objectName = k.spice.getD "")
    (clear : Clear service w) (fresh : Fresh k w) (flying : w.flying = [])
    (hdevice : w.device ≠ []) : Good service k
      (w.setState (withData slack w.device q (·.dequeue (service w.calls)))) := by
  have going : w.channel ≠ .finished := fun hno => hdevice (h.finished hno).1
  obtain ⟨u, hu, grown⟩ := @Queue.enqueueData_grown _ _ _ slack h.valid _ hdevice
  have hstream := h.drain grown going
  rw [withData_eq hu, setState_read (Queue.dequeue_read hstream.valid _)]
  exact hstream.dequeue name clear (fresh.congr rfl rfl) flying (fun hno => absurd rfl hno)

/-- The device is read and the machine goes on sending. -/
theorem Stream.readStay (h : Stream k w q) (name : w.objectName = k.spice.getD "")
    (hphase : Phase service k w q) (hwaits : Waits w) (hdevice : w.device ≠ []) :
    Good service k (w.setState (withData slack w.device q (stay .sending))) := by
  have going : w.channel ≠ .finished := fun hno => hdevice (h.finished hno).1
  obtain ⟨u, hu, grown⟩ := @Queue.enqueueData_grown _ _ _ slack h.valid _ hdevice
  have hstream := h.drain grown going
  rw [withData_eq hu, setState_read rfl, setState_stay]
  exact .inl ⟨u, rfl, name, hstream.congr rfl rfl rfl rfl rfl, fun hno => absurd rfl hno,
    hphase.waits hwaits (.inl rfl) rfl rfl rfl rfl⟩

/-- The phases of a machine by its state. -/
theorem Phase.byState (h : Phase service k w q) :
    (w.state = .reading ∧ Clear service w ∧ Fresh k w ∧ w.flying = [] ∧ w.channel ≠ .finished) ∨
      Waits w ∨ ((w.state = .closing ∨ w.state = .success) ∧ w.channel = .finished) := by
  cases h with
  | reading state clear fresh flying _ _ going =>
      exact .inl ⟨state, clear, fresh, flying, going⟩
  | sending _ state => exact .inr (.inl state)
  | stalled state => exact .inr (.inl state)
  | closing state _ ended => exact .inr (.inr ⟨.inl state, ended.finished⟩)
  | success state _ ended => exact .inr (.inr ⟨.inr state, ended.finished⟩)

theorem readyRead_none (h : w.queue = none) : World.readyRead service slack w = w := by
  unfold World.readyRead
  rw [h]

theorem readChannelFinished_none (h : w.queue = none) :
    World.readChannelFinished service slack w = w := by
  unfold World.readChannelFinished
  rw [h]

theorem readChannelFinished_some (h : w.queue = some q) :
    World.readChannelFinished service slack w =
      w.setState (Visitor.eof slack w.device w.state q (service w.calls)) := by
  unfold World.readChannelFinished
  rw [h]

theorem Good.readyRead (h : Good service k w) :
    Good service k (World.readyRead service slack { w with announced := false }) := by
  rcases h with ⟨q, live⟩ | failed
  · have hstream : Stream k { w with announced := false } q :=
      live.stream.congr rfl rfl rfl rfl rfl
    have hphase : Phase service k { w with announced := false } q :=
      live.phase.congr rfl Iff.rfl rfl rfl rfl rfl id
    have hname : ({ w with announced := false } : World κ β).objectName = k.spice.getD "" :=
      live.name
    have hqueue : ({ w with announced := false } : World κ β).queue = some q := live.queue
    generalize { w with announced := false } = x at hstream hphase hname hqueue ⊢
    unfold World.readyRead
    rw [hqueue]
    dsimp only
    by_cases hdevice : x.device = []
    · rw [if_pos hdevice]
      exact .inl ⟨q, hqueue, hname, hstream, fun hno => absurd hdevice hno, hphase⟩
    · rw [if_neg hdevice]
      rcases hphase.byState with ⟨hstate, clear, fresh, flying, -⟩ | hwaits | ⟨-, hfinished⟩
      · rw [hstate]
        exact hstream.readDequeue hname clear fresh flying hdevice
      · rcases id hwaits with hstate | ⟨hstate, -, going⟩
        · rw [hstate]
          unfold Visitor.ready
          dsimp only
          by_cases hmany : 5 < q.items.length
          · rw [if_pos hmany, setState_stay]
            have going : x.channel ≠ .finished := fun hno => hdevice (hstream.finished hno).1
            exact .inl ⟨q, rfl, hname, hstream.congr rfl rfl rfl rfl rfl, fun _ => .inr rfl,
              hphase.waits hwaits (.inr ⟨rfl, hdevice, going⟩) rfl rfl rfl rfl⟩
          · rw [if_neg hmany]
            exact hstream.readStay hname hphase hwaits hdevice
        · rw [hstate]
          unfold Visitor.ready
          rw [setState_stay]
          exact .inl ⟨q, rfl, hname, hstream.congr rfl rfl rfl rfl rfl, fun _ => .inr rfl,
            hphase.waits hwaits (.inr ⟨rfl, hdevice, going⟩) rfl rfl rfl rfl⟩
      · exact absurd (hstream.finished hfinished).1 hdevice
  · rw [readyRead_none (by exact failed.queue)]
    exact .inr ⟨failed.queue, failed.refused, failed.fresh.congr rfl rfl, failed.ordered,
      failed.offered⟩

theorem Good.readChannelFinished (h : Good service k w) (closed : w.channel = .closed)
    (silent : w.announced = false) :
    Good service k (World.readChannelFinished service slack { w with channel := .finished }) := by
  have going : w.channel ≠ .finished := by
    rw [closed]
    exact fun hno => by cases hno
  rcases h with ⟨q, live⟩ | failed
  · rw [readChannelFinished_some (q := q) (by exact live.queue)]
    have hquiet : w.state ≠ .obstruction → w.device = [] := by
      intro hstate
      by_contra hdevice
      rcases live.quiet hdevice with hannounced | hno
      · rw [silent] at hannounced
        cases hannounced
      · exact hstate hno
    dsimp only
    rcases live.phase.byState with ⟨hstate, clear, fresh, flying, -⟩ | hwaits | ⟨-, hfinished⟩
    · have hdevice := hquiet (by rw [hstate]; decide)
      obtain ⟨u, hu, hstream⟩ := live.stream.finish hdevice going
      have hreply : Visitor.eof slack w.device w.state q (service w.calls) =
          u.dequeue (service w.calls) := by
        rw [hstate]
        unfold Visitor.eof after
        rw [hu]
      rw [hreply]
      exact hstream.dequeue live.name clear (fresh.congr rfl rfl) flying
        (fun hno => absurd hdevice hno)
    · rcases id hwaits with hstate | ⟨hstate, hdevice, -⟩
      · have hdevice := hquiet (by rw [hstate]; decide)
        obtain ⟨u, hu, hstream⟩ := live.stream.finish hdevice going
        have hreply : Visitor.eof slack w.device w.state q (service w.calls) =
            stay .sending u := by
          rw [hstate]
          unfold Visitor.eof after
          rw [hu]
        rw [hreply, setState_stay]
        exact .inl ⟨u, rfl, live.name, hstream.congr rfl rfl rfl rfl rfl,
          fun hno => absurd hdevice hno,
          live.phase.waits hwaits (.inl rfl) rfl rfl rfl rfl⟩
      · obtain ⟨u, hu, grown⟩ :=
          @Queue.enqueueData_grown _ _ _ slack live.stream.valid _ hdevice
        obtain ⟨v, hv, hstream⟩ := (live.stream.drain grown going).finish rfl going
        have hreply : Visitor.eof slack w.device w.state q (service w.calls) =
            { stay .sending v with read := w.device } := by
          rw [hstate]
          unfold Visitor.eof
          dsimp only
          rw [withData_eq hu]
          unfold after
          rw [hv]
        have hset : World.setState { w with channel := .finished }
            { stay .sending v with read := w.device } =
              World.setState (World.drain { w with channel := .finished }) (stay .sending v) :=
          setState_read rfl
        rw [hreply, hset, setState_stay]
        exact .inl ⟨v, rfl, live.name, hstream.congr rfl rfl rfl rfl rfl,
          fun hno => absurd rfl hno, live.phase.waits hwaits (.inl rfl) rfl rfl rfl rfl⟩
    · exact absurd hfinished going
  · rw [readChannelFinished_none (by exact failed.queue)]
    exact .inr ⟨failed.queue, failed.refused, failed.fresh.congr rfl rfl, failed.ordered,
      failed.offered⟩

/-- Every package the pump makes passes the connector's filter. -/
theorem own_assemble (k : Packer κ) (data : List β) :
    Own k (k.spice.getD "") (k.assemble data) := by
  refine ⟨rfl, fun hname => ?_⟩
  cases hspice : k.spice with
  | none =>
      rw [hspice] at hname
      exact absurd rfl hname
  | some spice => exact hspice

section

variable [DecidableEq κ]

theorem onSent_own (hqueue : w.queue = some q) (hown : Own q.packer w.objectName p) :
    World.onSent service slack w p =
      w.setState (Visitor.sent slack w.device p.data.isEmpty w.state q (service w.calls)) := by
  unfold World.onSent
  rw [hqueue]
  exact if_pos hown

theorem onSent_foreign (h : ∀ q, w.queue = some q → ¬ Own q.packer w.objectName p) :
    World.onSent service slack w p = w := by
  unfold World.onSent
  cases hqueue : w.queue with
  | none => rfl
  | some q => exact if_neg (h q hqueue)

/-- The package in the air was sent. -/
theorem Good.onSent (h : Good service k w) {place : Nat} (hp : w.flying[place]? = some p) :
    Good service k
      (World.onSent service slack { w with flying := w.flying.eraseIdx place } p) := by
  rcases h with ⟨q, live⟩ | failed
  · have hsingle : ∀ x, w.flying = [x] → p = x ∧ w.flying.eraseIdx place = [] := by
      intro x hx
      rw [hx] at hp ⊢
      cases place with
      | zero => exact ⟨(Option.some.inj hp).symm, rfl⟩
      | succ n => cases hp
    have hsent : ∀ data r, p = k.assemble data →
        Visitor.sent slack w.device p.data.isEmpty w.state q (service w.calls) = r →
          World.onSent service slack { w with flying := w.flying.eraseIdx place } p =
            World.setState { w with flying := w.flying.eraseIdx place } r := by
      intro data r hdata hr
      have hown : Own q.packer w.objectName p := by
        rw [live.name, live.stream.packer, hdata]
        exact own_assemble k data
      rw [← hr]
      exact onSent_own (w := { w with flying := w.flying.eraseIdx place }) live.queue hown
    have hstream : Stream k { w with flying := w.flying.eraseIdx place } q :=
      live.stream.congr rfl rfl rfl rfl rfl
    cases live.phase with
    | reading _ _ _ hflying =>
        rw [hflying] at hp
        cases hp
    | stalled _ _ _ hflying =>
        rw [hflying] at hp
        cases hp
    | success _ _ _ hflying =>
        rw [hflying] at hp
        cases hp
    | sending x hwaits clear fresh hflying made =>
        obtain ⟨rfl, hempty⟩ := hsingle x hflying
        rcases hwaits with hstate | ⟨hstate, hdevice, -⟩
        · rw [hsent _ (q.dequeue (service w.calls)) made.made (by rw [hstate]; rfl)]
          refine hstream.dequeue live.name clear (fresh.congr rfl rfl) hempty fun hdevice => ?_
          rcases live.quiet hdevice with hannounced | hno
          · exact hannounced
          · rw [hstate] at hno
            cases hno
        · rw [hsent _ (withData slack w.device q (·.dequeue (service w.calls))) made.made
            (by rw [hstate]; rfl)]
          exact hstream.readDequeue live.name clear (fresh.congr rfl rfl) hempty hdevice
    | closing hstate clear ended hflying hquits =>
        obtain ⟨rfl, hempty⟩ := hsingle _ hflying
        have hset : World.setState { w with flying := w.flying.eraseIdx place }
            { stay .success q with quit := true } =
              { w with flying := w.flying.eraseIdx place, state := .success, queue := some q,
                       quits := w.quits + 1 } := by
          unfold World.setState stay
          simp
        rw [hsent [] { stay .success q with quit := true } rfl (by rw [hstate]; rfl), hset]
        refine .inl ⟨q, rfl, live.name, hstream.congr rfl rfl rfl rfl rfl,
          fun hdevice => absurd (live.stream.finished ended.finished).1 hdevice, ?_⟩
        refine .success rfl clear (ended.congr Iff.rfl rfl) hempty ?_
        dsimp only
        rw [hquits]
  · have hnone : World.onSent service slack { w with flying := w.flying.eraseIdx place } p =
        { w with flying := w.flying.eraseIdx place } := by
      refine onSent_foreign fun q hq => ?_
      rw [show ({ w with flying := w.flying.eraseIdx place } : World κ β).queue = none
        from failed.queue] at hq
      cases hq
    rw [hnone]
    exact .inr ⟨failed.queue, failed.refused, failed.fresh.congr rfl rfl, failed.ordered,
      failed.offered⟩

theorem step_good (h : Good service k w) {e : Event κ β} (enabled : Enabled w e) :
    Good service k (World.step service slack w e) := by
  cases e with
  | arrive bytes => exact h.arrive enabled.1
  | close => exact h.close enabled
  | readyRead => exact h.readyRead
  | readChannelFinished => exact h.readChannelFinished enabled.1 enabled.2
  | foreign p =>
      rw [World.step, onSent_foreign enabled]
      exact h
  | onSent place =>
      have hp : w.flying[place]? = some (w.flying.get ⟨place, enabled⟩) :=
        List.getElem?_eq_getElem enabled
      rw [World.step, hp]
      exact h.onSent hp

theorem run_good {es : List (Event κ β)} (run : Runs service slack (World.start k) es w) :
    Good service k w :=
  run.preserves (fun _ _ _ good ⟨enabled, step⟩ => step ▸ step_good good enabled)
    (start_good k)

end

theorem Ended.stream (h : Ended k w q) (hstream : Stream k w q) :
    payload w.accepted = w.offered := by
  obtain ⟨hdevice, hsize⟩ := hstream.finished h.finished
  have hheld : q.held = [] := by
    unfold Queue.held
    rw [h.items, hstream.valid.bytes_eq_nil hsize]
    rfl
  have hread := hstream.held
  rw [hheld, List.append_nil] at hread
  rw [hread, ← hstream.offered, hdevice, List.append_nil]

theorem Fresh.sound (h : Fresh k w) (hread : payload w.accepted <+: w.read)
    (hoffered : w.read ++ w.device = w.offered) : Sound w where
  ordered := hread
  offered := ⟨_, hoffered⟩
  last := by
    intro ds p es haccepted hdata
    exact absurd hdata (h.accepted p (by rw [haccepted]; simp)).filled
  quits := by
    rw [h.quits]
    exact Nat.zero_le 1
  ended := by
    intro hquits
    rw [h.quits] at hquits
    exact absurd hquits (Nat.lt_irrefl 0)

theorem Ended.sound (h : Ended k w q) (hstream : Stream k w q) (quits : w.quits ≤ 1)
    (flying : 0 < w.quits → w.flying = []) : Sound w where
  ordered := ⟨_, hstream.held⟩
  offered := ⟨_, hstream.offered⟩
  last := by
    intro ds p es haccepted hdata
    have hpayload := h.stream hstream
    obtain ⟨xs, hxs, hlast⟩ := h.accepted
    rw [haccepted] at hlast hpayload
    have hp : p ∉ xs := fun hin => (hxs p hin).filled hdata
    obtain ⟨-, hes, -⟩ := last_of_not_mem hlast hp
    rw [hes, payload_append, payload_cons, payload_nil, hdata] at hpayload
    refine ⟨hes, ?_⟩
    rw [← hpayload]
    simp
  quits := quits
  ended := by
    intro hquits
    obtain ⟨ds, -, haccepted⟩ := h.accepted
    exact ⟨flying hquits, ds, k.eof, haccepted, rfl⟩

theorem Good.sound (h : Good service k w) : Sound w := by
  rcases h with ⟨q, live⟩ | failed
  · have hfresh : Fresh k w → Sound w := fun fresh =>
      fresh.sound ⟨_, live.stream.held⟩ live.stream.offered
    cases live.phase with
    | reading _ _ fresh => exact hfresh fresh
    | sending _ _ _ fresh => exact hfresh fresh
    | stalled _ _ fresh => exact hfresh fresh
    | closing _ _ ended hflying hquits =>
        refine ended.sound live.stream (by rw [hquits]; exact Nat.zero_le 1) fun hno => ?_
        rw [hquits] at hno
        exact absurd hno (Nat.lt_irrefl 0)
    | success _ _ ended hflying hquits =>
        exact ended.sound live.stream (Nat.le_of_eq hquits) fun _ => hflying
  · exact failed.fresh.sound failed.ordered failed.offered

/-- A pump at rest has sent everything just when it was never refused. -/
theorem Good.completed_iff (h : Good service k w) (rest : AtRest w) :
    Completed w ↔ Clear service w := by
  have hfresh : Fresh k w → ¬ Completed w := by
    intro fresh hno
    have hquit := hno.quit
    rw [fresh.quits] at hquit
    cases hquit
  rcases h with ⟨q, live⟩ | failed
  · cases live.phase with
    | reading _ _ _ _ _ _ going => exact absurd rest.finished going
    | sending _ _ _ _ hflying =>
        rw [rest.flying] at hflying
        cases hflying
    | stalled _ refused fresh => exact iff_of_false (hfresh fresh) refused
    | closing _ _ _ hflying =>
        rw [rest.flying] at hflying
        cases hflying
    | success _ clear ended _ hquits =>
        obtain ⟨ds, -, haccepted⟩ := ended.accepted
        exact iff_of_true
          ⟨ended.stream live.stream, ⟨ds, k.eof, haccepted, rfl⟩, hquits⟩ clear
  · exact iff_of_false (hfresh failed.fresh) failed.refused

/-- At every moment the accepted packages are the beginning of the stream, and a
pump that has come to rest has sent the whole of it, its end, and quit, just when
the service took every package it was handed. -/
theorem sending_completed_iff [DecidableEq κ] {es : List (Event κ β)}
    (run : Runs service slack (World.start k) es w) :
    Sound w ∧ (AtRest w → (Completed w ↔ ∀ n < w.calls, service n = .accepted)) :=
  ⟨(run_good run).sound, fun rest => (run_good run).completed_iff rest⟩

/-- One byte and the end of the channel. -/
def oneByte : List (Event Unit Nat) :=
  [.arrive [7], .readyRead, .close, .readChannelFinished]

theorem oneByte_runs (service : Nat → SendResult) :
    Runs service (fun _ => 0) (World.start { command := () }) oneByte
      (oneByte.foldl (World.step service fun _ => 0) (World.start { command := () })) :=
  .cons ⟨⟨rfl, by decide⟩, rfl⟩ (.cons ⟨trivial, rfl⟩ (.cons ⟨rfl, rfl⟩
    (.cons ⟨⟨rfl, rfl⟩, rfl⟩ (.nil _))))

/-- The service refuses the first package: nothing wakes the pump again. -/
theorem not_completed_refused :
    ∃ w : World Unit Nat,
      Runs (fun n => if n = 0 then .sendQueueIsFull else .accepted) (fun _ => 0)
        (World.start { command := () }) oneByte w ∧ AtRest w ∧ ¬ Completed w :=
  ⟨_, oneByte_runs _, ⟨rfl, rfl⟩, fun h => by cases h.quit⟩

theorem sending_completed_iff_taken :
    ∃ w : World Unit Nat,
      Runs (fun _ => .accepted) (fun _ => 0) (World.start { command := () })
        (oneByte ++ [Event.onSent 0, Event.onSent 0]) w ∧ Completed w := by
  have hrun : Runs (fun _ => .accepted) (fun _ => 0) (World.start { command := () })
      (oneByte ++ [Event.onSent 0, Event.onSent 0])
        ((oneByte ++ [Event.onSent 0, Event.onSent 0]).foldl (World.step (fun _ => .accepted) fun _ => 0)
          (World.start { command := () })) :=
    (oneByte_runs _).append (.cons ⟨Nat.zero_lt_one, rfl⟩ (.cons ⟨Nat.zero_lt_one, rfl⟩ (.nil _)))
  exact ⟨_, hrun, ((sending_completed_iff hrun).2 ⟨rfl, rfl⟩).mpr fun _ _ => rfl⟩

end DispService.Pump.Push
