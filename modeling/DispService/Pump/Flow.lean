import DispService.Lib.Run
import DispService.Pump.Held

/-! The sending pump between its device and its service. The notifications come
in any order; the service takes or refuses what it is handed. -/
namespace DispService.Pump.Push

open DispService.Lib

universe u v

inductive Channel where
  | opened
  | closed
  | finished
deriving DecidableEq, Repr

/-- The connector with its device and its service. `offered`, `read`, `accepted`
and `quits` are the history of the stream. -/
structure World (κ : Type u) (β : Type v) where
  state : State := .reading
  /-- `m_queue`, gone once an error took the machine out of the pump. -/
  queue : Option (Queue κ β)
  objectName : String := ""
  device : List β := []
  /-- A `readyRead` is on its way. -/
  announced : Bool := false
  channel : Channel := .opened
  /-- The accepted packages whose `onSent` is still to come. -/
  flying : List (Package κ β) := []
  calls : Nat := 0
  offered : List β := []
  read : List β := []
  accepted : List (Package κ β) := []
  quits : Nat := 0

/-- A pump as its state's `on_entry` sets it up. -/
def World.start {κ : Type u} {β : Type v} (k : Packer κ) : World κ β where
  queue := some { packer := k }
  objectName := k.spice.getD ""

inductive Event (κ : Type u) (β : Type v) where
  /-- The device gets bytes and announces them. -/
  | arrive (bytes : List β)
  /-- The device has got its last byte. -/
  | close
  | readyRead
  | readChannelFinished
  /-- `onSent` of the accepted package at a place of `flying`. -/
  | onSent (place : Nat)
  /-- `onSent` of a package another pump sent through the same service. -/
  | foreign (p : Package κ β)

variable {κ : Type u} {β : Type v} [DecidableEq κ]

/-- `Connector::setState`, with what the call did to the world around. -/
def World.setState (w : World κ β) (r : Reply κ β) : World κ β :=
  { w with
    state := match r.target with
      | .ok s => s
      | .error _ => w.state
    queue := match r.target with
      | .ok _ => some r.queue
      | .error _ => none
    device := w.device.drop r.read.length
    read := w.read ++ r.read
    accepted := w.accepted ++ r.sent
    flying := w.flying ++ r.sent
    calls := w.calls + r.calls
    quits := w.quits + r.quit.toNat }

/-- The connector's filter: the package is one of this pump. -/
def Own (k : Packer κ) (objectName : String) (p : Package κ β) : Prop :=
  p.type = k.command ∧ (objectName ≠ "" → p.spice = some objectName)

instance (k : Packer κ) (objectName : String) (p : Package κ β) :
    Decidable (Own k objectName p) :=
  inferInstanceAs (Decidable (_ ∧ _))

section

variable (service : Nat → SendResult) (slack : Nat → Nat)

/-- `Connector::onSent`. -/
def World.onSent (w : World κ β) (p : Package κ β) : World κ β :=
  match w.queue with
  | none => w
  | some q =>
      if Own q.packer w.objectName p then
        w.setState (Visitor.sent slack w.device p.data.isEmpty w.state q (service w.calls))
      else w

/-- `Connector::readyRead`. -/
def World.readyRead (w : World κ β) : World κ β :=
  match w.queue with
  | none => w
  | some q =>
      if w.device = [] then w
      else w.setState (Visitor.ready slack w.device w.state q (service w.calls))

/-- `Connector::readChannelFinished`. -/
def World.readChannelFinished (w : World κ β) : World κ β :=
  match w.queue with
  | none => w
  | some q => w.setState (Visitor.eof slack w.device w.state q (service w.calls))

/-- One event. `service n` is the answer to the `n`-th package handed over. -/
def World.step (w : World κ β) : Event κ β → World κ β
  | .arrive bytes =>
      { w with device := w.device ++ bytes, offered := w.offered ++ bytes, announced := true }
  | .close => { w with channel := .closed }
  | .readyRead => World.readyRead service slack { w with announced := false }
  | .readChannelFinished =>
      World.readChannelFinished service slack { w with channel := .finished }
  | .onSent place =>
      match w.flying[place]? with
      | none => w
      | some p => World.onSent service slack { w with flying := w.flying.eraseIdx place } p
  | .foreign p => w.onSent service slack p

end

/-- When an event can come. The device signals the end of its channel once, after
the bytes it announced; `onSent` comes once for an accepted package. -/
def Enabled (w : World κ β) : Event κ β → Prop
  | .arrive bytes => w.channel = .opened ∧ bytes ≠ []
  | .close => w.channel = .opened
  | .readyRead => True
  | .readChannelFinished => w.channel = .closed ∧ w.announced = false
  | .onSent place => place < w.flying.length
  | .foreign p => ∀ q, w.queue = some q → ¬ Own q.packer w.objectName p

/-- The runs of a pump. -/
abbrev Runs (service : Nat → SendResult) (slack : Nat → Nat) :
    World κ β → List (Event κ β) → World κ β → Prop :=
  Run (Guarded Enabled (Graph (World.step service slack)))

/-- The accepted packages are the stream so far. -/
structure Sound (w : World κ β) : Prop where
  ordered : payload w.accepted <+: w.read
  offered : w.read <+: w.offered
  /-- The end of the stream is accepted at most once, after all data. -/
  last : ∀ ds p es, w.accepted = ds ++ p :: es → p.data = [] →
    es = [] ∧ payload ds = w.offered
  quits : w.quits ≤ 1
  /-- `Quit` comes after the end of the stream was sent. -/
  ended : 0 < w.quits → w.flying = [] ∧ ∃ ds p, w.accepted = ds ++ [p] ∧ p.data = []

/-- No event of this pump is left to come. -/
structure AtRest (w : World κ β) : Prop where
  finished : w.channel = .finished
  flying : w.flying = []

/-- The whole stream and its end are accepted, and the machine quit. -/
structure Completed (w : World κ β) : Prop where
  stream : payload w.accepted = w.offered
  ended : ∃ ds p, w.accepted = ds ++ [p] ∧ p.data = []
  quit : w.quits = 1

end DispService.Pump.Push

/-! The invariant of the sending pump. As long as the service takes every
package, exactly one is in the air while the machine sends; after a refusal none
is, and nothing wakes the machine again. -/
namespace DispService.Pump.Push

open DispService.Lib

universe u v

variable {κ : Type u} {β : Type v} {service : Nat → SendResult} {slack : Nat → Nat}
  {k : Packer κ} {w : World κ β} {q u : Queue κ β} {p : Package κ β}

theorem last_of_not_mem {α : Type*} {front rest ds : List α} {x e : α}
    (h : front ++ x :: rest = ds ++ [e]) (hx : x ∉ ds) : front = ds ∧ rest = [] ∧ x = e := by
  cases List.append_eq_append_iff.mp h with
  | inl hfront =>
      obtain ⟨l, hds, hl⟩ := hfront
      cases l with
      | nil =>
          rw [List.append_nil] at hds
          obtain ⟨hxe, hrest⟩ := List.cons.inj hl
          exact ⟨hds.symm, hrest, hxe⟩
      | cons y l =>
          obtain ⟨rfl, -⟩ := List.cons.inj hl
          exact absurd (by rw [hds]; simp) hx
  | inr hds =>
      obtain ⟨l, hfront, hl⟩ := hds
      cases l with
      | nil =>
          rw [List.append_nil] at hfront
          obtain ⟨hxe, hrest⟩ := List.cons.inj hl
          exact ⟨hfront, hrest.symm, hxe.symm⟩
      | cons y l => simp at hl

/-- The service took every package it was handed. -/
def Clear (service : Nat → SendResult) (w : World κ β) : Prop :=
  ∀ n < w.calls, service n = .accepted

/-- Accepted packages, queue and collector are the bytes read, in order, and the
end of the stream stands behind them once the channel has finished. -/
structure Stream (k : Packer κ) (w : World κ β) (q : Queue κ β) : Prop where
  valid : q.Valid
  packer : q.packer = k
  held : payload w.accepted ++ q.held = w.read
  offered : w.read ++ w.device = w.offered
  finished : w.channel = .finished → w.device = [] ∧ q.collector.size = 0
  line : ∃ ds, (∀ p ∈ ds, Packer.Data k p) ∧
    w.accepted ++ q.items = ds ++ if w.channel = .finished then [k.eof] else []

/-- Only data was accepted so far, and the machine did not quit. -/
structure Fresh (k : Packer κ) (w : World κ β) : Prop where
  accepted : ∀ p ∈ w.accepted, Packer.Data k p
  quits : w.quits = 0

/-- The states in which the machine waits for `onSent`. -/
def Waits (w : World κ β) : Prop :=
  w.state = .sending ∨ (w.state = .obstruction ∧ w.device ≠ [] ∧ w.channel ≠ .finished)

/-- The end of the stream was accepted, behind everything else. -/
structure Ended (k : Packer κ) (w : World κ β) (q : Queue κ β) : Prop where
  finished : w.channel = .finished
  items : q.items = []
  accepted : ∃ ds, (∀ p ∈ ds, Packer.Data k p) ∧ w.accepted = ds ++ [k.eof]

inductive Phase (service : Nat → SendResult) (k : Packer κ) (w : World κ β)
    (q : Queue κ β) : Prop where
  | reading (state : w.state = .reading) (clear : Clear service w) (fresh : Fresh k w)
      (flying : w.flying = []) (items : q.items = []) (size : q.collector.size = 0)
      (going : w.channel ≠ .finished)
  | sending (p : Package κ β) (state : Waits w) (clear : Clear service w) (fresh : Fresh k w)
      (flying : w.flying = [p]) (made : Packer.Data k p)
  | stalled (state : Waits w) (refused : ¬ Clear service w) (fresh : Fresh k w)
      (flying : w.flying = [])
  | closing (state : w.state = .closing) (clear : Clear service w) (ended : Ended k w q)
      (flying : w.flying = [k.eof]) (quits : w.quits = 0)
  | success (state : w.state = .success) (clear : Clear service w) (ended : Ended k w q)
      (flying : w.flying = []) (quits : w.quits = 1)

structure Live (service : Nat → SendResult) (k : Packer κ) (w : World κ β)
    (q : Queue κ β) : Prop where
  queue : w.queue = some q
  name : w.objectName = k.spice.getD ""
  stream : Stream k w q
  quiet : w.device ≠ [] → w.announced = true ∨ w.state = .obstruction
  phase : Phase service k w q

/-- The service answered a package with an error and the machine left the pump. -/
structure Failed (service : Nat → SendResult) (k : Packer κ) (w : World κ β) : Prop where
  queue : w.queue = none
  refused : ¬ Clear service w
  fresh : Fresh k w
  ordered : payload w.accepted <+: w.read
  offered : w.read ++ w.device = w.offered

def Good (service : Nat → SendResult) (k : Packer κ) (w : World κ β) : Prop :=
  (∃ q, Live service k w q) ∨ Failed service k w

theorem start_good (k : Packer κ) : Good service k (World.start k : World κ β) := by
  refine .inl ⟨{ packer := k }, rfl, rfl, ?_, fun hno => absurd rfl hno, ?_⟩
  · exact {
      valid := ⟨⟨Nat.le_refl 0, Nat.zero_le _⟩, Nat.two_pow_pos 22⟩
      packer := rfl
      held := rfl
      offered := rfl
      finished := fun hno => by cases hno
      line := ⟨[], (fun p hp => by cases hp), rfl⟩ }
  · exact .reading rfl (fun n hn => absurd hn (Nat.not_lt_zero n))
      ⟨(fun p hp => by cases hp), rfl⟩ rfl rfl rfl (fun hno => by cases hno)

theorem Stream.member (h : Stream k w q) (hp : p ∈ w.accepted ++ q.items)
    (hdata : p.data ≠ []) : Packer.Data k p := by
  obtain ⟨ds, hds, hline⟩ := h.line
  rw [hline] at hp
  cases List.mem_append.mp hp with
  | inl hin => exact hds p hin
  | inr heof =>
      split at heof
      · rw [List.mem_singleton.mp heof] at hdata
        exact absurd rfl hdata
      · cases heof

/-- An accepted package without data is the end of the stream. -/
theorem Stream.ended (h : Stream k w q) {rest : List (Package κ β)}
    (hitems : q.items = p :: rest) (hdata : p.data = []) :
    w.channel = .finished ∧ rest = [] ∧ p = k.eof := by
  obtain ⟨ds, hds, hline⟩ := h.line
  have hp : p ∉ ds := fun hin => (hds p hin).filled hdata
  rw [hitems] at hline
  by_cases hfinished : w.channel = .finished
  · rw [if_pos hfinished] at hline
    exact ⟨hfinished, (last_of_not_mem hline hp).2⟩
  · rw [if_neg hfinished, List.append_nil] at hline
    exact absurd (by rw [← hline]; simp) hp

/-- A queue from which everything went out has not been finished. -/
theorem Stream.going (h : Stream k w q) (fresh : Fresh k w) (hitems : q.items = []) :
    w.channel ≠ .finished := by
  intro hfinished
  obtain ⟨ds, hds, hline⟩ := h.line
  rw [hitems, List.append_nil, if_pos hfinished] at hline
  have heof : k.eof ∈ w.accepted := by
    rw [hline]
    simp
  exact (fresh.accepted _ heof).filled rfl

/-- The world with its device read empty. -/
def World.drain (w : World κ β) : World κ β :=
  { w with device := [], read := w.read ++ w.device }

theorem setState_read {r : Reply κ β} (hr : r.read = []) :
    w.setState { r with read := w.device } = w.drain.setState r := by
  unfold World.setState World.drain
  simp [hr]

theorem withData_eq {device : List β} {next : Queue κ β → Reply κ β}
    (h : q.enqueueData slack device = .ok u) :
    withData slack device q next = { next u with read := device } := by
  unfold withData after
  rw [h]

theorem Stream.drain (h : Stream k w q) (grown : Queue.Grown q u w.device)
    (going : w.channel ≠ .finished) : Stream k w.drain u where
  valid := grown.valid
  packer := grown.packer.trans h.packer
  held := by
    unfold World.drain
    dsimp only
    rw [grown.held, ← List.append_assoc, h.held]
  offered := by
    unfold World.drain
    dsimp only
    rw [List.append_nil, h.offered]
  finished := fun hno => absurd hno going
  line := by
    obtain ⟨ds, hds, hline⟩ := h.line
    obtain ⟨es, hes, hitems⟩ := grown.items
    rw [if_neg going, List.append_nil] at hline
    refine ⟨ds ++ es, ?_, ?_⟩
    · intro p hp
      cases List.mem_append.mp hp with
      | inl hin => exact hds p hin
      | inr hin =>
          rw [← h.packer]
          exact hes p hin
    · rw [show w.drain.accepted = w.accepted from rfl, hitems, ← List.append_assoc, hline,
        show w.drain.channel = w.channel from rfl, if_neg going, List.append_nil]

/-- The end of the stream is queued. -/
theorem Stream.finish (h : Stream k w q) (hdevice : w.device = [])
    (going : w.channel ≠ .finished) :
    ∃ u, q.enqueueEof = .ok u ∧ Stream k { w with channel := .finished } u := by
  obtain ⟨u, henqueue, hvalid, hpacker, hheld, hsize, es, hes, hitems⟩ :=
    Queue.enqueueEof_ends h.valid
  refine ⟨u, henqueue, hvalid, hpacker.trans h.packer, ?_, h.offered,
    fun _ => ⟨hdevice, hsize⟩, ?_⟩
  · rw [hheld]
    exact h.held
  · obtain ⟨ds, hds, hline⟩ := h.line
    rw [if_neg going, List.append_nil] at hline
    refine ⟨ds ++ es, ?_, ?_⟩
    · intro p hp
      cases List.mem_append.mp hp with
      | inl hin => exact hds p hin
      | inr hin =>
          rw [← h.packer]
          exact hes p hin
    · dsimp only
      rw [if_pos rfl, hitems, h.packer, ← hline, List.append_assoc, List.append_assoc,
        List.append_assoc]

theorem Clear.next (h : Clear service w) (hanswer : service w.calls = .accepted) :
    ∀ n < w.calls + 1, service n = .accepted := by
  intro n hn
  rcases Nat.lt_succ_iff_lt_or_eq.mp hn with hlt | rfl
  · exact h n hlt
  · exact hanswer

theorem refused_next (hanswer : service w.calls ≠ .accepted) :
    ¬ ∀ n < w.calls + 1, service n = .accepted :=
  fun hno => hanswer (hno _ (Nat.lt_succ_self _))

/-- What `dequeue` makes of a machine with nothing in the air. -/
theorem Stream.dequeue (h : Stream k w q) (name : w.objectName = k.spice.getD "")
    (clear : Clear service w) (fresh : Fresh k w) (flying : w.flying = [])
    (quiet : w.device ≠ [] → w.announced = true) :
    Good service k (w.setState (q.dequeue (service w.calls))) := by
  by_cases hidle : q.items = [] ∧ q.collector.size = 0
  · rw [Queue.dequeue_idle hidle.1 hidle.2]
    have hsame : w.setState (stay .reading q) = { w with state := .reading, queue := some q } := by
      unfold World.setState stay
      simp
    rw [hsame]
    refine .inl ⟨q, rfl, name, ⟨h.valid, h.packer, h.held, h.offered, h.finished, h.line⟩,
      fun hdevice => .inl (quiet hdevice), ?_⟩
    exact .reading rfl clear ⟨fresh.accepted, fresh.quits⟩ flying hidle.1 hidle.2
      (h.going fresh hidle.1)
  · obtain ⟨hcalls, hquit, hread, hasked⟩ :=
      Queue.dequeue_asked h.valid hidle (service w.calls)
    generalize q.dequeue (service w.calls) = r at hcalls hquit hread hasked
    have hdevice : (w.setState r).device = w.device := by
      unfold World.setState
      rw [hread]
      rfl
    have hreads : (w.setState r).read = w.read := by
      unfold World.setState
      rw [hread]
      exact List.append_nil _
    have hquits : (w.setState r).quits = 0 := by
      unfold World.setState
      rw [hquit]
      exact fresh.quits
    have hclear : Clear service (w.setState r) ↔ ∀ n < w.calls + 1, service n = .accepted := by
      unfold Clear World.setState
      rw [hcalls]
    cases hasked with
    | invalid answer target sent =>
        have haccepted : (w.setState r).accepted = w.accepted := by
          unfold World.setState
          rw [sent]
          exact List.append_nil _
        refine .inr ⟨?_, ?_, ⟨?_, hquits⟩, ?_, ?_⟩
        · unfold World.setState
          rw [target]
        · rw [hclear]
          exact refused_next (by rw [answer]; decide)
        · rw [haccepted]
          exact fresh.accepted
        · rw [haccepted, hreads]
          exact ⟨_, h.held⟩
        · rw [hreads, hdevice]
          exact h.offered
    | full answer target queue sent =>
        have hsame : w.setState r =
            { w with state := .sending, queue := some q, calls := w.calls + 1 } := by
          unfold World.setState
          rw [target, queue, sent, hcalls, hread, hquit]
          simp
        rw [hsame] at hclear ⊢
        refine .inl ⟨q, rfl, name, ⟨h.valid, h.packer, h.held, h.offered, h.finished, h.line⟩,
          fun hdevice => .inl (quiet hdevice), ?_⟩
        refine .stalled (.inl rfl) ?_ ⟨fresh.accepted, fresh.quits⟩ flying
        rw [hclear]
        exact refused_next (by rw [answer]; decide)
    | accepted p answer target sent valid packer held taken =>
        have hsame : w.setState r =
            { w with state := if p.data = [] then .closing else .sending, queue := some r.queue,
                     calls := w.calls + 1, accepted := w.accepted ++ [p], flying := [p] } := by
          unfold World.setState
          rw [target, sent, hcalls, hread, hquit, flying]
          simp
        have hmember : p.data ≠ [] → Packer.Data k p := by
          intro hdata
          rcases taken with ⟨hitems, -⟩ | ⟨-, -, -, hmade⟩
          · exact h.member (by rw [hitems]; simp) hdata
          · rw [← h.packer]
            exact hmade
        have hstream : Stream k (w.setState r) r.queue := by
          rw [hsame]
          refine ⟨valid, packer.trans h.packer, ?_, h.offered, ?_, ?_⟩
          · dsimp only
            rw [payload_append, payload_cons, payload_nil, List.append_nil, List.append_assoc,
              held]
            exact h.held
          · intro hfinished
            refine ⟨(h.finished hfinished).1, ?_⟩
            rcases taken with ⟨-, hcollector⟩ | ⟨-, -, hsize, -⟩
            · rw [hcollector]
              exact (h.finished hfinished).2
            · exact hsize
          · dsimp only
            rcases taken with ⟨hitems, -⟩ | ⟨hitems, hrest, -, hmade⟩
            · obtain ⟨ds, hds, hline⟩ := h.line
              refine ⟨ds, hds, ?_⟩
              rw [List.append_assoc, List.singleton_append, ← hitems]
              exact hline
            · have hgoing := h.going fresh hitems
              refine ⟨w.accepted ++ [p], ?_, ?_⟩
              · intro x hx
                cases List.mem_append.mp hx with
                | inl hin => exact fresh.accepted x hin
                | inr hin =>
                    rw [List.mem_singleton.mp hin, ← h.packer]
                    exact hmade
              · rw [hrest, if_neg hgoing]
        have hnext := (hclear.mpr (clear.next answer))
        rw [hsame] at hstream hquits hnext ⊢
        refine .inl ⟨r.queue, rfl, name, hstream, fun hdevice => .inl (quiet hdevice), ?_⟩
        by_cases hdata : p.data = []
        · rcases taken with ⟨hitems, -⟩ | ⟨-, -, -, hmade⟩
          · obtain ⟨hfinished, hrest, heof⟩ := h.ended hitems hdata
            refine .closing (if_pos hdata) hnext ⟨hfinished, hrest, w.accepted, fresh.accepted, ?_⟩
              ?_ hquits
            · rw [heof]
            · rw [heof]
          · exact absurd hdata hmade.filled
        · refine .sending p (.inl (if_neg hdata)) hnext ⟨?_, hquits⟩ rfl (hmember hdata)
          intro x hx
          cases List.mem_append.mp hx with
          | inl hin => exact fresh.accepted x hin
          | inr hin =>
              rw [List.mem_singleton.mp hin]
              exact hmember hdata

end DispService.Pump.Push
