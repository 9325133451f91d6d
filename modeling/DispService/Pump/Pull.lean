import DispService.Lib.Run
import DispService.Pump.Package
import Mathlib.Algebra.Order.Ring.Nat

/-! The receiving end of a migration pump: packages are poured into a device that
takes a part of what it is given and reports later what it has written. -/
namespace DispService.Pump.Pull

open DispService.Lib

universe u v

variable {κ : Type u} {β : Type v}

/-- A package on its way into the device. -/
structure WateringPot (κ : Type u) (β : Type v) where
  load : Package κ β
  done : Nat := 0

namespace WateringPot

/-- `getVolume` and `getLevel`. -/
def level (p : WateringPot κ β) : Nat :=
  p.load.data.length - p.done

/-- The bytes `operator()` offers the device. -/
def rest (p : WateringPot κ β) : List β :=
  p.load.data.drop p.done

theorem level_eq (p : WateringPot κ β) : p.level = p.rest.length :=
  List.length_drop.symm

end WateringPot

structure Pouring (κ : Type u) (β : Type v) where
  portion : Nat := 0
  pots : List (WateringPot κ β)

/-- What `Pouring::operator()` does: its status, the pots it leaves, the bytes
the device took, and the number of writes. -/
structure Poured (κ : Type u) (β : Type v) where
  status : Except PrlResult Unit
  pouring : Pouring κ β
  written : List β := []
  writes : Nat

namespace Pouring

/-- `getRemaining`. -/
def remaining (x : Pouring κ β) : Nat :=
  (x.pots.map (·.level)).sum + x.portion

/-- The loop of `operator()`. The `n`-th write of all is answered by `device n`. -/
def flow (device : Nat → List β → Option Nat) (n portion : Nat) :
    List (WateringPot κ β) → Poured κ β
  | [] => { status := .ok (), pouring := { portion, pots := [] }, writes := n }
  | p :: ps =>
      match device n p.rest with
      | none =>
          { status := .error .failure, pouring := { portion, pots := p :: ps }, writes := n + 1 }
      | some output =>
          let q := { p with done := p.done + output }
          if 0 < q.level then
            { status := .ok (), pouring := { portion := portion + output, pots := q :: ps },
              written := p.rest.take output, writes := n + 1 }
          else
            let r := flow device (n + 1) (portion + output) ps
            { r with written := p.rest.take output ++ r.written }

/-- `operator()`. -/
def pour (device : Nat → List β → Option Nat) (n : Nat) (x : Pouring κ β) : Poured κ β :=
  if 0 < x.portion then { status := .ok (), pouring := x, writes := n }
  else flow device n x.portion x.pots

def account (value : Nat) (x : Pouring κ β) : Except PrlResult (Pouring κ β) :=
  if x.portion < value then .error .invalidArg
  else .ok { x with portion := x.portion - value }

end Pouring

/-- `Pull::state_type`; `writing` is the shared `writing_type`. -/
inductive State (κ : Type u) (β : Type v) where
  | reading
  | pouring (x : Pouring κ β)
  | success
  | writing (x : Pouring κ β)

/-- The packages of `Queue::dequeue`'s loop: up to the end of the stream. -/
def takePots : List (Package κ β) → List (WateringPot κ β) × List (Package κ β)
  | [] => ([], [])
  | p :: rest =>
      if isEof (p :: rest) then ([], p :: rest)
      else ({ load := p } :: (takePots rest).1, (takePots rest).2)

/-- `Queue::dequeue`. -/
def dequeue (items : List (Package κ β)) : State κ β × List (Package κ β) :=
  if items.isEmpty then (.reading, items)
  else if isEof items then (.success, items)
  else (.pouring { pots := (takePots items).1 }, (takePots items).2)

namespace Visitor

/-- `Visitor::Receipt`. -/
def receipt (state : State κ β) (items : List (Package κ β)) :
    State κ β × List (Package κ β) :=
  match state with
  | .reading => dequeue items
  | s => (s, items)

/-- `Visitor::Accounting`. The status of `account` is not looked at. -/
def accounting (amount : Nat) (state : State κ β) (items : List (Package κ β)) :
    State κ β × List (Package κ β) :=
  match state with
  | .writing value =>
      let x := match value.account amount with
        | .ok x => x
        | .error _ => value
      if 0 < x.remaining then (.pouring x, items) else dequeue items
  | s => (s, items)

end Visitor

/-- The connector with its device. `received`, `written` and `quits` are the
history of the stream, `unreported` the bytes written and not yet reported. -/
structure World (κ : Type u) (β : Type v) where
  state : State κ β := .reading
  /-- `m_queue`, gone once an error took the machine out of the pump. -/
  queue : Option (List (Package κ β)) := some []
  writes : Nat := 0
  unreported : Nat := 0
  received : List (Package κ β) := []
  written : List β := []
  quits : Nat := 0

inductive Event (κ : Type u) (β : Type v) where
  | receipt (p : Package κ β)
  | bytesWritten (value : Nat)

namespace World

variable (device : Nat → List β → Option Nat)

/-- `Connector::setState` with `Visitor::Dispatch`. -/
def setState (w : World κ β) (target : State κ β × List (Package κ β)) : World κ β :=
  let w := { w with queue := some target.2 }
  match target.1 with
  | .pouring x =>
      let r := x.pour device w.writes
      let w := { w with
        writes := r.writes, written := w.written ++ r.written,
        unreported := w.unreported + r.written.length }
      match r.status with
      | .ok _ => { w with state := .writing r.pouring }
      | .error _ => { w with state := .pouring x, queue := none }
  | .success => { w with state := .success, quits := w.quits + 1 }
  | s => { w with state := s }

/-- `Connector::reactReceipt`. -/
def reactReceipt (w : World κ β) (p : Package κ β) : World κ β :=
  match w.queue with
  | none => w
  | some items => w.setState device (Visitor.receipt w.state (items ++ [p]))

/-- `Connector::reactBytesWritten`. -/
def reactBytesWritten (w : World κ β) (value : Nat) : World κ β :=
  match w.queue with
  | none => w
  | some items => w.setState device (Visitor.accounting value w.state items)

def step (w : World κ β) : Event κ β → World κ β
  | .receipt p => reactReceipt device { w with received := w.received ++ [p] } p
  | .bytesWritten value =>
      reactBytesWritten device { w with unreported := w.unreported - value } value

end World

/-- Nothing comes after the end of the stream, and the device reports bytes it
has written, each once. -/
def Enabled (w : World κ β) : Event κ β → Prop
  | .receipt _ => ∀ x ∈ w.received, x.data ≠ []
  | .bytesWritten value => 0 < value ∧ value ≤ w.unreported

instance (w : World κ β) (e : Event κ β) : Decidable (Enabled w e) :=
  match e with
  | .receipt _ => inferInstanceAs (Decidable (∀ x ∈ w.received, x.data ≠ []))
  | .bytesWritten value => inferInstanceAs (Decidable (0 < value ∧ value ≤ w.unreported))

abbrev Runs (device : Nat → List β → Option Nat) :
    World κ β → List (Event κ β) → World κ β → Prop :=
  Run (Guarded Enabled (Graph (World.step device)))

/-- The device takes a positive part of what it is given. -/
def Accepts (device : Nat → List β → Option Nat) : Prop :=
  ∀ n bs, bs ≠ [] → ∃ output, device n bs = some output ∧ 0 < output ∧ output ≤ bs.length

/-- What the device has been given of the stream. -/
structure Conveyed (w : World κ β) : Prop where
  ordered : w.written <+: payload w.received
  /-- Nothing is kept back once everything written is reported. -/
  whole : w.unreported = 0 → w.written = payload w.received
  writing : ∀ x, w.state = .writing x → 0 < w.unreported
  /-- `Quit` is raised once, when the end of the stream is there and every byte
  is written and reported. -/
  quits : w.quits = if (∃ p ∈ w.received, p.data = []) ∧ w.unreported = 0 then 1 else 0

end DispService.Pump.Pull
