import DispService.Lib.Buffer
import DispService.Pump.Package

/-! The sending end of a migration pump: the bytes of a device go through a
collector into packages, one package at a time into the service. -/
namespace DispService.Pump.Push

open DispService.Lib

universe u v

/-- `Push::state_type`. -/
inductive State where
  | reading
  | sending
  | closing
  | success
  | obstruction
deriving DecidableEq, Repr

/-- What the service says of a package handed to it. -/
inductive SendResult where
  | invalid
  | sendQueueIsFull
  | accepted
deriving DecidableEq, Repr

/-- `Push::Queue`. -/
structure Queue (κ : Type u) (β : Type v) where
  packer : Packer κ
  items : List (Package κ β) := []
  collector : Buffer β := { capacity := 1 <<< 22 }

/-- What a call comes to: the state it asks for, the queue it leaves, the bytes
it read from the device, the packages the service accepted, the number of
packages handed to the service, and whether `Quit` was raised. -/
structure Reply (κ : Type u) (β : Type v) where
  target : Except PrlResult State
  queue : Queue κ β
  read : List β := []
  sent : List (Package κ β) := []
  calls : Nat := 0
  quit : Bool := false

variable {κ : Type u} {β : Type v}

namespace Queue

/-- `enqueue(const_reference)`. -/
def add (q : Queue κ β) (package : Option (Package κ β)) : Except PrlResult (Queue κ β) :=
  match package with
  | some p => .ok { q with items := q.items ++ [p] }
  | none => .error .failure

def enqueue (q : Queue κ β) : Except PrlResult (Queue κ β) :=
  match q.add (q.packer.pack q.collector.bytes) with
  | .ok u => .ok { u with collector := u.collector.resize 0 }
  | .error e => .error e

def enqueueEof (q : Queue κ β) : Except PrlResult (Queue κ β) :=
  if q.collector.size ≠ 0 then
    match q.enqueue with
    | .error e => .error e
    | .ok u => u.add (some u.packer.eof)
  else q.add (some q.packer.eof)

/-- Read the device into the collector. A full collector becomes a package, and
what did not fit is the next collector's. -/
def enqueueData (slack : Nat → Nat) (device : List β) (q : Queue κ β) :
    Except PrlResult (Queue κ β) :=
  match q.packer.pack device with
  | none => .error .failure
  | some b =>
      let a := q.collector.capacity - q.collector.size
      let d := b.data.length
      let z := min a d
      let u := { q with collector := q.collector.append slack (b.data.take z) }
      if a ≠ z then .ok u
      else
        match u.enqueue with
        | .error e => .error e
        | .ok u =>
            if d - z = 0 then .ok u
            else .ok { u with collector := u.collector.append slack (b.data.drop z) }

/-- The part of `dequeue` for a queue that is not empty. -/
def sendHead (q : Queue κ β) (answer : SendResult) : Reply κ β :=
  match q.items with
  | [] => { target := .ok .reading, queue := q }
  | p :: rest =>
      match answer with
      | .invalid => { target := .error .failure, queue := q, calls := 1 }
      | .sendQueueIsFull => { target := .ok .sending, queue := q, calls := 1 }
      | .accepted =>
          { target := .ok (if isEof q.items then .closing else .sending),
            queue := { q with items := rest }, sent := [p], calls := 1 }

/-- A package made of the collector that was not sent is taken back: the
collector gets its size again. -/
def putBack (r : Reply κ β) : Reply κ β :=
  match r.target, r.queue.items with
  | .ok _, p :: rest =>
      { r with queue := { r.queue with
          items := rest, collector := r.queue.collector.resize p.data.length } }
  | _, _ => r

def dequeue (q : Queue κ β) (answer : SendResult) : Reply κ β :=
  if !q.items.isEmpty then q.sendHead answer
  else if q.collector.size = 0 then { target := .ok .reading, queue := q }
  else
    match q.enqueue with
    | .error e => { target := .error e, queue := q }
    -- the source calls itself here, with the package just enqueued at the head
    | .ok u => putBack (u.sendHead answer)

end Queue

/-- Go on with the queue an operation leaves, or report its error. -/
def after (x : Except PrlResult (Queue κ β)) (q : Queue κ β) (next : Queue κ β → Reply κ β) :
    Reply κ β :=
  match x with
  | .error e => { target := .error e, queue := q }
  | .ok u => next u

/-- `enqueueData` reads the device whatever becomes of the bytes. -/
def withData (slack : Nat → Nat) (device : List β) (q : Queue κ β)
    (next : Queue κ β → Reply κ β) : Reply κ β :=
  { after (q.enqueueData slack device) q next with read := device }

def stay (state : State) (q : Queue κ β) : Reply κ β :=
  { target := .ok state, queue := q }

namespace Visitor

/-- `Visitor::Eof`. -/
def eof (slack : Nat → Nat) (device : List β) (state : State) (q : Queue κ β)
    (answer : SendResult) : Reply κ β :=
  match state with
  | .reading => after q.enqueueEof q (·.dequeue answer)
  | .sending => after q.enqueueEof q (stay .sending)
  | .obstruction =>
      withData slack device q fun u => after u.enqueueEof u (stay .sending)
  | .closing => stay .closing q
  | .success => stay .success q

/-- `Visitor::Sent`. -/
def sent (slack : Nat → Nat) (device : List β) (callback : Bool) (state : State)
    (q : Queue κ β) (answer : SendResult) : Reply κ β :=
  match state with
  | .sending => q.dequeue answer
  | .closing => if callback then { stay .success q with quit := true } else stay .closing q
  | .obstruction => withData slack device q (·.dequeue answer)
  | .reading => stay .reading q
  | .success => stay .success q

/-- `Visitor::Ready`. -/
def ready (slack : Nat → Nat) (device : List β) (state : State) (q : Queue κ β)
    (answer : SendResult) : Reply κ β :=
  match state with
  | .reading => withData slack device q (·.dequeue answer)
  | .sending =>
      if 5 < q.items.length then stay .obstruction q
      else withData slack device q (stay .sending)
  | .closing => stay .closing q
  | .success => stay .success q
  | .obstruction => stay .obstruction q

end Visitor

end DispService.Pump.Push
