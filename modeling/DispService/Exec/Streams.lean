import DispService.Lib.Run
import Mathlib.Logic.Function.Basic

/-! The output of a program in a guest. libvirt calls back on a thread of its own when a channel can
be read; what is read there goes to the client through slots in the event loop of a task, which
ends when both channels have, or when the guest says twice that the program has exited. -/
namespace DispService.Exec

abbrev Byte := UInt8

inductive Channel where
  | stdout
  | stderr
deriving DecidableEq

/-- What `virStreamRecv` gives. -/
inductive Recv where
  /-- The magical -2. -/
  | noData
  | data (b : List Byte)
  /-- 0, at the end of the channel. -/
  | finished
  | error

/-- Where the callback of a channel stands. -/
inductive Callback where
  | idle
  | reading
  /-- Something was appended, and is to be signalled. The buffer was full, or was not. -/
  | appended (full : Bool)
  /-- The end of the channel is to be signalled. -/
  | eof
  | release
  | gone
deriving DecidableEq

/-- A device of the task, the callback that fills it, and what has gone through it. -/
structure ReadDevice where
  isOpen : Bool := true
  m_finished : Bool := false
  m_data : List Byte := []
  m_stream : Bool := true
  callback : Callback := .idle
  received : List Byte := []
  sent : List Byte := []
  /-- The channel was hung up, or could not be read. -/
  hung : Bool := false

namespace ReadDevice

def close (d : ReadDevice) : ReadDevice :=
  { d with m_finished := true, m_stream := false, isOpen := false }

/-- The end is signalled by the first who takes the stream. -/
def setEof (d : ReadDevice) : ReadDevice :=
  { d with
    m_finished := true
    m_stream := false
    callback := if d.m_stream then .eof else .release }

def atEnd (d : ReadDevice) : Bool := d.m_finished && d.m_data.isEmpty

/-- The size of the buffer of a callback. -/
def bufferSize : Nat := 4096

def appendData (d : ReadDevice) (b : List Byte) : ReadDevice :=
  { d with
    m_data := d.m_data ++ b
    received := d.received ++ b
    callback := .appended (decide (bufferSize ≤ b.length)) }

/-- `Callback::operator()`, up to its loop. -/
def react (d : ReadDevice) (hangup : Bool) : ReadDevice :=
  if d.callback = .idle ∧ d.m_stream then
    if hangup then { d.close with callback := .release, hung := true }
    else { d with callback := .reading }
  else d

/-- A turn of the loop. -/
def recv (d : ReadDevice) (r : Recv) : ReadDevice :=
  if d.callback = .reading then
    match r with
    | .noData => { d with callback := .idle }
    | .data [] => d
    | .data (b :: bs) => d.appendData (b :: bs)
    | .finished => d.setEof
    | .error => { d.close with callback := .release, hung := true }
  else d

end ReadDevice

/-- What waits in the event loop. -/
inductive Posted where
  | readyRead (ch : Channel)
  | readChannelFinished (ch : Channel)
  | timer
deriving DecidableEq

/-- Where the thread of the task stands. -/
inductive Slot where
  | loop
  | readAll (ch : Channel)
  | sendToClient (ch : Channel) (a : List Byte)
  | atEnd (ch : Channel)
  /-- The loop is left, and the program waited for. -/
  | wait
  | done
deriving DecidableEq

/-- What the guest says of the program. -/
inductive Query where
  | failed
  | running
  | exited

structure State where
  device : Channel → ReadDevice := fun _ => {}
  queue : List Posted := []
  slot : Slot := .loop
  /-- The mediators that have not finished. -/
  m_objects : List Channel := [.stdout, .stderr]
  quit : Bool := false
  canceled : Bool := false
  /-- How often the semaphore was released, until it is acquired. -/
  m_finished : Option Nat := some 0
  m_result : Bool := false
  m_sign : Bool := false
  /-- The guest could not be asked. -/
  broken : Bool := false

namespace State

def modify (s : State) (ch : Channel) (f : ReadDevice → ReadDevice) : State :=
  { s with device := Function.update s.device ch (f (s.device ch)) }

/-- `Poller::timerEvent`, once the program is known to have exited. -/
def exited (s : State) : State :=
  if s.m_sign then { s with quit := true } else { s with m_sign := s.m_result }

def query (s : State) : Query → State
  | .failed => { s with broken := true, quit := true }
  | .running => s
  | .exited => exited { s with m_result := true }

/-- `Poller::timerEvent`, with `Unit::wait(0)`. -/
def timerEvent (s : State) (q : Query) : State :=
  if s.m_result then s.exited
  else
    match s.m_finished with
    | none => s.query q
    | some n => if n < 2 then s else query { s with m_finished := none } q

/-- An event is delivered, unless its mediator is gone. -/
def deliver (s : State) (q : Query) : Posted → State
  | .readyRead ch | .readChannelFinished ch =>
      if ch ∈ s.m_objects then { s with slot := .readAll ch } else s
  | .timer => s.timerEvent q

/-- `Mediator::slotSendData`, at its `readAll`. Nothing can be read of a closed device. -/
def readAll (s : State) (ch : Channel) : State :=
  let d := s.device ch
  if d.isOpen ∧ d.m_data ≠ [] then
    { s.modify ch fun d => { d with m_data := [] } with slot := .sendToClient ch d.m_data }
  else { s with slot := .atEnd ch }

/-- `Join::slotFinished`, if the mediator has finished. -/
def finish (s : State) (ch : Channel) : State :=
  if s.canceled || (s.device ch).atEnd then
    { s with
      slot := .loop
      m_objects := s.m_objects.erase ch
      quit := s.quit || (s.m_objects.erase ch).isEmpty }
  else { s with slot := .loop }

/-- The thread of the task goes on. -/
def advance (s : State) (q : Query) : State :=
  match s.slot with
  | .loop =>
      match s.queue with
      | [] => s
      | p :: queue => deliver { s with queue } q p
  | .readAll ch => s.readAll ch
  | .sendToClient ch a =>
      { s.modify ch fun d => { d with sent := d.sent ++ a } with slot := .readAll ch }
  | .atEnd ch => s.finish ch
  -- `Unit::wait(-1)` waits for both releases first
  | .wait =>
      if s.m_result then { s with slot := .done }
      else
        match s.m_finished with
        | none => { s with slot := .done }
        | some n => if n < 2 then s else { s with m_finished := none, slot := .done }
  | .done => s

/-- The callback of a channel signals. -/
def emit (s : State) (ch : Channel) : State :=
  match (s.device ch).callback with
  | .appended full =>
      { s.modify ch fun d => { d with callback := if full then .reading else .idle } with
        queue := s.queue ++ [.readyRead ch] }
  | .eof =>
      { s.modify ch fun d => { d with callback := .release } with
        queue := s.queue ++ [.readChannelFinished ch] }
  | _ => s

def release (s : State) (ch : Channel) : State :=
  if (s.device ch).callback = .release then
    { s.modify ch fun d => { d with callback := .gone } with
      m_finished := s.m_finished.map (· + 1) }
  else s

/-- `l.exec()` returns, and both devices are closed. -/
def leave (s : State) : State :=
  if s.quit ∧ s.slot = .loop then
    { s with device := fun ch => (s.device ch).close, slot := .wait }
  else s

end State

inductive Label where
  | react (ch : Channel) (hangup : Bool)
  | recv (ch : Channel) (r : Recv)
  | emit (ch : Channel)
  | release (ch : Channel)
  | timer
  | cancel
  | advance (q : Query)
  | leave

def step (s : State) : Label → State
  | .react ch hangup => s.modify ch fun d => d.react hangup
  | .recv ch r => s.modify ch fun d => d.recv r
  | .emit ch => s.emit ch
  | .release ch => s.release ch
  -- a timer that waits is not posted again
  | .timer => if .timer ∈ s.queue then s else { s with queue := s.queue ++ [.timer] }
  | .cancel => { s with canceled := true }
  | .advance q => s.advance q
  | .leave => s.leave

/-- The callback of the channel has come to its end, or does without libvirt. -/
def Callback.ended : Callback → Bool
  | .eof | .release | .gone => true
  | _ => false

section Promise

variable (s : State)

/-- What the task holds of a channel. -/
def held (ch : Channel) : List Byte :=
  match s.slot with
  | .sendToClient ch' a => if ch' = ch then a else []
  | _ => []

/-- The loop has been left. -/
def State.left : Bool :=
  match s.slot with
  | .wait | .done => true
  | _ => false

/-- Nothing is lost, doubled or sent in another order, and if the loop was left because both
channels have ended or the program has exited, everything has been sent, apart from a channel that
was hung up. -/
structure Conveyed : Prop where
  kept : ∀ ch, (s.device ch).received = (s.device ch).sent ++ held s ch ++ (s.device ch).m_data
  complete : s.left = true → s.canceled = false → s.broken = false → ∀ ch,
    (s.device ch).hung = false → (s.device ch).sent = (s.device ch).received

/-- The wait for the program does not end: a channel was still open when the loop was left. -/
def Stuck : Prop :=
  s.slot = .wait ∧ s.m_result = false ∧ s.m_finished.isSome ∧
    ∃ ch, (s.device ch).callback = .idle ∨ (s.device ch).callback = .appended false

end Promise

end DispService.Exec
