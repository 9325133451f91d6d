import Mathlib.Logic.Function.Basic
import DispService.Lib.Run

/-! The starter of VNC servers. The lock is dropped while a server starts, and a
ticket decides which of the starts may install its server. -/
namespace DispService.Vnc

open DispService.Lib

namespace Starter

/-- What has become of a unit, that is of the `Start` that made it. -/
inductive Fate where
  | starting
  | failed
  | installed
  | terminated
  /-- `doOnExit` tore it down for the exit of a process. -/
  | crashed (process : Nat)
deriving DecidableEq, Repr

inductive Hold where
  /-- `do_` runs and there is no guard yet. -/
  | loose
  /-- A guard holds the process. -/
  | guarded
  /-- The unit has gone, and the deletion of the guard is queued. -/
  | doomed
  | gone
deriving DecidableEq, Repr

/-- The process of a component. -/
structure Process where
  owner : Nat := 0
  hold : Hold := .gone
deriving DecidableEq, Repr

end Starter

/-- `CDspVNCStarter` with the units made and the processes launched so far, numbered
in this order. The fates and `asked` are its history. -/
structure Starter where
  impl : Option Nat := none
  ticket : Option Nat := none
  units : Nat := 0
  launched : Nat := 0
  processes : Nat → Starter.Process := fun _ => {}
  fate : Nat → Starter.Fate := fun _ => .starting
  /-- The units that were starting when `Terminate` was called. -/
  asked : Nat → Bool := fun _ => false

namespace Starter

def setHold (d : Starter) (k : Nat) (h : Hold) : Starter :=
  { d with processes := Function.update d.processes k { d.processes k with hold := h } }

def setFate (d : Starter) (i : Nat) (f : Fate) : Starter :=
  { d with fate := Function.update d.fate i f }

/-- `~Unit` posts the deletion of the guard. -/
def doom : Hold → Hold
  | .guarded => .doomed
  | h => h

/-- `delete x` for the unit `i`: its components go with it. -/
def destroy (d : Starter) (i : Nat) : Starter :=
  { d with processes := fun k =>
      if (d.processes k).owner = i then { d.processes k with hold := doom (d.processes k).hold }
      else d.processes k }

/-- The first part of `Start`, up to the unlock. -/
def begin (d : Starter) : Starter :=
  if d.impl.isSome then d
  else { d with ticket := some d.units, units := d.units + 1 }

/-- `x->start` fails. -/
def fail (d : Starter) (i : Nat) : Starter :=
  (d.setFate i .failed).destroy i

/-- The last part of `Start`, after `x->start` has succeeded. -/
def finish (d : Starter) (i : Nat) : Starter :=
  if d.ticket = some i then { d with ticket := none, impl := some i }.setFate i .installed
  else d.fail i

def Terminate (d : Starter) : Starter :=
  match d.impl with
  | none => d
  | some i => ({ d with impl := none, ticket := none }.setFate i .terminated).destroy i

/-- `doOnExit`, called by the guard of the process `k`. -/
def doOnExit (d : Starter) (k : Nat) : Starter :=
  match d.impl with
  | none => { d with ticket := none }
  | some i => ({ d with impl := none, ticket := none }.setFate i (.crashed k)).destroy i

inductive Event where
  | begin
  /-- A component of the unit `i` starts a process. -/
  | launch (i : Nat)
  /-- `do_` succeeds and the guard takes the process `k`. -/
  | attach (k : Nat)
  /-- `do_` fails, or the process has exited before; it is killed. -/
  | kill (k : Nat)
  | fail (i : Nat)
  | finish (i : Nat)
  | terminate
  /-- The guard of the process `k` learns of its exit. -/
  | exit (k : Nat)
  /-- The queued deletion of the guard stops the process `k`. -/
  | reap (k : Nat)

/-- The history of a call of `Terminate`. -/
def ask (d : Starter) : Starter :=
  { d with asked := fun i => d.asked i || (decide (i < d.units) && decide (d.fate i = .starting)) }

def step (d : Starter) : Event → Starter
  | .begin => d.begin
  | .launch i =>
      { d with
        launched := d.launched + 1
        processes := Function.update d.processes d.launched ⟨i, .loose⟩ }
  | .attach k => d.setHold k .guarded
  | .kill k => d.setHold k .gone
  | .fail i => d.fail i
  | .finish i => d.finish i
  | .terminate => d.ask.Terminate
  | .exit k => (d.setHold k .gone).doOnExit k
  | .reap k => d.setHold k .gone

/-- The unit `i` is in its `Start`, between two of its components. -/
def Idle (d : Starter) (i : Nat) : Prop :=
  i < d.units ∧ d.fate i = .starting ∧ ∀ k, (d.processes k).owner = i → (d.processes k).hold ≠ .loose

def Enabled (d : Starter) : Event → Prop
  | .begin => True
  | .launch i => d.Idle i
  | .attach k => (d.processes k).hold = .loose
  | .kill k => (d.processes k).hold = .loose
  | .fail i => d.Idle i
  | .finish i => d.Idle i
  | .terminate => True
  | .exit k => (d.processes k).hold = .guarded ∨ (d.processes k).hold = .doomed
  | .reap k => (d.processes k).hold = .doomed

/-- What the starter promises in every state. -/
structure Kept (d : Starter) : Prop where
  /-- A server that was installed stays `m_impl` until it is torn down. -/
  installed : ∀ i, d.fate i = .installed ↔ d.impl = some i
  single : ∀ i j, d.fate i = .installed → d.fate j = .installed → i = j
  own : ∀ i k, d.fate i = .crashed k → (d.processes k).owner = i
  /-- The processes of a failed start, or of a server torn down, are gone or are
  about to be stopped. -/
  stopped : ∀ k, d.fate (d.processes k).owner ≠ .starting →
    d.fate (d.processes k).owner ≠ .installed →
    (d.processes k).hold = .doomed ∨ (d.processes k).hold = .gone
  heeded : ∀ i, d.asked i = true → d.fate i = .starting ∨ d.fate i = .failed

/-- An exit comes from a process of the installed server, or finds none. A start
that keeps its ticket met no `Terminate`. -/
def Safe (d : Starter) : Event → Prop
  | .finish i => d.ticket = some i → d.asked i = false
  | .exit k => d.impl = none ∨ d.impl = some (d.processes k).owner
  | _ => True

/-- A sequence of events that can come. -/
def Possible : Starter → List Event → Prop :=
  Steps step Enabled

end Starter

end DispService.Vnc
