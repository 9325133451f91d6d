import DispService.Libvirt.Reaction

/-! The duplicate filter of a VM. `m_last` is changed when an event arrives, the state
machine is fed later by the queue, and a thread that has read the state from libvirt
feeds it directly. -/
namespace DispService.Libvirt

open DispService.Lib Reaction

inductive VirtualMachineState where
  | unknown | stopped | starting | restoring | running | paused | suspending | stopping
  | suspended | mounted | deleting
deriving DecidableEq

/-- The reactions a VM is shown; `other` neither sets nor hands over a state. -/
inductive Shown where
  | state (value : VirtualMachineState)
  | prepareToSwitch
  | insert
  | other
deriving DecidableEq

/-- What the state machine was last given. -/
inductive Handed where
  | proceed (destination : VirtualMachineState)
  | prepareToSwitch
deriving DecidableEq

/-- `Callback::Reactor::State::operator()`: a VM with a saved state is suspended. -/
def destination (savFileExists : Bool) (value : VirtualMachineState) : VirtualMachineState :=
  if value = .stopped ∧ savFileExists then .suspended else value

/-- Where the event thread stands in `Entry::setState(VIRTUAL_MACHINE_STATE)`. -/
inductive Event where
  /-- Past the comparison with `getLast`. -/
  | compared (value : VirtualMachineState)
  /-- Past the change of `m_last`: the reaction is to be shown. -/
  | changed (reaction : Shown)
deriving DecidableEq

/-- Where a thread stands between its reading of the state from libvirt and the end of
`Entry::setState(State)`. -/
inductive Setter where
  | read (value : VirtualMachineState)
  | changed (value : VirtualMachineState)
deriving DecidableEq

/-- What the runner has done of an `insert` it executes. -/
inductive Insert where
  | begun | reading | finished
deriving DecidableEq

structure Entry where
  last : VirtualMachineState := .unknown
  demonstrator : Demonstrator Shown := {}
  event : Option Event := none
  /-- The threads that update the VM; thread 0 is the one of an `insert` in the queue. -/
  setters : Nat → Option Setter := fun _ => none
  insert : Insert := .begun
  handed : Handed := .proceed .unknown
  /-- The latest event, if it came after the latest reading from libvirt. -/
  eventSinceRead : Option VirtualMachineState := none

inductive EntryLabel where
  /-- An event comes and is compared with `getLast`. -/
  | arrive (value : VirtualMachineState)
  | change
  | showState
  /-- A step of the queue; it shows only reactions that carry no state. -/
  | queue (l : Label Shown)
  /-- The runner executes the head. -/
  | react (runner : Nat) (savFileExists : Bool)
  | read (thread : Nat) (value : VirtualMachineState)
  | setterChange (thread : Nat)
  | setterHand (thread : Nat) (savFileExists : Bool)

namespace Entry

def finishSetter (e : Entry) (thread : Nat) : Entry :=
  { e with
    setters := Function.update e.setters thread none
    insert := if thread = 0 then .finished else e.insert }

/-- `changeAndExecute` of the event thread; `VMS_RESTORING` is stored without a look
at the old value. -/
def changeOf (e : Entry) (value : VirtualMachineState) : Entry :=
  if value = .restoring then
    { e with
      last := value, event := some (.changed .prepareToSwitch), eventSinceRead := some value }
  else if value = e.last then
    { e with event := none, eventSinceRead := some value }
  else
    { e with last := value, event := some (.changed (.state value)), eventSinceRead := some value }

/-- What a reaction does when it is executed. -/
def execute (e : Entry) (savFileExists : Bool) : Shown → Option Entry
  | .state value => some { e with handed := .proceed (destination savFileExists value) }
  | .prepareToSwitch => some { e with handed := .prepareToSwitch }
  | .insert => if e.insert = .finished then some { e with insert := .begun } else none
  | .other => some e

def stateless : Label Shown → Bool
  | .showBegin (.state _) | .showBegin .prepareToSwitch | .react _ => false
  | _ => true

def step (e : Entry) : EntryLabel → Option Entry
  | .arrive value =>
      match e.event with
      | some _ => none
      | none =>
          if value = e.last then some { e with eventSinceRead := some value }
          else some { e with event := some (.compared value) }
  | .change =>
      match e.event with
      | some (.compared value) => some (e.changeOf value)
      | _ => none
  | .showState =>
      match e.event with
      | some (.changed reaction) =>
          (Reaction.step e.demonstrator (.showBegin reaction)).map fun demonstrator =>
            { e with demonstrator, event := none }
      | _ => none
  | .queue l =>
      if stateless l then
        (Reaction.step e.demonstrator l).map fun demonstrator => { e with demonstrator }
      else none
  | .react runner savFileExists =>
      match e.demonstrator.runners[runner]? with
      | some (.executing reaction) =>
          (e.execute savFileExists reaction).bind fun e' =>
            (Reaction.step e.demonstrator (.react runner)).map fun demonstrator =>
              { e' with demonstrator }
      | _ => none
  | .read thread value =>
      if e.setters thread = none ∧
          (thread = 0 → .executing .insert ∈ e.demonstrator.runners ∧ e.insert = .begun) then
        some { e with
          setters := Function.update e.setters thread (some (.read value))
          insert := if thread = 0 then .reading else e.insert
          eventSinceRead := none }
      else none
  | .setterChange thread =>
      match e.setters thread with
      | some (.read value) =>
          if value = e.last then some (e.finishSetter thread)
          else
            some { e with
              last := value
              setters := Function.update e.setters thread (some (.changed value)) }
      | _ => none
  | .setterHand thread savFileExists =>
      match e.setters thread with
      | some (.changed value) =>
          some ({ e with handed := .proceed (destination savFileExists value) }.finishSetter thread)
      | _ => none

def Step (e : Entry) (l : EntryLabel) (e' : Entry) : Prop :=
  e.step l = some e'

end Entry

/-- The reactions that feed the state machine. -/
def Shown.feeds : Shown → Bool
  | .state _ | .prepareToSwitch => true
  | _ => false

/-- What feeds the machine and is not executed yet, in this order. -/
def Entry.pending (e : Entry) : List Shown :=
  (unexecuted e.demonstrator ++
    match e.event with
    | some (.changed reaction) => [reaction]
    | _ => []).filter Shown.feeds

/-- The machine was given the recorded state: `VMS_RESTORING` as the switch, and
`VMS_STOPPED` as `VMS_SUSPENDED` where a state is saved. -/
def Handed.Shows (handed : Handed) (last : VirtualMachineState) : Prop :=
  handed = .proceed last ∨ handed = .proceed .suspended ∧ last = .stopped ∨
    handed = .prepareToSwitch ∧ last = .restoring

/-- A thread sets the state it read while nothing else is under way: nothing that feeds
the machine is pending, no event came after the reading and no other thread is setting
a state. When it hands its state over, that state is still the recorded one or the next
one is pending. -/
def Fresh (e : Entry) : EntryLabel → Prop
  | .setterChange thread =>
      ∀ value, e.setters thread = some (.read value) → value = e.last ∨
        e.pending = [] ∧ e.eventSinceRead = none ∧
          ∀ other v, e.setters other ≠ some (.changed v)
  | .setterHand thread _ =>
      ∀ value, e.setters thread = some (.changed value) → value = e.last ∨ e.pending ≠ []
  | _ => True

end DispService.Libvirt
