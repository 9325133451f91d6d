import DispService.Lib.Run

/-! The driver of VNC tunnels. One script is launched or one tunnel is active;
the next script waits, and a liquidator waits for both to be gone. -/
namespace DispService.Vnc

open DispService.Lib

/-- A tunnel with the slots its signals are connected to, and the notifications
it has got. -/
structure Tunnel where
  /-- `m_stunnel` is set: the process runs. -/
  stunnel : Bool := true
  /-- `m_keepAlive` is set: the socket is connected. -/
  keepAlive : Bool := true
  /-- `closed` is connected to `Driver::evict`. -/
  collapsing : Bool := false
  /-- `ripped` is connected to the liquidator. -/
  watched : Bool := false
  finished : Bool := false
  disconnected : Bool := false
  told : Bool := false
deriving DecidableEq, Repr

/-- `Secure::Driver` with the tunnels it adopted. Scripts and tunnels are numbered
in the order of `start` and `adopt`. The fields from `scripts` on are its history. -/
structure Driver where
  active : Option Nat := none
  liquidator : Bool := false
  starting : Option Nat := none
  pending : Option Nat := none
  tunnels : Nat → Tunnel := fun _ => {}
  adopted : Nat := 0
  scripts : Nat := 0
  launched : List Nat := []
  replaced : List Nat := []
  /-- The tunnels that raised `ripped`, once for each time. -/
  ripped : List Nat := []
  /-- Evictions of a tunnel by a signal of another one. -/
  misplaced : Nat := 0
  /-- Launches after `stop`. -/
  late : Nat := 0
  /-- Runs of the liquidator. -/
  executed : Nat := 0
  quitting : Bool := false

namespace Driver

def modify (d : Driver) (t : Nat) (f : Tunnel → Tunnel) : Driver :=
  { d with tunnels := fun x => if x = t then f (d.tunnels t) else d.tunnels x }

def launch (d : Driver) : Driver :=
  match d.pending with
  | none => d
  | some s =>
      { d with
        starting := some s, pending := none, launched := d.launched ++ [s],
        late := d.late + d.liquidator.toNat }

/-- `evict`, called by a signal of the tunnel `t`. -/
def evict (d : Driver) (t : Nat) : Driver :=
  match d.active with
  | none => d
  | some a =>
      let d := { d with
        active := none, misplaced := d.misplaced + if a = t then 0 else 1 }
      if d.pending.isSome then d.launch else d

/-- `Liquidator::execute`. -/
def execute (d : Driver) : Driver :=
  { d with executed := d.executed + 1 }

/-- `emit ripped()`: the driver's slot was connected before the liquidator's. -/
def rip (d : Driver) (t : Nat) : Driver :=
  let d := evict { d with ripped := d.ripped ++ [t] } t
  if (d.tunnels t).watched then d.execute else d

/-- `emit closed()`. -/
def close (d : Driver) (t : Nat) : Driver :=
  if (d.tunnels t).collapsing then d.evict t else d

/-- `Tunnel::reactFinish`. -/
def reactFinish (d : Driver) (t : Nat) : Driver :=
  let d := d.modify t fun x => { x with stunnel := false }
  if (d.tunnels t).keepAlive then d.close t else d.rip t

/-- `Tunnel::reactDisconnect`. -/
def reactDisconnect (d : Driver) (t : Nat) : Driver :=
  let d := d.modify t fun x => { x with keepAlive := false }
  if (d.tunnels t).stunnel then d.close t else d.rip t

def stop (d : Driver) : Driver :=
  let d := { d with liquidator := true }
  match d.active with
  | some t => d.modify t fun x => { x with watched := true }
  | none => if d.starting.isNone then d.execute else d

def start (d : Driver) : Driver :=
  if d.liquidator then d
  else
    let d := { d with
      pending := some d.scripts, scripts := d.scripts + 1,
      replaced := d.replaced ++ d.pending.toList }
    if d.active.isSome then d
    else if d.starting.isNone then d.launch
    else d

def abort (d : Driver) : Driver :=
  let d := { d with starting := none }
  if d.liquidator then d.execute
  else if d.pending.isSome then d.launch
  else d

def adopt (d : Driver) : Driver :=
  let t := d.adopted
  let d := { d with active := some t, starting := none, adopted := t + 1 }
  if d.liquidator then d.modify t fun x => { x with watched := true } else d

def cleanup (d : Driver) : Driver :=
  match d.active with
  | some t => d.reactDisconnect t
  | none => d

def collapse (d : Driver) : Driver :=
  match d.active with
  | some t => d.modify t fun x => { x with collapsing := true }
  | none => d

end Driver

inductive Event where
  | start
  | stop
  | cleanup
  /-- The driver's part of `aboutToQuit`. -/
  | aboutToQuit
  /-- The launch of the starting script succeeds or fails. -/
  | adopt
  | abort
  /-- The process of a tunnel exits. -/
  | finished (t : Nat)
  /-- The socket of a tunnel is disconnected. -/
  | disconnected (t : Nat)
  /-- A tunnel's part of `aboutToQuit`. -/
  | told (t : Nat)

namespace Driver

def step (d : Driver) : Event → Driver
  | .start => d.start
  | .stop => d.stop
  | .cleanup => d.cleanup
  | .aboutToQuit => { d with quitting := true }.collapse
  | .adopt => d.adopt
  | .abort => d.abort
  | .finished t => (d.modify t fun x => { x with finished := true }).reactFinish t
  | .disconnected t => (d.modify t fun x => { x with disconnected := true }).reactDisconnect t
  | .told t => (d.modify t fun x => { x with told := true }).reactDisconnect t

/-- `stop` comes once, from the destructor of the frontend. A launch has one
result, a process exits and a socket is disconnected once. -/
def Enabled (d : Driver) : Event → Prop
  | .start => True
  | .stop => d.liquidator = false
  | .cleanup => True
  | .aboutToQuit => d.quitting = false
  | .adopt => d.starting ≠ none
  | .abort => d.starting ≠ none
  | .finished t => t < d.adopted ∧ (d.tunnels t).finished = false
  | .disconnected t => t < d.adopted ∧ (d.tunnels t).disconnected = false
  | .told t => d.quitting = true ∧ t < d.adopted ∧ (d.tunnels t).told = false

/-- What the driver promises in every state. -/
structure Kept (d : Driver) : Prop where
  alone : d.starting = none ∨ d.active = none
  once : d.ripped.Nodup
  own : d.misplaced = 0
  /-- An accepted script is launched, replaced by a newer one, or waits. -/
  scripts : ∀ s < d.scripts, s ∈ d.launched ∨ s ∈ d.replaced ∨ d.pending = some s
  /-- A script waits only for a tunnel, a launch, or in vain after `stop`. -/
  prompt : d.pending ≠ none → d.liquidator = true ∨ d.active ≠ none ∨ d.starting ≠ none
  late : d.late = 0
  executed : d.executed ≤ 1
  gone : 0 < d.executed → d.starting = none ∧ d.active = none
  ended : d.liquidator = true → d.starting = none → (∀ t < d.adopted, t ∈ d.ripped) →
    d.executed = 1

/-- A signal that evicts comes from the active tunnel or finds none, and finds no
script waiting after `stop`. -/
def Placed (d : Driver) (t : Nat) : Prop :=
  d.active = none ∨ (d.active = some t ∧ (d.liquidator = true → d.pending = none))

/-- `reactDisconnect` of a tunnel that has not gone yet. -/
def SafeDisconnect (d : Driver) (t : Nat) : Prop :=
  ((d.tunnels t).stunnel = true ∨ (d.tunnels t).keepAlive = true) ∧
    ((d.tunnels t).stunnel = false ∨ (d.tunnels t).collapsing = true → d.Placed t)

def Safe (d : Driver) : Event → Prop
  | .finished t =>
      (d.tunnels t).keepAlive = false ∨ (d.tunnels t).collapsing = true → d.Placed t
  | .disconnected t => d.SafeDisconnect t
  | .told t => d.SafeDisconnect t
  | .cleanup => ∀ t, d.active = some t → d.SafeDisconnect t
  | _ => True

/-- A sequence of events that can come. -/
def Possible : Driver → List Event → Prop :=
  Steps step Enabled

end Driver

end DispService.Vnc
