import DispService.Lib.Run
import DispService.Lib.Balance

/-! The state machine of a VM with its transition tables, and what a run of it does
with the start lock and the routes. -/
namespace DispService.StateMachine

open DispService.Lib Balance

/-- The states that `Reactor::proceed` forwards. -/
inductive VmState where
  | running | stopping | stopped | paused | mounted | suspended | deleting | unknown
deriving DecidableEq

inductive Event where
  | conventional (state : VmState)
  | switch | agent | reboot | upgrade | update | toolsEvent
deriving DecidableEq

/-- The states of the nested machine `Running_`; `already` is its entry
pseudo-state. -/
inductive Running_ where
  | already | rebooted | started | stopping
deriving DecidableEq

inductive State where
  | unknown | stopped | suspended | mounted | deleting | reverting
  | pausedOrdinary | pausedUnknown | running
deriving DecidableEq

inductive Action where
  | notification | traffic | routesUp | routesDown | cluster | upgrade | runtime
  | backupDisable | lock | unlock
  /-- `Network::Routing::reconfigure`, connected by `Vm::updateConfig`. -/
  | reconfigure
deriving DecidableEq

inductive Target where
  | state (s : State)
  | entryPt (s : Running_)
deriving DecidableEq

def Target.toState : Target → State
  | .state s => s
  | .entryPt _ => .running

structure Row where
  start : State
  event : Event
  target : Target
  actions : List Action
  /-- The row is guarded by `HasState`. -/
  hasState : Bool
deriving DecidableEq

def row (start : State) (event : VmState) (target : State) (actions : List Action) : Row :=
  ⟨start, .conventional event, .state target, actions, false⟩

def guardedRow (start : State) (event : VmState) (target : State) (actions : List Action) : Row :=
  ⟨start, .conventional event, .state target, actions, true⟩

def entryRow (start : State) (event : VmState) (target : Running_) (actions : List Action) : Row :=
  ⟨start, .conventional event, .entryPt target, actions, false⟩

def transition_table : List Row := [
  guardedRow .unknown .stopped .stopped [.notification],
  guardedRow .unknown .stopped .suspended [.notification],
  row .unknown .suspended .suspended [.notification],
  row .unknown .paused .pausedUnknown [.routesUp, .lock, .notification],
  entryRow .unknown .running .already [.traffic, .routesUp, .runtime, .lock, .notification],
  row .stopped .running .running [.traffic, .routesUp, .runtime, .lock, .notification],
  row .stopped .deleting .deleting [],
  row .stopped .mounted .mounted [.notification],
  row .stopped .unknown .unknown [.notification],
  row .deleting .stopped .stopped [],
  row .deleting .suspended .suspended [],
  row .suspended .unknown .unknown [.notification],
  row .suspended .deleting .deleting [],
  row .suspended .stopped .stopped [.notification],
  row .suspended .paused .pausedOrdinary [.routesUp, .lock, .notification],
  row .suspended .running .running [.traffic, .routesUp, .runtime, .lock, .notification],
  row .running .stopped .stopped
    [.routesDown, .unlock, .cluster, .upgrade, .backupDisable, .notification],
  row .running .suspended .suspended
    [.routesDown, .unlock, .cluster, .upgrade, .backupDisable, .notification],
  row .running .paused .pausedOrdinary [.cluster, .upgrade, .notification],
  row .running .unknown .unknown
    [.routesDown, .unlock, .cluster, .upgrade, .backupDisable, .notification],
  row .pausedOrdinary .stopped .stopped [.routesDown, .backupDisable, .unlock, .notification],
  row .pausedOrdinary .suspended .suspended [.routesDown, .backupDisable, .unlock, .notification],
  row .pausedOrdinary .unknown .unknown [.routesDown, .backupDisable, .unlock, .notification],
  entryRow .pausedOrdinary .running .already [.traffic, .cluster, .notification],
  row .pausedUnknown .stopped .stopped [.routesDown, .backupDisable, .unlock, .notification],
  row .pausedUnknown .unknown .unknown [.routesDown, .backupDisable, .unlock, .notification],
  row .pausedUnknown .suspended .suspended [.routesDown, .backupDisable, .unlock, .notification],
  entryRow .pausedUnknown .running .already [.traffic, .cluster, .runtime, .notification],
  row .mounted .stopped .stopped [.notification],
  row .mounted .unknown .unknown [.notification],
  ⟨.stopped, .switch, .state .reverting, [], false⟩,
  ⟨.suspended, .switch, .state .reverting, [], false⟩,
  guardedRow .reverting .stopped .stopped [.notification],
  guardedRow .reverting .stopped .suspended [.notification],
  row .reverting .suspended .suspended [.notification],
  row .reverting .paused .pausedOrdinary [.routesUp, .runtime, .lock, .notification],
  row .reverting .running .running [.traffic, .routesUp, .runtime, .lock, .notification]]

/-- The table of `Running_` and the internal rows of `Started`; `none` stays in the
state. None of its actions touches the lock or the routes. -/
def Running_.transition_table : List (Running_ × Event × Option Running_) := [
  (.started, .conventional .stopping, some .stopping),
  (.rebooted, .conventional .stopping, some .stopping),
  (.started, .upgrade, none),
  (.rebooted, .upgrade, none),
  (.rebooted, .update, none),
  (.stopping, .reboot, some .rebooted),
  (.started, .reboot, some .rebooted),
  (.rebooted, .conventional .running, none),
  (.rebooted, .reboot, none),
  (.rebooted, .agent, some .started),
  (.already, .conventional .running, some .started),
  (.started, .agent, none),
  (.started, .update, none),
  (.started, .toolsEvent, none)]

/-- `none` where no row handles the event: it goes to the outer machine. -/
def Running_.process_event (s : Running_) (event : Event) : Option Running_ :=
  (transition_table.find? fun r => r.1 = s ∧ r.2.1 = event).map fun r => r.2.2.getD s

/-- What the actions of one event meet outside the machine. -/
structure Environment where
  /-- What `savFileExists` answers when the guard of the row into the state is
  evaluated. -/
  savFileExists : State → Bool
  /-- `getConfig` yields a configuration; without one the routes are not touched. -/
  config : Bool
  /-- `registerExclusiveVmOperation` succeeds; `Lock` ignores its result. -/
  registered : Bool

/-- `HasState` is overloaded on the target. -/
def Row.guard (r : Row) (env : Environment) : Bool :=
  match r.hasState, r.target with
  | true, .state .suspended => env.savFileExists .suspended
  | true, target => !env.savFileExists target.toState
  | false, _ => true

structure Machine where
  state : State := .unknown
  running : Running_ := .rebooted
deriving DecidableEq

/-- A pseudo-state passes the event on to the nested machine. -/
def Machine.enter (m : Machine) (event : Event) : Target → Machine
  | .state .running => ⟨.running, .rebooted⟩
  | .state s => { m with state := s }
  | .entryPt s => ⟨.running, (s.process_event event).getD s⟩

/-- Rows that share a state and an event are tried from the end of the table. -/
def Machine.findRow (m : Machine) (env : Environment) (event : Event) : Option Row :=
  transition_table.reverse.find? fun r => r.start = m.state ∧ r.event = event ∧ r.guard env

def Machine.process_event (m : Machine) (env : Environment) (event : Event) :
    Machine × List Action :=
  match (if m.state = .running then m.running.process_event event else none) with
  | some running => ({ m with running }, [])
  | none =>
      match m.findRow env event with
      | some r => (m.enter event r.target, r.actions)
      -- no_transition only writes a trace
      | none => (m, [])

/-- A registered VM with the history of the actions it executed. -/
structure Vm where
  name : String := ""
  machine : Machine := {}
  history : List (Environment × Action) := []

inductive Request where
  | react (env : Environment) (event : Event)
  | updateConfig (env : Environment) (name : String)

def Vm.react (vm : Vm) (env : Environment) (event : Event) : Vm :=
  -- "attempt to update VM state before first define, that is wrong"
  if vm.name = "" then vm
  else
    let r := vm.machine.process_event env event
    { vm with machine := r.1, history := vm.history ++ r.2.map (env, ·) }

def Vm.updateConfig (vm : Vm) (env : Environment) (name : String) : Vm :=
  { vm with
    name
    history := vm.history ++ if vm.machine.state = .running then [(env, .reconfigure)] else [] }

def Vm.perform (vm : Vm) : Request → Vm
  | .react env event => vm.react env event
  | .updateConfig env name => vm.updateConfig env name

inductive Resource where
  | startLock | routes
deriving DecidableEq

/-- What an action does to a resource: acquire it, release it, or nothing. -/
def Action.call (r : Resource) (a : Action) : Option Bool :=
  match r, a with
  | .startLock, .lock => some true
  | .startLock, .unlock => some false
  | .routes, .routesUp => some true
  | .routes, .routesDown => some false
  | _, _ => none

/-- The action gets past its early return, and its call is granted. -/
def TakesEffect (executed : Environment × Action) : Bool :=
  match executed.2 with
  | .lock => executed.1.registered
  | .routesUp | .routesDown => executed.1.config
  | _ => true

/-- Every execution of the action counts. -/
def called (r : Resource) (executed : Environment × Action) : Option Bool :=
  executed.2.call r

/-- Only what reaches the lock table or the routing counts. -/
def effected (r : Resource) (executed : Environment × Action) : Option Bool :=
  if TakesEffect executed then executed.2.call r else none

/-- The states that keep the lock and the routes. -/
def State.keeps : State → Bool
  | .running | .pausedOrdinary | .pausedUnknown => true
  | _ => false

/-- Each row hands over what its source keeps to its target. -/
theorem row_balanced : ∀ r : Resource, ∀ t ∈ transition_table,
    Balanced (Action.call r) t.start.keeps t.actions ∧
      after (Action.call r) t.start.keeps t.actions = t.target.toState.keeps := by
  intro r
  cases r <;> decide

theorem Machine.enter_state (m : Machine) (event : Event) (target : Target) :
    (m.enter event target).state = target.toState := by
  unfold enter Target.toState
  split <;> rfl

theorem Machine.process_event_balanced (m : Machine) (env : Environment) (event : Event)
    (r : Resource) :
    Balanced (Action.call r) m.state.keeps (m.process_event env event).2 ∧
      after (Action.call r) m.state.keeps (m.process_event env event).2 =
        (m.process_event env event).1.state.keeps := by
  unfold process_event
  split
  · exact ⟨trivial, rfl⟩
  · split
    · rename_i t hfound
      have hmem := List.mem_of_find?_eq_some hfound
      have hrow := List.find?_some hfound
      rw [List.mem_reverse] at hmem
      simp only [decide_eq_true_eq] at hrow
      rw [← hrow.1, enter_state]
      exact row_balanced r t hmem
    · exact ⟨trivial, rfl⟩

theorem after_map (env : Environment) (r : Resource) (held : Bool) (actions : List Action) :
    after (called r) held (actions.map (env, ·)) = after (Action.call r) held actions := by
  induction actions generalizing held with
  | nil => rfl
  | cons a actions ih => exact ih _

theorem balanced_map (env : Environment) (r : Resource) (held : Bool) (actions : List Action) :
    Balanced (called r) held (actions.map (env, ·)) ↔ Balanced (Action.call r) held actions := by
  induction actions generalizing held with
  | nil => rfl
  | cons a actions ih =>
      unfold Balance.Balanced
      exact and_congr_right fun _ => ih _

/-- The calls so far are balanced and leave held what the state keeps. -/
def Kept (vm : Vm) : Prop :=
  ∀ r, Balanced (called r) false vm.history ∧
    after (called r) false vm.history = vm.machine.state.keeps

theorem kept_step (vm : Vm) (request : Request) (vm' : Vm) (kept : Kept vm)
    (step : Graph Vm.perform vm request vm') : Kept vm' := by
  unfold Lib.Graph at step
  subst step
  intro r
  have hkept := kept r
  cases request with
  | react env event =>
      unfold Vm.perform Vm.react
      dsimp only
      split
      · exact hkept
      · dsimp only
        rw [balanced_append, after_append, hkept.2, after_map, balanced_map]
        have hprocess := vm.machine.process_event_balanced env event r
        exact ⟨⟨hkept.1, hprocess.1⟩, hprocess.2⟩
  | updateConfig env name =>
      unfold Vm.perform Vm.updateConfig
      dsimp only
      split
      · rw [balanced_append, after_append, hkept.2]
        cases r
        · exact ⟨⟨hkept.1, by simp [Balance.Balanced, called, Action.call]⟩, rfl⟩
        · exact ⟨⟨hkept.1, by simp [Balance.Balanced, called, Action.call]⟩, rfl⟩
      · rw [List.append_nil]
        exact hkept

theorem effected_eq_called {r : Resource} {executed : Environment × Action}
    (h : TakesEffect executed = true) : effected r executed = called r executed := by
  unfold effected
  rw [if_pos h]
  rfl

/-- `Unlock` always takes effect: only acquisitions of the lock can get lost. -/
theorem effected_startLock (executed : Environment × Action) :
    effected .startLock executed = called .startLock executed ∨
      effected .startLock executed = none ∧ called .startLock executed = some true := by
  by_cases heffect : TakesEffect executed = true
  · exact Or.inl (effected_eq_called heffect)
  · unfold effected
    rw [if_neg heffect]
    unfold TakesEffect at heffect
    unfold called Action.call
    cases haction : executed.2 <;> simp_all

/-- In every run the executions of the actions are balanced for both resources, and
held exactly in the states that keep them. The lock itself never outlives these
states, and where every executed action takes effect the same holds of the lock and
the routes themselves. -/
theorem resources_balanced_of_run {requests : List Request} {vm : Vm}
    (run : Run (Graph Vm.perform) {} requests vm) :
    (∀ r, Balanced (called r) false vm.history ∧
      (after (called r) false vm.history = true ↔ vm.machine.state.keeps = true)) ∧
    (after (effected .startLock) false vm.history = true → vm.machine.state.keeps = true) ∧
    ((∀ executed ∈ vm.history, TakesEffect executed = true) →
      ∀ r, Balanced (effected r) false vm.history ∧
        (after (effected r) false vm.history = true ↔ vm.machine.state.keeps = true)) := by
  have kept : Kept vm := by
    apply run.preserves kept_step
    intro r
    exact ⟨trivial, rfl⟩
  refine ⟨?_, ?_, ?_⟩
  · intro r
    rw [(kept r).2]
    exact ⟨(kept r).1, Iff.rfl⟩
  · intro hheld
    rw [← (kept .startLock).2]
    exact after_of_weak id effected_startLock hheld
  · intro heffect r
    have same : ∀ executed ∈ vm.history, effected r executed = called r executed := by
      intro executed hmem
      exact effected_eq_called (heffect executed hmem)
    rw [balanced_congr same, after_congr same, (kept r).2]
    exact ⟨(kept r).1, Iff.rfl⟩

/-- A host on which everything works, with no saved state. -/
def goodHost : Environment := ⟨fun _ => false, true, true⟩

/-- A VM found running is paused and stopped. -/
theorem resources_balanced_of_stop :
    let vm := [Request.updateConfig goodHost "vm", .react goodHost (.conventional .running),
      .react goodHost (.conventional .paused),
      .react goodHost (.conventional .stopped)].foldl Vm.perform {}
    vm.machine.state = .stopped ∧
      vm.history.map (·.2) = [.traffic, .routesUp, .runtime, .lock, .notification, .cluster,
        .upgrade, .notification, .routesDown, .backupDisable, .unlock, .notification] ∧
      ∀ r, Balanced (effected r) false vm.history := by
  intro vm
  have run : Run (Graph Vm.perform) {} _ vm := .foldl Vm.perform {} _
  refine ⟨by decide, by decide, ?_⟩
  intro r
  exact ((resources_balanced_of_run run).2.2 (by decide) r).1

/-- A VM is found running while its configuration cannot be read: the machine is in
`Running` without the routes. A refused registration leaves it without the lock. -/
theorem running_without_resources :
    let vm := [Request.updateConfig goodHost "vm",
      .react ⟨fun _ => false, false, false⟩ (.conventional .running)].foldl Vm.perform {}
    Run (Graph Vm.perform) {} [Request.updateConfig goodHost "vm",
      .react ⟨fun _ => false, false, false⟩ (.conventional .running)] vm ∧
    vm.machine.state = .running ∧ after (effected .routes) false vm.history = false ∧
      after (effected .startLock) false vm.history = false := by
  intro vm
  exact ⟨.foldl Vm.perform {} _, by decide, by decide, by decide⟩

end DispService.StateMachine
