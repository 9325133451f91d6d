import DispService.Lib.Run
import DispService.Registry.Tables
import Mathlib.Data.Finset.Basic
import Mathlib.Logic.Function.Basic

/-! The reconciliation of the VMs of libvirt with those of the registry. A thread of the pool runs
it once libvirt is connected, when the events of libvirt are already handled on a thread of their
own, so that every step of the one may come between any two of the other. -/
namespace DispService.Registry.Breeding

open Lib

/-- A VM of libvirt is new or changed, or gone. -/
inductive Event where
  | defined (uuid : String)
  | undefined (uuid : String)
deriving DecidableEq

def Event.uuid : Event → String
  | .defined uuid => uuid
  | .undefined uuid => uuid

/-- What an entry of the domain map is shown. A thread of the pool runs it later. -/
inductive Reaction where
  | updateConfig (uuid : String)
  | undefine (uuid : String)
deriving DecidableEq

/-- Where the reconciliation stands: at a call, or in a loop over the keys of a table. -/
inductive Phase where
  | all
  | snapshot
  | validate
  | reset
  | getItemList
  | declare
  | add
  | define
  /-- The VM is defined, and goes away with its item. -/
  | undefine (uuid : String)
  | purge
  | update
  | done
deriving DecidableEq

/-- The locals of the reconciliation. The keys of a hash come in any order. -/
structure Thread where
  phase : Phase := .all
  b : Finset String := ∅
  c : Finset String := ∅
  s : Finset String := ∅
  /-- What is left of the copy that `foreach` goes through. -/
  rest : Finset String := ∅
  /-- What `reset` swapped out, and what it has still to book. -/
  swapped : Table Nat := ∅
  items : List Item := []

structure System where
  registry : Actual
  /-- The items of the VM directories. -/
  items : List Item
  /-- The server uuid in the stored configuration of a VM. -/
  stored : String → Option String
  libvirt : Finset String
  /-- The events that the thread of libvirt has not handled yet. -/
  events : List Event := []
  m_domainMap : Finset String := ∅
  reactions : List Reaction := []
  thread : Thread := {}

/-- `Actual::snapshot`. No key is in both tables. -/
def snapshot (s : Actual) : Finset String :=
  s.definedMap.keys ∪ s.undeclaredMap.keys

section Operations

variable (prefs : Preferences) (serverUuid : String)

/-- A VM without a home has no configuration to read. -/
def validate (st : System) (uuid_ : String) : Bool :=
  match st.registry.find uuid_ with
  | none => true
  | some vm =>
      if vm.home = "" then true
      else
        match st.stored uuid_ with
        | none => true
        | some y => y == serverUuid

/-- `Actual::undefine`, with the item it deletes once the lock is released. -/
def undefine (st : System) (uuid_ : String) : System :=
  { st with
    registry := (st.registry.undefine uuid_).2
    items :=
      match (st.registry.undefine uuid_).1 with
      | none => st.items
      | some m => st.items.filter fun i => ¬ (i.directory = m.directory ∧ i.vmUuid = uuid_) }

/-- `System::add`, and whether there is a new entry. -/
def add (st : System) (uuid_ : String) : Bool × System :=
  if uuid_ = "" ∨ uuid_ ∈ st.m_domainMap then (false, st)
  else
    match Actual.define prefs st.registry uuid_ with
    | (.error _, registry) => (false, { st with registry })
    | (.ok _, registry) =>
        (true, { st with registry, m_domainMap := insert uuid_ st.m_domainMap })

def remove (st : System) (uuid_ : String) : System :=
  if uuid_ ∈ st.m_domainMap then
    { st with
      m_domainMap := st.m_domainMap.erase uuid_
      reactions := st.reactions ++ [.undefine uuid_] }
  else st

/-- An entry is shown the new configuration, whether it was there or is new. -/
def pullInfo (st : System) (u : String) : System :=
  let d := if u ∈ st.m_domainMap then (true, st) else add prefs st u
  if d.1 then { d.2 with reactions := d.2.reactions ++ [.updateConfig u] } else d.2

def handle (st : System) : Event → System
  | .defined uuid => pullInfo prefs st uuid
  | .undefined uuid => remove st uuid

/-- What libvirt says of a VM is stored, with the uuid of this server, unless it cannot be read or
there is no place for it. -/
def updateConfig (ok : Bool) (st : System) (uuid : String) : System :=
  if ok then { st with stored := Function.update st.stored uuid (some serverUuid) } else st

def run (ok : Bool) (st : System) : Reaction → System
  | .updateConfig uuid => updateConfig serverUuid ok st uuid
  | .undefine uuid => undefine st uuid

/-- libvirt loses a VM, and says so. -/
def forget (st : System) (uuid : String) : System :=
  { st with libvirt := st.libvirt.erase uuid, events := st.events ++ [.undefined uuid] }

/-- A step of `Breeding::Vm::operator()`: `u` is the key that the loop takes, and `ok` says whether
libvirt does what it is asked. -/
def breed (st : System) (u : String) (ok : Bool) : System :=
  let t := st.thread
  match t.phase with
  | .all =>
      if ok then { st with thread := { phase := .snapshot, b := st.libvirt } }
      else { st with thread := { t with phase := .done } }
  | .snapshot =>
      { st with thread := { t with
          phase := .validate, s := snapshot st.registry, rest := snapshot st.registry } }
  | .validate =>
      if t.rest = ∅ then { st with thread := { t with phase := .reset } }
      else if u ∉ t.rest then st
      else if validate serverUuid st u then
        { st with thread := { t with rest := t.rest.erase u } }
      else
        { st with thread := { t with
            rest := t.rest.erase u
            b := t.b.erase u
            -- A key that is not in `b` comes with no VM of libvirt.
            c := if u ∈ t.b then insert u t.c else t.c } }
  | .reset =>
      { st with
        registry := st.registry.resetSwap.2
        thread := { t with phase := .getItemList, swapped := st.registry.resetSwap.1 } }
  | .getItemList => { st with thread := { t with phase := .declare, items := st.items } }
  | .declare =>
      match t.items with
      | [] => { st with thread := { t with phase := .add, rest := t.b } }
      | i :: items =>
          { st with registry := st.registry.resetItem t.swapped i, thread := { t with items } }
  | .add =>
      if t.rest = ∅ then { st with thread := { t with phase := .define, rest := t.s } }
      else if u ∉ t.rest then st
      else
        let d := add prefs st u
        if d.1 then
          { d.2 with thread := { t with rest := t.rest.erase u, s := t.s.erase u } }
        else { d.2 with thread := { t with rest := t.rest.erase u, b := t.b.erase u } }
  | .define =>
      if t.rest = ∅ then { st with thread := { t with phase := .purge, rest := t.c } }
      else if u ∉ t.rest then st
      else
        { st with
          registry := (Actual.define prefs st.registry u).2
          thread := { t with phase := .undefine u, rest := t.rest.erase u } }
  | .undefine u => { undefine st u with thread := { t with phase := .define } }
  | .purge =>
      if t.rest = ∅ then { st with thread := { t with phase := .update, rest := t.b } }
      else if u ∉ t.rest then st
      else { (if ok then forget st u else st) with thread := { t with rest := t.rest.erase u } }
  | .update =>
      if t.rest = ∅ then { st with thread := { t with phase := .done } }
      else if u ∉ t.rest then st
      else
        { updateConfig serverUuid ok st u with thread := { t with rest := t.rest.erase u } }
  | .done => st

end Operations

/-- The steps of libvirt, of the thread of the events, of the pool and of the reconciliation. -/
inductive Label where
  | define (uuid : String)
  | undefine (uuid : String)
  | event
  | reaction (i : Nat) (ok : Bool)
  | breed (u : String) (ok : Bool)

def step (prefs : Preferences) (serverUuid : String) (st : System) : Label → System
  | .define uuid =>
      { st with libvirt := insert uuid st.libvirt, events := st.events ++ [.defined uuid] }
  | .undefine uuid => forget st uuid
  | .event =>
      match st.events with
      | [] => st
      | e :: events => { handle prefs st e with events }
  | .reaction i ok =>
      match st.reactions[i]? with
      | none => st
      | some r => run serverUuid ok { st with reactions := st.reactions.eraseIdx i } r
  | .breed u ok => breed prefs serverUuid st u ok

/-- The events of libvirt are handled, and nothing is known of its VMs yet. -/
def start (registry : Actual) (items : List Item) (stored : String → Option String)
    (libvirt : Finset String) : System :=
  { registry, items, stored, libvirt }

section Promise

variable (serverUuid : String) (st : System)

/-- The stored configuration of the VM is one of another server. -/
def Foreign (u : String) : Prop :=
  st.stored u ≠ none ∧ st.stored u ≠ some serverUuid

/-- No event about the VM is on its way. -/
def Settled (u : String) : Prop :=
  ∀ e ∈ st.events, e.uuid ≠ u

/-- The reconciliation takes a VM away from the registry only if libvirt does not have it or it is
one of another server, and from libvirt only in the latter case. -/
def Justified : Label → Prop
  | .breed u _ =>
      match st.thread.phase with
      | .undefine uuid => uuid ∉ st.libvirt ∨ Foreign serverUuid st uuid
      | .purge => u ∈ st.thread.rest → Foreign serverUuid st u
      | _ => True
  | _ => True

/-- Afterwards each VM of libvirt is known, apart from those of another server. -/
def Registered : Prop :=
  st.thread.phase = .done → ∀ u ∈ st.libvirt, Settled st u → ¬ Foreign serverUuid st u →
    u ∈ st.registry.definedMap ∧ u ∈ st.m_domainMap

end Promise

end DispService.Registry.Breeding
