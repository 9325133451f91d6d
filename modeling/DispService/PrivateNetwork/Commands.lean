import Mathlib.Data.Finset.Card
import Mathlib.Data.Finset.Union
import DispService.Lib.Run
import DispService.Lib.Script
import DispService.PrlResult

/-! The tables of IP private networks in the kernel. A network with an id is sparse;
a global one has only its addresses, in the legacy table. -/
namespace DispService.PrivateNetwork

open DispService.Lib.Script

inductive Family where
  | v4
  | v6
deriving DecidableEq, Repr

/-- An entry of `getNetAddresses`, as `ParseIpMask` reads it. -/
inductive Address where
  /-- The special value "*". -/
  | any
  /-- `slash` tells whether the text has one. -/
  | ip (family : Family) (text : String) (slash : Bool)
  | bad (text : String)
deriving DecidableEq, Repr

/-- `CPrivateNetwork`. -/
structure Network where
  name : String
  networkId : Nat
  isGlobal : Bool := false
  netAddresses : List Address := []
deriving DecidableEq, Repr

/-- What does not change while the service runs: the files the kernel offers under
`/proc/vz/privnet`, and `PRL_PRIVNET_GENERATE_ID`. -/
structure Host where
  generateId : Nat
  sparse : Bool := true
  sparse6 : Bool := true
  legacy : Bool := true
  legacy6 : Bool := true

/-- An entry of the kernel's tables. -/
inductive Fact where
  | id (f : Family) (n : Nat)
  | address (f : Family) (n : Nat) (a : Address)
  | legacy (f : Family) (a : Address)
deriving DecidableEq, Repr

abbrev Command := Write Fact PrlResult

/-- The entries that go with "-id" in one of the files. -/
def about (f : Family) (n : Nat) : Fact → Bool
  | .id g m => decide (g = f ∧ m = n)
  | .address g m _ => decide (g = f ∧ m = n)
  | .legacy _ _ => false

variable (h : Host)

/-- The writes of `add_sparse_network` for one address. -/
def addSparseAddress (n : Nat) : Address → List Command
  | .any =>
      .put (.address .v4 n .any) false .ipprivateNetworkInvalidIp ::
        if h.sparse6 then [.put (.address .v6 n .any) false .ipprivateNetworkInvalidIp] else []
  | .ip .v4 text slash =>
      [.put (.address .v4 n (.ip .v4 text slash)) false .ipprivateNetworkInvalidIp]
  | .ip .v6 text slash =>
      if h.sparse6 then
        [.put (.address .v6 n (.ip .v6 text slash)) false .ipprivateNetworkInvalidIp]
      else []
  | .bad _ => [.stop .ipprivateNetworkInvalidIp]

def addSparseNetwork (net : Network) : List Command :=
  if h.sparse then
    .put (.id .v4 net.networkId) true .invalidArg ::
      ((if h.sparse6 then [.put (.id .v6 net.networkId) true .invalidArg] else []) ++
        net.netAddresses.flatMap (addSparseAddress h net.networkId))
  else [.stop .fileNotFound]

/-- The write to a legacy file for one address; `add_legacy_network` and
`remove_legacy_network` differ in its sign. -/
def legacyAddress (write : Fact → Command) : Address → Command
  | .any => .stop .ipprivateNetworkInvalidIp
  | .ip .v4 text slash => write (.legacy .v4 (.ip .v4 text slash))
  | .ip .v6 text slash =>
      if h.legacy6 then write (.legacy .v6 (.ip .v6 text slash)) else .stop .fileNotFound
  | .bad _ => .stop .ipprivateNetworkInvalidIp

def addLegacyNetwork (net : Network) : List Command :=
  if h.legacy then
    net.netAddresses.map (legacyAddress h fun x => .put x false .ipprivateNetworkInvalidIp)
  else [.stop .fileNotFound]

def removeLegacyNetwork (net : Network) : List Command :=
  if h.legacy then
    net.netAddresses.map
      (legacyAddress h fun x => .drop (fun y => decide (y = x)) .ipprivateNetworkInvalidIp)
  else [.stop .fileNotFound]

def removeSparseNetwork (net : Network) : List Command :=
  if net.networkId = h.generateId then [.stop .ipprivateNetworkDoesNotExist]
  else if h.sparse then
    .drop (about .v4 net.networkId) .invalidArg ::
      if h.sparse6 then [.drop (about .v6 net.networkId) .invalidArg] else []
  else [.stop .fileNotFound]

/-- `read_ids_from_file`, for both files. -/
def readIds (kernel : Finset Fact) : Finset Nat :=
  kernel.biUnion fun
    | .id _ n => {n}
    | _ => ∅

def generateNewId (nets : List Network) (kernel : Finset Fact) : Nat :=
  let known := readIds kernel ∪ ((nets.map (·.networkId)).filter (· ≠ h.generateId)).toFinset
  ((List.range' 1 (known.card + 1)).find? (· ∉ known)).getD h.generateId

def addition (net : Network) : List Command :=
  if net.isGlobal then addLegacyNetwork h net else addSparseNetwork h net

def removal (net : Network) : List Command :=
  if net.isGlobal then removeLegacyNetwork h net else removeSparseNetwork h net

/-- The network `AddPrivateNetwork` sets up: its id is generated on demand. -/
def identify (net : Network) (nets : List Network) (kernel : Finset Fact) : Network :=
  if net.networkId = h.generateId ∧ net.isGlobal = false then
    { net with networkId := generateNewId h nets kernel }
  else net

/-- It also returns the network, with the id it was given. -/
def addPrivateNetwork (net : Network) (nets : List Network) (faults : Faults)
    (kernel : Finset Fact) : Network × Finset Fact × Option PrlResult :=
  let net := identify h net nets kernel
  if net.networkId = h.generateId ∧ net.isGlobal = false then (net, kernel, some .unexpected)
  else (net, run (addition h net) faults kernel)

def removePrivateNetwork (net : Network) (faults : Faults) (kernel : Finset Fact) :
    Finset Fact × Option PrlResult :=
  run (removal h net) faults kernel

end DispService.PrivateNetwork

/-! The commands that add, update and remove an IP private network. Each changes the
kernel, then the list in memory, then its file, and rolls back by hand. -/
namespace DispService.PrivateNetwork

open DispService.Lib
open DispService.Lib.Script

/-- The configured networks in memory and in the file, and the kernel. -/
structure State where
  nets : List Network := []
  saved : List Network := []
  kernel : Finset Fact := ∅

/-- Which writes fail: those that remove the old network, that add the new one,
that take the new one back and put the old one back, and the write of the file. -/
structure Choice where
  drop : Faults := fun _ => false
  put : Faults := fun _ => false
  undo : Faults := fun _ => false
  restore : Faults := fun _ => false
  save : Bool := false

variable (h : Host)

def validateIPPrivateNetwork (net : Network) : PrlResult :=
  if net.netAddresses.all fun
    | .any => true
    | .ip .v4 _ _ => true
    | .ip .v6 _ slash => slash
    | .bad _ => false
  then .success else .ipprivateNetworkInvalidIp

/-- The place of the last element that satisfies a condition. -/
def lastIdx {α : Type} (p : α → Bool) : List α → Option Nat
  | [] => none
  | x :: xs =>
      match lastIdx p xs with
      | some i => some (i + 1)
      | none => if p x then some 0 else none

/-- `PrlNet::WriteNetworkConfig`. -/
def State.write (s : State) (c : Choice) : State × PrlResult :=
  if c.save then (s, .failure) else ({ s with saved := s.nets }, .success)

/-- "Restore old settings": the new network is taken back and the one at `old`, if
there is one, is put back. -/
def State.restore (s : State) (net : Network) (old : Option Nat) (c : Choice) : State :=
  let kernel := (removePrivateNetwork h net c.undo s.kernel).1
  match old.bind fun i => s.nets[i]?.map (i, ·) with
  | none => { s with kernel }
  | some (i, oldNet) =>
      let r := addPrivateNetwork h oldNet [] c.restore kernel
      { s with kernel := r.2.1, nets := s.nets.set i r.1 }

def State.add (s : State) (net : Network) (c : Choice) : State × PrlResult :=
  if s.nets.any (·.name = net.name) then (s, .duplicateIpprivateNetworkName)
  else if (validateIPPrivateNetwork net).failed then (s, validateIPPrivateNetwork net)
  else
    let old := lastIdx (fun m : Network => decide (m.networkId = net.networkId)) s.nets
    let r := addPrivateNetwork h net s.nets c.put s.kernel
    let s := { s with kernel := r.2.1 }
    match r.2.2 with
    | some e => (s.restore h r.1 old c, e)
    | none => { s with nets := s.nets ++ [r.1] }.write c

/-- The configured network a request of an update is for. -/
def Host.finds (net m : Network) : Bool :=
  if net.networkId = h.generateId then decide (m.name = net.name)
  else decide (m.networkId = net.networkId)

def State.update (s : State) (net : Network) (c : Choice) : State × PrlResult :=
  match s.nets.findIdx? (h.finds net) with
  | none => (s, .ipprivateNetworkDoesNotExist)
  | some i =>
      if (s.nets.eraseIdx i).any (·.name = net.name) then (s, .duplicateIpprivateNetworkName)
      else if (validateIPPrivateNetwork net).failed then (s, validateIPPrivateNetwork net)
      else
        let dropped := match s.nets[i]? with
          | some oldNet => (removePrivateNetwork h oldNet c.drop s.kernel).1
          | none => s.kernel
        let r := addPrivateNetwork h net [] c.put dropped
        let s := { s with kernel := r.2.1 }
        match r.2.2 with
        | some e => (s.restore h r.1 (some i) c, e)
        | none => { s with nets := s.nets.set i r.1 }.write c

/-- A failure to write the file is not reported. -/
def State.remove (s : State) (net : Network) (c : Choice) : State × PrlResult :=
  match s.nets.findIdx? fun m => decide (m.name = net.name) with
  | none => (s, .ipprivateNetworkDoesNotExist)
  | some i =>
      let r := removePrivateNetwork h net c.drop s.kernel
      let s := { s with kernel := r.1 }
      match r.2 with
      | some e => (s, e)
      | none => (({ s with nets := s.nets.eraseIdx i }.write c).1, .success)

/-- A request with its description, if that could be parsed. `cmdAddIPPrivateNetwork`
does not look at the result of the parsing. -/
inductive Request where
  | add (net : Network)
  | update (net : Option Network)
  | remove (net : Option Network)

def State.perform (s : State) : Request × Choice → State × PrlResult
  | (.add net, c) => s.add h net c
  | (.update none, _) => (s, .invalidArg)
  | (.update (some net), c) => s.update h net c
  | (.remove none, _) => (s, .invalidArg)
  | (.remove (some net), c) => s.remove h net c

def State.step (s : State) (l : Request × Choice) : State := (s.perform h l).1

/-- The entries of a configured network. -/
def facts (net : Network) : Finset Fact := content (addition h net)

/-- The kernel that the configured networks ask for. -/
def describe : List Network → Finset Fact
  | [] => ∅
  | net :: nets => facts h net ∪ describe nets

/-- What holds in every state. The value `PRL_PRIVNET_GENERATE_ID` stands for no id. -/
structure Kept (s : State) : Prop where
  names : (s.nets.map (·.name)).Nodup
  ids : ((s.nets.map (·.networkId)).filter (· ≠ h.generateId)).Nodup
  kernel : s.kernel = describe h s.nets
  saved : s.saved = s.nets

/-- The request's network, with an id generated for it if it asks for one. -/
def Made (net made : Network) : Prop :=
  made = { net with networkId := made.networkId } ∧
    (net.networkId ≠ h.generateId ∨ net.isGlobal = true → made = net)

/-- What a request that succeeds does to the list. -/
def Changed (nets nets' : List Network) : Request → Prop
  | .add net => ∃ made, Made h net made ∧ nets' = nets ++ [made]
  | .update net? => ∃ net, net? = some net ∧ ∃ i m made, nets[i]? = some m ∧
      h.finds net m = true ∧ Made h net made ∧ nets' = nets.set i made
  | .remove net? => ∃ net, net? = some net ∧ ∃ i m, nets[i]? = some m ∧ m.name = net.name ∧
      nets' = nets.eraseIdx i

/-- A request that fails changes nothing, one that succeeds does what it says. -/
def Honest (s : State) (l : Request × Choice) : Prop :=
  ((s.perform h l).2.failed = true → (s.perform h l).1 = s) ∧
  ((s.perform h l).2.failed = false → Changed h s.nets (s.perform h l).1.nets l.1)

/-- Two networks do not meet in the legacy table. -/
def Foreign (a b : Network) : Prop :=
  a.isGlobal = true → b.isGlobal = true → ∀ x ∈ a.netAddresses, x ∉ b.netAddresses

/-- The writes of a roll-back and of the file succeed. -/
def Choice.Sure (c : Choice) : Prop :=
  c.undo.Clean ∧ c.restore.Clean ∧ c.save = false

def SafeAdd (s : State) (net : Network) (c : Choice) : Prop :=
  c.Sure ∧ (∀ m ∈ s.nets, Foreign net m) ∧
  (net.networkId ≠ h.generateId → ∀ m ∈ s.nets, m.networkId = net.networkId →
    net.isGlobal = false ∧ m.isGlobal = false)

def SafeUpdate (s : State) (net : Network) (c : Choice) : Prop :=
  ∀ i m, s.nets.findIdx? (h.finds net) = some i → s.nets[i]? = some m →
    c.Sure ∧ (∀ n ∈ s.nets.eraseIdx i, Foreign net n) ∧
    (c.drop.Clean ∨
      (net.networkId ≠ h.generateId ∧ net.isGlobal = false ∧ m.isGlobal = false)) ∧
    (net.networkId = h.generateId → net.isGlobal = false →
      ∀ n ∈ s.nets.eraseIdx i, n.isGlobal = true → n.networkId = h.generateId)

def SafeRemove (s : State) (net : Network) (c : Choice) : Prop :=
  ∀ i m, s.nets.findIdx? (fun m => decide (m.name = net.name)) = some i → s.nets[i]? = some m →
    c.save = false ∧ (∀ n, c.drop (n + 1) = false) ∧
    ((net.isGlobal = false ∧ net.networkId = h.generateId) ∨
      (net.isGlobal = false ∧ m.isGlobal = false ∧ net.networkId = m.networkId) ∨
      (net.isGlobal = true ∧ m.isGlobal = true ∧ ∀ x, x ∈ net.netAddresses ↔ x ∈ m.netAddresses))

def Safe (s : State) : Request × Choice → Prop
  | (.add net, c) => SafeAdd h s net c
  | (.update net?, c) => ∀ net, net? = some net → SafeUpdate h s net c
  | (.remove net?, c) => ∀ net, net? = some net → SafeRemove h s net c

end DispService.PrivateNetwork
