import DispService.Lib.Heap
import DispService.Lib.Table
import DispService.PrlResult

/-! The tables of the VM registry and its operations. Each of them works under the
lock of the registry, except that `reset` takes the lock anew for every item. -/
namespace DispService.Registry

open DispService.Lib

/-- The uuids of the VM and of its directory. -/
abbrev CVmIdent := String × String

/-- A registered VM: what its user says of the directory, and its home. -/
structure Vm where
  uuid : String
  directory : String
  home : String
deriving DecidableEq

/-- A declaration, or an object that `reset` kept. -/
inductive Booking where
  | declaration (ident : CVmIdent) (home : String)
  | bin (vm : Nat)
deriving DecidableEq

/-- The tables hold the addresses of shared objects. -/
structure Actual where
  heap : Heap Vm := .empty
  definedMap : Table Nat := ∅
  undeclaredMap : Table Nat := ∅
  bookingMap : Table Booking := ∅

/-- What `Visitor` and `define` read from the configuration of the dispatcher. -/
structure Preferences where
  /-- The VM directories of the users. -/
  userVmDirectories : List String
  defaultVmDirectory : String

/-- An item of a VM directory. -/
structure Item where
  directory : String
  vmUuid : String
  vmHome : String
  ctId : String
  isTemplate : Bool

def getTemplatesDirectoryUuid : String :=
  "\x7ba610e7fa-23d7-48cd-9086-b9c82021a885\x7d"

/-- Containers and templates are not booked. -/
def Item.skipped (i : Item) : Bool :=
  i.ctId != "" || i.isTemplate || i.directory == getTemplatesDirectoryUuid

namespace Actual

def find (s : Actual) (uuid : String) : Option Vm :=
  (s.definedMap.lookup uuid).bind s.heap.read

def declare (s : Actual) (ident : CVmIdent) (home : String) : PrlResult × Actual :=
  let u := ident.1
  -- defined implies declared
  if u ∈ s.definedMap then (.vmAlreadyRegisteredVmUuid, s)
  else
    match s.undeclaredMap.lookup u with
    | some m =>
        (.success, { s with
          definedMap := s.definedMap.insert u m
          undeclaredMap := s.undeclaredMap.erase u })
    | none =>
        if u ∈ s.bookingMap then (.doubleInit, s)
        else
          (.success, { s with bookingMap := s.bookingMap.insert u (.declaration ident home) })

def undeclare (s : Actual) (uuid : String) : PrlResult × Actual :=
  match s.definedMap.lookup uuid with
  | none =>
      if uuid ∈ s.bookingMap then
        (.success, { s with bookingMap := s.bookingMap.erase uuid })
      else
        (.fileNotFound, s)
  | some m =>
      (.success, { s with
        definedMap := s.definedMap.erase uuid
        undeclaredMap := s.undeclaredMap.insert uuid m })

/-- `Visitor` on an ident: an object for the user of the directory, if there is one. -/
def makeVm (prefs : Preferences) (s : Actual) (ident : CVmIdent) (home : String) :
    Except PrlResult Nat × Actual :=
  if ident.2 ∈ prefs.userVmDirectories then
    (.ok s.heap.next, { s with heap := s.heap.alloc ⟨ident.1, ident.2, home⟩ })
  else
    (.error .failure, s)

/-- The conductor on what is booked, or on the default directory. -/
def conduct (prefs : Preferences) (s : Actual) (uuid : String) :
    Except PrlResult Nat × Actual :=
  match s.bookingMap.lookup uuid with
  | some (.declaration ident home) =>
      makeVm prefs { s with bookingMap := s.bookingMap.erase uuid } ident home
  | some (.bin vm) => (.ok vm, { s with bookingMap := s.bookingMap.erase uuid })
  | none => makeVm prefs s (uuid, prefs.defaultVmDirectory) ""

def define (prefs : Preferences) (s : Actual) (uuid : String) :
    Except PrlResult Nat × Actual :=
  if uuid ∈ s.definedMap ∨ uuid ∈ s.undeclaredMap then
    (.error .vmAlreadyRegisteredVmUuid, s)
  else
    match conduct prefs s uuid with
    | (.ok vm, s) => (.ok vm, { s with definedMap := s.definedMap.insert uuid vm })
    | (.error e, s) => (.error e, s)

/-- The object whose item is to be deleted from its directory, once the lock is
released. -/
def undefine (s : Actual) (uuid : String) : Option Vm × Actual :=
  match s.definedMap.lookup uuid with
  | none => (none, { s with undeclaredMap := s.undeclaredMap.erase uuid })
  | some m => (s.heap.read m, { s with definedMap := s.definedMap.erase uuid })

/-- `Machine::setHome` on an object. -/
def setHome (s : Actual) (vm : Nat) (home : String) : Actual :=
  { s with heap := (s.heap.modify vm fun m => { m with home }).getD s.heap }

/-- The first step of `reset`: the defined table is swapped out. -/
def resetSwap (s : Actual) : Table Nat × Actual :=
  (s.definedMap, { s with definedMap := ∅ })

/-- One item of the loop of `reset`, with the table that was swapped out. -/
def resetItem (b : Table Nat) (s : Actual) (i : Item) : Actual :=
  if i.skipped then s
  else
    match b.lookup i.vmUuid with
    | none => (s.declare (i.vmUuid, i.directory) i.vmHome).2
    | some m =>
        let s := s.setHome m i.vmHome
        { s with bookingMap := s.bookingMap.insert i.vmUuid (.bin m) }

/-- `reset` without a step of another thread in between. -/
def reset (s : Actual) (items : List Item) : Actual :=
  let r := s.resetSwap
  items.foldl (resetItem r.1) r.2

end Actual

end DispService.Registry
