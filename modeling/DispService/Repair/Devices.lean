/-! The devices of one class when a stored configuration is merged into one that was
read from the domain: indices first, then what the domain does not carry. -/
namespace DispService.Repair

universe u v

inductive DeviceType where
  | hardDisk
  | opticalDisk
  | floppyDisk
  | genericNetworkAdapter
  | other
deriving DecidableEq, Repr

/-- A device. `body` has the fields of its class that the merge looks at. -/
structure Device (κ : Type u) where
  index : Nat
  itemId : Nat
  disabled : Bool := false
  connected : Bool := true
  body : κ
  /-- History: the index and the item id of the stored device it came from. -/
  origin : Nat × Nat := (index, itemId)
deriving DecidableEq, Repr

structure BootDevice where
  type : DeviceType
  index : Nat
deriving DecidableEq, Repr

/-- `Boot::change`. The flags mark what is left of its copy of the boot list. -/
def change (type : DeviceType) (old new : Nat) :
    List (BootDevice × Bool) → List (BootDevice × Bool)
  | [] => []
  | (b, left) :: bs =>
      if left && decide (b.index = old) && decide (b.type = type) then
        ({ b with index := new }, false) :: bs
      else (b, left) :: change type old new bs

/-- The first element that is followed by a gap. -/
def adjacentFind : List Nat → Option Nat
  | a :: b :: l => if a + 1 < b then some a else adjacentFind (b :: l)
  | _ => none

/-- `Pool::getAvailable`, with the pool it leaves. -/
def getAvailable (pool : List Nat) : Nat × List Nat :=
  let output :=
    if pool.head? = some 0 then
      match adjacentFind pool with
      | some a => a + 1
      | none => pool.getLast?.getD 0 + 1
    else 0
  (output, (pool ++ [output]).mergeSort)

variable {κ : Type u}

/-- The loop of `Device::operator()`: the first stored device that matches, and was
not found before, gives its index and item id. -/
def assign (found : Device κ → Device κ → Bool) :
    List (Device κ) → List Nat → List (Device κ) → List (Device κ)
  | _, _, [] => []
  | devices, pool, h :: hs =>
      match devices.find? (found h) with
      | none =>
          { h with index := (getAvailable pool).1, itemId := (getAvailable pool).1 } ::
            assign found devices (getAvailable pool).2 hs
      | some it =>
          { h with index := it.index, itemId := it.itemId } ::
            assign found (devices.eraseP (found h)) pool hs

def sort (devices : List (Device κ)) : List (Device κ) :=
  devices.mergeSort fun a b => decide (a.index ≤ b.index)

/-- What the loop does to the boot list. -/
def redirect (type : DeviceType) (boot : List BootDevice) (before after : List (Device κ)) :
    List BootDevice :=
  (((before.zip after).foldl (fun bs p => change type p.1.index p.2.index bs)
    (boot.map fun b => (b, true))).map Prod.fst)

def assigned (found : Device κ → Device κ → Bool) (old new : List (Device κ)) :
    List (Device κ) :=
  assign found old ((old.map (·.index)).mergeSort) new

def getDeviceByIndex (devices : List (Device κ)) (i : Nat) : Option (Device κ) :=
  devices.find? fun d => decide (d.index = i)

/-- Every device of the target takes something from the one with its index. -/
def copyFrom (f : Device κ → Device κ → Device κ) (source target : List (Device κ)) :
    List (Device κ) :=
  target.map fun d =>
    match getDeviceByIndex source d.index with
    | none => d
    | some x => f d x

@[simp]
theorem copyFrom_id {source target : List (Device κ)} :
    copyFrom (fun d _ => d) source target = target := by
  unfold copyFrom
  refine (List.map_congr_left fun d _ => ?_).trans (List.map_id target)
  split <;> rfl

/-- Devices of the source whose index is not there are appended. -/
def addMissing (p : Device κ → Bool) (source target : List (Device κ)) : List (Device κ) :=
  source.foldl
    (fun target d =>
      if p d && (getDeviceByIndex target d.index).isNone then target ++ [d] else target) target

/-- How the devices of a class are merged: what counts as the same device, what is
copied by index, which stored devices are added, and what is copied after that. The
key is what no step changes. -/
structure Kind (κ : Type u) (δ : Type v) where
  type : DeviceType
  found : Device κ → Device κ → Bool
  copy : Device κ → Device κ → Device κ
  passes : List (Device κ → Bool)
  settle : Device κ → Device κ → Device κ
  key : κ → δ

def Kind.merge {δ : Type v} (k : Kind κ δ) (old new : List (Device κ)) : List (Device κ) :=
  copyFrom k.settle old
    (k.passes.foldl (fun target p => addMissing p old target)
      (copyFrom k.copy old (sort (assigned k.found old new))))

end DispService.Repair
