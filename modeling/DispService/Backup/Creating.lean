import DispService.Backup.Guarded
import DispService.Backup.Incremental
import Mathlib.Data.Finset.Image
import Mathlib.Data.Finset.Lattice.Fold
import Mathlib.Order.Lattice.Nat

/-! The creation of backups among other creations and removals: the folders and archives that each
makes, and what a failed creation deletes. -/
namespace DispService.Backup.Creating

open Lib
open Metadata (Held Locking Recorded Releases advance)
open Creation (BASE)

/-- What lies on disk for an item: its folder and its archives. -/
inductive Entry where
  | lair (item : String × Nat)
  | file (item : String × Nat)
deriving DecidableEq

def Entry.item : Entry → String × Nat
  | lair item => item
  | file item => item

/-- The folder of a VM. -/
structure Catalogue where
  /-- The metadata of the VM are there. -/
  showItem : Bool := false
  /-- The folders of sequences. -/
  sequences : Finset String := ∅
  entries : Finset Entry := ∅
  /-- The items that have metadata in their folders. -/
  items : Finset (String × Nat) := ∅
  lastNumber : String → Nat := fun _ => 0
  /-- The task that made an entry, which is stored nowhere. -/
  maker : Entry → Nat := fun _ => 0

namespace Catalogue

variable (c : Catalogue)

/-- `Sequence::getIndex`, as a set. -/
def getIndex (u : String) : Finset Nat :=
  ((c.items.filter fun x => x.1 = u).image Prod.snd) ∪
    if .lair (u, BASE) ∈ c.entries then {BASE} else ∅

def nextNumber (u : String) : Nat :=
  if c.getIndex u = ∅ then BASE else (c.getIndex u).sup id + 1

/-- The head of the sequence can be loaded. -/
def Headed (u : String) : Prop :=
  ∃ h ∈ c.getIndex u, (∀ n ∈ c.getIndex u, h ≤ n) ∧ (u, h) ∈ c.items

instance (u : String) : Decidable (c.Headed u) :=
  inferInstanceAs (Decidable (∃ h ∈ c.getIndex u, _))

/-- `Catalog::getIndexForRead`. -/
def getIndexForRead : Finset String :=
  if c.showItem then c.sequences else ∅

/-- The items for which the test holds are deleted with their entries. -/
def clear (gone : String × Nat → Bool) : Catalogue :=
  { c with
    entries := c.entries.filter fun e => ¬ gone e.item
    items := c.items.filter fun x => ¬ gone x }

def clearSequence (u : String) : Catalogue :=
  { c.clear fun x => x.1 = u with sequences := c.sequences.erase u }

def clearCatalog : Catalogue :=
  { c with showItem := false, sequences := ∅, entries := ∅, items := ∅ }

def make (e : Entry) (task : Nat) : Catalogue :=
  { c with entries := insert e c.entries, maker := Function.update c.maker e task }

end Catalogue

/-- How far a creation is. -/
inductive Stage where
  | chosen | checked | made | imaged | locked | saved
deriving DecidableEq, Repr

namespace Stage

def rank : Stage → Nat
  | chosen => 0
  | checked => 1
  | made => 2
  | imaged => 3
  | locked => 4
  | saved => 5

end Stage

/-- A backup that is being created, from the choice of its item on. -/
structure Draft where
  full : Bool
  uuid : String
  number : Nat
  stage : Stage
  failed : Bool
deriving DecidableEq

def Draft.item (x : Draft) : String × Nat :=
  (x.uuid, x.number)

/-- What the batch of a removal deletes. -/
inductive Batch where
  | catalog
  | sequence (u : String)
  | items (u : String) (l : Finset Nat)
deriving DecidableEq

structure Removal where
  batch : Batch
  /-- The sequences that are still to be locked, and those that are. -/
  pending : List String
  held : List String
  releasing : Bool
deriving DecidableEq

inductive Task where
  | idle
  | creation (x : Draft)
  | removal (x : Removal)
  | closed
deriving DecidableEq

/-- What comes of saving the metadata. -/
inductive Saved where
  | nothing
  /-- The metadata of the item, and neither those of the head nor those of the VM. -/
  | item
  | all
deriving DecidableEq

inductive Event where
  /-- A creation starts a new sequence, or continues its last base. -/
  | chooseFull (t : Nat) (createUuid : String)
  | chooseNext (t : Nat) (u : String)
  | check (t : Nat)
  | mkpath (t : Nat)
  | prepareImages (t : Nat)
  | grab (t : Nat)
  | saveMetadata (t : Nat) (x : Saved)
  | fail (t : Nat)
  /-- With what the deletion of a folder comes to that is not there. -/
  | finalize (t : Nat) (absent : Bool)
  | prepareRemoval (t : Nat) (u : String) (number : Nat) (keepChain : Bool)
  | prepareRemovalOfAll (t : Nat) (getIndexForWrite : List String)
  | lockNext (t : Nat)
  | delete (t : Nat)
  | release (t : Nat)
deriving DecidableEq

structure System where
  catalogue : Catalogue := {}
  locks : Locking Nat := Metadata.start
  task : Nat → Task := fun _ => .idle

namespace System

variable (s : System)

def setTask (t : Nat) (x : Task) : System :=
  { s with task := Function.update s.task t x }

def chooseFull (t : Nat) (u : String) : System :=
  if s.task t = .idle then s.setTask t (.creation ⟨true, u, BASE, .chosen, false⟩) else s

/-- The last base is in the index for writing, not locked, and has a head; the last number is
found. -/
def chooseNext (t : Nat) (u : String) : System :=
  let c := s.catalogue
  if s.task t = .idle ∧ u ∈ c.getIndexForRead ∧ u ∉ s.locks.1.m_exclusive ∧ c.Headed u ∧
      (c.lastNumber u ≠ 0 → c.nextNumber u = c.lastNumber u + 1) then
    s.setTask t (.creation ⟨false, u, c.nextNumber u, .chosen, false⟩)
  else s

def check (t : Nat) (x : Draft) : System :=
  if .lair x.item ∈ s.catalogue.entries then s.setTask t (.creation { x with failed := true })
  else s.setTask t (.creation { x with stage := .checked })

/-- A folder that is there already is taken as it is. -/
def mkpath (t : Nat) (x : Draft) : System :=
  let c := s.catalogue
  let c := if x.full then { c with sequences := insert x.uuid c.sequences } else c
  if x.uuid ∉ c.sequences then s.setTask t (.creation { x with failed := true })
  else
    { s.setTask t (.creation { x with stage := .made }) with
      catalogue := if .lair x.item ∈ c.entries then c else c.make (.lair x.item) t }

def prepareImages (t : Nat) (x : Draft) : System :=
  if x.uuid ∉ s.catalogue.sequences then s.setTask t (.creation { x with failed := true })
  else
    { s.setTask t (.creation { x with stage := .imaged }) with
      catalogue := s.catalogue.make (.file x.item) t }

def grab (t : Nat) (x : Draft) : System :=
  let r : Metadata.Request Nat := ⟨t, if x.full then .grabExclusive else .grabShared, x.uuid⟩
  { s.setTask t (.creation (if (s.locks.1.serve r).1.failed then { x with failed := true }
      else { x with stage := .locked })) with
    locks := advance s.locks r }

def saveMetadata (t : Nat) (x : Draft) (o : Saved) : System :=
  let c := s.catalogue
  let failed := s.setTask t (.creation { x with failed := true })
  if .lair x.item ∉ c.entries then failed
  else
    let c := { c with items := insert x.item c.items }
    match o with
    | .nothing => failed
    | .item => { failed with catalogue := c }
    | .all =>
        if x.full ∨ c.Headed x.uuid then
          { s.setTask t (.creation { x with stage := .saved }) with
            catalogue :=
              { c with
                showItem := true
                lastNumber := Function.update c.lastNumber x.uuid (if x.full then 0 else x.number) } }
        else { failed with catalogue := c }

/-- What a failed creation deletes. -/
def cleanup (c : Catalogue) (x : Draft) (absent : Bool) : Catalogue :=
  let c := if Stage.rank .imaged ≤ x.stage.rank then
    { c with entries := c.entries.erase (.file x.item) } else c
  let found := x.uuid ∈ c.sequences ∧ (.lair x.item ∈ c.entries ∨ absent)
  let c := { c with entries := c.entries.erase (.lair x.item), items := c.items.erase x.item }
  let c := if found ∧ c.getIndex x.uuid = ∅ then c.clearSequence x.uuid else c
  if c.getIndexForRead = ∅ then c.clearCatalog else c

/-- The lock is released before the rest. -/
def finalize (t : Nat) (x : Draft) (absent : Bool) : System :=
  let locks :=
    if Stage.rank .locked ≤ x.stage.rank then
      advance s.locks ⟨t, if x.full then .releaseExclusive else .releaseShared, x.uuid⟩
    else s.locks
  if x.failed then
    { s.setTask t .closed with locks := locks, catalogue := cleanup s.catalogue x absent }
  else if x.stage = .saved then { s.setTask t .closed with locks := locks }
  else s

def prepareRemoval (t : Nat) (u : String) (number : Nat) (keepChain : Bool) : System :=
  let c := s.catalogue
  let i := c.getIndex u
  if s.task t ≠ .idle then s
  else if u ∉ c.getIndexForRead ∨ u ∈ s.locks.1.m_exclusive then s.setTask t .closed
  else if i.card = 1 ∧ c.getIndexForRead.card = 1 then
    s.setTask t (.removal ⟨.catalog, [u], [], false⟩)
  else if keepChain then
    if number ∈ i then s.setTask t (.removal ⟨.items u {number}, [u], [], false⟩)
    else s.setTask t .closed
  else if number ∈ i ∧ ∃ n ∈ i, n < number then
    s.setTask t (.removal ⟨.items u (i.filter (number ≤ ·)), [u], [], false⟩)
  else s.setTask t (.removal ⟨.sequence u, [u], [], false⟩)

def prepareRemovalOfAll (t : Nat) (us : List String) : System :=
  if s.task t ≠ .idle then s
  else if us = [] ∨ ∃ u ∈ us, u ∉ s.catalogue.getIndexForRead then s.setTask t .closed
  else s.setTask t (.removal ⟨.catalog, us, [], false⟩)

def lockNext (t : Nat) (x : Removal) : System :=
  match x.pending with
  | [] => s
  | u :: rest =>
      { s.setTask t (.removal (if (s.locks.1.grabExclusive u).1.failed then
          { x with releasing := true } else { x with pending := rest, held := x.held ++ [u] })) with
        locks := advance s.locks ⟨t, .grabExclusive, u⟩ }

def Batch.perform (c : Catalogue) : Batch → Catalogue
  | .catalog => c.clearCatalog
  | .sequence u => c.clearSequence u
  | .items u l => c.clear fun x => x.1 = u ∧ x.2 ∈ l

def delete (t : Nat) (x : Removal) : System :=
  { s.setTask t (.removal { x with releasing := true }) with
    catalogue := Batch.perform s.catalogue x.batch }

def release (t : Nat) (x : Removal) : System :=
  match x.held with
  | [] => s.setTask t .closed
  | u :: rest =>
      { s.setTask t (.removal { x with held := rest }) with
        locks := advance s.locks ⟨t, .releaseExclusive, u⟩ }

/-- A step of a creation that has not failed, from the stage before it. -/
def work (t : Nat) (stage : Stage) (f : Draft → System) : System :=
  match s.task t with
  | .creation x => if x.failed = false ∧ x.stage = stage then f x else s
  | _ => s

/-- Events that the task does not have there change nothing. -/
def step : Event → System
  | .chooseFull t u => s.chooseFull t u
  | .chooseNext t u => s.chooseNext t u
  | .check t => s.work t .chosen (s.check t)
  | .mkpath t => s.work t .checked (s.mkpath t)
  | .prepareImages t => s.work t .made (s.prepareImages t)
  | .grab t => s.work t .imaged (s.grab t)
  | .saveMetadata t o => s.work t .locked fun x => s.saveMetadata t x o
  | .fail t =>
      match s.task t with
      | .creation x =>
          if x.stage = .saved then s else s.setTask t (.creation { x with failed := true })
      | _ => s
  | .finalize t absent =>
      match s.task t with
      | .creation x => s.finalize t x absent
      | _ => s
  | .prepareRemoval t u number keepChain => s.prepareRemoval t u number keepChain
  | .prepareRemovalOfAll t us => s.prepareRemovalOfAll t us
  | .lockNext t =>
      match s.task t with
      | .removal x => if x.releasing then s else s.lockNext t x
      | _ => s
  | .delete t =>
      match s.task t with
      | .removal x => if x.releasing = false ∧ x.pending = [] then s.delete t x else s
      | _ => s
  | .release t =>
      match s.task t with
      | .removal x => if x.releasing then s.release t x else s
      | _ => s

end System

end DispService.Backup.Creating
