import DispService.Instrument.Batch
import DispService.Lib.Run

/-! The storage of templates: its entries, the operations that are logged on it, and the batch
that carries them out with a sandbox. -/
namespace DispService.Template

open Instrument

universe u

variable {γ : Type u}

/-- A folder of the sandbox: its prefix, and the stage of the operation it is for. -/
inductive Slot where
  | b (stage : Nat)
  | w (stage : Nat)
deriving DecidableEq

/-- The entries of a catalog with their contents, and the folders in its sandbox. -/
structure Store (γ : Type u) where
  entries : String → Option γ
  sandbox : Slot → Option γ

/-- The names that are folders of the catalog without being entries. -/
def reserved (name : String) : Bool :=
  name = "" || name = "." || name = ".." || name = "sandbox"

namespace Store

variable (s : Store γ)

def exists_ (name : String) : Bool :=
  reserved name || (s.entries name).isSome

def setEntry (name : String) (x : Option γ) : Store γ :=
  { s with entries := fun n => if n = name then x else s.entries n }

def setSlot (k : Slot) (x : Option γ) : Store γ :=
  { s with sandbox := fun j => if j = k then x else s.sandbox j }

/-- `Sandbox::draw`. A folder is not renamed to one that is there already. -/
def draw (rename : Bool) (name : String) (k : Slot) : PrlResult × Store γ :=
  match s.entries name, s.sandbox k with
  | some x, none =>
      if rename && !reserved name then (.success, (s.setEntry name none).setSlot k (some x))
      else (.cantRenameEntry, s)
  | _, _ => (.cantRenameEntry, s)

/-- `Sandbox::push` -/
def push (rename : Bool) (name : String) (k : Slot) : PrlResult × Store γ :=
  match s.sandbox k with
  | some x =>
      if rename && !s.exists_ name then
        (.success, (s.setEntry name (some x)).setSlot k none)
      else (.cantRenameEntry, s)
  | none => (.cantRenameEntry, s)

end Store

/-- What is to be done for an entry, with the result of the callback and what it has left
where it was to put the content. -/
inductive Work (γ : Type u) where
  | import_ (m_content : PrlResult) (made : Option γ)
  | export_ (m_content : PrlResult)
  | unlink

/-- An operation on an entry, with the answers to its calls when it is carried out. -/
structure Operation (γ : Type u) where
  m_name : String
  work : Work γ
  getLock : Bool
  rename : Bool

namespace Operation

variable (o : Operation γ) (m_stage : Nat)

def unlinkDo (s : Store γ) : PrlResult × Store γ :=
  if !o.getLock then (.failure, s)
  else if !s.exists_ o.m_name then (.success, s)
  else s.draw o.rename o.m_name (.b m_stage)

/-- The undo steps do not fail by themselves. -/
def unlinkUndo (s : Store γ) : Store γ :=
  match s.sandbox (.b m_stage) with
  | none => s
  | some _ => (s.push true o.m_name (.b m_stage)).2

def importDo (m_content : PrlResult) (made : Option γ) (s : Store γ) : PrlResult × Store γ :=
  let s := s.setSlot (.w m_stage) made
  if m_content.failed then (m_content, s)
  else if !o.getLock then (.failure, s)
  else s.push o.rename o.m_name (.w m_stage)

def importUndo (s : Store γ) : Store γ :=
  s.setSlot (.w m_stage) none

def step : Step (Store γ) :=
  match o.work with
  | .import_ m_content made =>
      ⟨o.importDo m_stage m_content made, some (importUndo m_stage)⟩
  | .export_ m_content => ⟨fun s => (m_content, s), none⟩
  | .unlink => ⟨o.unlinkDo m_stage, some (o.unlinkUndo m_stage)⟩

/-- The folder that the destructor of the operation clears. -/
def slot : Option Slot :=
  match o.work with
  | .import_ _ _ => some (.w m_stage)
  | .export_ _ => none
  | .unlink => some (.b m_stage)

/-- `Batch::Mode::Both::add` with what has to be writable. -/
def isBoth : Bool :=
  match o.work with
  | .import_ _ _ => true
  | .export_ _ => false
  | .unlink => true

end Operation

/-- A batch with the operations in the order in which they were logged. -/
inductive Mode (γ : Type u) where
  | blank
  | read (m_log : List (Operation γ))
  | both (m_log : List (Operation γ))

/-- The operations with their stages. -/
def steps : Nat → List (Operation γ) → Batch (Store γ)
  | _, [] => []
  | k, o :: rest => o.step k :: steps (k + 1) rest

/-- The folders of the operations, with their stages. -/
def slots : Nat → List (Operation γ) → List Slot
  | _, [] => []
  | k, o :: rest => (o.slot k).toList ++ slots (k + 1) rest

structure Catalog (γ : Type u) where
  store : Store γ
  m_batch : Mode γ

/-- A request to log an operation, with the answers to its calls. -/
structure Request (γ : Type u) where
  operation : Operation γ
  getSlow : Bool
  unlink : PrlResult
  mkdir : PrlResult
  clear : PrlResult

namespace Catalog

variable (c : Catalog γ)

/-- The sandbox is made anew. -/
def prepare (r : Request γ) : PrlResult × Store γ :=
  if r.unlink.failed then (r.unlink, c.store)
  else
    let s := { c.store with sandbox := fun _ => none }
    if r.mkdir.failed then (r.mkdir, s) else (.success, s)

/-- `Both::add`: a folder of the sandbox is cleared for the operation. -/
def add (r : Request γ) (s : Store γ) (m_log : List (Operation γ)) : PrlResult × Catalog γ :=
  match r.operation.slot m_log.length with
  | none => (.success, ⟨s, .both (m_log ++ [r.operation])⟩)
  | some k =>
      if r.clear.failed then (r.clear, ⟨s, c.m_batch⟩)
      else (.success, ⟨s.setSlot k none, .both (m_log ++ [r.operation])⟩)

def log (r : Request γ) : PrlResult × Catalog γ :=
  match c.m_batch, r.operation.isBoth with
  | .blank, true =>
      if !r.getSlow then (.failure, c)
      else
        let e := c.prepare r
        if e.1.failed then (e.1, { c with store := e.2 }) else c.add r e.2 []
  | .blank, false =>
      if !r.getSlow then (.failure, c)
      else (.success, { c with m_batch := .read [r.operation] })
  | .read _, true => (.invalidHandle, c)
  | .read m_log, false => (.success, { c with m_batch := .read (m_log ++ [r.operation]) })
  | .both m_log, _ => c.add r c.store m_log

/-- The destructors of the operations. -/
def destroy (m_log : List (Operation γ)) (s : Store γ) : Store γ :=
  { s with sandbox := fun k => if k ∈ slots 0 m_log then none else s.sandbox k }

def commit : PrlResult × Catalog γ :=
  match c.m_batch with
  | .blank => (.uninitialized, c)
  | .read m_log =>
      let e := Batch.execute (steps 0 m_log) c.store
      (e.1, ⟨e.2, .read []⟩)
  | .both m_log =>
      let e := Batch.execute (steps 0 m_log) c.store
      (e.1, ⟨destroy m_log e.2, .both []⟩)

end Catalog

/-- What is called on a catalog. -/
inductive Event (γ : Type u) where
  | log (r : Request γ)
  | commit

def next (e : Event γ) (c : Catalog γ) : Catalog γ :=
  match e with
  | .log r => (c.log r).2
  | .commit => c.commit.2

/-- The catalog after the calls. -/
def calls (l : List (Event γ)) (c : Catalog γ) : Catalog γ :=
  l.foldl (fun c e => next e c) c

end DispService.Template
