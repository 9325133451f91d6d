import DispService.Lib.FileSystem
import DispService.PrlResult

/-! The moves that put a restored folder or file in the place of an old one, and the
assembly that owns them. -/
namespace DispService.Restore

open DispService.Lib FileSystem

/-- The calls a move makes in its life, each at most once. -/
inductive Site where
  /-- The constructor: the removal of an old `.restore` and the renaming to it. -/
  | asideUnlink | aside
  | do_
  /-- `commit` from the destructor of the assembly. -/
  | commit
  | revertUnlink | revertRename
  /-- The destructor of a move that is done: its own `commit`, and the last removal. -/
  | destroyCommit | destroyTrash
  /-- The destructor of a move that is not done. -/
  | dropUnlink | dropRename
deriving DecidableEq

/-- What the pointer `m_trash` points to. -/
inductive Trash where
  | null | m_from | m_to | m_revert
deriving DecidableEq

/-- A move; `may` says which of its calls the system carries out. -/
structure Move where
  m_from : String
  m_to : String
  m_revert : String
  m_trash : Trash
  may : Site → Bool

section Calls

variable (below : String → String → Bool)

namespace Move

def new (fs : Fs) (from_ to_ : String) (may : Site → Bool) : Move × Fs :=
  if from_ = "" then (⟨from_, to_, "", .m_from, may⟩, fs)
  else
    let m_revert := to_ ++ ".restore"
    let fs := (unlink below (may .asideUnlink) fs m_revert).2
    let fs := (rename below (may .aside) fs to_ m_revert).2
    (⟨from_, to_, m_revert, .m_from, may⟩, fs)

def done (m : Move) : Bool :=
  m.m_trash != .m_from

/-- `*m_trash`. -/
def trash (m : Move) : String :=
  match m.m_trash with
  | .null => ""
  | .m_from => m.m_from
  | .m_to => m.m_to
  | .m_revert => m.m_revert

def do_ (m : Move) (fs : Fs) : Bool × Move × Fs :=
  if m.done then (true, m, fs)
  else if m.m_from = "" then (true, { m with m_trash := .m_to }, fs)
  else
    match rename below (m.may .do_) fs m.m_from m.m_to with
    | (true, fs) => (true, { m with m_trash := .m_revert }, fs)
    | (false, fs) => (false, m, fs)

def commit (site : Site) (m : Move) (fs : Fs) : Bool × Move × Fs :=
  if !m.done then (false, m, fs)
  else if m.m_from = "" then (true, { m with m_trash := .null }, fs)
  else if m.m_revert = "" then (false, m, fs)
  else
    match unlink below (m.may site) fs m.m_revert with
    | (true, fs) => (true, { m with m_revert := "", m_trash := .null }, fs)
    | (false, fs) => (false, m, fs)

def revert (m : Move) (fs : Fs) : Bool × Move × Fs :=
  if !m.done then (false, m, fs)
  else if m.m_from = "" then
    if m.m_trash = .null then (false, m, fs)
    else
      match unlink below (m.may .revertUnlink) fs m.trash with
      | (true, fs) => (true, { m with m_trash := .null }, fs)
      | (false, fs) => (false, m, fs)
  else if m.m_revert = "" then (false, m, fs)
  else
    match unlink below (m.may .revertUnlink) fs m.m_to with
    | (false, fs) => (false, m, fs)
    | (true, fs) =>
        match rename below (m.may .revertRename) fs m.m_revert m.m_to with
        | (true, fs) => (true, { m with m_revert := "", m_trash := .null }, fs)
        | (false, fs) => (false, m, fs)

/-- The destructor. -/
def destroy (m : Move) (fs : Fs) : Fs :=
  if m.m_trash = .null then fs
  else if !m.done then
    if m.m_from = "" then (unlink below (m.may .dropUnlink) fs m.m_to).2
    else
      let fs := (unlink below (m.may .dropUnlink) fs m.m_from).2
      if m.m_revert != "" then (rename below (m.may .dropRename) fs m.m_revert m.m_to).2 else fs
  else
    match m.commit below .destroyCommit fs with
    | (true, _, fs) => fs
    | (false, m, fs) => (unlink below (m.may .destroyTrash) fs m.trash).2

end Move

/-- The absolute path of a file and of the folder it is in. -/
structure QFileInfo where
  absoluteFilePath : String
  absolutePath : String

structure Assembly where
  m_pending : List Move := []
  m_ready : List Move := []
  m_trash : List String := []
  /-- The removal of the trash; `false` when `adopt` has taken it away. -/
  m_trashPolicy : Bool := true

namespace Assembly

def addExternal (a : Assembly) (fs : Fs) (src_ : QFileInfo) (dst_ : String) (may : Site → Bool) :
    Assembly × Fs :=
  -- the folder of the destination is made: nothing at the paths that matter
  let m := Move.new below fs src_.absoluteFilePath dst_ may
  ({ a with
    m_trash := a.m_trash ++ [src_.absolutePath]
    m_pending := a.m_pending ++ [m.1] }, m.2)

def addEssential (a : Assembly) (fs : Fs) (src_ dst_ : String) (may : Site → Bool) :
    Assembly × Fs :=
  let x := if src_ = dst_ then "" else src_
  let m := Move.new below fs x dst_ may
  ({ a with m_pending := a.m_pending ++ [m.1] }, m.2)

/-- The loop of `do_` over the pending moves. -/
def doLoop : List Move → List Move → Fs → PrlResult × List Move × List Move × Fs
  | [], ready, fs => (.success, [], ready, fs)
  | m :: pending, ready, fs =>
      match m.do_ below fs with
      | (false, m, fs) => (.backupRestoreInternalError, m :: pending, ready, fs)
      | (true, m, fs) => doLoop pending (ready ++ [m]) fs

def do_ (a : Assembly) (fs : Fs) : PrlResult × Assembly × Fs :=
  let r := doLoop below a.m_pending a.m_ready fs
  (r.1, { a with m_pending := r.2.1, m_ready := r.2.2.1 }, r.2.2.2)

def revert (a : Assembly) (fs : Fs) : Assembly × Fs :=
  let fs := a.m_ready.foldl (fun fs m =>
    let r := m.revert below fs
    r.2.1.destroy below r.2.2) fs
  let fs := a.m_pending.foldl (fun fs m => m.destroy below fs) fs
  ({ a with m_ready := [], m_pending := [] }, fs)

/-- The destructor; `mayTrash` says which of the folders in the trash can be removed. -/
def destroy (mayTrash : String → Bool) (a : Assembly) (fs : Fs) : Fs :=
  let fs :=
    if a.m_pending = [] then
      a.m_ready.foldl (fun fs m =>
        let r := m.commit below .commit fs
        r.2.1.destroy below r.2.2) fs
    else (a.revert below fs).2
  if a.m_trashPolicy then
    a.m_trash.foldl (fun fs x => (unlink below (mayTrash x) fs x).2) fs
  else fs

end Assembly

end Calls

end DispService.Restore
