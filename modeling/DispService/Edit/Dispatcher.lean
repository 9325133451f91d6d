import DispService.Lib.Table
import DispService.Lib.Run
import DispService.PrlResult
import Mathlib.Algebra.Order.Ring.Nat

/-! Simultaneous editing of configurations: who began to edit what and when, when it was
committed last, and the configuration each editor has seen. -/
namespace DispService.Edit

open Lib

universe u

structure BeginEditInfo where
  tsBeginEditTimeStamp : Nat
  llObjectShotId : Nat

structure EditCommitInfo where
  tsCommitTimeStamp : Nat := 0
  m_hashBeginEditByUser : AList (fun _ : String => BeginEditInfo) := ∅

/-- `CMultiEditMergeHelper` with its base class. -/
structure MergeHelper (κ : Type u) where
  m_hashCommitsByObject : AList (fun _ : String => EditCommitInfo) := ∅
  m_llCounter : Nat := 1
  m_hashIdToShot : AList (fun _ : Nat => κ) := ∅

namespace MergeHelper

variable {κ : Type u} (s : MergeHelper κ)

def removeObjectShot (key : Nat) : MergeHelper κ :=
  { s with m_hashIdToShot := s.m_hashIdToShot.erase key }

def removeShotOf (mark : Option BeginEditInfo) : MergeHelper κ :=
  match mark with
  | some info => s.removeObjectShot info.llObjectShotId
  | none => s

/-- The record of an object, made when it is not there. -/
def recordOf (objectUuid : String) : EditCommitInfo :=
  (s.m_hashCommitsByObject.lookup objectUuid).getD {}

/-- `CMultiEditDispatcher::registerBeginEdit`. -/
def markBeginEdit (now : Nat) (objectUuid userUuid : String) (llObjectShotId : Nat) :
    MergeHelper κ :=
  let info := s.recordOf objectUuid
  let s' := s.removeShotOf (info.m_hashBeginEditByUser.lookup userUuid)
  let info' := { info with
    m_hashBeginEditByUser := info.m_hashBeginEditByUser.insert userUuid ⟨now, llObjectShotId⟩ }
  { s' with m_hashCommitsByObject := s'.m_hashCommitsByObject.insert objectUuid info' }

/-- The next shot id, of 64 bits. -/
def nextId : Nat :=
  (s.m_llCounter + 1) % 2 ^ 64

def registerBeginEdit (now : Nat) (objectUuid userUuid : String) (pPrevConf : κ) :
    MergeHelper κ :=
  markBeginEdit
    { s with
      m_llCounter := s.nextId
      m_hashIdToShot := s.m_hashIdToShot.insert s.nextId pPrevConf }
    now objectUuid userUuid s.nextId

def configWasChanged (objectUuid userUuid : String) : Bool × PrlResult :=
  match s.m_hashCommitsByObject.lookup objectUuid with
  | none => (true, .configBeginEditNotFoundObjectUuid)
  | some info =>
      match info.m_hashBeginEditByUser.lookup userUuid with
      | none => (true, .configBeginEditNotFoundUserUuid)
      | some mark => (decide (info.tsCommitTimeStamp ≥ mark.tsBeginEditTimeStamp), .success)

def cleanupBeginEditMark (objectUuid userUuid : String) : MergeHelper κ :=
  match s.m_hashCommitsByObject.lookup objectUuid with
  | none => s
  | some info =>
      match info.m_hashBeginEditByUser.lookup userUuid with
      | none => s
      | some mark =>
          let info' := { info with
            m_hashBeginEditByUser := info.m_hashBeginEditByUser.erase userUuid }
          removeObjectShot
            { s with m_hashCommitsByObject := s.m_hashCommitsByObject.insert objectUuid info' }
            mark.llObjectShotId

/-- The record of an object that nobody edits is dropped. -/
def dropIfUnused (objectUuid : String) : MergeHelper κ :=
  match s.m_hashCommitsByObject.lookup objectUuid with
  | none => s
  | some info =>
      if info.m_hashBeginEditByUser.entries.isEmpty then
        { s with m_hashCommitsByObject := s.m_hashCommitsByObject.erase objectUuid }
      else s

def registerCommit (now : Nat) (objectUuid userUuid : String) : MergeHelper κ :=
  match s.m_hashCommitsByObject.lookup objectUuid with
  | none => s
  | some info =>
      let info' := { info with tsCommitTimeStamp := now }
      let s' := { s with
        m_hashCommitsByObject := s.m_hashCommitsByObject.insert objectUuid info' }
      (s'.cleanupBeginEditMark objectUuid userUuid).dropIfUnused objectUuid

/-- What the loop of `cleanupAllBeginEditMarksByAccessToken` makes of a record. -/
def withoutUser (userUuid : String) (_ : String) (info : EditCommitInfo) : Option EditCommitInfo :=
  if (info.m_hashBeginEditByUser.erase userUuid).entries.isEmpty then none
  else some { info with m_hashBeginEditByUser := info.m_hashBeginEditByUser.erase userUuid }

def cleanupAllBeginEditMarksByAccessToken (sUserAccessToken : String) : MergeHelper κ :=
  let s' := s.m_hashCommitsByObject.entries.foldl
    (fun s x => s.removeShotOf (x.2.m_hashBeginEditByUser.lookup sUserAccessToken)) s
  { s' with m_hashCommitsByObject :=
      Hash.walk (withoutUser sUserAccessToken) s.m_hashCommitsByObject }

def getShotId (objectUuid userUuid : String) : Nat :=
  match (s.recordOf objectUuid).m_hashBeginEditByUser.lookup userUuid with
  | none => 0
  | some mark => mark.llObjectShotId

/-- The configuration that `tryToMerge` merges with, unless it gives up. -/
def prevConf (objectUuid userUuid : String) : Option κ :=
  if s.getShotId objectUuid userUuid = 0 then none
  else s.m_hashIdToShot.lookup (s.getShotId objectUuid userUuid)

end MergeHelper

inductive Request (κ : Type u) where
  | registerBeginEdit (objectUuid userUuid : String) (pPrevConf : κ)
  | configWasChanged (objectUuid userUuid : String)
  | registerCommit (objectUuid userUuid : String)
  | cleanupBeginEditMark (objectUuid userUuid : String)
  | cleanupAllBeginEditMarksByAccessToken (sUserAccessToken : String)

/-- A request, and what `PrlGetTickCount64` says then. -/
structure Event (κ : Type u) where
  now : Nat
  request : Request κ

def MergeHelper.serve {κ : Type u} (s : MergeHelper κ) (e : Event κ) : MergeHelper κ :=
  match e.request with
  | .registerBeginEdit o u conf => s.registerBeginEdit e.now o u conf
  | .configWasChanged _ _ => s
  | .registerCommit o u => s.registerCommit e.now o u
  | .cleanupBeginEditMark o u => s.cleanupBeginEditMark o u
  | .cleanupAllBeginEditMarksByAccessToken u => s.cleanupAllBeginEditMarksByAccessToken u

/-- What has happened: when each user last began to edit, when each object was last
committed, and whether that was by another user since. -/
structure History where
  clock : Nat := 0
  begins : Nat := 0
  begun : String → String → Nat := fun _ _ => 0
  committed : String → Nat := fun _ => 0
  overtaken : String → String → Bool := fun _ _ => false

def History.record {κ : Type u} (h : History) (e : Event κ) : History :=
  match e.request with
  | .registerBeginEdit o u _ =>
      { h with
        clock := e.now
        begins := h.begins + 1
        begun := fun o' u' => if o' = o ∧ u' = u then e.now else h.begun o' u'
        overtaken := fun o' u' => if o' = o ∧ u' = u then false else h.overtaken o' u' }
  | .registerCommit o u =>
      { h with
        clock := e.now
        committed := fun o' => if o' = o then e.now else h.committed o'
        overtaken := fun o' u' => if o' = o ∧ u' ≠ u then true else h.overtaken o' u' }
  | _ => { h with clock := e.now }

abbrev Editing (κ : Type u) := MergeHelper κ × History

def advance {κ : Type u} (s : Editing κ) (e : Event κ) : Editing κ :=
  (s.1.serve e, s.2.record e)

/-- The clock may stand still, and does not go back. -/
def Clocked {κ : Type u} (s : Editing κ) (e : Event κ) : Prop :=
  s.2.clock ≤ e.now

def start {κ : Type u} : Editing κ := ({}, {})

/-- The mark of a user on an object. -/
def MergeHelper.mark {κ : Type u} (s : MergeHelper κ) (o u : String) : Option BeginEditInfo :=
  (s.m_hashCommitsByObject.lookup o).bind fun info => info.m_hashBeginEditByUser.lookup u

/-- Who has a mark learns of another's commit, and of none when there was none since and
the clock advanced between the last one and the mark. -/
structure Noticed {κ : Type u} (s : Editing κ) : Prop where
  lost : ∀ o u, s.1.mark o u ≠ none → s.2.overtaken o u = true →
    (s.1.configWasChanged o u).1 = true
  unchanged : ∀ o u, s.1.mark o u ≠ none → s.2.committed o < s.2.begun o u →
    s.1.configWasChanged o u = (false, .success)

/-- The shots are those of the marks, one each. -/
structure Shots {κ : Type u} (s : MergeHelper κ) : Prop where
  stored : ∀ k, s.m_hashIdToShot.lookup k ≠ none ↔
    ∃ o u b, s.mark o u = some b ∧ b.llObjectShotId = k
  one : ∀ o u b o' u' b', s.mark o u = some b → s.mark o' u' = some b' →
    b.llObjectShotId = b'.llObjectShotId → o = o' ∧ u = u'

end DispService.Edit
