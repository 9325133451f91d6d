import DispService.Edit.Shots
import DispService.Exclusive.Sole
import DispService.VmConfig.Saved
import Mathlib.Logic.Function.Basic

/-! Edits that the service makes itself: `Unlocked` loads the configuration of a VM, lets an action
edit it and saves it; `Atomic` does so under an exclusive operation. -/
namespace DispService.Edit

open Exclusive (OpHash Operation)

universe u

variable {κ : Type u}

structure Actor where
  vmDirectoryUuid : String
  session : Exclusive.Handle

/-- The item of the VM directory. The configuration of a container comes from elsewhere. -/
inductive DirectoryItem (κ : Type u) where
  | vm (vmHome : String)
  | container (config : Option κ)

/-- What the edits have to do with. -/
structure Service (κ : Type u) where
  dispatcher : MergeHelper κ := {}
  configs : String → VmConfig.Store κ
  operations : OpHash := ∅

/-- An edit, and what it meets. The action edits its argument in place and may fail. -/
structure Edit (κ : Type u) where
  m_uuid : String
  m_actor : Option Actor
  item : Option (DirectoryItem κ)
  action : κ → κ × Option PrlResult
  outcomes : VmConfig.Outcomes := {}
  begun : Nat := 0
  committed : Nat := 0

/-- The operations that others do while an edit is in its gang. They spare its registration. -/
structure Others (key : String) where
  operations : List Operation
  spares : ∀ operation ∈ operations, operation.Spares key .ctlApplyVmConfig

/-- The shot is the object itself, so it follows what is done to it. -/
def MergeHelper.followShot (s : MergeHelper κ) (llShotId : Nat) (conf : κ) : MergeHelper κ :=
  { s with m_hashIdToShot := s.m_hashIdToShot.replace llShotId conf }

def handle (d m_uuid : String) : String := d ++ "-" ++ m_uuid

section

-- `isConfigCacheEnabled`, and the home path in a configuration
variable (enabled : Bool) (homePath : κ → String)

def getVmConfigByUuid (item : Option (DirectoryItem κ)) (configs : String → VmConfig.Store κ) :
    (PrlResult × Option κ) × (String → VmConfig.Store κ) :=
  match item with
  | none => ((.vmUuidNotFound, none), configs)
  | some (.container none) => ((.parseVmConfig, none), configs)
  | some (.container (some x)) => ((.success, some x), configs)
  | some (.vm vmHome) =>
      let r := (configs vmHome).load enabled false
      let configs := Function.update configs vmHome r.2
      if r.1.1.failed then ((.parseVmConfig, none), configs) else ((.success, r.1.2), configs)

def Unlocked (edit : Edit κ) (s : Service κ) : PrlResult × Service κ :=
  match edit.m_actor with
  | none => (.invalidArg, s)
  | some actor =>
      let d := actor.vmDirectoryUuid
      let loaded := getVmConfigByUuid enabled edit.item s.configs
      let s := { s with configs := loaded.2 }
      match loaded.1.2 with
      | none => (if loaded.1.1.failed then loaded.1.1 else .fileNotFound, s)
      | some x =>
          let f := handle d edit.m_uuid
          let m := s.dispatcher.registerBeginEdit edit.begun edit.m_uuid f x
          let r := edit.action x
          let m := m.followShot s.dispatcher.nextId r.1
          match r.2 with
          | some error => (error, { s with dispatcher := m.cleanupBeginEditMark d f })
          | none =>
              let saved := (s.configs (homePath r.1)).save enabled r.1 edit.outcomes
              let s := { s with
                dispatcher := m
                configs := Function.update s.configs (homePath r.1) saved.2 }
              if saved.1.failed then (saved.1, s)
              else (.success,
                { s with dispatcher := m.registerCommit edit.committed edit.m_uuid f })

/-- The pass of `registerOp` that ends the wait; `none` is a pass that does not. -/
def Atomic (visit : Exclusive.Visit Exclusive.Native) (expired : Bool) (edit : Edit κ)
    (others : ∀ key, Others key) (s : Service κ) : Option (PrlResult × Service κ) :=
  match edit.m_actor with
  | none => some (.invalidArg, s)
  | some actor =>
      let d := actor.vmDirectoryUuid
      match Exclusive.registerOp s.operations visit edit.m_uuid d .ctlApplyVmConfig actor.session
        "" expired with
      | (.again, _) => none
      | (.returned output, operations) =>
          let s := { s with operations }
          if output.failed then some (output, s)
          else
            let r := Unlocked enabled homePath edit s
            let during := (others (Exclusive.makeKey edit.m_uuid d)).operations.foldl
              Operation.apply r.2.operations
            some (r.1, { r.2 with
              operations := (Exclusive.unregisterOp during edit.m_uuid d .ctlApplyVmConfig
                actor.session).2 })

/-- The configuration is loaded, so that the edit marks its beginning. -/
def Begins (edit : Edit κ) (s : Service κ) : Prop :=
  ∃ x, (getVmConfigByUuid enabled edit.item s.configs).1.2 = some x

end

/-- What an edit leaves of its handle was there before and is not its own, the marks of the others
are untouched, and the files change only when it succeeds. -/
structure Clean (edit : Edit κ) (f : String) (begins : Prop) (before : Service κ)
    (r : PrlResult × Service κ) : Prop where
  marks : ∀ o, r.2.dispatcher.mark o f ≠ none →
    r.2.dispatcher.mark o f = before.dispatcher.mark o f ∧ ¬ (o = edit.m_uuid ∧ begins)
  shots : ∀ k, r.2.dispatcher.Stored k → before.dispatcher.Stored k
  others : ∀ o u, u ≠ f → r.2.dispatcher.mark o u = before.dispatcher.mark o u
  files : r.1 ≠ .success → ∀ path,
    (r.2.configs path).main = (before.configs path).main ∧
      (r.2.configs path).backup = (before.configs path).backup

/-- Without an actor there is no handle, and nothing happens. -/
def LeavesNothing (edit : Edit κ) (begins : Prop) (before : Service κ)
    (r : PrlResult × Service κ) : Prop :=
  match edit.m_actor with
  | none => r.2 = before
  | some actor => Clean edit (handle actor.vmDirectoryUuid edit.m_uuid) begins before r

/-- The exclusive operation is registered. -/
def LetIn (visit : Exclusive.Visit Exclusive.Native) (expired : Bool) (edit : Edit κ)
    (s : Service κ) : Prop :=
  ∃ actor, edit.m_actor = some actor ∧
    (Exclusive.registerOp s.operations visit edit.m_uuid actor.vmDirectoryUuid .ctlApplyVmConfig
      actor.session "" expired).1 = .returned .success

/-- Of what is registered when the edit ends, just its own registration is gone; if it was not let
in, nothing has changed. -/
def Released (visit : Exclusive.Visit Exclusive.Native) (expired : Bool) (edit : Edit κ)
    (others : ∀ key, Others key) (before after : Service κ) : Prop :=
  ∀ actor, edit.m_actor = some actor →
    let d := actor.vmDirectoryUuid
    let key := Exclusive.makeKey edit.m_uuid d
    let registered := Exclusive.registerOp before.operations visit edit.m_uuid d
      .ctlApplyVmConfig actor.session "" expired
    if registered.1 = .returned .success then
      let during := (others key).operations.foldl Operation.apply registered.2
      let own : Exclusive.Unit := ⟨"", actor.session, .ctlApplyVmConfig⟩
      own ∈ Exclusive.registrations during key ∧
        ∀ key', Exclusive.registrations after.operations key' =
          if key' = key then (Exclusive.registrations during key').erase own
          else Exclusive.registrations during key'
    else after.operations = before.operations

/-- An action fails only where the VM has the uuid of its directory, and a save is written. -/
def Fit (enabled : Bool) (homePath : κ → String) (edit : Edit κ) (s : Service κ) : Prop :=
  ∀ actor x, edit.m_actor = some actor →
    (getVmConfigByUuid enabled edit.item s.configs).1.2 = some x →
    match (edit.action x).2 with
    | some _ => actor.vmDirectoryUuid = edit.m_uuid
    | none => VmConfig.Written edit.outcomes (s.configs (homePath (edit.action x).1)).main

end DispService.Edit
