import DispService.Lib.Nested
import DispService.Lib.Run
import DispService.PrlResult

/-! The table of locked snapshots. Both functions work under one mutex, so each
call is one step. -/
namespace DispService.SnapshotStore

open DispService.Lib Nested

/-- The uuids of the VM and of its directory. -/
abbrev VmIdent := String × String

abbrev SnapHash := Finmap fun _ : String => PrlResult

abbrev LockedSnap := Nested VmIdent String PrlResult

/-- What a request meets outside the table: the item of the VM in its directory and
the guids in the snapshot tree, if its file could be parsed. -/
structure Found where
  vmDirItem : Bool
  pTree : Option (List String)
  deriving DecidableEq, Repr

section Lock

variable (undoDisksUuid : String)

/-- The first loop over the list: the code of the first snapshot that is missing or
already locked. -/
def checkSnapshots (pTree : Option (List String)) (locked : SnapHash) :
    List String → Option PrlResult
  | [] => none
  | snap :: snapList =>
      if snap ≠ undoDisksUuid ∧ ∃ tree ∈ pTree, snap ∉ tree then
        some .vmSnapshotNotFound
      else
        match locked.lookup snap with
        | some code => some code
        | none => checkSnapshots pTree locked snapList

def lockSnapshotList (found : Found) (lockedSnap : LockedSnap) (vmIdent : VmIdent)
    (snapList : List String) (errCode : PrlResult) : PrlResult × LockedSnap :=
  if !found.vmDirItem then
    (.vmUuidNotFound, lockedSnap)
  else if found.pTree = none ∧ undoDisksUuid ∉ snapList then
    (.vmSnapshotsConfigNotFound, lockedSnap)
  else
    -- the hash of the VM, inserted empty when it has none
    let locked := (lockedSnap.lookup vmIdent).getD ∅
    let lockedSnap := lockedSnap.insert vmIdent locked
    match checkSnapshots undoDisksUuid found.pTree locked snapList with
    | some code => (code, dropEmpty lockedSnap vmIdent)
    | none =>
        let locked := snapList.foldl (fun t snap => t.insert snap errCode) locked
        (.success, dropEmpty (lockedSnap.insert vmIdent locked) vmIdent)

end Lock

/-- An unlock of an entry that is not locked is a bug of the caller and changes
nothing. -/
def unlockSnapshotList (lockedSnap : LockedSnap) (vmIdent : VmIdent) (snapList : List String) :
    LockedSnap :=
  match lockedSnap.lookup vmIdent with
  | none => lockedSnap
  | some locked =>
      if ∀ snap ∈ snapList, snap ∈ locked then
        let locked := snapList.foldl (fun t snap => t.erase snap) locked
        dropEmpty (lockedSnap.insert vmIdent locked) vmIdent
      else
        lockedSnap

end DispService.SnapshotStore

/-! Runs of the lock table. A history variable keeps who holds what: a successful
lock adds its snapshots, and an unlock that is carried out takes the entries it
names, whoever locked them. -/
namespace DispService.SnapshotStore

open DispService.Lib Nested

/-- The locks as a partial map. -/
abbrev Entries := VmIdent → String → Option PrlResult

/-- No VM without locks, and every stored code is an error. -/
structure Valid (lockedSnap : LockedSnap) : Prop where
  noEmpty : NoEmpty lockedSnap
  codes : ∀ vm snap code, entry lockedSnap vm snap = some code → code.failed = true

section Spec

variable {undoDisksUuid : String} {found : Found} {t : LockedSnap} {vm : VmIdent}
  {snapList : List String}

/-- The snapshot is in the tree, where there is one to look in. -/
def Exists (undoDisksUuid : String) (pTree : Option (List String)) (snap : String) : Prop :=
  snap = undoDisksUuid ∨ ∀ tree ∈ pTree, snap ∈ tree

/-- All that a lock needs. -/
def Grants (undoDisksUuid : String) (found : Found) (e : Entries) (vm : VmIdent)
    (snapList : List String) : Prop :=
  found.vmDirItem = true ∧ (found.pTree = none → undoDisksUuid ∈ snapList) ∧
    ∀ snap ∈ snapList, Exists undoDisksUuid found.pTree snap ∧ e vm snap = none

theorem not_exists_iff {pTree : Option (List String)} {snap : String} :
    (snap ≠ undoDisksUuid ∧ ∃ tree ∈ pTree, snap ∉ tree) ↔ ¬ Exists undoDisksUuid pTree snap := by
  unfold Exists
  push Not
  rfl

theorem checkSnapshots_eq_none {pTree : Option (List String)} {locked : SnapHash} :
    checkSnapshots undoDisksUuid pTree locked snapList = none ↔
      ∀ snap ∈ snapList, Exists undoDisksUuid pTree snap ∧ locked.lookup snap = none := by
  induction snapList with
  | nil => simp [checkSnapshots]
  | cons snap snapList ih =>
      unfold checkSnapshots
      rw [List.forall_mem_cons]
      split
      · rename_i hmissing
        have hnot := not_exists_iff.mp hmissing
        simp [hnot]
      · rename_i hfound
        have hexists : Exists undoDisksUuid pTree snap := by
          by_contra hnot
          exact hfound (not_exists_iff.mpr hnot)
        cases hlocked : locked.lookup snap with
        | none => simp [hexists, ih]
        | some code => simp

theorem checkSnapshots_failed {pTree : Option (List String)} {locked : SnapHash} {code : PrlResult}
    (codes : ∀ snap code, locked.lookup snap = some code → code.failed = true)
    (h : checkSnapshots undoDisksUuid pTree locked snapList = some code) :
    code.failed = true := by
  induction snapList with
  | nil => cases h
  | cons snap snapList ih =>
      unfold checkSnapshots at h
      split at h
      · cases h
        rfl
      · cases hlocked : locked.lookup snap with
        | none =>
            rw [hlocked] at h
            exact ih h
        | some stored =>
            rw [hlocked] at h
            cases h
            exact codes snap _ hlocked

theorem lookup_getD (t : LockedSnap) (vm : VmIdent) (snap : String) :
    ((t.lookup vm).getD ∅).lookup snap = entry t vm snap := by
  cases hl : t.lookup vm with
  | none => rw [entry_of_lookup_none hl, Option.getD_none, Finmap.lookup_empty]
  | some locked => rw [entry_of_lookup hl, Option.getD_some]

/-- The hash that was inserted for the request goes away when nothing is locked in it. -/
theorem dropEmpty_found (noEmpty : NoEmpty t) :
    dropEmpty (t.insert vm ((t.lookup vm).getD ∅)) vm = t := by
  apply (noEmpty.dropEmpty_insert vm _).ext noEmpty
  intro v snap
  rw [entry_dropEmpty, entry_insert]
  split
  · rename_i hv
    rw [hv, lookup_getD]
  · rfl

theorem lock_granted (noEmpty : NoEmpty t) (grants : Grants undoDisksUuid found (entry t) vm snapList)
    (errCode : PrlResult) :
    ∃ t', lockSnapshotList undoDisksUuid found t vm snapList errCode = (.success, t') ∧
      NoEmpty t' ∧ entry t' = setAll (entry t) vm snapList (some errCode) := by
  obtain ⟨hitem, htree, hfree⟩ := grants
  have hcheck : checkSnapshots undoDisksUuid found.pTree ((t.lookup vm).getD ∅) snapList = none := by
    rw [checkSnapshots_eq_none]
    intro snap hsnap
    rw [lookup_getD]
    exact hfree snap hsnap
  have hparsed : ¬(found.pTree = none ∧ undoDisksUuid ∉ snapList) := by
    rintro ⟨hnone, hnot⟩
    exact hnot (htree hnone)
  refine ⟨_, ?_, noEmpty.dropEmpty_insert vm
    (snapList.foldl (fun h snap => h.insert snap errCode) ((t.lookup vm).getD ∅)), ?_⟩
  · unfold lockSnapshotList
    rw [if_neg (by simp [hitem]), if_neg hparsed]
    simp [hcheck, Finmap.insert_insert]
  · funext v snap
    rw [entry_dropEmpty, entry_insert, lookup_insertAll, lookup_getD]
    by_cases hv : v = vm
    · simp [setAll, hv]
    · simp [setAll, hv]

theorem lock_refused (valid : Valid t) (refused : ¬ Grants undoDisksUuid found (entry t) vm snapList)
    (errCode : PrlResult) :
    ∃ code, lockSnapshotList undoDisksUuid found t vm snapList errCode = (code, t) ∧
      code.failed = true := by
  unfold lockSnapshotList
  split
  · exact ⟨_, rfl, rfl⟩
  · rename_i hitem
    split
    · exact ⟨_, rfl, rfl⟩
    · rename_i hparsed
      cases hcheck : checkSnapshots undoDisksUuid found.pTree ((t.lookup vm).getD ∅) snapList with
      | none =>
          rw [checkSnapshots_eq_none] at hcheck
          refine absurd ⟨by simpa using hitem, ?_, ?_⟩ refused
          · intro hnone
            by_contra hnot
            exact hparsed ⟨hnone, hnot⟩
          · intro snap hsnap
            rw [← lookup_getD]
            exact hcheck snap hsnap
      | some code =>
          refine ⟨code, by simp only [hcheck, dropEmpty_found valid.noEmpty], ?_⟩
          refine checkSnapshots_failed ?_ hcheck
          intro snap stored hstored
          rw [lookup_getD] at hstored
          exact valid.codes vm snap stored hstored

/-- All entries that an unlock names are there. -/
def Unlocks (e : Entries) (vm : VmIdent) (snapList : List String) : Prop :=
  ∀ snap ∈ snapList, (e vm snap).isSome = true

instance (e : Entries) : Decidable (Unlocks e vm snapList) :=
  inferInstanceAs (Decidable (∀ snap ∈ snapList, (e vm snap).isSome = true))

theorem unlock_granted (noEmpty : NoEmpty t) (unlocks : Unlocks (entry t) vm snapList) :
    NoEmpty (unlockSnapshotList t vm snapList) ∧
      entry (unlockSnapshotList t vm snapList) = setAll (entry t) vm snapList none := by
  unfold unlockSnapshotList
  cases hl : t.lookup vm with
  | none =>
      refine ⟨noEmpty, ?_⟩
      funext v snap
      by_cases h : v = vm ∧ snap ∈ snapList
      · obtain ⟨rfl, hsnap⟩ := h
        rw [setAll_of_mem _ _ hsnap]
        exact entry_of_lookup_none hl snap
      · rw [setAll_of_not fun hv hsnap => h ⟨hv, hsnap⟩]
  | some locked =>
      have hall : ∀ snap ∈ snapList, snap ∈ locked := by
        intro snap hsnap
        rw [← Finmap.lookup_isSome, ← entry_of_lookup hl]
        exact unlocks snap hsnap
      simp only [if_pos hall]
      refine ⟨noEmpty.dropEmpty_insert vm _, ?_⟩
      funext v snap
      rw [entry_dropEmpty, entry_insert, lookup_eraseAll]
      by_cases hv : v = vm
      · simp [setAll, hv, entry_of_lookup hl]
      · simp [setAll, hv]

theorem unlock_refused (refused : ¬ Unlocks (entry t) vm snapList) :
    unlockSnapshotList t vm snapList = t := by
  unfold unlockSnapshotList
  cases hl : t.lookup vm with
  | none => rfl
  | some locked =>
      refine if_neg fun hall => refused ?_
      intro snap hsnap
      rw [entry_of_lookup hl, Finmap.lookup_isSome]
      exact hall snap hsnap

end Spec

section Runs

variable {H : Type} {undoDisksUuid : String}

inductive Request (H : Type) where
  | lock (holder : H) (found : Found) (vm : VmIdent) (snapList : List String) (errCode : PrlResult)
  | unlock (vm : VmIdent) (snapList : List String)

def perform (undoDisksUuid : String) (t : LockedSnap) : Request H → LockedSnap
  | .lock _ found vm snapList errCode => (lockSnapshotList undoDisksUuid found t vm snapList errCode).2
  | .unlock vm snapList => unlockSnapshotList t vm snapList

/-- The lock returns success; the unlock names locked entries only. -/
def granted (undoDisksUuid : String) (t : LockedSnap) : Request H → Bool
  | .lock _ found vm snapList errCode =>
      (lockSnapshotList undoDisksUuid found t vm snapList errCode).1 = .success
  | .unlock vm snapList => Unlocks (entry t) vm snapList

/-- The snapshots that the holders have locked. -/
abbrev Held (H : Type) := List (H × VmIdent × String)

def recordHeld (undoDisksUuid : String) (t : LockedSnap) (request : Request H) (held : Held H) :
    Held H :=
  if granted undoDisksUuid t request then
    match request with
    | .lock holder _ vm snapList _ => snapList.dedup.map (fun snap => (holder, vm, snap)) ++ held
    | .unlock vm snapList => held.filter fun x => ¬(x.2.1 = vm ∧ x.2.2 ∈ snapList)
  else
    held

/-- A lock asks for an error code to be stored with it. -/
def StoresError : Request H → Prop
  | .lock _ _ _ _ errCode => errCode.failed = true
  | .unlock _ _ => True

/-- What a request needs of the entries. -/
def Request.Allowed (undoDisksUuid : String) (e : Entries) : Request H → Prop
  | .lock _ found vm snapList _ => Grants undoDisksUuid found e vm snapList
  | .unlock vm snapList => Unlocks e vm snapList

/-- The entries after a granted request. -/
def Request.after (e : Entries) : Request H → Entries
  | .lock _ _ vm snapList errCode => setAll e vm snapList (some errCode)
  | .unlock vm snapList => setAll e vm snapList none

variable {t : LockedSnap} {request : Request H}

theorem granted_iff (valid : Valid t) :
    granted undoDisksUuid t request = true ↔ request.Allowed undoDisksUuid (entry t) := by
  cases request with
  | lock holder found vm snapList errCode =>
      unfold granted Request.Allowed
      rw [decide_eq_true_iff]
      constructor
      · intro hsuccess
        by_contra hnot
        obtain ⟨code, hlock, hfailed⟩ := lock_refused valid hnot errCode
        rw [hlock] at hsuccess
        cases hsuccess
        cases hfailed
      · intro grants
        obtain ⟨t', hlock, _⟩ := lock_granted valid.noEmpty grants errCode
        rw [hlock]
  | unlock vm snapList => exact decide_eq_true_iff

theorem perform_granted (valid : Valid t) (stores : StoresError request)
    (hgranted : granted undoDisksUuid t request = true) :
    Valid (perform undoDisksUuid t request) ∧
      entry (perform undoDisksUuid t request) = request.after (entry t) := by
  rw [granted_iff valid] at hgranted
  cases request with
  | lock holder found vm snapList errCode =>
      obtain ⟨t', hlock, hempty, hentry⟩ := lock_granted valid.noEmpty hgranted errCode
      rw [perform, hlock]
      refine ⟨⟨hempty, ?_⟩, hentry⟩
      intro v snap code hcode
      rw [hentry, setAll] at hcode
      split at hcode
      · cases hcode
        exact stores
      · exact valid.codes v snap code hcode
  | unlock vm snapList =>
      obtain ⟨hempty, hentry⟩ := unlock_granted valid.noEmpty hgranted
      refine ⟨⟨hempty, ?_⟩, hentry⟩
      intro v snap code hcode
      rw [perform, hentry, setAll] at hcode
      split at hcode
      · cases hcode
      · exact valid.codes v snap code hcode

/-- A request that is not granted changes nothing. -/
theorem perform_denied (valid : Valid t) (hdenied : granted undoDisksUuid t request = false) :
    perform undoDisksUuid t request = t := by
  have hnot : ¬ request.Allowed undoDisksUuid (entry t) := by
    rw [← granted_iff valid, hdenied]
    exact Bool.false_ne_true
  cases request with
  | lock holder found vm snapList errCode =>
      obtain ⟨code, hlock, _⟩ := lock_refused valid hnot errCode
      rw [perform, hlock]
  | unlock vm snapList => exact unlock_refused hnot

/-- The history variable and the table agree. -/
structure LocksHeld (x : LockedSnap × Held H) : Prop where
  valid : Valid x.1
  once : (x.2.map Prod.snd).Nodup
  entries : ∀ vm snap, (entry x.1 vm snap).isSome = true ↔ (vm, snap) ∈ x.2.map Prod.snd

theorem locksHeld_step (x : LockedSnap × Held H) (request : Request H) (y : LockedSnap × Held H)
    (held : LocksHeld x)
    (step : Recorded (recordHeld undoDisksUuid)
      (Guarded (fun _ => StoresError) (Graph (perform undoDisksUuid))) x request y) :
    LocksHeld y := by
  obtain ⟨t, h⟩ := x
  obtain ⟨u, k⟩ := y
  obtain ⟨⟨stores, hgraph⟩, hrecord⟩ := step
  simp only [Lib.Graph] at hgraph hrecord stores
  subst hgraph hrecord
  cases hgranted : granted undoDisksUuid t request with
  | false =>
      simpa [recordHeld, hgranted, perform_denied held.valid hgranted] using held
  | true =>
      obtain ⟨valid, hafter⟩ := perform_granted held.valid stores hgranted
      have hallowed := (granted_iff held.valid).mp hgranted
      cases request with
      | lock holder found vm snapList errCode =>
          have hpairs : (recordHeld undoDisksUuid t (.lock holder found vm snapList errCode) h).map
              Prod.snd = snapList.dedup.map (fun snap => (vm, snap)) ++ h.map Prod.snd := by
            simp [recordHeld, hgranted]
          refine ⟨valid, ?_, ?_⟩
          · rw [hpairs, List.nodup_append]
            refine ⟨(List.nodup_dedup snapList).map (Prod.mk_right_injective vm), held.once, ?_⟩
            intro p hp q hq heq
            obtain ⟨snap, hsnap, rfl⟩ := List.mem_map.mp hp
            subst heq
            have hlocked := (held.entries vm snap).mpr hq
            have hfree := (hallowed.2.2 snap (List.mem_dedup.mp hsnap)).2
            simp [hfree] at hlocked
          · intro v snap
            have hmem : (v, snap) ∈ snapList.dedup.map (fun snap => (vm, snap)) ↔
                v = vm ∧ snap ∈ snapList := by
              simp [eq_comm, and_comm]
            rw [hafter, hpairs, List.mem_append, ← held.entries, hmem, Request.after, setAll]
            by_cases hnew : v = vm ∧ snap ∈ snapList
            · simp [hnew]
            · rw [if_neg hnew]
              simp [hnew]
      | unlock vm snapList =>
          have hpairs : (recordHeld undoDisksUuid t (.unlock vm snapList) h).map Prod.snd =
              (h.map Prod.snd).filter fun p => ¬(p.1 = vm ∧ p.2 ∈ snapList) := by
            rw [recordHeld, if_pos hgranted, List.filter_map]
            rfl
          refine ⟨valid, ?_, ?_⟩
          · rw [hpairs]
            exact held.once.filter _
          · intro v snap
            rw [hafter, hpairs, List.mem_filter, ← held.entries, Request.after, setAll]
            by_cases hgone : v = vm ∧ snap ∈ snapList
            · simp [hgone]
            · rw [if_neg hgone]
              simp [hgone]

theorem locksHeld_of_run {requests : List (Request H)} {t : LockedSnap} {held : Held H}
    (run : Run (Recorded (recordHeld undoDisksUuid)
      (Guarded (fun _ => StoresError) (Graph (perform undoDisksUuid)))) (∅, []) requests (t, held)) :
    LocksHeld (t, held) := by
  refine run.preserves locksHeld_step ⟨⟨noEmpty_empty, ?_⟩, List.nodup_nil, ?_⟩
  · intro vm snap code hcode
    simp at hcode
  · intro vm snap
    simp

/-- `e` is `e'` with the snapshots of one lock added. -/
structure Over (vm : VmIdent) (snapList : List String) (errCode : PrlResult) (e e' : Entries) :
    Prop where
  added : e = setAll e' vm snapList (some errCode)
  free : ∀ snap ∈ snapList, e' vm snap = none

/-- The request leaves the snapshots of the lock alone. -/
def Keeps (vm : VmIdent) (snapList : List String) (t : LockedSnap) : Request H → Prop
  | .lock _ _ _ _ errCode => errCode.failed = true
  | .unlock v snaps => Unlocks (entry t) v snaps → v = vm → ∀ snap ∈ snaps, snap ∉ snapList

/-- The requests of a run that are granted. -/
def grantedOf (undoDisksUuid : String) : LockedSnap → List (Request H) → List (Request H)
  | _, [] => []
  | t, request :: requests =>
      if granted undoDisksUuid t request then
        request :: grantedOf undoDisksUuid (perform undoDisksUuid t request) requests
      else
        grantedOf undoDisksUuid (perform undoDisksUuid t request) requests

section Without

variable {vm : VmIdent} {snapList : List String} {errCode : PrlResult} {e e' : Entries}

/-- The listed entries stay free when only others are set. -/
theorem Over.set (adds : Over vm snapList errCode e e') {v : VmIdent} {snaps : List String}
    (apart : v = vm → ∀ snap ∈ snaps, snap ∉ snapList) (o : Option PrlResult) :
    Over vm snapList errCode (setAll e v snaps o) (setAll e' v snaps o) := by
  constructor
  case added =>
    rw [adds.added, setAll_comm apart]
  case free =>
    intro snap hsnap
    rw [setAll_of_not fun hv hmem => apart hv.symm snap hmem hsnap]
    exact adds.free snap hsnap

/-- What is granted beside the lock is granted without it, with the same effect. -/
theorem Over.allowed {request : Request H} (adds : Over vm snapList errCode (entry t) e')
    (keeps : Keeps vm snapList t request)
    (allowed : request.Allowed undoDisksUuid (entry t)) :
    request.Allowed undoDisksUuid e' ∧
      Over vm snapList errCode (request.after (entry t)) (request.after e') := by
  cases request with
  | lock holder found v snaps code =>
      obtain ⟨hitem, htree, hfree⟩ := allowed
      have apart : v = vm → ∀ snap ∈ snaps, snap ∉ snapList := by
        rintro rfl snap hsnap hmem
        have hnone := (hfree snap hsnap).2
        rw [adds.added, setAll_of_mem _ _ hmem] at hnone
        cases hnone
      refine ⟨⟨hitem, htree, fun snap hsnap => ?_⟩, adds.set apart (some code)⟩
      have hnone := (hfree snap hsnap).2
      rw [adds.added, setAll_of_not fun hv => apart hv snap hsnap] at hnone
      exact ⟨(hfree snap hsnap).1, hnone⟩
  | unlock v snaps =>
      have apart : v = vm → ∀ snap ∈ snaps, snap ∉ snapList := keeps allowed
      refine ⟨fun snap hsnap => ?_, adds.set apart none⟩
      have hsome := allowed snap hsnap
      rw [adds.added, setAll_of_not fun hv => apart hv snap hsnap] at hsome
      exact hsome

theorem Keeps.storesError {request : Request H} (keeps : Keeps vm snapList t request) :
    StoresError request := by
  cases request with
  | lock holder found v snaps code => exact keeps
  | unlock v snaps => trivial

/-- The granted requests of a run have the same effect without the lock. -/
theorem Over.run {requests : List (Request H)} {t t' u : LockedSnap}
    (adds : Over vm snapList errCode (entry t) (entry t')) (valid : Valid t) (valid' : Valid t')
    (run : Run (Guarded (Keeps vm snapList) (Graph (perform undoDisksUuid))) t requests u) :
    ∃ u', Run (Graph (perform undoDisksUuid)) t' (grantedOf undoDisksUuid t requests) u' ∧
      Valid u ∧ Valid u' ∧ Over vm snapList errCode (entry u) (entry u') := by
  induction run generalizing t' with
  | nil t => exact ⟨t', .nil t', valid, valid', adds⟩
  | @cons t s u request requests head tail ih =>
      obtain ⟨keeps, hgraph⟩ := head
      unfold Lib.Graph at hgraph
      subst hgraph
      cases hgranted : granted undoDisksUuid t request with
      | false =>
          rw [perform_denied valid hgranted] at ih
          simpa [grantedOf, hgranted, perform_denied valid hgranted] using ih adds valid valid'
      | true =>
          obtain ⟨hvalid, hafter⟩ := perform_granted valid keeps.storesError hgranted
          obtain ⟨allowed, adds'⟩ := adds.allowed keeps ((granted_iff valid).mp hgranted)
          obtain ⟨hvalid', hafter'⟩ :=
            perform_granted valid' keeps.storesError ((granted_iff valid').mpr allowed)
          rw [← hafter, ← hafter'] at adds'
          obtain ⟨u', hrun, hends⟩ := ih adds' hvalid hvalid'
          refine ⟨u', ?_, hends⟩
          rw [grantedOf, if_pos hgranted]
          exact .cons rfl hrun

/-- The unlock takes exactly the entries that the lock added. -/
theorem Over.unlock {u u' : LockedSnap} (adds : Over vm snapList errCode (entry u) (entry u'))
    (valid : Valid u) (valid' : Valid u') : unlockSnapshotList u vm snapList = u' := by
  have unlocks : Unlocks (entry u) vm snapList := by
    intro snap hsnap
    rw [adds.added, setAll_of_mem _ _ hsnap]
    rfl
  obtain ⟨hempty, hentry⟩ := unlock_granted valid.noEmpty unlocks
  apply hempty.ext valid'.noEmpty
  intro v snap
  rw [hentry, adds.added, setAll_undo adds.free]

end Without

/-- In every state of every run a snapshot has at most one holder and no VM is kept
without locks; a refused lock changes nothing; and the unlock of a lock whose
entries were left alone leads to the table of the same run without the lock. -/
theorem locks_balanced_of_run {requests : List (Request H)} {t : LockedSnap} {held : Held H}
    (run : Run (Recorded (recordHeld undoDisksUuid)
      (Guarded (fun _ => StoresError) (Graph (perform undoDisksUuid)))) (∅, []) requests (t, held)) :
    ((held.map Prod.snd).Nodup ∧
      ∀ vm snap, (entry t vm snap).isSome = true ↔ (vm, snap) ∈ held.map Prod.snd) ∧
    (∀ found vm snapList errCode,
      (lockSnapshotList undoDisksUuid found t vm snapList errCode).1.failed = true →
      (lockSnapshotList undoDisksUuid found t vm snapList errCode).2 = t) ∧
    (∀ vm locked, t.lookup vm = some locked → locked ≠ ∅) ∧
    ∀ found vm snapList errCode t₁, errCode.failed = true →
      lockSnapshotList undoDisksUuid found t vm snapList errCode = (.success, t₁) →
      ∀ (between : List (Request H)) t₂,
        Run (Guarded (Keeps vm snapList) (Graph (perform undoDisksUuid))) t₁ between t₂ →
        Run (Graph (perform undoDisksUuid)) t (grantedOf undoDisksUuid t₁ between)
          (unlockSnapshotList t₂ vm snapList) := by
  obtain ⟨valid, once, entries⟩ := locksHeld_of_run run
  refine ⟨⟨once, entries⟩, ?_, valid.noEmpty, ?_⟩
  · intro found vm snapList errCode hfailed
    by_cases grants : Grants undoDisksUuid found (entry t) vm snapList
    · obtain ⟨t', hlock, _⟩ := lock_granted valid.noEmpty grants errCode
      rw [hlock] at hfailed
      cases hfailed
    · obtain ⟨code, hlock, _⟩ := lock_refused valid grants errCode
      rw [hlock]
  · intro found vm snapList errCode t₁ hcode hlock between t₂ hrun
    by_cases grants : Grants undoDisksUuid found (entry t) vm snapList
    · obtain ⟨t', hlock', hempty, hentry⟩ := lock_granted valid.noEmpty grants errCode
      rw [hlock] at hlock'
      cases hlock'
      have hvalid : Valid t₁ := by
        refine ⟨hempty, ?_⟩
        intro v snap code hstored
        rw [hentry, setAll] at hstored
        split at hstored
        · cases hstored
          exact hcode
        · exact valid.codes v snap code hstored
      have adds : Over vm snapList errCode (entry t₁) (entry t) :=
        ⟨hentry, fun snap hsnap => (grants.2.2 snap hsnap).2⟩
      obtain ⟨u, hwithout, hvalid₂, hvalidu, hover⟩ := adds.run hvalid valid hrun
      rw [hover.unlock hvalid₂ hvalidu]
      exact hwithout
    · obtain ⟨code, hlock', hfailed⟩ := lock_refused valid grants errCode
      rw [hlock] at hlock'
      cases hlock'
      cases hfailed

end Runs

section Cases

def backupVm : VmIdent := ("vm", "dir")

/-- A VM with two snapshots. -/
def twoFound : Found := ⟨true, some ["s1", "s2"]⟩

def lockOf (holder : String) (snapList : List String) (errCode : PrlResult) : Request String :=
  .lock holder twoFound backupVm snapList errCode

/-- A second lock between the lock and its unlock stays. -/
theorem unlock_beside_other_lock :
    let t₁ := perform "undo" ∅ (lockOf "a" ["s1"] .vmLockedForBackup)
    let t₂ := perform "undo" t₁ (lockOf "b" ["s2"] .vmLockedForBackup)
    Run (Graph (perform "undo")) ∅
      (grantedOf "undo" t₁ [lockOf "b" ["s2"] .vmLockedForBackup])
      (unlockSnapshotList t₂ backupVm ["s1"]) := by
  intro t₁ t₂
  have hlock : lockSnapshotList "undo" twoFound ∅ backupVm ["s1"] .vmLockedForBackup =
      (.success, t₁) := Prod.ext (by decide) rfl
  have hrun : Run (Guarded (Keeps backupVm ["s1"]) (Graph (perform "undo"))) t₁
      [lockOf "b" ["s2"] .vmLockedForBackup] t₂ := .cons ⟨rfl, rfl⟩ (.nil _)
  exact (locks_balanced_of_run (.nil (∅, []))).2.2.2 twoFound backupVm ["s1"] .vmLockedForBackup
    t₁ rfl hlock _ t₂ hrun

/-- With success as the stored code a second holder gets the same snapshot; and once
another request has unlocked a part of a list, the unlock of the list is refused and
the rest stays locked. -/
theorem locks_unbalanced :
    (∃ t held, Run (Recorded (recordHeld "undo") (Graph (perform "undo"))) (∅, [])
      [lockOf "a" ["s1"] .success, lockOf "b" ["s1"] .success] (t, held) ∧
      ("a", backupVm, "s1") ∈ held ∧ ("b", backupVm, "s1") ∈ held) ∧
    ∃ t₁, lockSnapshotList "undo" twoFound ∅ backupVm ["s1", "s2"] .vmLockedForBackup =
        (.success, t₁) ∧
      unlockSnapshotList (unlockSnapshotList t₁ backupVm ["s1"]) backupVm ["s1", "s2"] ≠
        unlockSnapshotList ∅ backupVm ["s1"] := by
  refine ⟨⟨_, _, .recorded rfl (.recorded rfl (.nil _)), by decide, by decide⟩, ?_⟩
  refine ⟨_, Prod.ext (by decide) rfl, ?_⟩
  intro hsame
  have hentry := congrArg (fun t => entry t backupVm "s2") hsame
  exact absurd hentry (by decide)

end Cases

end DispService.SnapshotStore
