import DispService.Backup.Deleted
import DispService.Backup.Locking

/-! The removal of backups among other tasks: what it deletes, and what it has locked
then. -/
namespace DispService.Backup

open Lib
open Metadata (Held Locking Request Recorded Releases advance)

universe u

/-- Where a removal stands. -/
inductive Phase where
  | ready
  /-- The requested sequence is locked shared. -/
  | reading (t : Task)
  | locking (batch_ : List Action) (m_lstBackupUuid : List String) (m_nLocked : Nat)
  | deleting (batch_ : List Action) (m_lstBackupUuid : List String) (m_nLocked : Nat)
  | finalizing (m_lstBackupUuid : List String) (m_nLocked i : Nat)
  | closed

inductive Event (θ : Type u) where
  /-- A request of another thread for the metadata lock. -/
  | other (r : Request θ)
  /-- Other tasks write to the disk. -/
  | write (store : Store)
  | prepare (t : Task)
  | prepared
  | grab
  /-- The next action of the batch, and what it leaves if it fails. -/
  | act (fault : Option Left)
  | finalize

structure System (θ : Type u) where
  locks : Locking θ
  store : Store
  phase : Phase

variable {θ : Type u} [DecidableEq θ]

/-- The table as the preparation of a batch sees it. -/
def Metadata.Lock.view (l : Metadata.Lock θ) : Backup.Lock where
  m_exclusive := fun u => decide (u ∈ l.m_exclusive)
  m_shared := l.isShared

omit [DecidableEq θ] in
theorem Metadata.Lock.view_grabShared (l : Metadata.Lock θ) (u : String) (t : θ) :
    l.view.grabShared u = (l.grabShared u t).1 := by
  unfold Backup.Lock.grabShared Metadata.Lock.grabShared Metadata.Lock.view
  simp only [decide_eq_true_eq]
  split <;> rfl

omit [DecidableEq θ] in
theorem Metadata.Lock.view_grabExclusive (l : Metadata.Lock θ) (u : String) :
    l.view.grabExclusive u = (l.grabExclusive u).1 := by
  unfold Backup.Lock.grabExclusive Metadata.Lock.grabExclusive Metadata.Lock.view
  simp only [decide_eq_true_eq]
  split
  · rfl
  · split <;> rfl

/-- What comes after the preparation. -/
def Phase.after : Task.Prepared → Phase
  | .error _ => .finalizing [] 0 0
  | .ok (l, us) => .locking l us 0

namespace System

variable (me : θ) (s : System θ)

def prepare (t : Task) : System θ :=
  match t.m_sBackupId with
  | none => { s with phase := .after t.removeAllBackupsForVm }
  | some (u, _) =>
      if u ∉ t.getIndexForRead then { s with phase := .finalizing [] 0 0 }
      else
        { s with
          locks := advance s.locks ⟨me, .grabShared, u⟩
          phase :=
            if (s.locks.1.grabShared u me).1.failed then .finalizing [] 0 0
            else .reading { t with prepareLock := s.locks.1.view } }

def prepared (t : Task) : System θ :=
  match t.m_sBackupId with
  | none => s
  | some (u, _) =>
      { s with locks := advance s.locks ⟨me, .releaseShared, u⟩, phase := .after t.prepare }

/-- A round of the loop of `do_`. -/
def grab (l : List Action) (us : List String) (n : Nat) : System θ :=
  match us[n]? with
  | none => { s with phase := .deleting l us n }
  | some u =>
      { s with
        locks := advance s.locks ⟨me, .grabExclusive, u⟩
        phase :=
          if (s.locks.1.grabExclusive u).1.failed then .finalizing us n 0
          else .locking l us (n + 1) }

def act (fault : Option Left) (us : List String) (n : Nat) : List Action → System θ
  | [] => { s with phase := .finalizing us n 0 }
  | a :: l =>
      match fault with
      | none =>
          { s with
            store := (a.perform s.store).2
            phase :=
              if (a.perform s.store).1.failed then .finalizing us n 0 else .deleting l us n }
      | some left =>
          { s with store := a.interrupted left s.store, phase := .finalizing us n 0 }

/-- A round of the loop of `finalizeTask`. -/
def finalize (us : List String) (n i : Nat) : System θ :=
  match us[i]? with
  | none => { s with phase := .closed }
  | some u =>
      if i < n then
        { s with
          locks := advance s.locks ⟨me, .releaseExclusive, u⟩
          phase := .finalizing us n (i + 1) }
      else { s with phase := .closed }

/-- Events that the phase does not have change nothing. -/
def step (e : Event θ) : System θ :=
  match e, s.phase with
  | .other r, _ => { s with locks := advance s.locks r }
  | .write store, _ => { s with store := store }
  | .prepare t, .ready => prepare me s t
  | .prepared, .reading t => prepared me s t
  | .grab, .locking l us n => grab me s l us n
  | .act fault, .deleting l us n => act s fault us n l
  | .finalize, .finalizing us n i => finalize me s us n i
  | _, _ => s

/-- Other threads release exclusively only what they hold. -/
def Enabled (e : Event θ) : Prop :=
  match e with
  | .other r => r.thread ≠ me ∧ Releases s.locks r
  | _ => True

end System

/-- The events of the removal itself. -/
def Event.own : Event θ → Bool
  | .other _ => false
  | .write _ => false
  | _ => true

/-- The removal deletes only of sequences that it holds exclusively at that time, and
releases only those. -/
structure Guarded (me : θ) (s : System θ) (e : Event θ) : Prop where
  deleted : e.own = true → ∀ v,
    SameAt v s.store (s.step me e).store ∨ s.locks.2.exclusive me v = true
  released : ∀ us n i u, s.phase = .finalizing us n i → i < n → us[i]? = some u →
    s.locks.2.exclusive me u = true

/-- At the end the removal holds nothing. -/
def Released (me : θ) (s : System θ) : Prop :=
  s.phase = .closed → ∀ u, s.locks.2.exclusive me u = false

/-- What the deletion of the whole folder takes of a sequence. -/
def Takes (s : Store) (left : Left) (v : String) : Prop :=
  (∃ n, s.lair v n = true ∧ left.lair v n = false) ∨
  ∃ f, s.file (v, f) = true ∧ left.file (v, f) = false

/-- What is left when nothing fails. -/
def Left.nothing : Left := ⟨fun _ _ => false, fun _ => false⟩

/-- The folder of the VM is deleted only with the sequences that were locked for it. -/
def Covered (s : System θ) (e : Event θ) : Prop :=
  match e, s.phase with
  | .act fault, .deleting (.rmdir .catalog :: _) us _ =>
      ∀ v, Takes s.store (fault.getD .nothing) v → v ∈ us
  | _, _ => True

section Locks

variable {h : Held θ} {ls : Locking θ} {r : Request θ} {me : θ} {us : List String} {u : String}

/-- The thread holds exclusively just these sequences. -/
def HoldsOnly (h : Held θ) (me : θ) (us : List String) : Prop :=
  us.Nodup ∧ ∀ u, h.exclusive me u = true ↔ u ∈ us

omit [DecidableEq θ] in
theorem HoldsOnly.none (hold : HoldsOnly h me []) (u : String) : h.exclusive me u = false := by
  rw [← Bool.not_eq_true]
  exact fun hu => List.not_mem_nil ((hold.2 u).mp hu)

omit [DecidableEq θ] in
theorem HoldsOnly.congr {h' : Held θ} (hold : HoldsOnly h me us) (same : h'.exclusive me = h.exclusive me) :
    HoldsOnly h' me us :=
  ⟨hold.1, fun u => by rw [same]; exact hold.2 u⟩

theorem advance_other (hne : r.thread ≠ me) :
    (advance ls r).2.exclusive me = ls.2.exclusive me := by
  obtain ⟨t, call, q⟩ := r
  have hapart : ∀ b, (ls.2.setExclusive t q b).exclusive me = ls.2.exclusive me := by
    intro b
    funext v
    rw [Metadata.setExclusive_apply, if_neg fun hsame => hne hsame.1.symm]
  unfold advance Held.record
  cases call with
  | grabShared =>
      dsimp only
      split <;> rfl
  | releaseShared => rfl
  | grabExclusive =>
      dsimp only
      split
      · rfl
      · exact hapart true
  | releaseExclusive => exact hapart false

theorem advance_grabShared : (advance ls ⟨me, .grabShared, u⟩).2.exclusive = ls.2.exclusive := by
  unfold advance Held.record
  dsimp only
  split <;> rfl

theorem HoldsOnly.grab (recorded : Recorded ls) (hold : HoldsOnly ls.2 me us)
    (hok : (ls.1.grabExclusive u).1.failed = false) :
    HoldsOnly (advance ls ⟨me, .grabExclusive, u⟩).2 me (us ++ [u]) := by
  have hexclusive : (advance ls ⟨me, .grabExclusive, u⟩).2 = ls.2.setExclusive me u true := by
    unfold advance Held.record Metadata.Lock.serve
    dsimp only
    rw [hok]
    rfl
  rcases Metadata.grabExclusive_cases ls.1 u with ⟨e, hfailed, hgrab⟩ | ⟨free, -, -⟩
  · rw [hgrab, hfailed] at hok
    cases hok
  have hnot : u ∉ us := fun hin => free (recorded.known u me ((hold.2 u).mpr hin))
  rw [hexclusive]
  refine ⟨List.nodup_append.mpr ⟨hold.1, List.nodup_singleton u, ?_⟩, fun v => ?_⟩
  · rintro a ha b hb rfl
    obtain rfl := List.mem_singleton.mp hb
    exact hnot ha
  · rw [Metadata.setExclusive_apply, List.mem_append, List.mem_singleton]
    by_cases hv : v = u
    · simp [hv]
    · rw [if_neg fun hsame => hv hsame.2, hold.2 v]
      simp [hv]

theorem HoldsOnly.refused (hold : HoldsOnly ls.2 me us)
    (hfailed : (ls.1.grabExclusive u).1.failed = true) :
    HoldsOnly (advance ls ⟨me, .grabExclusive, u⟩).2 me us := by
  refine hold.congr ?_
  unfold advance Held.record Metadata.Lock.serve
  dsimp only
  rw [if_pos hfailed]

theorem HoldsOnly.release (hold : HoldsOnly ls.2 me (u :: us)) :
    HoldsOnly (advance ls ⟨me, .releaseExclusive, u⟩).2 me us := by
  obtain ⟨hnot, hrest⟩ := List.nodup_cons.mp hold.1
  refine ⟨hrest, fun v => ?_⟩
  have hexclusive : (advance ls ⟨me, .releaseExclusive, u⟩).2 = ls.2.setExclusive me u false := rfl
  rw [hexclusive, Metadata.setExclusive_apply]
  by_cases hv : v = u
  · subst hv
    rw [if_pos ⟨rfl, rfl⟩]
    exact iff_of_false Bool.false_ne_true hnot
  · rw [if_neg fun hsame => hv hsame.2, hold.2 v]
    simp [hv]

end Locks

/-- Every action is on one of the sequences, or deletes the whole folder. -/
def Batched (l : List Action) (us : List String) : Prop :=
  ∀ a ∈ l, a = .rmdir .catalog ∨ ∃ u ∈ us, a.Within u

theorem removeAll_batched {t : Task} {l : List Action} {us : List String}
    (h : t.removeAllBackupsForVm = .ok (l, us)) : Batched l us := by
  unfold Task.removeAllBackupsForVm at h
  split at h
  · cases h
  · cases h
    intro a ha
    exact .inl (List.mem_singleton.mp ha)

/-- The batch of a request keeps to the sequences that are locked for it. -/
theorem prepare_batched {t : Task} {l : List Action} {us : List String}
    (h : t.prepare = .ok (l, us)) : Batched l us := by
  unfold Task.prepare at h
  split at h
  · exact removeAll_batched h
  · rename_i u number _
    have huuid := t.uuids u
    split at h
    · cases h
    · split at h
      · cases h
      · dsimp only at h
        split at h
        · exact removeAll_batched h
        · split at h
          · split at h
            · cases h
            · rename_i hshifter
              cases h
              intro a ha
              have hwithin := shifter_within hshifter a ha
              rw [huuid] at hwithin
              exact .inr ⟨u, List.mem_singleton_self u, hwithin⟩
          · cases h
            intro a ha
            have hwithin := flavor_within a ha
            rw [huuid] at hwithin
            exact .inr ⟨u, List.mem_singleton_self u, hwithin⟩

end DispService.Backup
