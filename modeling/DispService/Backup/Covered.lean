import DispService.Backup.Guarded

/-! A removal holds what it deletes just when the folder of the VM never has a sequence
that was not locked. -/
namespace DispService.Backup

open Lib
open Metadata (Held Locking Request Recorded Releases advance)

universe u

variable {θ : Type u} [DecidableEq θ] {me : θ} {s : System θ} {e : Event θ} {h h' : Held θ}
  {us : List String} {l : List Action} {n i : Nat}

/-- What the removal holds in each phase. -/
def Phase.Owns (h : Held θ) (me : θ) : Phase → Prop
  | .ready => HoldsOnly h me []
  | .reading _ => HoldsOnly h me []
  | .locking l us n => n ≤ us.length ∧ HoldsOnly h me (us.take n) ∧ Batched l us
  | .deleting l us n => n = us.length ∧ HoldsOnly h me us ∧ Batched l us
  | .finalizing us n i => n ≤ us.length ∧ HoldsOnly h me ((us.take n).drop i)
  | .closed => HoldsOnly h me []

omit [DecidableEq θ] in
theorem Phase.Owns.congr {p : Phase} (owns : p.Owns h me)
    (same : h'.exclusive me = h.exclusive me) : p.Owns h' me := by
  cases p with
  | ready => exact HoldsOnly.congr owns same
  | reading t => exact HoldsOnly.congr owns same
  | locking l us n => exact ⟨owns.1, owns.2.1.congr same, owns.2.2⟩
  | deleting l us n => exact ⟨owns.1, owns.2.1.congr same, owns.2.2⟩
  | finalizing us n i => exact ⟨owns.1, owns.2.congr same⟩
  | closed => exact HoldsOnly.congr owns same

/-- The invariant of the runs. -/
structure Standing (me : θ) (s : System θ) : Prop where
  recorded : Recorded s.locks
  owns : s.phase.Owns s.locks.2 me

omit [DecidableEq θ] in
theorem after_owns {x : Task.Prepared} (hold : HoldsOnly h me [])
    (batched : ∀ l us, x = .ok (l, us) → Batched l us) : (Phase.after x).Owns h me := by
  unfold Phase.after
  split
  · exact ⟨Nat.le_refl 0, hold⟩
  · exact ⟨Nat.zero_le _, hold, batched _ _ rfl⟩

theorem prepare_standing (t : Task) (recorded : Recorded s.locks)
    (hold : HoldsOnly s.locks.2 me []) : Standing me (s.prepare me t) := by
  unfold System.prepare
  split
  · exact ⟨recorded, after_owns hold fun l us h => removeAll_batched h⟩
  · rename_i u number _
    split
    · exact ⟨recorded, Nat.le_refl 0, hold⟩
    · have hsame : HoldsOnly (advance s.locks ⟨me, .grabShared, u⟩).2 me [] :=
        hold.congr (congrFun advance_grabShared me)
      refine ⟨recorded.step (fun hcall => by cases hcall), ?_⟩
      dsimp only
      split
      · exact ⟨Nat.le_refl 0, hsame⟩
      · exact hsame

theorem prepared_standing (t : Task) (recorded : Recorded s.locks)
    (hold : HoldsOnly s.locks.2 me []) (hphase : s.phase = .reading t) :
    Standing me (s.prepared me t) := by
  unfold System.prepared
  split
  · refine ⟨recorded, ?_⟩
    rw [hphase]
    exact hold
  · exact ⟨recorded.step (fun hcall => by cases hcall),
      after_owns (hold.congr rfl) fun l us h => prepare_batched h⟩

theorem grab_standing (recorded : Recorded s.locks) (hn : n ≤ us.length)
    (hold : HoldsOnly s.locks.2 me (us.take n)) (batched : Batched l us) :
    Standing me (s.grab me l us n) := by
  unfold System.grab
  split
  · rename_i hnone
    have hlength : n = us.length := Nat.le_antisymm hn (List.getElem?_eq_none_iff.mp hnone)
    rw [hlength, List.take_length] at hold
    exact ⟨recorded, hlength, hold, batched⟩
  · rename_i u hu
    refine ⟨recorded.step (fun hcall => by cases hcall), ?_⟩
    dsimp only
    split
    · rename_i hfailed
      exact ⟨hn, hold.refused hfailed⟩
    · rename_i hok
      obtain ⟨hlt, -⟩ := List.getElem?_eq_some_iff.mp hu
      refine ⟨hlt, ?_, batched⟩
      rw [List.take_add_one, hu]
      exact hold.grab recorded (Bool.not_eq_true _ ▸ hok)

theorem act_standing (fault : Option Left) (recorded : Recorded s.locks) (hn : n = us.length)
    (hold : HoldsOnly s.locks.2 me us) (batched : Batched l us) :
    Standing me (s.act fault us n l) := by
  have hend : HoldsOnly s.locks.2 me ((us.take n).drop 0) := by
    rw [hn, List.take_length]
    exact hold
  unfold System.act
  split
  · exact ⟨recorded, Nat.le_of_eq hn, hend⟩
  · split
    · refine ⟨recorded, ?_⟩
      dsimp only
      split
      · exact ⟨Nat.le_of_eq hn, hend⟩
      · exact ⟨hn, hold, fun a ha => batched a (List.mem_cons_of_mem _ ha)⟩
    · exact ⟨recorded, Nat.le_of_eq hn, hend⟩

/-- The lock that a round of `finalizeTask` releases is the first of those held. -/
theorem held_next {u : String} (hi : i < n) (hu : us[i]? = some u) :
    (us.take n).drop i = u :: (us.take n).drop (i + 1) := by
  have htake : (us.take n)[i]? = some u := by
    rw [List.getElem?_take_of_lt hi, hu]
  obtain ⟨hlt, heq⟩ := List.getElem?_eq_some_iff.mp htake
  rw [List.drop_eq_getElem_cons hlt, heq]

theorem finalize_standing (recorded : Recorded s.locks) (hn : n ≤ us.length)
    (hold : HoldsOnly s.locks.2 me ((us.take n).drop i)) :
    Standing me (s.finalize me us n i) := by
  have hclosed : n ≤ i → HoldsOnly s.locks.2 me [] := by
    intro hle
    rw [List.drop_eq_nil_of_le (Nat.le_trans (List.length_take_le n us) hle)] at hold
    exact hold
  unfold System.finalize
  split
  · rename_i hnone
    exact ⟨recorded, hclosed (Nat.le_trans hn (List.getElem?_eq_none_iff.mp hnone))⟩
  · rename_i u hu
    split
    · rename_i hi
      rw [held_next hi hu] at hold
      exact ⟨recorded.step fun _ _ => (hold.2 u).mpr List.mem_cons_self, hn, hold.release⟩
    · rename_i hi
      exact ⟨recorded, hclosed (Nat.le_of_not_lt hi)⟩

theorem Standing.step (standing : Standing me s) (enabled : s.Enabled me e) :
    Standing me (s.step me e) := by
  obtain ⟨recorded, owns⟩ := standing
  unfold System.step
  split
  · exact ⟨recorded.step enabled.2, owns.congr (advance_other enabled.1)⟩
  · exact ⟨recorded, owns⟩
  · rename_i hphase
    rw [hphase] at owns
    exact prepare_standing _ recorded owns
  · rename_i hphase
    rw [hphase] at owns
    exact prepared_standing _ recorded owns hphase
  · rename_i hphase
    rw [hphase] at owns
    exact grab_standing recorded owns.1 owns.2.1 owns.2.2
  · rename_i hphase
    rw [hphase] at owns
    exact act_standing _ recorded owns.1 owns.2.1 owns.2.2
  · rename_i hphase
    rw [hphase] at owns
    exact finalize_standing recorded owns.1 owns.2
  · exact ⟨recorded, owns⟩

theorem takes_iff {t : Store} {left : Left} {v : String} :
    Takes t left v ↔ ¬ SameAt v t (t.clear .catalog left) := by
  constructor
  · rintro (⟨n, hlair, hleft⟩ | ⟨f, hfile, hleft⟩) same
    · have h := same.lair n
      simp [Store.clear, Folder.hasLair, hlair, hleft] at h
    · have h := same.file f
      simp [Store.clear, Folder.hasFile, hfile, hleft] at h
  · intro hnot
    by_contra htakes
    refine hnot ⟨fun n => ?_, fun f => ?_⟩
    · cases hlair : t.lair v n with
      | false => simp [Store.clear, hlair]
      | true =>
          have hleft : left.lair v n ≠ false := fun hf => htakes (.inl ⟨n, hlair, hf⟩)
          simp [Store.clear, hlair, hleft]
    · cases hfile : t.file (v, f) with
      | false => simp [Store.clear, hfile]
      | true =>
          have hleft : left.file (v, f) ≠ false := fun hf => htakes (.inr ⟨f, hfile, hf⟩)
          simp [Store.clear, hfile, hleft]

/-- What an action of a batch leaves on disk. -/
def Action.leaves (a : Action) (fault : Option Left) (t : Store) : Store :=
  match fault with
  | none => (a.perform t).2
  | some left => a.interrupted left t

theorem Action.Within.leaves {a : Action} {u v : String} (within : a.Within u) (hv : v ≠ u)
    (fault : Option Left) (t : Store) : SameAt v t (a.leaves fault t) := by
  cases fault with
  | none => exact within.perform hv
  | some left => exact within.interrupted hv left

theorem leaves_catalog (fault : Option Left) (t : Store) :
    (Action.rmdir .catalog).leaves fault t = t.clear .catalog (fault.getD .nothing) := by
  cases fault <;> rfl

theorem act_store {a : Action} {fault : Option Left} (hphase : s.phase = .deleting (a :: l) us n) :
    (s.step me (.act fault)).store = a.leaves fault s.store := by
  unfold System.step
  rw [hphase]
  cases fault <;> rfl

theorem SameAt.refl (v : String) (t : Store) : SameAt v t t :=
  ⟨fun _ => rfl, fun _ => rfl⟩

/-- Only an action of the batch, of all events of the removal, writes to the disk. -/
theorem step_store (own : e.own = true) : (s.step me e).store = s.store ∨
    ∃ fault a l us n, e = .act fault ∧ s.phase = .deleting (a :: l) us n := by
  unfold System.step
  split
  · cases own
  · cases own
  · refine .inl ?_
    unfold System.prepare
    split
    · rfl
    · split <;> rfl
  · refine .inl ?_
    unfold System.prepared
    split <;> rfl
  · refine .inl ?_
    unfold System.grab
    split <;> rfl
  · rename_i fault l us n hphase
    cases l with
    | nil => exact .inl rfl
    | cons a l => exact .inr ⟨fault, a, l, us, n, rfl, hphase⟩
  · refine .inl ?_
    unfold System.finalize
    split
    · rfl
    · split <;> rfl
  · exact .inl rfl

theorem Standing.guarded (standing : Standing me s) (covered : Covered s e) :
    Guarded me s e := by
  constructor
  · intro own v
    rcases @step_store θ _ me s e own with hstore | ⟨fault, a, l, us, n, rfl, hphase⟩
    · rw [hstore]
      exact .inl (.refl v _)
    · have howns := standing.owns
      rw [hphase] at howns
      obtain ⟨-, hold, batched⟩ := howns
      rw [act_store hphase]
      rcases batched a List.mem_cons_self with rfl | ⟨u, hu, within⟩
      · unfold Covered at covered
        rw [hphase] at covered
        rw [leaves_catalog]
        by_cases htakes : Takes s.store (fault.getD .nothing) v
        · exact .inr ((hold.2 v).mpr (covered v htakes))
        · rw [takes_iff, not_not] at htakes
          exact .inl htakes
      · by_cases hv : v = u
        · subst hv
          exact .inr ((hold.2 v).mpr hu)
        · exact .inl (within.leaves hv fault s.store)
  · intro us n i u hphase hi hu
    have howns := standing.owns
    rw [hphase] at howns
    obtain ⟨-, hold⟩ := howns
    rw [held_next hi hu] at hold
    exact (hold.2 u).mpr List.mem_cons_self

/-- The reverse: where it holds what it deletes, nothing else was in the folder. -/
theorem Standing.covered (standing : Standing me s) (guarded : Guarded me s e) :
    Covered s e := by
  unfold Covered
  split
  · rename_i fault l us n hphase
    intro v htakes
    have howns := standing.owns
    rw [hphase] at howns
    have hsame := guarded.deleted rfl v
    rw [act_store hphase, leaves_catalog] at hsame
    exact (howns.2.1.2 v).mp (hsame.resolve_left (takes_iff.mp htakes))
  · trivial

theorem Standing.released (standing : Standing me s) : Released me s := by
  intro hphase
  have howns := standing.owns
  rw [hphase] at howns
  exact HoldsOnly.none howns

/-- In every run among other tasks the removal deletes only what it has locked, just when
the folder of the VM is never deleted with a sequence that was not locked for it; and it
releases what it has locked. -/
theorem removal_guarded_iff (me : θ) (store : Store) (es : List (Event θ))
    (enabled : Steps (System.step me) (System.Enabled me)
      ⟨Metadata.start, store, .ready⟩ es) :
    Along (System.step me) (Released me) (Guarded me) ⟨Metadata.start, store, .ready⟩ es ↔
      Steps (System.step me) Covered ⟨Metadata.start, store, .ready⟩ es :=
  @along_iff_steps _ _ _ _ _ _ _ (System.Enabled me) _ (Standing me)
    (fun _ standing => standing.released)
    (fun _ _ standing _ covered => standing.guarded covered)
    (fun _ _ standing enabled _ => standing.step enabled)
    (fun _ _ standing _ guarded _ => standing.covered guarded)
    ⟨Metadata.start_recorded, List.nodup_nil, fun _ => by simp [Metadata.start]⟩ enabled

/-- What another thread has locked is not deleted. -/
theorem Guarded.others {t : θ} {v : String} (guarded : Guarded me s e)
    (recorded : Recorded s.locks) (own : e.own = true) (ht : t ≠ me)
    (holds : s.locks.2.exclusive t v = true ∨ s.locks.2.shared t v ≠ 0) :
    SameAt v s.store (s.step me e).store := by
  refine (guarded.deleted own v).resolve_right fun hme => ?_
  rcases holds with hexclusive | hshared
  · exact ht (recorded.one v t me hexclusive hme)
  · exact hshared (recorded.alone v me t hme)

/-- The removal of all backups of a VM, by a user who may write to these sequences. -/
def Task.removeAll (writable : List String) : Task where
  m_sBackupId := none
  keepChain := false
  ignoreNotExists := false
  getIndexForRead := writable
  getIndexForWrite := writable
  getSequence := fun u =>
    { m_uuid := u, index := [0], ascending := List.pairwise_singleton _ _
      getTibFileList := fun _ => [], apart := fun _ _ _ _ h => absurd h List.not_mem_nil
      loadFromFile := fun _ => .success }
  uuids := fun _ => rfl
  catalog := ⟨.ok 4, 4⟩
  prepareLock := ⟨fun _ => false, fun _ => false⟩
  executeLock := ⟨fun _ => false, fun _ => false⟩

/-- The sequences with these uuids, one backup each. -/
def Store.full (us : List String) : Store where
  lair := fun u n => decide (u ∈ us) && n == 0
  data := fun _ _ => .backupItem
  file := fun _ => false
  base := fun _ => none

/-- All of the folder is locked, deleted, and released. -/
theorem removal_of_one_guarded :
    Along (System.step true) (Released true) (Guarded true)
      (⟨Metadata.start, .full ["mine"], .ready⟩ : System Bool)
      [.prepare (.removeAll ["mine"]), .grab, .grab, .act none, .act none, .finalize, .finalize] := by
  refine (removal_guarded_iff true (.full ["mine"])
    [.prepare (.removeAll ["mine"]), .grab, .grab, .act none, .act none, .finalize, .finalize]
    ⟨trivial, trivial, trivial, trivial, trivial, trivial, trivial, trivial⟩).mpr
      ⟨trivial, trivial, trivial, ?_, trivial, trivial, trivial, trivial⟩
  rintro v (⟨n, hlair, -⟩ | ⟨f, hfile, -⟩)
  · exact of_decide_eq_true (Bool.and_eq_true_iff.mp hlair).1
  · cases hfile

/-- A sequence that another thread has locked, and the user may not write to, is deleted
with the folder. -/
theorem unlocked_deleted : ¬ ∀ (store : Store) (es : List (Event Bool)),
    Steps (System.step true) (System.Enabled true) ⟨Metadata.start, store, .ready⟩ es →
    Along (System.step true) (Released true) (Guarded true)
      ⟨Metadata.start, store, .ready⟩ es := by
  intro h
  have hrun := h (.full ["mine", "other"]) [.other ⟨false, .grabExclusive, "other"⟩,
    .prepare (.removeAll ["mine"]), .grab, .grab, .act none]
    ⟨⟨Bool.false_ne_true, fun hcall => by cases hcall⟩, trivial, trivial, trivial, trivial, trivial⟩
  have hact : Guarded true _ (.act none) := hrun.2.2.2.2.2.2.2.2.2.1
  rcases hact.deleted rfl "other" with same | hheld
  · exact absurd (same.lair 0) (by decide)
  · exact absurd hheld (by decide)

end DispService.Backup
