import DispService.Backup.Deleted

/-! When a removal deletes what was asked for, and nothing else. -/
namespace DispService.Backup

open Remove

/-- The items that a removal is to delete. -/
def Doomed (keepChain : Bool) (number n : Nat) : Prop :=
  if keepChain then n = number else number ≤ n

/-- The item and its archive files are deleted. -/
def Gone (q : Sequence) (n : Nat) (s : Store) : Prop :=
  s.lair q.m_uuid n = false ∧ ∀ f ∈ q.files n, s.file f = false

/-- The item is as it was. -/
def Intact (q : Sequence) (n : Nat) (s s' : Store) : Prop :=
  s'.lair q.m_uuid n = s.lair q.m_uuid n ∧ ∀ f ∈ q.files n, s'.file f = s.file f

/-- The items that are to be deleted are gone, the others as they were. -/
def Deletes (keepChain : Bool) (q : Sequence) (number : Nat) (s s' : Store) : Prop :=
  ∀ n ∈ q.index, (Doomed keepChain number n → Gone q n s') ∧
    (¬ Doomed keepChain number n → Intact q n s s')

section Deletes

variable {q : Sequence} {number : Nat} {s : Store}

/-- Each of the items goes if it can be read. -/
theorem deletes_items {keepChain : Bool} {l : List Nat}
    (hl : ∀ n ∈ q.index, n ∈ l ↔ Doomed keepChain number n)
    (hloads : ∀ n ∈ q.index, n ∈ l → Loads q n) :
    Deletes keepChain q number s (performAll (unlinkItems q l) s) := by
  intro n hn
  constructor
  · intro hdoomed
    have hin := (hl n hn).mpr hdoomed
    exact unlinkItems_done hin (hloads n hn hin) s
  · intro hkept
    have hout : n ∉ l := fun hin => hkept ((hl n hn).mp hin)
    constructor
    · exact unlinkItems_lair (fun hin => absurd hin hout) s
    · intro f hf
      apply unlinkItems_file
      intro a ha hfa
      exact hout (Sequence.files_apart hf hfa ▸ ha)

/-- The backups that are all there. -/
def full : Store where
  lair := fun _ _ => true
  data := fun _ _ => .partialBackupItem
  file := fun _ => true
  base := fun _ => none

theorem not_deletes_kept {keepChain : Bool} {n : Nat} (hn : n ∈ q.index)
    (hdoomed : Doomed keepChain number n) {s s' : Store} (hkept : s'.lair q.m_uuid n = true) :
    ¬ Deletes keepChain q number s s' := by
  intro h
  rw [((h n hn).1 hdoomed).1] at hkept
  cases hkept

theorem Deletes.congr {keepChain : Bool} {s s' s'' : Store} (hlair : s'.lair = s.lair)
    (hfile : s'.file = s.file) (h : Deletes keepChain q number s' s'') :
    Deletes keepChain q number s s'' := by
  intro n hn
  obtain ⟨hgone, hintact⟩ := h n hn
  unfold Intact at hintact ⊢
  rw [hlair, hfile] at hintact
  exact ⟨hgone, hintact⟩

theorem deletes_sequence (hhead : q.index.head? = some number) :
    Deletes false q number s ((Action.rmdir (.sequence q.m_uuid)).perform s).2 := by
  intro n hn
  constructor
  · intro _
    unfold Gone Action.perform Store.clear Folder.hasLair Folder.hasFile
    constructor
    · simp
    · intro f hf
      obtain ⟨name, -, rfl⟩ := List.mem_map.mp hf
      simp
  · intro hkept
    have hle : number ≤ n := by
      have hasc := q.ascending
      cases hindex : q.index with
      | nil =>
          rw [hindex] at hn
          cases hn
      | cons h rest =>
          rw [hindex] at hhead hasc hn
          obtain rfl := Option.some.inj hhead
          cases List.mem_cons.mp hn with
          | inl heq => exact Nat.le_of_eq heq.symm
          | inr hin => exact Nat.le_of_lt (List.rel_of_pairwise_cons hasc hin)
    exact absurd hle hkept

end Deletes

section Shift

variable {q : Sequence} {s : Store}

/-- The actions before the removal delete nothing. -/
theorem rebaseItem_keeps (x p : Item) (s : Store) :
    (performAll (rebaseItem x p) s).lair = s.lair ∧
      (performAll (rebaseItem x p) s).file = s.file := by
  have hall : ∀ (l : List Action), (∀ a ∈ l, ∃ f b, a = .rebase f b) → ∀ s,
      (performAll l s).lair = s.lair ∧ (performAll l s).file = s.file := by
    intro l
    induction l with
    | nil => exact fun _ _ => ⟨rfl, rfl⟩
    | cons a l ih =>
        intro hl s
        obtain ⟨f, b, rfl⟩ := hl a List.mem_cons_self
        exact ih (fun x hx => hl x (List.mem_cons_of_mem _ hx)) _
  apply hall
  intro a ha
  obtain ⟨i, hi, rfl⟩ := List.mem_mapIdx.mp ha
  exact ⟨_, _, rfl⟩

theorem save_keeps (from_ to_ : Data) (u : String) (n : Nat) (s : Store) :
    ((Action.save from_ to_ u n).perform s).2.lair = s.lair ∧
      ((Action.save from_ to_ u n).perform s).2.file = s.file := by
  cases to_ <;> exact ⟨rfl, rfl⟩

/-- The removal of the item comes after actions that delete nothing. -/
theorem apply_deletes (x : Shifter) (number : Nat) (s : Store) :
    ∃ s', s'.lair = s.lair ∧ s'.file = s.file ∧
      performAll (x.apply q number) s = performAll (unlinkItem (Item.loaded q number)) s' := by
  unfold Shifter.apply
  dsimp only
  split
  · exact ⟨s, rfl, rfl, rfl⟩
  · rw [performAll_append, performAll_append]
    refine ⟨_, ?_, ?_, rfl⟩
    · exact (save_keeps _ _ _ _ _).1.trans (rebaseItem_keeps _ _ s).1
    · exact (save_keeps _ _ _ _ _).2.trans (rebaseItem_keeps _ _ s).2

/-- An action that always fails makes the batch fail. -/
theorem run_append_failed {l l' : List Action} {a : Action}
    (ha : ∀ s, (a.perform s).1.failed = true) (stop : Stop) :
    (run stop (l ++ a :: l') s).1.failed = true := by
  have hstep : ∀ (b : Action) (rest : List Action) (stop : Stop) (s : Store),
      (∀ stop', (b.perform s).1.failed = false →
        (run stop' rest (b.perform s).2).1.failed = true) →
      (run stop (b :: rest) s).1.failed = true := by
    intro b rest stop s hrest
    have hboth : ∀ stop', (if (b.perform s).1.failed then b.perform s
        else run stop' rest (b.perform s).2).1.failed = true := by
      intro stop'
      split
      · rename_i hfail
        exact hfail
      · rename_i hok
        exact hrest stop' (Bool.eq_false_iff.mpr hok)
    match stop with
    | none => exact hboth none
    | some (k + 1, left) => exact hboth (some (k, left))
    | some (0, left) => exact failure_failed b
  induction l generalizing stop s with
  | nil =>
      apply hstep
      intro _ hok
      rw [ha s] at hok
      cases hok
  | cons b l ih =>
      apply hstep
      exact fun stop' _ => ih stop'

theorem apply_failed {preceding : Option Nat} {number n : Nat} (hn : n ∈ q.index)
    (h : ¬ Loads q n) (stop : Stop) :
    (run stop (Shifter.apply ⟨some n, preceding⟩ q number) s).1.failed = true := by
  have hload : (q.loadFromFile n).failed = true := by
    cases hload : (q.loadFromFile n).failed
    · exact absurd ⟨hn, hload⟩ h
    · rfl
  unfold Shifter.apply
  dsimp only
  rw [loaded_failed hload, List.append_assoc]
  apply run_append_failed
  intro s
  cases (Item.loaded q number).m_data <;> rfl

theorem run_performed {l : List Action} (h : ∀ a ∈ l, ∀ s, (a.perform s).1.failed = false) :
    run none l s = (.success, performAll l s) := by
  induction l generalizing s with
  | nil => rfl
  | cons a l ih =>
      obtain ⟨ha, hl⟩ := List.forall_mem_cons.mp h
      exact (if_neg (Bool.eq_false_iff.mp (ha s))).trans (ih hl)

/-- The chain is shifted if the next item, if there is one, can be read. -/
theorem apply_performed {next preceding : Option Nat} {number : Nat}
    (h : ∀ n ∈ next, Loads q n ∧ q.index.head? ≠ some n) :
    run none (Shifter.apply ⟨next, preceding⟩ q number) s =
      (.success, performAll (Shifter.apply ⟨next, preceding⟩ q number) s) := by
  apply run_performed
  intro a ha s
  unfold Shifter.apply at ha
  dsimp only at ha
  split at ha
  · exact perform_ok (unlinkItem_removes _ a ha) s
  · rename_i n
    obtain ⟨⟨hn, hload⟩, hhead⟩ := h n rfl
    cases List.mem_append.mp ha with
    | inr hin => exact perform_ok (unlinkItem_removes _ a hin) s
    | inl hin =>
        cases List.mem_append.mp hin with
        | inl hin =>
            obtain ⟨i, hi, rfl⟩ := List.mem_mapIdx.mp hin
            rfl
        | inr hin =>
            obtain rfl := List.mem_singleton.mp hin
            rw [loaded_ok hn hload, if_neg hhead]
            rfl

end Shift

end DispService.Backup
