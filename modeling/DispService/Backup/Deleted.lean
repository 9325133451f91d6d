import DispService.Backup.Tail

/-! What a batch deletes when none of its actions fails, and what it never touches. -/
namespace DispService.Backup

open Remove

section Success

variable {l : List Action} {s : Store}

/-- A success has performed all the actions. -/
theorem run_ok {stop : Stop} (h : (run stop l s).1.failed = false) :
    (run stop l s).2 = performAll l s := by
  induction l generalizing stop s with
  | nil => cases stop <;> rfl
  | cons a l ih =>
      have hstep : ∀ stop', run stop (a :: l) s =
          (if (a.perform s).1.failed then a.perform s else run stop' l (a.perform s).2) →
            (run stop (a :: l) s).2 = performAll (a :: l) s := by
        intro stop' hrun
        rw [hrun] at h ⊢
        split at h
        · rename_i hfail
          rw [hfail] at h
          cases h
        · rename_i hok
          rw [if_neg hok]
          exact ih h
      match stop with
      | none => exact hstep none rfl
      | some (k + 1, left) => exact hstep (some (k, left)) rfl
      | some (0, left) => exact absurd ((failure_failed a).symm.trans h) (by decide)

/-- The codes of the actions. -/
theorem run_code (stop : Stop) :
    (run stop l s).1 ≠ .backupBackupUuidNotFound := by
  induction l generalizing stop s with
  | nil => cases stop <;> exact fun hno => by cases hno
  | cons a l ih =>
      have hperform : (a.perform s).1 ≠ .backupBackupUuidNotFound := by
        cases a with
        | save from_ to_ uuid number => cases from_ <;> cases to_ <;> exact fun hno => by cases hno
        | rmdir folder => exact fun hno => by cases hno
        | unlink file => exact fun hno => by cases hno
        | rebase file base => exact fun hno => by cases hno
      have hstep : ∀ stop', (if (a.perform s).1.failed then a.perform s
          else run stop' l (a.perform s).2).1 ≠ .backupBackupUuidNotFound := by
        intro stop'
        split
        · exact hperform
        · exact ih stop'
      match stop with
      | none => exact hstep none
      | some (k + 1, left) => exact hstep (some (k, left))
      | some (0, left) => cases a <;> exact fun hno => by cases hno

end Success

/-- The backups of another sequence are as they were. -/
structure SameAt (v : String) (s s' : Store) : Prop where
  lair : ∀ n, s'.lair v n = s.lair v n
  file : ∀ f, s'.file (v, f) = s.file (v, f)

theorem SameAt.trans {v : String} {s s' s'' : Store} (h : SameAt v s s') (h' : SameAt v s' s'') :
    SameAt v s s'' where
  lair := fun n => (h'.lair n).trans (h.lair n)
  file := fun f => (h'.file f).trans (h.file f)

/-- The action deletes nothing but what belongs to the sequence. -/
def Action.Within (u : String) : Action → Prop
  | .rmdir folder => ∀ v, v ≠ u → (∀ n, folder.hasLair v n = false) ∧
      ∀ f, folder.hasFile (v, f) = false
  | .unlink f => f.1 = u
  | .rebase _ _ => True
  | .save _ _ _ _ => True

section Within

variable {u v : String} {a : Action} {s : Store}

theorem clear_sameAt {folder : Folder} (hlair : ∀ n, folder.hasLair v n = false)
    (hfile : ∀ f, folder.hasFile (v, f) = false) (left : Left) :
    SameAt v s (s.clear folder left) := by
  constructor
  · intro n
    unfold Store.clear
    simp [hlair n]
  · intro f
    unfold Store.clear
    simp [hfile f]

theorem Action.Within.perform (h : a.Within u) (hv : v ≠ u) : SameAt v s (a.perform s).2 := by
  cases a with
  | rmdir folder => exact clear_sameAt (h v hv).1 (h v hv).2 _
  | unlink file =>
      refine ⟨fun _ => rfl, fun f => ?_⟩
      have hne : ((v, f) != file) = true := by
        rw [bne_iff_ne]
        exact fun heq => hv ((congrArg Prod.fst heq).trans h)
      unfold Action.perform
      simp [hne]
  | rebase file base => exact ⟨fun _ => rfl, fun _ => rfl⟩
  | save from_ to_ uuid number =>
      cases from_ <;> cases to_ <;> exact ⟨fun _ => rfl, fun _ => rfl⟩

theorem Action.Within.interrupted (h : a.Within u) (hv : v ≠ u) (left : Left) :
    SameAt v s (a.interrupted left s) := by
  cases a with
  | rmdir folder => exact clear_sameAt (h v hv).1 (h v hv).2 left
  | unlink file => exact ⟨fun _ => rfl, fun _ => rfl⟩
  | rebase file base => exact ⟨fun _ => rfl, fun _ => rfl⟩
  | save from_ to_ uuid number => exact ⟨fun _ => rfl, fun _ => rfl⟩

theorem run_sameAt {l : List Action} (hl : ∀ a ∈ l, a.Within u) (hv : v ≠ u) (stop : Stop) :
    SameAt v s (run stop l s).2 := by
  induction l generalizing stop s with
  | nil => cases stop <;> exact ⟨fun _ => rfl, fun _ => rfl⟩
  | cons a l ih =>
      obtain ⟨ha, hl⟩ := List.forall_mem_cons.mp hl
      have hstep : ∀ stop', SameAt v s (if (a.perform s).1.failed then a.perform s
          else run stop' l (a.perform s).2).2 := by
        intro stop'
        split
        · exact ha.perform hv
        · exact (ha.perform hv).trans (ih hl stop')
      match stop with
      | none => exact hstep none
      | some (k + 1, left) => exact hstep (some (k, left))
      | some (0, left) => exact ha.interrupted hv left

end Within

section Batches

variable {q : Sequence} {number : Nat}

theorem loaded_lair {n : Nat} {x : String × Nat} (h : (Item.loaded q n).m_lair = some x) :
    x = (q.m_uuid, n) := by
  unfold Item.loaded Item.load at h
  dsimp only at h
  split at h
  · cases h
  · split at h
    · cases h
    · exact (Option.some.inj h).symm

theorem unlinkItem_within (n : Nat) :
    ∀ a ∈ unlinkItem (Item.loaded q n), a.Within q.m_uuid := by
  intro a ha
  cases List.mem_cons.mp ha with
  | inr hin =>
      obtain ⟨f, hf, rfl⟩ := List.mem_map.mp hin
      obtain ⟨name, -, rfl⟩ := List.mem_map.mp (loaded_files f hf)
      rfl
  | inl heq =>
      subst heq
      intro v hv
      unfold Item.getLair
      split
      · rename_i uuid k hlair
        cases loaded_lair hlair
        unfold Folder.hasLair Folder.hasFile
        simp [hv]
      · exact ⟨fun _ => rfl, fun _ => rfl⟩

theorem getParent_within (n : Nat) :
    (Action.rmdir (Item.loaded q n).getParent).Within q.m_uuid := by
  intro v hv
  unfold Item.getParent
  split
  · rename_i uuid k hlair
    cases loaded_lair hlair
    unfold Folder.hasLair Folder.hasFile
    simp [hv]
  · exact ⟨fun _ => rfl, fun _ => rfl⟩

theorem apply_within (x : Shifter) (n : Nat) : ∀ a ∈ x.apply q n, a.Within q.m_uuid := by
  intro a ha
  unfold Shifter.apply at ha
  dsimp only at ha
  split at ha
  · exact unlinkItem_within n a ha
  · cases List.mem_append.mp ha with
    | inr hin => exact unlinkItem_within n a hin
    | inl hin =>
        cases List.mem_append.mp hin with
        | inl hin =>
            obtain ⟨i, hi, rfl⟩ := List.mem_mapIdx.mp hin
            trivial
        | inr hin =>
            obtain rfl := List.mem_singleton.mp hin
            trivial

theorem shifter_within {c : Confectioner.Catalog} {l : List Action}
    (h : Confectioner.shifter c q number = .ok l) : ∀ a ∈ l, a.Within q.m_uuid := by
  unfold Confectioner.shifter at h
  split at h
  · cases h
  · split at h
    · cases h
    · dsimp only at h
      split at h
      · cases h
      · cases h
        exact apply_within _ number

theorem flavor_within : ∀ a ∈ Confectioner.flavor q number, a.Within q.m_uuid := by
  intro a ha
  unfold Confectioner.flavor at ha
  dsimp only at ha
  rw [collect_items, List.nil_append] at ha
  split at ha
  · cases hindex : q.index with
    | nil =>
        rw [hindex] at ha
        cases ha
    | cons h rest =>
        rw [hindex] at ha
        obtain rfl := List.mem_singleton.mp ha
        exact getParent_within h
  · obtain ⟨x, hx, hin⟩ := List.mem_flatMap.mp ha
    obtain ⟨n, -, rfl⟩ := List.mem_map.mp (List.mem_of_mem_drop hx)
    exact unlinkItem_within n a hin

end Batches

section Effect

variable {q : Sequence} {s : Store}

theorem clear_unnamed (left : Left) : s.clear .unnamed left = s := by
  unfold Store.clear Folder.hasLair Folder.hasFile
  simp

theorem performAll_append (l l' : List Action) (s : Store) :
    performAll (l ++ l') s = performAll l' (performAll l s) :=
  List.foldl_append

/-- The files that are unlinked, and those that were missing, are missing. -/
theorem unlinks_file (l : List File) (s : Store) (f : File) :
    (performAll (l.map .unlink) s).file f = (s.file f && !l.contains f) := by
  induction l generalizing s with
  | nil => simp [performAll]
  | cons g l ih =>
      have hcons : performAll ((g :: l).map .unlink) s =
          performAll (l.map .unlink) ((Action.unlink g).perform s).2 := rfl
      rw [hcons, ih, List.contains_cons, Bool.not_or, ← Bool.and_assoc]
      rfl

theorem unlinks_lair (l : List File) (s : Store) :
    (performAll (l.map .unlink) s).lair = s.lair := by
  induction l generalizing s with
  | nil => rfl
  | cons g l ih => exact ih _

/-- The item can be read. -/
def Loads (q : Sequence) (n : Nat) : Prop :=
  n ∈ q.index ∧ (q.loadFromFile n).failed = false

theorem unlinkItem_same {a : Nat} (h : ¬ Loads q a) (s : Store) :
    performAll (unlinkItem (Item.loaded q a)) s = s := by
  have hitem : unlinkItem (Item.loaded q a) = [.rmdir .unnamed] := by
    by_cases ha : a ∈ q.index
    · exact unlinkItem_failed (Bool.not_eq_false _ ▸ fun hok => h ⟨ha, hok⟩)
    · unfold Item.loaded Item.load
      rw [if_pos ha]
      rfl
  rw [hitem]
  exact clear_unnamed _

section Loads

variable {a : Nat} (h : Loads q a)
include h

theorem performAll_unlinkItem (s : Store) :
    performAll (unlinkItem (Item.loaded q a)) s =
      performAll ((q.files a).map .unlink) ((Action.rmdir (.item q.m_uuid a)).perform s).2 := by
  rw [unlinkItem_ok h.1 h.2]
  rfl

theorem unlinkItem_lair_self (s : Store) :
    (performAll (unlinkItem (Item.loaded q a)) s).lair q.m_uuid a = false := by
  rw [performAll_unlinkItem h, unlinks_lair]
  unfold Action.perform Store.clear Folder.hasLair
  simp

theorem unlinkItem_file {g : File} (hg : g ∈ q.files a) (s : Store) :
    (performAll (unlinkItem (Item.loaded q a)) s).file g = false := by
  rw [performAll_unlinkItem h, unlinks_file, List.contains_iff_mem.mpr hg]
  simp

end Loads

/-- The folder of another item is not touched. -/
theorem unlinkItem_lair {a n : Nat} (hne : n = a → ¬ Loads q a) (s : Store) :
    (performAll (unlinkItem (Item.loaded q a)) s).lair q.m_uuid n = s.lair q.m_uuid n := by
  by_cases h : Loads q a
  · have hne : n ≠ a := fun heq => hne heq h
    rw [performAll_unlinkItem h, unlinks_lair]
    unfold Action.perform Store.clear Folder.hasLair
    simp [hne]
  · rw [unlinkItem_same h]

theorem unlinkItem_file_other {a : Nat} {f : File} (hf : f ∉ q.files a) (s : Store) :
    (performAll (unlinkItem (Item.loaded q a)) s).file f = s.file f := by
  by_cases h : Loads q a
  · rw [performAll_unlinkItem h, unlinks_file]
    unfold Action.perform Store.clear Folder.hasFile
    simp [hf]
  · rw [unlinkItem_same h]

/-- What is gone stays so. -/
theorem unlinkItem_gone (a : Nat) (s : Store) :
    (∀ n, s.lair q.m_uuid n = false →
      (performAll (unlinkItem (Item.loaded q a)) s).lair q.m_uuid n = false) ∧
    ∀ f, s.file f = false → (performAll (unlinkItem (Item.loaded q a)) s).file f = false := by
  by_cases h : Loads q a
  · rw [performAll_unlinkItem h, unlinks_lair]
    unfold Action.perform Store.clear
    constructor
    · intro n hn
      simp [hn]
    · intro f hf
      rw [unlinks_file]
      simp [hf]
  · rw [unlinkItem_same h]
    exact ⟨fun _ hn => hn, fun _ hf => hf⟩

section Items

variable {l : List Nat}

/-- The items one after another. -/
abbrev unlinkItems (q : Sequence) (l : List Nat) : List Action :=
  l.flatMap fun a => unlinkItem (Item.loaded q a)

theorem flatMap_removes (l : List Nat) :
    ∀ a ∈ l.flatMap fun n => unlinkItem (Item.loaded q n), a.removes = true := by
  intro a ha
  obtain ⟨n, -, hn⟩ := List.mem_flatMap.mp ha
  exact unlinkItem_removes _ a hn

theorem unlinkItems_cons (a : Nat) (s : Store) :
    performAll (unlinkItems q (a :: l)) s =
      performAll (unlinkItems q l) (performAll (unlinkItem (Item.loaded q a)) s) := by
  rw [unlinkItems, List.flatMap_cons, performAll_append]

theorem unlinkItems_lair {n : Nat} (hn : n ∈ l → ¬ Loads q n) (s : Store) :
    (performAll (unlinkItems q l) s).lair q.m_uuid n = s.lair q.m_uuid n := by
  induction l generalizing s with
  | nil => rfl
  | cons a l ih =>
      rw [unlinkItems_cons, ih fun hin => hn (List.mem_cons_of_mem a hin)]
      apply unlinkItem_lair
      intro heq
      exact heq ▸ hn (heq ▸ List.mem_cons_self)

theorem unlinkItems_file {f : File} (hf : ∀ a ∈ l, f ∉ q.files a) (s : Store) :
    (performAll (unlinkItems q l) s).file f = s.file f := by
  induction l generalizing s with
  | nil => rfl
  | cons a l ih =>
      obtain ⟨ha, hl⟩ := List.forall_mem_cons.mp hf
      rw [unlinkItems_cons, ih hl, unlinkItem_file_other ha]

theorem unlinkItems_gone (s : Store) :
    (∀ n, s.lair q.m_uuid n = false → (performAll (unlinkItems q l) s).lair q.m_uuid n = false) ∧
    ∀ f, s.file f = false → (performAll (unlinkItems q l) s).file f = false := by
  induction l generalizing s with
  | nil => exact ⟨fun _ hn => hn, fun _ hf => hf⟩
  | cons a l ih =>
      rw [unlinkItems_cons]
      constructor
      · exact fun n hn => (ih _).1 n ((unlinkItem_gone a s).1 n hn)
      · exact fun f hf => (ih _).2 f ((unlinkItem_gone a s).2 f hf)

theorem unlinkItems_done {n : Nat} (hn : n ∈ l) (h : Loads q n) (s : Store) :
    (performAll (unlinkItems q l) s).lair q.m_uuid n = false ∧
      ∀ f ∈ q.files n, (performAll (unlinkItems q l) s).file f = false := by
  induction l generalizing s with
  | nil => cases hn
  | cons a l ih =>
      rw [unlinkItems_cons]
      cases List.mem_cons.mp hn with
      | inr hin => exact ih hin _
      | inl heq =>
          subst heq
          constructor
          · exact (unlinkItems_gone _).1 n (unlinkItem_lair_self h s)
          · exact fun f hf => (unlinkItems_gone _).2 f (unlinkItem_file h hf s)

end Items

end Effect

end DispService.Backup
