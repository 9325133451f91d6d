import DispService.Backup.Exact

/-! The removal of one backup of a VM, from the request to what is deleted. -/
namespace DispService.Backup

open Remove

namespace Task

/-- What the removal of an item is to do, whatever action of it fails. -/
structure Exact (t : Task) (u : String) (number : Nat) : Prop where
  absent : number ∉ (t.getSequence u).index →
    ∀ stop s, (t.run_body stop s).1.failed = true ∧ (t.run_body stop s).2 = s
  deletes : number ∈ (t.getSequence u).index →
    ∀ stop s, (t.run_body stop s).1.failed = false →
      Deletes t.keepChain (t.getSequence u) number s (t.run_body stop s).2
  others : ∀ v ∈ t.getIndexForRead, v ≠ u → ∀ stop s, SameAt v s (t.run_body stop s).2

/-- The removal deletes what was asked for, if it is about an item of a sequence. -/
def DeletesAsked (t : Task) : Prop :=
  ∀ u number, t.m_sBackupId = some (u, number) → u ∈ t.getIndexForRead → t.Exact u number

section Safe

variable (t : Task) (u : String) (number : Nat)

/-- The only item of the only sequence. -/
def Single : Prop :=
  (t.getSequence u).index.length = 1 ∧ t.getIndexForRead.length = 1

instance : Decidable (Single t u) :=
  inferInstanceAs (Decidable (_ ∧ _))

def SafeAll : Prop :=
  number ∈ (t.getSequence u).index ∨ t.getIndexForWrite = [] ∨
    (t.executeLock.grabAll t.getIndexForWrite).failed = true

/-- The item can be read, or the one after it cannot. -/
def SafeShift : Prop :=
  number ∈ (t.getSequence u).index →
    (∃ version, t.catalog.getVersion = .ok version ∧ t.catalog.BACKUP_PROTO_V4 ≤ version) →
      Loads (t.getSequence u) number ∨
        ∃ n, (t.getSequence u).Follows number n ∧ ¬ Loads (t.getSequence u) n

/-- The number is that of an item, and the items that are to go can be read. -/
def SafeTail : Prop :=
  if number ∈ (t.getSequence u).index then
    if (t.getSequence u).index.head? = some number then Loads (t.getSequence u) number
    else ∀ n ∈ (t.getSequence u).index, number ≤ n → Loads (t.getSequence u) n
  else (t.getSequence u).index = []

def SafeFor : Prop :=
  (t.prepareLock.grabShared u).failed = false →
    if Single t u then SafeAll t u number
    else (t.executeLock.grabAll [u]).failed = false →
      if t.keepChain then SafeShift t u number else SafeTail t u number

end Safe

/-- When the removal deletes what was asked for. -/
def Safe (t : Task) : Prop :=
  ∀ u number, t.m_sBackupId = some (u, number) → u ∈ t.getIndexForRead → SafeFor t u number

section Outcome

variable {t : Task} {u : String} {number : Nat}

theorem grab_code (l : Lock) (u : String) :
    l.grabExclusive u ≠ .backupBackupUuidNotFound := by
  unfold Lock.grabExclusive
  split
  · exact fun hno => by cases hno
  · split <;> exact fun hno => by cases hno

theorem grabAll_code (l : Lock) (us : List String) :
    l.grabAll us ≠ .backupBackupUuidNotFound := by
  induction us with
  | nil => exact fun hno => by cases hno
  | cons u us ih =>
      unfold Lock.grabAll
      split
      · exact grab_code l u
      · exact ih

theorem run_body_error {e : PrlResult} (h : t.prepare = .error e)
    (he : e ≠ .backupBackupUuidNotFound) (stop : Stop) (s : Store) :
    t.run_body stop s = (e, s) := by
  unfold run_body
  rw [h]
  exact if_neg fun hno => he hno.1

theorem do_code (stop : Stop) (x : List Action × List String) (s : Store) :
    (t.do_ stop x s).1 ≠ .backupBackupUuidNotFound := by
  unfold do_
  split
  · exact grabAll_code t.executeLock x.2
  · cases hl : x.1 with
    | nil => cases stop <;> exact fun hno => by cases hno
    | cons a l =>
        rw [execute_eq (List.cons_ne_nil a l)]
        exact run_code stop

theorem run_body_ok {x : List Action × List String} (h : t.prepare = .ok x) (stop : Stop)
    (s : Store) : t.run_body stop s = t.do_ stop x s := by
  unfold run_body
  rw [h]
  exact if_neg fun hno => do_code stop x s hno.1

theorem run_body_locked {l : List Action} {us : List String} (h : t.prepare = .ok (l, us))
    (hlock : (t.executeLock.grabAll us).failed = true) (stop : Stop) (s : Store) :
    t.run_body stop s = (t.executeLock.grabAll us, s) :=
  (run_body_ok h stop s).trans (if_pos hlock)

theorem run_body_run {l : List Action} {us : List String} (h : t.prepare = .ok (l, us))
    (hlock : (t.executeLock.grabAll us).failed = false) (hl : l ≠ []) (stop : Stop) (s : Store) :
    t.run_body stop s = run stop l s := by
  rw [run_body_ok h, do_, if_neg (Bool.eq_false_iff.mp hlock)]
  exact execute_eq hl stop s

/-- A removal that is refused deletes nothing. -/
theorem exact_of_refused (h : ∀ stop s, ∃ e : PrlResult, e.failed = true ∧
    t.run_body stop s = (e, s)) : t.Exact u number := by
  constructor
  · intro _ stop s
    obtain ⟨e, he, hrun⟩ := h stop s
    rw [hrun]
    exact ⟨he, rfl⟩
  · intro _ stop s hok
    obtain ⟨e, he, hrun⟩ := h stop s
    rw [hrun] at hok
    exact absurd (hok.symm.trans he) Bool.false_ne_true
  · intro v _ _ stop s
    obtain ⟨e, he, hrun⟩ := h stop s
    rw [hrun]
    exact ⟨fun _ => rfl, fun _ => rfl⟩

theorem exact_of_error {e : PrlResult} (h : t.prepare = .error e) (hfail : e.failed = true)
    (he : e ≠ .backupBackupUuidNotFound) : t.Exact u number :=
  exact_of_refused fun stop s => ⟨e, hfail, run_body_error h he stop s⟩

theorem exact_of_locked {l : List Action} {us : List String} (h : t.prepare = .ok (l, us))
    (hlock : (t.executeLock.grabAll us).failed = true) : t.Exact u number :=
  exact_of_refused fun stop s => ⟨_, hlock, run_body_locked h hlock stop s⟩

/-- What the batch has to do for an item of the sequence. -/
theorem exact_of_run {l : List Action} (hrun : ∀ stop s, t.run_body stop s = run stop l s)
    (hmem : number ∈ (t.getSequence u).index)
    (hdeletes : ∀ s, Deletes t.keepChain (t.getSequence u) number s (performAll l s))
    (hothers : ∀ v ∈ t.getIndexForRead, v ≠ u → ∀ stop s, SameAt v s (run stop l s).2) :
    t.Exact u number := by
  constructor
  · exact fun hno => absurd hmem hno
  · intro _ stop s hok
    rw [hrun] at hok ⊢
    rw [run_ok hok]
    exact hdeletes s
  · intro v hv hne stop s
    rw [hrun]
    exact hothers v hv hne stop s

/-- A success for a number that is none of an item. -/
theorem not_exact_absent {l : List Action} (hrun : ∀ stop s, t.run_body stop s = run stop l s)
    (hl : ∀ a ∈ l, a.removes = true) (hno : number ∉ (t.getSequence u).index) :
    ¬ t.Exact u number := by
  intro h
  have hfail := (h.absent hno none full).1
  rw [hrun, run_none hl] at hfail
  cases hfail

/-- A success that leaves an item that is to be deleted. -/
theorem not_exact_kept {l : List Action} (hrun : ∀ stop s, t.run_body stop s = run stop l s)
    (hok : run none l full = (.success, performAll l full)) {n : Nat}
    (hn : n ∈ (t.getSequence u).index) (hnumber : number ∈ (t.getSequence u).index)
    (hdoomed : Doomed t.keepChain number n)
    (hkept : (performAll l full).lair (t.getSequence u).m_uuid n = true) :
    ¬ t.Exact u number := by
  intro h
  have hdeletes := h.deletes hnumber none full
  rw [hrun, hok] at hdeletes
  exact not_deletes_kept hn hdoomed hkept (hdeletes rfl)

end Outcome

section Ways

variable {t : Task} {u : String} {number : Nat}

/-- The whole catalogue goes. -/
theorem exact_all_iff (hprepare : t.prepare = t.removeAllBackupsForVm)
    (hu : u ∈ t.getIndexForRead) (hsingle : Single t u) :
    t.Exact u number ↔ SafeAll t u number := by
  unfold SafeAll
  cases hwrite : t.getIndexForWrite with
  | nil =>
      have herror : t.prepare = .error .backupBackupNotFound := by
        rw [hprepare, removeAllBackupsForVm, hwrite]
        rfl
      apply iff_of_true
      · exact exact_of_error herror rfl fun hno => by cases hno
      · exact Or.inr (Or.inl rfl)
  | cons w ws =>
      have hbatch : t.prepare = .ok ([.rmdir .catalog], w :: ws) := by
        rw [hprepare, removeAllBackupsForVm, hwrite]
        rfl
      cases hlock : (t.executeLock.grabAll (w :: ws)).failed
      swap
      · apply iff_of_true (exact_of_locked hbatch hlock)
        exact Or.inr (Or.inr rfl)
      have hrun : ∀ stop s, t.run_body stop s = run stop [.rmdir .catalog] s :=
        run_body_run hbatch hlock (List.cons_ne_nil _ _)
      by_cases hmem : number ∈ (t.getSequence u).index
      · apply iff_of_true _ (Or.inl hmem)
        obtain ⟨n, hindex⟩ := List.length_eq_one_iff.mp hsingle.1
        apply exact_of_run hrun hmem
        · intro s k hk
          have hone : k = number := by
            rw [hindex] at hk hmem
            exact (List.mem_singleton.mp hk).trans (List.mem_singleton.mp hmem).symm
          constructor
          · intro _
            constructor
            · simp [performAll, Action.perform, Store.clear, Folder.hasLair]
            · intro f _
              simp [performAll, Action.perform, Store.clear, Folder.hasFile]
          · intro hkept
            subst hone
            refine absurd ?_ hkept
            unfold Doomed
            split
            · rfl
            · exact Nat.le_refl k
        · intro v hv hne
          obtain ⟨w, hread⟩ := List.length_eq_one_iff.mp hsingle.2
          rw [hread] at hu hv
          exact absurd ((List.mem_singleton.mp hv).trans (List.mem_singleton.mp hu).symm) hne
      · apply iff_of_false
        · apply not_exact_absent hrun _ hmem
          intro a ha
          rw [List.mem_singleton.mp ha]
          rfl
        · rintro (hno | hno | hno)
          · exact hmem hno
          · cases hno
          · cases hno

variable (t u)

theorem within_of_uuids {l : List Action} (hl : ∀ a ∈ l, a.Within (t.getSequence u).m_uuid)
    {v : String} (hne : v ≠ u) (stop : Stop) (s : Store) : SameAt v s (run stop l s).2 := by
  rw [t.uuids u] at hl
  exact run_sameAt hl hne stop

variable {t u}

/-- With the chain kept. -/
theorem exact_shift_iff (hkeep : t.keepChain = true)
    (herror : ∀ e, Confectioner.shifter t.catalog (t.getSequence u) number = .error e →
      t.prepare = .error e)
    (hbatch : ∀ l, Confectioner.shifter t.catalog (t.getSequence u) number = .ok l →
      t.prepare = .ok (l, [u]))
    (hlock : (t.executeLock.grabAll [u]).failed = false) :
    t.Exact u number ↔ SafeShift t u number := by
  unfold SafeShift
  by_cases hmem : number ∈ (t.getSequence u).index
  swap
  · obtain ⟨e, he, hfail, hcode⟩ := @shifter_absent (t.getSequence u) number t.catalog hmem
    apply iff_of_true (exact_of_error (herror e he) hfail hcode)
    exact fun hno => absurd hno hmem
  rw [forall_prop_of_true hmem]
  by_cases hversion : ∃ version, t.catalog.getVersion = .ok version ∧
      t.catalog.BACKUP_PROTO_V4 ≤ version
  swap
  · obtain ⟨e, he, hfail, hcode⟩ := @shifter_unsupported (t.getSequence u) number t.catalog hversion
    apply iff_of_true (exact_of_error (herror e he) hfail hcode)
    exact fun hno => absurd hno hversion
  rw [forall_prop_of_true hversion]
  obtain ⟨version, hversion, hsupported⟩ := hversion
  obtain ⟨pre, post, hindex⟩ := List.append_of_mem hmem
  have hprepare := hbatch _ (shifter_split hversion hsupported hindex)
  let actions := Shifter.apply ⟨post.head?, pre.getLast?⟩ (t.getSequence u) number
  have hne : actions ≠ [] := by
    dsimp only [actions]
    unfold Shifter.apply
    cases post.head? with
    | none => exact List.cons_ne_nil _ _
    | some n => exact List.append_ne_nil_of_right_ne_nil _ (List.cons_ne_nil _ _)
  have hrun : ∀ stop s, t.run_body stop s = run stop actions s :=
    run_body_run hprepare hlock hne
  have hdoomed : ∀ n, Doomed t.keepChain number n ↔ n = number := by
    intro n
    unfold Doomed
    rw [hkeep]
    exact Iff.rfl
  by_cases hload : Loads (t.getSequence u) number
  · apply iff_of_true _ (Or.inl hload)
    apply exact_of_run hrun hmem
    · intro s
      obtain ⟨s', hlair, hfile, hall⟩ := apply_deletes
        (q := t.getSequence u) ⟨post.head?, pre.getLast?⟩ number s
      rw [hall]
      apply Deletes.congr hlair hfile
      have hone : unlinkItem (Item.loaded (t.getSequence u) number) =
          unlinkItems (t.getSequence u) [number] := (List.append_nil _).symm
      rw [hone]
      apply deletes_items
      · intro n _
        rw [hdoomed]
        exact List.mem_singleton
      · intro n _ hn
        exact List.mem_singleton.mp hn ▸ hload
    · exact fun v _ hne => within_of_uuids t u (apply_within _ number) hne
  · by_cases hnext : ∃ n, (t.getSequence u).Follows number n ∧ ¬ Loads (t.getSequence u) n
    · apply iff_of_true _ (Or.inr hnext)
      obtain ⟨n, hfollows, hn⟩ := hnext
      have hmemn := hfollows.mem.2
      obtain ⟨pre', post', hsplit⟩ := hfollows
      have hhead : post.head? = some n := by
        rw [(Sequence.split_unique hindex hsplit).2]
        rfl
      have hfails : ∀ stop s, (run stop actions s).1.failed = true := by
        intro stop s
        dsimp only [actions]
        rw [hhead]
        exact apply_failed hmemn hn stop
      constructor
      · exact fun hno => absurd hmem hno
      · intro _ stop s hok
        rw [hrun] at hok
        exact absurd (hok.symm.trans (hfails stop s)) Bool.false_ne_true
      · intro v _ hne stop s
        rw [hrun]
        exact within_of_uuids t u (apply_within _ number) hne stop s
    · apply iff_of_false
      swap
      · exact fun hor => hor.elim hload hnext
      have hperformed : run none actions full = (.success, performAll actions full) := by
        apply apply_performed
        intro n hn
        cases post with
        | nil => cases hn
        | cons k post =>
            obtain rfl := Option.some.inj hn
            constructor
            · by_contra hno
              exact hnext ⟨k, ⟨pre, post, hindex⟩, hno⟩
            · intro hhead
              have hnodup := (t.getSequence u).nodup
              rw [hindex] at hhead hnodup
              cases pre with
              | nil =>
                  cases hhead
                  simp at hnodup
              | cons p pre =>
                  cases hhead
                  simp at hnodup
      apply not_exact_kept hrun hperformed hmem hmem ((hdoomed number).mpr rfl)
      obtain ⟨s', hlair, -, hall⟩ := apply_deletes
        (q := t.getSequence u) ⟨post.head?, pre.getLast?⟩ number full
      rw [hall, unlinkItem_same hload, hlair]
      rfl

/-- Without the chain kept. -/
theorem exact_tail_iff (hkeep : t.keepChain = false)
    (hprepare : t.prepare = .ok (Confectioner.flavor (t.getSequence u) number, [u]))
    (hlock : (t.executeLock.grabAll [u]).failed = false) :
    t.Exact u number ↔ SafeTail t u number := by
  have hdoomed : ∀ n, Doomed t.keepChain number n ↔ number ≤ n := by
    intro n
    unfold Doomed
    rw [hkeep]
    exact Iff.rfl
  have hwithin : ∀ v ∈ t.getIndexForRead, v ≠ u → ∀ stop s,
      SameAt v s (run stop (Confectioner.flavor (t.getSequence u) number) s).2 :=
    fun v _ hne => within_of_uuids t u flavor_within hne
  unfold SafeTail
  cases hindex : (t.getSequence u).index with
  | nil =>
      rw [flavor_nil hindex] at hprepare
      rw [if_neg List.not_mem_nil]
      apply iff_of_true _ rfl
      apply exact_of_refused
      intro stop s
      refine ⟨.uninitialized, rfl, ?_⟩
      rw [run_body_ok hprepare, do_, if_neg (Bool.eq_false_iff.mp hlock)]
      cases stop <;> rfl
  | cons h rest =>
      have hh : h ∈ (t.getSequence u).index := by
        rw [hindex]
        exact List.mem_cons_self
      rw [← hindex]
      by_cases hmem : number ∈ (t.getSequence u).index
      swap
      · have hflavor := flavor_head hindex (Or.inr hmem)
        rw [hflavor] at hprepare
        have hrun := run_body_run hprepare hlock (List.cons_ne_nil _ _)
        rw [if_neg hmem]
        apply iff_of_false
        · apply not_exact_absent hrun _ hmem
          intro a ha
          rw [List.mem_singleton.mp ha]
          rfl
        · intro hno
          rw [hno] at hindex
          cases hindex
      rw [if_pos hmem]
      by_cases hhead : (t.getSequence u).index.head? = some number
      · have heq : h = number := by
          rw [hindex] at hhead
          exact Option.some.inj hhead
        subst heq
        have hflavor := flavor_head hindex (Or.inl rfl)
        have hrun := run_body_run hprepare hlock (by
          rw [hflavor]
          exact List.cons_ne_nil _ _)
        rw [if_pos hhead]
        by_cases hload : Loads (t.getSequence u) h
        · have hparent : (Item.loaded (t.getSequence u) h).getParent =
              .sequence (t.getSequence u).m_uuid := by
            rw [loaded_ok hload.1 hload.2]
            rfl
          apply iff_of_true _ hload
          apply exact_of_run hrun hmem _ hwithin
          intro s
          rw [hflavor, hparent, hkeep]
          exact deletes_sequence hhead
        · have hparent : (Item.loaded (t.getSequence u) h).getParent = .unnamed := by
            unfold Item.loaded Item.load
            split
            · rfl
            · split
              · rfl
              · rename_i hok
                exact absurd ⟨hmem, Bool.eq_false_iff.mpr hok⟩ hload
          apply iff_of_false _ hload
          rw [hflavor, hparent] at hrun
          have hsame : performAll [.rmdir .unnamed] full = full := clear_unnamed _
          apply not_exact_kept hrun rfl hmem hmem ((hdoomed h).mpr (Nat.le_refl h))
          rw [hsame]
          rfl
      · obtain ⟨pre, post, hsplit⟩ := List.append_of_mem hmem
        have hpre : pre ≠ [] := by
          intro hnil
          rw [hsplit, hnil] at hhead
          exact hhead rfl
        have hflavor := flavor_tail hsplit hpre
        have hin : ∀ n, n ∈ (t.getSequence u).index.filter (number ≤ ·) ↔
            n ∈ (t.getSequence u).index ∧ number ≤ n := by
          intro n
          rw [List.mem_filter, decide_eq_true_iff]
        have hrun := run_body_run hprepare hlock (by
          rw [hflavor, ← Sequence.tail_eq_filter hsplit, List.flatMap_cons]
          exact List.append_ne_nil_of_left_ne_nil (List.cons_ne_nil _ _) _)
        rw [if_neg hhead]
        by_cases hall : ∀ n ∈ (t.getSequence u).index, number ≤ n → Loads (t.getSequence u) n
        · apply iff_of_true _ hall
          apply exact_of_run hrun hmem _ hwithin
          intro s
          rw [hflavor]
          apply deletes_items
          · intro n hn
            rw [hin, hdoomed]
            exact and_iff_right hn
          · exact fun n hn hle => hall n hn ((hin n).mp hle).2
        · apply iff_of_false _ hall
          have hbad : ∃ n ∈ (t.getSequence u).index, number ≤ n ∧ ¬ Loads (t.getSequence u) n := by
            by_contra hno
            apply hall
            intro n hn hle
            by_contra hload
            exact hno ⟨n, hn, hle, hload⟩
          obtain ⟨n, hn, hle, hload⟩ := hbad
          rw [hflavor] at hrun
          apply not_exact_kept hrun (run_none (flatMap_removes _) full) hn hmem
            ((hdoomed n).mpr hle)
          rw [unlinkItems_lair (fun _ => hload)]
          rfl

end Ways

/-- A removal deletes what was asked for, and nothing else, if and only if it is refused, or
the number is that of an item and the items that are to go can be read. -/
theorem deletesAsked_iff (t : Task) : t.DeletesAsked ↔ t.Safe := by
  unfold DeletesAsked Safe
  apply forall_congr'
  intro u
  apply forall_congr'
  intro number
  apply imp_congr_right
  intro hid
  apply imp_congr_right
  intro hu
  unfold SafeFor
  have hnot : ¬ u ∉ t.getIndexForRead := not_not.mpr hu
  cases hshared : (t.prepareLock.grabShared u).failed
  swap
  · have hcode : t.prepareLock.grabShared u ≠ .backupBackupUuidNotFound := by
      unfold Lock.grabShared
      split <;> exact fun hno => by cases hno
    have hprepare : t.prepare = .error (t.prepareLock.grabShared u) := by
      unfold prepare
      rw [hid]
      dsimp only
      rw [if_neg hnot, if_pos hshared]
    apply iff_of_true (exact_of_error hprepare hshared hcode)
    exact fun hno => by cases hno
  rw [forall_prop_of_true rfl]
  have hprepare : t.prepare =
      if Single t u then t.removeAllBackupsForVm
      else if t.keepChain then
        (Confectioner.shifter t.catalog (t.getSequence u) number).map fun l => (l, [u])
      else .ok (Confectioner.flavor (t.getSequence u) number, [u]) := by
    unfold prepare
    rw [hid]
    dsimp only
    rw [if_neg hnot, if_neg (Bool.eq_false_iff.mp hshared)]
    cases Confectioner.shifter t.catalog (t.getSequence u) number <;> rfl
  by_cases hsingle : Single t u
  · rw [if_pos hsingle] at hprepare ⊢
    exact exact_all_iff hprepare hu hsingle
  rw [if_neg hsingle] at hprepare ⊢
  cases hkeep : t.keepChain
  · rw [hkeep, if_neg Bool.false_ne_true] at hprepare
    cases hlock : (t.executeLock.grabAll [u]).failed
    · rw [forall_prop_of_true rfl, if_neg Bool.false_ne_true]
      exact exact_tail_iff hkeep hprepare hlock
    · apply iff_of_true (exact_of_locked hprepare hlock)
      exact fun hno => by cases hno
  · rw [hkeep, if_pos rfl] at hprepare
    have herror : ∀ e, Confectioner.shifter t.catalog (t.getSequence u) number = .error e →
        t.prepare = .error e := by
      intro e he
      rw [hprepare, he]
      rfl
    have hbatch : ∀ l, Confectioner.shifter t.catalog (t.getSequence u) number = .ok l →
        t.prepare = .ok (l, [u]) := by
      intro l hl
      rw [hprepare, hl]
      rfl
    cases hlock : (t.executeLock.grabAll [u]).failed
    · rw [forall_prop_of_true rfl, if_pos rfl]
      exact exact_shift_iff hkeep herror hbatch hlock
    · apply iff_of_true _ fun hno => by cases hno
      cases hshifter : Confectioner.shifter t.catalog (t.getSequence u) number with
      | ok l => exact exact_of_locked (hbatch l hshifter) hlock
      | error e =>
          have hcode := shifter_error hshifter
          exact exact_of_error (herror e hshifter) hcode.1 hcode.2

/-- One full backup of each of two sequences. -/
def twoSequences (keepChain : Bool) (number : Nat) : Task where
  m_sBackupId := some ("a", number)
  keepChain := keepChain
  ignoreNotExists := false
  getIndexForRead := ["a", "b"]
  getIndexForWrite := ["a", "b"]
  getSequence := fun u => 
    ⟨u, [1], by decide, fun _ => [], fun _ _ _ _ _ => List.not_mem_nil, fun _ => .success⟩
  uuids := fun _ => rfl
  catalog := ⟨.ok 4, 4⟩
  prepareLock := ⟨fun _ => false, fun _ => false⟩
  executeLock := ⟨fun _ => false, fun _ => false⟩

/-- The number is that of no item, and the whole sequence goes. -/
theorem not_deletesAsked_absent : ¬ (twoSequences false 7).DeletesAsked := by
  intro h
  have hexact := h "a" 7 rfl (by decide)
  have hfail := (hexact.absent (by decide) none full).1
  revert hfail
  decide

end Task

end DispService.Backup
