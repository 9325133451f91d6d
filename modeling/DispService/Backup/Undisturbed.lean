import DispService.Backup.Created

/-! Runs of creations and removals: the locks that each task holds, and the runs in which no
task disturbs another. -/
namespace DispService.Backup.Creating

open Lib
open Metadata (Held Locking Recorded Releases advance)
open Backup.Creation (BASE)

/-- The sequences that the task holds exclusively. -/
def Task.holds : Task → List String
  | .creation x => if x.full = true ∧ Stage.rank .locked ≤ x.stage.rank then [x.uuid] else []
  | .removal r => r.held
  | _ => []

/-- The task shares the sequence. -/
def Task.Reads (u : String) : Task → Prop
  | .creation x => x.full = false ∧ Stage.rank .locked ≤ x.stage.rank ∧ x.uuid = u
  | _ => False

/-- A removal locks the sequence that it deletes from. -/
def Task.Covers : Task → Prop
  | .removal r => r.releasing = false → r.batch ≠ .catalog →
      ∀ u, r.batch.Touches u → u ∈ r.pending ∨ u ∈ r.held
  | _ => True

/-- The tasks hold just the locks that they have taken. -/
structure Kept (ls : Locking Nat) (task : Nat → Task) : Prop where
  recorded : Recorded ls
  holds : ∀ t, HoldsOnly ls.2 t (task t).holds
  reads : ∀ t u, (task t).Reads u → 0 < ls.2.shared t u
  covers : ∀ t, (task t).Covers

section Kept

variable {ls : Locking Nat} {task : Nat → Task} {t : Nat} {x x' : Draft} {y : Task}
  {r : Metadata.Request Nat}

theorem advance_shared_other {me : Nat} (hne : r.thread ≠ me) :
    (advance ls r).2.shared me = ls.2.shared me := by
  obtain ⟨t, call, q⟩ := r
  have hapart : ∀ n, (ls.2.setShared t q n).shared me = ls.2.shared me := by
    intro n
    funext v
    rw [Metadata.setShared_apply, if_neg fun hsame => hne hsame.1.symm]
  unfold advance Held.record
  cases call with
  | grabShared =>
    dsimp only
    split
    · rfl
    · exact hapart _
  | releaseShared => exact hapart _
  | grabExclusive =>
    dsimp only
    split <;> rfl
  | releaseExclusive => rfl

theorem Kept.set (h : Kept ls task) (hholds : y.holds = (task t).holds)
    (hreads : ∀ u, y.Reads u → (task t).Reads u) (hcovers : y.Covers) :
    Kept ls (Function.update task t y) where
  recorded := h.recorded
  holds := (Function.forall_update_iff task fun t' x => HoldsOnly ls.2 t' x.holds).mpr
    ⟨hholds ▸ h.holds t, fun t' _ => h.holds t'⟩
  reads := (Function.forall_update_iff task fun t' x => ∀ u, x.Reads u → 0 < ls.2.shared t' u).mpr
    ⟨fun u hread => h.reads t u (hreads u hread), fun t' _ => h.reads t'⟩
  covers := (Function.forall_update_iff task fun _ x => x.Covers).mpr
    ⟨hcovers, fun t' _ => h.covers t'⟩

/-- A request of the task changes nothing for the others. -/
theorem Kept.request (h : Kept ls task) (hthread : r.thread = t) (safe : Releases ls r)
    (hholds : HoldsOnly (advance ls r).2 t y.holds)
    (hreads : ∀ u, y.Reads u → 0 < (advance ls r).2.shared t u) (hcovers : y.Covers) :
    Kept (advance ls r) (Function.update task t y) where
  recorded := h.recorded.step safe
  holds := by
    refine (Function.forall_update_iff task fun t' x =>
      HoldsOnly (advance ls r).2 t' x.holds).mpr ⟨hholds, fun t' hne => ?_⟩
    exact (h.holds t').congr (advance_other fun hsame => hne (hsame.symm.trans hthread))
  reads := by
    refine (Function.forall_update_iff task fun t' x =>
      ∀ u, x.Reads u → 0 < (advance ls r).2.shared t' u).mpr ⟨hreads, fun t' hne => ?_⟩
    rw [advance_shared_other fun hsame => hne (hsame.symm.trans hthread)]
    exact h.reads t'
  covers := (Function.forall_update_iff task fun _ x => x.Covers).mpr
    ⟨hcovers, fun t' _ => h.covers t'⟩

theorem Kept.restage (h : Kept ls task) (ht : task t = .creation x) (huuid : x'.uuid = x.uuid)
    (hfull : x'.full = x.full)
    (hlocked : Stage.rank .locked ≤ x'.stage.rank ↔ Stage.rank .locked ≤ x.stage.rank) :
    Kept ls (Function.update task t (.creation x')) := by
  refine h.set ?_ (fun u => ?_) trivial
  · rw [ht]
    simp only [Task.holds, huuid, hfull, hlocked]
  · rw [ht]
    simp only [Task.Reads, huuid, hfull, hlocked, imp_self]

theorem Kept.grab (h : Kept ls task) (ht : task t = .creation x) (hstage : x.stage = .imaged) :
    let r : Metadata.Request Nat := ⟨t, if x.full then .grabExclusive else .grabShared, x.uuid⟩
    Kept (advance ls r) (Function.update task t (.creation
      (if (ls.1.serve r).1.failed then { x with failed := true } else { x with stage := .locked }))) := by
  have hnone : HoldsOnly ls.2 t [] := by
    have hhold := h.holds t
    rw [ht] at hhold
    simpa [Task.holds, hstage, Stage.rank] using hhold
  dsimp only
  cases hfull : x.full with
  | true =>
    have hserve : ∀ b : Metadata.Request Nat, b = ⟨t, .grabExclusive, x.uuid⟩ →
        ls.1.serve b = ls.1.grabExclusive x.uuid := by
      rintro b rfl
      rfl
    simp only [if_true, hserve _ rfl]
    refine h.request rfl (fun hno => by cases hno) ?_ ?_ trivial
    · split
      · next hfailed =>
        have hhold := hnone.refused hfailed
        simpa [Task.holds, hstage, Stage.rank] using hhold
      · next hok =>
        have hhold := hnone.grab h.recorded (Bool.eq_false_of_not_eq_true hok)
        simpa [Task.holds, hfull] using hhold
    · split <;> simp [Task.Reads]
  | false =>
    simp only [Bool.false_eq_true, if_false]
    refine h.request rfl (fun hno => by cases hno) ?_ ?_ trivial
    · have hsame : (advance ls ⟨t, .grabShared, x.uuid⟩).2.exclusive = ls.2.exclusive :=
        advance_grabShared
      have hhold := hnone.congr (congrFun hsame t)
      split <;> simpa [Task.holds, hfull] using hhold
    · split
      · simp [Task.Reads, hstage, Stage.rank]
      · next hok =>
        rintro u ⟨-, -, rfl⟩
        have hheld : (advance ls ⟨t, .grabShared, x.uuid⟩).2 =
            ls.2.setShared t x.uuid (ls.2.shared t x.uuid + 1) := by
          unfold advance Held.record
          dsimp only
          rw [if_neg hok]
        rw [hheld, Metadata.setShared_apply, if_pos ⟨rfl, rfl⟩]
        exact Nat.succ_pos _

/-- A creation that ends gives its lock back. -/
theorem Kept.unlock (h : Kept ls task) (ht : task t = .creation x) :
    Kept (if Stage.rank .locked ≤ x.stage.rank then
        advance ls ⟨t, if x.full then .releaseExclusive else .releaseShared, x.uuid⟩ else ls)
      (Function.update task t .closed) := by
  have hhold := h.holds t
  rw [ht] at hhold
  split
  · next hlocked =>
    cases hfull : x.full with
    | true =>
      rw [Task.holds, if_pos ⟨hfull, hlocked⟩] at hhold
      refine h.request rfl (fun _ _ => (hhold.2 _).mpr (List.mem_singleton_self _)) hhold.release
        (fun u hno => hno.elim) trivial
    | false =>
      simp only [Bool.false_eq_true, if_false]
      refine h.request rfl (fun hno => by cases hno) ?_ (fun u hno => hno.elim) trivial
      have hnone : HoldsOnly ls.2 t [] := by simpa [Task.holds, hfull] using hhold
      exact hnone.congr rfl
  · next hlocked =>
    refine h.set ?_ (fun u hno => hno.elim) trivial
    rw [ht]
    simp [Task.holds, hlocked]

theorem Kept.lockNext {r : Removal} {u : String} {rest : List String} (h : Kept ls task)
    (ht : task t = .removal r) (hreleasing : r.releasing = false) (hpending : r.pending = u :: rest) :
    Kept (advance ls ⟨t, .grabExclusive, u⟩)
      (Function.update task t (.removal (if (ls.1.grabExclusive u).1.failed then
        { r with releasing := true } else { r with pending := rest, held := r.held ++ [u] }))) := by
  have hhold := h.holds t
  have hcover := h.covers t
  rw [ht] at hhold hcover
  refine h.request rfl (fun hno => by cases hno) ?_ (fun v hno => hno.elim) ?_
  · split
    · next hfailed => exact HoldsOnly.refused hhold hfailed
    · next hok => exact HoldsOnly.grab h.recorded hhold (Bool.eq_false_of_not_eq_true hok)
  · split
    · exact fun hno => by cases hno
    · intro _ hbatch v hv
      rw [List.mem_append, List.mem_singleton]
      rcases hcover hreleasing hbatch v hv with hin | hin
      · rw [hpending] at hin
        rcases List.mem_cons.mp hin with rfl | hin
        · exact .inr (.inr rfl)
        · exact .inl hin
      · exact .inr (.inl hin)

theorem Kept.release {r : Removal} {u : String} {rest : List String} (h : Kept ls task)
    (ht : task t = .removal r) (hreleasing : r.releasing = true) (hheld : r.held = u :: rest) :
    Kept (advance ls ⟨t, .releaseExclusive, u⟩)
      (Function.update task t (.removal { r with held := rest })) := by
  have hhold := h.holds t
  rw [ht, Task.holds, hheld] at hhold
  refine h.request rfl (fun _ _ => (hhold.2 _).mpr List.mem_cons_self) hhold.release
    (fun v hno => hno.elim) ?_
  intro hno
  rw [hreleasing] at hno
  cases hno

/-- No creation has a lock of a sequence that a removal holds. -/
theorem Kept.apart {r : Removal} {u : String} {t' : Nat} (h : Kept ls task)
    (ht : task t = .removal r) (hheld : u ∈ r.held) (ht' : task t' = .creation x)
    (huuid : x.uuid = u) : ¬ Stage.rank .locked ≤ x.stage.rank := by
  intro hlocked
  have hhold := h.holds t
  have hother := h.holds t'
  rw [ht] at hhold
  rw [ht'] at hother
  have hmine := (hhold.2 u).mpr hheld
  cases hfull : x.full with
  | true =>
    rw [Task.holds, if_pos ⟨hfull, hlocked⟩, huuid] at hother
    obtain rfl := h.recorded.one u t t' hmine ((hother.2 u).mpr (List.mem_singleton_self u))
    rw [ht] at ht'
    cases ht'
  | false =>
    have hread := h.reads t' u (by rw [ht']; exact ⟨hfull, hlocked, huuid⟩)
    rw [h.recorded.alone u t t' hmine] at hread
    exact Nat.lt_irrefl 0 hread

end Kept

/-- The creations that are not finished. -/
def System.drafts (s : System) : Nat → Option Draft :=
  fun t => (s.task t).draft

/-- The identifier of a sequence is new. -/
def System.Fresh (s : System) (u : String) : Prop :=
  u ∉ s.catalogue.sequences ∧ ∀ t x, s.task t = .creation x → x.uuid ≠ u

/-- No task takes what another is at: a new sequence is new; a number is chosen that nobody is at,
and whose base nobody is still at; a removal deletes where every creation has its lock; and a
failed creation does not take what others made for an empty folder. -/
def System.Given (s : System) : Event → Prop
  | .chooseFull _ u => s.Fresh u
  | .chooseNext _ u => ∀ t x, s.task t = .creation x → x.uuid = u →
      x.number ≠ s.catalogue.nextNumber u ∧
        (x.number + 1 = s.catalogue.nextNumber u → x.stage = .saved)
  | .finalize t _ => ∀ x, s.task t = .creation x → x.failed = true →
      s.catalogue.showItem = true ∨
        ∀ t' x', t' ≠ t → s.task t' = .creation x' → x'.stage.rank < Stage.rank .made
  | .delete t => ∀ r, s.task t = .removal r → ∀ t' x, s.task t' = .creation x →
      r.batch.Touches x.uuid → r.batch ≠ .catalog ∧ Stage.rank .locked ≤ x.stage.rank
  | _ => True

/-- The base of the item is there, and the item is once in the index. -/
structure Catalogue.Holds (c : Catalogue) (x : Draft) : Prop where
  based : x.full = false → ∃ k, x.number = k + 1 ∧ (x.uuid, k) ∈ c.items ∧
    Entry.lair (x.uuid, k) ∈ c.entries ∧ Entry.file (x.uuid, k) ∈ c.entries
  once : ((c.getIndex x.uuid).sort).count x.number = 1

/-- What is deleted by a failed creation was made by it, and what is made by one that ends well
is there. -/
def System.Safe (s : System) : Event → Prop
  | .finalize t absent => ∀ x, s.task t = .creation x →
      (x.failed = true → ∀ e ∈ s.catalogue.entries,
        e ∉ (s.step (.finalize t absent)).catalogue.entries → s.catalogue.maker e = t) ∧
      (x.failed = false → x.stage = .saved →
        (s.step (.finalize t absent)).catalogue.Holds x)
  | _ => True

structure Invariant (s : System) : Prop where
  sound : Sound s.catalogue s.drafts
  kept : Kept s.locks s.task

section Step

variable {s : System} {t : Nat} {x x' : Draft} {y : Task}

theorem drafts_eq_some : s.drafts t = some x ↔ s.task t = .creation x := by
  unfold System.drafts
  cases s.task t <;> simp [Task.draft]

theorem drafts_update (task : Nat → Task) (t : Nat) (y : Task) :
    (fun t' => (Function.update task t y t').draft) =
      Function.update (fun t' => (task t').draft) t y.draft := by
  funext t'
  by_cases heq : t' = t
  · subst heq
    rw [Function.update_self, Function.update_self]
  · rw [Function.update_of_ne heq, Function.update_of_ne heq]

/-- A step of one task, put together. -/
theorem Invariant.of {c : Catalogue} {ls : Locking Nat}
    (sound : Sound c (Function.update s.drafts t y.draft))
    (kept : Kept ls (Function.update s.task t y)) :
    Invariant ⟨c, ls, Function.update s.task t y⟩ := by
  refine ⟨?_, kept⟩
  unfold System.drafts
  dsimp only
  rw [drafts_update]
  exact sound

theorem drafts_turn (ht : (s.task t).draft = none) (hy : y.draft = none) :
    Function.update s.drafts t y.draft = s.drafts := by
  rw [hy]
  exact Function.update_eq_self_iff.mpr ht.symm

/-- A task that is no creation becomes another such task. -/
theorem Invariant.turn (h : Invariant s) (ht : (s.task t).draft = none) (hy : y.draft = none)
    (hholds : y.holds = (s.task t).holds) (hreads : ∀ u, ¬ y.Reads u) (hcovers : y.Covers) :
    Invariant (s.setTask t y) := by
  refine .of ?_ (h.kept.set hholds (fun u hu => absurd hu (hreads u)) hcovers)
  rw [drafts_turn ht hy]
  exact h.sound

theorem Invariant.chooseFull {u : String} (h : Invariant s) (given : s.Given (.chooseFull t u)) :
    Invariant (s.chooseFull t u) := by
  unfold System.chooseFull
  split
  · next hidle =>
    have hdraft : s.drafts t = none := by rw [System.drafts, hidle]; rfl
    refine .of (h.sound.choose hdraft rfl ?_ ?_ (fun _ => rfl) fun hno => by cases hno) ?_
    · intro e he hitem
      have hfolder := h.sound.folder e he
      rw [hitem] at hfolder
      exact given.1 hfolder
    · intro t' x' hx' hitem
      exact given.2 t' x' (drafts_eq_some.mp hx') (congrArg Prod.fst hitem)
    · refine h.kept.set ?_ (fun v hno => absurd hno.1 Bool.false_ne_true.symm) trivial
      rw [hidle]
      simp [Task.holds, Stage.rank]
  · exact h

theorem Invariant.chooseNext {u : String} (h : Invariant s) (given : s.Given (.chooseNext t u)) :
    Invariant (s.chooseNext t u) := by
  unfold System.chooseNext
  dsimp only
  split
  · next hall =>
    obtain ⟨hidle, -, -, hheaded, -⟩ := hall
    have hdraft : s.drafts t = none := by rw [System.drafts, hidle]; rfl
    refine .of (h.sound.choose hdraft rfl ?_ ?_ (fun hno => by cases hno) fun _ => ?_) ?_
    · intro e he hitem
      rcases h.sound.owned e he with hin | ⟨x', hx', hsame⟩
      · rw [hitem] at hin
        exact Nat.lt_irrefl _ (Catalogue.lt_nextNumber (Catalogue.mem_getIndex.mpr (.inl hin)))
      · have hboth := hsame.trans hitem
        exact (given _ x' (drafts_eq_some.mp hx') (congrArg Prod.fst hboth)).1
          (congrArg Prod.snd hboth)
    · intro t' x' hx' hitem
      exact (given t' x' (drafts_eq_some.mp hx') (congrArg Prod.fst hitem)).1
        (congrArg Prod.snd hitem)
    · obtain ⟨k, hk, hmem⟩ := Catalogue.nextNumber_succ h.sound.range hheaded
      refine ⟨k, hk, hmem, fun t' x' hx' hitem => ?_⟩
      refine (given t' x' (drafts_eq_some.mp hx') (congrArg Prod.fst hitem)).2 ?_
      rw [show x'.number = k from congrArg Prod.snd hitem, hk]
    · refine h.kept.set ?_ (fun v hread => ?_) trivial
      · rw [hidle]
        simp [Task.holds]
      · exact absurd hread.2.1 (by simp [Stage.rank])
  · exact h

/-- A step of a creation that leaves the folder as it is. -/
theorem Invariant.restage (h : Invariant s) (ht : s.task t = .creation x)
    (hstage : x.stage ≠ .saved) (hitem : x'.item = x.item) (hfull : x'.full = x.full)
    (hunsaved : x'.stage ≠ .saved) (hwrote : ∀ e, x'.Wrote e ↔ x.Wrote e) :
    Sound s.catalogue (Function.update s.drafts t (some x')) := by
  have hdraft := drafts_eq_some.mpr ht
  have hsame : ∀ e, e ∈ s.catalogue.entries ↔
      e ∈ s.catalogue.entries ∨ e.item = x.item ∧ x'.Wrote e := by
    refine fun e => ⟨.inl, fun he => ?_⟩
    rcases he with he | ⟨heitem, hdid⟩
    · exact he
    · exact h.sound.present t x hdraft e heitem ((hwrote e).mp hdid)
  refine h.sound.work hdraft hitem hfull hstage (fun e => (hwrote e).mpr) hsame ?_
    (Finset.Subset.refl _) ?_ (fun i => id) (fun i => .inl) id (fun hno => absurd hno hunsaved)
  · intro e
    rw [if_neg fun hno => hno.2 hno.1]
  · intro e hdid
    have hlair : x.Wrote (.lair x.item) := by
      have hwas := (hwrote e).mp hdid
      cases e with
      | lair i => exact hwas
      | file i => exact Nat.le_trans (by decide) hwas
    exact h.sound.folder _ (h.sound.present t x hdraft (.lair x.item) rfl hlair)

theorem Invariant.fail (h : Invariant s) (ht : s.task t = .creation x) (hstage : x.stage ≠ .saved) :
    Invariant (s.setTask t (.creation { x with failed := true })) :=
  .of (h.restage ht hstage rfl rfl hstage fun _ => Iff.rfl) (h.kept.restage ht rfl rfl Iff.rfl)

theorem Invariant.check (h : Invariant s) (ht : s.task t = .creation x)
    (hstage : x.stage = .chosen) : Invariant (s.check t x) := by
  have hunsaved : x.stage ≠ .saved := by rw [hstage]; decide
  unfold System.check
  split
  · exact h.fail ht hunsaved
  · refine .of (h.restage ht hunsaved rfl rfl (fun hno => by cases hno) fun e => ?_)
      (h.kept.restage ht rfl rfl ?_)
    · cases e <;> simp [Draft.Wrote, hstage, Stage.rank]
    · simp [hstage, Stage.rank]

theorem Invariant.mkpath (h : Invariant s) (ht : s.task t = .creation x)
    (hstage : x.stage = .checked) : Invariant (s.mkpath t x) := by
  have hunsaved : x.stage ≠ .saved := by rw [hstage]; decide
  have hdraft := drafts_eq_some.mpr ht
  have hnew : Entry.lair x.item ∉ s.catalogue.entries := by
    intro hin
    have hdid := (h.sound.own t x hdraft _ hin rfl).2
    simp [Draft.Wrote, hstage, Stage.rank] at hdid
  unfold System.mkpath
  dsimp only
  generalize hc : (if x.full = true then
    { s.catalogue with sequences := insert x.uuid s.catalogue.sequences } else s.catalogue) = c
  have hrest : s.catalogue.sequences ⊆ c.sequences ∧ c.entries = s.catalogue.entries ∧
      c.items = s.catalogue.items ∧ c.maker = s.catalogue.maker ∧
      c.showItem = s.catalogue.showItem := by
    rw [← hc]
    split
    · exact ⟨Finset.subset_insert _ _, rfl, rfl, rfl, rfl⟩
    · exact ⟨Finset.Subset.refl _, rfl, rfl, rfl, rfl⟩
  obtain ⟨hsequences, hentries, hitems, hmaker, hshow⟩ := hrest
  split
  · exact h.fail ht hunsaved
  · next hfolder =>
    rw [hentries, if_neg hnew]
    refine .of (h.sound.work hdraft rfl rfl hunsaved ?_ ?_ ?_ hsequences ?_ ?_ ?_ ?_ ?_)
      (h.kept.restage ht rfl rfl (by simp [hstage, Stage.rank]))
    · intro e hdid
      cases e <;> simp [Draft.Wrote, hstage, Stage.rank] at hdid
    · intro e
      simp only [Catalogue.make, Finset.mem_insert, hentries]
      cases e <;> simp [Draft.Wrote, Stage.rank, Entry.item, or_comm, Draft.item]
    · intro e
      simp only [Catalogue.make, Finset.mem_insert, hentries, hmaker, Function.update_apply]
      by_cases heq : e = .lair x.item
      · subst heq
        rw [if_pos rfl, if_pos ⟨.inl rfl, hnew⟩]
      · rw [if_neg heq, if_neg]
        exact fun hno => hno.2 (hno.1.resolve_left heq)
    · exact fun e _ => not_not.mp hfolder
    · exact fun i hi => hitems ▸ hi
    · exact fun i hi => .inl (hitems ▸ hi)
    · exact fun hs => hshow.trans hs
    · exact fun hno => by cases hno

theorem Invariant.prepareImages (h : Invariant s) (ht : s.task t = .creation x)
    (hstage : x.stage = .made) : Invariant (s.prepareImages t x) := by
  have hunsaved : x.stage ≠ .saved := by rw [hstage]; decide
  have hdraft := drafts_eq_some.mpr ht
  have hnew : Entry.file x.item ∉ s.catalogue.entries := by
    intro hin
    have hdid := (h.sound.own t x hdraft _ hin rfl).2
    simp [Draft.Wrote, hstage, Stage.rank] at hdid
  have hlair : Entry.lair x.item ∈ s.catalogue.entries := by
    refine h.sound.present t x hdraft _ rfl ?_
    simp [Draft.Wrote, hstage, Stage.rank]
  unfold System.prepareImages
  split
  · exact h.fail ht hunsaved
  · next hfolder =>
    refine .of (h.sound.work hdraft rfl rfl hunsaved ?_ ?_ ?_ (Finset.Subset.refl _) ?_
      (fun i => id) (fun i => .inl) id fun hno => by cases hno)
      (h.kept.restage ht rfl rfl (by simp [hstage, Stage.rank]))
    · intro e _
      cases e <;> simp [Draft.Wrote, Stage.rank]
    · intro e
      simp only [Catalogue.make, Finset.mem_insert]
      cases e with
      | lair i =>
        simp only [reduceCtorEq, false_or, Entry.item]
        constructor
        · exact .inl
        · rintro (hin | ⟨rfl, -⟩)
          · exact hin
          · exact hlair
      | file i => simp [Draft.Wrote, Stage.rank, Entry.item, or_comm, Draft.item]
    · intro e
      simp only [Catalogue.make, Finset.mem_insert, Function.update_apply]
      by_cases heq : e = .file x.item
      · subst heq
        rw [if_pos rfl, if_pos ⟨.inl rfl, hnew⟩]
      · rw [if_neg heq, if_neg]
        exact fun hno => hno.2 (hno.1.resolve_left heq)
    · exact fun e _ => not_not.mp hfolder

theorem Invariant.grab (h : Invariant s) (ht : s.task t = .creation x)
    (hstage : x.stage = .imaged) : Invariant (s.grab t x) := by
  have hunsaved : x.stage ≠ .saved := by rw [hstage]; decide
  have hboth : ∀ refused : Bool, Sound s.catalogue (Function.update s.drafts t (some
      (if refused then { x with failed := true } else { x with stage := .locked }))) := by
    intro refused
    cases refused with
    | true => exact h.restage ht hunsaved rfl rfl hunsaved fun _ => Iff.rfl
    | false =>
      refine h.restage ht hunsaved rfl rfl (fun hno => by cases hno) fun e => ?_
      cases e <;> simp [Draft.Wrote, hstage, Stage.rank]
  exact .of (hboth _) (h.kept.grab ht hstage)

theorem Invariant.saveMetadata (h : Invariant s) (ht : s.task t = .creation x)
    (hstage : x.stage = .locked) (hok : x.failed = false) (o : Saved) :
    Invariant (s.saveMetadata t x o) := by
  have hunsaved : x.stage ≠ .saved := by rw [hstage]; decide
  have hdraft := drafts_eq_some.mpr ht
  have hdid : ∀ e, x.Wrote e := by
    intro e
    cases e <;> simp [Draft.Wrote, hstage, Stage.rank]
  have hpresent : ∀ e, e ∈ s.catalogue.entries ↔
      e ∈ s.catalogue.entries ∨ e.item = x.item ∧ True := by
    refine fun e => ⟨.inl, fun he => ?_⟩
    rcases he with he | ⟨heitem, -⟩
    · exact he
    · exact h.sound.present t x hdraft e heitem (hdid e)
  have hfolder : x.uuid ∈ s.catalogue.sequences :=
    h.sound.folder _ (h.sound.present t x hdraft (.lair x.item) rfl (hdid _))
  -- the metadata of the item are there, whatever comes of the others
  have hadd : ∀ (c : Catalogue) (x' : Draft), c.entries = s.catalogue.entries →
      c.maker = s.catalogue.maker → c.sequences = s.catalogue.sequences →
      c.items = insert x.item s.catalogue.items →
      (s.catalogue.showItem = true → c.showItem = true) → x'.item = x.item → x'.full = x.full →
      (∀ e, x'.Wrote e) → (x'.stage = .saved → x'.failed = false ∧ c.showItem = true) →
      Sound c (Function.update s.drafts t (some x')) := by
    intro c x' hentries hmaker hsequences hitems hshow hitem hfull hdid' hsaved
    refine h.sound.work hdraft hitem hfull hunsaved (fun e _ => hdid' e) ?_ ?_ ?_ ?_ ?_ ?_ hshow ?_
    · intro e
      simp only [hentries, hdid' e]
      exact hpresent e
    · intro e
      rw [hmaker, if_neg]
      exact fun hno => hno.2 (hentries ▸ hno.1)
    · rw [hsequences]
    · exact fun e _ => hsequences ▸ hfolder
    · exact fun i hi => hitems ▸ Finset.mem_insert_of_mem hi
    · intro i hi
      rw [hitems] at hi
      rcases Finset.mem_insert.mp hi with rfl | hi
      · exact .inr ⟨rfl, hdid'⟩
      · exact .inl hi
    · intro hs
      refine ⟨(hsaved hs).1, ?_, (hsaved hs).2⟩
      rw [hitems, hitem]
      exact Finset.mem_insert_self _ _
  have hfail : Kept s.locks (Function.update s.task t (.creation { x with failed := true })) :=
    h.kept.restage ht rfl rfl Iff.rfl
  unfold System.saveMetadata
  dsimp only
  split
  · exact h.fail ht hunsaved
  · cases o with
    | nothing => exact h.fail ht hunsaved
    | item =>
      exact .of (hadd _ _ rfl rfl rfl rfl id rfl rfl hdid fun hno => absurd hno hunsaved) hfail
    | all =>
      dsimp only
      split
      · refine .of (hadd _ _ rfl rfl rfl rfl (fun _ => rfl) rfl rfl ?_ ?_)
          (h.kept.restage ht rfl rfl (by simp [hstage, Stage.rank]))
        · intro e
          cases e <;> simp [Draft.Wrote, Stage.rank]
        · exact fun _ => ⟨hok, rfl⟩
      · exact .of (hadd _ _ rfl rfl rfl rfl id rfl rfl hdid fun hno => absurd hno hunsaved) hfail

theorem Invariant.finalize (h : Invariant s) (ht : s.task t = .creation x) (absent : Bool)
    (given : s.Given (.finalize t absent)) : Invariant (s.finalize t x absent) := by
  have hdraft := drafts_eq_some.mpr ht
  have hkept := h.kept.unlock ht
  unfold System.finalize
  dsimp only
  split
  · next hfailed =>
    refine .of (h.sound.cleanup hdraft hfailed ?_ absent).1 hkept
    refine (given x ht hfailed).imp id fun hearly t' x' hne hx' => ?_
    exact hearly t' x' hne (drafts_eq_some.mp hx')
  · split
    · next hstage => exact .of (h.sound.finish hdraft hstage) hkept
    · exact h

theorem Invariant.safe (h : Invariant s) (ht : s.task t = .creation x) (absent : Bool)
    (given : s.Given (.finalize t absent)) :
    (x.failed = true → ∀ e ∈ s.catalogue.entries,
      e ∉ (s.finalize t x absent).catalogue.entries → s.catalogue.maker e = t) ∧
    (x.failed = false → x.stage = .saved → (s.finalize t x absent).catalogue.Holds x) := by
  have hdraft := drafts_eq_some.mpr ht
  constructor
  · intro hfailed e he hgone
    have hkeep := (h.sound.cleanup hdraft hfailed ((given x ht hfailed).imp id
      fun hearly t' x' hne hx' => hearly t' x' hne (drafts_eq_some.mp hx')) absent).2 e
    rw [System.finalize, if_pos hfailed] at hgone
    have hitem : e.item = x.item := by
      by_contra hother
      exact hgone (hkeep.mpr ⟨he, hother⟩)
    exact (h.sound.own t x hdraft e he hitem).1
  · intro hok hstage
    have hsame : (s.finalize t x absent).catalogue = s.catalogue := by
      rw [System.finalize, if_neg (by rw [hok]; exact Bool.false_ne_true), if_pos hstage]
      rfl
    rw [hsame]
    obtain ⟨-, hmem, -⟩ := h.sound.saved t x hdraft hstage
    refine ⟨fun hnext => ?_, ?_⟩
    · obtain ⟨k, hk, hbase, -⟩ := h.sound.base t x hdraft hnext
      exact ⟨k, hk, hbase, h.sound.whole _ hbase⟩
    · refine List.count_eq_one_of_mem (Finset.sort_nodup _ _) ?_
      rw [Finset.mem_sort]
      exact Catalogue.mem_getIndex.mpr (.inl hmem)

theorem Invariant.prepareRemoval {u : String} {number : Nat} {keepChain : Bool}
    (h : Invariant s) : Invariant (s.prepareRemoval t u number keepChain) := by
  unfold System.prepareRemoval
  dsimp only
  split
  · exact h
  · next hbusy =>
    have hidle : s.task t = .idle := not_not.mp hbusy
    have hclose : Invariant (s.setTask t .closed) := by
      refine h.turn ?_ rfl ?_ (fun _ => id) trivial <;> rw [hidle] <;> rfl
    have hremove : ∀ b : Batch, (b ≠ .catalog → ∀ v, b.Touches v → v = u) →
        Invariant (s.setTask t (.removal ⟨b, [u], [], false⟩)) := by
      intro b hb
      refine h.turn ?_ rfl ?_ (fun _ => id) fun _ hbatch v hv => ?_
      · rw [hidle]
        rfl
      · rw [hidle]
        rfl
      · exact .inl (List.mem_singleton.mpr (hb hbatch v hv))
    split
    · exact hclose
    · split
      · exact hremove _ fun hno => absurd rfl hno
      · split
        · split
          · exact hremove _ fun _ _ => id
          · exact hclose
        · split
          · exact hremove _ fun _ _ => id
          · exact hremove _ fun _ _ => id

theorem Invariant.prepareRemovalOfAll {us : List String} (h : Invariant s) :
    Invariant (s.prepareRemovalOfAll t us) := by
  unfold System.prepareRemovalOfAll
  split
  · exact h
  · next hbusy =>
    have hidle : s.task t = .idle := not_not.mp hbusy
    split
    · refine h.turn ?_ rfl ?_ (fun _ => id) trivial <;> rw [hidle] <;> rfl
    · refine h.turn ?_ rfl ?_ (fun _ => id) fun _ hno => absurd rfl hno <;> rw [hidle] <;> rfl

theorem Invariant.lockNext {r : Removal} (h : Invariant s) (ht : s.task t = .removal r)
    (hreleasing : r.releasing = false) : Invariant (s.lockNext t r) := by
  unfold System.lockNext
  split
  · exact h
  · next u rest hpending =>
    refine .of ?_ (h.kept.lockNext ht hreleasing hpending)
    rw [drafts_turn (by rw [ht]; rfl) rfl]
    exact h.sound

theorem Invariant.delete {r : Removal} (h : Invariant s) (ht : s.task t = .removal r)
    (hreleasing : r.releasing = false) (hpending : r.pending = [])
    (given : s.Given (.delete t)) : Invariant (s.delete t r) := by
  refine .of ?_ (h.kept.set ?_ (fun _ => False.elim) ?_)
  · rw [drafts_turn (by rw [ht]; rfl) rfl]
    refine h.sound.perform r.batch fun t' x hx htouch => ?_
    have hx := drafts_eq_some.mp hx
    obtain ⟨hbatch, hlocked⟩ := given r ht t' x hx htouch
    have hcover := h.kept.covers t
    rw [ht] at hcover
    have hheld := (hcover hreleasing hbatch x.uuid htouch).resolve_left (by simp [hpending])
    exact h.kept.apart ht hheld hx rfl hlocked
  · rw [ht]
    rfl
  · exact fun hno => by cases hno

theorem Invariant.release {r : Removal} (h : Invariant s) (ht : s.task t = .removal r)
    (hreleasing : r.releasing = true) : Invariant (s.release t r) := by
  unfold System.release
  split
  · next hheld =>
    refine h.turn (by rw [ht]; rfl) rfl ?_ (fun _ => id) trivial
    rw [ht]
    exact hheld.symm
  · next u rest hheld =>
    refine .of ?_ (h.kept.release ht hreleasing hheld)
    rw [drafts_turn (by rw [ht]; rfl) rfl]
    exact h.sound

theorem Invariant.work {stage : Stage} {f : Draft → System} (h : Invariant s)
    (hf : ∀ x, s.task t = .creation x → x.failed = false → x.stage = stage → Invariant (f x)) :
    Invariant (s.work t stage f) := by
  unfold System.work
  split
  · next x ht =>
    split
    · next hall => exact hf x ht hall.1 hall.2
    · exact h
  · exact h

theorem Invariant.step {e : Event} (h : Invariant s) (given : s.Given e) : Invariant (s.step e) := by
  cases e with
  | chooseFull t u => exact h.chooseFull given
  | chooseNext t u => exact h.chooseNext given
  | check t => exact h.work fun x ht _ => h.check ht
  | mkpath t => exact h.work fun x ht _ => h.mkpath ht
  | prepareImages t => exact h.work fun x ht _ => h.prepareImages ht
  | grab t => exact h.work fun x ht _ => h.grab ht
  | saveMetadata t o => exact h.work fun x ht hok hstage => h.saveMetadata ht hstage hok o
  | fail t =>
    unfold System.step
    dsimp only
    split
    · next x ht =>
      split
      · exact h
      · next hstage => exact h.fail ht hstage
    · exact h
  | finalize t absent =>
    unfold System.step
    dsimp only
    split
    · next x ht => exact h.finalize ht absent given
    · exact h
  | prepareRemoval t u number keepChain => exact h.prepareRemoval
  | prepareRemovalOfAll t us => exact h.prepareRemovalOfAll
  | lockNext t =>
    unfold System.step
    dsimp only
    split
    · next r ht =>
      split
      · exact h
      · next hreleasing => exact h.lockNext ht (Bool.eq_false_of_not_eq_true hreleasing)
    · exact h
  | delete t =>
    unfold System.step
    dsimp only
    split
    · next r ht =>
      split
      · next hall => exact h.delete ht hall.1 hall.2 given
      · exact h
    · exact h
  | release t =>
    unfold System.step
    dsimp only
    split
    · next r ht =>
      split
      · next hreleasing => exact h.release ht hreleasing
      · exact h
    · exact h

theorem Invariant.safe_step {e : Event} (h : Invariant s) (given : s.Given e) : s.Safe e := by
  cases e with
  | finalize t absent =>
    intro x ht
    have hstep : s.step (.finalize t absent) = s.finalize t x absent := by
      simp only [System.step, ht]
    rw [hstep]
    exact h.safe ht absent given
  | _ => trivial

theorem Invariant.run {es : List Event} (h : Invariant s)
    (run : Steps System.step System.Given s es) : Steps System.step System.Safe s es := by
  induction es generalizing s with
  | nil => trivial
  | cons e es ih => exact ⟨h.safe_step run.1, ih (h.step run.1) run.2⟩

end Step

theorem invariant_start : Invariant {} where
  sound := by
    refine ⟨?_, ?_, ?_, ?_, ?_, ?_, ?_, ?_, ?_, ?_, ?_⟩ <;> simp [System.drafts, Task.draft]
  kept :=
    ⟨Metadata.start_recorded, fun _ => ⟨List.nodup_nil, fun _ => by simp [Task.holds, Metadata.start]⟩,
      fun _ _ => False.elim, fun _ => trivial⟩

/-- Where no task takes what another is at, failed creations delete only what they made, and the
backups of the others are there. -/
theorem undisturbed_run {es : List Event} (run : Steps System.step System.Given {} es) :
    Steps System.step System.Safe {} es :=
  invariant_start.run run

/-- The task of an event. -/
def Event.task : Event → Nat
  | .chooseFull t _ | .chooseNext t _ | .check t | .mkpath t | .prepareImages t | .grab t
  | .saveMetadata t _ | .fail t | .finalize t _ | .prepareRemoval t _ _ _
  | .prepareRemovalOfAll t _ | .lockNext t | .delete t | .release t => t

section Others

variable {s : System} {t t' : Nat}

theorem work_others {stage : Stage} {f : Draft → System} (hf : ∀ x, (f x).task t' = s.task t') :
    (s.work t stage f).task t' = s.task t' := by
  unfold System.work
  split
  · split
    · exact hf _
    · rfl
  · rfl

/-- A step of one task leaves the others where they are. -/
theorem step_others {e : Event} (hne : t' ≠ e.task) : (s.step e).task t' = s.task t' := by
  have hset : ∀ y, (s.setTask e.task y).task t' = s.task t' := fun y => Function.update_of_ne hne ..
  cases e with
  | chooseFull t u =>
    simp only [System.step, System.chooseFull]
    split <;> first | exact hset _ | rfl
  | chooseNext t u =>
    simp only [System.step, System.chooseNext]
    split <;> first | exact hset _ | rfl
  | check t =>
    refine work_others fun x => ?_
    unfold System.check
    split <;> exact hset _
  | mkpath t =>
    refine work_others fun x => ?_
    simp only [System.mkpath]
    split <;> split <;> exact hset _
  | prepareImages t =>
    refine work_others fun x => ?_
    unfold System.prepareImages
    split <;> exact hset _
  | grab t => exact work_others fun x => hset _
  | saveMetadata t o =>
    refine work_others fun x => ?_
    simp only [System.saveMetadata]
    split
    · exact hset _
    · cases o with
      | nothing => exact hset _
      | item => exact hset _
      | all =>
        dsimp only
        split <;> exact hset _
  | fail t =>
    simp only [System.step]
    split
    · split <;> first | exact hset _ | rfl
    · rfl
  | finalize t absent =>
    simp only [System.step]
    split
    · simp only [System.finalize]
      split
      · exact hset _
      · split <;> first | exact hset _ | rfl
    · rfl
  | prepareRemoval t u number keepChain =>
    simp only [System.step, System.prepareRemoval]
    repeat' split
    all_goals first | exact hset _ | rfl
  | prepareRemovalOfAll t us =>
    simp only [System.step, System.prepareRemovalOfAll]
    repeat' split
    all_goals first | exact hset _ | rfl
  | lockNext t =>
    simp only [System.step]
    split
    · simp only [System.lockNext]
      repeat' split
      all_goals first | exact hset _ | rfl
    · rfl
  | delete t =>
    simp only [System.step]
    split
    · split <;> first | exact hset _ | rfl
    · rfl
  | release t =>
    simp only [System.step]
    split
    · simp only [System.release]
      repeat' split
      all_goals first | exact hset _ | rfl
    · rfl

theorem run_others {es : List Event} (hne : ∀ e ∈ es, t' ≠ e.task) :
    (es.foldl System.step s).task t' = s.task t' := by
  induction es generalizing s with
  | nil => rfl
  | cons e es ih =>
    rw [List.foldl_cons, ih fun e' he' => hne e' (List.mem_cons_of_mem e he')]
    exact step_others (hne e List.mem_cons_self)

end Others

/-- A first backup, up to its end. -/
def firstBackup : List Event :=
  [.chooseFull 0 "s", .check 0, .mkpath 0, .prepareImages 0, .grab 0, .saveMetadata 0 .all]

/-- The next one, up to its end. -/
def nextBackup : List Event :=
  [.chooseNext 1 "s", .check 1, .mkpath 1, .prepareImages 1, .grab 1, .saveMetadata 1 .all]

/-- Nobody is at work after the first backup. -/
theorem firstBackup_alone (t : Nat) (x : Draft) :
    ((firstBackup ++ [Event.finalize 0 false]).foldl System.step {}).task t ≠ .creation x := by
  by_cases ht : t = 0
  · subst ht
    have hclosed : ((firstBackup ++ [Event.finalize 0 false]).foldl System.step {}).task 0 = .closed := by
      decide
    rw [hclosed]
    exact fun hno => by cases hno
  · rw [run_others (by simpa [firstBackup, Event.task] using ht)]
    exact fun hno => by cases hno

theorem undisturbed_run_two : Steps System.step System.Safe {}
    (firstBackup ++ [Event.finalize 0 false] ++ nextBackup ++ [Event.finalize 1 false]) := by
  have hfresh : System.Fresh {} "s" := ⟨Finset.notMem_empty _, fun t x hno => by cases hno⟩
  have hfirst : System.Given (firstBackup.foldl System.step {}) (.finalize 0 false) := by
    intro x hx hfailed
    have hdone : (firstBackup.foldl System.step {}).task 0 =
        .creation ⟨true, "s", 1, .saved, false⟩ := by decide
    cases hdone.symm.trans hx
    cases hfailed
  have hnext : System.Given ((firstBackup ++ [Event.finalize 0 false]).foldl System.step {})
      (.chooseNext 1 "s") := fun t x hx => absurd hx (firstBackup_alone t x)
  have hsecond : System.Given
      ((firstBackup ++ [Event.finalize 0 false] ++ nextBackup).foldl System.step {})
      (.finalize 1 false) := by
    intro x hx hfailed
    have hdone : ((firstBackup ++ [Event.finalize 0 false] ++ nextBackup).foldl System.step {}).task 1 =
        .creation ⟨false, "s", 2, .saved, false⟩ := by decide
    cases hdone.symm.trans hx
    cases hfailed
  exact undisturbed_run ⟨hfresh, trivial, trivial, trivial, trivial, trivial, hfirst, hnext, trivial,
    trivial, trivial, trivial, trivial, hsecond, trivial⟩

/-- Two creations take the same number; the second finds the folder there, fails, and deletes
it. -/
theorem disturbed : ¬ ∀ es, Steps System.step (fun s e => ∀ t u, e = .chooseFull t u → s.Fresh u) {} es →
    Steps System.step System.Safe {} es := by
  intro h
  let es : List Event := firstBackup ++
    [Event.finalize 0 false, .chooseNext 1 "s", .check 1, .mkpath 1, .chooseNext 2 "s", .check 2]
  have hrun : Steps System.step System.Safe {} (es ++ .finalize 2 false :: []) := by
    refine h _ ⟨?_, ?_⟩
    · rintro t u ⟨⟩
      exact ⟨Finset.notMem_empty _, fun t x hno => by cases hno⟩
    · simp [Steps]
  have hfailed : (es.foldl System.step {}).task 2 = .creation ⟨false, "s", 2, .chosen, true⟩ := by
    decide
  have hsafe := (Steps.at_middle hrun _ hfailed).1 rfl (.lair ("s", 2)) (by decide) (by decide)
  revert hsafe
  decide

end DispService.Backup.Creating
