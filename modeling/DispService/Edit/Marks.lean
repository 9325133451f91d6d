import DispService.Edit.Dispatcher

/-! What each request does to the marks, the commit times and the shots. -/
namespace DispService.Edit

open Lib

universe u

variable {κ : Type u} {s : MergeHelper κ} {o o' u u' : String} {k now : Nat}

namespace MergeHelper

/-- When the object was committed, as far as its record tells. -/
def time (s : MergeHelper κ) (o : String) : Nat :=
  (s.recordOf o).tsCommitTimeStamp

theorem mark_eq : s.mark o u = (s.recordOf o).m_hashBeginEditByUser.lookup u := by
  unfold mark recordOf
  cases s.m_hashCommitsByObject.lookup o <;> rfl

/-- The shot with this id is stored. -/
def Stored (s : MergeHelper κ) (k : Nat) : Prop :=
  s.m_hashIdToShot.lookup k ≠ none

theorem recordOf_insert {t : MergeHelper κ} {info : EditCommitInfo}
    (h : t.m_hashCommitsByObject = s.m_hashCommitsByObject.insert o info) :
    t.recordOf o' = if o' = o then info else s.recordOf o' := by
  unfold recordOf
  rw [h]
  by_cases ho : o' = o
  · rw [if_pos ho, ho, AList.lookup_insert]
    rfl
  · rw [if_neg ho, AList.lookup_insert_ne ho]

theorem recordOf_some {info : EditCommitInfo}
    (h : s.m_hashCommitsByObject.lookup o = some info) : s.recordOf o = info := by
  unfold recordOf
  rw [h]
  rfl

@[simp]
theorem removeShotOf_commits (mark : Option BeginEditInfo) :
    (s.removeShotOf mark).m_hashCommitsByObject = s.m_hashCommitsByObject := by
  cases mark <;> rfl

theorem removeObjectShot_stored {key : Nat} :
    (s.removeObjectShot key).Stored k ↔ s.Stored k ∧ k ≠ key := by
  unfold Stored removeObjectShot
  dsimp only
  by_cases hk : k = key
  · subst hk
    rw [AList.lookup_erase]
    simp
  · rw [AList.lookup_erase_ne hk]
    simp [hk]

theorem removeShotOf_stored {mark : Option BeginEditInfo} :
    (s.removeShotOf mark).Stored k ↔
      s.Stored k ∧ ¬ ∃ b, mark = some b ∧ b.llObjectShotId = k := by
  cases mark with
  | none => simp [removeShotOf]
  | some b =>
      unfold removeShotOf
      rw [removeObjectShot_stored]
      simp [eq_comm]

section Begin

variable {id : Nat}

theorem markBeginEdit_record : (s.markBeginEdit now o u id).recordOf o' =
    if o' = o then
      { s.recordOf o with m_hashBeginEditByUser :=
          (s.recordOf o).m_hashBeginEditByUser.insert u ⟨now, id⟩ }
    else s.recordOf o' := by
  refine recordOf_insert ?_
  unfold markBeginEdit
  dsimp only
  rw [removeShotOf_commits]

theorem markBeginEdit_mark : (s.markBeginEdit now o u id).mark o' u' =
    if o' = o ∧ u' = u then some ⟨now, id⟩ else s.mark o' u' := by
  rw [mark_eq, markBeginEdit_record, mark_eq]
  by_cases ho : o' = o
  · subst ho
    rw [if_pos rfl]
    by_cases hu : u' = u
    · subst hu
      rw [if_pos ⟨rfl, rfl⟩]
      exact AList.lookup_insert _
    · rw [if_neg fun h => hu h.2]
      exact AList.lookup_insert_ne hu
  · rw [if_neg ho, if_neg fun h => ho h.1]

theorem markBeginEdit_time : (s.markBeginEdit now o u id).time o' = s.time o' := by
  unfold time
  rw [markBeginEdit_record]
  split
  · rename_i ho
    rw [ho]
  · rfl

theorem markBeginEdit_stored : (s.markBeginEdit now o u id).Stored k ↔
    s.Stored k ∧ ¬ ∃ b, s.mark o u = some b ∧ b.llObjectShotId = k := by
  rw [mark_eq]
  exact removeShotOf_stored

end Begin

theorem cleanupBeginEditMark_none (h : s.mark o u = none) : s.cleanupBeginEditMark o u = s := by
  unfold cleanupBeginEditMark
  cases hinfo : s.m_hashCommitsByObject.lookup o with
  | none => rfl
  | some info =>
      rw [mark_eq, recordOf_some hinfo] at h
      dsimp only
      rw [h]

theorem cleanupBeginEditMark_record : (s.cleanupBeginEditMark o u).recordOf o' =
    if o' = o then
      { s.recordOf o with m_hashBeginEditByUser := (s.recordOf o).m_hashBeginEditByUser.erase u }
    else s.recordOf o' := by
  cases hmark : s.mark o u with
  | none =>
      rw [cleanupBeginEditMark_none hmark]
      split
      · rename_i ho
        rw [mark_eq] at hmark
        have herase : (s.recordOf o).m_hashBeginEditByUser.erase u =
            (s.recordOf o).m_hashBeginEditByUser := by
          apply AList.ext
          exact List.kerase_of_notMem_keys (AList.lookup_eq_none.mp hmark)
        rw [herase, ho]
      · rfl
  | some b =>
      cases hinfo : s.m_hashCommitsByObject.lookup o with
      | none =>
          unfold mark at hmark
          rw [hinfo] at hmark
          cases hmark
      | some info =>
          rw [mark_eq, recordOf_some hinfo] at hmark
          rw [recordOf_some hinfo]
          refine recordOf_insert ?_
          unfold cleanupBeginEditMark
          rw [hinfo]
          dsimp only
          rw [hmark]
          rfl

theorem cleanupBeginEditMark_mark : (s.cleanupBeginEditMark o u).mark o' u' =
    if o' = o ∧ u' = u then none else s.mark o' u' := by
  rw [mark_eq, cleanupBeginEditMark_record, mark_eq]
  by_cases ho : o' = o
  · subst ho
    rw [if_pos rfl]
    by_cases hu : u' = u
    · subst hu
      rw [if_pos ⟨rfl, rfl⟩]
      exact AList.lookup_erase _ _
    · rw [if_neg fun h => hu h.2]
      exact AList.lookup_erase_ne hu
  · rw [if_neg ho, if_neg fun h => ho h.1]

theorem cleanupBeginEditMark_time : (s.cleanupBeginEditMark o u).time o' = s.time o' := by
  unfold time
  rw [cleanupBeginEditMark_record]
  split
  · rename_i ho
    rw [ho]
  · rfl

theorem cleanupBeginEditMark_stored : (s.cleanupBeginEditMark o u).Stored k ↔
    s.Stored k ∧ ¬ ∃ b, s.mark o u = some b ∧ b.llObjectShotId = k := by
  cases hmark : s.mark o u with
  | none =>
      rw [cleanupBeginEditMark_none hmark]
      simp
  | some b =>
      cases hinfo : s.m_hashCommitsByObject.lookup o with
      | none =>
          unfold mark at hmark
          rw [hinfo] at hmark
          cases hmark
      | some info =>
          rw [mark_eq, recordOf_some hinfo] at hmark
          unfold cleanupBeginEditMark
          rw [hinfo]
          dsimp only
          rw [hmark]
          dsimp only
          rw [removeObjectShot_stored]
          simp only [Option.some.injEq, exists_eq_left']
          exact and_congr_right fun _ => not_congr eq_comm

/-- An empty hash finds nothing. -/
theorem lookup_empty {marks : AList (fun _ : String => BeginEditInfo)}
    (h : marks.entries.isEmpty = true) (u : String) : marks.lookup u = none := by
  unfold AList.lookup
  rw [List.isEmpty_iff.mp h]
  rfl

theorem dropIfUnused_mark : (s.dropIfUnused o).mark o' u' = s.mark o' u' := by
  unfold dropIfUnused
  cases hinfo : s.m_hashCommitsByObject.lookup o with
  | none => rfl
  | some info =>
      dsimp only
      split
      · rename_i hempty
        unfold mark
        dsimp only
        by_cases ho : o' = o
        · subst ho
          rw [AList.lookup_erase, hinfo]
          exact (lookup_empty hempty u').symm
        · rw [AList.lookup_erase_ne ho]
      · rfl

/-- A record that is kept keeps its time, and one that is dropped has no mark. -/
theorem dropIfUnused_time : (s.dropIfUnused o).time o' = s.time o' ∨
    ((s.dropIfUnused o).time o' = 0 ∧ ∀ u, s.mark o' u = none) := by
  unfold dropIfUnused
  cases hinfo : s.m_hashCommitsByObject.lookup o with
  | none => exact .inl rfl
  | some info =>
      dsimp only
      split
      · rename_i hempty
        by_cases ho : o' = o
        · subst ho
          refine .inr ⟨?_, fun u => ?_⟩
          · unfold time recordOf
            rw [AList.lookup_erase]
            rfl
          · unfold mark
            rw [hinfo]
            exact lookup_empty hempty u
        · refine .inl ?_
          unfold time recordOf
          rw [AList.lookup_erase_ne ho]
      · exact .inl rfl

theorem dropIfUnused_stored : (s.dropIfUnused o).Stored k ↔ s.Stored k := by
  unfold dropIfUnused
  split
  · exact Iff.rfl
  · split <;> exact Iff.rfl

/-- The record of an object gets its commit time. -/
def commitAt (s : MergeHelper κ) (now : Nat) (o : String) (info : EditCommitInfo) :
    MergeHelper κ :=
  let info' := { info with tsCommitTimeStamp := now }
  { s with m_hashCommitsByObject := s.m_hashCommitsByObject.insert o info' }

section Commit

variable {info : EditCommitInfo}

theorem registerCommit_some (h : s.m_hashCommitsByObject.lookup o = some info) :
    s.registerCommit now o u =
      ((s.commitAt now o info).cleanupBeginEditMark o u).dropIfUnused o := by
  unfold registerCommit
  rw [h]
  rfl

theorem registerCommit_none (h : s.m_hashCommitsByObject.lookup o = none) :
    s.registerCommit now o u = s := by
  unfold registerCommit
  rw [h]

theorem commitAt_record : (s.commitAt now o info).recordOf o' =
    if o' = o then { info with tsCommitTimeStamp := now } else s.recordOf o' :=
  recordOf_insert rfl

theorem commitAt_mark (h : s.m_hashCommitsByObject.lookup o = some info) :
    (s.commitAt now o info).mark o' u' = s.mark o' u' := by
  rw [mark_eq, mark_eq, commitAt_record]
  split
  · rename_i ho
    rw [ho, recordOf_some h]
  · rfl

end Commit

theorem mark_of_none (h : s.m_hashCommitsByObject.lookup o = none) : s.mark o u = none := by
  unfold mark
  rw [h]
  rfl

theorem registerCommit_mark : (s.registerCommit now o u).mark o' u' =
    if o' = o ∧ u' = u then none else s.mark o' u' := by
  cases hinfo : s.m_hashCommitsByObject.lookup o with
  | none =>
      rw [registerCommit_none hinfo]
      split
      · rename_i h
        rw [h.1]
        exact mark_of_none hinfo
      · rfl
  | some info =>
      rw [registerCommit_some hinfo, dropIfUnused_mark, cleanupBeginEditMark_mark,
        commitAt_mark hinfo]

theorem registerCommit_stored : (s.registerCommit now o u).Stored k ↔
    s.Stored k ∧ ¬ ∃ b, s.mark o u = some b ∧ b.llObjectShotId = k := by
  cases hinfo : s.m_hashCommitsByObject.lookup o with
  | none =>
      rw [registerCommit_none hinfo, mark_of_none hinfo]
      simp
  | some info =>
      rw [registerCommit_some hinfo, dropIfUnused_stored, cleanupBeginEditMark_stored,
        commitAt_mark hinfo]
      exact Iff.rfl

/-- The time is that of the commit, unless nobody edits the object any more. -/
theorem registerCommit_time :
    (s.registerCommit now o u).time o' = (if o' = o then now else s.time o') ∨
    ((s.registerCommit now o u).time o' = 0 ∧
      ∀ u', (s.registerCommit now o u).mark o' u' = none) := by
  cases hinfo : s.m_hashCommitsByObject.lookup o with
  | none =>
      rw [registerCommit_none hinfo]
      by_cases ho : o' = o
      · subst ho
        refine .inr ⟨?_, fun u' => mark_of_none hinfo⟩
        unfold time recordOf
        rw [hinfo]
        rfl
      · rw [if_neg ho]
        exact .inl rfl
  | some info =>
      have htime : ((s.commitAt now o info).cleanupBeginEditMark o u).time o' =
          if o' = o then now else s.time o' := by
        rw [cleanupBeginEditMark_time]
        unfold time
        rw [commitAt_record]
        split <;> rfl
      rw [registerCommit_some hinfo, ← htime]
      refine dropIfUnused_time.imp_right fun ⟨hzero, hnone⟩ => ⟨hzero, fun u' => ?_⟩
      rw [dropIfUnused_mark]
      exact hnone u'

section All

theorem cleanupAll_lookup :
    (s.cleanupAllBeginEditMarksByAccessToken u).m_hashCommitsByObject.lookup o =
      (s.m_hashCommitsByObject.lookup o).bind (withoutUser u o) :=
  Hash.lookup_walk _ _ o

theorem cleanupAll_mark : (s.cleanupAllBeginEditMarksByAccessToken u).mark o u' =
    if u' = u then none else s.mark o u' := by
  have herase : ∀ info : EditCommitInfo, (info.m_hashBeginEditByUser.erase u).lookup u' =
      if u' = u then none else info.m_hashBeginEditByUser.lookup u' := by
    intro info
    split
    · rename_i hu
      rw [hu]
      exact AList.lookup_erase _ _
    · rename_i hu
      exact AList.lookup_erase_ne hu
  unfold mark
  rw [cleanupAll_lookup]
  cases s.m_hashCommitsByObject.lookup o with
  | none =>
      split <;> rfl
  | some info =>
      unfold withoutUser
      rw [Option.bind_some, Option.bind_some, ← herase info]
      split
      · rename_i hempty
        exact (lookup_empty hempty u').symm
      · rfl

theorem cleanupAll_time : (s.cleanupAllBeginEditMarksByAccessToken u).time o = s.time o ∨
    ((s.cleanupAllBeginEditMarksByAccessToken u).time o = 0 ∧
      ∀ u', (s.cleanupAllBeginEditMarksByAccessToken u).mark o u' = none) := by
  unfold time recordOf mark
  rw [cleanupAll_lookup]
  cases s.m_hashCommitsByObject.lookup o with
  | none => exact .inl rfl
  | some info =>
      unfold withoutUser
      rw [Option.bind_some]
      split
      · exact .inr ⟨rfl, fun _ => rfl⟩
      · exact .inl rfl

/-- The shots that the loop leaves. -/
theorem removeShots_stored {entries : List (Sigma fun _ : String => EditCommitInfo)} :
    (entries.foldl (fun s x => s.removeShotOf (x.2.m_hashBeginEditByUser.lookup u)) s).Stored k ↔
      s.Stored k ∧ ¬ ∃ x ∈ entries, ∃ b,
        x.2.m_hashBeginEditByUser.lookup u = some b ∧ b.llObjectShotId = k := by
  induction entries generalizing s with
  | nil => simp
  | cons x entries ih =>
      rw [List.foldl_cons, ih, removeShotOf_stored, and_assoc, ← not_or]
      simp only [List.mem_cons, exists_eq_or_imp]

theorem cleanupAll_stored : (s.cleanupAllBeginEditMarksByAccessToken u).Stored k ↔
    s.Stored k ∧ ¬ ∃ o b, s.mark o u = some b ∧ b.llObjectShotId = k := by
  unfold cleanupAllBeginEditMarksByAccessToken
  refine removeShots_stored.trans (and_congr_right fun _ => not_congr ?_)
  constructor
  · rintro ⟨⟨o, info⟩, hin, b, hb, hk⟩
    refine ⟨o, b, ?_, hk⟩
    unfold mark
    rw [AList.mem_lookup_iff.mpr hin]
    exact hb
  · rintro ⟨o, b, hb, hk⟩
    cases hinfo : s.m_hashCommitsByObject.lookup o with
    | none =>
        rw [mark_of_none hinfo] at hb
        cases hb
    | some info =>
        rw [mark_eq, recordOf_some hinfo] at hb
        exact ⟨⟨o, info⟩, AList.mem_lookup_iff.mp hinfo, b, hb, hk⟩

end All

end MergeHelper

end DispService.Edit
