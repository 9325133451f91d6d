import DispService.Edit.Marks

/-! No commit of another user goes unnoticed, and the shots are those of the marks. -/
namespace DispService.Edit

open Lib MergeHelper

universe u

variable {κ : Type u} {s : Editing κ} {e : Event κ} {o u : String}

/-- Marks and commit times agree with what has happened. -/
structure Timed (s : Editing κ) : Prop where
  begun : ∀ o u b, s.1.mark o u = some b → b.tsBeginEditTimeStamp = s.2.begun o u
  past : ∀ o u, s.2.begun o u ≤ s.2.clock
  committed : ∀ o, s.1.time o ≤ s.2.committed o
  overtaken : ∀ o u, s.1.mark o u ≠ none → s.2.overtaken o u = true →
    s.2.begun o u ≤ s.1.time o

/-- Requests that only drop marks, and records without marks. -/
structure Drops (s t : MergeHelper κ) : Prop where
  mark : ∀ o u b, t.mark o u = some b → s.mark o u = some b
  time : ∀ o, t.time o = s.time o ∨ (t.time o = 0 ∧ ∀ u, t.mark o u = none)

theorem Timed.drop {t : MergeHelper κ} (h : Timed s) (drops : Drops s.1 t)
    (hclock : s.2.clock ≤ e.now) : Timed (t, { s.2 with clock := e.now }) where
  begun := fun o u b hb => h.begun o u b (drops.mark o u b hb)
  past := fun o u => Nat.le_trans (h.past o u) hclock
  committed := by
    intro o
    rcases drops.time o with heq | ⟨hzero, -⟩
    · rw [heq]
      exact h.committed o
    · rw [hzero]
      exact Nat.zero_le _
  overtaken := by
    intro o u hmark hovertaken
    obtain ⟨b, hb⟩ := Option.ne_none_iff_exists'.mp hmark
    rcases drops.time o with heq | ⟨-, hnone⟩
    · rw [heq]
      exact h.overtaken o u (by rw [drops.mark o u b hb]; exact Option.some_ne_none b) hovertaken
    · rw [hnone u] at hb
      cases hb

theorem drops_cleanup {t : MergeHelper κ} : Drops t (t.cleanupBeginEditMark o u) where
  mark := by
    intro o' u' b hb
    rw [cleanupBeginEditMark_mark] at hb
    split at hb
    · cases hb
    · exact hb
  time := fun _ => .inl cleanupBeginEditMark_time

theorem drops_cleanupAll {t : MergeHelper κ} :
    Drops t (t.cleanupAllBeginEditMarksByAccessToken u) where
  mark := by
    intro o' u' b hb
    rw [cleanupAll_mark] at hb
    split at hb
    · cases hb
    · exact hb
  time := fun _ => cleanupAll_time

theorem registerBeginEdit_mark {t : MergeHelper κ} {now : Nat} {conf : κ} (o' u' : String) :
    (t.registerBeginEdit now o u conf).mark o' u' =
      if o' = o ∧ u' = u then some ⟨now, t.nextId⟩ else t.mark o' u' :=
  markBeginEdit_mark

theorem Timed.begin (h : Timed s) {conf : κ} (hrequest : e.request = .registerBeginEdit o u conf)
    (hclock : s.2.clock ≤ e.now) : Timed (advance s e) := by
  have hadvance : advance s e = (s.1.registerBeginEdit e.now o u conf, s.2.record e) := by
    unfold advance MergeHelper.serve
    rw [hrequest]
  have htime : ∀ o', (s.1.registerBeginEdit e.now o u conf).time o' = s.1.time o' :=
    fun o' => markBeginEdit_time
  rw [hadvance]
  unfold History.record
  rw [hrequest]
  constructor
  · intro o' u' b hb
    dsimp only at hb ⊢
    rw [registerBeginEdit_mark] at hb
    split at hb
    · rename_i hsame
      cases hb
      rw [if_pos hsame]
    · rename_i hother
      rw [if_neg hother]
      exact h.begun o' u' b hb
  · intro o' u'
    dsimp only
    split
    · exact Nat.le_refl _
    · exact Nat.le_trans (h.past o' u') hclock
  · intro o'
    dsimp only
    rw [htime]
    exact h.committed o'
  · intro o' u' hmark hovertaken
    dsimp only at hmark hovertaken ⊢
    rw [registerBeginEdit_mark] at hmark
    split at hovertaken
    · cases hovertaken
    · rename_i hother
      rw [if_neg hother] at hmark ⊢
      rw [htime]
      exact h.overtaken o' u' hmark hovertaken

theorem Timed.commit (h : Timed s) (hrequest : e.request = .registerCommit o u)
    (hclock : s.2.clock ≤ e.now) : Timed (advance s e) := by
  have hadvance : advance s e = (s.1.registerCommit e.now o u, s.2.record e) := by
    unfold advance MergeHelper.serve
    rw [hrequest]
  have hkeep : ∀ o' u' b, (s.1.registerCommit e.now o u).mark o' u' = some b →
      ¬ (o' = o ∧ u' = u) ∧ s.1.mark o' u' = some b := by
    intro o' u' b hb
    rw [registerCommit_mark] at hb
    split at hb
    · cases hb
    · rename_i hother
      exact ⟨hother, hb⟩
  rw [hadvance]
  unfold History.record
  rw [hrequest]
  constructor
  · exact fun o' u' b hb => h.begun o' u' b (hkeep o' u' b hb).2
  · exact fun o' u' => Nat.le_trans (h.past o' u') hclock
  · intro o'
    dsimp only
    rcases registerCommit_time with heq | ⟨hzero, -⟩
    · rw [heq]
      split
      · exact Nat.le_refl _
      · exact h.committed o'
    · rw [hzero]
      exact Nat.zero_le _
  · intro o' u' hmark hovertaken
    dsimp only at hmark hovertaken ⊢
    obtain ⟨b, hb⟩ := Option.ne_none_iff_exists'.mp hmark
    obtain ⟨hother, hbefore⟩ := hkeep o' u' b hb
    rcases registerCommit_time with heq | ⟨-, hnone⟩
    · rw [heq]
      split
      · exact Nat.le_trans (h.past o' u') hclock
      · rename_i ho
        rw [if_neg fun hsame => ho hsame.1] at hovertaken
        exact h.overtaken o' u' (by rw [hbefore]; exact Option.some_ne_none b) hovertaken
    · rw [hnone u'] at hb
      cases hb

theorem Timed.step (h : Timed s) (hclock : Clocked s e) : Timed (advance s e) := by
  cases hrequest : e.request with
  | registerBeginEdit o u conf => exact h.begin hrequest hclock
  | registerCommit o u => exact h.commit hrequest hclock
  | configWasChanged o u =>
      unfold advance MergeHelper.serve History.record
      rw [hrequest]
      exact h.drop ⟨fun _ _ _ hb => hb, fun _ => .inl rfl⟩ hclock
  | cleanupBeginEditMark o u =>
      unfold advance MergeHelper.serve History.record
      rw [hrequest]
      exact h.drop drops_cleanup hclock
  | cleanupAllBeginEditMarksByAccessToken u =>
      unfold advance MergeHelper.serve History.record
      rw [hrequest]
      exact h.drop drops_cleanupAll hclock

theorem configWasChanged_mark {t : MergeHelper κ} {b : BeginEditInfo}
    (hb : t.mark o u = some b) :
    t.configWasChanged o u = (decide (t.time o ≥ b.tsBeginEditTimeStamp), .success) := by
  unfold configWasChanged time
  cases hinfo : t.m_hashCommitsByObject.lookup o with
  | none =>
      rw [mark_of_none hinfo] at hb
      cases hb
  | some info =>
      rw [mark_eq, recordOf_some hinfo] at hb
      rw [recordOf_some hinfo]
      dsimp only
      rw [hb]

theorem Timed.noticed (h : Timed s) : Noticed s := by
  constructor
  · intro o u hmark hovertaken
    obtain ⟨b, hb⟩ := Option.ne_none_iff_exists'.mp hmark
    rw [configWasChanged_mark hb, h.begun o u b hb]
    exact decide_eq_true (h.overtaken o u hmark hovertaken)
  · intro o u hmark hlate
    obtain ⟨b, hb⟩ := Option.ne_none_iff_exists'.mp hmark
    have htime := h.committed o
    rw [configWasChanged_mark hb, h.begun o u b hb]
    refine Prod.ext (decide_eq_false ?_) rfl
    omega

end DispService.Edit

/-! The configurations that editors have seen are stored as long as their marks, while
the 64-bit ids last. -/
namespace DispService.Edit

open Lib MergeHelper

universe u

variable {κ : Type u} {s : Editing κ} {e : Event κ} {t t' : MergeHelper κ} {o u : String}

/-- Marks go together with their shots. -/
structure Sheds (t t' : MergeHelper κ) (dropped : String → String → Prop) : Prop where
  mark : ∀ o u b, t'.mark o u = some b ↔ t.mark o u = some b ∧ ¬ dropped o u
  stored : ∀ k, t'.Stored k ↔
    t.Stored k ∧ ¬ ∃ o u b, dropped o u ∧ t.mark o u = some b ∧ b.llObjectShotId = k

theorem Shots.shed {dropped : String → String → Prop} (h : Shots t) (sheds : Sheds t t' dropped) :
    Shots t' where
  stored := by
    intro k
    refine (sheds.stored k).trans ?_
    constructor
    · rintro ⟨hstored, hno⟩
      obtain ⟨o, u, b, hb, hk⟩ := (h.stored k).mp hstored
      have hkept : ¬ dropped o u := fun hdropped => hno ⟨o, u, b, hdropped, hb, hk⟩
      exact ⟨o, u, b, (sheds.mark o u b).mpr ⟨hb, hkept⟩, hk⟩
    · rintro ⟨o, u, b, hb, hk⟩
      obtain ⟨hbefore, hkept⟩ := (sheds.mark o u b).mp hb
      refine ⟨(h.stored k).mpr ⟨o, u, b, hbefore, hk⟩, ?_⟩
      rintro ⟨o', u', b', hdropped, hb', hk'⟩
      obtain ⟨rfl, rfl⟩ := h.one o u b o' u' b' hbefore hb' (hk.trans hk'.symm)
      exact hkept hdropped
  one := by
    intro o u b o' u' b' hb hb' hid
    exact h.one o u b o' u' b' ((sheds.mark o u b).mp hb).1 ((sheds.mark o' u' b').mp hb').1 hid

/-- A mark goes with its shot where the request says so of one mark. -/
theorem sheds_one
    (mark : ∀ o' u', t'.mark o' u' = if o' = o ∧ u' = u then none else t.mark o' u')
    (stored : ∀ k, t'.Stored k ↔
      t.Stored k ∧ ¬ ∃ b, t.mark o u = some b ∧ b.llObjectShotId = k) :
    Sheds t t' fun o' u' => o' = o ∧ u' = u where
  mark := by
    intro o' u' b
    rw [mark]
    split
    · rename_i hsame
      exact iff_of_false (fun hno => by cases hno) fun hno => hno.2 hsame
    · rename_i hother
      exact (and_iff_left hother).symm
  stored := by
    intro k
    refine (stored k).trans (and_congr_right fun _ => not_congr ?_)
    constructor
    · rintro ⟨b, hb, hk⟩
      exact ⟨o, u, b, ⟨rfl, rfl⟩, hb, hk⟩
    · rintro ⟨o', u', b, ⟨rfl, rfl⟩, hb, hk⟩
      exact ⟨b, hb, hk⟩

theorem sheds_cleanup : Sheds t (t.cleanupBeginEditMark o u) fun o' u' => o' = o ∧ u' = u :=
  sheds_one (fun _ _ => cleanupBeginEditMark_mark) fun _ => cleanupBeginEditMark_stored

theorem sheds_commit {now : Nat} :
    Sheds t (t.registerCommit now o u) fun o' u' => o' = o ∧ u' = u :=
  sheds_one (fun _ _ => registerCommit_mark) fun _ => registerCommit_stored

theorem sheds_cleanupAll :
    Sheds t (t.cleanupAllBeginEditMarksByAccessToken u) fun _ u' => u' = u where
  mark := by
    intro o' u' b
    rw [cleanupAll_mark]
    split
    · rename_i hsame
      exact iff_of_false (fun hno => by cases hno) fun hno => hno.2 hsame
    · rename_i hother
      exact (and_iff_left hother).symm
  stored := by
    intro k
    refine cleanupAll_stored.trans (and_congr_right fun _ => not_congr ?_)
    constructor
    · rintro ⟨o, b, hb, hk⟩
      exact ⟨o, u, b, rfl, hb, hk⟩
    · rintro ⟨o, u', b, rfl, hb, hk⟩
      exact ⟨o, b, hb, hk⟩

/-- The new shot is stored, and the one of the mark before is not. -/
theorem registerBeginEdit_stored {now k : Nat} {conf : κ} :
    (t.registerBeginEdit now o u conf).Stored k ↔
      (k = t.nextId ∨ t.Stored k) ∧ ¬ ∃ b, t.mark o u = some b ∧ b.llObjectShotId = k := by
  refine markBeginEdit_stored.trans (and_congr_left fun _ => ?_)
  unfold Stored
  dsimp only
  by_cases hk : k = t.nextId
  · rw [hk, AList.lookup_insert]
    simp
  · rw [AList.lookup_insert_ne hk]
    simp [hk]

/-- An id that no mark has is stored with its mark, and the one before goes. -/
theorem Shots.begin {now : Nat} {conf : κ} (h : Shots t)
    (fresh : ∀ o u b, t.mark o u = some b → b.llObjectShotId ≠ t.nextId) :
    Shots (t.registerBeginEdit now o u conf) where
  stored := by
    intro k
    refine registerBeginEdit_stored.trans ?_
    constructor
    · rintro ⟨hk | hstored, hno⟩
      · exact ⟨o, u, ⟨now, t.nextId⟩, (registerBeginEdit_mark o u).trans (if_pos ⟨rfl, rfl⟩),
          hk.symm⟩
      · obtain ⟨o', u', b, hb, hk⟩ := (h.stored k).mp hstored
        have hother : ¬ (o' = o ∧ u' = u) := by
          rintro ⟨rfl, rfl⟩
          exact hno ⟨b, hb, hk⟩
        exact ⟨o', u', b, (registerBeginEdit_mark o' u').trans ((if_neg hother).trans hb), hk⟩
    · rintro ⟨o', u', b, hb, hk⟩
      rw [registerBeginEdit_mark] at hb
      split at hb
      · cases hb
        refine ⟨.inl hk.symm, ?_⟩
        rintro ⟨b, hb, hid⟩
        exact fresh o u b hb (hid.trans hk.symm)
      · rename_i hother
        refine ⟨.inr ((h.stored k).mpr ⟨o', u', b, hb, hk⟩), ?_⟩
        rintro ⟨b', hb', hid⟩
        exact hother (h.one o' u' b o u b' hb hb' (hk.trans hid.symm))
  one := by
    intro o₁ u₁ b₁ o₂ u₂ b₂ h₁ h₂ hid
    rw [registerBeginEdit_mark] at h₁ h₂
    by_cases hsame₁ : o₁ = o ∧ u₁ = u <;> by_cases hsame₂ : o₂ = o ∧ u₂ = u
    · exact ⟨hsame₁.1.trans hsame₂.1.symm, hsame₁.2.trans hsame₂.2.symm⟩
    · rw [if_pos hsame₁] at h₁
      rw [if_neg hsame₂] at h₂
      cases h₁
      exact absurd hid.symm (fresh o₂ u₂ b₂ h₂)
    · rw [if_neg hsame₁] at h₁
      rw [if_pos hsame₂] at h₂
      cases h₂
      exact absurd hid (fresh o₁ u₁ b₁ h₁)
    · rw [if_neg hsame₁] at h₁
      rw [if_neg hsame₂] at h₂
      exact h.one o₁ u₁ b₁ o₂ u₂ b₂ h₁ h₂ hid

/-- The ids are given out in order. -/
structure Numbered (s : Editing κ) : Prop where
  counter : s.1.m_llCounter = (1 + s.2.begins) % 2 ^ 64
  ids : ∀ o u b, s.1.mark o u = some b →
    ∃ n, 1 ≤ n ∧ n ≤ s.2.begins ∧ b.llObjectShotId = (1 + n) % 2 ^ 64

theorem Numbered.nextId (h : Numbered s) : s.1.nextId = (1 + (s.2.begins + 1)) % 2 ^ 64 := by
  unfold MergeHelper.nextId
  rw [h.counter]
  omega

theorem Numbered.fresh (h : Numbered s) (hfew : s.2.begins < 2 ^ 64) (o u : String)
    (b : BeginEditInfo) (hb : s.1.mark o u = some b) : b.llObjectShotId ≠ s.1.nextId := by
  obtain ⟨n, hpos, hle, hid⟩ := h.ids o u b hb
  rw [hid, h.nextId]
  omega

/-- The invariant of the shots: exact until the ids are used up. -/
structure Kept (s : Editing κ) : Prop extends Numbered s where
  shots : s.2.begins ≤ 2 ^ 64 → Shots s.1

theorem cleanupBeginEditMark_counter :
    (t.cleanupBeginEditMark o u).m_llCounter = t.m_llCounter := by
  unfold cleanupBeginEditMark
  split
  · rfl
  · split <;> rfl

theorem registerCommit_counter {now : Nat} :
    (t.registerCommit now o u).m_llCounter = t.m_llCounter := by
  have hdrop : ∀ r : MergeHelper κ, (r.dropIfUnused o).m_llCounter = r.m_llCounter := by
    intro r
    unfold dropIfUnused
    split
    · rfl
    · split <;> rfl
  unfold registerCommit
  split
  · rfl
  · dsimp only
    rw [hdrop, cleanupBeginEditMark_counter]

theorem cleanupAll_counter :
    (t.cleanupAllBeginEditMarksByAccessToken u).m_llCounter = t.m_llCounter := by
  have hfold : ∀ (entries : List (Sigma fun _ : String => EditCommitInfo)) (r : MergeHelper κ),
      (entries.foldl (fun s x => s.removeShotOf (x.2.m_hashBeginEditByUser.lookup u)) r).m_llCounter
        = r.m_llCounter := by
    intro entries
    induction entries with
    | nil => exact fun _ => rfl
    | cons x entries ih =>
        intro r
        rw [List.foldl_cons, ih]
        unfold removeShotOf
        split <;> rfl
  exact hfold _ t

theorem Kept.shed {dropped : String → String → Prop} {h' : History} (h : Kept s)
    (sheds : Sheds s.1 t' dropped) (hcounter : t'.m_llCounter = s.1.m_llCounter)
    (hbegins : h'.begins = s.2.begins) : Kept (t', h') where
  counter := by
    rw [hcounter, h.counter, hbegins]
  ids := by
    intro o u b hb
    rw [hbegins]
    exact h.ids o u b ((sheds.mark o u b).mp hb).1
  shots := by
    intro hfew
    rw [hbegins] at hfew
    exact (h.shots hfew).shed sheds

theorem Kept.begin {now : Nat} {conf : κ} {h' : History} (h : Kept s)
    (hbegins : h'.begins = s.2.begins + 1) : Kept (s.1.registerBeginEdit now o u conf, h') where
  counter := by
    rw [hbegins, ← h.nextId]
    have hcounter : (s.1.registerBeginEdit now o u conf).m_llCounter = s.1.nextId := by
      unfold registerBeginEdit markBeginEdit removeShotOf
      dsimp only
      split <;> rfl
    exact hcounter
  ids := by
    intro o' u' b hb
    dsimp only at hb
    rw [registerBeginEdit_mark] at hb
    rw [hbegins]
    split at hb
    · cases hb
      exact ⟨s.2.begins + 1, by omega, Nat.le_refl _, h.nextId⟩
    · obtain ⟨n, hpos, hle, hid⟩ := h.ids o' u' b hb
      exact ⟨n, hpos, by omega, hid⟩
  shots := by
    intro hfew
    rw [hbegins] at hfew
    exact (h.shots (by omega)).begin (h.fresh (by omega))

theorem Kept.step (h : Kept s) : Kept (advance s e) := by
  unfold advance MergeHelper.serve History.record
  cases hrequest : e.request with
  | registerBeginEdit o u conf => exact h.begin rfl
  | configWasChanged o u => exact ⟨⟨h.counter, h.ids⟩, h.shots⟩
  | registerCommit o u => exact h.shed sheds_commit registerCommit_counter rfl
  | cleanupBeginEditMark o u => exact h.shed sheds_cleanup cleanupBeginEditMark_counter rfl
  | cleanupAllBeginEditMarksByAccessToken u => exact h.shed sheds_cleanupAll cleanupAll_counter rfl

theorem start_timed : Timed (start : Editing κ) where
  begun := fun _ _ _ hb => by cases hb
  past := fun _ _ => Nat.le_refl _
  committed := fun _ => Nat.le_refl _
  overtaken := fun _ _ hno _ => absurd rfl hno

theorem start_kept : Kept (start : Editing κ) where
  counter := rfl
  ids := fun _ _ _ hb => by cases hb
  shots := by
    refine fun _ => ⟨fun k => ?_, fun _ _ _ _ _ _ hb => by cases hb⟩
    refine iff_of_false (fun hno => hno rfl) ?_
    rintro ⟨o, u, b, hb, -⟩
    cases hb

/-- In every interleaving no commit goes unnoticed, none is reported without need, and
up to the last id the shots are those of the marks. -/
theorem editing_along {es : List (Event κ)}
    (run : Run (Guarded Clocked (Graph advance)) start es s) :
    Noticed s ∧ (s.2.begins ≤ 2 ^ 64 → Shots s.1) := by
  have hinvariant : Timed s ∧ Kept s := by
    refine run.preserves (p := fun s => Timed s ∧ Kept s) ?_ ⟨start_timed, start_kept⟩
    rintro s e _ ⟨htimed, hkept⟩ ⟨hclock, rfl⟩
    exact ⟨htimed.step hclock, hkept.step⟩
  exact ⟨hinvariant.1.noticed, hinvariant.2.shots⟩

/-- Before the ids come round to 0, who has a mark finds the configuration to merge with. -/
theorem Kept.merges (h : Kept s) (hfew : s.2.begins + 1 < 2 ^ 64) (hmark : s.1.mark o u ≠ none) :
    s.1.prevConf o u ≠ none := by
  obtain ⟨b, hb⟩ := Option.ne_none_iff_exists'.mp hmark
  obtain ⟨n, hpos, hle, hid⟩ := h.ids o u b hb
  have hshot : s.1.getShotId o u = b.llObjectShotId := by
    unfold getShotId
    rw [mark_eq] at hb
    rw [hb]
  unfold prevConf
  rw [hshot, if_neg (by omega)]
  exact ((h.shots (by omega)).stored _).mpr ⟨o, u, b, hb, rfl⟩

/-- A commit in the same tick as the begin of the edit is noticed. -/
theorem commit_in_tick_noticed :
    let s := advance (advance start ⟨5, .registerBeginEdit "vm" "a" 7⟩)
      (⟨5, .registerCommit "vm" "b"⟩ : Event Nat)
    (s.1.configWasChanged "vm" "a").1 = true := by
  intro s
  have run : Run (Guarded Clocked (Graph advance)) start
      [⟨5, .registerBeginEdit "vm" "a" 7⟩, ⟨5, .registerCommit "vm" "b"⟩] s :=
    .cons ⟨Nat.zero_le 5, rfl⟩ (.cons ⟨Nat.le_refl 5, rfl⟩ (.nil s))
  exact (editing_along run).1.lost "vm" "a" (by decide) rfl

/-- One user begins to edit again and again, and gets the id for the last time. -/
theorem begins_again (n : Nat) (s : Editing Unit) (numbered : Kept s) (hclock : s.2.clock = 0) :
    ∃ t, Run (Guarded Clocked (Graph advance)) s
        (List.replicate (n + 1) ⟨0, .registerBeginEdit "vm" "b" ()⟩) t ∧
      t.1.mark "vm" "a" = s.1.mark "vm" "a" ∧
      t.1.mark "vm" "b" = some ⟨0, (1 + (s.2.begins + (n + 1))) % 2 ^ 64⟩ := by
  induction n generalizing s with
  | zero =>
      refine ⟨_, .cons ⟨Nat.le_of_eq hclock, rfl⟩ (.nil _), registerBeginEdit_mark "vm" "a", ?_⟩
      rw [← numbered.nextId]
      exact registerBeginEdit_mark "vm" "b"
  | succ n ih =>
      obtain ⟨t, run, ha, hb⟩ := ih (advance s ⟨0, .registerBeginEdit "vm" "b" ()⟩)
        numbered.step rfl
      have hbegins : (advance s ⟨0, .registerBeginEdit "vm" "b" ()⟩).2.begins =
          s.2.begins + 1 := rfl
      refine ⟨t, .cons ⟨Nat.le_of_eq hclock, rfl⟩ run, ha.trans (registerBeginEdit_mark "vm" "a"),
        hb.trans ?_⟩
      rw [hbegins]
      congr 2
      omega

/-- After 2 ^ 64 further begins the ids come round, and two marks share a shot. -/
theorem ids_come_round : ¬ ∀ (es : List (Event Unit)) (s : Editing Unit),
    Run (Guarded Clocked (Graph advance)) start es s → Noticed s ∧ Shots s.1 := by
  intro h
  obtain ⟨t, run, ha, hb⟩ := begins_again (2 ^ 64 - 1)
    (advance start ⟨0, .registerBeginEdit "vm" "a" ()⟩) start_kept.step rfl
  have hmark : (advance (start : Editing Unit) ⟨0, .registerBeginEdit "vm" "a" ()⟩).1.mark
      "vm" "a" = some ⟨0, 2⟩ := registerBeginEdit_mark "vm" "a"
  have hclock : Clocked (start : Editing Unit) ⟨0, .registerBeginEdit "vm" "a" ()⟩ := Nat.le_refl 0
  have hshots := (h _ t (.cons ⟨hclock, rfl⟩ run)).2
  have hid : (1 + (1 + (2 ^ 64 - 1 + 1))) % 2 ^ 64 = 2 := by omega
  have hsame := hshots.one "vm" "a" _ "vm" "b" _ (ha.trans hmark) hb hid.symm
  exact absurd hsame.2 (by decide)

end DispService.Edit
