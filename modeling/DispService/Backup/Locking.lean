import Mathlib.Data.Finset.Basic
import Mathlib.Data.Multiset.Count
import DispService.Lib.Run
import DispService.PrlResult

/-! The metadata lock: which sequences of backups are read, and which are written. -/
namespace DispService.Backup.Metadata

open Lib

universe u

variable {θ : Type u} [DecidableEq θ]

/-- The threads that hold a sequence shared are recorded, the one that holds it
exclusively is not. -/
structure Lock (θ : Type u) where
  m_exclusive : Finset String := ∅
  m_shared : Multiset (String × θ) := 0

namespace Lock

def grabShared (l : Lock θ) (sequence_ : String) (currentThread : θ) : PrlResult × Lock θ :=
  if sequence_ ∈ l.m_exclusive then (.backupLockedForWriting, l)
  else (.success, { l with m_shared := (sequence_, currentThread) ::ₘ l.m_shared })

def releaseShared (l : Lock θ) (sequence_ : String) (currentThread : θ) : Lock θ :=
  if (sequence_, currentThread) ∈ l.m_shared then
    { l with m_shared := l.m_shared.erase (sequence_, currentThread) }
  else l

/-- Some thread has the sequence in the table of shared locks. -/
def isShared (l : Lock θ) (sequence_ : String) : Bool :=
  decide (sequence_ ∈ l.m_shared.map Prod.fst)

def grabExclusive (l : Lock θ) (sequence_ : String) : PrlResult × Lock θ :=
  if sequence_ ∈ l.m_exclusive then (.backupLockedForWriting, l)
  else if l.isShared sequence_ then (.backupLockedForReading, l)
  else (.success, { l with m_exclusive := insert sequence_ l.m_exclusive })

def releaseExclusive (l : Lock θ) (sequence_ : String) : Lock θ :=
  { l with m_exclusive := l.m_exclusive.erase sequence_ }

end Lock

inductive Call where
  | grabShared
  | releaseShared
  | grabExclusive
  | releaseExclusive
deriving DecidableEq

structure Request (θ : Type u) where
  thread : θ
  call : Call
  sequence_ : String

def Lock.serve (l : Lock θ) (r : Request θ) : PrlResult × Lock θ :=
  match r.call with
  | .grabShared => l.grabShared r.sequence_ r.thread
  | .releaseShared => (.success, l.releaseShared r.sequence_ r.thread)
  | .grabExclusive => l.grabExclusive r.sequence_
  | .releaseExclusive => (.success, l.releaseExclusive r.sequence_)

/-- History: what each thread was granted and has not released itself. -/
structure Held (θ : Type u) where
  exclusive : θ → String → Bool := fun _ _ => false
  shared : θ → String → Nat := fun _ _ => 0

namespace Held

def setExclusive (h : Held θ) (t : θ) (q : String) (b : Bool) : Held θ :=
  { h with exclusive := fun t' q' => if t' = t ∧ q' = q then b else h.exclusive t' q' }

def setShared (h : Held θ) (t : θ) (q : String) (n : Nat) : Held θ :=
  { h with shared := fun t' q' => if t' = t ∧ q' = q then n else h.shared t' q' }

def record (h : Held θ) (r : Request θ) (failed : Bool) : Held θ :=
  match r.call with
  | .grabShared =>
      if failed then h else h.setShared r.thread r.sequence_ (h.shared r.thread r.sequence_ + 1)
  | .releaseShared => h.setShared r.thread r.sequence_ (h.shared r.thread r.sequence_ - 1)
  | .grabExclusive => if failed then h else h.setExclusive r.thread r.sequence_ true
  | .releaseExclusive => h.setExclusive r.thread r.sequence_ false

end Held

/-- The table, and beside it what was granted. -/
abbrev Locking (θ : Type u) := Lock θ × Held θ

def advance (s : Locking θ) (r : Request θ) : Locking θ :=
  ((s.1.serve r).2, s.2.record r (s.1.serve r).1.failed)

def start : Locking θ := ({}, {})

/-- A sequence is not exclusive and shared in the table, and the table has each shared
grab until the thread itself releases it. -/
structure Tabled (s : Locking θ) : Prop where
  apart : ∀ q t, q ∈ s.1.m_exclusive → (q, t) ∉ s.1.m_shared
  shared : ∀ q t, s.1.m_shared.count (q, t) = s.2.shared t q

/-- A failed grab changes nothing, nor does the release of what is not held. -/
structure Quiet (s : Locking θ) (r : Request θ) : Prop where
  failed : (s.1.serve r).1.failed = true → (s.1.serve r).2 = s.1
  shared : r.call = .releaseShared → s.2.shared r.thread r.sequence_ = 0 →
    (s.1.serve r).2 = s.1
  exclusive : r.call = .releaseExclusive → r.sequence_ ∉ s.1.m_exclusive →
    (s.1.serve r).2 = s.1

/-- At most one thread holds a sequence exclusively, and then no thread shares it. -/
structure Owned (s : Locking θ) : Prop extends Tabled s where
  one : ∀ q t t', s.2.exclusive t q = true → s.2.exclusive t' q = true → t = t'
  alone : ∀ q t t', s.2.exclusive t q = true → s.2.shared t' q = 0

/-- A thread that holds a sequence neither way changes nothing by releasing it. -/
structure Respected (s : Locking θ) (r : Request θ) : Prop extends Quiet s r where
  stranger : r.call = .releaseExclusive → s.2.exclusive r.thread r.sequence_ = false →
    (s.1.serve r).2 = s.1

/-- No exclusive release of a sequence that another thread holds. -/
def Releases (s : Locking θ) (r : Request θ) : Prop :=
  r.call = .releaseExclusive → r.sequence_ ∈ s.1.m_exclusive →
    s.2.exclusive r.thread r.sequence_ = true

variable {s : Locking θ} {r : Request θ} {ls : List (Request θ)}

@[simp]
theorem setExclusive_shared (h : Held θ) (t : θ) (q : String) (b : Bool) :
    (h.setExclusive t q b).shared = h.shared := rfl

@[simp]
theorem setShared_exclusive (h : Held θ) (t : θ) (q : String) (n : Nat) :
    (h.setShared t q n).exclusive = h.exclusive := rfl

theorem setExclusive_apply (h : Held θ) (t t' : θ) (q q' : String) (b : Bool) :
    (h.setExclusive t q b).exclusive t' q' =
      if t' = t ∧ q' = q then b else h.exclusive t' q' := rfl

theorem setShared_apply (h : Held θ) (t t' : θ) (q q' : String) (n : Nat) :
    (h.setShared t q n).shared t' q' =
      if t' = t ∧ q' = q then n else h.shared t' q' := rfl

omit [DecidableEq θ] in
theorem isShared_iff {l : Lock θ} {q : String} :
    l.isShared q = true ↔ ∃ t, (q, t) ∈ l.m_shared := by
  unfold Lock.isShared
  simp

/-- What a request makes of the table and the history. -/
inductive Effect (s : Locking θ) (r : Request θ) : Locking θ → Prop where
  | refused (h : (s.1.serve r).1.failed = true) : Effect s r s
  | shared (h : r.call = .grabShared) (free : r.sequence_ ∉ s.1.m_exclusive) :
      Effect s r ({ s.1 with m_shared := (r.sequence_, r.thread) ::ₘ s.1.m_shared },
        s.2.setShared r.thread r.sequence_ (s.2.shared r.thread r.sequence_ + 1))
  | unshared (h : r.call = .releaseShared) :
      Effect s r (s.1.releaseShared r.sequence_ r.thread,
        s.2.setShared r.thread r.sequence_ (s.2.shared r.thread r.sequence_ - 1))
  | exclusive (h : r.call = .grabExclusive) (free : r.sequence_ ∉ s.1.m_exclusive)
      (unread : ∀ t, (r.sequence_, t) ∉ s.1.m_shared) :
      Effect s r ({ s.1 with m_exclusive := insert r.sequence_ s.1.m_exclusive },
        s.2.setExclusive r.thread r.sequence_ true)
  | freed (h : r.call = .releaseExclusive) :
      Effect s r (s.1.releaseExclusive r.sequence_,
        s.2.setExclusive r.thread r.sequence_ false)

omit [DecidableEq θ] in
theorem grabShared_cases (l : Lock θ) (q : String) (t : θ) :
    (q ∈ l.m_exclusive ∧ l.grabShared q t = (.backupLockedForWriting, l)) ∨
    (q ∉ l.m_exclusive ∧
      l.grabShared q t = (.success, { l with m_shared := (q, t) ::ₘ l.m_shared })) := by
  by_cases hq : q ∈ l.m_exclusive
  · exact .inl ⟨hq, if_pos hq⟩
  · exact .inr ⟨hq, if_neg hq⟩

omit [DecidableEq θ] in
theorem grabExclusive_cases (l : Lock θ) (q : String) :
    (∃ e : PrlResult, e.failed = true ∧ l.grabExclusive q = (e, l)) ∨
    (q ∉ l.m_exclusive ∧ (∀ t, (q, t) ∉ l.m_shared) ∧
      l.grabExclusive q = (.success, { l with m_exclusive := insert q l.m_exclusive })) := by
  by_cases hq : q ∈ l.m_exclusive
  · exact .inl ⟨.backupLockedForWriting, rfl, if_pos hq⟩
  · by_cases hshared : l.isShared q = true
    · exact .inl ⟨.backupLockedForReading, rfl, (if_neg hq).trans (if_pos hshared)⟩
    · refine .inr ⟨hq, fun t hin => hshared ?_, (if_neg hq).trans (if_neg hshared)⟩
      exact isShared_iff.mpr ⟨t, hin⟩

theorem effect (s : Locking θ) (r : Request θ) : Effect s r (advance s r) := by
  obtain ⟨t, call, q⟩ := r
  cases call with
  | grabShared =>
      rcases grabShared_cases s.1 q t with ⟨-, hgrab⟩ | ⟨free, hgrab⟩
      · have hs : advance s ⟨t, .grabShared, q⟩ = s := by
          unfold advance Lock.serve
          dsimp only
          rw [hgrab]
          rfl
        rw [hs]
        exact .refused (congrArg (fun x => x.1.failed) hgrab)
      · unfold advance Lock.serve
        dsimp only
        rw [hgrab]
        exact .shared rfl free
  | releaseShared => exact .unshared rfl
  | grabExclusive =>
      rcases grabExclusive_cases s.1 q with ⟨e, hfailed, hgrab⟩ | ⟨free, unread, hgrab⟩
      · have hs : advance s ⟨t, .grabExclusive, q⟩ = s := by
          unfold advance Lock.serve Held.record
          dsimp only
          rw [hgrab, hfailed]
          rfl
        rw [hs]
        exact .refused ((congrArg (fun x => x.1.failed) hgrab).trans hfailed)
      · unfold advance Lock.serve
        dsimp only
        rw [hgrab]
        exact .exclusive rfl free unread
  | releaseExclusive => exact .freed rfl

theorem count_releaseShared {l : Lock θ} {q q' : String} {t t' : θ} :
    (l.releaseShared q t).m_shared.count (q', t') =
      if t' = t ∧ q' = q then l.m_shared.count (q, t) - 1 else l.m_shared.count (q', t') := by
  unfold Lock.releaseShared
  by_cases hin : (q, t) ∈ l.m_shared
  · rw [if_pos hin]
    by_cases hsame : t' = t ∧ q' = q
    · obtain ⟨rfl, rfl⟩ := hsame
      rw [if_pos ⟨rfl, rfl⟩]
      exact Multiset.count_erase_self _ _
    · rw [if_neg hsame]
      refine Multiset.count_erase_of_ne (fun heq => hsame ?_) _
      exact ⟨congrArg Prod.snd heq, congrArg Prod.fst heq⟩
  · rw [if_neg hin]
    by_cases hsame : t' = t ∧ q' = q
    · obtain ⟨rfl, rfl⟩ := hsame
      rw [if_pos ⟨rfl, rfl⟩, Multiset.count_eq_zero_of_notMem hin]
    · rw [if_neg hsame]

theorem mem_releaseShared {l : Lock θ} {q : String} {t : θ} {x : String × θ}
    (h : x ∈ (l.releaseShared q t).m_shared) : x ∈ l.m_shared := by
  unfold Lock.releaseShared at h
  split at h
  · exact Multiset.mem_of_mem_erase h
  · exact h

theorem Tabled.step (h : Tabled s) : Tabled (advance s r) := by
  have heffect := effect s r
  generalize advance s r = s' at heffect ⊢
  cases heffect with
  | refused => exact h
  | shared _ free =>
      refine ⟨fun q t hq hin => ?_, fun q t => ?_⟩
      · rcases Multiset.mem_cons.mp hin with heq | hin
        · obtain rfl : q = r.sequence_ := congrArg Prod.fst heq
          exact free hq
        · exact h.apart q t hq hin
      · rw [setShared_apply, Multiset.count_cons, h.shared]
        by_cases hsame : t = r.thread ∧ q = r.sequence_
        · obtain ⟨rfl, rfl⟩ := hsame
          rw [if_pos rfl, if_pos ⟨rfl, rfl⟩]
        · rw [if_neg hsame, if_neg]
          · rfl
          · exact fun heq => hsame ⟨congrArg Prod.snd heq, congrArg Prod.fst heq⟩
  | unshared =>
      refine ⟨fun q t hq hin => h.apart q t ?_ (mem_releaseShared hin), fun q t => ?_⟩
      · unfold Lock.releaseShared at hq
        split at hq <;> exact hq
      · rw [setShared_apply, count_releaseShared, h.shared, h.shared]
  | exclusive _ _ unread =>
      refine ⟨fun q t hq hin => ?_, h.shared⟩
      rcases Finset.mem_insert.mp hq with rfl | hq
      · exact unread t hin
      · exact h.apart q t hq hin
  | freed =>
      exact ⟨fun q t hq hin => h.apart q t (Finset.mem_of_mem_erase hq) hin, h.shared⟩

theorem Tabled.quiet (h : Tabled s) : Quiet s r := by
  refine ⟨fun hfailed => ?_, fun hcall hzero => ?_, fun hcall hno => ?_⟩
  · obtain ⟨t, call, q⟩ := r
    cases call with
    | grabShared =>
        rcases grabShared_cases s.1 q t with ⟨-, hgrab⟩ | ⟨-, hgrab⟩
        · exact congrArg Prod.snd hgrab
        · exact absurd ((congrArg (fun x => x.1.failed) hgrab).symm.trans hfailed) Bool.false_ne_true
    | releaseShared => cases hfailed
    | grabExclusive =>
        rcases grabExclusive_cases s.1 q with ⟨e, -, hgrab⟩ | ⟨-, -, hgrab⟩
        · exact congrArg Prod.snd hgrab
        · exact absurd ((congrArg (fun x => x.1.failed) hgrab).symm.trans hfailed) Bool.false_ne_true
    | releaseExclusive => cases hfailed
  · unfold Lock.serve
    rw [hcall]
    refine if_neg fun hin => ?_
    have hcount := Multiset.count_pos.mpr hin
    rw [h.shared, hzero] at hcount
    omega
  · unfold Lock.serve
    rw [hcall]
    unfold Lock.releaseExclusive
    dsimp only
    rw [Finset.erase_eq_of_notMem hno]

/-- The table has just the sequences that some thread holds exclusively. -/
structure Recorded (s : Locking θ) : Prop extends Owned s where
  taken : ∀ q, q ∈ s.1.m_exclusive → ∃ t, s.2.exclusive t q = true
  known : ∀ q t, s.2.exclusive t q = true → q ∈ s.1.m_exclusive

theorem Recorded.step (h : Recorded s) (safe : Releases s r) : Recorded (advance s r) := by
  have htabled := h.toTabled.step (r := r)
  have heffect := effect s r
  generalize advance s r = s' at heffect htabled ⊢
  cases heffect with
  | refused => exact h
  | shared _ free =>
      refine ⟨⟨htabled, h.one, fun q t t' ht => ?_⟩, h.taken, h.known⟩
      rw [setShared_apply, if_neg]
      · exact h.alone q t t' ht
      · rintro ⟨-, rfl⟩
        exact free (h.known _ t ht)
  | unshared =>
      have hexclusive : (s.1.releaseShared r.sequence_ r.thread).m_exclusive =
          s.1.m_exclusive := by
        unfold Lock.releaseShared
        split <;> rfl
      refine ⟨⟨htabled, h.one, fun q t t' ht => ?_⟩, ?_, ?_⟩
      · rw [setShared_apply, h.alone q t t' ht]
        split
        · rename_i hsame
          obtain ⟨rfl, rfl⟩ := hsame
          rw [h.alone _ t _ ht]
        · rfl
      · rw [hexclusive]
        exact h.taken
      · rw [hexclusive]
        exact h.known
  | exclusive _ free unread =>
      have hnone : ∀ t, s.2.exclusive t r.sequence_ = false := by
        intro t
        rw [← Bool.not_eq_true]
        exact fun ht => free (h.known _ t ht)
      refine ⟨⟨htabled, fun q t t' ht ht' => ?_, fun q t t' ht => ?_⟩, fun q hq => ?_,
        fun q t ht => ?_⟩
      · rw [setExclusive_apply] at ht ht'
        by_cases hq : q = r.sequence_
        · subst hq
          simp only [hnone, and_true, Bool.if_false_right, Bool.and_true, decide_eq_true_eq]
            at ht ht'
          rw [ht, ht']
        · rw [if_neg fun hsame => hq hsame.2] at ht ht'
          exact h.one q t t' ht ht'
      · by_cases hq : q = r.sequence_
        · subst hq
          rw [setExclusive_shared, ← h.shared]
          exact Multiset.count_eq_zero_of_notMem (unread t')
        · rw [setExclusive_apply, if_neg fun hsame => hq hsame.2] at ht
          exact h.alone q t t' ht
      · rcases Finset.mem_insert.mp hq with rfl | hq
        · exact ⟨r.thread, if_pos ⟨rfl, rfl⟩⟩
        · obtain ⟨t, ht⟩ := h.taken q hq
          refine ⟨t, ?_⟩
          rw [setExclusive_apply]
          split
          · rfl
          · exact ht
      · rw [setExclusive_apply] at ht
        split at ht
        · rename_i hsame
          rw [hsame.2]
          exact Finset.mem_insert_self _ _
        · exact Finset.mem_insert_of_mem (h.known q t ht)
  | freed hcall =>
      have hkeep : ∀ q t, (s.2.setExclusive r.thread r.sequence_ false).exclusive t q = true →
          s.2.exclusive t q = true ∧ q ≠ r.sequence_ := by
        intro q t ht
        rw [setExclusive_apply] at ht
        split at ht
        · cases ht
        · rename_i hother
          refine ⟨ht, fun hq => hother ⟨?_, hq⟩⟩
          subst hq
          exact h.one _ t r.thread ht (safe hcall (h.known _ t ht))
      refine ⟨⟨htabled, fun q t t' ht ht' => h.one q t t' (hkeep q t ht).1 (hkeep q t' ht').1,
        fun q t t' ht => h.alone q t t' (hkeep q t ht).1⟩, fun q hq => ?_, fun q t ht => ?_⟩
      · obtain ⟨hne, hin⟩ := Finset.mem_erase.mp hq
        obtain ⟨t, ht⟩ := h.taken q hin
        refine ⟨t, ?_⟩
        rw [setExclusive_apply, if_neg fun hsame => hne hsame.2]
        exact ht
      · obtain ⟨ht, hne⟩ := hkeep q t ht
        exact Finset.mem_erase.mpr ⟨hne, h.known q t ht⟩

theorem Recorded.respected (h : Recorded s) (safe : Releases s r) : Respected s r := by
  have hquiet : Quiet s r := h.quiet
  refine ⟨hquiet, fun hcall hnot => hquiet.exclusive hcall fun hin => ?_⟩
  rw [safe hcall hin] at hnot
  cases hnot

/-- What a stranger's release leaves alone was not held exclusively. -/
theorem Respected.releases (h : Respected s r) : Releases s r := by
  intro hcall hin
  by_contra hnot
  have hsame := h.stranger hcall (Bool.not_eq_true _ ▸ hnot)
  unfold Lock.serve at hsame
  rw [hcall] at hsame
  have herase : s.1.m_exclusive.erase r.sequence_ = s.1.m_exclusive :=
    congrArg Lock.m_exclusive hsame
  rw [← herase] at hin
  exact Finset.notMem_erase _ _ hin

theorem start_recorded : Recorded (start : Locking θ) where
  apart := fun _ _ h => absurd h (Finset.notMem_empty _)
  shared := fun _ _ => rfl
  one := fun _ _ _ h => by cases h
  alone := fun _ _ _ h => by cases h
  taken := fun _ h => absurd h (Finset.notMem_empty _)
  known := fun _ _ h => by cases h

theorem tabled_along (h : Tabled s) : Along advance Tabled Quiet s ls := by
  induction ls generalizing s with
  | nil => exact h
  | cons r ls ih => exact ⟨h, h.quiet, ih h.step⟩

theorem owned_along_iff (h : Recorded s) :
    Along advance Owned Respected s ls ↔ Steps advance Releases s ls :=
  along_iff_steps (fun _ _ => True) (fun _ h => h.toOwned)
    (fun _ _ h _ safe => h.respected safe) (fun _ _ h _ safe => h.step safe)
    (fun _ _ _ _ h _ => h.releases) h (Steps.all fun _ _ => trivial)

/-- In every interleaving the table is right and refusals are quiet; who holds a
sequence exclusively is respected just when no thread releases what another holds. -/
theorem lock_along (ls : List (Request θ)) :
    Along advance Tabled Quiet start ls ∧
    (Along advance Owned Respected start ls ↔ Steps advance Releases start ls) :=
  ⟨tabled_along start_recorded.toTabled, owned_along_iff start_recorded⟩

/-- The table has no owner of an exclusive lock: a stranger can release it. -/
theorem stranger_releases :
    ¬ ∀ ls : List (Request Bool), Along advance Owned Respected start ls := by
  intro h
  have hstep := (h [⟨true, .grabExclusive, "base"⟩, ⟨false, .releaseExclusive, "base"⟩]).2.2.2.1
  have hsame := congrArg Lock.m_exclusive (hstep.stranger rfl rfl)
  exact absurd hsame (by decide)

end DispService.Backup.Metadata
