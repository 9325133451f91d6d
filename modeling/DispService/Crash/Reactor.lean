import Mathlib.Data.List.Basic
import DispService.Lib.Run

/-! What is done when the guest of a VM has crashed: the crashes are counted, and a VM that crashes
too often is paused in place of a restart. -/
namespace DispService.Crash

inductive OnCrashMode where
  | pause
  | restart
  deriving DecidableEq, Repr

/-- `CVmOnCrash`, with the option that is read of it. -/
structure CVmOnCrash where
  mode : OnCrashMode
  /-- `POCO_REPORT` -/
  report : Bool
  limit : Nat
  deriving DecidableEq, Repr

/-- The crash is counted, or the configuration is switched: then it is the one that
`updateConfig` takes. There is no result where an empty list is read. -/
def primary (pits : List UInt64) (now : UInt64) (o : CVmOnCrash) :
    Option (List UInt64 × Option CVmOnCrash) :=
  if o.mode ≠ .restart ∨ o.report = false then
    some (pits, none)
  else
    let pits := pits ++ [now]
    let s := pits.length
    if s < o.limit then
      some (pits, none)
    else do
      let pits := if s > o.limit then pits.tail else pits
      let back ← pits.getLast?
      let front ← pits.head?
      let d := back - front
      if d < 86400000000 then
        return ([], some { o with mode := .pause })
      else
        return (pits, none)

inductive Action where
  | sendProblemReport
  /-- for the end of the report -/
  | wait
  | restart
  deriving DecidableEq, Repr

def secondary (config : CVmOnCrash) : List Action :=
  (if config.report then
    .sendProblemReport :: (if config.mode = .restart then [.wait] else [])
  else
    []) ++
  (if config.mode = .restart then [.restart] else [])

structure Reaction where
  pits : List UInt64
  update : Option CVmOnCrash
  actions : List Action
  deriving DecidableEq, Repr

/-- `Primary` works on a copy of the configuration, `Secondary` on the configuration itself. -/
def shell (pits : List UInt64) (now : UInt64) : Option CVmOnCrash → Option Reaction
  | none => some ⟨pits, none, []⟩
  | some c => do
      let (pits, update) ← primary pits now c
      return ⟨pits, update, secondary c⟩

/-- A crash and the configuration in force, if there is one. -/
structure GuestCrash where
  time : UInt64
  config : Option CVmOnCrash
  deriving DecidableEq, Repr

/-- The list that is kept, and what no operation reads: the crashes since the last switch and the
time of the last one. -/
structure History where
  pits : List UInt64
  since : List UInt64
  last : UInt64
  deriving DecidableEq, Repr

/-- The mode that the limit is about. -/
def GuestCrash.Counts (c : GuestCrash) : Prop :=
  ∃ o, c.config = some o ∧ o.mode = .restart ∧ o.report = true

instance (c : GuestCrash) : Decidable c.Counts :=
  match h : c.config with
  | none => .isFalse fun ⟨o, ho, _⟩ => by rw [h] at ho; cases ho
  | some o => decidable_of_iff (o.mode = .restart ∧ o.report = true)
      ⟨fun hm => ⟨o, h, hm⟩, fun ⟨o', ho, hm⟩ => by rw [h] at ho; cases ho; exact hm⟩

def History.after (s : History) (c : GuestCrash) (r : Reaction) : History where
  pits := r.pits
  since := if r.update.isSome then [] else if c.Counts then s.since ++ [c.time] else s.since
  last := c.time

def Crashes (s : History) (c : GuestCrash) (t : History) : Prop :=
  ∃ r, shell s.pits c.time c.config = some r ∧ t = s.after c r

/-- Times do not decrease. -/
def NotEarlier (s : History) (c : GuestCrash) : Prop :=
  s.last ≤ c.time

end DispService.Crash

/-! The limit of crashes. The list that is kept is the end of the history since the last switch;
what is missing from it is older than a day, so it never decides about a switch. -/
namespace DispService.Crash

open DispService.Lib

/-- 24 hours in microseconds -/
def day : Nat := 86400000000

/-- The crash and the `limit - 1` crashes before it, back to the last switch, happened within 24
hours. -/
def Reached (s : History) (now : UInt64) (limit : Nat) : Prop :=
  ∃ older recent, s.since = older ++ recent ∧ recent.length + 1 = limit ∧
    ∀ t ∈ recent, now.toNat < t.toNat + day

/-- What is compared when the limit is reached in number. -/
def window (pits : List UInt64) (now : UInt64) (limit : Nat) : List UInt64 :=
  if limit < pits.length + 1 then (pits ++ [now]).tail else pits ++ [now]

theorem primary_few {pits : List UInt64} {now : UInt64} {o : CVmOnCrash} (hmode : o.mode = .restart)
    (hreport : o.report = true) (hfew : pits.length + 1 < o.limit) :
    primary pits now o = some (pits ++ [now], none) := by
  simp [primary, hmode, hreport, hfew]

/-- The crash itself is the last one of the window. -/
theorem getLast?_window {pits : List UInt64} {now front : UInt64} {limit : Nat}
    (hfront : (window pits now limit).head? = some front) :
    (window pits now limit).getLast? = some now := by
  by_cases htrim : limit < pits.length + 1
  · rw [window, if_pos htrim] at hfront ⊢
    cases pits with
    | nil => cases hfront
    | cons a rest => simp
  · rw [window, if_neg htrim]
    simp

theorem primary_many {pits : List UInt64} {now : UInt64} {o : CVmOnCrash}
    (hmode : o.mode = .restart) (hreport : o.report = true) (hmany : o.limit ≤ pits.length + 1) :
    primary pits now o =
      match (window pits now o.limit).head? with
      | none => none
      | some front =>
          if now - front < 86400000000 then some ([], some { o with mode := .pause })
          else some (window pits now o.limit, none) := by
  have hfew : ¬ pits.length + 1 < o.limit := by omega
  unfold primary
  rw [if_neg (by simp [hmode, hreport])]
  simp only [List.length_append, List.length_singleton]
  rw [if_neg hfew]
  change ((window pits now o.limit).getLast?.bind fun back =>
    (window pits now o.limit).head?.bind fun front => _) = _
  cases hhead : (window pits now o.limit).head? with
  | none =>
      rw [List.head?_eq_none_iff] at hhead
      simp [hhead]
  | some front =>
      rw [getLast?_window hhead]
      simp [window]

/-! ## What is kept -/

/-- What is missing from the list is a day older than the last crash. -/
structure Remembers (s : History) : Prop where
  ordered : s.since.Pairwise (· ≤ ·)
  past : ∀ t ∈ s.since, t ≤ s.last
  kept : ∃ old, s.since = old ++ s.pits ∧ ∀ t ∈ old, t.toNat + day ≤ s.last.toNat

theorem sub_lt_day {now front : UInt64} (hle : front ≤ now) :
    now - front < 86400000000 ↔ now.toNat < front.toNat + day := by
  have hsub := UInt64.toNat_sub_of_le now front hle
  have hconst : (86400000000 : UInt64).toNat = day := rfl
  rw [UInt64.lt_iff_toNat_lt, hsub, hconst]
  rw [UInt64.le_iff_toNat_le] at hle
  omega

section Step

variable {s : History} {now : UInt64} {limit : Nat}

theorem Remembers.pits_ordered (remembers : Remembers s) : s.pits.Pairwise (· ≤ ·) := by
  obtain ⟨old, hsince, _⟩ := remembers.kept
  have hordered := remembers.ordered
  rw [hsince, List.pairwise_append] at hordered
  exact hordered.2.1

theorem Remembers.pits_past (remembers : Remembers s) : ∀ t ∈ s.pits, t ≤ s.last := by
  obtain ⟨old, hsince, _⟩ := remembers.kept
  intro t ht
  exact remembers.past t (by simp [hsince, ht])

/-- How many of the kept times are dropped before the comparison. -/
def trim (pits : List UInt64) (limit : Nat) : Nat :=
  if limit < pits.length + 1 then 1 else 0

theorem window_eq (pits : List UInt64) (now : UInt64) (hlimit : 0 < limit) :
    window pits now limit = pits.drop (trim pits limit) ++ [now] := by
  unfold window trim
  by_cases htrim : limit < pits.length + 1
  · rw [if_pos htrim, if_pos htrim]
    cases pits with
    | nil =>
        simp only [List.length_nil] at htrim
        omega
    | cons a rest => simp
  · rw [if_neg htrim, if_neg htrim, List.drop_zero]

/-- In an ordered list the first time decides. -/
theorem front_iff {xs : List UInt64} {front : UInt64} (ordered : xs.Pairwise (· ≤ ·))
    (hfront : (xs ++ [now]).head? = some front) :
    now.toNat < front.toNat + day ↔ ∀ t ∈ xs, now.toNat < t.toNat + day := by
  have hday : 0 < day := by decide
  cases xs with
  | nil =>
      cases hfront
      simp [hday]
  | cons a rest =>
      cases hfront
      rw [List.forall_mem_cons]
      refine ⟨fun h => ⟨h, fun t ht => ?_⟩, fun h => h.1⟩
      have hle := UInt64.le_iff_toNat_le.mp ((List.pairwise_cons.mp ordered).1 t ht)
      omega

/-- The times that are compared lie within a day. -/
def Close (pits : List UInt64) (now : UInt64) (limit : Nat) : Prop :=
  limit ≤ pits.length + 1 ∧ ∀ t ∈ pits.drop (trim pits limit), now.toNat < t.toNat + day

theorem primary_limit (remembers : Remembers s) (later : s.last ≤ now) {o : CVmOnCrash}
    (hmode : o.mode = .restart) (hreport : o.report = true) (hlimit : 0 < o.limit) :
    (Close s.pits now o.limit →
      primary s.pits now o = some ([], some { o with mode := .pause })) ∧
    (¬ Close s.pits now o.limit → ∃ pits, primary s.pits now o = some (pits, none)) := by
  by_cases hfew : s.pits.length + 1 < o.limit
  · refine ⟨fun h => absurd h.1 (by omega), fun _ => ⟨_, primary_few hmode hreport hfew⟩⟩
  · have hmany : o.limit ≤ s.pits.length + 1 := by omega
    have hpits := remembers.pits_ordered
    have hpast := remembers.pits_past
    rw [primary_many hmode hreport hmany, window_eq _ _ hlimit]
    cases hhead : (s.pits.drop (trim s.pits o.limit) ++ [now]).head? with
    | none => simp at hhead
    | some front =>
        have hmem := List.mem_of_head? hhead
        have hle : front ≤ now := by
          rcases List.mem_append.mp hmem with hin | hin
          · exact UInt64.le_trans (hpast front (List.mem_of_mem_drop hin)) later
          · rw [List.mem_singleton.mp hin]
            exact UInt64.le_refl now
        have hclose : now - front < 86400000000 ↔ Close s.pits now o.limit := by
          rw [sub_lt_day hle, front_iff (hpits.sublist (List.drop_sublist _ _)) hhead]
          exact ⟨fun h => ⟨hmany, h⟩, fun h => h.2⟩
        refine ⟨fun h => ?_, fun h => ⟨s.pits.drop (trim s.pits o.limit) ++ [now], ?_⟩⟩
        · simp only [if_pos (hclose.mpr h)]
        · simp only [if_neg (mt hclose.mp h)]

/-- The limit in words of the list. -/
theorem reached_iff (remembers : Remembers s) (hlimit : 0 < limit)
    (hmany : limit ≤ s.pits.length + 1) :
    Reached s now limit ↔
      ∀ t ∈ s.pits.drop (s.pits.length + 1 - limit), now.toNat < t.toNat + day := by
  obtain ⟨old, hsince, _⟩ := remembers.kept
  have hsplit : s.since = (old ++ s.pits.take (s.pits.length + 1 - limit)) ++
      s.pits.drop (s.pits.length + 1 - limit) := by
    rw [hsince, List.append_assoc, List.take_append_drop]
  have hlength : (s.pits.drop (s.pits.length + 1 - limit)).length + 1 = limit := by
    rw [List.length_drop]
    omega
  constructor
  · rintro ⟨older, recent, heq, hrecent, hclose⟩
    obtain ⟨_, rfl⟩ := List.append_inj' (heq.symm.trans hsplit) (by omega)
    exact hclose
  · intro hclose
    exact ⟨_, _, hsplit, hlength, hclose⟩

/-- Where few crashes are kept, an older one is too old. -/
theorem not_reached (remembers : Remembers s) (later : s.last ≤ now)
    (hfew : s.pits.length + 1 < limit) : ¬ Reached s now limit := by
  obtain ⟨old, hsince, hold⟩ := remembers.kept
  rintro ⟨older, recent, heq, hrecent, hclose⟩
  have hlater := UInt64.le_iff_toNat_le.mp later
  rcases List.append_eq_append_iff.mp (heq.symm.trans hsince) with
    ⟨mid, rfl, rfl⟩ | ⟨mid, rfl, hmid⟩
  · cases mid with
    | nil =>
        rw [List.nil_append] at hrecent
        omega
    | cons t rest =>
        have hfar := hold t (by simp)
        have hnear := hclose t (by simp)
        omega
  · have hlen := congrArg List.length hmid
    rw [List.length_append] at hlen
    omega

theorem reached_of_close (remembers : Remembers s) (hlimit : 0 < limit)
    (hclose : Close s.pits now limit) : Reached s now limit := by
  rw [reached_iff remembers hlimit hclose.1]
  intro t ht
  refine hclose.2 t ?_
  have htrim : trim s.pits limit ≤ s.pits.length + 1 - limit := by
    have hmany := hclose.1
    unfold trim
    split
    · omega
    · omega
  obtain ⟨k, hk⟩ := Nat.exists_eq_add_of_le htrim
  rw [hk, ← List.drop_drop] at ht
  exact List.mem_of_mem_drop ht

/-- Unless the limit was lowered below the number of kept crashes, the comparison is exact. -/
theorem close_iff (remembers : Remembers s) (later : s.last ≤ now) (hlimit : 0 < limit)
    (hkept : s.pits.length ≤ limit) : Close s.pits now limit ↔ Reached s now limit := by
  refine ⟨reached_of_close remembers hlimit, fun hreached => ?_⟩
  by_cases hmany : limit ≤ s.pits.length + 1
  · refine ⟨hmany, ?_⟩
    have htrim : trim s.pits limit = s.pits.length + 1 - limit := by
      unfold trim
      split
      · omega
      · omega
    rw [htrim]
    exact (reached_iff remembers hlimit hmany).mp hreached
  · exact absurd hreached (not_reached remembers later (by omega))

/-! ## Runs -/

theorem Remembers.keep (remembers : Remembers s) (later : s.last ≤ now) :
    Remembers ⟨s.pits, s.since, now⟩ := by
  obtain ⟨ordered, past, old, hsince, hold⟩ := remembers
  refine ⟨ordered, fun t ht => UInt64.le_trans (past t ht) later, old, hsince, fun t ht => ?_⟩
  exact Nat.le_trans (hold t ht) (UInt64.le_iff_toNat_le.mp later)

theorem Remembers.push (remembers : Remembers s) (later : s.last ≤ now) :
    Remembers ⟨s.pits ++ [now], s.since ++ [now], now⟩ := by
  obtain ⟨ordered, past, old, hsince, hold⟩ := remembers.keep later
  dsimp only at ordered past hsince hold
  constructor
  case ordered =>
    rw [List.pairwise_append]
    refine ⟨ordered, List.pairwise_singleton _ _, fun a ha b hb => ?_⟩
    rw [List.mem_singleton.mp hb]
    exact past a ha
  case past =>
    intro t ht
    rcases List.mem_append.mp ht with hin | hin
    · exact past t hin
    · rw [List.mem_singleton.mp hin]
      exact UInt64.le_refl now
  case kept => exact ⟨old, by rw [hsince, List.append_assoc], hold⟩

/-- What is taken from the front is as old as the first time that stays. -/
theorem Remembers.slide (remembers : Remembers s) (later : s.last ≤ now) {front : UInt64}
    (hfront : (window s.pits now limit).head? = some front)
    (far : front.toNat + day ≤ now.toNat) :
    Remembers ⟨window s.pits now limit, s.since ++ [now], now⟩ := by
  have hpushed := remembers.push later
  by_cases htrim : limit < s.pits.length + 1
  · rw [window, if_pos htrim] at hfront ⊢
    obtain ⟨old, hsince, hold⟩ := hpushed.kept
    dsimp only at hsince hold
    refine ⟨hpushed.ordered, hpushed.past, ?_⟩
    cases hpits : s.pits ++ [now] with
    | nil => simp at hpits
    | cons a rest =>
        rw [hpits] at hfront hsince
        refine ⟨old ++ [a], by simp [hsince], fun t ht => ?_⟩
        rcases List.mem_append.mp ht with hin | hin
        · exact hold t hin
        · rw [List.mem_singleton.mp hin]
          have hordered := hpushed.pits_ordered
          dsimp only at hordered
          rw [hpits] at hordered
          have hle := UInt64.le_iff_toNat_le.mp
            ((List.pairwise_cons.mp hordered).1 front (List.mem_of_head? hfront))
          dsimp only
          omega
  · rwa [window, if_neg htrim]

theorem window_past (remembers : Remembers s) (later : s.last ≤ now) :
    ∀ t ∈ window s.pits now limit, t ≤ now := by
  intro t ht
  have hmem : t ∈ s.pits ++ [now] := by
    unfold window at ht
    split at ht
    · exact List.mem_of_mem_tail ht
    · exact ht
  exact (remembers.push later).pits_past t hmem

theorem Remembers.step (remembers : Remembers s) {c : GuestCrash} {t : History}
    (later : NotEarlier s c) (step : Crashes s c t) : Remembers t := by
  obtain ⟨r, hshell, rfl⟩ := step
  obtain ⟨time, config⟩ := c
  dsimp only [NotEarlier] at later hshell
  cases config with
  | none =>
      have hcounts : ¬ GuestCrash.Counts ⟨time, none⟩ := fun ⟨o, ho, _⟩ => by cases ho
      cases hshell
      simpa [History.after, hcounts] using remembers.keep later
  | some o =>
      obtain ⟨⟨pits, update⟩, hprimary, hr⟩ := Option.bind_eq_some_iff.mp hshell
      cases hr
      by_cases hcounts : o.mode = .restart ∧ o.report = true
      · obtain ⟨hmode, hreport⟩ := hcounts
        have hyes : GuestCrash.Counts ⟨time, some o⟩ := ⟨o, rfl, hmode, hreport⟩
        by_cases hfew : s.pits.length + 1 < o.limit
        · rw [primary_few hmode hreport hfew] at hprimary
          cases hprimary
          simpa [History.after, hyes] using remembers.push later
        · rw [primary_many hmode hreport (by omega)] at hprimary
          cases hhead : (window s.pits time o.limit).head? with
          | none => simp [hhead] at hprimary
          | some front =>
              have hle := window_past remembers later front (List.mem_of_head? hhead)
              simp only [hhead] at hprimary
              by_cases hclose : time - front < 86400000000
              · rw [if_pos hclose] at hprimary
                cases hprimary
                exact ⟨List.Pairwise.nil, by simp [History.after], [], rfl, by simp⟩
              · rw [if_neg hclose] at hprimary
                cases hprimary
                have hfar : front.toNat + day ≤ time.toNat := by
                  rw [sub_lt_day hle] at hclose
                  omega
                simpa [History.after, hyes] using remembers.slide later hhead hfar
      · have hno : ¬ GuestCrash.Counts ⟨time, some o⟩ := by
          rintro ⟨o', ho, hmode⟩
          cases ho
          exact hcounts hmode
        have hskip : primary s.pits time o = some (s.pits, none) := by
          unfold primary
          rw [if_pos]
          by_cases hmode : o.mode = .restart
          · exact .inr (Bool.eq_false_iff.mpr fun hreport => hcounts ⟨hmode, hreport⟩)
          · exact .inl hmode
        rw [hskip] at hprimary
        cases hprimary
        simpa [History.after, hno] using remembers.keep later

end Step

/-- No crash yet. -/
def init : History :=
  ⟨[], [], 0⟩

theorem remembers_of_run {s : History} {crashes : List GuestCrash}
    (run : Run (Guarded NotEarlier Crashes) init crashes s) : Remembers s := by
  refine run.preserves (fun s c t remembers step => remembers.step step.1 step.2) ?_
  exact ⟨List.Pairwise.nil, by simp [init], [], rfl, by simp⟩

/-! ## The limit -/

/-- The configuration is switched at the limit and only there, and the crash that reaches it does
not restart the VM. -/
structure Handled (s : History) (now : UInt64) (o : CVmOnCrash) (r : Reaction) : Prop where
  switched : 0 < o.limit → Reached s now o.limit → r.update = some { o with mode := .pause }
  kept : ¬ (0 < o.limit ∧ Reached s now o.limit) → r.update = none
  stopped : 0 < o.limit → Reached s now o.limit → .restart ∉ r.actions

/-- The limit is positive and not reached, or it is zero and the second of the kept crashes was a
day ago. -/
def Spared (s : History) (now : UInt64) (limit : Nat) : Prop :=
  (0 < limit ∧ ¬ Reached s now limit) ∨
    (limit = 0 ∧ ∃ first second rest, s.pits = first :: second :: rest ∧
      second.toNat + day ≤ now.toNat)

section Handled

variable {s : History} {now : UInt64} {o : CVmOnCrash}

theorem shell_restarts {r : Reaction} (hmode : o.mode = .restart)
    (hshell : shell s.pits now (some o) = some r) : .restart ∈ r.actions := by
  obtain ⟨⟨pits, update⟩, _, hr⟩ := Option.bind_eq_some_iff.mp hshell
  cases hr
  simp [secondary, hmode]

theorem shell_of_primary {pits : List UInt64} {update : Option CVmOnCrash}
    (hprimary : primary s.pits now o = some (pits, update)) :
    shell s.pits now (some o) = some ⟨pits, update, secondary o⟩ := by
  simp [shell, hprimary]

theorem handled_positive (remembers : Remembers s) (later : s.last ≤ now)
    (hmode : o.mode = .restart) (hreport : o.report = true) (hlimit : 0 < o.limit) :
    (∃ r, shell s.pits now (some o) = some r ∧ Handled s now o r) ↔ ¬ Reached s now o.limit := by
  constructor
  · rintro ⟨r, hshell, handled⟩ hreached
    exact handled.stopped hlimit hreached (shell_restarts hmode hshell)
  · intro hreached
    obtain ⟨pits, hprimary⟩ := (primary_limit remembers later hmode hreport hlimit).2
      (mt (reached_of_close remembers hlimit) hreached)
    exact ⟨_, shell_of_primary hprimary, fun _ h => absurd h hreached, fun _ => rfl,
      fun _ h => absurd h hreached⟩

/-- With a limit of zero the only kept crash is dropped and the list is read nevertheless. -/
theorem handled_zero (remembers : Remembers s) (later : s.last ≤ now)
    (hmode : o.mode = .restart) (hreport : o.report = true) (hlimit : o.limit = 0) :
    (∃ r, shell s.pits now (some o) = some r ∧ Handled s now o r) ↔
      ∃ first second rest, s.pits = first :: second :: rest ∧
        second.toNat + day ≤ now.toNat := by
  have hmany : o.limit ≤ s.pits.length + 1 := by omega
  have hprimary := @primary_many s.pits now o hmode hreport hmany
  have hpast := remembers.pits_past
  rw [window, if_pos (by omega)] at hprimary
  have hupdate : ∀ r, Handled s now o r → r.update = none := fun r handled =>
    handled.kept fun h => by omega
  have hhandled : ∀ r, r.update = none → Handled s now o r := fun r hnone =>
    ⟨fun h => by omega, fun _ => hnone, fun h => by omega⟩
  match hpits : s.pits with
  | [] =>
      rw [hpits] at hprimary
      simp [shell, hprimary]
  | [first] =>
      rw [hpits] at hprimary
      have hself : now - now < 86400000000 := by
        rw [sub_lt_day (UInt64.le_refl now)]
        simp [day]
      simp only [List.cons_append, List.nil_append, List.tail_cons, List.head?_cons,
        if_pos hself] at hprimary
      constructor
      · rintro ⟨r, hshell, handled⟩
        simp only [shell, hprimary, Option.bind_eq_bind, Option.bind_some, Option.pure_def,
          Option.some.injEq] at hshell
        subst hshell
        cases hupdate _ handled
      · rintro ⟨_, _, _, h, _⟩
        cases h
  | first :: second :: rest =>
      rw [hpits] at hprimary
      have hle : second ≤ now := UInt64.le_trans (hpast second (by simp [hpits])) later
      simp only [List.cons_append, List.tail_cons, List.head?_cons, sub_lt_day hle] at hprimary
      constructor
      · rintro ⟨r, hshell, handled⟩
        refine ⟨first, second, rest, rfl, Nat.not_lt.mp fun hclose => ?_⟩
        rw [if_pos hclose] at hprimary
        simp only [shell, hprimary, Option.bind_eq_bind, Option.bind_some, Option.pure_def,
          Option.some.injEq] at hshell
        subst hshell
        cases hupdate _ handled
      · rintro ⟨_, _, _, h, hfar⟩
        cases h
        rw [if_neg (by omega)] at hprimary
        exact ⟨_, by simp [shell, hprimary]; rfl, hhandled _ rfl⟩

/-- At every crash of every run. The switch alone is exact unless the limit was lowered below the
number of kept crashes. -/
theorem handled_iff {crashes : List GuestCrash}
    (run : Run (Guarded NotEarlier Crashes) init crashes s) (later : s.last ≤ now)
    (hmode : o.mode = .restart) (hreport : o.report = true) :
    ((∃ r, shell s.pits now (some o) = some r ∧ Handled s now o r) ↔ Spared s now o.limit) ∧
    (0 < o.limit → s.pits.length ≤ o.limit → ∃ r, shell s.pits now (some o) = some r ∧
      (Reached s now o.limit → r.update = some { o with mode := .pause }) ∧
      (¬ Reached s now o.limit → r.update = none)) := by
  have remembers := remembers_of_run run
  constructor
  · by_cases hlimit : o.limit = 0
    · rw [handled_zero remembers later hmode hreport hlimit, Spared]
      simp [hlimit]
    · rw [handled_positive remembers later hmode hreport (by omega), Spared]
      simp [hlimit, Nat.pos_of_ne_zero hlimit]
  · intro hlimit hkept
    have hprimary := primary_limit remembers later hmode hreport hlimit
    rw [close_iff remembers later hlimit hkept] at hprimary
    by_cases hreached : Reached s now o.limit
    · exact ⟨_, shell_of_primary (hprimary.1 hreached), fun _ => rfl, fun h => absurd hreached h⟩
    · obtain ⟨pits, hprimary⟩ := hprimary.2 hreached
      exact ⟨_, shell_of_primary hprimary, fun h => absurd h hreached, fun _ => rfl⟩

/-- Two crashes two days apart and a limit of two. -/
theorem handled_apart :
    ∃ r, shell [1000000] 172801000000 (some ⟨.restart, true, 2⟩) = some r ∧
      Handled ⟨[1000000], [1000000], 1000000⟩ 172801000000 ⟨.restart, true, 2⟩ r := by
  have hcrash : Guarded NotEarlier Crashes init ⟨1000000, some ⟨.restart, true, 2⟩⟩
      ⟨[1000000], [1000000], 1000000⟩ :=
    ⟨show (0 : UInt64) ≤ 1000000 by decide, _, rfl, by decide⟩
  refine (handled_iff (.cons hcrash (.nil _)) (by decide) rfl rfl).1.mpr (.inl ⟨by decide, ?_⟩)
  rintro ⟨older, recent, hsince, hlength, hclose⟩
  have hlen := congrArg List.length hsince
  rw [List.length_append, List.length_singleton] at hlen
  have holder : older = [] := List.eq_nil_of_length_eq_zero (by simp only at hlength; omega)
  subst holder
  have hmem := hclose 1000000 (by rw [List.nil_append] at hsince; simp [← hsince])
  exact absurd hmem (by decide)

/-- The crash that reaches the limit pauses the configuration and restarts the VM. -/
theorem limit_restarts :
    Reached init 1000000 1 ∧
      shell init.pits 1000000 (some ⟨.restart, true, 1⟩) =
        some ⟨[], some ⟨.pause, true, 1⟩, [.sendProblemReport, .wait, .restart]⟩ ∧
      ¬ ∃ r, shell init.pits 1000000 (some ⟨.restart, true, 1⟩) = some r ∧
        Handled init 1000000 ⟨.restart, true, 1⟩ r := by
  have hreached : Reached init 1000000 1 := ⟨[], [], rfl, rfl, by simp⟩
  refine ⟨hreached, by decide, ?_⟩
  rintro ⟨r, hshell, handled⟩
  exact handled.stopped (by decide) hreached (shell_restarts rfl hshell)

end Handled

end DispService.Crash
