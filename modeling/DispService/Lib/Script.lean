import Mathlib.Data.Finset.Basic
import Mathlib.Data.Finset.Lattice.Lemmas

/-! Scripts of writes to a table of facts, each of which may be refused. A script
goes no further than its first refused write, so a roll-back has to cope with any
part of it. -/
namespace DispService.Lib.Script

universe u v

variable {α : Type u} {ε : Type v}

inductive Write (α : Type u) (ε : Type v) where
  /-- Adds a fact. A fresh one is refused when it is there already. -/
  | put (x : α) (fresh : Bool) (e : ε)
  /-- Drops every fact of a region. -/
  | drop (p : α → Bool) (e : ε)
  | stop (e : ε)

def Write.IsPut : Write α ε → Prop
  | .put .. => True
  | .drop .. => False
  | .stop _ => True

def Write.IsDrop : Write α ε → Prop
  | .put .. => False
  | .drop .. => True
  | .stop _ => True

def Write.IsStop : Write α ε → Prop
  | .stop _ => True
  | _ => False

/-- Which of the writes of a script are refused, by their number. -/
abbrev Faults := Nat → Bool

def Faults.tail (faults : Faults) : Faults := fun n => faults (n + 1)

/-- No write is refused. -/
def Faults.Clean (faults : Faults) : Prop := ∀ n, faults n = false

theorem Faults.Clean.tail {faults : Faults} (h : faults.Clean) : faults.tail.Clean :=
  fun n => h (n + 1)

/-- The facts a script adds, up to a stop. -/
def content [DecidableEq α] : List (Write α ε) → Finset α
  | .put x _ _ :: ws => insert x (content ws)
  | .drop _ _ :: ws => content ws
  | .stop _ :: _ => ∅
  | [] => ∅

/-- What a script drops, up to a stop. -/
def region : List (Write α ε) → α → Bool
  | .drop p _ :: ws => fun x => p x || region ws x
  | .put _ _ _ :: ws => region ws
  | .stop _ :: _ => fun _ => false
  | [] => fun _ => false

variable [DecidableEq α]

def run : List (Write α ε) → Faults → Finset α → Finset α × Option ε
  | [], _, s => (s, none)
  | .put x fresh e :: ws, faults, s =>
      if faults 0 || (fresh && decide (x ∈ s)) then (s, some e)
      else run ws faults.tail (insert x s)
  | .drop p e :: ws, faults, s =>
      if faults 0 then (s, some e)
      else run ws faults.tail (s.filter fun x => p x = false)
  | .stop e :: _, _, s => (s, some e)

variable {ws : List (Write α ε)} {faults : Faults} {s t : Finset α} {x : α}

theorem run_put_refused {fresh : Bool} {e : ε}
    (h : faults 0 = true ∨ (fresh = true ∧ x ∈ s)) :
    run (.put x fresh e :: ws) faults s = (s, some e) := by
  unfold run
  rw [if_pos]
  simpa using h

theorem run_put_done {fresh : Bool} {e : ε} (h : faults 0 = false)
    (hfresh : fresh = true → x ∉ s) :
    run (.put x fresh e :: ws) faults s = run ws faults.tail (insert x s) := by
  rw [run, if_neg]
  simpa [h] using hfresh

theorem run_drop_refused {p : α → Bool} {e : ε} (h : faults 0 = true) :
    run (.drop p e :: ws) faults s = (s, some e) := by
  rw [run, if_pos h]

theorem run_drop_done {p : α → Bool} {e : ε} (h : faults 0 = false) :
    run (.drop p e :: ws) faults s = run ws faults.tail (s.filter fun x => p x = false) := by
  rw [run, if_neg (by simp [h])]

/-- A script that adds leaves what was there and adds a part of its content. -/
theorem run_puts (h : ∀ w ∈ ws, w.IsPut) :
    s ⊆ (run ws faults s).1 ∧ (run ws faults s).1 ⊆ s ∪ content ws := by
  induction ws generalizing faults s with
  | nil => simp [run, content]
  | cons w ws ih =>
      have hrest : ∀ w ∈ ws, w.IsPut := fun w hw => h w (List.mem_cons_of_mem _ hw)
      cases w with
      | put x fresh e =>
          by_cases hrefused : faults 0 = true ∨ (fresh = true ∧ x ∈ s)
          · rw [run_put_refused hrefused]
            exact ⟨Finset.Subset.refl s, Finset.subset_union_left⟩
          · obtain ⟨hfault, hfresh⟩ := not_or.mp hrefused
            rw [run_put_done (Bool.not_eq_true _ ▸ hfault) fun hf hx => hfresh ⟨hf, hx⟩]
            obtain ⟨hkept, hadded⟩ := @ih faults.tail (insert x s) hrest
            refine ⟨(Finset.subset_insert x s).trans hkept, hadded.trans ?_⟩
            rw [content, Finset.insert_union, Finset.union_insert]
      | drop p e => exact absurd (h _ List.mem_cons_self) id
      | stop e =>
          rw [run, content]
          exact ⟨Finset.Subset.refl s, Finset.subset_union_left⟩

/-- A script that adds and comes to its end has added all of its content, and has no
stop. -/
theorem run_puts_done (h : ∀ w ∈ ws, w.IsPut) (hdone : (run ws faults s).2 = none) :
    (run ws faults s).1 = s ∪ content ws ∧ ∀ w ∈ ws, ¬ w.IsStop := by
  induction ws generalizing faults s with
  | nil => simp [run, content]
  | cons w ws ih =>
      have hrest : ∀ w ∈ ws, w.IsPut := fun w hw => h w (List.mem_cons_of_mem _ hw)
      cases w with
      | put x fresh e =>
          by_cases hrefused : faults 0 = true ∨ (fresh = true ∧ x ∈ s)
          · rw [run_put_refused hrefused] at hdone
            cases hdone
          · obtain ⟨hfault, hfresh⟩ := not_or.mp hrefused
            have hstep := @run_put_done _ _ _ ws _ _ _ _ e (Bool.not_eq_true _ ▸ hfault)
              fun hf hx => hfresh ⟨hf, hx⟩
            rw [hstep] at hdone ⊢
            obtain ⟨hall, hstops⟩ := ih hrest hdone
            refine ⟨?_, List.forall_mem_cons.mpr ⟨id, hstops⟩⟩
            rw [hall, content, Finset.insert_union, Finset.union_insert]
      | drop p e => exact absurd (h _ List.mem_cons_self) id
      | stop e =>
          rw [run] at hdone
          cases hdone

/-- Without faults, a script that adds nothing fresh comes to its end. -/
theorem run_loose (h : ∀ w ∈ ws, w.IsPut) (hstop : ∀ w ∈ ws, ¬ w.IsStop)
    (hfresh : ∀ x e, Write.put x true e ∉ ws) (clean : faults.Clean) :
    (run ws faults s).2 = none := by
  induction ws generalizing faults s with
  | nil => rfl
  | cons w ws ih =>
      have hrest : ∀ w ∈ ws, w.IsPut := fun w hw => h w (List.mem_cons_of_mem _ hw)
      cases w with
      | put x fresh e =>
          have hfalse : fresh ≠ true := by
            rintro rfl
            exact hfresh x e List.mem_cons_self
          rw [run_put_done (clean 0) fun hf => absurd hf hfalse]
          exact ih hrest (fun w hw => hstop w (List.mem_cons_of_mem _ hw))
            (fun x e hx => hfresh x e (List.mem_cons_of_mem _ hx)) clean.tail
      | drop p e => exact absurd (h _ List.mem_cons_self) id
      | stop e => exact absurd trivial (hstop _ List.mem_cons_self)

/-- Without faults, a script that drops leaves what is outside its region. -/
theorem run_drops (h : ∀ w ∈ ws, w.IsDrop) (clean : faults.Clean) :
    (run ws faults s).1 = s.filter (fun x => region ws x = false) := by
  induction ws generalizing faults s with
  | nil => simp [run, region]
  | cons w ws ih =>
      have hrest : ∀ w ∈ ws, w.IsDrop := fun w hw => h w (List.mem_cons_of_mem _ hw)
      cases w with
      | put x fresh e => exact absurd (h _ List.mem_cons_self) id
      | drop p e =>
          rw [run_drop_done (clean 0), ih hrest clean.tail, Finset.filter_filter]
          apply Finset.filter_congr
          intro x _
          simp [region]
      | stop e => simp [run, region]

/-- A script that drops comes to its end when it has no stop. -/
theorem run_drops_done (h : ∀ w ∈ ws, w.IsDrop) (hstop : ∀ w ∈ ws, ¬ w.IsStop)
    (clean : faults.Clean) : (run ws faults s).2 = none := by
  induction ws generalizing faults s with
  | nil => rfl
  | cons w ws ih =>
      have hrest : ∀ w ∈ ws, w.IsDrop := fun w hw => h w (List.mem_cons_of_mem _ hw)
      cases w with
      | put x fresh e => exact absurd (h _ List.mem_cons_self) id
      | drop p e =>
          rw [run_drop_done (clean 0)]
          exact ih hrest (fun w hw => hstop w (List.mem_cons_of_mem _ hw)) clean.tail
      | stop e => exact absurd trivial (hstop _ List.mem_cons_self)

/-- A script that drops only takes facts away, from inside its region. -/
theorem run_drops_within (h : ∀ w ∈ ws, w.IsDrop) :
    (run ws faults s).1 ⊆ s ∧ ∀ x ∈ s, region ws x = false → x ∈ (run ws faults s).1 := by
  induction ws generalizing faults s with
  | nil => exact ⟨Finset.Subset.refl s, fun x hx _ => hx⟩
  | cons w ws ih =>
      have hrest : ∀ w ∈ ws, w.IsDrop := fun w hw => h w (List.mem_cons_of_mem _ hw)
      cases w with
      | put x fresh e => exact absurd (h _ List.mem_cons_self) id
      | drop p e =>
          by_cases hfault : faults 0 = true
          · rw [run_drop_refused hfault]
            exact ⟨Finset.Subset.refl s, fun x hx _ => hx⟩
          · rw [run_drop_done (Bool.not_eq_true _ ▸ hfault)]
            obtain ⟨hless, hkept⟩ := @ih faults.tail (s.filter fun x => p x = false)
              hrest
            refine ⟨hless.trans (Finset.filter_subset _ s), fun x hx hregion => ?_⟩
            obtain ⟨hp, hr⟩ := Bool.or_eq_false_iff.mp hregion
            exact hkept x (Finset.mem_filter.mpr ⟨hx, hp⟩) hr
      | stop e => exact ⟨Finset.Subset.refl s, fun x hx _ => hx⟩

/-- The error a refused write gives. -/
def Write.error : Write α ε → ε
  | .put _ _ e => e
  | .drop _ e => e
  | .stop e => e

theorem run_error {e : ε} (h : (run ws faults s).2 = some e) : ∃ w ∈ ws, w.error = e := by
  induction ws generalizing faults s with
  | nil => cases h
  | cons w ws ih =>
      have hnext : ∀ {faults s}, (run ws faults s).2 = some e → ∃ v ∈ w :: ws, v.error = e := by
        intro faults s hrun
        obtain ⟨v, hv, he⟩ := ih hrun
        exact ⟨v, List.mem_cons_of_mem _ hv, he⟩
      cases w with
      | put x fresh e' =>
          rw [run] at h
          split at h
          · exact ⟨_, List.mem_cons_self, Option.some.inj h⟩
          · exact hnext h
      | drop p e' =>
          rw [run] at h
          split at h
          · exact ⟨_, List.mem_cons_self, Option.some.inj h⟩
          · exact hnext h
      | stop e' =>
          rw [run] at h
          exact ⟨_, List.mem_cons_self, Option.some.inj h⟩

/-- When only the first write can be refused, a script that drops does nothing or
all of it. -/
theorem run_drops_first (h : ∀ w ∈ ws, w.IsDrop) (hstop : ∀ w ∈ ws, ¬ w.IsStop)
    (hfaults : faults.tail.Clean) :
    (∃ e, run ws faults s = (s, some e)) ∨
    run ws faults s = (s.filter (fun x => region ws x = false), none) := by
  by_cases hfirst : faults 0 = false
  · have clean : faults.Clean := by
      intro n
      cases n with
      | zero => exact hfirst
      | succ n => exact hfaults n
    exact .inr (Prod.ext (run_drops h clean) (run_drops_done h hstop clean))
  · cases ws with
    | nil => exact .inr (by simp [run, region])
    | cons w ws =>
        cases w with
        | put x fresh e => exact absurd (h _ List.mem_cons_self) id
        | drop p e => exact .inl ⟨e, run_drop_refused (Bool.not_eq_false _ ▸ hfirst)⟩
        | stop e => exact absurd trivial (hstop _ List.mem_cons_self)

/-- What a script adds is put by one of its writes. -/
theorem put_of_content (hx : x ∈ content ws) :
    ∃ fresh e, Write.put x fresh e ∈ ws := by
  induction ws with
  | nil => simp [content] at hx
  | cons w ws ih =>
      cases w with
      | put y fresh e =>
          rcases Finset.mem_insert.mp hx with rfl | hx
          · exact ⟨fresh, e, List.mem_cons_self⟩
          · obtain ⟨fresh, e, hin⟩ := ih hx
            exact ⟨fresh, e, List.mem_cons_of_mem _ hin⟩
      | drop p e =>
          obtain ⟨fresh, e, hin⟩ := ih hx
          exact ⟨fresh, e, List.mem_cons_of_mem _ hin⟩
      | stop e => simp [content] at hx

/-- A script without a stop adds all that its writes put. -/
theorem content_of_put (hstop : ∀ w ∈ ws, ¬ w.IsStop) {fresh : Bool} {e : ε}
    (hx : Write.put x fresh e ∈ ws) : x ∈ content ws := by
  induction ws with
  | nil => cases hx
  | cons w ws ih =>
      have hrest : ∀ w ∈ ws, ¬ w.IsStop := fun w hw => hstop w (List.mem_cons_of_mem _ hw)
      cases w with
      | put y fresh' e' =>
          rcases List.mem_cons.mp hx with heq | hx
          · cases heq
            exact Finset.mem_insert_self _ _
          · exact Finset.mem_insert_of_mem (ih hrest hx)
      | drop p e' =>
          rcases List.mem_cons.mp hx with heq | hx
          · cases heq
          · exact ih hrest hx
      | stop e' => exact absurd trivial (hstop _ List.mem_cons_self)

/-- A roll-back without faults restores a table, whatever part of the region is
still there. -/
theorem rollback (h : ∀ w ∈ ws, w.IsDrop) (clean : faults.Clean)
    (kept : s ⊆ t) (within : ∀ x ∈ t, x ∉ s → region ws x = true)
    (outside : ∀ x ∈ s, region ws x = false) : (run ws faults t).1 = s := by
  rw [run_drops h clean]
  ext x
  rw [Finset.mem_filter]
  constructor
  · rintro ⟨hx, hregion⟩
    by_contra hno
    rw [within x hx hno] at hregion
    cases hregion
  · intro hx
    exact ⟨kept hx, outside x hx⟩

end DispService.Lib.Script
