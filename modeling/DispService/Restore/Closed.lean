import DispService.Restore.Replaced

/-! Properties of the file system that no call of an assembly breaks. -/
namespace DispService.Restore

open DispService.Lib FileSystem

section Calls

variable {below : String → String → Bool} {T : String → Prop} {P : Fs → Prop} {fs : Fs}

/-- Neither a removal nor a renaming to one of the given paths breaks the property. -/
structure Closed (below : String → String → Bool) (T : String → Prop) (P : Fs → Prop) :
    Prop where
  unlink : ∀ may fs p, P fs → P (unlink below may fs p).2
  rename : ∀ may fs a b, T b → P fs → P (rename below may fs a b).2

namespace Closed

variable (h : Closed below T P)
include h

theorem commit {m : Move} (site : Site) (hfs : P fs) : P (m.commit below site fs).2.2 := by
  have hunlink := h.unlink (m.may site) fs m.m_revert hfs
  unfold Move.commit
  split
  · exact hfs
  · split
    · exact hfs
    · split
      · exact hfs
      · split <;> rename_i heq <;> rw [heq] at hunlink <;> exact hunlink

theorem revert {m : Move} (hto : T m.m_to) (hfs : P fs) : P (m.revert below fs).2.2 := by
  unfold Move.revert
  split
  · exact hfs
  · split
    · split
      · exact hfs
      · have hunlink := h.unlink (m.may .revertUnlink) fs m.trash hfs
        split <;> rename_i heq <;> rw [heq] at hunlink <;> exact hunlink
    · split
      · exact hfs
      · have hunlink := h.unlink (m.may .revertUnlink) fs m.m_to hfs
        split
        · rename_i heq
          rw [heq] at hunlink
          exact hunlink
        · rename_i fs' heq
          rw [heq] at hunlink
          have hrename := h.rename (m.may .revertRename) fs' m.m_revert m.m_to hto hunlink
          split <;> rename_i heq <;> rw [heq] at hrename <;> exact hrename

theorem destroy {m : Move} (hto : T m.m_to) (hfs : P fs) : P (m.destroy below fs) := by
  unfold Move.destroy
  split
  · exact hfs
  · split
    · split
      · exact h.unlink _ _ _ hfs
      · have hunlink := h.unlink (m.may .dropUnlink) fs m.m_from hfs
        dsimp only
        split
        · exact h.rename _ _ _ _ hto hunlink
        · exact hunlink
    · have hcommit := h.commit (m := m) .destroyCommit hfs
      split
      · rename_i heq
        rw [heq] at hcommit
        exact hcommit
      · rename_i heq
        rw [heq] at hcommit
        exact h.unlink _ _ _ hcommit

omit h in
theorem commit_to (m : Move) (site : Site) : (m.commit below site fs).2.1.m_to = m.m_to := by
  unfold Move.commit
  split
  · rfl
  · split
    · rfl
    · split
      · rfl
      · split <;> rfl

omit h in
theorem revert_to (m : Move) : (m.revert below fs).2.1.m_to = m.m_to := by
  unfold Move.revert
  split
  · rfl
  · split
    · split
      · rfl
      · split <;> rfl
    · split
      · rfl
      · split
        · rfl
        · split <;> rfl

omit h in
theorem foldl {moves : List Move} {f : Fs → Move → Fs}
    (hf : ∀ m ∈ moves, ∀ fs, P fs → P (f fs m)) (hfs : P fs) : P (moves.foldl f fs) := by
  induction moves generalizing fs with
  | nil => exact hfs
  | cons m moves ih =>
      apply ih
      · intro k hk
        exact hf k (List.mem_cons_of_mem m hk)
      · exact hf m List.mem_cons_self fs hfs

/-- All moves of the assembly have their targets among the given paths. -/
theorem assembly_revert {a : Assembly} (hready : ∀ m ∈ a.m_ready, T m.m_to)
    (hpending : ∀ m ∈ a.m_pending, T m.m_to) (hfs : P fs) : P (a.revert below fs).2 := by
  apply foldl
  · intro m hm fs hfs
    exact h.destroy (hpending m hm) hfs
  · apply foldl _ hfs
    intro m hm fs hfs
    apply h.destroy _ (h.revert (hready m hm) hfs)
    rw [revert_to]
    exact hready m hm

theorem assembly_destroy {a : Assembly} (hready : ∀ m ∈ a.m_ready, T m.m_to)
    (hpending : ∀ m ∈ a.m_pending, T m.m_to) (mayTrash : String → Bool) (hfs : P fs) :
    P (a.destroy below mayTrash fs) := by
  have hmoves : P (if a.m_pending = [] then
      a.m_ready.foldl (fun fs m =>
        let r := m.commit below .commit fs
        r.2.1.destroy below r.2.2) fs
      else (a.revert below fs).2) := by
    split
    · apply foldl _ hfs
      intro m hm fs hfs
      apply h.destroy _ (h.commit .commit hfs)
      rw [commit_to]
      exact hready m hm
    · exact h.assembly_revert hready hpending hfs
  unfold Assembly.destroy
  dsimp only
  split
  · generalize (if a.m_pending = [] then _ else _ : Fs) = fs' at hmoves
    induction a.m_trash generalizing fs' with
    | nil => exact hmoves
    | cons x trash ih => exact ih _ (h.unlink _ _ _ hmoves)
  · exact hmoves

end Closed

/-- What stands at the path did not come from the origin. -/
def Absent (origin path : String) (fs : Fs) : Prop :=
  ∀ c, fs path = some c → c.origin ≠ origin

theorem absent_of_none {origin path : String} (h : fs path = none) : Absent origin path fs := by
  intro c hc
  rw [h] at hc
  cases hc

theorem unlink_apply_or (may : Bool) (fs : Fs) (p q : String) :
    (unlink below may fs p).2 q = none ∨ (unlink below may fs p).2 q = fs q := by
  unfold unlink
  split
  · exact Or.inr rfl
  · split
    · dsimp only
      split
      · exact Or.inl rfl
      · exact Or.inr rfl
    · exact Or.inr rfl

theorem rename_apply_or (may : Bool) (fs : Fs) (a b q : String) :
    (rename below may fs a b).2 q = none ∨ (rename below may fs a b).2 q = fs q ∨
      q = b ∧ (rename below may fs a b).2 q = mv (fs a) (fs b) := by
  unfold rename
  split
  · exact Or.inr (Or.inl rfl)
  · rename_i y heq
    dsimp only
    split
    · rename_i hqb
      have hmv : mv (fs a) (fs b) = some y := by
        split at heq
        · exact heq
        · cases heq
      exact Or.inr (Or.inr ⟨hqb, hmv.symm⟩)
    · split
      · exact Or.inl rfl
      · exact Or.inr (Or.inl rfl)

theorem absent_closed (below : String → String → Bool) (origin path : String) :
    Closed below (· ≠ path) (Absent origin path) where
  unlink := by
    intro may fs p h
    cases @unlink_apply_or below may fs p path with
    | inl hnone => exact absent_of_none hnone
    | inr hsame =>
        intro c hc
        exact h c (hsame ▸ hc)
  rename := by
    intro may fs a b hb h
    cases @rename_apply_or below may fs a b path with
    | inl hnone => exact absent_of_none hnone
    | inr hrest =>
        intro c hc
        cases hrest with
        | inl hsame => exact h c (hsame ▸ hc)
        | inr hput => exact absurd hput.1.symm hb

/-- Something that came from one of the origins, or took it in. -/
def Content.Old (olds : List String) (c : Content) : Prop :=
  c.origin ∈ olds ∨ ∃ o ∈ c.inside, o ∈ olds

/-- What came from the origins is at the given paths only. -/
def OldOnly (olds : List String) (S : String → Prop) (fs : Fs) : Prop :=
  ∀ p c, fs p = some c → Content.Old olds c → S p

theorem OldOnly.unlink {olds : List String} {S : String → Prop} (h : OldOnly olds S fs)
    (may : Bool) (p : String) : OldOnly olds S (unlink below may fs p).2 := by
  intro q c hc hold
  cases @unlink_apply_or below may fs p q with
  | inl hnone =>
      rw [hnone] at hc
      cases hc
  | inr hsame => exact h q c (hsame ▸ hc) hold

theorem mv_old {olds : List String} {a b : Option Content} {y : Content} (h : mv a b = some y)
    (hy : Content.Old olds y) :
    (∃ x, a = some x ∧ Content.Old olds x) ∨ ∃ x, b = some x ∧ Content.Old olds x := by
  cases a with
  | none => cases h
  | some x =>
      cases b with
      | none =>
          obtain rfl := Option.some.inj h
          exact Or.inl ⟨x, rfl, hy⟩
      | some z =>
          obtain ⟨origin, kind, inside⟩ := x
          obtain ⟨origin', kind', inside'⟩ := z
          cases kind'
          · cases kind
            · obtain rfl := Option.some.inj h
              exact Or.inl ⟨_, rfl, hy⟩
            · cases h
          · obtain rfl := Option.some.inj h
            cases hy with
            | inl horigin => exact Or.inr ⟨_, rfl, Or.inl horigin⟩
            | inr hinside =>
                obtain ⟨o, ho, hold⟩ := hinside
                cases List.mem_append.mp ho with
                | inl hx =>
                    cases List.mem_cons.mp hx with
                    | inl heq => exact Or.inl ⟨_, rfl, Or.inl (heq ▸ hold)⟩
                    | inr hmem => exact Or.inl ⟨_, rfl, Or.inr ⟨o, hmem, hold⟩⟩
                | inr hz => exact Or.inr ⟨_, rfl, Or.inr ⟨o, hz, hold⟩⟩

/-- Where nothing is old, nothing gets old. -/
theorem clean_closed (below : String → String → Bool) (olds : List String) :
    Closed below (fun _ => True) (OldOnly olds fun _ => False) where
  unlink := fun may _ p h => h.unlink may p
  rename := by
    intro may fs a b _ h q c hc hold
    cases @rename_apply_or below may fs a b q with
    | inl hnone =>
        rw [hnone] at hc
        cases hc
    | inr hrest =>
        cases hrest with
        | inl hsame => exact h q c (hsame ▸ hc) hold
        | inr hput =>
            have hmv : mv (fs a) (fs b) = some c := hput.2 ▸ hc
            cases mv_old hmv hold with
            | inl hx =>
                obtain ⟨x, hx, hxold⟩ := hx
                exact h a x hx hxold
            | inr hx =>
                obtain ⟨x, hx, hxold⟩ := hx
                exact h b x hx hxold

end Calls

end DispService.Restore
