import DispService.Restore.Back
import DispService.Restore.Parts

/-! What is made in the temporary places: the targets are not touched before the assembly
has all its parts. -/
namespace DispService.Restore

open DispService.Lib FileSystem Local

/-- Everything is where it came from. -/
def Natural (fs : Fs) : Prop :=
  ∀ p c, fs p = some c → c = ⟨p, c.kind, []⟩

def kindsOf (fs : Fs) (p : String) : Option Kind :=
  (fs p).map Content.kind

theorem natural_initial (kinds : String → Option Kind) : Natural (initial kinds) := by
  intro p c hc
  obtain ⟨k, -, rfl⟩ := initial_eq_some.mp hc
  rfl

theorem Natural.initial_kindsOf {fs : Fs} (h : Natural fs) : initial (kindsOf fs) = fs := by
  funext p
  unfold initial kindsOf
  cases hfs : fs p with
  | none => rfl
  | some c => exact congrArg some (h p c hfs).symm

/-- A success is not that of a branch that fails. -/
theorem ite_ok {α : Type*} {c : Prop} [Decidable c] {a b : PrlResult × α}
    (h : (if c then a else b).1.failed = false) (ha : c → a.1.failed = true) :
    ¬ c ∧ (if c then a else b) = b := by
  by_cases hc : c
  · rw [if_pos hc, ha hc] at h
    cases h
  · exact ⟨hc, if_neg hc⟩

section Calls

variable {below : String → String → Bool} {S : String → Prop} {fs fs' : Fs}

/-- Something may have been made at the given paths. -/
structure Filled (S : String → Prop) (fs fs' : Fs) : Prop where
  outside : ∀ p, ¬ S p → fs' p = fs p
  grown : ∀ p, fs' p = fs p ∨ ∃ k, fs' p = some ⟨p, k, []⟩

namespace Filled

theorem refl (fs : Fs) : Filled S fs fs :=
  ⟨fun _ _ => rfl, fun _ => Or.inl rfl⟩

theorem trans {f g k : Fs} (h : Filled S f g) (h' : Filled S g k) : Filled S f k where
  outside := fun p hp => (h'.outside p hp).trans (h.outside p hp)
  grown := by
    intro p
    cases h'.grown p with
    | inl hsame => exact hsame ▸ h.grown p
    | inr hmade => exact Or.inr hmade

theorem made {p : String} (hp : S p) (fs : Fs) (kind : Kind) :
    Filled S fs (Restore.made fs p kind) where
  outside := by
    intro q hq
    exact Function.update_of_ne (fun heq => hq (by rw [heq]; exact hp)) _ _
  grown := by
    intro q
    unfold Restore.made
    by_cases hq : q = p
    · subst hq
      rw [Function.update_self]
      exact Or.inr ⟨kind, rfl⟩
    · rw [Function.update_of_ne hq]
      exact Or.inl rfl

theorem ne_none (h : Filled S fs fs') {p : String} (hp : fs p ≠ none) : fs' p ≠ none := by
  cases h.grown p with
  | inl hsame => exact hsame ▸ hp
  | inr hmade =>
      obtain ⟨k, hk⟩ := hmade
      rw [hk]
      exact Option.some_ne_none _

theorem natural (h : Filled S fs fs') (hfs : Natural fs) : Natural fs' := by
  intro p c hc
  cases h.grown p with
  | inl hsame => exact hfs p c (hsame ▸ hc)
  | inr hmade =>
      obtain ⟨k, hk⟩ := hmade
      obtain rfl := Option.some.inj (hk.symm.trans hc)
      rfl

theorem assistMake {p : String} (hp : S p) (fs : Fs) (mkdir : PrlResult) :
    Filled S fs (Restore.assistMake fs p mkdir).2 := by
  unfold Restore.assistMake
  split
  · exact .refl fs
  · split
    · exact .refl fs
    · exact .made hp fs .folder

end Filled

theorem kindsOf_made (fs : Fs) (p q : String) (kind : Kind) :
    kindsOf (made fs p kind) q = if q = p then some kind else kindsOf fs q := by
  unfold kindsOf made
  by_cases hq : q = p
  · subst hq
    rw [Function.update_self, if_pos rfl]
    rfl
  · rw [Function.update_of_ne hq, if_neg hq]

theorem assistMake_folder {p : String} {mkdir : PrlResult}
    (h : (assistMake fs p mkdir).1.failed = false) :
    kindsOf (assistMake fs p mkdir).2 p = some .folder := by
  unfold assistMake at h ⊢
  obtain ⟨-, heq⟩ := ite_ok h fun _ => rfl
  rw [heq] at h ⊢
  obtain ⟨-, heq⟩ := ite_ok h fun _ => rfl
  rw [heq]
  exact (kindsOf_made fs p p .folder).trans (if_pos rfl)

/-- A folder stays one. -/
theorem assistMake_keeps {p q : String} {mkdir : PrlResult} (h : kindsOf fs q = some .folder) :
    kindsOf (assistMake fs p mkdir).2 q = some .folder := by
  unfold assistMake
  split
  · exact h
  · split
    · exact h
    · apply (kindsOf_made fs p q .folder).trans
      rw [h, ite_self]

theorem Natural.unlink (h : Natural fs) (may : Bool) (p : String) :
    Natural (unlink below may fs p).2 := by
  intro q c hc
  have hor := @unlink_apply_or below may fs p q
  cases hor with
  | inl hnone =>
      rw [hnone] at hc
      cases hc
  | inr hsame => exact h q c (hsame ▸ hc)

theorem Natural.clearAll (h : Natural fs) (may : String → Bool) (paths : List String) :
    Natural (clearAll below may paths fs) := by
  unfold Restore.clearAll
  induction paths generalizing fs with
  | nil => exact h
  | cons p paths ih => exact ih (h.unlink (may p) p)

theorem confined_clearAll (may : String → Bool) (paths : List String) :
    Confined (fun q => ∃ d ∈ paths, Within below d q) (clearAll below may paths) := by
  unfold clearAll
  induction paths with
  | nil => exact (Confined.id _).mono fun _ h => h
  | cons p paths ih =>
      have hfirst : Confined (fun q => ∃ d ∈ p :: paths, Within below d q)
          fun fs => (unlink below (may p) fs p).2 :=
        (confined_unlink (may p) p).mono fun q hq => ⟨p, List.mem_cons_self, hq⟩
      have hrest : Confined (fun q => ∃ d ∈ p :: paths, Within below d q)
          fun fs => paths.foldl (fun fs p => (unlink below (may p) fs p).2) fs := by
        apply ih.mono
        rintro q ⟨d, hd, hq⟩
        exact ⟨d, List.mem_cons_of_mem p hd, hq⟩
      exact (hfirst.comp hrest).congr fun _ => rfl

/-- The constructor of a move keeps to the target and its `.restore`. -/
theorem confined_setAside_targets {i : Item} (hfrom : i.from_ ≠ "") :
    Confined (fun q => Within below i.dst q ∨ Within below i.restore q) (setAside below i) := by
  apply Confined.congr _ fun _ => setAside_eq hfrom
  have hunlink : Confined (fun q => Within below i.dst q ∨ Within below i.restore q)
      fun fs => (FileSystem.unlink below (i.may .asideUnlink) fs i.restore).2 :=
    (confined_unlink _ i.restore).mono fun _ => Or.inr
  exact hunlink.comp (confined_rename _ i.dst i.restore)

theorem setAsideAll_commute {items : List Item} {Q : String → Prop} {U : Fs → Fs}
    (hU : Confined Q U) (hfrom : ∀ i ∈ items, i.from_ ≠ "")
    (hdisjoint : ∀ i ∈ items, ∀ p, Q p → ¬ Within below i.dst p ∧ ¬ Within below i.restore p)
    (fs : Fs) : setAsideAll below items (U fs) = U (setAsideAll below items fs) := by
  unfold setAsideAll
  induction items generalizing fs with
  | nil => rfl
  | cons i items ih =>
      have hi := List.mem_cons_self (a := i) (l := items)
      have hcommute : setAside below i (U fs) = U (setAside below i fs) := by
        apply (confined_setAside_targets (hfrom i hi)).commute hU
        intro p hp hq
        have hno := hdisjoint i hi p hq
        cases hp with
        | inl hdst => exact hno.1 hdst
        | inr hrestore => exact hno.2 hrestore
      rw [List.foldl_cons, List.foldl_cons, hcommute]
      exact ih (fun j hj => hfrom j (List.mem_cons_of_mem i hj))
        (fun j hj => hdisjoint j (List.mem_cons_of_mem i hj)) _

/-- What stands at the paths when the parts are made. -/
def placed (files folders : List String) (kinds : String → Option Kind) (p : String) :
    Option Kind :=
  if p ∈ files then some .file else if p ∈ folders then some .folder else kinds p

/-- A move sees the same in both. -/
def SameAt (kinds kinds' : String → Option Kind) (i : Item) : Prop :=
  kinds' i.from_ = kinds i.from_ ∧ kinds' i.dst = kinds i.dst ∧ kinds' i.restore = kinds i.restore

section Same

variable {kinds kinds' : String → Option Kind}

namespace SameAt

variable {i : Item} (h : SameAt kinds kinds' i)
include h

theorem moves : Moves kinds' i ↔ Moves kinds i := by
  unfold Moves InPlace Cleared
  rw [h.1, h.2.1, h.2.2]

theorem backDropped : BackDropped kinds' i ↔ BackDropped kinds i := by
  unfold BackDropped AsideWhole InPlace Cleared
  rw [h.2.1, h.2.2]

theorem backReverted : BackReverted kinds' i ↔ BackReverted kinds i := by
  unfold BackReverted AsideWhole Cleared
  rw [h.2.1, h.2.2]

theorem safeDone : SafeDone kinds' i ↔ SafeDone kinds i := by
  unfold SafeDone InPlace Cleared
  rw [h.2.1, h.2.2]

end SameAt

theorem moves_split_congr {items : List Item} (h : ∀ i ∈ items, SameAt kinds kinds' i) :
    items.takeWhile (Moves kinds' ·) = items.takeWhile (Moves kinds ·) ∧
      items.dropWhile (Moves kinds' ·) = items.dropWhile (Moves kinds ·) := by
  induction items with
  | nil => exact ⟨rfl, rfl⟩
  | cons i items ih =>
      obtain ⟨hi, hrest⟩ := List.forall_mem_cons.mp h
      obtain ⟨htake, hdrop⟩ := ih hrest
      have hsame : decide (Moves kinds' i) = decide (Moves kinds i) := decide_eq_decide.mpr hi.moves
      rw [List.takeWhile_cons, List.takeWhile_cons, List.dropWhile_cons, List.dropWhile_cons,
        htake, hdrop]
      rw [hsame]
      exact ⟨rfl, rfl⟩

theorem backUndone_congr {items : List Item} (h : ∀ i ∈ items, SameAt kinds kinds' i) :
    BackUndone kinds' items ↔ BackUndone kinds items := by
  obtain ⟨htake, hdrop⟩ := moves_split_congr h
  unfold BackUndone
  rw [htake, hdrop]
  apply and_congr
  · apply forall₂_congr
    intro i hi
    exact (h i ((List.takeWhile_sublist _).subset hi)).backReverted
  · apply forall₂_congr
    intro i hi
    exact (h i ((List.dropWhile_sublist _).subset hi)).backDropped

end Same

/-- What a restore to temporary places hands out: nothing, and the targets are as they
were, or an assembly of all the parts. -/
def Handed (below : String → String → Bool) (items : List Item) (kinds parts : String → Option Kind)
    (e : PrlResult × Option Assembly × Fs) : Prop :=
  (e.1.failed = true ∧ e.2.1 = none ∧ ∀ i ∈ items, e.2.2 i.dst = initial kinds i.dst) ∨
    ∃ kinds', (∀ i ∈ items, SameAt parts kinds' i) ∧
      e = (.success, some (build below items (initial kinds')).1,
        (build below items (initial kinds')).2)

section Handing

variable {items : List Item} {kinds parts : String → Option Kind} {S : String → Prop} {fs : Fs}
variable {paths : List String} (may : String → Bool)

/-- The paths of the target and of its `.restore` are no temporary ones. -/
def Clear (below : String → String → Bool) (items : List Item) (d : String) : Prop :=
  ∀ i ∈ items, ∀ p, Within below d p → ¬ Within below i.dst p ∧ ¬ Within below i.restore p

theorem clearAll_apply {p : String} (h : ∀ d ∈ paths, ¬ Within below d p) :
    clearAll below may paths fs p = fs p := by
  apply (confined_clearAll may paths).frame
  rintro ⟨d, hd, hp⟩
  exact h d hd hp

theorem Clear.dst {d : String} (h : Clear below items d) {i : Item} (hi : i ∈ items) :
    ¬ Within below d i.dst :=
  fun hin => (h i hi i.dst hin).1 (within_self _)

theorem Clear.restore {d : String} (h : Clear below items d) {i : Item} (hi : i ∈ items) :
    ¬ Within below d i.restore :=
  fun hin => (h i hi i.restore hin).2 (within_self _)

variable (hfilled : Filled S (initial kinds) fs) (hclear : ∀ d, S d → Clear below items d)
variable (hpaths : ∀ d ∈ paths, S d)
include hfilled hclear hpaths

/-- The parts are removed, and nothing is handed out. -/
theorem handed_failed {e : PrlResult} (he : e.failed = true) :
    Handed below items kinds parts (e, none, clearAll below may paths fs) := by
  refine Or.inl ⟨he, rfl, ?_⟩
  intro i hi
  have hsame : clearAll below may paths fs i.dst = fs i.dst :=
    clearAll_apply may fun d hd => (hclear d (hpaths d hd)).dst hi
  apply hsame.trans
  exact hfilled.outside i.dst fun hS => (hclear i.dst hS).dst hi (within_self _)

/-- What is not handed out is removed after the old targets were set aside. -/
theorem handed_built (hfrom : ∀ i ∈ items, i.from_ ≠ "")
    (hkeep : ∀ d ∈ paths, ∀ i ∈ items, ¬ Within below d i.from_)
    (hkind : ∀ i ∈ items, kindsOf fs i.from_ = parts i.from_)
    (hparts : ∀ p, ¬ S p → parts p = kinds p) :
    Handed below items kinds parts
      (.success, some (build below items fs).1, clearAll below may paths (build below items fs).2) := by
  have hnatural : Natural (clearAll below may paths fs) :=
    (hfilled.natural (natural_initial kinds)).clearAll may paths
  refine Or.inr ⟨kindsOf (clearAll below may paths fs), ?_, ?_⟩
  · intro i hi
    have hsame : ∀ p, (∀ d ∈ paths, ¬ Within below d p) →
        kindsOf (clearAll below may paths fs) p = kindsOf fs p :=
      fun p hp => congrArg (Option.map Content.kind) (clearAll_apply may hp)
    have hother : ∀ p, ¬ S p → kindsOf fs p = parts p := by
      intro p hp
      rw [hparts p hp]
      unfold kindsOf initial at *
      rw [hfilled.outside p hp]
      cases kinds p <;> simp
    have hdst := hother i.dst fun hS => (hclear i.dst hS).dst hi (within_self _)
    have hrestore := hother i.restore fun hS => (hclear i.restore hS).restore hi (within_self _)
    refine ⟨?_, ?_, ?_⟩
    · exact (hsame _ fun d hd => hkeep d hd i hi).trans (hkind i hi)
    · exact (hsame _ fun d hd => (hclear d (hpaths d hd)).dst hi).trans hdst
    · exact (hsame _ fun d hd => (hclear d (hpaths d hd)).restore hi).trans hrestore
  · rw [hnatural.initial_kindsOf, build_eq, build_eq]
    have hcommute := setAsideAll_commute (confined_clearAll may paths) hfrom
      (fun i hi p hp => hp.elim fun d hd => hclear d (hpaths d hd.1) i hi p hd.2) fs
    unfold setAsideAll at hcommute
    rw [hcommute]

end Handing

end Calls

end DispService.Restore
