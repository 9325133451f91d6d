import Mathlib.Data.List.Pairwise
import Mathlib.Logic.Pairwise

/-! Transformers of a state that is a function, each confined to a region: it changes
nothing outside of the region and looks at nothing outside of it. Transformers with
disjoint regions do not see each other. -/
namespace DispService.Lib.Local

variable {π α ι : Type*}

/-- The two states agree in the region. -/
def AgreeOn (P : π → Prop) (f g : π → α) : Prop :=
  ∀ p, P p → f p = g p

structure Confined (P : π → Prop) (T : (π → α) → π → α) : Prop where
  frame : ∀ f p, ¬ P p → T f p = f p
  sees : ∀ f g, AgreeOn P f g → AgreeOn P (T f) (T g)

theorem AgreeOn.refl (P : π → Prop) (f : π → α) : AgreeOn P f f :=
  fun _ _ => rfl

theorem AgreeOn.symm {P : π → Prop} {f g : π → α} (h : AgreeOn P f g) : AgreeOn P g f :=
  fun p hp => (h p hp).symm

theorem AgreeOn.trans {P : π → Prop} {f g k : π → α} (h : AgreeOn P f g) (h' : AgreeOn P g k) :
    AgreeOn P f k :=
  fun p hp => (h p hp).trans (h' p hp)

theorem Confined.id (P : π → Prop) : Confined P (fun f : π → α => f) :=
  ⟨fun _ _ _ => rfl, fun _ _ h => h⟩

theorem Confined.congr {P : π → Prop} {T U : (π → α) → π → α} (hU : Confined P U)
    (h : ∀ f, T f = U f) : Confined P T := by
  rw [funext h]
  exact hU

theorem Confined.comp {P : π → Prop} {T U : (π → α) → π → α} (hT : Confined P T)
    (hU : Confined P U) : Confined P fun f => U (T f) where
  frame := fun f p hp => (hU.frame (T f) p hp).trans (hT.frame f p hp)
  sees := fun f g h => hU.sees _ _ (hT.sees f g h)

theorem Confined.mono {P Q : π → Prop} {T : (π → α) → π → α} (hT : Confined P T)
    (hPQ : ∀ p, P p → Q p) : Confined Q T where
  frame := fun f p hp => hT.frame f p fun h => hp (hPQ p h)
  sees := by
    intro f g h p hp
    by_cases hin : P p
    · exact hT.sees f g (fun q hq => h q (hPQ q hq)) p hin
    · rw [hT.frame f p hin, hT.frame g p hin]
      exact h p hp

/-- A choice that looks only at the region. -/
theorem Confined.ite {P : π → Prop} {T U : (π → α) → π → α} (hT : Confined P T)
    (hU : Confined P U) {flag : (π → α) → Bool}
    (hflag : ∀ f g, AgreeOn P f g → flag f = flag g) :
    Confined P fun f => if flag f = true then T f else U f where
  frame := by
    intro f p hp
    split
    · exact hT.frame f p hp
    · exact hU.frame f p hp
  sees := by
    intro f g h
    rw [hflag f g h]
    split
    · exact hT.sees f g h
    · exact hU.sees f g h

/-- What a transformer of a disjoint region leaves as it is. -/
theorem Confined.agree {P Q : π → Prop} {T : (π → α) → π → α} (hT : Confined Q T)
    (disjoint : ∀ p, P p → ¬ Q p) (f : π → α) : AgreeOn P (T f) f :=
  fun p hp => hT.frame f p (disjoint p hp)

/-- Transformers of disjoint regions commute. -/
theorem Confined.commute {P Q : π → Prop} {T U : (π → α) → π → α} (hT : Confined P T)
    (hU : Confined Q U) (disjoint : ∀ p, P p → ¬ Q p) (f : π → α) : T (U f) = U (T f) := by
  have hdisjoint : ∀ p, Q p → ¬ P p := fun p hq hp => disjoint p hp hq
  funext p
  by_cases hp : P p
  · rw [hU.frame (T f) p (disjoint p hp)]
    exact hT.sees _ _ (hU.agree disjoint f) p hp
  · rw [hT.frame (U f) p hp]
    by_cases hq : Q p
    · exact (hU.sees _ _ (hT.agree hdisjoint f) p hq).symm
    · rw [hU.frame f p hq, hU.frame (T f) p hq, hT.frame f p hp]

section Fold

variable {P : ι → π → Prop} {T : ι → (π → α) → π → α}

theorem foldl_agree_of_disjoint {Q : π → Prop} {items : List ι}
    (confined : ∀ i ∈ items, Confined (P i) (T i)) (disjoint : ∀ i ∈ items, ∀ p, Q p → ¬ P i p)
    (f : π → α) : AgreeOn Q (items.foldl (fun f i => T i f) f) f := by
  induction items generalizing f with
  | nil => exact .refl Q f
  | cons i items ih =>
      have hrest := ih (fun j hj => confined j (List.mem_cons_of_mem i hj))
        (fun j hj => disjoint j (List.mem_cons_of_mem i hj)) (T i f)
      exact hrest.trans ((confined i List.mem_cons_self).agree (disjoint i List.mem_cons_self) f)

/-- In its own region each transformer of the list acts as if it were alone. -/
theorem foldl_agree {items : List ι} (confined : ∀ i ∈ items, Confined (P i) (T i))
    (disjoint : items.Pairwise fun i j => ∀ p, P i p → ¬ P j p) {i : ι} (hi : i ∈ items)
    (f : π → α) : AgreeOn (P i) (items.foldl (fun f i => T i f) f) (T i f) := by
  induction items generalizing f with
  | nil => cases hi
  | cons j items ih =>
      obtain ⟨hhead, htail⟩ := List.pairwise_cons.mp disjoint
      have hconfined := fun k hk => confined k (List.mem_cons_of_mem j hk)
      cases List.mem_cons.mp hi with
      | inl heq =>
          subst heq
          exact foldl_agree_of_disjoint hconfined hhead (T i f)
      | inr hmem =>
          have hrest := ih hconfined htail hmem (T j f)
          refine hrest.trans ((hconfined i hmem).sees _ _ ?_)
          refine (confined j List.mem_cons_self).agree ?_ f
          intro p hp hj
          exact hhead i hmem p hj hp

end Fold

end DispService.Lib.Local

/-! A file system by the paths that matter: what stands at a path stands for all that
lies below it, and is known by where it came from. -/
namespace DispService.Lib.FileSystem

inductive Kind where
  | file | folder
deriving DecidableEq

/-- A file or folder, with the origins of what was moved into it later. -/
structure Content where
  origin : String
  kind : Kind
  inside : List String := []
deriving DecidableEq

abbrev Fs := String → Option Content

/-- A file system in which everything is where it came from. -/
def initial (kinds : String → Option Kind) : Fs :=
  fun path => (kinds path).map fun kind => ⟨path, kind, []⟩

/-- What `mv` leaves at its destination, if it accepts to move: a folder takes the
source in, and a file is replaced by a file only. -/
def mv : Option Content → Option Content → Option Content
  | none, _ => none
  | some x, none => some x
  | some x, some ⟨origin, .folder, inside⟩ =>
      some ⟨origin, .folder, x.origin :: x.inside ++ inside⟩
  | some ⟨origin, .file, inside⟩, some ⟨_, .file, _⟩ => some ⟨origin, .file, inside⟩
  | some ⟨_, .folder, _⟩, some ⟨_, .file, _⟩ => none

/-- The paths below a folder. -/
def pathBelow (p q : String) : Bool :=
  (p.toList ++ ['/']).isPrefixOf q.toList

section Calls

variable (below : String → String → Bool)

/-- The path, or one below it. -/
def Within (p q : String) : Prop :=
  q = p ∨ below p q = true

instance (p q : String) : Decidable (Within below p q) :=
  inferInstanceAs (Decidable (_ ∨ _))

/-- `mv a b`, which fails where `may` is false. -/
def rename (may : Bool) (fs : Fs) (a b : String) : Bool × Fs :=
  match (if may ∧ ¬ Within below a b then mv (fs a) (fs b) else none) with
  | none => (false, fs)
  | some y => (true, fun q => if q = b then some y else if Within below a q then none else fs q)

/-- The removal of a file or of a whole folder; a missing one is no error. -/
def unlink (may : Bool) (fs : Fs) (p : String) : Bool × Fs :=
  match fs p with
  | none => (true, fs)
  | some _ =>
      if may then (true, fun q => if Within below p q then none else fs q) else (false, fs)

open Local

variable {below} {may : Bool} {fs : Fs} {a b p q : String}

theorem within_self (p : String) : Within below p p :=
  Or.inl rfl

/-- Of two paths that both hold a third, one holds the other. -/
theorem within_comparable {a b p : String} (ha : Within pathBelow a p) (hb : Within pathBelow b p) :
    a.toList ++ ['/'] <+: b.toList ++ ['/'] ∨ b.toList ++ ['/'] <+: a.toList ++ ['/'] := by
  have hstart : ∀ {c : String}, Within pathBelow c p → c.toList ++ ['/'] <+: p.toList ++ ['/'] := by
    intro c hc
    cases hc with
    | inl heq => exact heq ▸ List.prefix_rfl
    | inr hbelow => exact (List.isPrefixOf_iff_prefix.mp hbelow).trans (List.prefix_append _ _)
  exact List.prefix_or_prefix_of_prefix (hstart ha) (hstart hb)

theorem confined_unlink (may : Bool) (p : String) :
    Confined (Within below p) fun fs => (unlink below may fs p).2 where
  frame := by
    intro fs q hq
    simp only [unlink]
    split
    · rfl
    · split
      · exact if_neg hq
      · rfl
  sees := by
    intro f g h q hq
    have hp := h p (within_self p)
    simp only [unlink, hp]
    split
    · exact h q hq
    · split
      · exact (if_pos hq).trans (if_pos hq).symm
      · exact h q hq

theorem unlink_fst_congr {f g : Fs} (h : f p = g p) :
    (unlink below may f p).1 = (unlink below may g p).1 := by
  simp only [unlink, h]
  split
  · rfl
  · split <;> rfl

theorem confined_rename (may : Bool) (a b : String) :
    Confined (fun q => Within below a q ∨ Within below b q)
      fun fs => (rename below may fs a b).2 where
  frame := by
    intro fs q hq
    simp only [rename]
    split
    · rfl
    · have hqb : q ≠ b := fun h => hq (Or.inr (Or.inl h))
      have hqa : ¬ Within below a q := fun h => hq (Or.inl h)
      simp [hqb, hqa]
  sees := by
    intro f g h q hq
    have ha := h a (Or.inl (within_self a))
    have hb := h b (Or.inr (within_self b))
    simp only [rename, ha, hb]
    split
    · exact h q hq
    · dsimp only
      split
      · rfl
      · split
        · rfl
        · exact h q hq

theorem rename_fst_congr {f g : Fs} (ha : f a = g a) (hb : f b = g b) :
    (rename below may f a b).1 = (rename below may g a b).1 := by
  simp only [rename, ha, hb]
  split <;> rfl

theorem rename_of_not : rename below false fs a b = (false, fs) := by
  simp [rename]

theorem rename_of_missing (h : fs a = none) : rename below may fs a b = (false, fs) := by
  unfold rename
  rw [h]
  cases hb : fs b <;> simp [mv]

theorem rename_of_mv (hab : ¬ Within below a b) {y : Content} (h : mv (fs a) (fs b) = some y) :
    rename below true fs a b =
      (true, fun q => if q = b then some y else if Within below a q then none else fs q) := by
  unfold rename
  rw [if_pos ⟨rfl, hab⟩, h]

theorem rename_of_refused (h : mv (fs a) (fs b) = none) :
    rename below may fs a b = (false, fs) := by
  unfold rename
  split
  · rfl
  · rename_i y heq
    split at heq
    · rw [h] at heq
      cases heq
    · cases heq

end Calls

end DispService.Lib.FileSystem
