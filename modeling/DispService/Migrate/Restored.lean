import Mathlib.Data.List.Basic
import DispService.Lib.Bracket

/-! The tricks around a migration: files that must not be migrated as they are get a
disguise, and the work inside is done. -/
namespace DispService.Migrate

universe u

/-- Files by path, with what is in them. -/
abbrev Files (γ : Type u) := String → Option γ

variable {γ : Type u}

namespace Files

variable (fault : Bool) (a b p : String) (fs : Files γ)

/-- `QFile::rename`, which does not replace a file. -/
def rename : Bool × Files γ :=
  if fault = true ∨ fs a = none ∨ fs b ≠ none then (false, fs)
  else (true, fun q => if q = b then fs a else if q = a then none else fs q)

/-- `QFile::copy`, which does not replace a file. -/
def copy : Bool × Files γ :=
  if fault = true ∨ fs a = none ∨ fs b ≠ none then (false, fs)
  else (true, fun q => if q = b then fs a else fs q)

def remove : Files γ := fun q => if q = p then none else fs q

end Files

def suffix : String := "pstorage-source"

def disguise (word_ : String) : String := word_ ++ "." ++ suffix

/-- Which calls of one decorator fail, each if it is made. -/
structure Faults where
  rename : Bool := false
  copy : Bool := false
  /-- The rename of a rollback. -/
  back : Bool := false
  createExternal : Bool := false
  merge : String → Bool := fun _ => false

namespace File

variable (f : Faults) (m_path : String) (fs : Files γ)

def do_ : Bool × Files γ :=
  if m_path = "" then (true, fs)
  else if fs (disguise m_path) ≠ none then (false, fs)
  else
    let r := fs.rename f.rename m_path (disguise m_path)
    if r.1 = false then (false, r.2) else r.2.copy f.copy (disguise m_path) m_path

def cleanup : Files γ :=
  if m_path = "" then fs else fs.remove (disguise m_path)

def rollback : Files γ :=
  if m_path = "" then fs
  else ((fs.remove m_path).rename f.back (disguise m_path) m_path).2

end File

namespace Disks

variable (f : Faults) (m_disks : List String) (overlay : γ) (fs : Files γ)

/-- The external snapshot puts an overlay beside each disk, all or none. -/
def do_ : Bool × Files γ :=
  if m_disks = [] then (true, fs)
  else if f.createExternal = true ∨ ∃ d ∈ m_disks, fs (disguise d) ≠ none then (false, fs)
  else (true, fun q => if q ∈ m_disks.map disguise then some overlay else fs q)

def cleanup : Files γ :=
  m_disks.foldl (fun fs d => fs.remove (disguise d)) fs

/-- An overlay that is merged is swept. -/
def rollback : Files γ :=
  m_disks.foldl (fun fs d => if f.merge d then fs else fs.remove (disguise d)) fs

end Disks

/-- What is done inside, and the decorators around it. A null pointer is work that
succeeds. -/
inductive Trick (γ : Type u) where
  | null
  | component (m_work : Files γ → Bool × Files γ)
  | file (m_path : String) (m_next : Trick γ)
  | disks (m_disks : List String) (overlay : γ) (m_next : Trick γ)

/-- `Decorator::execute`. -/
def decorate (do_ : Files γ → Bool × Files γ) (cleanup rollback : Files γ → Files γ)
    (next : Files γ → Bool × Files γ) (fs : Files γ) : Bool × Files γ :=
  let r := do_ fs
  if r.1 = false then r
  else
    let x := next r.2
    if x.1 = true then (true, cleanup x.2) else (false, rollback x.2)

namespace Trick

/-- The faults are by the depth of the decorator. -/
def execute : Trick γ → (Nat → Faults) → Files γ → Bool × Files γ
  | null, _, fs => (true, fs)
  | component m_work, _, fs => m_work fs
  | file m_path m_next, f, fs =>
      decorate (File.do_ (f 0) m_path) (File.cleanup m_path) (File.rollback (f 0) m_path)
        (execute m_next fun n => f (n + 1)) fs
  | disks m_disks overlay m_next, f, fs =>
      decorate (Disks.do_ (f 0) m_disks overlay) (Disks.cleanup m_disks)
        (Disks.rollback (f 0) m_disks) (execute m_next fun n => f (n + 1)) fs

def hooked : Trick γ → List String
  | null => []
  | component _ => []
  | file m_path m_next => if m_path = "" then m_next.hooked else m_path :: m_next.hooked
  | disks _ _ m_next => m_next.hooked

def disguised : Trick γ → List String
  | null => []
  | component _ => []
  | file m_path m_next =>
      if m_path = "" then m_next.disguised else disguise m_path :: m_next.disguised
  | disks m_disks _ m_next => m_disks.map disguise ++ m_next.disguised

/-- The work inside leaves these paths alone. -/
def Spares (paths : String → Prop) : Trick γ → Prop
  | null => True
  | component m_work => ∀ fs q, paths q → (m_work fs).2 q = fs q
  | file _ m_next => m_next.Spares paths
  | disks _ _ m_next => m_next.Spares paths

/-- A call fails that is not undone: the copy in a `File::do_` after the rename, the
rename or a merge in a rollback. -/
def Strands : Trick γ → (Nat → Faults) → Files γ → Prop
  | null, _, _ => False
  | component _, _, _ => False
  | file m_path m_next, f, fs =>
      (m_path ≠ "" ∧ fs (disguise m_path) = none ∧
        (fs.rename (f 0).rename m_path (disguise m_path)).1 = true ∧ (f 0).copy = true) ∨
      ((File.do_ (f 0) m_path fs).1 = true ∧
        (m_next.Strands (fun n => f (n + 1)) (File.do_ (f 0) m_path fs).2 ∨
          (m_next.execute (fun n => f (n + 1)) (File.do_ (f 0) m_path fs).2).1 = false ∧
            m_path ≠ "" ∧ (f 0).back = true))
  | disks m_disks overlay m_next, f, fs =>
      (Disks.do_ (f 0) m_disks overlay fs).1 = true ∧
        (m_next.Strands (fun n => f (n + 1)) (Disks.do_ (f 0) m_disks overlay fs).2 ∨
          (m_next.execute (fun n => f (n + 1)) (Disks.do_ (f 0) m_disks overlay fs).2).1 = false ∧
            ∃ d ∈ m_disks, (f 0).merge d = true)

end Trick

/-- After a failure every hooked file is as it was, and no disguised file is left; after
a success no disguised file is left. A disguised file that was there before is no
matter of the trick. -/
structure Promised (t : Trick γ) (f : Nat → Faults) (fs : Files γ) : Prop where
  restored : (t.execute f fs).1 = false → ∀ p ∈ t.hooked, (t.execute f fs).2 p = fs p
  swept : ∀ q ∈ t.disguised, (t.execute f fs).2 q = fs q

end DispService.Migrate

/-! A migration that fails leaves the files as they were, just when no call fails that
nothing undoes. -/
namespace DispService.Migrate

open Lib

universe u

variable {γ : Type u} {fs : Files γ} {f : Faults} {p : String} {m_disks : List String}
  {overlay : γ}

theorem disguise_ne (p : String) : disguise p ≠ p := by
  intro h
  have hlength := congrArg (fun s => s.toList.length) h
  simp [disguise, suffix] at hlength

/-- The outcomes of `File::do_` for a path. -/
inductive Hooking (f : Faults) (p : String) (fs : Files γ) : Bool × Files γ → Prop where
  | refused (h : ¬ (fs (disguise p) = none ∧
        (fs.rename f.rename p (disguise p)).1 = true)) : Hooking f p fs (false, fs)
  | stranded (free : fs (disguise p) = none)
      (renamed : (fs.rename f.rename p (disguise p)).1 = true) (copy : f.copy = true)
      (x : Files γ) (left : x (disguise p) ≠ none) : Hooking f p fs (false, x)
  | hooked (free : fs (disguise p) = none) (copied : f.copy = false) (there : fs p ≠ none) :
      Hooking f p fs (true, fun q => if q = disguise p then fs p else fs q)

theorem rename_ok {fault : Bool} {a b : String} (h : (fs.rename fault a b).1 = true) :
    fs a ≠ none ∧ fs b = none ∧
      (fs.rename fault a b).2 = fun q => if q = b then fs a else if q = a then none else fs q := by
  unfold Files.rename at h ⊢
  split at h
  · cases h
  · rename_i hno
    rw [if_neg hno]
    exact ⟨fun ha => hno (.inr (.inl ha)), by_contra fun hb => hno (.inr (.inr hb)), rfl⟩

theorem rename_refused {fault : Bool} {a b : String} (h : (fs.rename fault a b).1 = false) :
    (fs.rename fault a b).2 = fs := by
  unfold Files.rename at h ⊢
  split at h
  · rename_i hno
    rw [if_pos hno]
  · cases h

theorem hooking (hp : p ≠ "") : Hooking f p fs (File.do_ f p fs) := by
  unfold File.do_
  rw [if_neg hp]
  by_cases hfree : fs (disguise p) = none
  · rw [if_neg (not_not.mpr hfree)]
    dsimp only
    cases hrename : (fs.rename f.rename p (disguise p)).1 with
    | false =>
        rw [if_pos rfl, rename_refused hrename]
        refine .refused fun hboth => ?_
        rw [hrename] at hboth
        cases hboth.2
    | true =>
        obtain ⟨hthere, -, hfiles⟩ := rename_ok hrename
        have hne := disguise_ne p
        rw [if_neg (fun hno => by cases hno), hfiles]
        cases hcopy : f.copy with
        | true =>
            have hfault : ∀ x : Files γ, x.copy true (disguise p) p = (false, x) :=
              fun x => if_pos (.inl rfl)
            rw [hfault]
            refine .stranded hfree hrename hcopy _ ?_
            rw [if_pos rfl]
            exact hthere
        | false =>
            have hdone : Files.copy false (disguise p) p
                (fun q => if q = disguise p then fs p else if q = p then none else fs q) =
                  (true, fun q => if q = disguise p then fs p else fs q) := by
              unfold Files.copy
              rw [if_neg (by simp [hthere, hne.symm])]
              refine Prod.ext rfl (funext fun q => ?_)
              by_cases hq : q = p
              · subst hq
                simp [hne.symm]
              · simp [hq]
            rw [hdone]
            exact .hooked hfree hcopy hthere
  · rw [if_pos hfree]
    exact .refused fun hboth => hfree hboth.1

/-- A file that is hooked is guarded by its disguise. -/
theorem file_bracket (hp : p ≠ "") (free : fs (disguise p) = none) (there : fs p ≠ none) :
    Bracket (· = disguise p) (· = p) (f.back = true) fs
      (fun q => if q = disguise p then fs p else fs q) (File.cleanup p) (File.rollback f p) := by
  have hne := disguise_ne p
  have hrollback : ∀ x : Files γ, File.rollback f p x =
      ((x.remove p).rename f.back (disguise p) p).2 := fun x => if_neg hp
  have hcleanup : ∀ x : Files γ, File.cleanup p x = Files.remove (disguise p) x := fun x => if_neg hp
  have hremoved : ∀ x : Files γ, (x.remove p) (disguise p) = x (disguise p) :=
    fun x => if_neg hne
  constructor
  · exact fun q hq => if_neg hq
  · rintro q rfl
    rw [if_pos rfl]
    exact ⟨free, there⟩
  · rintro q rfl
    rw [if_neg hne.symm]
    exact there
  · rintro x q rfl
    rw [hcleanup]
    exact if_pos rfl
  · intro x q hq
    rw [hcleanup]
    exact if_neg hq
  · intro x q hq hqp
    rw [hrollback]
    unfold Files.rename
    split
    · exact if_neg hqp
    · dsimp only
      rw [if_neg hqp, if_neg hq]
      exact if_neg hqp
  · intro hok x hx
    have hkept : x (disguise p) = fs p := (hx _ rfl).trans (if_pos rfl)
    have hdone : Files.rename f.back (disguise p) p (Files.remove p x) =
        (true, fun q => if q = p then Files.remove p x (disguise p)
          else if q = disguise p then none else Files.remove p x q) := by
      refine if_neg ?_
      rw [hremoved, hkept]
      have hfree : Files.remove p x p = none := if_pos rfl
      simp [hok, there, hfree]
    rw [hrollback, hdone]
    constructor
    · rintro q rfl
      dsimp only
      rw [if_neg hne, if_pos rfl]
    · rintro q rfl
      dsimp only
      rw [if_pos rfl, hremoved, hkept]
  · intro hstuck x hx
    refine ⟨disguise p, rfl, ?_⟩
    have hfailed : Files.rename f.back (disguise p) p (Files.remove p x) =
        (false, Files.remove p x) := if_pos (.inl hstuck)
    rw [hrollback, hfailed]
    refine ne_of_eq_of_ne ((hremoved x).trans ((hx _ rfl).trans (if_pos rfl))) there

theorem removed_all {l : List String} {q : String} :
    l.foldl (fun fs d => Files.remove (disguise d) fs) fs q =
      if q ∈ l.map disguise then none else fs q := by
  induction l generalizing fs with
  | nil => rfl
  | cons d l ih =>
      rw [List.foldl_cons, ih]
      unfold Files.remove
      by_cases hq : q = disguise d
      · simp [hq]
      · simp [hq]

theorem merged_all {l : List String} {q : String} :
    l.foldl (fun fs d => if f.merge d then fs else Files.remove (disguise d) fs) fs q =
      if ∃ d ∈ l, f.merge d = false ∧ q = disguise d then none else fs q := by
  induction l generalizing fs with
  | nil => simp
  | cons d l ih =>
      rw [List.foldl_cons, ih]
      cases hmerge : f.merge d with
      | true => simp [hmerge]
      | false =>
          unfold Files.remove
          by_cases hq : q = disguise d
          · simp [hq, hmerge]
          · simp [hq, hmerge]

theorem disguise_inj {p q : String} (h : disguise p = disguise q) : p = q := by
  unfold disguise at h
  have hlist := congrArg String.toList h
  simp only [String.toList_append, List.append_assoc] at hlist
  exact String.toList_inj.mp (List.append_cancel_right hlist)

/-- Overlays guard nothing, and their disks are left alone. -/
theorem disks_bracket (free : ∀ d ∈ m_disks, fs (disguise d) = none) :
    Bracket (· ∈ m_disks.map disguise) (fun _ => False) (∃ d ∈ m_disks, f.merge d = true) fs
      (fun q => if q ∈ m_disks.map disguise then some overlay else fs q)
      (Disks.cleanup m_disks) (Disks.rollback f m_disks) := by
  constructor
  · exact fun q hq => if_neg hq
  · intro q hq
    rw [if_pos hq]
    obtain ⟨d, hd, rfl⟩ := List.mem_map.mp hq
    exact ⟨free d hd, Option.some_ne_none _⟩
  · exact fun q hno => hno.elim
  · intro x q hq
    exact removed_all.trans (if_pos hq)
  · intro x q hq
    exact removed_all.trans (if_neg hq)
  · intro x q hq _
    refine merged_all.trans (if_neg ?_)
    rintro ⟨d, hd, -, rfl⟩
    exact hq (List.mem_map_of_mem hd)
  · intro hok x _
    refine ⟨fun q hq => merged_all.trans (if_pos ?_), fun _ hno => hno.elim⟩
    obtain ⟨d, hd, rfl⟩ := List.mem_map.mp hq
    refine ⟨d, hd, ?_, rfl⟩
    rw [← Bool.not_eq_true]
    exact fun hmerge => hok ⟨d, hd, hmerge⟩
  · rintro ⟨d, hd, hmerge⟩ x hx
    refine ⟨disguise d, List.mem_map_of_mem hd, ?_⟩
    have hstays : Disks.rollback f m_disks x (disguise d) = x (disguise d) := by
      refine merged_all.trans (if_neg ?_)
      rintro ⟨d', -, hmerge', heq⟩
      rw [disguise_inj heq, hmerge'] at hmerge
      cases hmerge
    rw [hstays, hx _ (List.mem_map_of_mem hd), if_pos (List.mem_map_of_mem hd)]
    exact Option.some_ne_none _

/-- The outcomes of `Disks::do_`. -/
theorem disks_cases (hne : m_disks ≠ []) :
    Disks.do_ f m_disks overlay fs = (false, fs) ∨
    ((∀ d ∈ m_disks, fs (disguise d) = none) ∧ Disks.do_ f m_disks overlay fs =
      (true, fun q => if q ∈ m_disks.map disguise then some overlay else fs q)) := by
  unfold Disks.do_
  rw [if_neg hne]
  split
  · exact .inl rfl
  · rename_i hno
    refine .inr ⟨fun d hd => ?_, rfl⟩
    by_contra hthere
    exact hno (.inr ⟨d, hd, hthere⟩)

section Decorator

variable {do_ next : Files γ → Bool × Files γ} {cleanup rollback : Files γ → Files γ}
  {made guarded : String → Prop} {stuck : Prop} {x : Files γ} {paths : String → Prop}
  {hooked disguised : List String}

/-- What a trick without a stranded call keeps: the paths its work leaves alone, and
after a failure what it hooked. -/
structure Keeps (paths : String → Prop) (hooked : List String) (fs : Files γ)
    (r : Bool × Files γ) : Prop where
  spared : ∀ q, paths q → r.2 q = fs q
  restored : r.1 = false → ∀ q ∈ hooked, r.2 q = fs q

/-- What a stranded call leaves. -/
def Leaves (disguised : List String) (fs : Files γ) (r : Bool × Files γ) : Prop :=
  r.1 = false ∧ ∃ q ∈ disguised, fs q = none ∧ r.2 q ≠ none

theorem decorate_refused (h : (do_ fs).1 = false) :
    decorate do_ cleanup rollback next fs = do_ fs :=
  if_pos h

theorem decorate_done (h : do_ fs = (true, x)) (hnext : (next x).1 = true) :
    decorate do_ cleanup rollback next fs = (true, cleanup (next x).2) := by
  unfold decorate
  rw [h]
  exact (if_neg fun hno => by cases hno).trans (if_pos hnext)

theorem decorate_undone (h : do_ fs = (true, x)) (hnext : (next x).1 = false) :
    decorate do_ cleanup rollback next fs = (false, rollback (next x).2) := by
  unfold decorate
  rw [h]
  refine (if_neg fun hno => by cases hno).trans (if_neg ?_)
  rw [hnext]
  exact Bool.false_ne_true

theorem Keeps.refused : Keeps paths hooked fs (false, fs) :=
  ⟨fun _ _ => rfl, fun _ _ _ => rfl⟩

theorem Keeps.decorate (h : do_ fs = (true, x))
    (bracket : Bracket made guarded stuck fs x cleanup rollback)
    (inner : ∀ q, made q → paths q) (keeps : Keeps paths hooked x (next x))
    (hok : (next x).1 = false → ¬ stuck) :
    (∀ q, paths q → (decorate do_ cleanup rollback next fs).2 q = fs q) ∧
    ((decorate do_ cleanup rollback next fs).1 = false →
      ∀ q, guarded q ∨ q ∈ hooked → (decorate do_ cleanup rollback next fs).2 q = fs q) := by
  cases hnext : (next x).1 with
  | true =>
      rw [decorate_done h hnext]
      exact ⟨fun q hq => bracket.cleanup_same fun _ => keeps.spared q hq,
        fun hno => by cases hno⟩
  | false =>
      rw [decorate_undone h hnext]
      have hmade : ∀ q, made q → (next x).2 q = x q := fun q hq => keeps.spared q (inner q hq)
      refine ⟨fun q hq => bracket.rollback_same (hok hnext) hmade (.inr (keeps.spared q hq)),
        fun _ q hq => bracket.rollback_same (hok hnext) hmade ?_⟩
      exact hq.imp_right (keeps.restored hnext q)

theorem Leaves.decorate (h : do_ fs = (true, x))
    (bracket : Bracket made guarded stuck fs x cleanup rollback)
    (leaves : Leaves disguised x (next x)) :
    Leaves disguised fs (decorate do_ cleanup rollback next fs) := by
  obtain ⟨hnext, q, hq, hbefore, hafter⟩ := leaves
  rw [decorate_undone h hnext]
  obtain ⟨habsent, hstays⟩ := bracket.rollback_keeps hbefore hafter
  exact ⟨rfl, q, hq, habsent, hstays⟩

theorem leaves_stuck (h : do_ fs = (true, x))
    (bracket : Bracket made guarded stuck fs x cleanup rollback)
    (inner : ∀ q, made q → paths q) (keeps : Keeps paths hooked x (next x))
    (hnext : (next x).1 = false) (hstuck : stuck) :
    (decorate do_ cleanup rollback next fs).1 = false ∧
    ∃ q, made q ∧ fs q = none ∧ (decorate do_ cleanup rollback next fs).2 q ≠ none := by
  rw [decorate_undone h hnext]
  exact ⟨rfl, bracket.rollback_leaves hstuck fun q hq => keeps.spared q (inner q hq)⟩

end Decorator

end DispService.Migrate
