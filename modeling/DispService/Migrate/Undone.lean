import DispService.Migrate.Restored

/-! The whole chain of decorators, by induction from the work outwards. -/
namespace DispService.Migrate

open Lib

universe u

variable {γ : Type u} {paths : String → Prop} {t m_next : Trick γ} {f : Nat → Faults}
  {fs : Files γ} {p : String} {m_disks : List String} {overlay : γ}

/-- The disguises that the work must leave alone. -/
def Trick.Within (t : Trick γ) (paths : String → Prop) : Prop :=
  ∀ q ∈ t.disguised, paths q

/-- What holds of a trick in every state: without a stranded call it keeps what it must,
and with one it fails and leaves a disguised file. -/
structure Sound (paths : String → Prop) (t : Trick γ) : Prop where
  keeps : ∀ f fs, ¬ t.Strands f fs → Keeps paths t.hooked fs (t.execute f fs)
  leaves : ∀ f fs, t.Strands f fs → Leaves t.disguised fs (t.execute f fs)

theorem sound_component {m_work : Files γ → Bool × Files γ}
    (spares : ∀ fs q, paths q → (m_work fs).2 q = fs q) :
    Sound paths (Trick.component m_work) where
  keeps := fun _ fs _ => ⟨spares fs, fun _ _ hq => absurd hq List.not_mem_nil⟩
  leaves := fun _ _ hno => hno.elim

theorem file_hooked (hp : p ≠ "") : (Trick.file p m_next).hooked = p :: m_next.hooked :=
  if_neg hp

theorem file_disguised (hp : p ≠ "") :
    (Trick.file p m_next).disguised = disguise p :: m_next.disguised :=
  if_neg hp

/-- Without a path the decorator does nothing. -/
theorem file_empty (f : Nat → Faults) (fs : Files γ) :
    (Trick.file "" m_next).execute f fs = m_next.execute (fun n => f (n + 1)) fs := by
  have hdo : File.do_ (f 0) "" fs = (true, fs) := if_pos rfl
  have hcleanup : ∀ x : Files γ, File.cleanup "" x = x := fun _ => if_pos rfl
  have hrollback : ∀ x : Files γ, File.rollback (f 0) "" x = x := fun _ => if_pos rfl
  cases hnext : (m_next.execute (fun n => f (n + 1)) fs).1 with
  | true => exact (decorate_done hdo hnext).trans (Prod.ext hnext.symm (hcleanup _))
  | false => exact (decorate_undone hdo hnext).trans (Prod.ext hnext.symm (hrollback _))

theorem strands_empty (f : Nat → Faults) (fs : Files γ) :
    (Trick.file "" m_next).Strands f fs ↔ m_next.Strands (fun n => f (n + 1)) fs := by
  rw [Trick.Strands]
  unfold File.do_
  simp

theorem sound_file (sound : Sound paths m_next) (within : (Trick.file p m_next).Within paths) :
    Sound paths (.file p m_next) := by
  by_cases hp : p = ""
  · subst hp
    constructor
    · intro f fs hno
      rw [strands_empty] at hno
      rw [file_empty]
      exact sound.keeps _ fs hno
    · intro f fs hyes
      rw [strands_empty] at hyes
      rw [file_empty]
      exact sound.leaves _ fs hyes
  · have hpath : paths (disguise p) := by
      refine within _ ?_
      rw [file_disguised hp]
      exact List.mem_cons_self
    have hinner : ∀ q, q = disguise p → paths q := by
      rintro q rfl
      exact hpath
    constructor
    · intro f fs hno
      rw [Trick.Strands, not_or] at hno
      obtain ⟨hcopy, hrest⟩ := hno
      rw [Trick.execute, file_hooked hp]
      have hhooking := @hooking _ fs (f 0) p hp
      generalize hdo : File.do_ (f 0) p fs = r at hhooking hrest
      cases hhooking with
      | refused =>
          rw [decorate_refused (by rw [hdo]), hdo]
          exact .refused
      | stranded free renamed copy => exact absurd ⟨hp, free, renamed, copy⟩ hcopy
      | hooked free copied there =>
          obtain ⟨hnext, hback⟩ := not_or.mp fun h => hrest ⟨rfl, h⟩
          obtain ⟨hspared, hrestored⟩ := Keeps.decorate hdo (@file_bracket _ fs (f 0) p hp free there)
            hinner (sound.keeps _ _ hnext) fun hfailed hstuck => hback ⟨hfailed, hp, hstuck⟩
          refine ⟨hspared, fun hfailed q hq => hrestored hfailed q ?_⟩
          exact List.mem_cons.mp hq
    · intro f fs hyes
      rw [Trick.Strands] at hyes
      rw [Trick.execute, file_disguised hp]
      have hhooking := @hooking _ fs (f 0) p hp
      generalize hdo : File.do_ (f 0) p fs = r at hhooking hyes
      cases hhooking with
      | refused h =>
          rcases hyes with ⟨-, free, renamed, -⟩ | ⟨hok, -⟩
          · exact absurd ⟨free, renamed⟩ h
          · cases hok
      | stranded free renamed copy x left =>
          rw [decorate_refused (by rw [hdo]), hdo]
          exact ⟨rfl, disguise p, List.mem_cons_self, free, left⟩
      | hooked free copied there =>
          have hbracket := @file_bracket _ fs (f 0) p hp free there
          rcases hyes with ⟨-, -, -, copy⟩ | ⟨-, hstrands | ⟨hfailed, -, hback⟩⟩
          · rw [copied] at copy
            cases copy
          · obtain ⟨hfailed, q, hq, hleft⟩ :=
              (sound.leaves _ _ hstrands).decorate hdo hbracket
            exact ⟨hfailed, q, List.mem_cons_of_mem _ hq, hleft⟩
          · by_cases hstrands : m_next.Strands (fun n => f (n + 1))
              fun q => if q = disguise p then fs p else fs q
            · obtain ⟨hfailed, q, hq, hleft⟩ :=
                (sound.leaves _ _ hstrands).decorate hdo hbracket
              exact ⟨hfailed, q, List.mem_cons_of_mem _ hq, hleft⟩
            · obtain ⟨hresult, q, rfl, hleft⟩ :=
                leaves_stuck hdo hbracket hinner (sound.keeps _ _ hstrands) hfailed hback
              exact ⟨hresult, disguise p, List.mem_cons_self, hleft⟩

theorem disks_nil_do (f : Faults) (overlay : γ) (fs : Files γ) :
    Disks.do_ f [] overlay fs = (true, fs) :=
  if_pos rfl

/-- Without disks the decorator does nothing. -/
theorem disks_empty (f : Nat → Faults) (fs : Files γ) :
    (Trick.disks [] overlay m_next).execute f fs = m_next.execute (fun n => f (n + 1)) fs := by
  have hdo := disks_nil_do (f 0) overlay fs
  cases hnext : (m_next.execute (fun n => f (n + 1)) fs).1 with
  | true => exact (decorate_done hdo hnext).trans (Prod.ext hnext.symm rfl)
  | false => exact (decorate_undone hdo hnext).trans (Prod.ext hnext.symm rfl)

theorem strands_disks_empty (f : Nat → Faults) (fs : Files γ) :
    (Trick.disks [] overlay m_next).Strands f fs ↔ m_next.Strands (fun n => f (n + 1)) fs := by
  rw [Trick.Strands, disks_nil_do]
  simp

theorem sound_disks (sound : Sound paths m_next)
    (within : (Trick.disks m_disks overlay m_next).Within paths) :
    Sound paths (.disks m_disks overlay m_next) := by
  by_cases hdisks : m_disks = []
  · subst hdisks
    constructor
    · intro f fs hno
      rw [strands_disks_empty] at hno
      rw [disks_empty]
      exact sound.keeps _ fs hno
    · intro f fs hyes
      rw [strands_disks_empty] at hyes
      rw [disks_empty]
      exact sound.leaves _ fs hyes
  · have hinner : ∀ q, q ∈ m_disks.map disguise → paths q :=
      fun q hq => within q (List.mem_append_left _ hq)
    constructor
    · intro f fs hno
      rw [Trick.Strands] at hno
      rw [Trick.execute]
      rcases @disks_cases _ fs (f 0) m_disks overlay hdisks with hdo | ⟨free, hdo⟩
      · rw [decorate_refused (by rw [hdo]), hdo]
        exact .refused
      · rw [hdo] at hno
        obtain ⟨hnext, hback⟩ := not_or.mp fun h => hno ⟨rfl, h⟩
        obtain ⟨hspared, hrestored⟩ := Keeps.decorate hdo (@disks_bracket _ fs (f 0) m_disks overlay free)
          hinner (sound.keeps _ _ hnext) fun hfailed hstuck => hback ⟨hfailed, hstuck⟩
        exact ⟨hspared, fun hfailed q hq => hrestored hfailed q (.inr hq)⟩
    · intro f fs hyes
      rw [Trick.Strands] at hyes
      rw [Trick.execute]
      rcases @disks_cases _ fs (f 0) m_disks overlay hdisks with hdo | ⟨free, hdo⟩
      · rw [hdo] at hyes
        cases hyes.1
      · have hbracket := @disks_bracket _ fs (f 0) m_disks overlay free
        rw [hdo] at hyes
        have hdeeper : m_next.Strands (fun n => f (n + 1))
            (fun q => if q ∈ m_disks.map disguise then some overlay else fs q) →
            Leaves (Trick.disks m_disks overlay m_next).disguised fs
              (decorate (Disks.do_ (f 0) m_disks overlay) (Disks.cleanup m_disks)
                (Disks.rollback (f 0) m_disks) (m_next.execute fun n => f (n + 1)) fs) := by
          intro hstrands
          obtain ⟨hfailed, q, hq, hleft⟩ := (sound.leaves _ _ hstrands).decorate hdo hbracket
          exact ⟨hfailed, q, List.mem_append_right _ hq, hleft⟩
        rcases hyes.2 with hstrands | ⟨hfailed, hmerge⟩
        · exact hdeeper hstrands
        · by_cases hstrands : m_next.Strands (fun n => f (n + 1))
            fun q => if q ∈ m_disks.map disguise then some overlay else fs q
          · exact hdeeper hstrands
          · obtain ⟨hresult, q, hq, hleft⟩ :=
              leaves_stuck hdo hbracket hinner (sound.keeps _ _ hstrands) hfailed hmerge
            exact ⟨hresult, q, List.mem_append_left _ hq, hleft⟩

theorem Trick.sound (spares : t.Spares paths) (within : t.Within paths) : Sound paths t := by
  induction t with
  | null =>
      exact ⟨fun _ _ _ => ⟨fun _ _ => rfl, fun hno => by cases hno⟩, fun _ _ hno => hno.elim⟩
  | component m_work => exact sound_component spares
  | file m_path m_next ih =>
      refine sound_file (ih spares fun q hq => within q ?_) within
      unfold Trick.disguised
      split
      · exact hq
      · exact List.mem_cons_of_mem _ hq
  | disks m_disks overlay m_next ih =>
      exact sound_disks (ih spares fun q hq => within q (List.mem_append_right _ hq)) within

/-- A chain keeps its promise just when no call in it strands a file. The work inside may
do anything but touch a disguised file. -/
theorem promised_iff (t : Trick γ) (f : Nat → Faults) (fs : Files γ)
    (spares : t.Spares (· ∈ t.disguised)) : Promised t f fs ↔ ¬ t.Strands f fs := by
  have sound : Sound (· ∈ t.disguised) t := t.sound spares fun _ hq => hq
  constructor
  · intro promised hstrands
    obtain ⟨-, q, hq, hbefore, hafter⟩ := sound.leaves f fs hstrands
    exact hafter ((promised.swept q hq).trans hbefore)
  · intro hno
    obtain ⟨hspared, hrestored⟩ := sound.keeps f fs hno
    exact ⟨hrestored, hspared⟩

/-- A migration that spoils a file and fails, around one disk and the file. -/
theorem spoiled_restored :
    let work : Files Nat → Bool × Files Nat :=
      fun fs => (false, fun q => if q = "nvram" then some 0 else fs q)
    Promised (.file "nvram" (.disks ["a.hdd"] 9 (.component work))) (fun _ => {})
      (fun q => if q = "nvram" then some 7 else none) := by
  intro work
  refine (promised_iff (.file "nvram" (.disks ["a.hdd"] 9 (.component work))) (fun _ => {})
    (fun q => if q = "nvram" then some 7 else none) ?_).mpr ?_
  · intro fs q hq
    refine if_neg ?_
    rintro rfl
    revert hq
    decide
  · simp [Trick.Strands]

/-- The copy fails after the rename: the file is left under its disguise. -/
theorem copy_strands : ¬ ∀ (t : Trick Nat) (f : Nat → Faults) (fs : Files Nat),
    t.Spares (· ∈ t.disguised) → Promised t f fs := by
  intro h
  have hpromised := h (.file "nvram" .null) (fun _ => { copy := true })
    (fun q => if q = "nvram" then some 7 else none) trivial
  have hrestored := hpromised.restored rfl "nvram" (by decide)
  exact absurd hrestored (by decide)

end DispService.Migrate
