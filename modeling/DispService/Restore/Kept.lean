import DispService.Restore.Slots

/-! When the old content of a target survives, as a condition on what is there before
the move and on the calls that are carried out. -/
namespace DispService.Restore

open DispService.Lib FileSystem

section Conditions

variable (kinds : String → Option Kind) (i : Item)

/-- No old `.restore` is left when the target is set aside. -/
def Cleared : Prop :=
  kinds i.restore = none ∨ i.may .asideUnlink = true

/-- The constructor moves the target, and nothing but it, to `.restore`. -/
def AsideWhole : Prop :=
  i.may .aside = true ∧
    (Cleared kinds i ∨ kinds i.restore = some .file ∧ kinds i.dst = some .file)

/-- The constructor leaves the target where it is, and says nothing. -/
def InPlace : Prop :=
  i.may .aside = false ∨
    ¬ Cleared kinds i ∧ kinds i.restore = some .file ∧ kinds i.dst = some .folder

/-- The target survives a move that is not done. -/
def SafeDropped : Prop :=
  AsideWhole kinds i ∨
    InPlace kinds i ∧
      (Cleared kinds i ∨ i.may .dropRename = false ∨
        kinds i.restore = some .folder ∧ kinds i.dst = some .file)

/-- The target survives a move that is done and reverted: it is put back, or what is left
of it at `.restore` cannot be removed by the destructor. -/
def SafeReverted : Prop :=
  AsideWhole kinds i ∧
    (i.may .revertUnlink = true ∧ i.may .revertRename = true ∨
      i.may .destroyCommit = false ∧ i.may .destroyTrash = false)

/-- The source takes the place of the target, and is not moved into it. -/
def SafeDone : Prop :=
  kinds i.dst = some .folder → ¬ InPlace kinds i

/-- The move gets done. -/
def Moves : Prop :=
  i.from_ = "" ∨
    i.may .do_ = true ∧ kinds i.from_ ≠ none ∧
      (InPlace kinds i → kinds i.dst = some .file → kinds i.from_ = some .file)

instance : Decidable (Cleared kinds i) :=
  inferInstanceAs (Decidable (_ ∨ _))

instance : Decidable (AsideWhole kinds i) :=
  inferInstanceAs (Decidable (_ ∧ _))

instance : Decidable (InPlace kinds i) :=
  inferInstanceAs (Decidable (_ ∨ _))

instance : Decidable (SafeDropped kinds i) :=
  inferInstanceAs (Decidable (_ ∨ _))

instance : Decidable (SafeReverted kinds i) :=
  inferInstanceAs (Decidable (_ ∧ _))

instance : Decidable (SafeDone kinds i) :=
  inferInstanceAs (Decidable (_ → _))

instance : Decidable (Moves kinds i) :=
  inferInstanceAs (Decidable (_ ∨ _ ∧ _ ∧ (_ → _ → _)))

end Conditions

/-- The content is at the target or at its `.restore`. -/
def Slots.Keeps (s : Slots) (c : Content) : Prop :=
  s.dst = some c ∨ s.restore = some c

section Survival

variable {kinds : String → Option Kind} {i : Item}

/-- What the constructor leaves. -/
theorem setAside_initial :
    (slots i (initial kinds)).setAside i.may =
      ⟨initial kinds i.from_,
        (Slots.transfer (i.may .aside) (initial kinds i.dst)
          (Slots.clear (i.may .asideUnlink) (initial kinds i.restore))).1,
        (Slots.transfer (i.may .aside) (initial kinds i.dst)
          (Slots.clear (i.may .asideUnlink) (initial kinds i.restore))).2⟩ :=
  rfl

theorem setAside_restore (hne : i.dst ≠ i.restore) {k : Kind} (hk : kinds i.dst = some k) :
    ((slots i (initial kinds)).setAside i.may).restore = some ⟨i.dst, k, []⟩ ↔
      AsideWhole kinds i := by
  rw [setAside_initial]
  unfold AsideWhole Cleared Slots.transfer Slots.put Slots.clear initial
  cases hmay : i.may .aside <;> cases hunlink : i.may .asideUnlink <;> cases k <;>
    cases hr : kinds i.restore with
    | none => simp [hk, mv]
    | some k' => cases k' <;> simp [hk, mv, hne.symm]

theorem setAside_dst_eq_none {k : Kind} (hk : kinds i.dst = some k) :
    ((slots i (initial kinds)).setAside i.may).dst = none ↔ ¬ InPlace kinds i := by
  rw [setAside_initial]
  unfold InPlace Cleared Slots.transfer Slots.put Slots.clear initial
  cases hmay : i.may .aside <;> cases hunlink : i.may .asideUnlink <;> cases k <;>
    cases hr : kinds i.restore with
    | none => simp [hk, mv]
    | some k' => cases k' <;> simp [hk, mv]

/-- The target is either gone or as it was. -/
theorem setAside_dst_or :
    ((slots i (initial kinds)).setAside i.may).dst = none ∨
      ((slots i (initial kinds)).setAside i.may).dst = initial kinds i.dst := by
  rw [setAside_initial]
  unfold Slots.transfer
  split
  · exact Or.inr rfl
  · exact Or.inl rfl

theorem setAside_dst_none (hk : kinds i.dst = none) :
    ((slots i (initial kinds)).setAside i.may).dst = none := by
  rw [setAside_initial]
  unfold Slots.transfer Slots.put initial
  cases hmay : i.may .aside <;> simp [hk, mv]

theorem dropped_keeps (hne : i.dst ≠ i.restore) {k : Kind} (hk : kinds i.dst = some k) :
    (((slots i (initial kinds)).setAside i.may).dropMove i.may).Keeps ⟨i.dst, k, []⟩ ↔
      SafeDropped kinds i := by
  rw [setAside_initial]
  unfold SafeDropped AsideWhole InPlace Cleared Slots.Keeps Slots.dropMove Slots.transfer
    Slots.put Slots.clear initial
  cases hmay : i.may .aside <;> cases hunlink : i.may .asideUnlink <;>
    cases hdrop : i.may .dropRename <;> cases k <;>
    cases hr : kinds i.restore with
    | none => simp [hk, mv]
    | some k' => cases k' <;> simp [hk, mv, hne.symm]

/-- What reverting a done move leaves of a content that is not at the target. -/
theorem reverted_keeps {may : Site → Bool} {s : Slots} {c : Content} (hdst : s.dst ≠ none)
    (hne : s.dst ≠ some c) :
    (s.revertMove may).Keeps c ↔
      s.restore = some c ∧
        (may .revertUnlink = true ∧ may .revertRename = true ∨
          may .destroyCommit = false ∧ may .destroyTrash = false) := by
  obtain ⟨src, dst, restore⟩ := s
  obtain ⟨d, rfl⟩ := Option.ne_none_iff_exists'.mp hdst
  unfold Slots.Keeps Slots.revertMove Slots.destroyDone Slots.put Slots.clear
  cases hback : may .revertUnlink <;> cases hrename : may .revertRename <;>
    cases hcommit : may .destroyCommit <;> cases htrash : may .destroyTrash <;>
    cases restore <;> simp_all [mv]

/-- What the move finds when it is done. -/
theorem put_isSome (hfrom : i.from_ ≠ "") :
    (Slots.put (i.may .do_) ((slots i (initial kinds)).setAside i.may).src
      ((slots i (initial kinds)).setAside i.may).dst).isSome = true ↔ Moves kinds i := by
  have hsrc : ((slots i (initial kinds)).setAside i.may).src = initial kinds i.from_ := rfl
  rw [hsrc]
  unfold Moves
  cases hk : kinds i.dst with
  | none =>
      rw [setAside_dst_none hk]
      unfold Slots.put initial
      cases i.may .do_ <;> cases hs : kinds i.from_ <;> simp [mv, hfrom]
  | some k =>
      by_cases hin : InPlace kinds i
      · have hdst := setAside_dst_or.resolve_left fun h => (setAside_dst_eq_none hk).mp h hin
        rw [hdst]
        unfold Slots.put initial
        cases i.may .do_ <;> cases k <;> cases hs : kinds i.from_ with
        | none => simp [hk, mv, hfrom]
        | some k' => cases k' <;> simp [hk, mv, hfrom, hin]
      · rw [(setAside_dst_eq_none hk).mpr hin]
        unfold Slots.put initial
        cases i.may .do_ <;> cases hs : kinds i.from_ <;> simp [mv, hfrom, hin]

/-- What a move that is done leaves at its target is never what was there. -/
theorem mv_ne {a b : Option Content} {c y : Content} (hy : mv a b = some y)
    (ha : ∀ x, a = some x → x.origin ≠ c.origin) (hb : b = none ∨ b = some c)
    (hc : c.inside = []) : y ≠ c := by
  intro heq
  subst heq
  cases a with
  | none => cases hy
  | some x =>
      cases hb with
      | inl hnone =>
          subst hnone
          exact ha x rfl (congrArg Content.origin (Option.some.inj hy))
      | inr hsome =>
          subst hsome
          obtain ⟨origin, kind, inside⟩ := y
          obtain ⟨origin', kind', inside'⟩ := x
          cases kind <;> cases kind' <;> simp_all [mv]

theorem doMove_eq_put {may : Site → Bool} {s : Slots} {y : Content}
    (h : Slots.put (may .do_) s.src s.dst = some y) :
    s.doMove may = ⟨none, some y, s.restore⟩ := by
  unfold Slots.doMove Slots.transfer
  rw [h]

theorem put_eq_mv {may : Bool} {a b : Option Content} {y : Content}
    (h : Slots.put may a b = some y) : mv a b = some y := by
  unfold Slots.put at h
  split at h
  · exact h
  · cases h

section Done

variable (hfrom : i.from_ ≠ "") (hmoves : Moves kinds i)
include hfrom hmoves

theorem done_reverted_keeps (hsrc : i.from_ ≠ i.dst) (hne : i.dst ≠ i.restore) {k : Kind}
    (hk : kinds i.dst = some k) :
    ((((slots i (initial kinds)).setAside i.may).doMove i.may).revertMove i.may).Keeps
      ⟨i.dst, k, []⟩ ↔ SafeReverted kinds i := by
  obtain ⟨y, hput⟩ := Option.isSome_iff_exists.mp ((put_isSome hfrom).mpr hmoves)
  have hy : y ≠ ⟨i.dst, k, []⟩ := by
    apply mv_ne (put_eq_mv hput)
    · intro x hx
      have hinit : initial kinds i.from_ = some x := hx
      unfold initial at hinit
      cases hs : kinds i.from_ with
      | none => simp [hs] at hinit
      | some k' =>
          simp only [hs, Option.map_some, Option.some.injEq] at hinit
          subst hinit
          exact hsrc
    · have hold : initial kinds i.dst = some ⟨i.dst, k, []⟩ := by
        unfold initial
        rw [hk]
        rfl
      exact hold ▸ setAside_dst_or
    · rfl
  rw [doMove_eq_put hput]
  apply (reverted_keeps (Option.some_ne_none y) fun h => hy (Option.some.inj h)).trans
  exact and_congr_left' (setAside_restore hne hk)

theorem done_dst (hsrc : i.from_ ≠ i.dst) :
    (((slots i (initial kinds)).setAside i.may).doMove i.may).dst = initial kinds i.from_ ↔
      SafeDone kinds i := by
  obtain ⟨y, hput⟩ := Option.isSome_iff_exists.mp ((put_isSome hfrom).mpr hmoves)
  have hmv := put_eq_mv hput
  have hinit : ((slots i (initial kinds)).setAside i.may).src = initial kinds i.from_ := rfl
  rw [doMove_eq_put hput]
  rw [hinit] at hmv
  unfold SafeDone
  cases hk : kinds i.dst with
  | none =>
      rw [setAside_dst_none hk] at hmv
      cases hs : initial kinds i.from_ with
      | none => simp [hs, mv] at hmv
      | some x => simp_all [mv]
  | some k =>
      by_cases hin : InPlace kinds i
      · have hdst := setAside_dst_or.resolve_left fun h => (setAside_dst_eq_none hk).mp h hin
        rw [hdst] at hmv
        unfold initial at hmv ⊢
        cases hs : kinds i.from_ with
        | none => simp [hs, mv] at hmv
        | some k' =>
            rw [hs, hk] at hmv
            cases k with
            | file => cases k' <;> simp_all [mv]
            | folder =>
                have hy : y = ⟨i.dst, .folder, [i.from_]⟩ := (Option.some.inj hmv).symm
                simp [hy, hin, hsrc.symm]
      · rw [(setAside_dst_eq_none hk).mpr hin] at hmv
        cases hs : initial kinds i.from_ with
        | none => simp [hs, mv] at hmv
        | some x => simp_all [mv]

end Done

end Survival

end DispService.Restore
