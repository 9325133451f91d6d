import DispService.Backup.Deleted

/-! What is left of a sequence when a removal stops half-way: the items that still have their
folder, their archive files, and the files that these are based on. -/
namespace DispService.Backup

open Remove

/-- Every item that has its folder can be restored. -/
structure Restorable (q : Sequence) (s : Store) : Prop where
  files : ∀ n ∈ q.index, s.lair q.m_uuid n = true → ∀ f ∈ q.files n, s.file f = true
  bases : ∀ n ∈ q.index, s.lair q.m_uuid n = true → ∀ f ∈ q.files n, ∀ g ∈ s.base f,
    s.file g = true

/-- A sequence on disk: each item is based on the one before it. -/
structure Chain (q : Sequence) where
  store : Store
  lair : ∀ n ∈ q.index, store.lair q.m_uuid n = true
  file : ∀ n ∈ q.index, ∀ f ∈ q.files n, store.file f = true
  base : ∀ n ∈ q.index, ∀ f ∈ q.files n, ∀ g ∈ store.base f, ∃ m, q.Follows m n ∧ g ∈ q.files m

theorem Chain.restorable {q : Sequence} (c : Chain q) : Restorable q c.store where
  files := fun n hn _ => c.file n hn
  bases := by
    intro n hn _ f hf g hg
    obtain ⟨m, hfollows, hm⟩ := c.base n hn f hf g hg
    exact c.file m hfollows.mem.1 g hm

section Removal

variable {q : Sequence} {s : Store} {a : Nat}

/-- Fewer items have their folder, and the files are as they were. -/
theorem Restorable.clear_item (h : Restorable q s) (left : Left) :
    Restorable q (s.clear (.item q.m_uuid a) left) := by
  have hfile : ∀ f, s.file f = true → (s.clear (.item q.m_uuid a) left).file f = true := by
    intro f hf
    unfold Store.clear Folder.hasFile
    dsimp only
    rw [hf]
    rfl
  constructor
  · intro n hn hlair f hf
    exact hfile f (h.files n hn (Bool.and_eq_true_iff.mp hlair).1 f hf)
  · intro n hn hlair f hf g hg
    exact hfile g (h.bases n hn (Bool.and_eq_true_iff.mp hlair).1 f hf g hg)

/-- Nothing that has its folder is based on the files of the item. -/
structure Free (q : Sequence) (a : Nat) (s : Store) : Prop where
  lair : s.lair q.m_uuid a = false
  base : ∀ n ∈ q.index, n ≠ a → ∀ f ∈ q.files n, ∀ g ∈ q.files a, s.base f ≠ some g

theorem Restorable.unlink (h : Restorable q s) (hfree : Free q a s) {g : File}
    (hg : g ∈ q.files a) : Restorable q ((Action.unlink g).perform s).2 := by
  have hkeep : ∀ f, f ≠ g → s.file f = true → ((Action.unlink g).perform s).2.file f = true :=
    fun f hne hf => Bool.and_eq_true_iff.mpr ⟨hf, bne_iff_ne.mpr hne⟩
  have hother : ∀ n, s.lair q.m_uuid n = true → n ≠ a := by
    intro n hlair heq
    rw [heq, hfree.lair] at hlair
    cases hlair
  constructor
  · intro n hn hlair f hf
    have hne := hother n hlair
    apply hkeep f _ (h.files n hn hlair f hf)
    intro heq
    exact hne (Sequence.files_apart (heq ▸ hf) hg)
  · intro n hn hlair f hf b hb
    have hne := hother n hlair
    apply hkeep b _ (h.bases n hn hlair f hf b hb)
    intro heq
    exact hfree.base n hn hne f hf g hg (heq ▸ hb)

theorem holds_unlinks (h : Restorable q s) (hfree : Free q a s) {l : List File}
    (hl : ∀ g ∈ l, g ∈ q.files a) : Holds (Restorable q) (l.map .unlink) s := by
  induction l generalizing s with
  | nil => exact holds_nil.mpr h
  | cons g l ih =>
      obtain ⟨hg, hl⟩ := List.forall_mem_cons.mp hl
      rw [List.map_cons, holds_cons rfl]
      constructor
      · exact fun _ => h
      · exact ih (h.unlink hfree hg) ⟨hfree.lair, hfree.base⟩ hl

/-- An item may go if nothing else is based on its files. -/
theorem holds_unlinkItem (ha : a ∈ q.index) (h : Restorable q s)
    (hbase : (q.loadFromFile a).failed = false →
      ∀ n ∈ q.index, n ≠ a → ∀ f ∈ q.files n, ∀ g ∈ q.files a, s.base f ≠ some g) :
    Holds (Restorable q) (unlinkItem (Item.loaded q a)) s := by
  cases hload : (q.loadFromFile a).failed
  · rw [unlinkItem_ok ha hload, holds_cons rfl]
    constructor
    · exact fun left => h.clear_item left
    · have hfree : Free q a ((Action.rmdir (.item q.m_uuid a)).perform s).2 := by
        constructor
        · unfold Action.perform Store.clear Folder.hasLair
          simp
        · exact hbase hload
      exact holds_unlinks (h.clear_item _) hfree fun _ hg => hg
  · rw [unlinkItem_failed hload, holds_cons rfl, holds_nil]
    have hsame : ∀ left, (Action.rmdir .unnamed).interrupted left s = s := fun _ => clear_unnamed _
    have hend : ((Action.rmdir .unnamed).perform s).2 = s := clear_unnamed _
    rw [hend]
    exact ⟨fun left => (hsame left).symm ▸ h, h⟩

/-- What neither rebases nor saves keeps what the files are based on. -/
theorem unlinkItem_base (x : Item) (s : Store) : (performAll (unlinkItem x) s).base = s.base := by
  have hunlinks : ∀ (l : List File) (s : Store),
      (performAll (l.map .unlink) s).base = s.base := by
    intro l
    induction l with
    | nil => exact fun _ => rfl
    | cons g l ih => exact fun s => ih _
  exact hunlinks x.m_files _

theorem Holds.performAll {P : Store → Prop} {l : List Action} (h : Holds P l s)
    (hl : ∀ a ∈ l, a.removes = true) : P (performAll l s) := by
  have hrun := run_none hl s
  have hend := h none
  rw [hrun] at hend
  exact hend

end Removal

section Flavor

variable {q : Sequence} {number : Nat}

/-- The items after the requested one may go in the order of the index. -/
def TailSafe (c : Chain q) (number : Nat) : Prop :=
  ∀ m n, number ≤ m → q.Follows m n → (q.loadFromFile m).failed = false →
    ∀ f ∈ q.files n, ∀ g ∈ q.files m, c.store.base f ≠ some g

theorem holds_tail (c : Chain q) (hsafe : TailSafe c number) {l : List Nat}
    (hl : ∀ a ∈ l, a ∈ q.index ∧ number ≤ a) {s : Store} (h : Restorable q s)
    (hbase : s.base = c.store.base) :
    Holds (Restorable q) (l.flatMap fun a => unlinkItem (Item.loaded q a)) s := by
  induction l generalizing s with
  | nil => exact holds_nil.mpr h
  | cons a l ih =>
      obtain ⟨⟨ha, hle⟩, hl⟩ := List.forall_mem_cons.mp hl
      have hitem : Holds (Restorable q) (unlinkItem (Item.loaded q a)) s := by
        apply holds_unlinkItem ha h
        intro hload n hn hne f hf g hg hfg
        rw [hbase] at hfg
        obtain ⟨m, hfollows, hm⟩ := c.base n hn f hf g hfg
        have heq := Sequence.files_apart hm hg
        subst heq
        exact hsafe m n hle hfollows hload f hf g hg hfg
      have hremoves := unlinkItem_removes (Item.loaded q a)
      rw [List.flatMap_cons, holds_append hremoves]
      constructor
      · exact hitem
      · apply ih hl (hitem.performAll hremoves)
        rw [unlinkItem_base, hbase]

theorem flatMap_base (l : List Nat) (s : Store) :
    (performAll (l.flatMap fun n => unlinkItem (Item.loaded q n)) s).base = s.base := by
  induction l generalizing s with
  | nil => rfl
  | cons n l ih => rw [List.flatMap_cons, performAll_append, ih, unlinkItem_base]

/-- The item after one that is gone is still there, and based on it. -/
theorem tailSafe_of_holds (c : Chain q)
    (h : Holds (Restorable q)
      ((q.index.filter (number ≤ ·)).flatMap fun a => unlinkItem (Item.loaded q a)) c.store) :
    TailSafe c number := by
  intro m n hle hfollows hload f hf g hg hfg
  have hlt := hfollows.lt
  obtain ⟨hm, hn⟩ := hfollows.mem
  obtain ⟨pre, post, hindex⟩ := hfollows
  have hnodup := q.nodup
  rw [hindex] at hnodup
  have hsplit : (pre ++ m :: n :: post).filter (number ≤ ·) =
      (pre.filter (number ≤ ·) ++ [m]) ++ (n :: post).filter (number ≤ ·) := by
    have hcons : (m :: n :: post).filter (number ≤ ·) = m :: (n :: post).filter (number ≤ ·) :=
      List.filter_cons_of_pos (by exact decide_eq_true hle)
    rw [List.filter_append, hcons, List.append_assoc]
    rfl
  have hbefore : n ∉ pre.filter (number ≤ ·) ++ [m] := by
    intro hin
    have hfront : List.Perm ((pre ++ [m]) ++ n :: post) (n :: ((pre ++ [m]) ++ post)) :=
      List.perm_middle
    have hnot := (List.nodup_cons.mp
      (hfront.nodup_iff.mp (by rw [List.append_assoc]; exact hnodup))).1
    cases List.mem_append.mp hin with
    | inl hpre =>
        exact hnot (List.mem_append_left _ (List.mem_append_left _ (List.mem_of_mem_filter hpre)))
    | inr hm => exact hnot (List.mem_append_left _ (List.mem_append_right _ hm))
  rw [hindex, hsplit, List.flatMap_append, holds_append (flatMap_removes _)] at h
  have hrest := h.2.self
  have hlair := (unlinkItems_lair (fun hno => absurd hno hbefore) c.store).trans (c.lair n hn)
  have hbase := congrFun (flatMap_base (q := q) (pre.filter (number ≤ ·) ++ [m]) c.store) f
  have hfile := hrest.bases n hn hlair f hf g (hbase.trans hfg)
  rw [List.flatMap_append, performAll_append, List.flatMap_cons, List.flatMap_nil,
    List.append_nil, unlinkItem_file ⟨hm, hload⟩ hg] at hfile
  cases hfile

end Flavor

section Shifter

variable {q : Sequence} {s : Store}

/-- The actions that give files of the item `n` a base among the given files. -/
def Rebases (q : Sequence) (n : Nat) (bases : List File) (l : List Action) : Prop :=
  ∀ a ∈ l, ∃ f b, a = .rebase f b ∧ f ∈ q.files n ∧ ∀ g ∈ b, g ∈ bases

theorem Rebases.removes {n : Nat} {bases : List File} {l : List Action}
    (h : Rebases q n bases l) : ∀ a ∈ l, a.removes = true := by
  intro a ha
  obtain ⟨f, b, rfl, -⟩ := h a ha
  rfl

/-- What the rebased files are based on, and that nothing else changes. -/
structure Rebased (q : Sequence) (n : Nat) (bases : List File) (s s' : Store) : Prop where
  lair : s'.lair = s.lair
  file : s'.file = s.file
  other : ∀ f, f ∉ q.files n → s'.base f = s.base f
  base : ∀ f, s'.base f = s.base f ∨ ∀ g ∈ s'.base f, g ∈ bases

theorem Rebased.restorable {n : Nat} {bases : List File} {s' : Store}
    (h : Rebased q n bases s s') (hs : Restorable q s) (hbases : ∀ g ∈ bases, s.file g = true) :
    Restorable q s' := by
  constructor
  · intro k hk hlair f hf
    rw [h.lair] at hlair
    rw [h.file]
    exact hs.files k hk hlair f hf
  · intro k hk hlair f hf g hg
    rw [h.lair] at hlair
    rw [h.file]
    cases h.base f with
    | inl hsame => exact hs.bases k hk hlair f hf g (hsame ▸ hg)
    | inr hnew => exact hbases g (hnew g hg)

theorem rebased_performAll {n : Nat} {bases : List File} {l : List Action}
    (hl : Rebases q n bases l) (s : Store) :
    Rebased q n bases s (performAll l s) ∧
      ∀ f b, .rebase f b ∈ l → ∀ g ∈ (performAll l s).base f, g ∈ bases := by
  induction l generalizing s with
  | nil =>
      refine ⟨⟨rfl, rfl, fun _ _ => rfl, fun _ => Or.inl rfl⟩, ?_⟩
      exact fun f b hin => absurd hin List.not_mem_nil
  | cons a l ih =>
      obtain ⟨f, b, rfl, hf, hb⟩ := hl a List.mem_cons_self
      have hrest := fun x hx => hl x (List.mem_cons_of_mem _ hx)
      let s' := ((Action.rebase f b).perform s).2
      obtain ⟨hrebased, hdone⟩ := ih hrest s'
      have hself : s'.base f = b := if_pos rfl
      have hne : ∀ x, x ≠ f → s'.base x = s.base x := fun x hx => if_neg hx
      refine ⟨⟨hrebased.lair, hrebased.file, ?_, ?_⟩, ?_⟩
      · intro x hx
        apply (hrebased.other x hx).trans
        exact hne x fun heq => hx (heq ▸ hf)
      · intro x
        by_cases hx : x = f
        · subst hx
          apply Or.inr
          cases hrebased.base x with
          | inl hsame =>
              intro g hg
              have hg : g ∈ (performAll l s').base x := hg
              rw [hsame, hself] at hg
              exact hb g hg
          | inr hnew => exact hnew
        · exact hne x hx ▸ hrebased.base x
      · intro x c hin
        cases List.mem_cons.mp hin with
        | inr hin => exact hdone x c hin
        | inl heq =>
            cases heq
            intro g hg
            cases hrebased.base f with
            | inl hsame =>
                have hg : g ∈ (performAll l s').base f := hg
                rw [hsame, hself] at hg
                exact hb g hg
            | inr hnew => exact hnew g hg

theorem holds_rebases {n : Nat} {bases : List File} {l : List Action}
    (hl : Rebases q n bases l) (hs : Restorable q s) (hbases : ∀ g ∈ bases, s.file g = true) :
    Holds (Restorable q) l s := by
  induction l generalizing s with
  | nil => exact holds_nil.mpr hs
  | cons a l ih =>
      have hfirst : Rebases q n bases [a] :=
        fun x hx => hl x (List.mem_singleton.mp hx ▸ List.mem_cons_self)
      have hone := (rebased_performAll hfirst s).1
      have hok := perform_ok (hl.removes a List.mem_cons_self) s
      obtain ⟨f, b, rfl, -⟩ := hl a List.mem_cons_self
      rw [holds_cons hok]
      constructor
      · exact fun _ => hs
      · exact ih (fun x hx => hl x (List.mem_cons_of_mem _ hx)) (hone.restorable hs hbases)
          hbases

theorem rebaseItem_rebases {n : Nat} (x : Item) (p : Item)
    (hx : ∀ f ∈ x.m_files, f ∈ q.files n) : Rebases q n p.m_files (rebaseItem x p) := by
  intro a ha
  obtain ⟨i, hi, rfl⟩ := List.mem_mapIdx.mp ha
  refine ⟨_, _, rfl, hx _ (List.getElem_mem hi), ?_⟩
  exact fun g hg => List.mem_of_getElem? hg

theorem rebaseItem_all (x : Item) (p : Item) {f : File} (hf : f ∈ x.m_files) :
    ∃ b, .rebase f b ∈ rebaseItem x p := by
  obtain ⟨i, hi, rfl⟩ := List.getElem_of_mem hf
  exact ⟨p.m_files[i]?, List.mem_mapIdx.mpr ⟨i, hi, rfl⟩⟩

end Shifter

end DispService.Backup
