import DispService.Backup.Chains

/-! A removal that keeps the chain leaves it restorable wherever it stops. One that does not
removes the items in the order in which they are based on one another. -/
namespace DispService.Backup

open Remove

section Shifter

variable {q : Sequence}

theorem Restorable.same {s s' : Store} (h : Restorable q s) (hlair : s'.lair = s.lair)
    (hfile : s'.file = s.file) (hbase : s'.base = s.base) : Restorable q s' where
  files := by
    rw [hlair, hfile]
    exact h.files
  bases := by
    rw [hlair, hfile, hbase]
    exact h.bases

/-- The item that the next one is rebased onto. -/
def basis (q : Sequence) (preceding : Option Nat) : Item :=
  match preceding with
  | none => {}
  | some preceding => Item.loaded q preceding

theorem basis_files {pre : List Nat} {g : File} (hg : g ∈ (basis q pre.getLast?).m_files) :
    ∃ p ∈ pre, g ∈ q.files p := by
  cases hlast : pre.getLast? with
  | none =>
      rw [hlast] at hg
      cases hg
  | some p =>
      rw [hlast] at hg
      exact ⟨p, List.mem_of_getLast? hlast, loaded_files g hg⟩

theorem apply_next {preceding : Option Nat} {number n : Nat} :
    Shifter.apply ⟨some n, preceding⟩ q number =
      rebaseItem (Item.loaded q n) (basis q preceding) ++
        (.save (Item.loaded q number).m_data (Item.loaded q n).m_data q.m_uuid
          (Item.loaded q n).m_number :: unlinkItem (Item.loaded q number)) := by
  have happly : Shifter.apply ⟨some n, preceding⟩ q number =
      rebaseItem (Item.loaded q n) (basis q preceding) ++
        [.save (Item.loaded q number).m_data (Item.loaded q n).m_data q.m_uuid
          (Item.loaded q n).m_number] ++ unlinkItem (Item.loaded q number) := by
    cases preceding <;> rfl
  rw [happly, List.append_assoc]
  rfl

/-- The last item goes: nothing is based on it. -/
theorem holds_last (c : Chain q) {pre : List Nat} {number : Nat}
    (hindex : q.index = pre ++ [number]) :
    Holds (Restorable q) (unlinkItem (Item.loaded q number)) c.store := by
  have hmem : number ∈ q.index := by
    rw [hindex]
    exact List.mem_append_right pre List.mem_cons_self
  apply holds_unlinkItem hmem c.restorable
  intro _ n hn hne f hf g hg hfg
  obtain ⟨m, ⟨pre', post', hfollows⟩, hm⟩ := c.base n hn f hf g hfg
  obtain rfl := Sequence.files_apart hm hg
  cases (Sequence.split_unique hindex hfollows).2

/-- The next item takes the place of the one that goes. -/
theorem holds_next (c : Chain q) {pre post : List Nat} {number n : Nat}
    (hindex : q.index = pre ++ number :: n :: post) :
    Holds (Restorable q) (Shifter.apply ⟨some n, pre.getLast?⟩ q number) c.store := by
  have hfollows : q.Follows number n := ⟨pre, post, hindex⟩
  obtain ⟨hnumber, hn⟩ := hfollows.mem
  have hpre : ∀ p ∈ pre, p ∈ q.index ∧ p ≠ number := by
    intro p hp
    have hnodup := q.nodup
    rw [hindex] at hnodup ⊢
    refine ⟨List.mem_append_left _ hp, ?_⟩
    intro heq
    exact (List.nodup_middle.mp hnodup).notMem (List.mem_append_left _ (heq ▸ hp))
  have hbases : ∀ g ∈ (basis q pre.getLast?).m_files,
      c.store.file g = true ∧ g ∉ q.files number := by
    intro g hg
    obtain ⟨p, hp, hgp⟩ := basis_files hg
    refine ⟨c.file p (hpre p hp).1 g hgp, ?_⟩
    exact fun hno => (hpre p hp).2 (Sequence.files_apart hgp hno)
  have hrebases : Rebases q n (basis q pre.getLast?).m_files
      (rebaseItem (Item.loaded q n) (basis q pre.getLast?)) :=
    rebaseItem_rebases _ _ fun f hf => loaded_files f hf
  obtain ⟨hrebased, hdone⟩ := rebased_performAll hrebases c.store
  have hrestorable := hrebased.restorable c.restorable fun g hg => (hbases g hg).1
  rw [apply_next, holds_append hrebases.removes]
  constructor
  · exact holds_rebases hrebases c.restorable fun g hg => (hbases g hg).1
  cases hload : (q.loadFromFile n).failed
  swap
  · have hdata : (Item.loaded q n).m_data = .backupItem := by
      rw [loaded_failed hload]
    rw [hdata]
    apply holds_failed
    · cases (Item.loaded q number).m_data <;> rfl
    · exact fun _ => hrestorable
    · cases (Item.loaded q number).m_data <;> exact hrestorable
  have hhead : q.index.head? ≠ some n := by
    intro hhead
    rw [hindex] at hhead
    have hnodup := q.nodup
    rw [hindex] at hnodup
    cases pre with
    | nil =>
        cases hhead
        simp at hnodup
    | cons p pre =>
        cases hhead
        simp at hnodup
  have hdata : (Item.loaded q n).m_data = .partialBackupItem := by
    rw [loaded_ok hn hload]
    exact if_neg hhead
  rw [hdata]
  let s := performAll (rebaseItem (Item.loaded q n) (basis q pre.getLast?)) c.store
  let saved := ((Action.save (Item.loaded q number).m_data .partialBackupItem q.m_uuid
    (Item.loaded q n).m_number).perform s).2
  rw [holds_cons rfl]
  constructor
  · exact fun _ => hrestorable
  have hsaved : Restorable q saved := hrestorable.same rfl rfl rfl
  apply holds_unlinkItem hnumber hsaved
  intro _ k hk hne f hf g hg hfg
  by_cases hkn : k = n
  · subst hkn
    have hfile : f ∈ (Item.loaded q k).m_files := by
      rw [loaded_ok hn hload]
      exact hf
    obtain ⟨b, hb⟩ := rebaseItem_all (Item.loaded q k) (basis q pre.getLast?) hfile
    exact (hbases g (hdone f b hb g hfg)).2 hg
  · have hold : c.store.base f = some g := by
      rw [← hrebased.other f fun hno => hkn (Sequence.files_apart hf hno)]
      exact hfg
    obtain ⟨m, hm, hgm⟩ := c.base k hk f hf g hold
    obtain rfl := Sequence.files_apart hgm hg
    exact hkn (hm.unique hfollows)

end Shifter

/-- The batch of `Confectioner`, with the chain kept or not. -/
def confection (keepChain : Bool) (catalog_ : Confectioner.Catalog) (q : Sequence)
    (m_number : Nat) : Except PrlResult (List Action) :=
  if keepChain then Confectioner.shifter catalog_ q m_number
  else .ok (Confectioner.flavor q m_number)

/-- Wherever the batch stops, what is left of the sequence can be restored. -/
def StaysRestorable (keepChain : Bool) (catalog_ : Confectioner.Catalog) {q : Sequence}
    (c : Chain q) (m_number : Nat) : Prop :=
  ∀ l, confection keepChain catalog_ q m_number = .ok l →
    ∀ stop, Restorable q ((batch stop l).execute c.store).2

/-- Without the chain kept: the whole sequence goes at once if it has no archive files or its
first item cannot be read; else no item may be based on one that goes before it. -/
def Unchained {q : Sequence} (c : Chain q) (m_number : Nat) : Prop :=
  if m_number ∈ q.index ∧ q.index.head? ≠ some m_number then TailSafe c m_number
  else ∀ h ∈ q.index.head?, (q.loadFromFile h).failed = false →
    ∀ n ∈ q.index, q.files n = []

section Halfway

variable {q : Sequence} {c : Chain q} {number : Nat}

theorem execute_holds (l : List Action) :
    (∀ stop, Restorable q ((batch stop l).execute c.store).2) ↔
      Holds (Restorable q) l c.store := by
  cases l with
  | nil =>
      rw [holds_nil]
      constructor
      · exact fun h => h none
      · intro h stop
        cases stop <;> exact h
  | cons a l =>
      apply forall_congr'
      intro stop
      rw [execute_eq (List.cons_ne_nil a l)]

/-- The folder of the sequence may be left without the archive files. -/
theorem holds_sequence : Holds (Restorable q) [.rmdir (.sequence q.m_uuid)] c.store ↔
    ∀ n ∈ q.index, q.files n = [] := by
  rw [holds_cons rfl, holds_nil]
  constructor
  · intro ⟨hleft, _⟩ n hn
    apply List.eq_nil_iff_forall_not_mem.mpr
    intro f hf
    have hrestorable := hleft ⟨fun _ _ => true, fun _ => false⟩
    have hlair : ((Action.rmdir (.sequence q.m_uuid)).interrupted
        ⟨fun _ _ => true, fun _ => false⟩ c.store).lair q.m_uuid n = true := by
      unfold Action.interrupted Store.clear
      simp [c.lair n hn]
    have hfile := hrestorable.files n hn hlair f hf
    obtain ⟨name, -, rfl⟩ := List.mem_map.mp hf
    unfold Action.interrupted Store.clear Folder.hasFile at hfile
    simp at hfile
  · intro hnone
    have hall : ∀ s, Restorable q s := by
      intro s
      constructor
      · intro n hn _ f hf
        rw [hnone n hn] at hf
        cases hf
      · intro n hn _ f hf
        rw [hnone n hn] at hf
        cases hf
    exact ⟨fun _ => hall _, hall _⟩

theorem holds_flavor : Holds (Restorable q) (Confectioner.flavor q number) c.store ↔
    Unchained c number := by
  unfold Unchained
  by_cases htail : number ∈ q.index ∧ q.index.head? ≠ some number
  · rw [if_pos htail]
    obtain ⟨pre, post, hindex⟩ := List.append_of_mem htail.1
    have hpre : pre ≠ [] := by
      intro hnil
      rw [hindex, hnil] at htail
      exact htail.2 rfl
    rw [flavor_tail hindex hpre]
    constructor
    · exact tailSafe_of_holds c
    · intro hsafe
      apply holds_tail c hsafe _ c.restorable rfl
      intro a ha
      obtain ⟨hin, hle⟩ := List.mem_filter.mp ha
      exact ⟨hin, of_decide_eq_true hle⟩
  · rw [if_neg htail]
    cases hindex : q.index with
    | nil =>
        rw [flavor_nil hindex, holds_nil]
        apply iff_of_true c.restorable
        intro h hno
        cases hno
    | cons h rest =>
        have hnumber : number = h ∨ number ∉ q.index := by
          by_cases hin : number ∈ q.index
          · have hhead := Classical.not_not.mp fun hne => htail ⟨hin, hne⟩
            rw [hindex] at hhead
            exact Or.inl (Option.some.inj hhead).symm
          · exact Or.inr hin
        have hh : h ∈ q.index := by
          rw [hindex]
          exact List.mem_cons_self
        rw [flavor_head hindex hnumber]
        cases hload : (q.loadFromFile h).failed
        · have hparent : (Item.loaded q h).getParent = .sequence q.m_uuid := by
            rw [loaded_ok hh hload]
            rfl
          rw [hparent, holds_sequence, hindex]
          constructor
          · exact fun hall _ _ _ => hall
          · exact fun hall => hall h rfl hload
        · have hparent : (Item.loaded q h).getParent = .unnamed := by
            rw [loaded_failed hload]
            rfl
          have hleft : ∀ left, (Action.rmdir .unnamed).interrupted left c.store = c.store :=
            fun left => clear_unnamed left
          have hend : ((Action.rmdir .unnamed).perform c.store).2 = c.store := clear_unnamed _
          rw [hparent, holds_cons rfl, holds_nil, hend]
          apply iff_of_true
          · exact ⟨fun left => (hleft left).symm ▸ c.restorable, c.restorable⟩
          · intro k hk hok
            obtain rfl := Option.some.inj hk
            rw [hload] at hok
            cases hok

theorem holds_shifter {catalog_ : Confectioner.Catalog} {l : List Action}
    (h : Confectioner.shifter catalog_ q number = .ok l) : Holds (Restorable q) l c.store := by
  have hmem : number ∈ q.index := by
    by_contra hno
    obtain ⟨e, he, -⟩ := @shifter_absent q number catalog_ hno
    cases he.symm.trans h
  obtain ⟨pre, post, hindex⟩ := List.append_of_mem hmem
  obtain ⟨version, hversion, hsupported⟩ := shifter_supported h
  rw [shifter_split hversion hsupported hindex] at h
  obtain rfl := Except.ok.inj h
  cases post with
  | nil => exact holds_last c hindex
  | cons n post => exact holds_next c hindex

/-- A batch leaves the chain restorable wherever it stops if and only if the chain is kept, or
nothing is based on what goes first. -/
theorem staysRestorable_iff (keepChain : Bool) (catalog_ : Confectioner.Catalog) {q : Sequence}
    (c : Chain q) (m_number : Nat) :
    StaysRestorable keepChain catalog_ c m_number ↔
      (keepChain = false → Unchained c m_number) := by
  unfold StaysRestorable confection
  cases keepChain
  · constructor
    · intro h _
      exact holds_flavor.mp ((execute_holds _).mp (h _ rfl))
    · intro h l hl
      cases hl
      exact (execute_holds _).mpr (holds_flavor.mpr (h rfl))
  · apply iff_of_true
    · intro l hl
      exact (execute_holds l).mpr (holds_shifter hl)
    · exact fun hno => by cases hno

/-- A full backup and two that are based on it, one on the other. -/
def threeItems : Sequence where
  m_uuid := "uuid"
  index := [1, 2, 3]
  ascending := by decide
  getTibFileList := fun n =>
    if n = 1 then ["first"] else if n = 2 then ["second"] else if n = 3 then ["third"] else []
  apart := by
    intro m n f hne hm hn
    split_ifs at hm hn <;> simp_all
  loadFromFile := fun _ => .success

def threeItemsChain : Chain threeItems where
  store :=
    { lair := fun _ _ => true
      data := fun _ _ => .partialBackupItem
      file := fun _ => true
      base := fun f =>
        if f.2 = "second" then some ("uuid", "first")
        else if f.2 = "third" then some ("uuid", "second")
        else none }
  lair := fun _ _ => rfl
  file := fun _ _ _ _ => rfl
  base := by
    intro n hn f hf g hg
    have hcases : n = 1 ∨ n = 2 ∨ n = 3 := by
      simpa [threeItems] using hn
    rcases hcases with rfl | rfl | rfl
    · simp_all [threeItems, Sequence.files]
    · exact ⟨1, ⟨[], [3], rfl⟩, by simp_all [threeItems, Sequence.files]⟩
    · exact ⟨2, ⟨[1], [], rfl⟩, by simp_all [threeItems, Sequence.files]⟩

/-- The second item is gone, and the third is still there. -/
theorem not_staysRestorable_three :
    ¬ StaysRestorable false ⟨.ok 4, 4⟩ threeItemsChain 2 := by
  intro h
  have hrestorable := h _ rfl (some (2, ⟨fun _ _ => true, fun _ => true⟩))
  have hgone := hrestorable.bases 3 (by decide) (by decide) ("uuid", "third") (by decide)
    ("uuid", "second") (by decide)
  revert hgone
  decide

end Halfway

end DispService.Backup
