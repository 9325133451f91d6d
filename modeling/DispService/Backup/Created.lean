import DispService.Backup.Creating
import Mathlib.Data.Finset.Sort

/-! When a failed creation deletes just what it made, and when the base of a new backup is still
there at its end. -/
namespace DispService.Backup.Creating

open Lib
open Metadata (Held Locking Recorded Releases advance)
open Backup.Creation (BASE)

/-- The creation that is not finished, if the task is one. -/
def Task.draft : Task → Option Draft
  | .creation x => some x
  | _ => none

/-- The creation has made the entry of its item. -/
def Draft.Wrote (x : Draft) : Entry → Prop
  | .lair _ => Stage.rank .made ≤ x.stage.rank
  | .file _ => Stage.rank .imaged ≤ x.stage.rank

/-- The catalogue, with the creations that are not finished. -/
structure Sound (c : Catalogue) (tasks : Nat → Option Draft) : Prop where
  folder : ∀ e ∈ c.entries, e.item.1 ∈ c.sequences
  /-- An entry is that of an item, or of a creation that made it. -/
  owned : ∀ e ∈ c.entries, e.item ∈ c.items ∨ ∃ x, tasks (c.maker e) = some x ∧ x.item = e.item
  own : ∀ t x, tasks t = some x → ∀ e ∈ c.entries, e.item = x.item → c.maker e = t ∧ x.Wrote e
  present : ∀ t x, tasks t = some x → ∀ e, e.item = x.item → x.Wrote e → e ∈ c.entries
  range : ∀ i ∈ c.items, BASE ≤ i.2
  whole : ∀ i ∈ c.items, Entry.lair i ∈ c.entries ∧ Entry.file i ∈ c.entries
  distinct : ∀ t t' x x', tasks t = some x → tasks t' = some x' → x.item = x'.item → t = t'
  number : ∀ t x, tasks t = some x → x.full = true → x.number = BASE
  /-- What the archives are based on is an item, and will be. -/
  base : ∀ t x, tasks t = some x → x.full = false → ∃ k, x.number = k + 1 ∧ (x.uuid, k) ∈ c.items ∧
    ∀ t' x', tasks t' = some x' → x'.item = (x.uuid, k) → x'.stage = .saved
  stored : c.showItem = false → ∀ i ∈ c.items, ∃ t x, tasks t = some x ∧ x.item = i
  saved : ∀ t x, tasks t = some x → x.stage = .saved →
    x.failed = false ∧ x.item ∈ c.items ∧ c.showItem = true

section Sound

variable {c : Catalogue} {tasks : Nat → Option Draft} {t : Nat} {x x' : Draft}

theorem Catalogue.mem_getIndex {u : String} {n : Nat} : n ∈ c.getIndex u ↔
    (u, n) ∈ c.items ∨ n = BASE ∧ Entry.lair (u, BASE) ∈ c.entries := by
  unfold Catalogue.getIndex
  rw [Finset.mem_union, Finset.mem_image]
  refine or_congr ?_ ?_
  · constructor
    · rintro ⟨⟨v, k⟩, hmem, rfl⟩
      obtain ⟨hitem, rfl⟩ := Finset.mem_filter.mp hmem
      exact hitem
    · intro hitem
      exact ⟨(u, n), Finset.mem_filter.mpr ⟨hitem, rfl⟩, rfl⟩
  · split <;> simp [*]

theorem Catalogue.lt_nextNumber {u : String} {n : Nat} (h : n ∈ c.getIndex u) :
    n < c.nextNumber u := by
  have hle : n ≤ (c.getIndex u).sup id := Finset.le_sup (f := id) h
  rw [nextNumber, if_neg (Finset.ne_empty_of_mem h)]
  omega

/-- The next number follows an item. -/
theorem Catalogue.nextNumber_succ {u : String} (range : ∀ i ∈ c.items, BASE ≤ i.2)
    (h : c.Headed u) :
    ∃ k, c.nextNumber u = k + 1 ∧ (u, k) ∈ c.items := by
  obtain ⟨head, hhead, hmin, hitem⟩ := h
  obtain ⟨k, hk, hsup⟩ := Finset.exists_mem_eq_sup (c.getIndex u) ⟨head, hhead⟩ id
  refine ⟨k, ?_, ?_⟩
  · rw [nextNumber, if_neg (Finset.ne_empty_of_mem hhead), hsup]
    rfl
  · rcases mem_getIndex.mp hk with hk | ⟨rfl, -⟩
    · exact hk
    · have heq : head = BASE := Nat.le_antisymm (hmin _ hk) (range _ hitem)
      exact heq ▸ hitem

/-- After one task has changed, a draft is its own, or one that was there. -/
theorem cases_of_update {o : Option Draft} {t' : Nat} {y : Draft}
    (hy : Function.update tasks t o t' = some y) :
    t' = t ∧ o = some y ∨ t' ≠ t ∧ tasks t' = some y := by
  by_cases heq : t' = t
  · subst heq
    rw [Function.update_self] at hy
    exact .inl ⟨rfl, hy⟩
  · rw [Function.update_of_ne heq] at hy
    exact .inr ⟨heq, hy⟩

/-- What is chosen is not there, and nobody else has chosen it. -/
theorem Sound.choose (h : Sound c tasks) (ht : tasks t = none) (hstage : x.stage = .chosen)
    (hfresh : ∀ e ∈ c.entries, e.item ≠ x.item)
    (hother : ∀ t' x', tasks t' = some x' → x'.item ≠ x.item)
    (hnumber : x.full = true → x.number = BASE)
    (hbase : x.full = false → ∃ k, x.number = k + 1 ∧ (x.uuid, k) ∈ c.items ∧
      ∀ t' x', tasks t' = some x' → x'.item = (x.uuid, k) → x'.stage = .saved) :
    Sound c (Function.update tasks t (some x)) := by
  have hcases : ∀ t' x', Function.update tasks t (some x) t' = some x' →
      t' = t ∧ x' = x ∨ t' ≠ t ∧ tasks t' = some x' := by
    exact fun t' x' h' => (cases_of_update h').imp_left fun ⟨heq, hx⟩ =>
      ⟨heq, (Option.some.inj hx).symm⟩
  have hkeep : ∀ t' x', tasks t' = some x' → Function.update tasks t (some x) t' = some x' := by
    intro t' x' h'
    have hne : t' ≠ t := by
      rintro rfl
      cases ht.symm.trans h'
    rw [Function.update_of_ne hne]
    exact h'
  refine ⟨h.folder, ?_, ?_, ?_, h.range, h.whole, ?_, ?_, ?_, ?_, ?_⟩
  · intro e he
    exact (h.owned e he).imp id fun ⟨y, hy, hitem⟩ => ⟨y, hkeep _ y hy, hitem⟩
  · intro t' y hy e he hitem
    rcases hcases t' y hy with ⟨rfl, rfl⟩ | ⟨-, hy⟩
    · exact absurd hitem (hfresh e he)
    · exact h.own t' y hy e he hitem
  · intro t' y hy e hitem hwrote
    rcases hcases t' y hy with ⟨rfl, rfl⟩ | ⟨-, hy⟩
    · cases e <;> simp [Draft.Wrote, hstage, Stage.rank] at hwrote
    · exact h.present t' y hy e hitem hwrote
  · intro t₁ t₂ y₁ y₂ h₁ h₂ hitem
    rcases hcases t₁ y₁ h₁ with ⟨ht₁, hy₁⟩ | ⟨-, htask₁⟩
    · rcases hcases t₂ y₂ h₂ with ⟨ht₂, -⟩ | ⟨-, htask₂⟩
      · exact ht₁.trans ht₂.symm
      · exact absurd (hitem.symm.trans (congrArg Draft.item hy₁)) (hother t₂ y₂ htask₂)
    · rcases hcases t₂ y₂ h₂ with ⟨-, hy₂⟩ | ⟨-, htask₂⟩
      · exact absurd (hitem.trans (congrArg Draft.item hy₂)) (hother t₁ y₁ htask₁)
      · exact h.distinct t₁ t₂ y₁ y₂ htask₁ htask₂ hitem
  · intro t' y hy hfull
    rcases hcases t' y hy with ⟨rfl, rfl⟩ | ⟨-, hy⟩
    · exact hnumber hfull
    · exact h.number t' y hy hfull
  · intro t' y hy hfull
    have hbase' : ∃ k, y.number = k + 1 ∧ (y.uuid, k) ∈ c.items ∧
        ∀ t' x', tasks t' = some x' → x'.item = (y.uuid, k) → x'.stage = .saved := by
      rcases hcases t' y hy with ⟨rfl, rfl⟩ | ⟨-, hy⟩
      · exact hbase hfull
      · exact h.base t' y hy hfull
    obtain ⟨k, hk, hmem, hall⟩ := hbase'
    refine ⟨k, hk, hmem, fun t₂ y₂ h₂ hitem => ?_⟩
    rcases hcases t₂ y₂ h₂ with ⟨rfl, rfl⟩ | ⟨-, h₂⟩
    · exact absurd hitem.symm (hfresh _ (h.whole _ hmem).1)
    · exact hall t₂ y₂ h₂ hitem
  · intro hshow i hi
    obtain ⟨t', y, hy, hitem⟩ := h.stored hshow i hi
    exact ⟨t', y, hkeep t' y hy, hitem⟩
  · intro t' y hy hsaved
    rcases hcases t' y hy with ⟨rfl, rfl⟩ | ⟨-, hy⟩
    · rw [hstage] at hsaved
      cases hsaved
    · exact h.saved t' y hy hsaved

/-- A step of a creation, with what it adds to the catalogue. -/
theorem Sound.work {c' : Catalogue} (h : Sound c tasks) (ht : tasks t = some x)
    (hitem : x'.item = x.item) (hfull : x'.full = x.full) (hstage : x.stage ≠ .saved)
    (hwrote : ∀ e, x.Wrote e → x'.Wrote e)
    (hentries : ∀ e, e ∈ c'.entries ↔ e ∈ c.entries ∨ e.item = x.item ∧ x'.Wrote e)
    (hmaker : ∀ e, c'.maker e = if e ∈ c'.entries ∧ e ∉ c.entries then t else c.maker e)
    (hsequences : c.sequences ⊆ c'.sequences) (hfolder : ∀ e, x'.Wrote e → x.uuid ∈ c'.sequences)
    (hitems : ∀ i ∈ c.items, i ∈ c'.items)
    (hadded : ∀ i ∈ c'.items, i ∈ c.items ∨ i = x.item ∧ ∀ e, x'.Wrote e)
    (hshow : c.showItem = true → c'.showItem = true)
    (hsaved : x'.stage = .saved → x'.failed = false ∧ x'.item ∈ c'.items ∧ c'.showItem = true) :
    Sound c' (Function.update tasks t (some x')) := by
  have hself : Function.update tasks t (some x') t = some x' := Function.update_self ..
  have hback : ∀ t' y, Function.update tasks t (some x') t' = some y →
      ∃ y₀, tasks t' = some y₀ ∧ y₀.item = y.item ∧ y₀.full = y.full ∧
        (y₀.stage = .saved → y = y₀) := by
    intro t' y h'
    rcases cases_of_update h' with ⟨rfl, hy⟩ | ⟨-, h'⟩
    · cases hy
      exact ⟨x, ht, hitem.symm, hfull.symm, fun hno => absurd hno hstage⟩
    · exact ⟨y, h', rfl, rfl, fun _ => rfl⟩
  have hkeep : ∀ t' y, tasks t' = some y → ∃ y', Function.update tasks t (some x') t' = some y' ∧
      y'.item = y.item := by
    intro t' y h'
    by_cases heq : t' = t
    · subst heq
      cases ht.symm.trans h'
      exact ⟨x', hself, hitem⟩
    · exact ⟨y, by rw [Function.update_of_ne heq]; exact h', rfl⟩
  have hold : ∀ e ∈ c.entries, e ∈ c'.entries ∧ c'.maker e = c.maker e := by
    intro e he
    refine ⟨(hentries e).mpr (.inl he), ?_⟩
    rw [hmaker, if_neg fun hno => hno.2 he]
  have hnew : ∀ e ∈ c'.entries, e ∉ c.entries → e.item = x.item ∧ x'.Wrote e ∧ c'.maker e = t := by
    intro e he hno
    obtain ⟨hsame, hdid⟩ := ((hentries e).mp he).resolve_left hno
    exact ⟨hsame, hdid, by rw [hmaker, if_pos ⟨he, hno⟩]⟩
  refine ⟨?_, ?_, ?_, ?_, ?_, ?_, ?_, ?_, ?_, ?_, ?_⟩
  · intro e he
    by_cases hin : e ∈ c.entries
    · exact hsequences (h.folder e hin)
    · obtain ⟨hsame, hdid, -⟩ := hnew e he hin
      rw [hsame]
      exact hfolder e hdid
  · intro e he
    by_cases hin : e ∈ c.entries
    · rw [(hold e hin).2]
      refine (h.owned e hin).imp (hitems _) fun ⟨y, hy, hyitem⟩ => ?_
      obtain ⟨y', hy', hsame⟩ := hkeep _ y hy
      exact ⟨y', hy', hsame.trans hyitem⟩
    · obtain ⟨hsame, -, hmade⟩ := hnew e he hin
      rw [hmade]
      exact .inr ⟨x', hself, hitem.trans hsame.symm⟩
  · intro t' y hy e he hyitem
    by_cases hin : e ∈ c.entries
    · rw [(hold e hin).2]
      rcases cases_of_update hy with ⟨rfl, hx⟩ | ⟨-, hy⟩
      · cases hx
        obtain ⟨hmade, hdid⟩ := h.own _ x ht e hin (hyitem.trans hitem)
        exact ⟨hmade, hwrote e hdid⟩
      · exact h.own t' y hy e hin hyitem
    · obtain ⟨hsame, hdid, hmade⟩ := hnew e he hin
      obtain ⟨y₀, hy₀, hy₀item, -⟩ := hback t' y hy
      obtain rfl := h.distinct t' t y₀ x hy₀ ht (hy₀item.trans (hyitem.symm.trans hsame))
      rw [hself] at hy
      cases hy
      exact ⟨hmade, hdid⟩
  · intro t' y hy e hyitem hdid
    rcases cases_of_update hy with ⟨rfl, hx⟩ | ⟨-, hy⟩
    · cases hx
      exact (hentries e).mpr (.inr ⟨hyitem.trans hitem, hdid⟩)
    · exact (hold e (h.present t' y hy e hyitem hdid)).1
  · intro i hi
    rcases hadded i hi with hi | ⟨rfl, -⟩
    · exact h.range i hi
    · cases hf : x.full with
      | true => exact Nat.le_of_eq (h.number t x ht hf).symm
      | false =>
        obtain ⟨k, hk, -⟩ := h.base t x ht hf
        have hle : BASE ≤ k + 1 := Nat.le_add_left 1 k
        rw [← hk] at hle
        exact hle
  · intro i hi
    rcases hadded i hi with hi | ⟨rfl, hall⟩
    · exact ⟨(hold _ (h.whole i hi).1).1, (hold _ (h.whole i hi).2).1⟩
    · exact ⟨(hentries _).mpr (.inr ⟨rfl, hall _⟩), (hentries _).mpr (.inr ⟨rfl, hall _⟩)⟩
  · intro t₁ t₂ y₁ y₂ h₁ h₂ hsame
    obtain ⟨z₁, hz₁, hi₁, -⟩ := hback t₁ y₁ h₁
    obtain ⟨z₂, hz₂, hi₂, -⟩ := hback t₂ y₂ h₂
    exact h.distinct t₁ t₂ z₁ z₂ hz₁ hz₂ (hi₁.trans (hsame.trans hi₂.symm))
  · intro t' y hy hf
    obtain ⟨z, hz, hzitem, hzfull, -⟩ := hback t' y hy
    have hnumber : z.number = y.number := congrArg Prod.snd hzitem
    rw [← hnumber]
    exact h.number t' z hz (hzfull.trans hf)
  · intro t' y hy hf
    obtain ⟨z, hz, hzitem, hzfull, -⟩ := hback t' y hy
    have hnumber : z.number = y.number := congrArg Prod.snd hzitem
    have huuid : z.uuid = y.uuid := congrArg Prod.fst hzitem
    obtain ⟨k, hk, hmem, hall⟩ := h.base t' z hz (hzfull.trans hf)
    rw [hnumber] at hk
    rw [huuid] at hmem hall
    refine ⟨k, hk, hitems _ hmem, fun t₂ y₂ h₂ hy₂ => ?_⟩
    obtain ⟨z₂, hz₂, hz₂item, -, hdone⟩ := hback t₂ y₂ h₂
    have hstage₂ := hall t₂ z₂ hz₂ (hz₂item.trans hy₂)
    rw [hdone hstage₂]
    exact hstage₂
  · intro hno i hi
    rcases hadded i hi with hi | ⟨rfl, -⟩
    · have hno' : c.showItem = false := by
        cases hc : c.showItem with
        | false => rfl
        | true =>
          rw [hshow hc] at hno
          cases hno
      obtain ⟨t', y, hy, hyitem⟩ := h.stored hno' i hi
      obtain ⟨y', hy', hsame⟩ := hkeep t' y hy
      exact ⟨t', y', hy', hsame.trans hyitem⟩
    · exact ⟨t, x', hself, hitem⟩
  · intro t' y hy hdone
    rcases cases_of_update hy with ⟨rfl, hx⟩ | ⟨-, hy⟩
    · cases hx
      exact hsaved hdone
    · obtain ⟨hfailed, hmem, hshowed⟩ := h.saved t' y hy hdone
      exact ⟨hfailed, hitems _ hmem, hshow hshowed⟩

/-- A creation that has saved its metadata is at its end. -/
theorem Sound.finish (h : Sound c tasks) (ht : tasks t = some x) (hstage : x.stage = .saved) :
    Sound c (Function.update tasks t none) := by
  obtain ⟨-, hmem, hshow⟩ := h.saved t x ht hstage
  have hback : ∀ t' y, Function.update tasks t none t' = some y → tasks t' = some y := by
    intro t' y hy
    rcases cases_of_update hy with ⟨-, hy⟩ | ⟨-, hy⟩
    · cases hy
    · exact hy
  refine ⟨h.folder, ?_, fun t' y hy => h.own t' y (hback t' y hy),
    fun t' y hy => h.present t' y (hback t' y hy), h.range, h.whole,
    fun t₁ t₂ y₁ y₂ h₁ h₂ => h.distinct t₁ t₂ y₁ y₂ (hback _ _ h₁) (hback _ _ h₂),
    fun t' y hy => h.number t' y (hback t' y hy), ?_, ?_,
    fun t' y hy => h.saved t' y (hback t' y hy)⟩
  · intro e he
    rcases h.owned e he with hin | ⟨y, hy, hitem⟩
    · exact .inl hin
    · by_cases heq : c.maker e = t
      · rw [heq] at hy
        cases ht.symm.trans hy
        exact .inl (hitem ▸ hmem)
      · exact .inr ⟨y, by rw [Function.update_of_ne heq]; exact hy, hitem⟩
  · intro t' y hy hfull
    obtain ⟨k, hk, hbase, hall⟩ := h.base t' y (hback t' y hy) hfull
    exact ⟨k, hk, hbase, fun t₂ y₂ h₂ => hall t₂ y₂ (hback t₂ y₂ h₂)⟩
  · intro hno
    rw [hshow] at hno
    cases hno

/-- Items go with their entries, and with the creations that made them. -/
theorem Sound.shrink {c' : Catalogue} {tasks' : Nat → Option Draft} (gone : String × Nat → Prop)
    (h : Sound c tasks)
    (htasks : ∀ t y, tasks' t = some y ↔ tasks t = some y ∧ ¬ gone y.item)
    (hentries : ∀ e, e ∈ c'.entries ↔ e ∈ c.entries ∧ ¬ gone e.item)
    (hitems : ∀ i, i ∈ c'.items ↔ i ∈ c.items ∧ ¬ gone i) (hmaker : c'.maker = c.maker)
    (hfolder : ∀ e ∈ c'.entries, e.item.1 ∈ c'.sequences)
    (hbase : ∀ t y k, tasks' t = some y → y.full = false → y.number = k + 1 → ¬ gone (y.uuid, k))
    (hshow : c'.showItem = c.showItem ∨ c'.items = ∅) : Sound c' tasks' := by
  refine ⟨hfolder, ?_, ?_, ?_, fun i hi => h.range i ((hitems i).mp hi).1, ?_, ?_,
    fun t y hy => h.number t y ((htasks t y).mp hy).1, ?_, ?_, ?_⟩
  · intro e he
    obtain ⟨hin, hkept⟩ := (hentries e).mp he
    rw [hmaker]
    rcases h.owned e hin with hitem | ⟨y, hy, hitem⟩
    · exact .inl ((hitems _).mpr ⟨hitem, hkept⟩)
    · exact .inr ⟨y, (htasks _ y).mpr ⟨hy, hitem ▸ hkept⟩, hitem⟩
  · intro t y hy e he hitem
    rw [hmaker]
    exact h.own t y ((htasks t y).mp hy).1 e ((hentries e).mp he).1 hitem
  · intro t y hy e hitem hdid
    obtain ⟨hy, hkept⟩ := (htasks t y).mp hy
    exact (hentries e).mpr ⟨h.present t y hy e hitem hdid, hitem ▸ hkept⟩
  · intro i hi
    obtain ⟨hin, hkept⟩ := (hitems i).mp hi
    obtain ⟨hlair, hfile⟩ := h.whole i hin
    exact ⟨(hentries _).mpr ⟨hlair, hkept⟩, (hentries _).mpr ⟨hfile, hkept⟩⟩
  · intro t₁ t₂ y₁ y₂ h₁ h₂
    exact h.distinct t₁ t₂ y₁ y₂ ((htasks _ _).mp h₁).1 ((htasks _ _).mp h₂).1
  · intro t y hy hfull
    obtain ⟨k, hk, hmem, hall⟩ := h.base t y ((htasks t y).mp hy).1 hfull
    refine ⟨k, hk, (hitems _).mpr ⟨hmem, hbase t y k hy hfull hk⟩, fun t' y' hy' => ?_⟩
    exact hall t' y' ((htasks t' y').mp hy').1
  · intro hno i hi
    rcases hshow with hsame | hempty
    · obtain ⟨hin, hkept⟩ := (hitems i).mp hi
      obtain ⟨t, y, hy, hitem⟩ := h.stored (hsame.symm.trans hno) i hin
      exact ⟨t, y, (htasks t y).mpr ⟨hy, hitem ▸ hkept⟩, hitem⟩
    · rw [hempty] at hi
      exact absurd hi (Finset.notMem_empty i)
  · intro t y hy hstage
    obtain ⟨hy, hkept⟩ := (htasks t y).mp hy
    obtain ⟨hfailed, hmem, hshowed⟩ := h.saved t y hy hstage
    have hin : y.item ∈ c'.items := (hitems _).mpr ⟨hmem, hkept⟩
    refine ⟨hfailed, hin, ?_⟩
    rcases hshow with hsame | hempty
    · exact hsame.trans hshowed
    · rw [hempty] at hin
      exact absurd hin (Finset.notMem_empty _)

/-- What a failed creation deletes first: its own folder and archives. -/
def withoutItem (c : Catalogue) (x : Draft) : Catalogue :=
  let c := if Stage.rank .imaged ≤ x.stage.rank then
    { c with entries := c.entries.erase (.file x.item) } else c
  { c with entries := c.entries.erase (.lair x.item), items := c.items.erase x.item }

theorem withoutItem_entries (h : Sound c tasks) (ht : tasks t = some x) (e : Entry) :
    e ∈ (withoutItem c x).entries ↔ e ∈ c.entries ∧ e.item ≠ x.item := by
  have hown := h.own t x ht
  unfold withoutItem
  dsimp only
  cases e with
  | lair i =>
    have hlair : Entry.lair i ≠ .lair x.item ↔ i ≠ x.item := by simp
    split <;> simp [Entry.item, and_comm]
  | file i =>
    split
    · simp [Entry.item, and_comm]
    · next hstage =>
      have hno : Entry.file x.item ∉ c.entries := fun hin => hstage (hown _ hin rfl).2
      simp only [Finset.mem_erase, ne_eq, reduceCtorEq, not_false_eq_true, true_and, Entry.item]
      constructor
      · intro hin
        refine ⟨hin, ?_⟩
        rintro rfl
        exact hno hin
      · exact fun hin => hin.1

theorem withoutItem_same : (withoutItem c x).sequences = c.sequences ∧
    (withoutItem c x).showItem = c.showItem ∧ (withoutItem c x).maker = c.maker ∧
    (withoutItem c x).items = c.items.erase x.item := by
  unfold withoutItem
  dsimp only
  split <;> exact ⟨rfl, rfl, rfl, rfl⟩

/-- An empty sequence has no entries of others. -/
theorem withoutItem_alone (h : Sound c tasks) (ht : tasks t = some x) (hfailed : x.failed = true)
    (hempty : (withoutItem c x).getIndex x.uuid = ∅) :
    ∀ e ∈ (withoutItem c x).entries, e.item.1 ≠ x.uuid := by
  have hindex : ∀ n, ¬ ((x.uuid, n) ∈ c.items ∧ (x.uuid, n) ≠ x.item) := by
    intro n hn
    have hmem : n ∈ (withoutItem c x).getIndex x.uuid := by
      rw [Catalogue.mem_getIndex, withoutItem_same.2.2.2]
      exact .inl (Finset.mem_erase.mpr ⟨hn.2, hn.1⟩)
    rw [hempty] at hmem
    exact Finset.notMem_empty n hmem
  intro e he huuid
  obtain ⟨hin, hne⟩ := (withoutItem_entries h ht e).mp he
  have hpair : e.item = (x.uuid, e.item.2) := by rw [← huuid]
  rcases h.owned e hin with hitem | ⟨y, hy, hitem⟩
  · exact hindex e.item.2 ⟨hpair ▸ hitem, hpair ▸ hne⟩
  · have hyuuid : y.uuid = x.uuid := (congrArg Prod.fst hitem).trans huuid
    cases hfull : y.full with
    | true =>
      have hdid := (h.own _ y hy e hin hitem.symm).2
      have hmade : y.Wrote (.lair y.item) := by
        cases e with
        | lair i => exact hdid
        | file i => exact Nat.le_trans (by decide) hdid
      have hlair := (withoutItem_entries h ht _).mpr
        ⟨h.present _ y hy (.lair y.item) rfl hmade, show y.item ≠ x.item from hitem ▸ hne⟩
      have hbase : y.item = (x.uuid, BASE) := by
        rw [Draft.item, hyuuid, h.number _ y hy hfull]
      have hmem : BASE ∈ (withoutItem c x).getIndex x.uuid :=
        Catalogue.mem_getIndex.mpr (.inr ⟨rfl, hbase ▸ hlair⟩)
      rw [hempty] at hmem
      exact Finset.notMem_empty _ hmem
    | false =>
      obtain ⟨k, -, hmem, hall⟩ := h.base _ y hy hfull
      rw [hyuuid] at hmem hall
      refine hindex k ⟨hmem, fun hself => ?_⟩
      have hsaved := hall t x ht hself.symm
      rw [(h.saved t x ht hsaved).1] at hfailed
      cases hfailed

/-- The folders of an empty index can be taken away. -/
theorem Sound.clearEmpty (h : Sound c tasks) (hentries : c.entries = ∅) :
    Sound c.clearCatalog tasks := by
  have hitems : ∀ i, i ∉ c.items := by
    intro i hi
    have hlair := (h.whole i hi).1
    rw [hentries] at hlair
    exact Finset.notMem_empty _ hlair
  refine h.shrink (fun _ => False) ?_ ?_ ?_ rfl ?_ ?_ (.inr rfl)
  · exact fun t y => ⟨fun hy => ⟨hy, id⟩, And.left⟩
  · intro e
    rw [hentries]
    exact ⟨fun he => absurd he (Finset.notMem_empty e), And.left⟩
  · intro i
    exact ⟨fun hi => absurd hi (Finset.notMem_empty i), fun hi => absurd hi.1 (hitems i)⟩
  · exact fun e he => absurd he (Finset.notMem_empty e)
  · exact fun _ _ _ _ _ _ => id

/-- Without metadata of the VM there is only what unfinished creations made. -/
theorem Sound.entries_empty (h : Sound c tasks) (hindex : c.getIndexForRead = ∅)
    (halone : c.showItem = true ∨
      ∀ t x, tasks t = some x → x.stage.rank < Stage.rank .made) : c.entries = ∅ := by
  refine Finset.eq_empty_of_forall_notMem fun e he => ?_
  cases hshow : c.showItem with
  | true =>
    rw [Catalogue.getIndexForRead, if_pos hshow] at hindex
    have hfolder := h.folder e he
    rw [hindex] at hfolder
    exact Finset.notMem_empty _ hfolder
  | false =>
    have hearly := halone.resolve_left (by rw [hshow]; exact Bool.false_ne_true)
    have hdraft : ∃ t y, tasks t = some y ∧ y.item = e.item := by
      rcases h.owned e he with hitem | ⟨y, hy, hitem⟩
      · exact h.stored hshow _ hitem
      · exact ⟨_, y, hy, hitem⟩
    obtain ⟨t, y, hy, hitem⟩ := hdraft
    have hdid := (h.own t y hy e he hitem.symm).2
    have hlate : Stage.rank .made ≤ y.stage.rank := by
      cases e with
      | lair i => exact hdid
      | file i => exact Nat.le_trans (by decide) hdid
    exact absurd (hearly t y hy) (Nat.not_lt.mpr hlate)

/-- The sequence goes too, if nothing is left in its index. -/
def withoutSequence (c : Catalogue) (x : Draft) (found : Bool) : Catalogue :=
  let c := withoutItem c x
  if found ∧ c.getIndex x.uuid = ∅ then c.clearSequence x.uuid else c

theorem cleanup_eq (c : Catalogue) (x : Draft) (absent : Bool) :
    ∃ found, System.cleanup c x absent =
      let c := withoutSequence c x found
      if c.getIndexForRead = ∅ then c.clearCatalog else c := by
  let c₁ := if Stage.rank .imaged ≤ x.stage.rank then
    { c with entries := c.entries.erase (.file x.item) } else c
  refine ⟨decide (x.uuid ∈ c₁.sequences ∧ (.lair x.item ∈ c₁.entries ∨ absent)), ?_⟩
  simp only [System.cleanup, withoutSequence, withoutItem, decide_eq_true_eq, c₁]

theorem withoutSequence_entries (h : Sound c tasks) (ht : tasks t = some x)
    (hfailed : x.failed = true) (found : Bool) (e : Entry) :
    e ∈ (withoutSequence c x found).entries ↔ e ∈ c.entries ∧ e.item ≠ x.item := by
  unfold withoutSequence
  dsimp only
  split
  · next hclear =>
    rw [← withoutItem_entries h ht]
    have hother := withoutItem_alone h ht hfailed hclear.2
    simp only [Catalogue.clearSequence, Catalogue.clear, Finset.mem_filter, decide_eq_true_eq]
    exact ⟨And.left, fun he => ⟨he, hother e he⟩⟩
  · exact withoutItem_entries h ht e

theorem withoutSequence_sound (h : Sound c tasks) (ht : tasks t = some x)
    (hfailed : x.failed = true) (found : Bool) :
    Sound (withoutSequence c x found) (Function.update tasks t none) := by
  have hentries := withoutSequence_entries h ht hfailed found
  obtain ⟨hsequences, hshow, hmaker, hitems⟩ := withoutItem_same (c := c) (x := x)
  have hunsaved : x.stage ≠ .saved := by
    intro hsaved
    rw [(h.saved t x ht hsaved).1] at hfailed
    cases hfailed
  refine h.shrink (· = x.item) ?_ hentries ?_ ?_ ?_ ?_ ?_
  · intro t' y
    by_cases heq : t' = t
    · subst heq
      rw [Function.update_self]
      constructor
      · intro hno
        cases hno
      · rintro ⟨hy, hother⟩
        cases ht.symm.trans hy
        exact absurd rfl hother
    · rw [Function.update_of_ne heq]
      exact ⟨fun hy => ⟨hy, fun hsame => heq (h.distinct t' t y x hy ht hsame)⟩, And.left⟩
  · intro i
    unfold withoutSequence
    dsimp only
    have herase : i ∈ (withoutItem c x).items ↔ i ∈ c.items ∧ ¬ i = x.item := by
      rw [hitems, Finset.mem_erase]
      exact and_comm
    split
    · next hclear =>
      have hno : i ∈ (withoutItem c x).items → i.1 ≠ x.uuid := by
        intro hi huuid
        have hpair : (x.uuid, i.2) ∈ (withoutItem c x).items := huuid ▸ hi
        have hmem := Catalogue.mem_getIndex.mpr (.inl hpair)
        rw [hclear.2] at hmem
        exact Finset.notMem_empty _ hmem
      rw [← herase]
      simp only [Catalogue.clearSequence, Catalogue.clear, Finset.mem_filter, decide_eq_true_eq]
      exact ⟨And.left, fun hi => ⟨hi, hno hi⟩⟩
    · exact herase
  · unfold withoutSequence
    dsimp only
    split <;> exact hmaker
  · intro e he
    have hfolder := h.folder e ((hentries e).mp he).1
    unfold withoutSequence at he ⊢
    dsimp only at he ⊢
    split
    · next hclear =>
      rw [if_pos hclear] at he
      have hin := (Finset.mem_filter.mp he).1
      refine Finset.mem_erase.mpr ⟨withoutItem_alone h ht hfailed hclear.2 e hin, ?_⟩
      rw [← hsequences] at hfolder
      exact hfolder
    · rw [hsequences]
      exact hfolder
  · intro t' y k hy hfull hnumber hself
    obtain ⟨-, hy⟩ := (cases_of_update hy).resolve_left fun hno => by cases hno.2
    obtain ⟨k', hk, -, hall⟩ := h.base t' y hy hfull
    obtain rfl : k' = k := by omega
    exact hunsaved (hall t x ht hself.symm)
  · refine .inl ?_
    unfold withoutSequence
    dsimp only
    split <;> exact hshow

/-- A failed creation deletes what is of its item, and nothing else. -/
theorem Sound.cleanup (h : Sound c tasks) (ht : tasks t = some x) (hfailed : x.failed = true)
    (halone : c.showItem = true ∨
      ∀ t' x', t' ≠ t → tasks t' = some x' → x'.stage.rank < Stage.rank .made) (absent : Bool) :
    Sound (System.cleanup c x absent) (Function.update tasks t none) ∧
      ∀ e, e ∈ (System.cleanup c x absent).entries ↔ e ∈ c.entries ∧ e.item ≠ x.item := by
  obtain ⟨found, hcleanup⟩ := cleanup_eq c x absent
  have hentries := withoutSequence_entries h ht hfailed found
  have hsound := withoutSequence_sound h ht hfailed found
  have hshow : (withoutSequence c x found).showItem = c.showItem := by
    unfold withoutSequence
    dsimp only
    split <;> exact withoutItem_same.2.1
  rw [hcleanup]
  dsimp only
  split
  · next hindex =>
    have hempty : (withoutSequence c x found).entries = ∅ := by
      refine hsound.entries_empty hindex (halone.imp hshow.trans fun hearly t' y hy => ?_)
      obtain ⟨hne, hy⟩ := (cases_of_update hy).resolve_left fun hno => by cases hno.2
      exact hearly t' y hne hy
    refine ⟨hsound.clearEmpty hempty, fun e => ?_⟩
    rw [← hentries, hempty]
    rfl
  · exact ⟨hsound, hentries⟩

/-- The sequences of which a batch deletes something. -/
def Batch.Touches : Batch → String → Prop
  | .catalog, _ => True
  | .sequence u, v => v = u
  | .items u _, v => v = u

/-- A removal deletes only where no creation is at work. -/
theorem Sound.perform (h : Sound c tasks) (b : Batch)
    (hnone : ∀ t x, tasks t = some x → ¬ b.Touches x.uuid) :
    Sound (System.Batch.perform c b) tasks := by
  cases b with
  | catalog =>
    have hidle : ∀ t x, tasks t ≠ some x := fun t x hx => hnone t x hx trivial
    refine h.shrink (fun _ => True) ?_ ?_ ?_ rfl ?_ ?_ (.inr rfl)
    · exact fun t y => ⟨fun hy => absurd hy (hidle t y), fun hy => absurd trivial hy.2⟩
    · exact fun e => ⟨fun he => absurd he (Finset.notMem_empty e), fun he => absurd trivial he.2⟩
    · exact fun i => ⟨fun hi => absurd hi (Finset.notMem_empty i), fun hi => absurd trivial hi.2⟩
    · exact fun e he => absurd he (Finset.notMem_empty e)
    · exact fun t y _ hy => absurd hy (hidle t y)
  | sequence u =>
    refine h.shrink (fun i => i.1 = u) ?_ ?_ ?_ rfl ?_ ?_ (.inl rfl)
    · exact fun t y => ⟨fun hy => ⟨hy, hnone t y hy⟩, And.left⟩
    · intro e
      simp [System.Batch.perform, Catalogue.clearSequence, Catalogue.clear]
    · intro i
      simp [System.Batch.perform, Catalogue.clearSequence, Catalogue.clear]
    · intro e he
      obtain ⟨hin, hkept⟩ := Finset.mem_filter.mp he
      refine Finset.mem_erase.mpr ⟨fun hself => hkept ?_, h.folder e hin⟩
      exact decide_eq_true hself
    · exact fun t y _ hy _ _ => hnone t y hy
  | items u l =>
    refine h.shrink (fun i => i.1 = u ∧ i.2 ∈ l) ?_ ?_ ?_ rfl ?_ ?_ (.inl rfl)
    · exact fun t y => ⟨fun hy => ⟨hy, fun hgone => hnone t y hy hgone.1⟩, And.left⟩
    · intro e
      simp [System.Batch.perform, Catalogue.clear]
    · intro i
      simp [System.Batch.perform, Catalogue.clear]
    · intro e he
      exact h.folder e (Finset.mem_filter.mp he).1
    · exact fun t y _ hy _ _ hgone => hnone t y hy hgone.1

end Sound

end DispService.Backup.Creating
