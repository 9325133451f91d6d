import DispService.Lib.LinkedForest
import Mathlib.Data.Finset.Card
import Mathlib.Data.Finset.Filter

/-! Items that name their parent by a key. When the keys are distinct, every named parent is an
item and no item is its own ancestor, the items make up one forest whose children stand in the
order of the list. -/
namespace DispService.Lib

open Relation

/-- A relation with finitely many sources and no cycle is well founded. -/
theorem wellFounded_of_acyclic {α : Type*} {r : α → α → Prop} {l : List α}
    (source : ∀ a b, r a b → a ∈ l) (acyclic : ∀ a, ¬ TransGen r a a) : WellFounded r := by
  classical
  let below (b : α) : Finset α := l.toFinset.filter fun a => TransGen r a b
  have hlt : ∀ a b, r a b → (below a).card < (below b).card := by
    intro a b hab
    refine Finset.card_lt_card (Finset.ssubset_iff_subset_ne.mpr ⟨fun x hx => ?_, fun heq => ?_⟩)
    · rw [Finset.mem_filter] at hx ⊢
      exact ⟨hx.1, hx.2.tail hab⟩
    · have ha : a ∈ below b := Finset.mem_filter.mpr ⟨List.mem_toFinset.mpr (source a b hab), .single hab⟩
      rw [← heq] at ha
      exact acyclic a (Finset.mem_filter.mp ha).2
  exact Subrelation.wf (fun {a b} hab => hlt a b hab) (InvImage.wf (fun b => (below b).card) Nat.lt_wfRel.wf)

namespace Shape

variable {α : Type*}

def values : Shape α → List α
  | nil => []
  | node v c s => v :: (c.values ++ s.values)

@[simp] theorem values_nil : (nil : Shape α).values = [] := rfl

@[simp] theorem values_node (v : α) (c s : Shape α) :
    (node v c s).values = v :: (c.values ++ s.values) := rfl

end Shape

section Arranged

variable {α κ : Type*} [DecidableEq κ] (key : α → κ) (parent : α → Option κ) (items : List α)

/-- The items below a key, in the order of the list. -/
def childItems (p : Option κ) : List α :=
  items.filter fun x => parent x = p

/-- The trees below the items `us`, each item with its own children below it. -/
def Arranged : Shape α → List α → Prop
  | .nil, us => us = []
  | .node v c s, us => ∃ rest, us = v :: rest ∧
      Arranged c (childItems parent items (some (key v))) ∧ Arranged s rest

/-- `b` is the parent of `a`. -/
def Above (a b : α) : Prop :=
  a ∈ items ∧ b ∈ items ∧ parent a = some (key b)

structure Forested : Prop where
  keys : (items.map key).Nodup
  parents : ∀ a ∈ items, ∀ p, parent a = some p → ∃ b ∈ items, key b = p
  acyclic : ∀ a, ¬ TransGen (Above key parent items) a a

end Arranged

/-- Where parents stand lower than their children, no item is its own ancestor. -/
theorem Forested.of_rank {α κ : Type*} {key : α → κ} {parent : α → Option κ} {items : List α}
    (rank : κ → Nat) (keys : (items.map key).Nodup)
    (parents : ∀ a ∈ items, ∀ p ∈ parent a, p ∈ items.map key)
    (lower : ∀ a ∈ items, ∀ p ∈ parent a, rank p < rank (key a)) :
    Forested key parent items := by
  refine ⟨keys, fun a ha p hp => List.mem_map.mp (parents a ha p hp), fun a hcycle => ?_⟩
  have hlt : ∀ b, TransGen (Above key parent items) a b → rank (key b) < rank (key a) := by
    intro b hreach
    induction hreach with
    | single hab => exact lower a hab.1 _ hab.2.2
    | tail _ hbc ih => exact (lower _ hbc.1 _ hbc.2.2).trans ih
  exact absurd (hlt a hcycle) (Nat.lt_irrefl _)

namespace Arranged

variable {α κ : Type*} [DecidableEq κ] {key : α → κ} {parent : α → Option κ} {items : List α}

theorem mem_childItems {p : Option κ} {a : α} :
    a ∈ childItems parent items p ↔ a ∈ items ∧ parent a = p := by
  simp [childItems]

theorem of_forall {us : List α}
    (each : ∀ u ∈ us, ∃ t, Arranged key parent items t (childItems parent items (some (key u)))) :
    ∃ t, Arranged key parent items t us := by
  induction us with
  | nil => exact ⟨.nil, rfl⟩
  | cons u us ih =>
      obtain ⟨c, hc⟩ := each u (by simp)
      obtain ⟨s, hs⟩ := ih fun v hv => each v (by simp [hv])
      exact ⟨.node u c s, us, rfl, hc, hs⟩

/-- The forest exists: the recursion goes down to the children. -/
theorem exists_of_forested (forested : Forested key parent items) :
    ∃ t, Arranged key parent items t (childItems parent items none) := by
  have hwf : WellFounded (Above key parent items) :=
    wellFounded_of_acyclic (fun a b h => h.1) forested.acyclic
  refine of_forall fun u hu => ?_
  have hin : u ∈ items := (mem_childItems.mp hu).1
  clear hu
  induction u using hwf.induction with
  | _ u ih =>
      refine of_forall fun v hv => ?_
      obtain ⟨hv, hparent⟩ := mem_childItems.mp hv
      exact ih v ⟨hv, hin, hparent⟩ hv

theorem sub {t : Shape α} {us : List α} (arranged : Arranged key parent items t us)
    (hus : ∀ u ∈ us, u ∈ items) : ∀ a ∈ t.values, a ∈ items := by
  induction t generalizing us with
  | nil => simp
  | node v c s ihc ihs =>
      obtain ⟨rest, rfl, hc, hs⟩ := arranged
      intro a ha
      rw [Shape.values_node, List.mem_cons, List.mem_append] at ha
      rcases ha with rfl | ha | ha
      · exact hus a (by simp)
      · exact ihc hc (fun u hu => (mem_childItems.mp hu).1) a ha
      · exact ihs hs (fun u hu => hus u (by simp [hu])) a ha

theorem heads {t : Shape α} {us : List α} (arranged : Arranged key parent items t us) :
    ∀ u ∈ us, u ∈ t.values := by
  induction t generalizing us with
  | nil =>
      rw [arranged]
      simp
  | node v c s _ ihs =>
      obtain ⟨rest, rfl, _, hs⟩ := arranged
      intro u hu
      rcases List.mem_cons.mp hu with rfl | hu
      · simp
      · simp [ihs hs u hu]

theorem childs_mem {t : Shape α} {us : List α} (arranged : Arranged key parent items t us) {a : α}
    (ha : a ∈ t.values) : ∀ b ∈ childItems parent items (some (key a)), b ∈ t.values := by
  induction t generalizing us with
  | nil => simp at ha
  | node v c s ihc ihs =>
      obtain ⟨rest, rfl, hc, hs⟩ := arranged
      intro b hb
      rw [Shape.values_node, List.mem_cons, List.mem_append] at ha ⊢
      rcases ha with rfl | ha | ha
      · exact .inr (.inl (hc.heads b hb))
      · exact .inr (.inl (ihc hc ha b hb))
      · exact .inr (.inr (ihs hs ha b hb))

/-- Every item has its place: the induction goes up to the roots. -/
theorem complete (forested : Forested key parent items) {t : Shape α}
    (arranged : Arranged key parent items t (childItems parent items none)) :
    ∀ a ∈ items, a ∈ t.values := by
  have hwf : WellFounded (Function.swap (Above key parent items)) := by
    refine wellFounded_of_acyclic (l := items) (fun a b h => h.2.1) fun a hcycle => ?_
    exact forested.acyclic a (transGen_swap.mp hcycle)
  intro a
  induction a using hwf.induction with
  | _ a ih =>
      intro ha
      cases hparent : parent a with
      | none => exact arranged.heads a (mem_childItems.mpr ⟨ha, hparent⟩)
      | some p =>
          obtain ⟨b, hb, rfl⟩ := forested.parents a ha p hparent
          exact arranged.childs_mem (ih b ⟨ha, hb, hparent⟩ hb) a (mem_childItems.mpr ⟨ha, hparent⟩)

/-- Every node of the forest is one of its heads or stands below one. -/
theorem below_head {t : Shape α} {us : List α} (arranged : Arranged key parent items t us)
    (hus : ∀ u ∈ us, u ∈ items) {a : α} (ha : a ∈ t.values) :
    ∃ u ∈ us, ReflTransGen (Above key parent items) a u := by
  induction t generalizing us with
  | nil => simp at ha
  | node v c s ihc ihs =>
      obtain ⟨rest, rfl, hc, hs⟩ := arranged
      rw [Shape.values_node, List.mem_cons, List.mem_append] at ha
      rcases ha with rfl | ha | ha
      · exact ⟨a, by simp, .refl⟩
      · obtain ⟨u, hu, hreach⟩ := ihc hc (fun u hu => (mem_childItems.mp hu).1) ha
        obtain ⟨hu, hparent⟩ := mem_childItems.mp hu
        exact ⟨v, by simp, hreach.tail ⟨hu, hus v (by simp), hparent⟩⟩
      · obtain ⟨u, hu, hreach⟩ := ihs hs (fun u hu => hus u (by simp [hu])) ha
        exact ⟨u, by simp [hu], hreach⟩

omit [DecidableEq κ] in
/-- Nothing stands below two siblings. -/
theorem siblings_apart (forested : Forested key parent items) {u v w : α} (hu : u ∈ items)
    (hv : v ∈ items) (same : parent u = parent v) (hne : u ≠ v)
    (hwu : ReflTransGen (Above key parent items) w u) :
    ¬ ReflTransGen (Above key parent items) w v := by
  intro hwv
  have hunique : Relator.RightUnique (Above key parent items) := by
    intro a b c hb hc
    refine List.inj_on_of_nodup_map forested.keys hb.2.1 hc.2.1 (Option.some.inj ?_)
    rw [← hb.2.2, ← hc.2.2]
  have hclimb : ∀ {u v : α}, v ∈ items → parent u = parent v → u ≠ v →
      ¬ ReflTransGen (Above key parent items) u v := by
    intro u v hv same hne hreach
    rcases hreach.cases_head with heq | ⟨x, hux, hxv⟩
    · exact hne heq
    · have hvx : Above key parent items v x := ⟨hv, hux.2.1, same ▸ hux.2.2⟩
      exact forested.acyclic v (.trans_left (.single hvx) hxv)
  rcases ReflTransGen.total_of_right_unique hunique hwu hwv with huv | hvu
  · exact hclimb hv same hne huv
  · exact hclimb hu same.symm hne.symm hvu

/-- No item has two places. -/
theorem nodup (forested : Forested key parent items) {t : Shape α} {us : List α}
    (arranged : Arranged key parent items t us) (hus : ∀ u ∈ us, u ∈ items) (hnodup : us.Nodup)
    {p : Option κ} (same : ∀ u ∈ us, parent u = p) : t.values.Nodup := by
  induction t generalizing us p with
  | nil => simp
  | node v c s ihc ihs =>
      obtain ⟨rest, rfl, hc, hs⟩ := arranged
      obtain ⟨hvrest, hrest⟩ := List.nodup_cons.mp hnodup
      have hv : v ∈ items := hus v (by simp)
      have hin : ∀ u ∈ rest, u ∈ items := fun u hu => hus u (by simp [hu])
      have hbelow : ∀ a ∈ c.values, TransGen (Above key parent items) a v := by
        intro a ha
        obtain ⟨u, hu, hreach⟩ := hc.below_head (fun u hu => (mem_childItems.mp hu).1) ha
        obtain ⟨hu, hparent⟩ := mem_childItems.mp hu
        exact .tail' hreach ⟨hu, hv, hparent⟩
      have hapart : ∀ a ∈ s.values, ¬ ReflTransGen (Above key parent items) a v := by
        intro a ha hav
        obtain ⟨u, hu, hreach⟩ := hs.below_head hin ha
        exact siblings_apart forested (hin u hu) hv
          ((same u (by simp [hu])).trans (same v (by simp)).symm) (ne_of_mem_of_not_mem hu hvrest)
          hreach hav
      have hitems : items.Nodup := forested.keys.of_map
      rw [Shape.values_node, List.nodup_cons, List.mem_append, not_or, List.nodup_append]
      refine ⟨⟨fun ha => forested.acyclic v (hbelow v ha), fun ha => hapart v ha .refl⟩,
        ihc hc (fun u hu => (mem_childItems.mp hu).1) (hitems.filter _)
          (fun u hu => (mem_childItems.mp hu).2),
        ihs hs hin hrest fun u hu => same u (by simp [hu]), ?_⟩
      rintro a ha b hb rfl
      exact hapart a hb (hbelow a ha).to_reflTransGen

/-- The forest holds every item once. -/
theorem perm (forested : Forested key parent items) {t : Shape α}
    (arranged : Arranged key parent items t (childItems parent items none)) :
    t.values.Perm items := by
  have hroots : ∀ u ∈ childItems parent items none, u ∈ items ∧ parent u = none :=
    fun u hu => mem_childItems.mp hu
  have hitems : items.Nodup := forested.keys.of_map
  have hnodup := arranged.nodup forested (fun u hu => (hroots u hu).1) (hitems.filter _)
    fun u hu => (hroots u hu).2
  refine (List.perm_ext_iff_of_nodup hnodup hitems).mpr fun a => ⟨?_, arranged.complete forested a⟩
  exact arranged.sub (fun u hu => (hroots u hu).1) a

end Arranged

end DispService.Lib
