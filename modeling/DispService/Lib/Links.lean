import Mathlib.Logic.Relation
import DispService.Lib.LinkedForest

/-! The list of children of each node of a forest, in document order. -/
namespace DispService.Lib

variable {α : Type*}

namespace Forest

/-- Every node with its children. -/
def links : Forest α → List (Nat × List Nat)
  | nil => []
  | node a _ c s => (a, c.roots) :: (c.links ++ s.links)

@[simp] theorem links_nil : (nil : Forest α).links = [] := rfl

@[simp] theorem links_node (a : Nat) (v : α) (c s : Forest α) :
    (node a v c s).links = (a, c.roots) :: (c.links ++ s.links) := rfl

@[simp] theorem links_append (f g : Forest α) : (f.append g).links = f.links ++ g.links := by
  induction f with
  | nil => rfl
  | node a v c s _ ihs =>
      rw [node_append, links_node, links_node, ihs, List.cons_append, List.append_assoc]

theorem addrs_links (f : Forest α) : f.links.map Prod.fst = f.addrs := by
  induction f with
  | nil => rfl
  | node a v c s ihc ihs =>
      rw [links_node, List.map_cons, List.map_append, ihc, ihs, addrs_node]

theorem mem_addrs_of_link {f : Forest α} {x : Nat × List Nat} (hx : x ∈ f.links) :
    x.1 ∈ f.addrs := by
  rw [← addrs_links]
  exact List.mem_map.mpr ⟨x, hx, rfl⟩

theorem exists_link {f : Forest α} {a : Nat} (ha : a ∈ f.addrs) : ∃ cs, (a, cs) ∈ f.links := by
  rw [← addrs_links] at ha
  obtain ⟨⟨b, cs⟩, hmem, rfl⟩ := List.mem_map.mp ha
  exact ⟨cs, hmem⟩

/-- The children of a node are nodes. -/
theorem childs_sub_of_link {f : Forest α} {x : Nat × List Nat} (hx : x ∈ f.links) :
    ∀ b ∈ x.2, b ∈ f.addrs := by
  induction f with
  | nil => cases hx
  | node a v c s ihc ihs =>
      intro b hb
      rw [links_node, List.mem_cons, List.mem_append] at hx
      rcases hx with rfl | hc | hs
      · simp [addrs_of_root hb]
      · simp [ihc hc b hb]
      · simp [ihs hs b hb]

/-- `b` is listed among the children of `a`. -/
def Linked (links : List (Nat × List Nat)) (a b : Nat) : Prop :=
  ∃ cs, (a, cs) ∈ links ∧ b ∈ cs

theorem linked_unique {t : Forest α} (nodup : t.addrs.Nodup) {a : Nat} {cs ds : List Nat}
    (hcs : (a, cs) ∈ t.links) (hds : (a, ds) ∈ t.links) : cs = ds := by
  rw [← addrs_links] at nodup
  exact (Prod.mk.inj (List.inj_on_of_nodup_map nodup hcs hds rfl)).2

theorem exists_linked {f : Forest α} {a : Nat} (ha : a ∈ f.addrs) :
    a ∈ f.roots ∨ ∃ q, Linked f.links q a := by
  induction f with
  | nil => cases ha
  | node b v c s ihc ihs =>
      rw [addrs_node, List.mem_cons, List.mem_append] at ha
      rcases ha with rfl | hc | hs
      · exact .inl (by simp)
      · rcases ihc hc with hroot | ⟨q, cs, hcs, hmem⟩
        · exact .inr ⟨b, c.roots, by simp, hroot⟩
        · exact .inr ⟨q, cs, by simp [hcs], hmem⟩
      · rcases ihs hs with hroot | ⟨q, cs, hcs, hmem⟩
        · exact .inl (by simp [hroot])
        · exact .inr ⟨q, cs, by simp [hcs], hmem⟩

end Forest

/-- Only the entry of the hole and the entries inside depend on what is put into it. -/
theorem Context.links_plug (C : Context α) :
    ∃ xs ys, ∀ v c, (C.plug v c).links = xs ++ (C.addr, c.roots) :: (c.links ++ ys) := by
  induction C with
  | hole a s => exact ⟨[], s.links, fun _ _ => rfl⟩
  | under b w C s ih =>
      obtain ⟨xs, ys, hlinks⟩ := ih
      refine ⟨(b, C.roots) :: xs, ys ++ s.links, fun v c => ?_⟩
      simp only [plug, Forest.links_node, roots_plug, hlinks, addr, List.cons_append,
        List.append_assoc]
  | after b w d C ih =>
      obtain ⟨xs, ys, hlinks⟩ := ih
      refine ⟨(b, d.roots) :: (d.links ++ xs), ys, fun v c => ?_⟩
      simp only [plug, Forest.links_node, hlinks, addr, List.cons_append, List.append_assoc]

end DispService.Lib

/-! What stays of a reachability relation when nodes are taken out of a graph: one node whose
successors go to its predecessors, or a set that no edge leaves. -/
namespace DispService.Lib

open Relation

variable {α : Type*} {R S : α → α → Prop} {a b n : α}

/-- `S` is `R` without `n`, whose successors are handed to its predecessors. -/
def Bypasses (n : α) (R S : α → α → Prop) : Prop :=
  ∀ a b, S a b ↔ a ≠ n ∧ b ≠ n ∧ (R a b ∨ R a n ∧ R n b)

theorem Bypasses.reaches (bypasses : Bypasses n R S) (reach : TransGen S a b) : TransGen R a b := by
  have hstep : ∀ {c d}, S c d → TransGen R c d := by
    intro c d hcd
    rcases ((bypasses c d).mp hcd).2.2 with hdirect | ⟨hin, hout⟩
    · exact .single hdirect
    · exact .tail (.single hin) hout
  induction reach with
  | single h => exact hstep h
  | tail _ h ih => exact ih.trans (hstep h)

/-- A path of `R` that ends in `n` is a path of `S` up to the last edge. -/
theorem Bypasses.reached (bypasses : Bypasses n R S) (loopless : ¬ R n n) (ha : a ≠ n)
    (reach : TransGen R a b) :
    (b ≠ n → TransGen S a b) ∧ (b = n → ∃ d, ReflTransGen S a d ∧ d ≠ n ∧ R d n) := by
  induction reach with
  | single h =>
      refine ⟨fun hb => .single ((bypasses _ _).mpr ⟨ha, hb, .inl h⟩), ?_⟩
      rintro rfl
      exact ⟨a, .refl, ha, h⟩
  | @tail c d _ h ih =>
      by_cases hc : c = n
      · obtain ⟨e, hreach, he, hen⟩ := ih.2 hc
        subst hc
        refine ⟨fun hd => ?_, ?_⟩
        · exact .tail' hreach ((bypasses e d).mpr ⟨he, hd, .inr ⟨hen, h⟩⟩)
        · rintro rfl
          exact absurd h loopless
      · refine ⟨fun hd => (ih.1 hc).tail ((bypasses c d).mpr ⟨hc, hd, .inl h⟩), ?_⟩
        rintro rfl
        exact ⟨c, (ih.1 hc).to_reflTransGen, hc, h⟩

/-- Reachability among the other nodes does not change. -/
theorem Bypasses.transGen_iff (bypasses : Bypasses n R S) (loopless : ¬ R n n) (ha : a ≠ n)
    (hb : b ≠ n) : TransGen S a b ↔ TransGen R a b :=
  ⟨bypasses.reaches, fun reach => (bypasses.reached loopless ha reach).1 hb⟩

/-- Taking out nodes that lead only to each other keeps the paths to all others. -/
theorem transGen_prune {gone : α → Prop} (prunes : ∀ a b, S a b ↔ R a b ∧ ¬ gone b)
    (closed : ∀ a b, R a b → gone a → gone b) (hb : ¬ gone b) : TransGen S a b ↔ TransGen R a b := by
  refine ⟨fun reach => TransGen.mono (fun c d h => ((prunes c d).mp h).1) a b reach, fun reach => ?_⟩
  induction reach with
  | single h => exact .single ((prunes _ _).mpr ⟨h, hb⟩)
  | @tail c d _ h ih =>
      exact (ih fun hc => hb (closed c d h hc)).tail ((prunes c d).mpr ⟨h, hb⟩)

end DispService.Lib
