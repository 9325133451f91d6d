import DispService.Lib.Heap
import Mathlib.Data.List.Nodup
import Mathlib.Data.List.Perm.Subperm
import Mathlib.Logic.Relation

/-! Ordered forests stored in a heap: each node links to its parent and lists
its children. `Forest` is the shape that a heap stores, with the addresses, and
`Context` is a forest around one node whose value and children are left open. -/
namespace DispService.Lib

structure Node (α : Type*) where
  val : α
  parent : Option Nat
  childs : List Nat
  deriving DecidableEq, Repr

/-- First child and next sibling. -/
inductive Forest (α : Type*) where
  | nil
  | node (addr : Nat) (val : α) (childs siblings : Forest α)
  deriving DecidableEq, Repr

variable {α β : Type*}

namespace Forest

def roots : Forest α → List Nat
  | nil => []
  | node a _ _ s => a :: s.roots

/-- The nodes in document order. -/
def nodes : Forest α → List (Nat × α)
  | nil => []
  | node a v c s => (a, v) :: (c.nodes ++ s.nodes)

def addrs (f : Forest α) : List Nat :=
  f.nodes.map Prod.fst

def depth : Forest α → Nat
  | nil => 0
  | node _ _ c s => max (c.depth + 1) s.depth

def append : Forest α → Forest α → Forest α
  | nil, g => g
  | node a v c s, g => node a v c (s.append g)

def single (a : Nat) (v : α) : Forest α :=
  node a v nil nil

/-- The heap holds every node of the forest, linked in both directions, below
the parent `p`. -/
def Stored (h : Heap (Node α)) (p : Option Nat) : Forest α → Prop
  | nil => True
  | node a v c s => h.read a = some ⟨v, p, c.roots⟩ ∧ Stored h (some a) c ∧ Stored h p s

@[simp] theorem roots_nil : (nil : Forest α).roots = [] := rfl

@[simp] theorem roots_node (a : Nat) (v : α) (c s : Forest α) :
    (node a v c s).roots = a :: s.roots := rfl

@[simp] theorem nodes_nil : (nil : Forest α).nodes = [] := rfl

@[simp] theorem nodes_node (a : Nat) (v : α) (c s : Forest α) :
    (node a v c s).nodes = (a, v) :: (c.nodes ++ s.nodes) := rfl

@[simp] theorem addrs_nil : (nil : Forest α).addrs = [] := rfl

@[simp] theorem addrs_node (a : Nat) (v : α) (c s : Forest α) :
    (node a v c s).addrs = a :: (c.addrs ++ s.addrs) := by
  simp [addrs]

@[simp] theorem stored_nil (h : Heap (Node α)) (p : Option Nat) : Stored h p nil :=
  trivial

@[simp] theorem stored_node {h : Heap (Node α)} {p : Option Nat} {a : Nat} {v : α}
    {c s : Forest α} :
    Stored h p (node a v c s) ↔
      h.read a = some ⟨v, p, c.roots⟩ ∧ Stored h (some a) c ∧ Stored h p s :=
  Iff.rfl

@[simp] theorem nil_append (g : Forest α) : nil.append g = g := rfl

@[simp] theorem node_append (a : Nat) (v : α) (c s g : Forest α) :
    (node a v c s).append g = node a v c (s.append g) := rfl

@[simp] theorem append_nil (f : Forest α) : f.append nil = f := by
  induction f with
  | nil => rfl
  | node a v c s _ ihs => rw [node_append, ihs]

theorem append_assoc (f g k : Forest α) :
    (f.append g).append k = f.append (g.append k) := by
  induction f with
  | nil => rfl
  | node a v c s _ ihs => rw [node_append, node_append, node_append, ihs]

@[simp] theorem roots_append (f g : Forest α) :
    (f.append g).roots = f.roots ++ g.roots := by
  induction f with
  | nil => rfl
  | node a v c s _ ihs => rw [node_append, roots_node, roots_node, ihs, List.cons_append]

@[simp] theorem nodes_append (f g : Forest α) :
    (f.append g).nodes = f.nodes ++ g.nodes := by
  induction f with
  | nil => rfl
  | node a v c s _ ihs =>
      rw [node_append, nodes_node, nodes_node, ihs, List.cons_append, List.append_assoc]

@[simp] theorem addrs_append (f g : Forest α) :
    (f.append g).addrs = f.addrs ++ g.addrs := by
  simp [addrs]

@[simp] theorem stored_append {h : Heap (Node α)} {p : Option Nat} {f g : Forest α} :
    Stored h p (f.append g) ↔ Stored h p f ∧ Stored h p g := by
  induction f with
  | nil => simp
  | node a v c s _ ihs => simp only [node_append, stored_node, ihs, and_assoc]

theorem roots_eq_nil {f : Forest α} : f.roots = [] ↔ f = nil := by
  cases f with
  | nil => simp
  | node a v c s => simp

theorem addrs_of_root {f : Forest α} {a : Nat} (hroot : a ∈ f.roots) : a ∈ f.addrs := by
  induction f with
  | nil => cases hroot
  | node b v c s _ ihs =>
      rw [roots_node, List.mem_cons] at hroot
      cases hroot with
      | inl heq => simp [heq]
      | inr hmem => simp [ihs hmem]

/-- A forest stays stored when its own cells do not change. -/
theorem Stored.frame {h k : Heap (Node α)} {p : Option Nat} {f : Forest α}
    (stored : Stored h p f) (same : ∀ a ∈ f.addrs, k.read a = h.read a) : Stored k p f := by
  induction f generalizing p with
  | nil => trivial
  | node a v c s ihc ihs =>
      obtain ⟨hread, hchilds, hsiblings⟩ := stored
      refine ⟨?_, ihc hchilds ?_, ihs hsiblings ?_⟩
      · rw [same a (by simp), hread]
      · intro b hb
        exact same b (by simp [hb])
      · intro b hb
        exact same b (by simp [hb])

theorem Stored.live {h : Heap (Node α)} {p : Option Nat} {f : Forest α}
    (stored : Stored h p f) {a : Nat} (ha : a ∈ f.addrs) : ∃ n, h.read a = some n := by
  induction f generalizing p with
  | nil => cases ha
  | node b v c s ihc ihs =>
      obtain ⟨hread, hchilds, hsiblings⟩ := stored
      rw [addrs_node, List.mem_cons, List.mem_append] at ha
      rcases ha with rfl | hc | hs
      · exact ⟨_, hread⟩
      · exact ihc hchilds hc
      · exact ihs hsiblings hs

theorem Stored.read_val {h : Heap (Node α)} {p : Option Nat} {f : Forest α}
    (stored : Stored h p f) {x : Nat × α} (hx : x ∈ f.nodes) :
    ∃ n, h.read x.1 = some n ∧ n.val = x.2 := by
  induction f generalizing p with
  | nil => cases hx
  | node b v c s ihc ihs =>
      obtain ⟨hread, hchilds, hsiblings⟩ := stored
      rw [nodes_node, List.mem_cons, List.mem_append] at hx
      rcases hx with rfl | hc | hs
      · exact ⟨_, hread, rfl⟩
      · exact ihc hchilds hc
      · exact ihs hsiblings hs

/-- Only a root can be without a parent. -/
theorem Stored.parent_isSome {h : Heap (Node α)} {q : Nat} {f : Forest α}
    (stored : Stored h (some q) f) {a : Nat} (ha : a ∈ f.addrs) :
    ∃ n, h.read a = some n ∧ n.parent.isSome := by
  induction f generalizing q with
  | nil => cases ha
  | node b v c s ihc ihs =>
      obtain ⟨hread, hchilds, hsiblings⟩ := stored
      rw [addrs_node, List.mem_cons, List.mem_append] at ha
      rcases ha with rfl | hc | hs
      · exact ⟨_, hread, rfl⟩
      · exact ihc hchilds hc
      · exact ihs hsiblings hs

theorem Stored.lt_next {h : Heap (Node α)} {p : Option Nat} {f : Forest α}
    (stored : Stored h p f) {a : Nat} (ha : a ∈ f.addrs) : a < h.next := by
  obtain ⟨n, hread⟩ := stored.live ha
  exact Heap.lt_next_of_read hread

theorem Stored.not_next {h : Heap (Node α)} {p : Option Nat} {f : Forest α}
    (stored : Stored h p f) : h.next ∉ f.addrs := by
  intro hmem
  exact absurd (stored.lt_next hmem) (Nat.lt_irrefl _)

theorem depth_append (f g : Forest α) : (f.append g).depth = max f.depth g.depth := by
  induction f with
  | nil => simp [depth]
  | node a v c s _ ihs => simp only [node_append, depth, ihs, Nat.max_assoc]

theorem depth_le_length (f : Forest α) : f.depth ≤ f.addrs.length := by
  induction f with
  | nil => simp [depth]
  | node a v c s ihc ihs =>
      simp only [depth, addrs_node, List.length_cons, List.length_append]
      omega

theorem length_le_of_lt {f : Forest α} (nodup : f.addrs.Nodup) {n : Nat}
    (hlt : ∀ a ∈ f.addrs, a < n) : f.addrs.length ≤ n := by
  have hsub : f.addrs ⊆ List.range n := by
    intro a ha
    exact List.mem_range.mpr (hlt a ha)
  have hlength := (nodup.subperm hsub).length_le
  rwa [List.length_range] at hlength

theorem depth_le_of_lt {f : Forest α} (nodup : f.addrs.Nodup) {n : Nat}
    (hlt : ∀ a ∈ f.addrs, a < n) : f.depth ≤ n :=
  Nat.le_trans f.depth_le_length (length_le_of_lt nodup hlt)

/-- The number of allocations bounds every descent. -/
theorem Stored.depth_le_next {h : Heap (Node α)} {p : Option Nat} {f : Forest α}
    (stored : Stored h p f) (nodup : f.addrs.Nodup) : f.depth ≤ h.next :=
  depth_le_of_lt nodup fun _ ha => stored.lt_next ha

/-- Split the children list at one of its roots. -/
theorem exists_append_of_root {f : Forest α} {a : Nat} (hroot : a ∈ f.roots) :
    ∃ f₁ v c f₂, f = append f₁ (node a v c f₂) := by
  induction f with
  | nil => cases hroot
  | node b v c s _ ihs =>
      rw [roots_node, List.mem_cons] at hroot
      cases hroot with
      | inl heq => exact ⟨nil, v, c, s, by rw [heq, nil_append]⟩
      | inr hmem =>
          obtain ⟨f₁, w, d, f₂, hsplit⟩ := ihs hmem
          exact ⟨node b v c f₁, w, d, f₂, by rw [hsplit, node_append]⟩

end Forest

/-- A forest around the node `addr`, whose value and children are the hole. -/
inductive Context (α : Type*) where
  | hole (addr : Nat) (siblings : Forest α)
  | under (addr : Nat) (val : α) (childs : Context α) (siblings : Forest α)
  | after (addr : Nat) (val : α) (childs : Forest α) (siblings : Context α)

namespace Context

open Forest

def addr : Context α → Nat
  | hole a _ => a
  | under _ _ C _ => C.addr
  | after _ _ _ C => C.addr

def plug : Context α → α → Forest α → Forest α
  | hole a s, v, c => node a v c s
  | under b w C s, v, c => node b w (C.plug v c) s
  | after b w d C, v, c => node b w d (C.plug v c)

def roots : Context α → List Nat
  | hole a s => a :: s.roots
  | under b _ _ s => b :: s.roots
  | after b _ _ C => b :: C.roots

def nodes : Context α → List (Nat × α)
  | hole _ s => s.nodes
  | under b w C s => (b, w) :: (C.nodes ++ s.nodes)
  | after b w d C => (b, w) :: (d.nodes ++ C.nodes)

def addrs (C : Context α) : List Nat :=
  C.nodes.map Prod.fst

/-- The parent of the hole, when the whole forest is below `p`. -/
def parent : Context α → Option Nat → Option Nat
  | hole _ _, p => p
  | under b _ C _, _ => C.parent (some b)
  | after _ _ _ C, p => C.parent p

def Stored (h : Heap (Node α)) (p : Option Nat) : Context α → Prop
  | hole _ s => Forest.Stored h p s
  | under b w C s => h.read b = some ⟨w, p, C.roots⟩ ∧ C.Stored h (some b) ∧ Forest.Stored h p s
  | after b w d C => h.read b = some ⟨w, p, d.roots⟩ ∧ Forest.Stored h (some b) d ∧ C.Stored h p

/-- Add trees after the siblings on the outermost level. -/
def append : Context α → Forest α → Context α
  | hole a s, g => hole a (s.append g)
  | under b w C s, g => under b w C (s.append g)
  | after b w d C, g => after b w d (C.append g)

@[simp] theorem addr_append (C : Context α) (g : Forest α) : (C.append g).addr = C.addr := by
  induction C with
  | hole a s => rfl
  | under b w C s _ => rfl
  | after b w d C ih => exact ih

@[simp] theorem parent_append (C : Context α) (g : Forest α) (p : Option Nat) :
    (C.append g).parent p = C.parent p := by
  induction C generalizing p with
  | hole a s => rfl
  | under b w C s _ => rfl
  | after b w d C ih => exact ih p

theorem plug_append (C : Context α) (g : Forest α) (v : α) (c : Forest α) :
    (C.append g).plug v c = (C.plug v c).append g := by
  induction C with
  | hole a s => rfl
  | under b w C s _ => rfl
  | after b w d C ih => simp only [append, plug, node_append, ih]

@[simp] theorem roots_plug (C : Context α) (v : α) (c : Forest α) :
    (C.plug v c).roots = C.roots := by
  induction C with
  | hole a s => rfl
  | under b w C s _ => rfl
  | after b w d C ih => simp only [plug, roots_node, roots, ih]

theorem nodes_plug (C : Context α) (v : α) (c : Forest α) :
    (C.plug v c).nodes.Perm ((C.addr, v) :: (c.nodes ++ C.nodes)) := by
  induction C with
  | hole a s => exact List.Perm.refl _
  | under b w C s ih =>
      simp only [plug, nodes_node, nodes, addr]
      have hmove : ((C.plug v c).nodes ++ s.nodes).Perm
          ((C.addr, v) :: (c.nodes ++ (C.nodes ++ s.nodes))) := by
        simpa using ih.append_right s.nodes
      refine (hmove.cons _).trans ?_
      refine (List.Perm.swap _ _ _).trans (List.Perm.cons _ ?_)
      exact List.perm_middle.symm
  | after b w d C ih =>
      simp only [plug, nodes_node, nodes, addr]
      have hmove : (d.nodes ++ (C.plug v c).nodes).Perm
          ((C.addr, v) :: (c.nodes ++ (d.nodes ++ C.nodes))) := by
        refine (ih.append_left d.nodes).trans ?_
        refine List.perm_middle.trans (List.Perm.cons _ ?_)
        exact List.perm_append_comm_assoc _ _ _
      refine (hmove.cons _).trans ?_
      refine (List.Perm.swap _ _ _).trans (List.Perm.cons _ ?_)
      exact List.perm_middle.symm

theorem addrs_plug (C : Context α) (v : α) (c : Forest α) :
    (C.plug v c).addrs.Perm (C.addr :: (c.addrs ++ C.addrs)) := by
  simpa [Forest.addrs, addrs] using (C.nodes_plug v c).map Prod.fst

theorem mem_addrs_plug {C : Context α} {v : α} {c : Forest α} {a : Nat} :
    a ∈ (C.plug v c).addrs ↔ a = C.addr ∨ a ∈ c.addrs ∨ a ∈ C.addrs := by
  rw [(C.addrs_plug v c).mem_iff, List.mem_cons, List.mem_append]

theorem stored_plug {h : Heap (Node α)} {p : Option Nat} {C : Context α} {v : α}
    {c : Forest α} :
    Forest.Stored h p (C.plug v c) ↔
      h.read C.addr = some ⟨v, C.parent p, c.roots⟩ ∧ Forest.Stored h (some C.addr) c ∧
        C.Stored h p := by
  induction C generalizing p with
  | hole a s => exact Iff.rfl
  | under b w C s ih =>
      simp only [plug, stored_node, roots_plug, Stored, addr, parent, ih]
      tauto
  | after b w d C ih =>
      simp only [plug, stored_node, Stored, addr, parent, ih]
      tauto

theorem Stored.frame {h k : Heap (Node α)} {p : Option Nat} {C : Context α}
    (stored : C.Stored h p) (same : ∀ a ∈ C.addrs, k.read a = h.read a) : C.Stored k p := by
  induction C generalizing p with
  | hole a s => exact Forest.Stored.frame stored same
  | under b w C s ih =>
      obtain ⟨hread, hchilds, hsiblings⟩ := stored
      refine ⟨?_, ih hchilds ?_, hsiblings.frame ?_⟩
      · rw [same b (by simp [addrs, nodes]), hread]
      · intro a ha
        exact same a (by simp_all [addrs, nodes])
      · intro a ha
        exact same a (by simp_all [addrs, Forest.addrs, nodes])
  | after b w d C ih =>
      obtain ⟨hread, hchilds, hsiblings⟩ := stored
      refine ⟨?_, hchilds.frame ?_, ih hsiblings ?_⟩
      · rw [same b (by simp [addrs, nodes]), hread]
      · intro a ha
        exact same a (by simp_all [addrs, Forest.addrs, nodes])
      · intro a ha
        exact same a (by simp_all [addrs, nodes])

end Context

namespace Forest

/-- Every node is the hole of a context. -/
theorem exists_plug {f : Forest α} {a : Nat} (ha : a ∈ f.addrs) :
    ∃ (C : Context α) (v : α) (c : Forest α), C.addr = a ∧ f = C.plug v c := by
  induction f with
  | nil => cases ha
  | node b w c s ihc ihs =>
      rw [addrs_node, List.mem_cons, List.mem_append] at ha
      rcases ha with heq | hc | hs
      · exact ⟨.hole b s, w, c, heq.symm, rfl⟩
      · obtain ⟨C, v, d, haddr, hplug⟩ := ihc hc
        exact ⟨.under b w C s, v, d, haddr, by rw [hplug]; rfl⟩
      · obtain ⟨C, v, d, haddr, hplug⟩ := ihs hs
        exact ⟨.after b w c C, v, d, haddr, by rw [hplug]; rfl⟩

/-- Every node that is not a root is a child of the hole of a context. -/
theorem exists_plug_child {f : Forest α} {a : Nat} (ha : a ∈ f.addrs) (hroot : a ∉ f.roots) :
    ∃ (C : Context α) (v : α) (c₁ : Forest α) (w : α) (c c₂ : Forest α),
      f = C.plug v (c₁.append (node a w c c₂)) := by
  induction f with
  | nil => cases ha
  | node b w c s ihc ihs =>
      rw [addrs_node, List.mem_cons, List.mem_append] at ha
      rw [roots_node, List.mem_cons, not_or] at hroot
      rcases ha with heq | hc | hs
      · exact absurd heq hroot.1
      · by_cases hchild : a ∈ c.roots
        · obtain ⟨c₁, v, d, c₂, hsplit⟩ := exists_append_of_root hchild
          exact ⟨.hole b s, w, c₁, v, d, c₂, by rw [hsplit]; rfl⟩
        · obtain ⟨C, v, c₁, u, d, c₂, hplug⟩ := ihc hc hchild
          exact ⟨.under b w C s, v, c₁, u, d, c₂, by rw [hplug]; rfl⟩
      · obtain ⟨C, v, c₁, u, d, c₂, hplug⟩ := ihs hs hroot.2
        exact ⟨.after b w c C, v, c₁, u, d, c₂, by rw [hplug]; rfl⟩

end Forest

/-- A hole in a tree with the root `r` leaves the root in place. -/
theorem Context.plug_tree {C : Context α} {w v : α} {d c : Forest α} {r : Nat}
    (hplug : Forest.node r v c .nil = C.plug w d) (x : Forest α) :
    ∃ c', C.plug w x = Forest.node r v c' .nil := by
  cases C with
  | hole a s =>
      simp only [plug, Forest.node.injEq] at hplug
      obtain ⟨rfl, rfl, _, rfl⟩ := hplug
      exact ⟨x, rfl⟩
  | under b u C s =>
      simp only [plug, Forest.node.injEq] at hplug
      obtain ⟨rfl, rfl, _, rfl⟩ := hplug
      exact ⟨C.plug w x, rfl⟩
  | after b u e C =>
      simp only [plug, Forest.node.injEq] at hplug
      have hroots := congrArg Forest.roots hplug.2.2.2
      cases C with
      | hole => simp [roots, Forest.roots] at hroots
      | under => simp [roots, Forest.roots] at hroots
      | after => simp [roots, Forest.roots] at hroots

/-- The context of the last child of a hole. -/
theorem Context.exists_last (C : Context α) (u : α) (d : Forest α) (x : Nat) :
    ∃ C' : Context α, C'.addr = x ∧ (∀ p, C'.parent p = some C.addr) ∧
      ∀ w e, C'.plug w e = C.plug u (d.append (Forest.node x w e .nil)) := by
  have hlast : ∃ D : Context α, D.addr = x ∧ (∀ p, D.parent p = p) ∧
      ∀ w e, D.plug w e = d.append (Forest.node x w e .nil) := by
    induction d with
    | nil => exact ⟨.hole x .nil, rfl, fun _ => rfl, fun _ _ => rfl⟩
    | node a v c s _ ih =>
        obtain ⟨D, haddr, hparent, hplug⟩ := ih
        refine ⟨.after a v c D, haddr, hparent, fun w e => ?_⟩
        rw [Context.plug, hplug, Forest.node_append]
  obtain ⟨D, haddr, hparent, hplug⟩ := hlast
  induction C with
  | hole a s => exact ⟨.under a u D s, haddr, fun p => hparent _, fun w e => by
      simp only [Context.plug, hplug]⟩
  | under b v C s ih =>
      obtain ⟨C', haddr', hparent', hplug'⟩ := ih
      exact ⟨.under b v C' s, haddr', fun p => hparent' _, fun w e => by
        simp only [Context.plug, hplug']⟩
  | after b v c C ih =>
      obtain ⟨C', haddr', hparent', hplug'⟩ := ih
      exact ⟨.after b v c C', haddr', fun p => hparent' _, fun w e => by
        simp only [Context.plug, hplug']⟩

/-- The addresses of a forest in the middle of the children. -/
theorem Context.addrs_plug_middle (C : Context α) (v : α) (c₁ g c₂ : Forest α) :
    (C.plug v (c₁.append (g.append c₂))).addrs.Perm
      (g.addrs ++ (C.plug v (c₁.append c₂)).addrs) := by
  have hall := C.addrs_plug v (c₁.append (g.append c₂))
  have hrest := C.addrs_plug v (c₁.append c₂)
  refine List.perm_iff_count.mpr fun x => ?_
  have ha := hall.count_eq x
  have hr := hrest.count_eq x
  simp only [Forest.addrs_append, List.count_cons, List.count_append] at ha hr ⊢
  omega

/-- What changes among the children of a hole changes in the whole tree. -/
theorem Context.nodes_edit [DecidableEq α] {C : Context α} {w v : α} {d d' c c' : Forest α}
    {r : Nat} (before : Forest.node r v c .nil = C.plug w d)
    (edited : C.plug w d' = Forest.node r v c' .nil) {gone new : List (Nat × α)}
    (change : (d'.nodes ++ gone).Perm (d.nodes ++ new)) :
    (c'.nodes ++ gone).Perm (c.nodes ++ new) := by
  have hbefore := C.nodes_plug w d
  have hafter := C.nodes_plug w d'
  rw [← before] at hbefore
  rw [edited] at hafter
  refine List.perm_iff_count.mpr fun x => ?_
  have hb := hbefore.count_eq x
  have ha := hafter.count_eq x
  have hc := change.count_eq x
  simp only [Forest.nodes_node, Forest.nodes_nil, List.append_nil, List.count_cons,
    List.count_append] at hb ha hc ⊢
  omega

/-- `b` is listed as a child of `a`. -/
def Child (h : Heap (Node α)) (a b : Nat) : Prop :=
  ∃ n, h.read a = some n ∧ b ∈ n.childs

/-- `b` is `a` or is found below it through the lists of children. -/
abbrev Below (h : Heap (Node α)) : Nat → Nat → Prop :=
  Relation.ReflTransGen (Child h)

namespace Forest

theorem Stored.child_mem {h : Heap (Node α)} {p : Option Nat} {f : Forest α}
    (stored : Stored h p f) {a b : Nat} (ha : a ∈ f.addrs) (child : Child h a b) :
    b ∈ f.addrs := by
  induction f generalizing p with
  | nil => cases ha
  | node d v c s ihc ihs =>
      obtain ⟨hread, hchilds, hsiblings⟩ := stored
      rw [addrs_node, List.mem_cons, List.mem_append] at ha ⊢
      rcases ha with rfl | hc | hs
      · obtain ⟨n, hn, hb⟩ := child
        rw [hread] at hn
        cases hn
        exact .inr (.inl (addrs_of_root hb))
      · exact .inr (.inl (ihc hchilds hc))
      · exact .inr (.inr (ihs hsiblings hs))

theorem Stored.below_of_roots {h : Heap (Node α)} {p : Option Nat} {f : Forest α} {a : Nat}
    (stored : Stored h p f) (hroots : ∀ r ∈ f.roots, Below h a r) :
    ∀ b ∈ f.addrs, Below h a b := by
  induction f generalizing p with
  | nil =>
      intro b hb
      cases hb
  | node d v c s ihc ihs =>
      obtain ⟨hread, hchilds, hsiblings⟩ := stored
      have hd : Below h a d := hroots d (by simp)
      intro b hb
      rw [addrs_node, List.mem_cons, List.mem_append] at hb
      rcases hb with rfl | hc | hs
      · exact hd
      · refine ihc hchilds ?_ b hc
        intro r hr
        exact hd.tail ⟨_, hread, hr⟩
      · refine ihs hsiblings ?_ b hs
        intro r hr
        exact hroots r (by simp [hr])

/-- The links lead from a stored node to its subtree and to nothing else. -/
theorem Stored.below_iff {h : Heap (Node α)} {p : Option Nat} {a : Nat} {v : α}
    {c s : Forest α} (stored : Stored h p (node a v c s)) (b : Nat) :
    Below h a b ↔ b = a ∨ b ∈ c.addrs := by
  obtain ⟨hread, hchilds, _⟩ := stored
  have htree : Stored h p (node a v c nil) := ⟨hread, hchilds, trivial⟩
  constructor
  · intro hbelow
    have hmem : b ∈ (node a v c nil).addrs := by
      induction hbelow with
      | refl => simp
      | tail _ child ih => exact htree.child_mem ih child
    simpa using hmem
  · intro hb
    rcases hb with rfl | hc
    · exact Relation.ReflTransGen.refl
    · refine hchilds.below_of_roots ?_ b hc
      intro r hr
      exact Relation.ReflTransGen.single ⟨_, hread, hr⟩

theorem Stored.root_parent {h : Heap (Node α)} {p : Option Nat} {f : Forest α}
    (stored : Stored h p f) {a : Nat} (ha : a ∈ f.roots) :
    ∃ n, h.read a = some n ∧ n.parent = p := by
  induction f with
  | nil => cases ha
  | node b v c s _ ihs =>
      obtain ⟨hread, _, hsiblings⟩ := stored
      rw [roots_node, List.mem_cons] at ha
      rcases ha with rfl | hs
      · exact ⟨_, hread, rfl⟩
      · exact ihs hsiblings hs

/-- A listed child knows its parent. -/
theorem Stored.parent_of_child {h : Heap (Node α)} {p : Option Nat} {f : Forest α}
    (stored : Stored h p f) {a b : Nat} (ha : a ∈ f.addrs) (child : Child h a b) :
    ∃ n, h.read b = some n ∧ n.parent = some a := by
  obtain ⟨C, v, c, rfl, rfl⟩ := exists_plug ha
  obtain ⟨hread, hchilds, _⟩ := Context.stored_plug.mp stored
  obtain ⟨n, hn, hb⟩ := child
  rw [hread] at hn
  cases hn
  exact hchilds.root_parent hb

/-- A node that is not a root is listed by its parent. -/
theorem Stored.child_of_parent {h : Heap (Node α)} {p : Option Nat} {f : Forest α}
    (stored : Stored h p f) {b : Nat} (hb : b ∈ f.addrs) (hroot : b ∉ f.roots) :
    ∃ n a, h.read b = some n ∧ n.parent = some a ∧ a ∈ f.addrs ∧ Child h a b := by
  obtain ⟨C, v, c₁, w, c, c₂, rfl⟩ := exists_plug_child hb hroot
  have hC : C.addr ∈ (C.plug v (c₁.append (node b w c c₂))).addrs := by
    rw [(C.addrs_plug _ _).mem_iff]
    exact List.mem_cons_self
  obtain ⟨hread, hchilds, _⟩ := Context.stored_plug.mp stored
  rw [stored_append] at hchilds
  exact ⟨_, C.addr, hchilds.2.1, rfl, hC, _, hread, by simp⟩

theorem roots_sublist (f : Forest α) : f.roots.Sublist f.addrs := by
  induction f with
  | nil => exact List.Sublist.refl _
  | node a v c s _ ihs =>
      rw [roots_node, addrs_node]
      exact (ihs.trans (List.sublist_append_right _ _)).cons_cons a

theorem Stored.childs_nodup {h : Heap (Node α)} {p : Option Nat} {f : Forest α}
    (stored : Stored h p f) (nodup : f.addrs.Nodup) {a : Nat} {n : Node α} (ha : a ∈ f.addrs)
    (hread : h.read a = some n) : n.childs.Nodup := by
  obtain ⟨C, v, c, rfl, rfl⟩ := exists_plug ha
  rw [(Context.stored_plug.mp stored).1] at hread
  cases hread
  rw [(C.addrs_plug v c).nodup_iff, List.nodup_cons, List.nodup_append] at nodup
  exact nodup.2.1.sublist c.roots_sublist

end Forest

/-- The shape of a forest: its values in their places, without the addresses. -/
inductive Shape (α : Type*) where
  | nil
  | node (val : α) (childs siblings : Shape α)
  deriving DecidableEq, Repr

namespace Shape

def append : Shape α → Shape α → Shape α
  | nil, t => t
  | node v c s, t => node v c (s.append t)

end Shape

namespace Forest

def shape : Forest α → Shape α
  | nil => .nil
  | node _ v c s => .node v c.shape s.shape

@[simp] theorem shape_nil : (nil : Forest α).shape = .nil := rfl

@[simp] theorem shape_node (a : Nat) (v : α) (c s : Forest α) :
    (node a v c s).shape = .node v c.shape s.shape := rfl

@[simp] theorem shape_append (f g : Forest α) : (f.append g).shape = f.shape.append g.shape := by
  induction f with
  | nil => rfl
  | node a v c s _ ihs => simp only [node_append, shape_node, Shape.append, ihs]

end Forest

/-- The shape that a reader sees who follows the lists of children. -/
def shapeFrom (h : Heap (Node α)) : Nat → List Nat → Option (Shape α)
  | _, [] => some .nil
  | 0, _ :: _ => none
  | fuel + 1, a :: as => do
      let n ← h.read a
      let childs ← shapeFrom h fuel n.childs
      let siblings ← shapeFrom h fuel as
      return .node n.val childs siblings

/-- The tree below the node `a`. -/
def shapeAt (h : Heap (Node α)) (a : Nat) : Option (Shape α) :=
  shapeFrom h h.next [a]

theorem Forest.Stored.shapeFrom {h : Heap (Node α)} {p : Option Nat} {f : Forest α}
    (stored : Forest.Stored h p f) {fuel : Nat} (hfuel : f.addrs.length ≤ fuel) :
    shapeFrom h fuel f.roots = some f.shape := by
  induction f generalizing p fuel with
  | nil => simp [Lib.shapeFrom]
  | node a v c s ihc ihs =>
      obtain ⟨hread, hchilds, hsiblings⟩ := stored
      rw [addrs_node, List.length_cons, List.length_append] at hfuel
      cases fuel with
      | zero => omega
      | succ fuel =>
          have hc := ihc hchilds (show c.addrs.length ≤ fuel by omega)
          have hs := ihs hsiblings (show s.addrs.length ≤ fuel by omega)
          simp [Lib.shapeFrom, hread, hc, hs]

end DispService.Lib
