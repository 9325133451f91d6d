import DispService.Lib.Links
import DispService.StatesStore.StoreRuns

/-! What a deletion removes. The tree is described as its users see it: the snapshots below the
head, the children of each node without the 'You are here' leaf, and the order of a walk. -/
namespace DispService.StatesStore

open DispService.Lib Forest Relation

/-! ## What is seen of a tree -/

/-- A snapshot is a node of the tree other than the head and the 'You are here' leaf. -/
def IsSnapshot (s : SavedStateStore) (a : Nat) : Prop :=
  ∃ r n, s.root = some r ∧ Below s.heap r a ∧ a ≠ r ∧ s.heap.read a = some n ∧
    n.val.currentState = false

def IsCurrentNode (s : SavedStateStore) (a : Nat) : Prop :=
  ∃ r, s.root = some r ∧ Below s.heap r a ∧ IsCurrent s a

def dataOf (h : TreeHeap) (a : Nat) : Option Snapshot :=
  (h.read a).map fun n => n.val.toSnapshot

def parentOf (h : TreeHeap) (a : Nat) : Option Nat :=
  (h.read a).bind Node.parent

def isYouAreHere (h : TreeHeap) (a : Nat) : Bool :=
  ((h.read a).map fun n => n.val.currentState).getD false

/-- The children of a node in their order, without the 'You are here' leaf. -/
def snapshotChilds (h : TreeHeap) (a : Nat) : List Nat :=
  ((h.read a).map fun n => n.childs.filter fun b => !isYouAreHere h b).getD []

/-- `a` is an ancestor of `b`. -/
def Ancestor (h : TreeHeap) : Nat → Nat → Prop :=
  TransGen fun a b => b ∈ snapshotChilds h a

/-- A walk through the trees below the given nodes, each node before its children. -/
def walk (h : TreeHeap) : Nat → List Nat → List Nat
  | _, [] => []
  | 0, _ :: _ => []
  | fuel + 1, a :: as => a :: (walk h fuel (snapshotChilds h a) ++ walk h fuel as)

/-- The snapshots in the order of the walk. -/
def snapshotOrder (s : SavedStateStore) : List Nat :=
  match s.root with
  | none => []
  | some r => walk s.heap s.heap.next (snapshotChilds s.heap r)

/-- `t` is `s` without the snapshots `gone`: the branch at `n`, a child of `p`, gives its place to
the nodes `adopted`, and the mark of a lost current node goes to `p`. -/
structure Removes (s t : SavedStateStore) (p n : Nat) (gone adopted : List Nat) : Prop where
  snapshots : ∀ a, IsSnapshot t a ↔ IsSnapshot s a ∧ a ∉ gone
  data : ∀ a, IsSnapshot t a → dataOf t.heap a = dataOf s.heap a
  head : ∀ r, t.root = some r → s.root = some r
  childs_parent : t.root ≠ none → ∃ before after,
    snapshotChilds s.heap p = before ++ n :: after ∧
    snapshotChilds t.heap p = before ++ (adopted ++ after)
  childs : t.root ≠ none → ∀ a, a ≠ p → a ∉ gone →
    snapshotChilds t.heap a = snapshotChilds s.heap a
  parents : ∀ a, IsSnapshot t a →
    parentOf t.heap a = if a ∈ adopted then some p else parentOf s.heap a
  ancestors : ∀ a b, a ∉ gone → b ∉ gone → (Ancestor t.heap a b ↔ Ancestor s.heap a b)
  order : ∃ before after, snapshotOrder s = before ++ gone ++ after ∧
    snapshotOrder t = before ++ after
  current : t.root ≠ none → ∃ c, (∀ a, IsCurrentNode s a ↔ a = c) ∧
    ∀ a, IsCurrentNode t a ↔ a = if c ∈ gone then p else c
  null : t.root = none ↔ ∀ a, IsSnapshot s a → a ∈ gone

/-! ## A marked tree -/

section Marked

variable {h : TreeHeap} {m : Marks} {t : Forest Snapshot} {detached : List Nat}

theorem read_childs {q : Option Nat} (stored : Stored h q (mark m t)) {x : Nat × List Nat}
    (hx : x ∈ t.links) :
    ∃ n, h.read x.1 = some n ∧ n.childs = x.2 ++ (leafOf (m x.1)).roots := by
  induction t generalizing q with
  | nil => cases hx
  | node a v c s ihc ihs =>
      obtain ⟨hread, hchilds, hsiblings⟩ := stored
      rw [links_node, List.mem_cons, List.mem_append] at hx
      rcases hx with rfl | hc | hs
      · exact ⟨_, hread, by simp⟩
      · exact ihc (stored_append.mp hchilds).1 hc
      · exact ihs hsiblings hs

theorem leaf_val {q : Option Nat} (stored : Stored h q (mark m t)) {a l : Nat} (ha : a ∈ t.addrs)
    (hl : m a = some l) : ∃ n, h.read l = some n ∧ n.val = youAreHere := by
  have hmem : (l, youAreHere) ∈ (mark m t).nodes := by
    rw [(nodes_mark m t).mem_iff, List.mem_append]
    exact .inr (List.mem_map.mpr ⟨l, List.mem_filterMap.mpr ⟨a, ha, hl⟩, rfl⟩)
  exact stored.read_val hmem

theorem leaf_read {q : Option Nat} (stored : Stored h q (mark m t)) {a l : Nat} (ha : a ∈ t.addrs)
    (hl : m a = some l) : isYouAreHere h l = true := by
  obtain ⟨n, hread, hval⟩ := leaf_val stored ha hl
  simp [isYouAreHere, hread, hval]

theorem Holds.childs (holds : Holds h m t detached) {x : Nat × List Nat} (hx : x ∈ t.links) :
    snapshotChilds h x.1 = x.2 := by
  obtain ⟨n, hread, hchilds⟩ := read_childs holds.stored hx
  have hkept : x.2.filter (fun b => !isYouAreHere h b) = x.2 := by
    refine List.filter_eq_self.mpr fun b hb => ?_
    obtain ⟨k, hk, hstate⟩ := currentState_of_mem holds.stored (childs_sub_of_link hx b hb)
    simp [isYouAreHere, hk, hstate]
  have hleaf : (leafOf (m x.1)).roots.filter (fun b => !isYouAreHere h b) = [] := by
    refine List.filter_eq_nil_iff.mpr fun b hb => ?_
    have hm := mem_leafOf.mp (addrs_of_root hb)
    simp [leaf_read holds.stored (mem_addrs_of_link hx) hm]
  simp [snapshotChilds, hread, hchilds, hkept, hleaf]

theorem Holds.parentOf {a : Nat} (holds : Holds h m t detached) {x : Nat × List Nat}
    (hx : x ∈ t.links) (ha : a ∈ x.2) : parentOf h a = some x.1 := by
  obtain ⟨n, hread, hchilds⟩ := read_childs holds.stored hx
  obtain ⟨k, hk, hparent⟩ := holds.stored.parent_of_child (b := a)
    (mem_addrs_mark.mpr (.inl (mem_addrs_of_link hx))) ⟨n, hread, by simp [hchilds, ha]⟩
  simp [StatesStore.parentOf, hk, hparent]

theorem Holds.dataOf (holds : Holds h m t detached) {x : Nat × Snapshot} (hx : x ∈ t.nodes) :
    dataOf h x.1 = some x.2 := by
  obtain ⟨n, hread, hval⟩ := holds.read_snapshot hx
  simp [StatesStore.dataOf, hread, hval]

theorem walk_eq {g : Forest Snapshot} (childs : ∀ x ∈ g.links, snapshotChilds h x.1 = x.2)
    {fuel : Nat} (hfuel : g.addrs.length ≤ fuel) : walk h fuel g.roots = g.addrs := by
  induction g generalizing fuel with
  | nil =>
      cases fuel with
      | zero => rfl
      | succ fuel => rfl
  | node a v c s ihc ihs =>
      rw [addrs_node, List.length_cons, List.length_append] at hfuel
      cases fuel with
      | zero => omega
      | succ fuel =>
          have ha : snapshotChilds h a = c.roots := childs (a, c.roots) (by simp)
          have hc := ihc (fun x hx => childs x (by simp [hx]))
            (show c.addrs.length ≤ fuel by omega)
          have hs := ihs (fun x hx => childs x (by simp [hx]))
            (show s.addrs.length ≤ fuel by omega)
          rw [roots_node, walk, ha, hc, hs, addrs_node]

end Marked

section Tree

variable {s : SavedStateStore} {r c n : Nat} {v : Snapshot} {f : Forest Snapshot}
  {detached : List Nat}

theorem Holds.below_iff {m : Marks} {h : TreeHeap} (holds : Holds h m (node r v f nil) detached)
    (a : Nat) : Below h r a ↔ a ∈ (mark m (node r v f nil)).addrs := by
  rw [holds.stored.below_iff a, mark_node, addrs_node, List.mem_cons, mark_nil, addrs_nil,
    List.append_nil]

theorem Holds.isSnapshot_iff {m : Marks} (holds : Holds s.heap m (node r v f nil) detached)
    (hroot : s.root = some r) (a : Nat) : IsSnapshot s a ↔ a ∈ f.addrs := by
  constructor
  · rintro ⟨r', x, hr', hreach, hne, hread, hstate⟩
    rw [hroot] at hr'
    cases hr'
    rcases mem_addrs_mark.mp ((holds.below_iff a).mp hreach) with hmem | ⟨b, hb, hl⟩
    · simpa [hne] using hmem
    · have hleaf := leaf_read holds.stored hb hl
      simp [isYouAreHere, hread, hstate] at hleaf
  · intro ha
    have hmem : a ∈ (node r v f nil).addrs := by simp [ha]
    obtain ⟨x, hread, hstate⟩ := currentState_of_mem holds.stored hmem
    exact ⟨r, x, hroot, (holds.below_iff a).mpr (mem_addrs_mark.mpr (.inl hmem)),
      ne_of_mem_of_not_mem ha holds.snapshots_nodup.1, hread, hstate⟩

theorem Holds.isCurrentNode_iff {m : Marks} (holds : Holds s.heap m (node r v f nil) detached)
    (hroot : s.root = some r) (a : Nat) :
    IsCurrentNode s a ↔ a ∈ (node r v f nil).addrs ∧ (m a).isSome = true := by
  have hval : ∀ b ∈ (node r v f nil).addrs, IsCurrent s b ↔ (m b).isSome = true := by
    intro b hb
    obtain ⟨w, hw⟩ := mem_addrs_iff.mp hb
    obtain ⟨x, hx, hxval⟩ := holds.read_snapshot hw
    simp [IsCurrent, hx, hxval]
  constructor
  · rintro ⟨r', hr', hreach, x, hread, hcurrent⟩
    rw [hroot] at hr'
    cases hr'
    rcases mem_addrs_mark.mp ((holds.below_iff a).mp hreach) with hmem | ⟨b, hb, hl⟩
    · exact ⟨hmem, (hval a hmem).mp ⟨x, hread, hcurrent⟩⟩
    · obtain ⟨y, hy, hleaf⟩ := leaf_val holds.stored hb hl
      rw [hread] at hy
      cases hy
      rw [hleaf] at hcurrent
      cases hcurrent
  · rintro ⟨ha, hmark⟩
    exact ⟨r, hroot, (holds.below_iff a).mpr (mem_addrs_mark.mpr (.inl ha)), (hval a ha).mpr hmark⟩

theorem MarkedAt.isSnapshot_iff (marked : MarkedAt s r v f c detached) (a : Nat) :
    IsSnapshot s a ↔ a ∈ f.addrs := by
  obtain ⟨l, hroot, _, holds⟩ := marked
  exact holds.isSnapshot_iff hroot a

theorem MarkedAt.isCurrentNode_iff (marked : MarkedAt s r v f c detached) (a : Nat) :
    IsCurrentNode s a ↔ a = c := by
  obtain ⟨l, hroot, hc, holds⟩ := marked
  rw [holds.isCurrentNode_iff hroot]
  constructor
  · rintro ⟨_, hmark⟩
    obtain ⟨l', hl'⟩ := Option.isSome_iff_exists.mp hmark
    exact (marksAt_eq_some.mp hl').1
  · rintro rfl
    exact ⟨hc, by rw [marksAt_self]; rfl⟩

theorem MarkedAt.childs (marked : MarkedAt s r v f c []) {x : Nat × List Nat}
    (hx : x ∈ (node r v f nil).links) : snapshotChilds s.heap x.1 = x.2 := by
  obtain ⟨l, _, _, holds⟩ := marked
  exact holds.childs hx

/-- Only nodes of the tree have children. -/
theorem MarkedAt.child_iff (marked : MarkedAt s r v f c []) (a b : Nat) :
    b ∈ snapshotChilds s.heap a ↔ Linked (node r v f nil).links a b := by
  constructor
  · intro hb
    by_cases ha : a ∈ (node r v f nil).addrs
    · obtain ⟨cs, hcs⟩ := exists_link ha
      have hchilds : snapshotChilds s.heap a = cs := marked.childs hcs
      exact ⟨cs, hcs, hchilds ▸ hb⟩
    · obtain ⟨l, hroot, hc, holds⟩ := marked
      exfalso
      cases hread : s.heap.read a with
      | none => simp [snapshotChilds, hread] at hb
      | some x =>
          have hlive := (holds.only a x hread).resolve_right (by simp)
          rw [mem_addrs_marksAt hc] at hlive
          obtain ⟨_, y, _, hy, _, _, hnil⟩ := holds.read_leaf hc
          rw [hlive.resolve_left ha, hy] at hread
          cases hread
          simp [snapshotChilds, hlive.resolve_left ha, hy, hnil] at hb
  · rintro ⟨cs, hcs, hb⟩
    have hchilds : snapshotChilds s.heap a = cs := marked.childs hcs
    rwa [hchilds]

theorem MarkedAt.order (marked : MarkedAt s r v f c []) : snapshotOrder s = f.addrs := by
  have hr : snapshotChilds s.heap r = f.roots := marked.childs (x := (r, f.roots)) (by simp)
  have hchilds : ∀ x ∈ f.links, snapshotChilds s.heap x.1 = x.2 := fun x hx =>
    marked.childs (by simp [hx])
  obtain ⟨l, hroot, hc, holds⟩ := marked
  have hlength : f.addrs.length ≤ s.heap.next :=
    length_le_of_lt holds.snapshots_nodup.2 fun a ha => holds.lt_next (by simp [ha])
  simp only [snapshotOrder, hroot, hr]
  exact walk_eq hchilds hlength

end Tree

/-! ## The replaced branch -/

section Replace

variable {s t : SavedStateStore} {r c p n : Nat} {v w : Snapshot} {f f' cn g : Forest Snapshot}

/-- Only the entry of the parent changes, and the entries of the branch go. -/
theorem Replaced.links (replaced : Replaced r v f f' p n w cn g) :
    ∃ before after xs zs ys,
      (node r v f nil).links =
        xs ++ (p, before ++ n :: after) :: (zs ++ (n, cn.roots) :: (cn.links ++ ys)) ∧
      (node r v f' nil).links =
        xs ++ (p, before ++ (g.roots ++ after)) :: (zs ++ (g.links ++ ys)) := by
  obtain ⟨C, u, d₁, d₂, rfl, hbefore, hafter⟩ := replaced.place
  obtain ⟨xs, ys, hlinks⟩ := C.links_plug
  refine ⟨d₁.roots, d₂.roots, xs, d₁.links, d₂.links ++ ys, ?_, ?_⟩
  · rw [hbefore, hlinks]
    simp
  · rw [← hafter, hlinks]
    simp

theorem Replaced.order (replaced : Replaced r v f f' p n w cn g) :
    ∃ before after, f.addrs = before ++ (n :: cn.addrs) ++ after ∧
      f'.addrs = before ++ g.addrs ++ after := by
  obtain ⟨_, _, xs, zs, ys, hf, hf'⟩ := replaced.links
  have hmap := congrArg (List.map Prod.fst) hf
  have hmap' := congrArg (List.map Prod.fst) hf'
  simp only [addrs_links, addrs_node, addrs_nil, List.append_nil, List.map_append, List.map_cons]
    at hmap hmap'
  cases xs with
  | nil =>
      refine ⟨zs.map Prod.fst, ys.map Prod.fst, ?_, ?_⟩
      · simpa using (List.cons.inj hmap).2
      · simpa using (List.cons.inj hmap').2
  | cons x xs =>
      refine ⟨xs.map Prod.fst ++ p :: zs.map Prod.fst, ys.map Prod.fst, ?_, ?_⟩
      · simpa using (List.cons.inj hmap).2
      · simpa using (List.cons.inj hmap').2

theorem Replaced.branch_nodup (replaced : Replaced r v f f' p n w cn g)
    (nodup : (node r v f nil).addrs.Nodup) : n ∉ cn.addrs := by
  obtain ⟨before, after, hf, _⟩ := replaced.order
  rw [addrs_node, hf, List.nodup_cons, List.nodup_append, List.nodup_append,
    List.nodup_append] at nodup
  exact (List.nodup_cons.mp nodup.2.1.1.2.1).1

theorem MarkedAt.parentOf (marked : MarkedAt s r v f c []) {a b : Nat}
    (linked : Linked (node r v f nil).links a b) : parentOf s.heap b = some a := by
  obtain ⟨l, _, _, holds⟩ := marked
  obtain ⟨cs, hcs, hb⟩ := linked
  exact holds.parentOf hcs hb

/-- A node that gives its place to its children is bypassed. -/
theorem Replaced.bypasses (marked : MarkedAt s r v f c [])
    (replaced : Replaced r v f f' p n w cn cn) (hn : n ∉ (node r v f' nil).addrs) :
    Bypasses n (Linked (node r v f nil).links) (Linked (node r v f' nil).links) := by
  obtain ⟨l, _, _, holds⟩ := id marked
  have hnodup := holds.addrs_nodup
  obtain ⟨before, after, xs, zs, ys, hlinks, hlinks'⟩ := replaced.links
  have hp : (p, before ++ n :: after) ∈ (node r v f nil).links := by
    rw [hlinks]
    simp
  have hnode : (n, cn.roots) ∈ (node r v f nil).links := by
    rw [hlinks]
    simp
  intro a b
  constructor
  · rintro ⟨cs, hcs, hb⟩
    refine ⟨ne_of_mem_of_not_mem (mem_addrs_of_link hcs) hn,
      ne_of_mem_of_not_mem (childs_sub_of_link hcs b hb) hn, ?_⟩
    rw [hlinks'] at hcs
    simp only [List.mem_append, List.mem_cons] at hcs
    rcases hcs with hx | heq | hz | hc | hy
    · exact .inl ⟨cs, by rw [hlinks]; simp [hx], hb⟩
    · obtain ⟨rfl, rfl⟩ := Prod.mk.inj heq
      simp only [List.mem_append] at hb
      rcases hb with hb | hb | hb
      · exact .inl ⟨_, hp, by simp [hb]⟩
      · exact .inr ⟨⟨_, hp, by simp⟩, _, hnode, hb⟩
      · exact .inl ⟨_, hp, by simp [hb]⟩
    · exact .inl ⟨cs, by rw [hlinks]; simp [hz], hb⟩
    · exact .inl ⟨cs, by rw [hlinks]; simp [hc], hb⟩
    · exact .inl ⟨cs, by rw [hlinks]; simp [hy], hb⟩
  · rintro ⟨ha, hbn, ⟨cs, hcs, hb⟩ | ⟨hin, ds, hds, hb⟩⟩
    · rw [hlinks] at hcs
      simp only [List.mem_append, List.mem_cons] at hcs
      rcases hcs with hx | heq | hz | heq | hc | hy
      · exact ⟨cs, by rw [hlinks']; simp [hx], hb⟩
      · obtain ⟨rfl, rfl⟩ := Prod.mk.inj heq
        simp only [List.mem_append, List.mem_cons, hbn, false_or] at hb
        exact ⟨before ++ (cn.roots ++ after), by rw [hlinks']; simp, by
          rcases hb with hb | hb <;> simp [hb]⟩
      · exact ⟨cs, by rw [hlinks']; simp [hz], hb⟩
      · exact absurd (Prod.mk.inj heq).1 ha
      · exact ⟨cs, by rw [hlinks']; simp [hc], hb⟩
      · exact ⟨cs, by rw [hlinks']; simp [hy], hb⟩
    · have hparent := marked.parentOf hin
      have hpn : Linked (node r v f nil).links p n := ⟨_, hp, by simp⟩
      rw [marked.parentOf hpn] at hparent
      cases hparent
      rw [linked_unique hnodup hds hnode] at hb
      exact ⟨before ++ (cn.roots ++ after), by rw [hlinks']; simp, by simp [hb]⟩

/-- A branch that is taken out leads only to itself. -/
theorem Replaced.prunes (replaced : Replaced r v f f' p n w cn nil)
    (nodup : (node r v f nil).addrs.Nodup) :
    (∀ a b, Linked (node r v f' nil).links a b ↔
      Linked (node r v f nil).links a b ∧ b ∉ n :: cn.addrs) ∧
    ∀ a b, Linked (node r v f nil).links a b → a ∈ n :: cn.addrs → b ∈ n :: cn.addrs := by
  have haddrs := replaced.addrs
  rw [addrs_nil, List.append_nil] at haddrs
  have hsplit := haddrs.nodup_iff.mp nodup
  rw [List.nodup_append] at hsplit
  obtain ⟨before, after, xs, zs, ys, hlinks, hlinks'⟩ := replaced.links
  simp only [roots_nil, links_nil, List.nil_append] at hlinks'
  have hclosed : ∀ a cs b, (a, cs) = (n, cn.roots) ∨ (a, cs) ∈ cn.links → b ∈ cs →
      b ∈ n :: cn.addrs := by
    rintro a cs b (heq | hc) hb
    · obtain ⟨rfl, rfl⟩ := Prod.mk.inj heq
      exact List.mem_cons_of_mem _ (addrs_of_root hb)
    · exact List.mem_cons_of_mem _ (childs_sub_of_link hc b hb)
  constructor
  · intro a b
    constructor
    · rintro ⟨cs, hcs, hb⟩
      refine ⟨?_, fun hgone => hsplit.2.2 b hgone b (childs_sub_of_link hcs b hb) rfl⟩
      rw [hlinks'] at hcs
      simp only [List.mem_append, List.mem_cons] at hcs
      rcases hcs with hx | heq | hz | hy
      · exact ⟨cs, by rw [hlinks]; simp [hx], hb⟩
      · obtain ⟨rfl, rfl⟩ := Prod.mk.inj heq
        refine ⟨before ++ n :: after, by rw [hlinks]; simp, ?_⟩
        simp only [List.mem_append, List.mem_cons] at hb ⊢
        exact hb.imp_right .inr
      · exact ⟨cs, by rw [hlinks]; simp [hz], hb⟩
      · exact ⟨cs, by rw [hlinks]; simp [hy], hb⟩
    · rintro ⟨⟨cs, hcs, hb⟩, hgone⟩
      rw [hlinks] at hcs
      simp only [List.mem_append, List.mem_cons] at hcs
      rcases hcs with hx | heq | hz | heq | hc | hy
      · exact ⟨cs, by rw [hlinks']; simp [hx], hb⟩
      · obtain ⟨rfl, rfl⟩ := Prod.mk.inj heq
        refine ⟨before ++ after, by rw [hlinks']; simp, ?_⟩
        simp only [List.mem_append, List.mem_cons] at hb hgone ⊢
        exact hb.imp_right fun h => h.resolve_left fun hn => hgone (.inl hn)
      · exact ⟨cs, by rw [hlinks']; simp [hz], hb⟩
      · exact absurd (hclosed a cs b (.inl heq) hb) hgone
      · exact absurd (hclosed a cs b (.inr hc) hb) hgone
      · exact ⟨cs, by rw [hlinks']; simp [hy], hb⟩
  · rintro a b ⟨cs, hcs, hb⟩ ha
    rcases List.mem_cons.mp ha with rfl | ha
    · have hnode : (a, cn.roots) ∈ (node r v f nil).links := by
        rw [hlinks]
        simp
      exact hclosed a cs b (.inl (by rw [linked_unique nodup hcs hnode])) hb
    · obtain ⟨ds, hds⟩ := exists_link ha
      have hinside : (a, ds) ∈ (node r v f nil).links := by
        rw [hlinks]
        simp [hds]
      exact hclosed a cs b (.inr (by rwa [linked_unique nodup hcs hinside])) hb

/-- What stands below the head after a deletion. -/
theorem Settled.cases (settled : Settled t r v f' c []) (hnone : f' = nil → t.root = none) :
    (t.root = none ∧ f' = nil ∧ ∀ b, t.heap.read b = none) ∨
      t.root = some r ∧ f' ≠ nil ∧ MarkedAt t r v f' c [] := by
  rcases settled with ⟨hroot, hnil, honly⟩ | ⟨l, hroot, hmarked⟩
  · refine .inl ⟨hroot, hnil, fun b => ?_⟩
    rw [Option.eq_none_iff_forall_ne_some]
    exact fun x hx => absurd (honly b x hx) (by simp)
  · refine .inr ⟨hroot, fun hnil => ?_, l, hroot, hmarked⟩
    rw [hnone hnil] at hroot
    cases hroot

theorem Settled.isSnapshot_iff (settled : Settled t r v f' c []) (hnone : f' = nil → t.root = none)
    (a : Nat) : IsSnapshot t a ↔ a ∈ f'.addrs := by
  rcases settled.cases hnone with ⟨hroot, rfl, _⟩ | ⟨_, _, hmarked⟩
  · refine iff_of_false ?_ (by simp)
    rintro ⟨q, x, hq, _⟩
    rw [hroot] at hq
    cases hq
  · exact hmarked.isSnapshot_iff a

theorem Settled.child_iff (settled : Settled t r v f' c []) (hnone : f' = nil → t.root = none)
    (a b : Nat) : b ∈ snapshotChilds t.heap a ↔ Linked (node r v f' nil).links a b := by
  rcases settled.cases hnone with ⟨_, rfl, hempty⟩ | ⟨_, _, hmarked⟩
  · refine iff_of_false (by simp [snapshotChilds, hempty]) ?_
    rintro ⟨cs, hcs, hb⟩
    simp only [links_node, links_nil, roots_nil, List.append_nil, List.mem_singleton,
      Prod.mk.injEq] at hcs
    simp [hcs.2] at hb
  · exact hmarked.child_iff a b

theorem Settled.order (settled : Settled t r v f' c []) (hnone : f' = nil → t.root = none) :
    snapshotOrder t = f'.addrs := by
  rcases settled.cases hnone with ⟨hroot, rfl, _⟩ | ⟨_, _, hmarked⟩
  · simp [snapshotOrder, hroot]
  · exact hmarked.order

theorem Replaced.entry (replaced : Replaced r v f f' p n w cn g) (hg : g = cn ∨ g = nil) :
    ∃ before after, (p, before ++ n :: after) ∈ (node r v f nil).links ∧
      (p, before ++ (g.roots ++ after)) ∈ (node r v f' nil).links ∧
      ∀ x ∈ (node r v f' nil).links, x ∈ (node r v f nil).links ∨
        x = (p, before ++ (g.roots ++ after)) := by
  obtain ⟨before, after, xs, zs, ys, hlinks, hlinks'⟩ := replaced.links
  refine ⟨before, after, by rw [hlinks]; simp, by rw [hlinks']; simp, fun x hx => ?_⟩
  have hsub : x ∈ g.links → x ∈ cn.links := by
    rcases hg with rfl | rfl
    · exact id
    · simp
  rw [hlinks'] at hx
  rw [hlinks]
  simp only [List.mem_append, List.mem_cons] at hx ⊢
  rcases hx with hxs | hp | hzs | hin | hys
  · exact .inl (.inl hxs)
  · exact .inr hp
  · exact .inl (.inr (.inr (.inl hzs)))
  · exact .inl (.inr (.inr (.inr (.inr (.inl (hsub hin))))))
  · exact .inl (.inr (.inr (.inr (.inr (.inr hys)))))

theorem Replaced.nodes_sub (replaced : Replaced r v f f' p n w cn g) (hg : g = cn ∨ g = nil) :
    ∀ x ∈ f'.nodes, x ∈ f.nodes := by
  intro x hx
  have hcount := replaced.nodes.count_eq x
  have hpos := List.count_pos_iff.mpr hx
  refine List.count_pos_iff.mp ?_
  rcases hg with rfl | rfl
  · simp only [List.count_append, List.count_cons] at hcount
    omega
  · simp only [List.count_append, List.count_cons, nodes_nil, List.count_nil] at hcount
    omega

/-- Both deletions: the snapshots `gone` are those of the old order that the new order lacks. -/
theorem Replaced.removes {c' : Nat} {gone : List Nat} (marked : MarkedAt s r v f c [])
    (replaced : Replaced r v f f' p n w cn g) (hg : g = cn ∨ g = nil)
    (settled : Settled t r v f' c' []) (hnone : f' = nil → t.root = none)
    (hc' : c' = if c ∈ gone then p else c)
    (horder : ∃ before after, f.addrs = before ++ gone ++ after ∧ f'.addrs = before ++ after)
    (hreach : ∀ a b, a ∉ gone → b ∉ gone →
      (TransGen (Linked (node r v f' nil).links) a b ↔
        TransGen (Linked (node r v f nil).links) a b)) :
    Removes s t p n gone g.roots := by
  obtain ⟨hr, hnodup⟩ : r ∉ f.addrs ∧ f.addrs.Nodup := by
    obtain ⟨l, _, _, holds⟩ := marked
    exact holds.snapshots_nodup
  obtain ⟨before, after, hp, hp', hentries⟩ := replaced.entry hg
  have hmem : ∀ a, a ∈ f'.addrs ↔ a ∈ f.addrs ∧ a ∉ gone := by
    obtain ⟨xs, ys, hf, hf'⟩ := horder
    rw [hf, List.nodup_append, List.nodup_append] at hnodup
    intro a
    simp only [hf, hf', List.mem_append]
    constructor
    · rintro (hx | hy)
      · exact ⟨.inl (.inl hx), fun hgone => hnodup.1.2.2 a hx a hgone rfl⟩
      · exact ⟨.inr hy, fun hgone => hnodup.2.2 a (by simp [hgone]) a hy rfl⟩
    · rintro ⟨(hx | hgone) | hy, hkept⟩
      · exact .inl hx
      · exact absurd hgone hkept
      · exact .inr hy
  have hsnapshot := settled.isSnapshot_iff hnone
  have hcases := settled.cases hnone
  have hroot : s.root = some r := by
    obtain ⟨l, hroot, _⟩ := marked
    exact hroot
  have hmarked : t.root ≠ none → MarkedAt t r v f' c' [] := by
    intro hsome
    exact (hcases.resolve_left fun hempty => hsome hempty.1).2.2
  have htree : (node r v f nil).addrs.Nodup := by
    rw [addrs_node, addrs_nil, List.append_nil]
    exact List.nodup_cons.mpr ⟨hr, hnodup⟩
  constructor
  case snapshots =>
    intro a
    rw [hsnapshot, marked.isSnapshot_iff, hmem]
  case data =>
    intro a ha
    obtain ⟨x, hx⟩ := mem_addrs_iff.mp ((hsnapshot a).mp ha)
    obtain ⟨l, _, _, holds⟩ := marked
    have hold : dataOf s.heap a = some x := holds.dataOf (x := (a, x)) (by
      simp [replaced.nodes_sub hg _ hx])
    rcases hcases with ⟨_, rfl, _⟩ | ⟨_, _, l', _, _, holds'⟩
    · cases hx
    · rw [hold]
      exact holds'.dataOf (x := (a, x)) (by simp [hx])
  case head =>
    intro q hq
    rcases hcases with ⟨hempty, _⟩ | ⟨hsome, _⟩
    · rw [hempty] at hq
      cases hq
    · rw [hroot, ← hsome, hq]
  case childs_parent =>
    intro hsome
    exact ⟨before, after, marked.childs hp, (hmarked hsome).childs hp'⟩
  case childs =>
    intro hsome a hap hkept
    by_cases ha : a ∈ (node r v f' nil).addrs
    · obtain ⟨cs, hcs⟩ := exists_link ha
      have hnew : snapshotChilds t.heap a = cs := (hmarked hsome).childs hcs
      have hold : snapshotChilds s.heap a = cs := by
        rcases hentries _ hcs with hsame | heq
        · exact marked.childs hsame
        · exact absurd (Prod.mk.inj heq).1 hap
      rw [hnew, hold]
    · have hout : a ∉ (node r v f nil).addrs := by
        simp only [addrs_node, addrs_nil, List.append_nil, List.mem_cons, hmem] at ha ⊢
        exact fun h => ha (h.imp_right fun hin => ⟨hin, hkept⟩)
      have hnil : ∀ {u : SavedStateStore} {e : Forest Snapshot} {d : Nat},
          MarkedAt u r v e d [] → a ∉ (node r v e nil).addrs → snapshotChilds u.heap a = [] := by
        intro u e d hu hnot
        refine List.eq_nil_iff_forall_not_mem.mpr fun b hb => hnot ?_
        obtain ⟨cs, hcs, _⟩ := (hu.child_iff a b).mp hb
        exact mem_addrs_of_link hcs
      rw [hnil (hmarked hsome) ha, hnil marked hout]
  case parents =>
    intro a ha
    have hsome : t.root ≠ none := by
      obtain ⟨q, x, hq, _⟩ := ha
      simp [hq]
    have hin : a ∈ f'.addrs := (hsnapshot a).mp ha
    by_cases hadopted : a ∈ g.roots
    · rw [if_pos hadopted]
      exact (hmarked hsome).parentOf ⟨_, hp', by simp [hadopted]⟩
    · obtain ⟨q, cs, hcs, hb⟩ : ∃ q, Linked (node r v f' nil).links q a := by
        refine (exists_linked (by simp [hin])).resolve_left fun hhead => ?_
        rw [roots_node, roots_nil, List.mem_singleton] at hhead
        exact hr (hhead ▸ ((hmem a).mp hin).1)
      rw [if_neg hadopted, (hmarked hsome).parentOf ⟨cs, hcs, hb⟩]
      rcases hentries _ hcs with hsame | heq
      · exact (marked.parentOf ⟨cs, hsame, hb⟩).symm
      · obtain ⟨rfl, rfl⟩ := Prod.mk.inj heq
        simp only [List.mem_append, hadopted, false_or] at hb
        have hold : a ∈ before ++ n :: after := by
          simp only [List.mem_append, List.mem_cons]
          exact hb.imp_right .inr
        exact (marked.parentOf ⟨_, hp, hold⟩).symm
  case ancestors =>
    intro a b ha hb
    have hold : (fun a b => b ∈ snapshotChilds s.heap a) = Linked (node r v f nil).links := by
      funext a b
      exact propext (marked.child_iff a b)
    have hnew : (fun a b => b ∈ snapshotChilds t.heap a) = Linked (node r v f' nil).links := by
      funext a b
      exact propext (settled.child_iff hnone a b)
    rw [Ancestor, Ancestor, hold, hnew]
    exact hreach a b ha hb
  case order =>
    rw [marked.order, settled.order hnone]
    exact horder
  case current =>
    intro hsome
    refine ⟨c, marked.isCurrentNode_iff, fun a => ?_⟩
    rw [(hmarked hsome).isCurrentNode_iff, hc']
  case null =>
    have hnil : t.root = none ↔ f' = nil := by
      refine ⟨fun hempty => ?_, hnone⟩
      rcases hcases with ⟨_, hf', _⟩ | ⟨hsome, _⟩
      · exact hf'
      · rw [hsome] at hempty
        cases hempty
    rw [hnil]
    constructor
    · rintro rfl a ha
      by_contra hkept
      exact absurd ((hmem a).mpr ⟨(marked.isSnapshot_iff a).mp ha, hkept⟩) (by simp)
    · intro hall
      refine roots_eq_nil.mp (List.eq_nil_iff_forall_not_mem.mpr fun a ha => ?_)
      obtain ⟨hin, hkept⟩ := (hmem a).mp (addrs_of_root ha)
      exact hkept (hall a ((marked.isSnapshot_iff a).mpr hin))

end Replace

/-! ## The two deletions -/

section Delete

variable {s : SavedStateStore} {r c n : Nat} {v : Snapshot} {f : Forest Snapshot}

theorem MarkedAt.tree_nodup (marked : MarkedAt s r v f c []) : (node r v f nil).addrs.Nodup := by
  obtain ⟨l, _, _, holds⟩ := marked
  exact holds.addrs_nodup

/-- `DeleteNode` removes one snapshot and its children take its place. -/
theorem deleteNode_removes (marked : MarkedAt s r v f c []) (hn : n ∈ f.addrs) :
    ∃ t p f' c', deleteNode s (some n) = some (.rcSuccess, t) ∧ parentOf s.heap n = some p ∧
      Removes s t p n [n] (snapshotChilds s.heap n) ∧ Settled t r v f' c' [] := by
  obtain ⟨t, f', w, p, cn, hrun, hreplaced, hsettled, hnone⟩ := deleteNode_marked marked hn
  obtain ⟨before, after, xs, zs, ys, hlinks, _⟩ := hreplaced.links
  have hp : (p, before ++ n :: after) ∈ (node r v f nil).links := by
    rw [hlinks]
    simp
  have hnode : (n, cn.roots) ∈ (node r v f nil).links := by
    rw [hlinks]
    simp
  have hchilds : snapshotChilds s.heap n = cn.roots := marked.childs hnode
  have hn' : n ∉ (node r v f' nil).addrs := by
    have hcount := hreplaced.addrs.count_eq n
    have hone := List.nodup_iff_count_le_one.mp marked.tree_nodup n
    simp only [List.count_append, List.count_cons_self] at hcount
    exact List.count_eq_zero.mp (by omega)
  have hbypass := hreplaced.bypasses marked hn'
  have hloopless : ¬ Linked (node r v f nil).links n n := by
    rintro ⟨cs, hcs, hmem⟩
    rw [linked_unique marked.tree_nodup hcs hnode] at hmem
    exact hreplaced.branch_nodup marked.tree_nodup (addrs_of_root hmem)
  refine ⟨t, p, f', _, hrun, marked.parentOf ⟨_, hp, by simp⟩, ?_, hsettled⟩
  rw [hchilds]
  refine hreplaced.removes marked (.inl rfl) hsettled hnone (by simp) ?_ ?_
  · obtain ⟨xs, ys, hf, hf'⟩ := hreplaced.order
    exact ⟨xs, cn.addrs ++ ys, by simp [hf], by simp [hf']⟩
  · intro a b ha hb
    exact hbypass.transGen_iff hloopless (by simpa using ha) (by simpa using hb)

/-- `DeleteBranch` removes one snapshot and all that stand below it. -/
theorem deleteBranch_removes (marked : MarkedAt s r v f c []) (hn : n ∈ f.addrs) :
    ∃ t p f' c' gone, deleteBranch s (some n) = some (.rcSuccess, t) ∧
      parentOf s.heap n = some p ∧ (∀ a, a ∈ gone ↔ IsSnapshot s a ∧ Below s.heap n a) ∧
      Removes s t p n gone [] ∧ Settled t r v f' c' [] := by
  obtain ⟨t, f', w, p, cn, hrun, hreplaced, hsettled, hnone, hbelow⟩ :=
    deleteBranch_marked marked hn
  obtain ⟨before, after, xs, zs, ys, hlinks, _⟩ := hreplaced.links
  have hp : (p, before ++ n :: after) ∈ (node r v f nil).links := by
    rw [hlinks]
    simp
  obtain ⟨hprune, hclosed⟩ := hreplaced.prunes marked.tree_nodup
  obtain ⟨xs', ys', hf, hf'⟩ := hreplaced.order
  refine ⟨t, p, f', _, n :: cn.addrs, hrun, marked.parentOf ⟨_, hp, by simp⟩, ?_, ?_, hsettled⟩
  · intro a
    rw [marked.isSnapshot_iff, List.mem_cons]
    constructor
    · intro ha
      have hmem : a ∈ f.addrs := by
        simp only [hf, List.mem_append, List.mem_cons]
        exact .inl (.inr ha)
      exact ⟨hmem, (hbelow a hmem).mpr ha⟩
    · rintro ⟨hmem, ha⟩
      exact (hbelow a hmem).mp ha
  · refine hreplaced.removes marked (.inr rfl) hsettled hnone rfl ⟨xs', ys', hf, by simp [hf']⟩ ?_
    intro a b _ hb
    exact transGen_prune hprune hclosed hb

end Delete

end DispService.StatesStore
