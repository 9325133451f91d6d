import DispService.StatesStore.Traversal

/-! A tree of snapshots and the place of its marks. `mark` puts the current mark
and the 'You are here' leaf into the shape that the heap stores; the operations of
a node only move the marks. -/
namespace DispService.StatesStore

open DispService.Lib Forest

/-- The address of the 'You are here' leaf of each current node. -/
abbrev Marks := Nat → Option Nat

def nowhere : Marks := fun _ => none

def marksAt (c l : Nat) : Marks := fun a => if a = c then some l else none

theorem marksAt_eq_some {a b c l : Nat} : marksAt c l a = some b ↔ a = c ∧ l = b := by
  unfold marksAt
  by_cases heq : a = c
  · simp [heq]
  · simp [heq]

def leafOf : Option Nat → Forest SavedState
  | none => nil
  | some l => single l youAreHere

def mark (m : Marks) : Forest Snapshot → Forest SavedState
  | nil => nil
  | node a v c s => node a (v.state (m a).isSome) ((mark m c).append (leafOf (m a))) (mark m s)

def markContext (m : Marks) : Context Snapshot → Context SavedState
  | .hole a s => .hole a (mark m s)
  | .under b w C s =>
      .under b (w.state (m b).isSome) ((markContext m C).append (leafOf (m b))) (mark m s)
  | .after b w d C =>
      .after b (w.state (m b).isSome) ((mark m d).append (leafOf (m b))) (markContext m C)

@[simp] theorem nowhere_apply (a : Nat) : nowhere a = none := rfl

@[simp] theorem marksAt_self (c l : Nat) : marksAt c l c = some l := by
  simp [marksAt]

theorem marksAt_ne {a c : Nat} (h : a ≠ c) (l : Nat) : marksAt c l a = none := by
  simp [marksAt, h]

@[simp] theorem leafOf_none : leafOf none = nil := rfl

@[simp] theorem leafOf_some (l : Nat) : leafOf (some l) = node l youAreHere nil nil := rfl

theorem addrs_leafOf (o : Option Nat) : (leafOf o).addrs = o.toList := by
  cases o with
  | none => rfl
  | some l => rfl

theorem mem_leafOf {o : Option Nat} {b : Nat} : b ∈ (leafOf o).addrs ↔ o = some b := by
  rw [addrs_leafOf, Option.mem_toList]

@[simp] theorem mark_nil (m : Marks) : mark m nil = nil := rfl

@[simp] theorem mark_node (m : Marks) (a : Nat) (v : Snapshot) (c s : Forest Snapshot) :
    mark m (node a v c s) =
      node a (v.state (m a).isSome) ((mark m c).append (leafOf (m a))) (mark m s) := rfl

@[simp] theorem mark_append (m : Marks) (f g : Forest Snapshot) :
    mark m (f.append g) = (mark m f).append (mark m g) := by
  induction f with
  | nil => rfl
  | node a v c s _ ihs => simp only [node_append, mark_node, ihs]

@[simp] theorem roots_mark (m : Marks) (f : Forest Snapshot) : (mark m f).roots = f.roots := by
  induction f with
  | nil => rfl
  | node a v c s _ ihs => simp only [mark_node, roots_node, ihs]

@[simp] theorem addr_markContext (m : Marks) (C : Context Snapshot) :
    (markContext m C).addr = C.addr := by
  induction C with
  | hole a s => rfl
  | under b w C s ih => simp only [markContext, Context.addr, Context.addr_append, ih]
  | after b w d C ih => simp only [markContext, Context.addr, ih]

@[simp] theorem parent_markContext (m : Marks) (C : Context Snapshot) (p : Option Nat) :
    (markContext m C).parent p = C.parent p := by
  induction C generalizing p with
  | hole a s => rfl
  | under b w C s ih => simp only [markContext, Context.parent, Context.parent_append, ih]
  | after b w d C ih => simp only [markContext, Context.parent, ih]

theorem mark_plug (m : Marks) (C : Context Snapshot) (v : Snapshot) (c : Forest Snapshot) :
    mark m (C.plug v c) =
      (markContext m C).plug (v.state (m C.addr).isSome)
        ((mark m c).append (leafOf (m C.addr))) := by
  induction C with
  | hole a s => rfl
  | under b w C s ih =>
      simp only [Context.plug, markContext, Context.addr, mark_node, Context.plug_append, ih]
  | after b w d C ih => simp only [Context.plug, markContext, Context.addr, mark_node, ih]

theorem mark_congr {m m' : Marks} {f : Forest Snapshot}
    (same : ∀ a ∈ f.addrs, m a = m' a) : mark m f = mark m' f := by
  induction f with
  | nil => rfl
  | node a v c s ihc ihs =>
      have ha : m a = m' a := same a (by simp)
      have hc : mark m c = mark m' c := ihc fun b hb => same b (by simp [hb])
      have hs : mark m s = mark m' s := ihs fun b hb => same b (by simp [hb])
      simp only [mark_node, ha, hc, hs]

theorem markContext_congr {m m' : Marks} {C : Context Snapshot}
    (same : ∀ a ∈ C.addrs, m a = m' a) : markContext m C = markContext m' C := by
  induction C with
  | hole a s =>
      have hs : mark m s = mark m' s := mark_congr same
      simp only [markContext, hs]
  | under b w C s ih =>
      have hb : m b = m' b := same b (by simp [Context.addrs, Context.nodes])
      have hC : markContext m C = markContext m' C :=
        ih fun a ha => same a (by simp_all [Context.addrs, Context.nodes])
      have hs : mark m s = mark m' s :=
        mark_congr fun a ha => same a (by simp_all [Context.addrs, Forest.addrs, Context.nodes])
      simp only [markContext, hb, hC, hs]
  | after b w d C ih =>
      have hb : m b = m' b := same b (by simp [Context.addrs, Context.nodes])
      have hd : mark m d = mark m' d :=
        mark_congr fun a ha => same a (by simp_all [Context.addrs, Forest.addrs, Context.nodes])
      have hC : markContext m C = markContext m' C :=
        ih fun a ha => same a (by simp_all [Context.addrs, Context.nodes])
      simp only [markContext, hb, hd, hC]

/-- Marking keeps the snapshots and adds the leaves. -/
theorem nodes_mark (m : Marks) (f : Forest Snapshot) :
    (mark m f).nodes.Perm
      (f.nodes.map (fun x => (x.1, x.2.state (m x.1).isSome)) ++
        (f.addrs.filterMap m).map fun l => (l, youAreHere)) := by
  induction f with
  | nil => exact List.Perm.refl _
  | node a v c s ihc ihs =>
      have hleaf : (leafOf (m a)).nodes = (m a).toList.map fun l => (l, youAreHere) := by
        cases m a with
        | none => rfl
        | some l => rfl
      have hhead : (a :: (c.addrs ++ s.addrs)).filterMap m =
          (m a).toList ++ (c.addrs.filterMap m ++ s.addrs.filterMap m) := by
        rw [List.filterMap_cons, List.filterMap_append]
        cases m a with
        | none => rfl
        | some l => rfl
      rw [mark_node, nodes_node, nodes_node, addrs_node, nodes_append, hleaf, hhead,
        List.map_cons, List.cons_append]
      refine List.Perm.cons _ (List.perm_iff_count.mpr fun b => ?_)
      have hc := ihc.count_eq b
      have hs := ihs.count_eq b
      simp only [List.map_append, List.count_append] at hc hs ⊢
      omega

theorem addrs_mark (m : Marks) (f : Forest Snapshot) :
    (mark m f).addrs.Perm (f.addrs ++ f.addrs.filterMap m) := by
  simpa [Forest.addrs, Function.comp_def] using (nodes_mark m f).map Prod.fst

theorem mem_addrs_mark {m : Marks} {f : Forest Snapshot} {b : Nat} :
    b ∈ (mark m f).addrs ↔ b ∈ f.addrs ∨ ∃ a ∈ f.addrs, m a = some b := by
  rw [(addrs_mark m f).mem_iff, List.mem_append, List.mem_filterMap]

theorem mem_addrs_marksAt {f : Forest Snapshot} {c l b : Nat} (hc : c ∈ f.addrs) :
    b ∈ (mark (marksAt c l) f).addrs ↔ b ∈ f.addrs ∨ b = l := by
  rw [mem_addrs_mark]
  refine or_congr_right ⟨?_, ?_⟩
  · rintro ⟨a, _, ha⟩
    exact (marksAt_eq_some.mp ha).2.symm
  · intro heq
    exact ⟨c, hc, by rw [marksAt_self, heq]⟩

/-- One leaf with a fresh address keeps all addresses distinct. -/
theorem nodup_mark {f : Forest Snapshot} (nodup : f.addrs.Nodup) {c l : Nat}
    (fresh : l ∉ f.addrs) : (mark (marksAt c l) f).addrs.Nodup := by
  rw [(addrs_mark _ f).nodup_iff, List.nodup_append]
  refine ⟨nodup, ?_, ?_⟩
  · refine nodup.filterMap ?_
    intro a a' b ha ha'
    exact (marksAt_eq_some.mp ha).1.trans (marksAt_eq_some.mp ha').1.symm
  · intro a ha b hb heq
    obtain ⟨d, _, hd⟩ := List.mem_filterMap.mp hb
    exact fresh ((marksAt_eq_some.mp hd).2 ▸ heq ▸ ha)

theorem leaf_fresh {f : Forest Snapshot} {c l : Nat} (hc : c ∈ f.addrs)
    (nodup : (mark (marksAt c l) f).addrs.Nodup) : l ∉ f.addrs := by
  rw [(addrs_mark _ f).nodup_iff, List.nodup_append] at nodup
  intro hl
  exact nodup.2.2 l hl l (List.mem_filterMap.mpr ⟨c, hc, marksAt_self c l⟩) rfl

/-- The search for a current node finds the marked one. -/
theorem firstNode_current {f : Forest Snapshot} {c l : Nat} (hc : c ∈ f.addrs) :
    firstNode (fun v => v.current) (mark (marksAt c l) f) = some c := by
  obtain ⟨v, hv⟩ : ∃ v, (c, v) ∈ f.nodes := by
    obtain ⟨x, hx, rfl⟩ := List.mem_map.mp hc
    exact ⟨x.2, hx⟩
  have hmem : (c, v.state true) ∈ (mark (marksAt c l) f).nodes := by
    rw [(nodes_mark _ f).mem_iff, List.mem_append]
    exact .inl (List.mem_map.mpr ⟨(c, v), hv, by rw [marksAt_self]; rfl⟩)
  have hunique : ∀ x ∈ (mark (marksAt c l) f).nodes, x.2.current = true → x.1 = c := by
    intro x hx hcurrent
    rw [(nodes_mark _ f).mem_iff, List.mem_append, List.mem_map, List.mem_map] at hx
    rcases hx with ⟨y, _, rfl⟩ | ⟨y, _, rfl⟩
    · by_contra hne
      simp [marksAt_ne hne] at hcurrent
    · simp at hcurrent
  unfold firstNode
  cases hfind : (mark (marksAt c l) f).nodes.find? fun x => x.2.current with
  | none => exact absurd (List.find?_eq_none.mp hfind _ hmem) (by simp)
  | some x =>
      have hcurrent : x.2.current = true := by simpa using List.find?_some hfind
      have hx := hunique x (List.mem_of_find?_eq_some hfind) hcurrent
      rw [Option.map_some, hx]

theorem addrs_mark_nowhere (f : Forest Snapshot) : (mark nowhere f).addrs.Perm f.addrs := by
  have hnone : f.addrs.filterMap nowhere = [] :=
    List.filterMap_eq_nil_iff.mpr fun _ _ => rfl
  simpa [hnone] using addrs_mark nowhere f

/-- No snapshot is a 'You are here' node. -/
theorem currentState_of_mem {h : TreeHeap} {p : Option Nat} {m : Marks} {f : Forest Snapshot}
    (stored : Stored h p (mark m f)) {a : Nat} (ha : a ∈ f.addrs) :
    ∃ n, h.read a = some n ∧ n.val.currentState = false := by
  obtain ⟨C, v, c, rfl, rfl⟩ := exists_plug ha
  rw [mark_plug] at stored
  have hread := (Context.stored_plug.mp stored).1
  rw [addr_markContext] at hread
  exact ⟨_, hread, rfl⟩

section Unset

variable {h : TreeHeap} {p : Option Nat} {m : Marks} {a : Nat} {v : Snapshot}
  {c : Forest Snapshot}

/-- `SetCurrent(false)` clears the mark of one snapshot and deletes its leaf. -/
theorem unsetCurrent_spec
    (hread : h.read a =
      some ⟨v.state (m a).isSome, p, ((mark m c).append (leafOf (m a))).roots⟩)
    (stored : Stored h (some a) ((mark m c).append (leafOf (m a))))
    (fresh : a ∉ ((mark m c).append (leafOf (m a))).addrs) :
    ∃ k, unsetCurrent h a = some k ∧ k.read a = some ⟨v.state false, p, c.roots⟩ ∧
      (∀ l, m a = some l → k.read l = none) ∧
      (∀ b, b ≠ a → m a ≠ some b → k.read b = h.read b) ∧ k.next = h.next := by
  cases hmark : m a with
  | none =>
      simp only [hmark, Option.isSome_none, leafOf_none, append_nil, roots_mark] at hread stored
      have hdrop : dropCurrentState h a = some h := by
        cases hlast : c.roots.getLast? with
        | none => simp [dropCurrentState, hread, hlast]
        | some last =>
            obtain ⟨n, hn, hstate⟩ :=
              currentState_of_mem stored (addrs_of_root (List.mem_of_getLast? hlast))
            simp [dropCurrentState, hread, hlast, hn, hstate]
      refine ⟨h.put a (some ⟨v.state false, p, c.roots⟩), ?_, ?_, by simp, ?_, ?_⟩
      · simp [unsetCurrent, hread, hdrop, Heap.modify_of_read hread, Snapshot.state]
      · rw [Heap.read_put_self hread]
      · intro b hb _
        rw [Heap.read_put_ne h hb]
      · simp
  | some l =>
      simp only [hmark, Option.isSome_some, leafOf_some, roots_append, roots_mark, roots_node,
        roots_nil, stored_append, stored_node, addrs_append, addrs_node, addrs_nil] at hread stored fresh
      have hleaf : h.read l = some ⟨youAreHere, some a, []⟩ := stored.2.1
      have hla : l ≠ a := by
        intro heq
        exact fresh (by simp [heq])
      let h₁ := h.put a (some ⟨v.state true, p, c.roots⟩)
      let h₂ := h₁.put l none
      have hread₁ : h₁.read l = some ⟨youAreHere, some a, []⟩ := by
        rw [Heap.read_put_ne h hla, hleaf]
      have hdrop : dropCurrentState h a = some h₂ := by
        have hmodify := Heap.modify_of_read hread
          fun n => { n with childs := n.childs.dropLast }
        simp only [List.dropLast_concat] at hmodify
        simp [dropCurrentState, hread, hleaf, hmodify, Heap.free_of_read hread₁, h₁, h₂]
      have hread₂ : h₂.read a = some ⟨v.state true, p, c.roots⟩ := by
        rw [Heap.read_put_ne h₁ hla.symm, Heap.read_put_self hread]
      refine ⟨h₂.put a (some ⟨v.state false, p, c.roots⟩), ?_, ?_, ?_, ?_, ?_⟩
      · simp [unsetCurrent, hread, hdrop, Heap.modify_of_read hread₂, Snapshot.state]
      · rw [Heap.read_put_self hread₂]
      · intro b hb
        cases hb
        rw [Heap.read_put_ne h₂ hla, Heap.read_put_self hread₁]
      · intro b hb hbl
        have hne : b ≠ l := by
          intro heq
          exact hbl (by rw [heq])
        rw [Heap.read_put_ne h₂ hb, Heap.read_put_ne h₁ hne, Heap.read_put_ne h hb]
      · simp [h₁, h₂]

end Unset

/-- `RecursiveClearCurrentNodes` removes all marks and all leaves. -/
theorem recursiveClearCurrentNodes_spec {h : TreeHeap} {p : Option Nat} {m : Marks}
    {f : Forest Snapshot} {fuel : Nat} (stored : Stored h p (mark m f))
    (nodup : (mark m f).addrs.Nodup) (hfuel : f.depth ≤ fuel) :
    ∃ k, f.roots.foldlM (recursiveClearCurrentNodes fuel) h = some k ∧
      Stored k p (mark nowhere f) ∧
      (∀ b ∈ (mark m f).addrs, b ∉ f.addrs → k.read b = none) ∧
      (∀ b, b ∉ (mark m f).addrs → k.read b = h.read b) ∧ k.next = h.next := by
  induction f generalizing h p fuel with
  | nil => exact ⟨h, rfl, trivial, by simp, fun _ _ => rfl, rfl⟩
  | node a v c s ihc ihs =>
      obtain ⟨hread, hchilds, hsiblings⟩ := stored
      rw [mark_node, addrs_node, List.nodup_cons, List.mem_append, not_or, List.nodup_append]
        at nodup
      obtain ⟨⟨hac, has⟩, hnodupc, hnodups, hdisjoint⟩ := nodup
      simp only [depth] at hfuel
      cases fuel with
      | zero => omega
      | succ fuel =>
          obtain ⟨k₁, hunset, hread₁, hfreed₁, hsame₁, hnext₁⟩ := unsetCurrent_spec hread hchilds hac
          have hleaf : ∀ b, m a = some b → b ∈ ((mark m c).append (leafOf (m a))).addrs := by
            intro b hb
            rw [addrs_append, List.mem_append]
            exact .inr (mem_leafOf.mpr hb)
          rw [addrs_append, List.nodup_append] at hnodupc
          have hchilds₁ : Stored k₁ (some a) (mark m c) := by
            refine (stored_append.mp hchilds).1.frame fun b hb => hsame₁ b ?_ ?_
            · intro heq
              exact hac (by simp [← heq, hb])
            · intro hleaf
              exact hnodupc.2.2 b hb b (by simp [hleaf]) rfl
          obtain ⟨k₂, hclear, hstored₂, hfreed₂, hsame₂, hnext₂⟩ :=
            ihc hchilds₁ hnodupc.1 (show c.depth ≤ fuel by omega)
          have hac' : a ∉ (mark m c).addrs := fun hmem => hac (by simp [hmem])
          have hread₂ : k₂.read a = some ⟨v.state false, p, c.roots⟩ := by
            rw [hsame₂ a hac', hread₁]
          have hnode : recursiveClearCurrentNodes (fuel + 1) h a = some k₂ := by
            simp [recursiveClearCurrentNodes, hunset, hread₁, hclear]
          have hsiblings₂ : Stored k₂ p (mark m s) := by
            refine hsiblings.frame fun b hb => ?_
            have hbc : b ∉ (mark m c).addrs := by
              intro hmem
              exact hdisjoint b (by simp [hmem]) b hb rfl
            rw [hsame₂ b hbc, hsame₁ b]
            · intro heq
              exact has (heq ▸ hb)
            · intro hm
              exact hdisjoint b (hleaf b hm) b hb rfl
          obtain ⟨k, hrest, hstored, hfreed, hsame, hnext⟩ :=
            ihs hsiblings₂ hnodups (show s.depth ≤ fuel + 1 by omega)
          have hc_s : ∀ b ∈ (mark nowhere c).addrs, b ∉ (mark m s).addrs := by
            intro b hb hbs
            rw [(addrs_mark_nowhere c).mem_iff] at hb
            exact hdisjoint b (by simp [mem_addrs_mark.mpr (.inl hb)]) b hbs rfl
          refine ⟨k, ?_, ⟨?_, ?_, hstored⟩, ?_, ?_, ?_⟩
          · rw [roots_node, List.foldlM_cons, hnode]
            exact hrest
          · rw [hsame a has, hread₂]
            simp
          · simpa using hstored₂.frame fun b hb => hsame b (hc_s b hb)
          · intro b hb hbf
            simp only [mark_node, addrs_node, addrs_append, List.mem_cons, List.mem_append]
              at hb hbf
            rw [not_or, not_or] at hbf
            by_cases hbs : b ∈ (mark m s).addrs
            · exact hfreed b hbs hbf.2.2
            · rw [hsame b hbs]
              rcases hb with hba | (hbc | hbl) | hbs'
              · exact absurd hba hbf.1
              · exact hfreed₂ b hbc hbf.2.1
              · have hbc : b ∉ (mark m c).addrs := fun hmem => hnodupc.2.2 b hmem b hbl rfl
                rw [hsame₂ b hbc]
                exact hfreed₁ b (mem_leafOf.mp hbl)
              · exact absurd hbs' hbs
          · intro b hb
            simp only [mark_node, addrs_node, addrs_append, List.mem_cons, List.mem_append,
              not_or] at hb
            rw [hsame b hb.2.2, hsame₂ b hb.2.1.1, hsame₁ b hb.1]
            intro hm
            exact hb.2.1.2 (by simp [hm])
          · rw [hnext, hnext₂, hnext₁]

theorem nodup_of_mark {m : Marks} {f : Forest Snapshot} (nodup : (mark m f).addrs.Nodup) :
    f.addrs.Nodup := by
  rw [(addrs_mark m f).nodup_iff, List.nodup_append] at nodup
  exact nodup.1

theorem nodup_hole {α : Type} {C : Context α} {v : α} {c : Forest α}
    (nodup : (C.plug v c).addrs.Nodup) :
    C.addr ∉ c.addrs ∧ C.addr ∉ C.addrs ∧ c.addrs.Nodup ∧ C.addrs.Nodup ∧
      ∀ b ∈ c.addrs, b ∉ C.addrs := by
  rw [(C.addrs_plug v c).nodup_iff, List.nodup_cons, List.mem_append, not_or,
    List.nodup_append] at nodup
  exact ⟨nodup.1.1, nodup.1.2, nodup.2.1, nodup.2.2.1, fun b hb hbC => nodup.2.2.2 b hb b hbC rfl⟩

/-- The marks of a tree whose only current node is the hole. -/
theorem mark_marksAt {C : Context Snapshot} {v : Snapshot} {c : Forest Snapshot}
    (nodup : (C.plug v c).addrs.Nodup) (l : Nat) :
    mark (marksAt C.addr l) (C.plug v c) =
      (markContext nowhere C).plug (v.state true)
        ((mark nowhere c).append (node l youAreHere nil nil)) := by
  obtain ⟨hc, hC, _, _, _⟩ := nodup_hole nodup
  have hcontext : markContext (marksAt C.addr l) C = markContext nowhere C := by
    refine markContext_congr fun a ha => marksAt_ne ?_ l
    intro heq
    exact hC (heq ▸ ha)
  have hchilds : mark (marksAt C.addr l) c = mark nowhere c := by
    refine mark_congr fun a ha => marksAt_ne ?_ l
    intro heq
    exact hc (heq ▸ ha)
  rw [mark_plug, marksAt_self, hcontext, hchilds]
  rfl

/-- `AddChild` on a node that is no 'You are here' node. -/
theorem addChild_spec {h : TreeHeap} {a child : Nat} {n x : Node SavedState}
    (hread : h.read a = some n) (hchild : h.read child = some x) (hne : child ≠ a)
    (hstate : n.val.currentState = false) :
    ∃ k, addChild h a (some child) = some (true, k) ∧
      k.read a = some { n with childs := n.childs.insertIdx (insertPos n x) child } ∧
      k.read child = some { x with parent := some a } ∧
      (∀ b, b ≠ a → b ≠ child → k.read b = h.read b) ∧ k.next = h.next := by
  let h₁ := h.put a (some { n with childs := n.childs.insertIdx (insertPos n x) child })
  have hread₁ : h₁.read a = some { n with childs := n.childs.insertIdx (insertPos n x) child } :=
    Heap.read_put_self hread _
  have hchild₁ : h₁.read child = some x := by rw [Heap.read_put_ne h hne, hchild]
  refine ⟨h₁.put child (some { x with parent := some a }), ?_, ?_, ?_, ?_, ?_⟩
  · simp [addChild, hread, hchild, hstate, Heap.modify_of_read hread, h₁,
      Heap.modify_of_read hchild₁]
  · rw [Heap.read_put_ne h₁ hne.symm, hread₁]
  · exact Heap.read_put_self hchild₁ _
  · intro b hba hbc
    rw [Heap.read_put_ne h₁ hbc, Heap.read_put_ne h hba]
  · simp [h₁]

theorem setCurrent_false {h : TreeHeap} {a : Nat} {n : Node SavedState}
    (hread : h.read a = some n) : setCurrent h a false = unsetCurrent h a := by
  cases hstate : n.val.currentState with
  | false => simp [setCurrent, hread, hstate]
  | true => simp [setCurrent, unsetCurrent, hread, hstate]

/-- `SetCurrent(true)` on a snapshot moves the marks to it. -/
theorem setCurrent_spec {h : TreeHeap} {m : Marks} {r : Nat} {v : Snapshot}
    {c : Forest Snapshot} (stored : Stored h none (mark m (node r v c nil)))
    (nodup : (mark m (node r v c nil)).addrs.Nodup) {a : Nat}
    (ha : a ∈ (node r v c nil).addrs) :
    ∃ k, setCurrent h a true = some k ∧
      Stored k none (mark (marksAt a h.next) (node r v c nil)) ∧
      (∀ b ∈ (mark m (node r v c nil)).addrs, b ∉ (node r v c nil).addrs → k.read b = none) ∧
      (∀ b, b ∉ (mark m (node r v c nil)).addrs → b ≠ h.next → k.read b = h.read b) ∧
      k.next = h.next + 1 := by
  have hnodup := nodup_of_mark nodup
  have hsub : ∀ b ∈ (node r v c nil).addrs, b ∈ (mark m (node r v c nil)).addrs :=
    fun b hb => mem_addrs_mark.mpr (.inl hb)
  obtain ⟨n, hn, hstate⟩ := currentState_of_mem stored ha
  obtain ⟨k₁, hclear, hstored₁, hfreed₁, hsame₁, hnext₁⟩ :=
    recursiveClearCurrentNodes_spec stored nodup
      (depth_le_of_lt hnodup fun b hb => stored.lt_next (hsub b hb))
  have hroot : getRoot h a = some r := getRoot_spec stored nodup (hsub a ha)
  have hclear₁ : clearCurrentNodes h a = some k₁ := by
    simp only [roots_node, roots_nil, List.foldlM_cons, List.foldlM_nil] at hclear
    simpa [clearCurrentNodes, hroot] using hclear
  generalize ht : node r v c nil = t at *
  obtain ⟨C, w, d, rfl, rfl⟩ := exists_plug ha
  have hfresh₁ := hstored₁.not_next
  have hnodup₁ := (addrs_mark_nowhere _).nodup_iff.mpr hnodup
  rw [mark_plug] at hstored₁ hfresh₁ hnodup₁
  obtain ⟨hread₁, hchilds₁, hcontext₁⟩ := Context.stored_plug.mp hstored₁
  simp only [addr_markContext, nowhere_apply, Option.isSome_none, leafOf_none, append_nil,
    roots_mark] at hread₁ hchilds₁ hnodup₁ hfresh₁
  rw [((markContext nowhere C).addrs_plug _ _).mem_iff, addr_markContext, List.mem_cons,
    List.mem_append, not_or, not_or] at hfresh₁
  obtain ⟨hla, hld, hlC⟩ := hfresh₁
  obtain ⟨had, haC, _, _, hdC⟩ := nodup_hole hnodup₁
  rw [addr_markContext] at had haC
  -- the new leaf, and the mark of the node
  let k₂ := k₁.alloc ⟨youAreHere, none, []⟩
  have hread₂ : k₂.read C.addr = some ⟨w.state false, (markContext nowhere C).parent none, d.roots⟩ := by
    rw [Heap.read_alloc, if_neg (Ne.symm hla), hread₁]
  have hleaf₂ : k₂.read k₁.next = some ⟨youAreHere, none, []⟩ :=
    Heap.read_alloc_next _ _
  let k₃ := k₂.put C.addr (some ⟨w.state true, (markContext nowhere C).parent none, d.roots⟩)
  have hread₃ : k₃.read C.addr = some ⟨w.state true, (markContext nowhere C).parent none, d.roots⟩ :=
    Heap.read_put_self hread₂ _
  have hleaf₃ : k₃.read k₁.next = some ⟨youAreHere, none, []⟩ := by
    rw [Heap.read_put_ne k₂ hla, hleaf₂]
  obtain ⟨k, hadd, hreadk, hleafk, hsamek, hnextk⟩ := addChild_spec hread₃ hleaf₃ hla rfl
  have hsame : ∀ b, b ≠ C.addr → b ≠ k₁.next → k.read b = k₁.read b := by
    intro b hba hbl
    rw [hsamek b hba hbl, Heap.read_put_ne k₂ hba, Heap.read_alloc, if_neg hbl]
  refine ⟨k, ?_, ?_, ?_, ?_, ?_⟩
  · have hmodify : k₂.modify C.addr (fun n => { n with val := { n.val with current := true } }) =
        some k₃ := Heap.modify_of_read hread₂ _
    simp [setCurrent, hn, hstate, hclear₁, newNode, k₂, hmodify, hadd]
  · rw [← hnext₁, mark_marksAt hnodup, Context.stored_plug, addr_markContext]
    refine ⟨?_, stored_append.mpr ⟨?_, ?_⟩, ?_⟩
    · rw [hreadk]
      simp [insertPos, List.insertIdx_length_self]
    · refine hchilds₁.frame fun b hb => hsame b ?_ ?_
      · intro heq
        exact had (heq ▸ hb)
      · intro heq
        exact hld (heq ▸ hb)
    · exact ⟨hleafk, trivial, trivial⟩
    · refine hcontext₁.frame fun b hb => hsame b ?_ ?_
      · intro heq
        exact haC (heq ▸ hb)
      · intro heq
        exact hlC (heq ▸ hb)
  · intro b hb hbt
    have hba : b ≠ C.addr := fun heq => hbt (heq ▸ ha)
    have hbl : b ≠ k₁.next := fun heq => stored.not_next (hnext₁ ▸ heq ▸ hb)
    rw [hsame b hba hbl, hfreed₁ b hb hbt]
  · intro b hb hbl
    have hba : b ≠ C.addr := by
      intro heq
      exact hb (heq ▸ hsub C.addr ha)
    rw [hsame b hba (hnext₁ ▸ hbl), hsame₁ b hb]
  · rw [hnextk, Heap.next_put, Heap.next_alloc, hnext₁]

end DispService.StatesStore
