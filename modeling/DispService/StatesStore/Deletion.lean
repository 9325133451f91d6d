import DispService.StatesStore.Consistency

/-! Both deletions replace one child subtree of a node: `DeleteNode` by the
children of the deleted node, `DeleteBranch` by nothing. -/
namespace DispService.StatesStore

open DispService.Lib Forest

theorem mark_middle (m : Marks) (C : Context Snapshot) (u : Snapshot)
    (d₁ g d₂ : Forest Snapshot) :
    mark m (C.plug u (d₁.append (g.append d₂))) =
      (markContext m C).plug (u.state (m C.addr).isSome)
        ((mark m d₁).append ((mark m g).append ((mark m d₂).append (leafOf (m C.addr))))) := by
  rw [mark_plug, mark_append, mark_append, append_assoc, append_assoc]

theorem addrs_mark_middle (m : Marks) (C : Context Snapshot) (u : Snapshot)
    (d₁ g d₂ : Forest Snapshot) :
    (mark m (C.plug u (d₁.append (g.append d₂)))).addrs.Perm
      ((mark m g).addrs ++ (mark m (C.plug u (d₁.append d₂))).addrs) := by
  have hrest : mark m (C.plug u (d₁.append d₂)) = _ := mark_middle m C u d₁ nil d₂
  rw [mark_middle, hrest]
  exact Context.addrs_plug_middle _ _ _ _ _

section Replace

variable {h k : TreeHeap} {m : Marks} {C : Context Snapshot} {u : Snapshot}
  {d₁ g g' d₂ : Forest Snapshot} {n : Nat}

/-- The children lists around the subtree `g`. -/
theorem Holds.read_parent (holds : Holds h m (C.plug u (d₁.append (g.append d₂))) []) :
    h.read C.addr = some ⟨u.state (m C.addr).isSome, (markContext m C).parent none,
      d₁.roots ++ (g.roots ++ (d₂.roots ++ (leafOf (m C.addr)).roots))⟩ := by
  have hstored := holds.stored
  rw [mark_middle, Context.stored_plug, addr_markContext] at hstored
  simpa using hstored.1

theorem Holds.stored_middle (holds : Holds h m (C.plug u (d₁.append (g.append d₂))) []) :
    Stored h (some C.addr) (mark m g) := by
  have hstored := holds.stored
  rw [mark_middle, Context.stored_plug, addr_markContext, stored_append, stored_append]
    at hstored
  exact hstored.2.1.2.1

theorem Holds.nodup_middle (holds : Holds h m (C.plug u (d₁.append (g.append d₂))) []) :
    (mark m g).addrs.Nodup ∧ (mark m (C.plug u (d₁.append d₂))).addrs.Nodup ∧
      ∀ b ∈ (mark m g).addrs, b ∉ (mark m (C.plug u (d₁.append d₂))).addrs := by
  have hnodup := holds.nodup
  rw [(addrs_mark_middle m C u d₁ g d₂).nodup_iff, List.nodup_append] at hnodup
  exact ⟨hnodup.1, hnodup.2.1, fun b hb hmem => hnodup.2.2 b hb b hmem rfl⟩

/-- Replace the subtree `g` by `g'`, which uses the addresses of `g` except the
detached `n`. -/
theorem Holds.replace (holds : Holds h m (C.plug u (d₁.append (g.append d₂))) [])
    (hread : k.read C.addr = some ⟨u.state (m C.addr).isSome, (markContext m C).parent none,
      d₁.roots ++ (g'.roots ++ (d₂.roots ++ (leafOf (m C.addr)).roots))⟩)
    (stored : Stored k (some C.addr) (mark m g'))
    (nodup : (mark m g').addrs.Nodup)
    (sub : ∀ b ∈ (mark m g').addrs, b ∈ (mark m g).addrs)
    (hn : n ∈ (mark m g).addrs) (hn' : n ∉ (mark m g').addrs)
    (freed : ∀ b ∈ (mark m g).addrs, b ∉ (mark m g').addrs → b ≠ n → k.read b = none)
    (same : ∀ b, b ∉ (mark m g).addrs → b ≠ C.addr → k.read b = h.read b) :
    Holds k m (C.plug u (d₁.append (g'.append d₂))) [n] := by
  obtain ⟨_, hnodup, hapart⟩ := holds.nodup_middle
  have hmem : ∀ b, b ∈ (mark m (C.plug u (d₁.append (g'.append d₂)))).addrs ↔
      b ∈ (mark m g').addrs ∨ b ∈ (mark m (C.plug u (d₁.append d₂))).addrs := by
    intro b
    rw [(addrs_mark_middle m C u d₁ g' d₂).mem_iff, List.mem_append]
  have hrest : ∀ b ∈ (mark m (C.plug u (d₁.append d₂))).addrs, b ≠ C.addr →
      k.read b = h.read b := by
    intro b hb hne
    exact same b (fun hg => hapart b hg hb) hne
  refine ⟨?_, ?_, ?_, ?_⟩
  · have hold := holds.stored
    rw [mark_middle, Context.stored_plug, addr_markContext, stored_append, stored_append] at hold
    have hnodup' := hnodup
    have hout : mark m (C.plug u (d₁.append d₂)) = _ := mark_middle m C u d₁ nil d₂
    rw [hout] at hrest hnodup'
    obtain ⟨hq₁, hqC, _, _, _⟩ := nodup_hole hnodup'
    rw [addr_markContext] at hq₁ hqC
    have hkeep : ∀ b ∈ ((mark m d₁).append ((mark m nil).append
        ((mark m d₂).append (leafOf (m C.addr))))).addrs, k.read b = h.read b := by
      intro b hb
      refine hrest b ?_ fun heq => hq₁ (heq ▸ hb)
      rw [((markContext m C).addrs_plug _ _).mem_iff]
      exact List.mem_cons_of_mem _ (List.mem_append_left _ hb)
    rw [mark_middle, Context.stored_plug, addr_markContext, stored_append, stored_append]
    refine ⟨by simpa using hread, ⟨?_, stored, ?_⟩, ?_⟩
    · refine hold.2.1.1.frame fun b hb => hkeep b ?_
      simp [hb]
    · refine hold.2.1.2.2.frame fun b hb => hkeep b ?_
      rw [mark_nil, nil_append, addrs_append]
      exact List.mem_append_right _ hb
    · refine hold.2.2.frame fun b hb => hrest b ?_ fun heq => hqC (heq ▸ hb)
      rw [((markContext m C).addrs_plug _ _).mem_iff]
      exact List.mem_cons_of_mem _ (List.mem_append_right _ hb)
  · rw [(addrs_mark_middle m C u d₁ g' d₂).nodup_iff, List.nodup_append]
    refine ⟨nodup, hnodup, ?_⟩
    intro a ha b hb heq
    exact hapart a (sub a ha) (heq ▸ hb)
  · intro b hb
    rw [List.mem_singleton] at hb
    subst hb
    rw [hmem, not_or]
    exact ⟨hn', hapart b hn⟩
  · intro b x hb
    rw [hmem, List.mem_singleton]
    by_cases hbn : b = n
    · exact .inr hbn
    · by_cases hg' : b ∈ (mark m g').addrs
      · exact .inl (.inl hg')
      · by_cases hg : b ∈ (mark m g).addrs
        · rw [freed b hg hg' hbn] at hb
          cases hb
        · by_cases hq : b = C.addr
          · subst hq
            refine .inl (.inr (mem_addrs_mark.mpr (.inl ?_)))
            rw [(C.addrs_plug _ _).mem_iff]
            exact List.mem_cons_self
          · rw [same b hg hq] at hb
            have hlive := holds.only b x hb
            rw [(addrs_mark_middle m C u d₁ g d₂).mem_iff, List.mem_append] at hlive
            rcases hlive with (hin | hout) | hnil
            · exact absurd hin hg
            · exact .inl (.inr hout)
            · cases hnil

end Replace

/-- After the subtree is replaced, the mark goes to the parent if it was lost. -/
theorem settle {h : TreeHeap} {r c l n q : Nat} {v : Snapshot} {f : Forest Snapshot}
    (holds : Holds h (marksAt c l) (node r v f nil) [n])
    (hn : n < h.next) (hq : q ∈ (node r v f nil).addrs) {lost : Bool}
    (hlost : lost = false ↔ c ∈ (node r v f nil).addrs) :
    ∃ s, passCurrent ⟨h, some r⟩ q lost = some s ∧
      Settled s r v f (if lost then q else c) [n] ∧ s.heap.read n = h.read n := by
  cases lost with
  | false =>
      exact ⟨⟨h, some r⟩, rfl, .inr ⟨l, rfl, hlost.mp rfl, holds⟩, rfl⟩
  | true =>
      have hgone : c ∉ (node r v f nil).addrs := fun hmem => absurd (hlost.mpr hmem) (by simp)
      have hmark : mark (marksAt c l) (node r v f nil) = mark nowhere (node r v f nil) := by
        refine mark_congr fun a ha => marksAt_ne ?_ l
        intro heq
        exact hgone (heq ▸ ha)
      obtain ⟨hstored, hnodup, hapart, honly⟩ := holds
      rw [hmark] at hstored hnodup hapart honly
      obtain ⟨s, hpass, hsettled, hkeep⟩ :=
        passCurrent_spec ⟨hstored, hnodup, hapart, honly⟩ (by simpa using hn) hq
      exact ⟨s, hpass, hsettled, hkeep n (by simp)⟩

/-- The detached node is deleted at last, and the tree with it when it is empty. -/
theorem finish {s : SavedStateStore} {r c n : Nat} {v : Snapshot} {f : Forest Snapshot}
    {x : Node SavedState} (settled : Settled s r v f c [n]) (hread : s.heap.read n = some x) :
    ∃ k s', s.heap.free n = some k ∧ dropEmptyTree ⟨k, s.root⟩ = some s' ∧
      Settled s' r v f c [] ∧ (f = nil → s'.root = none) := by
  obtain ⟨k, hfree, hsettled⟩ := settled.free hread
  obtain ⟨s', hdrop, hsettled', hnone⟩ := dropEmptyTree_spec hsettled
  exact ⟨k, s', hfree, hdrop, hsettled', hnone⟩

theorem Settled.root_ne {s : SavedStateStore} {r c n : Nat} {v : Snapshot} {f : Forest Snapshot}
    (settled : Settled s r v f c [n]) : s.root ≠ some n := by
  rcases settled with ⟨hroot, _, _⟩ | ⟨l, hroot, _, holds⟩
  · simp [hroot]
  · have hne : n ≠ r := by
      intro heq
      exact holds.apart n (by simp) (by simp [heq])
    simp [hroot, Ne.symm hne]

/-- `f'` is `f` with the forest `g` in the place of the branch at `n`, a child of
`p`. -/
structure Replaced (r : Nat) (v : Snapshot) (f f' : Forest Snapshot) (p n : Nat) (w : Snapshot)
    (cn g : Forest Snapshot) : Prop where
  place : ∃ (C : Context Snapshot) (u : Snapshot) (d₁ d₂ : Forest Snapshot), C.addr = p ∧
    node r v f nil = C.plug u (d₁.append ((node n w cn nil).append d₂)) ∧
    C.plug u (d₁.append (g.append d₂)) = node r v f' nil

theorem Replaced.nodes {r p n : Nat} {v w : Snapshot} {f f' cn g : Forest Snapshot}
    (replaced : Replaced r v f f' p n w cn g) :
    (f.nodes ++ g.nodes).Perm ((n, w) :: cn.nodes ++ f'.nodes) := by
  obtain ⟨C, u, d₁, d₂, _, hbefore, hafter⟩ := replaced.place
  have hchange : ((d₁.append (g.append d₂)).nodes ++ (n, w) :: cn.nodes).Perm
      ((d₁.append ((node n w cn nil).append d₂)).nodes ++ g.nodes) := by
    refine List.perm_iff_count.mpr fun x => ?_
    simp only [nodes_append, nodes_node, nodes_nil, List.count_append, List.count_cons,
      List.count_nil]
    omega
  have hedit := Context.nodes_edit hbefore hafter hchange
  exact hedit.symm.trans List.perm_append_comm

theorem Replaced.addrs {r p n : Nat} {v w : Snapshot} {f f' cn g : Forest Snapshot}
    (replaced : Replaced r v f f' p n w cn g) :
    ((node r v f nil).addrs ++ g.addrs).Perm ((n :: cn.addrs) ++ (node r v f' nil).addrs) := by
  have hmap := (replaced.nodes.cons (r, v)).map Prod.fst
  have hmove : (r :: (n :: cn.addrs ++ f'.addrs)).Perm
      ((n :: cn.addrs) ++ (node r v f' nil).addrs) := by
    rw [addrs_node, addrs_nil, List.append_nil]
    exact List.perm_middle.symm
  refine List.Perm.trans ?_ hmove
  simpa [Forest.addrs] using hmap

theorem erase_middle {xs ys : List Nat} {n : Nat} (hn : n ∉ xs) :
    (xs ++ n :: ys).erase n = xs ++ ys := by
  rw [List.erase_append_right _ hn, List.erase_cons_head]

theorem idxOf_middle {xs ys : List Nat} {n : Nat} (hn : n ∉ xs) :
    (xs ++ n :: ys).idxOf n = xs.length := by
  rw [List.idxOf_append_of_notMem hn, List.idxOf_cons_self, Nat.add_zero]

/-- The cells around a child `n` of the node `C.addr`. -/
structure ChildLinks (h : TreeHeap) (m : Marks) (C : Context Snapshot) (u : Snapshot)
    (d₁ : Forest Snapshot) (n : Nat) (w : Snapshot) (c d₂ : Forest Snapshot) : Prop where
  read_parent : h.read C.addr = some ⟨u.state (m C.addr).isSome, (markContext m C).parent none,
    d₁.roots ++ n :: (d₂.roots ++ (leafOf (m C.addr)).roots)⟩
  read_child : h.read n = some ⟨w.state (m n).isSome, some C.addr,
    ((mark m c).append (leafOf (m n))).roots⟩
  stored : Stored h (some n) ((mark m c).append (leafOf (m n)))
  nodup : ((mark m c).append (leafOf (m n))).addrs.Nodup
  child_fresh : n ∉ ((mark m c).append (leafOf (m n))).addrs
  parent_fresh : C.addr ∉ ((mark m c).append (leafOf (m n))).addrs
  parent_ne : C.addr ≠ n
  not_before : n ∉ d₁.roots

theorem Holds.childLinks {h : TreeHeap} {m : Marks} {C : Context Snapshot} {u : Snapshot}
    {d₁ : Forest Snapshot} {n : Nat} {w : Snapshot} {c d₂ : Forest Snapshot}
    (holds : Holds h m (C.plug u (d₁.append ((node n w c nil).append d₂))) []) :
    ChildLinks h m C u d₁ n w c d₂ := by
  obtain ⟨hnodup, _, hapart⟩ := holds.nodup_middle
  obtain ⟨hread, hstored, _⟩ := holds.stored_middle
  rw [mark_node, mark_nil, addrs_node, addrs_nil, List.append_nil] at hnodup hapart
  have hrest : ∀ b, b ∈ C.addr :: (d₁.addrs ++ d₂.addrs) →
      b ∈ (mark m (C.plug u (d₁.append d₂))).addrs := by
    intro b hb
    refine mem_addrs_mark.mpr (.inl ?_)
    rw [(C.addrs_plug _ _).mem_iff, addrs_append]
    rw [List.mem_cons] at hb ⊢
    exact hb.imp_right fun hmem => List.mem_append_left _ hmem
  have hq := hrest C.addr List.mem_cons_self
  refine ⟨holds.read_parent, hread, hstored, (List.nodup_cons.mp hnodup).2,
    (List.nodup_cons.mp hnodup).1, ?_, ?_, ?_⟩
  · intro hmem
    exact hapart _ (List.mem_cons_of_mem _ hmem) hq
  · intro heq
    exact hapart n List.mem_cons_self (heq ▸ hq)
  · intro hmem
    exact hapart n List.mem_cons_self (hrest n (by simp [addrs_of_root hmem]))

section Delete

variable {s : SavedStateStore} {f : Forest Snapshot} {r c l n : Nat} {v : Snapshot}

/-- A snapshot is a child of some node of the tree. -/
theorem exists_child (nodup : (node r v f nil).addrs.Nodup) (hn : n ∈ f.addrs) :
    ∃ (C : Context Snapshot) (u : Snapshot) (d₁ : Forest Snapshot) (w : Snapshot)
      (c d₂ : Forest Snapshot),
      node r v f nil = C.plug u (d₁.append ((node n w c nil).append d₂)) := by
  refine exists_plug_child (by simp [hn]) ?_
  rw [addrs_node, addrs_nil, List.append_nil, List.nodup_cons] at nodup
  simp only [roots_node, roots_nil, List.mem_singleton]
  intro heq
  exact nodup.1 (heq ▸ hn)

/-- What `DeleteNode` does up to the mark of the deleted node: its children take its place and it
is detached. -/
theorem Holds.splice {h : TreeHeap} {m : Marks} {C : Context Snapshot} {u w : Snapshot}
    {d₁ cn d₂ : Forest Snapshot}
    (holds : Holds h m (C.plug u (d₁.append ((node n w cn nil).append d₂))) []) :
    ∃ k, Holds k m (C.plug u (d₁.append (cn.append d₂))) [n] ∧
      k.read n = some ⟨w.state false, some C.addr, cn.roots⟩ ∧
      ∀ root, deleteNode ⟨h, root⟩ (some n) = (do
        let s ← passCurrent ⟨k, root⟩ C.addr (m n).isSome
        let h ← s.heap.free n
        let s ← dropEmptyTree ⟨h, s.root⟩
        return (.rcSuccess, s)) := by
  obtain ⟨hreadq, hreadn, hstoredN, hnodupN, hnN, hqN, hqn, hnd₁⟩ := holds.childLinks
  -- the parent forgets the node
  generalize hafter : d₂.roots ++ (leafOf (m C.addr)).roots = after at hreadq
  let h₁ := h.put C.addr
    (some ⟨u.state (m C.addr).isSome, (markContext m C).parent none, d₁.roots ++ after⟩)
  have hreadn₁ : h₁.read n = some ⟨w.state (m n).isSome, some C.addr,
      ((mark m cn).append (leafOf (m n))).roots⟩ := by
    rw [Heap.read_put_ne _ (Ne.symm hqn), hreadn]
  have hstoredN₁ : Stored h₁ (some n) ((mark m cn).append (leafOf (m n))) :=
    hstoredN.frame fun b hb => Heap.read_put_ne _ (ne_of_mem_of_not_mem hb hqN) _
  -- the node loses its mark
  obtain ⟨h₂, hunset, hreadn₂, hfreed₂, hsame₂, hnext₂⟩ :=
    unsetCurrent_spec hreadn₁ hstoredN₁ hnN
  have hqleaf : m n ≠ some C.addr := fun hmark =>
    hqN (by rw [addrs_append, List.mem_append]; exact .inr (mem_leafOf.mpr hmark))
  have hreadq₂ : h₂.read C.addr = some ⟨u.state (m C.addr).isSome,
      (markContext m C).parent none, d₁.roots ++ after⟩ := by
    rw [hsame₂ C.addr hqn hqleaf, Heap.read_put_self hreadq]
  rw [addrs_append, List.mem_append, not_or] at hnN hqN
  rw [addrs_append, List.nodup_append] at hnodupN
  have hstored₂ : Stored h₂ (some n) (mark m cn) := by
    refine (stored_append.mp hstoredN₁).1.frame fun b hb => hsame₂ b ?_ ?_
    · exact ne_of_mem_of_not_mem hb hnN.1
    · intro hmark
      exact hnodupN.2.2 b hb b (mem_leafOf.mpr hmark) rfl
  -- the parent adopts the children
  obtain ⟨h₃, hadopt, hreadq₃, hstored₃, hsame₃⟩ :=
    adoptChilds_spec hreadq₂ hstored₂ hnodupN.1 hqN.1
  have hsame : ∀ b, b ∉ (mark m (node n w cn nil)).addrs → b ≠ C.addr →
      h₃.read b = h.read b := by
    intro b hb hbq
    rw [mark_node, addrs_node, addrs_append, List.mem_cons, List.mem_append, List.mem_append]
      at hb
    simp only [not_or] at hb
    rw [hsame₃ b hbq hb.2.1.1, hsame₂ b hb.1 fun hmark => hb.2.1.2 (mem_leafOf.mpr hmark),
      Heap.read_put_ne _ hbq]
  have hreadn₃ : h₃.read n = some ⟨w.state false, some C.addr, cn.roots⟩ := by
    rw [hsame₃ n (Ne.symm hqn) hnN.1, hreadn₂]
  refine ⟨h₃, ?_, hreadn₃, fun root => ?_⟩
  · refine holds.replace ?_ hstored₃ hnodupN.1 ?_ (by simp) hnN.1 ?_ hsame
    · rw [hreadq₃]
      simp [← hafter]
    · intro b hb
      simp [hb]
    · intro b hb hbcn hbn
      simp only [mark_node, addrs_node, addrs_append, List.mem_cons, List.mem_append, mark_nil,
        addrs_nil, List.not_mem_nil, or_false] at hb
      have hmark : m n = some b :=
        mem_leafOf.mp ((hb.resolve_left hbn).resolve_left hbcn)
      have hbq : b ≠ C.addr := fun heq => hqleaf (heq ▸ hmark)
      rw [hsame₃ b hbq hbcn, hfreed₂ b hmark]
  · have hforget : h.modify C.addr (fun p => { p with childs := p.childs.erase n }) = some h₁ := by
      rw [Heap.modify_of_read hreadq]
      simp only [erase_middle hnd₁, h₁]
    rw [← setCurrent_false hreadn₁] at hunset
    rw [roots_mark] at hadopt
    have hmem : n ∈ d₁.roots ++ n :: after := by simp
    simp only [deleteNode, hreadn, hreadq, hforget, hunset, hreadn₂, hadopt, hmem,
      idxOf_middle hnd₁, Snapshot.state_current, Option.bind_eq_bind, Option.bind_some, if_true]

/-- The children of the deleted node take its place. -/
theorem deleteNode_marked (marked : MarkedAt s r v f c []) (hn : n ∈ f.addrs) :
    ∃ s' f' w p cn, deleteNode s (some n) = some (.rcSuccess, s') ∧
      Replaced r v f f' p n w cn cn ∧ Settled s' r v f' (if c = n then p else c) [] ∧
      (f' = nil → s'.root = none) := by
  obtain ⟨l, hroot, hc, holds⟩ := marked
  have hnodup := holds.addrs_nodup
  obtain ⟨C, u, d₁, w, cn, d₂, hplug⟩ := exists_child hnodup hn
  obtain ⟨f', hf'⟩ := Context.plug_tree hplug (d₁.append (cn.append d₂))
  have hreplaced : Replaced r v f f' C.addr n w cn cn := ⟨⟨C, u, d₁, d₂, rfl, hplug, hf'⟩⟩
  have haddrs : (node r v f nil).addrs.Perm (n :: (node r v f' nil).addrs) := by
    refine List.perm_iff_count.mpr fun x => ?_
    have hcount := hreplaced.addrs.count_eq x
    simp only [List.count_append, List.count_cons] at hcount ⊢
    omega
  have hn' : n ∉ (node r v f' nil).addrs := (List.nodup_cons.mp (haddrs.nodup_iff.mp hnodup)).1
  have hlost : (marksAt c l n).isSome = false ↔ c ∈ (node r v f' nil).addrs := by
    by_cases heq : n = c
    · subst heq
      simpa using hn'
    · rw [haddrs.mem_iff, List.mem_cons] at hc
      simpa [marksAt_ne heq] using hc.resolve_left (Ne.symm heq)
  have hwho : (if (marksAt c l n).isSome then C.addr else c) = if c = n then C.addr else c := by
    by_cases heq : c = n
    · simp [heq]
    · simp [heq, marksAt_ne (Ne.symm heq)]
  rw [hplug] at holds
  obtain ⟨h₃, hholds, hreadn₃, hdelete⟩ := holds.splice
  rw [hf'] at hholds
  -- the mark and the empty tree
  have hq' : C.addr ∈ (node r v f' nil).addrs := by
    rw [← hf', (C.addrs_plug _ _).mem_iff]
    exact List.mem_cons_self
  obtain ⟨s₄, hpass, hsettled₄, hread₄⟩ :=
    settle hholds (Heap.lt_next_of_read hreadn₃) hq' hlost
  obtain ⟨k, s', hfree, hdrop, hsettled', hnone⟩ := finish hsettled₄ (hread₄.trans hreadn₃)
  rw [hwho] at hsettled'
  refine ⟨s', f', w, C.addr, cn, ?_, hreplaced, hsettled', hnone⟩
  have hrun := hdelete s.root
  rw [hroot] at hrun
  have hs : s = ⟨s.heap, some r⟩ := by rw [← hroot]
  rw [hs, hrun]
  simp only [hpass, hfree, hdrop, Option.bind_eq_bind, Option.bind_some, Option.pure_def]

/-- The first child of a head, neither of them current, gives its place to its children. -/
theorem deleteNode_first {m : Marks} {w : Snapshot} {cn : Forest Snapshot}
    (holds : Holds s.heap m (node r v (node n w cn f) nil) []) (hroot : s.root = some r)
    (hmark : m n = none) (hhead : m r = none) :
    ∃ s', deleteNode s (some n) = some (.rcSuccess, s') ∧ s'.root = some r ∧
      Holds s'.heap m (node r v (cn.append f) nil) [] := by
  have hplug : node r v (node n w cn f) nil =
      (Context.hole r nil).plug v (nil.append ((node n w cn nil).append f)) := rfl
  rw [hplug] at holds
  obtain ⟨k, hholds, hread, hdelete⟩ := holds.splice
  have hfreed : Holds (k.put n none) m (node r v (cn.append f) nil) [] := hholds.free hread
  have hdrop : dropEmptyTree ⟨k.put n none, some r⟩ = some ⟨k.put n none, some r⟩ := by
    have hreadr := hfreed.stored.1
    simp [dropEmptyTree, hreadr, hhead]
  refine ⟨⟨k.put n none, some r⟩, ?_, rfl, hfreed⟩
  have hs : s = ⟨s.heap, some r⟩ := by rw [← hroot]
  rw [hs, hdelete, hmark]
  simp [passCurrent, Heap.free_of_read hread, hdrop]

theorem firstNode_nowhere (g : Forest Snapshot) :
    firstNode (fun v => v.current) (mark nowhere g) = none := by
  have hfind : (mark nowhere g).nodes.find? (fun x => x.2.current) = none := by
    rw [List.find?_eq_none]
    intro x hx
    rw [(nodes_mark nowhere g).mem_iff, List.mem_append, List.mem_map, List.mem_map] at hx
    rcases hx with ⟨y, _, rfl⟩ | ⟨y, _, rfl⟩
    · simp
    · simp
  simp [firstNode, hfind]

theorem firstNode_current_isSome {g : Forest Snapshot} :
    (firstNode (fun v => v.current) (mark (marksAt c l) g)).isSome = false ↔ c ∉ g.addrs := by
  by_cases hc : c ∈ g.addrs
  · simp [firstNode_current hc, hc]
  · have hmark : mark (marksAt c l) g = mark nowhere g := by
      refine mark_congr fun a ha => marksAt_ne ?_ l
      intro heq
      exact hc (heq ▸ ha)
    simp [hmark, firstNode_nowhere, hc]

theorem deleteBranch_marked (marked : MarkedAt s r v f c []) (hn : n ∈ f.addrs) :
    ∃ s' f' w p, ∃ cn : Forest Snapshot, deleteBranch s (some n) = some (.rcSuccess, s') ∧
      Replaced r v f f' p n w cn nil ∧
      Settled s' r v f' (if c ∈ n :: cn.addrs then p else c) [] ∧
      (f' = nil → s'.root = none) ∧
      ∀ b ∈ f.addrs, Below s.heap n b ↔ b = n ∨ b ∈ cn.addrs := by
  obtain ⟨l, hroot, hc, holds⟩ := marked
  have hnodup := holds.addrs_nodup
  obtain ⟨C, u, d₁, w, cn, d₂, hplug⟩ := exists_child hnodup hn
  obtain ⟨f', hf'⟩ := Context.plug_tree hplug (d₁.append (nil.append d₂))
  have hreplaced : Replaced r v f f' C.addr n w cn nil := ⟨⟨C, u, d₁, d₂, rfl, hplug, hf'⟩⟩
  have haddrs := hreplaced.addrs
  rw [addrs_nil, List.append_nil] at haddrs
  have hfound : (firstNode (fun v => v.current) (mark (marksAt c l) (node n w cn nil))).isSome =
      false ↔ c ∉ n :: cn.addrs := by
    rw [firstNode_current_isSome, addrs_node, addrs_nil, List.append_nil]
  have hlost : (firstNode (fun v => v.current) (mark (marksAt c l) (node n w cn nil))).isSome =
      false ↔ c ∈ (node r v f' nil).addrs := by
    have hsplit := haddrs.nodup_iff.mp hnodup
    rw [List.nodup_append] at hsplit
    rw [haddrs.mem_iff, List.mem_append] at hc
    rw [hfound]
    constructor
    · intro hout
      exact hc.resolve_left hout
    · intro hin hgone
      exact hsplit.2.2 c hgone c hin rfl
  have hwho : (if (firstNode (fun v => v.current)
      (mark (marksAt c l) (node n w cn nil))).isSome then C.addr else c) =
      if c ∈ n :: cn.addrs then C.addr else c := by
    by_cases hin : c ∈ n :: cn.addrs
    · rw [if_pos hin, if_pos (eq_true_of_ne_false (mt hfound.mp (not_not.mpr hin)))]
    · rw [if_neg hin, if_neg (Bool.not_eq_true _ ▸ hfound.mpr hin)]
  have hmiddle := holds
  rw [hplug] at hmiddle
  obtain ⟨hreadq, hreadn, hstoredN, hnodupN, hnN, hqN, hqn, hnd₁⟩ := hmiddle.childLinks
  have hbelow : ∀ b ∈ f.addrs, Below s.heap n b ↔ b = n ∨ b ∈ cn.addrs := by
    intro b hb
    have hl : l ≠ b := by
      intro heq
      exact leaf_fresh hc holds.nodup (by simp [heq, hb])
    rw [hmiddle.stored_middle.below_iff b, addrs_append, List.mem_append, mem_addrs_mark, mem_leafOf]
    simp [marksAt_eq_some, hl]
  generalize hafter : d₂.roots ++ (leafOf (marksAt c l C.addr)).roots = after at hreadq
  have hfind : findCurrentNode s.heap (some n) =
      some (firstNode (fun v => v.current) (mark (marksAt c l) (node n w cn nil))) :=
    findNode_spec (fun v => v.current) hmiddle.stored_middle hmiddle.nodup_middle.1
  -- the branch is emptied and forgotten by its parent
  obtain ⟨h₁, hclear, hreadn₁, hfreed₁, hsame₁, hnext₁⟩ :=
    clearTreeChild_spec hreadn hstoredN hnodupN hnN
  have hreadq₁ : h₁.read C.addr = some ⟨u.state (marksAt c l C.addr).isSome,
      (markContext (marksAt c l) C).parent none, d₁.roots ++ n :: after⟩ := by
    rw [hsame₁ C.addr hqn hqN, hreadq]
  let h₂ := h₁.put C.addr (some ⟨u.state (marksAt c l C.addr).isSome,
    (markContext (marksAt c l) C).parent none, d₁.roots ++ after⟩)
  have hforget : h₁.modify C.addr (fun p => { p with childs := p.childs.erase n }) = some h₂ := by
    rw [Heap.modify_of_read hreadq₁]
    simp only [erase_middle hnd₁, h₂]
  have hholds : Holds h₂ (marksAt c l) (C.plug u (d₁.append (nil.append d₂))) [n] := by
    refine hmiddle.replace ?_ trivial (by simp) (by simp) (by simp) (by simp) ?_ ?_
    · rw [Heap.read_put_self hreadq₁, ← hafter]
      simp
    · intro b hb _ hbn
      rw [mark_node, addrs_node, mark_nil, addrs_nil, List.append_nil] at hb
      have hbN := (List.mem_cons.mp hb).resolve_left hbn
      rw [Heap.read_put_ne h₁ (ne_of_mem_of_not_mem hbN hqN), hfreed₁ b hbN]
    · intro b hb hbq
      rw [mark_node, addrs_node, mark_nil, addrs_nil, List.append_nil, List.mem_cons, not_or] at hb
      rw [Heap.read_put_ne h₁ hbq, hsame₁ b hb.1 hb.2]
  rw [hf'] at hholds
  have hreadn₂ : h₂.read n = some ⟨w.state (marksAt c l n).isSome, some C.addr, []⟩ := by
    rw [Heap.read_put_ne h₁ (Ne.symm hqn), hreadn₁]
  -- the mark and the empty tree
  have hq' : C.addr ∈ (node r v f' nil).addrs := by
    rw [← hf', (C.addrs_plug _ _).mem_iff]
    exact List.mem_cons_self
  obtain ⟨s₃, hpass, hsettled₃, hread₃⟩ :=
    settle hholds (Heap.lt_next_of_read hreadn₂) hq' hlost
  obtain ⟨k, s', hfree, hdrop, hsettled', hnone⟩ := finish hsettled₃ (hread₃.trans hreadn₂)
  rw [hwho] at hsettled'
  refine ⟨s', f', w, C.addr, cn, ?_, hreplaced, hsettled', hnone, hbelow⟩
  have hunlink : ∀ b, unlinkBranch ⟨h₁, some r⟩ n b (some C.addr) =
      passCurrent ⟨h₂, some r⟩ C.addr b := by
    intro b
    simp only [unlinkBranch, hforget, Option.bind_eq_bind, Option.bind_some]
  simp only [deleteBranch, hfind, hclear, hreadn₁, hroot, hunlink, hpass, hsettled₃.root_ne, hfree,
    hdrop, Option.bind_eq_bind, Option.bind_some, if_false, Option.pure_def]

theorem deleteBranch_head (hroot : s.root = some r)
    (holds : Holds s.heap (marksAt c l) (node r v f nil) []) :
    ∃ s', deleteBranch s (some r) = some (.rcSuccess, s') ∧ s'.root = none ∧
      ∀ b n, s'.heap.read b ≠ some n := by
  obtain ⟨hread, hchilds, _⟩ := holds.stored
  have hnodup := holds.nodup
  rw [mark_node, mark_nil, addrs_node, addrs_nil, List.append_nil, List.nodup_cons] at hnodup
  have hfind : findCurrentNode s.heap (some r) =
      some (firstNode (fun v => v.current) (mark (marksAt c l) (node r v f nil))) :=
    findNode_spec (fun v => v.current) holds.stored holds.nodup
  obtain ⟨h₁, hclear, hread₁, hfreed₁, hsame₁, _⟩ :=
    clearTreeChild_spec hread hchilds hnodup.2 hnodup.1
  refine ⟨⟨h₁.put r none, none⟩, ?_, rfl, ?_⟩
  · simp [deleteBranch, hfind, hclear, hread₁, hroot, unlinkBranch, Heap.free_of_read hread₁,
      dropEmptyTree]
  · intro b n hb
    by_cases hbr : b = r
    · rw [hbr, Heap.read_put_self hread₁] at hb
      cases hb
    · rw [Heap.read_put_ne h₁ hbr] at hb
      by_cases hbN : b ∈ ((mark (marksAt c l) f).append (leafOf (marksAt c l r))).addrs
      · rw [hfreed₁ b hbN] at hb
        cases hb
      · rw [hsame₁ b hbr hbN] at hb
        have hmem := holds.only b n hb
        rw [mark_node, mark_nil, addrs_node, addrs_nil, List.append_nil, List.mem_cons] at hmem
        rcases hmem with (heq | hin) | hnil
        · exact absurd heq hbr
        · exact absurd hin hbN
        · cases hnil

end Delete

end DispService.StatesStore
