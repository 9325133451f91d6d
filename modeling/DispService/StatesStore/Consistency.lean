import DispService.StatesStore.Marked

/-! The heap holds one marked tree and, while an operation runs, the nodes that it
has detached. Each step of the store operations is proved on this shape, and each
operation on its effect on the snapshots below the head. -/
namespace DispService.StatesStore

open DispService.Lib Forest

/-- The heap stores the marked tree; every other live cell is detached. -/
structure Holds (h : TreeHeap) (m : Marks) (t : Forest Snapshot) (detached : List Nat) :
    Prop where
  stored : Stored h none (mark m t)
  nodup : (mark m t).addrs.Nodup
  apart : ∀ b ∈ detached, b ∉ (mark m t).addrs
  only : ∀ b n, h.read b = some n → b ∈ (mark m t).addrs ∨ b ∈ detached

/-- The store holds the snapshots `f` below the head `r` and the marks on `c`. -/
def MarkedAt (s : SavedStateStore) (r : Nat) (v : Snapshot) (f : Forest Snapshot) (c : Nat)
    (detached : List Nat) : Prop :=
  ∃ l, s.root = some r ∧ c ∈ (node r v f nil).addrs ∧
    Holds s.heap (marksAt c l) (node r v f nil) detached

/-- The same, where a head without snapshots may be deleted. -/
def Settled (s : SavedStateStore) (r : Nat) (v : Snapshot) (f : Forest Snapshot) (c : Nat)
    (detached : List Nat) : Prop :=
  (s.root = none ∧ f = nil ∧ ∀ b n, s.heap.read b = some n → b ∈ detached) ∨
    MarkedAt s r v f c detached

/-- The store as its users see it: the snapshots `f` below a head without a guid,
and the marks on one node. -/
def Refines (s : SavedStateStore) (f : Forest Snapshot) (detached : List Nat) : Prop :=
  (s.root = none ∧ f = nil ∧ ∀ b n, s.heap.read b = some n → b ∈ detached) ∨
  ∃ r v c l, s.root = some r ∧ v.guid = "" ∧ c ∈ (node r v f nil).addrs ∧
    Holds s.heap (marksAt c l) (node r v f nil) detached

theorem Settled.refines {s : SavedStateStore} {r c : Nat} {v : Snapshot} {f : Forest Snapshot}
    {detached : List Nat} (settled : Settled s r v f c detached) (hguid : v.guid = "") :
    Refines s f detached := by
  rcases settled with ⟨hroot, hnil, honly⟩ | ⟨l, hroot, hc, holds⟩
  · exact .inl ⟨hroot, hnil, honly⟩
  · exact .inr ⟨r, v, c, l, hroot, hguid, hc, holds⟩

variable {h : TreeHeap} {m : Marks} {t : Forest Snapshot} {detached : List Nat}

theorem Holds.addrs_nodup (holds : Holds h m t detached) : t.addrs.Nodup :=
  nodup_of_mark holds.nodup

theorem Holds.lt_next (holds : Holds h m t detached) {a : Nat} (ha : a ∈ t.addrs) :
    a < h.next :=
  holds.stored.lt_next (mem_addrs_mark.mpr (.inl ha))

/-- `SetCurrent(true)` moves the marks and keeps what is detached. -/
theorem Holds.setCurrent {r : Nat} {v : Snapshot} {c : Forest Snapshot}
    (holds : Holds h m (node r v c nil) detached)
    (live : ∀ b ∈ detached, b < h.next) {a : Nat} (ha : a ∈ (node r v c nil).addrs) :
    ∃ k, setCurrent h a true = some k ∧
      Holds k (marksAt a h.next) (node r v c nil) detached ∧
      ∀ b ∈ detached, k.read b = h.read b := by
  obtain ⟨k, hset, hstored, hfreed, hsame, hnext⟩ :=
    setCurrent_spec holds.stored holds.nodup ha
  have hnodup := holds.addrs_nodup
  have hfresh : h.next ∉ (node r v c nil).addrs := by
    intro hmem
    exact absurd (holds.lt_next hmem) (Nat.lt_irrefl _)
  have hmark : ∀ b, b ∈ (mark (marksAt a h.next) (node r v c nil)).addrs ↔
      b ∈ (node r v c nil).addrs ∨ b = h.next := fun b => mem_addrs_marksAt ha
  have hkeep : ∀ b ∈ detached, k.read b = h.read b := by
    intro b hb
    refine hsame b (holds.apart b hb) ?_
    exact Nat.ne_of_lt (live b hb)
  refine ⟨k, hset, ⟨hstored, nodup_mark hnodup hfresh, ?_, ?_⟩, hkeep⟩
  · intro b hb hmem
    rcases (hmark b).mp hmem with htree | hleaf
    · exact holds.apart b hb (mem_addrs_mark.mpr (.inl htree))
    · exact absurd (live b hb) (by omega)
  · intro b n hread
    by_cases hdet : b ∈ detached
    · exact .inr hdet
    · refine .inl ((hmark b).mpr ?_)
      by_cases hleaf : b = h.next
      · exact .inr hleaf
      · by_cases hold : b ∈ (mark m (node r v c nil)).addrs
        · by_contra hnot
          rw [not_or] at hnot
          rw [hfreed b hold hnot.1] at hread
          cases hread
        · rw [hsame b hold hleaf] at hread
          rcases holds.only b n hread with hmem | hmem
          · exact absurd hmem hold
          · exact absurd hmem hdet

theorem passCurrent_spec {r : Nat} {v : Snapshot} {f : Forest Snapshot}
    (holds : Holds h nowhere (node r v f nil) detached)
    (live : ∀ b ∈ detached, b < h.next) {q : Nat} (hq : q ∈ (node r v f nil).addrs) :
    ∃ s, passCurrent ⟨h, some r⟩ q true = some s ∧ Settled s r v f q detached ∧
      ∀ b ∈ detached, s.heap.read b = h.read b := by
  obtain ⟨k, hset, hholds, hkeep⟩ := holds.setCurrent live hq
  have hmarked : ∃ s, some (SavedStateStore.mk k (some r)) = some s ∧
      Settled s r v f q detached ∧ ∀ b ∈ detached, s.heap.read b = h.read b :=
    ⟨_, rfl, .inr ⟨h.next, rfl, hq, hholds⟩, hkeep⟩
  obtain ⟨hread, hchilds, _⟩ := holds.stored
  simp only [nowhere_apply, leafOf_none, append_nil, roots_mark] at hread hchilds
  rw [addrs_node, List.mem_cons, addrs_nil, List.append_nil] at hq
  by_cases hqr : q = r
  · subst hqr
    by_cases hnil : f = nil
    · subst hnil
      refine ⟨⟨h.put q none, none⟩, ?_, .inl ⟨rfl, rfl, ?_⟩, ?_⟩
      · simp [passCurrent, hread, Heap.free_of_read hread]
      · intro b n hb
        by_cases hbq : b = q
        · rw [hbq, Heap.read_put_self hread] at hb
          cases hb
        · rw [Heap.read_put_ne h hbq] at hb
          rcases holds.only b n hb with hmem | hmem
          · simp [hbq] at hmem
          · exact hmem
      · intro b hb
        have hbq : b ≠ q := by
          intro heq
          exact holds.apart b hb (by simp [heq])
        rw [Heap.read_put_ne h hbq]
    · have hroots : f.roots ≠ [] := fun hroots => hnil (roots_eq_nil.mp hroots)
      simpa [passCurrent, hread, hroots, hset] using hmarked
  · have hqf : q ∈ f.addrs := by
      rcases hq with heq | hmem
      · exact absurd heq hqr
      · exact hmem
    obtain ⟨n, hn, hparent⟩ := hchilds.parent_isSome (mem_addrs_mark.mpr (.inl hqf))
    have hnone : n.parent ≠ none := Option.isSome_iff_ne_none.mp hparent
    simpa [passCurrent, hn, hnone, hset] using hmarked

theorem Holds.free {n : Nat} (holds : Holds h m t [n]) {x : Node SavedState}
    (hread : h.read n = some x) : Holds (h.put n none) m t [] := by
  refine ⟨?_, holds.nodup, by simp, ?_⟩
  · refine holds.stored.frame fun b hb => Heap.read_put_ne _ ?_ _
    intro heq
    exact holds.apart n (by simp) (heq ▸ hb)
  · intro b y hb
    by_cases hbn : b = n
    · rw [hbn, Heap.read_put_self hread] at hb
      cases hb
    · rw [Heap.read_put_ne _ hbn] at hb
      rcases holds.only b y hb with hmem | hmem
      · exact .inl hmem
      · exact absurd hmem (by simp [hbn])

theorem Settled.free {s : SavedStateStore} {r c n : Nat} {v : Snapshot} {f : Forest Snapshot}
    (settled : Settled s r v f c [n]) {x : Node SavedState} (hread : s.heap.read n = some x) :
    ∃ k, s.heap.free n = some k ∧ Settled ⟨k, s.root⟩ r v f c [] := by
  refine ⟨s.heap.put n none, Heap.free_of_read hread, ?_⟩
  rcases settled with ⟨hroot, hnil, honly⟩ | ⟨l, hroot, hc, holds⟩
  · refine .inl ⟨hroot, hnil, ?_⟩
    intro b y hb
    by_cases hbn : b = n
    · rw [hbn, Heap.read_put_self hread] at hb
      cases hb
    · rw [Heap.read_put_ne _ hbn] at hb
      exact absurd (honly b y hb) (by simp [hbn])
  · exact .inr ⟨l, hroot, hc, holds.free hread⟩

/-- A tree without snapshots does not stay. -/
theorem dropEmptyTree_spec {s : SavedStateStore} {r c : Nat} {v : Snapshot} {f : Forest Snapshot}
    (settled : Settled s r v f c []) :
    ∃ s', dropEmptyTree s = some s' ∧ Settled s' r v f c [] ∧ (f = nil → s'.root = none) := by
  rcases settled with ⟨hroot, hnil, honly⟩ | ⟨l, hroot, hc, holds⟩
  · exact ⟨s, by simp [dropEmptyTree, hroot], .inl ⟨hroot, hnil, honly⟩, fun _ => hroot⟩
  · have hstays (hsome : f ≠ nil) : ∃ s', some s = some s' ∧ Settled s' r v f c [] ∧
        (f = nil → s'.root = none) :=
      ⟨s, rfl, .inr ⟨l, hroot, hc, holds⟩, fun hnil => absurd hnil hsome⟩
    obtain ⟨hread, hchilds, _⟩ := holds.stored
    by_cases hcr : c = r
    · subst hcr
      by_cases hnil : f = nil
      · subst hnil
        have hfresh : c ∉ ((mark (marksAt c l) nil).append (leafOf (marksAt c l c))).addrs := by
          have hnodup := holds.nodup
          rw [mark_node, addrs_node, List.nodup_cons, List.mem_append, not_or] at hnodup
          exact hnodup.1.1
        obtain ⟨k, hunset, hreadk, hfreed, hsame, _⟩ := unsetCurrent_spec hread hchilds hfresh
        refine ⟨⟨k.put c none, none⟩, ?_, .inl ⟨rfl, rfl, ?_⟩, fun _ => rfl⟩
        · simp [dropEmptyTree, hroot, hread, setCurrent_false hread, hunset,
            Heap.free_of_read hreadk]
        · intro b n hb
          by_cases hbc : b = c
          · rw [hbc, Heap.read_put_self hreadk] at hb
            cases hb
          · rw [Heap.read_put_ne k hbc] at hb
            by_cases hbl : b = l
            · rw [hbl, hfreed l (marksAt_self c l)] at hb
              cases hb
            · rw [hsame b hbc (by simpa using Ne.symm hbl)] at hb
              have hmem := holds.only b n hb
              rw [mem_addrs_marksAt hc] at hmem
              simp [hbc, hbl] at hmem
      · have hroots : f.roots ≠ [] := fun hroots => hnil (roots_eq_nil.mp hroots)
        simpa [dropEmptyTree, hroot, hread, hroots] using hstays hnil
    · have hmark : marksAt c l r = none := marksAt_ne (Ne.symm hcr) l
      have hnil : f ≠ nil := by
        rintro rfl
        exact hcr (by simpa using hc)
      simpa [dropEmptyTree, hroot, hread, hmark] using hstays hnil

theorem Holds.alloc (holds : Holds h m t detached) (n : Node SavedState) :
    Holds (h.alloc n) m t (h.next :: detached) := by
  have hfresh := holds.stored.not_next
  refine ⟨?_, holds.nodup, List.forall_mem_cons.mpr ⟨hfresh, holds.apart⟩, ?_⟩
  · refine holds.stored.frame fun b hb => ?_
    rw [Heap.read_alloc, if_neg (ne_of_mem_of_not_mem hb hfresh)]
  · intro b x hb
    by_cases hbn : b = h.next
    · exact .inr (by simp [hbn])
    · rw [Heap.read_alloc, if_neg hbn] at hb
      exact (holds.only b x hb).imp_right (List.mem_cons_of_mem _)

/-- `AddChild` makes a detached node the last snapshot among the children. -/
theorem Holds.addChild {C : Context Snapshot} {u w : Snapshot} {d : Forest Snapshot} {x : Nat}
    {o : Option Nat} (holds : Holds h m (C.plug u d) (x :: detached)) (hxd : x ∉ detached)
    (hx : h.read x = some ⟨w.state false, o, []⟩) (hmark : m x = none) :
    ∃ k, addChild h C.addr (some x) = some (true, k) ∧
      Holds k m (C.plug u (d.append (single x w))) detached ∧ k.next = h.next := by
  have hstored := holds.stored
  have hfresh := holds.apart x (by simp)
  have hnodup := holds.nodup
  rw [mark_plug] at hstored hfresh hnodup
  obtain ⟨hread, hchilds, hcontext⟩ := Context.stored_plug.mp hstored
  obtain ⟨had, haC, _, _, _⟩ := nodup_hole hnodup
  rw [((markContext m C).addrs_plug _ _).mem_iff, List.mem_cons, List.mem_append, not_or,
    not_or] at hfresh
  rw [addr_markContext] at hread hchilds had haC hfresh
  obtain ⟨hxc, hxsub, hxC⟩ := hfresh
  obtain ⟨k, hadd, hreadk, hxk, hsame, hnext⟩ := addChild_spec hread hx hxc rfl
  have haddrs : (mark m (C.plug u (d.append (single x w)))).addrs.Perm
      (x :: (mark m (C.plug u d)).addrs) := by
    have hnew := (markContext m C).addrs_plug (u.state (m C.addr).isSome)
      ((mark m (d.append (single x w))).append (leafOf (m C.addr)))
    have hold := (markContext m C).addrs_plug (u.state (m C.addr).isSome)
      ((mark m d).append (leafOf (m C.addr)))
    rw [mark_plug, mark_plug]
    refine List.perm_iff_count.mpr fun b => ?_
    have hn := hnew.count_eq b
    have ho := hold.count_eq b
    simp only [mark_append, single, mark_node, mark_nil, hmark, leafOf_none, addrs_append,
      addrs_node, addrs_nil, List.count_cons, List.count_append, List.count_nil,
      nil_append] at hn ho ⊢
    omega
  refine ⟨k, hadd, ⟨?_, ?_, ?_, ?_⟩, hnext⟩
  · rw [mark_plug, Context.stored_plug, addr_markContext]
    refine ⟨?_, ?_, hcontext.frame fun b hb => hsame b ?_ ?_⟩
    · rw [hreadk]
      cases hm : m C.addr with
      | none => simp [insertPos, single]
      | some l => simp [insertPos, single, insertIdx_length_append]
    · have hkeep : Stored k (some C.addr) ((mark m d).append (leafOf (m C.addr))) := by
        refine hchilds.frame fun b hb => hsame b ?_ ?_
        · exact ne_of_mem_of_not_mem hb had
        · exact ne_of_mem_of_not_mem hb hxsub
      obtain ⟨hd, hl⟩ := stored_append.mp hkeep
      rw [mark_append, stored_append, stored_append]
      refine ⟨⟨hd, ?_, ?_, trivial⟩, hl⟩
      · rw [hxk, hmark]
        rfl
      · rw [hmark]
        trivial
    · exact ne_of_mem_of_not_mem hb haC
    · exact ne_of_mem_of_not_mem hb hxC
  · rw [haddrs.nodup_iff, List.nodup_cons]
    exact ⟨holds.apart x (by simp), holds.nodup⟩
  · intro b hb
    rw [haddrs.mem_iff, List.mem_cons, not_or]
    exact ⟨ne_of_mem_of_not_mem hb hxd, holds.apart b (List.mem_cons_of_mem _ hb)⟩
  · intro b n hb
    rw [haddrs.mem_iff, List.mem_cons]
    by_cases hbx : b = x
    · exact .inl (.inl hbx)
    · by_cases hbc : b = C.addr
      · refine .inl (.inr (mem_addrs_mark.mpr (.inl ?_)))
        rw [(C.addrs_plug u d).mem_iff, hbc]
        exact List.mem_cons_self
      · rw [hsame b hbc hbx] at hb
        rcases holds.only b n hb with hmem | hdet
        · exact .inl (.inr hmem)
        · exact .inr ((List.mem_cons.mp hdet).resolve_left hbx)

section Create

variable {s : SavedStateStore} (state : SavedState)

/-- The snapshot that `CreateSnapshot` adds. -/
def created : Snapshot :=
  (copyProperties state).toSnapshot

/-- Where no node is current a new tree is started; what the heap holds is left behind. -/
theorem createSnapshot_newTree (left : List Nat)
    (hfind : findCurrentNode (s.heap.alloc (newNode (copyProperties state))) s.root = some none)
    (honly : ∀ b n, s.heap.read b = some n → b ∈ left) (hleft : ∀ b ∈ left, b < s.heap.next) :
    ∃ s', createSnapshot s state = some (.rcSuccess, s') ∧
      MarkedAt s' (s.heap.next + 1) {} (single s.heap.next (created state)) s.heap.next left := by
  let x := s.heap.next
  let h₁ := s.heap.alloc (newNode (copyProperties state))
  let h₂ := h₁.alloc (newNode {})
  have hx₁ : h₁.read x = some (newNode (copyProperties state)) :=
    Heap.read_alloc_next _ _
  have hnext₁ : h₁.next = x + 1 := Heap.next_alloc _ _
  have hne : x ≠ h₁.next := by omega
  have hxleft : x ∉ left := fun hmem => absurd (hleft x hmem) (Nat.lt_irrefl _)
  have hx₂ : h₂.read x = some (newNode (copyProperties state)) := by
    rw [Heap.read_alloc, if_neg hne, hx₁]
  have hr₂ : h₂.read h₁.next = some (newNode {}) :=
    Heap.read_alloc_next _ _
  have hholds₂ : Holds h₂ nowhere ((Context.hole h₁.next nil).plug {} nil) (x :: left) := by
    refine ⟨⟨hr₂, trivial, trivial⟩, by simp [Context.plug], ?_, ?_⟩
    · intro b hb
      have hlt : b < h₁.next := by
        rcases List.mem_cons.mp hb with rfl | hmem
        · omega
        · have hold := hleft b hmem
          omega
      simp [Context.plug, Nat.ne_of_lt hlt]
    · intro b n hb
      by_cases hbr : b = h₁.next
      · exact .inl (by simp [Context.plug, hbr])
      · by_cases hbx : b = x
        · exact .inr (by simp [hbx])
        · rw [Heap.read_alloc, if_neg hbr, Heap.read_alloc, if_neg hbx] at hb
          exact .inr (List.mem_cons_of_mem _ (honly b n hb))
  obtain ⟨h₃, hadd, hholds₃, hnext₃⟩ := hholds₂.addChild (w := created state) hxleft hx₂ rfl
  have hmem : x ∈ (node h₁.next ({} : Snapshot) (single x (created state)) nil).addrs := by
    simp [single]
  have hlive₃ : ∀ b ∈ left, b < h₃.next := by
    intro b hb
    have hold := hleft b hb
    have hnext₂ : h₂.next = h₁.next + 1 := Heap.next_alloc _ _
    omega
  obtain ⟨k, hset, hholdsk, _⟩ := Holds.setCurrent hholds₃ hlive₃ hmem
  rw [hnext₁] at hholdsk hmem
  refine ⟨⟨k, some h₁.next⟩, ?_, h₃.next, by rw [hnext₁], hmem, hholdsk⟩
  simp only [x, h₁, h₂, Heap.next_alloc, Context.addr] at hfind hadd hset
  simp [createSnapshot, hfind, hadd, hset, h₁]

/-- `f'` is `f` with the snapshot `x` as the last child of `c`. -/
structure Added (r : Nat) (v : Snapshot) (f f' : Forest Snapshot) (c x : Nat) (w : Snapshot) :
    Prop where
  place : ∃ (C : Context Snapshot) (u : Snapshot) (d : Forest Snapshot), C.addr = c ∧
    node r v f nil = C.plug u d ∧ C.plug u (d.append (single x w)) = node r v f' nil

theorem Added.nodes {f f' : Forest Snapshot} {r c x : Nat} {v w : Snapshot}
    (added : Added r v f f' c x w) : f'.nodes.Perm ((x, w) :: f.nodes) := by
  obtain ⟨C, u, d, _, hplug, hf'⟩ := added.place
  have hchange : ((d.append (single x w)).nodes ++ []).Perm (d.nodes ++ [(x, w)]) := by
    simp [single]
  simpa using (Context.nodes_edit hplug hf' hchange).trans (List.perm_append_singleton _ _)

theorem createSnapshot_marked {f : Forest Snapshot} {r c : Nat} {v : Snapshot}
    (marked : MarkedAt s r v f c []) :
    ∃ s' f', createSnapshot s state = some (.rcSuccess, s') ∧
      MarkedAt s' r v f' s.heap.next [] ∧ Added r v f f' c s.heap.next (created state) := by
  obtain ⟨l, hroot, hc, holds⟩ := marked
  let x := s.heap.next
  let h₁ := s.heap.alloc (newNode (copyProperties state))
  have hx₁ : h₁.read x = some (newNode (copyProperties state)) :=
    Heap.read_alloc_next _ _
  have hholds₁ : Holds h₁ (marksAt c l) (node r v f nil) [x] := holds.alloc _
  have hxc : x ≠ c := by
    have hlt := holds.lt_next hc
    omega
  have hfind : findCurrentNode h₁ s.root = some (some c) := by
    have hsearch := findNode_spec (fun v => v.current) hholds₁.stored holds.nodup
    have hfirst : firstNode (fun v => v.current) (mark (marksAt c l) (node r v f nil)) = some c :=
      firstNode_current hc
    simp only [mark_node, mark_nil] at hfirst
    rw [hfirst] at hsearch
    simpa [findCurrentNode, hroot] using hsearch
  obtain ⟨C, w, d, rfl, hplug⟩ := exists_plug hc
  obtain ⟨f', hf'⟩ := Context.plug_tree hplug (d.append (single x (created state)))
  have hadded : Added r v f f' C.addr x (created state) := ⟨⟨C, w, d, rfl, hplug, hf'⟩⟩
  have hmem : x ∈ (node r v f' nil).addrs := by
    have hx := (hadded.nodes.map Prod.fst).mem_iff.mpr List.mem_cons_self
    simp only [addrs_node, List.mem_cons, List.mem_append]
    exact .inr (.inl hx)
  rw [hplug] at hholds₁
  obtain ⟨h₂, hadd, hholds₂, hnext₂⟩ :=
    hholds₁.addChild (w := created state) (by simp) hx₁ (marksAt_ne hxc l)
  rw [hf'] at hholds₂
  obtain ⟨k, hset, hholdsk, _⟩ := hholds₂.setCurrent (by simp) hmem
  refine ⟨⟨k, some r⟩, f', ?_, ⟨h₂.next, rfl, hmem, hholdsk⟩, hadded⟩
  simp only [x, h₁, hroot] at hfind hadd hset
  simp [createSnapshot, hfind, hadd, hset, hroot]

theorem createSnapshot_spec {f : Forest Snapshot} (refines : Refines s f []) :
    ∃ s' f', createSnapshot s state = some (.rcSuccess, s') ∧ Refines s' f' [] ∧
      f'.nodes.Perm ((s.heap.next, created state) :: f.nodes) := by
  rcases refines with ⟨hroot, rfl, honly⟩ | ⟨r, v, c, l, hroot, hguid, hc, holds⟩
  · obtain ⟨s', hrun, hmarked⟩ :=
      createSnapshot_newTree (s := s) state [] (by rw [hroot]; rfl) honly (by simp)
    exact ⟨s', _, hrun, Settled.refines (.inr hmarked) rfl, List.Perm.refl _⟩
  · obtain ⟨s', f', hrun, hmarked, hadded⟩ :=
      createSnapshot_marked (s := s) state ⟨l, hroot, hc, holds⟩
    exact ⟨s', f', hrun, Settled.refines (.inr hmarked) hguid, hadded.nodes⟩

end Create

end DispService.StatesStore
