import DispService.StatesStore.Operations

/-! `CreateSnapshot` on a loaded tree. It extends the tree at the current node; without one it
starts a new tree and lets go of the old. -/
namespace DispService.StatesStore

open DispService.Lib Forest

variable {s t : SavedStateStore} {r c x : Nat} {v w : Snapshot} {f f' : Forest Snapshot}

/-- `t` is `s` with the snapshot `new`: all others are still in the tree, as they were, and `new` is
a child of the node that was current. -/
structure Extends (s t : SavedStateStore) (new : Nat) : Prop where
  kept : ∀ a, IsSnapshot s a → IsSnapshot t a
  data : ∀ a, IsSnapshot s a → dataOf t.heap a = dataOf s.heap a
  child : ∀ c, IsCurrentNode s c → IsSnapshot t new ∧ new ∈ snapshotChilds t.heap c

theorem Added.link (added : Added r v f f' c x w) :
    ∃ cs, (c, cs) ∈ (node r v f' nil).links ∧ x ∈ cs := by
  obtain ⟨C, u, d, rfl, _, hf'⟩ := added.place
  obtain ⟨xs, ys, hlinks⟩ := C.links_plug
  refine ⟨(d.append (single x w)).roots, ?_, by simp [single]⟩
  rw [← hf', hlinks]
  simp

theorem MarkedAt.dataOf {detached : List Nat} (marked : MarkedAt s r v f c detached)
    {y : Nat × Snapshot} (hy : y ∈ f.nodes) : dataOf s.heap y.1 = some y.2 := by
  obtain ⟨l, _, _, holds⟩ := marked
  exact holds.dataOf (by simp [hy])

/-- With a current node the tree is extended there. -/
theorem Added.extends (marked : MarkedAt s r v f c []) (marked' : MarkedAt t r v f' x [])
    (added : Added r v f f' c x w) : Extends s t x := by
  have hnodes := added.nodes
  have hmem : ∀ a, a ∈ f'.addrs ↔ a = x ∨ a ∈ f.addrs := by
    intro a
    have haddrs := (hnodes.map Prod.fst).mem_iff (a := a)
    simpa [Forest.addrs] using haddrs
  constructor
  case kept =>
    intro a ha
    rw [marked.isSnapshot_iff] at ha
    rw [marked'.isSnapshot_iff, hmem]
    exact .inr ha
  case data =>
    intro a ha
    obtain ⟨y, hy⟩ := mem_addrs_iff.mp ((marked.isSnapshot_iff a).mp ha)
    have hold : dataOf s.heap a = some y := marked.dataOf hy
    have hnew : dataOf t.heap a = some y :=
      marked'.dataOf (hnodes.mem_iff.mpr (List.mem_cons_of_mem _ hy))
    rw [hold, hnew]
  case child =>
    intro a ha
    rw [marked.isCurrentNode_iff] at ha
    subst ha
    refine ⟨(marked'.isSnapshot_iff x).mpr ((hmem x).mpr (.inl rfl)), ?_⟩
    exact (marked'.child_iff a x).mpr added.link

/-- The current node of a loaded tree is the one that is marked, if any. -/
theorem createSnapshot_extends_iff {operations : List Operation} {s₀ : SavedStateStore}
    (run : Run (Guarded Marking Operates) .empty operations s₀) {document : Dom}
    (loaded : load s₀ document = some (.rcSuccess, s)) (state : SavedState) :
    ∃ t, createSnapshot s state = some (.rcSuccess, t) ∧
      (Extends s t s.heap.next ↔ documentMarks document = true ∨ documentItems document = false) := by
  obtain ⟨code₁, s₁, hclear, hroot₁, hempty₁⟩ := clear_intact (intact_of_run run)
  obtain ⟨code, u, hload, hloaded⟩ := load_any hclear hroot₁ hempty₁ document
  rw [loaded] at hload
  cases hload
  cases hloaded with
  | empty _ _ refused => exact absurd rfl refused
  | tree r v f m hroot holds _ accepted =>
      obtain ⟨hmarks, hnil⟩ := accepted rfl
      unfold ReadMarks at hmarks
      by_cases hdocument : documentMarks document = true
      · rw [if_pos hdocument] at hmarks
        obtain ⟨c, l, rfl, hc⟩ := hmarks
        have hmarked : MarkedAt s r v f c [] := ⟨l, hroot, hc, holds⟩
        obtain ⟨t, f', hrun, hmarked', hadded⟩ := createSnapshot_marked (s := s) state hmarked
        exact ⟨t, hrun, iff_of_true (hadded.extends hmarked hmarked') (.inl hdocument)⟩
      · rw [if_neg hdocument] at hmarks
        subst hmarks
        have hfind : findCurrentNode (s.heap.alloc (newNode (copyProperties state))) s.root =
            some none := by
          have hsearch := findNode_spec (fun v => v.current)
            (holds.alloc (newNode (copyProperties state))).stored holds.nodup
          have hnone := firstNode_nowhere (node r v f nil)
          simp only [mark_node, mark_nil] at hnone
          rw [hnone] at hsearch
          simpa [findCurrentNode, hroot] using hsearch
        obtain ⟨t, hrun, hmarked'⟩ := createSnapshot_newTree (s := s) state
          (mark nowhere (node r v f nil)).addrs hfind
          (fun b n hb => (holds.only b n hb).resolve_right (by simp))
          (fun b hb => holds.stored.lt_next hb)
        have hold : ∀ a, IsSnapshot s a ↔ a ∈ f.addrs := holds.isSnapshot_iff hroot
        refine ⟨t, hrun, ?_⟩
        constructor
        · intro hextends
          refine .inr (hnil.mp (roots_eq_nil.mp (List.eq_nil_iff_forall_not_mem.mpr fun a ha => ?_)))
          have hin := addrs_of_root ha
          have hkept := hextends.kept a ((hold a).mpr hin)
          rw [hmarked'.isSnapshot_iff] at hkept
          have hlt : a < s.heap.next := holds.lt_next (by simp [hin])
          simp only [single, addrs_node, addrs_nil, List.append_nil, List.mem_singleton] at hkept
          omega
        · intro hempty
          have hf : f = nil := hnil.mpr (hempty.resolve_left hdocument)
          subst hf
          refine ⟨fun a ha => ?_, fun a ha => ?_, fun c hc => ?_⟩
          · exact absurd ((hold a).mp ha) (by simp)
          · exact absurd ((hold a).mp ha) (by simp)
          · exact absurd hc (holds.no_current hroot rfl c)

/-- A file whose head is current and that holds one snapshot. -/
def markedDocument : Dom :=
  .element "SavedStateItem" [("current", "yes")] ((propertyElements {} false).append
    (.element "SavedStateItem" [("guid", "a")] (propertyElements {} false) .nil)) .nil

theorem createSnapshot_extends_marked :
    ∃ s t, load .empty markedDocument = some (.rcSuccess, s) ∧
      createSnapshot s { guid := "b" } = some (.rcSuccess, t) ∧ Extends s t s.heap.next := by
  have loaded : load .empty markedDocument = some (.rcSuccess,
      ⟨⟨[some ⟨{ current := true }, none, [2, 1]⟩, some ⟨youAreHere, some 0, []⟩,
        some ⟨{ guid := "a" }, some 0, []⟩]⟩, some 0⟩) := by decide
  obtain ⟨t, hrun, hiff⟩ := createSnapshot_extends_iff (.nil SavedStateStore.empty) loaded { guid := "b" }
  exact ⟨_, t, loaded, hrun, hiff.mpr (.inl (by decide))⟩

theorem below_mem {h : TreeHeap} {inside : List Nat}
    (closed : ∀ a ∈ inside, ∀ b, Child h a b → b ∈ inside) {a b : Nat} (ha : a ∈ inside)
    (hreach : Below h a b) : b ∈ inside := by
  induction hreach with
  | refl => exact ha
  | tail _ child ih => exact closed _ ih _ child

/-- Without a current node the loaded snapshot is lost. -/
theorem createSnapshot_loses_loaded :
    ∃ t, load .empty unmarkedDocument = some (.rcSuccess, unmarkedStore) ∧
      createSnapshot unmarkedStore { guid := "b" } = some (.rcSuccess, t) ∧
      IsSnapshot unmarkedStore 1 ∧ ¬ IsSnapshot t 1 := by
  refine ⟨⟨⟨[some ⟨{}, none, [1]⟩, some ⟨{ guid := "a" }, some 0, []⟩,
    some ⟨{ guid := "b", current := true }, some 3, [4]⟩, some ⟨{}, none, [2]⟩,
    some ⟨youAreHere, some 2, []⟩]⟩, some 3⟩, by decide, by decide, ?_, ?_⟩
  · exact ⟨0, _, rfl, .single ⟨_, rfl, by simp⟩, by decide, rfl, rfl⟩
  · rintro ⟨r, n, hr, hreach, _⟩
    cases hr
    have hinside : 1 ∈ [2, 3, 4] := by
      refine below_mem ?_ (by simp) hreach
      rintro a ha b ⟨m, hm, hmem⟩
      simp only [List.mem_cons, List.not_mem_nil, or_false] at ha
      rcases ha with rfl | rfl | rfl
      · cases hm
        simpa using .inr (.inr (by simpa using hmem))
      · cases hm
        simpa using .inl (by simpa using hmem)
      · cases hm
        simp at hmem
    simp at hinside

end DispService.StatesStore
