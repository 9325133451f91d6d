import DispService.SnapshotStore.Viewed

/-! The view of the snapshots of libvirt: every snapshot has one node, below the node of its parent
and among its siblings in the order of the list. -/
namespace DispService.SnapshotStore

open DispService.Lib DispService.StatesStore Forest

/-- The tree below the head `r` shows the snapshots `units`, each at its `place`. -/
structure Shows (metadata : Metadata) (units : List SnapshotUnit) (s : SavedStateStore) (r : Nat)
    (place : String → Nat) : Prop where
  root : s.root = some r
  once : ∀ u ∈ units, ∀ u' ∈ units, place u.uuid = place u'.uuid → u = u'
  snapshots : ∀ a, IsSnapshot s a ↔ ∃ u ∈ units, place u.uuid = a
  data : ∀ u ∈ units, dataOf s.heap (place u.uuid) = u.state.map (described metadata)
  parents : ∀ u ∈ units, parentOf s.heap (place u.uuid) = some (u.parent.elim r place)
  heads : snapshotChilds s.heap r =
    (childItems SnapshotUnit.parent units none).map fun u => place u.uuid
  childs : ∀ u ∈ units, snapshotChilds s.heap (place u.uuid) =
    (childItems SnapshotUnit.parent units (some u.uuid)).map fun u => place u.uuid
  current : ∀ a, IsCurrentNode s a ↔ ∃ u ∈ units, u.current = true ∧ place u.uuid = a

/-! ## The input -/

theorem setModel_apply (value : List SnapshotUnit) (key : String) :
    setModel value key = value.filter fun u => u.parent.getD "" = key := by
  have hfold : ∀ (us : List SnapshotUnit) (input : TreeType),
      us.foldl (fun input u =>
        let i := u.parent.getD ""
        Function.update input i (input i ++ [u])) input key =
      input key ++ us.filter fun u => u.parent.getD "" = key := by
    intro us
    induction us with
    | nil => simp
    | cons u us ih =>
        intro input
        rw [List.foldl_cons, ih]
        by_cases hu : u.parent.getD "" = key
        · simp [hu]
        · simp [hu, Function.update_of_ne (Ne.symm hu)]
  exact (hfold value fun _ => []).trans (List.nil_append _)

section Input

variable {units : List SnapshotUnit}

theorem setModel_head (named : ∀ u ∈ units, u.parent ≠ some "") :
    setModel units "" = childItems SnapshotUnit.parent units none := by
  rw [setModel_apply, childItems]
  refine List.filter_congr fun u hu => ?_
  have hne := named u hu
  cases hparent : u.parent with
  | none => simp
  | some p =>
      rw [hparent] at hne
      simpa using hne

theorem setModel_child {key : String} (hkey : key ≠ "") :
    setModel units key = childItems SnapshotUnit.parent units (some key) := by
  rw [setModel_apply, childItems]
  refine List.filter_congr fun u _ => ?_
  cases u.parent with
  | none => simpa using Ne.symm hkey
  | some p => simp

end Input

/-! ## What the loop leaves -/

section Grown

variable {metadata : Metadata} {units us : List SnapshotUnit} {m : Marks}
  {t : Shape SnapshotUnit} {g : Forest Snapshot}

theorem Grown.guids (grown : Grown metadata m t g) (readable : Readable t.values) :
    g.nodes.map (fun x => x.2.guid) = t.values.map SnapshotUnit.uuid := by
  induction t generalizing g with
  | nil =>
      cases g with
      | nil => rfl
      | node a w gc gs => exact grown.elim
  | node u c s ihc ihs =>
      cases g with
      | nil => exact grown.elim
      | node a w gc gs =>
          obtain ⟨hw, _, hc, hs⟩ := grown
          obtain ⟨d, hstate, hguid⟩ := readable u (by simp)
          rw [hstate, Option.map_some, Option.some.injEq] at hw
          rw [nodes_node, List.map_cons, List.map_append, Shape.values_node, List.map_cons,
            List.map_append, ihc hc fun v hv => readable v (by simp [hv]),
            ihs hs fun v hv => readable v (by simp [hv]), ← hw, described_guid, hguid]

/-- The address of the snapshot with a guid. -/
def placeIn (g : Forest Snapshot) (key : String) : Nat :=
  ((g.nodes.find? fun x => x.2.guid = key).map Prod.fst).getD 0

theorem placeIn_of_mem (keys : (g.nodes.map fun x => x.2.guid).Nodup) {x : Nat × Snapshot}
    (hx : x ∈ g.nodes) : placeIn g x.2.guid = x.1 := by
  unfold placeIn
  cases hfind : g.nodes.find? fun y => y.2.guid = x.2.guid with
  | none => exact absurd (List.find?_eq_none.mp hfind x hx) (by simp)
  | some y =>
      have hguid : y.2.guid = x.2.guid := by simpa using List.find?_some hfind
      have heq : y = x := List.inj_on_of_nodup_map keys (List.mem_of_find?_eq_some hfind) hx hguid
      simp [heq]

/-- Every snapshot of the forest has its node, with its own children below it. -/
theorem Grown.shown (grown : Grown metadata m t g)
    (arranged : Arranged SnapshotUnit.uuid SnapshotUnit.parent units t us)
    (readable : Readable t.values) {place : String → Nat}
    (hplace : ∀ x ∈ g.nodes, place x.2.guid = x.1) :
    g.roots = us.map (fun u => place u.uuid) ∧
    g.addrs = t.values.map (fun u => place u.uuid) ∧
    ∀ u ∈ t.values, (place u.uuid, (childItems SnapshotUnit.parent units (some u.uuid)).map
        fun u => place u.uuid) ∈ g.links ∧
      (m (place u.uuid)).isSome = u.current ∧
      ∃ w, u.state.map (described metadata) = some w ∧ (place u.uuid, w) ∈ g.nodes := by
  induction t generalizing us g with
  | nil =>
      cases g with
      | nil =>
          have hus : us = [] := arranged
          simp [hus]
      | node a w gc gs => exact grown.elim
  | node u c s ihc ihs =>
      cases g with
      | nil => exact grown.elim
      | node a w gc gs =>
          obtain ⟨rest, rfl, hc, hs⟩ := arranged
          obtain ⟨hw, hm, hgc, hgs⟩ := grown
          obtain ⟨d, hstate, hguid⟩ := readable u (by simp)
          have hwguid : w.guid = u.uuid := by
            rw [hstate, Option.map_some, Option.some.injEq] at hw
            rw [← hw, described_guid, hguid]
          have ha : place u.uuid = a := by
            rw [← hwguid]
            exact hplace (a, w) (by simp)
          obtain ⟨hrootsc, haddrsc, hshownc⟩ := ihc hgc hc (fun v hv => readable v (by simp [hv]))
            fun x hx => hplace x (by simp [hx])
          obtain ⟨hrootss, haddrss, hshowns⟩ := ihs hgs hs (fun v hv => readable v (by simp [hv]))
            fun x hx => hplace x (by simp [hx])
          refine ⟨by simp [ha, hrootss], by simp [ha, haddrsc, haddrss], fun v hv => ?_⟩
          rw [Shape.values_node, List.mem_cons, List.mem_append] at hv
          rcases hv with rfl | hv | hv
          · exact ⟨by simp [ha, hrootsc], by rw [ha, hm], w, hw, by simp [ha]⟩
          · obtain ⟨hlink, hmark, x, hx, hnode⟩ := hshownc v hv
            exact ⟨by simp [hlink], hmark, x, hx, by simp [hnode]⟩
          · obtain ⟨hlink, hmark, x, hx, hnode⟩ := hshowns v hv
            exact ⟨by simp [hlink], hmark, x, hx, by simp [hnode]⟩

end Grown

/-! ## The node that stands in -/

section Start

/-- Taking the mark from the only current node of a tree. -/
theorem unmark_spec {s : SavedStateStore} {r c : Nat} {v w : Snapshot}
    (marked : MarkedAt s r v (single c w) c []) :
    ∃ h, setCurrent s.heap c false = some h ∧ Holds h nowhere (node r v (single c w) nil) [] := by
  obtain ⟨l, _, hc, holds⟩ := marked
  have hnodup := holds.nodup
  obtain ⟨hreadr, hstored, _⟩ := holds.stored
  have hcr : c ≠ r := by
    have hne := (List.nodup_cons.mp holds.addrs_nodup).1
    simpa [single, eq_comm] using hne
  rw [marksAt_ne (Ne.symm hcr)] at hreadr hstored
  simp only [Option.isSome_none, leafOf_none, append_nil, single, mark_node, mark_nil,
    nil_append, marksAt_self, Option.isSome_some, roots_node, roots_nil] at hreadr hstored
  have hleaf : c ≠ l := by
    rintro rfl
    simp [single, marksAt_ne (Ne.symm hcr)] at hnodup
  have hrl : l ≠ r := by
    rintro rfl
    simp [single, marksAt_ne (Ne.symm hcr), hcr] at hnodup
  obtain ⟨hread, hchild, _⟩ := hstored
  obtain ⟨h, hset, hreadc, hfreed, hsame, _⟩ :=
    unsetCurrent_spec (m := marksAt c l) (a := c) (v := w) (c := nil) (by simpa using hread)
      (by simpa using hchild) (by simpa using hleaf)
  have hsamer : h.read r = s.heap.read r := hsame r (Ne.symm hcr) (by simpa using hrl)
  refine ⟨h, (setCurrent_false hread).trans hset, ⟨?_, ?_, by simp, ?_⟩⟩
  · exact ⟨by simpa [single, hsamer] using hreadr, ⟨by simpa using hreadc, trivial, trivial⟩, trivial⟩
  · simpa [single] using Ne.symm hcr
  · intro b n hb
    by_cases hbc : b = c
    · exact .inl (by simp [single, hbc])
    · by_cases hbl : b = l
      · subst hbl
        rw [hfreed b (marksAt_self c b)] at hb
        cases hb
      · rw [hsame b hbc (by simpa using Ne.symm hbl)] at hb
        have hmem := (holds.only b n hb).resolve_right (by simp)
        simpa [single, marksAt_ne (Ne.symm hcr), hbl] using hmem

theorem view_start (f : String) :
    ∃ s h, createSnapshot .empty { guid := f } = some (.rcSuccess, s) ∧ s.root = some 1 ∧
      findCurrentNode s.heap (some 1) = some (some 0) ∧ setCurrent s.heap 0 false = some h ∧
      Holds h nowhere (node 1 {} (node 0 { guid := f } nil nil) nil) [] := by
  obtain ⟨s, hcreate, marked⟩ :=
    createSnapshot_newTree (s := .empty) { guid := f } [] rfl
      (fun b n hb => by cases hb) (by simp)
  obtain ⟨h, hset, holds⟩ := unmark_spec marked
  obtain ⟨l, hroot, hc, hmarked⟩ := marked
  have hfind := findNode_spec (fun v => v.current) hmarked.stored hmarked.nodup
  have hfirst := firstNode_current (l := l) hc
  exact ⟨s, h, hcreate, hroot, hfind.trans (congrArg some hfirst), hset, holds⟩

end Start

/-! ## The view -/

section View

variable {metadata : Metadata} {units : List SnapshotUnit}

/-- The tree at the end: the head with the forest `g`, which shows the units in their places. -/
structure Result (metadata : Metadata) (units : List SnapshotUnit) (s : SavedStateStore) (m : Marks)
    (t : Shape SnapshotUnit) (g : Forest Snapshot) : Prop where
  root : s.root = some 1
  holds : Holds s.heap m (node 1 {} g nil) []
  head : m 1 = none
  arranged : Arranged SnapshotUnit.uuid SnapshotUnit.parent units t
    (childItems SnapshotUnit.parent units none)
  grown : Grown metadata m t g

/-- The first node with the random guid is the one that stands in. -/
theorem nodeOfGuid_first {s : SavedStateStore} {m : Marks} {g : Forest Snapshot} {f : String}
    (holds : Holds s.heap m (node 1 {} (node 0 { guid := f } nil g) nil) [])
    (hroot : s.root = some 1) (hf : f ≠ "") : nodeOfGuid s f = some (some 0) := by
  have hgetRoot : getRoot s.heap 1 = some 1 :=
    getRoot_spec holds.stored holds.nodup (by simp)
  have hfind := findNode_spec (fun v => v.guid == f) holds.stored holds.nodup
  have hfirst : firstNode (fun v => v.guid == f)
      (mark m (node 1 {} (node 0 { guid := f } nil g) nil)) = some 0 := by
    simp [firstNode, Snapshot.state, Ne.symm hf]
  simp only [nodeOfGuid, findByUuid, recursiveFindByUuid, hroot, hgetRoot, Option.bind_eq_bind,
    Option.bind_some]
  exact hfind.trans (congrArg some hfirst)

theorem view_result {f : String} (forested : Forested SnapshotUnit.uuid SnapshotUnit.parent units)
    (named : ∀ u ∈ units, u.uuid ≠ "") (readable : Readable units) (hf : f ≠ "")
    (hunits : units ≠ []) :
    ∃ s m t g, (∀ fuel, 2 * units.length < fuel → view metadata f units fuel = some s) ∧
      Result metadata units s m t g := by
  obtain ⟨t, arranged⟩ := Arranged.exists_of_forested forested
  have hperm := arranged.perm forested
  have hparents : ∀ u ∈ units, u.parent ≠ some "" := by
    intro u hu hparent
    obtain ⟨b, hb, hkey⟩ := forested.parents u hu "" hparent
    exact named b hb hkey
  have hkeys : (t.values.map SnapshotUnit.uuid).Nodup :=
    (hperm.map SnapshotUnit.uuid).nodup_iff.mpr forested.keys
  have hempty : "" ∉ t.values.map SnapshotUnit.uuid := by
    intro hin
    obtain ⟨u, hu, huuid⟩ := List.mem_map.mp hin
    exact named u (hperm.mem_iff.mp hu) huuid
  obtain ⟨s, h, hcreate, hroot, hcurrent, hunset, holds⟩ := view_start f
  obtain ⟨k, m, g, input', hrun, built, hdone, _⟩ := @build_spec metadata _ _ _ arranged
    (fun u hu => readable u (hperm.mem_iff.mp hu)) hkeys _ _ _ _ _ (setModel units) holds.stored holds.nodup
    (fun _ _ => rfl) (setModel_head hparents) hempty
    (fun u hu => setModel_child (named u (hperm.mem_iff.mp hu)))
  have hread := built.stored.1
  -- every cell of the heap is a node of the tree
  have hlt : ∀ b ∈ (mark nowhere (node 1 {} (node 0 { guid := f } nil nil) nil)).addrs,
      b < h.next := fun b hb => holds.stored.lt_next hb
  have hholds : Holds k m (node 1 {} (node 0 { guid := f } nil g) nil) [] := by
    refine ⟨built.stored, built.nodup, by simp, fun b n hb => .inl ?_⟩
    have hbk := Heap.lt_next_of_read hb
    have hsplit : ∀ {b}, b ∈ (mark m (node 1 {} (node 0 { guid := f } nil g) nil)).addrs ↔
        b ∈ (mark nowhere (node 1 {} (node 0 { guid := f } nil nil) nil)).addrs ∨
          b ∈ (mark m g).addrs := by
      intro b
      have h0 : m 0 = none := built.marks 0 (hlt 0 (by simp))
      have h1 : m 1 = none := built.marks 1 (hlt 1 (by simp))
      simp [h0, h1, or_assoc]
    rw [hsplit]
    by_cases hle : h.next ≤ b
    · exact .inr (built.only b hle hbk)
    · by_cases hin : b ∈ (mark nowhere (node 1 {} (node 0 { guid := f } nil nil) nil)).addrs
      · exact .inl hin
      · rw [built.same b (by omega) hin] at hb
        exact .inl ((holds.only b n hb).resolve_right (by simp))
  have hm0 : m 0 = none := built.marks 0 (hlt 0 (by simp))
  have hm1 : m 1 = none := built.marks 1 (hlt 1 (by simp))
  obtain ⟨s', hdelete, hroot', hholds'⟩ :=
    deleteNode_first (s := ⟨k, some 1⟩) hholds rfl hm0 hm1
  refine ⟨s', m, t, g, fun fuel hfuel => ?_, hroot', hholds', hm1, arranged, built.grown⟩
  obtain ⟨n, rfl⟩ : ∃ n, fuel = 2 * t.values.length + (n + 1) := by
    refine ⟨fuel - 2 * t.values.length - 1, ?_⟩
    have hlength := hperm.length_eq
    omega
  have hbuild : build metadata (2 * t.values.length + (n + 1)) (setModel units) [1] h = some k := by
    rw [hrun (n + 1) []]
    simp only [build, hread, Option.bind_eq_bind, Option.bind_some]
    rw [show input' (Snapshot.state {} (m 1).isSome).guid = [] from hdone]
  have hnode := nodeOfGuid_first (s := ⟨k, some 1⟩) hholds rfl hf
  simp only [view, if_neg hunits, hcreate, hroot, hcurrent, hunset, hbuild, deleteNodeByGuid, hnode,
    hdelete, Option.bind_eq_bind, Option.bind_some, Option.pure_def]

theorem Result.shows {s : SavedStateStore} {m : Marks} {t : Shape SnapshotUnit}
    {g : Forest Snapshot} (result : Result metadata units s m t g)
    (forested : Forested SnapshotUnit.uuid SnapshotUnit.parent units) (readable : Readable units) :
    Shows metadata units s 1 (placeIn g) := by
  obtain ⟨hroot, holds, hhead, arranged, grown⟩ := result
  have hperm := arranged.perm forested
  have hreadable : Readable t.values := fun u hu => readable u (hperm.mem_iff.mp hu)
  have hkeys : (g.nodes.map fun x => x.2.guid).Nodup := by
    rw [grown.guids hreadable]
    exact (hperm.map SnapshotUnit.uuid).nodup_iff.mpr forested.keys
  obtain ⟨hroots, haddrs, hshown⟩ :=
    grown.shown arranged hreadable fun x hx => placeIn_of_mem hkeys hx
  have hunit : ∀ u ∈ units, u ∈ t.values := fun u hu => hperm.mem_iff.mpr hu
  have hlinks : ∀ x ∈ g.links, x ∈ (node 1 ({} : Snapshot) g nil).links := by
    intro x hx
    simp [hx]
  have hmem : ∀ a, a ∈ g.addrs ↔ ∃ u ∈ units, placeIn g u.uuid = a := by
    intro a
    rw [haddrs, List.mem_map]
    simp only [hperm.mem_iff]
  constructor
  case root => exact hroot
  case once =>
    intro u hu u' hu' heq
    have hnodup : (t.values.map fun u => placeIn g u.uuid).Nodup :=
      haddrs ▸ holds.snapshots_nodup.2
    exact List.inj_on_of_nodup_map hnodup (hunit u hu) (hunit u' hu') heq
  case snapshots =>
    intro a
    rw [holds.isSnapshot_iff hroot, hmem]
  case data =>
    intro u hu
    obtain ⟨_, _, w, hw, hnode⟩ := hshown u (hunit u hu)
    rw [hw]
    exact holds.dataOf (x := (placeIn g u.uuid, w)) (by simp [hnode])
  case parents =>
    intro u hu
    cases hparent : u.parent with
    | none =>
        refine holds.parentOf (x := (1, g.roots)) (by simp) ?_
        rw [hroots]
        exact List.mem_map.mpr ⟨u, Arranged.mem_childItems.mpr ⟨hu, hparent⟩, rfl⟩
    | some p =>
        obtain ⟨b, hb, rfl⟩ := forested.parents u hu p hparent
        refine holds.parentOf (hlinks _ (hshown b (hunit b hb)).1) ?_
        exact List.mem_map.mpr ⟨u, Arranged.mem_childItems.mpr ⟨hu, hparent⟩, rfl⟩
  case heads =>
    rw [← hroots]
    exact holds.childs (x := (1, g.roots)) (by simp)
  case childs => exact fun u hu => holds.childs (hlinks _ (hshown u (hunit u hu)).1)
  case current =>
    intro a
    rw [holds.isCurrentNode_iff hroot]
    constructor
    · rintro ⟨ha, hmark⟩
      have hne : a ≠ 1 := by
        rintro rfl
        rw [hhead] at hmark
        cases hmark
      obtain ⟨u, hu, rfl⟩ := (hmem a).mp (by simpa [hne] using ha)
      exact ⟨u, hu, (hshown u (hunit u hu)).2.1 ▸ hmark, rfl⟩
    · rintro ⟨u, hu, hcurrent, rfl⟩
      have hin : placeIn g u.uuid ∈ g.addrs := (hmem _).mpr ⟨u, hu, rfl⟩
      exact ⟨by simp [hin], (hshown u (hunit u hu)).2.1.trans hcurrent⟩

/-- From every list of snapshots whose parents make up a forest, in any order, the view builds
the tree that shows each of them once, in its place. -/
theorem view_shows {f : String} (forested : Forested SnapshotUnit.uuid SnapshotUnit.parent units)
    (named : ∀ u ∈ units, u.uuid ≠ "") (readable : Readable units) (hf : f ≠ "") :
    ∃ s, (∀ fuel, 2 * units.length < fuel → view metadata f units fuel = some s) ∧
      (units = [] → s.root = none) ∧
      (units ≠ [] → ∃ r place, Shows metadata units s r place) := by
  by_cases hunits : units = []
  · refine ⟨.empty, fun fuel _ => by simp [view, hunits], fun _ => rfl, fun hne => ?_⟩
    exact absurd hunits hne
  · obtain ⟨s, m, t, g, hview, result⟩ := view_result forested named readable hf hunits
    refine ⟨s, hview, fun heq => absurd heq hunits, fun _ => ⟨1, placeIn g, ?_⟩⟩
    exact result.shows forested readable

/-- A snapshot that comes before its parent, in libvirt's words. -/
def childFirst : List SnapshotUnit :=
  let parent := "\x7b5f3c8a10-7f0e-4b2a-9a51-3f6f0f2f7b01\x7d"
  let child := "\x7b9d2e1c44-0a6b-4c1d-8e33-1b5f5b8d2c02\x7d"
  [⟨child, some parent, some { guid := child }, true⟩,
    ⟨parent, none, some { guid := parent }, false⟩]

theorem view_shows_childFirst :
    ∃ s, (∀ fuel, 2 * childFirst.length < fuel →
        view (fun _ => none) "\x7bc0ffee00-1111-4222-8333-444455556666\x7d" childFirst fuel = some s) ∧
      (childFirst = [] → s.root = none) ∧
      (childFirst ≠ [] → ∃ r place, Shows (fun _ => none) childFirst s r place) := by
  refine view_shows (Forested.of_rank
    (fun k => if k = "\x7b9d2e1c44-0a6b-4c1d-8e33-1b5f5b8d2c02\x7d" then 1 else 0) ?_ ?_ ?_) ?_ ?_ ?_
  · decide
  · decide
  · decide
  · decide
  · intro u hu
    simp only [childFirst, List.mem_cons, List.not_mem_nil, or_false] at hu
    rcases hu with rfl | rfl
    · exact ⟨_, rfl, rfl⟩
    · exact ⟨_, rfl, rfl⟩
  · decide

end View

end DispService.SnapshotStore
