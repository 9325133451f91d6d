import DispService.Lib.Run
import DispService.StatesStore.Deletion
import Mathlib.Data.Set.Insert

/-! Runs of the store. A history variable keeps the snapshots that were created and
not deleted, as pairs of the node and its guid. -/
namespace DispService.StatesStore

open DispService.Lib

inductive Request where
  | createSnapshot (state : SavedState)
  | deleteNode (node : Option Nat)
  | deleteNodeByGuid (guid : String)
  | deleteBranch (node : Option Nat)
  | deleteBranchByGuid (guid : String)
  | setCurrent (node : Nat)

def perform (s : SavedStateStore) : Request → Option SavedStateStore
  | .createSnapshot state => (createSnapshot s state).map Prod.snd
  | .deleteNode node => (deleteNode s node).map Prod.snd
  | .deleteNodeByGuid guid => (deleteNodeByGuid s guid).map Prod.snd
  | .deleteBranch node => (deleteBranch s node).map Prod.snd
  | .deleteBranchByGuid guid => (deleteBranchByGuid s guid).map Prod.snd
  | .setCurrent node => (setCurrent s.heap node true).map fun h => ⟨h, s.root⟩

/-- A request that dereferences a dangling pointer has no next state. -/
def Performs (s : SavedStateStore) (request : Request) (t : SavedStateStore) : Prop :=
  perform s request = some t

/-- The created snapshots that are not deleted: the node of each, with its guid. -/
abbrev Created := Set (Nat × String)

/-- A deletion takes the named snapshot, or the whole branch below it. -/
def recordCreated (s : SavedStateStore) (request : Request) (g : Created) : Created :=
  match request with
  | .createSnapshot state => insert (s.heap.next, state.guid) g
  | .deleteNode node => {x ∈ g | node ≠ some x.1}
  | .deleteNodeByGuid guid => {x ∈ g | nodeOfGuid s guid ≠ some (some x.1)}
  | .deleteBranch node => {x ∈ g | ∀ a, node = some a → ¬ Below s.heap a x.1}
  | .deleteBranchByGuid guid =>
      {x ∈ g | ∀ a, nodeOfGuid s guid = some (some a) → ¬ Below s.heap a x.1}
  | .setCurrent _ => g

/-- `target` is not the 'You are here' node. -/
def Spares (s : SavedStateStore) (target : Option Nat) : Prop :=
  ∀ a n, target = some a → s.heap.read a = some n → n.val.currentState = false

def Live (s : SavedStateStore) (target : Option Nat) : Prop :=
  ∀ a, target = some a → ∃ n, s.heap.read a = some n

/-- A deletion is not aimed at the 'You are here' node itself. -/
def SparesCurrentState (s : SavedStateStore) : Request → Prop
  | .deleteNode target | .deleteBranch target => Spares s target
  | _ => True

def IsCurrent (s : SavedStateStore) (a : Nat) : Prop :=
  ∃ n, s.heap.read a = some n ∧ n.val.current = true

def IsCurrentState (s : SavedStateStore) (a : Nat) : Prop :=
  ∃ n, s.heap.read a = some n ∧ n.val.currentState = true

/-- The tree below the head `root`, by the links in the heap. -/
structure TreeConsistent (s : SavedStateStore) (root : Nat) (created : Created) : Prop where
  head : ∃ n, s.heap.read root = some n ∧ n.parent = none ∧ n.val.guid = ""
  single_head : ∀ a n, Below s.heap root a → s.heap.read a = some n → n.parent = none → a = root
  child_links : ∀ a b, Below s.heap root a → Child s.heap a b →
    ∃ n, s.heap.read b = some n ∧ n.parent = some a
  parent_links : ∀ a b n, Below s.heap root b → s.heap.read b = some n → n.parent = some a →
    Below s.heap root a ∧ Child s.heap a b
  childs_nodup : ∀ a n, Below s.heap root a → s.heap.read a = some n → n.childs.Nodup
  current : ∃! c, Below s.heap root c ∧ IsCurrent s c
  currentState : ∃! l, Below s.heap root l ∧ IsCurrentState s l
  leaf : ∀ c l, Below s.heap root c → IsCurrent s c → Below s.heap root l → IsCurrentState s l →
    ∃ n m, s.heap.read c = some n ∧ s.heap.read l = some m ∧
      n.childs.getLast? = some l ∧ m.childs = []
  snapshots : created = {x | Below s.heap root x.1 ∧ x.1 ≠ root ∧
    ∃ n, s.heap.read x.1 = some n ∧ n.val.currentState = false ∧ n.val.guid = x.2}

def Consistent (s : SavedStateStore) (created : Created) : Prop :=
  match s.root with
  | none => created = ∅
  | some root => TreeConsistent s root created

/-- The snapshots of the abstract tree. -/
def snapshotsOf (f : Forest Snapshot) : Created :=
  {x | ∃ v, (x.1, v) ∈ f.nodes ∧ v.guid = x.2}

section Tree

open Forest

variable {s : SavedStateStore} {f : Forest Snapshot} {r c l : Nat} {v : Snapshot}

theorem Holds.read_snapshot {h : TreeHeap} {m : Marks} {t : Forest Snapshot}
    {detached : List Nat} (holds : Holds h m t detached) {x : Nat × Snapshot} (hx : x ∈ t.nodes) :
    ∃ n, h.read x.1 = some n ∧ n.val = x.2.state (m x.1).isSome := by
  have hmem : (x.1, x.2.state (m x.1).isSome) ∈ (mark m t).nodes := by
    rw [(nodes_mark m t).mem_iff, List.mem_append]
    exact .inl (List.mem_map.mpr ⟨x, hx, rfl⟩)
  exact holds.stored.read_val hmem

theorem Holds.read_leaf {h : TreeHeap} {t : Forest Snapshot} {detached : List Nat}
    (holds : Holds h (marksAt c l) t detached) (hc : c ∈ t.addrs) :
    ∃ n m, h.read c = some n ∧ h.read l = some m ∧ m.val = youAreHere ∧
      n.childs.getLast? = some l ∧ m.childs = [] := by
  have hnodup := holds.addrs_nodup
  have hstored := holds.stored
  obtain ⟨C, w, d, rfl, rfl⟩ := exists_plug hc
  rw [mark_marksAt hnodup, Context.stored_plug, addr_markContext, stored_append] at hstored
  obtain ⟨hread, ⟨_, hleaf, _⟩, _⟩ := hstored
  exact ⟨_, _, hread, hleaf, rfl, by simp, rfl⟩

theorem mem_addrs_iff {t : Forest Snapshot} {a : Nat} :
    a ∈ t.addrs ↔ ∃ w, (a, w) ∈ t.nodes := by
  simp [Forest.addrs]

theorem treeConsistent (hguid : v.guid = "")
    (hc : c ∈ (node r v f nil).addrs)
    (holds : Holds s.heap (marksAt c l) (node r v f nil) []) :
    TreeConsistent s r (snapshotsOf f) := by
  have hstored := holds.stored
  have hnodup := holds.addrs_nodup
  have hlt := leaf_fresh hc holds.nodup
  have hbelow : ∀ a, Below s.heap r a ↔ a ∈ (node r v f nil).addrs ∨ a = l := by
    intro a
    have hiff := hstored.below_iff a
    rw [hiff, ← mem_addrs_marksAt hc, mark_node, addrs_node, List.mem_cons, mark_nil, addrs_nil,
      List.append_nil]
  have hin : ∀ a, Below s.heap r a → a ∈ (mark (marksAt c l) (node r v f nil)).addrs := by
    intro a ha
    rw [mem_addrs_marksAt hc]
    exact (hbelow a).mp ha
  obtain ⟨nc, nl, hreadc, hreadl, hvall, hlast, hchildless⟩ := holds.read_leaf hc
  have hbelow_in : ∀ a, a ∈ (mark (marksAt c l) (node r v f nil)).addrs → Below s.heap r a := by
    intro a ha
    rw [mem_addrs_marksAt hc] at ha
    exact (hbelow a).mpr ha
  have hcl : c ≠ l := ne_of_mem_of_not_mem hc hlt
  have hcurrent : ∀ a, Below s.heap r a → (IsCurrent s a ↔ a = c) := by
    intro a ha
    rcases (hbelow a).mp ha with htree | rfl
    · obtain ⟨w, hw⟩ := mem_addrs_iff.mp htree
      obtain ⟨n, hn, hval⟩ := holds.read_snapshot hw
      by_cases heq : a = c
      · simp_all [IsCurrent]
      · simp_all [IsCurrent, marksAt_ne heq]
    · simp [IsCurrent, hreadl, hvall, Ne.symm hcl]
  have hstate : ∀ a, Below s.heap r a → (IsCurrentState s a ↔ a = l) := by
    intro a ha
    rcases (hbelow a).mp ha with htree | rfl
    · obtain ⟨w, hw⟩ := mem_addrs_iff.mp htree
      obtain ⟨n, hn, hval⟩ := holds.read_snapshot hw
      have hne : a ≠ l := ne_of_mem_of_not_mem htree hlt
      simp_all [IsCurrentState]
    · simp [IsCurrentState, hreadl, hvall]
  have hcbelow : Below s.heap r c := (hbelow c).mpr (.inl hc)
  have hlbelow : Below s.heap r l := (hbelow l).mpr (.inr rfl)
  obtain ⟨hreadr, _, _⟩ := hstored
  constructor
  case head =>
    exact ⟨_, hreadr, rfl, hguid⟩
  case single_head =>
    intro a n ha hread hparent
    by_contra hne
    obtain ⟨m, q, hm, hq, _⟩ := holds.stored.child_of_parent (hin a ha) (by simp [hne])
    rw [hread] at hm
    cases hm
    rw [hparent] at hq
    cases hq
  case child_links =>
    intro a b ha child
    exact holds.stored.parent_of_child (hin a ha) child
  case parent_links =>
    intro a b n hb hread hparent
    have hne : b ≠ r := by
      intro heq
      rw [heq, hreadr] at hread
      cases hread
      cases hparent
    obtain ⟨m, q, hm, hq, hmem, child⟩ := holds.stored.child_of_parent (hin b hb) (by simp [hne])
    rw [hread] at hm
    cases hm
    rw [hparent] at hq
    cases hq
    exact ⟨hbelow_in a hmem, child⟩
  case childs_nodup =>
    intro a n ha hread
    exact holds.stored.childs_nodup holds.nodup (hin a ha) hread
  case current =>
    exact ⟨c, ⟨hcbelow, (hcurrent c hcbelow).mpr rfl⟩, fun a ha => (hcurrent a ha.1).mp ha.2⟩
  case currentState =>
    exact ⟨l, ⟨hlbelow, (hstate l hlbelow).mpr rfl⟩, fun a ha => (hstate a ha.1).mp ha.2⟩
  case leaf =>
    intro c' l' hc' hcur' hl' hst'
    rw [(hcurrent c' hc').mp hcur', (hstate l' hl').mp hst']
    exact ⟨nc, nl, hreadc, hreadl, hlast, hchildless⟩
  case snapshots =>
    ext ⟨a, g⟩
    simp only [snapshotsOf, Set.mem_ofPred_eq]
    constructor
    · rintro ⟨w, hw, rfl⟩
      obtain ⟨n, hn, hval⟩ := holds.read_snapshot (x := (a, w)) (by simp [hw])
      have ha : a ∈ f.addrs := mem_addrs_iff.mpr ⟨w, hw⟩
      have har : a ≠ r := by
        rw [addrs_node, addrs_nil, List.append_nil, List.nodup_cons] at hnodup
        exact ne_of_mem_of_not_mem ha hnodup.1
      exact ⟨(hbelow a).mpr (.inl (by simp [ha])), har, n, hn, by simp [hval], by simp [hval]⟩
    · rintro ⟨ha, har, n, hn, hcs, rfl⟩
      have htree : a ∈ (node r v f nil).addrs := by
        refine ((hbelow a).mp ha).resolve_right ?_
        intro heq
        have hleaf := (hstate a ha).mpr heq
        simp_all [IsCurrentState]
      obtain ⟨w, hw⟩ := mem_addrs_iff.mp htree
      obtain ⟨m, hm, hval⟩ := holds.read_snapshot hw
      rw [hn] at hm
      cases hm
      refine ⟨w, ?_, by simp [hval]⟩
      simpa [har] using hw

theorem Refines.consistent (refines : Refines s f []) : Consistent s (snapshotsOf f) := by
  rcases refines with ⟨hroot, rfl, _⟩ | ⟨r, v, c, l, hroot, hguid, hc, holds⟩
  · simp [Consistent, hroot, snapshotsOf]
  · simpa [Consistent, hroot] using treeConsistent hguid hc holds

/-- A live node that is not the leaf belongs to the tree. -/
theorem Refines.mem_of_read (refines : Refines s f []) {a : Nat} {n : Node SavedState}
    (hread : s.heap.read a = some n) (hstate : n.val.currentState = false) :
    ∃ r v c l, s.root = some r ∧ v.guid = "" ∧ c ∈ (node r v f nil).addrs ∧
      Holds s.heap (marksAt c l) (node r v f nil) [] ∧ a ∈ (node r v f nil).addrs := by
  rcases refines with ⟨_, _, honly⟩ | ⟨r, v, c, l, hroot, hguid, hc, holds⟩
  · cases honly a n hread
  · refine ⟨r, v, c, l, hroot, hguid, hc, holds, ?_⟩
    rcases holds.only a n hread with hmem | hnil
    · rw [mem_addrs_marksAt hc] at hmem
      refine hmem.resolve_right ?_
      intro heq
      obtain ⟨_, m, _, hm, hval, _⟩ := holds.read_leaf hc
      rw [← heq, hread] at hm
      cases hm
      simp [hval] at hstate
    · cases hnil

/-- In a tree the head is not a snapshot. -/
theorem Holds.snapshots_nodup {detached : List Nat} {m : Marks} {h : TreeHeap}
    (holds : Holds h m (node r v f nil) detached) : r ∉ f.addrs ∧ f.addrs.Nodup := by
  have hnodup := holds.addrs_nodup
  rw [addrs_node, addrs_nil, List.append_nil, List.nodup_cons] at hnodup
  exact hnodup

theorem snapshotsOf_sub {x : Nat × String} (hx : x ∈ snapshotsOf f) : x.1 ∈ f.addrs := by
  obtain ⟨w, hw, _⟩ := hx
  exact mem_addrs_iff.mpr ⟨w, hw⟩

theorem snapshotsOf_perm {f' : Forest Snapshot} {gone : List (Nat × Snapshot)}
    (hperm : f.nodes.Perm (gone ++ f'.nodes)) (nodup : f.addrs.Nodup) :
    snapshotsOf f' = {x ∈ snapshotsOf f | x.1 ∉ gone.map Prod.fst} := by
  have hnodup : (gone.map Prod.fst ++ f'.addrs).Nodup := by
    have hmap := hperm.map Prod.fst
    rw [List.map_append] at hmap
    exact hmap.nodup_iff.mp nodup
  rw [List.nodup_append] at hnodup
  ext x
  constructor
  · rintro ⟨w, hw, hguid⟩
    refine ⟨⟨w, hperm.mem_iff.mpr (List.mem_append_right _ hw), hguid⟩, ?_⟩
    intro hgone
    exact hnodup.2.2 x.1 hgone x.1 (mem_addrs_iff.mpr ⟨w, hw⟩) rfl
  · rintro ⟨⟨w, hw, hguid⟩, hkept⟩
    rw [hperm.mem_iff, List.mem_append] at hw
    refine ⟨w, hw.resolve_left ?_, hguid⟩
    intro hgone
    exact hkept (List.mem_map.mpr ⟨_, hgone, rfl⟩)

theorem deleteNode_refines (refines : Refines s f []) {target : Option Nat}
    (spares : Spares s target) (live : Live s target) :
    ∃ code t f', deleteNode s target = some (code, t) ∧ Refines t f' [] ∧
      snapshotsOf f' = {x ∈ snapshotsOf f | target ≠ some x.1} := by
  cases target with
  | none =>
      refine ⟨_, s, f, rfl, refines, ?_⟩
      ext x
      simp
  | some a =>
      obtain ⟨n, hread⟩ := live a rfl
      obtain ⟨r, v, c, l, hroot, hguid, hc, holds, ha⟩ :=
        refines.mem_of_read hread (spares a n rfl hread)
      obtain ⟨hfresh, hnodup⟩ := holds.snapshots_nodup
      rw [addrs_node, addrs_nil, List.append_nil, List.mem_cons] at ha
      rcases ha with rfl | ha
      · have hhead : deleteNode s (some a) = some (.cannotDeleteSnapshot, s) := by
          simp [deleteNode, holds.stored.1]
        refine ⟨_, s, f, hhead, refines, ?_⟩
        ext x
        refine ⟨fun hx => ⟨hx, ?_⟩, And.left⟩
        intro heq
        exact ne_of_mem_of_not_mem (snapshotsOf_sub hx) hfresh (Option.some.inj heq).symm
      · obtain ⟨s', f', w, p, cn, hrun, hreplaced, hsettled, _⟩ :=
          deleteNode_marked ⟨l, hroot, hc, holds⟩ ha
        refine ⟨_, s', f', hrun, hsettled.refines hguid, ?_⟩
        have hgone : f.nodes.Perm ([(a, w)] ++ f'.nodes) := by
          refine List.perm_iff_count.mpr fun x => ?_
          have hcount := hreplaced.nodes.count_eq x
          simp only [List.count_append, List.count_cons, List.count_nil] at hcount ⊢
          omega
        rw [snapshotsOf_perm hgone hnodup]
        ext x
        simp [eq_comm]

theorem deleteBranch_refines (refines : Refines s f []) {target : Option Nat}
    (spares : Spares s target) (live : Live s target) :
    ∃ code t f', deleteBranch s target = some (code, t) ∧ Refines t f' [] ∧
      snapshotsOf f' = {x ∈ snapshotsOf f | ∀ a, target = some a → ¬ Below s.heap a x.1} := by
  cases target with
  | none =>
      refine ⟨_, s, f, rfl, refines, ?_⟩
      ext x
      simp
  | some a =>
      obtain ⟨n, hread⟩ := live a rfl
      obtain ⟨r, v, c, l, hroot, hguid, hc, holds, ha⟩ :=
        refines.mem_of_read hread (spares a n rfl hread)
      rw [addrs_node, addrs_nil, List.append_nil, List.mem_cons] at ha
      rcases ha with rfl | ha
      · obtain ⟨s', hrun, hroot', hempty⟩ := deleteBranch_head hroot holds
        have hrefines : Refines s' nil [] :=
          .inl ⟨hroot', rfl, fun b n hb => absurd hb (hempty b n)⟩
        refine ⟨_, s', nil, hrun, hrefines, ?_⟩
        ext x
        refine ⟨fun hx => absurd (snapshotsOf_sub hx) (by simp), ?_⟩
        rintro ⟨hx, hnot⟩
        refine absurd ((holds.stored.below_iff x.1).mpr (.inr ?_)) (hnot a rfl)
        rw [addrs_append, List.mem_append]
        exact .inl (mem_addrs_mark.mpr (.inl (snapshotsOf_sub hx)))
      · obtain ⟨s', f', w, p, cn, hrun, hreplaced, hsettled, _, hbelow⟩ :=
          deleteBranch_marked ⟨l, hroot, hc, holds⟩ ha
        have hperm := hreplaced.nodes
        rw [nodes_nil, List.append_nil] at hperm
        refine ⟨_, s', f', hrun, hsettled.refines hguid, ?_⟩
        rw [snapshotsOf_perm hperm holds.snapshots_nodup.2]
        ext x
        refine and_congr_right fun hx => ?_
        simp [hbelow x.1 (snapshotsOf_sub hx), Forest.addrs]

theorem live_of_deleteNode {target : Option Nat} {code : SnapshotReturnCode}
    {t : SavedStateStore} (hdelete : deleteNode s target = some (code, t)) : Live s target := by
  rintro a rfl
  cases hread : s.heap.read a with
  | none => simp [deleteNode, hread] at hdelete
  | some n => exact ⟨n, rfl⟩

theorem live_of_deleteBranch {target : Option Nat} {code : SnapshotReturnCode}
    {t : SavedStateStore} (hdelete : deleteBranch s target = some (code, t)) :
    Live s target := by
  rintro a rfl
  cases hread : s.heap.read a with
  | none =>
      have hfind : findCurrentNode s.heap (some a) = none := by
        cases hnext : s.heap.next with
        | zero => simp [findCurrentNode, hnext, findNode]
        | succ fuel => simp [findCurrentNode, hnext, findNode, hread]
      simp [deleteBranch, hfind] at hdelete
  | some n => exact ⟨n, rfl⟩

/-- A guid never names the 'You are here' node: the head has the same empty guid
and comes first. -/
theorem nodeOfGuid_refines (refines : Refines s f []) (guid : String) (hroot : s.root ≠ none) :
    ∃ target, nodeOfGuid s guid = some target ∧ Spares s target ∧ Live s target := by
  rcases refines with ⟨hnone, _, _⟩ | ⟨r, v, c, l, hroot, hguid, hc, holds⟩
  · exact absurd hnone hroot
  · have hgetRoot : getRoot s.heap r = some r :=
      getRoot_spec holds.stored holds.nodup (by simp)
    have hsearch : findNode (fun v => v.guid == guid) s.heap.next s.heap r =
        some (firstNode (fun v => v.guid == guid) (mark (marksAt c l) (node r v f nil))) :=
      findNode_spec _ holds.stored holds.nodup
    have hfind : nodeOfGuid s guid =
        some (firstNode (fun v => v.guid == guid) (mark (marksAt c l) (node r v f nil))) := by
      simp only [nodeOfGuid, findByUuid, recursiveFindByUuid, hroot, hgetRoot, hsearch,
        Option.bind_eq_bind, Option.bind_some]
    have hstate : ∀ a, firstNode (fun v => v.guid == guid) (mark (marksAt c l) (node r v f nil)) =
        some a → ∃ n, s.heap.read a = some n ∧ n.val.currentState = false := by
      intro a ha
      by_cases hempty : guid = ""
      · have hfirst : firstNode (fun v => v.guid == guid)
            (mark (marksAt c l) (node r v f nil)) = some r := by
          simp [firstNode, hguid, hempty]
        rw [hfirst] at ha
        cases ha
        exact ⟨_, holds.stored.1, rfl⟩
      · obtain ⟨x, hx, rfl⟩ := Option.map_eq_some_iff.mp ha
        have hxguid : x.2.guid = guid := by simpa using List.find?_some hx
        obtain ⟨n, hn, hval⟩ := holds.stored.read_val (List.mem_of_find?_eq_some hx)
        have hnode := (nodes_mark _ _).mem_iff.mp (List.mem_of_find?_eq_some hx)
        rw [List.mem_append, List.mem_map, List.mem_map] at hnode
        rcases hnode with ⟨y, _, rfl⟩ | ⟨y, _, rfl⟩
        · exact ⟨n, hn, by rw [hval]; rfl⟩
        · exact absurd hxguid.symm hempty
    refine ⟨_, hfind, ?_, ?_⟩
    · intro a n ha hread
      obtain ⟨m, hm, hfalse⟩ := hstate a ha
      rw [hread] at hm
      cases hm
      exact hfalse
    · intro a ha
      obtain ⟨m, hm, _⟩ := hstate a ha
      exact ⟨m, hm⟩

theorem setCurrent_refines (refines : Refines s f []) {a : Nat} {n : Node SavedState}
    (hread : s.heap.read a = some n) :
    ∃ h, setCurrent s.heap a true = some h ∧ Refines ⟨h, s.root⟩ f [] := by
  cases hstate : n.val.currentState with
  | true => exact ⟨s.heap, by simp [setCurrent, hread, hstate], refines⟩
  | false =>
      obtain ⟨r, v, c, l, hroot, hguid, hc, holds, ha⟩ := refines.mem_of_read hread hstate
      obtain ⟨k, hrun, hholds, _⟩ := holds.setCurrent (by simp) ha
      exact ⟨k, hrun, .inr ⟨r, v, a, s.heap.next, hroot, hguid, ha, hholds⟩⟩

/-- The pointers of a request lead to live nodes, and a guid is looked up in a
tree. -/
def LiveRequest (s : SavedStateStore) : Request → Prop
  | .createSnapshot _ => True
  | .deleteNode target | .deleteBranch target => Live s target
  | .deleteNodeByGuid _ | .deleteBranchByGuid _ => s.root ≠ none
  | .setCurrent a => Live s (some a)

theorem live_of_performs {request : Request} {t : SavedStateStore}
    (performs : Performs s request t) : LiveRequest s request := by
  unfold Performs at performs
  cases request with
  | createSnapshot state => trivial
  | deleteNode target =>
      obtain ⟨⟨code, t'⟩, hdelete, _⟩ := Option.map_eq_some_iff.mp performs
      exact live_of_deleteNode hdelete
  | deleteBranch target =>
      obtain ⟨⟨code, t'⟩, hdelete, _⟩ := Option.map_eq_some_iff.mp performs
      exact live_of_deleteBranch hdelete
  | deleteNodeByGuid guid =>
      intro hroot
      simp [perform, deleteNodeByGuid, nodeOfGuid, hroot] at performs
  | deleteBranchByGuid guid =>
      intro hroot
      simp [perform, deleteBranchByGuid, nodeOfGuid, hroot] at performs
  | setCurrent a =>
      rintro b hb
      cases hb
      cases hread : s.heap.read a with
      | none => simp [perform, setCurrent, hread] at performs
      | some n => exact ⟨n, rfl⟩

/-- Every request keeps the store consistent and takes or adds exactly the
snapshots that it names. -/
theorem perform_refines (refines : Refines s f []) {request : Request}
    (spares : SparesCurrentState s request) (live : LiveRequest s request) :
    ∃ t f', Performs s request t ∧ Refines t f' [] ∧
      snapshotsOf f' = recordCreated s request (snapshotsOf f) := by
  unfold Performs
  cases request with
  | createSnapshot state =>
      obtain ⟨t, f', hrun, hrefines, hperm⟩ := createSnapshot_spec state refines
      refine ⟨t, f', by simp [perform, hrun], hrefines, ?_⟩
      ext x
      have hmem : ∀ v, (x.1, v) ∈ f'.nodes ↔
          (x.1, v) = (s.heap.next, created state) ∨ (x.1, v) ∈ f.nodes := by
        intro v
        rw [hperm.mem_iff, List.mem_cons]
      simp only [snapshotsOf, recordCreated, Set.mem_insert_iff, Set.mem_ofPred_eq, hmem]
      constructor
      · rintro ⟨w, heq | hw, hguid⟩
        · obtain ⟨haddr, hval⟩ := Prod.mk.inj heq
          rw [hval] at hguid
          exact .inl (Prod.ext haddr hguid.symm)
        · exact .inr ⟨w, hw, hguid⟩
      · rintro (rfl | ⟨w, hw, hguid⟩)
        · exact ⟨created state, .inl rfl, rfl⟩
        · exact ⟨w, .inr hw, hguid⟩
  | deleteNode target =>
      obtain ⟨code, t, f', hrun, hrefines, hsnapshots⟩ := deleteNode_refines refines spares live
      exact ⟨t, f', by simp [perform, hrun], hrefines, hsnapshots⟩
  | deleteNodeByGuid guid =>
      obtain ⟨target, hfind, hspares, hlive⟩ := nodeOfGuid_refines refines guid live
      obtain ⟨code, t, f', hrun, hrefines, hsnapshots⟩ :=
        deleteNode_refines refines hspares hlive
      refine ⟨t, f', by simp [perform, deleteNodeByGuid, hfind, hrun], hrefines, ?_⟩
      rw [hsnapshots]
      simp [recordCreated, hfind]
  | deleteBranch target =>
      obtain ⟨code, t, f', hrun, hrefines, hsnapshots⟩ := deleteBranch_refines refines spares live
      exact ⟨t, f', by simp [perform, hrun], hrefines, hsnapshots⟩
  | deleteBranchByGuid guid =>
      obtain ⟨target, hfind, hspares, hlive⟩ := nodeOfGuid_refines refines guid live
      obtain ⟨code, t, f', hrun, hrefines, hsnapshots⟩ :=
        deleteBranch_refines refines hspares hlive
      refine ⟨t, f', by simp [perform, deleteBranchByGuid, hfind, hrun], hrefines, ?_⟩
      rw [hsnapshots]
      simp [recordCreated, hfind]
  | setCurrent a =>
      obtain ⟨n, hread⟩ := live a rfl
      obtain ⟨h, hrun, hrefines⟩ := setCurrent_refines refines hread
      exact ⟨⟨h, s.root⟩, f, by simp [perform, hrun], hrefines, rfl⟩

end Tree

theorem refines_empty : Refines .empty .nil [] := by
  refine .inl ⟨rfl, rfl, ?_⟩
  intro b n hb
  simp [SavedStateStore.empty, Heap.empty, Heap.read] at hb

/-- The history variable is the set of the snapshots in the tree. -/
def Tracks (x : SavedStateStore × Created) : Prop :=
  ∃ f, Refines x.1 f [] ∧ x.2 = snapshotsOf f

theorem tracks_step (x : SavedStateStore × Created) (request : Request)
    (y : SavedStateStore × Created) (tracks : Tracks x)
    (step : Recorded recordCreated (Guarded SparesCurrentState Performs) x request y) :
    Tracks y := by
  obtain ⟨f, hrefines, hg⟩ := tracks
  obtain ⟨⟨spares, performs⟩, hrecord⟩ := step
  obtain ⟨t, f', hperforms, hrefines', hsnapshots⟩ :=
    perform_refines hrefines spares (live_of_performs performs)
  have ht : t = y.1 := Option.some.inj (hperforms.symm.trans performs)
  refine ⟨f', ht ▸ hrefines', ?_⟩
  rw [hsnapshots, ← hg]
  exact hrecord

theorem tracks_of_run {requests : List Request} {s : SavedStateStore} {created : Created}
    (run : Run (Recorded recordCreated (Guarded SparesCurrentState Performs))
      (.empty, ∅) requests (s, created)) :
    Tracks (s, created) := by
  refine run.preserves tracks_step ⟨.nil, refines_empty, ?_⟩
  ext x
  simp [snapshotsOf]

/-- No request on live nodes gets stuck in a state that a run reaches. -/
theorem performs_of_run {requests : List Request} {s : SavedStateStore} {created : Created}
    (run : Run (Recorded recordCreated (Guarded SparesCurrentState Performs))
      (.empty, ∅) requests (s, created))
    {request : Request} (spares : SparesCurrentState s request) (live : LiveRequest s request) :
    ∃ t, Performs s request t := by
  obtain ⟨f, hrefines, _⟩ := tracks_of_run run
  obtain ⟨t, _, hperforms, _⟩ := perform_refines hrefines spares live
  exact ⟨t, hperforms⟩

theorem store_consistent_of_run {requests : List Request} {s : SavedStateStore}
    {created : Created}
    (run : Run (Recorded recordCreated (Guarded SparesCurrentState Performs))
      (.empty, ∅) requests (s, created)) :
    Consistent s created := by
  obtain ⟨f, hrefines, rfl⟩ := tracks_of_run run
  exact hrefines.consistent

/-- A store with one snapshot. -/
def oneSnapshot : SavedStateStore :=
  ⟨⟨[some ⟨{ guid := "a", current := true }, some 1, [2]⟩, some ⟨{}, none, [0]⟩,
    some ⟨youAreHere, some 0, []⟩]⟩, some 1⟩

def twoSnapshots : SavedStateStore :=
  ⟨⟨[some ⟨{ guid := "a" }, some 1, [3]⟩, some ⟨{}, none, [0]⟩, none,
    some ⟨{ guid := "b", current := true }, some 0, [4]⟩, some ⟨youAreHere, some 3, []⟩]⟩, some 1⟩

def firstDeleted : SavedStateStore :=
  ⟨⟨[none, some ⟨{}, none, [3]⟩, none,
    some ⟨{ guid := "b", current := true }, some 1, [4]⟩, some ⟨youAreHere, some 3, []⟩]⟩, some 1⟩

theorem performs_first : Performs .empty (.createSnapshot { guid := "a" }) oneSnapshot := by
  unfold Performs
  decide

theorem store_consistent_of_parent_deleted : ∃ created, Consistent firstDeleted created := by
  have hfirst : Guarded SparesCurrentState Performs .empty (.createSnapshot { guid := "a" })
      oneSnapshot := ⟨trivial, performs_first⟩
  have hsecond : Guarded SparesCurrentState Performs oneSnapshot (.createSnapshot { guid := "b" })
      twoSnapshots := by
    refine ⟨trivial, ?_⟩
    unfold Performs
    decide
  have hdelete : Guarded SparesCurrentState Performs twoSnapshots (.deleteNodeByGuid "a")
      firstDeleted := by
    refine ⟨trivial, ?_⟩
    unfold Performs
    decide
  exact ⟨_, store_consistent_of_run
    (.recorded hfirst (.recorded hsecond (.recorded hdelete (.nil _))))⟩

/-- The 'You are here' node is taken like a snapshot: the tree keeps a current node
without a leaf. -/
theorem deleteNode_takes_youAreHere :
    ∃ s created, Run (Recorded recordCreated Performs) (.empty, ∅)
      [.createSnapshot { guid := "a" }, .deleteNode (some 2)] (s, created) ∧
      ¬ Consistent s created := by
  let deleted : SavedStateStore :=
    ⟨⟨[some ⟨{ guid := "a", current := true }, some 1, []⟩, some ⟨{}, none, [0]⟩, none]⟩, some 1⟩
  have hdelete : Performs oneSnapshot (.deleteNode (some 2)) deleted := by
    unfold Performs
    decide
  refine ⟨deleted, _, .recorded performs_first (.recorded hdelete (.nil _)), ?_⟩
  intro hconsistent
  obtain ⟨l, ⟨_, n, hn, hstate⟩, _⟩ := TreeConsistent.currentState hconsistent
  match l with
  | 0 =>
      cases hn
      cases hstate
  | 1 =>
      cases hn
      cases hstate
  | 2 => cases hn
  | l + 3 => cases hn

end DispService.StatesStore
