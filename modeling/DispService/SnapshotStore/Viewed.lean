import Mathlib.Logic.Function.Basic
import DispService.Lib.Arranged
import DispService.StatesStore.Removal
import DispService.StatesStore.Xml

/-! The tree of snapshots that is built from the snapshots of libvirt. -/
namespace DispService.SnapshotStore

open DispService.Lib DispService.StatesStore

/-- `Libvirt::Instrument::Agent::Vm::Snapshot::Unit`, with what its calls return. -/
structure SnapshotUnit where
  uuid : String
  /-- what `getParent().getUuid` stores, if anything -/
  parent : Option String
  /-- what is read from the description; the call can fail -/
  state : Option Snapshot
  /-- `virDomainSnapshotIsCurrent` -/
  current : Bool
  deriving DecidableEq, Repr

/-- `m_input`: the units below each parent, in the order of the list. -/
abbrev TreeType := String → List SnapshotUnit

def setModel (value : List SnapshotUnit) : TreeType :=
  value.foldl (fun input u =>
    let i := u.parent.getD ""
    Function.update input i (input i ++ [u])) fun _ => []

/-- `Unit::getState` into a fresh node. A leaf that the description itself asks for is replaced by
the call of `SetCurrent`. -/
def getState (u : SnapshotUnit) (h : TreeHeap) (dst : Nat) : Option TreeHeap :=
  match u.state with
  | none => some h
  | some state => do
      let h ← setState h dst fun _ => { toSnapshot := state }
      setCurrent h dst u.current

/-- The name and the description that are stashed for a snapshot. -/
abbrev Metadata := String → Option (String × String)

def setMetadata (metadata : Metadata) (h : TreeHeap) (x : Nat) : Option TreeHeap := do
  let n ← h.read x
  match metadata n.val.guid with
  | none => return h
  | some (name, description) =>
      setState h x fun v => { v with name := name, description := description }

/-- The loop over the stack. Only its top has children that are not complete. -/
def build (metadata : Metadata) : Nat → TreeType → List Nat → TreeHeap → Option TreeHeap
  | _, _, [], h => some h
  | 0, _, _ :: _, _ => none
  | fuel + 1, input, top :: below, h => do
      let n ← h.read top
      match input n.val.guid with
      | [] =>
          match below with
          | [] => build metadata fuel input [] h
          | parent :: rest =>
              let (_, h) ← addChild h parent (some top)
              build metadata fuel input (parent :: rest) h
      | u :: us =>
          let x := h.next
          let h ← getState u (h.alloc (newNode {})) x
          let h ← setMetadata metadata h x
          build metadata fuel (Function.update input n.val.guid us) (x :: top :: below) h

/-- `View::operator()`, where `f` is the random guid of the node that stands in for a current
snapshot. -/
def view (metadata : Metadata) (f : String) (value : List SnapshotUnit) (fuel : Nat) :
    Option SavedStateStore :=
  if value = [] then
    some .empty
  else do
    let (_, s) ← createSnapshot .empty { guid := f }
    let current ← findCurrentNode s.heap s.root
    let h ← setCurrent s.heap (← current) false
    let root ← s.root
    let h ← build metadata fuel (setModel value) [root] h
    let (_, s) ← deleteNodeByGuid ⟨h, s.root⟩ f
    return s

end DispService.SnapshotStore

/-! What the loop builds: each snapshot below its parent, in the order of the list. The induction
is on the forest of the snapshots; the stack holds detached trees, which the loop attaches one by
one to the node below them. -/
namespace DispService.SnapshotStore

open DispService.Lib DispService.StatesStore Forest

/-- What the tree shows of a snapshot. -/
def described (metadata : Metadata) (d : Snapshot) : Snapshot :=
  match metadata d.guid with
  | none => d
  | some (name, description) => { d with name := name, description := description }

@[simp] theorem described_guid (metadata : Metadata) (d : Snapshot) :
    (described metadata d).guid = d.guid := by
  unfold described
  cases metadata d.guid with
  | none => rfl
  | some x => rfl

/-- The nodes `g` show the snapshots of `t` in their places. -/
def Grown (metadata : Metadata) (m : Marks) : Shape SnapshotUnit → Forest Snapshot → Prop
  | .nil, .nil => True
  | .node u c s, .node a w gc gs => u.state.map (described metadata) = some w ∧
      (m a).isSome = u.current ∧ Grown metadata m c gc ∧ Grown metadata m s gs
  | .nil, .node _ _ _ _ => False
  | .node _ _ _, .nil => False

theorem Grown.congr {metadata : Metadata} {m m' : Marks} {t : Shape SnapshotUnit}
    {g : Forest Snapshot} (grown : Grown metadata m t g) (same : ∀ a ∈ g.addrs, m' a = m a) :
    Grown metadata m' t g := by
  induction t generalizing g with
  | nil =>
      cases g with
      | nil => trivial
      | node a w gc gs => exact grown
  | node u c s ihc ihs =>
      cases g with
      | nil => exact grown
      | node a w gc gs =>
          obtain ⟨hw, hm, hc, hs⟩ := grown
          refine ⟨hw, ?_, ihc hc fun b hb => same b (by simp [hb]),
            ihs hs fun b hb => same b (by simp [hb])⟩
          rw [same a (by simp), hm]

section Steps

variable {h : TreeHeap} {m : Marks} {p x : Nat} {v w : Snapshot} {d g : Forest Snapshot}

/-- A detached tree becomes the last snapshot among the children of `p`. -/
theorem attach_spec (hp : Stored h none (mark m (node p v d nil)))
    (hx : Stored h none (mark m (node x w g nil)))
    (nodup : ((mark m (node p v d nil)).addrs ++ (mark m (node x w g nil)).addrs).Nodup) :
    ∃ k, addChild h p (some x) = some (true, k) ∧
      Stored k none (mark m (node p v (d.append (node x w g nil)) nil)) ∧
      (mark m (node p v (d.append (node x w g nil)) nil)).addrs.Nodup ∧
      (∀ b, b ≠ p → b ≠ x → k.read b = h.read b) ∧ k.next = h.next := by
  obtain ⟨hreadp, hchildsp, _⟩ := hp
  obtain ⟨hreadx, hchildsx, _⟩ := hx
  simp only [mark_node, mark_nil, addrs_node, addrs_nil, List.append_nil] at nodup
  rw [List.cons_append, List.nodup_cons, List.mem_append, List.mem_cons, not_or, not_or,
    List.nodup_append, List.nodup_cons] at nodup
  obtain ⟨⟨hpd, hpx, hpg⟩, hnodupd, ⟨hxg, hnodupg⟩, hapart⟩ := nodup
  have hxd : ∀ b ∈ ((mark m d).append (leafOf (m p))).addrs, b ≠ x := fun b hb =>
    hapart b hb x (by simp)
  obtain ⟨k, hadd, hreadk, hxk, hsame, hnext⟩ := addChild_spec hreadp hreadx (Ne.symm hpx) rfl
  refine ⟨k, hadd, ⟨?_, ?_, trivial⟩, ?_, hsame, hnext⟩
  · rw [hreadk]
    cases hm : m p with
    | none => simp [insertPos]
    | some l => simp [insertPos, insertIdx_length_append]
  · have hkeep : Stored k (some p) ((mark m d).append (leafOf (m p))) := by
      refine hchildsp.frame fun b hb => hsame b ?_ (hxd b hb)
      exact ne_of_mem_of_not_mem hb hpd
    obtain ⟨hd, hl⟩ := stored_append.mp hkeep
    rw [mark_append, stored_append, stored_append]
    refine ⟨⟨hd, hxk, ?_, trivial⟩, hl⟩
    refine hchildsx.frame fun b hb => hsame b ?_ ?_
    · exact ne_of_mem_of_not_mem hb hpg
    · exact ne_of_mem_of_not_mem hb hxg
  · have hperm : (mark m (node p v (d.append (node x w g nil)) nil)).addrs.Perm
        (p :: (((mark m d).append (leafOf (m p))).addrs ++
          x :: ((mark m g).append (leafOf (m x))).addrs)) := by
      refine List.perm_iff_count.mpr fun b => ?_
      simp only [mark_node, mark_append, mark_nil, addrs_node, addrs_append, addrs_nil,
        List.count_cons, List.count_append, List.count_nil]
      omega
    rw [hperm.nodup_iff, List.nodup_cons, List.mem_append, List.mem_cons, not_or, not_or,
      List.nodup_append, List.nodup_cons]
    exact ⟨⟨hpd, hpx, hpg⟩, hnodupd, ⟨hxg, hnodupg⟩, hapart⟩

theorem setMetadata_spec (metadata : Metadata) (stored : Stored h none (mark m (node x v nil nil)))
    (hleaf : m x ≠ some x) :
    ∃ k, setMetadata metadata h x = some k ∧
      Stored k none (mark m (node x (described metadata v) nil nil)) ∧
      (∀ b, b ≠ x → k.read b = h.read b) ∧ k.next = h.next := by
  obtain ⟨hread, hchilds, _⟩ := id stored
  unfold setMetadata described
  cases hmeta : metadata v.guid with
  | none => exact ⟨h, by simp [hread, Snapshot.state, hmeta], stored, fun _ _ => rfl, rfl⟩
  | some data =>
      refine ⟨h.put x _, ?_, ⟨Heap.read_put_self hread _, ?_, trivial⟩,
        fun b hb => Heap.read_put_ne h hb _, Heap.next_put _ _ _⟩
      · simp only [hread, Option.bind_eq_bind, Option.bind_some]
        simp only [Snapshot.state, hmeta]
        exact Heap.modify_of_read hread _
      · refine hchilds.frame fun b hb => Heap.read_put_ne h ?_ _
        rintro rfl
        rw [mark_nil, nil_append, mem_leafOf] at hb
        exact hleaf hb

theorem getState_spec {u : SnapshotUnit} {state : Snapshot} (hstate : u.state = some state)
    (h : TreeHeap) :
    ∃ k o, getState u (h.alloc (newNode {})) h.next = some k ∧
      Stored k none (mark (Function.update nowhere h.next o) (node h.next state nil nil)) ∧
      o.isSome = u.current ∧ (∀ l, o = some l → h.next < l) ∧
      (∀ b < h.next, k.read b = h.read b) ∧ h.next < k.next ∧
      ∀ b, h.next ≤ b → b < k.next → b = h.next ∨ o = some b := by
  let h₁ : TreeHeap := h.alloc ⟨state.state false, none, []⟩
  have hset : StatesStore.setState (h.alloc (newNode {})) h.next
      (fun _ => { toSnapshot := state }) = some h₁ := Heap.modify_alloc _ _ _
  have hread : h₁.read h.next = some ⟨state.state false, none, []⟩ := Heap.read_alloc_next _ _
  have hold : ∀ b < h.next, h₁.read b = h.read b := by
    intro b hb
    rw [Heap.read_alloc, if_neg (Nat.ne_of_lt hb)]
  have hnext : h₁.next = h.next + 1 := Heap.next_alloc _ _
  have hstored : Stored h₁ none (mark nowhere (node h.next state nil nil)) :=
    ⟨hread, trivial, trivial⟩
  have hget : getState u (h.alloc (newNode {})) h.next = setCurrent h₁ h.next u.current := by
    simp only [getState, hstate, hset, Option.bind_eq_bind, Option.bind_some]
  rw [hget]
  cases hcurrent : u.current with
  | true =>
      obtain ⟨k, hrun, hstoredk, _, hsame, hnextk⟩ :=
        setCurrent_spec hstored (by simp) (a := h.next) (by simp)
      refine ⟨k, some h₁.next, hrun, ?_, rfl, ?_, ?_, by omega, ?_⟩
      · have hmark : mark (Function.update nowhere h.next (some h₁.next))
            (node h.next state nil nil) = mark (marksAt h.next h₁.next) (node h.next state nil nil) := by
          refine mark_congr fun a ha => ?_
          have heq : a = h.next := by simpa using ha
          rw [heq, Function.update_self, marksAt_self]
        rw [hmark]
        exact hstoredk
      · intro l hl
        cases hl
        omega
      · intro b hb
        rw [hsame b (by simp; omega) (by omega), hold b hb]
      · intro b hle hlt
        rw [Option.some.injEq]
        omega
  | false =>
      obtain ⟨k, hrun, hreadk, _, hsame, hnextk⟩ := unsetCurrent_spec (m := nowhere) (c := nil)
        hread trivial (by simp)
      refine ⟨k, none, (setCurrent_false hread).trans hrun, ?_, rfl, by simp, ?_, by omega, ?_⟩
      · have hnowhere : Function.update nowhere h.next none = nowhere :=
          Function.update_eq_self h.next nowhere
        rw [hnowhere]
        exact ⟨hreadk, trivial, trivial⟩
      · intro b hb
        rw [hsame b (by omega) (by simp), hold b hb]
      · intro b hle hlt
        omega

/-- A fresh node takes the state and the metadata of its snapshot. -/
theorem fresh_spec (metadata : Metadata) {u : SnapshotUnit} {state : Snapshot}
    (hstate : u.state = some state) (h : TreeHeap) :
    ∃ k₁ k o, getState u (h.alloc (newNode {})) h.next = some k₁ ∧
      setMetadata metadata k₁ h.next = some k ∧
      Stored k none (mark (Function.update nowhere h.next o)
        (node h.next (described metadata state) nil nil)) ∧
      o.isSome = u.current ∧ (∀ l, o = some l → h.next < l) ∧
      (∀ b < h.next, k.read b = h.read b) ∧ h.next < k.next ∧
      ∀ b, h.next ≤ b → b < k.next → b = h.next ∨ o = some b := by
  obtain ⟨k₁, o, hget, hstored, ho, hlt, hsame, hnext, honly⟩ := getState_spec hstate h
  have hleaf : Function.update nowhere h.next o h.next ≠ some h.next := by
    rw [Function.update_self]
    exact fun heq => absurd (hlt _ heq) (Nat.lt_irrefl _)
  obtain ⟨k, hset, hstoredk, hsamek, hnextk⟩ := setMetadata_spec metadata hstored hleaf
  refine ⟨k₁, k, o, hget, hset, hstoredk, ho, hlt, ?_, by omega, hnextk ▸ honly⟩
  intro b hb
  rw [hsamek b (Nat.ne_of_lt hb), hsame b hb]

end Steps

theorem build_push {metadata : Metadata} {fuel top : Nat} {input : TreeType} {below : List Nat}
    {h k₁ k : TreeHeap} {n : Node SavedState} {u : SnapshotUnit} {us : List SnapshotUnit}
    (hread : h.read top = some n) (hinput : input n.val.guid = u :: us)
    (hget : getState u (h.alloc (newNode {})) h.next = some k₁)
    (hmeta : setMetadata metadata k₁ h.next = some k) :
    build metadata (fuel + 1) input (top :: below) h =
      build metadata fuel (Function.update input n.val.guid us) (h.next :: top :: below) k := by
  simp only [build, hread, hinput, hget, hmeta, Option.bind_eq_bind, Option.bind_some]

theorem build_pop {metadata : Metadata} {fuel top parent : Nat} {input : TreeType}
    {below : List Nat} {h k : TreeHeap} {n : Node SavedState} (hread : h.read top = some n)
    (hinput : input n.val.guid = []) (hadd : addChild h parent (some top) = some (true, k)) :
    build metadata (fuel + 1) input (top :: parent :: below) h =
      build metadata fuel input (parent :: below) k := by
  simp only [build, hread, hinput, hadd, Option.bind_eq_bind, Option.bind_some]

theorem mem_mark_tree {m : Marks} {x b : Nat} {w : Snapshot} {g : Forest Snapshot} :
    b ∈ (mark m (node x w g nil)).addrs ↔ b = x ∨ b ∈ (mark m g).addrs ∨ m x = some b := by
  simp only [mark_node, mark_nil, addrs_node, addrs_append, addrs_nil, List.append_nil,
    List.mem_cons, List.mem_append, mem_leafOf]

section Build

variable {metadata : Metadata} {units : List SnapshotUnit}

/-- Every state can be read. -/
def Readable (us : List SnapshotUnit) : Prop :=
  ∀ u ∈ us, ∃ d, u.state = some d ∧ d.guid = u.uuid

/-- The loop over the part `t` of the forest leaves its nodes below the top of the stack. -/
structure Built (metadata : Metadata) (t : Shape SnapshotUnit) (h k : TreeHeap) (m m' : Marks)
    (p : Nat) (v : Snapshot) (d g : Forest Snapshot) : Prop where
  stored : Stored k none (mark m' (node p v (d.append g) nil))
  nodup : (mark m' (node p v (d.append g) nil)).addrs.Nodup
  marks : ∀ a < h.next, m' a = m a
  unused : ∀ a, k.next ≤ a → m' a = none
  next : h.next ≤ k.next
  same : ∀ b < h.next, b ∉ (mark m (node p v d nil)).addrs → k.read b = h.read b
  grown : Grown metadata m' t g
  fresh : ∀ a ∈ (mark m' g).addrs, h.next ≤ a
  only : ∀ a, h.next ≤ a → a < k.next → a ∈ (mark m' g).addrs

theorem build_spec {t : Shape SnapshotUnit} {us : List SnapshotUnit}
    (arranged : Arranged SnapshotUnit.uuid SnapshotUnit.parent units t us)
    (readable : Readable t.values) (keys : (t.values.map SnapshotUnit.uuid).Nodup)
    {h : TreeHeap} {m : Marks} {p : Nat} {v : Snapshot} {d : Forest Snapshot} (input : TreeType)
    (stored : Stored h none (mark m (node p v d nil)))
    (nodup : (mark m (node p v d nil)).addrs.Nodup) (unused : ∀ a, h.next ≤ a → m a = none)
    (hinput : input v.guid = us) (hkey : v.guid ∉ t.values.map SnapshotUnit.uuid)
    (pending : ∀ u ∈ t.values,
      input u.uuid = childItems SnapshotUnit.parent units (some u.uuid)) :
    ∃ k m' g input',
      (∀ fuel below, build metadata (2 * t.values.length + fuel) input (p :: below) h =
        build metadata fuel input' (p :: below) k) ∧
      Built metadata t h k m m' p v d g ∧ input' v.guid = [] ∧
      ∀ key, key ≠ v.guid → key ∉ t.values.map SnapshotUnit.uuid → input' key = input key := by
  induction t generalizing us h m p v d input with
  | nil =>
      have hus : us = [] := arranged
      refine ⟨h, m, nil, input, by simp, ?_, by rw [hinput, hus], fun _ _ _ => rfl⟩
      exact ⟨by simpa using stored, by simpa using nodup, fun _ _ => rfl, unused, Nat.le_refl _,
        fun _ _ _ => rfl, trivial, by simp, fun a hle hlt => absurd hlt (by omega)⟩
  | node u c s ihc ihs =>
      obtain ⟨rest, rfl, hc, hs⟩ := arranged
      obtain ⟨state, hstate, hguid⟩ := readable u (by simp)
      simp only [Shape.values_node, List.map_cons, List.map_append, List.nodup_cons,
        List.mem_append, List.nodup_append, not_or, List.mem_cons] at keys hkey
      obtain ⟨⟨huc, hus⟩, hkeysc, hkeyss, hapart⟩ := keys
      obtain ⟨hvu, hvc, hvs⟩ := hkey
      -- the new node
      obtain ⟨k₁', k₁, o, hget, hmeta, hstored₁, ho, holt, hsame₁, hnext₁, honly₁⟩ :=
        fresh_spec metadata hstate h
      let x := h.next
      let w := described metadata state
      let m₁ := Function.update m x o
      have hw : w.guid = u.uuid := by rw [described_guid, hguid]
      have hpush : ∀ fuel below,
          build metadata (2 * (Shape.node u c s).values.length + fuel) input (p :: below) h =
          build metadata (2 * c.values.length + (2 * s.values.length + fuel + 1))
            (Function.update input v.guid rest) (x :: p :: below) k₁ := by
        intro fuel below
        have hfuel : 2 * (Shape.node u c s).values.length + fuel =
            2 * c.values.length + (2 * s.values.length + fuel + 1) + 1 := by
          simp only [Shape.values_node, List.length_cons, List.length_append]
          omega
        rw [hfuel]
        exact build_push stored.1 hinput hget hmeta
      have hm₁ : ∀ a < h.next, m₁ a = m a := fun a ha =>
        Function.update_of_ne (Nat.ne_of_lt ha) _ _
      have hm₁x : m₁ x = o := Function.update_self _ _ _
      have hstoredx : Stored k₁ none (mark m₁ (node x w nil nil)) := by
        have hmark : mark m₁ (node x w nil nil) =
            mark (Function.update nowhere h.next o) (node x w nil nil) := by
          refine mark_congr fun a ha => ?_
          have heq : a = x := by simpa using ha
          rw [heq, hm₁x, Function.update_self]
        rw [hmark]
        exact hstored₁
      have hnodupx : (mark m₁ (node x w nil nil)).addrs.Nodup := by
        rw [mark_node, hm₁x]
        cases o with
        | none => simp
        | some l => simpa using Nat.ne_of_lt (holt l rfl)
      have hfreshx : ∀ b ∈ (mark m₁ (node x w nil nil)).addrs, h.next ≤ b := by
        intro b hb
        rcases mem_mark_tree.mp hb with rfl | hnil | hl
        · exact Nat.le_refl _
        · simp at hnil
        · exact Nat.le_of_lt (holt b (hm₁x ▸ hl))
      -- its children
      obtain ⟨k₂, m₂, gc, input₂, hrun₂, built₂, hempty₂, hother₂⟩ := ihc hc
        (fun a ha => readable a (by simp [ha])) hkeysc (Function.update input v.guid rest) hstoredx hnodupx (by
          intro a ha
          have hne : a ≠ x := by omega
          exact (Function.update_of_ne hne _ _).trans (unused a (by omega)))
        (by
          rw [hw, Function.update_of_ne (Ne.symm hvu)]
          exact pending u (by simp))
        (hw ▸ huc) (by
          intro a ha
          have hne : a.uuid ≠ v.guid := fun heq => hvc (heq ▸ List.mem_map.mpr ⟨a, ha, rfl⟩)
          rw [Function.update_of_ne hne]
          exact pending a (by simp [ha]))
      rw [hw] at hempty₂ hother₂
      have hlt : ∀ b ∈ (mark m (node p v d nil)).addrs, b < h.next := fun b hb =>
        stored.lt_next hb
      have hm₂ : ∀ a < h.next, m₂ a = m a := fun a ha => by
        rw [built₂.marks a (by omega), hm₁ a ha]
      have hm₂x : m₂ x = o := by rw [built₂.marks x hnext₁, hm₁x]
      have hmarkp : mark m₂ (node p v d nil) = mark m (node p v d nil) :=
        mark_congr fun a ha => hm₂ a (hlt a (mem_addrs_mark.mpr (.inl ha)))
      have hsame₂ : ∀ b < h.next, k₂.read b = h.read b := fun b hb => by
        rw [built₂.same b (by omega) fun hin => absurd (hfreshx b hin) (by omega), hsame₁ b hb]
      have hstoredx₂ : Stored k₂ none (mark m₂ (node x w gc nil)) := built₂.stored
      have hfreshx₂ : ∀ b ∈ (mark m₂ (node x w gc nil)).addrs, h.next ≤ b := by
        intro b hb
        rcases mem_mark_tree.mp hb with rfl | hin | hl
        · exact Nat.le_refl _
        · exact Nat.le_trans (Nat.le_of_lt hnext₁) (built₂.fresh b hin)
        · exact Nat.le_of_lt (holt b (hm₂x ▸ hl))
      -- the node joins the children of the top
      obtain ⟨k₃, hadd, hstored₃, hnodup₃, hsame₃, hnext₃⟩ := attach_spec (p := p) (v := v) (d := d)
        (hmarkp ▸ stored.frame fun b hb => hsame₂ b (hlt b hb)) hstoredx₂ (by
          rw [hmarkp, List.nodup_append]
          refine ⟨nodup, built₂.nodup, fun a ha b hb heq => ?_⟩
          have hb' := hfreshx₂ b hb
          have ha' := hlt a ha
          omega)
      have hpop : ∀ fuel below,
          build metadata (2 * s.values.length + fuel + 1) input₂ (x :: p :: below) k₂ =
          build metadata (2 * s.values.length + fuel) input₂ (p :: below) k₃ := fun fuel below =>
        build_pop hstoredx₂.1 (by rw [← hempty₂, ← hw]; rfl) hadd
      -- its siblings
      have hfar : ∀ key, key ≠ u.uuid → key ∉ c.values.map SnapshotUnit.uuid → key ≠ v.guid →
          input₂ key = input key := by
        intro key hu hc hv
        rw [hother₂ key hu hc, Function.update_of_ne hv]
      obtain ⟨k, m', gs, input', hrun₃, built₃, hempty₃, hother₃⟩ := ihs hs
        (fun a ha => readable a (by simp [ha])) hkeyss input₂ hstored₃ hnodup₃ (fun a ha => built₂.unused a (by omega))
        (by rw [hother₂ v.guid hvu hvc, Function.update_self]) hvs (by
          intro a ha
          have hmem : a.uuid ∈ s.values.map SnapshotUnit.uuid := List.mem_map.mpr ⟨a, ha, rfl⟩
          rw [hfar a.uuid (fun heq => hus (heq ▸ hmem))
            (fun hin => hapart _ hin _ hmem rfl) fun heq => hvs (heq ▸ hmem)]
          exact pending a (by simp [ha]))
      have hgc : ∀ a ∈ (mark m₂ gc).addrs, a < k₃.next := fun a ha => by
        rw [hnext₃]
        exact hstoredx₂.lt_next (mem_mark_tree.mpr (.inr (.inl ha)))
      have hgc' : ∀ a ∈ gc.addrs, m' a = m₂ a := fun a ha =>
        built₃.marks a (hgc a (mem_addrs_mark.mpr (.inl ha)))
      have hm'x : m' x = o := by
        rw [built₃.marks x (by have hle := built₂.next; omega), hm₂x]
      have hassoc : (d.append (node x w gc nil)).append gs = d.append (node x w gc gs) := by
        rw [append_assoc, node_append, nil_append]
      have hmem' : ∀ {a}, a ∈ (mark m' (node x w gc gs)).addrs ↔
          a = x ∨ a ∈ (mark m₂ gc).addrs ∨ o = some a ∨ a ∈ (mark m' gs).addrs := by
        intro a
        have hgcmark : mark m' gc = mark m₂ gc := mark_congr hgc'
        rw [mark_node, addrs_node, addrs_append, List.mem_cons, List.mem_append, List.mem_append,
          hgcmark, hm'x, mem_leafOf, or_assoc]
      refine ⟨k, m', node x w gc gs, input', fun fuel below => ?_, ?_, hempty₃, ?_⟩
      · rw [hpush fuel below, hrun₂, hpop fuel below, hrun₃]
      · constructor
        case stored => exact hassoc ▸ built₃.stored
        case nodup => exact hassoc ▸ built₃.nodup
        case marks =>
          intro a ha
          rw [built₃.marks a (by have hle := built₂.next; omega), hm₂ a ha]
        case unused => exact built₃.unused
        case next =>
          have hle₂ := built₂.next
          have hle₃ := built₃.next
          omega
        case same =>
          intro b hb hout
          have hne : b ≠ p := fun heq => hout (by simp [heq])
          have hnew : b ≠ x := Nat.ne_of_lt hb
          rw [built₃.same b (by have hle := built₂.next; omega) ?_, hsame₃ b hne hnew, hsame₂ b hb]
          have hm : (mark m₂ (node p v (d.append (node x w gc nil)) nil)).addrs.Perm
              ((mark m₂ (node p v d nil)).addrs ++ (mark m₂ (node x w gc nil)).addrs) := by
            refine List.perm_iff_count.mpr fun z => ?_
            simp only [mark_node, mark_append, mark_nil, addrs_node, addrs_append, addrs_nil,
              List.count_cons, List.count_append, List.count_nil]
            omega
          rw [hm.mem_iff, hmarkp, List.mem_append, not_or]
          exact ⟨hout, fun hin => absurd (hfreshx₂ b hin) (by omega)⟩
        case grown =>
          exact ⟨by rw [hstate]; rfl, by rw [hm'x, ho], built₂.grown.congr hgc', built₃.grown⟩
        case fresh =>
          intro a ha
          rcases hmem'.mp ha with rfl | hin | hl | hs
          · exact Nat.le_refl _
          · exact hfreshx₂ a (mem_mark_tree.mpr (.inr (.inl hin)))
          · exact Nat.le_of_lt (holt a hl)
          · have hle₂ := built₂.next
            have hle := built₃.fresh a hs
            omega
        case only =>
          intro a hle hlt
          by_cases hlt₃ : k₃.next ≤ a
          · exact hmem'.mpr (.inr (.inr (.inr (built₃.only a hlt₃ hlt))))
          · by_cases hlt₂ : k₁.next ≤ a
            · exact hmem'.mpr (.inr (.inl (built₂.only a hlt₂ (by omega))))
            · rcases honly₁ a hle (by omega) with heq | hl
              · exact hmem'.mpr (.inl heq)
              · exact hmem'.mpr (.inr (.inr (.inl hl)))
      · intro key hv hout
        simp only [Shape.values_node, List.map_cons, List.map_append, List.mem_cons,
          List.mem_append, not_or] at hout
        rw [hother₃ key hv hout.2.2, hfar key hout.1 hout.2.1 hv]

end Build

end DispService.SnapshotStore
