import DispService.StatesStore.Loading
import DispService.StatesStore.Removal

/-! Runs of all operations of the store, `Load` included. Between them the store is empty or holds
one tree with one current node, as long as nothing deletes the 'You are here' leaf and no loaded
tree is without a current node. -/
namespace DispService.StatesStore

open DispService.Lib Forest

inductive Operation where
  | request (request : Request)
  | load (document : Dom)

def Operates (s : SavedStateStore) (operation : Operation) (t : SavedStateStore) : Prop :=
  match operation with
  | .request request => Performs s request t
  | .load document => (load s document).map Prod.snd = some t

/-- A deletion is not aimed at the 'You are here' leaf, and a loaded tree has a current node. -/
def Marking (s : SavedStateStore) : Operation → Prop
  | .request (.deleteNode target) | .request (.deleteBranch target) => Spares s target
  | .request (.deleteNodeByGuid guid) | .request (.deleteBranchByGuid guid) =>
      ∀ target, nodeOfGuid s guid = some target → Spares s target
  | .request _ => True
  | .load document => ∀ code t, load s document = some (code, t) → t.root ≠ none →
      ∃ c, IsCurrentNode t c

/-- No tree, or a tree with its current node. -/
def Intact (s : SavedStateStore) : Prop :=
  (s.root = none ∧ ∀ b n, s.heap.read b ≠ some n) ∨ ∃ r v f c, MarkedAt s r v f c []

variable {s t : SavedStateStore} {r c : Nat} {v : Snapshot} {f : Forest Snapshot}

theorem Settled.intact (settled : Settled s r v f c []) : Intact s := by
  rcases settled with ⟨hroot, _, honly⟩ | hmarked
  · exact .inl ⟨hroot, fun b n hb => absurd (honly b n hb) (by simp)⟩
  · exact .inr ⟨r, v, f, c, hmarked⟩

/-- A live node that is not the leaf is the head or a snapshot. -/
theorem MarkedAt.mem_of_read (marked : MarkedAt s r v f c []) {a : Nat} {n : Node SavedState}
    (hread : s.heap.read a = some n) (hstate : n.val.currentState = false) :
    a = r ∨ a ∈ f.addrs := by
  obtain ⟨l, _, hc, holds⟩ := marked
  have hmem := (holds.only a n hread).resolve_right (by simp)
  rw [mem_addrs_marksAt hc] at hmem
  rcases hmem with hmem | rfl
  · simpa using hmem
  · obtain ⟨_, m, _, hm, hval, _⟩ := holds.read_leaf hc
    rw [hread] at hm
    cases hm
    simp [hval] at hstate

theorem clear_intact (intact : Intact s) :
    ∃ code t, deleteBranch s s.root = some (code, t) ∧ t.root = none ∧
      ∀ b n, t.heap.read b ≠ some n := by
  rcases intact with ⟨hroot, hempty⟩ | ⟨r, v, f, c, l, hroot, _, holds⟩
  · exact ⟨_, s, by rw [hroot]; rfl, hroot, hempty⟩
  · obtain ⟨t, hdelete, hroot', hempty⟩ := deleteBranch_head hroot holds
    exact ⟨_, t, by rw [hroot, hdelete], hroot', hempty⟩

theorem createSnapshot_intact (intact : Intact s) (state : SavedState) :
    ∃ code t, createSnapshot s state = some (code, t) ∧ Intact t := by
  rcases intact with ⟨hroot, hempty⟩ | ⟨r, v, f, c, hmarked⟩
  · obtain ⟨t, hrun, hmarked⟩ := createSnapshot_newTree (s := s) state []
      (by rw [hroot]; rfl) (fun b n hb => absurd hb (hempty b n)) (by simp)
    exact ⟨_, t, hrun, .inr ⟨_, _, _, _, hmarked⟩⟩
  · obtain ⟨t, f', hrun, hmarked', _⟩ := createSnapshot_marked (s := s) state hmarked
    exact ⟨_, t, hrun, .inr ⟨_, _, _, _, hmarked'⟩⟩

theorem deleteNode_intact (intact : Intact s) {target : Option Nat} (spares : Spares s target)
    (live : Live s target) : ∃ code t, deleteNode s target = some (code, t) ∧ Intact t := by
  cases target with
  | none => exact ⟨_, s, rfl, intact⟩
  | some a =>
      obtain ⟨n, hread⟩ := live a rfl
      rcases id intact with ⟨_, hempty⟩ | ⟨r, v, f, c, hmarked⟩
      · exact absurd hread (hempty a n)
      · rcases hmarked.mem_of_read hread (spares a n rfl hread) with rfl | ha
        · obtain ⟨l, _, _, holds⟩ := hmarked
          exact ⟨.cannotDeleteSnapshot, s, by simp [deleteNode, holds.stored.1], intact⟩
        · obtain ⟨t, p, f', c', hrun, _, _, hsettled⟩ := deleteNode_removes hmarked ha
          exact ⟨_, t, hrun, hsettled.intact⟩

theorem deleteBranch_intact (intact : Intact s) {target : Option Nat} (spares : Spares s target)
    (live : Live s target) : ∃ code t, deleteBranch s target = some (code, t) ∧ Intact t := by
  cases target with
  | none => exact ⟨_, s, rfl, intact⟩
  | some a =>
      obtain ⟨n, hread⟩ := live a rfl
      rcases id intact with ⟨_, hempty⟩ | ⟨r, v, f, c, hmarked⟩
      · exact absurd hread (hempty a n)
      · rcases hmarked.mem_of_read hread (spares a n rfl hread) with rfl | ha
        · obtain ⟨l, hroot, _, holds⟩ := hmarked
          obtain ⟨t, hrun, hroot', hempty⟩ := deleteBranch_head hroot holds
          exact ⟨_, t, hrun, .inl ⟨hroot', hempty⟩⟩
        · obtain ⟨t, p, f', c', gone, hrun, _, _, _, hsettled⟩ := deleteBranch_removes hmarked ha
          exact ⟨_, t, hrun, hsettled.intact⟩

theorem setCurrent_intact (intact : Intact s) {a : Nat} {n : Node SavedState}
    (hread : s.heap.read a = some n) :
    ∃ h, setCurrent s.heap a true = some h ∧ Intact ⟨h, s.root⟩ := by
  cases hstate : n.val.currentState with
  | true => exact ⟨s.heap, by simp [setCurrent, hread, hstate], intact⟩
  | false =>
      rcases intact with ⟨_, hempty⟩ | ⟨r, v, f, c, hmarked⟩
      · exact absurd hread (hempty a n)
      · have ha : a ∈ (node r v f nil).addrs := by
          simpa using hmarked.mem_of_read hread hstate
        obtain ⟨l, hroot, hc, holds⟩ := hmarked
        obtain ⟨k, hrun, hholds, _⟩ := holds.setCurrent (by simp) ha
        exact ⟨k, hrun, .inr ⟨r, v, f, a, s.heap.next, hroot, ha, hholds⟩⟩

/-- A tree without marks has no current node. -/
theorem Holds.no_current {m : Marks} (holds : Holds t.heap m (node r v f nil) [])
    (hroot : t.root = some r) (hm : m = nowhere) : ∀ c, ¬ IsCurrentNode t c := by
  rintro c ⟨r', hr', hreach, n, hread, hcurrent⟩
  rw [hroot] at hr'
  cases hr'
  subst hm
  have hmem : c ∈ (node r v f nil).addrs := by
    have hbelow := (holds.stored.below_iff c).mp hreach
    simpa [mem_addrs_mark] using hbelow
  obtain ⟨w, hw⟩ := mem_addrs_iff.mp hmem
  obtain ⟨x, hx, hval⟩ := holds.read_snapshot hw
  rw [hread] at hx
  cases hx
  simp [hval] at hcurrent

theorem load_intact (intact : Intact s) {document : Dom} (marking : Marking s (.load document)) :
    ∃ code t, load s document = some (code, t) ∧ Intact t := by
  obtain ⟨code₁, s₁, hclear, hroot₁, hempty₁⟩ := clear_intact intact
  obtain ⟨code, t, hload, hloaded⟩ := load_any hclear hroot₁ hempty₁ document
  refine ⟨code, t, hload, ?_⟩
  cases hloaded with
  | empty hroot hempty _ => exact .inl ⟨hroot, hempty⟩
  | tree r v f m hroot holds placed _ =>
      rcases placed with hm | ⟨c, l, rfl, hc⟩
      · obtain ⟨c, hc⟩ := marking code t hload (by simp [hroot])
        exact absurd hc (holds.no_current hroot hm c)
      · exact .inr ⟨r, v, f, c, l, hroot, hc, holds⟩

/-- Every operation that the condition allows leaves an intact store. -/
theorem intact_step (s : SavedStateStore) (operation : Operation) (t : SavedStateStore)
    (intact : Intact s) (step : Guarded Marking Operates s operation t) : Intact t := by
  obtain ⟨marking, operates⟩ := step
  have hsame : ∀ {code : SnapshotReturnCode} {u : SavedStateStore}
      {result : Option (SnapshotReturnCode × SavedStateStore)}, result = some (code, u) →
      result.map Prod.snd = some t → Intact u → Intact t := by
    intro code u result hrun hmap hu
    rw [hrun] at hmap
    cases hmap
    exact hu
  cases operation with
  | load document =>
      obtain ⟨code, u, hrun, hu⟩ := load_intact intact marking
      exact hsame hrun operates hu
  | request request =>
      have live := live_of_performs operates
      unfold Operates Performs perform at operates
      have hguid : ∀ (run : SavedStateStore → Option Nat → Option (SnapshotReturnCode × SavedStateStore))
          {guid : String}, ((nodeOfGuid s guid).bind (run s)).map Prod.snd = some t →
          ∃ target code, nodeOfGuid s guid = some target ∧ run s target = some (code, t) := by
        intro run guid hmap
        obtain ⟨⟨code, u⟩, hbind, rfl⟩ := Option.map_eq_some_iff.mp hmap
        obtain ⟨target, hfind, hrun⟩ := Option.bind_eq_some_iff.mp hbind
        exact ⟨target, code, hfind, hrun⟩
      cases request with
      | createSnapshot state =>
          obtain ⟨code, u, hrun, hu⟩ := createSnapshot_intact intact state
          exact hsame hrun operates hu
      | deleteNode target =>
          obtain ⟨code, u, hrun, hu⟩ := deleteNode_intact intact marking live
          exact hsame hrun operates hu
      | deleteBranch target =>
          obtain ⟨code, u, hrun, hu⟩ := deleteBranch_intact intact marking live
          exact hsame hrun operates hu
      | deleteNodeByGuid guid =>
          obtain ⟨target, code, hfind, hrun⟩ := hguid deleteNode operates
          obtain ⟨code', u, hrun', hu⟩ :=
            deleteNode_intact intact (marking target hfind) (live_of_deleteNode hrun)
          rw [hrun] at hrun'
          cases hrun'
          exact hu
      | deleteBranchByGuid guid =>
          obtain ⟨target, code, hfind, hrun⟩ := hguid deleteBranch operates
          obtain ⟨code', u, hrun', hu⟩ :=
            deleteBranch_intact intact (marking target hfind) (live_of_deleteBranch hrun)
          rw [hrun] at hrun'
          cases hrun'
          exact hu
      | setCurrent a =>
          obtain ⟨n, hread⟩ := live a rfl
          obtain ⟨h, hrun, hu⟩ := setCurrent_intact intact hread
          simp only [hrun, Option.map_some, Option.some.injEq] at operates
          exact operates ▸ hu

theorem intact_of_run {operations : List Operation}
    (run : Run (Guarded Marking Operates) .empty operations s) : Intact s := by
  refine run.preserves intact_step (.inl ⟨rfl, ?_⟩)
  intro b n hb
  simp [SavedStateStore.empty, Heap.empty, Heap.read] at hb

/-- On every tree that a run reaches both deletions of a snapshot take exactly what they name. -/
theorem deletions_of_run {operations : List Operation}
    (run : Run (Guarded Marking Operates) .empty operations s) {n : Nat} (hn : IsSnapshot s n) :
    (∃ t p, deleteNode s (some n) = some (.rcSuccess, t) ∧ parentOf s.heap n = some p ∧
      Removes s t p n [n] (snapshotChilds s.heap n)) ∧
    ∃ t p gone, deleteBranch s (some n) = some (.rcSuccess, t) ∧ parentOf s.heap n = some p ∧
      (∀ a, a ∈ gone ↔ IsSnapshot s a ∧ Below s.heap n a) ∧ Removes s t p n gone [] := by
  rcases intact_of_run run with ⟨hroot, _⟩ | ⟨r, v, f, c, hmarked⟩
  · obtain ⟨q, x, hq, _⟩ := hn
    rw [hroot] at hq
    cases hq
  · have hmem := (hmarked.isSnapshot_iff n).mp hn
    obtain ⟨t, p, _, _, hrun, hparent, hremoves, _⟩ := deleteNode_removes hmarked hmem
    obtain ⟨u, q, _, _, gone, hrun', hparent', hgone, hremoves', _⟩ :=
      deleteBranch_removes hmarked hmem
    exact ⟨⟨t, p, hrun, hparent, hremoves⟩, u, q, gone, hrun', hparent', hgone, hremoves'⟩

theorem isSnapshot_twoSnapshots : IsSnapshot twoSnapshots 0 := by
  refine ⟨1, _, rfl, .single ⟨_, rfl, ?_⟩, by decide, rfl, rfl⟩
  decide

theorem deletions_of_twoSnapshots :
    ∃ t p, deleteNode twoSnapshots (some 0) = some (.rcSuccess, t) ∧
      Removes twoSnapshots t p 0 [0] [3] := by
  have hfirst : Guarded Marking Operates .empty
      (.request (.createSnapshot { guid := "a" })) oneSnapshot := ⟨trivial, performs_first⟩
  have hsecond : Guarded Marking Operates oneSnapshot
      (.request (.createSnapshot { guid := "b" })) twoSnapshots := by
    refine ⟨trivial, ?_⟩
    unfold Operates Performs
    decide
  obtain ⟨⟨t, p, hrun, _, hremoves⟩, _⟩ :=
    deletions_of_run (.cons hfirst (.cons hsecond (.nil _))) isSnapshot_twoSnapshots
  exact ⟨t, p, hrun, hremoves⟩

/-- A snapshot file with one snapshot and no current node. -/
def unmarkedDocument : Dom :=
  .element "SavedStateItem" [] ((propertyElements {} false).append
    (.element "SavedStateItem" [("guid", "a")] (propertyElements {} false) .nil)) .nil

def unmarkedStore : SavedStateStore :=
  ⟨⟨[some ⟨{}, none, [1]⟩, some ⟨{ guid := "a" }, some 0, []⟩]⟩, some 0⟩

/-- Nobody deletes the head when the deleted snapshot is not current. -/
theorem deleteNode_keeps_empty_tree :
    ∃ t, Run Operates .empty [.load unmarkedDocument] unmarkedStore ∧
      IsSnapshot unmarkedStore 1 ∧ deleteNode unmarkedStore (some 1) = some (.rcSuccess, t) ∧
      (∀ a, IsSnapshot unmarkedStore a → a = 1) ∧ t.root ≠ none := by
  refine ⟨⟨⟨[some ⟨{}, none, []⟩, none]⟩, some 0⟩, .cons ?_ (.nil _), ?_, ?_, ?_, by simp⟩
  · rfl
  · exact ⟨0, _, rfl, .single ⟨_, rfl, by simp⟩, by decide, rfl, rfl⟩
  · decide
  · rintro a ⟨r, n, hr, _, hne, hread, _⟩
    cases hr
    match a with
    | 0 => exact absurd rfl hne
    | 1 => rfl
    | a + 2 => cases hread

/-- Two snapshots below a current head that has lost its leaf. -/
def leaflessStore : SavedStateStore :=
  ⟨⟨[some ⟨{ guid := "a" }, some 1, []⟩, some ⟨{ current := true }, none, [0, 4]⟩, none, none,
    some ⟨{ guid := "b" }, some 1, []⟩, none, none]⟩, some 1⟩

/-- A current head with one child counts as a tree without snapshots, since the leaf should be
that child. -/
theorem deleteNode_loses_sibling :
    ∃ t, Run Operates .empty
        ([.createSnapshot { guid := "a" }, .setCurrent 1, .createSnapshot { guid := "b" },
          .setCurrent 1, .deleteNode (some 6)].map .request) leaflessStore ∧
      IsSnapshot leaflessStore 0 ∧ IsSnapshot leaflessStore 4 ∧
      deleteNode leaflessStore (some 0) = some (.rcSuccess, t) ∧ t.root = none := by
  refine ⟨⟨⟨[none, none, none, none, some ⟨{ guid := "b" }, some 1, []⟩, none, none]⟩, none⟩,
    ?_, ?_, ?_, ?_, rfl⟩
  · refine .cons (t := oneSnapshot) performs_first (.cons rfl (.cons rfl (.cons rfl (.cons ?_ (.nil _)))))
    rfl
  · exact ⟨1, _, rfl, .single ⟨_, rfl, by simp⟩, by decide, rfl, rfl⟩
  · exact ⟨1, _, rfl, .single ⟨_, rfl, by simp⟩, by decide, rfl, rfl⟩
  · decide

end DispService.StatesStore
