import DispService.StatesStore.XmlRoundTrip

/-! Reading any document, accepted or not. The tree that `Load` leaves is linked both ways and has
one current node or none: the last one that the parser met. -/
namespace DispService.StatesStore

open DispService.Lib Forest

/-- The marks of a tree: on none of its nodes or on one. -/
def Placed (m : Marks) (t : Forest Snapshot) : Prop :=
  m = nowhere ∨ ∃ c l, m = marksAt c l ∧ c ∈ t.addrs

theorem Placed.inside {m : Marks} {t : Forest Snapshot} (placed : Placed m t) {a : Nat}
    (ha : a ∉ t.addrs) : m a = none := by
  rcases placed with rfl | ⟨c, l, rfl, hc⟩
  · rfl
  · exact marksAt_ne (ne_of_mem_of_not_mem hc ha).symm l

theorem Placed.mono {m : Marks} {t t' : Forest Snapshot} (placed : Placed m t)
    (sub : ∀ a ∈ t.addrs, a ∈ t'.addrs) : Placed m t' :=
  placed.imp_right fun ⟨c, l, hm, hc⟩ => ⟨c, l, hm, sub c hc⟩

/-! ## What the parser meets -/

/-- The sibling after a mandatory element. -/
def afterElement (elem : Dom) (tag : String) : Option Dom :=
  match elem with
  | .element name _ _ next => if name = tag then some next else none
  | _ => none

/-- The sibling after the optional runtime element. -/
def afterRuntime : Dom → Dom
  | .element name attributes childs next =>
      if name = "Runtime" then next else .element name attributes childs next
  | elem => elem

/-- The siblings that the loop over the items starts at, when no property is missing. -/
def itemsOf (childs : Dom) : Option Dom := do
  let elem ← afterElement childs.firstElement "Name"
  let elem ← afterElement elem "DateTime"
  let elem ← afterElement elem "Creator"
  let elem ← afterElement elem "ScreenShot"
  let elem ← afterElement elem "Description"
  return afterRuntime elem

def isCurrentMark (attributes : Attributes) : Bool :=
  let current := attributes.attribute "current"
  current ≠ "" ∧ toLower current = "yes"

/-- An item with the current mark is among the siblings or inside them. Before the first element
other nodes are skipped, after it they end the list. -/
def marksCurrent : Bool → Dom → Bool
  | _, .nil => false
  | _, .element tag attributes childs next =>
      tag == "SavedStateItem" && (isCurrentMark attributes || marksCurrent false childs) ||
        marksCurrent true next
  | started, .text _ next => !started && marksCurrent false next
  | started, .cdata _ next => !started && marksCurrent false next

/-- An item is among the siblings. -/
def hasItems : Bool → Dom → Bool
  | _, .nil => false
  | _, .element tag _ _ next => tag == "SavedStateItem" || hasItems true next
  | started, .text _ next => !started && hasItems false next
  | started, .cdata _ next => !started && hasItems false next

theorem marksCurrent_firstElement (childs : Dom) :
    marksCurrent true childs.firstElement = marksCurrent false childs := by
  induction childs with
  | nil => rfl
  | element tag attributes childs next _ _ => rfl
  | text value next ih => simpa [marksCurrent, Dom.firstElement] using ih
  | cdata value next ih => simpa [marksCurrent, Dom.firstElement] using ih

theorem hasItems_firstElement (childs : Dom) :
    hasItems true childs.firstElement = hasItems false childs := by
  induction childs with
  | nil => rfl
  | element tag attributes childs next _ _ => rfl
  | text value next ih => simpa [hasItems, Dom.firstElement] using ih
  | cdata value next ih => simpa [hasItems, Dom.firstElement] using ih

/-- A property is no item: what follows it holds the same items. -/
structure SameItems (elem next : Dom) : Prop where
  marks : marksCurrent true next = marksCurrent true elem
  items : hasItems true next = hasItems true elem
  depth : next.depth ≤ elem.depth

theorem SameItems.trans {d e f : Dom} (first : SameItems d e) (second : SameItems e f) :
    SameItems d f :=
  ⟨second.marks.trans first.marks, second.items.trans first.items,
    Nat.le_trans second.depth first.depth⟩

theorem sameItems_afterElement {elem next : Dom} {tag : String} (htag : tag ≠ "SavedStateItem")
    (hafter : afterElement elem tag = some next) : SameItems elem next := by
  cases elem with
  | nil => cases hafter
  | text value d => cases hafter
  | cdata value d => cases hafter
  | element name attributes childs d =>
      by_cases hname : name = tag
      · subst hname
        simp only [afterElement, if_true, Option.some.injEq] at hafter
        subst hafter
        have hno : (name == "SavedStateItem") = false := by simpa using htag
        exact ⟨by simp [marksCurrent, hno], by simp [hasItems, hno], by simp [Dom.depth]⟩
      · simp [afterElement, hname] at hafter

theorem sameItems_afterRuntime (elem : Dom) : SameItems elem (afterRuntime elem) := by
  cases elem with
  | nil => exact ⟨rfl, rfl, Nat.le_refl _⟩
  | text value d => exact ⟨rfl, rfl, Nat.le_refl _⟩
  | cdata value d => exact ⟨rfl, rfl, Nat.le_refl _⟩
  | element name attributes childs d =>
      by_cases hname : name = "Runtime"
      · subst hname
        exact ⟨by simp [afterRuntime, marksCurrent], by simp [afterRuntime, hasItems],
          by simp [afterRuntime, Dom.depth]⟩
      · rw [afterRuntime, if_neg hname]
        exact ⟨rfl, rfl, Nat.le_refl _⟩

theorem depth_firstElement (d : Dom) : d.firstElement.depth ≤ d.depth := by
  induction d with
  | nil => exact Nat.le_refl _
  | element tag attributes childs next _ _ => exact Nat.le_refl _
  | text value next ih => exact ih
  | cdata value next ih => exact ih

/-- The items of an element are those among all its child nodes. -/
theorem itemsOf_spec {childs items : Dom} (hitems : itemsOf childs = some items) :
    marksCurrent true items = marksCurrent false childs ∧
      hasItems true items = hasItems false childs ∧ items.depth ≤ childs.depth := by
  unfold itemsOf at hitems
  simp only [Option.bind_eq_bind, Option.bind_eq_some_iff, Option.pure_def, Option.some.injEq]
    at hitems
  obtain ⟨d₁, h₁, d₂, h₂, d₃, h₃, d₄, h₄, d₅, h₅, rfl⟩ := hitems
  have hsame := ((((sameItems_afterElement (by decide) h₁).trans
    (sameItems_afterElement (by decide) h₂)).trans
    (sameItems_afterElement (by decide) h₃)).trans
    (sameItems_afterElement (by decide) h₄)).trans
    (sameItems_afterElement (by decide) h₅)
  have hall := hsame.trans (sameItems_afterRuntime d₅)
  exact ⟨hall.marks.trans (marksCurrent_firstElement childs),
    hall.items.trans (hasItems_firstElement childs),
    Nat.le_trans hall.depth (depth_firstElement childs)⟩

/-! ## One element -/

section Element

variable {h : TreeHeap} {m : Marks} {C : Context Snapshot} {u : Snapshot} {d : Forest Snapshot}

/-- A parse of properties of the node `C.addr` stops where one is missing, or goes on with `rest`
at the next sibling. The tree changes in the values of the node only. -/
def Parses (m : Marks) (C : Context Snapshot) (d : Forest Snapshot)
    (rest : TreeHeap → Dom → Parsed) (next : Option Dom) (parsed : Parsed) : Prop :=
  match next with
  | none => ∃ code k w, code ≠ .rcSuccess ∧ Holds k m (C.plug w d) [] ∧ parsed = some (code, k)
  | some items => ∃ k w, Holds k m (C.plug w d) [] ∧ parsed = rest k items

theorem parseElement_any {set : Dom → SavedState → SavedState} {tag : String} {elem : Dom}
    {missing : SnapshotReturnCode} {rest rest' : TreeHeap → Dom → Parsed}
    {after : Dom → Option Dom} (holds : Holds h m (C.plug u d) []) (hcode : missing ≠ .rcSuccess)
    (hset : ∀ childs (w : Snapshot) b, ∃ w' : Snapshot, set childs (w.state b) = w'.state b)
    (then_ : ∀ k w next, Holds k m (C.plug w d) [] →
      Parses m C d rest' (after next) (rest k next)) :
    Parses m C d rest' ((afterElement elem tag).bind after)
      (parseElement h C.addr elem tag missing set rest) := by
  cases elem with
  | nil => exact ⟨missing, h, u, hcode, holds, rfl⟩
  | text value next => exact ⟨missing, h, u, hcode, holds, rfl⟩
  | cdata value next => exact ⟨missing, h, u, hcode, holds, rfl⟩
  | element name attributes childs next =>
      by_cases hname : name = tag
      · obtain ⟨w, hw⟩ := hset childs u (m C.addr).isSome
        obtain ⟨k, hstate, hholds, _⟩ := holds.setState hw
        simpa [afterElement, parseElement, hname, hstate] using then_ k w next hholds
      · simp only [afterElement, parseElement, hname, if_false, Option.bind_none]
        exact ⟨missing, h, u, hcode, holds, rfl⟩

theorem parseRuntime_any {elem : Dom} {rest : TreeHeap → Dom → Parsed}
    (holds : Holds h m (C.plug u d) []) :
    Parses m C d rest (some (afterRuntime elem)) (parseRuntime h C.addr elem rest) := by
  cases elem with
  | nil => exact ⟨h, u, holds, rfl⟩
  | text value next => exact ⟨h, u, holds, rfl⟩
  | cdata value next => exact ⟨h, u, holds, rfl⟩
  | element name attributes childs next =>
      by_cases hname : name = "Runtime"
      · obtain ⟨k, hstate, hholds, _⟩ := Holds.setState (u := u)
          (φ := fun w => { w with runtime := readRuntime childs.firstElement w.runtime })
          (w := { u with runtime := readRuntime childs.firstElement u.runtime }) holds rfl
        exact ⟨k, _, hholds, by simp [parseRuntime, afterRuntime, hname, hstate]⟩
      · exact ⟨h, u, holds, by simp [parseRuntime, afterRuntime, hname]⟩

theorem parseProperties_any (childs : Dom) (rest : TreeHeap → Dom → Parsed)
    (holds : Holds h m (C.plug u d) []) :
    Parses m C d rest (itemsOf childs) (parseProperties h C.addr childs rest) := by
  refine parseElement_any holds (by decide)
    (fun childs w b => ⟨{ w with name := childs.innerText }, rfl⟩) fun h u elem holds => ?_
  refine parseElement_any holds (by decide)
    (fun childs w b => ⟨{ w with dateTime := childs.innerText }, rfl⟩) fun h u elem holds => ?_
  refine parseElement_any holds (by decide)
    (fun childs w b => ⟨{ w with creator := childs.innerText }, rfl⟩) fun h u elem holds => ?_
  refine parseElement_any holds (by decide)
    (fun childs w b => ⟨{ w with screenShot := childs.innerText }, rfl⟩) fun h u elem holds => ?_
  refine parseElement_any holds (by decide)
    (fun childs w b => ⟨{ w with description := descriptionOf childs }, rfl⟩)
    fun h u elem holds => ?_
  exact parseRuntime_any holds

end Element

/-! ## The whole document -/

/-- The marks after a part of the document is read into the nodes `g`: where they were, or on the
last node of `g` that is marked current. -/
def ReadMarks (marked : Bool) (m m' : Marks) (g : Forest Snapshot) : Prop :=
  if marked then ∃ c l, m' = marksAt c l ∧ c ∈ g.addrs else m' = m

theorem ReadMarks.append {b b' : Bool} {m m' m'' : Marks} {g g' : Forest Snapshot}
    (first : ReadMarks b m m' g) (second : ReadMarks b' m' m'' g') :
    ReadMarks (b || b') m m'' (g.append g') := by
  unfold ReadMarks at *
  cases b' with
  | true =>
      obtain ⟨c, l, hm, hc⟩ := second
      rw [Bool.or_true, if_pos rfl]
      exact ⟨c, l, hm, by simp [hc]⟩
  | false =>
      rw [if_neg (by simp)] at second
      subst second
      cases b with
      | true =>
          obtain ⟨c, l, hm, hc⟩ := first
          exact ⟨c, l, hm, by simp [hc]⟩
      | false => exact first

theorem ReadMarks.node {b b' : Bool} {m m' : Marks} {a l : Nat} {v : Snapshot}
    {g : Forest Snapshot} (childs : ReadMarks b' (if b then marksAt a l else m) m' g) :
    ReadMarks (b || b') m m' (node a v g nil) := by
  unfold ReadMarks at *
  cases b' with
  | true =>
      obtain ⟨c, l', hm, hc⟩ := childs
      rw [Bool.or_true, if_pos rfl]
      exact ⟨c, l', hm, by simp [hc]⟩
  | false =>
      rw [if_neg (by simp)] at childs
      subst childs
      cases b with
      | true => exact ⟨a, l, rfl, by simp⟩
      | false => rfl

section Document

variable {h : TreeHeap} {m : Marks} {C : Context Snapshot} {u : Snapshot} {d : Forest Snapshot}
  {r : Nat}

/-- What the loop over the items leaves, whatever it meets. -/
def ReadsItems (fuel : Nat) (elem : Dom) : Prop :=
  ∀ {h : TreeHeap} {m : Marks} {C : Context Snapshot} {u : Snapshot} {d : Forest Snapshot} {r : Nat},
    Holds h m (C.plug u d) [] → Placed m (C.plug u d) → C.roots = [r] →
    ∃ code k g m', parseItems (recursiveParseClassProperties fuel) C.addr h elem =
        some (code, k) ∧
      Holds k m' (C.plug u (d.append g)) [] ∧ Placed m' (C.plug u (d.append g)) ∧
      (code = .rcSuccess → ReadMarks (marksCurrent true elem) m m' g ∧
        (g = nil ↔ hasItems true elem = false))

/-- What an element leaves in its fresh node. -/
theorem readsNode {fuel : Nat} (attributes : Attributes) {childs : Dom}
    (items : ∀ d, itemsOf childs = some d → ReadsItems fuel d)
    (holds : Holds h m (C.plug {} nil) []) (placed : Placed m (C.plug {} nil))
    (hroots : C.roots = [r]) (fresh : m C.addr = none) :
    ∃ code k w c m', recursiveParseClassProperties (fuel + 1)
        ⟨"SavedStateItem", attributes, childs⟩ h C.addr = some (code, k) ∧
      Holds k m' (C.plug w c) [] ∧ Placed m' (C.plug w c) ∧
      (code = .rcSuccess →
        ReadMarks (isCurrentMark attributes || marksCurrent false childs) m m'
          (node C.addr w c nil) ∧
        (c = nil ↔ hasItems false childs = false)) := by
  have hstored := holds.stored
  rw [mark_plug] at hstored
  have hread := (Context.stored_plug.mp hstored).1
  rw [addr_markContext] at hread
  by_cases hguid : attributes.attribute "guid" = "" ∧
      (markContext m C).parent none ≠ none
  · refine ⟨.badSnapshotGuid, h, {}, nil, m, ?_, holds, placed, fun hcode => by cases hcode⟩
    rw [recursiveParseClassProperties]
    simp only [hread, Option.bind_eq_bind, Option.bind_some]
    rw [if_neg (by simp), if_pos hguid]
    rfl
  · obtain ⟨h₁, hset₁, holds₁, hnext₁⟩ := Holds.setState
      (φ := fun w => { w with guid := attributes.attribute "guid" })
      (w := { guid := attributes.attribute "guid" }) holds rfl
    obtain ⟨h₂, hset₂, holds₂⟩ := setCurrent_fresh holds₁ hroots fresh (isCurrentMark attributes)
    obtain ⟨h₃, hset₃, holds₃, hnext₃⟩ := Holds.setState
      (φ := fun w => { w with vmState := vmStateOf (attributes.attribute "state") })
      (w := { guid := attributes.attribute "guid"
              vmState := vmStateOf (attributes.attribute "state") }) holds₂ rfl
    let rest : TreeHeap → Dom → Parsed := fun h elem =>
      parseItems (recursiveParseClassProperties fuel) C.addr h elem
    have hparse : recursiveParseClassProperties (fuel + 1)
        ⟨"SavedStateItem", attributes, childs⟩ h C.addr =
        parseProperties h₃ C.addr childs rest := by
      rw [recursiveParseClassProperties]
      simp only [hread, Option.bind_eq_bind, Option.bind_some]
      rw [if_neg (by simp), if_neg hguid, hset₁, Option.bind_some]
      simp only [isCurrentMark] at hset₂
      rw [hset₂, Option.bind_some, hset₃, Option.bind_some]
    have hplaced : Placed (if isCurrentMark attributes then marksAt C.addr h₁.next else m)
        (C.plug {} nil) := by
      by_cases hmark : isCurrentMark attributes = true
      · rw [if_pos hmark]
        exact .inr ⟨_, _, rfl, Context.mem_addrs_plug.mpr (.inl rfl)⟩
      · rwa [if_neg hmark]
    have hsame : ∀ w w' : Snapshot, (C.plug w nil).addrs ⊆ (C.plug w' nil).addrs := by
      intro w w' a ha
      rwa [Context.mem_addrs_plug] at ha ⊢
    have hproperties := parseProperties_any childs rest holds₃
    rw [hparse]
    cases hitems : itemsOf childs with
    | none =>
        rw [hitems] at hproperties
        obtain ⟨code, k, w, hcode, holdsk, heq⟩ := hproperties
        exact ⟨code, k, w, nil, _, heq, holdsk, hplaced.mono fun a ha => hsame {} w ha,
          fun hok => absurd hok hcode⟩
    | some d =>
        rw [hitems] at hproperties
        obtain ⟨k₁, w, holdsk₁, heq⟩ := hproperties
        obtain ⟨code, k, c, m', hrun, holdsk, hplaced', hok⟩ := items d hitems holdsk₁
          (hplaced.mono fun a ha => hsame {} w ha) hroots
        rw [nil_append] at holdsk hplaced'
        obtain ⟨hmarks, hitem, _⟩ := itemsOf_spec hitems
        refine ⟨code, k, w, c, m', heq.trans hrun, holdsk, hplaced', fun hcode => ?_⟩
        obtain ⟨hread', hnil⟩ := hok hcode
        rw [hmarks] at hread'
        rw [hitem] at hnil
        exact ⟨hread'.node, hnil⟩

/-- The loop ends at a node that is no element. -/
theorem readsItems_end {fuel : Nat} {elem : Dom} (marks : marksCurrent true elem = false)
    (items : hasItems true elem = false)
    (stop : ∀ h a, parseItems (recursiveParseClassProperties fuel) a h elem =
      some (.rcSuccess, h)) : ReadsItems fuel elem := by
  intro h m C u d r holds placed hroots
  refine ⟨.rcSuccess, h, nil, m, stop h C.addr, by simpa using holds, by simpa using placed,
    fun _ => ⟨?_, by simp [items]⟩⟩
  simp [ReadMarks, marks]

theorem readsItems (fuel : Nat) (elem : Dom) (hfuel : elem.depth ≤ fuel) :
    ReadsItems fuel elem := by
  induction fuel generalizing elem with
  | zero =>
      cases elem with
      | nil => exact readsItems_end rfl rfl fun _ _ => rfl
      | text value next => exact readsItems_end rfl rfl fun _ _ => rfl
      | cdata value next => exact readsItems_end rfl rfl fun _ _ => rfl
      | element tag attributes childs next => simp [Dom.depth] at hfuel
  | succ fuel ihf =>
      induction elem with
      | nil => exact readsItems_end rfl rfl fun _ _ => rfl
      | text value next _ => exact readsItems_end rfl rfl fun _ _ => rfl
      | cdata value next _ => exact readsItems_end rfl rfl fun _ _ => rfl
      | element tag attributes childs next _ ihs =>
          simp only [Dom.depth] at hfuel
          have hrest : ReadsItems (fuel + 1) next := ihs (by omega)
          intro h m C u d r holds placed hroots
          by_cases htag : tag = "SavedStateItem"
          · subst htag
            have hnew : h.next ∉ (C.plug u d).addrs := fun hmem =>
              absurd (holds.lt_next hmem) (Nat.lt_irrefl _)
            obtain ⟨h₁, C', hadd, haddr, hroots', hplug, holds₁⟩ :=
              newChild_spec holds (placed.inside hnew)
            have hin : ∀ a ∈ (C.plug u d).addrs, a ∈ (C'.plug {} nil).addrs := by
              intro a ha
              simp only [hplug, Context.mem_addrs_plug, addrs_append, List.mem_append] at ha ⊢
              tauto
            have hchilds : ∀ e, itemsOf childs = some e → ReadsItems fuel e := by
              intro e he
              exact ihf e (by have hdepth := (itemsOf_spec he).2.2; omega)
            obtain ⟨code, k, w, c, m₁, hparse, holdsk, hplaced, hok⟩ :=
              readsNode attributes hchilds holds₁ (placed.mono hin)
                (hroots'.trans hroots) (haddr ▸ placed.inside hnew)
            rw [haddr] at hparse hok
            rw [hplug] at holdsk hplaced
            by_cases hcode : code = .rcSuccess
            · subst hcode
              obtain ⟨code', k', g, m', hparses, holdsk', hplaced', hok'⟩ :=
                hrest holdsk hplaced hroots
              rw [append_assoc] at holdsk' hplaced'
              refine ⟨code', k', (node h.next w c nil).append g, m', ?_, holdsk', hplaced',
                fun hcode' => ⟨?_, ?_⟩⟩
              · simp [parseItems, newNode, Heap.modify_alloc, hadd, hparse, hparses]
              · have hread := (hok rfl).1.append (hok' hcode').1
                simpa [marksCurrent] using hread
              · simp [hasItems]
            · refine ⟨code, k, node h.next w c nil, m₁, ?_, holdsk, hplaced,
                fun hok' => absurd hok' hcode⟩
              simp [parseItems, newNode, Heap.modify_alloc, hadd, hparse, hcode]
          · obtain ⟨code, k, g, m', hparse, holdsk, hplaced, hok⟩ := hrest holds placed hroots
            refine ⟨code, k, g, m', ?_, holdsk, hplaced, fun hcode => ?_⟩
            · simpa [parseItems, htag] using hparse
            · have hno : (tag == "SavedStateItem") = false := by simpa using htag
              simpa [marksCurrent, hasItems, hno] using hok hcode

end Document

/-- Some node of the document is marked current, the head included. -/
def documentMarks : Dom → Bool
  | .element _ attributes childs _ => isCurrentMark attributes || marksCurrent false childs
  | _ => false

/-- The document holds a snapshot. -/
def documentItems : Dom → Bool
  | .element _ _ childs _ => hasItems false childs
  | _ => false

theorem holds_newHead {h : TreeHeap} (empty : ∀ b n, h.read b ≠ some n) :
    Holds (h.alloc (newNode {})) nowhere (node h.next {} nil nil) [] := by
  refine ⟨⟨Heap.read_alloc_next _ _, trivial, trivial⟩, by simp, by simp, ?_⟩
  intro b n hb
  refine .inl ?_
  by_cases hbr : b = h.next
  · simp [hbr]
  · rw [Heap.read_alloc, if_neg hbr] at hb
    exact absurd hb (empty b n)

/-- The store after a `Load`: it is empty, or it holds a tree with its marks. -/
inductive Loaded (document : Dom) (t : SavedStateStore) (code : SnapshotReturnCode) : Prop
  | empty (root : t.root = none) (empty : ∀ b n, t.heap.read b ≠ some n)
      (refused : code ≠ .rcSuccess)
  | tree (r : Nat) (v : Snapshot) (f : Forest Snapshot) (m : Marks) (root : t.root = some r)
      (holds : Holds t.heap m (node r v f nil) []) (placed : Placed m (node r v f nil))
      (accepted : code = .rcSuccess →
        ReadMarks (documentMarks document) nowhere m (node r v f nil) ∧
        (f = nil ↔ documentItems document = false))

/-- `Load` ends on every document. The current node of an accepted tree is the last one that the
document marks, if any. -/
theorem load_any {s₀ s₁ : SavedStateStore} {code₁ : SnapshotReturnCode}
    (cleared : deleteBranch s₀ s₀.root = some (code₁, s₁)) (hroot : s₁.root = none)
    (hempty : ∀ b n, s₁.heap.read b ≠ some n) (document : Dom) :
    ∃ code t, load s₀ document = some (code, t) ∧ Loaded document t code := by
  cases document with
  | nil => exact ⟨.emptySnapshotTree, s₁, by simp [load, cleared],
      .empty hroot hempty (fun h => by cases h)⟩
  | text value next => exact ⟨.badSnapshotTree, s₁, by simp [load, cleared],
      .empty hroot hempty (fun h => by cases h)⟩
  | cdata value next => exact ⟨.badSnapshotTree, s₁, by simp [load, cleared],
      .empty hroot hempty (fun h => by cases h)⟩
  | element tag attributes childs next =>
      have hhead := holds_newHead hempty
      by_cases htag : tag = "SavedStateItem"
      · subst htag
        have hitems : ∀ d, itemsOf childs = some d → ReadsItems childs.depth d := by
          intro d hd
          exact readsItems _ _ (itemsOf_spec hd).2.2
        obtain ⟨code, k, w, c, m', hparse, holdsk, hplaced, hok⟩ := readsNode
          (C := .hole s₁.heap.next nil) attributes hitems hhead (.inl rfl) rfl rfl
        refine ⟨code, ⟨k, some s₁.heap.next⟩, ?_, .tree _ w c m' rfl holdsk hplaced hok⟩
        simp only [Context.addr] at hparse
        simp [load, cleared, readXml, cleanup_fresh, hparse]
      · refine ⟨.badSnapshotTree, ⟨s₁.heap.alloc (newNode {}), some s₁.heap.next⟩, ?_,
          .tree _ {} nil nowhere rfl hhead (.inl rfl) fun h => by cases h⟩
        simp [load, cleared, readXml, cleanup_fresh, htag]

end DispService.StatesStore
