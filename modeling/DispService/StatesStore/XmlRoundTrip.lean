import DispService.StatesStore.StoreRuns
import DispService.StatesStore.Xml

/-! What is written is read back. `xmlOf` is the document that a marked forest is
written to; the reader rebuilds the forest under new addresses and moves the marks
to the node that carries them. -/
namespace DispService.StatesStore

open DispService.Lib Forest

/-- The items that the snapshots of a forest are written to. -/
def xmlOf (m : Marks) : Forest Snapshot → Dom
  | nil => .nil
  | node a v c s =>
      .element "SavedStateItem" (stateAttributes (v.state (m a).isSome))
        ((propertyElements (v.state (m a).isSome) true).append (xmlOf m c)) (xmlOf m s)

section Write

theorem appendItems_append (w : Nat → Option (Attributes × Dom)) (xs ys : List Nat) :
    appendItems w (xs ++ ys) = do
      let first ← appendItems w xs
      let second ← appendItems w ys
      return first.append second := by
  induction xs with
  | nil => simp [appendItems]
  | cons x xs ih =>
      rw [List.cons_append, appendItems, appendItems, ih]
      cases w x with
      | none => rfl
      | some item =>
          cases appendItems w xs with
          | none => rfl
          | some first =>
              by_cases hchilds : item.2.hasChildNodes
              · simp [hchilds, Option.bind_assoc]
              · simp [hchilds]

theorem appendItems_spec {h : TreeHeap} {p : Option Nat} {m : Marks} {f : Forest Snapshot}
    {fuel : Nat} (stored : Stored h p (mark m f)) (hfuel : (mark m f).depth ≤ fuel) :
    appendItems (appendClassProperties true fuel h) f.roots = some (xmlOf m f) := by
  induction f generalizing p fuel with
  | nil => rfl
  | node a v c s ihc ihs =>
      obtain ⟨hread, hchilds, hsiblings⟩ := stored
      simp only [mark_node, depth] at hfuel
      have hs := ihs hsiblings (show (mark m s).depth ≤ fuel by omega)
      cases fuel with
      | zero => omega
      | succ fuel =>
          rw [stored_append] at hchilds
          have hdepth : ((mark m c).append (leafOf (m a))).depth ≤ fuel := by omega
          rw [depth_append] at hdepth
          have hc := ihc hchilds.1 (show (mark m c).depth ≤ fuel by omega)
          have hleaf : appendItems (appendClassProperties true fuel h) (leafOf (m a)).roots =
              some .nil := by
            cases hm : m a with
            | none => rfl
            | some l =>
                rw [hm] at hchilds hdepth
                obtain ⟨hreadl, _, _⟩ := hchilds.2
                cases fuel with
                | zero => simp [depth] at hdepth
                | succ fuel => simp [appendItems, appendClassProperties, hreadl, Dom.hasChildNodes]
          have hwrite : appendClassProperties true (fuel + 1) h a =
              some (stateAttributes (v.state (m a).isSome),
                (propertyElements (v.state (m a).isSome) true).append (xmlOf m c)) := by
            simp [appendClassProperties, hread, appendItems_append, hc, hleaf]
          have hchildNodes : ((propertyElements (v.state (m a).isSome) true).append
              (xmlOf m c)).hasChildNodes := rfl
          rw [roots_node, appendItems, hwrite, hs]
          simp [xmlOf, hchildNodes]

/-- The element that a tree with the head `v` is written to. -/
def headElement (m : Marks) (r : Nat) (v : Snapshot) (f : Forest Snapshot) : DomElement :=
  ⟨"SavedStateItem", stateAttributes (v.state (m r).isSome),
    (propertyElements (v.state (m r).isSome) true).append (xmlOf m f)⟩

theorem getXml_spec {h : TreeHeap} {m : Marks} {r : Nat} {v : Snapshot} {f : Forest Snapshot}
    {detached : List Nat} (holds : Holds h m (node r v f nil) detached) :
    getXml h r true = some (headElement m r v f) := by
  have hitems := appendItems_spec holds.stored (holds.stored.depth_le_next holds.nodup)
  rw [roots_node, roots_nil, appendItems, appendItems] at hitems
  cases hwrite : appendClassProperties true h.next h r with
  | none => simp [hwrite] at hitems
  | some item =>
      by_cases hchilds : item.2.hasChildNodes
      · simp [hwrite, hchilds, xmlOf] at hitems
        simp [getXml, hwrite, hitems, headElement]
      · simp [hwrite, hchilds, xmlOf] at hitems

end Write

section Fields

theorem isWhitespace_of_isDigit {c : Char} (h : c.isDigit) : c.isWhitespace = false := by
  by_contra hspace
  rw [Bool.not_eq_false] at hspace
  simp only [Char.isWhitespace, Bool.or_eq_true, decide_eq_true_eq] at hspace
  rcases hspace with ((rfl | rfl) | rfl) | rfl <;> exact absurd h (by decide)

theorem dropWhile_isWhitespace {cs : List Char} (h : ∀ c ∈ cs, c.isDigit) :
    cs.dropWhile Char.isWhitespace = cs := by
  cases cs with
  | nil => rfl
  | cons c cs => simp [isWhitespace_of_isDigit (h c (by simp))]

theorem toUnsigned_repr {bound n : Nat} (hn : n < bound) : toUnsigned bound n.repr = n := by
  have hdigits : ∀ c ∈ n.repr.toList, c.isDigit := by
    intro c hc
    rw [Nat.toList_repr] at hc
    exact Nat.isDigit_of_mem_toDigits (by omega) (by omega) hc
  have hreverse : ∀ c ∈ n.repr.toList.reverse, c.isDigit := by
    intro c hc
    exact hdigits c (List.mem_reverse.mp hc)
  have hplus : n.repr.toList.head? ≠ some '+' := by
    intro hhead
    exact absurd (hdigits '+' (List.mem_of_mem_head? hhead)) (by decide)
  have hvalue : Nat.ofDigitChars 10 n.repr.toList 0 = n := by simp
  have hall : n.repr.toList.all Char.isDigit = true := List.all_eq_true.mpr hdigits
  simp only [toUnsigned, dropWhile_isWhitespace hdigits, dropWhile_isWhitespace hreverse,
    List.reverse_reverse, if_neg hplus, hvalue, hall, hn]
  simp

theorem vmStateOf_value (x : SnapshotedVmState) : vmStateOf (vmStateValue x) = x := by
  cases x with
  | poweredOff => decide
  | running => decide
  | paused => decide
  | suspended => decide

theorem readRuntime_spec (rt : Runtime) :
    readRuntime ((Dom.textElement "Size" rt.nSize.toNat.repr).append
      (Dom.textElement "OsVersion" rt.nOsVersion.toNat.repr)).firstElement {} = rt := by
  have hsize : toUnsigned (2 ^ 64) rt.nSize.toNat.repr = rt.nSize.toNat :=
    toUnsigned_repr rt.nSize.toNat_lt
  have hos : toUnsigned (2 ^ 32) rt.nOsVersion.toNat.repr = rt.nOsVersion.toNat :=
    toUnsigned_repr rt.nOsVersion.toNat_lt
  simp only [Dom.textElement, Dom.element_append, Dom.nil_append, Dom.firstElement, readRuntime,
    Dom.innerText_text, hsize, hos]
  simp

variable (v : Snapshot) (b : Bool)

theorem guid_stateAttributes : (stateAttributes (v.state b)).attribute "guid" = v.guid := by
  cases b with
  | false => simp [stateAttributes, Attributes.attribute, Attributes.setAttribute]
  | true => simp [stateAttributes, Attributes.attribute, Attributes.setAttribute]

theorem current_stateAttributes :
    decide ((stateAttributes (v.state b)).attribute "current" ≠ "" ∧
      toLower ((stateAttributes (v.state b)).attribute "current") = "yes") = b := by
  cases b with
  | false => simp [stateAttributes, Attributes.attribute, Attributes.setAttribute, List.lookup_cons]
  | true =>
      have hyes : toLower "yes" = "yes" := by decide
      simp [stateAttributes, Attributes.attribute, Attributes.setAttribute, List.lookup_cons, hyes]

theorem state_stateAttributes :
    (stateAttributes (v.state b)).attribute "state" = vmStateValue v.vmState := by
  cases b with
  | false => simp [stateAttributes, Attributes.attribute, Attributes.setAttribute, List.lookup_cons]
  | true => simp [stateAttributes, Attributes.attribute, Attributes.setAttribute, List.lookup_cons]

end Fields

section Read

theorem eq_tree_of_roots {α : Type} {f : Forest α} {r : Nat} (h : f.roots = [r]) :
    ∃ v c, f = node r v c nil := by
  cases f with
  | nil => cases h
  | node a v c s =>
      obtain ⟨rfl, hs⟩ := List.cons.inj h
      exact ⟨v, c, by rw [roots_eq_nil.mp hs]⟩

variable {h : TreeHeap} {m : Marks} {C : Context Snapshot} {u v w : Snapshot}
  {d : Forest Snapshot} {detached : List Nat}

theorem Holds.setState {φ : SavedState → SavedState} (holds : Holds h m (C.plug u d) detached)
    (hφ : φ (u.state (m C.addr).isSome) = w.state (m C.addr).isSome) :
    ∃ k, StatesStore.setState h C.addr φ = some k ∧ Holds k m (C.plug w d) detached ∧
      k.next = h.next := by
  have hstored := holds.stored
  have hnodup := holds.nodup
  rw [mark_plug] at hstored hnodup
  obtain ⟨hread, hchilds, hcontext⟩ := Context.stored_plug.mp hstored
  obtain ⟨had, haC, _, _, _⟩ := nodup_hole hnodup
  rw [addr_markContext] at hread hchilds had haC
  have haddrs : (mark m (C.plug w d)).addrs.Perm (mark m (C.plug u d)).addrs := by
    rw [mark_plug, mark_plug]
    exact ((markContext m C).addrs_plug _ _).trans ((markContext m C).addrs_plug _ _).symm
  refine ⟨h.put C.addr _, Heap.modify_of_read hread _, ⟨?_, ?_, ?_, ?_⟩, Heap.next_put _ _ _⟩
  · rw [mark_plug, Context.stored_plug, addr_markContext]
    refine ⟨?_, ?_, ?_⟩
    · rw [Heap.read_put_self hread, hφ]
    · exact hchilds.frame fun b hb => Heap.read_put_ne h (ne_of_mem_of_not_mem hb had) _
    · exact hcontext.frame fun b hb => Heap.read_put_ne h (ne_of_mem_of_not_mem hb haC) _
  · exact haddrs.nodup_iff.mpr holds.nodup
  · intro b hb
    rw [haddrs.mem_iff]
    exact holds.apart b hb
  · intro b n hb
    rw [haddrs.mem_iff]
    by_cases hba : b = C.addr
    · refine .inl (mem_addrs_mark.mpr (.inl ?_))
      rw [(C.addrs_plug u d).mem_iff, hba]
      exact List.mem_cons_self
    · rw [Heap.read_put_ne h hba] at hb
      exact holds.only b n hb

theorem parseElement_spec (set : Dom → SavedState → SavedState) (childs : Dom)
    (holds : Holds h m (C.plug u d) detached)
    (hset : set childs (u.state (m C.addr).isSome) = w.state (m C.addr).isSome) :
    ∃ k, Holds k m (C.plug w d) detached ∧ k.next = h.next ∧
      ∀ tag missing next rest,
        parseElement h C.addr (.element tag [] childs next) tag missing set rest =
          rest k next := by
  obtain ⟨k, hstate, hholds, hnext⟩ := holds.setState hset
  refine ⟨k, hholds, hnext, ?_⟩
  intro tag missing next rest
  simp [parseElement, hstate]

theorem parseRuntime_spec (holds : Holds h m (C.plug u d) detached) (hu : u.runtime = {})
    (rt : Runtime) :
    ∃ k, Holds k m (C.plug { u with runtime := rt } d) detached ∧ k.next = h.next ∧
      ∀ next rest, parseRuntime h C.addr ((runtimeElement rt).append next) rest =
        rest k next := by
  let childs := (Dom.textElement "Size" rt.nSize.toNat.repr).append
    (Dom.textElement "OsVersion" rt.nOsVersion.toNat.repr)
  let φ : SavedState → SavedState := fun w =>
    { w with runtime := readRuntime childs.firstElement w.runtime }
  have hset : φ (u.state (m C.addr).isSome) =
      Snapshot.state { u with runtime := rt } (m C.addr).isSome := by
    have hold : (u.state (m C.addr).isSome).runtime = {} := hu
    simp only [φ, hold, childs, readRuntime_spec]
    rfl
  obtain ⟨k, hstate, hholds, hnext⟩ := holds.setState hset
  refine ⟨k, hholds, hnext, ?_⟩
  intro next rest
  simp only [φ, childs] at hstate
  simp [parseRuntime, runtimeElement, hstate]

/-- The properties are read back in the order in which they are written. -/
theorem parseProperties_spec (holds : Holds h m (C.plug u d) detached)
    (hguid : u.guid = v.guid) (hstate : u.vmState = v.vmState) (hruntime : u.runtime = {}) :
    ∃ k, Holds k m (C.plug v d) detached ∧ k.next = h.next ∧
      ∀ b items rest,
        parseProperties h C.addr ((propertyElements (v.state b) true).append items) rest =
          rest k items := by
  obtain ⟨h₁, holds₁, hnext₁, hname⟩ := parseElement_spec
    (fun childs v => { v with name := childs.innerText }) (.text v.name .nil) holds
    (by rw [Dom.innerText_text]; rfl)
  obtain ⟨h₂, holds₂, hnext₂, hdate⟩ := parseElement_spec
    (fun childs v => { v with dateTime := childs.innerText }) (.text v.dateTime .nil) holds₁
    (by rw [Dom.innerText_text]; rfl)
  obtain ⟨h₃, holds₃, hnext₃, hcreator⟩ := parseElement_spec
    (fun childs v => { v with creator := childs.innerText }) (.text v.creator .nil) holds₂
    (by rw [Dom.innerText_text]; rfl)
  obtain ⟨h₄, holds₄, hnext₄, hscreen⟩ := parseElement_spec
    (fun childs v => { v with screenShot := childs.innerText }) (.text v.screenShot .nil) holds₃
    (by rw [Dom.innerText_text]; rfl)
  obtain ⟨h₅, holds₅, hnext₅, hdescription⟩ := parseElement_spec
    (fun childs v => { v with description := descriptionOf childs })
    (.cdata v.description .nil) holds₄ rfl
  obtain ⟨k, holdsk, hnextk, hrt⟩ := parseRuntime_spec holds₅ hruntime v.runtime
  have hread : Holds k m (C.plug { v with guid := u.guid, vmState := u.vmState } d) detached :=
    holdsk
  rw [hguid, hstate] at hread
  refine ⟨k, hread, by omega, ?_⟩
  intro b items rest
  simp [parseProperties, propertyElements, Dom.textElement, Dom.firstElement, hname, hdate,
    hcreator, hscreen, hdescription, hrt]

/-- A fresh node reads its attribute `current`: the marks move to it or stay. -/
theorem setCurrent_fresh (holds : Holds h m (C.plug u nil) []) {r : Nat}
    (hroots : C.roots = [r]) (hm : m C.addr = none) (b : Bool) :
    ∃ k, setCurrent h C.addr b = some k ∧
      Holds k (if b then marksAt C.addr h.next else m) (C.plug u nil) [] := by
  cases b with
  | true =>
      obtain ⟨v, c, htree⟩ := eq_tree_of_roots ((C.roots_plug u nil).trans hroots)
      have hmem : C.addr ∈ (C.plug u nil).addrs := by
        rw [(C.addrs_plug u nil).mem_iff]
        exact List.mem_cons_self
      rw [htree] at holds hmem ⊢
      obtain ⟨k, hset, hholds, _⟩ := holds.setCurrent (by simp) hmem
      exact ⟨k, hset, by simpa using hholds⟩
  | false =>
      have hstored := holds.stored
      rw [mark_plug] at hstored
      have hread := (Context.stored_plug.mp hstored).1
      rw [addr_markContext, hm] at hread
      obtain ⟨k, hstate, hholds, _⟩ := Holds.setState (φ := fun v => { v with current := false })
        (w := u) holds (by rw [hm]; rfl)
      refine ⟨k, ?_, by simpa using hholds⟩
      rw [setCurrent_false hread, ← hstate]
      simp [unsetCurrent, dropCurrentState, setState, hread]

theorem recursiveParse_spec (fuel : Nat) (b : Bool) (items : Dom)
    (holds : Holds h m (C.plug {} nil) []) {r : Nat} (hroots : C.roots = [r])
    (hm : m C.addr = none) (hguid : v.guid ≠ "" ∨ C.parent none = none) :
    ∃ k, Holds k (if b then marksAt C.addr h.next else m) (C.plug v nil) [] ∧
      recursiveParseClassProperties (fuel + 1)
        ⟨"SavedStateItem", stateAttributes (v.state b),
          (propertyElements (v.state b) true).append items⟩ h C.addr =
        parseItems (recursiveParseClassProperties fuel) C.addr k items := by
  have hstored := holds.stored
  rw [mark_plug] at hstored
  have hread := (Context.stored_plug.mp hstored).1
  rw [addr_markContext, parent_markContext] at hread
  obtain ⟨h₁, hset₁, holds₁, hnext₁⟩ := Holds.setState (φ := fun w => { w with guid := v.guid })
    (w := { guid := v.guid }) holds rfl
  obtain ⟨h₂, hset₂, holds₂⟩ := setCurrent_fresh holds₁ hroots hm b
  obtain ⟨h₃, hset₃, holds₃, hnext₃⟩ := Holds.setState
    (φ := fun w => { w with vmState := vmStateOf (vmStateValue v.vmState) })
    (w := { guid := v.guid, vmState := v.vmState }) holds₂ (by rw [vmStateOf_value]; rfl)
  obtain ⟨k, holdsk, _, hproperties⟩ := parseProperties_spec (v := v) holds₃ rfl rfl rfl
  rw [hnext₁] at holdsk
  refine ⟨k, holdsk, ?_⟩
  have hvalid : v.guid = "" → C.parent none = none := by
    intro hempty
    exact hguid.resolve_left (not_not.mpr hempty)
  simp only [recursiveParseClassProperties, hread, guid_stateAttributes, current_stateAttributes,
    state_stateAttributes, hset₁]
  simp +contextual [hvalid, hset₂, hset₃, hproperties]

end Read

/-- `g'` is a copy of `g` under new addresses. Copying moves the marks from `m` to
`m'` when `o`, the current node of the original, is in `g`. -/
structure Copied (o l : Nat) (g : Forest Snapshot) (m : Marks)
    (g' : Forest Snapshot) (m' : Marks) : Prop where
  shape : (mark m' g').shape = (mark (marksAt o l) g).shape
  unmoved : o ∉ g.addrs → m' = m
  moved : o ∈ g.addrs → ∃ b y, m' = marksAt b y ∧ b ∈ g'.addrs

section Copy

variable {m m' k : Marks} {o l : Nat} {g g' f f' : Forest Snapshot}

theorem mark_eq_nowhere (h : ∀ a ∈ g.addrs, m a = none) : mark m g = mark nowhere g :=
  mark_congr fun a ha => h a ha

/-- The marks stay off a part of the copy that they are not in. -/
theorem Copied.mark_old (copied : Copied o l f m f' m') (start : o ∈ f.addrs → m = nowhere)
    (apart : ∀ a ∈ g.addrs, a ∉ f'.addrs) : mark m' g = mark m g := by
  by_cases ho : o ∈ f.addrs
  · obtain ⟨b, y, rfl, hb⟩ := copied.moved ho
    rw [start ho]
    refine mark_eq_nowhere fun a ha => marksAt_ne ?_ y
    intro heq
    exact apart a ha (heq ▸ hb)
  · rw [copied.unmoved ho]

theorem Copied.append (first : Copied o l g m g' m') (second : Copied o l f m' f' k)
    (start : o ∈ (g.append f).addrs → m = nowhere) (once : o ∈ g.addrs → o ∉ f.addrs)
    (apart : ∀ a ∈ g'.addrs, a ∉ f'.addrs) :
    Copied o l (g.append f) m (g'.append f') k := by
  have hstart : o ∈ f.addrs → m' = nowhere := by
    intro hf
    rw [first.unmoved fun hg => once hg hf]
    exact start (by simp [hf])
  constructor
  case shape =>
    have hold : mark k g' = mark m' g' := second.mark_old hstart apart
    simp only [mark_append, shape_append, second.shape, hold, first.shape]
  case unmoved =>
    intro ho
    rw [addrs_append, List.mem_append, not_or] at ho
    rw [second.unmoved ho.2, first.unmoved ho.1]
  case moved =>
    intro ho
    rw [addrs_append, List.mem_append] at ho
    rcases ho with hg | hf
    · obtain ⟨b, y, hm', hb⟩ := first.moved hg
      refine ⟨b, y, ?_, ?_⟩
      · rw [second.unmoved (once hg), hm']
      · rw [addrs_append, List.mem_append]
        exact .inl hb
    · obtain ⟨b, y, hk, hb⟩ := second.moved hf
      refine ⟨b, y, hk, ?_⟩
      rw [addrs_append, List.mem_append]
      exact .inr hb

theorem shape_leafOf {x y : Option Nat} (h : x.isSome = y.isSome) :
    (leafOf x).shape = (leafOf y).shape := by
  cases x with
  | none =>
      cases y with
      | none => rfl
      | some b => cases h
  | some a =>
      cases y with
      | none => cases h
      | some b => rfl

theorem Copied.node {a x z : Nat} {v : Snapshot}
    (childs : Copied o l g (if a = o then marksAt x z else m) g' m')
    (ha : a ∉ g.addrs) (hx : x ∉ g'.addrs)
    (fresh : m x = none) :
    Copied o l (node a v g nil) m (node x v g' nil) m' := by
  have hmark : (m' x).isSome = (marksAt o l a).isSome := by
    by_cases hao : a = o
    · rw [childs.unmoved (hao ▸ ha), if_pos hao, hao, marksAt_self, marksAt_self]
      rfl
    · rw [marksAt_ne hao]
      rw [if_neg hao] at childs
      by_cases ho : o ∈ g.addrs
      · obtain ⟨b, y, rfl, hb⟩ := childs.moved ho
        rw [marksAt_ne (ne_of_mem_of_not_mem hb hx).symm]
      · rw [childs.unmoved ho, fresh]
  constructor
  case shape =>
    simp only [mark_node, mark_nil, shape_node, shape_append, childs.shape, hmark,
      shape_leafOf hmark]
  case unmoved =>
    intro ho
    simp only [addrs_node, addrs_nil, List.append_nil, List.mem_cons, not_or] at ho
    rw [childs.unmoved ho.2, if_neg (Ne.symm ho.1)]
  case moved =>
    intro ho
    simp only [addrs_node, addrs_nil, List.append_nil, List.mem_cons] at ho
    rcases ho with hoa | ho
    · refine ⟨x, z, ?_, by simp⟩
      rw [childs.unmoved (hoa ▸ ha), if_pos hoa.symm]
    · obtain ⟨b, y, hm', hb⟩ := childs.moved ho
      exact ⟨b, y, hm', by simp [hb]⟩

/-- The marks of a copy are in the tree that the copy is added to. -/
theorem Copied.inside {t t' : Forest Snapshot} (copied : Copied o l g m g' m')
    (inside : ∀ a, a ∉ t.addrs → m a = none) (old : ∀ a ∈ t.addrs, a ∈ t'.addrs)
    (new : ∀ a ∈ g'.addrs, a ∈ t'.addrs) : ∀ a, a ∉ t'.addrs → m' a = none := by
  intro a ha
  by_cases ho : o ∈ g.addrs
  · obtain ⟨b, y, rfl, hb⟩ := copied.moved ho
    refine marksAt_ne ?_ y
    intro heq
    exact ha (heq ▸ new b hb)
  · rw [copied.unmoved ho]
    exact inside a fun hmem => ha (old a hmem)

end Copy

section Items

variable {h : TreeHeap} {m : Marks} {C : Context Snapshot} {u : Snapshot} {d : Forest Snapshot}

/-- An item becomes a fresh last child before it is parsed. -/
theorem newChild_spec (holds : Holds h m (C.plug u d) []) (fresh : m h.next = none) :
    ∃ k C', addChild (h.alloc ⟨{}, some C.addr, []⟩) C.addr (some h.next) = some (true, k) ∧
      Context.addr C' = h.next ∧ Context.roots C' = C.roots ∧
      (∀ w e, Context.plug C' w e = C.plug u (d.append (node h.next w e nil))) ∧
      Holds k m (C'.plug {} nil) [] := by
  have hread : (h.alloc ⟨{}, some C.addr, []⟩).read h.next =
      some ⟨({} : Snapshot).state false, some C.addr, []⟩ :=
    Heap.read_alloc_next _ _
  obtain ⟨k, hadd, hholds, _⟩ := (holds.alloc ⟨{}, some C.addr, []⟩).addChild (by simp) hread fresh
  obtain ⟨C', haddr, _, hplug⟩ := C.exists_last u d h.next
  refine ⟨k, C', hadd, haddr, ?_, hplug, ?_⟩
  · have hroots := congrArg Forest.roots (hplug {} nil)
    rw [Context.roots_plug, Context.roots_plug] at hroots
    exact hroots
  · rw [hplug]
    exact hholds

/-- What the loop over the items of `g` leaves: a copy of `g` among the children. -/
def ParsesItems (o l : Nat) (g : Forest Snapshot) (fuel : Nat) : Prop :=
  ∀ {h : TreeHeap} {m : Marks} {C : Context Snapshot} {u : Snapshot} {d : Forest Snapshot} {r : Nat},
    Holds h m (C.plug u d) [] → (∀ a, a ∉ (C.plug u d).addrs → m a = none) → C.roots = [r] →
    (o ∈ g.addrs → m = nowhere) →
    ∃ k g' m', parseItems (recursiveParseClassProperties fuel) C.addr h (xmlOf (marksAt o l) g) =
        some (.rcSuccess, k) ∧
      Holds k m' (C.plug u (d.append g')) [] ∧ Copied o l g m g' m'

/-- An element is read into a fresh node: its attributes, then its items. -/
theorem parsesNode {o l a fuel : Nat} {v : Snapshot} {c : Forest Snapshot} {r : Nat}
    (items : ParsesItems o l c fuel) (ha : a ∉ c.addrs)
    (holds : Holds h m (C.plug {} nil) [])
    (inside : ∀ a, a ∉ (C.plug {} nil).addrs → m a = none) (hroots : C.roots = [r])
    (fresh : m C.addr = none) (start : o ∈ (node a v c nil).addrs → m = nowhere)
    (hguid : v.guid ≠ "" ∨ C.parent none = none) :
    ∃ k c' m', recursiveParseClassProperties (fuel + 1)
        ⟨"SavedStateItem", stateAttributes (v.state (marksAt o l a).isSome),
          (propertyElements (v.state (marksAt o l a).isSome) true).append
            (xmlOf (marksAt o l) c)⟩ h C.addr = some (.rcSuccess, k) ∧
      Holds k m' (C.plug v c') [] ∧
      Copied o l (node a v c nil) m (node C.addr v c' nil) m' := by
  have hmark : (marksAt o l a).isSome = decide (a = o) := by
    by_cases hao : a = o
    · simp [hao]
    · simp [hao, marksAt_ne hao]
  obtain ⟨h₁, holds₁, hparse⟩ := recursiveParse_spec fuel (marksAt o l a).isSome
    (xmlOf (marksAt o l) c) holds hroots fresh hguid
  have hmem : C.addr ∈ (C.plug v nil).addrs := Context.mem_addrs_plug.mpr (.inl rfl)
  have hinside : ∀ b, b ∉ (C.plug v nil).addrs →
      (if a = o then marksAt C.addr h.next else m) b = none := by
    intro b hb
    by_cases hao : a = o
    · rw [if_pos hao]
      exact marksAt_ne (ne_of_mem_of_not_mem hmem hb).symm _
    · rw [if_neg hao]
      exact inside b fun hold => hb (by simpa [Context.mem_addrs_plug] using hold)
  have hstart : o ∈ c.addrs → (if a = o then marksAt C.addr h.next else m) = nowhere := by
    intro ho
    rw [if_neg (ne_of_mem_of_not_mem ho ha).symm]
    exact start (by simp [ho])
  rw [hmark] at holds₁
  simp only [decide_eq_true_eq] at holds₁
  obtain ⟨k, c', m', hitems, holdsk, copied⟩ := items holds₁ hinside hroots hstart
  rw [nil_append] at holdsk
  have hx := (nodup_hole holdsk.addrs_nodup).1
  refine ⟨k, c', m', ?_, holdsk, copied.node ha hx fresh⟩
  rw [hparse, hitems]

theorem parseItems_spec {o l : Nat} {g : Forest Snapshot} {fuel : Nat} (nodup : g.addrs.Nodup)
    (hguid : ∀ x ∈ g.nodes, x.2.guid ≠ "") (hfuel : g.depth ≤ fuel) :
    ParsesItems o l g fuel := by
  induction g generalizing fuel with
  | nil =>
      intro h m C u d r holds inside hroots start
      refine ⟨h, nil, m, rfl, by simpa using holds, rfl, fun _ => rfl, ?_⟩
      intro ho
      cases ho
  | node a v c s ihc ihs =>
      intro h m C u d r holds inside hroots start
      cases fuel with
      | zero => simp [depth] at hfuel
      | succ fuel =>
          simp only [depth] at hfuel
          rw [addrs_node, List.nodup_cons, List.mem_append, not_or, List.nodup_append] at nodup
          obtain ⟨⟨hac, has⟩, hnodupc, hnodups, hdisjoint⟩ := nodup
          have hitems : ParsesItems o l c fuel :=
            ihc hnodupc (fun x hx => hguid x (by simp [hx])) (by omega)
          have hrest : ParsesItems o l s (fuel + 1) :=
            ihs hnodups (fun x hx => hguid x (by simp [hx])) (by omega)
          have hnew : h.next ∉ (C.plug u d).addrs := fun hmem =>
            absurd (holds.lt_next hmem) (Nat.lt_irrefl _)
          obtain ⟨h₁, C', hadd, haddr, hroots', hplug, holds₁⟩ :=
            newChild_spec holds (inside h.next hnew)
          have hin : ∀ b w e, b ∈ (C.plug u d).addrs → b ∈ (C'.plug w e).addrs := by
            intro b w e hb
            simp only [hplug, Context.mem_addrs_plug, addrs_append, List.mem_append] at hb ⊢
            tauto
          have hstart : o ∈ (node a v c nil).addrs → m = nowhere := by
            intro ho
            refine start ?_
            simp only [addrs_node, addrs_nil, List.append_nil, List.mem_cons, List.mem_append] at ho ⊢
            exact ho.imp_right .inl
          have once : o ∈ (node a v c nil).addrs → o ∉ s.addrs := by
            intro ho hos
            rw [addrs_node, List.mem_cons, addrs_nil, List.append_nil] at ho
            rcases ho with rfl | hoc
            · exact has hos
            · exact hdisjoint o hoc o hos rfl
          obtain ⟨h₂, c', m₁, hparse, holds₂, copied⟩ := parsesNode (a := a) (v := v) hitems hac
            holds₁ (fun b hb => inside b fun hmem => hb (hin b _ _ hmem)) (hroots'.trans hroots)
            (haddr ▸ inside h.next hnew) hstart (.inl (hguid (a, v) (by simp)))
          rw [haddr] at hparse copied
          rw [hplug] at holds₂
          have hinside : ∀ b, b ∉ (C.plug u (d.append (node h.next v c' nil))).addrs →
              m₁ b = none := by
            refine copied.inside inside (fun b hb => ?_) (fun b hb => ?_)
            · rw [← hplug]
              exact hin b v c' hb
            · simp only [Context.mem_addrs_plug, addrs_append, List.mem_append]
              exact .inr (.inl (.inr hb))
          have hunmoved : o ∈ s.addrs → m₁ = nowhere := by
            intro hos
            rw [copied.unmoved fun ho => once ho hos]
            exact start (by simp [hos])
          obtain ⟨k, s', m₂, hparses, holdsk, copieds⟩ := hrest holds₂ hinside hroots hunmoved
          rw [append_assoc] at holdsk
          have apart : ∀ b ∈ (node h.next v c' nil).addrs, b ∉ s'.addrs := by
            have hnodup := (nodup_hole holdsk.addrs_nodup).2.2.1
            rw [addrs_append, addrs_append, List.nodup_append, List.nodup_append] at hnodup
            intro b hb hbs
            exact hnodup.2.1.2.2 b hb b hbs rfl
          refine ⟨k, (node h.next v c' nil).append s', m₂, ?_, holdsk,
            copied.append copieds start once apart⟩
          simp [xmlOf, parseItems, newNode, Heap.modify_alloc, hadd, hparse, hparses]

end Items

theorem depth_xmlOf (m : Marks) (g : Forest Snapshot) : g.depth ≤ (xmlOf m g).depth := by
  induction g with
  | nil => exact Nat.le_refl 0
  | node a v c s ihc ihs =>
      simp only [depth, xmlOf, Dom.depth, Dom.depth_append]
      omega

/-- `Load` first deletes the tree it finds. -/
theorem clear_spec {s : SavedStateStore} {f : Forest Snapshot} (refines : Refines s f []) :
    ∃ code s', deleteBranch s s.root = some (code, s') ∧ s'.root = none ∧
      ∀ b n, s'.heap.read b ≠ some n := by
  rcases refines with ⟨hroot, _, honly⟩ | ⟨r, v, c, l, hroot, _, _, holds⟩
  · refine ⟨_, s, by rw [hroot]; rfl, hroot, ?_⟩
    intro b n hb
    cases honly b n hb
  · obtain ⟨s', hdelete, hroot', hempty⟩ := deleteBranch_head hroot holds
    exact ⟨_, s', by rw [hroot, hdelete], hroot', hempty⟩

theorem cleanup_fresh (h : TreeHeap) :
    cleanupClassProperties (h.alloc (newNode {})) h.next = some (h.alloc (newNode {})) := by
  simp [cleanupClassProperties, clearTreeChild, setState, newNode, Heap.modify_alloc,
    Heap.read_alloc_next]

theorem Holds.shapeAt {h : TreeHeap} {m : Marks} {r : Nat} {v : Snapshot} {f : Forest Snapshot}
    {detached : List Nat} (holds : Holds h m (node r v f nil) detached) :
    shapeAt h r = some (mark m (node r v f nil)).shape := by
  have hlength : (mark m (node r v f nil)).addrs.length ≤ h.next :=
    length_le_of_lt holds.nodup fun a ha => holds.stored.lt_next ha
  have hshape := holds.stored.shapeFrom hlength
  rw [roots_mark, roots_node, roots_nil] at hshape
  exact hshape

section RoundTrip

variable {r o l : Nat} {v : Snapshot} {f : Forest Snapshot}

theorem save_spec {s : SavedStateStore} {m : Marks} {detached : List Nat} (hroot : s.root = some r)
    (holds : Holds s.heap m (node r v f nil) detached) :
    save s true = some (.element (headElement m r v f).tag (headElement m r v f).attributes
      (headElement m r v f).childs .nil) := by
  have hchilds : (headElement m r v f).childs.hasChildNodes := rfl
  simp only [save, hroot, getXml_spec holds, Option.bind_eq_bind, Option.bind_some]
  exact if_pos hchilds

theorem readXml_spec {h : TreeHeap} (hempty : ∀ b n, h.read b ≠ some n)
    (nodup : (node r v f nil).addrs.Nodup) (hguids : ∀ x ∈ f.nodes, x.2.guid ≠ "")
    (ho : o ∈ (node r v f nil).addrs) :
    ∃ k f' b y, readXml (h.alloc (newNode {})) h.next
        (some (headElement (marksAt o l) r v f)) = some (.rcSuccess, k) ∧
      b ∈ (node h.next v f' nil).addrs ∧ Holds k (marksAt b y) (node h.next v f' nil) [] ∧
      (mark (marksAt b y) (node h.next v f' nil)).shape =
        (mark (marksAt o l) (node r v f nil)).shape := by
  let C : Context Snapshot := .hole h.next nil
  have hfresh : Holds (h.alloc (newNode {})) nowhere (C.plug {} nil) [] := by
    refine ⟨⟨Heap.read_alloc_next _ _, trivial, trivial⟩, by simp [C, Context.plug], by simp, ?_⟩
    intro b n hb
    refine .inl ?_
    by_cases hbr : b = h.next
    · simp [C, Context.plug, hbr]
    · rw [Heap.read_alloc, if_neg hbr] at hb
      exact absurd hb (hempty b n)
  have hdepth : f.depth ≤ (headElement (marksAt o l) r v f).childs.depth := by
    have hitems := depth_xmlOf (marksAt o l) f
    simp only [headElement, Dom.depth_append]
    omega
  rw [addrs_node, addrs_nil, List.append_nil, List.nodup_cons] at nodup
  have hitems : ParsesItems o l f (headElement (marksAt o l) r v f).childs.depth :=
    parseItems_spec nodup.2 hguids hdepth
  obtain ⟨k, f', m', hparse, hholds, copied⟩ := parsesNode (a := r) (v := v)
    hitems nodup.1 hfresh (fun _ _ => rfl) rfl rfl (fun _ => rfl) (.inr rfl)
  obtain ⟨b, y, rfl, hb⟩ := copied.moved ho
  refine ⟨k, f', b, y, ?_, hb, hholds, copied.shape⟩
  simp only [readXml, cleanup_fresh, Option.bind_eq_bind, Option.bind_some]
  exact hparse

/-- Every tree that the operations build is read back from what is written: the same
records in the same places, linked both ways. -/
theorem load_save {requests requests₀ : List Request} {s s₀ : SavedStateStore}
    {created created₀ : Created}
    (run : Run (Recorded recordCreated (Guarded SparesCurrentState Performs))
      (.empty, ∅) requests (s, created))
    (run₀ : Run (Recorded recordCreated (Guarded SparesCurrentState Performs))
      (.empty, ∅) requests₀ (s₀, created₀))
    (hroot : s.root = some r) (hguid : ∀ x ∈ created, x.2 ≠ "") :
    ∃ document tree t r' copies, save s true = some document ∧ shapeAt s.heap r = some tree ∧
      load s₀ document = some (.rcSuccess, t) ∧ t.root = some r' ∧
      shapeAt t.heap r' = some tree ∧ TreeConsistent t r' copies := by
  obtain ⟨f, hrefines, rfl⟩ := tracks_of_run run
  obtain ⟨f₀, hrefines₀, _⟩ := tracks_of_run run₀
  obtain ⟨code, s₁, hclear, _, hempty⟩ := clear_spec hrefines₀
  rcases hrefines with ⟨hnone, _⟩ | ⟨r', v, o, l, hsome, hhead, ho, holds⟩
  · rw [hroot] at hnone
    cases hnone
  · rw [hroot] at hsome
    cases hsome
    have hguids : ∀ x ∈ f.nodes, x.2.guid ≠ "" := by
      intro x hx
      exact hguid (x.1, x.2.guid) ⟨x.2, hx, rfl⟩
    obtain ⟨k, f', b, y, hread, hb, hholds, hshape⟩ :=
      readXml_spec (l := l) hempty holds.addrs_nodup hguids ho
    refine ⟨_, _, ⟨k, some s₁.heap.next⟩, _, _, save_spec hroot holds, holds.shapeAt, ?_, rfl, ?_,
      treeConsistent hhead hb hholds⟩
    · simp only [headElement] at hread ⊢
      simp [load, hclear, hread]
    · rw [← hshape]
      exact hholds.shapeAt

/-- The head, one snapshot and the marks on the snapshot are read back. -/
theorem load_save_oneSnapshot :
    ∃ document tree t r' copies, save oneSnapshot true = some document ∧
      shapeAt oneSnapshot.heap 1 = some tree ∧ load .empty document = some (.rcSuccess, t) ∧
      t.root = some r' ∧ shapeAt t.heap r' = some tree ∧ TreeConsistent t r' copies := by
  have hfirst : Guarded SparesCurrentState Performs .empty (.createSnapshot { guid := "a" })
      oneSnapshot := ⟨trivial, performs_first⟩
  refine load_save (.recorded hfirst (.nil _)) (.nil _) rfl ?_
  intro x hx
  simp only [recordCreated, Set.mem_insert_iff, Set.mem_empty_iff_false, or_false] at hx
  rw [hx]
  decide

/-- `CreateSnapshot` takes any guid. -/
def unnamedSnapshot : SavedStateStore :=
  ⟨⟨[some ⟨{ current := true }, some 1, [2]⟩, some ⟨{}, none, [0]⟩,
    some ⟨youAreHere, some 0, []⟩]⟩, some 1⟩

/-- A snapshot without a guid is written but refused by the reader. -/
theorem load_refuses_unnamed :
    (∃ created, Run (Recorded recordCreated (Guarded SparesCurrentState Performs)) (.empty, ∅)
      [.createSnapshot {}] (unnamedSnapshot, created)) ∧
    ∃ document t, save unnamedSnapshot true = some document ∧
      load .empty document = some (.badSnapshotGuid, t) ∧
      ∀ r', t.root = some r' → shapeAt t.heap r' ≠ shapeAt unnamedSnapshot.heap 1 := by
  refine ⟨⟨_, .recorded ⟨trivial, ?_⟩ (.nil _)⟩, ?_⟩
  · unfold Performs
    decide
  · refine ⟨_, ⟨⟨[some ⟨{}, none, [1]⟩, some ⟨{}, some 0, []⟩]⟩, some 0⟩, rfl, ?_, ?_⟩
    · decide
    · rintro r' hr'
      cases hr'
      decide

end RoundTrip

end DispService.StatesStore
