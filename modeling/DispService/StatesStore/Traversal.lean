import DispService.StatesStore.SavedStateStore

/-! What the recursions of a tree node compute on a stored forest. -/
namespace DispService.StatesStore

open DispService.Lib Forest

variable {h : TreeHeap} {p : Option Nat} {f : Forest SavedState}

theorem insertIdx_length_append {α : Type} (xs ys : List α) (x : α) :
    (xs ++ ys).insertIdx xs.length x = xs ++ x :: ys := by
  induction xs with
  | nil => rfl
  | cons y xs ih => simp [ih]

theorem getRootFrom_succ {r : Nat} : ∀ {fuel a}, getRootFrom fuel h a = some r →
    getRootFrom (fuel + 1) h a = some r := by
  intro fuel
  induction fuel with
  | zero =>
      intro a hroot
      cases hroot
  | succ fuel ih =>
      intro a hroot
      unfold getRootFrom at hroot ⊢
      cases hread : h.read a with
      | none => simp [hread] at hroot
      | some n =>
          cases hparent : n.parent with
          | none => simpa [hread, hparent] using hroot
          | some parent =>
              simp only [hread, hparent, Option.bind_eq_bind, Option.bind_some] at hroot ⊢
              exact ih hroot

theorem getRootFrom_mono {r a fuel fuel' : Nat} (hle : fuel ≤ fuel')
    (hroot : getRootFrom fuel h a = some r) : getRootFrom fuel' h a = some r := by
  induction hle with
  | refl => exact hroot
  | step _ ih => exact getRootFrom_succ ih

/-- The parent links lead out of a stored forest to the node above it. -/
theorem getRootFrom_of_parent {r q fuel : Nat} (stored : Stored h (some q) f)
    (hroot : getRootFrom fuel h q = some r) {a : Nat} (ha : a ∈ f.addrs) :
    getRootFrom (fuel + f.depth) h a = some r := by
  induction f generalizing q fuel with
  | nil => cases ha
  | node b v c s ihc ihs =>
      obtain ⟨hread, hchilds, hsiblings⟩ := stored
      have hb : getRootFrom (fuel + 1) h b = some r := by
        unfold getRootFrom
        simpa [hread] using hroot
      rw [addrs_node, List.mem_cons, List.mem_append] at ha
      simp only [depth]
      rcases ha with rfl | hc | hs
      · exact getRootFrom_mono (by omega) hb
      · exact getRootFrom_mono (by omega) (ihc hchilds hb hc)
      · exact getRootFrom_mono (by omega) (ihs hsiblings hroot hs)

theorem getRoot_spec {r : Nat} {v : SavedState} {c : Forest SavedState}
    (stored : Stored h none (node r v c nil)) (nodup : (node r v c nil).addrs.Nodup)
    {a : Nat} (ha : a ∈ (node r v c nil).addrs) : getRoot h a = some r := by
  have hdepth := stored.depth_le_next nodup
  obtain ⟨hread, hchilds, _⟩ := stored
  have hr : getRootFrom 1 h r = some r := by simp [getRootFrom, hread]
  simp only [depth] at hdepth
  unfold getRoot
  rw [addrs_node, List.mem_cons, addrs_nil, List.append_nil] at ha
  rcases ha with rfl | hc
  · exact getRootFrom_mono (by omega) hr
  · exact getRootFrom_mono (by omega) (getRootFrom_of_parent hchilds hr hc)

/-- The first node in document order that the search accepts. -/
def firstNode (found : SavedState → Bool) (f : Forest SavedState) : Option Nat :=
  (f.nodes.find? fun x => found x.2).map Prod.fst

theorem firstFound_findNode (found : SavedState → Bool) {fuel : Nat} (stored : Stored h p f)
    (hfuel : f.depth ≤ fuel) :
    firstFound (findNode found fuel h) f.roots = some (firstNode found f) := by
  induction f generalizing p fuel with
  | nil => rfl
  | node a v c s ihc ihs =>
      obtain ⟨hread, hchilds, hsiblings⟩ := stored
      simp only [depth] at hfuel
      have hs := ihs hsiblings (show s.depth ≤ fuel by omega)
      cases fuel with
      | zero => omega
      | succ fuel =>
          have hc := ihc hchilds (show c.depth ≤ fuel by omega)
          have ha : findNode found (fuel + 1) h a =
              some (if found v then some a else firstNode found c) := by
            cases hv : found v with
            | true => simp [findNode, hread, hv]
            | false => simp [findNode, hread, hv, hc]
          simp only [roots_node, firstFound, ha, hs, firstNode, nodes_node, List.find?_cons,
            List.find?_append]
          cases hv : found v with
          | true => simp
          | false =>
              cases hfind : c.nodes.find? fun x => found x.2 with
              | none => simp
              | some x => simp

theorem findNode_spec (found : SavedState → Bool) {r : Nat} {v : SavedState}
    {c : Forest SavedState} (stored : Stored h p (node r v c nil))
    (nodup : (node r v c nil).addrs.Nodup) :
    findNode found h.next h r = some (firstNode found (node r v c nil)) := by
  have hfound := firstFound_findNode found stored (stored.depth_le_next nodup)
  simp only [roots_node, roots_nil, firstFound] at hfound
  cases hnode : findNode found h.next h r with
  | none => simp [hnode] at hfound
  | some result =>
      cases result with
      | none => simpa [hnode] using hfound
      | some a => simpa [hnode] using hfound

/-- Handing the roots of a stored forest to another parent. -/
theorem adoptChilds_spec {q n : Nat} {u : SavedState} {o : Option Nat} {xs ys : List Nat}
    (hread : h.read q = some ⟨u, o, xs ++ ys⟩) (stored : Stored h (some n) f)
    (nodup : f.addrs.Nodup) (fresh : q ∉ f.addrs) :
    ∃ k, adoptChilds q xs.length f.roots h = some k ∧
      k.read q = some ⟨u, o, xs ++ f.roots ++ ys⟩ ∧ Stored k (some q) f ∧
      (∀ b, b ≠ q → b ∉ f.addrs → k.read b = h.read b) := by
  induction f generalizing h xs with
  | nil => exact ⟨h, rfl, by simpa using hread, trivial, fun _ _ _ => rfl⟩
  | node a v c s _ ihs =>
      obtain ⟨ha, hchilds, hsiblings⟩ := stored
      rw [addrs_node, List.nodup_cons, List.mem_append, not_or, List.nodup_append] at nodup
      obtain ⟨⟨hac, has⟩, _, hnodups, hdisjoint⟩ := nodup
      rw [addrs_node, List.mem_cons, List.mem_append, not_or, not_or] at fresh
      obtain ⟨hqa, hqc, hqs⟩ := fresh
      let h₁ := h.put a (some ⟨v, some q, c.roots⟩)
      have hread₁ : h₁.read q = some ⟨u, o, xs ++ ys⟩ := by
        rw [Heap.read_put_ne h hqa, hread]
      let h₂ := h₁.put q (some ⟨u, o, (xs ++ [a]) ++ ys⟩)
      have hread₂ : h₂.read q = some ⟨u, o, (xs ++ [a]) ++ ys⟩ := Heap.read_put_self hread₁ _
      have hsame₂ : ∀ b, b ≠ q → b ≠ a → h₂.read b = h.read b := by
        intro b hbq hba
        rw [Heap.read_put_ne h₁ hbq, Heap.read_put_ne h hba]
      have hsiblings₂ : Stored h₂ (some n) s := by
        refine hsiblings.frame fun b hb => hsame₂ b ?_ ?_
        · intro heq
          exact hqs (heq ▸ hb)
        · intro heq
          exact has (heq ▸ hb)
      obtain ⟨k, hadopt, hreadk, hstored, hsame⟩ := ihs hread₂ hsiblings₂ hnodups hqs
      refine ⟨k, ?_, ?_, ⟨?_, ?_, hstored⟩, ?_⟩
      · have hmodify₁ : h.modify a (fun n => { n with parent := some q }) = some h₁ :=
          Heap.modify_of_read ha _
        have hmodify₂ : h₁.modify q
            (fun p => { p with childs := p.childs.insertIdx xs.length a }) = some h₂ := by
          rw [Heap.modify_of_read hread₁]
          simp [h₂, insertIdx_length_append]
        rw [List.length_append, List.length_singleton] at hadopt
        simp [adoptChilds, hmodify₁, hmodify₂, hadopt]
      · rw [hreadk]
        simp
      · rw [hsame a (Ne.symm hqa) has, Heap.read_put_ne h₁ (Ne.symm hqa), Heap.read_put_self ha]
      · refine hchilds.frame fun b hb => ?_
        have hbq : b ≠ q := fun heq => hqc (heq ▸ hb)
        have hba : b ≠ a := fun heq => hac (heq ▸ hb)
        rw [hsame b hbq fun hbs => hdisjoint b hb b hbs rfl, hsame₂ b hbq hba]
      · intro b hbq hb
        rw [addrs_node, List.mem_cons, List.mem_append, not_or, not_or] at hb
        rw [hsame b hbq hb.2.2, hsame₂ b hbq hb.1]

/-- Deleting a stored forest frees its nodes and touches nothing else. -/
theorem clearTreeChild_forest {fuel : Nat} (stored : Stored h p f) (nodup : f.addrs.Nodup)
    (hfuel : f.depth ≤ fuel) :
    ∃ k, f.roots.foldlM (deleteChild (clearTreeChild fuel)) h = some k ∧
      (∀ b ∈ f.addrs, k.read b = none) ∧ (∀ b, b ∉ f.addrs → k.read b = h.read b) ∧
      k.next = h.next := by
  induction f generalizing p fuel h with
  | nil => exact ⟨h, rfl, by simp, fun _ _ => rfl, rfl⟩
  | node a v c s ihc ihs =>
      obtain ⟨hread, hchilds, hsiblings⟩ := stored
      rw [addrs_node, List.nodup_cons, List.mem_append, not_or, List.nodup_append] at nodup
      obtain ⟨⟨hac, has⟩, hnodupc, hnodups, hdisjoint⟩ := nodup
      simp only [depth] at hfuel
      cases fuel with
      | zero => omega
      | succ fuel =>
          obtain ⟨k₁, hclear, hfreed₁, hsame₁, hnext₁⟩ :=
            ihc hchilds hnodupc (show c.depth ≤ fuel by omega)
          have hread₁ : k₁.read a = some ⟨v, p, c.roots⟩ := by rw [hsame₁ a hac, hread]
          let k₂ := k₁.put a (some ⟨v, p, []⟩)
          have hread₂ : k₂.read a = some ⟨v, p, []⟩ := Heap.read_put_self hread₁ _
          let k₃ := k₂.put a none
          have hfree : deleteChild (clearTreeChild (fuel + 1)) h a = some k₃ := by
            simp [deleteChild, clearTreeChild, hread, hclear, Heap.modify_of_read hread₁,
              Heap.free_of_read hread₂, k₂, k₃]
          have hsame₃ : ∀ b, b ≠ a → k₃.read b = k₁.read b := by
            intro b hb
            rw [Heap.read_put_ne k₂ hb, Heap.read_put_ne k₁ hb]
          have hread₃ : k₃.read a = none := Heap.read_put_self hread₂ _
          have hsiblings₃ : Stored k₃ p s := by
            refine hsiblings.frame fun b hb => ?_
            have hba : b ≠ a := fun heq => has (heq ▸ hb)
            rw [hsame₃ b hba, hsame₁ b fun hbc => hdisjoint b hbc b hb rfl]
          obtain ⟨k, hrest, hfreed, hsame, hnext⟩ :=
            ihs hsiblings₃ hnodups (show s.depth ≤ fuel + 1 by omega)
          refine ⟨k, ?_, ?_, ?_, ?_⟩
          · rw [roots_node, List.foldlM_cons, hfree]
            exact hrest
          · intro b hb
            rw [addrs_node, List.mem_cons, List.mem_append] at hb
            by_cases hbs : b ∈ s.addrs
            · exact hfreed b hbs
            · rw [hsame b hbs]
              rcases hb with rfl | hbc | hbs'
              · exact hread₃
              · have hba : b ≠ a := fun heq => hac (heq ▸ hbc)
                rw [hsame₃ b hba, hfreed₁ b hbc]
              · exact absurd hbs' hbs
          · intro b hb
            rw [addrs_node, List.mem_cons, List.mem_append, not_or, not_or] at hb
            rw [hsame b hb.2.2, hsame₃ b hb.1, hsame₁ b hb.2.1]
          · rw [hnext, ← hnext₁]
            simp [k₃, k₂]

/-- `ClearTreeChild` on a node with stored children. -/
theorem clearTreeChild_spec {a : Nat} {v : SavedState} {c : Forest SavedState}
    (hread : h.read a = some ⟨v, p, c.roots⟩) (stored : Stored h (some a) c)
    (nodup : c.addrs.Nodup) (fresh : a ∉ c.addrs) :
    ∃ k, clearTreeChild (h.next + 1) h a = some k ∧ k.read a = some ⟨v, p, []⟩ ∧
      (∀ b ∈ c.addrs, k.read b = none) ∧
      (∀ b, b ≠ a → b ∉ c.addrs → k.read b = h.read b) ∧ k.next = h.next := by
  obtain ⟨k, hclear, hfreed, hsame, hnext⟩ :=
    clearTreeChild_forest stored nodup (stored.depth_le_next nodup)
  have hread' : k.read a = some ⟨v, p, c.roots⟩ := by rw [hsame a fresh, hread]
  refine ⟨k.put a (some ⟨v, p, []⟩), ?_, ?_, ?_, ?_, ?_⟩
  · simp [clearTreeChild, hread, hclear, Heap.modify_of_read hread']
  · exact Heap.read_put_self hread' _
  · intro b hb
    have hba : b ≠ a := fun heq => fresh (heq ▸ hb)
    rw [Heap.read_put_ne k hba, hfreed b hb]
  · intro b hba hb
    rw [Heap.read_put_ne k hba, hsame b hb]
  · rw [Heap.next_put, hnext]

end DispService.StatesStore
