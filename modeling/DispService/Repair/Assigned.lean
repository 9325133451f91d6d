import Mathlib.Data.List.Nodup
import DispService.Repair.Devices

/-! Which indices the loop over the new devices gives out. -/
namespace DispService.Repair

universe u

variable {κ : Type u} {found : Device κ → Device κ → Bool} {p : Device κ → Bool}
  {old new devices : List (Device κ)} {pool used : List Nat} {s : Device κ}

theorem adjacentFind_mem {l : List Nat} {a : Nat} (h : adjacentFind l = some a) : a ∈ l := by
  fun_induction adjacentFind l with
  | case1 x y l hgap =>
      obtain rfl := Option.some.inj h
      exact List.mem_cons_self
  | case2 x y l _ ih => exact List.mem_cons_of_mem x (ih h)
  | case3 l _ => cases h

theorem adjacentFind_fresh {l : List Nat} {a : Nat} (sorted : l.Pairwise (· ≤ ·))
    (h : adjacentFind l = some a) : a + 1 ∉ l := by
  fun_induction adjacentFind l with
  | case1 x y l hgap =>
      obtain rfl := Option.some.inj h
      obtain ⟨-, hy⟩ := List.pairwise_cons.mp sorted
      have hlater := (List.pairwise_cons.mp hy).1
      intro hin
      rcases List.mem_cons.mp hin with heq | hin
      · omega
      · rcases List.mem_cons.mp hin with heq | hin
        · omega
        · have := hlater _ hin
          omega
  | case2 x y l _ ih =>
      obtain ⟨hx, hy⟩ := List.pairwise_cons.mp sorted
      have hle := hx a (adjacentFind_mem h)
      intro hin
      rcases List.mem_cons.mp hin with heq | hin
      · omega
      · exact ih hy h hin
  | case3 l _ => cases h

theorem le_getLast {l : List Nat} (sorted : l.Pairwise (· ≤ ·)) {x : Nat} (hx : x ∈ l) :
    x ≤ l.getLast?.getD 0 := by
  induction l generalizing x with
  | nil => cases hx
  | cons a l ih =>
      obtain ⟨ha, hl⟩ := List.pairwise_cons.mp sorted
      cases l with
      | nil =>
          obtain rfl := List.mem_singleton.mp hx
          exact Nat.le_refl x
      | cons b l =>
          rw [List.getLast?_cons_cons]
          rcases List.mem_cons.mp hx with rfl | hx
          · exact Nat.le_trans (ha b List.mem_cons_self) (ih hl List.mem_cons_self)
          · exact ih hl hx

/-- The pool gives out an index that it does not have. -/
theorem getAvailable_fresh (sorted : pool.Pairwise (· ≤ ·)) : (getAvailable pool).1 ∉ pool := by
  unfold getAvailable
  dsimp only
  split
  · split
    · rename_i a ha
      exact adjacentFind_fresh sorted ha
    · exact fun hin => Nat.not_succ_le_self _ (le_getLast sorted hin)
  · rename_i hhead
    intro hin
    cases pool with
    | nil => cases hin
    | cons a l =>
        have hle : ∀ x ∈ a :: l, a ≤ x := by
          intro x hx
          rcases List.mem_cons.mp hx with rfl | hx
          · exact Nat.le_refl x
          · exact (List.pairwise_cons.mp sorted).1 x hx
        have hzero := hle 0 hin
        exact hhead (by rw [List.head?_cons, Nat.le_zero.mp hzero])

theorem mergeSort_sorted (l : List Nat) : l.mergeSort.Pairwise (· ≤ ·) := by
  refine (@List.pairwise_mergeSort Nat (fun a b => decide (a ≤ b)) ?_ ?_ l).imp of_decide_eq_true
  · intro a b c hab hbc
    exact decide_eq_true (Nat.le_trans (of_decide_eq_true hab) (of_decide_eq_true hbc))
  · intro a b
    rw [Bool.or_eq_true, decide_eq_true_eq, decide_eq_true_eq]
    exact Nat.le_total a b

theorem getAvailable_sorted : (getAvailable pool).2.Pairwise (· ≤ ·) :=
  mergeSort_sorted _

theorem getAvailable_grows {x : Nat} (hx : x ∈ pool) : x ∈ (getAvailable pool).2 := by
  unfold getAvailable
  exact List.mem_mergeSort.mpr (List.mem_append_left _ hx)

/-- Erasing the device that was found is dropping its index. -/
theorem eraseP_found (distinct : (devices.map (·.index)).Nodup)
    (hs : devices.find? p = some s) :
    devices.eraseP p = devices.filter fun x => decide (x.index ≠ s.index) := by
  induction devices with
  | nil => cases hs
  | cons d devices ih =>
      obtain ⟨hd, hrest⟩ := List.nodup_cons.mp distinct
      by_cases hp : p d = true
      · rw [List.find?_cons_of_pos hp] at hs
        obtain rfl := Option.some.inj hs
        rw [List.eraseP_cons_of_pos hp, List.filter_cons_of_neg (by simp)]
        refine (List.filter_eq_self.mpr fun x hx => ?_).symm
        rw [decide_eq_true_eq]
        exact fun heq => hd (List.mem_map.mpr ⟨x, hx, heq⟩)
      · rw [List.find?_cons_of_neg hp] at hs
        have hne : d.index ≠ s.index := fun heq =>
          hd (List.mem_map.mpr ⟨s, List.mem_of_find?_eq_some hs, heq.symm⟩)
        rw [List.eraseP_cons_of_neg hp, ih hrest hs, List.filter_cons_of_pos]
        rw [decide_eq_true_eq]
        exact hne

/-- The stored devices that no earlier domain device came from. -/
def remaining (old : List (Device κ)) (used : List Nat) : List (Device κ) :=
  old.filter fun x => decide (x.index ∉ used)

/-- Each new device, in the order of the domain, finds the stored device it came from
first among those that no earlier one came from. -/
def Picks (found : Device κ → Device κ → Bool) (old : List (Device κ)) :
    List Nat → List (Device κ) → Prop
  | _, [] => True
  | used, n :: ns =>
      (∃ s, (remaining old used).find? (found n) = some s ∧ (s.index, s.itemId) = n.origin) ∧
        Picks found old (n.origin.1 :: used) ns

theorem remaining_distinct (distinct : (old.map (·.index)).Nodup) :
    ((remaining old used).map (·.index)).Nodup :=
  distinct.sublist (List.filter_sublist.map _)

theorem remaining_erase (distinct : (old.map (·.index)).Nodup)
    (hs : (remaining old used).find? p = some s) :
    (remaining old used).eraseP p = remaining old (s.index :: used) := by
  rw [eraseP_found (remaining_distinct distinct) hs]
  unfold remaining
  rw [List.filter_filter]
  apply List.filter_congr
  intro x _
  simp [not_or]

/-- The device with the index and the item id of its origin. -/
def Device.home (n : Device κ) : Device κ :=
  { n with index := n.origin.1, itemId := n.origin.2 }

theorem assign_picks (distinct : (old.map (·.index)).Nodup) (picks : Picks found old used new) :
    assign found (remaining old used) pool new = new.map Device.home := by
  induction new generalizing used pool with
  | nil => rfl
  | cons n ns ih =>
      obtain ⟨⟨s, hs, horigin⟩, hrest⟩ := picks
      unfold assign
      simp only [hs]
      rw [remaining_erase distinct hs, List.map_cons]
      have hindex : s.index = n.origin.1 := congrArg Prod.fst horigin
      have hitem : s.itemId = n.origin.2 := congrArg Prod.snd horigin
      rw [hindex, hitem, ih hrest]
      rfl

theorem picks_of_assign (distinct : (old.map (·.index)).Nodup)
    (sorted : pool.Pairwise (· ≤ ·)) (hpool : ∀ s ∈ old, s.index ∈ pool)
    (hnew : ∀ n ∈ new, n.origin.1 ∈ old.map (·.index))
    (horigin : ∀ x ∈ assign found (remaining old used) pool new,
      (x.index, x.itemId) = x.origin) : Picks found old used new := by
  induction new generalizing used pool with
  | nil => trivial
  | cons n ns ih =>
      have hrest : ∀ n ∈ ns, n.origin.1 ∈ old.map (·.index) :=
        fun n hn => hnew n (List.mem_cons_of_mem _ hn)
      unfold assign at horigin
      cases hs : (remaining old used).find? (found n) with
      | none =>
          simp only [hs] at horigin
          have hfresh : (getAvailable pool).1 = n.origin.1 :=
            congrArg Prod.fst (horigin _ List.mem_cons_self)
          obtain ⟨s, hin, hindex⟩ := List.mem_map.mp (hnew n List.mem_cons_self)
          refine absurd ?_ (getAvailable_fresh sorted)
          rw [hfresh, ← hindex]
          exact hpool s hin
      | some s =>
          simp only [hs] at horigin
          rw [remaining_erase distinct hs] at horigin
          have hhome : (s.index, s.itemId) = n.origin := horigin _ List.mem_cons_self
          refine ⟨⟨s, hs, hhome⟩, ?_⟩
          rw [← hhome]
          exact ih sorted hpool hrest fun x hx => horigin x (List.mem_cons_of_mem _ hx)

theorem assign_self (h : ∀ x ∈ devices, found x x = true) :
    assign found devices pool devices = devices := by
  induction devices with
  | nil => rfl
  | cons d devices ih =>
      have hd := h d List.mem_cons_self
      unfold assign
      rw [List.find?_cons_of_pos hd, List.eraseP_cons_of_pos hd]
      simp only
      rw [ih fun x hx => h x (List.mem_cons_of_mem _ hx)]

theorem getAvailable_self : (getAvailable pool).1 ∈ (getAvailable pool).2 := by
  unfold getAvailable
  exact List.mem_mergeSort.mpr (List.mem_append_right _ (List.mem_singleton_self _))

theorem assign_length : (assign found devices pool new).length = new.length := by
  induction new generalizing devices pool with
  | nil => rfl
  | cons n ns ih =>
      unfold assign
      split
      · exact congrArg (· + 1) ih
      · exact congrArg (· + 1) ih

/-- Where the index of a new device comes from: a stored device that matches it, or
the pool. -/
theorem assign_pair {p : Device κ × Device κ} (sorted : pool.Pairwise (· ≤ ·))
    (hp : p ∈ new.zip (assign found devices pool new)) :
    p.2 = { p.1 with index := p.2.index, itemId := p.2.itemId } ∧
      ((∃ s ∈ devices, found p.1 s = true ∧ p.2.index = s.index) ∨ p.2.index ∉ pool) := by
  induction new generalizing devices pool with
  | nil => cases hp
  | cons n ns ih =>
      unfold assign at hp
      cases hs : devices.find? (found n) with
      | none =>
          simp only [hs, List.zip_cons_cons] at hp
          rcases List.mem_cons.mp hp with rfl | hp
          · exact ⟨rfl, .inr (getAvailable_fresh sorted)⟩
          · obtain ⟨heq, hsource⟩ := ih getAvailable_sorted hp
            exact ⟨heq, hsource.imp_right fun hno hin => hno (getAvailable_grows hin)⟩
      | some s =>
          simp only [hs, List.zip_cons_cons] at hp
          rcases List.mem_cons.mp hp with rfl | hp
          · exact ⟨rfl, .inl ⟨s, List.mem_of_find?_eq_some hs, List.find?_some hs, rfl⟩⟩
          · obtain ⟨heq, hsource⟩ := ih sorted hp
            refine ⟨heq, hsource.imp_left ?_⟩
            rintro ⟨t, ht, hfound, hindex⟩
            exact ⟨t, List.mem_of_mem_eraseP ht, hfound, hindex⟩

theorem assign_source {y : Device κ} (sorted : pool.Pairwise (· ≤ ·))
    (hy : y ∈ assign found devices pool new) :
    ∃ h ∈ new, y = { h with index := y.index, itemId := y.itemId } ∧
      ((∃ s ∈ devices, found h s = true ∧ y.index = s.index) ∨ y.index ∉ pool) := by
  have hsnd : (new.zip (assign found devices pool new)).map Prod.snd =
      assign found devices pool new := List.map_snd_zip (Nat.le_of_eq assign_length)
  rw [← hsnd] at hy
  obtain ⟨p, hp, rfl⟩ := List.mem_map.mp hy
  exact ⟨p.1, (List.of_mem_zip hp).1, assign_pair sorted hp⟩

/-- No index is given out twice. -/
theorem assign_distinct (distinct : (devices.map (·.index)).Nodup) (sorted : pool.Pairwise (· ≤ ·))
    (hpool : ∀ s ∈ devices, s.index ∈ pool) :
    ((assign found devices pool new).map (·.index)).Nodup := by
  induction new generalizing devices pool with
  | nil => exact List.nodup_nil
  | cons n ns ih =>
      unfold assign
      cases hs : devices.find? (found n) with
      | none =>
          simp only
          refine List.nodup_cons.mpr ⟨fun hin => ?_, ih distinct getAvailable_sorted fun t ht =>
            getAvailable_grows (hpool t ht)⟩
          obtain ⟨y, hy, hyn⟩ := List.mem_map.mp hin
          have hindex : y.index = (getAvailable pool).1 := hyn
          obtain ⟨_, _, _, ⟨t, ht, _, hty⟩ | hout⟩ := assign_source getAvailable_sorted hy
          · refine getAvailable_fresh sorted ?_
            rw [← hindex, hty]
            exact hpool t ht
          · exact hout (hindex ▸ getAvailable_self)
      | some s =>
          simp only
          have hmem := List.mem_of_find?_eq_some hs
          have hrest := eraseP_found distinct hs
          refine List.nodup_cons.mpr ⟨fun hin => ?_, ih ?_ sorted fun t ht =>
            hpool t (List.mem_of_mem_eraseP ht)⟩
          · obtain ⟨y, hy, hyn⟩ := List.mem_map.mp hin
            have hindex : y.index = s.index := hyn
            obtain ⟨_, _, _, ⟨t, ht, _, hty⟩ | hout⟩ := assign_source sorted hy
            · rw [hrest, List.mem_filter, decide_eq_true_eq] at ht
              exact ht.2 (hty.symm.trans hindex)
            · exact hout (hindex ▸ hpool s hmem)
          · exact distinct.sublist (List.eraseP_sublist.map _)

theorem sort_perm : (sort devices).Perm devices :=
  List.mergeSort_perm _ _

theorem sort_sorted : (sort devices).Pairwise fun a b => a.index ≤ b.index := by
  refine (@List.pairwise_mergeSort (Device κ) (fun a b => decide (a.index ≤ b.index)) ?_ ?_
    devices).imp of_decide_eq_true
  · intro a b c hab hbc
    exact decide_eq_true (Nat.le_trans (of_decide_eq_true hab) (of_decide_eq_true hbc))
  · intro a b
    rw [Bool.or_eq_true, decide_eq_true_eq, decide_eq_true_eq]
    exact Nat.le_total a.index b.index

theorem sort_self (h : devices.Pairwise fun a b => a.index ≤ b.index) :
    sort devices = devices :=
  List.mergeSort_of_pairwise (h.imp decide_eq_true)

end DispService.Repair
