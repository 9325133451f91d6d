import DispService.Repair.Merged

/-! The merge of a class keeps its promises, the second merge included, just when the
matching is clear and the appended devices come last. -/
namespace DispService.Repair

universe u v

variable {κ : Type u} {δ : Type v} {k : Kind κ δ} {old new : List (Device κ)}

theorem header_index {d x : Device κ} (h : d.header = x.header) : d.index = x.index :=
  congrArg Prod.fst h

theorem header_item {d x : Device κ} (h : d.header = x.header) : d.itemId = x.itemId :=
  congrArg (fun t => t.2.1) h

theorem header_disabled {d x : Device κ} (h : d.header = x.header) : d.disabled = x.disabled :=
  congrArg (fun t => t.2.2.1) h

theorem header_origin {d x : Device κ} (h : d.header = x.header) : d.origin = x.origin :=
  congrArg (fun t => t.2.2.2) h

/-- The new devices once their indices are given and the copying is done. -/
def Kind.fetched (k : Kind κ δ) (old new : List (Device κ)) : List (Device κ) :=
  copyFrom k.copy old (sort (assigned k.found old new))

theorem Kind.merge_eq (k : Kind κ δ) (new : List (Device κ))
    (distinct : (old.map (·.index)).Nodup) : k.merge old new =
    copyFrom k.settle old (k.fetched old new ++
      appended k.passes old ((k.fetched old new).map (·.index))) := by
  unfold Kind.merge
  rw [addMissing_all distinct]
  rfl

theorem fetched_index (lawful : k.Lawful) :
    (k.fetched old new).map (·.index) =
      (sort (assigned k.found old new)).map (·.index) :=
  copyFrom_index lawful.copy old

/-- A fetched device has the header and the key of an assigned one, and the reverse. -/
theorem fetched_mem (lawful : k.Lawful) {x : Device κ} (hx : x ∈ k.fetched old new) :
    ∃ a ∈ assigned k.found old new, x.header = a.header ∧ k.key x.body = k.key a.body := by
  obtain ⟨a, ha, rfl⟩ := List.mem_map.mp hx
  obtain ⟨hheader, hkey⟩ := copied_header lawful.copy old a
  exact ⟨a, sort_perm.mem_iff.mp ha, hheader, hkey⟩

theorem fetched_of_assigned (lawful : k.Lawful) {a : Device κ}
    (ha : a ∈ assigned k.found old new) :
    ∃ x ∈ k.fetched old new, x.header = a.header ∧ k.key x.body = k.key a.body :=
  ⟨_, List.mem_map_of_mem (sort_perm.mem_iff.mpr ha), copied_header lawful.copy old a⟩

theorem fetched_sorted (lawful : k.Lawful) (old new : List (Device κ)) :
    (k.fetched old new).Pairwise fun a b => a.index ≤ b.index := by
  have h : ((sort (assigned k.found old new)).map (·.index)).Pairwise (· ≤ ·) :=
    List.pairwise_map.mpr sort_sorted
  rw [← fetched_index lawful] at h
  exact List.pairwise_map.mp h

/-- Every device of the merge has the header and the key of a fetched one, or was
appended. -/
theorem merge_mem (lawful : k.Lawful) (distinct : (old.map (·.index)).Nodup) {x : Device κ}
    (hx : x ∈ k.fetched old new) :
    ∃ y ∈ k.merge old new, y.header = x.header ∧ k.key y.body = k.key x.body := by
  rw [k.merge_eq _ distinct]
  exact ⟨_, List.mem_map_of_mem (List.mem_append_left _ hx), copied_header lawful.settle old x⟩

theorem Kind.Translated.origins (translated : k.Translated old new) :
    (new.map (·.origin)).Perm ((enabled old).map fun s => (s.index, s.itemId)) := by
  have h := translated.same.map Prod.fst
  rw [List.map_map, List.map_map] at h
  exact h

theorem Kind.Translated.indices (translated : k.Translated old new) :
    (new.map (·.origin.1)).Perm ((enabled old).map (·.index)) := by
  have h := translated.origins.map Prod.fst
  rw [List.map_map, List.map_map] at h
  exact h

theorem Kind.Translated.stored (translated : k.Translated old new) {n : Device κ} (hn : n ∈ new) :
    n.origin.1 ∈ old.map (·.index) := by
  have h := translated.indices.mem_iff.mp (List.mem_map_of_mem hn)
  obtain ⟨s, hs, heq⟩ := List.mem_map.mp h
  exact List.mem_map.mpr ⟨s, (List.mem_filter.mp hs).1, heq⟩

theorem remaining_nil : remaining old [] = old := by
  unfold remaining
  exact List.filter_eq_self.mpr fun _ _ => by simp

theorem mem_pool {s : Device κ} (hs : s ∈ old) : s.index ∈ (old.map (·.index)).mergeSort :=
  List.mem_mergeSort.mpr (List.mem_map_of_mem hs)

theorem assigned_picks (distinct : (old.map (·.index)).Nodup) (picks : Picks k.found old [] new) :
    assigned k.found old new = new.map Device.home := by
  have h := @assign_picks _ _ _ _ (old.map (·.index)).mergeSort _ distinct picks
  rw [remaining_nil] at h
  exact h

/-- If the merge gives every device its own index, the matching was clear. -/
theorem Kind.Repaired.picks (lawful : k.Lawful) (distinct : (old.map (·.index)).Nodup)
    (translated : k.Translated old new) (repaired : k.Repaired old new (k.merge old new)) :
    Picks k.found old [] new := by
  refine picks_of_assign distinct (mergeSort_sorted (old.map (·.index)))
    (fun s hs => mem_pool hs) (fun n hn => translated.stored hn) fun a ha => ?_
  rw [remaining_nil] at ha
  obtain ⟨h, hh, heq, -⟩ := assign_source (mergeSort_sorted _) ha
  obtain ⟨x, hx, hheader, -⟩ := fetched_of_assigned lawful ha
  obtain ⟨y, hy, hyheader, -⟩ := merge_mem lawful distinct hx
  have hall : y.header = a.header := hyheader.trans hheader
  have hdisabled : a.disabled = false := by
    rw [heq]
    exact translated.running h hh
  have hindex := repaired.indices y hy ((header_disabled hall).trans hdisabled)
  rw [header_index hall, header_item hall, header_origin hall] at hindex
  exact hindex

section Picked

variable (lawful : k.Lawful) (distinct : (old.map (·.index)).Nodup)
  (translated : k.Translated old new) (picks : Picks k.found old [] new)

include lawful distinct translated picks

theorem fetched_indices :
    ((k.fetched old new).map (·.index)).Perm ((enabled old).map (·.index)) := by
  rw [fetched_index lawful, assigned_picks distinct picks]
  refine (sort_perm.map _).trans ?_
  rw [List.map_map]
  exact translated.indices

theorem merge_late :
    k.merge old new = copyFrom k.settle old (k.fetched old new) ++ k.late old := by
  rw [k.merge_eq _ distinct, appended_congr fun i =>
    (fetched_indices lawful distinct translated picks).mem_iff]
  unfold copyFrom
  rw [List.map_append]
  exact congrArg _ (copyFrom_stored lawful.settle distinct fun d hd => (appended_mem hd).1)

theorem merge_indices : ((k.merge old new).map (·.index)).Perm
    ((enabled old).map (·.index) ++ (k.late old).map (·.index)) := by
  rw [merge_late lawful distinct translated picks, List.map_append,
    copyFrom_index lawful.settle old]
  exact (fetched_indices lawful distinct translated picks).append_right _

theorem merge_distinct : ((k.merge old new).map (·.index)).Nodup := by
  refine (merge_indices lawful distinct translated picks).nodup_iff.mpr ?_
  refine List.nodup_append.mpr
    ⟨distinct.sublist (List.filter_sublist.map _), appended_distinct distinct, ?_⟩
  rintro a ha b hb rfl
  obtain ⟨d, hd, heq⟩ := List.mem_map.mp hb
  rw [← heq] at ha
  exact (appended_mem hd).2 ha

/-- A device of the merge is one of the domain at home, or appended. -/
theorem merge_cases {x : Device κ} (hx : x ∈ k.merge old new) :
    (∃ n ∈ new, x.header = n.home.header ∧ k.key x.body = k.key n.body) ∨ x ∈ k.late old := by
  rw [merge_late lawful distinct translated picks] at hx
  rcases List.mem_append.mp hx with hx | hx
  · obtain ⟨y, hy, rfl⟩ := List.mem_map.mp hx
    obtain ⟨a, ha, hheader, hkey⟩ := fetched_mem lawful hy
    rw [assigned_picks distinct picks] at ha
    obtain ⟨n, hn, rfl⟩ := List.mem_map.mp ha
    obtain ⟨hcopied, hcopiedKey⟩ := copied_header lawful.settle old y
    exact .inl ⟨n, hn, hcopied.trans hheader, hcopiedKey.trans hkey⟩
  · exact .inr hx

end Picked

theorem late_disabled {d : Device κ} (hd : d ∈ k.late old) : d ∈ old ∧ d.disabled = true := by
  obtain ⟨hold, hno⟩ := appended_mem hd
  refine ⟨hold, ?_⟩
  by_contra hrunning
  refine hno (List.mem_map_of_mem (List.mem_filter.mpr ⟨hold, ?_⟩))
  simpa using hrunning

theorem mem_late (lawful : k.Lawful) (distinct : (old.map (·.index)).Nodup)
    (kept : k.passes ≠ []) {d : Device κ} (hd : d ∈ old) (disabled : d.disabled = true) :
    d ∈ k.late old := by
  obtain ⟨p, hp, hall⟩ := lawful.passes.resolve_left kept
  refine (appended_covers distinct hp hd (hall d disabled)).resolve_left fun hin => ?_
  obtain ⟨e, he, heq⟩ := List.mem_map.mp hin
  obtain ⟨hold, hrunning⟩ := List.mem_filter.mp he
  rw [eq_of_index distinct hold hd heq, disabled] at hrunning
  cases hrunning

theorem filter_index {devices : List (Device κ)} (distinct : (devices.map (·.index)).Nodup)
    {d : Device κ} (hd : d ∈ devices) :
    devices.filter (fun x => decide (x.index = d.index)) = [d] := by
  induction devices with
  | nil => cases hd
  | cons x devices ih =>
      obtain ⟨hx, hrest⟩ := List.nodup_cons.mp distinct
      rcases List.mem_cons.mp hd with rfl | hd
      · rw [List.filter_cons, if_pos (decide_eq_true rfl)]
        refine congrArg (d :: ·) (List.filter_eq_nil_iff.mpr fun y hy heq => hx ?_)
        exact List.mem_map.mpr ⟨y, hy, of_decide_eq_true heq⟩
      · have hne : ¬ x.index = d.index := fun heq => hx (List.mem_map.mpr ⟨d, hd, heq.symm⟩)
        rw [List.filter_cons, if_neg (by rw [decide_eq_true_eq]; exact hne)]
        exact ih hrest hd

theorem repaired_of_picks (lawful : k.Lawful) (distinct : (old.map (·.index)).Nodup)
    (translated : k.Translated old new) (picks : Picks k.found old [] new) :
    k.Repaired old new (k.merge old new) where
  distinct := merge_distinct lawful distinct translated picks
  origins := by
    intro n hn
    have ha : n.home ∈ assigned k.found old new := by
      rw [assigned_picks distinct picks]
      exact List.mem_map_of_mem hn
    obtain ⟨x, hx, hheader, hkey⟩ := fetched_of_assigned lawful ha
    obtain ⟨y, hy, hyheader, hykey⟩ := merge_mem lawful distinct hx
    have hall : y.header = n.home.header := hyheader.trans hheader
    have horigin : y.origin = n.home.origin := header_origin hall
    exact ⟨y, hy, (header_disabled hall).trans (translated.running n hn), horigin,
      hykey.trans hkey⟩
  indices := by
    intro x hx hrunning
    rcases merge_cases lawful distinct translated picks hx with ⟨n, -, hheader, -⟩ | hlate
    · rw [header_index hheader, header_item hheader, header_origin hheader]
      rfl
    · rw [(late_disabled hlate).2] at hrunning
      cases hrunning
  disabled := by
    intro kept d hd hdisabled
    refine filter_index (merge_distinct lawful distinct translated picks) ?_
    rw [merge_late lawful distinct translated picks]
    exact List.mem_append_right _ (mem_late lawful distinct kept hd hdisabled)

/-- The stored device a domain device picks. -/
theorem Picks.found {found : Device κ → Device κ → Bool} {used : List Nat}
    (picks : Picks found old used new) {n : Device κ} (hn : n ∈ new) :
    ∃ s ∈ old, found n s = true ∧ s.index = n.origin.1 := by
  induction new generalizing used with
  | nil => cases hn
  | cons m ns ih =>
      obtain ⟨⟨s, hs, horigin⟩, hrest⟩ := picks
      rcases List.mem_cons.mp hn with rfl | hn
      · exact ⟨s, (List.mem_filter.mp (List.mem_of_find?_eq_some hs)).1, List.find?_some hs,
          congrArg Prod.fst horigin⟩
      · exact ih hrest hn

theorem merge_found (lawful : k.Lawful) (distinct : (old.map (·.index)).Nodup)
    (translated : k.Translated old new) (picks : Picks k.found old [] new)
    (selves : ∀ d ∈ k.late old, k.found d d = true) {x : Device κ} (hx : x ∈ k.merge old new) :
    k.found x x = true := by
  rcases merge_cases lawful distinct translated picks hx with ⟨n, hn, hheader, hkey⟩ | hlate
  · obtain ⟨s, -, hfound, hindex⟩ := picks.found hn
    exact lawful.own n s x hfound ((header_index hheader).trans hindex.symm) hkey
  · exact selves x hlate

/-- The merge is sorted just when the appended devices come in order and last. -/
theorem merge_sorted_iff (lawful : k.Lawful) (distinct : (old.map (·.index)).Nodup)
    (translated : k.Translated old new) (picks : Picks k.found old [] new) :
    (k.merge old new).Pairwise (fun a b => a.index ≤ b.index) ↔ k.Ordered old := by
  have hindices := fetched_indices lawful distinct translated picks
  have hfetched : (copyFrom k.settle old (k.fetched old new)).Pairwise
      fun a b => a.index ≤ b.index := by
    have h := List.pairwise_map.mpr (fetched_sorted lawful old new)
    rw [← copyFrom_index lawful.settle old] at h
    exact List.pairwise_map.mp h
  have hmem : ∀ i, (∃ x ∈ copyFrom k.settle old (k.fetched old new), x.index = i) ↔
      ∃ e ∈ old, e.disabled = false ∧ e.index = i := by
    intro i
    rw [← List.mem_map, copyFrom_index lawful.settle old, hindices.mem_iff, List.mem_map]
    unfold enabled
    simp only [List.mem_filter, Bool.not_eq_true', and_assoc]
  rw [merge_late lawful distinct translated picks, List.pairwise_append]
  constructor
  · rintro ⟨-, hlate, hafter⟩
    refine ⟨hlate, fun e he hrunning d hd => ?_⟩
    obtain ⟨x, hx, heq⟩ := (hmem e.index).mpr ⟨e, he, hrunning, rfl⟩
    exact heq ▸ hafter x hx d hd
  · rintro ⟨hlate, hafter⟩
    refine ⟨hfetched, hlate, fun x hx d hd => ?_⟩
    obtain ⟨e, he, hrunning, heq⟩ := (hmem x.index).mp ⟨x, hx, rfl⟩
    exact heq ▸ hafter e he hrunning d hd

theorem appended_nil {passes : List (Device κ → Bool)} {present : List Nat}
    (h : ∀ d ∈ old, d.index ∈ present) : appended passes old present = [] := by
  rw [List.eq_nil_iff_forall_not_mem]
  intro d hd
  obtain ⟨hold, hno⟩ := appended_mem hd
  exact hno (h d hold)

/-- A sorted list whose devices find themselves is not changed by a merge with itself. -/
theorem merge_self (lawful : k.Lawful) {r : List (Device κ)} (distinct : (r.map (·.index)).Nodup)
    (selves : ∀ x ∈ r, k.found x x = true)
    (sorted : r.Pairwise fun a b => a.index ≤ b.index) : k.merge r r = r := by
  have hassigned : assigned k.found r r = r := assign_self selves
  have hfetched : k.fetched r r = r := by
    unfold Kind.fetched
    rw [hassigned, sort_self sorted]
    exact copyFrom_stored lawful.copy distinct fun _ hd => hd
  rw [k.merge_eq _ distinct, hfetched, appended_nil fun d hd => List.mem_map_of_mem hd,
    List.append_nil]
  exact copyFrom_stored lawful.settle distinct fun _ hd => hd

/-- The reverse: what a merge with itself does not change is sorted, and its devices
find themselves. -/
theorem of_merge_self (lawful : k.Lawful) {r : List (Device κ)}
    (distinct : (r.map (·.index)).Nodup) (hself : k.merge r r = r) :
    (∀ x ∈ r, k.found x x = true) ∧ r.Pairwise fun a b => a.index ≤ b.index := by
  have hmerge := k.merge_eq r distinct
  rw [hself] at hmerge
  have hlength : (k.fetched r r).length = r.length := by
    unfold Kind.fetched
    rw [copyFrom_map, List.length_map, sort_perm.length_eq]
    exact assign_length
  have hnil : appended k.passes r ((k.fetched r r).map (·.index)) = [] := by
    have h := congrArg List.length hmerge
    rw [copyFrom_map, List.length_map, List.length_append, hlength] at h
    exact List.eq_nil_of_length_eq_zero (by omega)
  rw [hnil, List.append_nil] at hmerge
  constructor
  · intro x hin
    have hx := hin
    rw [hmerge] at hx
    obtain ⟨y, hy, hcopy⟩ := List.mem_map.mp hx
    obtain ⟨a, ha, hheader, hkey⟩ := fetched_mem lawful hy
    obtain ⟨hcopied, hcopiedKey⟩ := copied_header lawful.settle r y
    obtain ⟨h, hh, heq, hsource⟩ := assign_source (mergeSort_sorted _) ha
    obtain rfl : y.copied k.settle r = x := hcopy
    have hindex : (y.copied k.settle r).index = a.index :=
      header_index (hcopied.trans hheader)
    have hhkey : k.key (y.copied k.settle r).body = k.key h.body := by
      rw [hcopiedKey, hkey, heq]
    rcases hsource with ⟨s, -, hfound, hs⟩ | hfresh
    · exact lawful.own h s _ hfound (hindex.trans hs) hhkey
    · exact absurd (hindex ▸ mem_pool hin) hfresh
  · have h := List.pairwise_map.mpr (fetched_sorted lawful r r)
    rw [← copyFrom_index lawful.settle r, ← hmerge] at h
    exact List.pairwise_map.mp h

/-- The theorem for one class. -/
theorem class_iff (lawful : k.Lawful) (distinct : (old.map (·.index)).Nodup)
    (translated : k.Translated old new) :
    (k.Repaired old new (k.merge old new) ∧
      k.merge (k.merge old new) (k.merge old new) = k.merge old new) ↔ k.Clear old new := by
  constructor
  · rintro ⟨repaired, hself⟩
    have picks := repaired.picks lawful distinct translated
    obtain ⟨selves, sorted⟩ := of_merge_self lawful repaired.distinct hself
    refine ⟨picks, fun d hd => selves d ?_,
      (merge_sorted_iff lawful distinct translated picks).mp sorted⟩
    rw [merge_late lawful distinct translated picks]
    exact List.mem_append_right _ hd
  · rintro ⟨picks, selves, ordered⟩
    have repaired := repaired_of_picks lawful distinct translated picks
    exact ⟨repaired, merge_self lawful repaired.distinct
      (fun x hx => merge_found lawful distinct translated picks selves hx)
      ((merge_sorted_iff lawful distinct translated picks).mpr ordered)⟩

end DispService.Repair
