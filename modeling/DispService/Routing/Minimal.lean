import DispService.Routing.Reconfigure

/-! Reconfiguring is a minimal down and up just when no adapter that is not routed is queued and
every address that moves between adapters is set last by the adapter that ends up with it. -/
namespace DispService.Routing
open Lib.Holders

variable {Addr : Type} [DecidableEq Addr] (host : Host Addr) (old_ new_ : VmConfiguration)

/-- The routes are those of down and up, whatever was there before and however the adapters are
partitioned; kept adapters are left alone, and only routed ones are queued. -/
structure Minimal : Prop where
  routes : ∀ pavers, Reconfigured old_ new_ pavers → ∀ before,
    run host before (up old_ ++ pavers) = run host before (up old_ ++ down old_ ++ up new_)
  untouched : ∀ pavers, Reconfigured old_ new_ pavers →
    ∀ a ∈ old_.m_lstNetworkAdapters, ∀ b ∈ new_.m_lstNetworkAdapters,
      a.hostInterfaceName = b.hostInterfaceName → a.emulatedType = .routed →
      b.emulatedType = .routed → a.netAddresses = b.netAddresses →
      ∀ paver ∈ pavers, paver.m_adapter.hostInterfaceName ≠ a.hostInterfaceName
  routed : ∀ pavers, Reconfigured old_ new_ pavers →
    ∀ paver ∈ pavers, paver.m_adapter.emulatedType = .routed

/-- An address of the new configuration belongs to the last adapter that lists it. If that one has
changed, no other changed one lists it; if not, no changed one does and the address was its own. -/
structure Fit : Prop where
  oldRouted : ∀ a ∈ old_.m_lstNetworkAdapters, a.emulatedType ≠ .routed →
    find a new_.m_lstNetworkAdapters = true
  newRouted : ∀ a ∈ new_.m_lstNetworkAdapters, a.emulatedType ≠ .routed →
    find a old_.m_lstNetworkAdapters = true
  changed : ∀ x w, holder (lists host) new_.m_lstNetworkAdapters x = some w →
    find w old_.m_lstNetworkAdapters = false →
    ∀ b ∈ new_.m_lstNetworkAdapters, lists host b x = true →
      find b old_.m_lstNetworkAdapters = false → b = w
  kept : ∀ x w, holder (lists host) new_.m_lstNetworkAdapters x = some w →
    find w old_.m_lstNetworkAdapters = true →
    (∀ b ∈ new_.m_lstNetworkAdapters, lists host b x = true →
      find b old_.m_lstNetworkAdapters = true) ∧
    ∃ a, holder (lists host) old_.m_lstNetworkAdapters x = some a ∧
      a.hostInterfaceName = w.hostInterfaceName

variable {host old_ new_}

theorem VmConfiguration.ext_name (config_ : VmConfiguration) {a b : GenericNetworkAdapter}
    (ha : a ∈ config_.m_lstNetworkAdapters) (hb : b ∈ config_.m_lstNetworkAdapters)
    (hname : a.hostInterfaceName = b.hostInterfaceName) : a = b :=
  List.inj_on_of_nodup_map config_.distinct ha hb hname

theorem find_iff (a : GenericNetworkAdapter) (config_ : VmConfiguration) :
    find a config_.m_lstNetworkAdapters = true ↔
      ∃ b ∈ config_.m_lstNetworkAdapters, b.hostInterfaceName = a.hostInterfaceName ∧
        b.emulatedType = .routed ∧ b.netAddresses = a.netAddresses := by
  unfold find
  cases hfind : config_.m_lstNetworkAdapters.find?
      fun it => it.hostInterfaceName = a.hostInterfaceName with
  | none =>
      refine iff_of_false (by simp) ?_
      rintro ⟨b, hb, hname, -⟩
      exact List.find?_eq_none.mp hfind b hb (decide_eq_true hname)
  | some it =>
      have hit := List.mem_of_find?_eq_some hfind
      have hname : it.hostInterfaceName = a.hostInterfaceName :=
        of_decide_eq_true (List.find?_some (p := fun it : GenericNetworkAdapter =>
          decide (it.hostInterfaceName = a.hostInterfaceName)) hfind)
      simp only [Bool.and_eq_true, decide_eq_true_eq]
      constructor
      · exact fun h => ⟨it, hit, hname, h⟩
      · rintro ⟨b, hb, hbname, h⟩
        rw [config_.ext_name hit hb (hname.trans hbname.symm)]
        exact h

theorem lists_routed {a : GenericNetworkAdapter} {x : Addr} (h : lists host a x = true) :
    a.emulatedType = .routed := by
  simp only [lists, Bool.and_eq_true, decide_eq_true_eq] at h
  exact h.1.1

/-- The routes of an adapter are those of its name and its addresses. -/
theorem lists_congr {a b : GenericNetworkAdapter} {x : Addr}
    (hname : b.hostInterfaceName = a.hostInterfaceName) (hrouted : b.emulatedType = .routed)
    (hsame : b.netAddresses = a.netAddresses) (h : lists host a x = true) :
    lists host b x = true := by
  simp only [lists, Bool.and_eq_true, decide_eq_true_eq] at h ⊢
  rw [hname, hsame]
  exact ⟨⟨hrouted, h.1.2⟩, h.2⟩

section Run

variable (before : Addr → Option String) (x : Addr)

theorem run_append (ps qs : List Paver) :
    run host before (ps ++ qs) = run host (run host before ps) qs :=
  List.foldl_append

theorem run_enable (adapters : List GenericNetworkAdapter) :
    run host before (adapters.map (⟨·, true⟩)) x =
      ((holder (lists host) adapters x).map (·.hostInterfaceName)).or (before x) := by
  rw [run, List.foldl_map]
  simp only [updateAdapter_enable]
  exact foldl_claim adapters before x

theorem run_disable (adapters : List GenericNetworkAdapter) :
    run host before (adapters.map (⟨·, false⟩)) x =
      if ∃ a ∈ adapters, lists host a x = true ∧ before x = some a.hostInterfaceName then none
      else before x := by
  rw [run, List.foldl_map]
  simp only [updateAdapter_disable]
  exact foldl_release adapters before x

theorem run_up (config_ : VmConfiguration) :
    run host before (up config_) x =
      ((holder (lists host) config_.m_lstNetworkAdapters x).map (·.hostInterfaceName)).or
        (before x) := by
  unfold up configure
  rw [run_enable, holder_filter]
  exact fun a ha => decide_eq_true (lists_routed ha)

/-- After up, an address is with the last adapter that lists it, until that one is disabled. -/
theorem run_up_disable {o : List GenericNetworkAdapter}
    (ho : ∀ a ∈ o, a ∈ old_.m_lstNetworkAdapters) :
    run host (run host before (up old_)) (o.map (⟨·, false⟩)) x =
      match holder (lists host) old_.m_lstNetworkAdapters x with
      | none => before x
      | some a => if a ∈ o then none else some a.hostInterfaceName := by
  rw [run_disable, run_up]
  cases hold : holder (lists host) old_.m_lstNetworkAdapters x with
  | none =>
      rw [if_neg]
      · rfl
      rintro ⟨a, ha, hx, -⟩
      rw [holder_none_iff.mp hold a (ho a ha)] at hx
      exact absurd hx (by simp)
  | some a =>
      refine if_congr ?_ rfl rfl
      constructor
      · rintro ⟨b, hb, -, hname⟩
        have heq : a = b :=
          old_.ext_name (holder_mem hold).1 (ho b hb) (Option.some.inj hname)
        exact heq ▸ hb
      · exact fun ha => ⟨a, ha, (holder_mem hold).2, rfl⟩

theorem run_up_down :
    run host (run host before (up old_)) (down old_) x =
      match holder (lists host) old_.m_lstNetworkAdapters x with
      | none => before x
      | some _ => none := by
  unfold down configure
  rw [run_up_disable before x fun a ha => (List.mem_filter.mp ha).1]
  cases hold : holder (lists host) old_.m_lstNetworkAdapters x with
  | none => rfl
  | some a =>
      obtain ⟨hmem, hx⟩ := holder_mem hold
      exact if_pos (List.mem_filter.mpr ⟨hmem, decide_eq_true (lists_routed hx)⟩)

end Run

theorem mem_changed {o : List GenericNetworkAdapter} {a : GenericNetworkAdapter}
    {config_ other : VmConfiguration}
    (ho : o.Perm (config_.m_lstNetworkAdapters.filter fun a => !find a other.m_lstNetworkAdapters)) :
    a ∈ o ↔ a ∈ config_.m_lstNetworkAdapters ∧ find a other.m_lstNetworkAdapters = false := by
  rw [ho.mem_iff, List.mem_filter, Bool.not_eq_true']

theorem run_reconfigured {o n : List GenericNetworkAdapter} (before : Addr → Option String)
    (x : Addr)
    (ho : o.Perm (old_.m_lstNetworkAdapters.filter fun a => !find a new_.m_lstNetworkAdapters)) :
    run host before (up old_ ++ (o.map (⟨·, false⟩) ++ n.map (⟨·, true⟩))) x =
      ((holder (lists host) n x).map (·.hostInterfaceName)).or
        (match holder (lists host) old_.m_lstNetworkAdapters x with
        | none => before x
        | some a =>
            if find a new_.m_lstNetworkAdapters then some a.hostInterfaceName else none) := by
  rw [run_append, run_append, run_enable,
    run_up_disable before x fun a ha => ((mem_changed ho).mp ha).1]
  congr 1
  cases hold : holder (lists host) old_.m_lstNetworkAdapters x with
  | none => rfl
  | some a =>
      have ha : a ∈ o ↔ find a new_.m_lstNetworkAdapters = false := by
        rw [mem_changed ho]
        exact and_iff_right (holder_mem hold).1
      dsimp only
      cases hfind : find a new_.m_lstNetworkAdapters <;> simp [ha, hfind]

theorem run_down_up (before : Addr → Option String) (x : Addr) :
    run host before (up old_ ++ down old_ ++ up new_) x =
      ((holder (lists host) new_.m_lstNetworkAdapters x).map (·.hostInterfaceName)).or
        (match holder (lists host) old_.m_lstNetworkAdapters x with
        | none => before x
        | some _ => none) := by
  rw [run_append, run_append, run_up, run_up_down]

/-- The adapters that stay the same are never queued. -/
theorem untouched {pavers : List Paver} (h : Reconfigured old_ new_ pavers)
    {a b : GenericNetworkAdapter} (ha : a ∈ old_.m_lstNetworkAdapters)
    (hb : b ∈ new_.m_lstNetworkAdapters) (hname : a.hostInterfaceName = b.hostInterfaceName)
    (harouted : a.emulatedType = .routed) (hbrouted : b.emulatedType = .routed)
    (hsame : a.netAddresses = b.netAddresses) {paver : Paver} (hpaver : paver ∈ pavers) :
    paver.m_adapter.hostInterfaceName ≠ a.hostInterfaceName := by
  obtain ⟨o, n, ho, hn, rfl⟩ := h
  intro heq
  rcases List.mem_append.mp hpaver with hmem | hmem
  · obtain ⟨q, hq, rfl⟩ := List.mem_map.mp hmem
    obtain ⟨hqold, hqfind⟩ := (mem_changed ho).mp hq
    rw [old_.ext_name hqold ha heq] at hqfind
    have hfind : find a new_.m_lstNetworkAdapters = true :=
      (find_iff a new_).mpr ⟨b, hb, hname.symm, hbrouted, hsame.symm⟩
    rw [hfind] at hqfind
    exact absurd hqfind (by simp)
  · obtain ⟨q, hq, rfl⟩ := List.mem_map.mp hmem
    obtain ⟨hqnew, hqfind⟩ := (mem_changed hn).mp hq
    rw [new_.ext_name hqnew hb (heq.trans hname)] at hqfind
    have hfind : find b old_.m_lstNetworkAdapters = true :=
      (find_iff b old_).mpr ⟨a, ha, hname, harouted, hsame⟩
    rw [hfind] at hqfind
    exact absurd hqfind (by simp)

section Enough

theorem Fit.routed (fit : Fit host old_ new_) {pavers : List Paver}
    (h : Reconfigured old_ new_ pavers) {paver : Paver} (hpaver : paver ∈ pavers) :
    paver.m_adapter.emulatedType = .routed := by
  obtain ⟨o, n, ho, hn, rfl⟩ := h
  by_contra hrouted
  rcases List.mem_append.mp hpaver with hmem | hmem
  · obtain ⟨q, hq, rfl⟩ := List.mem_map.mp hmem
    obtain ⟨hqold, hqfind⟩ := (mem_changed ho).mp hq
    rw [fit.oldRouted q hqold hrouted] at hqfind
    exact absurd hqfind (by simp)
  · obtain ⟨q, hq, rfl⟩ := List.mem_map.mp hmem
    obtain ⟨hqnew, hqfind⟩ := (mem_changed hn).mp hq
    rw [fit.newRouted q hqnew hrouted] at hqfind
    exact absurd hqfind (by simp)

theorem Fit.routes (fit : Fit host old_ new_) {pavers : List Paver}
    (h : Reconfigured old_ new_ pavers) (before : Addr → Option String) :
    run host before (up old_ ++ pavers) =
      run host before (up old_ ++ down old_ ++ up new_) := by
  obtain ⟨o, n, ho, hn, rfl⟩ := h
  funext x
  rw [run_reconfigured before x ho, run_down_up]
  cases hnew : holder (lists host) new_.m_lstNetworkAdapters x with
  | none =>
      have hn' : holder (lists host) n x = none :=
        holder_none_iff.mpr fun b hb => holder_none_iff.mp hnew b ((mem_changed hn).mp hb).1
      rw [hn']
      cases hold : holder (lists host) old_.m_lstNetworkAdapters x with
      | none => rfl
      | some a =>
          obtain ⟨ha, hx⟩ := holder_mem hold
          have hfind : find a new_.m_lstNetworkAdapters = false := by
            by_contra hfound
            obtain ⟨b, hb, hname, hrouted, hsame⟩ :=
              (find_iff a new_).mp (Bool.not_eq_false _ ▸ hfound)
            have hbx := lists_congr hname hrouted hsame hx
            rw [holder_none_iff.mp hnew b hb] at hbx
            exact absurd hbx (by simp)
          simp [hfind]
  | some w =>
      obtain ⟨hw, hwx⟩ := holder_mem hnew
      cases hfind : find w old_.m_lstNetworkAdapters with
      | false =>
          have hn' : holder (lists host) n x = some w := by
            refine holder_of_unique ((mem_changed hn).mpr ⟨hw, hfind⟩) hwx fun b hb hbx => ?_
            obtain ⟨hbnew, hbfind⟩ := (mem_changed hn).mp hb
            exact fit.changed x w hnew hfind b hbnew hbx hbfind
          rw [hn']
          rfl
      | true =>
          obtain ⟨hkept, a, hold, hname⟩ := fit.kept x w hnew hfind
          have hn' : holder (lists host) n x = none := by
            refine holder_none_iff.mpr fun b hb => ?_
            obtain ⟨hbnew, hbfind⟩ := (mem_changed hn).mp hb
            by_contra hbx
            rw [hkept b hbnew (Bool.not_eq_false _ ▸ hbx)] at hbfind
            exact absurd hbfind (by simp)
          obtain ⟨b, hb, hbname, _, hbsame⟩ := (find_iff w old_).mp hfind
          have hab : b = a :=
            old_.ext_name hb (holder_mem hold).1 (hbname.trans hname.symm)
          have hafind : find a new_.m_lstNetworkAdapters = true :=
            (find_iff a new_).mpr ⟨w, hw, hname.symm, lists_routed hwx, hab ▸ hbsame.symm⟩
          simp [hn', hold, hafind, hname]

end Enough

section Needed

variable (minimal : Minimal host old_ new_)
include minimal

/-- The route of an address after one order of the adapters that have changed. -/
theorem Minimal.route {n : List GenericNetworkAdapter} {x : Addr} {w : GenericNetworkAdapter}
    (hn : n.Perm (new_.m_lstNetworkAdapters.filter fun a => !find a old_.m_lstNetworkAdapters))
    (hnew : holder (lists host) new_.m_lstNetworkAdapters x = some w) :
    ((holder (lists host) n x).map (·.hostInterfaceName)).or
        (match holder (lists host) old_.m_lstNetworkAdapters x with
        | none => none
        | some a =>
            if find a new_.m_lstNetworkAdapters then some a.hostInterfaceName else none) =
      some w.hostInterfaceName := by
  have h := congrFun (minimal.routes _ ⟨_, n, .refl _, hn, rfl⟩ fun _ => none) x
  rw [run_reconfigured _ x (.refl _), run_down_up, hnew] at h
  exact h

theorem Minimal.changed {x : Addr} {w b : GenericNetworkAdapter}
    (hnew : holder (lists host) new_.m_lstNetworkAdapters x = some w)
    (hb : b ∈ new_.m_lstNetworkAdapters) (hbx : lists host b x = true)
    (hbfind : find b old_.m_lstNetworkAdapters = false) : b = w := by
  let n := new_.m_lstNetworkAdapters.filter fun a => !find a old_.m_lstNetworkAdapters
  have hbn : b ∈ n := (mem_changed (.refl _)).mpr ⟨hb, hbfind⟩
  have hlast : (n.erase b ++ [b]).Perm n :=
    (List.perm_append_singleton b _).trans (List.perm_cons_erase hbn).symm
  have hroute := minimal.route hlast hnew
  rw [holder_append, if_pos hbx] at hroute
  exact new_.ext_name hb (holder_mem hnew).1 (Option.some.inj hroute)

theorem Minimal.kept {x : Addr} {w : GenericNetworkAdapter}
    (hnew : holder (lists host) new_.m_lstNetworkAdapters x = some w)
    (hfind : find w old_.m_lstNetworkAdapters = true) :
    (∀ b ∈ new_.m_lstNetworkAdapters, lists host b x = true →
      find b old_.m_lstNetworkAdapters = true) ∧
    ∃ a, holder (lists host) old_.m_lstNetworkAdapters x = some a ∧
      a.hostInterfaceName = w.hostInterfaceName := by
  have hkept : ∀ b ∈ new_.m_lstNetworkAdapters, lists host b x = true →
      find b old_.m_lstNetworkAdapters = true := by
    intro b hb hbx
    by_contra hbfind
    have heq := minimal.changed hnew hb hbx (Bool.not_eq_true _ ▸ hbfind)
    exact hbfind (heq ▸ hfind)
  refine ⟨hkept, ?_⟩
  have hroute := minimal.route (.refl _) hnew
  have hnone : holder (lists host)
      (new_.m_lstNetworkAdapters.filter fun a => !find a old_.m_lstNetworkAdapters) x = none := by
    refine holder_none_iff.mpr fun b hb => ?_
    obtain ⟨hbnew, hbfind⟩ := (mem_changed (.refl _)).mp hb
    by_contra hbx
    rw [hkept b hbnew (Bool.not_eq_false _ ▸ hbx)] at hbfind
    exact absurd hbfind (by simp)
  rw [hnone] at hroute
  cases hold : holder (lists host) old_.m_lstNetworkAdapters x with
  | none => simp [hold] at hroute
  | some a =>
      refine ⟨a, rfl, ?_⟩
      cases hafind : find a new_.m_lstNetworkAdapters with
      | false => simp [hold, hafind] at hroute
      | true => simpa [hold, hafind] using hroute

theorem Minimal.fit : Fit host old_ new_ where
  oldRouted := by
    intro a ha hrouted
    by_contra hfind
    have hmem : a ∈ old_.m_lstNetworkAdapters.filter fun a => !find a new_.m_lstNetworkAdapters :=
      (mem_changed (.refl _)).mpr ⟨ha, Bool.not_eq_true _ ▸ hfind⟩
    exact hrouted (minimal.routed _ ⟨_, _, .refl _, .refl _, rfl⟩ ⟨a, false⟩
      (List.mem_append_left _ (List.mem_map_of_mem hmem)))
  newRouted := by
    intro a ha hrouted
    by_contra hfind
    have hmem : a ∈ new_.m_lstNetworkAdapters.filter fun a => !find a old_.m_lstNetworkAdapters :=
      (mem_changed (.refl _)).mpr ⟨ha, Bool.not_eq_true _ ▸ hfind⟩
    exact hrouted (minimal.routed _ ⟨_, _, .refl _, .refl _, rfl⟩ ⟨a, true⟩
      (List.mem_append_right _ (List.mem_map_of_mem hmem)))
  changed := fun _ _ hnew _ _ hb hbx hbfind => minimal.changed hnew hb hbx hbfind
  kept := fun _ _ hnew hfind => minimal.kept hnew hfind

end Needed

theorem minimal_iff_fit : Minimal host old_ new_ ↔ Fit host old_ new_ :=
  ⟨Minimal.fit, fun fit => {
    routes := fun _ h before => fit.routes h before
    untouched := fun _ h _ ha _ hb hname harouted hbrouted hsame _ hpaver =>
      untouched h ha hb hname harouted hbrouted hsame hpaver
    routed := fun _ h _ hpaver => fit.routed h hpaver }⟩

/-- The only adapter is bridged, before and after. -/
def bridged : VmConfiguration where
  m_lstNetworkAdapters := [⟨"vme001c42", .bridge, []⟩]
  distinct := by simp

/-- A bridged adapter is queued to be disabled and enabled. -/
theorem minimal_fails :
    ¬ Minimal (⟨fun _ => none, fun _ => true⟩ : Host Nat) bridged bridged := by
  intro minimal
  have h := minimal.routed _ ⟨_, _, .refl _, .refl _, rfl⟩
    ⟨⟨"vme001c42", .bridge, []⟩, false⟩ (List.mem_append_left _ (List.mem_singleton.mpr rfl))
  exact absurd h (by decide)

end DispService.Routing
