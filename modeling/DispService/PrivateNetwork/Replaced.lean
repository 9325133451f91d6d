import DispService.PrivateNetwork.Managed

/-! Updates and removals, and the promises of a whole run of requests. -/
namespace DispService.PrivateNetwork

open DispService.Lib
open DispService.Lib.Script

variable {h : Host} {a b m net : Network} {x : Fact} {faults : Faults} {t : Finset Fact}
  {nets rest : List Network} {s : State} {c : Choice} {i : Nat} {e : PrlResult}

/-- What is left of a network of the list, whichever write of its removal fails. -/
theorem left_over (faults : Faults) (listed : Listed h nets) (hi : nets[i]? = some m) :
    describe h (nets.eraseIdx i) ⊆ (removePrivateNetwork h m faults (describe h nets)).1 ∧
    (removePrivateNetwork h m faults (describe h nets)).1 ⊆ describe h nets := by
  obtain ⟨-, fits⟩ := listed.at hi
  obtain ⟨hless, hkept⟩ := @run_drops_within _ _ _ _ faults (describe h nets) (@removal_drops h m)
  refine ⟨fun x hx => hkept x ?_ ?_, hless⟩
  · rw [describe_at hi]
    exact Finset.mem_union_right _ hx
  · obtain ⟨b, hb, hxb⟩ := mem_describe.mp hx
    exact spared (fits.apart hb) hxb

theorem dropped (listed : Listed h nets) (hi : nets[i]? = some m) (clean : faults.Clean) :
    (removePrivateNetwork h m faults (describe h nets)).1 = describe h (nets.eraseIdx i) := by
  obtain ⟨-, fits⟩ := listed.at hi
  rw [describe_perm (perm_at hi)]
  exact removed fits.numbered (fun b hb => fits.apart hb) clean

/-- The removal of a sparse network is refused at one of its ids, or is all done. -/
theorem removal_refused (ha : a.isGlobal = false) (numbered : Numbered h a)
    (hsparse : h.sparse = true) (h4 : Fact.id .v4 a.networkId ∈ t)
    (h6 : h.sparse6 = true → Fact.id .v6 a.networkId ∈ t) :
    Fact.id .v4 a.networkId ∈ (removePrivateNetwork h a faults t).1 ∨
    (h.sparse6 = true ∧ Fact.id .v6 a.networkId ∈ (removePrivateNetwork h a faults t).1) ∨
    (removePrivateNetwork h a faults t).1 =
      (removePrivateNetwork h a (fun _ => false) t).1 := by
  have hclean : Faults.Clean fun _ => false := fun _ => rfl
  unfold removePrivateNetwork
  rw [removal_sparse ha]
  unfold removeSparseNetwork
  rw [if_neg (numbered ha), if_pos hsparse]
  by_cases h0 : faults 0 = true
  · rw [run_drop_refused h0]
    exact .inl h4
  · rw [run_drop_done (Bool.not_eq_true _ ▸ h0), run_drop_done (hclean 0)]
    split
    · rename_i hfile
      by_cases h1 : faults 1 = true
      · rw [@run_drop_refused _ _ _ _ faults.tail _ _ _ h1]
        refine .inr (.inl ⟨hfile, Finset.mem_filter.mpr ⟨h6 hfile, ?_⟩⟩)
        simp [about]
      · rw [@run_drop_done _ _ _ _ faults.tail _ _ _ (Bool.not_eq_true _ ▸ h1),
          run_drop_done (hclean.tail 0)]
        exact .inr (.inr rfl)
    · exact .inr (.inr rfl)

/-- A sparse network whose addition succeeds had none of its ids in the kernel. -/
theorem added_fresh (ha : a.isGlobal = false) (hdone : (run (addition h a) faults t).2 = none) :
    Fact.id .v4 a.networkId ∉ t ∧ (h.sparse6 = true → Fact.id .v6 a.networkId ∉ t) := by
  refine ⟨fun hin => known_refused ha hin hdone, fun h6 hin => ?_⟩
  cases hsparse : h.sparse with
  | false =>
      rw [addition_missing ha hsparse] at hdone
      cases hdone
  | true =>
      rw [addition_sparse ha hsparse, if_pos h6] at hdone
      by_cases hfirst : faults 0 = true ∨ ((true : Bool) = true ∧ Fact.id .v4 a.networkId ∈ t)
      · rw [run_put_refused hfirst] at hdone
        cases hdone
      · obtain ⟨hfault, hnot⟩ := not_or.mp hfirst
        rw [run_put_done (Bool.not_eq_true _ ▸ hfault) fun hf hin => hnot ⟨hf, hin⟩,
          List.singleton_append,
          run_put_refused (.inr ⟨rfl, Finset.mem_insert_of_mem hin⟩)] at hdone
        cases hdone

theorem finds_id (hid : net.networkId ≠ h.generateId) (hfinds : h.finds net m = true) :
    m.networkId = net.networkId := by
  unfold Host.finds at hfinds
  rw [if_neg hid] at hfinds
  exact of_decide_eq_true hfinds

/-- The network an update makes fits in the place of the old one, but for its script. -/
theorem update_ids (listed : Listed h nets) (hi : nets[i]? = some m)
    (hfinds : h.finds net m = true)
    (hglobals : net.networkId = h.generateId → net.isGlobal = false →
      ∀ b ∈ nets.eraseIdx i, b.isGlobal = true → b.networkId = h.generateId)
    (made : Made h net a) (apart : ∀ b ∈ nets.eraseIdx i, Apart a b) :
    ∀ b ∈ nets.eraseIdx i, a.networkId = b.networkId → a.networkId = h.generateId := by
  intro b hb heq
  obtain ⟨-, fits⟩ := listed.at hi
  by_cases hid : net.networkId = h.generateId
  · cases hglobal : net.isGlobal with
    | true =>
        rw [made.2 (.inr hglobal)]
        exact hid
    | false =>
        cases hb' : b.isGlobal with
        | true => exact heq.trans (hglobals hid hglobal b hb hb')
        | false =>
            exact absurd heq.symm ((apart b hb).ids (made.global.trans hglobal) hb')
  · rw [made.2 (.inl hid)] at heq ⊢
    rw [← finds_id hid hfinds] at heq ⊢
    exact fits.id b hb heq

/-- The rest of the list has no sparse network with the id of the request. -/
theorem update_free (listed : Listed h nets) (hi : nets[i]? = some m)
    (hfinds : h.finds net m = true) (hid : net.networkId ≠ h.generateId) :
    ∀ b ∈ nets.eraseIdx i, b.networkId ≠ net.networkId := by
  intro b hb heq
  obtain ⟨-, fits⟩ := listed.at hi
  have hm := finds_id hid hfinds
  exact hid (hm.symm.trans (fits.id b hb (hm.trans heq.symm)))

/-- Whatever is left of the old network, the new one is told apart from the rest. -/
theorem update_apart (listed : Listed h nets) (hi : nets[i]? = some m)
    (hfinds : h.finds net m = true) (hforeign : ∀ b ∈ nets.eraseIdx i, Foreign net b)
    (hrest : describe h (nets.eraseIdx i) ⊆ t) :
    ∀ b ∈ nets.eraseIdx i, Apart (identify h net [] t) b := by
  obtain ⟨hlisted, -⟩ := listed.at hi
  exact made_apart hlisted hforeign hrest fun hid _ b hb _ => update_free listed hi hfinds hid b hb

/-- A failed update leaves no trace, whatever was left of the old network. -/
theorem Settled.update_restored (settled : Settled h s) (hi : s.nets[i]? = some m)
    (hfinds : h.finds net m = true) (hundo : c.undo.Clean) (hrestore : c.restore.Clean)
    (hforeign : ∀ b ∈ s.nets.eraseIdx i, Foreign net b)
    (hkept : describe h (s.nets.eraseIdx i) ⊆ t) (hless : t ⊆ describe h s.nets)
    (hold : t = describe h (s.nets.eraseIdx i) ∨
      (net.networkId ≠ h.generateId ∧ net.isGlobal = false ∧ m.isGlobal = false)) :
    State.restore h { s with kernel := (addPrivateNetwork h net [] c.put t).2.1 }
      (addPrivateNetwork h net [] c.put t).1 (some i) c = s := by
  have hlisted := settled.listed
  obtain ⟨-, fits⟩ := hlisted.at hi
  obtain ⟨hmade, -⟩ := @addPrivateNetwork_cases h net c.put t []
  obtain ⟨hgrown, hadded⟩ := @addPrivateNetwork_within h net c.put t []
  have hapart := update_apart hlisted hi hfinds hforeign hkept
  rw [← hmade] at hapart
  refine (restore_back (s := { s with kernel := (addPrivateNetwork h net [] c.put t).2.1 })
    hlisted hi ?_ hrestore).trans settled.same
  refine taken_back hapart hundo (hkept.trans hgrown) fun x hx hno => ?_
  by_cases hin : x ∈ t
  · rcases hold with hclean | ⟨hid, hnet, hsparse⟩
    · rw [hclean] at hin
      exact absurd hin hno
    · have hnetmade : (addPrivateNetwork h net [] c.put t).1 = net := by
        rw [hmade]
        exact (identify_made (h := h)).2 (.inl hid)
      have hmem := hless hin
      rw [describe_at hi] at hmem
      rw [hnetmade, ← removal_same hsparse hnet (finds_id hid hfinds)]
      exact covered fits.numbered ((Finset.mem_union.mp hmem).resolve_right hno)
  · exact hadded x hx hin

/-- An update that succeeds found the old network wholly removed. -/
theorem Settled.update_dropped (settled : Settled h s) (hi : s.nets[i]? = some m)
    (hfinds : h.finds net m = true)
    (hsafe : c.drop.Clean ∨
      (net.networkId ≠ h.generateId ∧ net.isGlobal = false ∧ m.isGlobal = false))
    (hdone : (addPrivateNetwork h net [] c.put
      (removePrivateNetwork h m c.drop s.kernel).1).2.2 = none) :
    (removePrivateNetwork h m c.drop s.kernel).1 = describe h (s.nets.eraseIdx i) := by
  have hlisted := settled.listed
  rw [settled.kernel] at hdone ⊢
  rcases hsafe with clean | ⟨hid, hnet, hsparse⟩
  · exact dropped hlisted hi clean
  · obtain ⟨-, fits⟩ := hlisted.at hi
    have hm := finds_id hid hfinds
    have hsub : facts h m ⊆ describe h s.nets := by
      rw [describe_at hi]
      exact Finset.subset_union_left
    rw [addPrivateNetwork_numbered fun _ => hid] at hdone
    obtain ⟨h4, h6⟩ := added_fresh hnet hdone
    rw [← hm] at h4 h6
    rcases removal_refused hsparse fits.numbered (fits.whole.sparse hsparse)
      (hsub (fits.whole.knows hsparse)) (fun hfile => hsub (fits.whole.knows6 hsparse hfile)) with
      hv4 | ⟨hfile, hv6⟩ | hall
    · exact absurd hv4 h4
    · exact absurd hv6 (h6 hfile)
    · exact hall.trans (dropped hlisted hi fun _ => rfl)

theorem Settled.update (settled : Settled h s) (safe : SafeUpdate h s net c) :
    Fine h s (.update (some net)) (s.update h net c) := by
  unfold State.update
  split
  · exact .failed rfl rfl
  · rename_i i hfind
    obtain ⟨hlt, hfinds, -⟩ := List.findIdx?_eq_some_iff_getElem.mp hfind
    obtain ⟨m, hi⟩ : ∃ m, s.nets[i]? = some m := ⟨_, List.getElem?_eq_getElem hlt⟩
    have hm : h.finds net m = true := by
      rw [List.getElem?_eq_getElem hlt] at hi
      exact Option.some.inj hi ▸ hfinds
    obtain ⟨⟨hundo, hrestore, hsave⟩, hforeign, hdrop, hglobals⟩ := safe i m hfind hi
    have hlisted := settled.listed
    split
    · exact .failed rfl rfl
    · rename_i hnames
      split
      · rename_i hvalid
        exact .failed hvalid rfl
      · simp only [hi]
        split
        · rename_i e hresult
          refine .failed (addPrivateNetwork_failed hresult) ?_
          obtain ⟨hkept, hless⟩ := left_over c.drop hlisted hi
          rw [← settled.kernel] at hkept hless
          refine settled.update_restored hi hm hundo hrestore hforeign hkept
            (settled.kernel ▸ hless) ?_
          rcases hdrop with clean | hboth
          · refine .inl ?_
            rw [settled.kernel]
            exact dropped hlisted hi clean
          · exact .inr hboth
        · rename_i hresult
          have hrest := settled.update_dropped hi hm hdrop hresult
          rw [hrest] at hresult ⊢
          obtain ⟨hmade, -⟩ := @addPrivateNetwork_cases h net c.put
            (describe h (s.nets.eraseIdx i)) []
          obtain ⟨hkernel, whole, numbered⟩ := addPrivateNetwork_done hresult
          have hapart := update_apart hlisted hi hm hforeign (Finset.Subset.refl _)
          rw [← hmade] at hapart
          generalize addPrivateNetwork h net [] c.put (describe h (s.nets.eraseIdx i)) = r
            at hmade hkernel whole numbered hapart ⊢
          have made : Made h net r.1 := hmade ▸ identify_made
          have fits : Fits h r.1 (s.nets.eraseIdx i) := by
            refine ⟨fun b hb heq => hnames ?_,
              update_ids hlisted hi hm hglobals made hapart, whole, numbered,
              fun b hb => made.foreign (hforeign b hb)⟩
            rw [made.name] at heq
            exact List.any_eq_true.mpr ⟨b, hb, decide_eq_true heq⟩
          rw [State.write_sure hsave]
          refine .done rfl ⟨?_, ?_, rfl⟩ ⟨net, rfl, i, m, r.1, hi, hm, made, rfl⟩
          · exact ((hlisted.at hi).1.cons fits).perm (perm_set hi).symm
          · refine hkernel.trans ?_
            rw [Finset.union_comm]
            exact describe_perm (perm_set hi).symm

/-- A request that describes a global network of the list reaches the same entries. -/
theorem Whole.same_addresses (whole : Whole h m) (hm : m.isGlobal = true)
    (hnet : net.isGlobal = true) (hsame : ∀ y, y ∈ net.netAddresses ↔ y ∈ m.netAddresses) :
    (∀ x ∈ facts h m, region (removal h net) x = true) ∧ ∀ w ∈ removal h net, ¬ w.IsStop := by
  have hlegacy : h.legacy = true := by
    by_contra hno
    refine whole (.stop .fileNotFound) ?_ trivial
    rw [addition_global hm]
    unfold addLegacyNetwork
    rw [if_neg hno]
    exact List.mem_singleton_self _
  have hscript : ∀ b : Network, b.isGlobal = true → addition h b =
      b.netAddresses.map (legacyAddress h fun x => .put x false .ipprivateNetworkInvalidIp) := by
    intro b hb
    rw [addition_global hb]
    unfold addLegacyNetwork
    rw [if_pos hlegacy]
  have hmember : ∀ w, w ∈ addition h net ↔ w ∈ addition h m := by
    intro w
    rw [hscript net hnet, hscript m hm, List.mem_map, List.mem_map]
    exact exists_congr fun y => and_congr_left' (hsame y)
  have hwhole : Whole h net := fun w hw => whole w ((hmember w).mp hw)
  constructor
  · intro x hx
    obtain ⟨fresh, e, hput⟩ := put_of_content hx
    refine covered (a := net) (fun hno => ?_) (content_of_put hwhole ((hmember _).mpr hput))
    rw [hnet] at hno
    cases hno
  · intro w hw
    rw [removal_global hnet] at hw
    unfold removeLegacyNetwork at hw
    rw [if_pos hlegacy] at hw
    obtain ⟨y, hy, rfl⟩ := List.mem_map.mp hw
    rcases legacyAddress_cases (h := h) y with ⟨f, hf⟩ | ⟨e, he⟩
    · rw [hf]
      exact id
    · refine absurd ?_ (hwhole (.stop e) ?_)
      · trivial
      · rw [hscript net hnet]
        exact List.mem_map.mpr ⟨y, hy, he _⟩

theorem Whole.removal_stop (whole : Whole h m) (hm : m.isGlobal = false)
    (numbered : Numbered h m) : ∀ w ∈ removal h m, ¬ w.IsStop := by
  intro w hw
  rw [removal_sparse hm] at hw
  unfold removeSparseNetwork at hw
  rw [if_neg (numbered hm), if_pos (whole.sparse hm)] at hw
  rcases List.mem_cons.mp hw with rfl | hw
  · exact id
  · split at hw
    · obtain rfl := List.mem_singleton.mp hw
      exact id
    · cases hw

/-- A request that reaches the entries of one network of the list and no others
removes it, or nothing. -/
theorem Settled.removed_exactly (settled : Settled h s) (hi : s.nets[i]? = some m)
    (hcovers : ∀ x ∈ facts h m, region (removal h net) x = true)
    (hapart : ∀ b ∈ s.nets.eraseIdx i, Apart net b) (hstop : ∀ w ∈ removal h net, ¬ w.IsStop)
    (hfaults : c.drop.tail.Clean) :
    (∃ e, removePrivateNetwork h net c.drop s.kernel = (s.kernel, some e)) ∨
    removePrivateNetwork h net c.drop s.kernel = (describe h (s.nets.eraseIdx i), none) := by
  have hfilter : s.kernel.filter (fun x => region (removal h net) x = false) =
      describe h (s.nets.eraseIdx i) := by
    rw [← @run_drops _ _ _ _ (fun _ => false) _ removal_drops fun _ => rfl, settled.kernel]
    refine taken_back hapart (fun _ => rfl) ?_ fun x hx hno => ?_
    · rw [describe_at hi]
      exact Finset.subset_union_right
    · rw [describe_at hi] at hx
      exact hcovers x ((Finset.mem_union.mp hx).resolve_right hno)
  rw [← hfilter]
  exact run_drops_first removal_drops hstop hfaults

theorem Settled.remove (settled : Settled h s) (safe : SafeRemove h s net c) :
    Fine h s (.remove (some net)) (s.remove h net c) := by
  unfold State.remove
  split
  · exact .failed rfl rfl
  · rename_i i hfind
    obtain ⟨hlt, hname, -⟩ := List.findIdx?_eq_some_iff_getElem.mp hfind
    obtain ⟨m, hi⟩ : ∃ m, s.nets[i]? = some m := ⟨_, List.getElem?_eq_getElem hlt⟩
    have hm : m.name = net.name := by
      rw [List.getElem?_eq_getElem hlt] at hi
      exact Option.some.inj hi ▸ of_decide_eq_true hname
    obtain ⟨hsave, hfaults, hkind⟩ := safe i m hfind hi
    have hlisted := settled.listed
    obtain ⟨hrest, fits⟩ := hlisted.at hi
    have hexact : (∃ e, removePrivateNetwork h net c.drop s.kernel = (s.kernel, some e)) ∨
        removePrivateNetwork h net c.drop s.kernel = (describe h (s.nets.eraseIdx i), none) := by
      rcases hkind with ⟨hnet, hid⟩ | ⟨hnet, hsparse, hid⟩ | ⟨hnet, hglobal, hsame⟩
      · refine .inl ⟨.ipprivateNetworkDoesNotExist, ?_⟩
        unfold removePrivateNetwork
        rw [removal_sparse hnet]
        unfold removeSparseNetwork
        rw [if_pos hid]
        rfl
      · refine settled.removed_exactly hi ?_
          (fun b hb => (fits.apart hb).same_id hsparse hnet hid.symm) ?_ hfaults
        · rw [removal_same hnet hsparse hid]
          exact fun x hx => covered fits.numbered hx
        · rw [removal_same hnet hsparse hid]
          exact fits.whole.removal_stop hsparse fits.numbered
      · obtain ⟨hcovers, hstop⟩ := fits.whole.same_addresses hglobal hnet hsame
        refine settled.removed_exactly hi hcovers (fun b hb => ⟨fun hno => ?_, ?_⟩) hstop hfaults
        · rw [hnet] at hno
          cases hno
        · intro _ hb' y hy
          exact fits.foreign b hb hglobal hb' y ((hsame y).mp hy)
    dsimp only
    rcases hexact with ⟨e, hrefused⟩ | hdone
    · rw [hrefused]
      refine .failed ?_ rfl
      have hresult : (removePrivateNetwork h net c.drop s.kernel).2 = some e := by rw [hrefused]
      obtain ⟨w, hw, he⟩ := run_error hresult
      exact failed_of_ne (he ▸ removal_error hw)
    · rw [hdone, State.write_sure hsave]
      exact .done rfl ⟨hrest, rfl, rfl⟩ ⟨net, rfl, i, m, hi, hm, rfl⟩

theorem Settled.perform (settled : Settled h s) {l : Request × Choice} (safe : Safe h s l) :
    Fine h s l.1 (s.perform h l) := by
  obtain ⟨request, c⟩ := l
  cases request with
  | add net => exact settled.add safe
  | update net? =>
      cases net? with
      | none => exact .failed rfl rfl
      | some net => exact settled.update (safe net rfl)
  | remove net? =>
      cases net? with
      | none => exact .failed rfl rfl
      | some net => exact settled.remove (safe net rfl)

theorem Fine.honest {l : Request × Choice} (fine : Fine h s l.1 (s.perform h l)) :
    Honest h s l := by
  cases fine with
  | failed code same =>
      refine ⟨fun _ => same, fun hno => ?_⟩
      rw [code] at hno
      cases hno
  | done code settled changed =>
      refine ⟨fun hno => ?_, fun _ => changed⟩
      rw [code] at hno
      cases hno

theorem Fine.settled {l : Request × Choice} (start : Settled h s)
    (fine : Fine h s l.1 (s.perform h l)) : Settled h (s.step h l) := by
  unfold State.step
  cases fine with
  | failed code same =>
      rw [same]
      exact start
  | done code settled changed => exact settled

theorem settled_empty : Settled h {} where
  listed := ⟨List.nodup_nil, .nil, (fun _ hno => by cases hno), (fun _ hno => by cases hno), .nil⟩
  kernel := rfl
  saved := rfl

/-- In a run of safe requests the list, its file and the kernel agree in every state,
and every request that fails changes nothing. -/
theorem agreed_of_safe {ls : List (Request × Choice)} (start : Settled h s)
    (safe : Steps (State.step h) (Safe h) s ls) :
    Along (State.step h) (Kept h) (Honest h) s ls := by
  induction ls generalizing s with
  | nil => exact start.kept
  | cons l ls ih =>
      have fine := start.perform safe.1
      exact ⟨start.kept, fine.honest, ih (fine.settled start) safe.2⟩

/-- A network is added with a generated id, and removed by its name and id. -/
theorem agreed_of_safe_removed :
    Along (State.step { generateId := 0 }) (Kept { generateId := 0 })
      (Honest { generateId := 0 }) {}
      [(.add { name := "a", networkId := 0, netAddresses := [.ip .v4 "10.0.0.0/8" true] }, {}),
       (.remove (some { name := "a", networkId := 1 }), {})] :=
  agreed_of_safe settled_empty (by
    refine ⟨⟨⟨fun _ => rfl, fun _ => rfl, rfl⟩, (fun _ hno => by cases hno), fun hno => ?_⟩, ?_,
      trivial⟩
    · exact absurd rfl hno
    · rintro net hnet i m hfind hi
      obtain rfl := Option.some.inj hnet
      obtain rfl : i = 0 := by
        have hzero : some 0 = some i := hfind
        exact (Option.some.inj hzero).symm
      obtain rfl := Option.some.inj hi
      exact ⟨rfl, fun _ => rfl, .inr (.inl ⟨rfl, rfl, by decide⟩)⟩)

/-- A network is removed by its name, and the kernel forgets the one whose id the
request gives. -/
theorem not_agreed_remove :
    ¬ Along (State.step { generateId := 0 }) (Kept { generateId := 0 })
      (Honest { generateId := 0 }) {}
      [(.add { name := "a", networkId := 1 }, {}), (.add { name := "b", networkId := 2 }, {}),
       (.remove (some { name := "a", networkId := 2 }), {})] := by
  intro h
  exact absurd h.last.kernel (by decide)

end DispService.PrivateNetwork
