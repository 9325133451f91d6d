import DispService.PrivateNetwork.Agreed

/-! Every safe request fails without a trace, or changes the list and the kernel alike. -/
namespace DispService.PrivateNetwork

open DispService.Lib
open DispService.Lib.Script

variable {h : Host} {a b m net : Network} {x : Fact} {faults : Faults} {t : Finset Fact}
  {nets rest : List Network} {s : State} {c : Choice} {i : Nat} {e : PrlResult}

theorem legacyAddress_error {write : Fact → Command} {y : Address}
    (hwrite : ∀ x, (write x).error ≠ .success) : (legacyAddress h write y).error ≠ .success := by
  unfold legacyAddress
  split
  · exact PrlResult.noConfusion
  · exact hwrite _
  · split
    · exact hwrite _
    · exact PrlResult.noConfusion
  · exact PrlResult.noConfusion

theorem addition_error {w : Command} (hw : w ∈ addition h a) : w.error ≠ .success := by
  unfold addition at hw
  split at hw
  · unfold addLegacyNetwork at hw
    split at hw
    · obtain ⟨y, -, rfl⟩ := List.mem_map.mp hw
      exact legacyAddress_error fun _ => PrlResult.noConfusion
    · obtain rfl := List.mem_singleton.mp hw
      exact PrlResult.noConfusion
  · unfold addSparseNetwork at hw
    split at hw
    · rcases List.mem_cons.mp hw with rfl | hw
      · exact PrlResult.noConfusion
      · rcases List.mem_append.mp hw with hw | hw
        · split at hw
          · obtain rfl := List.mem_singleton.mp hw
            exact PrlResult.noConfusion
          · cases hw
        · rcases addresses_put (a := a) hw with ⟨f, y, -, rfl⟩ | rfl
          · exact PrlResult.noConfusion
          · exact PrlResult.noConfusion
    · obtain rfl := List.mem_singleton.mp hw
      exact PrlResult.noConfusion

theorem removal_error {w : Command} (hw : w ∈ removal h a) : w.error ≠ .success := by
  unfold removal at hw
  split at hw
  · unfold removeLegacyNetwork at hw
    split at hw
    · obtain ⟨y, -, rfl⟩ := List.mem_map.mp hw
      exact legacyAddress_error fun _ => PrlResult.noConfusion
    · obtain rfl := List.mem_singleton.mp hw
      exact PrlResult.noConfusion
  · unfold removeSparseNetwork at hw
    split at hw
    · obtain rfl := List.mem_singleton.mp hw
      exact PrlResult.noConfusion
    · split at hw
      · rcases List.mem_cons.mp hw with rfl | hw
        · exact PrlResult.noConfusion
        · split at hw
          · obtain rfl := List.mem_singleton.mp hw
            exact PrlResult.noConfusion
          · cases hw
      · obtain rfl := List.mem_singleton.mp hw
        exact PrlResult.noConfusion

theorem failed_of_ne (he : e ≠ .success) : e.failed = true := by
  unfold PrlResult.failed
  exact bne_iff_ne.mpr he

theorem addPrivateNetwork_failed (hresult : (addPrivateNetwork h net nets faults t).2.2 = some e) :
    e.failed = true := by
  obtain ⟨-, hgiveup | ⟨-, hrun⟩⟩ := @addPrivateNetwork_cases h net faults t nets
  · rw [hgiveup] at hresult
    obtain rfl := Option.some.inj hresult
    rfl
  · rw [hrun] at hresult
    obtain ⟨w, hw, he⟩ := run_error hresult
    exact failed_of_ne (he ▸ addition_error hw)

/-- What a safe request does. -/
inductive Fine (h : Host) (s : State) (l : Request) (r : State × PrlResult) : Prop where
  | failed (code : r.2.failed = true) (same : r.1 = s)
  | done (code : r.2.failed = false) (settled : Settled h r.1)
      (changed : Changed h s.nets r.1.nets l)

/-- The removal of a sparse network goes by its id. -/
theorem removal_same (ha : a.isGlobal = false) (hb : b.isGlobal = false)
    (heq : a.networkId = b.networkId) : removal h a = removal h b := by
  rw [removal_sparse ha, removal_sparse hb]
  unfold removeSparseNetwork
  rw [heq]

theorem Settled.same (settled : Settled h s) : { s with kernel := describe h s.nets } = s := by
  rw [← settled.kernel]

/-- A sparse network is told apart from what another one with its id is. -/
theorem Apart.same_id (apart : Apart a b) (ha : a.isGlobal = false) (hnet : net.isGlobal = false)
    (heq : a.networkId = net.networkId) : Apart net b where
  ids := fun _ hb => heq ▸ apart.ids ha hb
  foreign := fun hno => by
    rw [hnet] at hno
    cases hno

/-- The new network and a part of the old one are taken away, the rest stays. -/
theorem undone (clean : faults.Clean) (kept : describe h rest ⊆ t)
    (apart : ∀ b ∈ rest, Apart a b)
    (within : ∀ x ∈ t, x ∈ describe h nets → x ∉ describe h rest →
      region (removal h a) x = true)
    (added : ∀ x ∈ t, x ∉ describe h nets → region (removal h a) x = true) :
    (removePrivateNetwork h a faults t).1 = describe h rest := by
  refine taken_back apart clean kept fun x hx hno => ?_
  by_cases hin : x ∈ describe h nets
  · exact within x hx hin hno
  · exact added x hx hin

/-- A failed addition leaves no trace. -/
theorem Settled.add_restored (settled : Settled h s) (safe : SafeAdd h s net c) :
    State.restore h
      { s with kernel := (addPrivateNetwork h net s.nets c.put s.kernel).2.1 }
      (addPrivateNetwork h net s.nets c.put s.kernel).1
      (lastIdx (fun m : Network => decide (m.networkId = net.networkId)) s.nets) c = s := by
  obtain ⟨⟨hundo, hrestore, -⟩, hforeign, hids⟩ := safe
  have hlisted := settled.listed
  obtain ⟨hmade, -⟩ := @addPrivateNetwork_cases h net c.put s.kernel s.nets
  obtain ⟨hkept, hadded⟩ := @addPrivateNetwork_within h net c.put s.kernel s.nets
  rw [settled.kernel] at hmade hkept hadded ⊢
  generalize addPrivateNetwork h net s.nets c.put (describe h s.nets) = r at hmade hkept hadded ⊢
  by_cases hsame : net.networkId ≠ h.generateId ∧ ∃ b ∈ s.nets, b.networkId = net.networkId
  · -- the id is configured: the old network with it is removed and put back
    obtain ⟨hid, b, hb, hbid⟩ := hsame
    cases hold : lastIdx (fun m : Network => decide (m.networkId = net.networkId)) s.nets with
    | none => exact absurd hbid (of_decide_eq_false (lastIdx_none hold hb))
    | some i =>
        obtain ⟨m, hi, hm⟩ := lastIdx_some hold
        have hmid : m.networkId = net.networkId := of_decide_eq_true hm
        obtain ⟨hnet, hsparse⟩ := hids hid m (List.mem_of_getElem? hi) hmid
        obtain ⟨-, fits⟩ := hlisted.at hi
        have hnetmade : r.1 = net := by
          rw [hmade]
          exact (identify_made (h := h)).2 (.inl hid)
        rw [hnetmade] at hadded ⊢
        refine (restore_back (s := { s with kernel := r.2.1 }) hlisted hi ?_ hrestore).trans
          settled.same
        refine undone hundo ?_ (fun b hb => (fits.apart hb).same_id hsparse hnet hmid) ?_ hadded
        · refine Finset.Subset.trans ?_ hkept
          rw [describe_at hi]
          exact Finset.subset_union_right
        · intro x _ hin hno
          rw [describe_at hi] at hin
          rw [← removal_same hsparse hnet hmid]
          exact covered fits.numbered ((Finset.mem_union.mp hin).resolve_right hno)
  · have hfree : net.networkId ≠ h.generateId → ∀ b ∈ s.nets, b.networkId ≠ net.networkId :=
      fun hid b hb heq => hsame ⟨hid, b, hb, heq⟩
    have hback : (removePrivateNetwork h r.1 c.undo r.2.1).1 = describe h s.nets := by
      refine taken_back ?_ hundo hkept hadded
      rw [hmade]
      exact made_apart hlisted hforeign (Finset.Subset.refl _) fun hid _ b hb _ => hfree hid b hb
    cases hold : lastIdx (fun m : Network => decide (m.networkId = net.networkId)) s.nets with
    | none => exact (restore_none (s := { s with kernel := r.2.1 }) hback).trans settled.same
    | some i =>
        obtain ⟨m, hi, -⟩ := lastIdx_some hold
        have numbered := hlisted.numbered m (List.mem_of_getElem? hi)
        exact (restore_idle (s := { s with kernel := r.2.1 }) hi numbered hback).trans settled.same

/-- The id of a sparse network that is there is refused. -/
theorem known_refused (ha : a.isGlobal = false) (hknown : Fact.id .v4 a.networkId ∈ t) :
    (run (addition h a) faults t).2 ≠ none := by
  intro hdone
  cases hsparse : h.sparse with
  | false =>
      rw [addition_missing ha hsparse] at hdone
      cases hdone
  | true =>
      rw [addition_sparse ha hsparse, run_put_refused (.inr ⟨rfl, hknown⟩)] at hdone
      cases hdone

theorem State.write_sure (hsave : c.save = false) :
    s.write c = ({ s with saved := s.nets }, .success) := by
  unfold State.write
  rw [if_neg (by simp [hsave])]

theorem Settled.add (settled : Settled h s) (safe : SafeAdd h s net c) :
    Fine h s (.add net) (s.add h net c) := by
  unfold State.add
  split
  · exact .failed rfl rfl
  · rename_i hnames
    split
    · rename_i hvalid
      exact .failed hvalid rfl
    · dsimp only
      split
      · rename_i e hresult
        exact .failed (addPrivateNetwork_failed hresult) (settled.add_restored safe)
      · rename_i hresult
        obtain ⟨⟨-, -, hsave⟩, hforeign, hids⟩ := safe
        have hlisted := settled.listed
        obtain ⟨hmade, -⟩ := @addPrivateNetwork_cases h net c.put s.kernel s.nets
        have made : Made h net (addPrivateNetwork h net s.nets c.put s.kernel).1 :=
          hmade ▸ identify_made
        obtain ⟨hkernel, whole, numbered⟩ := addPrivateNetwork_done hresult
        have hfree : net.networkId ≠ h.generateId → ∀ b ∈ s.nets, b.networkId ≠ net.networkId := by
          intro hid b hb heq
          obtain ⟨hnet, hsparse⟩ := hids hid b hb heq
          rw [addPrivateNetwork_numbered fun _ => hid] at hresult
          refine known_refused hnet ?_ hresult
          rw [settled.kernel, ← heq]
          exact hlisted.known hb hsparse
        have fits : Fits h (addPrivateNetwork h net s.nets c.put s.kernel).1 s.nets := by
          refine ⟨fun b hb heq => hnames ?_, fun b hb heq => ?_, whole, numbered,
            fun b hb => made.foreign (hforeign b hb)⟩
          · rw [made.name] at heq
            exact List.any_eq_true.mpr ⟨b, hb, decide_eq_true heq⟩
          · by_contra hid
            by_cases hnet : net.networkId ≠ h.generateId ∨ net.isGlobal = true
            · rw [made.2 hnet] at heq hid
              exact hfree hid b hb heq.symm
            · obtain ⟨hgen, hglobal⟩ := not_or.mp hnet
              have hnew : (addPrivateNetwork h net s.nets c.put s.kernel).1.networkId =
                  generateNewId h s.nets s.kernel := by
                rw [hmade]
                unfold identify
                rw [if_pos ⟨not_not.mp hgen, Bool.not_eq_true _ ▸ hglobal⟩]
              rw [hnew] at heq hid
              exact (generateNewId_fresh hid).2 b hb heq.symm
        rw [State.write_sure hsave]
        refine .done rfl ⟨?_, ?_, rfl⟩ ⟨_, made, rfl⟩
        · exact (hlisted.cons fits).perm (List.perm_append_singleton _ _).symm
        · refine hkernel.trans ?_
          rw [settled.kernel, Finset.union_comm]
          exact describe_perm (List.perm_append_singleton _ _).symm

end DispService.PrivateNetwork
