import DispService.PrivateNetwork.Configured

/-! The configured list, its file and the kernel agree after every safe request. -/
namespace DispService.PrivateNetwork

open DispService.Lib
open DispService.Lib.Script

variable {h : Host} {a b net : Network} {x : Fact} {faults : Faults} {t : Finset Fact}
  {nets rest : List Network} {s : State} {c : Choice} {i : Nat}

structure Settled (h : Host) (s : State) : Prop where
  listed : Listed h s.nets
  kernel : s.kernel = describe h s.nets
  saved : s.saved = s.nets

theorem Settled.kept (settled : Settled h s) : Kept h s where
  names := settled.listed.names
  ids := by
    rw [List.Nodup, List.pairwise_filter, List.pairwise_map]
    refine settled.listed.ids.imp fun hab ha _ heq => ?_
    exact of_decide_eq_true ha (hab heq)
  kernel := settled.kernel
  saved := settled.saved

theorem identify_made : Made h net (identify h net nets t) := by
  unfold identify
  split
  · rename_i hgenerate
    refine ⟨rfl, fun hno => ?_⟩
    rcases hno with hid | hglobal
    · exact absurd hgenerate.1 hid
    · rw [hgenerate.2] at hglobal
      cases hglobal
  · exact ⟨rfl, fun _ => rfl⟩

theorem Made.global (made : Made h net a) : a.isGlobal = net.isGlobal := by
  rw [made.1]

theorem Made.addresses (made : Made h net a) : a.netAddresses = net.netAddresses := by
  rw [made.1]

theorem Made.name (made : Made h net a) : a.name = net.name := by
  rw [made.1]

theorem Made.foreign (made : Made h net a) (foreign : Foreign net b) : Foreign a b := by
  intro ha hb
  rw [made.addresses]
  exact foreign (made.global ▸ ha) hb

theorem identify_numbered (numbered : Numbered h a) : identify h a nets t = a := by
  unfold identify
  exact if_neg fun hno => numbered hno.2 hno.1

/-- `AddPrivateNetwork` gives up for want of an id, or runs its script. -/
theorem addPrivateNetwork_cases :
    (addPrivateNetwork h net nets faults t).1 = identify h net nets t ∧
    ((addPrivateNetwork h net nets faults t).2 = (t, some .unexpected) ∨
      (Numbered h (identify h net nets t) ∧ (addPrivateNetwork h net nets faults t).2 =
        run (addition h (identify h net nets t)) faults t)) := by
  unfold addPrivateNetwork
  dsimp only
  split
  · exact ⟨rfl, .inl rfl⟩
  · rename_i hno
    exact ⟨rfl, .inr ⟨fun hglobal hid => hno ⟨hid, hglobal⟩, rfl⟩⟩

theorem addPrivateNetwork_numbered (numbered : Numbered h a) :
    addPrivateNetwork h a nets faults t = (a, run (addition h a) faults t) := by
  unfold addPrivateNetwork
  dsimp only
  rw [identify_numbered numbered, if_neg fun hno => numbered hno.2 hno.1]

/-- Whatever fails, only entries of the new network come in. -/
theorem addPrivateNetwork_within :
    t ⊆ (addPrivateNetwork h net nets faults t).2.1 ∧
    ∀ x ∈ (addPrivateNetwork h net nets faults t).2.1, x ∉ t →
      region (removal h (addPrivateNetwork h net nets faults t).1) x = true := by
  obtain ⟨hnet, hgiveup | ⟨numbered, hrun⟩⟩ :=
    @addPrivateNetwork_cases h net faults t nets
  · rw [hgiveup]
    exact ⟨Finset.Subset.refl t, fun x hx hno => absurd hx hno⟩
  · rw [hrun, hnet]
    obtain ⟨hkept, hadded⟩ := @run_puts _ _ _ _ faults t
      (@addition_puts h (identify h net nets t))
    refine ⟨hkept, fun x hx hno => covered numbered ?_⟩
    exact (Finset.mem_union.mp (hadded hx)).resolve_left hno

theorem addPrivateNetwork_done (hdone : (addPrivateNetwork h net nets faults t).2.2 = none) :
    (addPrivateNetwork h net nets faults t).2.1 =
      t ∪ facts h (addPrivateNetwork h net nets faults t).1 ∧
    Whole h (addPrivateNetwork h net nets faults t).1 ∧
    Numbered h (addPrivateNetwork h net nets faults t).1 := by
  obtain ⟨hnet, hgiveup | ⟨numbered, hrun⟩⟩ :=
    @addPrivateNetwork_cases h net faults t nets
  · rw [hgiveup] at hdone
    cases hdone
  · rw [hrun] at hdone
    obtain ⟨hall, whole⟩ := run_puts_done addition_puts hdone
    rw [hrun, hnet]
    exact ⟨hall, whole, numbered⟩

/-- The network in a place of the list is told apart from the rest. -/
theorem Listed.at (listed : Listed h nets) (hi : nets[i]? = some a) :
    Listed h (nets.eraseIdx i) ∧ Fits h a (nets.eraseIdx i) :=
  (listed.perm (perm_at hi)).uncons

theorem describe_at (hi : nets[i]? = some a) :
    describe h nets = facts h a ∪ describe h (nets.eraseIdx i) :=
  describe_perm (perm_at hi)

theorem restore_none (hundo : (removePrivateNetwork h net c.undo s.kernel).1 = describe h s.nets) :
    s.restore h net none c = { s with kernel := describe h s.nets } := by
  unfold State.restore
  dsimp only [Option.bind_none]
  rw [hundo]

theorem restore_at (hi : s.nets[i]? = some a) (numbered : Numbered h a) :
    s.restore h net (some i) c =
      { s with kernel :=
        (run (addition h a) c.restore (removePrivateNetwork h net c.undo s.kernel).1).1 } := by
  unfold State.restore
  simp only [Option.bind_some, hi, Option.map_some]
  rw [addPrivateNetwork_numbered numbered, set_at hi]

/-- The old network is put back where it was taken from. -/
theorem restore_back (listed : Listed h s.nets) (hi : s.nets[i]? = some a)
    (hundo : (removePrivateNetwork h net c.undo s.kernel).1 = describe h (s.nets.eraseIdx i))
    (clean : c.restore.Clean) :
    s.restore h net (some i) c = { s with kernel := describe h s.nets } := by
  obtain ⟨-, fits⟩ := listed.at hi
  rw [restore_at hi fits.numbered, hundo,
    added fits.whole clean fun ha => fresh_id (fun b hb => fits.apart hb) ha, describe_at hi,
    Finset.union_comm]

/-- The old network is put back where it still is. -/
theorem restore_idle (hi : s.nets[i]? = some a) (numbered : Numbered h a)
    (hundo : (removePrivateNetwork h net c.undo s.kernel).1 = describe h s.nets) :
    s.restore h net (some i) c = { s with kernel := describe h s.nets } := by
  rw [restore_at hi numbered, hundo]
  obtain ⟨hkept, hadded⟩ := @run_puts _ _ _ _ c.restore (describe h s.nets) (@addition_puts h a)
  have hsame : describe h s.nets ∪ content (addition h a) = describe h s.nets := by
    rw [describe_at hi]
    exact Finset.union_eq_left.mpr Finset.subset_union_left
  rw [hsame] at hadded
  rw [Finset.Subset.antisymm hadded hkept]

theorem lastIdx_some {p : Network → Bool} (hi : lastIdx p nets = some i) :
    ∃ a, nets[i]? = some a ∧ p a = true := by
  induction nets generalizing i with
  | nil => cases hi
  | cons b nets ih =>
      unfold lastIdx at hi
      split at hi
      · rename_i j hj
        obtain rfl := Option.some.inj hi
        exact ih hj
      · split at hi
        · rename_i hp
          obtain rfl := Option.some.inj hi
          exact ⟨b, rfl, hp⟩
        · cases hi

theorem lastIdx_none {p : Network → Bool} (hi : lastIdx p nets = none) (hb : b ∈ nets) :
    p b = false := by
  induction nets with
  | nil => cases hb
  | cons c nets ih =>
      unfold lastIdx at hi
      split at hi
      · cases hi
      · rename_i hrest
        split at hi
        · cases hi
        · rename_i hp
          rcases List.mem_cons.mp hb with rfl | hb
          · exact Bool.not_eq_true _ ▸ hp
          · exact ih hrest hb

/-- The kernel knows the id of every sparse network of the list. -/
theorem Listed.known (listed : Listed h nets) (hb : b ∈ nets) (hglobal : b.isGlobal = false) :
    Fact.id .v4 b.networkId ∈ describe h nets :=
  mem_describe.mpr ⟨b, hb, (listed.whole b hb).knows hglobal⟩

/-- The network a request makes is told apart from a list without its id, if the
kernel has at least what the list describes. -/
theorem made_apart {looked : List Network} (listed : Listed h nets)
    (foreign : ∀ b ∈ nets, Foreign net b) (hkernel : describe h nets ⊆ t)
    (ids : net.networkId ≠ h.generateId → net.isGlobal = false →
      ∀ b ∈ nets, b.isGlobal = false → b.networkId ≠ net.networkId) :
    ∀ b ∈ nets, Apart (identify h net looked t) b := by
  intro b hb
  have made : Made h net (identify h net looked t) := identify_made
  refine ⟨fun ha hglobal heq => ?_, made.foreign (foreign b hb)⟩
  rw [made.global] at ha
  by_cases hid : net.networkId = h.generateId
  · have hnew : (identify h net looked t).networkId = generateNewId h looked t := by
      unfold identify
      rw [if_pos ⟨hid, ha⟩]
    by_cases hgenerated : generateNewId h looked t = h.generateId
    · exact listed.numbered b hb hglobal (heq.trans (hnew.trans hgenerated))
    · refine (generateNewId_fresh hgenerated).1 .v4 ?_
      rw [← hnew, ← heq]
      exact hkernel (listed.known hb hglobal)
  · rw [made.2 (.inl hid)] at heq
    exact ids hid ha b hb hglobal heq

end DispService.PrivateNetwork
