import Mathlib.Data.List.Nodup
import DispService.PrivateNetwork.Described

/-! A configured list whose networks the kernel can tell apart, and the kernel that
it describes. -/
namespace DispService.PrivateNetwork

open DispService.Lib.Script

variable {h : Host} {a b : Network} {x : Fact} {faults : Faults} {s t : Finset Fact}
  {nets rest : List Network}

theorem mem_describe : x ∈ describe h nets ↔ ∃ a ∈ nets, x ∈ facts h a := by
  induction nets with
  | nil => simp [describe]
  | cons a nets ih => simp [describe, ih]

theorem describe_perm (hperm : nets.Perm rest) : describe h nets = describe h rest := by
  ext x
  rw [mem_describe, mem_describe]
  exact exists_congr fun a => and_congr_left' hperm.mem_iff

/-- The script that adds the network has no stop. -/
def Whole (h : Host) (a : Network) : Prop := ∀ w ∈ addition h a, ¬ w.IsStop

/-- A list the kernel can hold. -/
structure Listed (h : Host) (nets : List Network) : Prop where
  names : (nets.map (·.name)).Nodup
  ids : nets.Pairwise fun a b => a.networkId = b.networkId → a.networkId = h.generateId
  whole : ∀ a ∈ nets, Whole h a
  numbered : ∀ a ∈ nets, Numbered h a
  foreign : nets.Pairwise Foreign

theorem Foreign.symm (hab : Foreign a b) : Foreign b a :=
  fun hb ha x hx hin => hab ha hb x hin hx

theorem Listed.perm (listed : Listed h nets) (hperm : nets.Perm rest) : Listed h rest where
  names := (hperm.map _).nodup_iff.mp listed.names
  ids := by
    refine (List.Perm.pairwise_iff ?_ hperm).mp listed.ids
    intro a b hab heq
    exact heq.trans (hab heq.symm)
  whole := fun a ha => listed.whole a (hperm.mem_iff.mpr ha)
  numbered := fun a ha => listed.numbered a (hperm.mem_iff.mpr ha)
  foreign := (List.Perm.pairwise_iff Foreign.symm hperm).mp listed.foreign

/-- A network that may join a list. -/
structure Fits (h : Host) (a : Network) (nets : List Network) : Prop where
  name : ∀ b ∈ nets, b.name ≠ a.name
  id : ∀ b ∈ nets, a.networkId = b.networkId → a.networkId = h.generateId
  whole : Whole h a
  numbered : Numbered h a
  foreign : ∀ b ∈ nets, Foreign a b

theorem Listed.cons (listed : Listed h nets) (fits : Fits h a nets) : Listed h (a :: nets) where
  names := by
    rw [List.map_cons, List.nodup_cons]
    refine ⟨fun hin => ?_, listed.names⟩
    obtain ⟨b, hb, heq⟩ := List.mem_map.mp hin
    exact fits.name b hb heq
  ids := List.pairwise_cons.mpr ⟨fits.id, listed.ids⟩
  whole := List.forall_mem_cons.mpr ⟨fits.whole, listed.whole⟩
  numbered := List.forall_mem_cons.mpr ⟨fits.numbered, listed.numbered⟩
  foreign := List.pairwise_cons.mpr ⟨fits.foreign, listed.foreign⟩

theorem Listed.uncons (listed : Listed h (a :: nets)) : Listed h nets ∧ Fits h a nets := by
  have hnames := List.nodup_cons.mp listed.names
  have hids := List.pairwise_cons.mp listed.ids
  have hforeign := List.pairwise_cons.mp listed.foreign
  have hwhole := List.forall_mem_cons.mp listed.whole
  have hnumbered := List.forall_mem_cons.mp listed.numbered
  refine ⟨⟨hnames.2, hids.2, hwhole.2, hnumbered.2, hforeign.2⟩, fun b hb heq => ?_, hids.1,
    hwhole.1, hnumbered.1, hforeign.1⟩
  exact hnames.1 (List.mem_map.mpr ⟨b, hb, heq⟩)

/-- A network that fits is told apart from the others. -/
theorem apart_of (foreign : Foreign a b) (numbered : Numbered h a)
    (ids : a.networkId = b.networkId → a.networkId = h.generateId) : Apart a b where
  ids := fun ha _ heq => numbered ha (ids heq.symm)
  foreign := foreign

theorem Fits.apart (fits : Fits h a nets) (hb : b ∈ nets) : Apart a b :=
  apart_of (fits.foreign b hb) fits.numbered (fits.id b hb)

/-- The network in a place of the list, and the rest of it. -/
theorem perm_at {i : Nat} (hi : nets[i]? = some a) : nets.Perm (a :: nets.eraseIdx i) := by
  obtain ⟨hlt, rfl⟩ := List.getElem?_eq_some_iff.mp hi
  exact (List.getElem_cons_eraseIdx_perm hlt).symm

theorem perm_set {i : Nat} (hi : nets[i]? = some b) :
    (nets.set i a).Perm (a :: nets.eraseIdx i) := by
  obtain ⟨hlt, -⟩ := List.getElem?_eq_some_iff.mp hi
  exact List.set_perm_cons_eraseIdx hlt a

theorem set_at {i : Nat} (hi : nets[i]? = some a) : nets.set i a = nets := by
  obtain ⟨hlt, rfl⟩ := List.getElem?_eq_some_iff.mp hi
  exact List.set_getElem_self hlt

/-- A roll-back of a network that was not there before. -/
theorem taken_back (apart : ∀ b ∈ rest, Apart a b) (clean : faults.Clean)
    (kept : describe h rest ⊆ t)
    (within : ∀ x ∈ t, x ∉ describe h rest → region (removal h a) x = true) :
    (removePrivateNetwork h a faults t).1 = describe h rest := by
  refine rollback removal_drops clean kept within fun x hx => ?_
  obtain ⟨b, hb, hxb⟩ := mem_describe.mp hx
  exact spared (apart b hb) hxb

theorem removed (numbered : Numbered h a) (apart : ∀ b ∈ rest, Apart a b) (clean : faults.Clean) :
    (removePrivateNetwork h a faults (describe h (a :: rest))).1 = describe h rest := by
  refine taken_back apart clean Finset.subset_union_right fun x hx hno => ?_
  rcases Finset.mem_union.mp hx with ha | hrest
  · exact covered numbered ha
  · exact absurd hrest hno

/-- A sparse network is written to a file that is there. -/
theorem Whole.sparse (whole : Whole h a) (ha : a.isGlobal = false) : h.sparse = true := by
  by_contra hno
  have hin : Write.stop .fileNotFound ∈ addition h a := by
    rw [addition_missing ha (Bool.not_eq_true _ ▸ hno)]
    exact List.mem_singleton_self _
  exact whole _ hin trivial

theorem Whole.knows (whole : Whole h a) (ha : a.isGlobal = false) :
    Fact.id .v4 a.networkId ∈ facts h a := by
  unfold facts
  rw [addition_sparse ha (whole.sparse ha)]
  exact Finset.mem_insert_self _ _

theorem Whole.knows6 (whole : Whole h a) (ha : a.isGlobal = false) (h6 : h.sparse6 = true) :
    Fact.id .v6 a.networkId ∈ facts h a := by
  unfold facts
  rw [addition_sparse ha (whole.sparse ha), if_pos h6]
  exact Finset.mem_insert_of_mem (Finset.mem_insert_self _ _)

theorem about_id {f : Family} {n : Nat} : about f n (.id f n) = true := by
  simp [about]

/-- The id of a network that fits is not in the kernel of the others. -/
theorem fresh_id (apart : ∀ b ∈ nets, Apart a b) (ha : a.isGlobal = false) (f : Family) :
    Fact.id f a.networkId ∉ describe h nets := by
  intro hin
  obtain ⟨b, hb, hxb⟩ := mem_describe.mp hin
  cases hglobal : b.isGlobal with
  | false =>
      rcases (facts_sparse hglobal hxb).2 with hv | ⟨-, hv⟩
      · exact (apart b hb).ids ha hglobal (about_same hv about_id)
      · exact (apart b hb).ids ha hglobal (about_same hv about_id)
  | true =>
      obtain ⟨g, y, -, heq⟩ := facts_global hglobal hxb
      cases heq

/-- Without faults a whole network is added, unless its id is there. -/
theorem added (whole : Whole h a) (clean : faults.Clean)
    (hfresh : a.isGlobal = false → ∀ f, Fact.id f a.networkId ∉ s) :
    run (addition h a) faults s = (s ∪ facts h a, none) := by
  have hdone : (run (addition h a) faults s).2 = none := by
    cases ha : a.isGlobal with
    | true =>
        refine run_loose addition_puts whole (fun x e hin => ?_) clean
        rw [addition_global ha] at hin
        unfold addLegacyNetwork at hin
        split at hin
        · obtain ⟨y, -, heq⟩ := List.mem_map.mp hin
          rcases legacyAddress_cases (h := h) y with ⟨f, hf⟩ | ⟨e', he⟩
          · rw [hf] at heq
            cases heq
          · rw [he] at heq
            cases heq
        · cases List.mem_singleton.mp hin
    | false =>
        have hputs : ∀ w ∈ addresses h a, w.IsPut := by
          intro w hw
          rcases addresses_put hw with ⟨f, y, -, rfl⟩ | rfl <;> trivial
        have hloose : ∀ x e, Write.put x true e ∉ addresses h a := by
          intro x e hin
          rcases addresses_put hin with ⟨f, y, -, heq⟩ | heq <;> cases heq
        have hscript := addition_sparse ha (whole.sparse ha)
        have hstop : ∀ w ∈ addresses h a, ¬ w.IsStop := by
          intro w hw
          refine whole w ?_
          rw [hscript]
          exact List.mem_cons_of_mem _ (List.mem_append_right _ hw)
        rw [hscript, run_put_done (clean 0) fun _ => hfresh ha .v4]
        split
        · rw [List.singleton_append, run_put_done (clean 1) fun _ hin => ?_]
          · exact run_loose hputs hstop hloose clean.tail.tail
          · rcases Finset.mem_insert.mp hin with heq | hin
            · cases heq
            · exact hfresh ha .v6 hin
        · exact run_loose hputs hstop hloose clean.tail
  obtain ⟨hall, -⟩ := run_puts_done addition_puts hdone
  exact Prod.ext hall hdone

theorem mem_readIds {n : Nat} : n ∈ readIds s ↔ ∃ f, Fact.id f n ∈ s := by
  unfold readIds
  rw [Finset.mem_biUnion]
  constructor
  · rintro ⟨x, hx, hn⟩
    cases x with
    | id f m =>
        obtain rfl := Finset.mem_singleton.mp hn
        exact ⟨f, hx⟩
    | address f m y => exact absurd hn (Finset.notMem_empty n)
    | legacy f y => exact absurd hn (Finset.notMem_empty n)
  · rintro ⟨f, hf⟩
    exact ⟨_, hf, Finset.mem_singleton_self n⟩

/-- A generated id is neither in the kernel nor in the list that was looked at. -/
theorem generateNewId_fresh (hid : generateNewId h nets s ≠ h.generateId) :
    (∀ f, Fact.id f (generateNewId h nets s) ∉ s) ∧
    ∀ b ∈ nets, b.networkId ≠ generateNewId h nets s := by
  unfold generateNewId at hid ⊢
  dsimp only at hid ⊢
  cases hfind : (List.range' 1 ((readIds s ∪
      ((nets.map (·.networkId)).filter (· ≠ h.generateId)).toFinset).card + 1)).find?
      (· ∉ readIds s ∪ ((nets.map (·.networkId)).filter (· ≠ h.generateId)).toFinset) with
  | none =>
      rw [hfind] at hid
      exact absurd rfl hid
  | some n =>
      rw [hfind, Option.getD_some] at hid
      rw [Option.getD_some]
      have hnew := List.find?_some hfind
      rw [decide_eq_true_eq, Finset.mem_union, not_or] at hnew
      refine ⟨fun f hf => hnew.1 (mem_readIds.mpr ⟨f, hf⟩), fun b hb heq => hnew.2 ?_⟩
      rw [List.mem_toFinset, List.mem_filter]
      refine ⟨List.mem_map.mpr ⟨b, hb, heq⟩, ?_⟩
      exact decide_eq_true hid

end DispService.PrivateNetwork
