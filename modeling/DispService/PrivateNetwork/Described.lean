import Mathlib.Data.List.Perm.Basic
import DispService.PrivateNetwork.Commands

/-! The entries of one network, and what the scripts that add and remove it do to
the entries of the others. -/
namespace DispService.PrivateNetwork

open DispService.Lib.Script

variable {h : Host} {a b : Network} {x : Fact} {faults : Faults} {s : Finset Fact}

/-- An address of a global network is written to one of the files, or stops the script. -/
theorem legacyAddress_cases (y : Address) :
    (∃ f, ∀ write, legacyAddress h write y = write (.legacy f y)) ∨
    (∃ e, ∀ write, legacyAddress h write y = .stop e) := by
  cases y with
  | any => exact .inr ⟨_, fun _ => rfl⟩
  | bad text => exact .inr ⟨_, fun _ => rfl⟩
  | ip f text slash =>
      cases f with
      | v4 => exact .inl ⟨.v4, fun _ => rfl⟩
      | v6 =>
          cases h6 : h.legacy6 with
          | true => exact .inl ⟨.v6, fun _ => by simp [legacyAddress, h6]⟩
          | false => exact .inr ⟨.fileNotFound, fun _ => by simp [legacyAddress, h6]⟩

theorem legacyAddress_put (y : Address) :
    (legacyAddress h (fun x => .put x false .ipprivateNetworkInvalidIp) y).IsPut := by
  rcases legacyAddress_cases (h := h) y with ⟨f, hf⟩ | ⟨e, he⟩
  · rw [hf]
    trivial
  · rw [he]
    trivial

theorem legacyAddress_drop (y : Address) :
    (legacyAddress h (fun x => .drop (fun z => decide (z = x)) .ipprivateNetworkInvalidIp)
      y).IsDrop := by
  rcases legacyAddress_cases (h := h) y with ⟨f, hf⟩ | ⟨e, he⟩
  · rw [hf]
    trivial
  · rw [he]
    trivial

/-- The writes for an address of a sparse network are loose: only "+id" is fresh. -/
theorem addSparseAddress_put {n : Nat} {y : Address} {w : Command}
    (hw : w ∈ addSparseAddress h n y) :
    (∃ f, (f = .v6 → h.sparse6 = true) ∧
      w = .put (.address f n y) false .ipprivateNetworkInvalidIp) ∨
    w = .stop .ipprivateNetworkInvalidIp := by
  unfold addSparseAddress at hw
  split at hw
  · rcases List.mem_cons.mp hw with rfl | hw
    · exact .inl ⟨.v4, (fun hno => by cases hno), rfl⟩
    · split at hw
      · rename_i h6
        obtain rfl := List.mem_singleton.mp hw
        exact .inl ⟨.v6, fun _ => h6, rfl⟩
      · cases hw
  · obtain rfl := List.mem_singleton.mp hw
    exact .inl ⟨.v4, (fun hno => by cases hno), rfl⟩
  · split at hw
    · rename_i h6
      obtain rfl := List.mem_singleton.mp hw
      exact .inl ⟨.v6, fun _ => h6, rfl⟩
    · cases hw
  · obtain rfl := List.mem_singleton.mp hw
    exact .inr rfl

/-- The writes of `add_sparse_network` for its addresses. -/
def addresses (h : Host) (net : Network) : List Command :=
  net.netAddresses.flatMap (addSparseAddress h net.networkId)

theorem addresses_put {w : Command} (hw : w ∈ addresses h a) :
    (∃ f y, (f = .v6 → h.sparse6 = true) ∧
      w = .put (.address f a.networkId y) false .ipprivateNetworkInvalidIp) ∨
    w = .stop .ipprivateNetworkInvalidIp := by
  obtain ⟨y, -, hy⟩ := List.mem_flatMap.mp hw
  rcases addSparseAddress_put hy with ⟨f, h6, hput⟩ | hstop
  · exact .inl ⟨f, y, h6, hput⟩
  · exact .inr hstop

theorem addition_sparse (hglobal : a.isGlobal = false) (hsparse : h.sparse = true) :
    addition h a = .put (.id .v4 a.networkId) true .invalidArg ::
      ((if h.sparse6 then [.put (.id .v6 a.networkId) true .invalidArg] else []) ++
        addresses h a) := by
  unfold addition addSparseNetwork
  rw [if_neg (by simp [hglobal]), if_pos hsparse]
  rfl

theorem addition_missing (hglobal : a.isGlobal = false) (hsparse : h.sparse = false) :
    addition h a = [.stop .fileNotFound] := by
  unfold addition addSparseNetwork
  rw [if_neg (by simp [hglobal]), if_neg (by simp [hsparse])]

theorem addition_global (hglobal : a.isGlobal = true) :
    addition h a = addLegacyNetwork h a := by
  unfold addition
  rw [if_pos hglobal]

theorem removal_global (hglobal : a.isGlobal = true) :
    removal h a = removeLegacyNetwork h a := by
  unfold removal
  rw [if_pos hglobal]

theorem removal_sparse (hglobal : a.isGlobal = false) :
    removal h a = removeSparseNetwork h a := by
  unfold removal
  rw [if_neg (by simp [hglobal])]

theorem addition_puts : ∀ w ∈ addition h a, w.IsPut := by
  intro w hw
  unfold addition at hw
  split at hw
  · unfold addLegacyNetwork at hw
    split at hw
    · obtain ⟨y, -, rfl⟩ := List.mem_map.mp hw
      exact legacyAddress_put y
    · obtain rfl := List.mem_singleton.mp hw
      trivial
  · unfold addSparseNetwork at hw
    split at hw
    · rcases List.mem_cons.mp hw with rfl | hw
      · trivial
      · rcases List.mem_append.mp hw with hw | hw
        · split at hw
          · obtain rfl := List.mem_singleton.mp hw
            trivial
          · cases hw
        · rcases addresses_put (a := a) hw with ⟨f, y, -, rfl⟩ | rfl <;> trivial
    · obtain rfl := List.mem_singleton.mp hw
      trivial

theorem removal_drops : ∀ w ∈ removal h a, w.IsDrop := by
  intro w hw
  unfold removal at hw
  split at hw
  · unfold removeLegacyNetwork at hw
    split at hw
    · obtain ⟨y, -, rfl⟩ := List.mem_map.mp hw
      exact legacyAddress_drop y
    · obtain rfl := List.mem_singleton.mp hw
      trivial
  · unfold removeSparseNetwork at hw
    split at hw
    · obtain rfl := List.mem_singleton.mp hw
      trivial
    · split at hw
      · rcases List.mem_cons.mp hw with rfl | hw
        · trivial
        · split at hw
          · obtain rfl := List.mem_singleton.mp hw
            trivial
          · cases hw
      · obtain rfl := List.mem_singleton.mp hw
        trivial

theorem about_address {f : Family} {n : Nat} {y : Address} : about f n (.address f n y) = true := by
  simp [about]

/-- The entries of a sparse network carry its id, and lie in the files that are there. -/
theorem facts_sparse (hglobal : a.isGlobal = false) (hx : x ∈ facts h a) :
    h.sparse = true ∧
      (about .v4 a.networkId x = true ∨ (h.sparse6 = true ∧ about .v6 a.networkId x = true)) := by
  unfold facts at hx
  cases hsparse : h.sparse with
  | false =>
      rw [addition_missing hglobal hsparse] at hx
      simp [content] at hx
  | true =>
      rw [addition_sparse hglobal hsparse] at hx
      obtain ⟨fresh, e, hput⟩ := put_of_content hx
      refine ⟨rfl, ?_⟩
      rcases List.mem_cons.mp hput with heq | hput
      · cases heq
        exact .inl (by simp [about])
      · rcases List.mem_append.mp hput with hput | hput
        · split at hput
          · rename_i h6
            cases List.mem_singleton.mp hput
            exact .inr ⟨h6, by simp [about]⟩
          · cases hput
        · rcases addresses_put hput with ⟨f, y, h6, heq⟩ | heq
          · cases heq
            cases f with
            | v4 => exact .inl about_address
            | v6 => exact .inr ⟨h6 rfl, about_address⟩
          · cases heq

theorem facts_global (hglobal : a.isGlobal = true) (hx : x ∈ facts h a) :
    ∃ f, ∃ y ∈ a.netAddresses, x = .legacy f y := by
  unfold facts at hx
  rw [addition_global hglobal] at hx
  obtain ⟨fresh, e, hput⟩ := put_of_content hx
  unfold addLegacyNetwork at hput
  split at hput
  · obtain ⟨y, hy, heq⟩ := List.mem_map.mp hput
    rcases legacyAddress_cases (h := h) y with ⟨f, hf⟩ | ⟨e, he⟩
    · rw [hf] at heq
      cases heq
      exact ⟨f, y, hy, rfl⟩
    · rw [he] at heq
      cases heq
  · cases List.mem_singleton.mp hput

theorem region_sparse (hglobal : a.isGlobal = false) (hx : region (removal h a) x = true) :
    ∃ f, about f a.networkId x = true := by
  rw [removal_sparse hglobal] at hx
  unfold removeSparseNetwork at hx
  split at hx
  · cases hx
  · split at hx
    · rcases Bool.or_eq_true_iff.mp hx with hx | hx
      · exact ⟨.v4, hx⟩
      · split at hx
        · exact ⟨.v6, by simpa [region] using hx⟩
        · cases hx
    · cases hx

theorem region_legacy {l : List Address} (hx : region (l.map (legacyAddress h fun x =>
      .drop (fun y => decide (y = x)) .ipprivateNetworkInvalidIp)) x = true) :
    ∃ f, ∃ y ∈ l, x = .legacy f y := by
  induction l with
  | nil => cases hx
  | cons y l ih =>
      rw [List.map_cons] at hx
      rcases legacyAddress_cases (h := h) y with ⟨f, hf⟩ | ⟨e, he⟩
      · rw [hf] at hx
        rcases Bool.or_eq_true_iff.mp hx with hx | hx
        · exact ⟨f, y, List.mem_cons_self, of_decide_eq_true hx⟩
        · obtain ⟨g, z, hz, heq⟩ := ih hx
          exact ⟨g, z, List.mem_cons_of_mem _ hz, heq⟩
      · rw [he] at hx
        cases hx

theorem region_global (hglobal : a.isGlobal = true) (hx : region (removal h a) x = true) :
    ∃ f, ∃ y ∈ a.netAddresses, x = .legacy f y := by
  rw [removal_global hglobal] at hx
  unfold removeLegacyNetwork at hx
  split at hx
  · exact region_legacy hx
  · cases hx

/-- Two networks that can be told apart in the kernel. -/
structure Apart (a b : Network) : Prop where
  ids : a.isGlobal = false → b.isGlobal = false → b.networkId ≠ a.networkId
  foreign : Foreign a b

theorem about_same {f g : Family} {n m : Nat} (hn : about f n x = true)
    (hm : about g m x = true) : n = m := by
  cases x with
  | id k l =>
      simp only [about, decide_eq_true_eq] at hn hm
      exact hn.2.symm.trans hm.2
  | address k l y =>
      simp only [about, decide_eq_true_eq] at hn hm
      exact hn.2.symm.trans hm.2
  | legacy k y => cases hn

/-- The removal of one network spares the entries of another. -/
theorem spared (apart : Apart a b) (hx : x ∈ facts h b) : region (removal h a) x = false := by
  by_contra hno
  have hregion : region (removal h a) x = true := Bool.not_eq_false _ ▸ hno
  cases ha : a.isGlobal with
  | false =>
      obtain ⟨f, hf⟩ := region_sparse ha hregion
      cases hb : b.isGlobal with
      | false =>
          rcases (facts_sparse hb hx).2 with hg | ⟨-, hg⟩
          · exact apart.ids ha hb (about_same hg hf)
          · exact apart.ids ha hb (about_same hg hf)
      | true =>
          obtain ⟨g, y, -, rfl⟩ := facts_global hb hx
          cases hf
  | true =>
      obtain ⟨f, y, hy, rfl⟩ := region_global ha hregion
      cases hb : b.isGlobal with
      | false =>
          rcases (facts_sparse hb hx).2 with hg | ⟨-, hg⟩ <;> cases hg
      | true =>
          obtain ⟨g, z, hz, heq⟩ := facts_global hb hx
          cases heq
          exact apart.foreign ha hb y hy hz

/-- A network that is not configured sparse without an id. -/
def Numbered (h : Host) (a : Network) : Prop :=
  a.isGlobal = false → a.networkId ≠ h.generateId

theorem region_legacy_of_content {l : List Address}
    (hx : x ∈ content (l.map (legacyAddress h fun x =>
      .put x false .ipprivateNetworkInvalidIp))) :
    region (l.map (legacyAddress h fun x =>
      .drop (fun y => decide (y = x)) .ipprivateNetworkInvalidIp)) x = true := by
  induction l with
  | nil => simp [content] at hx
  | cons y l ih =>
      rw [List.map_cons] at hx ⊢
      rcases legacyAddress_cases (h := h) y with ⟨f, hf⟩ | ⟨e, he⟩
      · rw [hf] at hx ⊢
        rcases Finset.mem_insert.mp hx with rfl | hx
        · exact Bool.or_eq_true_iff.mpr (.inl (decide_eq_true rfl))
        · exact Bool.or_eq_true_iff.mpr (.inr (ih hx))
      · rw [he] at hx
        simp [content] at hx

/-- The removal of a network covers all of its entries. -/
theorem covered (numbered : Numbered h a) (hx : x ∈ facts h a) :
    region (removal h a) x = true := by
  cases ha : a.isGlobal with
  | false =>
      obtain ⟨hsparse, habout⟩ := facts_sparse ha hx
      rw [removal_sparse ha]
      unfold removeSparseNetwork
      rw [if_neg (numbered ha), if_pos hsparse]
      rcases habout with h4 | ⟨h6, hv6⟩
      · exact Bool.or_eq_true_iff.mpr (.inl h4)
      · rw [if_pos h6]
        exact Bool.or_eq_true_iff.mpr (.inr (by simpa [region] using hv6))
  | true =>
      unfold facts at hx
      rw [addition_global ha] at hx
      rw [removal_global ha]
      unfold addLegacyNetwork at hx
      unfold removeLegacyNetwork
      split at hx
      · rename_i hlegacy
        rw [if_pos hlegacy]
        exact region_legacy_of_content hx
      · simp [content] at hx

end DispService.PrivateNetwork
