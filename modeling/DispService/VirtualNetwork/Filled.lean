import DispService.VirtualNetwork.Defaults

/-! When the default networks are filled in without a network or an id that occurs twice, and a
second time without any change. -/
namespace DispService.VirtualNetwork

open Lib Lib.Objects

namespace PrlNet

variable {host : Host} {adapter : EthernetAdapter} {networks : CVirtualNetworks} {index : UInt32}

/-- What is asked of the filled list. -/
structure Settled (host : Host) (networks : CVirtualNetworks) : Prop where
  distinct : (fillDefaultNetworks host networks).Distinct CVirtualNetwork.networkID
  kept : Kept CVirtualNetwork.networkID "" networks (fillDefaultNetworks host networks)
  again : fillDefaultNetworks host (fillDefaultNetworks host networks) =
    fillDefaultNetworks host networks

/-- The default ids are free, and there is no bridged network with the default id that is bound to
something else than the default adapter. -/
structure Clear (host : Host) (networks : CVirtualNetworks) : Prop where
  shared : isSharedEnabled host = true →
    Free (hasVirtuozzoAdapter 0) CVirtualNetwork.networkID "" "Shared" networks
  hostOnly :
    Free (hasVirtuozzoAdapter (hostOnlyIndex host)) CVirtualNetwork.networkID "" "Host-Only"
      networks
  bridged : host.appExecuteMode = .server → ∀ adapter ∈ defaultAdapter host,
    getNetworkByBoundCardMacAndVLANTag networks (host.ethAddressToString adapter.macAddr)
      adapter.vlanTag = none →
    ∀ r ∈ networks.refs, (networks.heap r).networkID ≠ srvDefaultBridgedID

theorem hasVirtuozzoAdapter_fill {i j : UInt32} {shared : Bool} (network : CVirtualNetwork) :
    hasVirtuozzoAdapter j (fillDefaultVirtualNetworkParams host i shared network) = (i == j) :=
  rfl

/-- A default text once given is not given again. -/
theorem default_default (text d : String) :
    (if (if text = "" then d else text) = "" then d else if text = "" then d else text) =
      if text = "" then d else text := by
  by_cases h : text = ""
  · simp only [h, if_true]
    split <;> rfl
  · simp only [h, if_false]

theorem fill_fill {shared : Bool} (network : CVirtualNetwork) :
    fillDefaultVirtualNetworkParams host index shared
        (fillDefaultVirtualNetworkParams host index shared network) =
      fillDefaultVirtualNetworkParams host index shared network := by
  unfold fillDefaultVirtualNetworkParams
  rw [CVirtualNetwork.mk.injEq]
  exact ⟨rfl, default_default _ _, rfl, default_default _ _, rfl, rfl, rfl⟩

/-- The adapter of a network is the only one it is found by. -/
theorem hasVirtuozzoAdapter_other {i j : UInt32} (hne : i ≠ j) {network : CVirtualNetwork}
    (h : hasVirtuozzoAdapter i network = true) : hasVirtuozzoAdapter j network = false := by
  unfold hasVirtuozzoAdapter at h ⊢
  rw [Bool.and_eq_true] at h
  rw [h.1, Bool.true_and]
  split at h
  · next hadapter =>
    rw [beq_iff_eq.mp h.2]
    exact beq_false_of_ne hne
  · simp at h

theorem isBound_other {mac : String} {vlanTag : UInt16} {network : CVirtualNetwork}
    (h : hasVirtuozzoAdapter index network = true) : isBound mac vlanTag network = false := by
  unfold hasVirtuozzoAdapter at h
  rw [Bool.and_eq_true] at h
  rw [isBound, beq_iff_eq.mp h.1]
  rfl

theorem provide_names (shared : Bool) :
    Names CVirtualNetwork.networkID "" (getDefaultVirtualNetworkID index shared)
      (fillDefaultVirtualNetworkParams host index shared) :=
  fun _ => rfl

theorem kept_provide : Kept CVirtualNetwork.networkID "" networks (provide host index networks) :=
  kept_ensure (provide_names _)

theorem held_provide : Held (hasVirtuozzoAdapter index)
    (fillDefaultVirtualNetworkParams host index (isSharedEnabled host))
    (provide host index networks) :=
  held_ensure (fun x => by rw [hasVirtuozzoAdapter_fill]; exact beq_self_eq_true index) fill_fill

theorem held_other {i : UInt32} (hne : i ≠ index)
    (h : Held (hasVirtuozzoAdapter index)
      (fillDefaultVirtualNetworkParams host index (isSharedEnabled host)) networks) :
    Held (hasVirtuozzoAdapter index)
      (fillDefaultVirtualNetworkParams host index (isSharedEnabled host))
      (provide host i networks) :=
  h.other (fun _ => hasVirtuozzoAdapter_other hne) fun x => by
    rw [hasVirtuozzoAdapter_fill]
    exact beq_false_of_ne hne

theorem bound_provide {mac : String} {vlanTag : UInt16} :
    getNetworkByBoundCardMacAndVLANTag (provide host index networks) mac vlanTag =
      getNetworkByBoundCardMacAndVLANTag networks mac vlanTag :=
  first_ensure (fun _ => isBound_other) fun _ => rfl

theorem unused_provide {id d : String} (hd : getDefaultVirtualNetworkID index
    (isSharedEnabled host) = d) (hne : id ≠ d) (hblank : id ≠ "") :
    (∀ r ∈ (provide host index networks).refs,
        ((provide host index networks).heap r).networkID ≠ id) ↔
      ∀ r ∈ networks.refs, (networks.heap r).networkID ≠ id :=
  unused_ensure (provide_names _) host.unnamed (hd ▸ hne) hblank

/-- The state in which the host-only network is looked for. -/
def afterShared (host : Host) (networks : CVirtualNetworks) : CVirtualNetworks :=
  if isSharedEnabled host then provide host 0 networks else networks

/-- The state in which the bridged network is looked for. -/
def afterHostOnly (host : Host) (networks : CVirtualNetworks) : CVirtualNetworks :=
  provide host (hostOnlyIndex host) (afterShared host networks)

theorem fillDefaultNetworks_eq : fillDefaultNetworks host networks =
    fillDefaultBridged host (afterHostOnly host networks) :=
  rfl

theorem default_shared (h : isSharedEnabled host = true) :
    getDefaultVirtualNetworkID 0 (isSharedEnabled host) = "Shared" := by
  rw [h]
  rfl

theorem default_hostOnly :
    getDefaultVirtualNetworkID (hostOnlyIndex host) (isSharedEnabled host) = "Host-Only" := by
  unfold hostOnlyIndex
  cases isSharedEnabled host <;> rfl

/-- The network of the adapter 0 is not that of the host-only adapter. -/
theorem zero_ne_hostOnlyIndex (h : isSharedEnabled host = true) : 0 ≠ hostOnlyIndex host := by
  rw [hostOnlyIndex, if_pos h]
  decide

theorem kept_afterShared :
    Kept CVirtualNetwork.networkID "" networks (afterShared host networks) := by
  unfold afterShared
  split
  · exact kept_provide
  · exact .refl

theorem kept_fillDefaultBridged :
    Kept CVirtualNetwork.networkID "" networks (fillDefaultBridged host networks) := by
  unfold fillDefaultBridged
  split
  · exact .refl
  split
  · exact .refl
  next adapter _ =>
    unfold fillBridged
    dsimp only
    split
    · exact .refl
    split
    · next r hr =>
      refine ⟨List.prefix_append _ [r], ?_⟩
      intro x _ _
      by_cases hx : x = r
      · rw [hx]
        have hid := first_holds hr
        simpa [append, bridge] using (beq_iff_eq.mp hid).symm
      · exact congrArg _ (put_heap_ne hx)
    · exact kept_push

theorem kept_fill :
    Kept CVirtualNetwork.networkID "" networks (fillDefaultNetworks host networks) :=
  (kept_afterShared.trans kept_provide).trans kept_fillDefaultBridged

/-- The search for the host-only network meets the ids that it would meet at the start. -/
theorem free_afterShared :
    Free (hasVirtuozzoAdapter (hostOnlyIndex host)) CVirtualNetwork.networkID "" "Host-Only"
        (afterShared host networks) ↔
      Free (hasVirtuozzoAdapter (hostOnlyIndex host)) CVirtualNetwork.networkID "" "Host-Only"
        networks := by
  unfold afterShared
  split
  · next h =>
    have hne := zero_ne_hostOnlyIndex h
    refine free_ensure (provide_names _) host.unnamed ?_ (by decide)
      (fun _ => hasVirtuozzoAdapter_other hne) fun x => ?_
    · rw [default_shared h]
      decide
    · rw [hasVirtuozzoAdapter_fill]
      exact beq_false_of_ne hne
  · exact Iff.rfl

theorem bound_afterHostOnly {mac : String} {vlanTag : UInt16} :
    getNetworkByBoundCardMacAndVLANTag (afterHostOnly host networks) mac vlanTag =
      getNetworkByBoundCardMacAndVLANTag networks mac vlanTag := by
  rw [afterHostOnly, bound_provide, afterShared]
  split
  · exact bound_provide
  · rfl

theorem unused_afterHostOnly :
    (∀ r ∈ (afterHostOnly host networks).refs,
        ((afterHostOnly host networks).heap r).networkID ≠ srvDefaultBridgedID) ↔
      ∀ r ∈ networks.refs, (networks.heap r).networkID ≠ srvDefaultBridgedID := by
  rw [afterHostOnly, unused_provide default_hostOnly (by decide) (by decide), afterShared]
  split
  · next h => exact unused_provide (default_shared h) (by decide) (by decide)
  · exact Iff.rfl

theorem getVirtualNetworkByID_none {id : String} :
    getVirtualNetworkByID networks id = none ↔
      ∀ r ∈ networks.refs, (networks.heap r).networkID ≠ id := by
  rw [getVirtualNetworkByID, first, List.find?_eq_none]
  exact forall₂_congr fun r _ => by rw [beq_iff_eq]

/-- What the bridged part does when its network can be added. -/
inductive Added (host : Host) (networks : CVirtualNetworks) : CVirtualNetworks → Prop where
  | same (again : fillDefaultBridged host networks = networks) : Added host networks networks
  | new (adapter : EthernetAdapter) (mac : String)
      (unused : ∀ r ∈ networks.refs, (networks.heap r).networkID ≠ srvDefaultBridgedID)
      (again : fillDefaultBridged host
          (networks.push (bridge mac adapter.vlanTag host.newVirtualNetwork)) =
        networks.push (bridge mac adapter.vlanTag host.newVirtualNetwork)) :
      Added host networks (networks.push (bridge mac adapter.vlanTag host.newVirtualNetwork))

/-- A network that is bound to the default adapter is enough. -/
theorem fillDefaultBridged_bound {r : Nat} (hadapter : defaultAdapter host = some adapter)
    (hr : getNetworkByBoundCardMacAndVLANTag networks (host.ethAddressToString adapter.macAddr)
      adapter.vlanTag = some r) : fillDefaultBridged host networks = networks := by
  unfold fillDefaultBridged
  split
  · rfl
  · simp only [hadapter, fillBridged, hr]

theorem added (h : host.appExecuteMode = .server → ∀ adapter ∈ defaultAdapter host,
      getNetworkByBoundCardMacAndVLANTag networks (host.ethAddressToString adapter.macAddr)
        adapter.vlanTag = none →
      ∀ r ∈ networks.refs, (networks.heap r).networkID ≠ srvDefaultBridgedID) :
    Added host networks (fillDefaultBridged host networks) := by
  by_cases hmode : host.appExecuteMode = .server
  · cases hadapter : defaultAdapter host with
    | none =>
      have heq : fillDefaultBridged host networks = networks := by
        simp only [fillDefaultBridged, hadapter, ite_self]
      rw [heq]
      exact .same heq
    | some adapter =>
      cases hbound : getNetworkByBoundCardMacAndVLANTag networks
          (host.ethAddressToString adapter.macAddr) adapter.vlanTag with
      | some r =>
        have heq := fillDefaultBridged_bound hadapter hbound
        rw [heq]
        exact .same heq
      | none =>
        have hunused := h hmode adapter hadapter hbound
        have heq : fillDefaultBridged host networks = networks.push
            (bridge (host.ethAddressToString adapter.macAddr) adapter.vlanTag
              host.newVirtualNetwork) := by
          simp only [fillDefaultBridged, hmode, hadapter, fillBridged, hbound,
            getVirtualNetworkByID_none.mpr hunused, not_true, ne_eq, if_false]
        rw [heq]
        refine .new adapter _ hunused (fillDefaultBridged_bound (r := networks.fresh) hadapter ?_)
        unfold getNetworkByBoundCardMacAndVLANTag at hbound ⊢
        rw [first_push, hbound, Option.none_or, if_pos]
        simp [isBound, bridge]
  · have heq : fillDefaultBridged host networks = networks := by
      simp only [fillDefaultBridged, hmode, ne_eq, not_false_eq_true, if_true]
    rw [heq]
    exact .same heq

/-- The network with the default id is listed once more. -/
theorem clash_fillDefaultBridged (hmode : host.appExecuteMode = .server)
    (hadapter : defaultAdapter host = some adapter)
    (hbound : getNetworkByBoundCardMacAndVLANTag networks
      (host.ethAddressToString adapter.macAddr) adapter.vlanTag = none)
    (hused : ¬ ∀ r ∈ networks.refs, (networks.heap r).networkID ≠ srvDefaultBridgedID) :
    Clash CVirtualNetwork.networkID "" (fillDefaultBridged host networks) := by
  rw [← getVirtualNetworkByID_none] at hused
  obtain ⟨r, hr⟩ := Option.ne_none_iff_exists'.mp hused
  left
  simp only [fillDefaultBridged, hmode, hadapter, fillBridged, hbound, hr, not_true, ne_eq,
    if_false]
  rw [append, put_refs, List.nodup_append]
  intro h
  exact h.2.2 r (first_mem hr) r (List.mem_singleton_self r) rfl

theorem clash_of_not_clear (h : ¬ Clear host networks) :
    Clash CVirtualNetwork.networkID "" (fillDefaultNetworks host networks) := by
  rw [fillDefaultNetworks_eq]
  by_cases hshared : isSharedEnabled host = true →
      Free (hasVirtuozzoAdapter 0) CVirtualNetwork.networkID "" "Shared" networks
  · by_cases hhost : Free (hasVirtuozzoAdapter (hostOnlyIndex host)) CVirtualNetwork.networkID ""
        "Host-Only" networks
    · obtain ⟨hmode, adapter, hadapter, hbound, r, hr, hid⟩ :
          host.appExecuteMode = .server ∧ ∃ adapter ∈ defaultAdapter host,
            getNetworkByBoundCardMacAndVLANTag networks
              (host.ethAddressToString adapter.macAddr) adapter.vlanTag = none ∧
            ∃ r ∈ networks.refs, (networks.heap r).networkID = srvDefaultBridgedID := by
        by_contra hnone
        push Not at hnone
        exact h ⟨hshared, hhost, hnone⟩
      refine clash_fillDefaultBridged hmode hadapter (bound_afterHostOnly.trans hbound) ?_
      rw [unused_afterHostOnly]
      exact fun hunused => hunused r hr hid
    · rw [← free_afterShared] at hhost
      rw [← @default_hostOnly host] at hhost
      refine Clash.kept ?_ kept_fillDefaultBridged
      exact clash_ensure (provide_names _) host.unnamed (by rw [default_hostOnly]; decide) hhost
  · push Not at hshared
    obtain ⟨hon, htaken⟩ := hshared
    rw [← default_shared hon] at htaken
    refine Clash.kept ?_ (kept_provide.trans kept_fillDefaultBridged)
    rw [afterShared, if_pos hon]
    exact clash_ensure (provide_names _) host.unnamed (by rw [default_shared hon]; decide) htaken

theorem Clear.distinct (clear : Clear host networks)
    (h : networks.Distinct CVirtualNetwork.networkID) :
    (afterHostOnly host networks).Distinct CVirtualNetwork.networkID := by
  refine Distinct.ensure ?_ (provide_names _) host.unnamed ?_
  · unfold afterShared
    split
    · next hon =>
      refine h.ensure (provide_names _) host.unnamed ?_
      rw [default_shared hon]
      exact clear.shared hon
    · exact h
  · rw [default_hostOnly, free_afterShared]
    exact clear.hostOnly

/-- The networks of the two adapters are as they are filled in. -/
theorem again_of_held
    (hshared : isSharedEnabled host = true → Held (hasVirtuozzoAdapter 0)
      (fillDefaultVirtualNetworkParams host 0 (isSharedEnabled host)) networks)
    (hhost : Held (hasVirtuozzoAdapter (hostOnlyIndex host))
      (fillDefaultVirtualNetworkParams host (hostOnlyIndex host) (isSharedEnabled host)) networks) :
    afterHostOnly host networks = networks := by
  have hsame : afterShared host networks = networks := by
    unfold afterShared
    split
    · next hon => exact (hshared hon).ensure
    · rfl
  rw [afterHostOnly, hsame]
  exact hhost.ensure

theorem held_afterHostOnly (hon : isSharedEnabled host = true) :
    Held (hasVirtuozzoAdapter 0) (fillDefaultVirtualNetworkParams host 0 (isSharedEnabled host))
      (afterHostOnly host networks) := by
  refine held_other (zero_ne_hostOnlyIndex hon).symm ?_
  rw [afterShared, if_pos hon]
  exact held_provide

/-- The list stays free of duplicates, and is filled in once and for all, just where the default ids
are free. -/
theorem fillDefaultNetworks_settled_iff
    (h : networks.Distinct CVirtualNetwork.networkID) :
    Settled host networks ↔ Clear host networks := by
  constructor
  · intro settled
    by_contra hclear
    exact (clash_of_not_clear hclear).not_distinct settled.distinct
  · intro clear
    have hdistinct := clear.distinct h
    have hadd := @added host (afterHostOnly host networks) ?_
    · rw [← fillDefaultNetworks_eq] at hadd
      generalize hfill : fillDefaultNetworks host networks = filled at hadd
      refine ⟨?_, kept_fill, ?_⟩
      · rw [hfill]
        cases hadd with
        | same _ => exact hdistinct
        | new adapter mac unused _ => exact hdistinct.push unused
      · rw [hfill, fillDefaultNetworks_eq]
        cases hadd with
        | same again => rw [again_of_held held_afterHostOnly held_provide, again]
        | new adapter mac _ again =>
          rw [again_of_held (fun hon => (held_afterHostOnly hon).push) held_provide.push, again]
    · intro hmode adapter hadapter hbound
      rw [bound_afterHostOnly] at hbound
      rw [unused_afterHostOnly]
      exact clear.bridged hmode adapter hadapter hbound

/-- A network of the default id that is bound to some card. -/
def boundNetwork : CVirtualNetwork where
  isEnabled := true
  networkID := srvDefaultBridgedID
  networkType := .bridgedEthernet
  description := "Bridged Network"
  boundCardMac := "001C42000001"
  vlanTag := 0xffff
  hostOnlyNetwork := none

/-- A server whose one adapter is another card. -/
def otherCardHost : Host where
  lin := true
  appExecuteMode := .server
  bindableAdapters := some [⟨2, 0xffff, #v[0x00, 0x1C, 0x42, 0, 0, 2], true⟩]
  defaultRoute := none
  ethAddressToString _ := "001C42000002"
  hiddenAdapter := false
  newVirtualNetwork := { boundNetwork with networkID := "" }
  unnamed := rfl

/-- The list of a new configuration. -/
theorem fillDefaultNetworks_settled_empty : Settled otherCardHost ⟨fun _ => boundNetwork, []⟩ := by
  have hdistinct : Distinct CVirtualNetwork.networkID ⟨fun _ => boundNetwork, []⟩ :=
    ⟨List.nodup_nil, List.nodup_nil⟩
  refine (fillDefaultNetworks_settled_iff hdistinct).mpr ⟨?_, ?_, ?_⟩
  · intro _
    exact .inr fun r hr => by cases hr
  · exact .inr fun r hr => by cases hr
  · intro _ _ _ _ r hr
    cases hr

/-- The card of the bridged network is no longer the default one: the network is listed twice. -/
theorem fillDefaultNetworks_lists_twice : ∃ host networks,
    networks.Distinct CVirtualNetwork.networkID ∧ ¬ Settled host networks := by
  refine ⟨otherCardHost, ⟨fun _ => boundNetwork, [1]⟩, ?_, ?_⟩
  · exact ⟨List.nodup_singleton _, List.nodup_singleton _⟩
  · intro settled
    have hclash := @clash_of_not_clear otherCardHost
      ⟨fun _ => boundNetwork, [1]⟩ fun clear =>
        clear.bridged rfl ⟨2, 0xffff, #v[0x00, 0x1C, 0x42, 0, 0, 2], true⟩ (by decide) (by decide) 1
          (List.mem_singleton_self 1) rfl
    exact hclash.not_distinct settled.distinct

end PrlNet

end DispService.VirtualNetwork
