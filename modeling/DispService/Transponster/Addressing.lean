import DispService.Transponster.HostAddress

/-! The addressing of a network adapter: the addresses, routes and servers that stand for it in
an interface of a domain, and what is read back from them. -/
namespace DispService.Transponster.Network.Adapter

structure CVmGenericNetworkAdapter where
  netAddresses : List Text
  configureWithDhcp : Bool
  configureWithDhcpIPv6 : Bool
  defaultGateway : Text
  defaultGatewayIPv6 : Text
  dnsIPAddresses : List Text
  searchDomains : List Text
deriving DecidableEq

/-- What is made of the texts of an adapter elsewhere. -/
structure NetworkUtils where
  /-- `NetworkUtils::ParseIps` -/
  parseIps : List Text → List Text × List Text
  /-- The length of `QHostAddress::parseSubnet(text)`. -/
  parseSubnet : Text → Nat
  /-- `Validatable<PDnsName>::validate` -/
  isDnsName : Text → Bool

namespace Domain

structure Ip where
  address : VIpAddr
  prefix_ : Option VIpPrefix

structure VzDhcp where
  family : Option Text

structure Route where
  family : Option Text
  address : VIpAddr
  gateway : VIpAddr

structure VzDns1 where
  serverList : List VIpAddr
  searchList : List Text

/-- What an interface of a domain says of addresses. -/
structure Interface where
  ipList : List Ip
  vzDhcpList : Option (List VzDhcp)
  routeList : List Route
  vzDns : Option VzDns1

end Domain

/-- `e.split('/').first()` -/
def host (e : Text) : Text := e.takeWhile (· ≠ '/')

/-- `QString("%1/%2")` -/
def subnet (a m : Text) : Text := a ++ '/' :: m

section Reverse

variable (qt : Qt) (net : NetworkUtils)

def Ips.craft (family : Family) (address_ : Text) (length_ : Nat) : Domain.Ip :=
  ⟨craftAddr qt family address_, some (craftPrefix family length_)⟩

def Ips (ips_ : List Text) : List Domain.Ip :=
  let (ipv4, ipv6) := net.parseIps ips_
  ipv4.map (fun e => Ips.craft qt .ipv4 (host e) (net.parseSubnet e)) ++
    ipv6.map fun e => Ips.craft qt .ipv6 (host e) (net.parseSubnet e)

namespace View

variable (m_network : CVmGenericNetworkAdapter)

def getDhcpList : Option (List Domain.VzDhcp) :=
  some ((if m_network.configureWithDhcp then [⟨some Family.ipv4.getFamily⟩] else []) ++
    if m_network.configureWithDhcpIPv6 then [⟨some Family.ipv6.getFamily⟩] else [])

def getDns : Option Domain.VzDns1 :=
  some ⟨m_network.dnsIPAddresses.filterMap (parseAddr qt), m_network.searchDomains⟩

/-- A variant begins with an empty value of its first alternative. -/
def parsed (src : Text) : VIpAddr := (parseAddr qt src).getD (.ipv4 [])

/-- The address that every destination matches. -/
def everywhere : Family → Text
  | .ipv4 => ['0', '.', '0', '.', '0', '.', '0']
  | .ipv6 => [':', ':']

def getRoute (family : Family) (gateway : Text) : List Domain.Route :=
  if gateway ≠ [] then
    [⟨some family.getFamily, parsed qt (everywhere family), parsed qt gateway⟩]
  else []

def getRouteList : List Domain.Route :=
  getRoute qt .ipv4 m_network.defaultGateway ++ getRoute qt .ipv6 m_network.defaultGatewayIPv6

end View

/-- The part of an interface that is made of the addressing. -/
def Reverse.interface (m_network : CVmGenericNetworkAdapter) : Domain.Interface where
  ipList := Ips qt net m_network.netAddresses
  vzDhcpList := View.getDhcpList m_network
  routeList := View.getRouteList qt m_network
  vzDns := View.getDns qt m_network

end Reverse

section Transit

variable (qt : Qt) (net : NetworkUtils)

def readIp (p : Domain.Ip) : Option Domain.Ip := do
  let address ← parseAddr qt (generateAddr p.address)
  let prefix_ ← p.prefix_.mapM fun v => parsePrefix (generatePrefix v)
  return ⟨address, prefix_⟩

def readRoute (r : Domain.Route) : Option Domain.Route := do
  let address ← parseAddr qt (generateAddr r.address)
  let gateway ← parseAddr qt (generateAddr r.gateway)
  return ⟨r.family, address, gateway⟩

def readDns (d : Domain.VzDns1) : Option Domain.VzDns1 := do
  let serverList ← d.serverList.mapM fun s => parseAddr qt (generateAddr s)
  if d.searchList.all net.isDnsName then return ⟨serverList, d.searchList⟩ else none

/-- The interface is written, and read by another. -/
def read (i : Domain.Interface) : Option Domain.Interface := do
  let ipList ← i.ipList.mapM (readIp qt)
  let routeList ← i.routeList.mapM (readRoute qt)
  let vzDns ← i.vzDns.mapM (readDns qt net)
  return ⟨ipList, i.vzDhcpList, routeList, vzDns⟩

end Transit

section Direct

variable (qt : Qt)

/-- `Visitor::Address::String::Ipv4Mask` -/
def Ipv4Mask : VIpPrefix → Text
  | .ipv4 mask4_ => qt.toString (getIPv4MaskFromPrefix mask4_)
  | .ipv6 mask6_ => qt.toString (getIPv4MaskFromPrefix (if mask6_ ≤ 32 then mask6_ else 32))

/-- One element of `Builder::setIps`. -/
def addressText (ip : Domain.Ip) : Text :=
  let a := generateAddr ip.address
  subnet a <| match qt.ofText a with
    | .ipv4 _ => Ipv4Mask qt (ip.prefix_.getD (.ipv4 24))
    | _ => decimal (generatePrefix (ip.prefix_.getD (.ipv6 64)))

namespace Builder

def setIps (value_ : List Domain.Ip) (m_result : CVmGenericNetworkAdapter) :
    CVmGenericNetworkAdapter :=
  { m_result with netAddresses := value_.map (addressText qt) }

def addDhcp (m_result : CVmGenericNetworkAdapter) (dhcp : Domain.VzDhcp) :
    CVmGenericNetworkAdapter :=
  match dhcp.family with
  | none => { m_result with configureWithDhcp := true }
  | some f =>
      if f = Family.ipv4.getFamily then { m_result with configureWithDhcp := true }
      else if f = Family.ipv6.getFamily then { m_result with configureWithDhcpIPv6 := true }
      else m_result

def setDhcp (value_ : Option (List Domain.VzDhcp)) (m_result : CVmGenericNetworkAdapter) :
    CVmGenericNetworkAdapter :=
  (value_.getD []).foldl addDhcp
    { m_result with configureWithDhcp := false, configureWithDhcpIPv6 := false }

def addGateway (m_result : CVmGenericNetworkAdapter) (route : Domain.Route) :
    CVmGenericNetworkAdapter :=
  if route.family = some Family.ipv4.getFamily then
    { m_result with defaultGateway := generateAddr route.gateway }
  else if route.family = some Family.ipv6.getFamily then
    { m_result with defaultGatewayIPv6 := generateAddr route.gateway }
  else m_result

def setGateway (value_ : List Domain.Route) (m_result : CVmGenericNetworkAdapter) :
    CVmGenericNetworkAdapter :=
  value_.foldl addGateway m_result

def setDns (dns_ : Option Domain.VzDns1) (m_result : CVmGenericNetworkAdapter) :
    CVmGenericNetworkAdapter :=
  match dns_ with
  | none => m_result
  | some d => { m_result with
      dnsIPAddresses := d.serverList.map generateAddr
      searchDomains := d.searchList }

end Builder

/-- What the builder makes of an interface. -/
def Direct.adapter (blank : CVmGenericNetworkAdapter) (variant_ : Domain.Interface) :
    CVmGenericNetworkAdapter :=
  Builder.setDns variant_.vzDns <| Builder.setGateway variant_.routeList <|
    Builder.setDhcp variant_.vzDhcpList <| Builder.setIps qt variant_.ipList blank

end Direct

/-- What a new adapter becomes, when the interface of another is read into it. -/
def readBack (qt : Qt) (net : NetworkUtils) (blank m_network : CVmGenericNetworkAdapter) :
    Option CVmGenericNetworkAdapter :=
  (read qt net (Reverse.interface qt net m_network)).map (Direct.adapter qt blank)

section Valid

variable (qt : Qt) (net : NetworkUtils)

/-- An address of IPv4 with the length of its mask, which is told by the mask too. -/
structure Address4 (e : Text) : Prop where
  pattern : qt.isIpv4Addr (host e) = true
  protocol : ∃ x, qt.ofText (host e) = .ipv4 x
  length : net.parseSubnet e ≤ 32
  netmask : ∀ k ≤ 32,
    net.parseSubnet (subnet (host e) (qt.toString (.ipv4 (mask4 k)))) = k

/-- An address of IPv6 with the length of its mask. -/
structure Address6 (e : Text) : Prop where
  other : qt.isIpv4Addr (host e) = false
  pattern : qt.isIpv6Addr (host e) = true
  protocol : ∃ c id, qt.ofText (host e) = .ipv6 c id
  length : net.parseSubnet e ≤ 128
  number : ∀ k ≤ 128, net.parseSubnet (subnet (host e) (decimal k)) = k

def IsAddress (s : Text) : Prop := qt.isIpv4Addr s = true ∨ qt.isIpv6Addr s = true

/-- The addresses of IPv4, and those of IPv6. -/
def families (l : List Text) : List Text × List Text :=
  (l.filter fun e => qt.isIpv4Addr (host e), l.filter fun e => !qt.isIpv4Addr (host e))

/-- The texts of an adapter are addresses and names, and `ParseIps` tells its families apart. -/
structure Valid (a : CVmGenericNetworkAdapter) : Prop where
  parseIps : net.parseIps a.netAddresses = families qt a.netAddresses
  netAddresses : ∀ e ∈ a.netAddresses, Address4 qt net e ∨ Address6 qt net e
  defaultGateway : a.defaultGateway ≠ [] → IsAddress qt a.defaultGateway
  defaultGatewayIPv6 : a.defaultGatewayIPv6 ≠ [] → IsAddress qt a.defaultGatewayIPv6
  dnsIPAddresses : ∀ s ∈ a.dnsIPAddresses, IsAddress qt s
  searchDomains : ∀ d ∈ a.searchDomains, net.isDnsName d = true
  everywhere : ∀ family, IsAddress qt (View.everywhere family)

/-- An address, and the length of its mask. -/
def entry (e : Text) : Text × Nat := (host e, net.parseSubnet e)

/-- The same addressing, but for the order of the families and how lengths are spelled. -/
structure SameAddressing (a b : CVmGenericNetworkAdapter) : Prop where
  netAddresses : b.netAddresses.map (entry net) =
    ((families qt a.netAddresses).1 ++ (families qt a.netAddresses).2).map (entry net)
  configureWithDhcp : b.configureWithDhcp = a.configureWithDhcp
  configureWithDhcpIPv6 : b.configureWithDhcpIPv6 = a.configureWithDhcpIPv6
  defaultGateway : b.defaultGateway = a.defaultGateway
  defaultGatewayIPv6 : b.defaultGatewayIPv6 = a.defaultGatewayIPv6
  dnsIPAddresses : b.dnsIPAddresses = a.dnsIPAddresses
  searchDomains : b.searchDomains = a.searchDomains

end Valid

section Texts

variable {qt : Qt} {net : NetworkUtils} {e s : Text}

theorem mapM_of_some {α β : Type} {f : α → Option β} {g : α → β} {l : List α}
    (h : ∀ x ∈ l, f x = some (g x)) : l.mapM f = some (l.map g) := by
  induction l with
  | nil => rfl
  | cons x l ih =>
    rw [List.mapM_cons, h x List.mem_cons_self, ih fun y hy => h y (List.mem_cons_of_mem x hy)]
    rfl

theorem slash_notMem_host (e : Text) : '/' ∉ host e := by
  intro h
  have hslash := List.mem_takeWhile_imp h
  simp at hslash

theorem host_subnet (e m : Text) : host (subnet (host e) m) = host e := by
  have h : ∀ c ∈ host e, decide (c ≠ '/') = true := fun c hc =>
    decide_eq_true fun hslash => slash_notMem_host e (hslash ▸ hc)
  change (host e ++ '/' :: m).takeWhile (· ≠ '/') = _
  rw [List.takeWhile_append_of_pos h]
  simp

theorem parse_of_isAddress (h : IsAddress qt s) :
    ∃ v, parseAddr qt s = some v ∧ generateAddr v = s := by
  rw [parseAddr]
  rcases h with h | h
  · exact ⟨.ipv4 s, if_pos h, rfl⟩
  · by_cases h4 : qt.isIpv4Addr s = true
    · exact ⟨.ipv4 s, if_pos h4, rfl⟩
    · exact ⟨.ipv6 s, by rw [if_neg h4, if_pos h], rfl⟩

theorem parsed_of_isAddress (h : IsAddress qt s) :
    parseAddr qt (generateAddr (View.parsed qt s)) = some (View.parsed qt s) ∧
      generateAddr (View.parsed qt s) = s := by
  obtain ⟨v, hv, hs⟩ := parse_of_isAddress h
  rw [View.parsed, hv, Option.getD_some, hs]
  exact ⟨hv, rfl⟩

end Texts

section Steps

variable {qt : Qt} {net : NetworkUtils} {e : Text} {a b : CVmGenericNetworkAdapter}

/-- The length that comes back with an address of IPv4. -/
def shown (n : Nat) : Nat := if n = 0 then 32 else n

theorem getIPv4MaskFromPrefix_eq {n : Nat} (h : n ≤ 32) :
    getIPv4MaskFromPrefix n = .ipv4 (mask4 (shown n)) := by
  by_cases h0 : n = 0
  · subst h0
    decide
  · rw [shown, if_neg h0]
    exact mask4_of_prefix ⟨n, Nat.lt_succ_of_le h⟩ h0

theorem shown_le {n : Nat} (h : n ≤ 32) : shown n ≤ 32 := by
  unfold shown
  split
  · exact le_refl 32
  · exact h

theorem shown_eq_iff {n : Nat} : shown n = n ↔ n ≠ 0 := by
  unfold shown
  split <;> omega

theorem readIp_ipv4 (h : Address4 qt net e) :
    readIp qt (Ips.craft qt .ipv4 (host e) (net.parseSubnet e)) =
      some ⟨.ipv4 (host e), some (.ipv4 (net.parseSubnet e))⟩ := by
  have haddress : parseAddr qt (host e) = some (.ipv4 (host e)) := if_pos h.pattern
  have hprefix : parsePrefix (net.parseSubnet e) = some (.ipv4 (net.parseSubnet e)) :=
    if_pos h.length
  simp [readIp, Ips.craft, craftAddr, craftPrefix, h.pattern, h.length, generateAddr,
    generatePrefix, haddress, hprefix]

theorem entry_ipv4 (h : Address4 qt net e) :
    entry net (addressText qt ⟨.ipv4 (host e), some (.ipv4 (net.parseSubnet e))⟩) =
      (host e, shown (net.parseSubnet e)) := by
  obtain ⟨x, hx⟩ := h.protocol
  have htext : addressText qt ⟨.ipv4 (host e), some (.ipv4 (net.parseSubnet e))⟩ =
      subnet (host e) (qt.toString (.ipv4 (mask4 (shown (net.parseSubnet e))))) := by
    simp [addressText, generateAddr, hx, Ipv4Mask, getIPv4MaskFromPrefix_eq h.length]
  rw [htext, entry, host_subnet, h.netmask _ (shown_le h.length)]

theorem readIp_ipv6 (h : Address6 qt net e) :
    readIp qt (Ips.craft qt .ipv6 (host e) (net.parseSubnet e)) =
      some ⟨.ipv6 (host e), parsePrefix (net.parseSubnet e)⟩ := by
  have haddress : parseAddr qt (host e) = some (.ipv6 (host e)) := by
    rw [parseAddr, h.other, if_neg Bool.false_ne_true, if_pos h.pattern]
  obtain ⟨v, hv, -⟩ := parsePrefix_some h.length
  simp [readIp, Ips.craft, craftAddr, craftPrefix, h.pattern, h.length, generateAddr,
    generatePrefix, haddress, hv]

theorem entry_ipv6 (h : Address6 qt net e) :
    entry net (addressText qt ⟨.ipv6 (host e), parsePrefix (net.parseSubnet e)⟩) =
      entry net e := by
  obtain ⟨c, id, hc⟩ := h.protocol
  obtain ⟨v, hv, hn⟩ := parsePrefix_some h.length
  have htext : addressText qt ⟨.ipv6 (host e), parsePrefix (net.parseSubnet e)⟩ =
      subnet (host e) (decimal (net.parseSubnet e)) := by
    simp [addressText, generateAddr, hc, hv, hn]
  rw [htext, entry, host_subnet, h.number _ h.length, entry]

theorem setDhcp_getDhcpList (a b : CVmGenericNetworkAdapter) :
    Builder.setDhcp (View.getDhcpList a) b =
      { b with
        configureWithDhcp := a.configureWithDhcp
        configureWithDhcpIPv6 := a.configureWithDhcpIPv6 } := by
  rw [View.getDhcpList]
  cases a.configureWithDhcp <;> cases a.configureWithDhcpIPv6 <;> rfl

theorem readRoute_getRoute {family : Family} {gateway : Text}
    (he : IsAddress qt (View.everywhere family)) (hg : gateway ≠ [] → IsAddress qt gateway) :
    ∀ r ∈ View.getRoute qt family gateway, readRoute qt r = some r := by
  intro r hr
  unfold View.getRoute at hr
  split at hr
  · next hne =>
    rw [List.mem_singleton] at hr
    subst hr
    simp [readRoute, (parsed_of_isAddress he).1, (parsed_of_isAddress (hg hne)).1]
  · cases hr

theorem setGateway_getRoute (family : Family) {gateway : Text}
    (hg : gateway ≠ [] → IsAddress qt gateway) (b : CVmGenericNetworkAdapter) :
    Builder.setGateway (View.getRoute qt family gateway) b =
      match family with
      | .ipv4 => { b with
          defaultGateway := if gateway = [] then b.defaultGateway else gateway }
      | .ipv6 => { b with
          defaultGatewayIPv6 := if gateway = [] then b.defaultGatewayIPv6 else gateway } := by
  by_cases h : gateway = []
  · subst h
    cases family <;> rfl
  · have hparsed := (parsed_of_isAddress (hg h)).2
    rw [View.getRoute, if_pos h]
    cases family
    · simp [Builder.setGateway, Builder.addGateway, hparsed, h]
    · simp [Builder.setGateway, Builder.addGateway, hparsed, h, Family.getFamily]

theorem getDns_read (hs : ∀ s ∈ a.dnsIPAddresses, IsAddress qt s)
    (hd : ∀ d ∈ a.searchDomains, net.isDnsName d = true) :
    (View.getDns qt a).mapM (readDns qt net) = some (View.getDns qt a) := by
  have hservers : (a.dnsIPAddresses.filterMap (parseAddr qt)).mapM
      (fun s => parseAddr qt (generateAddr s)) =
        some (a.dnsIPAddresses.filterMap (parseAddr qt)) := by
    refine (mapM_of_some (g := id) fun v hv => ?_).trans (congrArg some (List.map_id _))
    obtain ⟨s, hmem, hv⟩ := List.mem_filterMap.mp hv
    obtain ⟨w, hw, hgenerate⟩ := parse_of_isAddress (hs s hmem)
    cases hw.symm.trans hv
    rw [hgenerate, hv, id]
  have hall : a.searchDomains.all net.isDnsName = true := List.all_eq_true.mpr hd
  simp [View.getDns, readDns, hservers, hall]

theorem setDns_getDns (hs : ∀ s ∈ a.dnsIPAddresses, IsAddress qt s)
    (b : CVmGenericNetworkAdapter) :
    Builder.setDns (View.getDns qt a) b =
      { b with dnsIPAddresses := a.dnsIPAddresses, searchDomains := a.searchDomains } := by
  have hservers : ∀ l : List Text, (∀ s ∈ l, IsAddress qt s) →
      (l.filterMap (parseAddr qt)).map generateAddr = l := by
    intro l
    induction l with
    | nil => exact fun _ => rfl
    | cons s l ih =>
      intro hl
      obtain ⟨v, hv, hgenerate⟩ := parse_of_isAddress (hl s List.mem_cons_self)
      rw [List.filterMap_cons_some hv, List.map_cons, hgenerate,
        ih fun t ht => hl t (List.mem_cons_of_mem s ht)]
  rw [View.getDns, Builder.setDns, hservers _ hs]

end Steps

section RoundTrip

variable {qt : Qt} {net : NetworkUtils} {a : CVmGenericNetworkAdapter}

theorem Valid.ipv4 (h : Valid qt net a) :
    ∀ e ∈ (families qt a.netAddresses).1, Address4 qt net e := by
  intro e he
  obtain ⟨hmem, hpattern⟩ := List.mem_filter.mp he
  exact (h.netAddresses e hmem).resolve_right fun h6 =>
    Bool.false_ne_true (h6.other.symm.trans hpattern)

theorem Valid.ipv6 (h : Valid qt net a) :
    ∀ e ∈ (families qt a.netAddresses).2, Address6 qt net e := by
  intro e he
  obtain ⟨hmem, hpattern⟩ := List.mem_filter.mp he
  refine (h.netAddresses e hmem).resolve_left fun h4 => ?_
  rw [h4.pattern] at hpattern
  cases hpattern

/-- The elements of the addresses, as they are read. -/
def readIps (qt : Qt) (net : NetworkUtils) (l : List Text) : List Domain.Ip :=
  (families qt l).1.map (fun e => ⟨.ipv4 (host e), some (.ipv4 (net.parseSubnet e))⟩) ++
    (families qt l).2.map fun e => ⟨.ipv6 (host e), parsePrefix (net.parseSubnet e)⟩

theorem Valid.read_ips (h : Valid qt net a) :
    (Ips qt net a.netAddresses).mapM (readIp qt) = some (readIps qt net a.netAddresses) := by
  have h4 := mapM_of_some
    (f := readIp qt ∘ fun e => Ips.craft qt .ipv4 (host e) (net.parseSubnet e))
    fun e he => readIp_ipv4 (h.ipv4 e he)
  have h6 := mapM_of_some
    (f := readIp qt ∘ fun e => Ips.craft qt .ipv6 (host e) (net.parseSubnet e))
    fun e he => readIp_ipv6 (h.ipv6 e he)
  rw [Ips, h.parseIps, List.mapM_append, List.mapM_map, List.mapM_map, h4, h6]
  rfl

theorem Valid.read_routes (h : Valid qt net a) :
    (View.getRouteList qt a).mapM (readRoute qt) = some (View.getRouteList qt a) := by
  refine (mapM_of_some (g := id) fun r hr => ?_).trans (congrArg some (List.map_id _))
  rcases List.mem_append.mp hr with hr | hr
  · exact readRoute_getRoute (h.everywhere .ipv4) h.defaultGateway r hr
  · exact readRoute_getRoute (h.everywhere .ipv6) h.defaultGatewayIPv6 r hr

/-- All but the addresses comes back as it is. -/
theorem Valid.readBack_eq (h : Valid qt net a) {blank : CVmGenericNetworkAdapter}
    (hb : blank.defaultGateway = []) (hb6 : blank.defaultGatewayIPv6 = []) :
    readBack qt net blank a = some { a with
      netAddresses := (readIps qt net a.netAddresses).map (addressText qt) } := by
  have hread : read qt net (Reverse.interface qt net a) = some
      ⟨readIps qt net a.netAddresses, View.getDhcpList a, View.getRouteList qt a,
        View.getDns qt a⟩ := by
    rw [read, Reverse.interface, h.read_ips, h.read_routes,
      getDns_read h.dnsIPAddresses h.searchDomains]
    rfl
  have hroutes : ∀ b, Builder.setGateway (View.getRouteList qt a) b =
      Builder.setGateway (View.getRoute qt .ipv6 a.defaultGatewayIPv6)
        (Builder.setGateway (View.getRoute qt .ipv4 a.defaultGateway) b) := fun b =>
    List.foldl_append
  rw [readBack, hread, Option.map_some, Direct.adapter, setDns_getDns h.dnsIPAddresses, hroutes,
    setGateway_getRoute .ipv4 h.defaultGateway, setGateway_getRoute .ipv6 h.defaultGatewayIPv6,
    setDhcp_getDhcpList]
  simp only [Builder.setIps, hb, hb6, ite_eq_right_iff.mpr Eq.symm]

/-- The lengths of IPv4 come back as they are shown. -/
theorem Valid.entries (h : Valid qt net a) :
    ((readIps qt net a.netAddresses).map (addressText qt)).map (entry net) =
      (families qt a.netAddresses).1.map (fun e => (host e, shown (net.parseSubnet e))) ++
        (families qt a.netAddresses).2.map (entry net) := by
  rw [readIps, List.map_append, List.map_append, List.map_map, List.map_map, List.map_map,
    List.map_map]
  exact congrArg₂ (· ++ ·) (List.map_congr_left fun e he => entry_ipv4 (h.ipv4 e he))
    (List.map_congr_left fun e he => entry_ipv6 (h.ipv6 e he))

/-- The addressing comes back, unless an address of IPv4 has a mask of no length, which is read as
the longest. -/
theorem sameAddressing_iff (h : Valid qt net a) {blank : CVmGenericNetworkAdapter}
    (hb : blank.defaultGateway = []) (hb6 : blank.defaultGatewayIPv6 = []) :
    (∃ b, readBack qt net blank a = some b ∧ SameAddressing qt net a b) ↔
      ∀ e ∈ a.netAddresses, qt.isIpv4Addr (host e) = true → net.parseSubnet e ≠ 0 := by
  have hentries : ∀ l l6 : List Text,
      l.map (fun e => (host e, shown (net.parseSubnet e))) ++ l6.map (entry net) =
        (l ++ l6).map (entry net) ↔ ∀ e ∈ l, net.parseSubnet e ≠ 0 := by
    intro l l6
    rw [List.map_append, List.append_left_inj, List.map_inj_left]
    refine forall₂_congr fun e _ => ?_
    rw [entry, Prod.mk.injEq, shown_eq_iff]
    exact and_iff_right rfl
  have hfilter : (∀ e ∈ (families qt a.netAddresses).1, net.parseSubnet e ≠ 0) ↔
      ∀ e ∈ a.netAddresses, qt.isIpv4Addr (host e) = true → net.parseSubnet e ≠ 0 := by
    simp only [families, List.mem_filter, and_imp]
  rw [← hfilter, ← hentries _ (families qt a.netAddresses).2, ← h.entries]
  constructor
  · rintro ⟨b, hread, hsame⟩
    cases (h.readBack_eq hb hb6).symm.trans hread
    exact hsame.netAddresses
  · intro hsame
    exact ⟨_, h.readBack_eq hb hb6, hsame, rfl, rfl, rfl, rfl, rfl, rfl⟩

end RoundTrip

section Sample

/-- A length is told by the mask after the slash, or by its number. -/
def slashed : NetworkUtils where
  parseIps := families ofTable
  parseSubnet e :=
    let m := (e.dropWhile (· ≠ '/')).drop 1
    match ofDotted m with
    | some x => Family.ipv4.getMask (.ipv4 x)
    | none => ofDecimal m
  isDnsName d := d.all fun c => c.isAlphanum || c = '.' || c = '-'

/-- `10.0.0.1` with a mask, and `fd00::1` with a short one. -/
def adapter (mask_ : Text) : CVmGenericNetworkAdapter where
  netAddresses := [subnet (dotted 0x0A000001) mask_,
    subnet ['f', 'd', '0', '0', ':', ':', '1'] ['2', '4']]
  configureWithDhcp := false
  configureWithDhcpIPv6 := true
  defaultGateway := dotted 0x0A0000FE
  defaultGatewayIPv6 := []
  dnsIPAddresses := [dotted 0x0A000002]
  searchDomains := [['a', '.', 'b']]

def noAdapter : CVmGenericNetworkAdapter := ⟨[], false, false, [], [], [], []⟩

theorem number_decimal : ∀ k : Fin 129, slashed.parseSubnet
    (subnet ['f', 'd', '0', '0', ':', ':', '1'] (decimal k)) = k := by
  decide +kernel

theorem netmask_dotted : ∀ k : Fin 33, slashed.parseSubnet
    (subnet (dotted 0x0A000001) (dotted (mask4 k))) = k := by
  decide +kernel

theorem valid_adapter : Valid ofTable slashed (adapter (dotted (mask4 24))) where
  parseIps := rfl
  netAddresses e he := by
    rcases List.mem_cons.mp he with rfl | he
    · exact .inl ⟨by decide +kernel, ⟨0x0A000001, by decide +kernel⟩, by decide +kernel,
        fun k hk => netmask_dotted ⟨k, Nat.lt_succ_of_le hk⟩⟩
    · rw [List.mem_singleton.mp he]
      exact .inr ⟨by decide +kernel, by decide +kernel,
        ⟨groups 0xFD00 0 1, [], by decide +kernel⟩, by decide +kernel,
        fun k hk => number_decimal ⟨k, Nat.lt_succ_of_le hk⟩⟩
  defaultGateway _ := .inl (by decide +kernel)
  defaultGatewayIPv6 h := absurd rfl h
  dnsIPAddresses s hs := by
    rw [List.mem_singleton.mp hs]
    exact .inl (by decide +kernel)
  searchDomains d hd := by
    rw [List.mem_singleton.mp hd]
    decide +kernel
  everywhere
    | .ipv4 => .inl (by decide +kernel)
    | .ipv6 => .inr (by decide +kernel)

theorem sameAddressing_adapter :
    ∃ b, readBack ofTable slashed noAdapter (adapter (dotted (mask4 24))) = some b ∧
      SameAddressing ofTable slashed (adapter (dotted (mask4 24))) b :=
  (sameAddressing_iff valid_adapter rfl rfl).mpr (by decide +kernel)

/-- `10.0.0.1/0` comes back as `10.0.0.1/255.255.255.255`. -/
theorem not_sameAddressing :
    ¬∃ b, readBack ofTable slashed noAdapter (adapter ['0']) = some b ∧
      SameAddressing ofTable slashed (adapter ['0']) b := by
  rintro ⟨b, hb, hsame⟩
  have hentries : ((readBack ofTable slashed noAdapter (adapter ['0'])).map
      (·.netAddresses.map (entry slashed))) =
        some [(dotted 0x0A000001, 32), (['f', 'd', '0', '0', ':', ':', '1'], 24)] := by
    decide +kernel
  have hlengths : ((families ofTable (adapter ['0']).netAddresses).1 ++
      (families ofTable (adapter ['0']).netAddresses).2).map (entry slashed) =
        [(dotted 0x0A000001, 0), (['f', 'd', '0', '0', ':', ':', '1'], 24)] := by
    decide +kernel
  rw [hb, Option.map_some, hsame.netAddresses, hlengths] at hentries
  cases hentries

end Sample

end DispService.Transponster.Network.Adapter
