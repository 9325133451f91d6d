import DispService.Nwfilter.Packet

/-! What a rule of the configuration means, and what the rules that it is translated into match:
the same packets, except where an incoming rule gives just one of its addresses as a subnet. There
the masks are asked for by the wrong address, and the subnet is read as its one address. -/
namespace DispService.Nwfilter

variable {q : QHostAddress} {f : Family} {text : QString}

/-! ## The meaning -/

def Packet.localAddress (p : Packet) : BitVec p.family.width :=
  if p.direction = .In then p.destination else p.source

def Packet.remoteAddress (p : Packet) : BitVec p.family.width :=
  if p.direction = .In then p.source else p.destination

def prefixLength (q : QHostAddress) (f : Family) (text : QString) : Nat :=
  if isSubnet text then (q.parseSubnet text).toNat else f.width

/-- An empty address takes everything, another one what agrees with it in `n` bits. -/
def Inside (q : QHostAddress) (f : Family) (n : Nat) (text : QString) (x : BitVec f.width) :
    Prop :=
  text = [] ∨ f.validate (host text) = true ∧
    ∃ a, q.setAddress f (host text) = some a ∧ agree n a x = true

def PortAgrees (value : Port) (port : Nat) : Prop := value.val = 0 ∨ value.val = port

/-- Ports count where the rule is about a protocol that has ports. -/
def CVmNetFirewallRule.Carries (rule : CVmNetFirewallRule) (p : Packet) : Prop :=
  toLower rule.protocol = [] ∨
    match p.payload with
    | .tcp sport dport => toLower rule.protocol = S_TCP ∧
        PortAgrees rule.localPort (if p.direction = .In then dport else sport) ∧
        PortAgrees rule.remotePort (if p.direction = .In then sport else dport)
    | .udp sport dport => toLower rule.protocol = S_UDP ∧
        PortAgrees rule.localPort (if p.direction = .In then dport else sport) ∧
        PortAgrees rule.remotePort (if p.direction = .In then sport else dport)
    | .icmp _ => toLower rule.protocol = S_ICMP
    | .other => False

/-- The packets that a rule of the configuration is about. -/
def CVmNetFirewallRule.Matches (q : QHostAddress) (rule : CVmNetFirewallRule) (p : Packet) :
    Prop :=
  rule.Carries p ∧
    Inside q p.family (prefixLength q p.family rule.localNetAddress) rule.localNetAddress
      p.localAddress ∧
    Inside q p.family (prefixLength q p.family rule.remoteNetAddress) rule.remoteNetAddress
      p.remoteAddress

/-- The packets left when each subnet is read as the one address in front of its slash. -/
def CVmNetFirewallRule.MatchesHosts (q : QHostAddress) (rule : CVmNetFirewallRule) (p : Packet) :
    Prop :=
  rule.Carries p ∧
    Inside q p.family p.family.width rule.localNetAddress p.localAddress ∧
    Inside q p.family p.family.width rule.remoteNetAddress p.remoteAddress

/-- Just one of the two addresses is a subnet. -/
def CVmNetFirewallRule.Lopsided (rule : CVmNetFirewallRule) : Prop :=
  isSubnet rule.localNetAddress ≠ isSubnet rule.remoteNetAddress

instance (rule : CVmNetFirewallRule) : Decidable rule.Lopsided :=
  inferInstanceAs (Decidable (_ ≠ _))

/-- Empty, a host, or a host with a mask that Qt reads. -/
def IsAddress (q : QHostAddress) (f : Family) (text : QString) : Prop :=
  text = [] ∨ f.validate (host text) = true ∧ (q.setAddress f (host text)).isSome = true ∧
    (isSubnet text = true → 0 ≤ q.parseSubnet text ∧ q.parseSubnet text ≤ f.width)

structure CVmNetFirewallRule.WellFormed (q : QHostAddress) (rule : CVmNetFirewallRule) :
    Prop where
  protocol : toLower rule.protocol ∈ [S_TCP, S_UDP, S_ICMP, []]
  addresses : ∃ f, IsAddress q f rule.localNetAddress ∧ IsAddress q f rule.remoteNetAddress

/-! ## Addresses -/

/-- `prepareIp` and `prepareIpv6`, by family. -/
def prepareAddr : Family → QString → Option QString
  | .IPv4 => prepareIp
  | .IPv6 => prepareIpv6

def prepareMask : Family → Int → Option Int
  | .IPv4 => prepareIpMask
  | .IPv6 => prepareIpv6Mask

theorem prepareAddr_nil : prepareAddr f [] = none := by cases f <;> rfl

theorem prepareAddr_valid (hne : text ≠ []) (h : f.validate (host text) = true) :
    prepareAddr f text = some (host text) := by
  have hempty : text.isEmpty = false := by simpa using hne
  cases f <;> simp_all [prepareAddr, prepareIp, prepareIpv6, setValue, Family.validate]

theorem prepareMask_valid {n : Int} (h0 : 0 ≤ n) (hw : n ≤ f.width) :
    prepareMask f n = some n := by
  cases f
  · have hv : PData5628.validate n = true := by simpa [PData5628.validate] using ⟨h0, hw⟩
    simp [prepareMask, prepareIpMask, setValue, hv]
  · have hv : PData5633.validate n = true := by simpa [PData5633.validate] using ⟨h0, hw⟩
    simp [prepareMask, prepareIpv6Mask, setValue, hv]

/-- An address with the mask that was asked for by the flag `b`. -/
theorem addrHits_prepared (hq : q.HostPrefix) (h : IsAddress q f text) (b : Bool)
    (x : BitVec f.width) :
    addrHits q f (prepareAddr f text)
        (if b then prepareMask f (q.parseSubnet text) else none) x = true ↔
      Inside q f (if b then prefixLength q f text else f.width) text x := by
  by_cases hne : text = []
  · subst hne
    simp [prepareAddr_nil, addrHits, Inside]
  obtain ⟨hvalid, hread, hsubnet⟩ := h.resolve_left hne
  obtain ⟨a, ha⟩ := Option.isSome_iff_exists.mp hread
  have hmask : (if b then prepareMask f (q.parseSubnet text) else none).elim f.width Int.toNat =
      if b then prefixLength q f text else f.width := by
    cases b with
    | false => rfl
    | true =>
        by_cases hs : isSubnet text = true
        · obtain ⟨h0, hw⟩ := hsubnet hs
          simp [prepareMask_valid h0 hw, prefixLength, hs]
        · have hs' : isSubnet text = false := by simpa using hs
          have hprefix : q.parseSubnet text = f.width := by
            rw [host_of_host hs'] at hvalid hread
            exact hq f text hvalid hread
          have hvalid : prepareMask f f.width = some (f.width : Int) :=
            prepareMask_valid (by omega) le_rfl
          simp [prefixLength, hs', hprefix, hvalid]
  simp [addrHits, prepareAddr_valid hne hvalid, Inside, hne, hvalid, ha, hmask]

/-- A host has the same length with the flag as without. -/
theorem prefixLength_flag :
    (if isSubnet text then prefixLength q f text else f.width) = prefixLength q f text := by
  cases h : isSubnet text <;> simp [prefixLength, h]

/-- The packets that the rules made from a configured rule take. -/
def CVmNetFirewallRule.Read (q : QHostAddress) (rule : CVmNetFirewallRule) (p : Packet) : Prop :=
  if p.direction = .In ∧ rule.Lopsided then rule.MatchesHosts q p else rule.Matches q p

theorem attributes_hits (hq : q.HostPrefix) {rule : CVmNetFirewallRule} {p : Packet}
    (hl : IsAddress q p.family rule.localNetAddress)
    (hr : IsAddress q p.family rule.remoteNetAddress) (hc : rule.Carries p) :
    (prepareAttributes q (prepareAddr p.family) (prepareMask p.family) rule.localNetAddress
        rule.remoteNetAddress p.direction).hits q p = true ↔ rule.Read q p := by
  simp only [IpAttributes.hits, prepareAttributes, Option.all_none, Bool.and_true,
    Bool.and_eq_true]
  cases hd : p.direction with
  | Out =>
      simp only [reduceCtorEq, if_false, addrHits_prepared hq hl, addrHits_prepared hq hr]
      simp [CVmNetFirewallRule.Read, CVmNetFirewallRule.Matches, hd, hc, Packet.localAddress,
        Packet.remoteAddress, prefixLength_flag]
  | In =>
      simp only [if_true, addrHits_prepared hq hl, addrHits_prepared hq hr]
      simp only [CVmNetFirewallRule.Read, CVmNetFirewallRule.Matches,
        CVmNetFirewallRule.MatchesHosts, CVmNetFirewallRule.Lopsided, hd, hc, Packet.localAddress,
        Packet.remoteAddress, true_and, if_true]
      cases hsl : isSubnet rule.localNetAddress <;> cases hsr : isSubnet rule.remoteNetAddress <;>
        simp [prefixLength, hsl, hsr, and_comm]

/-! ## Protocols and ports -/

theorem ports_hits {lp rp : Port} {d : EDirectionType} {sport dport : Nat} :
    (preparePortAttributes lp rp d).hits sport dport = true ↔
      PortAgrees lp (if d = .In then dport else sport) ∧
        PortAgrees rp (if d = .In then sport else dport) := by
  cases d with
  | In =>
      simp [PortAttributes.hits, preparePortAttributes, portHits_prepared, PortAgrees, and_comm]
  | Out => simp [PortAttributes.hits, preparePortAttributes, portHits_prepared, PortAgrees]

theorem tcp_ne_udp : S_TCP ≠ S_UDP := by decide

theorem tcp_ne_icmp : S_TCP ≠ S_ICMP := by decide

theorem udp_ne_icmp : S_UDP ≠ S_ICMP := by decide

theorem tcp_ne_nil : S_TCP ≠ [] := by decide

theorem udp_ne_nil : S_UDP ≠ [] := by decide

theorem icmp_ne_nil : S_ICMP ≠ [] := by decide

/-- The element made for a known protocol takes what the rule carries. -/
theorem element_carries {rule : CVmNetFirewallRule} {p : Packet} (ip : IpAttributes)
    (h : toLower rule.protocol ∈ [S_TCP, S_UDP, S_ICMP, []]) :
    ∃ protocol, prepareElement f (toLower rule.protocol) ip
        (preparePortAttributes rule.localPort rule.remotePort p.direction) =
        some ⟨f, ip, protocol⟩ ∧
      (protocol.hits p.payload = true ↔ rule.Carries p) := by
  unfold CVmNetFirewallRule.Carries
  simp only [List.mem_cons, List.not_mem_nil, or_false] at h
  rcases h with h | h | h | h <;> rw [h]
  · refine ⟨_, by rw [prepareElement, if_pos rfl], ?_⟩
    cases p.payload <;>
      simp [Protocol.hits, ports_hits, tcp_ne_nil, tcp_ne_udp, tcp_ne_icmp]
  · refine ⟨_, by rw [prepareElement, if_neg tcp_ne_udp.symm, if_pos rfl], ?_⟩
    cases p.payload <;>
      simp [Protocol.hits, ports_hits, udp_ne_nil, tcp_ne_udp.symm, udp_ne_icmp]
  · refine ⟨_, by rw [prepareElement, if_neg tcp_ne_icmp.symm, if_neg udp_ne_icmp.symm,
      if_pos rfl], ?_⟩
    cases p.payload <;>
      simp [Protocol.hits, icmp_ne_nil, tcp_ne_icmp.symm, udp_ne_icmp.symm]
  · refine ⟨_, by rw [prepareElement, if_neg tcp_ne_nil.symm, if_neg udp_ne_nil.symm,
      if_neg icmp_ne_nil.symm]; rfl, ?_⟩
    simp [Protocol.hits]

/-! ## Rules -/

/-- The half of a rule made for one family. -/
def halfRule (q : QHostAddress) (rule : CVmNetFirewallRule) (direction : EDirectionType)
    (action : EActionType) (f : Family) (priority : Nat) : Rule :=
  { attributes := ⟨action, direction, priority⟩
    element := prepareElement f (toLower rule.protocol)
      (prepareAttributes q (prepareAddr f) (prepareMask f) rule.localNetAddress
        rule.remoteNetAddress direction)
      (preparePortAttributes rule.localPort rule.remotePort direction) }

theorem halfRule_hits (hq : q.HostPrefix) {rule : CVmNetFirewallRule} {p : Packet}
    {action : EActionType} {priority : Nat} (h : rule.WellFormed q)
    (hl : IsAddress q p.family rule.localNetAddress)
    (hr : IsAddress q p.family rule.remoteNetAddress) :
    (halfRule q rule p.direction action f priority).hits q p = true ↔
      f = p.family ∧ rule.Read q p := by
  obtain ⟨protocol, helement, hcarries⟩ := element_carries (f := f) (p := p)
    (prepareAttributes q (prepareAddr f) (prepareMask f) rule.localNetAddress
      rule.remoteNetAddress p.direction) h.protocol
  have hread : rule.Read q p → rule.Carries p := by
    unfold CVmNetFirewallRule.Read
    split
    · exact And.left
    · exact And.left
  constructor
  · intro hhit
    obtain ⟨e, he, hfamily, hip, hproto⟩ := Rule.hits_iff.mp hhit
    rw [halfRule, helement] at he
    cases he
    obtain rfl : f = p.family := hfamily
    exact ⟨rfl, (attributes_hits hq hl hr (hcarries.mp hproto)).mp hip⟩
  · rintro ⟨rfl, hmatch⟩
    refine Rule.hits_iff.mpr ⟨_, helement, rfl, ?_, hcarries.mpr (hread hmatch)⟩
    exact (attributes_hits hq hl hr (hread hmatch)).mpr hmatch

theorem prepareIpv6Rule_half (rule : CVmNetFirewallRule) (direction : EDirectionType)
    (action : EActionType) (priority : Nat) :
    prepareIpv6Rule (toLower rule.protocol)
        (prepareIpv6Attributes q rule.localNetAddress rule.remoteNetAddress direction)
        (preparePortAttributes rule.localPort rule.remotePort direction)
        ⟨action, direction, priority⟩ = halfRule q rule direction action .IPv6 priority := rfl

theorem prepareIpRule_half (rule : CVmNetFirewallRule) (direction : EDirectionType)
    (action : EActionType) (priority : Nat) :
    prepareIpRule (toLower rule.protocol)
        (prepareIpAttributes q rule.localNetAddress rule.remoteNetAddress direction)
        (preparePortAttributes rule.localPort rule.remotePort direction)
        ⟨action, direction, priority⟩ = halfRule q rule direction action .IPv4 priority := rfl

/-- The rules made from a configured one: the half of the one family of its addresses, or both
where it has none. -/
theorem prepareRule_eq (rule : CVmNetFirewallRule) (direction : EDirectionType)
    (action : EActionType) (priority : Nat) :
    prepareRule q rule direction action priority =
      if isBoth rule then
        [halfRule q rule direction action .IPv6 priority,
          halfRule q rule direction action .IPv4 (priority + 1)]
      else if isIPv6 rule then [halfRule q rule direction action .IPv6 priority]
      else [halfRule q rule direction action .IPv4 priority] := by
  unfold prepareRule
  simp only [prepareIpv6Rule_half, prepareIpRule_half]
  cases isBoth rule <;> cases isIPv6 rule <;> simp

theorem isBoth_iff {rule : CVmNetFirewallRule} :
    isBoth rule = true ↔ rule.localNetAddress = [] ∧ rule.remoteNetAddress = [] := by
  simp [isBoth]

/-- An address that is not empty is of one family only. -/
theorem IsAddress.family_unique {g : Family} (h : IsAddress q f text) (hne : text ≠ [])
    (hg : g.validate (host text) = true) : g = f := by
  have hf := (h.resolve_left hne).1
  cases f <;> cases g <;> first | rfl | skip
  · rw [validate_disjoint hf] at hg
    cases hg
  · rw [validate_disjoint hg] at hf
    cases hf

theorem isIPv6_iff {rule : CVmNetFirewallRule} (hl : IsAddress q f rule.localNetAddress)
    (hr : IsAddress q f rule.remoteNetAddress) (hb : isBoth rule = false) :
    isIPv6 rule = true ↔ f = .IPv6 := by
  have hvalid : ∀ text, IsAddress q f text →
      ((!text.isEmpty && PData5625.validate (host text)) = true ↔ text ≠ [] ∧ f = .IPv6) := by
    intro text h
    by_cases hne : text = []
    · simp [hne]
    · constructor
      · intro hv
        have hv' : Family.IPv6.validate (host text) = true := by
          simpa [hne, Family.validate] using hv
        exact ⟨hne, (h.family_unique hne hv').symm⟩
      · rintro ⟨-, rfl⟩
        simpa [hne, Family.validate] using (h.resolve_left hne).1
  have hsome : rule.localNetAddress ≠ [] ∨ rule.remoteNetAddress ≠ [] := by
    by_contra hcon
    push Not at hcon
    rw [isBoth_iff.mpr hcon] at hb
    cases hb
  unfold isIPv6
  simp only [List.any_cons, List.any_nil, Bool.or_false, Bool.or_eq_true, hvalid _ hl, hvalid _ hr]
  tauto

/-- The rules made from a configured one take just the packets that the rule is read to be
about. -/
theorem prepareRule_hits (hq : q.HostPrefix) {rule : CVmNetFirewallRule} {p : Packet}
    (h : rule.WellFormed q) (action : EActionType) (priority : Nat) :
    ((prepareRule q rule p.direction action priority).any fun r => r.hits q p) = true ↔
      rule.Read q p := by
  obtain ⟨f, hl, hr⟩ := h.addresses
  rw [prepareRule_eq]
  by_cases hb : isBoth rule = true
  · obtain ⟨hln, hrn⟩ := isBoth_iff.mp hb
    have hl' : IsAddress q p.family rule.localNetAddress := .inl hln
    have hr' : IsAddress q p.family rule.remoteNetAddress := .inl hrn
    simp only [hb, if_true, List.any_cons, List.any_nil, Bool.or_false, Bool.or_eq_true,
      halfRule_hits hq h hl' hr']
    cases p.family <;> simp
  have hb' : isBoth rule = false := by simpa using hb
  have hsingle : ∀ g, g = f →
      ((halfRule q rule p.direction action g priority).hits q p = true ↔ rule.Read q p) := by
    rintro g rfl
    by_cases hfamily : g = p.family
    · subst hfamily
      simp [halfRule_hits hq h hl hr]
    · constructor
      · intro hhit
        obtain ⟨e, he, hfam, -⟩ := Rule.hits_iff.mp hhit
        obtain ⟨protocol, helement, -⟩ := element_carries (f := g) (p := p)
          (prepareAttributes q (prepareAddr g) (prepareMask g) rule.localNetAddress
            rule.remoteNetAddress p.direction) h.protocol
        rw [halfRule, helement] at he
        cases he
        exact absurd hfam hfamily
      · intro hread
        have hinside : ∀ text x n, IsAddress q g text → Inside q p.family n text x → text = [] := by
          intro text x n haddr hin
          by_contra hne
          exact hfamily (haddr.family_unique hne (hin.resolve_left hne).1).symm
        have hboth : rule.localNetAddress = [] ∧ rule.remoteNetAddress = [] := by
          unfold CVmNetFirewallRule.Read at hread
          split at hread
          · exact ⟨hinside _ _ _ hl hread.2.1, hinside _ _ _ hr hread.2.2⟩
          · exact ⟨hinside _ _ _ hl hread.2.1, hinside _ _ _ hr hread.2.2⟩
        rw [isBoth_iff.mpr hboth] at hb'
        cases hb'
  cases h6 : isIPv6 rule with
  | true =>
      have hf := (isIPv6_iff hl hr hb').mp h6
      simp [hb', hsingle .IPv6 hf.symm]
  | false =>
      have hf : Family.IPv4 = f := by
        have hne : f ≠ .IPv6 := fun hf => by
          rw [(isIPv6_iff hl hr hb').mpr hf] at h6
          cases h6
        cases f with
        | IPv4 => rfl
        | IPv6 => exact absurd rfl hne
      simp [hb', hsingle .IPv4 hf]

end DispService.Nwfilter
