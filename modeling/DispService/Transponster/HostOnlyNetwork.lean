import DispService.Transponster.HostAddress

/-! A host-only network: the addresses that stand for it in a network of libvirt, and what is read
back from them. -/
namespace DispService.Transponster.Network

structure CDHCPServer where
  enabled : Bool
  ipScopeStart : QHostAddress
  ipScopeEnd : QHostAddress
deriving DecidableEq

/-- A server that is not there is a null pointer. -/
structure CHostOnlyNetwork where
  hostIPAddress : QHostAddress
  dhcpIPAddress : QHostAddress
  ipNetMask : QHostAddress
  dhcpServer : Option CDHCPServer
  hostIP6Address : QHostAddress
  dhcpIP6Address : QHostAddress
  ip6NetMask : QHostAddress
  dhcpv6Server : Option CDHCPServer
deriving DecidableEq

/-- A mask, or its length. -/
inductive VChoice2404 where
  | netmask (value : Text)
  | length (value : VIpPrefix)

structure Range where
  start : VIpAddr
  end_ : VIpAddr

structure Ip where
  family : Option Text := none
  address : Option VIpAddr := none
  choice2404 : Option VChoice2404 := none
  dhcp : Option (List Range) := none

section Reverse

variable (qt : Qt) (family : Family)

def isEligible (address_ : QHostAddress) : Bool :=
  match family with
  | .ipv4 => !(address_ = .null || address_ = qt.any || address_ = qt.localHost)
  | .ipv6 => !(address_ = .null || address_ = qt.anyIPv6 || address_ = qt.localHostIPv6)

/-- No more than 65536 addresses, or for IPv6 those that end as the start does not. -/
def patchEnd (start_ end_ : QHostAddress) : QHostAddress :=
  match family with
  | .ipv4 =>
      let a := start_.toIPv4Address
      let b := end_.toIPv4Address
      .ipv4 (a + min 0xFFFF (b - a))
  | .ipv6 =>
      let a := start_.toIPv6Address
      let b := end_.toIPv6Address
      if a.toList.take 14 = b.toList.take 14 then end_
      else .ipv6 ((a.set 14 0xFF).set 15 0xFF) []

namespace Builder

def setAddress (host_ mask_ : QHostAddress) (m_result : Ip) : Ip :=
  { m_result with
    family := some family.getFamily
    address := some (craftAddr qt family (qt.toString host_))
    choice2404 := some (.length (craftPrefix family (family.getMask mask_))) }

def setDhcp (model_ : CDHCPServer) (m_result : Ip) : Ip :=
  { m_result with
    dhcp := some [⟨craftAddr qt family (qt.toString model_.ipScopeStart),
      craftAddr qt family (qt.toString (patchEnd family model_.ipScopeStart model_.ipScopeEnd))⟩] }

end Builder

namespace Visitor

variable (m_model : CHostOnlyNetwork)

def getMask : QHostAddress :=
  match family with
  | .ipv4 => m_model.ipNetMask
  | .ipv6 => m_model.ip6NetMask

def getAddress : QHostAddress :=
  match family with
  | .ipv4 => m_model.hostIPAddress
  | .ipv6 => m_model.hostIP6Address.setScopeId []

def getDhcp : Option CDHCPServer :=
  match family with
  | .ipv4 => m_model.dhcpServer
  | .ipv6 => m_model.dhcpv6Server

def visit : List Ip :=
  let a := getAddress family m_model
  if isEligible qt family a then
    let b := Builder.setAddress qt family a (getMask family m_model) {}
    match getDhcp family m_model with
    | none => [b]
    | some h => if h.enabled then [Builder.setDhcp qt family h b] else [b]
  else []

end Visitor

/-- `Reverse::setHostOnly` -/
def Reverse.setHostOnly (m_model : CHostOnlyNetwork) : List Ip :=
  [Family.ipv4, Family.ipv6].flatMap fun family => Visitor.visit qt family m_model

end Reverse

section Transit

variable (qt : Qt)

/-- A length is read by its number, a mask stays. -/
def transitChoice : VChoice2404 → Option VChoice2404
  | .netmask value => some (.netmask value)
  | .length value => (parsePrefix (generatePrefix value)).map .length

def transitRange (r : Range) : Option Range := do
  let start ← parseAddr qt (generateAddr r.start)
  let end_ ← parseAddr qt (generateAddr r.end_)
  return ⟨start, end_⟩

/-- The element is written, and read by another. -/
def transit (p : Ip) : Option Ip := do
  let address ← p.address.mapM fun a => parseAddr qt (generateAddr a)
  let choice2404 ← p.choice2404.mapM transitChoice
  let dhcp ← p.dhcp.mapM fun l => l.mapM (transitRange qt)
  return ⟨p.family, address, choice2404, dhcp⟩

end Transit

section Direct

-- A server that is asked for is made when it is not there.
variable (qt : Qt) (newServer : CDHCPServer)

def visitIp (h : CHostOnlyNetwork) : VIpAddr → CHostOnlyNetwork
  | .ipv4 value => { h with hostIPAddress := qt.ofText value, dhcpIPAddress := qt.ofText value }
  | .ipv6 value => { h with hostIP6Address := qt.ofText value, dhcpIP6Address := qt.ofText value }

def visitMask (family_ : Text) (h : CHostOnlyNetwork) : VChoice2404 → CHostOnlyNetwork
  | .netmask value => { h with ipNetMask := qt.ofText value }
  | .length (.ipv4 prefix4_) =>
      -- a short mask is read as one of IPv4
      if family_ = Family.ipv6.getFamily then
        { h with ip6NetMask := getIPv6MaskFromPrefix prefix4_ }
      else { h with ipNetMask := getIPv4MaskFromPrefix prefix4_ }
  | .length (.ipv6 prefix6_) => { h with ip6NetMask := getIPv6MaskFromPrefix prefix6_ }

def withServer (f : CDHCPServer → CDHCPServer) (h : CHostOnlyNetwork) : CHostOnlyNetwork :=
  { h with dhcpServer := some (f (h.dhcpServer.getD newServer)) }

def withServer6 (f : CDHCPServer → CDHCPServer) (h : CHostOnlyNetwork) : CHostOnlyNetwork :=
  { h with dhcpv6Server := some (f (h.dhcpv6Server.getD newServer)) }

def visitStart (h : CHostOnlyNetwork) : VIpAddr → CHostOnlyNetwork
  | .ipv4 value => withServer newServer (fun s => { s with ipScopeStart := qt.ofText value }) h
  | .ipv6 value => withServer6 newServer (fun s => { s with ipScopeStart := qt.ofText value }) h

def visitEnd (h : CHostOnlyNetwork) : VIpAddr → CHostOnlyNetwork
  | .ipv4 value => withServer newServer (fun s => { s with ipScopeEnd := qt.ofText value }) h
  | .ipv6 value => withServer6 newServer (fun s => { s with ipScopeEnd := qt.ofText value }) h

/-- One element of `Direct::setHostOnly`. -/
def setIp (h : CHostOnlyNetwork) (p : Ip) : CHostOnlyNetwork :=
  let h := match p.address with
    | some a => visitIp qt h a
    | none => h
  let h := match p.family, p.choice2404 with
    | some f, some m => visitMask qt f h m
    | _, _ => h
  match p.dhcp with
  | none => h
  | some [] => h
  | some (r :: _) =>
      let h := if p.family = some Family.ipv6.getFamily then
          withServer6 newServer (fun s => { s with enabled := true }) h
        else withServer newServer (fun s => { s with enabled := true }) h
      visitEnd qt newServer (visitStart qt newServer h r.start) r.end_

def Direct.setHostOnly (h : CHostOnlyNetwork) (ips : List Ip) : CHostOnlyNetwork :=
  ips.foldl (setIp qt newServer) h

/-- What a new network becomes, when the description of another is read into it. -/
def roundTrip (blank m_model : CHostOnlyNetwork) : Option CHostOnlyNetwork :=
  ((Reverse.setHostOnly qt m_model).mapM (transit qt)).map (Direct.setHostOnly qt newServer blank)

end Direct

section Described

variable (qt : Qt)

/-- The last address that begins like another in all but 16 bits. -/
def lastOfBlock (a : Ipv6) : Ipv6 := Vector.ofFn fun i => if i.val < 14 then a[i] else 0xFF

/-- The addresses agree in all but 16 bits. -/
def SameBlock (a b : Ipv6) : Prop := ∀ i : Fin 14, a[i.val] = b[i.val]

instance (a b : Ipv6) : Decidable (SameBlock a b) := inferInstanceAs (Decidable (∀ _, _))

/-- The end that a scope of IPv6 comes back with. -/
def end6 (a b : Ipv6) : Ipv6 := if SameBlock a b then b else lastOfBlock a

/-- An IPv4 address with a mask, of that length at least, and a scope of 65536 addresses at most. -/
structure Described4 (least : Nat) (n : CHostOnlyNetwork) : Prop where
  address : ∃ a, n.hostIPAddress = .ipv4 a ∧ qt.Reads (.ipv4 a)
  mask : ∃ k, least ≤ k ∧ k ≤ 32 ∧ n.ipNetMask = .ipv4 (mask4 k)
  scope : ∀ s, n.dhcpServer = some s → s.enabled = true →
    ∃ a b, s.ipScopeStart = .ipv4 a ∧ s.ipScopeEnd = .ipv4 b ∧ a ≤ b ∧ b - a ≤ 0xFFFF ∧
      qt.Reads (.ipv4 a) ∧ qt.Reads (.ipv4 b)

/-- An IPv6 address with a mask, and a scope. -/
structure Described6 (n : CHostOnlyNetwork) : Prop where
  address : ∃ c id, n.hostIP6Address = .ipv6 c id ∧ qt.Reads (.ipv6 c [])
  mask : ∃ k, k ≤ 128 ∧ n.ip6NetMask = .ipv6 (mask6 k) []
  scope : ∀ s, n.dhcpv6Server = some s → s.enabled = true →
    ∃ a b, s.ipScopeStart = .ipv6 a [] ∧ s.ipScopeEnd = .ipv6 b [] ∧
      qt.Reads (.ipv6 a []) ∧ qt.Reads (.ipv6 (end6 a b) [])

/-- Each family has an eligible address with its mask and scope, or none. -/
structure Described (least : Nat) (n : CHostOnlyNetwork) : Prop where
  ipv4 : isEligible qt .ipv4 (Visitor.getAddress .ipv4 n) = true → Described4 qt least n
  ipv6 : isEligible qt .ipv6 (Visitor.getAddress .ipv6 n) = true → Described6 qt n

/-- The server that a scope is read into. -/
def scopeOf (family : Family) (server otherwise_ : Option CDHCPServer) : Option CDHCPServer :=
  match server with
  | none => otherwise_
  | some s =>
      if s.enabled then
        match family with
        | .ipv4 => some s
        | .ipv6 => some { s with
            ipScopeEnd := .ipv6 (end6 s.ipScopeStart.toIPv6Address s.ipScopeEnd.toIPv6Address) [] }
      else otherwise_

def restored4 (n h : CHostOnlyNetwork) : CHostOnlyNetwork :=
  if isEligible qt .ipv4 (Visitor.getAddress .ipv4 n) then
    { h with
      hostIPAddress := n.hostIPAddress
      dhcpIPAddress := n.hostIPAddress
      ipNetMask := n.ipNetMask
      dhcpServer := scopeOf .ipv4 n.dhcpServer h.dhcpServer }
  else h

def restored6 (n h : CHostOnlyNetwork) : CHostOnlyNetwork :=
  if isEligible qt .ipv6 (Visitor.getAddress .ipv6 n) then
    { h with
      hostIP6Address := n.hostIP6Address.setScopeId []
      dhcpIP6Address := n.hostIP6Address.setScopeId []
      ip6NetMask := n.ip6NetMask
      dhcpv6Server := scopeOf .ipv6 n.dhcpv6Server h.dhcpv6Server }
  else h

end Described

section Scopes

variable {a b : Ipv6}

theorem sameBlock_iff : a.toList.take 14 = b.toList.take 14 ↔ SameBlock a b := by
  constructor
  · intro h i
    have hi := congrArg (·[i.val]?) h
    simpa [List.getElem?_take, i.isLt] using hi
  · intro h
    refine List.ext_getElem? fun i => ?_
    rw [List.getElem?_take, List.getElem?_take]
    split
    · next hi =>
      have hi16 : i < 16 := by omega
      simpa [hi16] using h ⟨i, hi⟩
    · rfl

theorem lastOfBlock_eq (a : Ipv6) : (a.set 14 0xFF).set 15 0xFF = lastOfBlock a := by
  refine Vector.ext fun i hi => ?_
  rw [lastOfBlock, Vector.getElem_ofFn, Vector.getElem_set, Vector.getElem_set]
  by_cases h15 : 15 = i
  · rw [if_pos h15, if_neg (by dsimp only; omega)]
  · by_cases h14 : 14 = i
    · rw [if_neg h15, if_pos h14, if_neg (by dsimp only; omega)]
    · rw [if_neg h15, if_neg h14, if_pos (by dsimp only; omega)]
      rfl

theorem patchEnd_ipv6 (a b : Ipv6) :
    patchEnd .ipv6 (.ipv6 a []) (.ipv6 b []) = .ipv6 (end6 a b) [] := by
  change (if a.toList.take 14 = b.toList.take 14 then QHostAddress.ipv6 b []
    else .ipv6 ((a.set 14 0xFF).set 15 0xFF) []) = _
  rw [end6]
  by_cases h : SameBlock a b
  · rw [if_pos (sameBlock_iff.mpr h), if_pos h]
  · rw [if_neg (mt sameBlock_iff.mp h), if_neg h, lastOfBlock_eq]

theorem patchEnd_ipv4 {a b : UInt32} (h : b - a ≤ 0xFFFF) :
    patchEnd .ipv4 (.ipv4 a) (.ipv4 b) = .ipv4 b := by
  change QHostAddress.ipv4 (a + if 0xFFFF ≤ b - a then 0xFFFF else b - a) = _
  split
  · next hle =>
    rw [UInt32.le_antisymm hle h, UInt32.add_comm, UInt32.sub_add_cancel]
  · rw [UInt32.add_comm, UInt32.sub_add_cancel]

end Scopes

section Elements

variable {qt : Qt} {family : Family} {host_ mask_ : QHostAddress} {x : VIpAddr} {v : VIpPrefix}

/-- An element with an address and the length of its mask. -/
def addressed (family : Family) (x : VIpAddr) (v : VIpPrefix) (dhcp : Option (List Range)) : Ip :=
  ⟨some family.getFamily, some x, some (.length v), dhcp⟩

theorem transit_setAddress (hx : craftAddr qt family (qt.toString host_) = x)
    (hp : parseAddr qt (generateAddr x) = some x)
    (hv : parsePrefix (generatePrefix (craftPrefix family (family.getMask mask_))) = some v) :
    transit qt (Builder.setAddress qt family host_ mask_ {}) = some (addressed family x v none) := by
  simp [transit, Builder.setAddress, transitChoice, addressed, hx, hp, hv]

theorem transit_setDhcp {server : CDHCPServer} {start end_ : VIpAddr}
    (hx : craftAddr qt family (qt.toString host_) = x)
    (hp : parseAddr qt (generateAddr x) = some x)
    (hv : parsePrefix (generatePrefix (craftPrefix family (family.getMask mask_))) = some v)
    (hs : craftAddr qt family (qt.toString server.ipScopeStart) = start)
    (hps : parseAddr qt (generateAddr start) = some start)
    (he : craftAddr qt family
      (qt.toString (patchEnd family server.ipScopeStart server.ipScopeEnd)) = end_)
    (hpe : parseAddr qt (generateAddr end_) = some end_) :
    transit qt (Builder.setDhcp qt family server (Builder.setAddress qt family host_ mask_ {})) =
      some (addressed family x v (some [⟨start, end_⟩])) := by
  simp [transit, Builder.setAddress, Builder.setDhcp, transitChoice, transitRange, addressed, hx,
    hp, hv, hs, hps, he, hpe]

variable {newServer : CDHCPServer} {h : CHostOnlyNetwork} {t start end_ : Text} {k : Nat}

theorem setIp_ipv4 :
    setIp qt newServer h (addressed .ipv4 (.ipv4 t) (.ipv4 k) none) =
      { h with
        hostIPAddress := qt.ofText t
        dhcpIPAddress := qt.ofText t
        ipNetMask := getIPv4MaskFromPrefix k } :=
  rfl

theorem setIp_ipv4_scope :
    setIp qt newServer h
        (addressed .ipv4 (.ipv4 t) (.ipv4 k) (some [⟨.ipv4 start, .ipv4 end_⟩])) =
      { h with
        hostIPAddress := qt.ofText t
        dhcpIPAddress := qt.ofText t
        ipNetMask := getIPv4MaskFromPrefix k
        dhcpServer := some ⟨true, qt.ofText start, qt.ofText end_⟩ } :=
  rfl

/-- Beside the family IPv6 a length is the same in both of its alternatives. -/
theorem setIp_length (hv : parsePrefix k = some v) (dhcp : Option (List Range)) :
    setIp qt newServer h (addressed .ipv6 x v dhcp) =
      setIp qt newServer h (addressed .ipv6 x (.ipv6 k) dhcp) := by
  unfold parsePrefix at hv
  split at hv
  · cases hv
    rfl
  · split at hv
    · cases hv
      rfl
    · cases hv

theorem setIp_ipv6 (hv : parsePrefix k = some v) :
    setIp qt newServer h (addressed .ipv6 (.ipv6 t) v none) =
      { h with
        hostIP6Address := qt.ofText t
        dhcpIP6Address := qt.ofText t
        ip6NetMask := getIPv6MaskFromPrefix k } :=
  setIp_length hv none

theorem setIp_ipv6_scope (hv : parsePrefix k = some v) :
    setIp qt newServer h
        (addressed .ipv6 (.ipv6 t) v (some [⟨.ipv6 start, .ipv6 end_⟩])) =
      { h with
        hostIP6Address := qt.ofText t
        dhcpIP6Address := qt.ofText t
        ip6NetMask := getIPv6MaskFromPrefix k
        dhcpv6Server := some ⟨true, qt.ofText start, qt.ofText end_⟩ } :=
  setIp_length hv _

theorem parsePrefix_ipv4 (hk : k ≤ 32) :
    parsePrefix (generatePrefix (craftPrefix .ipv4 (Family.ipv4.getMask (.ipv4 (mask4 k))))) =
      some (.ipv4 k) := by
  rw [getMask_mask4 ⟨k, Nat.lt_succ_of_le hk⟩, craftPrefix, if_pos hk, generatePrefix, parsePrefix,
    if_pos hk]

theorem parsePrefix_ipv6 (hk : k ≤ 128) :
    ∃ v, parsePrefix k = some v ∧
      parsePrefix (generatePrefix (craftPrefix .ipv6 (Family.ipv6.getMask (.ipv6 (mask6 k) [])))) =
        some v := by
  rw [getMask_mask6 ⟨k, Nat.lt_succ_of_le hk⟩, craftPrefix, if_pos hk, generatePrefix, parsePrefix]
  by_cases h : k ≤ 32
  · exact ⟨.ipv4 k, if_pos h, if_pos h⟩
  · rw [if_neg h, if_pos hk]
    exact ⟨.ipv6 k, rfl, rfl⟩

end Elements

section Families

variable {qt : Qt} {n : CHostOnlyNetwork} {family : Family} {p : Ip} {newServer : CDHCPServer}
  {f : CHostOnlyNetwork → CHostOnlyNetwork}

theorem mapM_singleton (h : ∃ q, transit qt p = some q ∧ ∀ x, setIp qt newServer x q = f x) :
    ∃ l, [p].mapM (transit qt) = some l ∧ ∀ x, l.foldl (setIp qt newServer) x = f x := by
  obtain ⟨q, hq, hf⟩ := h
  refine ⟨[q], ?_, hf⟩
  rw [List.mapM_cons, hq]
  rfl

theorem visit_of_not_eligible (h : ¬isEligible qt family (Visitor.getAddress family n) = true) :
    Visitor.visit qt family n = [] :=
  if_neg h

theorem visit_of_closed (h : isEligible qt family (Visitor.getAddress family n) = true)
    (hc : ∀ s, Visitor.getDhcp family n = some s → s.enabled = false) :
    Visitor.visit qt family n = [Builder.setAddress qt family (Visitor.getAddress family n)
      (Visitor.getMask family n) {}] := by
  rw [Visitor.visit, if_pos h]
  cases hs : Visitor.getDhcp family n with
  | none => rfl
  | some s => exact if_neg (by rw [hc s hs]; exact Bool.false_ne_true)

theorem visit_of_open {s : CDHCPServer}
    (h : isEligible qt family (Visitor.getAddress family n) = true)
    (hs : Visitor.getDhcp family n = some s) (hen : s.enabled = true) :
    Visitor.visit qt family n = [Builder.setDhcp qt family s (Builder.setAddress qt family
      (Visitor.getAddress family n) (Visitor.getMask family n) {})] := by
  rw [Visitor.visit, if_pos h, hs]
  exact if_pos hen

theorem scopeOf_of_closed {server otherwise_ : Option CDHCPServer}
    (hc : ∀ s, server = some s → s.enabled = false) :
    scopeOf family server otherwise_ = otherwise_ := by
  cases server with
  | none => rfl
  | some s => exact if_neg (by rw [hc s rfl]; exact Bool.false_ne_true)

/-- A scope is open when there is an enabled server. -/
theorem open_or_closed (server : Option CDHCPServer) :
    (∃ s, server = some s ∧ s.enabled = true) ∨ ∀ s, server = some s → s.enabled = false := by
  cases server with
  | none => exact .inr nofun
  | some s =>
    cases he : s.enabled with
    | false => exact .inr fun t ht => by cases ht; exact he
    | true => exact .inl ⟨s, rfl, he⟩

theorem read_ipv4 (hd : isEligible qt .ipv4 (Visitor.getAddress .ipv4 n) = true →
      Described4 qt 1 n) (newServer : CDHCPServer) :
    ∃ l, (Visitor.visit qt .ipv4 n).mapM (transit qt) = some l ∧
      ∀ h, l.foldl (setIp qt newServer) h = restored4 qt n h := by
  unfold restored4
  by_cases he : isEligible qt .ipv4 (Visitor.getAddress .ipv4 n) = true
  · simp only [if_pos he]
    obtain ⟨⟨a, ha, hra⟩, ⟨k, hk1, hk2, hm⟩, hscope⟩ := hd he
    have hmask : getIPv4MaskFromPrefix k = .ipv4 (mask4 k) :=
      mask4_of_prefix ⟨k, Nat.lt_succ_of_le hk2⟩ (Nat.ne_of_gt hk1)
    have hx := parse_craft_ipv4 hra
    have hv := parsePrefix_ipv4 hk2
    have haddress : Visitor.getAddress .ipv4 n = .ipv4 a := ha
    have hgetMask : Visitor.getMask .ipv4 n = .ipv4 (mask4 k) := hm
    rcases open_or_closed n.dhcpServer with ⟨s, hs, hen⟩ | hc
    · obtain ⟨b, c, hb, hc, -, hbc, hrb, hrc⟩ := hscope s hs hen
      have hxb := parse_craft_ipv4 hrb
      have hxc := parse_craft_ipv4 hrc
      have hend : patchEnd .ipv4 s.ipScopeStart s.ipScopeEnd = .ipv4 c := by
        rw [hb, hc, patchEnd_ipv4 hbc]
      rw [visit_of_open he hs hen, haddress, hgetMask]
      refine mapM_singleton ⟨_, transit_setDhcp hx.1 hx.2 hv (by rw [hb, hxb.1]) hxb.2
        (by rw [hend, hxc.1]) hxc.2, fun h => ?_⟩
      rw [setIp_ipv4_scope, hra.2, hrb.2, hrc.2, hmask, ha, hm, hs]
      have hscopeOf : scopeOf .ipv4 (some s) h.dhcpServer = some ⟨true, .ipv4 b, .ipv4 c⟩ := by
        rw [scopeOf, if_pos hen, ← hen, ← hb, ← hc]
      rw [hscopeOf]
    · rw [visit_of_closed he hc, haddress, hgetMask]
      refine mapM_singleton ⟨_, transit_setAddress hx.1 hx.2 hv, fun h => ?_⟩
      rw [setIp_ipv4, hra.2, hmask, ha, hm, scopeOf_of_closed hc]
  · rw [visit_of_not_eligible he]
    exact ⟨[], rfl, fun h => (if_neg he).symm⟩

theorem read_ipv6 (hd : isEligible qt .ipv6 (Visitor.getAddress .ipv6 n) = true →
      Described6 qt n) (newServer : CDHCPServer) :
    ∃ l, (Visitor.visit qt .ipv6 n).mapM (transit qt) = some l ∧
      ∀ h, l.foldl (setIp qt newServer) h = restored6 qt n h := by
  unfold restored6
  by_cases he : isEligible qt .ipv6 (Visitor.getAddress .ipv6 n) = true
  · simp only [if_pos he]
    obtain ⟨⟨a, id, ha, hra⟩, ⟨k, hk, hm⟩, hscope⟩ := hd he
    have hmask : getIPv6MaskFromPrefix k = .ipv6 (mask6 k) [] :=
      mask6_of_prefix ⟨k, Nat.lt_succ_of_le hk⟩
    have hx := parse_craft_ipv6 hra
    obtain ⟨v, hkv, hv⟩ := parsePrefix_ipv6 hk
    have hplain : n.hostIP6Address.setScopeId [] = .ipv6 a [] := by
      rw [ha, QHostAddress.setScopeId]
    have haddress : Visitor.getAddress .ipv6 n = .ipv6 a [] := hplain
    have hgetMask : Visitor.getMask .ipv6 n = .ipv6 (mask6 k) [] := hm
    rcases open_or_closed n.dhcpv6Server with ⟨s, hs, hen⟩ | hc
    · obtain ⟨b, c, hb, hc, hrb, hrc⟩ := hscope s hs hen
      have hxb := parse_craft_ipv6 hrb
      have hxc := parse_craft_ipv6 hrc
      have hend : patchEnd .ipv6 s.ipScopeStart s.ipScopeEnd = .ipv6 (end6 b c) [] := by
        rw [hb, hc, patchEnd_ipv6]
      rw [visit_of_open he hs hen, haddress, hgetMask]
      refine mapM_singleton ⟨_, transit_setDhcp hx.1 hx.2 hv (by rw [hb, hxb.1]) hxb.2
        (by rw [hend, hxc.1]) hxc.2, fun h => ?_⟩
      rw [setIp_ipv6_scope hkv, hra.2.2, hrb.2.2, hrc.2.2, hmask, hplain, hm, hs]
      have hscopeOf : scopeOf .ipv6 (some s) h.dhcpv6Server =
          some ⟨true, .ipv6 b [], .ipv6 (end6 b c) []⟩ := by
        rw [scopeOf, if_pos hen, hb, hc, hen]
        rfl
      rw [hscopeOf]
    · rw [visit_of_closed he hc, haddress, hgetMask]
      refine mapM_singleton ⟨_, transit_setAddress hx.1 hx.2 hv, fun h => ?_⟩
      rw [setIp_ipv6 hkv, hra.2.2, hmask, hplain, hm, scopeOf_of_closed hc]
  · rw [visit_of_not_eligible he]
    exact ⟨[], rfl, fun h => (if_neg he).symm⟩

/-- Each family comes back, and leaves the other as it is: the host address without its scope, the
mask, and the scope of addresses, whose end is kept within the block of its start in IPv6. -/
theorem restored_roundTrip {n : CHostOnlyNetwork} (h : Described qt 1 n)
    (newServer : CDHCPServer) (blank : CHostOnlyNetwork) :
    roundTrip qt newServer blank n = some (restored6 qt n (restored4 qt n blank)) := by
  obtain ⟨l4, hl4, hr4⟩ := read_ipv4 h.ipv4 newServer
  obtain ⟨l6, hl6, hr6⟩ := read_ipv6 h.ipv6 newServer
  have happend : Reverse.setHostOnly qt n = Visitor.visit qt .ipv4 n ++ Visitor.visit qt .ipv6 n :=
    congrArg _ (List.append_nil _)
  rw [roundTrip, happend, List.mapM_append, hl4, hl6]
  change some ((l4 ++ l6).foldl (setIp qt newServer) blank) = _
  rw [List.foldl_append, hr4, hr6]

end Families

section Sample

/-- Scopes of 253 and of 33 addresses, the second of which is in two blocks. -/
def network : CHostOnlyNetwork where
  hostIPAddress := .ipv4 0x0A000001
  dhcpIPAddress := .ipv4 0x0A000001
  ipNetMask := .ipv4 (mask4 24)
  dhcpServer := some ⟨true, .ipv4 0x0A000002, .ipv4 0x0A0000FE⟩
  hostIP6Address := .ipv6 (groups 0xFD00 0 1) []
  dhcpIP6Address := .ipv6 (groups 0xFD00 0 1) []
  ip6NetMask := .ipv6 (mask6 24) []
  dhcpv6Server := some ⟨true, .ipv6 (groups 0xFD00 1 0xFFF0) [], .ipv6 (groups 0xFD00 2 0x10) []⟩

def noServer : CDHCPServer := ⟨false, .null, .null⟩

def noNetwork : CHostOnlyNetwork := ⟨.null, .null, .null, none, .null, .null, .null, none⟩

theorem described_network : Described ofTable 1 network where
  ipv4 _ := {
    address := ⟨_, rfl, by decide, by decide⟩
    mask := ⟨24, by decide, by decide, rfl⟩
    scope := fun s hs _ => by
      cases hs
      exact ⟨_, _, rfl, rfl, by decide, by decide, ⟨by decide, by decide⟩, by decide, by decide⟩ }
  ipv6 _ := {
    address := ⟨_, _, rfl, by decide, by decide, by decide⟩
    mask := ⟨24, by decide, rfl⟩
    scope := fun s hs _ => by
      cases hs
      exact ⟨_, _, rfl, rfl, ⟨by decide, by decide, by decide⟩, by decide, by decide, by decide⟩ }

theorem restored_roundTrip_network :
    roundTrip ofTable noServer noNetwork network =
      some (restored6 ofTable network (restored4 ofTable network noNetwork)) :=
  restored_roundTrip described_network noServer noNetwork

/-- The scope of IPv6 ends where it began, though it has no more than 65536 addresses. -/
theorem scope_not_restored :
    number (groups 0xFD00 1 0xFFF0) ≤ number (groups 0xFD00 2 0x10) ∧
      number (groups 0xFD00 2 0x10) < number (groups 0xFD00 1 0xFFF0) + 65536 ∧
      ∃ r, roundTrip ofTable noServer noNetwork network = some r ∧
        r.dhcpServer = network.dhcpServer ∧
        r.dhcpv6Server = some ⟨true, .ipv6 (groups 0xFD00 1 0xFFF0) [],
          .ipv6 (groups 0xFD00 1 0xFFFF) []⟩ ∧
        r.dhcpv6Server ≠ network.dhcpv6Server := by
  refine ⟨by decide +kernel, by decide +kernel, _, rfl, ?_, ?_, ?_⟩ <;> decide +kernel

end Sample

end DispService.Transponster.Network
