import DispService.Lib.FirstMatch
import DispService.Nwfilter.Address

/-! `Filter::Reverse::prepareFirewall`: the rules that the firewall of an adapter is translated
into, direction by direction, with one or two rules for each rule of the configuration. -/
namespace DispService.Nwfilter

inductive PRL_FIREWALL_POLICY where
  | PFP_ACCEPT
  | PFP_DENY
  deriving DecidableEq, Repr

structure CVmNetFirewallRule where
  protocol : QString
  localNetAddress : QString
  remoteNetAddress : QString
  localPort : Port
  remotePort : Port

structure CVmNetFirewallDirection where
  defaultPolicy : PRL_FIREWALL_POLICY
  firewallRules : List CVmNetFirewallRule

/-- A direction that is not configured is `none`. -/
structure CVmNetFirewall where
  incoming : Option CVmNetFirewallDirection
  outgoing : Option CVmNetFirewallDirection

/-- The actions that a firewall asks for. -/
inductive EActionType where
  | Drop
  | Return
  deriving DecidableEq, Repr

structure RuleNodeAttributes where
  action : EActionType
  direction : EDirectionType
  priority : Nat
  deriving DecidableEq, Repr

/-- The protocol element of a rule, with what it has beside the addresses. -/
inductive Protocol where
  | tcp (ports : PortAttributes)
  | udp (ports : PortAttributes)
  | icmp (type : Option Int)
  | all
  deriving DecidableEq, Repr

structure Element where
  family : Family
  ip : IpAttributes
  protocol : Protocol
  deriving DecidableEq, Repr

/-- Of the element lists of a rule at most one is set, to a single element. -/
structure Rule where
  attributes : RuleNodeAttributes
  element : Option Element
  deriving DecidableEq, Repr

def S_TCP : QString := "tcp".toList

def S_UDP : QString := "udp".toList

def S_ICMP : QString := "icmp".toList

def toLower (text : QString) : QString := text.map Char.toLower

def PData9885.validate (value : Int) : Bool := 0 ≤ value ∧ value ≤ 255

def prepareIcmpType (value : Nat) : Int := setValue PData9885.validate 0 value

/-- `prepareTcp`, `prepareUdp`, `prepareIcmp` and `prepareAll` of one family, and the choice among
them; a protocol that is not known leaves the rule without an element. -/
def prepareElement (family : Family) (proto : QString) (ip : IpAttributes)
    (ports : PortAttributes) : Option Element :=
  if proto = S_TCP then some ⟨family, ip, .tcp ports⟩
  else if proto = S_UDP then some ⟨family, ip, .udp ports⟩
  else if proto = S_ICMP then some ⟨family, ip, .icmp none⟩
  else if proto.isEmpty then some ⟨family, ip, .all⟩
  else none

def prepareIpRule (proto : QString) (ip_attributes : IpAttributes)
    (port_attributes : PortAttributes) (rule_attributes : RuleNodeAttributes) : Rule :=
  { attributes := rule_attributes
    element := prepareElement .IPv4 proto ip_attributes port_attributes }

def prepareIpv6Rule (proto : QString) (ip_attributes : IpAttributes)
    (port_attributes : PortAttributes) (rule_attributes : RuleNodeAttributes) : Rule :=
  { attributes := rule_attributes
    element := prepareElement .IPv6 proto ip_attributes port_attributes }

/-- Whether one of the addresses of the rule is written as an address of IPv6. -/
def isIPv6 (basic_rule : CVmNetFirewallRule) : Bool :=
  [basic_rule.localNetAddress, basic_rule.remoteNetAddress].any fun ip =>
    !ip.isEmpty && PData5625.validate (host ip)

def isBoth (basic_rule : CVmNetFirewallRule) : Bool :=
  basic_rule.localNetAddress.isEmpty && basic_rule.remoteNetAddress.isEmpty

def prepareRule (qt : QHostAddress) (basic_rule : CVmNetFirewallRule) (direction : EDirectionType)
    (action : EActionType) (priority : Nat) : List Rule :=
  let proto := toLower basic_rule.protocol
  let ports :=
    preparePortAttributes basic_rule.localPort basic_rule.remotePort direction
  let ipv6 :=
    if isIPv6 basic_rule || isBoth basic_rule then
      [prepareIpv6Rule proto
        (prepareIpv6Attributes qt basic_rule.localNetAddress basic_rule.remoteNetAddress direction)
        ports ⟨action, direction, priority⟩]
    else []
  let ipv4 :=
    if !isIPv6 basic_rule || isBoth basic_rule then
      [prepareIpRule proto
        (prepareIpAttributes qt basic_rule.localNetAddress basic_rule.remoteNetAddress direction)
        ports ⟨action, direction, priority + ipv6.length⟩]
    else []
  ipv6 ++ ipv4

def established : IpAttributes := { state := some "ESTABLISHED,RELATED".toList }

def prepareAllowEstablished (direction : EDirectionType) (priority : Nat) : List Rule :=
  [prepareIpRule [] established {} ⟨.Return, direction, priority⟩,
    prepareIpv6Rule [] established {} ⟨.Return, direction, priority + 1⟩]

/-- The types of the neighbour discovery messages. -/
def nd_messages_ids : List Nat := [133, 134, 135, 136]

def prepareNdMessage (direction : EDirectionType) (nd_message_id priority : Nat) : Rule :=
  { attributes := ⟨.Return, direction, priority⟩
    element := some ⟨.IPv6, {}, .icmp (some (prepareIcmpType nd_message_id))⟩ }

def prepareDefaultDeny (direction : EDirectionType) (priority : Nat) : List Rule :=
  nd_messages_ids.mapIdx (fun i nd_message_id =>
      prepareNdMessage direction nd_message_id (priority + i)) ++
    [prepareIpRule [] {} {} ⟨.Drop, direction, priority + 4⟩,
      prepareIpv6Rule [] {} {} ⟨.Drop, direction, priority + 5⟩]

def ruleAction : PRL_FIREWALL_POLICY → EActionType
  | .PFP_ACCEPT => .Drop
  | .PFP_DENY => .Return

/-- The loop over the rules of a direction; `result` is what has been put together so far. -/
def prepareRules (qt : QHostAddress) (direction_type : EDirectionType) (action : EActionType) :
    List CVmNetFirewallRule → List Rule → List Rule
  | [], result => result
  | basic_rule :: rest, result =>
      prepareRules qt direction_type action rest
        (result ++ prepareRule qt basic_rule direction_type action result.length)

def prepareDirection (qt : QHostAddress) (direction_type : EDirectionType)
    (direction : CVmNetFirewallDirection) (result : List Rule) : List Rule :=
  let allowed := result ++ prepareAllowEstablished direction_type result.length
  let ruled :=
    prepareRules qt direction_type (ruleAction direction.defaultPolicy) direction.firewallRules
      allowed
  match direction.defaultPolicy with
  | .PFP_ACCEPT => ruled
  | .PFP_DENY => ruled ++ prepareDefaultDeny direction_type ruled.length

/-- The directions that are configured, the incoming one first. -/
def CVmNetFirewall.directions (firewall : CVmNetFirewall) :
    List (EDirectionType × CVmNetFirewallDirection) :=
  (firewall.incoming.map fun d => (.In, d)).toList ++
    (firewall.outgoing.map fun d => (.Out, d)).toList

def prepareFirewall (qt : QHostAddress) (firewall : CVmNetFirewall) : List Rule :=
  firewall.directions.foldl (fun result d => prepareDirection qt d.1 d.2 result) []

end DispService.Nwfilter

/-! What a list of filter rules does with a packet: the rules of the packet's direction are tried
in the order of their priorities and the first one that matches decides. -/
namespace DispService.Nwfilter

open Lib.FirstMatch

/-- What connection tracking says about a packet. -/
inductive ConnState where
  | NEW
  | ESTABLISHED
  | RELATED
  | INVALID
  deriving DecidableEq, Repr

def ConnState.name : ConnState → QString
  | .NEW => "NEW".toList
  | .ESTABLISHED => "ESTABLISHED".toList
  | .RELATED => "RELATED".toList
  | .INVALID => "INVALID".toList

/-- A message of ICMP is one of the packet's own family. -/
inductive Payload where
  | tcp (sport dport : Nat)
  | udp (sport dport : Nat)
  | icmp (type : Nat)
  | other
  deriving DecidableEq, Repr

structure Packet where
  direction : EDirectionType
  family : Family
  source : BitVec family.width
  destination : BitVec family.width
  payload : Payload
  state : ConnState

/-- The first `n` bits are the same. -/
def agree {w : Nat} (n : Nat) (a x : BitVec w) : Bool := a >>> (w - n) == x >>> (w - n)

/-- A mask counts only beside an address, and without one the address is a single host. -/
def addrHits (qt : QHostAddress) (f : Family) (addr : Option QString) (mask : Option Int)
    (x : BitVec f.width) : Bool :=
  match addr with
  | none => true
  | some text => (qt.setAddress f text).any fun a => agree (mask.elim f.width Int.toNat) a x

def portHits (start finish : Option Int) (port : Nat) : Bool :=
  start.all (fun s : Int => s ≤ port) && finish.all (fun e : Int => port ≤ e)

def PortAttributes.hits (ports : PortAttributes) (sport dport : Nat) : Bool :=
  portHits ports.srcportstart ports.srcportend sport &&
    portHits ports.dstportstart ports.dstportend dport

def Protocol.hits : Protocol → Payload → Bool
  | .tcp ports, .tcp sport dport => ports.hits sport dport
  | .udp ports, .udp sport dport => ports.hits sport dport
  | .icmp type, .icmp t => type.all fun i : Int => i = t
  | .all, _ => true
  | _, _ => false

def IpAttributes.hits (qt : QHostAddress) (ip : IpAttributes) (p : Packet) : Bool :=
  addrHits qt p.family ip.srcipaddr ip.srcipmask p.source &&
    addrHits qt p.family ip.dstipaddr ip.dstipmask p.destination &&
    ip.state.all fun text => (text.splitOn ',').contains p.state.name

def Element.hits (qt : QHostAddress) (e : Element) (p : Packet) : Bool :=
  e.family == p.family && e.ip.hits qt p && e.protocol.hits p.payload

def Rule.hits (qt : QHostAddress) (r : Rule) (p : Packet) : Bool :=
  r.element.any fun e => e.hits qt p

def evaluate (qt : QHostAddress) (rules : List Rule) (p : Packet) : Option EActionType :=
  firstMatch (fun r => r.hits qt p) (fun r => r.attributes.action)
    (byPriority (fun r => r.attributes.priority)
      (rules.filter fun r => r.attributes.direction = p.direction))

/-- A packet that no rule drops passes. -/
def passes (qt : QHostAddress) (rules : List Rule) (p : Packet) : Bool :=
  evaluate qt rules p != some .Drop

/-! ## Matching as a relation -/

theorem portHits_prepared {value : Port} {port : Nat} :
    portHits (preparePort value) (preparePort value) port = true ↔
      value.val = 0 ∨ value.val = port := by
  by_cases h : value.val = 0
  · simp [portHits, preparePort, h]
  · simp only [portHits, preparePort_some h, Option.all_some, Bool.and_eq_true, decide_eq_true_eq,
      h, false_or]
    omega

theorem Rule.hits_iff {qt : QHostAddress} {r : Rule} {p : Packet} :
    r.hits qt p = true ↔
      ∃ e, r.element = some e ∧ e.family = p.family ∧ e.ip.hits qt p = true ∧
        e.protocol.hits p.payload = true := by
  cases he : r.element with
  | none => simp [Rule.hits, he]
  | some e => simp [Rule.hits, he, Element.hits, and_assoc]

end DispService.Nwfilter
