import DispService.Nwfilter.Translation

/-! When the translated firewall means what the configured one does: exactly when the packets that
an incoming rule with just one subnet is meant to match are matched by some rule as it is read. -/
namespace DispService.Nwfilter

open Lib.FirstMatch

variable {q : QHostAddress}

/-- What an incoming rule with just one subnet is about does not get lost: some rule takes the
packet as it is read, or the packet passes for another reason. -/
def Covered (q : QHostAddress) (firewall : CVmNetFirewall) : Prop :=
  ∀ direction, firewall.incoming = some direction → ∀ p : Packet, p.direction = .In →
    ¬ p.Established → ¬ (direction.defaultPolicy = .PFP_DENY ∧ p.NeighbourDiscovery) →
      ∀ rule ∈ direction.firewallRules, rule.Lopsided → rule.Matches q p →
        ∃ rule' ∈ direction.firewallRules, rule'.Read q p

/-! ## Order -/

/-- A rule that is read for less than it says is an incoming one with just one subnet. -/
theorem CVmNetFirewallRule.Matches.read {rule : CVmNetFirewallRule} {p : Packet}
    (h : rule.Matches q p) (hread : ¬ rule.Read q p) : p.direction = .In ∧ rule.Lopsided := by
  by_contra hcon
  rw [CVmNetFirewallRule.Read, if_neg hcon] at hread
  exact hread h

def decimal (text : QString) : Nat := text.foldl (fun n c => 10 * n + (c.toNat - 48)) 0

/-- Qt on dotted addresses and on masks that are a number of bits. -/
def plain : QHostAddress where
  setAddress
    | .IPv4, text =>
        some (BitVec.ofNat 32 ((text.splitOn '.').foldl (fun n part => 256 * n + decimal part) 0))
    | .IPv6, _ => none
  parseSubnet text :=
    if isSubnet text then decimal (text.dropWhile (· != '/')).tail
    else if text.contains ':' then 128 else 32

end DispService.Nwfilter
