import DispService.Nwfilter.Meaning

/-! The whole translation of a firewall: its rules are numbered in the order of the configuration,
so that trying them by priority is trying established connections, the rules of the direction in
their order, and the default. What passes is then what the configuration lets pass, with every rule
taken as it is read; and this is the meaning of the configuration unless an incoming rule that is
read too narrowly is left uncovered by the others. -/
namespace DispService.Nwfilter

open Lib.FirstMatch

variable {q : QHostAddress} {d : EDirectionType} {action : EActionType} {n : Nat}

/-! ## The shape of the list -/

/-- The rules made from each configured one, from priority `n` on. -/
def blocks (q : QHostAddress) (d : EDirectionType) (action : EActionType) :
    Nat → List CVmNetFirewallRule → List (List Rule)
  | _, [] => []
  | n, rule :: rest =>
      prepareRule q rule d action n ::
        blocks q d action (n + (prepareRule q rule d action n).length) rest

def denyRules (d : EDirectionType) (policy : PRL_FIREWALL_POLICY) (n : Nat) : List Rule :=
  match policy with
  | .PFP_ACCEPT => []
  | .PFP_DENY => prepareDefaultDeny d n

def directionRules (q : QHostAddress) (d : EDirectionType) (direction : CVmNetFirewallDirection)
    (n : Nat) : List Rule :=
  let ruled := (blocks q d (ruleAction direction.defaultPolicy) (n + 2)
    direction.firewallRules).flatten
  prepareAllowEstablished d n ++ ruled ++
    denyRules d direction.defaultPolicy (n + 2 + ruled.length)

theorem prepareRules_eq (rules : List CVmNetFirewallRule) (result : List Rule) :
    prepareRules q d action rules result =
      result ++ (blocks q d action result.length rules).flatten := by
  induction rules generalizing result with
  | nil => simp [prepareRules, blocks]
  | cons rule rest ih =>
      rw [prepareRules, ih]
      simp [blocks, List.append_assoc]

theorem prepareDirection_eq (direction : CVmNetFirewallDirection) (result : List Rule) :
    prepareDirection q d direction result =
      result ++ directionRules q d direction result.length := by
  have hlength : (result ++ prepareAllowEstablished d result.length).length =
      result.length + 2 := by simp [prepareAllowEstablished]
  unfold prepareDirection directionRules
  simp only [prepareRules_eq, hlength]
  cases direction.defaultPolicy with
  | PFP_ACCEPT => simp [denyRules]
  | PFP_DENY => simp [denyRules, prepareAllowEstablished, Nat.add_assoc, Nat.add_comm 2]

def CVmNetFirewall.direction (firewall : CVmNetFirewall) :
    EDirectionType → Option CVmNetFirewallDirection
  | .In => firewall.incoming
  | .Out => firewall.outgoing

def partRules (q : QHostAddress) (d : EDirectionType) (direction : Option CVmNetFirewallDirection)
    (n : Nat) : List Rule :=
  direction.elim [] fun dir => directionRules q d dir n

theorem prepareFirewall_eq (firewall : CVmNetFirewall) :
    prepareFirewall q firewall =
      partRules q .In firewall.incoming 0 ++
        partRules q .Out firewall.outgoing (partRules q .In firewall.incoming 0).length := by
  unfold prepareFirewall CVmNetFirewall.directions
  cases firewall.incoming <;> cases firewall.outgoing <;>
    simp [partRules, prepareDirection_eq]

/-! ## Priorities and directions -/

abbrev priorityOf (r : Rule) : Nat := r.attributes.priority

theorem numbered_prepareRule (rule : CVmNetFirewallRule) :
    Numbered priorityOf n (prepareRule q rule d action n) := by
  rw [prepareRule_eq]
  split
  · rfl
  · split <;> rfl

theorem numbered_blocks (rules : List CVmNetFirewallRule) :
    Numbered priorityOf n (blocks q d action n rules).flatten := by
  induction rules generalizing n with
  | nil => exact numbered_nil
  | cons rule rest ih => exact (numbered_prepareRule rule).append ih

theorem numbered_deny (policy : PRL_FIREWALL_POLICY) :
    Numbered priorityOf n (denyRules d policy n) := by
  cases policy <;> rfl

theorem numbered_direction (direction : CVmNetFirewallDirection) :
    Numbered priorityOf n (directionRules q d direction n) := by
  have hallow : Numbered priorityOf n (prepareAllowEstablished d n) := rfl
  have hblocks : Numbered priorityOf (n + 2) (blocks q d (ruleAction direction.defaultPolicy)
      (n + 2) direction.firewallRules).flatten := numbered_blocks _
  refine (hallow.append hblocks).append ?_
  rw [List.length_append, ← Nat.add_assoc]
  exact numbered_deny _

theorem numbered_part (direction : Option CVmNetFirewallDirection) :
    Numbered priorityOf n (partRules q d direction n) := by
  cases direction with
  | none => exact numbered_nil
  | some dir => exact numbered_direction dir

theorem prepareRule_attributes {rule : CVmNetFirewallRule} {r : Rule}
    (h : r ∈ prepareRule q rule d action n) :
    r.attributes.direction = d ∧ r.attributes.action = action := by
  rw [prepareRule_eq] at h
  split at h
  · simp only [List.mem_cons, List.not_mem_nil, or_false] at h
    rcases h with rfl | rfl <;> exact ⟨rfl, rfl⟩
  · split at h <;> rw [List.mem_singleton] at h <;> rw [h] <;> exact ⟨rfl, rfl⟩

theorem blocks_attributes {rules : List CVmNetFirewallRule} {r : Rule}
    (h : r ∈ (blocks q d action n rules).flatten) :
    r.attributes.direction = d ∧ r.attributes.action = action := by
  induction rules generalizing n with
  | nil => simp [blocks] at h
  | cons rule rest ih =>
      rw [blocks, List.flatten_cons, List.mem_append] at h
      exact h.elim prepareRule_attributes ih

theorem part_direction {direction : Option CVmNetFirewallDirection} {r : Rule}
    (h : r ∈ partRules q d direction n) : r.attributes.direction = d := by
  cases direction with
  | none => simp [partRules] at h
  | some dir =>
      simp only [partRules, Option.elim_some, directionRules, List.mem_append] at h
      rcases h with (h | h) | h
      · simp only [prepareAllowEstablished, List.mem_cons, List.not_mem_nil, or_false] at h
        rcases h with rfl | rfl <;> rfl
      · exact (blocks_attributes h).1
      · cases hp : dir.defaultPolicy with
        | PFP_ACCEPT => simp [denyRules, hp] at h
        | PFP_DENY =>
            simp only [denyRules, hp, prepareDefaultDeny, nd_messages_ids, List.mapIdx_cons,
              List.mapIdx_nil, List.cons_append, List.nil_append, List.mem_cons,
              List.not_mem_nil, or_false] at h
            rcases h with rfl | rfl | rfl | rfl | rfl | rfl <;> rfl

/-- The rules of one direction stand together. -/
theorem direction_filter (firewall : CVmNetFirewall) (d : EDirectionType) :
    ∃ n, (prepareFirewall q firewall).filter (fun r => r.attributes.direction = d) =
      partRules q d (firewall.direction d) n := by
  have hkeep : ∀ direction n, (partRules q d direction n).filter
      (fun r => r.attributes.direction = d) = partRules q d direction n :=
    fun direction n => List.filter_eq_self.mpr fun r hr => by simpa using part_direction hr
  have hdrop : ∀ d' direction n, d' ≠ d → (partRules q d' direction n).filter
      (fun r => r.attributes.direction = d) = [] :=
    fun d' direction n hne => List.filter_eq_nil_iff.mpr fun r hr => by
      simpa [part_direction hr] using hne
  rw [prepareFirewall_eq, List.filter_append]
  cases d with
  | In =>
      refine ⟨0, ?_⟩
      rw [hkeep, hdrop .Out _ _ (by decide), List.append_nil]
      rfl
  | Out =>
      refine ⟨(partRules q .In firewall.incoming 0).length, ?_⟩
      rw [hkeep, hdrop .In _ _ (by decide), List.nil_append]
      rfl

theorem evaluate_direction (firewall : CVmNetFirewall) (p : Packet) :
    ∃ n, evaluate q (prepareFirewall q firewall) p =
      firstMatch (fun r => r.hits q p) (fun r => r.attributes.action)
        (partRules q p.direction (firewall.direction p.direction) n) := by
  obtain ⟨n, hn⟩ := direction_filter (q := q) firewall p.direction
  refine ⟨n, ?_⟩
  unfold evaluate
  rw [hn, byPriority_increasing (numbered_part _).increasing]

/-! ## What passes -/

def Packet.Established (p : Packet) : Prop := p.state = .ESTABLISHED ∨ p.state = .RELATED

def Packet.NeighbourDiscovery (p : Packet) : Prop :=
  p.family = .IPv6 ∧ ∃ t ∈ [133, 134, 135, 136], p.payload = .icmp t

/-- What a direction lets pass when its rules are about the packets that `matched` says. -/
def CVmNetFirewallDirection.LetsPass (direction : CVmNetFirewallDirection)
    (matched : CVmNetFirewallRule → Packet → Prop) (p : Packet) : Prop :=
  p.Established ∨
    match direction.defaultPolicy with
    | .PFP_ACCEPT => ¬ ∃ rule ∈ direction.firewallRules, matched rule p
    | .PFP_DENY => (∃ rule ∈ direction.firewallRules, matched rule p) ∨ p.NeighbourDiscovery

theorem established_hits (p : Packet) (n : Nat) :
    ((prepareAllowEstablished p.direction n).any fun r => r.hits q p) = true ↔ p.Established := by
  have hstate : (established.state.all fun text => (text.splitOn ',').contains p.state.name) =
      true ↔ p.Established := by
    unfold Packet.Established
    cases p.state <;> decide
  have hip : established.hits q p = true ↔ p.Established := by
    rw [← hstate]
    simp [IpAttributes.hits, addrHits, established]
  simp only [prepareAllowEstablished, prepareIpRule, prepareIpv6Rule, List.any_cons, List.any_nil,
    Bool.or_false, Bool.or_eq_true, Rule.hits_iff]
  constructor
  · rintro (⟨e, he, -, hhit, -⟩ | ⟨e, he, -, hhit, -⟩) <;> cases he <;> exact hip.mp hhit
  · intro h
    cases hf : p.family with
    | IPv4 => exact .inl ⟨_, rfl, rfl, hip.mpr h, rfl⟩
    | IPv6 => exact .inr ⟨_, rfl, rfl, hip.mpr h, rfl⟩

theorem blocks_hits (hq : q.HostPrefix) {p : Packet} {rules : List CVmNetFirewallRule}
    (h : ∀ rule ∈ rules, rule.WellFormed q) :
    ((blocks q p.direction action n rules).flatten.any fun r => r.hits q p) = true ↔
      ∃ rule ∈ rules, rule.Read q p := by
  induction rules generalizing n with
  | nil => simp [blocks]
  | cons rule rest ih =>
      have hrest : ∀ rule' ∈ rest, rule'.WellFormed q :=
        fun rule' hr => h rule' (List.mem_cons_of_mem rule hr)
      rw [blocks, List.flatten_cons, List.any_append, Bool.or_eq_true,
        prepareRule_hits hq (h rule (by simp)), ih hrest]
      simp

theorem catchAll_hits {p : Packet} {f : Family} {a : RuleNodeAttributes} (hf : p.family = f) :
    Rule.hits q ⟨a, some ⟨f, {}, .all⟩⟩ p = true :=
  Rule.hits_iff.mpr ⟨_, rfl, hf.symm, by simp [IpAttributes.hits, addrHits], rfl⟩

theorem nd_hits {p : Packet} {t k : Nat} (ht : t ≤ 255) :
    (prepareNdMessage d t k).hits q p = true ↔ p.family = .IPv6 ∧ p.payload = .icmp t := by
  have htype : prepareIcmpType t = t := by
    have hv : PData9885.validate t = true := by
      simp only [PData9885.validate, decide_eq_true_eq]
      omega
    simp [prepareIcmpType, setValue, hv]
  simp only [prepareNdMessage, Rule.hits_iff, Option.some.injEq, exists_eq_left', htype]
  cases hpay : p.payload with
  | icmp s =>
      simp only [Protocol.hits, Option.all_some, decide_eq_true_eq, Nat.cast_inj,
        Payload.icmp.injEq, IpAttributes.hits, addrHits, Option.all_none, Bool.and_self, true_and]
      exact and_congr eq_comm eq_comm
  | _ => simp [Protocol.hits]

/-- Of a packet that came this far only the neighbour discovery messages pass. -/
theorem deny_decides (p : Packet) (n : Nat) :
    firstMatch (fun r => r.hits q p) (fun r => r.attributes.action)
      (prepareDefaultDeny p.direction n) ≠ some .Drop ↔ p.NeighbourDiscovery := by
  set messages := nd_messages_ids.mapIdx fun i nd_message_id =>
    prepareNdMessage p.direction nd_message_id (n + i) with hmessages
  have hreturn : ∀ r ∈ messages, r.attributes.action = .Return := by
    intro r hr
    obtain ⟨i, hi, rfl⟩ := List.mem_mapIdx.mp hr
    rfl
  have hany : (messages.any fun r => r.hits q p) = true ↔ p.NeighbourDiscovery := by
    simp only [hmessages, nd_messages_ids, List.mapIdx_cons, List.mapIdx_nil, List.any_cons,
      List.any_nil, Bool.or_false, Bool.or_eq_true]
    rw [nd_hits (by decide), nd_hits (by decide), nd_hits (by decide), nd_hits (by decide)]
    simp only [Packet.NeighbourDiscovery, List.mem_cons, List.not_mem_nil, or_false,
      exists_eq_or_imp, exists_eq_left]
    tauto
  have hdrop : firstMatch (fun r => r.hits q p) (fun r => r.attributes.action)
      [prepareIpRule [] {} {} ⟨.Drop, p.direction, n + 4⟩,
        prepareIpv6Rule [] {} {} ⟨.Drop, p.direction, n + 5⟩] = some .Drop := by
    rw [firstMatch_uniform (v := .Drop) (by simp [prepareIpRule, prepareIpv6Rule]), if_pos]
    simp only [List.any_cons, List.any_nil, Bool.or_false, Bool.or_eq_true]
    cases hf : p.family with
    | IPv4 => exact .inl (catchAll_hits hf)
    | IPv6 => exact .inr (catchAll_hits hf)
  rw [prepareDefaultDeny, firstMatch_append, hdrop, firstMatch_uniform hreturn]
  by_cases hnd : p.NeighbourDiscovery
  · simp [hany.mpr hnd, hnd]
  · have hnone : (messages.any fun r => r.hits q p) = false := by
      rw [← Bool.not_eq_true, hany]
      exact hnd
    simp [hnone, hnd]

def CVmNetFirewall.WellFormed (q : QHostAddress) (firewall : CVmNetFirewall) : Prop :=
  ∀ d direction, firewall.direction d = some direction →
    ∀ rule ∈ direction.firewallRules, rule.WellFormed q

/-- What passes is what the direction lets pass with each rule as it is read. -/
theorem passes_iff (hq : q.HostPrefix) {firewall : CVmNetFirewall} (h : firewall.WellFormed q)
    {p : Packet} {direction : CVmNetFirewallDirection}
    (hdir : firewall.direction p.direction = some direction) :
    passes q (prepareFirewall q firewall) p = true ↔
      direction.LetsPass (fun rule => rule.Read q) p := by
  obtain ⟨n, hn⟩ := evaluate_direction (q := q) firewall p
  have hreturn : ∀ r ∈ prepareAllowEstablished p.direction n, r.attributes.action = .Return := by
    simp [prepareAllowEstablished, prepareIpRule, prepareIpv6Rule]
  have hwf : ∀ rule ∈ direction.firewallRules, rule.WellFormed q := h p.direction direction hdir
  have hruled : ((blocks q p.direction (ruleAction direction.defaultPolicy) (n + 2)
      direction.firewallRules).flatten.any fun r => r.hits q p) = true ↔
        ∃ rule ∈ direction.firewallRules, rule.Read q p := blocks_hits hq hwf
  have hactions : ∀ r ∈ (blocks q p.direction (ruleAction direction.defaultPolicy) (n + 2)
      direction.firewallRules).flatten,
        r.attributes.action = ruleAction direction.defaultPolicy :=
    fun r hr => (blocks_attributes hr).2
  simp only [passes, hn, hdir, partRules, Option.elim_some, directionRules, firstMatch_append,
    firstMatch_uniform hreturn, firstMatch_uniform hactions, bne_iff_ne]
  unfold CVmNetFirewallDirection.LetsPass
  by_cases hest : p.Established
  · simp [(established_hits (q := q) p n).mpr hest, hest]
  have hnone : ((prepareAllowEstablished p.direction n).any fun r => r.hits q p) = false := by
    rw [← Bool.not_eq_true, established_hits]
    exact hest
  simp only [hnone, Bool.false_eq_true, if_false, Option.none_or, hest, false_or, ← hruled]
  generalize (blocks q p.direction (ruleAction direction.defaultPolicy) (n + 2)
    direction.firewallRules).flatten = ruled
  generalize (ruled.any fun r => r.hits q p) = taken
  cases hpolicy : direction.defaultPolicy with
  | PFP_ACCEPT => cases taken <;> simp [ruleAction, denyRules, firstMatch]
  | PFP_DENY =>
      cases taken with
      | true => simp [ruleAction]
      | false => simp [denyRules, deny_decides]

end DispService.Nwfilter
