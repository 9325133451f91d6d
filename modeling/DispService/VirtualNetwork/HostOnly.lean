import DispService.Lib.Prefix
import Mathlib.Tactic.Common

/-! The check of a host-only network: its mask, the addresses of the host and of the DHCP server,
and the range of addresses that the server gives out. Addresses are numbers of 32 bits. -/
namespace DispService.VirtualNetwork

open Lib

/-- The results of the check. -/
inductive NetValid where
  | success
  | failure
  | wrongNetMask
  | wrongHostIpAddr
  | wrongDhcpIpAddr
  | dhcpRangeWrongIpAddrs
  | mismatchDhcpScopeMask
  | dhcpScopeRangeLessMin
deriving DecidableEq, Repr

/-- What is read of a `CDHCPServer`; an address is what `toIPv4Address` makes of it. -/
structure Dhcp where
  isEnabled : Bool
  ipScopeStart : UInt32
  ipScopeEnd : UInt32
deriving DecidableEq

structure HostOnly where
  ipNetMask : UInt32
  hostIPAddress : UInt32
  dhcpIPAddress : UInt32
  dhcpServer : Option Dhcp
deriving DecidableEq

/-- The loop of `validateIp`: no byte is full, up to the highest one that is not zero. -/
def bytesValid (ipAddr : Nat) : Bool :=
  if ipAddr = 0 then true
  else if ipAddr &&& 0xff == 0xff then false
  else bytesValid (ipAddr >>> 8)
termination_by ipAddr
decreasing_by
  rw [Nat.shiftRight_eq_div_pow]
  exact Nat.div_lt_self (by omega) (by decide)

def validateIp (ipAddr : UInt32) : Bool :=
  if ipAddr == 0 then false else bytesValid ipAddr.toNat

/-- The loop of `validateNetMask`, which ends above the highest one bit. -/
def onesValid (bNeedOne : Bool) (netMask : Nat) : Bool :=
  if netMask = 0 then true
  else
    let bit := netMask &&& 1
    if bNeedOne && bit == 0 then false
    else onesValid (bNeedOne || bit == 1) (netMask >>> 1)
termination_by netMask
decreasing_by
  rw [Nat.shiftRight_eq_div_pow]
  exact Nat.div_lt_self (by omega) (by decide)

def validateNetMask (netMask : UInt32) : Bool :=
  if netMask &&& 0x10000000 == 0 then false
  else if 0 != netMask &&& 0x1f then false
  else onesValid false netMask.toNat

/-- The check of the range, for a server that is enabled. -/
def validateScope (scopeMask : UInt32) (dhcp : Dhcp) : NetValid :=
  let scopeStart := dhcp.ipScopeStart
  let scopeEnd := dhcp.ipScopeEnd
  if !validateIp scopeStart || !validateIp scopeEnd then .dhcpRangeWrongIpAddrs
  else if scopeEnd &&& scopeMask != scopeStart &&& scopeMask then .mismatchDhcpScopeMask
  else
    let range := (scopeEnd - scopeStart).toInt32
    if range < 15 then .dhcpScopeRangeLessMin else .success

/-- The check of a network with the parameters of its host-only part, if it has one. -/
def validateHostOnlyNetworkParams (hostOnly : Option HostOnly) : NetValid :=
  match hostOnly with
  | none => .failure
  | some h =>
      if !validateNetMask h.ipNetMask then .wrongNetMask
      else if !validateIp h.hostIPAddress then .wrongHostIpAddr
      else if !validateIp h.dhcpIPAddress then .wrongDhcpIpAddr
      else
        match h.dhcpServer with
        | some dhcp => if dhcp.isEnabled then validateScope h.ipNetMask dhcp else .success
        | none => .success

/-- The network of an address. -/
def networkOf (mask address : UInt32) : UInt32 :=
  address &&& mask

/-- A mask of networks of `2 ^ k` addresses, at least 32 of them. -/
def Prefixed (mask : UInt32) : Prop :=
  ∃ k, 5 ≤ k ∧ k < 32 ∧ mask.toNat = topMask 32 k

/-- The whole range lies in one network of the mask, and its end is no less than 15 above its
start. -/
structure Ranged (mask : UInt32) (dhcp : Dhcp) : Prop where
  network : ∀ a, dhcp.ipScopeStart ≤ a → a ≤ dhcp.ipScopeEnd →
    networkOf mask a = networkOf mask dhcp.ipScopeStart
  ordered : dhcp.ipScopeStart.toNat + 15 ≤ dhcp.ipScopeEnd.toNat
  /-- The difference of 32 bits is the true one. -/
  exact : (dhcp.ipScopeEnd - dhcp.ipScopeStart).toInt32.toInt =
    (dhcp.ipScopeEnd.toNat : Int) - dhcp.ipScopeStart.toNat
  start : validateIp dhcp.ipScopeStart = true
  stop : validateIp dhcp.ipScopeEnd = true

/-- What the check promises of a network. -/
structure Sound (h : HostOnly) : Prop where
  mask : Prefixed h.ipNetMask
  host : validateIp h.hostIPAddress = true
  dhcp : validateIp h.dhcpIPAddress = true
  range : ∀ d ∈ h.dhcpServer, d.isEnabled = true → Ranged h.ipNetMask d

/-- All addresses of the network besides: that of the host lies in the network of the range. -/
structure Enclosed (h : HostOnly) : Prop extends Sound h where
  inside : ∀ d ∈ h.dhcpServer, d.isEnabled = true →
    networkOf h.ipNetMask h.hostIPAddress = networkOf h.ipNetMask d.ipScopeStart

theorem onesValid_even {bNeedOne : Bool} {n : Nat} (hn : n ≠ 0) (hbit : n % 2 = 0) :
    onesValid bNeedOne n = (!bNeedOne && onesValid false (n / 2)) := by
  rw [onesValid, if_neg hn, Nat.and_one_is_mod, Nat.shiftRight_one, hbit]
  cases bNeedOne <;> rfl

theorem onesValid_odd {bNeedOne : Bool} {n : Nat} (hn : n ≠ 0) (hbit : n % 2 = 1) :
    onesValid bNeedOne n = onesValid true (n / 2) := by
  rw [onesValid, if_neg hn, Nat.and_one_is_mod, Nat.shiftRight_one, hbit]
  cases bNeedOne <;> rfl

/-- Below a one bit the loop accepts ones alone. -/
theorem onesValid_ones {n : Nat} (h : onesValid true n = true) : ∃ j, n = 2 ^ j - 1 := by
  induction n using Nat.strongRecOn with
  | ind n ih =>
    by_cases hn : n = 0
    · exact ⟨0, hn⟩
    obtain hzero | hone : n % 2 = 0 ∨ n % 2 = 1 := by omega
    · rw [onesValid_even hn hzero] at h
      cases h
    · rw [onesValid_odd hn hone] at h
      obtain ⟨j, hj⟩ := ih (n / 2) (by omega) h
      exact ⟨j + 1, ones_step hone hj⟩

/-- The loop accepts one run of ones. -/
theorem onesValid_run {n : Nat} (h : onesValid false n = true) : ∃ k j, OnesAbove k j n := by
  induction n using Nat.strongRecOn with
  | ind n ih =>
    by_cases hn : n = 0
    · exact ⟨0, 0, OnesAbove.of_ones hn⟩
    obtain hzero | hone : n % 2 = 0 ∨ n % 2 = 1 := by omega
    · rw [onesValid_even hn hzero] at h
      obtain ⟨k, j, hrun⟩ := ih (n / 2) (by omega) h
      exact ⟨k + 1, j, hrun.step hzero⟩
    · rw [onesValid_odd hn hone] at h
      obtain ⟨j, hj⟩ := onesValid_ones h
      exact ⟨0, j + 1, OnesAbove.of_ones (ones_step hone hj)⟩

/-- A mask that is accepted and has its highest bit set has all its ones at the top. -/
theorem validateNetMask_prefixed {netMask : UInt32} (h : validateNetMask netMask = true)
    (top : 0x80000000 ≤ netMask) : Prefixed netMask := by
  have htop : 2 ^ (32 - 1) ≤ netMask.toNat := by
    simpa [UInt32.le_iff_toNat_le] using top
  rw [validateNetMask] at h
  split at h
  · cases h
  split at h
  · cases h
  next hlow =>
    obtain ⟨k, j, hrun⟩ := onesValid_run h
    have hmod : netMask.toNat % 2 ^ 5 = 0 := by
      have heq : (0 : UInt32) = netMask &&& 0x1f := by simpa using hlow
      have hnat := congrArg UInt32.toNat heq
      rw [UInt32.toNat_and] at hnat
      rw [← Nat.and_two_pow_sub_one_eq_mod]
      exact hnat.symm
    obtain ⟨heq, hlt⟩ := hrun.top netMask.toNat_lt htop (by decide)
    exact ⟨k, hrun.le (by omega) hmod, hlt, heq⟩

/-- The difference of two addresses, as the signed number it is stored in. -/
theorem sub_toInt32 (a b : UInt32) :
    (a - b).toInt32.toInt = Int.bmod ((a.toNat : Int) - b.toNat) (2 ^ 32) := by
  rw [UInt32.toInt32_sub, Int32.toInt_sub]
  change Int.bmod (a.toBitVec.toInt - b.toBitVec.toInt) _ = _
  rw [BitVec.toInt_eq_toNat_bmod, BitVec.toInt_eq_toNat_bmod, Int.bmod_sub_bmod, Int.sub_bmod_bmod]
  rfl

theorem validateScope_ranged {mask : UInt32} {dhcp : Dhcp} (hmask : Prefixed mask)
    (h : validateScope mask dhcp = .success) : Ranged mask dhcp := by
  obtain ⟨k, hlow, hhigh, hk⟩ := hmask
  rw [validateScope] at h
  dsimp only at h
  split at h
  · cases h
  next hips =>
    split at h
    · cases h
    next hnet =>
      split at h
      · cases h
      next hrange =>
        have hnetwork : dhcp.ipScopeEnd &&& mask = dhcp.ipScopeStart &&& mask := by
          simpa using hnet
        have hnat := congrArg UInt32.toNat hnetwork
        rw [UInt32.toNat_and, UInt32.toNat_and, hk] at hnat
        have hstart := dhcp.ipScopeStart.toNat_lt
        have hend := dhcp.ipScopeEnd.toNat_lt
        have habove := same_network hend hstart hhigh.le hnat
        have hbelow := same_network hstart hend hhigh.le hnat.symm
        have hsize : 2 ^ k ≤ 2 ^ 31 := Nat.pow_le_pow_right (by decide) (by omega)
        have hexact : (dhcp.ipScopeEnd - dhcp.ipScopeStart).toInt32.toInt =
            (dhcp.ipScopeEnd.toNat : Int) - dhcp.ipScopeStart.toNat := by
          rw [sub_toInt32]
          apply Int.bmod_eq_of_le <;> omega
        have hfar : (15 : Int) ≤ (dhcp.ipScopeEnd - dhcp.ipScopeStart).toInt32.toInt := by
          simpa [Int32.lt_iff_toInt_lt] using hrange
        simp only [Bool.or_eq_true, Bool.not_eq_true', not_or, Bool.not_eq_false] at hips
        exact {
          network := by
            intro a hleft hright
            rw [UInt32.le_iff_toNat_le] at hleft hright
            apply UInt32.toNat.inj
            rw [networkOf, networkOf, UInt32.toNat_and, UInt32.toNat_and, hk]
            exact between_network hend hhigh.le hleft hright hnat.symm
          ordered := by omega
          exact := hexact
          start := hips.1
          stop := hips.2 }

/-- A description that is accepted, with a mask whose highest bit is set, is sound. -/
theorem validateHostOnlyNetworkParams_sound (h : HostOnly)
    (accepted : validateHostOnlyNetworkParams (some h) = .success)
    (top : 0x80000000 ≤ h.ipNetMask) : Sound h := by
  rw [validateHostOnlyNetworkParams] at accepted
  split at accepted
  · cases accepted
  next hmask =>
    split at accepted
    · cases accepted
    next hhost =>
      split at accepted
      · cases accepted
      next hdhcp =>
        have hprefixed : Prefixed h.ipNetMask := validateNetMask_prefixed (by simpa using hmask) top
        refine ⟨hprefixed, by simpa using hhost, by simpa using hdhcp, ?_⟩
        intro d hd henabled
        rw [Option.mem_def] at hd
        rw [hd] at accepted
        change (if d.isEnabled = true then _ else _) = _ at accepted
        rw [if_pos henabled] at accepted
        exact validateScope_ranged hprefixed accepted

/-- The parameters that a host-only network gets by default. -/
theorem validateHostOnlyNetworkParams_sound_default :
    Sound ⟨0xFFFFFF00, 0x0A258202, 0x0A258201, some ⟨true, 0x0A258201, 0x0A2582FE⟩⟩ :=
  validateHostOnlyNetworkParams_sound _ (by decide +kernel) (by decide)

/-- The address of the host is compared with no other one: 10.0.0.1 with a range in 10.37.130. -/
theorem validateHostOnlyNetworkParams_apart :
    ∃ h : HostOnly, validateHostOnlyNetworkParams (some h) = .success ∧ ¬Enclosed h := by
  refine ⟨⟨0xFFFFFF00, 0x0A000001, 0x0A258201, some ⟨true, 0x0A258201, 0x0A2582FE⟩⟩, ?_, ?_⟩
  · decide +kernel
  · intro h
    have hnet := h.inside _ rfl rfl
    exact absurd hnet (by decide)

end DispService.VirtualNetwork
