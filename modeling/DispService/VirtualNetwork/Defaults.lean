import DispService.Lib.Objects
import Mathlib.Tactic.Common

/-! The default networks of the host: the shared one, the host-only one, and on a server the one
that is bridged to the default adapter of the moment. -/
namespace DispService.VirtualNetwork

open Lib

inductive PrlApplicationMode where
  | server
  | workstationExtreme
  | unknown
deriving DecidableEq, Repr

inductive PrlVirtNetworkType where
  | hostOnly
  | bridgedEthernet
deriving DecidableEq, Repr

/-- An IPv6 address, the highest group first. -/
abbrev Q_IPV6ADDR := Vector UInt16 8

/-- `IPV6_ADD_VALUE_AT_POS`: the groups are numbered from the lowest one. -/
def Q_IPV6ADDR.addValueAtPos (ipv6 : Q_IPV6ADDR) (pos : Fin 8) (val : UInt16) : Q_IPV6ADDR :=
  ipv6.set (7 - pos.val) (ipv6[7 - pos.val] + val)

structure CVirtuozzoAdapter where
  hiddenAdapter : Bool
  name : String
  prlAdapterIndex : UInt32
deriving DecidableEq

structure CDHCPServer (α : Type) where
  isEnabled : Bool
  ipScopeStart : α
  ipScopeEnd : α
deriving DecidableEq

structure CNATServer where
  isEnabled : Bool
deriving DecidableEq

structure CHostOnlyNetwork where
  dhcpIPAddress : UInt32
  hostIPAddress : UInt32
  ipNetMask : UInt32
  dhcpIP6Address : Q_IPV6ADDR
  hostIP6Address : Q_IPV6ADDR
  ip6NetMask : Q_IPV6ADDR
  virtuozzoAdapter : Option CVirtuozzoAdapter
  dhcpServer : Option (CDHCPServer UInt32)
  dhcpv6Server : Option (CDHCPServer Q_IPV6ADDR)
  natServer : Option CNATServer
deriving DecidableEq

structure CVirtualNetwork where
  isEnabled : Bool
  networkID : String
  networkType : PrlVirtNetworkType
  description : String
  boundCardMac : String
  vlanTag : UInt16
  hostOnlyNetwork : Option CHostOnlyNetwork
deriving DecidableEq

/-- The networks of the configuration, `m_lstVirtualNetwork` being a list of pointers. -/
abbrev CVirtualNetworks := Objects CVirtualNetwork

structure EthernetAdapter where
  adapterIndex : UInt32
  vlanTag : UInt16
  macAddr : Vector UInt8 6
  bEnabled : Bool
deriving DecidableEq

/-- What the function is told from outside. -/
structure Host where
  /-- Whether it is built for Linux. -/
  lin : Bool
  appExecuteMode : PrlApplicationMode
  /-- The list that `makeBindableAdapterList` makes, or its failure. -/
  bindableAdapters : Option (List EthernetAdapter)
  /-- The interface of the default route, with its VLAN tag. -/
  defaultRoute : Option (UInt16 × Vector UInt8 6)
  ethAddressToString : Vector UInt8 6 → String
  /-- The default of the parameter of `setHiddenAdapter`. -/
  hiddenAdapter : Bool
  newVirtualNetwork : CVirtualNetwork
  /-- A new network has no id. -/
  unnamed : newVirtualNetwork.networkID = ""

def prlAdapterStartIndex : UInt32 := 0x10000000

/-- `PRLNET_SRV_DEFAULT_BRIDGED_ID`. -/
def srvDefaultBridgedID : String := "Bridged"

namespace PrlNet

def getDefaultAdapterName (nAdapterIndex : UInt32) (bSharedEnabled : Bool) : String :=
  let nAdapterIndex := nAdapterIndex &&& (prlAdapterStartIndex - 1)
  if nAdapterIndex == 0 && bSharedEnabled then "Virtuozzo Shared #" ++ toString nAdapterIndex
  else "Virtuozzo Host-Only #" ++ toString nAdapterIndex

def getDefaultVirtualNetworkID (nAdapterIndex : UInt32) (bSharedEnabled : Bool) : String :=
  if bSharedEnabled && nAdapterIndex == 0 then "Shared"
  else if bSharedEnabled && nAdapterIndex == 1 then "Host-Only"
  else if nAdapterIndex == 0 then "Host-Only"
  else "Host-Only #" ++ toString nAdapterIndex

def getDefaultVirtualNetworkDescription (nAdapterIndex : UInt32) (bSharedEnabled : Bool) :
    String :=
  if bSharedEnabled && nAdapterIndex == 0 then "Shared Networking"
  else if bSharedEnabled && nAdapterIndex == 1 then "Host Only Networking"
  else if nAdapterIndex == 0 then "Host Only Networking"
  else "Host Only Network #" ++ toString nAdapterIndex

/-- The start and the end of the range, and the mask. -/
def getDefaultDhcpParams (nAdapterIndex : UInt32) : UInt32 × UInt32 × UInt32 :=
  let scopeMask : UInt32 := 0xFFFFFF00
  let scopeSubnet := 0x0A258200 + nAdapterIndex * 256
  (scopeSubnet + 1, (scopeSubnet ||| ~~~scopeMask) - 1, scopeMask)

def getDefaultDhcpV6Params (nAdapterIndex : UInt32) : Q_IPV6ADDR × Q_IPV6ADDR × Q_IPV6ADDR :=
  let scopeMask : Q_IPV6ADDR := #v[0xffff, 0xffff, 0xffff, 0xffff, 0, 0, 0, 0]
  let scopeSubnet : Q_IPV6ADDR := #v[0xfdb2, 0x2c26, 0xf4e4, 0, 0, 0, 0, 0]
  let scopeSubnet := scopeSubnet.addValueAtPos 4 nAdapterIndex.toUInt16
  let scopeEnd := scopeSubnet.addValueAtPos 0 0xffff
  let scopeEnd := scopeEnd.addValueAtPos 1 0xffff
  let scopeEnd := scopeEnd.addValueAtPos 2 0xffff
  let scopeEnd := scopeEnd.addValueAtPos 3 0xffff
  (scopeSubnet.addValueAtPos 0 0, scopeEnd, scopeMask)

/-- The parameters of the host-only part. All of them are set, in a part that is there and in a new
one. -/
def defaultHostOnlyNetwork (host : Host) (nAdapterIndex : UInt32) (bSharedEnabled : Bool) :
    CHostOnlyNetwork :=
  let (dhcpScopeStartIp, dhcpScopeEndIp, dhcpScopeMask) := getDefaultDhcpParams nAdapterIndex
  let (dhcp6ScopeStartIp, dhcp6ScopeEndIp, dhcp6ScopeMask) := getDefaultDhcpV6Params nAdapterIndex
  { dhcpIPAddress := dhcpScopeStartIp
    hostIPAddress := dhcpScopeStartIp + 1
    ipNetMask := dhcpScopeMask
    dhcpIP6Address := dhcp6ScopeStartIp
    hostIP6Address := dhcp6ScopeStartIp.addValueAtPos 0 1
    ip6NetMask := dhcp6ScopeMask
    virtuozzoAdapter := some {
      hiddenAdapter := host.hiddenAdapter
      name := getDefaultAdapterName nAdapterIndex bSharedEnabled
      prlAdapterIndex := nAdapterIndex }
    dhcpServer := some ⟨true, dhcpScopeStartIp, dhcpScopeEndIp⟩
    dhcpv6Server := some ⟨true, dhcp6ScopeStartIp, dhcp6ScopeEndIp⟩
    natServer := some ⟨nAdapterIndex == 0 && bSharedEnabled⟩ }

def fillDefaultVirtualNetworkParams (host : Host) (nAdapterIndex : UInt32) (bSharedEnabled : Bool)
    (network : CVirtualNetwork) : CVirtualNetwork :=
  { network with
    networkType := .hostOnly
    networkID :=
      if network.networkID = "" then getDefaultVirtualNetworkID nAdapterIndex bSharedEnabled
      else network.networkID
    description :=
      if network.description = "" then
        getDefaultVirtualNetworkDescription nAdapterIndex bSharedEnabled
      else network.description
    hostOnlyNetwork := some (defaultHostOnlyNetwork host nAdapterIndex bSharedEnabled) }

/-- The test of `GetNetworkByVirtuozzoAdapter`. -/
def hasVirtuozzoAdapter (nAdapterIndex : UInt32) (network : CVirtualNetwork) : Bool :=
  network.networkType == .hostOnly &&
    match network.hostOnlyNetwork.bind CHostOnlyNetwork.virtuozzoAdapter with
    | some adapter => adapter.prlAdapterIndex == nAdapterIndex
    | none => false

def getNetworkByVirtuozzoAdapter (networks : CVirtualNetworks) (nAdapterIndex : UInt32) :
    Option Nat :=
  networks.first (hasVirtuozzoAdapter nAdapterIndex)

/-- The test of `GetNetworkByBoundCardMacAndVLANTag`. -/
def isBound (mac : String) (vlanTag : UInt16) (network : CVirtualNetwork) : Bool :=
  network.networkType == .bridgedEthernet && network.boundCardMac == mac &&
    network.vlanTag == vlanTag

def getNetworkByBoundCardMacAndVLANTag (networks : CVirtualNetworks) (mac : String)
    (vlanTag : UInt16) : Option Nat :=
  networks.first (isBound mac vlanTag)

def getVirtualNetworkByID (networks : CVirtualNetworks) (networkID : String) : Option Nat :=
  networks.first fun network => network.networkID == networkID

def isSharedEnabled (host : Host) : Bool :=
  !(host.lin && host.appExecuteMode == .server)

def getDefaultBridgedAdapter (host : Host) (adaptersList : List EthernetAdapter) :
    Option EthernetAdapter :=
  host.defaultRoute.bind fun (vlanTag, macAddr) =>
    adaptersList.find? fun adapter => adapter.vlanTag == vlanTag && adapter.macAddr == macAddr

def getFirstAdapter (adaptersList : List EthernetAdapter) : Option EthernetAdapter :=
  adaptersList.find? fun adapter =>
    !(adapter.adapterIndex &&& prlAdapterStartIndex != 0 || !adapter.bEnabled)

/-- The adapter that the bridged network is to be bound to. -/
def defaultAdapter (host : Host) : Option EthernetAdapter :=
  host.bindableAdapters.bind fun ethList =>
    (getDefaultBridgedAdapter host ethList).or (getFirstAdapter ethList)

/-- The settings of the bridged network. -/
def bridge (mac : String) (vlanTag : UInt16) (network : CVirtualNetwork) : CVirtualNetwork :=
  { network with
    isEnabled := true
    networkID := srvDefaultBridgedID
    networkType := .bridgedEthernet
    description := "Bridged Network"
    boundCardMac := mac
    vlanTag := vlanTag }

/-- A network of the adapter, which is added if there is none, with default parameters. -/
def provide (host : Host) (nAdapterIndex : UInt32) (networks : CVirtualNetworks) :
    CVirtualNetworks :=
  networks.ensure (hasVirtuozzoAdapter nAdapterIndex) host.newVirtualNetwork
    (fillDefaultVirtualNetworkParams host nAdapterIndex (isSharedEnabled host))

/-- The part for the default adapter. The network that is found by its id stays in the list, and is
appended to it once more. -/
def fillBridged (host : Host) (adapter : EthernetAdapter) (networks : CVirtualNetworks) :
    CVirtualNetworks :=
  let mac := host.ethAddressToString adapter.macAddr
  match getNetworkByBoundCardMacAndVLANTag networks mac adapter.vlanTag with
  | some _ => networks
  | none =>
      match getVirtualNetworkByID networks srvDefaultBridgedID with
      | some r => (networks.put r (bridge mac adapter.vlanTag)).append r
      | none => networks.push (bridge mac adapter.vlanTag host.newVirtualNetwork)

def fillDefaultBridged (host : Host) (networks : CVirtualNetworks) : CVirtualNetworks :=
  if host.appExecuteMode ≠ .server then networks
  else
    match defaultAdapter host with
    | none => networks
    | some adapter => fillBridged host adapter networks

/-- The adapter of the host-only network. -/
def hostOnlyIndex (host : Host) : UInt32 :=
  if isSharedEnabled host then 1 else 0

def fillDefaultNetworks (host : Host) (networks : CVirtualNetworks) : CVirtualNetworks :=
  let networks := if isSharedEnabled host then provide host 0 networks else networks
  let networks := provide host (hostOnlyIndex host) networks
  fillDefaultBridged host networks

end PrlNet

end DispService.VirtualNetwork
