import DispService.Lib.Holders
import Mathlib.Data.List.Nodup
import Mathlib.Logic.Function.Basic

/-! The routes of the adapters of a virtual machine. They are set and removed by pavers, which one
thread runs in the order in which they are queued. -/
namespace DispService.Routing
open Lib.Holders

inductive EmulatedType where
  | host_only | shared | bridge | direct_assign | bridged_network | routed
  deriving DecidableEq

structure GenericNetworkAdapter where
  hostInterfaceName : String
  emulatedType : EmulatedType
  netAddresses : List String
  deriving DecidableEq

/-- The host interface names tell the adapters apart. -/
structure VmConfiguration where
  m_lstNetworkAdapters : List GenericNetworkAdapter
  distinct : (m_lstNetworkAdapters.map (·.hostInterfaceName)).Nodup

structure Paver where
  m_adapter : GenericNetworkAdapter
  m_enable : Bool

def find (adapter_ : GenericNetworkAdapter) (search_ : List GenericNetworkAdapter) : Bool :=
  match search_.find? fun it => it.hostInterfaceName = adapter_.hostInterfaceName with
  | none => false
  | some it => it.emulatedType = .routed && it.netAddresses = adapter_.netAddresses

def configure (config_ : VmConfiguration) (enable_ : Bool) : List Paver :=
  (config_.m_lstNetworkAdapters.filter fun a => a.emulatedType = .routed).map (⟨·, enable_⟩)

def up (config_ : VmConfiguration) : List Paver := configure config_ true

def down (config_ : VmConfiguration) : List Paver := configure config_ false

/-- The partition moves the adapters that are not found to the end, in an order of its own. -/
def Reconfigured (old_ new_ : VmConfiguration) (pavers : List Paver) : Prop :=
  ∃ o n : List GenericNetworkAdapter,
    o.Perm (old_.m_lstNetworkAdapters.filter fun a => !find a new_.m_lstNetworkAdapters) ∧
    n.Perm (new_.m_lstNetworkAdapters.filter fun a => !find a old_.m_lstNetworkAdapters) ∧
    pavers = o.map (⟨·, false⟩) ++ n.map (⟨·, true⟩)

section Host

variable {Addr : Type} [DecidableEq Addr]

/-- What the pavers ask of the host: the destination of an address text, and whether an interface
with the name exists. -/
structure Host (Addr : Type) where
  ParseIpMask : String → Option Addr
  present : String → Bool

variable (host : Host Addr)

/-- A request to delete a route names its device. -/
def SetRouteToDevice (ip : Addr) (devName : String) (add : Bool) (routes : Addr → Option String) :
    Addr → Option String :=
  if host.present devName then
    if add then Function.update routes ip (some devName)
    else if routes ip = some devName then Function.update routes ip none
    else routes
  else routes

def updateAdapter (routes : Addr → Option String) (paver : Paver) : Addr → Option String :=
  if paver.m_adapter.emulatedType = .routed then
    paver.m_adapter.netAddresses.foldl (fun routes ip_mask =>
      match host.ParseIpMask ip_mask with
      | none => routes
      | some ip => SetRouteToDevice host ip paver.m_adapter.hostInterfaceName paver.m_enable routes)
      routes
  else routes

def run (routes : Addr → Option String) (pavers : List Paver) : Addr → Option String :=
  pavers.foldl (updateAdapter host) routes

/-- The adapter has a route to the address when it is up. -/
def lists (adapter : GenericNetworkAdapter) (ip : Addr) : Bool :=
  adapter.emulatedType = .routed && host.present adapter.hostInterfaceName &&
    (adapter.netAddresses.filterMap host.ParseIpMask).contains ip

variable {host}

/-- One request after the other changes just the destinations that are named. -/
theorem foldl_enable (devName : String) (hpresent : host.present devName = true)
    (texts : List String) (routes : Addr → Option String) (x : Addr) :
    texts.foldl (fun routes ip_mask =>
      match host.ParseIpMask ip_mask with
      | none => routes
      | some ip => SetRouteToDevice host ip devName true routes) routes x =
      if x ∈ texts.filterMap host.ParseIpMask then some devName else routes x := by
  induction texts generalizing routes with
  | nil => simp
  | cons text texts ih =>
      rw [List.foldl_cons, ih]
      cases hip : host.ParseIpMask text with
      | none => simp [hip]
      | some ip =>
          by_cases hx : x = ip <;> simp [hip, SetRouteToDevice, hpresent, hx]

theorem foldl_disable (devName : String) (hpresent : host.present devName = true)
    (texts : List String) (routes : Addr → Option String) (x : Addr) :
    texts.foldl (fun routes ip_mask =>
      match host.ParseIpMask ip_mask with
      | none => routes
      | some ip => SetRouteToDevice host ip devName false routes) routes x =
      if x ∈ texts.filterMap host.ParseIpMask ∧ routes x = some devName then none
      else routes x := by
  induction texts generalizing routes with
  | nil => simp
  | cons text texts ih =>
      rw [List.foldl_cons, ih]
      cases hip : host.ParseIpMask text with
      | none => simp [hip]
      | some ip =>
          have hset : SetRouteToDevice host ip devName false routes x =
              if x = ip ∧ routes x = some devName then none else routes x := by
            unfold SetRouteToDevice
            by_cases hx : x = ip <;> by_cases hroute : routes ip = some devName <;>
              simp [hpresent, hx, hroute]
          simp only [hset, List.filterMap_cons_some hip, List.mem_cons]
          by_cases hroute : routes x = some devName <;> by_cases hx : x = ip <;> simp [hroute, hx]

theorem foldl_absent (devName : String) (add : Bool) (hpresent : host.present devName = false)
    (texts : List String) (routes : Addr → Option String) :
    texts.foldl (fun routes ip_mask =>
      match host.ParseIpMask ip_mask with
      | none => routes
      | some ip => SetRouteToDevice host ip devName add routes) routes = routes := by
  induction texts with
  | nil => rfl
  | cons text texts ih =>
      rw [List.foldl_cons]
      cases hip : host.ParseIpMask text with
      | none => exact ih
      | some ip => simpa [SetRouteToDevice, hpresent] using ih

theorem updateAdapter_enable (routes : Addr → Option String) (a : GenericNetworkAdapter) :
    updateAdapter host routes ⟨a, true⟩ =
      claim GenericNetworkAdapter.hostInterfaceName (lists host) routes a := by
  funext x
  unfold updateAdapter claim lists
  by_cases htype : a.emulatedType = .routed
  · cases hpresent : host.present a.hostInterfaceName with
    | false => simp [htype, hpresent, foldl_absent _ _ hpresent]
    | true => simp [htype, hpresent, foldl_enable _ hpresent]
  · simp [htype]

theorem updateAdapter_disable (routes : Addr → Option String) (a : GenericNetworkAdapter) :
    updateAdapter host routes ⟨a, false⟩ =
      release GenericNetworkAdapter.hostInterfaceName (lists host) routes a := by
  funext x
  unfold updateAdapter release lists
  by_cases htype : a.emulatedType = .routed
  · cases hpresent : host.present a.hostInterfaceName with
    | false => simp [htype, hpresent, foldl_absent _ _ hpresent]
    | true => simp [htype, hpresent, foldl_disable _ hpresent]
  · simp [htype]

end Host

end DispService.Routing
