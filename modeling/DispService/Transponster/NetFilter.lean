import Mathlib.Data.List.Infix
import Mathlib.Data.List.TakeWhile

/-! The packet filter of a network adapter: the reference to a filter of libvirt that stands for it,
and the filter that is read from a reference. -/
namespace DispService.Transponster.NetFilter

abbrev QString := List Char

structure CNetPktFilter where
  filterRef : QString
  m_lstParameters : List (QString × QString)
  preventPromisc : Bool
  preventMacSpoof : Bool
  preventIpSpoof : Bool
deriving DecidableEq

/-- A filter that libvirt knows by name, and its parameters. -/
structure Filterref where
  filter : QString
  parameterList : List (QString × QString)
deriving DecidableEq

inductive BuiltinFilter where
  | custom
  | empty
  | ipSpoofing
  | macSpoofing
  | promisc
deriving DecidableEq

abbrev FilterMask := UInt32

def BuiltinFilter.toMask : BuiltinFilter → FilterMask
  | custom => 0
  | empty => 1
  | ipSpoofing => 2
  | macSpoofing => 4
  | promisc => 8

def S_VZ_FILTER_PREFIX : QString := "vz-filter-".toList

/-- In the order of the keys. -/
def getFilterNames : List (BuiltinFilter × QString) :=
  [(.ipSpoofing, "no-ip-spoofing".toList), (.macSpoofing, "no-mac-spoofing".toList),
    (.promisc, "no-promisc".toList)]

def getBuiltinFilters : List QString :=
  ["".toList, "no-ip-spoofing".toList, "no-ip-spoofing-no-mac-spoofing".toList,
    "no-ip-spoofing-no-mac-spoofing-no-promisc".toList, "no-ip-spoofing-no-promisc".toList,
    "no-mac-spoofing".toList, "no-mac-spoofing-no-promisc".toList, "no-promisc".toList]

/-- The helper between the two. -/
structure NetFilter where
  m_filterref : QString
  m_params : List (QString × QString)

namespace NetFilter

variable (f : NetFilter)

def isCustomFilter : Bool :=
  if S_VZ_FILTER_PREFIX <+: f.m_filterref then false
  else !getBuiltinFilters.contains f.m_filterref

def getFilterMask : FilterMask :=
  if f.isCustomFilter then BuiltinFilter.custom.toMask
  else
    getFilterNames.foldl
      (fun mask e => if e.2 <:+: f.m_filterref then mask ||| e.1.toMask else mask) 0

def isBuiltinFilter (filter : BuiltinFilter) (mask : FilterMask) : Bool :=
  mask &&& filter.toMask != 0

def setFilterByMask (mask : FilterMask) : NetFilter :=
  let filters := (getFilterNames.filter fun e => isBuiltinFilter e.1 mask).map Prod.snd
  { f with m_filterref := List.intercalate ['-'] filters }

def setBuiltinFilter (filter : BuiltinFilter) (value : Bool) : NetFilter :=
  if value then f.setFilterByMask (f.getFilterMask ||| filter.toMask)
  else f.setFilterByMask (f.getFilterMask &&& ~~~ filter.toMask)

def setPreventIpSpoof (value : Bool) : NetFilter := f.setBuiltinFilter .ipSpoofing value

def setVzFilter (mac : QString) : NetFilter := { f with m_filterref := S_VZ_FILTER_PREFIX ++ mac }

def setParams (value : List (QString × QString)) : NetFilter := { f with m_params := value }

end NetFilter

/-- The mask of the flags of a filter. -/
def flagMask (ip mac promisc : Bool) : FilterMask :=
  (if ip then BuiltinFilter.ipSpoofing.toMask else 0) |||
    (if mac then BuiltinFilter.macSpoofing.toMask else 0) |||
    if promisc then BuiltinFilter.promisc.toMask else 0

/-- The flags count where there is no reference of the user. -/
def Flagged (filterRef : QString) : Prop := filterRef = [] ∨ S_VZ_FILTER_PREFIX <+: filterRef

instance (filterRef : QString) : Decidable (Flagged filterRef) :=
  inferInstanceAs (Decidable (_ ∨ _))

/-- `NetFilter(filter_model)` -/
def NetFilter.ofModel (filter_model : CNetPktFilter) : NetFilter :=
  if filter_model.filterRef ≠ [] ∧ ¬ S_VZ_FILTER_PREFIX <+: filter_model.filterRef then
    ⟨filter_model.filterRef, filter_model.m_lstParameters⟩
  else
    NetFilter.setFilterByMask ⟨[], []⟩ (flagMask filter_model.preventIpSpoof
      filter_model.preventMacSpoof filter_model.preventPromisc)

/-- The adapter, as far as its filter depends on it. -/
structure CVmGenericNetworkAdapter where
  pktFilter : CNetPktFilter
  firewallEnabled : Bool
  macAddress : QString
  /-- The addresses of `m_lstPktFilter`. -/
  filterMacs : List QString
  configureWithDhcp : Bool
  netAddresses : List QString

/-- A colon goes between two characters and a third. -/
def normalizeMac : QString → QString
  | a :: b :: c :: rest =>
      if a ≠ ':' ∧ b ≠ ':' ∧ c ≠ ':' then a :: b :: ':' :: normalizeMac (c :: rest)
      else a :: normalizeMac (b :: c :: rest)
  | mac_ => mac_

namespace View

-- How the addresses of a list are told by family is a parameter.
variable (parseIps : List QString → List QString × List QString)

variable (m_network : CVmGenericNetworkAdapter)

def getIpv4 : List QString := (parseIps m_network.netAddresses).1

def getMacList : List QString :=
  let r := (m_network.filterMacs.map normalizeMac).filter fun m => !m.isEmpty
  if r.isEmpty then [normalizeMac m_network.macAddress] else r

def prepareFilterref (filter : NetFilter) : Filterref := ⟨filter.m_filterref, filter.m_params⟩

/-- The adapter has no address of its own to check packets by. -/
def noFixedIp : Bool := m_network.configureWithDhcp || (getIpv4 parseIps m_network).isEmpty

def getPredefinedFilterref : Option Filterref :=
  let filter := NetFilter.ofModel m_network.pktFilter
  let filter :=
    if filter.isCustomFilter then filter
    else
      let filter := if noFixedIp parseIps m_network then filter.setPreventIpSpoof false else filter
      filter.setParams
        ((getIpv4 parseIps m_network).map (fun ip => ("IP".toList, ip.takeWhile (· != '/'))) ++
          (getMacList m_network).map fun mac => ("MAC".toList, mac))
  if filter.m_filterref.isEmpty then none else some (prepareFilterref filter)

def getFilterref : Option Filterref :=
  let filter := NetFilter.ofModel m_network.pktFilter
  if filter.isCustomFilter then some (prepareFilterref filter)
  else if m_network.firewallEnabled then
    some (prepareFilterref (filter.setVzFilter m_network.macAddress))
  else getPredefinedFilterref parseIps m_network

end View

/-- `Builder::setFilter`, where a new filter is what its constructor makes. -/
def setFilter (blank : CNetPktFilter) (value_ : Option Filterref) : CNetPktFilter :=
  let filter :=
    match value_ with
    | some v =>
        { blank with
          filterRef := v.filter
          m_lstParameters := blank.m_lstParameters ++ v.parameterList }
    | none =>
        { blank with preventPromisc := false, preventIpSpoof := false, preventMacSpoof := false }
  if (NetFilter.ofModel filter).isCustomFilter then filter
  else { filter with m_lstParameters := [], filterRef := [] }

section RoundTrip

variable (blank : CNetPktFilter) (parseIps : List QString → List QString × List QString)
  (m_network : CVmGenericNetworkAdapter)

/-- The filter that comes back. -/
def readBack : CNetPktFilter := setFilter blank (View.getFilterref parseIps m_network)

/-- A reference of the user. -/
def Custom (filterRef : QString) : Prop :=
  filterRef ∉ getBuiltinFilters ∧ ¬ S_VZ_FILTER_PREFIX <+: filterRef

/-- The flag against foreign addresses, unless the adapter has none of its own. -/
def keptIpSpoof : Bool :=
  m_network.pktFilter.preventIpSpoof && !View.noFixedIp parseIps m_network

structure RoundTrip : Prop where
  custom : Custom m_network.pktFilter.filterRef →
    (readBack blank parseIps m_network).filterRef = m_network.pktFilter.filterRef ∧
      (readBack blank parseIps m_network).m_lstParameters = m_network.pktFilter.m_lstParameters
  flags : Flagged m_network.pktFilter.filterRef →
    readBack blank parseIps m_network =
      ⟨[], [], m_network.pktFilter.preventPromisc, m_network.pktFilter.preventMacSpoof,
        keptIpSpoof parseIps m_network⟩

/-- All of the flags are set, or none where no firewall stands for them. -/
def Uniform : Prop :=
  (m_network.pktFilter.preventPromisc = true ∧ m_network.pktFilter.preventMacSpoof = true ∧
    keptIpSpoof parseIps m_network = true) ∨
  (m_network.pktFilter.preventPromisc = false ∧ m_network.pktFilter.preventMacSpoof = false ∧
    keptIpSpoof parseIps m_network = false ∧ m_network.firewallEnabled = false)

end RoundTrip

section Names

/-- The name that stands for flags. -/
def flagName (ip mac promisc : Bool) : QString :=
  (NetFilter.setFilterByMask ⟨[], []⟩ (flagMask ip mac promisc)).m_filterref

theorem flagName_builtin (ip mac promisc : Bool) :
    getBuiltinFilters.contains (flagName ip mac promisc) = true := by
  cases ip <;> cases mac <;> cases promisc <;> decide +kernel

theorem flagName_isEmpty (ip mac promisc : Bool) :
    (flagName ip mac promisc).isEmpty = (!ip && !mac && !promisc) := by
  cases ip <;> cases mac <;> cases promisc <;> decide +kernel

/-- The parts of a built-in name tell the flags, and no name is within another. -/
theorem names_within (ip mac promisc : Bool) :
    getFilterNames.foldl (fun mask e =>
      if e.2 <:+: flagName ip mac promisc then mask ||| e.1.toMask else mask) 0 =
        flagMask ip mac promisc := by
  cases ip <;> cases mac <;> cases promisc <;> decide +kernel

theorem flagMask_clear (ip mac promisc : Bool) :
    flagMask ip mac promisc &&& ~~~ BuiltinFilter.ipSpoofing.toMask = flagMask false mac promisc := by
  cases ip <;> cases mac <;> cases promisc <;> decide

theorem not_prefix_builtin {name : QString} (hname : getBuiltinFilters.contains name = true) :
    ¬ S_VZ_FILTER_PREFIX <+: name := by
  have hall : ∀ n ∈ getBuiltinFilters, ¬ S_VZ_FILTER_PREFIX <+: n := by decide +kernel
  exact hall name (List.contains_iff_mem.mp hname)

variable {f : NetFilter}

theorem isCustomFilter_builtin (hname : getBuiltinFilters.contains f.m_filterref = true) :
    f.isCustomFilter = false := by
  rw [NetFilter.isCustomFilter, if_neg (not_prefix_builtin hname), hname]
  rfl

theorem isCustomFilter_custom (hname : Custom f.m_filterref) : f.isCustomFilter = true := by
  rw [NetFilter.isCustomFilter, if_neg hname.2, Bool.not_eq_true', ← Bool.not_eq_true,
    List.contains_iff_mem]
  exact hname.1

theorem flagName_isCustomFilter (ip mac promisc : Bool) (params : List (QString × QString)) :
    NetFilter.isCustomFilter ⟨flagName ip mac promisc, params⟩ = false :=
  isCustomFilter_builtin (flagName_builtin ip mac promisc)

/-- Turning off the check of addresses leaves the other flags. -/
theorem setPreventIpSpoof_flags {ip mac promisc : Bool}
    (hname : f.m_filterref = flagName ip mac promisc) :
    (f.setPreventIpSpoof false).m_filterref = flagName false mac promisc := by
  have hmask : f.getFilterMask = flagMask ip mac promisc := by
    rw [NetFilter.getFilterMask, isCustomFilter_builtin (by rw [hname, flagName_builtin]),
      if_neg Bool.false_ne_true, hname, names_within]
  rw [NetFilter.setPreventIpSpoof, NetFilter.setBuiltinFilter, if_neg Bool.false_ne_true, hmask,
    flagMask_clear]
  rfl

end Names

section Model

variable {blank filter : CNetPktFilter} {parseIps : List QString → List QString × List QString}
  {m_network : CVmGenericNetworkAdapter}

theorem Custom.ne_nil {name : QString} (h : Custom name) : name ≠ [] := by
  rintro rfl
  exact h.1 (by decide)

theorem ofModel_custom (h : Custom filter.filterRef) :
    NetFilter.ofModel filter = ⟨filter.filterRef, filter.m_lstParameters⟩ :=
  if_pos ⟨h.ne_nil, h.2⟩

theorem ofModel_flagged (h : Flagged filter.filterRef) :
    NetFilter.ofModel filter = ⟨flagName filter.preventIpSpoof filter.preventMacSpoof
      filter.preventPromisc, []⟩ := by
  refine if_neg fun hboth => ?_
  rcases h with h | h
  · exact hboth.1 h
  · exact hboth.2 h

/-- A name of the dispatcher's own is never taken for one of the user's. -/
theorem ofModel_isCustomFilter (filter : CNetPktFilter) (h : ¬ Custom filter.filterRef) :
    (NetFilter.ofModel filter).isCustomFilter = false := by
  by_cases hflagged : Flagged filter.filterRef
  · rw [ofModel_flagged hflagged]
    exact flagName_isCustomFilter _ _ _ _
  · have hnot := not_or.mp hflagged
    have hbuiltin : filter.filterRef ∈ getBuiltinFilters := by
      by_contra hmem
      exact h ⟨hmem, hnot.2⟩
    rw [NetFilter.ofModel, if_pos hnot]
    exact isCustomFilter_builtin (List.contains_iff_mem.mpr hbuiltin)

theorem setFilter_custom {v : Filterref} (hparams : blank.m_lstParameters = [])
    (h : Custom v.filter) :
    (setFilter blank (some v)).filterRef = v.filter ∧
      (setFilter blank (some v)).m_lstParameters = v.parameterList := by
  rw [setFilter]
  dsimp only
  rw [ofModel_custom h, if_pos (isCustomFilter_custom h)]
  refine ⟨rfl, ?_⟩
  rw [hparams]
  rfl

/-- A name that is not the user's leaves the flags of a new filter. -/
theorem setFilter_own {v : Filterref} (h : ¬ Custom v.filter) :
    setFilter blank (some v) = { blank with m_lstParameters := [], filterRef := [] } := by
  have hown := ofModel_isCustomFilter { blank with
    filterRef := v.filter, m_lstParameters := blank.m_lstParameters ++ v.parameterList } h
  rw [setFilter]
  dsimp only
  rw [hown, if_neg Bool.false_ne_true]

theorem setFilter_none (hname : blank.filterRef = []) :
    setFilter blank none = ⟨[], [], false, false, false⟩ := by
  have hcustom : ¬ Custom blank.filterRef := fun h => h.ne_nil hname
  have hown := ofModel_isCustomFilter { blank with
    preventPromisc := false, preventIpSpoof := false, preventMacSpoof := false } hcustom
  rw [setFilter]
  dsimp only
  rw [hown, if_neg Bool.false_ne_true]

theorem readBack_custom (hparams : blank.m_lstParameters = [])
    (h : Custom m_network.pktFilter.filterRef) :
    (readBack blank parseIps m_network).filterRef = m_network.pktFilter.filterRef ∧
      (readBack blank parseIps m_network).m_lstParameters =
        m_network.pktFilter.m_lstParameters := by
  have href : View.getFilterref parseIps m_network =
      some ⟨m_network.pktFilter.filterRef, m_network.pktFilter.m_lstParameters⟩ := by
    rw [View.getFilterref]
    rw [ofModel_custom h, if_pos (isCustomFilter_custom h)]
    rfl
  rw [readBack, href]
  exact setFilter_custom hparams h

/-- Under a firewall all flags come back as a new filter has them. -/
theorem readBack_firewall (h : Flagged m_network.pktFilter.filterRef)
    (hfirewall : m_network.firewallEnabled = true) :
    readBack blank parseIps m_network = { blank with m_lstParameters := [], filterRef := [] } := by
  have href : View.getFilterref parseIps m_network =
      some ⟨S_VZ_FILTER_PREFIX ++ m_network.macAddress, []⟩ := by
    rw [View.getFilterref]
    rw [ofModel_flagged h, flagName_isCustomFilter,
      if_neg Bool.false_ne_true, if_pos hfirewall]
    rfl
  rw [readBack, href]
  exact setFilter_own fun hcustom => hcustom.2 (List.prefix_append _ _)

/-- Without one the name tells the flags that are kept. -/
theorem getPredefinedFilterref_flags (parseIps : List QString → List QString × List QString)
    (h : Flagged m_network.pktFilter.filterRef) :
    (View.getPredefinedFilterref parseIps m_network).map Filterref.filter =
      if (flagName (keptIpSpoof parseIps m_network) m_network.pktFilter.preventMacSpoof
        m_network.pktFilter.preventPromisc).isEmpty then none
      else some (flagName (keptIpSpoof parseIps m_network) m_network.pktFilter.preventMacSpoof
        m_network.pktFilter.preventPromisc) := by
  rw [View.getPredefinedFilterref]
  dsimp only
  rw [ofModel_flagged h, flagName_isCustomFilter,
    if_neg Bool.false_ne_true]
  have hname : (if View.noFixedIp parseIps m_network then
      NetFilter.setPreventIpSpoof ⟨flagName m_network.pktFilter.preventIpSpoof
        m_network.pktFilter.preventMacSpoof m_network.pktFilter.preventPromisc, []⟩ false
      else ⟨flagName m_network.pktFilter.preventIpSpoof m_network.pktFilter.preventMacSpoof
        m_network.pktFilter.preventPromisc, []⟩).m_filterref =
      flagName (keptIpSpoof parseIps m_network) m_network.pktFilter.preventMacSpoof
        m_network.pktFilter.preventPromisc := by
    rw [keptIpSpoof]
    cases hip : View.noFixedIp parseIps m_network with
    | true =>
      rw [if_pos rfl, Bool.not_true, Bool.and_false]
      exact setPreventIpSpoof_flags rfl
    | false =>
      rw [if_neg Bool.false_ne_true, Bool.not_false, Bool.and_true]
  rw [NetFilter.setParams]
  dsimp only
  rw [hname]
  split
  · rfl
  · rfl

theorem readBack_predefined (hname : blank.filterRef = [])
    (h : Flagged m_network.pktFilter.filterRef) (hfirewall : m_network.firewallEnabled = false) :
    readBack blank parseIps m_network =
      if (flagName (keptIpSpoof parseIps m_network) m_network.pktFilter.preventMacSpoof
        m_network.pktFilter.preventPromisc).isEmpty then ⟨[], [], false, false, false⟩
      else { blank with m_lstParameters := [], filterRef := [] } := by
  have hpredefined := getPredefinedFilterref_flags parseIps h
  have href : View.getFilterref parseIps m_network =
      View.getPredefinedFilterref parseIps m_network := by
    rw [View.getFilterref]
    rw [ofModel_flagged h, flagName_isCustomFilter,
      if_neg Bool.false_ne_true, hfirewall, if_neg Bool.false_ne_true]
  rw [readBack, href]
  split at hpredefined
  · next hempty =>
    rw [if_pos hempty, Option.map_eq_none_iff.mp hpredefined, setFilter_none hname]
  · next hempty =>
    obtain ⟨v, hv, hfilter⟩ := Option.map_eq_some_iff.mp hpredefined
    rw [if_neg hempty, hv]
    refine setFilter_own fun hcustom => ?_
    rw [hfilter] at hcustom
    exact hcustom.1 (List.contains_iff_mem.mp (flagName_builtin _ _ _))

end Model

section Result

variable {blank : CNetPktFilter} {parseIps : List QString → List QString × List QString}
  {m_network : CVmGenericNetworkAdapter}

theorem flags_iff (hblank : blank = ⟨[], [], true, true, true⟩)
    (h : Flagged m_network.pktFilter.filterRef) :
    readBack blank parseIps m_network =
      ⟨[], [], m_network.pktFilter.preventPromisc, m_network.pktFilter.preventMacSpoof,
        keptIpSpoof parseIps m_network⟩ ↔ Uniform parseIps m_network := by
  rw [Uniform]
  cases hfirewall : m_network.firewallEnabled with
  | true =>
    rw [readBack_firewall h hfirewall, hblank]
    cases m_network.pktFilter.preventPromisc <;> cases m_network.pktFilter.preventMacSpoof <;>
      cases keptIpSpoof parseIps m_network <;> decide
  | false =>
    rw [readBack_predefined (by rw [hblank]) h hfirewall, flagName_isEmpty, hblank]
    cases m_network.pktFilter.preventPromisc <;> cases m_network.pktFilter.preventMacSpoof <;>
      cases keptIpSpoof parseIps m_network <;> decide

/-- References of the user come back, and flags just when they are all alike. -/
theorem round_trip_iff (hblank : blank = ⟨[], [], true, true, true⟩) :
    RoundTrip blank parseIps m_network ↔
      (Flagged m_network.pktFilter.filterRef → Uniform parseIps m_network) := by
  refine ⟨fun h hflagged => (flags_iff hblank hflagged).mp (h.flags hflagged), fun h => ?_⟩
  exact ⟨fun hcustom => readBack_custom (by rw [hblank]) hcustom,
    fun hflagged => (flags_iff hblank hflagged).mpr (h hflagged)⟩

end Result

/-- An adapter with flags and one address. -/
def adapterWith (promisc mac ip : Bool) : CVmGenericNetworkAdapter :=
  ⟨⟨[], [], promisc, mac, ip⟩, false, "001C42000001".toList, [], false, ["10.0.0.2/24".toList]⟩

theorem round_trip_all :
    RoundTrip ⟨[], [], true, true, true⟩ (fun l => (l, [])) (adapterWith true true true) ↔
      (Flagged [] → Uniform (fun l => (l, [])) (adapterWith true true true)) :=
  round_trip_iff rfl

/-- One flag comes back as all three. -/
theorem not_round_trip : ¬ ∀ (parseIps : List QString → List QString × List QString)
    (m_network : CVmGenericNetworkAdapter),
    RoundTrip ⟨[], [], true, true, true⟩ parseIps m_network := by
  intro h
  have hflags := (h (fun l => (l, [])) (adapterWith false true false)).flags (.inl rfl)
  have hpromisc := congrArg CNetPktFilter.preventPromisc hflags
  rw [readBack_predefined rfl (.inl rfl) rfl, flagName_isEmpty] at hpromisc
  revert hpromisc
  decide

end DispService.Transponster.NetFilter
