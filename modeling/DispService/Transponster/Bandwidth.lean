import Mathlib.Tactic.Common

/-! The rates of a network adapter: the conversion between the domain XML and the configuration, and
where the two directions of it are inverse. -/
namespace DispService.Transponster

/-- The attributes of one direction in the domain XML. A value is a `PSpeed` or a `PBurstSize`. -/
structure BandwidthAttributes where
  average : Option UInt32
  peak : Option UInt32
  floor : Option UInt32
  burst : Option UInt32
deriving DecidableEq

structure Bandwidth1 where
  inbound : Option BandwidthAttributes
  outbound : Option BandwidthAttributes
deriving DecidableEq

/-- In the configuration a rate that is not set is 0. -/
structure CVmNetBandwidthInbound where
  average : UInt32 := 0
  peak : UInt32 := 0
  burst : UInt32 := 0
  floor : UInt32 := 0
deriving DecidableEq

structure CVmNetBandwidthOutbound where
  average : UInt32 := 0
  peak : UInt32 := 0
  burst : UInt32 := 0
deriving DecidableEq

structure CVmNetBandwidth where
  inbound : Option CVmNetBandwidthInbound
  outbound : Option CVmNetBandwidthOutbound
deriving DecidableEq

/-- `if (test) a.set(value)`. -/
def setIf (test value : UInt32) : Option UInt32 :=
  if test ≠ 0 then some value else none

namespace View

def inbound (i : CVmNetBandwidthInbound) : BandwidthAttributes where
  average := some i.average
  burst := setIf i.burst i.burst
  peak := setIf i.peak i.peak
  floor := setIf i.floor i.floor

/-- The burst and the peak are written where those of the inbound direction are set. -/
def outbound (i : CVmNetBandwidthInbound) (o : CVmNetBandwidthOutbound) :
    BandwidthAttributes where
  average := some o.average
  burst := setIf i.burst o.burst
  peak := setIf i.peak o.peak
  floor := none

/-- `View::getBandwidth`. There is no result where it reads through a null pointer. -/
def getBandwidth (bandwidth : Option CVmNetBandwidth) : Option (Option Bandwidth1) :=
  match bandwidth with
  | none => some none
  | some b =>
      match b.inbound, b.outbound with
      | none, none => some none
      | some i, none => some (some ⟨some (inbound i), none⟩)
      | some i, some o => some (some ⟨some (inbound i), some (outbound i o)⟩)
      | none, some _ => none

end View

namespace Builder

def inbound (i : BandwidthAttributes) : CVmNetBandwidthInbound :=
  let a : CVmNetBandwidthInbound := {}
  { average := i.average.getD a.average
    peak := i.peak.getD a.peak
    burst := i.burst.getD a.burst
    floor := i.floor.getD a.floor }

def outbound (o : BandwidthAttributes) : CVmNetBandwidthOutbound :=
  let a : CVmNetBandwidthOutbound := {}
  { average := o.average.getD a.average
    peak := o.peak.getD a.peak
    burst := o.burst.getD a.burst }

/-- `Builder::setBandwidth`, with the bandwidth that the adapter has so far. -/
def setBandwidth (value : Option Bandwidth1) (result : Option CVmNetBandwidth) :
    Option CVmNetBandwidth :=
  match value with
  | none => result
  | some v =>
      if v.inbound.isNone && v.outbound.isNone then result
      else some ⟨v.inbound.map inbound, v.outbound.map outbound⟩

end Builder

/-- The parameters of the two directions in the configuration. -/
def configured (bandwidth : Option CVmNetBandwidth) :
    Option CVmNetBandwidthInbound × Option CVmNetBandwidthOutbound :=
  (bandwidth.bind CVmNetBandwidth.inbound, bandwidth.bind CVmNetBandwidth.outbound)

/-- The parameters of an outbound direction, which has no floor. -/
structure Rates where
  average : Option UInt32
  peak : Option UInt32
  burst : Option UInt32
deriving DecidableEq

def BandwidthAttributes.rates (a : BandwidthAttributes) : Rates :=
  ⟨a.average, a.peak, a.burst⟩

/-- The parameters of the two directions in the domain XML. -/
def described (value : Option Bandwidth1) : Option BandwidthAttributes × Option Rates :=
  (value.bind Bandwidth1.inbound,
    (value.bind Bandwidth1.outbound).map BandwidthAttributes.rates)

/-- Written into the domain XML and read back, the configuration is what it was. -/
def ConfigBack (bandwidth : Option CVmNetBandwidth) : Prop :=
  ∃ value, View.getBandwidth bandwidth = some value ∧
    configured (Builder.setBandwidth value none) = configured bandwidth

/-- Read into the configuration and written back, the domain XML is what it was. -/
def XmlBack (value : Option Bandwidth1) : Prop :=
  ∃ value', View.getBandwidth (Builder.setBandwidth value none) = some value' ∧
    described value' = described value

/-- The values that are accepted in a domain XML are not 0. -/
structure BandwidthAttributes.Valid (a : BandwidthAttributes) : Prop where
  average : ∀ v ∈ a.average, v ≠ 0
  peak : ∀ v ∈ a.peak, v ≠ 0
  floor : ∀ v ∈ a.floor, v ≠ 0
  burst : ∀ v ∈ a.burst, v ≠ 0

structure Bandwidth1.Valid (b : Bandwidth1) : Prop where
  inbound : ∀ a ∈ b.inbound, a.Valid
  outbound : ∀ a ∈ b.outbound, a.Valid

/-- An outbound direction has an inbound one beside it, which sets what it sets. -/
def ConfigPaired (bandwidth : Option CVmNetBandwidth) : Prop :=
  ∀ b ∈ bandwidth, ∀ o ∈ b.outbound, ∃ i ∈ b.inbound,
    (i.burst = 0 → o.burst = 0) ∧ (i.peak = 0 → o.peak = 0)

/-- A direction has an average, and an outbound one has an inbound one beside it, which sets just
what it sets. -/
@[mk_iff]
structure XmlPaired (value : Option Bandwidth1) : Prop where
  inbound : ∀ b ∈ value, ∀ i ∈ b.inbound, i.average.isSome = true
  outbound : ∀ b ∈ value, ∀ o ∈ b.outbound, o.average.isSome = true ∧ ∃ i ∈ b.inbound,
    (i.burst.isSome = o.burst.isSome) ∧ (i.peak.isSome = o.peak.isSome)

@[simp] theorem getD_setIf (test value : UInt32) :
    (setIf test value).getD 0 = value ↔ (test = 0 → value = 0) := by
  unfold setIf
  by_cases h : test = 0
  · simp [h, eq_comm]
  · simp [h]

theorem setIf_self (value : UInt32) : (setIf value value).getD 0 = value := by
  rw [getD_setIf]
  exact id

/-- A value that is set is not 0. -/
theorem setIf_getD {a : Option UInt32} (h : ∀ v ∈ a, v ≠ 0) :
    setIf (a.getD 0) (a.getD 0) = a := by
  cases a with
  | none => rfl
  | some v => simp [setIf, h v rfl]

theorem setIf_getD_iff {a b : Option UInt32} (ha : ∀ v ∈ a, v ≠ 0) :
    setIf (a.getD 0) (b.getD 0) = b ↔ a.isSome = b.isSome := by
  cases a with
  | none => cases b <;> simp [setIf]
  | some v =>
    have hv := ha v rfl
    cases b <;> simp [setIf, hv]

theorem some_getD_iff (a : Option UInt32) : some (a.getD 0) = a ↔ a.isSome = true := by
  cases a <;> simp

theorem Builder.inbound_view (i : CVmNetBandwidthInbound) :
    Builder.inbound (View.inbound i) = i := by
  simp only [Builder.inbound, View.inbound, setIf_self, Option.getD_some]

theorem Builder.outbound_view_iff (i : CVmNetBandwidthInbound) (o : CVmNetBandwidthOutbound) :
    Builder.outbound (View.outbound i o) = o ↔
      (i.burst = 0 → o.burst = 0) ∧ (i.peak = 0 → o.peak = 0) := by
  have hparts : Builder.outbound (View.outbound i o) =
      ⟨o.average, (setIf i.peak o.peak).getD 0, (setIf i.burst o.burst).getD 0⟩ := rfl
  rw [hparts, CVmNetBandwidthOutbound.mk.injEq, getD_setIf, getD_setIf]
  exact ⟨fun h => ⟨h.2.2, h.2.1⟩, fun h => ⟨rfl, h.2, h.1⟩⟩

theorem View.inbound_build_iff {a : BandwidthAttributes} (valid : a.Valid) :
    View.inbound (Builder.inbound a) = a ↔ a.average.isSome = true := by
  have hparts : View.inbound (Builder.inbound a) = ⟨some (a.average.getD 0), a.peak, a.floor,
      a.burst⟩ := by
    simp only [View.inbound, Builder.inbound, setIf_getD valid.peak, setIf_getD valid.floor,
      setIf_getD valid.burst]
  rw [hparts, BandwidthAttributes.mk.injEq, some_getD_iff]
  exact ⟨fun h => h.1, fun h => ⟨h, rfl, rfl, rfl⟩⟩

theorem View.outbound_build_iff {a b : BandwidthAttributes} (valid : a.Valid) :
    (View.outbound (Builder.inbound a) (Builder.outbound b)).rates = b.rates ↔
      b.average.isSome = true ∧ a.burst.isSome = b.burst.isSome ∧
        a.peak.isSome = b.peak.isSome := by
  have hparts : (View.outbound (Builder.inbound a) (Builder.outbound b)).rates =
      ⟨some (b.average.getD 0), setIf (a.peak.getD 0) (b.peak.getD 0),
        setIf (a.burst.getD 0) (b.burst.getD 0)⟩ := rfl
  rw [hparts, BandwidthAttributes.rates, Rates.mk.injEq, some_getD_iff, setIf_getD_iff valid.peak,
    setIf_getD_iff valid.burst]
  exact ⟨fun h => ⟨h.1, h.2.2, h.2.1⟩, fun h => ⟨h.1, h.2.2, h.2.1⟩⟩

theorem configBack_iff (bandwidth : Option CVmNetBandwidth) :
    ConfigBack bandwidth ↔ ConfigPaired bandwidth := by
  unfold ConfigBack ConfigPaired
  obtain _ | ⟨i, o⟩ := bandwidth
  · simp [View.getBandwidth, Builder.setBandwidth]
  · cases i with
    | none => cases o <;> simp [View.getBandwidth, Builder.setBandwidth, configured]
    | some i =>
      cases o with
      | none =>
        simp [View.getBandwidth, Builder.setBandwidth, configured, Builder.inbound_view]
      | some o =>
        simp [View.getBandwidth, Builder.setBandwidth, configured, Builder.inbound_view,
          Builder.outbound_view_iff]

theorem xmlBack_iff {value : Option Bandwidth1} (valid : ∀ b ∈ value, b.Valid) :
    XmlBack value ↔ XmlPaired value := by
  rw [xmlPaired_iff]
  unfold XmlBack
  obtain _ | ⟨i, o⟩ := value
  · simp [View.getBandwidth, Builder.setBandwidth, described]
  · have hvalid := valid _ rfl
    cases i with
    | none => cases o <;> simp [View.getBandwidth, Builder.setBandwidth, described]
    | some i =>
      have hi := hvalid.inbound i rfl
      cases o with
      | none =>
        simp [View.getBandwidth, Builder.setBandwidth, described, View.inbound_build_iff hi]
      | some o =>
        simp [View.getBandwidth, Builder.setBandwidth, described, View.inbound_build_iff hi,
          View.outbound_build_iff hi]

/-- Where the two conversions are inverse, on the configurations and on the domain XML. -/
theorem bandwidth_inverse_iff (bandwidth : Option CVmNetBandwidth) (value : Option Bandwidth1)
    (valid : ∀ b ∈ value, b.Valid) :
    (ConfigBack bandwidth ↔ ConfigPaired bandwidth) ∧ (XmlBack value ↔ XmlPaired value) :=
  ⟨configBack_iff bandwidth, xmlBack_iff valid⟩

/-- Both directions with the same attributes. -/
theorem bandwidth_inverse_iff_even :
    (ConfigBack (some ⟨some {}, some {}⟩) ↔ ConfigPaired (some ⟨some {}, some {}⟩)) ∧
      (XmlBack (some ⟨some ⟨some 1, none, none, none⟩, none⟩) ↔
        XmlPaired (some ⟨some ⟨some 1, none, none, none⟩, none⟩)) := by
  apply bandwidth_inverse_iff
  rintro _ ⟨⟩
  refine ⟨?_, by simp⟩
  rintro _ ⟨⟩
  exact ⟨by simp, by simp, by simp, by simp⟩

/-- With an outbound direction alone, a null pointer is read. -/
theorem getBandwidth_reads_absent : ∃ bandwidth, ¬ ConfigBack bandwidth :=
  ⟨some ⟨none, some { average := 1000 }⟩, fun ⟨_, h, _⟩ => by cases h⟩

end DispService.Transponster
