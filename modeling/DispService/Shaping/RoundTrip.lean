import DispService.Shaping.Merged
import Mathlib.Data.List.Nodup

/-! The round trip of the shaping configuration through the vz configuration file: it yields the
configuration again exactly when each list has its one line, no name holds a quote, and neither
the rates nor the packet rate limits need what the reader cannot tell apart. -/
namespace DispService.Shaping

open Lib

variable {nrm : RateMpu} {conf : CNetworkShapingConfig} {ls : List Text}

/-- The configuration with an empty device read as `*`. -/
def CNetworkShapingConfig.asRead (conf : CNetworkShapingConfig) : CNetworkShapingConfig :=
  { conf with
      networkShaping := conf.networkShaping.map fun e =>
        { e with device := shownDevice e.device } }

/-- The lines of a file that give none of the settings. -/
def unrelated (file : Text) : List Text := (readBuffers 8192 file).filter isUnrelated

/-- An update that succeeds can be read back, and keeps the rest of the file. -/
def RoundTrips (nrm : RateMpu) (conf : CNetworkShapingConfig) (file : Text) : Prop :=
  ∀ os file', update_network_shaping_config nrm os conf file = (0, file') →
    get_network_shaping_config nrm file' = conf.asRead ∧ unrelated file' = unrelated file

/-- Device and class of an entry, as they are read. -/
def entryKey (e : CNetworkShaping) : Text × UInt32 := (shownDevice e.device, e.classId)

/-- The rates that can be told from their classes and the last rate of the list: there are none,
or every entry has one, on every device that of the first entry of the class, on a single device
that of the last entry. -/
def RatesTold (es : List CNetworkShaping) : Prop :=
  (∀ e ∈ es, e.rate = 0) ∨
    ∀ e ∈ es, e.rate ≠ 0 ∧
      if shownDevice e.device = wildcard then
        (es.find? fun f => f.classId = e.classId).map CNetworkShaping.rate = some e.rate
      else es.getLast?.map CNetworkShaping.rate = some e.rate

/-- No limit for every device hides that an entry of its class has none. -/
def LimitsTold (nrm : RateMpu) (es : List CNetworkShaping) : Prop :=
  ∀ e ∈ es, e.rateMPU = nrm.NRM_DISABLED → ∀ w ∈ es, shownDevice w.device = wildcard →
    w.classId = e.classId → w.rateMPU = nrm.NRM_DISABLED

structure Recoverable (nrm : RateMpu) (conf : CNetworkShapingConfig) (ls : List Text) : Prop where
  bandwidth_line : conf.devicesBandwidth ≠ [] → countLines .BANDWIDTH ls = 1
  bandwidth_empty : conf.devicesBandwidth = [] → gather .BANDWIDTH parse_BANDWIDTH ls = []
  totalRate_line : conf.networkShaping ≠ [] → countLines .TOTALRATE ls ≤ 1
  bandwidth_quote : ∀ e ∈ conf.devicesBandwidth, '"' ∉ e.device
  shaping_quote : ∀ e ∈ conf.networkShaping, '"' ∉ e.device
  rates : RatesTold conf.networkShaping
  limits : LimitsTold nrm conf.networkShaping

/-! ## The updated file as a whole -/

theorem get_updated (h : Fits nrm conf ls) :
    get_network_shaping_config nrm (updatedFile nrm conf ls.flatten) =
      { enabled := conf.enabled
        devicesBandwidth := gather .BANDWIDTH parse_BANDWIDTH (newBuffers nrm conf ls)
        networkShaping := copies (max 1 (countLines .TOTALRATE ls))
          (conf.networkShaping.map (readEntry nrm conf)) } := by
  unfold get_network_shaping_config readConfig
  rw [readBuffers_updated (by decide) h, readEnabled_filter, read_enabled]
  simp only [gather_filter, read_shaping h.names]

theorem unrelated_updated (h : Fits nrm conf ls) :
    unrelated (updatedFile nrm conf ls.flatten) = unrelated ls.flatten := by
  have hempty : ∀ b : Text, isUnrelated b = true → (!b.isEmpty) = true := by
    intro b hb
    cases b with
    | nil => simp [isUnrelated] at hb
    | cons c b => rfl
  have hkept := @unrelated_kept nrm conf ls
  unfold unrelated
  rw [readBuffers_updated (by decide) h, readBuffers_lines (by decide) h.lines,
    List.filter_filter, ← hkept]
  apply List.filter_congr
  intro b _
  cases hb : isUnrelated b with
  | true => simpa using hempty b hb
  | false => rfl

/-- Of the round trip only the two lists are in question. -/
theorem roundTrips_iff_lists (h : Fits nrm conf ls) :
    RoundTrips nrm conf ls.flatten ↔
      gather .BANDWIDTH parse_BANDWIDTH (newBuffers nrm conf ls) = conf.devicesBandwidth ∧
        copies (max 1 (countLines .TOTALRATE ls)) (conf.networkShaping.map (readEntry nrm conf)) =
          conf.asRead.networkShaping := by
  constructor
  · intro hround
    have hget := (hround ⟨true, true, true, true, true⟩ _ rfl).1
    rw [get_updated h] at hget
    injection hget with _ hbandwidth hshaping
    exact ⟨hbandwidth, hshaping⟩
  · rintro ⟨hbandwidth, hshaping⟩ os file' hupdate
    rw [update_succeeded hupdate, get_updated h, hbandwidth, hshaping]
    exact ⟨rfl, unrelated_updated h⟩

/-! ## Bandwidths -/

theorem map_strip_bandwidth {es : List CDeviceBandwidth} :
    (es.map fun e => { e with device := strip e.device }) = es ↔ ∀ e ∈ es, '"' ∉ e.device := by
  conv => lhs; rhs; rw [← List.map_id es]
  rw [List.map_inj_left]
  apply forall₂_congr
  intro e _
  rw [← strip_eq_self]
  constructor
  · exact fun he => congrArg CDeviceBandwidth.device he
  · intro he
    rw [he]
    rfl

theorem bandwidth_iff (h : conf.Printable) :
    gather .BANDWIDTH parse_BANDWIDTH (newBuffers nrm conf ls) = conf.devicesBandwidth ↔
      (conf.devicesBandwidth ≠ [] → countLines .BANDWIDTH ls = 1) ∧
        (conf.devicesBandwidth = [] → gather .BANDWIDTH parse_BANDWIDTH ls = []) ∧
          ∀ e ∈ conf.devicesBandwidth, '"' ∉ e.device := by
  by_cases hnil : conf.devicesBandwidth = []
  · rw [read_no_bandwidth hnil, hnil]
    simp
  · rw [read_bandwidth h hnil, ← map_strip_bandwidth]
    have hmap : (conf.devicesBandwidth.map fun e => { e with device := strip e.device }) ≠ [] := by
      simpa using hnil
    constructor
    · intro hcopies
      have hone : countLines .BANDWIDTH ls = 1 := by
        have hlength := congrArg List.length hcopies
        rw [length_copies, List.length_map] at hlength
        exact Nat.eq_of_mul_eq_mul_right (List.length_pos_iff.mpr hnil) (by omega)
      rw [hone, copies_one] at hcopies
      exact ⟨fun _ => hone, fun h => absurd h hnil, hcopies⟩
    · rintro ⟨hone, -, hquote⟩
      rw [hone hnil, copies_one, hquote]

/-! ## Rates -/

/-- The entry as it stands in the list of total rates. -/
def totalRate (e : CNetworkShaping) : CNetworkShaping :=
  { device := readDevice e, classId := e.classId, totalRate := e.totalRate }

theorem readEntry_eq (e : CNetworkShaping) : readEntry nrm conf e =
    { device := readDevice e, classId := e.classId, totalRate := e.totalRate,
      rate := readRate (rates conf) (totalRate e),
      rateMPU := readMpu nrm (rateMpus nrm conf) (totalRate e) } := rfl

theorem readRate_wildcard {e f : CNetworkShaping} (hrated : rated conf = conf.networkShaping)
    (hdevice : readDevice e = wildcard)
    (hf : (conf.networkShaping.find? fun f => f.classId = e.classId) = some f) :
    readRate (rates conf) (totalRate e) = f.rate := by
  have hfind : ((rates conf).find? fun r =>
      r.classId = (totalRate e).classId ∧ r.device = (totalRate e).device) =
        some { device := wildcard, classId := f.classId, rate := f.rate } := by
    rw [rates, hrated, List.find?_map]
    have hsame : ((fun r : CNetworkShaping => decide (r.classId = (totalRate e).classId ∧
        r.device = (totalRate e).device)) ∘ fun e : CNetworkShaping =>
          ({ device := wildcard, classId := e.classId, rate := e.rate } : CNetworkShaping)) =
        fun f => decide (f.classId = e.classId) := by
      funext g
      simp [totalRate, hdevice]
    rw [hsame, hf]
    rfl
  rw [readRate, hfind]

theorem readRate_single {e : CNetworkShaping} (hdevice : readDevice e ≠ wildcard) :
    readRate (rates conf) (totalRate e) =
      ((rated conf).getLast?.map CNetworkShaping.rate).getD 0 := by
  have hnone : ((rates conf).find? fun r =>
      r.classId = (totalRate e).classId ∧ r.device = (totalRate e).device) = none := by
    apply List.find?_eq_none.mpr
    intro r hr
    obtain ⟨g, -, rfl⟩ := List.mem_map.mp hr
    have hne : wildcard ≠ (totalRate e).device := fun h => hdevice h.symm
    simp [hne]
  rw [readRate, hnone, rates, List.getLast?_map, Option.map_map]
  rfl

/-- A rate that is read is one of the list, unless the list is empty. -/
theorem readRate_ne_zero {t : CNetworkShaping} (hne : rated conf ≠ []) :
    readRate (rates conf) t ≠ 0 := by
  have hmem : ∀ r ∈ rates conf, r.rate ≠ 0 := by
    intro r hr
    obtain ⟨e, he, rfl⟩ := List.mem_map.mp hr
    simpa using (List.mem_filter.mp he).2
  unfold readRate
  split
  case h_1 r hfind => exact hmem r (List.mem_of_find?_eq_some hfind)
  case h_2 =>
    cases hlast : (rates conf).getLast? with
    | none =>
        have hnil : rates conf = [] := List.getLast?_eq_none_iff.mp hlast
        exact absurd (List.map_eq_nil_iff.mp hnil) hne
    | some r => exact hmem r (List.mem_of_getLast? hlast)

theorem rates_iff (hdevice : ∀ e ∈ conf.networkShaping, readDevice e = shownDevice e.device) :
    (∀ e ∈ conf.networkShaping, readRate (rates conf) (totalRate e) = e.rate) ↔
      RatesTold conf.networkShaping := by
  by_cases hzero : ∀ e ∈ conf.networkShaping, e.rate = 0
  · have hnil : rates conf = [] := by
      have hrated : rated conf = [] :=
        List.filter_eq_nil_iff.mpr fun e he => by simp [hzero e he]
      rw [rates, hrated, List.map_nil]
    constructor
    · exact fun _ => .inl hzero
    · intro _ e he
      rw [hnil, hzero e he]
      rfl
  have hne : rated conf ≠ [] := by
    push Not at hzero
    obtain ⟨e, he, hrate⟩ := hzero
    exact List.ne_nil_of_mem (List.mem_filter.mpr ⟨he, by simpa using hrate⟩)
  have hrated : (∀ e ∈ conf.networkShaping, e.rate ≠ 0) → rated conf = conf.networkShaping :=
    fun h => List.filter_eq_self.mpr fun e he => by simpa using h e he
  have hread : rated conf = conf.networkShaping → ∀ e ∈ conf.networkShaping,
      (readRate (rates conf) (totalRate e) = e.rate ↔
        if shownDevice e.device = wildcard then
          (conf.networkShaping.find? fun f => f.classId = e.classId).map CNetworkShaping.rate =
            some e.rate
        else conf.networkShaping.getLast?.map CNetworkShaping.rate = some e.rate) := by
    intro hall e he
    by_cases hw : shownDevice e.device = wildcard
    · have hsome : (conf.networkShaping.find? fun f => f.classId = e.classId).isSome = true :=
        List.find?_isSome.mpr ⟨e, he, by simp⟩
      obtain ⟨f, hf⟩ := Option.isSome_iff_exists.mp hsome
      rw [if_pos hw, readRate_wildcard hall ((hdevice e he).trans hw) hf, hf]
      simp
    · rw [if_neg hw, readRate_single (by rw [hdevice e he]; exact hw), hall]
      cases hlast : conf.networkShaping.getLast? with
      | none =>
          rw [List.getLast?_eq_none_iff.mp hlast] at he
          cases he
      | some l => simp
  constructor
  · intro h
    have hnonzero : ∀ e ∈ conf.networkShaping, e.rate ≠ 0 :=
      fun e he => h e he ▸ readRate_ne_zero hne
    exact .inr fun e he =>
      ⟨hnonzero e he, (hread (hrated hnonzero) e he).mp (h e he)⟩
  · rintro (h | h)
    · exact absurd h hzero
    · exact fun e he => (hread (hrated fun e he => (h e he).1) e he).mpr (h e he).2

/-! ## Packet rate limits -/

theorem limits_iff (hdevice : ∀ e ∈ conf.networkShaping, readDevice e = shownDevice e.device)
    (hdistinct : (conf.networkShaping.map entryKey).Nodup) :
    (∀ e ∈ conf.networkShaping, readMpu nrm (rateMpus nrm conf) (totalRate e) = e.rateMPU) ↔
      LimitsTold nrm conf.networkShaping := by
  have hsame : ∀ e ∈ conf.networkShaping, ∀ g ∈ limited nrm conf, g.classId = e.classId →
      readDevice g = readDevice e → g = e := by
    intro e he g hg hclass hdev
    have hg' := (List.mem_filter.mp hg).1
    rw [hdevice e he, hdevice g hg'] at hdev
    exact List.inj_on_of_nodup_map hdistinct hg' he (Prod.ext hdev hclass)
  have hfound : ∀ e ∈ conf.networkShaping, e.rateMPU ≠ nrm.NRM_DISABLED →
      readMpu nrm (rateMpus nrm conf) (totalRate e) = e.rateMPU := by
    intro e he hmpu
    have hmem : e ∈ limited nrm conf := List.mem_filter.mpr ⟨he, by simpa using hmpu⟩
    have hsome : ((rateMpus nrm conf).find? fun r =>
        r.classId = (totalRate e).classId ∧ r.device = (totalRate e).device).isSome = true :=
      List.find?_isSome.mpr ⟨_, List.mem_map.mpr ⟨e, hmem, rfl⟩, by simp [totalRate]⟩
    obtain ⟨r, hr⟩ := Option.isSome_iff_exists.mp hsome
    obtain ⟨g, hg, rfl⟩ := List.mem_map.mp (List.mem_of_find?_eq_some hr)
    have htrue := List.find?_some hr
    have hmatch : g.classId = e.classId ∧ readDevice g = readDevice e := of_decide_eq_true htrue
    rw [readMpu, hr, hsame e he g hg hmatch.1 hmatch.2]
  have hlast : ∀ e ∈ conf.networkShaping, e.rateMPU = nrm.NRM_DISABLED →
      readMpu nrm (rateMpus nrm conf) (totalRate e) =
        ((((rateMpus nrm conf).filter fun r =>
          r.device = wildcard ∧ r.classId = (totalRate e).classId).getLast?).map
            CNetworkShaping.rateMPU).getD nrm.NRM_DISABLED := by
    intro e he hmpu
    have hnone : ((rateMpus nrm conf).find? fun r =>
        r.classId = (totalRate e).classId ∧ r.device = (totalRate e).device) = none := by
      apply List.find?_eq_none.mpr
      intro r hr hmatch
      obtain ⟨g, hg, rfl⟩ := List.mem_map.mp hr
      have hboth := of_decide_eq_true hmatch
      have hge := hsame e he g hg hboth.1 hboth.2
      have hlim : g.rateMPU ≠ nrm.NRM_DISABLED := by simpa using (List.mem_filter.mp hg).2
      rw [hge] at hlim
      exact hlim hmpu
    rw [readMpu, hnone]
  constructor
  · intro h e he hmpu w hw hstar hclass
    by_contra hlim
    have hread := h e he
    rw [hlast e he hmpu, hmpu] at hread
    have hmem : { device := readDevice w, classId := w.classId, rateMPU := w.rateMPU } ∈
        (rateMpus nrm conf).filter fun r =>
          r.device = wildcard ∧ r.classId = (totalRate e).classId := by
      refine List.mem_filter.mpr ⟨List.mem_map.mpr ⟨w, ?_, rfl⟩, ?_⟩
      · exact List.mem_filter.mpr ⟨hw, by simpa using hlim⟩
      · simp [totalRate, hdevice w hw, hstar, hclass]
    cases hl : ((rateMpus nrm conf).filter fun r =>
        r.device = wildcard ∧ r.classId = (totalRate e).classId).getLast? with
    | none =>
        rw [List.getLast?_eq_none_iff.mp hl] at hmem
        cases hmem
    | some r =>
        rw [hl] at hread
        obtain ⟨g, hg, rfl⟩ := List.mem_map.mp (List.mem_filter.mp (List.mem_of_getLast? hl)).1
        have hglim : g.rateMPU ≠ nrm.NRM_DISABLED := by simpa using (List.mem_filter.mp hg).2
        exact hglim hread
  · intro h e he
    by_cases hmpu : e.rateMPU = nrm.NRM_DISABLED
    · have hnil : ((rateMpus nrm conf).filter fun r =>
          r.device = wildcard ∧ r.classId = (totalRate e).classId) = [] := by
        apply List.filter_eq_nil_iff.mpr
        intro r hr hmatch
        obtain ⟨g, hg, rfl⟩ := List.mem_map.mp hr
        have hboth := of_decide_eq_true hmatch
        obtain ⟨hgmem, hglim⟩ := List.mem_filter.mp hg
        have hstar : shownDevice g.device = wildcard := (hdevice g hgmem).symm.trans hboth.1
        exact absurd (h e he hmpu g hgmem hstar hboth.2) (by simpa using hglim)
      rw [hlast e he hmpu, hnil, hmpu]
      rfl
    · exact hfound e he hmpu

/-! ## The round trip -/

theorem quote_shownDevice {device : Text} : '"' ∉ shownDevice device ↔ '"' ∉ device := by
  unfold shownDevice
  split
  case isTrue h =>
    rw [List.isEmpty_iff.mp h]
    decide
  case isFalse => rfl

theorem readDevice_iff {e : CNetworkShaping} :
    readDevice e = shownDevice e.device ↔ '"' ∉ e.device :=
  strip_eq_self.trans quote_shownDevice

theorem shaping_iff (hdistinct : (conf.networkShaping.map entryKey).Nodup) :
    copies (max 1 (countLines .TOTALRATE ls)) (conf.networkShaping.map (readEntry nrm conf)) =
        conf.asRead.networkShaping ↔
      (conf.networkShaping ≠ [] → countLines .TOTALRATE ls ≤ 1) ∧
        (∀ e ∈ conf.networkShaping, '"' ∉ e.device) ∧ RatesTold conf.networkShaping ∧
          LimitsTold nrm conf.networkShaping := by
  have hentries : conf.networkShaping.map (readEntry nrm conf) = conf.asRead.networkShaping ↔
      (∀ e ∈ conf.networkShaping, '"' ∉ e.device) ∧ RatesTold conf.networkShaping ∧
        LimitsTold nrm conf.networkShaping := by
    have hfields : conf.networkShaping.map (readEntry nrm conf) = conf.asRead.networkShaping ↔
        (∀ e ∈ conf.networkShaping, readDevice e = shownDevice e.device) ∧
          (∀ e ∈ conf.networkShaping, readRate (rates conf) (totalRate e) = e.rate) ∧
            ∀ e ∈ conf.networkShaping,
              readMpu nrm (rateMpus nrm conf) (totalRate e) = e.rateMPU := by
      rw [CNetworkShapingConfig.asRead, List.map_inj_left]
      simp only [readEntry_eq, CNetworkShaping.mk.injEq, true_and]
      constructor
      · intro h
        exact ⟨fun e he => (h e he).1, fun e he => (h e he).2.1, fun e he => (h e he).2.2⟩
      · rintro ⟨hd, hr, hm⟩ e he
        exact ⟨hd e he, hr e he, hm e he⟩
    rw [hfields]
    constructor
    · rintro ⟨hd, hr, hm⟩
      exact ⟨fun e he => readDevice_iff.mp (hd e he), (rates_iff hd).mp hr,
        (limits_iff hd hdistinct).mp hm⟩
    · rintro ⟨hq, hr, hm⟩
      have hd := fun e he => readDevice_iff.mpr (hq e he)
      exact ⟨hd, (rates_iff hd).mpr hr, (limits_iff hd hdistinct).mpr hm⟩
  rw [← hentries]
  by_cases hnil : conf.networkShaping = []
  · simp [hnil, copies_nil, CNetworkShapingConfig.asRead]
  · constructor
    · intro h
      have hlength := congrArg List.length h
      simp only [length_copies, CNetworkShapingConfig.asRead, List.length_map] at hlength
      have hone : max 1 (countLines .TOTALRATE ls) = 1 :=
        Nat.eq_of_mul_eq_mul_right (List.length_pos_iff.mpr hnil) (by omega)
      rw [hone, copies_one] at h
      exact ⟨fun _ => by omega, h⟩
    · rintro ⟨hone, h⟩
      have hmax : max 1 (countLines .TOTALRATE ls) = 1 := by
        have := hone hnil
        omega
      rw [hmax, copies_one, h]

/-- Over files and values whose lines fit the buffers, the round trip yields the configuration
again just when it is recoverable. -/
theorem roundTrips_iff_recoverable (h : Fits nrm conf ls)
    (hdistinct : (conf.networkShaping.map entryKey).Nodup) :
    RoundTrips nrm conf ls.flatten ↔ Recoverable nrm conf ls := by
  rw [roundTrips_iff_lists h, bandwidth_iff h.names, shaping_iff hdistinct]
  constructor
  · rintro ⟨⟨hline, hempty, hbq⟩, htotal, hsq, hrates, hlimits⟩
    exact ⟨hline, hempty, htotal, hbq, hsq, hrates, hlimits⟩
  · rintro ⟨hline, hempty, htotal, hbq, hsq, hrates, hlimits⟩
    exact ⟨⟨hline, hempty, hbq⟩, htotal, hsq, hrates, hlimits⟩

/-! ## A configuration -/

def words01 : RateMpu := ⟨0, 1, by decide⟩

/-- One device with a bandwidth and two classes on every device. -/
def twoClasses : CNetworkShapingConfig where
  enabled := true
  devicesBandwidth := [{ device := "eth0".toList, bandwidth := 102400 }]
  networkShaping :=
    [{ classId := 1, totalRate := 4096, rate := 8, rateMPU := 1 },
      { classId := 2, totalRate := 2048, rate := 16 }]

def vzConf : List Text :=
  ["VERBOSE=0\n".toList, " BANDWIDTH=\"eth0:1 eth1:2 \"\n".toList, "RATE=\"*:7:7\"\n".toList]

theorem printable_eth0 : Printable "eth0".toList := ⟨⟨by decide, forall_of_all (by decide)⟩, by decide, by decide⟩

theorem fitLine_of_body (body : Text) (h : '\n' ∉ body) (hn : nul ∉ body)
    (hlength : body.length < 4095) : FitLine (body ++ ['\n']) := by
  refine ⟨⟨⟨body, rfl, h⟩, by rw [List.length_append]; exact Nat.succ_lt_succ hlength⟩, ?_⟩
  rw [List.mem_append]
  rintro (hmem | hmem)
  · exact hn hmem
  · exact absurd (List.mem_singleton.mp hmem) (by decide)

theorem twoClasses_fits : Fits words01 twoClasses vzConf where
  names :=
    { bandwidth := by
        intro e he
        obtain rfl := List.mem_singleton.mp he
        exact printable_eth0
      shaping := by
        intro e he
        simp only [twoClasses, List.mem_cons, List.not_mem_nil, or_false] at he
        rcases he with rfl | rfl <;> exact ⟨⟨by decide, forall_of_all (by decide)⟩, by decide, by decide⟩ }
  lines := by
    intro l hl
    simp only [vzConf, List.mem_cons, List.not_mem_nil, or_false] at hl
    rcases hl with rfl | rfl | rfl
    · exact fitLine_of_body "VERBOSE=0".toList (by decide) (by decide) (by decide)
    · exact fitLine_of_body " BANDWIDTH=\"eth0:1 eth1:2 \"".toList (by decide) (by decide)
        (by decide)
    · exact fitLine_of_body "RATE=\"*:7:7\"".toList (by decide) (by decide) (by decide)
  bandwidth := by decide +kernel
  totalRate := by decide +kernel
  rateMpu := by decide +kernel
  rate := by decide +kernel

theorem twoClasses_roundTrips : RoundTrips words01 twoClasses vzConf.flatten := by
  refine (roundTrips_iff_recoverable twoClasses_fits (by decide +kernel)).mpr ?_
  exact
    { bandwidth_line := fun _ => by decide +kernel
      bandwidth_empty := fun h => absurd h (by decide)
      totalRate_line := fun _ => by decide +kernel
      bandwidth_quote := by decide +kernel
      shaping_quote := by decide +kernel
      rates := .inr (by decide +kernel)
      limits := by unfold LimitsTold; decide +kernel }

/-- The same configuration over a file that has no line for the bandwidths: they are printed as
total rates, and lost. -/
theorem twoClasses_lost : ¬ RoundTrips words01 twoClasses ["VERBOSE=0\n".toList].flatten := by
  have hfits : Fits words01 twoClasses ["VERBOSE=0\n".toList] :=
    { twoClasses_fits with
      lines := fun l hl => twoClasses_fits.lines l (by
        rw [List.mem_singleton.mp hl]
        exact List.mem_cons_self ..) }
  intro hround
  have hread := ((roundTrips_iff_lists hfits).mp hround).1
  revert hread
  decide +kernel

end DispService.Shaping
