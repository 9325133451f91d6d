import DispService.Shaping.Updated

/-! What reading the updated file gives: every list in as many copies as its setting has lines, and
from the three lists of shaping one entry for each total rate, whose rate is that of its own class
on every device or else the last rate of the list, and whose packet rate limit is its own or that
of every device in its class. -/
namespace DispService.Shaping

open Lib

variable {nrm : RateMpu} {conf : CNetworkShapingConfig} {ls : List Text}

/-! ## The settings of the updated file -/

theorem valueOf_map_isEmpty {β : Type} {es : List β} {f : β → Text}
    (h : (valueOf (es.map f)).isEmpty = true) : es = [] :=
  List.map_eq_nil_iff.mp (valueOf_isEmpty.mp h)

/-- The bandwidths, where there are any, are read once for each line that they had. -/
theorem read_bandwidth (h : conf.Printable) (hne : conf.devicesBandwidth ≠ []) :
    gather .BANDWIDTH parse_BANDWIDTH (newBuffers nrm conf ls) =
      copies (countLines .BANDWIDTH ls)
        (conf.devicesBandwidth.map fun e => { e with device := strip e.device }) := by
  have hvalue : (get_BANDWIDTH_string conf).isEmpty = false := by
    rw [← Bool.not_eq_true, bandwidth_value h]
    exact fun hempty => hne (valueOf_map_isEmpty hempty)
  have hmap : gather .BANDWIDTH parse_BANDWIDTH (ls.map (rewriteLine nrm conf)) =
      copies (countLines .BANDWIDTH ls)
        (conf.devicesBandwidth.map fun e => { e with device := strip e.device }) := by
    apply gather_map
    · intro l _ hl
      simp only [rewriteLine, hl, hvalue, Bool.false_eq_true, if_false]
      exact (gather_settingLine _).trans (parse_bandwidth h)
    · exact fun l _ hl hnew => hl (setting_rewriteLine hnew)
  rw [newBuffers, gather_append, hmap, appendedLines, gather_appended,
    gather_guarded .TOTALRATE (by decide), gather_guarded .TOTALRATE (by decide),
    gather_guarded .RATEMPU (by decide), gather_guarded .RATE (by decide),
    gather_guarded_line .TRAFFIC_SHAPING (by decide)]
  simp

/-- Without bandwidths their lines stay, and are read as before. -/
theorem read_no_bandwidth (hnil : conf.devicesBandwidth = []) :
    gather .BANDWIDTH parse_BANDWIDTH (newBuffers nrm conf ls) =
      gather .BANDWIDTH parse_BANDWIDTH ls := by
  have hvalue : (get_BANDWIDTH_string conf).isEmpty = true := by
    simp [get_BANDWIDTH_string, hnil]
  have hmap : gather .BANDWIDTH parse_BANDWIDTH (ls.map (rewriteLine nrm conf)) =
      gather .BANDWIDTH parse_BANDWIDTH ls := by
    unfold gather
    rw [List.flatMap_map]
    apply List.flatMap_congr
    intro l _
    by_cases hl : setting l = some .BANDWIDTH
    · have hsame : rewriteLine nrm conf l = l := by simp [rewriteLine, hl, hvalue]
      rw [hsame]
    · rw [if_neg hl, if_neg fun hnew => hl (setting_rewriteLine hnew)]
  rw [newBuffers, gather_append, hmap, appendedLines, gather_appended,
    gather_guarded .TOTALRATE (by decide), gather_guarded .TOTALRATE (by decide),
    gather_guarded .RATEMPU (by decide), gather_guarded .RATE (by decide),
    gather_guarded_line .TRAFFIC_SHAPING (by decide)]
  simp

/-- Bandwidths under the wrong key are no total rates. -/
theorem parse_totalRate_bandwidth (h : conf.Printable) :
    parse_TOTALRATE (quoted (get_BANDWIDTH_string conf)) = [] := by
  have hentry : ∀ e : CDeviceBandwidth,
      strip (bandwidthEntry e) = pair (strip e.device) (number e.bandwidth.toNat) :=
    fun e => by rw [bandwidthEntry, strip_pair, quote_number]
  rw [bandwidth_value h, parse_TOTALRATE, fields_quoted, List.map_map, List.filterMap_map,
    List.filterMap_eq_nil_iff]
  · intro e he
    have hname := (h.bandwidth e he).toIsName.strip
    simp only [Function.comp_apply, hentry, splitOn_pair hname.colon (isName_number _).colon]
  · intro w hw
    obtain ⟨e, he, rfl⟩ := List.mem_map.mp hw
    rw [hentry]
    exact isWord_pair (h.bandwidth e he).toIsName.strip (isName_number _)

def totalRates (conf : CNetworkShapingConfig) : List CNetworkShaping :=
  conf.networkShaping.map fun e =>
    { device := readDevice e, classId := e.classId, totalRate := e.totalRate }

def rateMpus (nrm : RateMpu) (conf : CNetworkShapingConfig) : List CNetworkShaping :=
  (limited nrm conf).map fun e =>
    { device := readDevice e, classId := e.classId, rateMPU := e.rateMPU }

def rates (conf : CNetworkShapingConfig) : List CNetworkShaping :=
  (rated conf).map fun e => { device := wildcard, classId := e.classId, rate := e.rate }

theorem read_totalRate (h : conf.Printable) :
    gather .TOTALRATE parse_TOTALRATE (newBuffers nrm conf ls) =
      copies (max 1 (countLines .TOTALRATE ls)) (totalRates conf) := by
  apply gather_updated (v := get_TOTALRATE_string conf)
  · intro l hl
    simp only [rewriteLine, hl]
  · exact parse_totalRate h
  · intro hempty
    rw [totalRate_value h] at hempty
    simp [totalRates, valueOf_map_isEmpty hempty]
  · have hmisplaced : gather .TOTALRATE parse_TOTALRATE [if printed .BANDWIDTH ls then []
        else printSetting .TOTALRATE (get_BANDWIDTH_string conf)] = [] := by
      cases printed .BANDWIDTH ls with
      | true => simp [gather, setting_nil]
      | false =>
          exact (gather_printSetting fun _ => parse_totalRate_bandwidth h).trans
            (parse_totalRate_bandwidth h)
    rw [appendedLines, gather_appended, hmisplaced, gather_guarded .RATEMPU (by decide),
      gather_guarded .RATE (by decide), gather_guarded_line .TRAFFIC_SHAPING (by decide)]
    simp

theorem read_rateMpu (h : conf.Printable) :
    gather .RATEMPU (parse_RATEMPU nrm) (newBuffers nrm conf ls) =
      copies (max 1 (countLines .RATEMPU ls)) (rateMpus nrm conf) := by
  apply gather_updated (v := get_RATEMPU_string nrm conf)
  · intro l hl
    simp only [rewriteLine, hl]
  · exact parse_rateMpu h
  · intro hempty
    rw [rateMpu_value h] at hempty
    simp [rateMpus, valueOf_map_isEmpty hempty]
  · rw [appendedLines, gather_appended, gather_guarded .TOTALRATE (by decide),
      gather_guarded .TOTALRATE (by decide), gather_guarded .RATE (by decide),
      gather_guarded_line .TRAFFIC_SHAPING (by decide)]
    simp

theorem read_rate :
    gather .RATE parse_RATE (newBuffers nrm conf ls) =
      copies (max 1 (countLines .RATE ls)) (rates conf) := by
  apply gather_updated (v := get_RATE_string conf)
  · intro l hl
    simp only [rewriteLine, hl]
  · exact parse_rate
  · intro hempty
    rw [rate_value] at hempty
    simp [rates, valueOf_map_isEmpty hempty]
  · rw [appendedLines, gather_appended, gather_guarded .TOTALRATE (by decide),
      gather_guarded .TOTALRATE (by decide), gather_guarded .RATEMPU (by decide),
      gather_guarded_line .TRAFFIC_SHAPING (by decide)]
    simp

theorem hasYes_enabled : hasYes (quoted (enabledValue conf)) = conf.enabled := by
  unfold enabledValue
  cases conf.enabled <;> decide

theorem readEnabled_filter (bufs : List Text) :
    readEnabled (bufs.filter fun b => !b.isEmpty) = readEnabled bufs := by
  induction bufs with
  | nil => rfl
  | cons b bufs ih =>
      unfold readEnabled at *
      cases b with
      | nil => simp [setting_nil, ih]
      | cons c b => simp [ih]

/-- Each line of the enabled flag says the flag, and there is one. -/
theorem read_enabled : readEnabled (newBuffers nrm conf ls) = conf.enabled := by
  have hline : ∀ b ∈ newBuffers nrm conf ls, setting b = some .TRAFFIC_SHAPING →
      b = settingLine .TRAFFIC_SHAPING (enabledValue conf) := by
    intro b hb hset
    rcases List.mem_append.mp hb with hb | hb
    · obtain ⟨l, -, rfl⟩ := List.mem_map.mp hb
      simp only [rewriteLine, setting_rewriteLine hset]
    · simp only [appendedLines, List.mem_cons, List.not_mem_nil, or_false] at hb
      have hno : ∀ (g : Bool) (key : Setting) (v : Text), key ≠ .TRAFFIC_SHAPING →
          b ≠ if g then [] else printSetting key v := by
        rintro g key v hne rfl
        cases g with
        | true => simp [setting_nil] at hset
        | false => exact hne (setting_printSetting hset)
      rcases hb with hb | hb | hb | hb | hb
      · exact absurd hb (hno _ _ _ (by decide))
      · exact absurd hb (hno _ _ _ (by decide))
      · exact absurd hb (hno _ _ _ (by decide))
      · exact absurd hb (hno _ _ _ (by decide))
      · rw [hb] at hset ⊢
        split
        case isTrue hp => simp [hp, setting_nil] at hset
        case isFalse => rfl
  have hexists : settingLine .TRAFFIC_SHAPING (enabledValue conf) ∈ newBuffers nrm conf ls := by
    apply List.mem_append.mpr
    by_cases hp : printed .TRAFFIC_SHAPING ls = true
    · obtain ⟨l, hl, hset⟩ := List.any_eq_true.mp hp
      have hset' : setting l = some .TRAFFIC_SHAPING := by simpa using hset
      exact .inl (List.mem_map.mpr ⟨l, hl, by simp only [rewriteLine, hset']⟩)
    · exact .inr (by simp [appendedLines, hp])
  unfold readEnabled
  rw [Bool.eq_iff_iff, List.any_eq_true]
  constructor
  · rintro ⟨b, hb, hyes⟩
    simp only [Bool.and_eq_true, decide_eq_true_eq] at hyes
    rw [hline b hb hyes.1, drop_settingLine, hasYes_enabled] at hyes
    exact hyes.2
  · intro hen
    refine ⟨_, hexists, ?_⟩
    simp [setting_settingLine, drop_settingLine, hasYes_enabled, hen]

/-! ## Merging -/

/-- The rate of the entry's own class and device, or else the last of all rates. -/
def readRate (lstRATE : List CNetworkShaping) (totalrate : CNetworkShaping) : UInt32 :=
  match lstRATE.find? fun r => r.classId = totalrate.classId ∧ r.device = totalrate.device with
  | some r => r.rate
  | none => (lstRATE.getLast?.map CNetworkShaping.rate).getD 0

/-- The limit of the entry's own class and device, or else the last for its class on every
device. -/
def readMpu (nrm : RateMpu) (lstRATEMPU : List CNetworkShaping) (totalrate : CNetworkShaping) :
    Int32 :=
  match lstRATEMPU.find? fun r => r.classId = totalrate.classId ∧ r.device = totalrate.device with
  | some r => r.rateMPU
  | none => (((lstRATEMPU.filter fun r =>
      r.device = wildcard ∧ r.classId = totalrate.classId).getLast?).map
        CNetworkShaping.rateMPU).getD nrm.NRM_DISABLED

theorem findRate_found (t : CNetworkShaping) (lst : List CNetworkShaping) (d : CNetworkShaping) :
    (findRate t lst d).2 =
      (lst.find? fun r => r.classId = t.classId ∧ r.device = t.device).map CNetworkShaping.rate := by
  induction lst generalizing d with
  | nil => rfl
  | cons r lst ih =>
      unfold findRate
      by_cases hr : r.classId = t.classId ∧ r.device = t.device
      · simp [hr]
      · rw [List.find?_cons_of_neg (by simpa using hr)]
        simp only [hr, if_false]
        exact ih _

theorem findRate_default {t : CNetworkShaping} {lst : List CNetworkShaping}
    (h : (lst.find? fun r => r.classId = t.classId ∧ r.device = t.device) = none)
    (hall : ∀ r ∈ lst, r.device = wildcard) (d : CNetworkShaping) :
    (findRate t lst d).1 = lst.getLast?.getD d := by
  induction lst generalizing d with
  | nil => rfl
  | cons r lst ih =>
      have hr : ¬ (r.classId = t.classId ∧ r.device = t.device) := by
        simpa using List.find?_eq_none.mp h r (by simp)
      rw [List.find?_cons_of_neg (by simpa using hr)] at h
      have hstar : r.device = wildcard := hall r (by simp)
      unfold findRate
      simp only [hr, if_false, if_pos hstar]
      rw [ih h (fun r' hr' => hall r' (List.mem_cons_of_mem r hr'))]
      cases lst with
      | nil => rfl
      | cons r' lst => simp [List.getLast?_cons]

theorem findRateMPU_found (t : CNetworkShaping) (lst : List CNetworkShaping)
    (d : CNetworkShaping) :
    (findRateMPU t lst d).2 =
      (lst.find? fun r => r.classId = t.classId ∧ r.device = t.device).map
        CNetworkShaping.rateMPU := by
  induction lst generalizing d with
  | nil => rfl
  | cons r lst ih =>
      unfold findRateMPU
      by_cases hr : r.classId = t.classId ∧ r.device = t.device
      · simp [hr]
      · rw [List.find?_cons_of_neg (by simpa using hr)]
        simp only [hr, if_false]
        exact ih _

theorem findRateMPU_default {t : CNetworkShaping} {lst : List CNetworkShaping}
    (h : (lst.find? fun r => r.classId = t.classId ∧ r.device = t.device) = none)
    (d : CNetworkShaping) :
    (findRateMPU t lst d).1 =
      ((lst.filter fun r => r.device = wildcard ∧ r.classId = t.classId).getLast?).getD d := by
  induction lst generalizing d with
  | nil => rfl
  | cons r lst ih =>
      have hr : ¬ (r.classId = t.classId ∧ r.device = t.device) := by
        simpa using List.find?_eq_none.mp h r (by simp)
      rw [List.find?_cons_of_neg (by simpa using hr)] at h
      unfold findRateMPU
      simp only [hr, if_false]
      rw [ih h]
      by_cases hw : r.device = wildcard ∧ r.classId = t.classId
      · rw [if_pos hw, List.filter_cons, if_pos (by simpa using hw)]
        cases lst.filter fun r => decide (r.device = wildcard ∧ r.classId = t.classId) with
        | nil => rfl
        | cons r' rest => simp [List.getLast?_cons]
      · rw [if_neg hw, List.filter_cons, if_neg (by simpa using hw)]

/-- Where all rates are of every device, merging is entry by entry: no default is carried over. -/
theorem mergeShaping_eq {lstRATEMPU lstRATE : List CNetworkShaping}
    (hrate : ∀ r ∈ lstRATE, r.device = wildcard ∧ r.rate ≠ 0) {ts : List CNetworkShaping}
    (hts : ∀ t ∈ ts, t.rate = 0) {d dm : CNetworkShaping} (hd : lstRATE = [] → d.rate = 0) :
    mergeShaping nrm lstRATEMPU lstRATE ts d dm = ts.map fun t =>
      { t with rate := readRate lstRATE t, rateMPU := readMpu nrm lstRATEMPU t } := by
  induction ts generalizing d dm with
  | nil => rfl
  | cons t ts ih =>
      have ht := hts t (by simp)
      have hnext : lstRATE = [] → (findRate t lstRATE d).1.rate = 0 := by
        rintro rfl
        exact hd rfl
      have hrest : mergeShaping nrm lstRATEMPU lstRATE ts (findRate t lstRATE d).1
          (findRateMPU t lstRATEMPU { dm with rateMPU := nrm.NRM_DISABLED }).1 = ts.map fun t =>
            { t with rate := readRate lstRATE t, rateMPU := readMpu nrm lstRATEMPU t } :=
        ih (fun t' ht' => hts t' (List.mem_cons_of_mem t ht')) hnext
      have hr : (let rate := (findRate t lstRATE d).2.getD t.rate
          if rate = 0 then (findRate t lstRATE d).1.rate else rate) = readRate lstRATE t := by
        rw [findRate_found]
        unfold readRate
        cases hfind : lstRATE.find? fun r => r.classId = t.classId ∧ r.device = t.device with
        | some r =>
            have hne := (hrate r (List.mem_of_find?_eq_some hfind)).2
            simp [hne]
        | none =>
            simp only [Option.map_none, Option.getD_none, ht, if_true]
            rw [findRate_default hfind fun r hr => (hrate r hr).1]
            cases hlast : lstRATE.getLast? with
            | some r => rfl
            | none => exact hd (List.getLast?_eq_none_iff.mp hlast)
      have hm : (findRateMPU t lstRATEMPU { dm with rateMPU := nrm.NRM_DISABLED }).2.getD
          (findRateMPU t lstRATEMPU { dm with rateMPU := nrm.NRM_DISABLED }).1.rateMPU =
            readMpu nrm lstRATEMPU t := by
        rw [findRateMPU_found]
        unfold readMpu
        cases hfind : lstRATEMPU.find? fun r => r.classId = t.classId ∧ r.device = t.device with
        | some r => rfl
        | none =>
            simp only [Option.map_none, Option.getD_none]
            rw [findRateMPU_default hfind]
            cases ((lstRATEMPU.filter fun r =>
              r.device = wildcard ∧ r.classId = t.classId).getLast?) <;> rfl
      rw [List.map_cons, ← hrest, ← hr, ← hm]
      rfl

theorem map_copies {β γ : Type} (f : β → γ) (k : Nat) (l : List β) :
    (copies k l).map f = copies k (l.map f) := by
  induction k with
  | zero => rfl
  | succ k ih => rw [copies_succ, copies_succ, List.map_append, ih]

theorem readRate_copies {k : Nat} (hk : 0 < k) (lst : List CNetworkShaping)
    (t : CNetworkShaping) : readRate (copies k lst) t = readRate lst t := by
  unfold readRate
  rw [find?_copies hk, getLast?_copies hk]

theorem readMpu_copies {k : Nat} (hk : 0 < k) (lst : List CNetworkShaping)
    (t : CNetworkShaping) : readMpu nrm (copies k lst) t = readMpu nrm lst t := by
  unfold readMpu
  rw [find?_copies hk, filter_copies, getLast?_copies hk]

/-- What is read for one entry of shaping. -/
def readEntry (nrm : RateMpu) (conf : CNetworkShapingConfig) (e : CNetworkShaping) :
    CNetworkShaping :=
  let t : CNetworkShaping :=
    { device := readDevice e, classId := e.classId, totalRate := e.totalRate }
  { t with rate := readRate (rates conf) t, rateMPU := readMpu nrm (rateMpus nrm conf) t }

theorem mem_copies {β : Type} {k : Nat} {l : List β} {x : β} (h : x ∈ copies k l) : x ∈ l := by
  obtain ⟨l', hl', hx⟩ := List.mem_flatten.mp h
  rwa [List.eq_of_mem_replicate hl'] at hx

/-- All of shaping, as it is read from the updated file. -/
theorem read_shaping (h : conf.Printable) :
    mergeShaping nrm (gather .RATEMPU (parse_RATEMPU nrm) (newBuffers nrm conf ls))
        (gather .RATE parse_RATE (newBuffers nrm conf ls))
        (gather .TOTALRATE parse_TOTALRATE (newBuffers nrm conf ls)) {} {} =
      copies (max 1 (countLines .TOTALRATE ls)) (conf.networkShaping.map (readEntry nrm conf)) := by
  rw [read_rateMpu h, read_rate, read_totalRate h, mergeShaping_eq]
  · simp only [readRate_copies (show 0 < max 1 (countLines .RATE ls) by omega),
      readMpu_copies (show 0 < max 1 (countLines .RATEMPU ls) by omega), map_copies, totalRates,
      List.map_map]
    rfl
  · intro r hr
    obtain ⟨e, he, rfl⟩ := List.mem_map.mp (mem_copies hr)
    have hne : e.rate ≠ 0 := by simpa using (List.mem_filter.mp he).2
    exact ⟨rfl, hne⟩
  · intro t ht
    obtain ⟨e, -, rfl⟩ := List.mem_map.mp (mem_copies ht)
    rfl
  · exact fun _ => rfl

end DispService.Shaping
