import DispService.Shaping.Config

/-! What is printed for a setting reads back as the entries it was printed from, but for the quotes
in the device names, which the reader takes out. -/
namespace DispService.Shaping

open Lib

/-! ## Formats -/

def pair (a b : Text) : Text := a ++ ':' :: b

def triple (a b c : Text) : Text := a ++ ':' :: (b ++ ':' :: c)

theorem format_pair {a : Text} (ha : '%' ∉ a) (b : Text) :
    arg (arg "%1:%2 ".toList a) b = pair a b ++ [' '] := by
  have hfirst : arg "%1:%2 ".toList a = a ++ ":%2 ".toList := rfl
  have hsecond : arg ":%2 ".toList b = ':' :: (b ++ [' ']) := rfl
  rw [hfirst, arg_append ha, hsecond]
  simp [pair]

theorem format_triple {a b : Text} (ha : '%' ∉ a) (hb : '%' ∉ b) (c : Text) :
    arg (arg (arg "%1:%2:%3 ".toList a) b) c = triple a b c ++ [' '] := by
  have hfirst : arg "%1:%2:%3 ".toList a = a ++ ":%2:%3 ".toList := rfl
  have hsecond : arg ":%2:%3 ".toList b = ':' :: (b ++ ":%3 ".toList) := rfl
  have hthird : arg ":%3 ".toList c = ':' :: (c ++ [' ']) := rfl
  have hab : '%' ∉ a ++ ':' :: b := by
    simp only [List.mem_append, List.mem_cons]
    rintro (h | h | h)
    · exact ha h
    · exact absurd h (by decide)
    · exact hb h
  have hgroup : a ++ ':' :: (b ++ ":%3 ".toList) = (a ++ ':' :: b) ++ ":%3 ".toList := by simp
  rw [hfirst, arg_append ha, hsecond, hgroup, arg_append hab, hthird]
  simp [triple]

theorem percent_number (n : Nat) : '%' ∉ number n := not_mem_number (by decide)

theorem format_rate (n m : Nat) :
    arg (arg "*:%1:%2 ".toList (number n)) (number m) =
      triple wildcard (number n) (number m) ++ [' '] := by
  have hfirst : arg "*:%1:%2 ".toList (number n) = '*' :: ':' :: (number n ++ ":%2 ".toList) := rfl
  have hsecond : arg ":%2 ".toList (number m) = ':' :: (number m ++ [' ']) := rfl
  have hprefix : '%' ∉ '*' :: ':' :: number n := by
    simp only [List.mem_cons]
    rintro (h | h | h)
    · exact absurd h (by decide)
    · exact absurd h (by decide)
    · exact percent_number n h
  have hgroup : '*' :: ':' :: (number n ++ ":%2 ".toList) =
      ('*' :: ':' :: number n) ++ ":%2 ".toList := rfl
  rw [hfirst, hgroup, arg_append hprefix, hsecond]
  simp [triple, wildcard]

/-! ## Words -/

/-- The entries of a value, each followed by a space. -/
def valueOf (ws : List Text) : Text := ws.flatMap fun w => w ++ [' ']

theorem valueOf_isEmpty {ws : List Text} : (valueOf ws).isEmpty = true ↔ ws = [] := by
  cases ws <;> simp [valueOf]

def strip (text : Text) : Text := text.filter (· ≠ '"')

theorem strip_append (a b : Text) : strip (a ++ b) = strip a ++ strip b :=
  List.filter_append ..

theorem strip_valueOf (ws : List Text) : strip (valueOf ws) = valueOf (ws.map strip) := by
  induction ws with
  | nil => rfl
  | cons w ws ih =>
      have hblank : strip [' '] = [' '] := by decide
      unfold valueOf at *
      rw [List.flatMap_cons, strip_append, strip_append, ih, List.map_cons, List.flatMap_cons,
        hblank]

theorem strip_of_not_mem {text : Text} (h : '"' ∉ text) : strip text = text := by
  apply List.filter_eq_self.mpr
  intro c hc
  have hne : c ≠ '"' := fun hq => h (hq ▸ hc)
  simpa using hne

theorem strip_eq_self {text : Text} : strip text = text ↔ '"' ∉ text := by
  refine ⟨fun h hmem => ?_, strip_of_not_mem⟩
  rw [← h] at hmem
  simp [strip] at hmem

/-- A device name: no colon and no white space. -/
structure IsName (name : Text) : Prop where
  colon : ':' ∉ name
  space : ∀ c ∈ name, isSpace c = false

theorem IsName.strip {name : Text} (h : IsName name) : IsName (strip name) where
  colon := fun hc => h.colon (List.mem_filter.mp hc).1
  space := fun c hc => h.space c (List.mem_filter.mp hc).1

theorem isName_wildcard : IsName wildcard := ⟨by decide, forall_of_all (by decide)⟩

theorem isName_shownDevice {name : Text} (h : IsName name) : IsName (shownDevice name) := by
  unfold shownDevice
  split
  · exact isName_wildcard
  · exact h

theorem space_of_isDigit {c : Char} (h : c.isDigit = true) : isSpace c = false := by
  by_contra hspace
  have hspace' : isSpace c = true := by simpa using hspace
  simp only [isSpace, decide_eq_true_eq] at hspace'
  rcases hspace' with rfl | rfl | rfl | rfl | rfl | rfl <;> exact absurd h (by decide)

theorem isName_number (n : Nat) : IsName (number n) :=
  ⟨not_mem_number (by decide), fun _ hc => space_of_isDigit (isDigit_number hc)⟩

theorem isName_integer (n : Int) : IsName (integer n) := by
  unfold integer
  split
  · refine ⟨?_, ?_⟩
    · rw [List.mem_cons]
      rintro (h | h)
      · exact absurd h (by decide)
      · exact (isName_number _).colon h
    · intro c hc
      rcases List.mem_cons.mp hc with rfl | hc
      · decide
      · exact (isName_number _).space c hc
  · exact isName_number _

theorem quote_number (n : Nat) : strip (number n) = number n :=
  strip_of_not_mem (not_mem_number (by decide))

theorem quote_integer (n : Int) : strip (integer n) = integer n := by
  apply strip_of_not_mem
  unfold integer
  split
  · rw [List.mem_cons]
    rintro (h | h)
    · exact absurd h (by decide)
    · exact not_mem_number (by decide) h
  · exact not_mem_number (by decide)

theorem strip_pair (a b : Text) : strip (pair a b) = pair (strip a) (strip b) := by
  have hcolon : strip [':'] = [':'] := by decide
  have hgroup : pair a b = a ++ ([':'] ++ b) := rfl
  rw [hgroup, strip_append, strip_append, hcolon]
  rfl

theorem strip_triple (a b c : Text) : strip (triple a b c) = triple (strip a) (strip b) (strip c) :=
  strip_pair a (pair b c) |>.trans (by rw [strip_pair b c]; rfl)

theorem splitOn_pair {a b : Text} (ha : ':' ∉ a) (hb : ':' ∉ b) :
    (pair a b).splitOn ':' = [a, b] := by
  rw [pair, List.splitOn_append_cons_self_of_not_mem ha, List.splitOn_eq_singleton hb]

theorem splitOn_triple {a b c : Text} (ha : ':' ∉ a) (hb : ':' ∉ b) (hc : ':' ∉ c) :
    (triple a b c).splitOn ':' = [a, b, c] := by
  rw [triple, List.splitOn_append_cons_self_of_not_mem ha,
    List.splitOn_append_cons_self_of_not_mem hb, List.splitOn_eq_singleton hc]

theorem isWord_pair {a b : Text} (ha : IsName a) (hb : IsName b) : IsWord isSpace (pair a b) := by
  refine ⟨by simp [pair], ?_⟩
  intro c hc
  simp only [pair, List.mem_append, List.mem_cons] at hc
  rcases hc with hc | rfl | hc
  · exact ha.space c hc
  · decide
  · exact hb.space c hc

theorem isWord_triple {a b c : Text} (ha : IsName a) (hb : IsName b) (hc : IsName c) :
    IsWord isSpace (triple a b c) := by
  refine ⟨by simp [triple], ?_⟩
  intro x hx
  simp only [triple, List.mem_append, List.mem_cons] at hx
  rcases hx with hx | rfl | hx | rfl | hx
  · exact ha.space x hx
  · decide
  · exact hb.space x hx
  · decide
  · exact hc.space x hx

/-- What stands after the key of a printed line. -/
def quoted (value : Text) : Text := '"' :: value ++ "\"\n".toList

/-- A printed value reads back as its entries without the quotes. -/
theorem fields_quoted {ws : List Text} (h : ∀ w ∈ ws, IsWord isSpace (strip w)) :
    fields (quoted (valueOf ws)) = ws.map fun w => (strip w).splitOn ':' := by
  have hstrip : (quoted (valueOf ws)).filter (· ≠ '"') = valueOf (ws.map strip) ++ ['\n'] := by
    have hgroup : quoted (valueOf ws) = ['"'] ++ (valueOf ws ++ "\"\n".toList) := rfl
    have hopen : strip ['"'] = [] := by decide
    have hclose : strip "\"\n".toList = ['\n'] := by decide
    change strip (quoted (valueOf ws)) = _
    rw [hgroup, strip_append, strip_append, hopen, hclose, strip_valueOf, List.nil_append]
  have hwords : ∀ w ∈ ws.map strip, IsWord isSpace w := by
    intro w hw
    obtain ⟨v, hv, rfl⟩ := List.mem_map.mp hw
    exact h v hv
  unfold fields
  rw [hstrip, valueOf, words_join (by decide) hwords (forall_of_all (by decide)), List.map_map]
  rfl

/-! ## The four values -/

/-- What the names of a configuration are promised to be, and the two characters that the printing
does not stand. -/
structure Printable (name : Text) : Prop extends IsName name where
  percent : '%' ∉ name
  nul : Shaping.nul ∉ name

theorem printable_wildcard : Printable wildcard := ⟨isName_wildcard, by decide, by decide⟩

theorem printable_shownDevice {name : Text} (h : Printable name) :
    Printable (shownDevice name) := by
  unfold shownDevice
  split
  · exact printable_wildcard
  · exact h

structure CNetworkShapingConfig.Printable (conf : CNetworkShapingConfig) : Prop where
  bandwidth : ∀ e ∈ conf.devicesBandwidth, Shaping.Printable e.device
  shaping : ∀ e ∈ conf.networkShaping, Shaping.Printable e.device

def bandwidthEntry (e : CDeviceBandwidth) : Text := pair e.device (number e.bandwidth.toNat)

def totalRateEntry (e : CNetworkShaping) : Text :=
  triple (shownDevice e.device) (number e.classId.toNat) (number e.totalRate.toNat)

def rateMpuEntry (nrm : RateMpu) (e : CNetworkShaping) : Text :=
  if e.rateMPU = nrm.NRM_ENABLED then pair (shownDevice e.device) (number e.classId.toNat)
  else triple (shownDevice e.device) (number e.classId.toNat) (integer e.rateMPU.toInt)

def rateEntry (e : CNetworkShaping) : Text :=
  triple wildcard (number e.classId.toNat) (number e.rate.toNat)

/-- The entries with a packet rate limit, and those with a rate. -/
def limited (nrm : RateMpu) (conf : CNetworkShapingConfig) : List CNetworkShaping :=
  conf.networkShaping.filter fun e => e.rateMPU ≠ nrm.NRM_DISABLED

def rated (conf : CNetworkShapingConfig) : List CNetworkShaping :=
  conf.networkShaping.filter fun e => e.rate ≠ 0

variable {nrm : RateMpu} {conf : CNetworkShapingConfig}

theorem bandwidth_value (h : conf.Printable) :
    get_BANDWIDTH_string conf = valueOf (conf.devicesBandwidth.map bandwidthEntry) := by
  unfold get_BANDWIDTH_string valueOf
  rw [List.flatMap_map]
  exact List.flatMap_congr fun e he => format_pair (h.bandwidth e he).percent _

theorem totalRate_value (h : conf.Printable) :
    get_TOTALRATE_string conf = valueOf (conf.networkShaping.map totalRateEntry) := by
  unfold get_TOTALRATE_string valueOf
  rw [List.flatMap_map]
  exact List.flatMap_congr fun e he =>
    format_triple (printable_shownDevice (h.shaping e he)).percent (percent_number _) _

theorem rateMpu_value (h : conf.Printable) :
    get_RATEMPU_string nrm conf = valueOf ((limited nrm conf).map (rateMpuEntry nrm)) := by
  unfold get_RATEMPU_string valueOf limited
  have hshown : ∀ e ∈ conf.networkShaping, '%' ∉ shownDevice e.device :=
    fun e he => (printable_shownDevice (h.shaping e he)).percent
  generalize conf.networkShaping = es at hshown
  induction es with
  | nil => rfl
  | cons e es ih =>
      have he := hshown e (by simp)
      have hrest := ih fun e' he' => hshown e' (List.mem_cons_of_mem e he')
      rw [List.flatMap_cons, hrest]
      by_cases hd : e.rateMPU = nrm.NRM_DISABLED
      · simp [hd]
      · have hkept : decide (e.rateMPU ≠ nrm.NRM_DISABLED) = true := by simpa using hd
        rw [if_neg hd, List.filter_cons, if_pos hkept, List.map_cons, List.flatMap_cons]
        by_cases hen : e.rateMPU = nrm.NRM_ENABLED
        · rw [if_pos hen, format_pair he, rateMpuEntry, if_pos hen]
        · rw [if_neg hen, format_triple he (percent_number _), rateMpuEntry, if_neg hen]

theorem rate_value : get_RATE_string conf = valueOf ((rated conf).map rateEntry) := by
  unfold get_RATE_string valueOf rated
  induction conf.networkShaping with
  | nil => rfl
  | cons e es ih =>
      rw [List.flatMap_cons, ih]
      by_cases he : e.rate = 0
      · simp [he]
      · have hkept : decide (e.rate ≠ 0) = true := by simpa using he
        rw [if_pos he, List.filter_cons, if_pos hkept, List.map_cons, List.flatMap_cons,
          format_rate]
        rfl

/-! ## Reading the four values back -/

theorem parse_bandwidth (h : conf.Printable) :
    parse_BANDWIDTH (quoted (get_BANDWIDTH_string conf)) =
      conf.devicesBandwidth.map fun e => { e with device := strip e.device } := by
  have hentry : ∀ e : CDeviceBandwidth,
      strip (bandwidthEntry e) = pair (strip e.device) (number e.bandwidth.toNat) :=
    fun e => by rw [bandwidthEntry, strip_pair, quote_number]
  rw [bandwidth_value h, parse_BANDWIDTH, fields_quoted, List.map_map, List.filterMap_map,
    ← List.filterMap_eq_map]
  · apply List.filterMap_congr
    intro e he
    have hname := (h.bandwidth e he).toIsName.strip
    simp only [Function.comp_apply, hentry,
      splitOn_pair hname.colon (isName_number _).colon, toUInt_number]
  · intro w hw
    obtain ⟨e, he, rfl⟩ := List.mem_map.mp hw
    rw [hentry]
    exact isWord_pair (h.bandwidth e he).toIsName.strip (isName_number _)

/-- The name that is read for a device. -/
def readDevice (e : CNetworkShaping) : Text := strip (shownDevice e.device)

theorem parse_totalRate (h : conf.Printable) :
    parse_TOTALRATE (quoted (get_TOTALRATE_string conf)) =
      conf.networkShaping.map fun e =>
        { device := readDevice e, classId := e.classId, totalRate := e.totalRate } := by
  have hentry : ∀ e : CNetworkShaping, strip (totalRateEntry e) =
      triple (readDevice e) (number e.classId.toNat) (number e.totalRate.toNat) :=
    fun e => by rw [totalRateEntry, strip_triple, quote_number, quote_number]; rfl
  have hname : ∀ e ∈ conf.networkShaping, IsName (readDevice e) :=
    fun e he => (isName_shownDevice (h.shaping e he).toIsName).strip
  rw [totalRate_value h, parse_TOTALRATE, fields_quoted, List.map_map, List.filterMap_map,
    ← List.filterMap_eq_map]
  · apply List.filterMap_congr
    intro e he
    simp only [Function.comp_apply, hentry, toUInt_number,
      splitOn_triple (hname e he).colon (isName_number _).colon (isName_number _).colon]
  · intro w hw
    obtain ⟨e, he, rfl⟩ := List.mem_map.mp hw
    rw [hentry]
    exact isWord_triple (hname e he) (isName_number _) (isName_number _)

theorem parse_rateMpu (h : conf.Printable) :
    parse_RATEMPU nrm (quoted (get_RATEMPU_string nrm conf)) =
      (limited nrm conf).map fun e =>
        { device := readDevice e, classId := e.classId, rateMPU := e.rateMPU } := by
  have hname : ∀ e ∈ limited nrm conf, IsName (readDevice e) :=
    fun e he => (isName_shownDevice (h.shaping e (List.mem_filter.mp he).1).toIsName).strip
  rw [rateMpu_value h, parse_RATEMPU, fields_quoted, List.map_map, List.filterMap_map,
    ← List.filterMap_eq_map]
  · apply List.filterMap_congr
    intro e he
    by_cases hen : e.rateMPU = nrm.NRM_ENABLED
    · have hsplit : (strip (rateMpuEntry nrm e)).splitOn ':' =
          [readDevice e, number e.classId.toNat] := by
        rw [rateMpuEntry, if_pos hen, strip_pair, quote_number]
        exact splitOn_pair (hname e he).colon (isName_number _).colon
      simp only [Function.comp_apply, hsplit, toUInt_number, hen]
    · have hsplit : (strip (rateMpuEntry nrm e)).splitOn ':' =
          [readDevice e, number e.classId.toNat, integer e.rateMPU.toInt] := by
        rw [rateMpuEntry, if_neg hen, strip_triple, quote_number, quote_integer]
        exact splitOn_triple (hname e he).colon (isName_number _).colon (isName_integer _).colon
      simp only [Function.comp_apply, hsplit, toUInt_number, toInt_integer]
  · intro w hw
    obtain ⟨e, he, rfl⟩ := List.mem_map.mp hw
    unfold rateMpuEntry
    split
    · rw [strip_pair, quote_number]
      exact isWord_pair (hname e he) (isName_number _)
    · rw [strip_triple, quote_number, quote_integer]
      exact isWord_triple (hname e he) (isName_number _) (isName_integer _)

theorem parse_rate :
    parse_RATE (quoted (get_RATE_string conf)) =
      (rated conf).map fun e => { device := wildcard, classId := e.classId, rate := e.rate } := by
  have hentry : ∀ e : CNetworkShaping, strip (rateEntry e) = rateEntry e := by
    intro e
    have hstar : strip wildcard = wildcard := by decide
    rw [rateEntry, strip_triple, quote_number, quote_number, hstar]
  rw [rate_value, parse_RATE, fields_quoted, List.map_map, List.filterMap_map,
    ← List.filterMap_eq_map]
  · apply List.filterMap_congr
    intro e he
    simp only [Function.comp_apply, hentry]
    simp only [rateEntry, toUInt_number,
      splitOn_triple isName_wildcard.colon (isName_number _).colon (isName_number _).colon]
  · intro w hw
    obtain ⟨e, he, rfl⟩ := List.mem_map.mp hw
    rw [hentry]
    exact isWord_triple isName_wildcard (isName_number _) (isName_number _)

end DispService.Shaping
