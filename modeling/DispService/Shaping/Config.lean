import DispService.Shaping.Text

/-! `CVzNetworkShaping::update_network_shaping_config`: the settings of network shaping printed
into the vz configuration file, over the lines they had or at its end. -/
namespace DispService.Shaping

open Lib

structure CDeviceBandwidth where
  device : Text
  bandwidth : UInt32
  deriving DecidableEq, Repr

structure CNetworkShaping where
  device : Text := []
  classId : UInt32 := 0
  totalRate : UInt32 := 0
  rate : UInt32 := 0
  rateMPU : Int32 := 0
  deriving DecidableEq, Repr

structure CNetworkShapingConfig where
  enabled : Bool := false
  devicesBandwidth : List CDeviceBandwidth := []
  networkShaping : List CNetworkShaping := []
  deriving DecidableEq, Repr

/-- The two values of `RateMPU` that stand for words, as the public headers number them. -/
structure RateMpu where
  NRM_DISABLED : Int32
  NRM_ENABLED : Int32
  distinct : NRM_ENABLED ≠ NRM_DISABLED

def wildcard : Text := "*".toList

def shownDevice (device : Text) : Text := if device.isEmpty then wildcard else device

def get_BANDWIDTH_string (conf : CNetworkShapingConfig) : Text :=
  conf.devicesBandwidth.flatMap fun entry =>
    arg (arg "%1:%2 ".toList entry.device) (number entry.bandwidth.toNat)

def get_TOTALRATE_string (conf : CNetworkShapingConfig) : Text :=
  conf.networkShaping.flatMap fun entry =>
    arg (arg (arg "%1:%2:%3 ".toList (shownDevice entry.device)) (number entry.classId.toNat))
      (number entry.totalRate.toNat)

def get_RATEMPU_string (nrm : RateMpu) (conf : CNetworkShapingConfig) : Text :=
  conf.networkShaping.flatMap fun entry =>
    if entry.rateMPU = nrm.NRM_DISABLED then []
    else if entry.rateMPU = nrm.NRM_ENABLED then
      arg (arg "%1:%2 ".toList (shownDevice entry.device)) (number entry.classId.toNat)
    else
      arg (arg (arg "%1:%2:%3 ".toList (shownDevice entry.device)) (number entry.classId.toNat))
        (integer entry.rateMPU.toInt)

def get_RATE_string (conf : CNetworkShapingConfig) : Text :=
  conf.networkShaping.flatMap fun entry =>
    if entry.rate ≠ 0 then
      arg (arg "*:%1:%2 ".toList (number entry.classId.toNat)) (number entry.rate.toNat)
    else []

/-! ## Lines -/

inductive Setting where
  | BANDWIDTH
  | TOTALRATE
  | RATEMPU
  | RATE
  | TRAFFIC_SHAPING
  deriving DecidableEq, Repr

/-- What a line of the setting starts with. -/
def Setting.key : Setting → Text
  | .BANDWIDTH => "BANDWIDTH=".toList
  | .TOTALRATE => "TOTALRATE=".toList
  | .RATEMPU => "RATEMPU=".toList
  | .RATE => "RATE=".toList
  | .TRAFFIC_SHAPING => "TRAFFIC_SHAPING=".toList

/-- The order in which the keys are tried. -/
def Setting.all : List Setting := [.BANDWIDTH, .TOTALRATE, .RATEMPU, .RATE, .TRAFFIC_SHAPING]

/-- What a buffer holds as a C string. -/
def cString (buf : Text) : Text := buf.takeWhile (· != nul)

/-- The first character that is no space: the `p` of both loops. -/
def skipSpaces (buf : Text) : Text := buf.dropWhile isSpace

/-- The setting that a line gives. -/
def setting (buf : Text) : Option Setting :=
  Setting.all.find? fun key => key.key.isPrefixOf (skipSpaces buf)

/-- `"%s=\"%s\"\n"` -/
def settingLine (key : Setting) (value : Text) : Text :=
  key.key ++ '"' :: value ++ "\"\n".toList

def enabledValue (conf : CNetworkShapingConfig) : Text :=
  if conf.enabled then "yes".toList else "no".toList

/-- A line for a value that is not empty, and nothing for one that is. -/
def printSetting (key : Setting) (value : Text) : Text :=
  if value.isEmpty then [] else settingLine key value

/-- What is printed for a line that has been read. A bandwidth line stays when there is nothing to
put in its place. -/
def rewriteLine (nrm : RateMpu) (conf : CNetworkShapingConfig) (buf : Text) : Text :=
  match setting buf with
  | some .BANDWIDTH =>
      if (get_BANDWIDTH_string conf).isEmpty then buf
      else settingLine .BANDWIDTH (get_BANDWIDTH_string conf)
  | some .TOTALRATE => printSetting .TOTALRATE (get_TOTALRATE_string conf)
  | some .RATEMPU => printSetting .RATEMPU (get_RATEMPU_string nrm conf)
  | some .RATE => printSetting .RATE (get_RATE_string conf)
  | some .TRAFFIC_SHAPING => settingLine .TRAFFIC_SHAPING (enabledValue conf)
  | none => buf

/-- Whether some line has given the setting. -/
def printed (key : Setting) (bufs : List Text) : Bool := bufs.any fun buf => setting buf = some key

/-- What is printed after the last line, setting by setting. The bandwidths go under the key
`TOTALRATE`. -/
def appendedLines (nrm : RateMpu) (conf : CNetworkShapingConfig) (bufs : List Text) :
    List Text :=
  [if printed .BANDWIDTH bufs then [] else printSetting .TOTALRATE (get_BANDWIDTH_string conf),
    if printed .TOTALRATE bufs then [] else printSetting .TOTALRATE (get_TOTALRATE_string conf),
    if printed .RATEMPU bufs then [] else printSetting .RATEMPU (get_RATEMPU_string nrm conf),
    if printed .RATE bufs then [] else printSetting .RATE (get_RATE_string conf),
    if printed .TRAFFIC_SHAPING bufs then []
      else settingLine .TRAFFIC_SHAPING (enabledValue conf)]

/-- The texts that a loop over `fgets` with a buffer of `size` sees. -/
def readBuffers (size : Nat) (file : Text) : List Text := (pieces '\n' size file).map cString

def updatedFile (nrm : RateMpu) (conf : CNetworkShapingConfig) (file : Text) : Text :=
  let bufs := readBuffers 8192 file
  (bufs.map (rewriteLine nrm conf) ++ appendedLines nrm conf bufs).flatten

/-- How the calls end that the update makes beside reading and printing. -/
structure Outcomes where
  opened : Bool
  created : Bool
  linked : Bool
  renamed : Bool
  restarted : Bool

/-- The result of the call and the file it leaves. -/
def update_network_shaping_config (nrm : RateMpu) (os : Outcomes) (conf : CNetworkShapingConfig)
    (file : Text) : Int × Text :=
  if ¬ os.opened then (-1, file)
  else if ¬ os.created then (-1, file)
  else if ¬ os.linked then (-1, file)
  else if ¬ os.renamed then (-1, file)
  else if ¬ os.restarted then (-1, file)
  else (0, updatedFile nrm conf file)

/-- An update that fails leaves the file as it was. -/
theorem update_failed {nrm : RateMpu} {os : Outcomes} {conf : CNetworkShapingConfig}
    {file : Text} (h : (update_network_shaping_config nrm os conf file).1 ≠ 0) :
    (update_network_shaping_config nrm os conf file).2 = file := by
  unfold update_network_shaping_config at *
  split_ifs at * <;> first | rfl | exact absurd rfl h

theorem update_succeeded {nrm : RateMpu} {os : Outcomes} {conf : CNetworkShapingConfig}
    {file file' : Text} (h : update_network_shaping_config nrm os conf file = (0, file')) :
    file' = updatedFile nrm conf file := by
  unfold update_network_shaping_config at h
  split_ifs at h <;> simp_all

/-! ## Reading -/

/-- The entries of a value: quotes are taken out and the words are split at their colons. -/
def fields (str : Text) : List (List Text) :=
  (words isSpace (str.filter (· ≠ '"'))).map fun sEntry => sEntry.splitOn ':'

def parse_BANDWIDTH (str : Text) : List CDeviceBandwidth :=
  (fields str).filterMap fun
    | [dev, bandwidth] => some { device := dev, bandwidth := toUInt bandwidth }
    | _ => none

def parse_TOTALRATE (str : Text) : List CNetworkShaping :=
  (fields str).filterMap fun
    | [dev, classId, totalRate] =>
        some { device := dev, classId := toUInt classId, totalRate := toUInt totalRate }
    | _ => none

def parse_RATEMPU (nrm : RateMpu) (str : Text) : List CNetworkShaping :=
  (fields str).filterMap fun
    | [dev, classId] =>
        some { device := dev, classId := toUInt classId, rateMPU := nrm.NRM_ENABLED }
    | [dev, classId, mpu] =>
        some { device := dev, classId := toUInt classId, rateMPU := toInt mpu }
    | _ => none

def parse_RATE (str : Text) : List CNetworkShaping :=
  (fields str).filterMap fun
    | [dev, classId, rate] =>
        some { device := dev, classId := toUInt classId, rate := toUInt rate }
    | _ => none

/-- The loop over the rates for one total rate: the default so far and the rate that was found. -/
def findRate (totalrate : CNetworkShaping) :
    List CNetworkShaping → CNetworkShaping → CNetworkShaping × Option UInt32
  | [], default_rate => (default_rate, none)
  | rate :: rest, default_rate =>
      let default_rate := if rate.device = wildcard then rate else default_rate
      if rate.classId = totalrate.classId ∧ rate.device = totalrate.device then
        (default_rate, some rate.rate)
      else findRate totalrate rest default_rate

/-- The same loop over the packet rate limits, whose defaults are of one class. -/
def findRateMPU (totalrate : CNetworkShaping) :
    List CNetworkShaping → CNetworkShaping → CNetworkShaping × Option Int32
  | [], default_ratempu => (default_ratempu, none)
  | ratempu :: rest, default_ratempu =>
      let default_ratempu :=
        if ratempu.device = wildcard ∧ ratempu.classId = totalrate.classId then ratempu
        else default_ratempu
      if ratempu.classId = totalrate.classId ∧ ratempu.device = totalrate.device then
        (default_ratempu, some ratempu.rateMPU)
      else findRateMPU totalrate rest default_ratempu

/-- The total rates with what the other two lists say about them; the defaults live on from one
entry to the next. -/
def mergeShaping (nrm : RateMpu) (lstRATEMPU lstRATE : List CNetworkShaping) :
    List CNetworkShaping → CNetworkShaping → CNetworkShaping → List CNetworkShaping
  | [], _, _ => []
  | totalrate :: rest, default_rate, default_ratempu =>
      let (default_rate, found) := findRate totalrate lstRATE default_rate
      let rate := found.getD totalrate.rate
      let rate := if rate = 0 then default_rate.rate else rate
      let (default_ratempu, mpu) := findRateMPU totalrate lstRATEMPU
        { default_ratempu with rateMPU := nrm.NRM_DISABLED }
      let rateMPU := mpu.getD default_ratempu.rateMPU
      { totalrate with rate := rate, rateMPU := rateMPU } ::
        mergeShaping nrm lstRATEMPU lstRATE rest default_rate default_ratempu

/-- What the lines of a file give of one setting, put together. -/
def gather {β : Type} (key : Setting) (parse : Text → List β) (bufs : List Text) : List β :=
  bufs.flatMap fun buf =>
    if setting buf = some key then parse ((skipSpaces buf).drop key.key.length) else []

def hasYes (str : Text) : Bool := str.tails.any fun s => "yes".toList.isPrefixOf s

def readEnabled (bufs : List Text) : Bool :=
  bufs.any fun buf => setting buf = some .TRAFFIC_SHAPING &&
    hasYes ((skipSpaces buf).drop Setting.TRAFFIC_SHAPING.key.length)

def readConfig (nrm : RateMpu) (bufs : List Text) : CNetworkShapingConfig where
  enabled := readEnabled bufs
  devicesBandwidth := gather .BANDWIDTH parse_BANDWIDTH bufs
  networkShaping :=
    mergeShaping nrm (gather .RATEMPU (parse_RATEMPU nrm) bufs) (gather .RATE parse_RATE bufs)
      (gather .TOTALRATE parse_TOTALRATE bufs) {} {}

def get_network_shaping_config (nrm : RateMpu) (file : Text) : CNetworkShapingConfig :=
  readConfig nrm (readBuffers 4096 file)

end DispService.Shaping
