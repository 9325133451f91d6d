import DispService.Shaping.Printed
import Mathlib.Data.List.TakeWhile

/-! The updated file, line by line. Where the lines fit the buffers, each setting is read as many
times as it had lines before, at least once where it is printed at the end; the bandwidths alone
are read only from the lines that they had. -/
namespace DispService.Shaping

open Lib

variable {nrm : RateMpu} {conf : CNetworkShapingConfig} {ls : List Text}

/-! ## Files made of lines -/

structure FitLine (l : Text) : Prop extends IsLine '\n' 4096 l where
  nul : Shaping.nul ∉ l

/-- The file consists of lines that fit the reader's buffer, and so do the lines that are
printed. -/
structure Fits (nrm : RateMpu) (conf : CNetworkShapingConfig) (ls : List Text) : Prop where
  names : conf.Printable
  lines : ∀ l ∈ ls, FitLine l
  bandwidth : (settingLine .BANDWIDTH (get_BANDWIDTH_string conf)).length < 4096
  totalRate : (settingLine .TOTALRATE (get_TOTALRATE_string conf)).length < 4096
  rateMpu : (settingLine .RATEMPU (get_RATEMPU_string nrm conf)).length < 4096
  rate : (settingLine .RATE (get_RATE_string conf)).length < 4096

theorem cString_of_not_mem {buf : Text} (h : nul ∉ buf) : cString buf = buf := by
  unfold cString
  rw [List.takeWhile_eq_self_iff]
  intro c hc
  have hne : c ≠ nul := fun hn => h (hn ▸ hc)
  simpa using hne

theorem readBuffers_lines {size : Nat} (hsize : 4096 ≤ size) (h : ∀ l ∈ ls, FitLine l) :
    readBuffers size ls.flatten = ls := by
  have hpieces : pieces '\n' size ls.flatten = ls :=
    pieces_lines fun l hl => (h l hl).toIsLine.mono hsize
  rw [readBuffers, hpieces]
  conv => rhs; rw [← List.map_id ls]
  exact List.map_congr_left fun l hl => cString_of_not_mem (h l hl).nul

theorem flatten_filter_nonempty (bufs : List Text) :
    (bufs.filter fun b => !b.isEmpty).flatten = bufs.flatten := by
  induction bufs with
  | nil => rfl
  | cons b bufs ih => cases b <;> simp [ih]

/-! ## Printed lines -/

theorem setting_settingLine (key : Setting) (v : Text) :
    setting (settingLine key v) = some key := by
  cases key <;> rfl

theorem drop_settingLine (key : Setting) (v : Text) :
    (skipSpaces (settingLine key v)).drop key.key.length = quoted v := by
  cases key <;> rfl

theorem setting_nil : setting [] = none := by decide

theorem setting_printSetting {key key' : Setting} {v : Text}
    (h : setting (printSetting key v) = some key') : key = key' := by
  unfold printSetting at h
  split at h
  · rw [setting_nil] at h
    cases h
  · rw [setting_settingLine] at h
    exact Option.some.inj h

/-- No character of a value ends a line or a C string. -/
def Clean (text : Text) : Prop := ∀ c ∈ text, c ≠ '\n' ∧ c ≠ nul

theorem clean_number (n : Nat) : Clean (number n) := by
  intro c hc
  have hdigit := isDigit_number hc
  constructor
  · rintro rfl
    exact absurd hdigit (by decide)
  · rintro rfl
    exact absurd hdigit (by decide)

theorem clean_integer (n : Int) : Clean (integer n) := by
  unfold integer
  split
  · intro c hc
    rcases List.mem_cons.mp hc with rfl | hc
    · exact ⟨by decide, by decide⟩
    · exact clean_number _ c hc
  · exact clean_number _

theorem Printable.clean {name : Text} (h : Printable name) : Clean name := by
  intro c hc
  constructor
  · rintro rfl
    exact absurd (h.space _ hc) (by decide)
  · rintro rfl
    exact h.nul hc

theorem Clean.pair {a b : Text} (ha : Clean a) (hb : Clean b) : Clean (pair a b) := by
  intro c hc
  simp only [Shaping.pair, List.mem_append, List.mem_cons] at hc
  rcases hc with hc | rfl | hc
  · exact ha c hc
  · exact ⟨by decide, by decide⟩
  · exact hb c hc

theorem Clean.triple {a b c : Text} (ha : Clean a) (hb : Clean b) (hc : Clean c) :
    Clean (triple a b c) :=
  ha.pair (hb.pair hc)

theorem clean_valueOf {ws : List Text} (h : ∀ w ∈ ws, Clean w) : Clean (valueOf ws) := by
  intro c hc
  obtain ⟨w, hw, hcw⟩ := List.mem_flatMap.mp hc
  rcases List.mem_append.mp hcw with hcw | hcw
  · exact h w hw c hcw
  · rw [List.mem_singleton.mp hcw]
    exact ⟨by decide, by decide⟩

theorem clean_key (key : Setting) : Clean key.key := by
  cases key <;> exact forall_of_all (by decide)

theorem fitLine_settingLine {key : Setting} {v : Text} (hv : Clean v)
    (hfits : (settingLine key v).length < 4096) : FitLine (settingLine key v) := by
  have hbody : settingLine key v = (key.key ++ '"' :: v ++ ['"']) ++ ['\n'] := by
    simp [settingLine]
  have hclean : Clean (key.key ++ '"' :: v ++ ['"']) := by
    intro c hc
    simp only [List.mem_append, List.mem_cons, List.not_mem_nil, or_false] at hc
    rcases hc with (hc | rfl | hc) | rfl
    · exact clean_key key c hc
    · exact ⟨by decide, by decide⟩
    · exact hv c hc
    · exact ⟨by decide, by decide⟩
  refine ⟨⟨⟨_, hbody, fun h => (hclean _ h).1 rfl⟩, hfits⟩, ?_⟩
  rw [hbody, List.mem_append]
  rintro (h | h)
  · exact (hclean _ h).2 rfl
  · exact absurd (List.mem_singleton.mp h) (by decide)

theorem clean_bandwidth (h : conf.Printable) : Clean (get_BANDWIDTH_string conf) := by
  rw [bandwidth_value h]
  apply clean_valueOf
  intro w hw
  obtain ⟨e, he, rfl⟩ := List.mem_map.mp hw
  exact (h.bandwidth e he).clean.pair (clean_number _)

theorem clean_totalRate (h : conf.Printable) : Clean (get_TOTALRATE_string conf) := by
  rw [totalRate_value h]
  apply clean_valueOf
  intro w hw
  obtain ⟨e, he, rfl⟩ := List.mem_map.mp hw
  exact (printable_shownDevice (h.shaping e he)).clean.triple (clean_number _) (clean_number _)

theorem clean_rateMpu (h : conf.Printable) : Clean (get_RATEMPU_string nrm conf) := by
  rw [rateMpu_value h]
  apply clean_valueOf
  intro w hw
  obtain ⟨e, he, rfl⟩ := List.mem_map.mp hw
  have hname := (printable_shownDevice (h.shaping e (List.mem_filter.mp he).1)).clean
  unfold rateMpuEntry
  split
  · exact hname.pair (clean_number _)
  · exact hname.triple (clean_number _) (clean_integer _)

theorem clean_rate : Clean (get_RATE_string conf) := by
  rw [rate_value]
  apply clean_valueOf
  intro w hw
  obtain ⟨e, he, rfl⟩ := List.mem_map.mp hw
  exact printable_wildcard.clean.triple (clean_number _) (clean_number _)

theorem fitLine_enabled : FitLine (settingLine .TRAFFIC_SHAPING (enabledValue conf)) := by
  unfold enabledValue
  split <;> exact fitLine_settingLine (forall_of_all (by decide)) (by decide)

/-! ## The lines of the updated file -/

def newBuffers (nrm : RateMpu) (conf : CNetworkShapingConfig) (ls : List Text) : List Text :=
  ls.map (rewriteLine nrm conf) ++ appendedLines nrm conf ls

theorem updatedFile_lines (h : ∀ l ∈ ls, FitLine l) :
    updatedFile nrm conf ls.flatten = (newBuffers nrm conf ls).flatten := by
  rw [updatedFile, readBuffers_lines (by decide) h]
  rfl

theorem fit_printSetting {key : Setting} {v : Text} (hv : Clean v)
    (hfits : (settingLine key v).length < 4096) :
    printSetting key v = [] ∨ FitLine (printSetting key v) := by
  unfold printSetting
  split
  · exact .inl rfl
  · exact .inr (fitLine_settingLine hv hfits)

theorem rewriteLine_fit (h : Fits nrm conf ls) {l : Text} (hl : FitLine l) :
    rewriteLine nrm conf l = [] ∨ FitLine (rewriteLine nrm conf l) := by
  unfold rewriteLine
  cases setting l with
  | none => exact .inr hl
  | some key =>
      cases key with
      | BANDWIDTH =>
          by_cases hempty : (get_BANDWIDTH_string conf).isEmpty = true
          · simp only [hempty, if_true]
            exact .inr hl
          · simp only [hempty]
            exact .inr (fitLine_settingLine (clean_bandwidth h.names) h.bandwidth)
      | TOTALRATE => exact fit_printSetting (clean_totalRate h.names) h.totalRate
      | RATEMPU => exact fit_printSetting (clean_rateMpu h.names) h.rateMpu
      | RATE => exact fit_printSetting clean_rate h.rate
      | TRAFFIC_SHAPING => exact .inr fitLine_enabled

theorem appendedLines_fit (h : Fits nrm conf ls) {b : Text}
    (hb : b ∈ appendedLines nrm conf ls) : b = [] ∨ FitLine b := by
  have hguard : ∀ (c : Bool) (t : Text), (t = [] ∨ FitLine t) → b = (if c then [] else t) →
      b = [] ∨ FitLine b := by
    rintro c t ht rfl
    cases c
    · exact ht
    · exact .inl rfl
  have hlength : (settingLine .TOTALRATE (get_BANDWIDTH_string conf)).length =
      (settingLine .BANDWIDTH (get_BANDWIDTH_string conf)).length := by
    have hkey : Setting.TOTALRATE.key.length = Setting.BANDWIDTH.key.length := by decide
    simp only [settingLine, List.length_append, hkey]
  have hmisplaced : printSetting .TOTALRATE (get_BANDWIDTH_string conf) = [] ∨
      FitLine (printSetting .TOTALRATE (get_BANDWIDTH_string conf)) :=
    fit_printSetting (clean_bandwidth h.names) (by rw [hlength]; exact h.bandwidth)
  simp only [appendedLines, List.mem_cons, List.not_mem_nil, or_false] at hb
  rcases hb with hb | hb | hb | hb | hb
  · exact hguard _ _ hmisplaced hb
  · exact hguard _ _ (fit_printSetting (clean_totalRate h.names) h.totalRate) hb
  · exact hguard _ _ (fit_printSetting (clean_rateMpu h.names) h.rateMpu) hb
  · exact hguard _ _ (fit_printSetting clean_rate h.rate) hb
  · exact hguard _ _ (.inr fitLine_enabled) hb

/-- Whatever is printed is a line that fits, or nothing. -/
theorem newBuffers_fit (h : Fits nrm conf ls) :
    ∀ b ∈ newBuffers nrm conf ls, b = [] ∨ FitLine b := by
  intro b hb
  rcases List.mem_append.mp hb with hb | hb
  · obtain ⟨l, hl, rfl⟩ := List.mem_map.mp hb
    exact rewriteLine_fit h (h.lines l hl)
  · exact appendedLines_fit h hb

/-- Reading the updated file is reading its lines. -/
theorem readBuffers_updated {size : Nat} (hsize : 4096 ≤ size) (h : Fits nrm conf ls) :
    readBuffers size (updatedFile nrm conf ls.flatten) =
      (newBuffers nrm conf ls).filter fun b => !b.isEmpty := by
  rw [updatedFile_lines h.lines, ← flatten_filter_nonempty]
  apply readBuffers_lines hsize
  intro b hb
  obtain ⟨hmem, hne⟩ := List.mem_filter.mp hb
  refine (newBuffers_fit h b hmem).resolve_left ?_
  rintro rfl
  simp at hne

/-! ## Reading one setting -/

section Gather

variable {β : Type} {key : Setting} {parse : Text → List β}

theorem gather_append (bufs bufs' : List Text) :
    gather key parse (bufs ++ bufs') = gather key parse bufs ++ gather key parse bufs' :=
  List.flatMap_append

theorem gather_none {bufs : List Text} (h : ∀ b ∈ bufs, setting b ≠ some key) :
    gather key parse bufs = [] := by
  apply List.flatMap_eq_nil_iff.mpr
  intro b hb
  rw [if_neg (h b hb)]

theorem gather_filter (bufs : List Text) :
    gather key parse (bufs.filter fun b => !b.isEmpty) = gather key parse bufs := by
  induction bufs with
  | nil => rfl
  | cons b bufs ih =>
      unfold gather at *
      cases b with
      | nil => simp [setting_nil, ih]
      | cons c b => simp [ih]

theorem gather_settingLine (v : Text) :
    gather key parse [settingLine key v] = parse (quoted v) := by
  simp [gather, setting_settingLine, drop_settingLine]

theorem gather_printSetting {v : Text} (h : v.isEmpty = true → parse (quoted v) = []) :
    gather key parse [printSetting key v] = parse (quoted v) := by
  unfold printSetting
  split
  case isTrue hv => simp [gather, setting_nil, h hv]
  case isFalse => exact gather_settingLine v

def countLines (key : Setting) (ls : List Text) : Nat := ls.countP fun l => setting l = some key

theorem countLines_pos : 0 < countLines key ls ↔ printed key ls = true := by
  simp [countLines, printed, List.countP_pos_iff]

/-- A setting is rewritten as often as it had lines. -/
theorem gather_map {f : Text → Text} {X : List β}
    (hkey : ∀ l ∈ ls, setting l = some key → gather key parse [f l] = X)
    (hother : ∀ l ∈ ls, setting l ≠ some key → setting (f l) ≠ some key) :
    gather key parse (ls.map f) = copies (countLines key ls) X := by
  induction ls with
  | nil => rfl
  | cons l ls ih =>
      have hrest := ih (fun l' hl' => hkey l' (List.mem_cons_of_mem l hl'))
        (fun l' hl' => hother l' (List.mem_cons_of_mem l hl'))
      have hsplit : (l :: ls).map f = [f l] ++ ls.map f := rfl
      rw [hsplit, gather_append, hrest]
      unfold countLines
      by_cases hl : setting l = some key
      · rw [hkey l (by simp) hl, List.countP_cons_of_pos (by simpa using hl), copies_succ]
      · have hnone : gather key parse [f l] = [] := gather_none fun b hb => by
          rw [List.mem_singleton.mp hb]
          exact hother l (by simp) hl
        rw [hnone, List.countP_cons_of_neg (by simpa using hl), List.nil_append]

end Gather

/-- A line keeps its setting, or is no setting any more. -/
theorem setting_rewriteLine {l : Text} {key : Setting}
    (h : setting (rewriteLine nrm conf l) = some key) : setting l = some key := by
  unfold rewriteLine at h
  split at h
  case h_1 heq =>
    split at h
    · exact h
    · rw [heq, ← h, setting_settingLine]
  case h_2 heq => rw [heq, setting_printSetting h]
  case h_3 heq => rw [heq, setting_printSetting h]
  case h_4 heq => rw [heq, setting_printSetting h]
  case h_5 heq => rw [heq, ← h, setting_settingLine]
  case h_6 heq => exact h

section Read

variable {β : Type} {key : Setting} {parse : Text → List β} {X : List β}

/-- A setting that is printed over its lines and, where it has none, at the end. -/
theorem gather_updated {v : Text}
    (hkey : ∀ l, setting l = some key → rewriteLine nrm conf l = printSetting key v)
    (hread : parse (quoted v) = X) (hempty : v.isEmpty = true → X = [])
    (happended : gather key parse (appendedLines nrm conf ls) =
      gather key parse [if printed key ls then [] else printSetting key v]) :
    gather key parse (newBuffers nrm conf ls) = copies (max 1 (countLines key ls)) X := by
  have hprint : gather key parse [printSetting key v] = X := by
    rw [gather_printSetting fun hv => hread.trans (hempty hv), hread]
  have hmap : gather key parse (ls.map (rewriteLine nrm conf)) = copies (countLines key ls) X :=
    gather_map (fun l _ hl => by rw [hkey l hl]; exact hprint)
      fun l _ hl hnew => hl (setting_rewriteLine hnew)
  rw [newBuffers, gather_append, hmap, happended]
  by_cases hp : printed key ls = true
  · have hpos := countLines_pos.mpr hp
    have hnil : gather key parse [([] : Text)] = [] := by simp [gather, setting_nil]
    rw [if_pos hp, hnil, List.append_nil, Nat.max_eq_right hpos]
  · have hzero : countLines key ls = 0 := by
      have := mt countLines_pos.mp hp
      omega
    rw [if_neg hp, hprint, hzero, copies_zero, List.nil_append]
    exact (copies_one X).symm

end Read

/-- What the appended lines say about one setting. -/
theorem gather_appended {β : Type} {key : Setting} {parse : Text → List β} (a b c d e : Text) :
    gather key parse [a, b, c, d, e] = gather key parse [a] ++ gather key parse [b] ++
      gather key parse [c] ++ gather key parse [d] ++ gather key parse [e] := by
  simp [gather]

theorem gather_guarded {β : Type} {key : Setting} {parse : Text → List β} (other : Setting)
    (hne : other ≠ key) (g : Bool) (v : Text) :
    gather key parse [if g then [] else printSetting other v] = [] := by
  apply gather_none
  intro b hb hset
  rw [List.mem_singleton.mp hb] at hset
  cases g with
  | true => simp [setting_nil] at hset
  | false => exact hne (setting_printSetting hset)

theorem gather_guarded_line {β : Type} {key : Setting} {parse : Text → List β} (other : Setting)
    (hne : other ≠ key) (g : Bool) (v : Text) :
    gather key parse [if g then [] else settingLine other v] = [] := by
  apply gather_none
  intro b hb hset
  rw [List.mem_singleton.mp hb] at hset
  cases g with
  | true => simp [setting_nil] at hset
  | false =>
      simp only [Bool.false_eq_true, if_false, setting_settingLine, Option.some.injEq] at hset
      exact hne hset

/-! ## Other lines -/

/-- A line of the file that gives none of the settings. -/
def isUnrelated (buf : Text) : Bool := setting buf = none ∧ buf ≠ []

theorem related_settingLine (key : Setting) (v : Text) :
    isUnrelated (settingLine key v) = false := by
  simp [isUnrelated, setting_settingLine]

theorem related_printSetting (key : Setting) (v : Text) :
    isUnrelated (printSetting key v) = false := by
  unfold printSetting
  split
  · rfl
  · exact related_settingLine key v

theorem related_rewriteLine {l : Text} (h : setting l ≠ none) :
    isUnrelated (rewriteLine nrm conf l) = false := by
  unfold rewriteLine
  cases hl : setting l with
  | none => exact absurd hl h
  | some key =>
      cases key with
      | BANDWIDTH =>
          by_cases hempty : (get_BANDWIDTH_string conf).isEmpty = true
          · simp only [hempty, if_true]
            simp [isUnrelated, hl]
          · simp only [hempty]
            exact related_settingLine _ _
      | TOTALRATE => exact related_printSetting _ _
      | RATEMPU => exact related_printSetting _ _
      | RATE => exact related_printSetting _ _
      | TRAFFIC_SHAPING => exact related_settingLine _ _

theorem related_appendedLines {b : Text} (hb : b ∈ appendedLines nrm conf ls) :
    isUnrelated b = false := by
  have hguard : ∀ (g : Bool) (t : Text), isUnrelated t = false → b = (if g then [] else t) →
      isUnrelated b = false := by
    rintro g t ht rfl
    cases g
    · exact ht
    · rfl
  simp only [appendedLines, List.mem_cons, List.not_mem_nil, or_false] at hb
  rcases hb with hb | hb | hb | hb | hb
  · exact hguard _ _ (related_printSetting _ _) hb
  · exact hguard _ _ (related_printSetting _ _) hb
  · exact hguard _ _ (related_printSetting _ _) hb
  · exact hguard _ _ (related_printSetting _ _) hb
  · exact hguard _ _ (related_settingLine _ _) hb

/-- The lines that give none of the settings are kept, in their order. -/
theorem unrelated_kept :
    (newBuffers nrm conf ls).filter isUnrelated = ls.filter isUnrelated := by
  have happended : (appendedLines nrm conf ls).filter isUnrelated = [] :=
    List.filter_eq_nil_iff.mpr fun b hb => by simp [related_appendedLines hb]
  rw [newBuffers, List.filter_append, happended, List.append_nil]
  clear happended
  induction ls with
  | nil => rfl
  | cons l ls hrest =>
      rw [List.map_cons, List.filter_cons, List.filter_cons]
      by_cases hl : setting l = none
      · have hsame : rewriteLine nrm conf l = l := by simp only [rewriteLine, hl]
        rw [hsame, hrest]
      · have hnot : isUnrelated l = false := by simp [isUnrelated, hl]
        rw [related_rewriteLine hl, hnot, hrest]
        rfl

end DispService.Shaping
