import Mathlib.Data.List.Basic
import Mathlib.Data.List.Count

/-! The arguments of the emulator that an edit rewrites: what it adds for debugging, and the option
for Windows 2008 under EFI that it adds or strips. -/
namespace DispService.Transponster.CommandLine

/-- What the SDK and the log decide. -/
structure Host where
  logLevel : Int
  debugLevel : Int
  isWindows : UInt32 → Bool
  windows7 : UInt32
  win2008 : UInt32

structure CVmStartupBios where
  efiEnabled : Bool

structure CVmStartupOptions where
  bios : Option CVmStartupBios

structure CVmSettings where
  vmStartupOptions : Option CVmStartupOptions
  osVersion : UInt32

structure CVmIdentification where
  vmName : String

/-- What is absent is a null pointer. -/
structure CVmConfiguration where
  vmIdentification : Option CVmIdentification
  vmSettings : Option CVmSettings

def flag : String := "-fw_cfg"

/-- The value of the option that the workaround adds. -/
def own : String := "opt/ovmf/vbe_shim/win2008_workaround,string=1"

def seed (original_ : Option (List String)) : List String :=
  match original_ with
  | some args => args
  | none => []

def debugFile (vmName : String) : String :=
  "file:/var/log/libvirt/qemu/" ++ vmName ++ ".qdbg.log"

def indexOf (m_result : List String) (s : String) : Option Nat :=
  m_result.findIdx? (· == s)

/-- No position is -1. An item past the end is not removed. -/
def stripParameter (m_result : List String) : Option Nat → List String
  | some at_ => if at_ < m_result.length then (m_result.eraseIdx (at_ + 1)).eraseIdx at_ else m_result
  | none => m_result

variable (host : Host) (m_source : CVmConfiguration)

def addDebug (m_result : List String) : List String :=
  if host.logLevel < host.debugLevel then m_result
  else
    match m_source.vmIdentification with
    | none => m_result
    | some i =>
        let r := if "-global" ∈ m_result then m_result
          else m_result ++ ["-global", "isa-debugcon.iobase=0x402"]
        if "-debugcon" ∈ r then r else r ++ ["-debugcon", debugFile i.vmName]

/-- An EFI boot of Windows 7 or 2008. -/
def isEfi2008 (v : UInt32) (b : CVmStartupBios) : Bool :=
  host.isWindows v && (v == host.windows7 || v == host.win2008) && b.efiEnabled

def workaroundEfi2008R2 (m_result : List String) : List String :=
  match m_source.vmSettings with
  | none => m_result
  | some s =>
      match s.vmStartupOptions with
      | none => m_result
      | some o =>
          match o.bios with
          | none => m_result
          | some b =>
              let i := indexOf m_result flag
              if isEfi2008 host s.osVersion b then
                match i with
                | none => m_result ++ [flag, own]
                | some _ => m_result
              else stripParameter m_result i

/-- `seed(original).addDebug().workaroundEfi2008R2().takeResult()` -/
def rewritten (original_ : Option (List String)) : List String :=
  workaroundEfi2008R2 host m_source (addDebug host m_source (seed original_))

/-- The arguments that are not the option of the workaround. -/
def foreign : List String → List String
  | [] => []
  | [a] => [a]
  | a :: b :: rest =>
      if a = flag ∧ b = own then foreign rest else a :: foreign (b :: rest)

/-- Foreign arguments stay, and a second application changes nothing. -/
def Kept (original_ : Option (List String)) : Prop :=
  (foreign (seed original_)).Sublist (rewritten host m_source original_) ∧
    rewritten host m_source (some (rewritten host m_source original_)) =
      rewritten host m_source original_

/-- There are options of firmware, and the machine does not need the workaround. -/
def Strips : Prop :=
  ∃ s o b, m_source.vmSettings = some s ∧ s.vmStartupOptions = some o ∧ o.bios = some b ∧
    isEfi2008 host s.osVersion b = false

/-- The only option with the flag is that of the workaround. -/
def OwnOnly (args : List String) : Prop :=
  ∃ front back, args = front ++ flag :: own :: back ∧ flag ∉ front ∧ flag ∉ back

section Lists

variable {front back l : List String}

theorem foreign_append (hfront : flag ∉ front) (l : List String) :
    foreign (front ++ l) = front ++ foreign l := by
  induction front with
  | nil => rfl
  | cons a front ih =>
    rw [List.mem_cons, not_or] at hfront
    rw [List.cons_append, List.cons_append, ← ih hfront.2]
    cases hrest : front ++ l with
    | nil => rfl
    | cons b rest =>
      rw [foreign, if_neg]
      intro h
      exact hfront.1 h.1.symm

theorem foreign_of_not_mem (hl : flag ∉ l) : foreign l = l := by
  have h := foreign_append hl []
  rw [List.append_nil] at h
  rw [h, foreign, List.append_nil]

theorem foreign_sublist (l : List String) : (foreign l).Sublist l := by
  fun_induction foreign l with
  | case1 => exact .slnil
  | case2 a => exact .refl _
  | case3 a b rest h ih => exact (ih.cons _).cons _
  | case4 a b rest h ih => exact ih.cons_cons _

/-- The flag is kept by those who see another value after it. -/
theorem flag_mem_foreign {x : String} (hx : x ≠ own) :
    flag ∈ foreign (flag :: x :: back) := by
  rw [foreign, if_neg (fun h => hx h.2)]
  exact List.mem_cons_self

theorem indexOf_first (hfront : flag ∉ front) :
    indexOf (front ++ flag :: back) flag = some front.length := by
  rw [indexOf, List.findIdx?_append, List.findIdx?_eq_none_iff.mpr, List.findIdx?_cons]
  · simp
  · intro x hx
    rw [beq_eq_false_iff_ne]
    exact fun heq => hfront (heq ▸ hx)

theorem indexOf_none (hl : flag ∉ l) : indexOf l flag = none := by
  refine List.findIdx?_eq_none_iff.mpr fun x hx => ?_
  rw [beq_eq_false_iff_ne]
  exact fun heq => hl (heq ▸ hx)

/-- What is stripped is the first flag and what comes after it. -/
theorem strip_first (hfront : flag ∉ front) :
    stripParameter (front ++ flag :: back) (indexOf (front ++ flag :: back) flag) =
      front ++ back.drop 1 := by
  rw [indexOf_first hfront, stripParameter, if_pos (by simp)]
  rw [List.eraseIdx_append_of_length_le (by omega), List.eraseIdx_append_of_length_le (Nat.le_refl _),
    Nat.add_sub_cancel_left, Nat.sub_self, List.eraseIdx_cons_succ, List.eraseIdx_cons_zero]
  cases back with
  | nil => rfl
  | cons x back => rfl

theorem strip_none (hl : flag ∉ l) : stripParameter l (indexOf l flag) = l := by
  rw [indexOf_none hl, stripParameter]

theorem strip_count (hl : flag ∈ l) :
    (stripParameter l (indexOf l flag)).count flag < l.count flag := by
  obtain ⟨front, back, rfl, hfront⟩ := List.eq_append_cons_of_mem hl
  rw [strip_first hfront, List.count_append, List.count_append, List.count_cons_self]
  have hdrop : (back.drop 1).count flag ≤ back.count flag := (List.drop_sublist 1 back).count_le flag
  omega

end Lists

section Debug

variable {l : List String}

theorem debugFile_head (name : String) : (debugFile name).toList.head? = some 'f' := by
  unfold debugFile
  simp

theorem debugFile_ne (name : String) : debugFile name ≠ flag := by
  intro h
  have hhead := debugFile_head name
  rw [h] at hhead
  revert hhead
  decide

/-- Debugging only appends, and never the option of the workaround. -/
theorem addDebug_append (l : List String) :
    ∃ extra, addDebug host m_source l = l ++ extra ∧ flag ∉ extra := by
  rw [addDebug]
  split
  · exact ⟨[], (List.append_nil _).symm, List.not_mem_nil⟩
  · split
    · exact ⟨[], (List.append_nil _).symm, List.not_mem_nil⟩
    · next i _ =>
      have hfile : flag ∉ ["-debugcon", debugFile i.vmName] := by
        intro h
        rcases List.mem_cons.mp h with h | h
        · revert h
          decide
        · exact debugFile_ne i.vmName (List.mem_singleton.mp h).symm
      have hglobal : flag ∉ ["-global", "isa-debugcon.iobase=0x402"] := by decide
      dsimp only
      split <;> split
      · exact ⟨[], (List.append_nil _).symm, List.not_mem_nil⟩
      · exact ⟨_, rfl, hfile⟩
      · exact ⟨_, rfl, hglobal⟩
      · refine ⟨_, List.append_assoc _ _ _, fun h => ?_⟩
        rcases List.mem_append.mp h with h | h
        · exact hglobal h
        · exact hfile h

theorem addDebug_mem : flag ∈ addDebug host m_source l ↔ flag ∈ l := by
  obtain ⟨extra, heq, hextra⟩ := addDebug_append host m_source l
  rw [heq, List.mem_append, or_iff_left hextra]

/-- Nothing is to be added for debugging. -/
def Debugged (l : List String) : Prop :=
  host.logLevel < host.debugLevel ∨ m_source.vmIdentification = none ∨
    "-global" ∈ l ∧ "-debugcon" ∈ l

theorem addDebug_debugged (l : List String) :
    Debugged host m_source (addDebug host m_source l) := by
  by_cases hlevel : host.logLevel < host.debugLevel
  · exact .inl hlevel
  · cases hi : m_source.vmIdentification with
    | none => exact .inr (.inl hi)
    | some i =>
      refine .inr (.inr ?_)
      rw [addDebug, if_neg hlevel, hi]
      dsimp only
      split <;> split <;> simp_all

variable {host m_source}

theorem addDebug_count : (addDebug host m_source l).count flag = l.count flag := by
  obtain ⟨extra, heq, hextra⟩ := addDebug_append host m_source l
  rw [heq, List.count_append, List.count_eq_zero.mpr hextra, Nat.add_zero]

theorem addDebug_self (h : Debugged host m_source l) :
    addDebug host m_source l = l := by
  rw [addDebug]
  split
  · rfl
  · next hlevel =>
    split
    · rfl
    · next i hi =>
      rcases h with h | h | ⟨hglobal, hdebugcon⟩
      · exact absurd h hlevel
      · rw [hi] at h
        cases h
      · dsimp only
        rw [if_pos hglobal, if_pos hdebugcon]

theorem Debugged.of_subset {l' : List String}
    (h : Debugged host m_source l)
    (hglobal : "-global" ∈ l → "-global" ∈ l') (hdebugcon : "-debugcon" ∈ l → "-debugcon" ∈ l') :
    Debugged host m_source l' := by
  rcases h with h | h | h
  · exact .inl h
  · exact .inr (.inl h)
  · exact .inr (.inr ⟨hglobal h.1, hdebugcon h.2⟩)

end Debug

section Workaround

variable {host m_source} {l : List String}

/-- With options of firmware, the option is appended when there is none, or stripped. -/
theorem workaround_of_bios {s : CVmSettings} {o : CVmStartupOptions} {b : CVmStartupBios}
    (hs : m_source.vmSettings = some s) (ho : s.vmStartupOptions = some o) (hb : o.bios = some b)
    (l : List String) :
    workaroundEfi2008R2 host m_source l =
      if isEfi2008 host s.osVersion b then if flag ∈ l then l else l ++ [flag, own]
      else stripParameter l (indexOf l flag) := by
  rw [workaroundEfi2008R2, hs]
  dsimp only
  rw [ho]
  dsimp only
  rw [hb]
  dsimp only
  split
  · by_cases hflag : flag ∈ l
    · obtain ⟨front, back, rfl, hfront⟩ := List.eq_append_cons_of_mem hflag
      rw [indexOf_first hfront, if_pos hflag]
    · rw [indexOf_none hflag, if_neg hflag]
  · rfl

theorem workaround_strips (h : Strips host m_source) (l : List String) :
    workaroundEfi2008R2 host m_source l = stripParameter l (indexOf l flag) := by
  obtain ⟨s, o, b, hs, ho, hb, hefi⟩ := h
  rw [workaround_of_bios hs ho hb, hefi, if_neg Bool.false_ne_true]

/-- Otherwise the workaround leaves the arguments or appends its option when there is none. -/
theorem workaround_adds (h : ¬ Strips host m_source) :
    (∀ l, workaroundEfi2008R2 host m_source l = l) ∨
      ∀ l, workaroundEfi2008R2 host m_source l = if flag ∈ l then l else l ++ [flag, own] := by
  cases hs : m_source.vmSettings with
  | none => exact .inl fun l => by rw [workaroundEfi2008R2, hs]
  | some s =>
    cases ho : s.vmStartupOptions with
    | none =>
      refine .inl fun l => ?_
      rw [workaroundEfi2008R2, hs]
      dsimp only
      rw [ho]
    | some o =>
      cases hb : o.bios with
      | none =>
        refine .inl fun l => ?_
        rw [workaroundEfi2008R2, hs]
        dsimp only
        rw [ho]
        dsimp only
        rw [hb]
      | some b =>
        have hefi : isEfi2008 host s.osVersion b = true := by
          by_contra hefi
          exact h ⟨s, o, b, hs, ho, hb, Bool.eq_false_iff.mpr hefi⟩
        exact .inr fun l => by rw [workaround_of_bios hs ho hb, if_pos hefi]

end Workaround

section Rewritten

variable {host m_source} {original_ : Option (List String)}

theorem kept_of_adds (h : ¬ Strips host m_source) : Kept host m_source original_ := by
  obtain ⟨extra, heq, -⟩ :=
    addDebug_append host m_source (seed original_)
  have hdebug : (foreign (seed original_)).Sublist (addDebug host m_source (seed original_)) := by
    rw [heq]
    exact (foreign_sublist _).trans (List.sublist_append_left _ _)
  have hdebugged := addDebug_debugged host m_source (seed original_)
  rcases workaround_adds h with hleave | hadd
  · have hrewritten : ∀ o, rewritten host m_source o = addDebug host m_source (seed o) :=
      fun o => hleave _
    rw [Kept, hrewritten, hrewritten]
    exact ⟨hdebug, addDebug_self hdebugged⟩
  · have hrewritten : ∀ o, rewritten host m_source o =
        if flag ∈ addDebug host m_source (seed o) then addDebug host m_source (seed o)
        else addDebug host m_source (seed o) ++ [flag, own] := fun o => hadd _
    by_cases hflag : flag ∈ addDebug host m_source (seed original_)
    · have hfirst := hrewritten original_
      rw [if_pos hflag] at hfirst
      rw [Kept, hfirst, hrewritten, seed, addDebug_self hdebugged, if_pos hflag]
      exact ⟨hdebug, rfl⟩
    · have hfirst := hrewritten original_
      rw [if_neg hflag] at hfirst
      have hnext : Debugged host m_source
          (addDebug host m_source (seed original_) ++ [flag, own]) :=
        hdebugged.of_subset (List.mem_append_left _) (List.mem_append_left _)
      rw [Kept, hfirst, hrewritten, seed, addDebug_self hnext, if_pos (by simp)]
      exact ⟨hdebug.trans (List.sublist_append_left _ _), rfl⟩

theorem rewritten_strips (h : Strips host m_source) (original_ : Option (List String)) :
    rewritten host m_source original_ =
      stripParameter (addDebug host m_source (seed original_))
        (indexOf (addDebug host m_source (seed original_)) flag) :=
  workaround_strips h _

theorem kept_of_not_mem (h : Strips host m_source) (hflag : flag ∉ seed original_) :
    Kept host m_source original_ := by
  obtain ⟨extra, heq, hextra⟩ :=
    addDebug_append host m_source (seed original_)
  have hdebugged := addDebug_debugged host m_source (seed original_)
  have hnone : flag ∉ addDebug host m_source (seed original_) := fun hmem =>
    hflag ((addDebug_mem host m_source).mp hmem)
  have hfirst : rewritten host m_source original_ = addDebug host m_source (seed original_) := by
    rw [rewritten_strips h, strip_none hnone]
  rw [Kept, hfirst, rewritten_strips h, seed, addDebug_self hdebugged, strip_none hnone]
  refine ⟨?_, rfl⟩
  rw [heq]
  exact (foreign_sublist _).trans (List.sublist_append_left _ _)

theorem kept_of_ownOnly (h : Strips host m_source) (hown : OwnOnly (seed original_)) :
    Kept host m_source original_ := by
  obtain ⟨front, back, hseed, hfront, hback⟩ := hown
  obtain ⟨extra, heq, hextra⟩ :=
    addDebug_append host m_source (seed original_)
  have hdebugged := addDebug_debugged host m_source (seed original_)
  have hdebug : addDebug host m_source (seed original_) =
      front ++ flag :: (own :: (back ++ extra)) := by
    rw [heq, hseed, List.append_assoc]
    rfl
  have hfirst : rewritten host m_source original_ = front ++ (back ++ extra) := by
    rw [rewritten_strips h, hdebug, strip_first hfront]
    rfl
  have hnone : flag ∉ front ++ (back ++ extra) := by
    rw [List.mem_append, List.mem_append, not_or, not_or]
    exact ⟨hfront, hback, hextra⟩
  have hkeep : ∀ x, x ≠ flag → x ≠ own → x ∈ addDebug host m_source (seed original_) →
      x ∈ front ++ (back ++ extra) := by
    intro x hflag hown hx
    rw [hdebug, List.mem_append, List.mem_cons, List.mem_cons] at hx
    rcases hx with hx | hx | hx | hx
    · exact List.mem_append_left _ hx
    · exact absurd hx hflag
    · exact absurd hx hown
    · exact List.mem_append_right _ hx
  have hnext : Debugged host m_source (front ++ (back ++ extra)) :=
    hdebugged.of_subset (hkeep _ (by decide) (by decide)) (hkeep _ (by decide) (by decide))
  rw [Kept, hfirst, rewritten_strips h, seed, addDebug_self hnext, strip_none hnone, hseed]
  refine ⟨?_, rfl⟩
  rw [foreign_append hfront, foreign, if_pos ⟨rfl, rfl⟩, foreign_of_not_mem hback]
  exact (List.sublist_append_left back extra).append_left front

/-- A second application that changes nothing saw no flag. -/
theorem not_mem_of_kept (h : Strips host m_source) (hkept : Kept host m_source original_) :
    flag ∉ rewritten host m_source original_ := by
  intro hmem
  have hagain := hkept.2
  rw [rewritten_strips h (some _), seed] at hagain
  have hcount := strip_count ((addDebug_mem host m_source).mpr hmem)
  rw [hagain, addDebug_count] at hcount
  exact Nat.lt_irrefl _ hcount

theorem ownOnly_of_kept (h : Strips host m_source) (hkept : Kept host m_source original_)
    (hflag : flag ∈ seed original_) : OwnOnly (seed original_) := by
  obtain ⟨extra, heq, hextra⟩ :=
    addDebug_append host m_source (seed original_)
  have hnone := not_mem_of_kept h hkept
  have hforeign : flag ∉ foreign (seed original_) := fun hmem => hnone (hkept.1.subset hmem)
  obtain ⟨front, back, hseed, hfront⟩ := List.eq_append_cons_of_mem hflag
  rw [hseed, foreign_append hfront, List.mem_append, not_or] at hforeign
  have hdebug : addDebug host m_source (seed original_) = front ++ flag :: (back ++ extra) := by
    rw [heq, hseed, List.append_assoc]
    rfl
  rw [rewritten_strips h, hdebug, strip_first hfront, List.mem_append, not_or] at hnone
  cases back with
  | nil => exact absurd List.mem_cons_self hforeign.2
  | cons x back =>
    by_cases hx : x = own
    · rw [hx] at hseed
      exact ⟨front, back, hseed, hfront, fun hmem => hnone.2 (List.mem_append_left _ hmem)⟩
    · exact absurd (flag_mem_foreign hx) hforeign.2

end Rewritten

/-- The rewriting keeps what is foreign and settles, just when the workaround does not strip, or
finds no flag, or only its own. -/
theorem kept_iff (original_ : Option (List String)) :
    Kept host m_source original_ ↔
      (Strips host m_source → flag ∈ seed original_ → OwnOnly (seed original_)) := by
  refine ⟨fun hkept h hflag => ownOnly_of_kept h hkept hflag, fun hcond => ?_⟩
  by_cases h : Strips host m_source
  · by_cases hflag : flag ∈ seed original_
    · exact kept_of_ownOnly h (hcond h hflag)
    · exact kept_of_not_mem h hflag
  · exact kept_of_adds h

/-- An option of firmware that a user gave to a machine without EFI is lost. -/
theorem not_kept_user : ¬ ∀ (host : Host) (m_source : CVmConfiguration)
    (original_ : Option (List String)), Kept host m_source original_ := by
  intro h
  have hkept := (h ⟨0, 1, fun _ => false, 1, 2⟩ ⟨none, some ⟨some ⟨some ⟨false⟩⟩, 0⟩⟩
    (some ["-fw_cfg", "name=opt/com.example,string=1"])).1
  exact absurd (hkept.subset (by decide : "-fw_cfg" ∈ foreign (seed (some
    ["-fw_cfg", "name=opt/com.example,string=1"])))) (by decide)

end DispService.Transponster.CommandLine
