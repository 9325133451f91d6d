import DispService.FileCopy.Source
import Mathlib.Logic.Function.Basic

/-! Both ends of a copy of files. What the source is told of the target is enough: once the end is
acknowledged, everything that was sent before it is on disk. -/
namespace DispService.FileCopy

open Lib

/-- What a disk holds. -/
structure Disk where
  folders : List Path := []
  files : Path → Option (List Byte)

namespace Disk

def call (d : Disk) : DiskCall × Bool → Disk
  | (.mkpath path, true) => { d with folders := path :: d.folders }
  | (.openFile path, true) => { d with files := Function.update d.files path (some []) }
  | (.write path data, true) =>
      { d with files := Function.update d.files path ((d.files path).map (· ++ data)) }
  | _ => d

def run (d : Disk) (touched : List (DiskCall × Bool)) : Disk :=
  touched.foldl call d

theorem run_append (d : Disk) (touched touched' : List (DiskCall × Bool)) :
    d.run (touched ++ touched') = (d.run touched).run touched' :=
  List.foldl_append

end Disk

section Ideal

variable (m_sWorkPath : Path)

/-- What a package leaves on disk, and which file is open then, if nothing goes wrong. -/
def deliver (i : Disk × Option QFile) : Package → Disk × Option QFile
  | .dirCmd path _ =>
      ({ i.1 with folders := placed m_sWorkPath path :: i.1.folders },
        some ⟨placed m_sWorkPath path ++ "/.", false⟩)
  | .fileCmd path _ _ =>
      ({ i.1 with files := Function.update i.1.files (placed m_sWorkPath path) (some []) },
        some ⟨placed m_sWorkPath path, true⟩)
  | .fileChunkCmd flags data =>
      match i.2 with
      | none => i
      | some f =>
          ({ i.1 with
              files := Function.update i.1.files f.fileName
                ((i.1.files f.fileName).map (· ++ data)) },
            some { f with isOpen := flags.parsed.all fun n => n &&& REQ_FCHUNK_FL_LAST = 0 })
  | _ => i

def delivered (d : Disk) (sent : List Package) : Disk × Option QFile :=
  sent.foldl (deliver m_sWorkPath) (d, none)

theorem delivered_snoc (d : Disk) (sent : List Package) (p : Package) :
    delivered m_sWorkPath d (sent ++ [p]) = deliver m_sWorkPath (delivered m_sWorkPath d sent) p := by
  rw [delivered, List.foldl_append]
  rfl

end Ideal

/-- A package that the target can make something of, when this file is the last. -/
def Orderly (file : Option QFile) : Package → Prop
  | .firstRequest version platform size =>
      version.parsed.isSome ∧ platform.parsed.isSome ∧ size.parsed.isSome
  | .dirCmd _ perms => perms.parsed.isSome
  | .fileCmd _ size perms =>
      size.parsed.isSome ∧ perms.parsed.isSome ∧ file.any QFile.isOpen = false
  | .fileChunkCmd flags _ => flags.parsed.isSome ∧ file.any QFile.isOpen = true
  | .finishCmd => True
  | .stranger | .other | .cancelCmd => False

/-- An answer of the kind that a package is to get, or an error. -/
def Suits : Package → Answer → Prop
  | _, .error _ => True
  | .firstRequest _ _ _, a => a = .firstReply
  | _, a => a = .reply

section Target

variable {m_sWorkPath : Path} {m_bOverwriteMode : Bool} {t : CVmFileListCopyTarget} {o : Outcomes}
  {p : Package} {h : Handled}

/-- How a package ends that the target can make something of. -/
inductive Ending (m_sWorkPath : Path) (m_bOverwriteMode : Bool) (t : CVmFileListCopyTarget)
    (p : Package) (o : Outcomes) (h : Handled) : Prop where
  | passed (event : h.target.m_Event = t.m_Event)
      (running : h.target.m_bIsOperationWasCanceled = false)
      (suits : ∀ a ∈ h.sent, Suits p a ∧ ∀ e, a ≠ .error e)
      (disk : ∀ d : Disk, (d.run h.touched, h.target.file) = deliver m_sWorkPath (d, t.file) p)
  | refused (e : CVmEvent) (code : e.eventCode.failed = true) (event : h.target.m_Event = e)
      (running : h.target.m_bIsOperationWasCanceled = false) (sent : h.sent = [.error e])
      (outcomes : o.fine m_bOverwriteMode = false)

/-- A package that is acknowledged, or would be. -/
theorem Ending.acked {file : Option QFile} {b : Option Bool} (touched : List (DiskCall × Bool))
    (running : t.m_bIsOperationWasCanceled = false) (suits : Suits p .reply)
    (disk : ∀ d : Disk, (d.run touched, file) = deliver m_sWorkPath (d, t.file) p) :
    Ending m_sWorkPath m_bOverwriteMode t p o
      { (CVmFileListCopyTarget.SendAck { t with file } o).after touched with bFinish := b } := by
  unfold CVmFileListCopyTarget.SendAck
  split
  · refine .passed rfl running (by simp [Handled.after, suits]) fun d => ?_
    simpa [Handled.after] using disk d
  · refine .passed rfl running (by simp [Handled.after]) fun d => ?_
    simpa [Handled.after] using disk d

theorem Ending.error {t' : CVmFileListCopyTarget} {e : CVmEvent} {b : Option Bool}
    (touched : List (DiskCall × Bool)) (running : t'.m_bIsOperationWasCanceled = false)
    (code : e.eventCode.failed = true) (outcomes : o.fine m_bOverwriteMode = false) :
    Ending m_sWorkPath m_bOverwriteMode t p o
      { (t'.SendError e).after touched with bFinish := b } :=
  .refused e code rfl running rfl outcomes

theorem ending (clean : t.m_Event.eventCode = .success)
    (running : t.m_bIsOperationWasCanceled = false) (orderly : Orderly t.file p)
    (hh : t.handlePackage m_sWorkPath m_bOverwriteMode p o = some h) :
    Ending m_sWorkPath m_bOverwriteMode t p o h := by
  have hclean : t.m_Event.eventCode.failed = false := by rw [clean]; rfl
  rw [CVmFileListCopyTarget.handlePackage, running, if_neg Bool.false_ne_true, hclean,
    if_neg Bool.false_ne_true] at hh
  cases p with
  | stranger => exact orderly.elim
  | other => exact orderly.elim
  | cancelCmd => exact orderly.elim
  | firstRequest version platform size =>
      obtain ⟨hversion, hplatform, hsize⟩ := orderly
      obtain ⟨v, hv⟩ := Option.isSome_iff_exists.mp hversion
      obtain ⟨w, hw⟩ := Option.isSome_iff_exists.mp hplatform
      obtain ⟨n, hn⟩ := Option.isSome_iff_exists.mp hsize
      rw [CVmFileListCopyTarget.dispatch, CVmFileListCopyTarget.RecvFirstRequest, hv, hw, hn] at hh
      cases hh
      exact .passed rfl running (by simp [CVmFileListCopyTarget.finished, Suits]) fun _ => rfl
  | dirCmd path perms =>
      obtain ⟨n, hn⟩ := Option.isSome_iff_exists.mp orderly
      simp only [CVmFileListCopyTarget.dispatch, CVmFileListCopyTarget.RecvDirRequest, hn] at hh
      cases hh
      by_cases hmkpath : o.mkpath = true
      · rw [if_pos hmkpath]
        exact .acked _ running rfl fun _ => rfl
      · rw [if_neg hmkpath]
        exact .error _ running rfl (by simp [Outcomes.fine, hmkpath])
  | fileCmd path size perms =>
      obtain ⟨hsize, hperms, hclosed⟩ := orderly
      obtain ⟨n, hn⟩ := Option.isSome_iff_exists.mp hsize
      obtain ⟨k, hk⟩ := Option.isSome_iff_exists.mp hperms
      simp only [CVmFileListCopyTarget.dispatch, CVmFileListCopyTarget.RecvFileRequest, hn, hk,
        hclosed, Bool.false_eq_true, if_false] at hh
      cases hh
      by_cases hexists : (!m_bOverwriteMode && o.exists_) = true
      · rw [if_pos hexists]
        refine .error [] running rfl ?_
        simp only [Bool.and_eq_true, Bool.not_eq_true'] at hexists
        simp [Outcomes.fine, hexists]
      · rw [if_neg hexists]
        by_cases hopen : o.openFile = true
        · rw [if_pos hopen]
          exact .acked _ running rfl fun _ => rfl
        · rw [if_neg hopen]
          exact .error _ running rfl (by simp [Outcomes.fine, hopen])
  | fileChunkCmd flags data =>
      obtain ⟨hflags, hopen⟩ := orderly
      obtain ⟨n, hn⟩ := Option.isSome_iff_exists.mp hflags
      obtain ⟨f, hf⟩ : ∃ f, t.file = some f := by
        cases hfile : t.file with
        | none =>
            rw [hfile] at hopen
            cases hopen
        | some f => exact ⟨f, rfl⟩
      have hisOpen : f.isOpen = true := by simpa [hf] using hopen
      simp only [CVmFileListCopyTarget.dispatch, CVmFileListCopyTarget.RecvFileChunk, hf, hisOpen,
        hn, if_true, Option.map_some] at hh
      cases hh
      by_cases hwrite : o.write = true
      · rw [if_pos hwrite]
        refine .passed rfl running (by simp [CVmFileListCopyTarget.finished]) fun d => ?_
        simp [CVmFileListCopyTarget.finished, deliver, hf, hn, Disk.run, Disk.call]
      · rw [if_neg hwrite]
        exact .error _ running rfl (by simp [Outcomes.fine, hwrite])
  | finishCmd =>
      rw [CVmFileListCopyTarget.dispatch, CVmFileListCopyTarget.RecvFinishRequest, hclean,
        if_neg Bool.false_ne_true] at hh
      cases hh
      exact .acked [] running rfl fun _ => rfl

end Target

section Invariant

variable (m_sWorkPath : Path) (m_bOverwriteMode : Bool) (d : Disk)

/-- As long as the target has no error, its disk holds what it has handled. Whatever is answered
without an error is answered in such a state. -/
structure Inv (s : Line) : Prop where
  bound : s.handled ≤ s.sent.length
  suits : ∀ x ∈ s.answers, x.1 < s.handled ∧ ∀ p, s.sent[x.1]? = some p → Suits p x.2
  errors : ∀ k e, (k, .error e) ∈ s.answers →
    e.eventCode.failed = true ∧ s.target.m_Event.eventCode.failed = true
  told : ∀ e, s.m_sErrorString = some e → ∃ k, (k, .error e) ∈ s.answers
  clean : s.target.m_Event.eventCode = .success → s.target.m_bIsOperationWasCanceled = false →
    (d.run s.touched, s.target.file) = delivered m_sWorkPath d (s.sent.take s.handled)
  passed : ∀ k a, (k, a) ∈ s.answers → (∀ e, a ≠ .error e) → k + 1 = s.handled →
    d.run s.touched = (delivered m_sWorkPath d (s.sent.take s.handled)).1 ∧
      ∀ k e, (k, .error e) ∉ s.answers
  orderly : ∀ k p, s.sent[k]? = some p → Orderly (delivered m_sWorkPath d (s.sent.take k)).2 p
  canceled : s.m_bIsOperationWasCanceled = true → s.disturbed = true
  hindered : s.target.m_Event.eventCode.failed = true → s.hindered = true

variable {m_sWorkPath m_bOverwriteMode d} {s t : Line} {p : Package}

theorem Inv.start : Inv m_sWorkPath d {} where
  bound := Nat.le_refl _
  suits _ h := absurd h List.not_mem_nil
  errors _ _ h := absurd h List.not_mem_nil
  told _ h := by cases h
  clean _ _ := rfl
  passed _ _ h := absurd h List.not_mem_nil
  orderly _ _ h := by cases h
  canceled h := by cases h
  hindered h := by cases h

theorem Code.failed_eq_false {c : Code} : c.failed = false ↔ c = .success := by
  simp [Code.failed]

/-- A package is handled that nothing comes of, or an error that was told before. -/
theorem Inv.idle (inv : Inv m_sWorkPath d s) (hlt : s.handled < s.sent.length)
    {answers : List (Nat × Answer)} {hindered : Bool}
    (hanswers : answers = [] ∨ answers = [(s.handled, .error s.target.m_Event)])
    (hunclean : s.target.m_Event.eventCode.failed = true ∨
      s.target.m_bIsOperationWasCanceled = true ∧ answers = []) :
    Inv m_sWorkPath d { s with
      handled := s.handled + 1
      answers := s.answers ++ answers
      hindered := s.hindered || hindered } := by
  have hnew : ∀ x ∈ answers,
      x = (s.handled, .error s.target.m_Event) ∧ s.target.m_Event.eventCode.failed = true := by
    intro x hx
    obtain rfl | rfl := hanswers
    · cases hx
    · refine ⟨List.mem_singleton.mp hx, hunclean.resolve_right fun h => ?_⟩
      cases h.2
  refine ⟨hlt, fun x hx => ?_, fun k e hx => ?_, fun e he => ?_, fun hclean hrunning => ?_,
    fun k a hx herror hk => ?_, inv.orderly, inv.canceled, fun hfailed => ?_⟩
  · obtain hold | hx := List.mem_append.mp hx
    · obtain ⟨hlt, hsuits⟩ := inv.suits x hold
      exact ⟨Nat.lt_succ_of_lt hlt, hsuits⟩
    · rw [(hnew x hx).1]
      exact ⟨Nat.lt_succ_self _, fun p _ => by cases p <;> trivial⟩
  · obtain hold | hx := List.mem_append.mp hx
    · exact inv.errors k e hold
    · obtain ⟨heq, hfailed⟩ := hnew _ hx
      cases heq
      exact ⟨hfailed, hfailed⟩
  · obtain ⟨k, hk⟩ := inv.told e he
    exact ⟨k, List.mem_append_left _ hk⟩
  · obtain hno | ⟨hno, -⟩ := hunclean
    · rw [Code.failed_eq_false.mpr hclean] at hno
      cases hno
    · exact absurd (hrunning.symm.trans hno) Bool.false_ne_true
  · obtain hold | hx := List.mem_append.mp hx
    · have hlt : k < s.handled := (inv.suits _ hold).1
      change k + 1 = s.handled + 1 at hk
      omega
    · cases (hnew _ hx).1
      exact absurd rfl (herror _)
  · exact Bool.or_eq_true_iff.mpr (.inl (inv.hindered hfailed))

/-- A package is handled by a target that has no error. -/
theorem Inv.handled (inv : Inv m_sWorkPath d s) (hp : s.sent[s.handled]? = some p) {o : Outcomes}
    {h : Handled} (clean : s.target.m_Event.eventCode = .success)
    (running : s.target.m_bIsOperationWasCanceled = false)
    (ending : Ending m_sWorkPath m_bOverwriteMode s.target p o h) :
    Inv m_sWorkPath d { s with
      handled := s.handled + 1
      answers := s.answers ++ h.sent.map fun a => (s.handled, a)
      target := h.target
      touched := s.touched ++ h.touched
      hindered := s.hindered || !o.fine m_bOverwriteMode } := by
  have hlt : s.handled < s.sent.length := (List.getElem?_eq_some_iff.mp hp).1
  have htake : s.sent.take (s.handled + 1) = s.sent.take s.handled ++ [p] := by
    rw [List.take_add_one, hp]
    rfl
  -- no error has been told before
  have hnone : ∀ k e, (k, .error e) ∉ s.answers := by
    intro k e hx
    have hfailed := (inv.errors k e hx).2
    rw [Code.failed_eq_false.mpr clean] at hfailed
    cases hfailed
  have hmem : ∀ {k a}, (k, a) ∈ s.answers ++ h.sent.map (fun a => (s.handled, a)) →
      (k, a) ∈ s.answers ∨ k = s.handled ∧ a ∈ h.sent := by
    intro k a hx
    refine (List.mem_append.mp hx).imp id fun hx => ?_
    obtain ⟨b, hb, heq⟩ := List.mem_map.mp hx
    cases heq
    exact ⟨rfl, hb⟩
  have hsuits : (∀ a ∈ h.sent, Suits p a) → ∀ x ∈ s.answers ++ h.sent.map (fun a => (s.handled, a)),
      x.1 < s.handled + 1 ∧ ∀ q, s.sent[x.1]? = some q → Suits q x.2 := by
    rintro hsent ⟨k, a⟩ hx
    obtain hold | ⟨rfl, ha⟩ := hmem hx
    · obtain ⟨hlt, hsuits⟩ := inv.suits _ hold
      exact ⟨Nat.lt_succ_of_lt hlt, hsuits⟩
    · refine ⟨Nat.lt_succ_self _, fun q hq => ?_⟩
      cases hp.symm.trans hq
      exact hsent a ha
  have htold : ∀ e, s.m_sErrorString = some e →
      ∃ k, (k, .error e) ∈ s.answers ++ h.sent.map fun a => (s.handled, a) := by
    intro e he
    obtain ⟨k, hk⟩ := inv.told e he
    exact ⟨k, List.mem_append_left _ hk⟩
  cases ending with
  | passed event hrunning suits disk =>
      have hdisk : (d.run (s.touched ++ h.touched), h.target.file) =
          delivered m_sWorkPath d (s.sent.take (s.handled + 1)) := by
        rw [Disk.run_append, disk, htake, delivered_snoc, ← inv.clean clean running]
      have hnone' : ∀ k e, (k, .error e) ∉ s.answers ++ h.sent.map fun a => (s.handled, a) := by
        intro k e hx
        obtain hold | ⟨-, ha⟩ := hmem hx
        · exact hnone k e hold
        · exact (suits _ ha).2 e rfl
      refine ⟨hlt, hsuits fun a ha => (suits a ha).1, fun k e hx => absurd hx (hnone' k e), htold,
        fun _ _ => hdisk, fun _ _ _ _ _ => ⟨congrArg Prod.fst hdisk, hnone'⟩, inv.orderly,
        inv.canceled, fun hfailed => ?_⟩
      rw [event, Code.failed_eq_false.mpr clean] at hfailed
      cases hfailed
  | refused e code event hrunning sent outcomes =>
      refine ⟨hlt, hsuits fun a ha => ?_, fun k e' hx => ?_, htold, fun hclean => ?_,
        fun k a hx herror hk => ?_, inv.orderly, inv.canceled, fun _ => ?_⟩
      · rw [sent] at ha
        rw [List.mem_singleton.mp ha]
        cases p <;> trivial
      · obtain hold | ⟨-, ha⟩ := hmem hx
        · exact absurd hold (hnone k e')
        · rw [sent] at ha
          cases List.mem_singleton.mp ha
          exact ⟨code, event ▸ code⟩
      · change h.target.m_Event.eventCode = .success at hclean
        rw [event] at hclean
        rw [Code.failed_eq_false.mpr hclean] at code
        cases code
      · obtain hold | ⟨-, ha⟩ := hmem hx
        · have hlt : k < s.handled := (inv.suits _ hold).1
          change k + 1 = s.handled + 1 at hk
          omega
        · rw [sent] at ha
          exact absurd (List.mem_singleton.mp ha) (herror e)
      · simp [outcomes]

theorem Inv.handle (inv : Inv m_sWorkPath d s) {o : Outcomes}
    (hh : s.handle m_sWorkPath m_bOverwriteMode o = some t) : Inv m_sWorkPath d t := by
  unfold Line.handle at hh
  split at hh
  · cases hh
  · rename_i p hp
    obtain ⟨h, hhandled, rfl⟩ := Option.map_eq_some_iff.mp hh
    have hlt : s.handled < s.sent.length := (List.getElem?_eq_some_iff.mp hp).1
    have horderly : Orderly (delivered m_sWorkPath d (s.sent.take s.handled)).2 p :=
      inv.orderly _ p hp
    cases hrunning : s.target.m_bIsOperationWasCanceled with
    | true =>
        rw [CVmFileListCopyTarget.handlePackage, if_pos hrunning] at hhandled
        cases hhandled
        simpa using inv.idle hlt (.inl rfl) (.inr ⟨hrunning, rfl⟩)
    | false =>
        cases hfailed : s.target.m_Event.eventCode.failed with
        | true =>
            have hrange : p.outOfRange = false := by
              cases p with
              | stranger => exact horderly.elim
              | _ => rfl
            rw [CVmFileListCopyTarget.handlePackage, hrunning, if_neg Bool.false_ne_true, hrange,
              if_neg Bool.false_ne_true, hfailed, if_pos rfl] at hhandled
            cases hhandled
            simpa [CVmFileListCopyTarget.SendError] using inv.idle hlt (.inr rfl) (.inl hfailed)
        | false =>
            have hclean := Code.failed_eq_false.mp hfailed
            have hfile := congrArg Prod.snd (inv.clean hclean hrunning)
            refine inv.handled hp hclean hrunning (ending hclean hrunning ?_ hhandled)
            rw [show s.target.file = _ from hfile]
            exact horderly

/-- The source sends a package that the target can make something of. -/
theorem Inv.send (inv : Inv m_sWorkPath d s)
    (orderly : Orderly (delivered m_sWorkPath d s.sent).2 p) :
    Inv m_sWorkPath d { s with sent := s.sent ++ [p] } := by
  have htake : ∀ k ≤ s.sent.length, (s.sent ++ [p]).take k = s.sent.take k :=
    fun k hk => List.take_append_of_le_length hk
  refine ⟨?_, fun x hx => ?_, inv.errors, inv.told, ?_, ?_, fun k q hq => ?_, inv.canceled,
    inv.hindered⟩
  · exact Nat.le_trans inv.bound (by simp)
  · obtain ⟨hlt, hsuits⟩ := inv.suits x hx
    refine ⟨hlt, fun q hq => hsuits q ?_⟩
    rwa [List.getElem?_append_left (Nat.lt_of_lt_of_le hlt inv.bound)] at hq
  · change _ → _ → _ = delivered m_sWorkPath d ((s.sent ++ [p]).take s.handled)
    rw [htake _ inv.bound]
    exact inv.clean
  · change ∀ k a, _ → _ → _ → _ = (delivered m_sWorkPath d ((s.sent ++ [p]).take s.handled)).1 ∧ _
    rw [htake _ inv.bound]
    exact inv.passed
  · change (s.sent ++ [p])[k]? = some q at hq
    change Orderly (delivered m_sWorkPath d ((s.sent ++ [p]).take k)).2 q
    obtain hlt | heq := Nat.lt_or_eq_of_le (Nat.le_of_lt_succ (by
      simpa using (List.getElem?_eq_some_iff.mp hq).1))
    · rw [List.getElem?_append_left hlt] at hq
      rw [htake k (Nat.le_of_lt hlt)]
      exact inv.orderly k q hq
    · subst heq
      rw [List.getElem?_concat_length] at hq
      cases hq
      rw [htake _ (Nat.le_refl _), List.take_length]
      exact orderly

theorem Inv.disturbed (inv : Inv m_sWorkPath d s) :
    Inv m_sWorkPath d { s with disturbed := true } :=
  ⟨inv.bound, inv.suits, inv.errors, inv.told, inv.clean, inv.passed, inv.orderly, fun _ => rfl,
    inv.hindered⟩

theorem Inv.change (inv : Inv m_sWorkPath d s) (h : Change m_sWorkPath m_bOverwriteMode s t) :
    Inv m_sWorkPath d t := by
  cases h with
  | handle o h => exact inv.handle h
  | @notify k e h =>
      refine ⟨inv.bound, inv.suits, inv.errors, fun e' he => ?_, inv.clean, inv.passed, inv.orderly,
        inv.canceled, inv.hindered⟩
      cases he
      exact ⟨k, h⟩
  | cancelSource =>
      exact ⟨inv.bound, inv.suits, inv.errors, inv.told, inv.clean, inv.passed, inv.orderly,
        fun _ => rfl, inv.hindered⟩
  | cancelTarget =>
      exact ⟨inv.bound, inv.suits, inv.errors, inv.told, fun _ hno => (by cases hno), inv.passed,
        inv.orderly, inv.canceled, inv.hindered⟩
  | setError h =>
      refine ⟨inv.bound, inv.suits, fun k e hx => ⟨(inv.errors k e hx).1, h⟩, inv.told,
        fun hno _ => ?_, inv.passed, inv.orderly, inv.canceled, fun _ => rfl⟩
      rw [Code.failed_eq_false.mpr hno] at h
      cases h

end Invariant

section Calls

variable (m_sWorkPath : Path) (d : Disk)

/-- The packages so far are known. -/
def Ready (l : List Package) (s : Line) : Prop :=
  Inv m_sWorkPath d s ∧ s.sent = l

/-- Why the source fails: it is disturbed, or told of an error, the code of which it gives unless
this is the answer to the first request. -/
def Excused (code : Code) (s : Line) : Prop :=
  s.disturbed = true ∨ (code = .operationFailed ∧ ∃ e, (0, .error e) ∈ s.answers) ∨
    ∃ k e, (k, .error e) ∈ s.answers ∧ code = e.eventCode

def Failed (code : Code) (s : Line) : Prop :=
  Inv m_sWorkPath d s ∧ code.failed = true ∧ Excused code s

/-- The last package is answered. -/
def Answered (l : List Package) (p : Package) (a : Answer) (s : Line) : Prop :=
  Ready m_sWorkPath d (l ++ [p]) s ∧ (l.length, a) ∈ s.answers

/-- What the source goes on with, or why it fails. -/
def Ended (done : Line → Prop) (code : Code) (s : Line) : Prop :=
  if code = .success then done s else Failed m_sWorkPath d code s

variable {m_sWorkPath d} {m_bOverwriteMode : Bool} {s t : Line} {l : List Package} {p : Package}
  {code : Code}

theorem Change.keeps (h : Change m_sWorkPath m_bOverwriteMode s t) :
    t.sent = s.sent ∧ (∀ x ∈ s.answers, x ∈ t.answers) ∧
      (s.disturbed = true → t.disturbed = true) := by
  cases h with
  | handle o h =>
      unfold Line.handle at h
      split at h
      · cases h
      · obtain ⟨h, -, rfl⟩ := Option.map_eq_some_iff.mp h
        exact ⟨rfl, fun x hx => List.mem_append_left _ hx, id⟩
  | notify h => exact ⟨rfl, fun _ => id, id⟩
  | cancelSource => exact ⟨rfl, fun _ => id, fun _ => rfl⟩
  | cancelTarget => exact ⟨rfl, fun _ => id, id⟩
  | setError h => exact ⟨rfl, fun _ => id, id⟩

theorem Excused.mono (h : Excused code s) (hdisturbed : s.disturbed = true → t.disturbed = true)
    (hanswers : ∀ x ∈ s.answers, x ∈ t.answers) : Excused code t := by
  obtain h | ⟨hcode, e, h⟩ | ⟨k, e, h, hcode⟩ := h
  · exact .inl (hdisturbed h)
  · exact .inr (.inl ⟨hcode, e, hanswers _ h⟩)
  · exact .inr (.inr ⟨k, e, hanswers _ h, hcode⟩)

theorem stable_ready : (line m_sWorkPath m_bOverwriteMode).Stable (Ready m_sWorkPath d l) :=
  fun _ _ h hchange => ⟨h.1.change hchange, hchange.keeps.1.trans h.2⟩

theorem stable_failed : (line m_sWorkPath m_bOverwriteMode).Stable (Failed m_sWorkPath d code) := by
  intro s t h hchange
  obtain ⟨-, hanswers, hdisturbed⟩ := hchange.keeps
  exact ⟨h.1.change hchange, h.2.1, h.2.2.mono hdisturbed hanswers⟩

theorem stable_answer {x : Nat × Answer} :
    (line m_sWorkPath m_bOverwriteMode).Stable fun s => x ∈ s.answers :=
  fun _ _ h hchange => hchange.keeps.2.1 x h

theorem stable_answered {a : Answer} :
    (line m_sWorkPath m_bOverwriteMode).Stable (Answered m_sWorkPath d l p a) :=
  stable_ready.and stable_answer

theorem Inv.failed (inv : Inv m_sWorkPath d s) (hcode : code.failed = true)
    (h : s.disturbed = true) : Failed m_sWorkPath d code s :=
  ⟨inv, hcode, .inl h⟩

/-- The flag is looked at. -/
theorem holds_canceled : Holds (line m_sWorkPath m_bOverwriteMode) (Ready m_sWorkPath d l)
    m_bIsOperationWasCanceled fun r s =>
      if r then Failed m_sWorkPath d .operationWasCanceled s else Ready m_sWorkPath d l s := by
  refine .query stable_ready (fun r => ?_) fun s r t h htold => ?_
  · cases r
    · exact stable_ready
    · exact stable_failed
  · cases htold
    split
    · rename_i hcanceled
      exact h.1.failed rfl (h.1.canceled hcanceled)
    · exact h

theorem holds_error : Holds (line m_sWorkPath m_bOverwriteMode) (Ready m_sWorkPath d l)
    m_sErrorString fun r s =>
      match r with
      | some e => Failed m_sWorkPath d (processTargetError e) s
      | none => Ready m_sWorkPath d l s := by
  refine .query stable_ready (fun r => ?_) fun s r t h htold => ?_
  · cases r
    · exact stable_ready
    · exact stable_failed
  · cases htold
    split
    · rename_i e he
      obtain ⟨k, hk⟩ := h.1.told e he
      exact ⟨h.1, (h.1.errors k e hk).1, .inr (.inr ⟨k, e, hk, rfl⟩)⟩
    · exact h

theorem holds_send (orderly : Orderly (delivered m_sWorkPath d l).2 p) :
    Holds (line m_sWorkPath m_bOverwriteMode) (Ready m_sWorkPath d l) (sendPackage p) fun r s =>
      match r with
      | some job => job = l.length ∧ Ready m_sWorkPath d (l ++ [p]) s
      | none => Failed m_sWorkPath d .operationFailed s := by
  refine .query stable_ready (fun r => ?_) fun s r t h htold => ?_
  · cases r
    · exact stable_failed
    · exact fun s t h hchange => ⟨h.1, stable_ready s t h.2 hchange⟩
  · obtain ⟨inv, rfl⟩ := h
    cases htold with
    | sent => exact ⟨rfl, inv.send orderly, rfl⟩
    | unsent => exact inv.disturbed.failed rfl rfl
    | unknown => exact (inv.send orderly).disturbed.failed rfl rfl

theorem holds_response : Holds (line m_sWorkPath m_bOverwriteMode)
    (Ready m_sWorkPath d (l ++ [p])) (takeResponse l.length) fun r s =>
      match r with
      | some a => Answered m_sWorkPath d l p a s
      | none => Failed m_sWorkPath d .operationFailed s := by
  refine .query stable_ready (fun r => ?_) fun s r t h htold => ?_
  · cases r
    · exact stable_failed
    · exact stable_answered
  · cases htold with
    | response hanswer => exact ⟨h, hanswer⟩
    | unheard => exact h.1.disturbed.failed rfl rfl

/-- A request is sent and answered. -/
theorem holds_request (orderly : Orderly (delivered m_sWorkPath d l).2 p) :
    Holds (line m_sWorkPath m_bOverwriteMode) (Ready m_sWorkPath d l) (SendReqAndWaitReply p)
      fun r s =>
        match r with
        | .ok a => Answered m_sWorkPath d l p a s
        | .error code => Failed m_sWorkPath d code s := by
  refine .bind holds_canceled fun canceled => ?_
  cases canceled with
  | true => exact .pure stable_failed fun _ => id
  | false =>
      refine .bind holds_error fun error => ?_
      cases error with
      | some e => exact .pure stable_failed fun _ => id
      | none =>
          refine .bind (holds_send orderly) fun sent => ?_
          cases sent with
          | none => exact .pure stable_failed fun _ => id
          | some job =>
              refine .of_fact (φ := job = l.length) fun hjob => ?_
              subst hjob
              refine .bind holds_response fun a => ?_
              cases a with
              | none => exact .pure stable_failed fun _ => id
              | some ack => exact .pure stable_answered fun _ => id

/-- The last package is answered without an error. -/
def Acked (m_sWorkPath : Path) (d : Disk) (l : List Package) (p : Package) (s : Line) : Prop :=
  ∃ a, (∀ e, a ≠ .error e) ∧ Answered m_sWorkPath d l p a s

theorem stable_acked : (line m_sWorkPath m_bOverwriteMode).Stable (Acked m_sWorkPath d l p) :=
  fun s t h hchange => h.imp fun _ h => ⟨h.1, stable_answered s t h.2 hchange⟩

theorem Failed.ended {done : Line → Prop} (h : Failed m_sWorkPath d code s) :
    Ended m_sWorkPath d done code s := by
  refine (if_neg ?_).mpr h
  rintro rfl
  cases h.2.1

theorem Answered.failed {e : CVmEvent} (h : Answered m_sWorkPath d l p (.error e) s) :
    Failed m_sWorkPath d (processTargetError e) s :=
  ⟨h.1.1, (h.1.1.errors _ _ h.2).1, .inr (.inr ⟨_, e, h.2, rfl⟩)⟩

theorem Answered.suits {a : Answer} (h : Answered m_sWorkPath d l p a s) : Suits p a := by
  refine (h.1.1.suits _ h.2).2 p ?_
  rw [h.1.2, List.getElem?_concat_length]

/-- A request other than the first one is sent and acknowledged. -/
theorem holds_ack (orderly : Orderly (delivered m_sWorkPath d l).2 p)
    (hkind : ∀ a, Suits p a → (∀ e, a ≠ .error e) → a = .reply) :
    Holds (line m_sWorkPath m_bOverwriteMode) (Ready m_sWorkPath d l) (SendReqWithAck p)
      (Ended m_sWorkPath d (Acked m_sWorkPath d l p)) := by
  refine .bind (holds_request orderly) fun r => ?_
  cases r with
  | error code => exact .pure stable_failed fun _ => Failed.ended
  | ok a =>
      cases a with
      | error e => exact .pure stable_answered fun _ h => h.failed.ended
      | reply => exact .pure stable_answered fun _ h => (if_pos rfl).mpr ⟨.reply, by simp, h⟩
      | firstReply =>
          exact .pure stable_answered fun _ h => absurd (hkind _ h.suits (by simp)) (by simp)
      | response =>
          exact .pure stable_answered fun _ h => absurd (hkind _ h.suits (by simp)) (by simp)

theorem holds_first (getPlatform m_nTotalSize : Int) :
    Holds (line m_sWorkPath m_bOverwriteMode) (Ready m_sWorkPath d [])
      (SendFirstRequest getPlatform m_nTotalSize)
      (Ended m_sWorkPath d (Ready m_sWorkPath d [.firstRequest (.print MIGRATION_PROTO_VER)
        (.print getPlatform) (.print m_nTotalSize)])) := by
  refine .bind (holds_request ⟨rfl, rfl, rfl⟩) fun r => ?_
  cases r with
  | error code => exact .pure stable_failed fun _ => Failed.ended
  | ok a =>
      cases a with
      | error e =>
          refine .pure stable_answered fun s h => Failed.ended ?_
          exact ⟨h.1.1, rfl, .inr (.inl ⟨rfl, e, h.2⟩)⟩
      | firstReply => exact .pure stable_answered fun _ h => (if_pos rfl).mpr h.1
      | reply => exact .pure stable_answered fun _ h => absurd h.suits (by simp [Suits])
      | response => exact .pure stable_answered fun _ h => absurd h.suits (by simp [Suits])

/-- What is delivered is known of the packages so far. -/
def Leaves (m_sWorkPath : Path) (d : Disk) (i : Disk × Option QFile) (s : Line) : Prop :=
  ∃ l, Ready m_sWorkPath d l s ∧ delivered m_sWorkPath d l = i

theorem stable_leaves {i : Disk × Option QFile} :
    (line m_sWorkPath m_bOverwriteMode).Stable (Leaves m_sWorkPath d i) :=
  fun s t h hchange => h.imp fun _ h => ⟨stable_ready s t h.1 hchange, h.2⟩

theorem Ended.stable {done : Line → Prop} (h : (line m_sWorkPath m_bOverwriteMode).Stable done) :
    (line m_sWorkPath m_bOverwriteMode).Stable (Ended m_sWorkPath d done code) := by
  unfold Ended
  split
  · exact h
  · exact stable_failed

/-- It is enough to look at the packages one after another. -/
theorem holds_of_sent {i : Disk × Option QFile} {α : Type} {q : Source α} {Q : α → Line → Prop}
    (h : ∀ l, delivered m_sWorkPath d l = i →
      Holds (line m_sWorkPath m_bOverwriteMode) (Ready m_sWorkPath d l) q Q) :
    Holds (line m_sWorkPath m_bOverwriteMode) (Leaves m_sWorkPath d i) q Q := by
  rintro s a u ⟨l, hs, hl⟩
  exact h l hl s a u hs

/-- After a step that may fail. -/
theorem holds_next {done : Line → Prop} {q : Source Code} {Q : Code → Line → Prop} {ret : Code}
    (hfailed : ∀ s, Failed m_sWorkPath d ret s → Q ret s)
    (h : Holds (line m_sWorkPath m_bOverwriteMode) done q Q) :
    Holds (line m_sWorkPath m_bOverwriteMode) (Ended m_sWorkPath d done ret)
      (if ret.failed then return ret else q) Q := by
  unfold Ended
  by_cases hret : ret = .success
  · subst hret
    exact h
  · have hcode : ret.failed = true := by simp [Code.failed, hret]
    simp only [hret, hcode, if_false, if_true]
    exact .pure stable_failed hfailed

/-- After the flag is looked at. -/
theorem holds_running {i : Disk × Option QFile} {q : Source Code} {Q : Code → Line → Prop}
    (hfailed : ∀ s, Failed m_sWorkPath d .operationWasCanceled s → Q .operationWasCanceled s)
    (h : Holds (line m_sWorkPath m_bOverwriteMode) (Leaves m_sWorkPath d i) q Q) :
    Holds (line m_sWorkPath m_bOverwriteMode) (Leaves m_sWorkPath d i)
      (do if ← m_bIsOperationWasCanceled then return .operationWasCanceled else q) Q := by
  refine holds_of_sent fun l hl => .bind holds_canceled fun canceled => ?_
  cases canceled with
  | true => exact .pure stable_failed hfailed
  | false => exact h.mono (fun s hs => ⟨l, hs, hl⟩) fun _ _ => id

/-- The disk with the rest of a file, which is closed. -/
def written (i : Disk) (fileName : Path) (content : List Byte) : Disk × Option QFile :=
  ({ i with files := Function.update i.files fileName (some content) }, some ⟨fileName, false⟩)

theorem holds_buffer {rest : List Byte} : Holds (line m_sWorkPath m_bOverwriteMode)
    (Ready m_sWorkPath d l) (getBuffer rest) fun r s =>
      if r.isSome then Ready m_sWorkPath d l s else Failed m_sWorkPath d .fileReadError s := by
  refine .query stable_ready (fun r => ?_) fun s r t h htold => ?_
  · cases r
    · exact stable_failed
    · exact stable_ready
  · cases htold with
    | buffer => exact h
    | unread => exact h.1.disturbed.failed rfl rfl

theorem deliver_chunk {i : Disk} {fileName : Path} {content data : List Byte} {flags : UInt64}
    (hfile : i.files fileName = some content) :
    deliver m_sWorkPath (i, some ⟨fileName, true⟩) (.fileChunkCmd (.print flags) data) =
      ({ i with files := Function.update i.files fileName (some (content ++ data)) },
        some ⟨fileName, decide (flags &&& REQ_FCHUNK_FL_LAST = 0)⟩) := by
  simp [deliver, hfile, Field.print]

theorem holds_chunks {i : Disk} {fileName : Path} {content : List Byte} (rest : List Byte)
    (hfile : i.files fileName = some content) :
    Holds (line m_sWorkPath m_bOverwriteMode) (Leaves m_sWorkPath d (i, some ⟨fileName, true⟩))
      (sendChunks rest)
      (Ended m_sWorkPath d (Leaves m_sWorkPath d (written i fileName (content ++ rest)))) := by
  induction hlength : rest.length using Nat.strongRecOn generalizing rest i content with
  | _ n ih =>
  subst hlength
  rw [sendChunks]
  refine holds_running (fun _ => Failed.ended) (holds_of_sent fun l hl => ?_)
  refine .bind holds_error fun error => ?_
  cases error with
  | some e => exact .pure stable_failed fun _ => Failed.ended
  | none =>
      refine .bind holds_buffer fun buffer => ?_
      cases buffer with
      | none => exact .pure stable_failed fun _ => Failed.ended
      | some buffer =>
          refine .bind (holds_send (l := l) ⟨rfl, by rw [hl]; rfl⟩) fun sent => ?_
          cases sent with
          | none => exact .pure stable_failed fun _ => Failed.ended
          | some job =>
              refine .of_fact fun _ => ?_
              by_cases hatEnd : rest.length ≤ buffer.size
              · simp only [dif_pos hatEnd, if_pos hatEnd]
                refine .pure stable_ready fun s hs => (if_pos rfl).mpr ⟨_, hs, ?_⟩
                rw [delivered_snoc, hl, deliver_chunk hfile, List.take_of_length_le hatEnd]
                rfl
              · simp only [dif_neg hatEnd, if_neg hatEnd]
                have hnext : (written i fileName (content ++ rest.take buffer.size)).1.files
                    fileName = some (content ++ rest.take buffer.size) := Function.update_self _ _ _
                have hless : (rest.drop buffer.size).length < rest.length := by
                  have hpositive := buffer.progress (by rintro rfl; simp at hatEnd)
                  rw [List.length_drop]
                  omega
                refine (ih _ hless (rest.drop buffer.size) hnext rfl).mono (fun s hs => ⟨_, hs, ?_⟩)
                  fun code s h => ?_
                · rw [delivered_snoc, hl, deliver_chunk hfile]
                  rfl
                · simpa [written] using h

section Copy

variable (m_sWorkPath) in
/-- A folder on disk. -/
def copyDir (i : Disk × Option QFile) (dPair : QFileInfo × Path) : Disk × Option QFile :=
  deliver m_sWorkPath i (.dirCmd dPair.2 (.print dPair.1.permissions))

variable (m_sWorkPath) in
/-- A file on disk, with all that is in it. -/
def copyFile (bytes : Path → List Byte) (i : Disk × Option QFile) (fPair : QFileInfo × Path) :
    Disk × Option QFile :=
  written i.1 (placed m_sWorkPath fPair.2) (bytes fPair.1.absoluteFilePath)

variable {i : Disk × Option QFile} {bytes : Path → List Byte}

/-- A request that is acknowledged has been sent. -/
theorem holds_sent (orderly : Orderly i.2 p)
    (hkind : ∀ a, Suits p a → (∀ e, a ≠ .error e) → a = .reply) :
    Holds (line m_sWorkPath m_bOverwriteMode) (Leaves m_sWorkPath d i) (SendReqWithAck p)
      (Ended m_sWorkPath d (Leaves m_sWorkPath d (deliver m_sWorkPath i p))) := by
  refine holds_of_sent fun l hl => ?_
  refine (holds_ack (hl ▸ orderly) hkind).mono (fun _ => id) fun code s h => ?_
  unfold Ended at h ⊢
  split
  · rename_i hcode
    obtain ⟨a, -, hanswered⟩ := (if_pos hcode).mp h
    exact ⟨_, hanswered.1, by rw [delivered_snoc, hl]⟩
  · rename_i hcode
    exact (if_neg hcode).mp h

theorem holds_dir (dPair : QFileInfo × Path) :
    Holds (line m_sWorkPath m_bOverwriteMode) (Leaves m_sWorkPath d i) (SendDirRequest dPair)
      (Ended m_sWorkPath d (Leaves m_sWorkPath d (copyDir m_sWorkPath i dPair))) :=
  holds_sent rfl fun a h herror => by
    cases a with
    | error e => exact absurd rfl (herror e)
    | _ => exact h

theorem holds_open {path : Path} : Holds (line m_sWorkPath m_bOverwriteMode)
    (Leaves m_sWorkPath d i) (open_ path) fun r s =>
      if r then Leaves m_sWorkPath d i s else Failed m_sWorkPath d .failure s := by
  refine .query stable_leaves (fun r => ?_) fun s r t h htold => ?_
  · cases r
    · exact stable_failed
    · exact stable_leaves
  · cases htold with
    | opened => exact h
    | unopened =>
        obtain ⟨l, hready, -⟩ := h
        exact hready.1.disturbed.failed rfl rfl

theorem holds_file (hclosed : i.2.any QFile.isOpen = false) (fPair : QFileInfo × Path) :
    Holds (line m_sWorkPath m_bOverwriteMode) (Leaves m_sWorkPath d i)
      (SendFileRequest bytes fPair)
      (Ended m_sWorkPath d (Leaves m_sWorkPath d (copyFile m_sWorkPath bytes i fPair))) := by
  refine .bind (holds_sent ⟨rfl, rfl, hclosed⟩ fun a h herror => ?_) fun ret => ?_
  · cases a with
    | error e => exact absurd rfl (herror e)
    | _ => exact h
  · refine holds_next (fun _ => Failed.ended) (.bind holds_open fun opened => ?_)
    cases opened with
    | false => exact .pure stable_failed fun _ => Failed.ended
    | true =>
        have hfile : (deliver m_sWorkPath i (.fileCmd fPair.2 (.print fPair.1.size)
            (.print fPair.1.permissions))).1.files (placed m_sWorkPath fPair.2) = some [] :=
          Function.update_self _ _ _
        refine (holds_chunks (bytes fPair.1.absoluteFilePath) hfile).mono (fun _ => id)
          fun code s h => ?_
        simpa [written, copyFile, deliver] using h

/-- A loop of requests. -/
theorem holds_all {request : QFileInfo × Path → Source Code}
    {copied : Disk × Option QFile → QFileInfo × Path → Disk × Option QFile}
    (hnext : ∀ i pair, (copied i pair).2.any QFile.isOpen = false)
    (hrequest : ∀ i pair, i.2.any QFile.isOpen = false →
      Holds (line m_sWorkPath m_bOverwriteMode) (Leaves m_sWorkPath d i) (request pair)
        (Ended m_sWorkPath d (Leaves m_sWorkPath d (copied i pair))))
    (pairs : List (QFileInfo × Path)) (hi : i.2.any QFile.isOpen = false) :
    Holds (line m_sWorkPath m_bOverwriteMode) (Leaves m_sWorkPath d i) (copyAll request pairs)
      (Ended m_sWorkPath d (Leaves m_sWorkPath d (pairs.foldl copied i))) := by
  induction pairs generalizing i with
  | nil => exact .pure stable_leaves fun _ h => (if_pos rfl).mpr h
  | cons pair pairs ih =>
      refine .bind (hrequest i pair hi) fun ret => ?_
      refine holds_next (fun _ => Failed.ended) ?_
      exact holds_running (fun _ => Failed.ended) (ih (hnext i pair))

theorem closed_foldl {copied : Disk × Option QFile → QFileInfo × Path → Disk × Option QFile}
    (hnext : ∀ i pair, (copied i pair).2.any QFile.isOpen = false)
    (hi : i.2.any QFile.isOpen = false) (pairs : List (QFileInfo × Path)) :
    (pairs.foldl copied i).2.any QFile.isOpen = false := by
  induction pairs generalizing i with
  | nil => exact hi
  | cons pair pairs ih => exact ih (hnext i pair)

variable (m_sWorkPath) in
/-- A disk with the folders and the files. -/
def copied (bytes : Path → List Byte) (d : Disk) (dirList fileList : List (QFileInfo × Path)) :
    Disk × Option QFile :=
  fileList.foldl (copyFile m_sWorkPath bytes) (dirList.foldl (copyDir m_sWorkPath) (d, none))

theorem holds_copy (getPlatform m_nTotalSize : Int) (dirList fileList : List (QFileInfo × Path)) :
    Holds (line m_sWorkPath m_bOverwriteMode) (fun s => s = {})
      (Copy bytes getPlatform m_nTotalSize dirList fileList)
      (Ended m_sWorkPath d fun s => ∃ l,
        delivered m_sWorkPath d l = copied m_sWorkPath bytes d dirList fileList ∧
          Acked m_sWorkPath d l .finishCmd s) := by
  have hstart : ∀ s : Line, s = {} → Ready m_sWorkPath d [] s := by
    rintro s rfl
    exact ⟨.start, rfl⟩
  refine Holds.mono (.bind (holds_first getPlatform m_nTotalSize) fun ret => ?_) hstart fun _ _ => id
  refine holds_next (fun _ => Failed.ended)
    (Holds.mono (P := Leaves m_sWorkPath d (d, none)) ?_ (fun s hs => ⟨_, hs, rfl⟩) fun _ _ => id)
  refine holds_running (fun _ => Failed.ended) ?_
  refine .bind (holds_all (fun _ _ => rfl) (fun i pair _ => holds_dir pair) dirList rfl)
    fun ret => ?_
  refine holds_next (fun _ => Failed.ended) ?_
  refine .bind (holds_all (fun _ _ => rfl) (fun i pair hclosed => holds_file hclosed pair) fileList
    (closed_foldl (fun _ _ => rfl) rfl dirList)) fun ret => ?_
  refine holds_next (fun _ => Failed.ended) (holds_of_sent fun l hl => ?_)
  have horderly : Orderly (delivered m_sWorkPath d l).2 .finishCmd := trivial
  refine (holds_ack horderly fun a h herror => ?_).mono (fun _ => id) fun code s h => ?_
  · cases a with
    | error e => exact absurd rfl (herror e)
    | _ => exact h
  · unfold Ended at h ⊢
    split
    · rename_i hcode
      exact ⟨l, hl, (if_pos hcode).mp h⟩
    · rename_i hcode
      exact (if_neg hcode).mp h

/-- Once the end is acknowledged, everything has been handled, and nothing was refused. -/
theorem Acked.delivered (h : Acked m_sWorkPath d l .finishCmd s) :
    d.run s.touched = (delivered m_sWorkPath d l).1 ∧ ∀ k e, (k, .error e) ∉ s.answers := by
  obtain ⟨a, herror, ⟨inv, hsent⟩, hanswer⟩ := h
  have hlast : l.length + 1 = s.handled := by
    have hlt : l.length < s.handled := (inv.suits _ hanswer).1
    have hle := inv.bound
    rw [hsent, List.length_append, List.length_singleton] at hle
    omega
  have hall : s.sent.take s.handled = l ++ [.finishCmd] := by
    rw [← hlast, hsent, List.take_of_length_le (by simp)]
  have hpassed := inv.passed _ a hanswer herror hlast
  rw [hall, delivered_snoc] at hpassed
  exact hpassed

/-- A folder, and a file of one byte. -/
def dirSample : QFileInfo × Path := (⟨"/vm/d", 0, 0x700⟩, "d")

def fileSample : QFileInfo × Path := (⟨"/vm/a", 1, 0x600⟩, "a")

/-- If the copy fails, the source is disturbed or told of an error, and gives the code of the error
unless it is the answer to the first request. An error makes it fail, and comes only from the disk
of the target or from above. -/
theorem failed_of_error {getPlatform m_nTotalSize : Int}
    {dirList fileList : List (QFileInfo × Path)}
    (h : Returns (line m_sWorkPath m_bOverwriteMode) {}
      (Copy bytes getPlatform m_nTotalSize dirList fileList) code s) :
    (code ≠ .success → Excused code s) ∧
      ∀ k e, (k, .error e) ∈ s.answers → code ≠ .success ∧ s.hindered = true := by
  have hended := holds_copy (d := ⟨[], fun _ => none⟩) getPlatform m_nTotalSize dirList fileList {} _ s
    rfl h
  unfold Ended at hended
  split at hended
  · rename_i hcode
    obtain ⟨l, -, hacked⟩ := hended
    exact ⟨fun hno => absurd hcode hno, fun k e hx => absurd hx (hacked.delivered.2 k e)⟩
  · rename_i hcode
    obtain ⟨inv, -, hexcused⟩ := hended
    exact ⟨fun _ => hexcused, fun k e hx => ⟨hcode, inv.hindered (inv.errors k e hx).2⟩⟩

/-- The folder cannot be made. -/
theorem returns_failure : ∃ s, Returns (line "/home/" false) {}
    (Copy (fun _ => [7]) 0 1 [dirSample] [fileSample]) .filecopyCantCreateDir s := by
  refine Returns.exists_ask (.canceled _) (Returns.exists_ask (.error _)
    (Returns.exists_ask (.sent _ _) (Returns.exists_change (.handle {} rfl)
      (Returns.exists_ask (.response (.head _)) ?_))))
  refine Returns.exists_ask (.canceled _) ?_
  refine Returns.exists_ask (.canceled _) (Returns.exists_ask (.error _)
    (Returns.exists_ask (.sent _ _) (Returns.exists_change (.handle { mkpath := false } rfl)
      (Returns.exists_ask (.response (.tail _ (.head _))) ?_))))
  exact ⟨_, .ret _ _⟩

theorem failed_of_error_sample : ∃ s, Returns (line "/home/" false) {}
    (Copy (fun _ => [7]) 0 1 [dirSample] [fileSample]) .filecopyCantCreateDir s ∧
      Excused .filecopyCantCreateDir s := by
  obtain ⟨s, hs⟩ := returns_failure
  exact ⟨s, hs, (failed_of_error hs).1 (by decide)⟩

end Copy

end Calls

end DispService.FileCopy
