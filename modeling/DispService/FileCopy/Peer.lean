import DispService.FileCopy.Target

/-! Runs of the target against any peer: which file a chunk is written to, and what comes after a
package that has failed. -/
namespace DispService.FileCopy

open Lib

/-- What a peer can tell of the packages so far. -/
structure Past where
  /-- The file of the latest file command that succeeded, until its last chunk. -/
  announced : Option Path := none
  /-- The error that the first failed package was answered with. -/
  failed : Option CVmEvent := none
  /-- A cancel command was answered. -/
  canceled : Bool := false
  /-- A folder or file command has come. -/
  commanded : Bool := false

def Answer.event : Answer → Option CVmEvent
  | .error e => some e
  | _ => none

def Package.isCommand : Package → Bool
  | .dirCmd _ _ => true
  | .fileCmd _ _ _ => true
  | _ => false

def Package.isChunk : Package → Bool
  | .fileChunkCmd _ _ => true
  | _ => false

section Runs

variable (m_sWorkPath : Path) (m_bOverwriteMode : Bool)

def announce (announced : Option Path) (p : Package) (h : Handled) : Option Path :=
  if h.result.failed then announced
  else
    match p with
    | .fileCmd path _ _ => some (placed m_sWorkPath path)
    | .fileChunkCmd flags _ =>
        if flags.parsed.any fun n => n &&& REQ_FCHUNK_FL_LAST ≠ 0 then none else announced
    | _ => announced

def Past.next (past : Past) (p : Package) (h : Handled) : Past where
  announced := announce m_sWorkPath past.announced p h
  failed := past.failed.or (if h.result.failed then h.sent.findSome? Answer.event else none)
  canceled := past.canceled || h.sent.contains .response
  commanded := past.commanded || p.isCommand

abbrev State := CVmFileListCopyTarget × Past

def handle (s : State) (l : Package × Outcomes) : Option Handled :=
  s.1.handlePackage m_sWorkPath m_bOverwriteMode l.1 l.2

def next (s : State) (l : Package × Outcomes) : State :=
  match handle m_sWorkPath m_bOverwriteMode s l with
  | none => s
  | some h => (h.target, s.2.next m_sWorkPath l.1 h)

/-- A chunk comes after a folder or file command, and what is acknowledged is told. -/
def Fair (s : State) (l : Package × Outcomes) : Prop :=
  l.2.send = true ∧ (l.1.isChunk = true → s.2.commanded = true)

/-- What a package may do after what has come before. -/
structure Proper (past : Past) (p : Package) (h : Handled) : Prop where
  /-- A chunk is written to the file that was announced. -/
  chunk : ∀ flags data, p = .fileChunkCmd flags data → ∀ x ∈ h.touched,
    ∃ path, past.announced = some path ∧ x.1 = .write path data
  /-- After an error nothing is changed, and the error is told again. -/
  failed : ∀ e, past.failed = some e → h.touched = [] ∧
    (p.outOfRange = false → h.sent = [.error e] ∧ h.result = e.eventCode ∧ h.bFinish = some true)
  /-- After a cancel command nothing is done. -/
  canceled : past.canceled = true → h.touched = [] ∧ h.sent = [] ∧
    h.result = .operationWasCanceled ∧ h.bFinish = none

/-- There is a file to ask, and the package does what it may. -/
def Behaves (s : State) (l : Package × Outcomes) : Prop :=
  ∃ h, handle m_sWorkPath m_bOverwriteMode s l = some h ∧ Proper s.2 l.1 h

end Runs

/-- What the target knows of the packages so far. -/
structure Invariant (s : State) : Prop where
  failed : ∀ e, s.2.failed = some e → s.1.m_Event = e ∧ e.eventCode.failed = true ∧
    s.1.m_bIsOperationWasCanceled = false
  clean : s.2.failed = none → s.1.m_Event.eventCode = .success
  canceled : s.2.canceled = s.1.m_bIsOperationWasCanceled
  file : s.2.commanded = true → s.2.failed = none → s.2.canceled = false → s.1.file.isSome = true
  announced : ∀ f, s.1.file = some f → f.isOpen = true → s.2.announced = some f.fileName

section Handlers

variable {m_sWorkPath : Path} {m_bOverwriteMode : Bool} {t : CVmFileListCopyTarget}
  {announced : Option Path} {o : Outcomes}

/-- How a package can end that is not turned away. -/
inductive Verdict (t : CVmFileListCopyTarget) (h : Handled) : Prop where
  | passed (result : h.result = .success) (event : h.target.m_Event = t.m_Event)
      (running : h.target.m_bIsOperationWasCanceled = t.m_bIsOperationWasCanceled)
      (response : .response ∉ h.sent)
  | refused (e : CVmEvent) (code : e.eventCode.failed = true) (sent : h.sent = [.error e])
      (event : h.target.m_Event = e) (result : h.result = e.eventCode)
      (running : h.target.m_bIsOperationWasCanceled = t.m_bIsOperationWasCanceled)
  | stopped (result : h.result = .operationWasCanceled) (event : h.target.m_Event = t.m_Event)
      (canceled : h.target.m_bIsOperationWasCanceled = true) (sent : h.sent = [.response])

/-- What is announced is the file that is open. -/
def Open (t : CVmFileListCopyTarget) (announced : Option Path) : Prop :=
  ∀ f, t.file = some f → f.isOpen = true → announced = some f.fileName

variable (m_sWorkPath announced) in
/-- What a package does that is not turned away. -/
structure Received (t : CVmFileListCopyTarget) (p : Package) (h : Handled) : Prop where
  verdict : Verdict t h
  file : t.file.isSome = true ∨ p.isCommand = true → h.result.failed = false →
    h.target.file.isSome = true
  opened : Open t announced → Open h.target (announce m_sWorkPath announced p h)
  chunk : ∀ flags data, p = .fileChunkCmd flags data → Open t announced → ∀ x ∈ h.touched,
    ∃ path, announced = some path ∧ x.1 = .write path data

/-- A package whose error is recorded and told, after what it did. -/
theorem Received.refusal {p : Package} {t' : CVmFileListCopyTarget} {e : CVmEvent}
    {touched : List (DiskCall × Bool)} (code : e.eventCode.failed = true)
    (running : t'.m_bIsOperationWasCanceled = t.m_bIsOperationWasCanceled)
    (opened : Open t announced → Open t' announced)
    (chunk : ∀ flags data, p = .fileChunkCmd flags data → Open t announced → ∀ x ∈ touched,
      ∃ path, announced = some path ∧ x.1 = .write path data) :
    Received m_sWorkPath announced t p ((t'.SendError e).after touched) where
  verdict := .refused e code rfl rfl rfl running
  file _ hno := absurd (hno.symm.trans code) Bool.false_ne_true
  opened h := by
    have hsame : announce m_sWorkPath announced p ((t'.SendError e).after touched) = announced :=
      if_pos code
    rw [hsame]
    exact opened h
  chunk flags data hp h x hx := by
    have htouched : ((t'.SendError e).after touched).touched = touched := List.append_nil _
    rw [htouched] at hx
    exact chunk flags data hp h x hx

/-- A package that is refused before it does anything. -/
theorem Received.refused {p : Package} {t' : CVmFileListCopyTarget} {e : CVmEvent}
    (code : e.eventCode.failed = true)
    (running : t'.m_bIsOperationWasCanceled = t.m_bIsOperationWasCanceled)
    (opened : Open t announced → Open t' announced) :
    Received m_sWorkPath announced t p (t'.SendError e) :=
  have h : Received m_sWorkPath announced t p ((t'.SendError e).after []) :=
    .refusal code running opened fun _ _ _ _ x hx => absurd hx List.not_mem_nil
  h

/-- A command that is acknowledged leaves a file object. -/
theorem Received.acknowledged {p : Package} {f : QFile} (send : o.send = true)
    {touched : List (DiskCall × Bool)}
    (opened : f.isOpen = true → ∀ h : Handled, h.result = .success →
      announce m_sWorkPath announced p h = some f.fileName)
    (command : p.isChunk = false) :
    Received m_sWorkPath announced t p
      ((CVmFileListCopyTarget.SendAck { t with file := some f } o).after touched) := by
  rw [CVmFileListCopyTarget.SendAck, if_pos send]
  refine ⟨.passed rfl rfl rfl (by simp [Handled.after]), fun _ _ => rfl, fun _ g hg hopen => ?_, ?_⟩
  · cases hg
    exact opened hopen _ rfl
  · rintro flags data rfl
    cases command

theorem received_first (version platform size : Field Int) :
    Received m_sWorkPath announced t (.firstRequest version platform size)
      (t.RecvFirstRequest version platform size) := by
  unfold CVmFileListCopyTarget.RecvFirstRequest
  split
  · exact .refused rfl rfl id
  · exact .refused rfl rfl id
  · exact .refused rfl rfl id
  · exact ⟨.passed rfl rfl rfl (by simp), fun h _ => h.resolve_right nofun, id, nofun⟩

theorem received_dir (send : o.send = true) (path : Path) (perms : Field Nat) :
    Received m_sWorkPath announced t (.dirCmd path perms)
      (t.RecvDirRequest m_sWorkPath o path perms) := by
  unfold CVmFileListCopyTarget.RecvDirRequest
  dsimp only
  split
  · exact .refused rfl rfl id
  · split
    · exact .acknowledged send nofun rfl
    · exact .refusal rfl rfl id nofun

theorem received_file (send : o.send = true) (path : Path) (size : Field Int)
    (perms : Field Nat) :
    Received m_sWorkPath announced t (.fileCmd path size perms)
      (t.RecvFileRequest m_sWorkPath m_bOverwriteMode o path size perms) := by
  unfold CVmFileListCopyTarget.RecvFileRequest
  dsimp only
  split
  · exact .refused rfl rfl id
  · exact .refused rfl rfl id
  · split
    · exact .refused rfl rfl id
    · -- the new file is not open yet
      have hclosed : Open t announced →
          Open { t with file := some ⟨placed m_sWorkPath path, false⟩ } announced := by
        intro _ f hf hopen
        cases hf
        cases hopen
      split
      · exact .refused rfl rfl hclosed
      · split
        · refine .acknowledged send (fun _ h hresult => ?_) rfl
          rw [announce, hresult]
          rfl
        · exact .refusal rfl rfl hclosed nofun

theorem received_chunk {f : QFile} (hf : t.file = some f) (flags : Field UInt64)
    (data : List Byte) :
    ∃ h, t.RecvFileChunk o flags data = some h ∧
      Received m_sWorkPath announced t (.fileChunkCmd flags data) h := by
  unfold CVmFileListCopyTarget.RecvFileChunk
  rw [hf]
  refine ⟨_, rfl, ?_⟩
  have hwrites : f.isOpen = true → ∀ (flags' : Field UInt64) (data' : List Byte),
      Package.fileChunkCmd flags data = .fileChunkCmd flags' data' → Open t announced →
        ∀ done : Bool, ∀ x ∈ [(DiskCall.write f.fileName data, done)],
          ∃ path, announced = some path ∧ x.1 = .write path data' := by
    intro hopen flags' data' heq hannounced done x hx
    cases heq
    rw [List.mem_singleton.mp hx]
    exact ⟨f.fileName, hannounced f hf hopen, rfl⟩
  split
  · next hopen =>
    split
    · exact .refused rfl rfl id
    · next n hn =>
      split
      · refine ⟨.passed rfl rfl rfl (by simp), fun _ _ => rfl, fun h g hg hopen' => ?_,
          fun flags' data' heq h x hx => hwrites hopen flags' data' heq h true x hx⟩
        cases hg
        have hmore : n &&& REQ_FCHUNK_FL_LAST = 0 := of_decide_eq_true hopen'
        change (if flags.parsed.any fun n => n &&& REQ_FCHUNK_FL_LAST ≠ 0 then none else announced) = _
        rw [hn, Option.any_some, if_neg (by simp [hmore])]
        exact h f hf hopen
      · refine .refusal rfl rfl (fun _ g hg hopen' => ?_)
          fun flags' data' heq h x hx => hwrites hopen flags' data' heq h false x hx
        cases hg
        cases hopen'
  · exact .refused rfl rfl id

/-- Only the flag is set after that. -/
theorem Received.flagged {p : Package} {h : Handled} (received : Received m_sWorkPath announced t p h)
    (b : Option Bool) : Received m_sWorkPath announced t p { h with bFinish := b } where
  verdict := by
    cases received.verdict with
    | passed result event running response => exact .passed result event running response
    | refused e code sent event result running => exact .refused e code sent event result running
    | stopped result event canceled sent => exact .stopped result event canceled sent
  file := received.file
  opened := received.opened
  chunk := received.chunk

theorem received_finish (send : o.send = true) (clean : t.m_Event.eventCode = .success) :
    Received m_sWorkPath announced t .finishCmd (t.RecvFinishRequest o) := by
  have hclean : t.m_Event.eventCode.failed = false := by rw [clean]; rfl
  rw [CVmFileListCopyTarget.RecvFinishRequest, hclean, if_neg Bool.false_ne_true,
    CVmFileListCopyTarget.SendAck, if_pos send]
  exact ⟨.passed rfl rfl rfl (by simp), fun h _ => h.resolve_right nofun, id, nofun⟩

theorem received_cancel : Received m_sWorkPath announced t .cancelCmd t.RecvCancelRequest := by
  refine ⟨.stopped rfl rfl rfl rfl, fun _ hno => (Bool.false_ne_true hno.symm).elim, fun _ f hf hopen => ?_, nofun⟩
  obtain ⟨g, -, rfl⟩ := Option.map_eq_some_iff.mp hf
  cases hopen

/-- A package that is passed over. -/
theorem received_idle {p : Package} (command : p.isCommand = false) (chunk : p.isChunk = false) :
    Received m_sWorkPath announced t p
      { target := t, result := .success, bFinish := some false } := by
  refine ⟨.passed rfl rfl rfl List.not_mem_nil, fun h _ => h.resolve_right ?_, fun h => ?_, ?_⟩
  · rw [command]
    exact Bool.false_ne_true
  · cases p with
    | fileCmd path size perms => cases command
    | fileChunkCmd flags data => cases chunk
    | _ => exact h
  · rintro flags data rfl
    cases chunk

/-- A package that comes before any error or cancel command. -/
theorem received_of_clean {p : Package} (send : o.send = true) (clean : t.m_Event.eventCode = .success)
    (running : t.m_bIsOperationWasCanceled = false)
    (chunk : p.isChunk = true → t.file.isSome = true) :
    ∃ h, t.handlePackage m_sWorkPath m_bOverwriteMode p o = some h ∧
      Received m_sWorkPath announced t p h := by
  have hclean : t.m_Event.eventCode.failed = false := by rw [clean]; rfl
  rw [CVmFileListCopyTarget.handlePackage, running, if_neg Bool.false_ne_true, hclean,
    if_neg Bool.false_ne_true]
  cases p with
  | stranger => exact ⟨_, rfl, received_idle rfl rfl⟩
  | other => exact ⟨_, rfl, received_idle rfl rfl⟩
  | firstRequest version platform size =>
    exact ⟨_, rfl, (received_first version platform size).flagged _⟩
  | dirCmd path perms => exact ⟨_, rfl, (received_dir send path perms).flagged _⟩
  | fileCmd path size perms => exact ⟨_, rfl, (received_file send path size perms).flagged _⟩
  | fileChunkCmd flags data =>
    obtain ⟨f, hf⟩ := Option.isSome_iff_exists.mp (chunk rfl)
    obtain ⟨h, hh, hreceived⟩ := received_chunk hf flags data
    exact ⟨_, congrArg (Option.map CVmFileListCopyTarget.finished) hh, hreceived.flagged _⟩
  | finishCmd => exact ⟨_, rfl, (received_finish send clean).flagged _⟩
  | cancelCmd => exact ⟨_, rfl, received_cancel.flagged _⟩

end Handlers

section Keep

variable {m_sWorkPath : Path} {m_bOverwriteMode : Bool} {s : State} {l : Package × Outcomes}

/-- After a cancel command everything is turned away. -/
theorem handle_canceled (canceled : s.1.m_bIsOperationWasCanceled = true) :
    handle m_sWorkPath m_bOverwriteMode s l =
      some { target := s.1, result := .operationWasCanceled } := by
  rw [handle, CVmFileListCopyTarget.handlePackage, if_pos canceled]

/-- After an error it is told again. -/
theorem handle_failed (running : s.1.m_bIsOperationWasCanceled = false)
    (failed : s.1.m_Event.eventCode.failed = true) :
    handle m_sWorkPath m_bOverwriteMode s l =
      if l.1.outOfRange then some { target := s.1, result := .success, bFinish := some false }
      else some { s.1.SendError s.1.m_Event with bFinish := some true } := by
  rw [handle, CVmFileListCopyTarget.handlePackage, running, if_neg Bool.false_ne_true, failed,
    if_pos rfl]

theorem next_eq {h : Handled} (hh : handle m_sWorkPath m_bOverwriteMode s l = some h) :
    next m_sWorkPath m_bOverwriteMode s l = (h.target, s.2.next m_sWorkPath l.1 h) := by
  rw [next, hh]

theorem Invariant.start : Invariant ({}, {}) where
  failed := nofun
  clean _ := rfl
  canceled := rfl
  file := nofun
  announced := nofun

/-- A package of which nothing is told but perhaps an error that was told before. -/
theorem Invariant.again (h : Invariant s) {g : Handled} (target : g.target = s.1)
    (failed : (if g.result.failed then g.sent.findSome? Answer.event else none) = none ∨
      s.2.failed.isSome = true)
    (response : .response ∉ g.sent) (settled : s.2.failed.isSome = true ∨ s.2.canceled = true)
    (announced : announce m_sWorkPath s.2.announced l.1 g = s.2.announced) :
    Invariant (g.target, s.2.next m_sWorkPath l.1 g) := by
  have hfailed : (s.2.next m_sWorkPath l.1 g).failed = s.2.failed := by
    rw [Past.next]
    rcases failed with hnone | hsome
    · rw [hnone, Option.or_none]
    · obtain ⟨e, he⟩ := Option.isSome_iff_exists.mp hsome
      rw [he, Option.some_or]
  have hcanceled : (s.2.next m_sWorkPath l.1 g).canceled = s.2.canceled := by
    simp [Past.next, response]
  rw [target]
  refine ⟨fun e he => h.failed e (hfailed ▸ he), fun hnone => h.clean (hfailed ▸ hnone),
    hcanceled.trans h.canceled, fun _ hnone hrunning => ?_, fun f hf hopen => ?_⟩
  · rw [hfailed] at hnone
    rw [hcanceled] at hrunning
    rcases settled with hsome | hsome
    · rw [hnone] at hsome
      cases hsome
    · exact absurd (hrunning.symm.trans hsome) Bool.false_ne_true
  · exact announced.trans (h.announced f hf hopen)

theorem Invariant.received (h : Invariant s) {g : Handled} (clean : s.2.failed = none)
    (running : s.2.canceled = false)
    (received : Received m_sWorkPath s.2.announced s.1 l.1 g) :
    Invariant (g.target, s.2.next m_sWorkPath l.1 g) := by
  have hopen : Open g.target (s.2.next m_sWorkPath l.1 g).announced :=
    received.opened h.announced
  have hsame : s.1.m_bIsOperationWasCanceled = false := h.canceled.symm.trans running
  cases received.verdict with
  | passed result event hrunning response =>
    have hfailed : (s.2.next m_sWorkPath l.1 g).failed = none := by
      rw [Past.next, clean, result]
      rfl
    have hcanceled : (s.2.next m_sWorkPath l.1 g).canceled = false := by
      simp [Past.next, running, response]
    refine ⟨fun e he => ?_, fun _ => ?_, ?_, fun hcommanded _ _ => ?_, hopen⟩
    · rw [hfailed] at he
      cases he
    · rw [event]
      exact h.clean clean
    · rw [hcanceled, hrunning, hsame]
    · refine received.file ?_ (by rw [result]; rfl)
      rcases Bool.or_eq_true _ _ ▸ hcommanded with hold | hnew
      · exact .inl (h.file hold clean running)
      · exact .inr hnew
  | refused e code sent event result hrunning =>
    have hfailed : (s.2.next m_sWorkPath l.1 g).failed = some e := by
      rw [Past.next, clean, result, code, sent]
      rfl
    have hcanceled : (s.2.next m_sWorkPath l.1 g).canceled = false := by
      simp [Past.next, running, sent]
    refine ⟨fun e' he => ?_, fun hno => ?_, ?_, fun _ hno => ?_, hopen⟩
    · rw [hfailed] at he
      cases he
      exact ⟨event, code, hrunning.trans hsame⟩
    · rw [hfailed] at hno
      cases hno
    · rw [hcanceled, hrunning, hsame]
    · rw [hfailed] at hno
      cases hno
  | stopped result event canceled sent =>
    have hfailed : (s.2.next m_sWorkPath l.1 g).failed = none := by
      rw [Past.next, clean, sent]
      simp [Answer.event]
    have hcanceled : (s.2.next m_sWorkPath l.1 g).canceled = true := by
      simp [Past.next, sent]
    refine ⟨fun e he => ?_, fun _ => ?_, hcanceled.trans canceled.symm, fun _ _ hno => ?_, hopen⟩
    · rw [hfailed] at he
      cases he
    · rw [event]
      exact h.clean clean
    · exact absurd (hno.symm.trans hcanceled) Bool.false_ne_true

theorem Invariant.step_canceled (h : Invariant s)
    (canceled : s.1.m_bIsOperationWasCanceled = true) :
    Behaves m_sWorkPath m_bOverwriteMode s l ∧
      Invariant (next m_sWorkPath m_bOverwriteMode s l) := by
  have hh : handle m_sWorkPath m_bOverwriteMode s l =
      some { target := s.1, result := .operationWasCanceled } := handle_canceled canceled
  refine ⟨⟨_, hh, fun _ _ _ x hx => absurd hx List.not_mem_nil, fun e he => ?_,
    fun _ => ⟨rfl, rfl, rfl, rfl⟩⟩, ?_⟩
  · exact absurd ((h.failed e he).2.2.symm.trans canceled) Bool.false_ne_true
  · rw [next_eq hh]
    exact h.again rfl (.inl rfl) List.not_mem_nil (.inr (h.canceled.trans canceled)) rfl

theorem Invariant.step_failed (h : Invariant s) {e : CVmEvent} (failed : s.2.failed = some e) :
    Behaves m_sWorkPath m_bOverwriteMode s l ∧
      Invariant (next m_sWorkPath m_bOverwriteMode s l) := by
  obtain ⟨hevent, hcode, hrunning⟩ := h.failed e failed
  have hnot : s.2.canceled ≠ true := by
    rw [h.canceled, hrunning]
    exact Bool.false_ne_true
  have hsome : s.2.failed.isSome = true := by
    rw [failed]
    rfl
  have hh : handle m_sWorkPath m_bOverwriteMode s l =
      if l.1.outOfRange then some { target := s.1, result := .success, bFinish := some false }
      else some { s.1.SendError s.1.m_Event with bFinish := some true } :=
    handle_failed hrunning (hevent ▸ hcode)
  cases hrange : l.1.outOfRange with
  | true =>
    rw [hrange, if_pos rfl] at hh
    refine ⟨⟨_, hh, fun _ _ _ x hx => absurd hx List.not_mem_nil,
      fun _ _ => ⟨rfl, fun hno => ?_⟩, fun hno => absurd hno hnot⟩, ?_⟩
    · exact absurd (hno.symm.trans hrange) Bool.false_ne_true
    · rw [next_eq hh]
      refine h.again rfl (.inr hsome) List.not_mem_nil (.inl hsome) ?_
      cases hp : l.1 <;> rw [hp] at hrange <;> cases hrange
      rfl
  | false =>
    rw [hrange, if_neg Bool.false_ne_true, hevent] at hh
    refine ⟨⟨_, hh, fun _ _ _ x hx => absurd hx List.not_mem_nil, fun e' he => ⟨rfl, fun _ => ?_⟩,
      fun hno => absurd hno hnot⟩, ?_⟩
    · cases failed.symm.trans he
      exact ⟨rfl, rfl, rfl⟩
    · rw [next_eq hh]
      refine h.again ?_ (.inr hsome) ?_ (.inl hsome) ?_
      · rw [← hevent]
        rfl
      · simp [CVmFileListCopyTarget.SendError]
      · exact if_pos hcode

/-- What a fair package does in a state that a run reaches. -/
theorem Invariant.step (h : Invariant s) (fair : Fair s l) :
    Behaves m_sWorkPath m_bOverwriteMode s l ∧
      Invariant (next m_sWorkPath m_bOverwriteMode s l) := by
  cases hcanceled : s.2.canceled with
  | true => exact h.step_canceled (h.canceled.symm.trans hcanceled)
  | false =>
    cases hfailed : s.2.failed with
    | some e => exact h.step_failed hfailed
    | none =>
      have hfile : l.1.isChunk = true → s.1.file.isSome = true := fun hchunk =>
        h.file (fair.2 hchunk) hfailed hcanceled
      obtain ⟨g, hg, hreceived⟩ : ∃ g, handle m_sWorkPath m_bOverwriteMode s l = some g ∧
          Received m_sWorkPath s.2.announced s.1 l.1 g :=
        received_of_clean fair.1 (h.clean hfailed) (h.canceled.symm.trans hcanceled) hfile
      refine ⟨⟨g, hg, ⟨fun flags data hp => hreceived.chunk flags data hp h.announced,
        fun e he => ?_, fun hno => ?_⟩⟩, ?_⟩
      · rw [hfailed] at he
        cases he
      · exact absurd (hcanceled.symm.trans hno) Bool.false_ne_true
      · rw [next_eq hg]
        exact h.received hfailed hcanceled hreceived

/-- Against a peer that commands a folder or file before its chunks, and hears what is
acknowledged, the target always has a file to ask, writes only to the file that was announced, and
after an error or a cancel command changes nothing. -/
theorem behaves (m_sWorkPath : Path) (m_bOverwriteMode : Bool) (ls : List (Package × Outcomes))
    (fair : Steps (next m_sWorkPath m_bOverwriteMode) Fair ({}, {}) ls) :
    Steps (next m_sWorkPath m_bOverwriteMode) (Behaves m_sWorkPath m_bOverwriteMode) ({}, {}) ls :=
  fair.of_invariant (p := Invariant) (fun _ _ h hfair => h.step hfair) .start

end Keep

section Sample

/-- A file in one chunk, a chunk too many, and the end. -/
def sample : List (Package × Outcomes) :=
  [(.fileCmd "a" ⟨"1", some 1⟩ ⟨"600", some 0x600⟩, {}), (.fileChunkCmd ⟨"1", some 1⟩ [7], {}),
    (.fileChunkCmd ⟨"1", some 1⟩ [8], {}), (.finishCmd, {})]

theorem behaves_sample :
    Steps (next "/home/" false) (Behaves "/home/" false) ({}, {}) sample :=
  behaves "/home/" false sample ⟨⟨rfl, nofun⟩, ⟨rfl, fun _ => rfl⟩, ⟨rfl, fun _ => rfl⟩,
    ⟨rfl, nofun⟩, trivial⟩

/-- A cancel command fails, and what comes after it is not answered. -/
theorem not_answered :
    ∃ h h', handle "/home/" false ({}, {}) (.cancelCmd, {}) = some h ∧ h.result.failed = true ∧
      handle "/home/" false (next "/home/" false ({}, {}) (.cancelCmd, {})) (.finishCmd, {}) =
        some h' ∧ Package.finishCmd.outOfRange = false ∧ h'.sent = [] ∧ h'.bFinish = none :=
  ⟨_, _, rfl, rfl, rfl, rfl, rfl, rfl⟩

end Sample

end DispService.FileCopy
