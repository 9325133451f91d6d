import DispService.FileCopy.Target
import DispService.Lib.Dialog

/-! The source of a copy of files. Folders, files and the end are announced by requests that are
answered; what is in a file follows its request unanswered, so that an error of the target comes
as the answer to a later request, or as a notification. -/
namespace DispService.FileCopy

open Lib

/-- What the source knows of a folder or file. -/
structure QFileInfo where
  absoluteFilePath : Path
  size : Int
  permissions : Nat

/-- What `sscanf` makes of what `snprintf` has written. -/
def Field.print {α : Type} [ToString α] (a : α) : Field α := ⟨toString a, some a⟩

def REQ_FCHUNK_FL_DATA : UInt64 := 0

def MIGRATION_PROTO_VER : Int := 1

/-- The size of the buffer of a `CVmFileListCopyFile`. -/
def m_nBufSize : Nat := 1024 * 1024

/-- What is read of a file. As long as something is left, something is read. -/
structure Buffer (rest : List Byte) where
  size : Nat
  bound : size ≤ m_nBufSize
  within : size ≤ rest.length
  progress : rest ≠ [] → 0 < size

/-- What the source asks its surroundings. -/
inductive Ask where
  | m_bIsOperationWasCanceled
  | m_sErrorString
  /-- The package is sent, and this is waited for. -/
  | sendPackage (p : Package)
  /-- The response is waited for, and taken. -/
  | takeResponse (job : Nat)
  | open_ (path : Path)
  | getBuffer (rest : List Byte)

def Reply : Ask → Type
  | .m_bIsOperationWasCanceled => Bool
  | .m_sErrorString => Option CVmEvent
  | .sendPackage _ => Option Nat
  | .takeResponse _ => Option Answer
  | .open_ _ => Bool
  | .getBuffer rest => Option (Buffer rest)

abbrev Source (α : Type) := Dialog Ask Reply α

def m_bIsOperationWasCanceled : Source Bool := Dialog.query Ask.m_bIsOperationWasCanceled

def m_sErrorString : Source (Option CVmEvent) := Dialog.query Ask.m_sErrorString

def sendPackage (p : Package) : Source (Option Nat) := Dialog.query (Ask.sendPackage p)

def takeResponse (job : Nat) : Source (Option Answer) := Dialog.query (Ask.takeResponse job)

def open_ (path : Path) : Source Bool := Dialog.query (Ask.open_ path)

def getBuffer (rest : List Byte) : Source (Option (Buffer rest)) := Dialog.query (Ask.getBuffer rest)

section Source

-- What is in the files of the source, and what is said of the whole.
variable (bytes : Path → List Byte) (getPlatform m_nTotalSize : Int)

def processTargetError (e : CVmEvent) : Code := e.eventCode

def SendReqAndWaitReply (package : Package) : Source (Except Code Answer) := do
  if ← m_bIsOperationWasCanceled then return .error .operationWasCanceled
  else match ← m_sErrorString with
  | some e => return .error (processTargetError e)
  | none => match ← sendPackage package with
    | none => return .error .operationFailed
    | some job => match ← takeResponse job with
      | none => return .error .operationFailed
      | some ack => return .ok ack

def SendReqWithAck (p : Package) : Source Code := do
  match ← SendReqAndWaitReply p with
  | .error nRetCode => return nRetCode
  | .ok (.error e) => return processTargetError e
  | .ok .reply => return .success
  | .ok _ => return .operationFailed

/-- The error is looked for in the request, where it is not. -/
def SendFirstRequest : Source Code := do
  match ← SendReqAndWaitReply (.firstRequest (.print MIGRATION_PROTO_VER) (.print getPlatform)
    (.print m_nTotalSize)) with
  | .error ret => return ret
  | .ok .firstReply => return .success
  | .ok _ => return .operationFailed

def SendDirRequest (dPair : QFileInfo × Path) : Source Code :=
  SendReqWithAck (.dirCmd dPair.2 (.print dPair.1.permissions))

/-- The loop of `SendFileBody`. -/
def sendChunks (rest : List Byte) : Source Code := do
  if ← m_bIsOperationWasCanceled then return .operationWasCanceled
  else match ← m_sErrorString with
  | some e => return processTargetError e
  | none => match ← getBuffer rest with
    | none => return .fileReadError
    | some buffer =>
      let flags :=
        if rest.length ≤ buffer.size then REQ_FCHUNK_FL_DATA ||| REQ_FCHUNK_FL_LAST
        else REQ_FCHUNK_FL_DATA
      match ← sendPackage (.fileChunkCmd (.print flags) (rest.take buffer.size)) with
      | none => return .operationFailed
      | some _ =>
        if atEnd : rest.length ≤ buffer.size then return .success
        else sendChunks (rest.drop buffer.size)
termination_by rest.length
decreasing_by
  have hlength : 0 < rest.length := Nat.zero_lt_of_lt (Nat.lt_of_not_le atEnd)
  have hsize := buffer.progress (List.length_pos_iff.mp hlength)
  rw [List.length_drop]
  omega

def SendFileBody (path : Path) : Source Code := do
  if ← open_ path then sendChunks (bytes path)
  else return .failure

def SendFileRequest (fPair : QFileInfo × Path) : Source Code := do
  let ret ← SendReqWithAck (.fileCmd fPair.2 (.print fPair.1.size) (.print fPair.1.permissions))
  if ret.failed then return ret
  else SendFileBody bytes fPair.1.absoluteFilePath

def SendFinishRequest : Source Code := SendReqWithAck .finishCmd

/-- A loop of `Copy`: each request is followed by a look at the flag. -/
def copyAll (request : QFileInfo × Path → Source Code) : List (QFileInfo × Path) → Source Code
  | [] => return .success
  | pair :: pairs => do
      let ret ← request pair
      if ret.failed then return ret
      else if ← m_bIsOperationWasCanceled then return .operationWasCanceled
      else copyAll request pairs

def Copy (dirList fileList : List (QFileInfo × Path)) : Source Code := do
  let ret ← SendFirstRequest getPlatform m_nTotalSize
  if ret.failed then return ret
  else if ← m_bIsOperationWasCanceled then return .operationWasCanceled
  else
    let ret ← copyAll SendDirRequest dirList
    if ret.failed then return ret
    else
      let ret ← copyAll (SendFileRequest bytes) fileList
      if ret.failed then return ret
      else SendFinishRequest

end Source

/-- What is between the two ends, and the target. -/
structure Line where
  /-- The packages, in the order in which they are sent and delivered. -/
  sent : List Package := []
  handled : Nat := 0
  /-- What is answered, with the number of the package. -/
  answers : List (Nat × Answer) := []
  m_sErrorString : Option CVmEvent := none
  m_bIsOperationWasCanceled : Bool := false
  target : CVmFileListCopyTarget := {}
  /-- What the target does on disk. -/
  touched : List (DiskCall × Bool) := []
  /-- The copy is canceled, or the source cannot read, send or hear. -/
  disturbed : Bool := false
  /-- A call on disk fails, or a file is there, or an error is set from above. -/
  hindered : Bool := false

section Line

variable (m_sWorkPath : Path) (m_bOverwriteMode : Bool)

def Outcomes.fine (o : Outcomes) : Bool :=
  o.mkpath && (m_bOverwriteMode || !o.exists_) && o.openFile && o.write

/-- The target handles the next package. -/
def Line.handle (o : Outcomes) (s : Line) : Option Line :=
  match s.sent[s.handled]? with
  | none => none
  | some p => (s.target.handlePackage m_sWorkPath m_bOverwriteMode p o).map fun h =>
      { s with
        handled := s.handled + 1
        answers := s.answers ++ h.sent.map fun a => (s.handled, a)
        target := h.target
        touched := s.touched ++ h.touched
        hindered := s.hindered || !o.fine m_bOverwriteMode }

/-- What happens on its own. -/
inductive Change : Line → Line → Prop where
  | handle {s t : Line} (o : Outcomes) (h : s.handle m_sWorkPath m_bOverwriteMode o = some t) :
      Change s t
  | notify {s : Line} {k : Nat} {e : CVmEvent} (h : (k, .error e) ∈ s.answers) :
      Change s { s with m_sErrorString := some e }
  | cancelSource (s : Line) :
      Change s { s with m_bIsOperationWasCanceled := true, disturbed := true }
  | cancelTarget (s : Line) : Change s { s with target := s.target.cancelOperation }
  | setError (s : Line) {e : CVmEvent} (h : e.eventCode.failed = true) :
      Change s { s with target := { s.target with m_Event := e }, hindered := true }

/-- What a call of the source is told. A package that is not known to be sent may come through. -/
inductive Told : Line → (c : Ask) → Reply c → Line → Prop where
  | canceled (s : Line) : Told s .m_bIsOperationWasCanceled s.m_bIsOperationWasCanceled s
  | error (s : Line) : Told s .m_sErrorString s.m_sErrorString s
  | sent (s : Line) (p : Package) :
      Told s (.sendPackage p) (some s.sent.length) { s with sent := s.sent ++ [p] }
  | unsent (s : Line) (p : Package) : Told s (.sendPackage p) none { s with disturbed := true }
  | unknown (s : Line) (p : Package) :
      Told s (.sendPackage p) none { s with sent := s.sent ++ [p], disturbed := true }
  | response {s : Line} {job : Nat} {a : Answer} (h : (job, a) ∈ s.answers) :
      Told s (.takeResponse job) (some a) s
  | unheard (s : Line) (job : Nat) : Told s (.takeResponse job) none { s with disturbed := true }
  | opened (s : Line) (path : Path) : Told s (.open_ path) true s
  | unopened (s : Line) (path : Path) : Told s (.open_ path) false { s with disturbed := true }
  | buffer (s : Line) {rest : List Byte} (b : Buffer rest) : Told s (.getBuffer rest) (some b) s
  | unread (s : Line) (rest : List Byte) :
      Told s (.getBuffer rest) none { s with disturbed := true }

def line : Surroundings Line Ask Reply := ⟨Change m_sWorkPath m_bOverwriteMode, Told⟩

end Line

end DispService.FileCopy
