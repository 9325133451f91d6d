import DispService.Lib.Run

/-! The target of a copy of files: what it does with the packages of its peer, in whatever order
they come. -/
namespace DispService.FileCopy

abbrev Path := String

abbrev Byte := UInt8

inductive Code where
  | success
  | filecopyProtocol
  | filecopyCantCreateDir
  | filecopyFileExist
  | filecopyCantOpenFile
  | filecopyCantWrite
  | filecopyInternal
  | operationWasCanceled
  | operationFailed
  | failure
  | fileReadError
deriving DecidableEq

/-- `PRL_FAILED` -/
def Code.failed (c : Code) : Bool := c ≠ .success

structure CVmEvent where
  eventCode : Code := .success
  parameters : List String := []
deriving DecidableEq

/-- `EVENT_ERR_FILECOPY_PROTOCOL` -/
def CVmEvent.protocol (e : CVmEvent) (msg : String) (field : Nat) (value : String) : CVmEvent :=
  ⟨.filecopyProtocol, e.parameters ++ [msg, toString field, value]⟩

def CVmEvent.set (e : CVmEvent) (code : Code) (params : List String) : CVmEvent :=
  ⟨code, e.parameters ++ params⟩

/-- The text of a buffer, and what `sscanf` makes of it. -/
structure Field (α : Type) where
  text : String
  parsed : Option α

/-- A package of the range, or one that is not for the copy. -/
inductive Package where
  | stranger
  | other
  | firstRequest (version platform size : Field Int)
  | dirCmd (path : Path) (perms : Field Nat)
  | fileCmd (path : Path) (size : Field Int) (perms : Field Nat)
  | fileChunkCmd (flags : Field UInt64) (data : List Byte)
  | finishCmd
  | cancelCmd

def Package.outOfRange : Package → Bool
  | .stranger => true
  | _ => false

/-- What is done on disk. -/
inductive DiskCall where
  | mkpath (path : Path)
  | setPermissions (path : Path) (perms : Nat)
  | openFile (path : Path)
  | write (path : Path) (data : List Byte)
deriving DecidableEq

/-- How the calls of one package end. -/
structure Outcomes where
  mkpath : Bool := true
  setPermissions : Bool := true
  exists_ : Bool := false
  openFile : Bool := true
  write : Bool := true
  /-- The acknowledgement is sent. -/
  send : Bool := true

/-- What is sent back. -/
inductive Answer where
  | firstReply
  | reply
  | error (event : CVmEvent)
  | response
deriving DecidableEq

structure QFile where
  fileName : Path
  isOpen : Bool
deriving DecidableEq

structure CVmFileListCopyTarget where
  m_Event : CVmEvent := {}
  m_bIsOperationWasCanceled : Bool := false
  file : Option QFile := none
  m_nCurrentSize : UInt64 := 0
deriving DecidableEq

/-- What comes of a package. A flag that is not touched is none. -/
structure Handled where
  target : CVmFileListCopyTarget
  touched : List (DiskCall × Bool) := []
  sent : List Answer := []
  result : Code
  bFinish : Option Bool := none

/-- What is done on disk before the rest. -/
def Handled.after (h : Handled) (touched : List (DiskCall × Bool)) : Handled :=
  { h with touched := touched ++ h.touched }

def REQ_FCHUNK_FL_LAST : UInt64 := 1

section Target

-- The folder of the copy, and whether files that are there are overwritten.
variable (m_sWorkPath : Path) (m_bOverwriteMode : Bool)

/-- `QFileInfo(path).isRelative()` -/
def isRelative (path : Path) : Bool := path.toList.head? ≠ some '/'

def placed (path : Path) : Path := if isRelative path then m_sWorkPath ++ path else path

namespace CVmFileListCopyTarget

/-- The error is recorded and sent. -/
def SendError (t : CVmFileListCopyTarget) (e : CVmEvent) : Handled :=
  { target := { t with m_Event := e }, sent := [.error e], result := e.eventCode }

def SendAck (t : CVmFileListCopyTarget) (o : Outcomes) : Handled :=
  if o.send then { target := t, sent := [.reply], result := .success }
  else { target := t, result := .operationFailed }

def cancelOperation (t : CVmFileListCopyTarget) : CVmFileListCopyTarget :=
  { t with
    file := t.file.map fun f => { f with isOpen := false }
    m_bIsOperationWasCanceled := true }

def RecvFirstRequest (t : CVmFileListCopyTarget) (version platform size : Field Int) : Handled :=
  match version.parsed, platform.parsed, size.parsed with
  | none, _, _ => t.SendError (t.m_Event.protocol "FileCopyFirstRequest" 0 version.text)
  | some _, none, _ => t.SendError (t.m_Event.protocol "FileCopyFirstRequest" 1 platform.text)
  | some _, some _, none => t.SendError (t.m_Event.protocol "FileCopyFirstRequest" 2 size.text)
  | some _, some _, some _ => { target := t, sent := [.firstReply], result := .success }

def RecvDirRequest (t : CVmFileListCopyTarget) (o : Outcomes) (path : Path) (perms : Field Nat) :
    Handled :=
  let path := placed m_sWorkPath path
  match perms.parsed with
  | none => t.SendError (t.m_Event.protocol "FileCopyDirRequest" 3 perms.text)
  | some n =>
      if o.mkpath then
        (SendAck { t with file := some ⟨path ++ "/.", false⟩ } o).after
          [(.mkpath path, true), (.setPermissions (path ++ "/.") n, o.setPermissions)]
      else (t.SendError (t.m_Event.set .filecopyCantCreateDir [path])).after [(.mkpath path, false)]

def RecvFileRequest (t : CVmFileListCopyTarget) (o : Outcomes) (path : Path) (size : Field Int)
    (perms : Field Nat) : Handled :=
  let path := placed m_sWorkPath path
  match size.parsed, perms.parsed with
  | none, _ => t.SendError (t.m_Event.protocol "FileCopyFileRequest" 1 size.text)
  | some _, none => t.SendError (t.m_Event.protocol "FileCopyFileRequest" 4 perms.text)
  | some _, some n =>
      if t.file.any QFile.isOpen then
        t.SendError (t.m_Event.set .filecopyInternal
          ["New file header received, but old file is still transferring"])
      else
        let t := { t with file := some ⟨path, false⟩ }
        if !m_bOverwriteMode && o.exists_ then
          t.SendError (t.m_Event.set .filecopyFileExist [path])
        else if o.openFile then
          (SendAck { t with file := some ⟨path, true⟩ } o).after
            [(.openFile path, true), (.setPermissions path n, o.setPermissions)]
        else
          (t.SendError (t.m_Event.set .filecopyCantOpenFile [path])).after [(.openFile path, false)]

/-- Without a file object there is nothing to ask. -/
def RecvFileChunk (t : CVmFileListCopyTarget) (o : Outcomes) (flags : Field UInt64)
    (data : List Byte) : Option Handled :=
  match t.file with
  | none => none
  | some f => some <|
      if f.isOpen then
        match flags.parsed with
        | none => t.SendError (t.m_Event.protocol "FileCopyFileChunk" 0 flags.text)
        | some n =>
            if o.write then
              let open_ := n &&& REQ_FCHUNK_FL_LAST = 0
              { target := { t with
                  file := some { f with isOpen := open_ }
                  m_nCurrentSize := t.m_nCurrentSize + UInt64.ofNat data.length }
                touched := [(.write f.fileName data, true)]
                result := .success }
            else
              (SendError { t with file := some { f with isOpen := false } }
                (t.m_Event.set .filecopyCantWrite [])).after [(.write f.fileName data, false)]
      else
        t.SendError (t.m_Event.set .filecopyInternal ["File chunk without file open"])

def RecvFinishRequest (t : CVmFileListCopyTarget) (o : Outcomes) : Handled :=
  if t.m_Event.eventCode.failed then t.SendError t.m_Event else t.SendAck o

def RecvCancelRequest (t : CVmFileListCopyTarget) : Handled :=
  { target := t.cancelOperation, sent := [.response], result := .operationWasCanceled }

/-- The copy ends when a package fails. -/
def finished (h : Handled) : Handled := { h with bFinish := some h.result.failed }

/-- The handlers of the commands. -/
def dispatch (t : CVmFileListCopyTarget) (p : Package) (o : Outcomes) : Option Handled :=
  match p with
  | .stranger | .other => some { target := t, result := .success, bFinish := some false }
  | .firstRequest version platform size =>
      some (finished (t.RecvFirstRequest version platform size))
  | .dirCmd path perms => some (finished (t.RecvDirRequest m_sWorkPath o path perms))
  | .fileCmd path size perms =>
      some (finished (t.RecvFileRequest m_sWorkPath m_bOverwriteMode o path size perms))
  | .fileChunkCmd flags data => (t.RecvFileChunk o flags data).map finished
  | .finishCmd => some { t.RecvFinishRequest o with bFinish := some true }
  | .cancelCmd => some { t.RecvCancelRequest with bFinish := some true }

def handlePackage (t : CVmFileListCopyTarget) (p : Package) (o : Outcomes) : Option Handled :=
  if t.m_bIsOperationWasCanceled then some { target := t, result := .operationWasCanceled }
  else if p.outOfRange then some { target := t, result := .success, bFinish := some false }
  else if t.m_Event.eventCode.failed then
    some { t.SendError t.m_Event with bFinish := some true }
  else t.dispatch m_sWorkPath m_bOverwriteMode p o

end CVmFileListCopyTarget

end Target

end DispService.FileCopy
