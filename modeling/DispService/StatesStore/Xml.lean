import DispService.Lib.Dom
import DispService.StatesStore.SavedStateStore
import Mathlib.Algebra.Order.Ring.Nat

/-! Writing a snapshot tree to XML and reading it back. -/
namespace DispService.StatesStore

open DispService.Lib

def vmStateValue : SnapshotedVmState → String
  | .running => "poweron"
  | .paused => "pause"
  | .suspended => "suspend"
  | .poweredOff => "poweroff"

def runtimeElement (runtime : Runtime) : Dom :=
  .element "Runtime" []
    ((Dom.textElement "Size" runtime.nSize.toNat.repr).append
      (Dom.textElement "OsVersion" runtime.nOsVersion.toNat.repr)) .nil

def stateAttributes (v : SavedState) : Attributes :=
  let attributes : Attributes := Attributes.setAttribute [] "guid" v.guid
  let attributes := if v.current then attributes.setAttribute "current" "yes" else attributes
  attributes.setAttribute "state" (vmStateValue v.vmState)

def propertyElements (v : SavedState) (runtimeSave : Bool) : Dom :=
  ((((Dom.textElement "Name" v.name).append
    (Dom.textElement "DateTime" v.dateTime)).append
    (Dom.textElement "Creator" v.creator)).append
    (Dom.textElement "ScreenShot" v.screenShot)).append
    ((Dom.element "Description" [] (.cdata v.description .nil) .nil).append
    (if runtimeSave then runtimeElement v.runtime else .nil))

/-- The loop over the children: an item without child nodes is not appended. -/
def appendItems (append : Nat → Option (Attributes × Dom)) : List Nat → Option Dom
  | [] => some .nil
  | c :: cs => do
      let (attributes, childs) ← append c
      let items ← appendItems append cs
      if childs.hasChildNodes then
        return .element "SavedStateItem" attributes childs items
      else
        return items

/-- The attributes and child nodes that a node adds to its fresh element. -/
def appendClassProperties (runtimeSave : Bool) : Nat → TreeHeap → Nat → Option (Attributes × Dom)
  | 0, _, _ => none
  | fuel + 1, h, node => do
      let n ← h.read node
      -- the 'You are here' node is not written
      if n.val.currentState then
        return ([], .nil)
      let items ← appendItems (appendClassProperties runtimeSave fuel h) n.childs
      return (stateAttributes n.val, (propertyElements n.val runtimeSave).append items)

def getXml (h : TreeHeap) (this : Nat) (allSave : Bool) : Option DomElement := do
  let (attributes, childs) ← appendClassProperties allSave h.next h this
  return ⟨"SavedStateItem", attributes, childs⟩

/-- `QString::toLower`, which differs from this only outside ASCII. -/
def toLower (s : String) : String :=
  String.ofList (s.toList.map Char.toLower)

/-- `QString::toULongLong` and `toUInt`: surrounding blanks and a plus sign are
skipped; anything but a number below the bound reads as zero. -/
def toUnsigned (bound : Nat) (s : String) : Nat :=
  let cs := ((s.toList.dropWhile Char.isWhitespace).reverse.dropWhile Char.isWhitespace).reverse
  let digits := if cs.head? = some '+' then cs.tail else cs
  if digits ≠ [] ∧ digits.all Char.isDigit ∧ Nat.ofDigitChars 10 digits 0 < bound then
    Nat.ofDigitChars 10 digits 0
  else
    0

def vmStateOf (value : String) : SnapshotedVmState :=
  if toLower value = "poweron" then
    .running
  else if toLower value = "pause" then
    .paused
  else if toLower value = "suspend" then
    .suspended
  else
    .poweredOff

def readRuntime : Dom → Runtime → Runtime
  | .element tag _ childs next, rt =>
      let rt :=
        if tag = "Size" then
          { rt with nSize := .ofNat (toUnsigned (2 ^ 64) childs.innerText) }
        else if tag = "OsVersion" then
          { rt with nOsVersion := .ofNat (toUnsigned (2 ^ 32) childs.innerText) }
        else
          rt
      readRuntime next rt
  | _, rt => rt

/-- What a parse leaves: the return code and the tree so far. -/
abbrev Parsed := Option (SnapshotReturnCode × TreeHeap)

def setState (h : TreeHeap) (this : Nat) (f : SavedState → SavedState) : Option TreeHeap :=
  h.modify this fun n => { n with val := f n.val }

/-- One mandatory element: `elem` has to carry the tag, or the parse ends with the
code `missing`. -/
def parseElement (h : TreeHeap) (this : Nat) (elem : Dom) (tag : String)
    (missing : SnapshotReturnCode) (set : Dom → SavedState → SavedState)
    (rest : TreeHeap → Dom → Parsed) : Parsed :=
  match elem with
  | .element name _ childs next =>
      if name = tag then do
        let h ← setState h this (set childs)
        rest h next
      else
        some (missing, h)
  | _ => some (missing, h)

/-- The description is read only from a leading CDATA section. -/
def descriptionOf : Dom → String
  | .cdata value _ => value
  | _ => ""

/-- The optional runtime element. -/
def parseRuntime (h : TreeHeap) (this : Nat) (elem : Dom) (rest : TreeHeap → Dom → Parsed) :
    Parsed :=
  match elem with
  | .element name _ childs next =>
      if name = "Runtime" then do
        let h ← setState h this fun v =>
          { v with runtime := readRuntime childs.firstElement v.runtime }
        rest h next
      else
        rest h elem
  | _ => rest h elem

/-- The elements of a node in their fixed order. -/
def parseProperties (h : TreeHeap) (this : Nat) (childs : Dom) (rest : TreeHeap → Dom → Parsed) :
    Parsed :=
  parseElement h this childs.firstElement "Name" .badSnapshotName
    (fun childs v => { v with name := childs.innerText }) fun h elem =>
  parseElement h this elem "DateTime" .badSnapshotCreateTime
    (fun childs v => { v with dateTime := childs.innerText }) fun h elem =>
  parseElement h this elem "Creator" .badSnapshotCreator
    (fun childs v => { v with creator := childs.innerText }) fun h elem =>
  parseElement h this elem "ScreenShot" .badSnapshotScreenshot
    (fun childs v => { v with screenShot := childs.innerText }) fun h elem =>
  parseElement h this elem "Description" .badSnapshotDescription
    (fun childs v => { v with description := descriptionOf childs }) fun h elem =>
  parseRuntime h this elem rest

/-- The loop over the remaining elements. It ends at the first node that is no
element. -/
def parseItems (parse : DomElement → TreeHeap → Nat → Parsed) (this : Nat) :
    TreeHeap → Dom → Parsed
  | h, .element tag attributes childs next =>
      if tag = "SavedStateItem" then do
        let child := h.next
        let h := h.alloc (newNode {})
        let h ← h.modify child fun n => { n with parent := some this }
        let (_, h) ← addChild h this (some child)
        let (code, h) ← parse ⟨tag, attributes, childs⟩ h child
        if code ≠ .rcSuccess then
          return (code, h)
        parseItems parse this h next
      else
        parseItems parse this h next
  | h, _ => some (.rcSuccess, h)

def recursiveParseClassProperties : Nat → DomElement → TreeHeap → Nat → Parsed
  | 0, _, _, _ => none
  | fuel + 1, el, h, this => do
      if el.tag ≠ "SavedStateItem" then
        return (.badSnapshotTree, h)
      let n ← h.read this
      let guid := el.attributes.attribute "guid"
      if guid = "" ∧ n.parent ≠ none then
        return (.badSnapshotGuid, h)
      let h ← setState h this fun v => { v with guid := guid }
      let current := el.attributes.attribute "current"
      let h ← setCurrent h this (current ≠ "" ∧ toLower current = "yes")
      let h ← setState h this fun v =>
        { v with vmState := vmStateOf (el.attributes.attribute "state") }
      parseProperties h this el.childs fun h elem =>
        parseItems (recursiveParseClassProperties fuel) this h elem

/-- `CleanupClassProperties` -/
def cleanupClassProperties (h : TreeHeap) (this : Nat) : Option TreeHeap := do
  let h ← clearTreeChild (h.next + 1) h this
  setState h this fun _ => {}

def readXml (h : TreeHeap) (this : Nat) (firstElement : Option DomElement) : Parsed :=
  match firstElement with
  | none => some (.badSnapshotTree, h)
  | some el => do
      let h ← cleanupClassProperties h this
      if el.tag ≠ "SavedStateItem" then
        return (.badSnapshotTree, h)
      recursiveParseClassProperties (el.childs.depth + 1) el h this

/-- What `Save` puts below the document element. -/
def save (s : SavedStateStore) (allSave : Bool) : Option Dom := do
  let root ← s.root
  let el ← getXml s.heap root allSave
  if el.childs.hasChildNodes then
    return .element el.tag el.attributes el.childs .nil
  else
    return .nil

/-- `Load`, from the child nodes of the document element on. -/
def load (s : SavedStateStore) (docNodeItem : Dom) :
    Option (SnapshotReturnCode × SavedStateStore) := do
  let (_, s) ← deleteBranch s s.root
  match docNodeItem with
  | .nil => return (.emptySnapshotTree, s)
  | .element tag attributes childs _ =>
      let root := s.heap.next
      let (code, h) ← readXml (s.heap.alloc (newNode {})) root (some ⟨tag, attributes, childs⟩)
      return (code, ⟨h, some root⟩)
  | _ => return (.badSnapshotTree, s)

end DispService.StatesStore
