import DispService.Lib.LinkedForest

/-! One record of the snapshot tree. -/
namespace DispService.StatesStore

inductive SnapshotReturnCode where
  | rcSuccess
  | badFileName
  | badSnapshotTree
  | emptySnapshotTree
  | cannotWriteFile
  | cannotCreateSnapshot
  | cannotDeleteSnapshot
  | badSnapshotGuid
  | badSnapshotName
  | badSnapshotCreateTime
  | badSnapshotCreator
  | badSnapshotScreenshot
  | badSnapshotDescription
  deriving DecidableEq, Repr

inductive SnapshotedVmState where
  | poweredOff
  | running
  | paused
  | suspended
  deriving DecidableEq, Repr

structure Runtime where
  nSize : UInt64 := 0
  nOsVersion : UInt32 := 0
  deriving DecidableEq, Repr

/-- What a snapshot says about itself, without its marks in the tree. -/
structure Snapshot where
  guid : String := ""
  name : String := ""
  dateTime : String := ""
  creator : String := ""
  screenShot : String := ""
  description : String := ""
  vmState : SnapshotedVmState := .poweredOff
  runtime : Runtime := {}
  deriving DecidableEq, Repr

/-- The defaults are those of `CleanupStateProperties`. -/
structure SavedState extends Snapshot where
  current : Bool := false
  currentState : Bool := false
  deriving DecidableEq, Repr

/-- The record of the 'You are here' node: `SetCurrentState(true)` cleans up all
other properties. -/
def youAreHere : SavedState :=
  { currentState := true }

def Snapshot.state (v : Snapshot) (current : Bool) : SavedState :=
  { v with current := current }

@[simp] theorem Snapshot.state_current (v : Snapshot) (b : Bool) : (v.state b).current = b := rfl

@[simp] theorem Snapshot.state_currentState (v : Snapshot) (b : Bool) :
    (v.state b).currentState = false := rfl

@[simp] theorem Snapshot.state_toSnapshot (v : Snapshot) (b : Bool) :
    (v.state b).toSnapshot = v := rfl

@[simp] theorem youAreHere_current : youAreHere.current = false := rfl

@[simp] theorem youAreHere_currentState : youAreHere.currentState = true := rfl

end DispService.StatesStore

/-! The operations of one tree node. Nodes are heap cells. An operation without a
result has dereferenced a dangling pointer. Every recursion of the source is
bounded by the number of allocated cells. -/
namespace DispService.StatesStore

open DispService.Lib

abbrev TreeHeap := Heap (Node SavedState)

/-- `new CSavedStateTree`, with the given record. -/
def newNode (state : SavedState) : Node SavedState :=
  ⟨state, none, []⟩

def getRootFrom : Nat → TreeHeap → Nat → Option Nat
  | 0, _, _ => none
  | fuel + 1, h, this => do
      let n ← h.read this
      match n.parent with
      | none => return this
      | some parent => getRootFrom fuel h parent

def getRoot (h : TreeHeap) (this : Nat) : Option Nat :=
  getRootFrom (h.next + 1) h this

/-- The position at which `AddChild` inserts: a current node keeps its 'You are
here' child last. -/
def insertPos (n c : Node SavedState) : Nat :=
  if n.val.current && !c.val.currentState then n.childs.length - 1 else n.childs.length

def addChild (h : TreeHeap) (this : Nat) : Option Nat → Option (Bool × TreeHeap)
  | none => some (false, h)
  | some child => do
      let n ← h.read this
      let c ← h.read child
      if n.val.currentState then
        return (false, h)
      let h ← h.modify this fun n => { n with childs := n.childs.insertIdx (insertPos n c) child }
      let h ← h.modify child fun c => { c with parent := some this }
      return (true, h)

/-- The first child for which the search has a result. -/
def firstFound (search : Nat → Option (Option Nat)) : List Nat → Option (Option Nat)
  | [] => some none
  | c :: cs => do
      match ← search c with
      | some result => return some result
      | none => firstFound search cs

def findNode (found : SavedState → Bool) : Nat → TreeHeap → Nat → Option (Option Nat)
  | 0, _, _ => none
  | fuel + 1, h, node => do
      let n ← h.read node
      if found n.val then
        return some node
      firstFound (findNode found fuel h) n.childs

def recursiveFindByUuid (h : TreeHeap) (node : Option Nat) (guid : String) :
    Option (Option Nat) :=
  match node with
  | none => some none
  | some node => findNode (fun v => v.guid == guid) h.next h node

def findByUuid (h : TreeHeap) (this : Nat) (guid : String) : Option (Option Nat) := do
  let root ← getRoot h this
  recursiveFindByUuid h (some root) guid

def findCurrentNode (h : TreeHeap) (node : Option Nat) : Option (Option Nat) :=
  match node with
  | none => some none
  | some node => findNode (fun v => v.current) h.next h node

/-- Delete the last child when it is the 'You are here' node. -/
def dropCurrentState (h : TreeHeap) (this : Nat) : Option TreeHeap := do
  let n ← h.read this
  match n.childs.getLast? with
  | none => return h
  | some last =>
      let c ← h.read last
      if c.val.currentState then
        let h ← h.modify this fun n => { n with childs := n.childs.dropLast }
        h.free last
      else
        return h

/-- `SetCurrent(false)` -/
def unsetCurrent (h : TreeHeap) (this : Nat) : Option TreeHeap := do
  let n ← h.read this
  if n.val.currentState then
    return h
  let h ← dropCurrentState h this
  h.modify this fun n => { n with val := { n.val with current := false } }

def recursiveClearCurrentNodes : Nat → TreeHeap → Nat → Option TreeHeap
  | 0, _, _ => none
  | fuel + 1, h, node => do
      let h ← unsetCurrent h node
      let n ← h.read node
      n.childs.foldlM (recursiveClearCurrentNodes fuel) h

def clearCurrentNodes (h : TreeHeap) (this : Nat) : Option TreeHeap := do
  let root ← getRoot h this
  recursiveClearCurrentNodes h.next h root

def setCurrent (h : TreeHeap) (this : Nat) (current : Bool) : Option TreeHeap := do
  let n ← h.read this
  if n.val.currentState then
    return h
  if current then
    let h ← clearCurrentNodes h this
    let leaf := h.next
    let h := h.alloc (newNode youAreHere)
    let h ← h.modify this fun n => { n with val := { n.val with current := true } }
    let (_, h) ← addChild h this (some leaf)
    return h
  else
    unsetCurrent h this

/-- The body of the loop in `ClearTreeChild`. -/
def deleteChild (clear : TreeHeap → Nat → Option TreeHeap) (h : TreeHeap) (child : Nat) :
    Option TreeHeap := do
  let h ← clear h child
  h.free child

def clearTreeChild : Nat → TreeHeap → Nat → Option TreeHeap
  | 0, _, _ => none
  | fuel + 1, h, node => do
      let n ← h.read node
      let h ← n.childs.foldlM (deleteChild (clearTreeChild fuel)) h
      h.modify node fun n => { n with childs := [] }

end DispService.StatesStore

/-! The operations of the snapshot store. -/
namespace DispService.StatesStore

open DispService.Lib

structure SavedStateStore where
  heap : TreeHeap
  /-- `m_SST` -/
  root : Option Nat
  deriving DecidableEq, Repr

def SavedStateStore.empty : SavedStateStore :=
  ⟨Heap.empty, none⟩

/-- The properties that `CreateSnapshot` copies; the runtime data is not among
them. -/
def copyProperties (state : SavedState) : SavedState :=
  { guid := state.guid
    name := state.name
    creator := state.creator
    dateTime := state.dateTime
    screenShot := state.screenShot
    description := state.description
    vmState := state.vmState }

def createSnapshot (s : SavedStateStore) (state : SavedState) :
    Option (SnapshotReturnCode × SavedStateStore) := do
  let newStateNode := s.heap.next
  let h := s.heap.alloc (newNode (copyProperties state))
  match ← findCurrentNode h s.root with
  | some parent =>
      let (added, h) ← addChild h parent (some newStateNode)
      if !added then
        let h ← h.free newStateNode
        return (.cannotCreateSnapshot, ⟨h, s.root⟩)
      let h ← setCurrent h newStateNode true
      return (.rcSuccess, ⟨h, s.root⟩)
  | none =>
      let mainRootNode := h.next
      let h := h.alloc (newNode {})
      let (_, h) ← addChild h mainRootNode (some newStateNode)
      let h ← setCurrent h newStateNode true
      return (.rcSuccess, ⟨h, some mainRootNode⟩)

/-- The parent of a deleted current node becomes current; a head without children
is deleted with the tree. -/
def passCurrent (s : SavedStateStore) (parent : Nat) (wasCurrent : Bool) :
    Option SavedStateStore :=
  if wasCurrent then do
    let p ← s.heap.read parent
    if p.parent.isNone && p.childs.length == 0 then
      let h ← s.heap.free parent
      return ⟨h, none⟩
    else
      let h ← setCurrent s.heap parent true
      return ⟨h, s.root⟩
  else
    some s

/-- Delete a tree that is only the current head. -/
def dropEmptyTree (s : SavedStateStore) : Option SavedStateStore :=
  match s.root with
  | none => some s
  | some root => do
      let r ← s.heap.read root
      if r.childs.length == 1 && r.val.current then
        let h ← setCurrent s.heap root false
        let h ← h.free root
        return ⟨h, none⟩
      else
        return s

/-- Hand the children of a deleted node to its parent, from position `pos` on. -/
def adoptChilds (parent : Nat) : Nat → List Nat → TreeHeap → Option TreeHeap
  | _, [], h => some h
  | pos, c :: cs, h => do
      let h ← h.modify c fun n => { n with parent := some parent }
      let h ← h.modify parent fun p => { p with childs := p.childs.insertIdx pos c }
      adoptChilds parent (pos + 1) cs h

def deleteNode (s : SavedStateStore) :
    Option Nat → Option (SnapshotReturnCode × SavedStateStore)
  | none => some (.cannotDeleteSnapshot, s)
  | some node => do
      let n ← s.heap.read node
      match n.parent with
      | none => return (.cannotDeleteSnapshot, s)
      | some parent =>
          let isNodeCurrent := n.val.current
          let p ← s.heap.read parent
          let nodeInsertPos := if node ∈ p.childs then p.childs.idxOf node else 0
          let h ← s.heap.modify parent fun p => { p with childs := p.childs.erase node }
          let h ← setCurrent h node false
          let n ← h.read node
          let h ← adoptChilds parent nodeInsertPos n.childs h
          let s ← passCurrent ⟨h, s.root⟩ parent isNodeCurrent
          let h ← s.heap.free node
          let s ← dropEmptyTree ⟨h, s.root⟩
          return (.rcSuccess, s)

/-- Take an emptied branch out of its parent, if it has one. -/
def unlinkBranch (s : SavedStateStore) (node : Nat) (containsCurrentNode : Bool) :
    Option Nat → Option SavedStateStore
  | none => some s
  | some parent => do
      let h ← s.heap.modify parent fun p => { p with childs := p.childs.erase node }
      passCurrent ⟨h, s.root⟩ parent containsCurrentNode

def deleteBranch (s : SavedStateStore) :
    Option Nat → Option (SnapshotReturnCode × SavedStateStore)
  | none => some (.cannotDeleteSnapshot, s)
  | some node => do
      let currentNode ← findCurrentNode s.heap (some node)
      let containsCurrentNode := currentNode.isSome
      let h ← clearTreeChild (s.heap.next + 1) s.heap node
      let n ← h.read node
      let s ← unlinkBranch ⟨h, s.root⟩ node containsCurrentNode n.parent
      let root := if s.root = some node then none else s.root
      let h ← s.heap.free node
      let s ← dropEmptyTree ⟨h, root⟩
      return (.rcSuccess, s)

/-- The node that a guid names. An empty store has no tree to search. -/
def nodeOfGuid (s : SavedStateStore) (guid : String) : Option (Option Nat) := do
  let root ← s.root
  findByUuid s.heap root guid

def deleteNodeByGuid (s : SavedStateStore) (guid : String) :
    Option (SnapshotReturnCode × SavedStateStore) := do
  let deletingNode ← nodeOfGuid s guid
  deleteNode s deletingNode

def deleteBranchByGuid (s : SavedStateStore) (guid : String) :
    Option (SnapshotReturnCode × SavedStateStore) := do
  let deletingBranchRoot ← nodeOfGuid s guid
  deleteBranch s deletingBranchRoot

end DispService.StatesStore
