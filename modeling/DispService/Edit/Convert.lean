import DispService.Directory.AllOrNothing
import DispService.Directory.Rollback

/-! A machine that becomes a template, or a template that becomes a machine: the actions that move
its item from one directory to another, and then define or undefine its domain. -/
namespace DispService.Edit.Convert

open Directory

/-- What an edit is asked for. -/
structure Request where
  /-- The uuid of the machine and of the directory it is listed in. -/
  object : String × String
  startName : String
  /-- The name and the home of the final configuration. -/
  name : String
  home : String
  startTemplate : Bool
  finalTemplate : Bool
  /-- The directory of the client. -/
  vmDirectoryUuid : String
  templatesDirectoryUuid : String

/-- Which of the operations succeed: the saves of the catalogue, one after another, and the calls
of libvirt. -/
structure Outcomes where
  patchSaved : Bool
  deleteSaved : Bool
  insertSaved : Bool
  undefined_ : Bool
  defined_ : Bool
  renamed : Bool
  updated : Bool

structure World where
  directories : CVmDirectories
  /-- Libvirt has the domain. -/
  isDefined : Bool

inductive Step where
  | patch
  | transfer (m_target : String)
  | undefine
  | define
  | rename
  | update

/-- `Apply::operator()` -/
def apply (r : Request) : List Step :=
  if r.startTemplate != r.finalTemplate then
    if r.finalTemplate then [.patch, .transfer r.templatesDirectoryUuid, .undefine]
    else [.patch, .transfer r.vmDirectoryUuid, .define]
  else if r.finalTemplate then [.patch]
  else if r.startName ≠ r.name then [.patch, .rename, .update]
  else [.patch, .update]

section Execute

variable (xml : XmlModel) (isPathsEqual : String → String → Bool)

def getVmDirItemByUuid (s : CVmDirectories) (dirUuid vmUuid : String) :
    Option (Nat × CVmDirectoryItem) := do
  let (i, d) ← s.getVmDirectory xml dirUuid
  let item ← d.items.find? fun item => item.vmUuid = vmUuid
  return (i, item)

def setNameHome (name home : String) (item : CVmDirectoryItem) : CVmDirectoryItem :=
  { item with vmName := name, vmHome := home }

/-- The change of an item that has the uuid and the home of another. -/
def shared (r : Request) (dirItem item : CVmDirectoryItem) : CVmDirectoryItem :=
  if item.vmUuid = dirItem.vmUuid ∧ isPathsEqual dirItem.vmHome item.vmHome then
    setNameHome r.name r.home item
  else item

/-- The change in all directories. -/
def setShared (r : Request) (dirItem : CVmDirectoryItem) (s : CVmDirectories) : CVmDirectories :=
  { s with
    directories := s.directories.map fun d => { d with
      items := d.items.map (shared isPathsEqual r dirItem) } }

/-- The first item with the uuid. -/
def setFirst (r : Request) (vmUuid : String) (items : List CVmDirectoryItem) :
    List CVmDirectoryItem :=
  items.modify (items.findIdx fun item => item.vmUuid = vmUuid) (setNameHome r.name r.home)

variable (r : Request) (o : Outcomes)

/-- The changes of an item are in memory before the catalogue is saved. -/
def Patch.execute (next : World → Bool × World) (w : World) : Bool × World :=
  match getVmDirItemByUuid xml w.directories r.object.2 r.object.1 with
  | none => (false, w)
  | some (i, dirItem) =>
      let s := (setShared isPathsEqual r dirItem w.directories).modifyItems i
        (setFirst r r.object.1)
      let (ret, s) := CVmDirectories.saveVmDirCatalogue o.patchSaved s
      if ret.failed then (false, { w with directories := s }) else next { w with directories := s }

/-- An item that is not deleted, or not inserted, is only logged. -/
def Transfer.execute (m_target : String) (next : World → Bool × World) (w : World) :
    Bool × World :=
  match getVmDirItemByUuid xml w.directories r.object.2 r.object.1 with
  | none => next w
  | some (_, t) =>
      let (res, s) := w.directories.deleteVmDirItem xml o.deleteSaved r.object.2 r.object.1
      if res.failed then next { w with directories := s }
      else
        let (res, s) := s.addVmDirItem xml o.insertSaved m_target (some t)
        if res.failed then next { w with directories := s }
        else next { w with directories := s }

/-- Each action goes on to the next. -/
def execute : List Step → World → Bool × World
  | [], w => (true, w)
  | .patch :: rest, w => Patch.execute xml isPathsEqual r o (execute rest) w
  | .transfer m_target :: rest, w => Transfer.execute xml r o m_target (execute rest) w
  | .undefine :: rest, w =>
      if o.undefined_ then execute rest { w with isDefined := false } else (false, w)
  | .define :: rest, w =>
      if o.defined_ then execute rest { w with isDefined := true } else (false, w)
  | .rename :: rest, w => if o.renamed then execute rest w else (false, w)
  | .update :: rest, w => if o.updated then execute rest w else (false, w)

end Execute

/-- The uuids of the directories. -/
def uuids (s : CVmDirectories) : List String := s.directories.map CVmDirectory.uuid

/-- The items of a machine, in each directory. -/
def Lists (s : CVmDirectories) (vmUuid : String) (f : String → List CVmDirectoryItem) : Prop :=
  ∀ d ∈ s.directories, (d.items.filter fun item => item.vmUuid = vmUuid) = f d.uuid

def only (uuid : String) (item : CVmDirectoryItem) (u : String) : List CVmDirectoryItem :=
  if u = uuid then [item] else []

/-- The item is the one of its machine, and in one directory. -/
def Only (s : CVmDirectories) (item : CVmDirectoryItem) (uuid : String) : Prop :=
  uuid ∈ uuids s ∧ Lists s item.vmUuid (only uuid item)

namespace Request

variable (r : Request)

/-- Where the item goes. -/
def target : String := if r.finalTemplate then r.templatesDirectoryUuid else r.vmDirectoryUuid

/-- The item with the name and the home of the machine. -/
def item : CVmDirectoryItem := ⟨r.object.1, r.name, r.home⟩

/-- A machine is defined and in a directory of machines, a template in that of templates. -/
structure Start (w : World) : Prop where
  distinct : (uuids w.directories).Nodup
  listed : ∃ name home, Only w.directories ⟨r.object.1, name, home⟩ r.object.2
  moves : r.object.2 ≠ r.target
  converts : r.startTemplate = !r.finalTemplate
  isDefined : w.isDefined = !r.startTemplate
  template : r.startTemplate = true → r.object.2 = r.templatesDirectoryUuid

/-- The machine is in one directory, with its name and home; in the new one when all went well, and
undefined in that of templates only. -/
def Converted (result : Bool × World) : Prop :=
  ∃ uuid, Only result.2.directories r.item uuid ∧ (result.1 = true → uuid = r.target) ∧
    (result.2.isDefined = false → uuid = r.templatesDirectoryUuid)

/-- The call of libvirt that ends the chain succeeds. -/
def callDone (o : Outcomes) : Bool := if r.finalTemplate then o.undefined_ else o.defined_

/-- The chain ends before the transfer, or fails in its first half and in its last step, or passes
through, but for the last step of a template. -/
def Harmless (o : Outcomes) (w : World) : Prop :=
  o.patchSaved = false ∨ o.deleteSaved = false ∧ r.callDone o = false ∨
    o.deleteSaved = true ∧ o.insertSaved = true ∧ r.target ∈ uuids w.directories ∧
      (r.finalTemplate = true ∨ o.defined_ = true)

end Request

section Items

variable {α : Type} {p : α → Bool} {l : List α}

theorem filter_eraseP (l : List α) : (l.eraseP p).filter p = (l.filter p).tail := by
  induction l with
  | nil => rfl
  | cons a l ih =>
    by_cases ha : p a = true
    · rw [List.eraseP_cons_of_pos ha, List.filter_cons_of_pos ha, List.tail_cons]
    · rw [List.eraseP_cons_of_neg ha, List.filter_cons_of_neg ha, List.filter_cons_of_neg ha, ih]

/-- A change of the first item that keeps what is looked for. -/
theorem filter_modify {f : α → α} (hf : ∀ a, p (f a) = p a) (l : List α) :
    (l.modify (l.findIdx p) f).filter p = (l.filter p).modify 0 f := by
  induction l with
  | nil => rfl
  | cons a l ih =>
    by_cases ha : p a = true
    · rw [List.findIdx_cons, ha, cond_true, List.modify_zero_cons,
        List.filter_cons_of_pos (by rw [hf, ha]), List.filter_cons_of_pos ha, List.modify_zero_cons]
    · have hne : p a = false := Bool.not_eq_true _ ▸ ha
      rw [List.findIdx_cons, hne, cond_false, List.modify_succ_cons, List.filter_cons_of_neg ha,
        List.filter_cons_of_neg ha, ih]

/-- A change of some items that keeps what is looked for. -/
theorem filter_map_keeps {f : α → α} (hf : ∀ a, p (f a) = p a) (l : List α) :
    (l.map f).filter p = (l.filter p).map f := by
  rw [List.filter_map]
  congr 2
  exact funext hf

end Items

section Lists

variable {xml : XmlModel} {s : CVmDirectories} {vmUuid uuid : String}
  {f : String → List CVmDirectoryItem} {i : Nat} {d : CVmDirectory} {item : CVmDirectoryItem}

theorem uuids_modifyItems (g : List CVmDirectoryItem → List CVmDirectoryItem) :
    uuids (s.modifyItems i g) = uuids s := by
  refine List.ext_getElem? fun j => ?_
  rw [uuids, uuids, List.getElem?_map, List.getElem?_map, CVmDirectories.modifyItems,
    CVmDirectories.getElem?_modifyDirectory, Option.map_map]
  congr 1
  funext d
  rw [Function.comp_apply]
  split <;> rfl

theorem uuid_of_get (finds : xml.Finds) (hget : s.getVmDirectory xml uuid = some (i, d)) :
    d.uuid = uuid ∧ d ∈ s.directories := by
  obtain ⟨hindex, hd⟩ := CVmDirectories.getVmDirectory_eq_some.mp hget
  have huuid := finds.found _ _ _ hindex
  rw [List.getElem?_map, hd, Option.map_some, Option.some.injEq] at huuid
  exact ⟨huuid, List.mem_of_getElem? hd⟩

theorem get_of_mem (finds : xml.Finds) (h : uuid ∈ uuids s) :
    ∃ i d, s.getVmDirectory xml uuid = some (i, d) :=
  CVmDirectories.exists_getVmDirectory finds h

theorem get_of_not_mem (finds : xml.Finds) (h : uuid ∉ uuids s) :
    s.getVmDirectory xml uuid = none := by
  cases hget : s.getVmDirectory xml uuid with
  | none => rfl
  | some found =>
    obtain ⟨huuid, hmem⟩ := uuid_of_get finds hget
    exact absurd (List.mem_map.mpr ⟨found.2, hmem, huuid⟩) h

/-- A change of the items of one directory. -/
theorem Lists.modifyItems (finds : xml.Finds) (distinct : (uuids s).Nodup) (h : Lists s vmUuid f)
    (hget : s.getVmDirectory xml uuid = some (i, d))
    (g : List CVmDirectoryItem → List CVmDirectoryItem) :
    Lists (s.modifyItems i g) vmUuid
      (Function.update f uuid ((g d.items).filter fun item => item.vmUuid = vmUuid)) := by
  obtain ⟨huuid, hmem⟩ := uuid_of_get finds hget
  have heach : s.modifyItems i g = s.inEach (fun u => u = uuid) fun d => { d with items := g d.items } :=
    CVmDirectories.modifyDirectory_eq finds distinct hget _
  intro e he
  rw [heach] at he
  obtain ⟨e', he', rfl⟩ := List.mem_map.mp he
  by_cases hsame : e'.uuid = uuid
  · have heq : e' = d := List.inj_on_of_nodup_map distinct he' hmem (hsame.trans huuid.symm)
    rw [if_pos (decide_eq_true hsame), heq]
    dsimp only
    rw [huuid, Function.update_self]
  · rw [if_neg (by simpa using hsame), Function.update_of_ne hsame]
    exact h e' he'

theorem only_ne {u : String} (hu : u ≠ uuid) : only uuid item u = [] := if_neg hu

theorem update_only (uuid : String) (f : String → List CVmDirectoryItem) (hf : ∀ u ≠ uuid, f u = [])
    (item : CVmDirectoryItem) : Function.update f uuid [item] = only uuid item := by
  funext u
  rw [only]
  split
  · next heq => rw [heq, Function.update_self]
  · next hne => rw [Function.update_of_ne hne, hf u hne]

theorem Lists.save (h : Lists s vmUuid f) (saved : Bool) :
    Lists (CVmDirectories.saveVmDirCatalogue saved s).2 vmUuid f := by
  rw [Lists, CVmDirectories.directories_saveVmDirCatalogue]
  exact h

theorem uuids_save (saved : Bool) :
    uuids (CVmDirectories.saveVmDirCatalogue saved s).2 = uuids s := by
  rw [uuids, CVmDirectories.directories_saveVmDirCatalogue, uuids]

theorem save_failed (saved : Bool) :
    (CVmDirectories.saveVmDirCatalogue saved s).1.failed = !saved := by
  cases saved <;> rfl

theorem filter_self (item : CVmDirectoryItem) :
    ([item].filter fun i => i.vmUuid = item.vmUuid) = [item] := by
  simp

/-- The item is found where it is. -/
theorem find_only (h : Lists s item.vmUuid (only uuid item)) (hd : d ∈ s.directories)
    (huuid : d.uuid = uuid) :
    (d.items.filter fun i => i.vmUuid = item.vmUuid) = [item] ∧
      (d.items.find? fun i => i.vmUuid = item.vmUuid) = some item := by
  have hfilter : (d.items.filter fun i => i.vmUuid = item.vmUuid) = [item] := by
    rw [h d hd, only, if_pos huuid]
  refine ⟨hfilter, ?_⟩
  rw [← List.head?_filter, hfilter]
  rfl

theorem getVmDirItemByUuid_only (finds : xml.Finds) (h : Only s item uuid) :
    ∃ i d, s.getVmDirectory xml uuid = some (i, d) ∧ d ∈ s.directories ∧ d.uuid = uuid ∧
      getVmDirItemByUuid xml s uuid item.vmUuid = some (i, item) := by
  obtain ⟨i, d, hget⟩ := get_of_mem finds h.1
  obtain ⟨huuid, hmem⟩ := uuid_of_get finds hget
  refine ⟨i, d, hget, hmem, huuid, ?_⟩
  rw [getVmDirItemByUuid, hget, Option.bind_eq_bind, Option.bind_some]
  dsimp only
  rw [(find_only h.2 hmem huuid).2]
  rfl

/-- No item of a machine is in two ways in one catalogue. -/
theorem Only.eq {uuid' : String} (h : Only s item uuid) (h' : Only s item uuid') : uuid = uuid' := by
  obtain ⟨d, hd, huuid⟩ := List.mem_map.mp h.1
  have hone := (find_only h.2 hd huuid).1
  rw [h'.2 d hd, only] at hone
  by_contra hne
  rw [if_neg (fun heq => hne (huuid.symm.trans heq))] at hone
  cases hone

theorem not_only_of_none (h : Lists s item.vmUuid fun _ => []) : ¬ Only s item uuid := by
  intro honly
  obtain ⟨d, hd, huuid⟩ := List.mem_map.mp honly.1
  have hone := (find_only honly.2 hd huuid).1
  rw [h d hd] at hone
  cases hone

end Lists

section Operations

variable {xml : XmlModel} {s : CVmDirectories} {uuid : String} {item : CVmDirectoryItem}

/-- A deletion that is saved takes the item out, and another puts it back. -/
theorem delete_only (finds : xml.Finds) (distinct : (uuids s).Nodup) (h : Only s item uuid)
    (saved : Bool) :
    (s.deleteVmDirItem xml saved uuid item.vmUuid).1.failed = !saved ∧
      uuids (s.deleteVmDirItem xml saved uuid item.vmUuid).2 = uuids s ∧
      Lists (s.deleteVmDirItem xml saved uuid item.vmUuid).2 item.vmUuid
        (if saved then fun _ => [] else only uuid item) := by
  obtain ⟨i, d, hget, hmem, huuid, -⟩ := getVmDirItemByUuid_only finds h
  obtain ⟨hfilter, hfind⟩ := find_only h.2 hmem huuid
  have herase : ((d.items.eraseP fun i => i.vmUuid = item.vmUuid).filter
      fun i => i.vmUuid = item.vmUuid) = [] := by
    rw [filter_eraseP, hfilter]
    rfl
  rw [CVmDirectories.deleteVmDirItem, hget]
  dsimp only
  rw [hfind]
  dsimp only
  rw [save_failed]
  cases saved with
  | true =>
    rw [Bool.not_true, if_neg Bool.false_ne_true, if_pos rfl]
    refine ⟨save_failed true, (uuids_save true).trans (uuids_modifyItems _), ?_⟩
    have hlists := (h.2.modifyItems finds distinct hget
      fun items => items.eraseP fun i => i.vmUuid = item.vmUuid).save true
    rw [herase] at hlists
    refine fun e he => (hlists e he).trans ?_
    by_cases hu : e.uuid = uuid
    · rw [hu, Function.update_self]
    · rw [Function.update_of_ne hu, only, if_neg hu]
  | false =>
    rw [Bool.not_false, if_pos rfl, if_neg Bool.false_ne_true]
    refine ⟨save_failed false, ?_, ?_⟩
    · rw [CVmDirectories.saveVmDirCatalogue, if_neg Bool.false_ne_true, uuids_modifyItems,
        uuids_modifyItems]
    · rw [CVmDirectories.saveVmDirCatalogue, if_neg Bool.false_ne_true]
      dsimp only
      rw [modifyItems_modifyItems]
      have hlists := h.2.modifyItems finds distinct hget fun items =>
        xml.addVmDirectoryItem (items.eraseP fun i => i.vmUuid = item.vmUuid) item
      rw [xml.addVmDirectoryItem_eq, List.filter_append, herase, List.nil_append, filter_self,
        update_only uuid (only uuid item) fun u hu => only_ne hu] at hlists
      exact hlists

/-- An insertion that is saved puts the item into the target, and another leaves it out. -/
theorem insert_none (target : String) (item : CVmDirectoryItem) (finds : xml.Finds) (distinct : (uuids s).Nodup)
    (h : Lists s item.vmUuid fun _ => []) (saved : Bool) :
    uuids (s.addVmDirItem xml saved target (some item)).2 = uuids s ∧
      Lists (s.addVmDirItem xml saved target (some item)).2 item.vmUuid
        (if saved = true ∧ target ∈ uuids s then only target item else fun _ => []) := by
  by_cases htarget : target ∈ uuids s
  · obtain ⟨i, d, hget⟩ := get_of_mem finds htarget
    obtain ⟨-, hmem⟩ := uuid_of_get finds hget
    have hnone : ∀ x ∈ d.items, x.vmUuid ≠ item.vmUuid := by
      intro x hx heq
      have hin : x ∈ d.items.filter fun i => i.vmUuid = item.vmUuid :=
        List.mem_filter.mpr ⟨hx, decide_eq_true heq⟩
      rw [h d hmem] at hin
      exact absurd hin List.not_mem_nil
    have hfilter : (d.items.filter fun i => i.vmUuid = item.vmUuid) = [] := h d hmem
    rw [CVmDirectories.addVmDirItem]
    dsimp only
    rw [hget]
    dsimp only
    have hfresh : ¬ ∃ x ∈ d.items, x.vmUuid = item.vmUuid := by
      rintro ⟨x, hx, heq⟩
      exact hnone x hx heq
    rw [if_neg hfresh, save_failed]
    cases saved with
    | true =>
      rw [Bool.not_true, if_neg Bool.false_ne_true, if_pos ⟨rfl, htarget⟩]
      refine ⟨(uuids_save true).trans (uuids_modifyItems _), ?_⟩
      have hlists := (h.modifyItems finds distinct hget
        fun items => xml.addVmDirectoryItem items item).save true
      rw [xml.addVmDirectoryItem_eq, List.filter_append, hfilter, List.nil_append, filter_self,
        update_only target _ fun _ _ => rfl] at hlists
      exact hlists
    | false =>
      rw [Bool.not_false, if_pos rfl, if_neg fun hand => Bool.false_ne_true hand.1]
      refine ⟨?_, ?_⟩
      · rw [CVmDirectories.saveVmDirCatalogue, if_neg Bool.false_ne_true, uuids_modifyItems,
          uuids_modifyItems]
      · rw [CVmDirectories.saveVmDirCatalogue, if_neg Bool.false_ne_true]
        dsimp only
        rw [modifyItems_modifyItems]
        have hlists := h.modifyItems finds distinct hget fun items =>
          (xml.addVmDirectoryItem items item).erase item
        rw [xml.addVmDirectoryItem_eq, List.erase_append_right _ fun hin => hnone item hin rfl,
          List.erase_cons_head, List.append_nil, hfilter, Function.update_eq_self] at hlists
        exact hlists
  · rw [CVmDirectories.addVmDirItem]
    dsimp only
    rw [get_of_not_mem finds htarget, if_neg fun hand => htarget hand.2]
    exact ⟨rfl, h⟩

end Operations

section Patch

variable {xml : XmlModel} {isPathsEqual : String → String → Bool} {r : Request}
  {s : CVmDirectories} {old : CVmDirectoryItem}

theorem shared_vmUuid (dirItem item : CVmDirectoryItem) :
    (shared isPathsEqual r dirItem item).vmUuid = item.vmUuid := by
  rw [shared]
  split <;> rfl

theorem uuids_setShared : uuids (setShared isPathsEqual r old s) = uuids s := by
  rw [uuids, setShared, List.map_map]
  rfl

theorem setShared_lists (isPathsEqual : String → String → Bool) (r : Request)
    (old : CVmDirectoryItem) {f : String → List CVmDirectoryItem} {vmUuid : String}
    (h : Lists s vmUuid f) :
    Lists (setShared isPathsEqual r old s) vmUuid fun u =>
      (f u).map (shared isPathsEqual r old) := by
  intro e he
  obtain ⟨d, hd, rfl⟩ := List.mem_map.mp he
  exact (filter_map_keeps (fun item => by rw [shared_vmUuid]) d.items).trans
    (congrArg (List.map _) (h d hd))

/-- The changes give the item its name and home, where it is. -/
theorem patch_only (isPathsEqual : String → String → Bool) (finds : xml.Finds)
    (distinct : (uuids s).Nodup) (h : Only s old r.object.2) (huuid : old.vmUuid = r.object.1) :
    ∃ i, getVmDirItemByUuid xml s r.object.2 r.object.1 = some (i, old) ∧
      uuids ((setShared isPathsEqual r old s).modifyItems i (setFirst r r.object.1)) = uuids s ∧
      Only ((setShared isPathsEqual r old s).modifyItems i (setFirst r r.object.1)) r.item
        r.object.2 := by
  obtain ⟨i, d, hget, hmem, hd, hitem⟩ := getVmDirItemByUuid_only finds h
  have huuids : uuids ((setShared isPathsEqual r old s).modifyItems i (setFirst r r.object.1)) =
      uuids s := (uuids_modifyItems _).trans uuids_setShared
  refine ⟨i, huuid ▸ hitem, huuids, ?_⟩
  have hdistinct : (uuids (setShared isPathsEqual r old s)).Nodup := by
    rw [uuids_setShared]
    exact distinct
  have hshared := setShared_lists isPathsEqual r old h.2
  rw [huuid] at hshared
  obtain ⟨hindex, hat⟩ := CVmDirectories.getVmDirectory_eq_some.mp hget
  have hget' : (setShared isPathsEqual r old s).getVmDirectory xml r.object.2 =
      some (i, { d with items := d.items.map (shared isPathsEqual r old) }) := by
    refine CVmDirectories.getVmDirectory_eq_some.mpr ⟨?_, ?_⟩
    · have hsame : (setShared isPathsEqual r old s).directories.map CVmDirectory.uuid =
          s.directories.map CVmDirectory.uuid := uuids_setShared
      rw [hsame]
      exact hindex
    · rw [setShared, List.getElem?_map, hat]
      rfl
  have hlists := hshared.modifyItems finds hdistinct hget' (setFirst r r.object.1)
  have hfilter : ((d.items.map (shared isPathsEqual r old)).filter
      fun item => item.vmUuid = r.object.1) = [shared isPathsEqual r old old] := by
    rw [filter_map_keeps (fun item => by rw [shared_vmUuid]), ← huuid,
      (find_only h.2 hmem hd).1]
    rfl
  have hfirst : setNameHome r.name r.home (shared isPathsEqual r old old) = r.item := by
    rw [setNameHome, shared_vmUuid, huuid]
    rfl
  dsimp only at hlists
  rw [setFirst, filter_modify (p := fun item => decide (item.vmUuid = r.object.1))
    (f := setNameHome r.name r.home) (fun _ => rfl), hfilter, List.modify_zero_cons, hfirst,
    update_only] at hlists
  · exact ⟨huuids ▸ h.1, hlists⟩
  · intro u hu
    rw [only, if_neg hu]
    rfl

end Patch

section Chain

variable {xml : XmlModel} {isPathsEqual : String → String → Bool} {r : Request} {o : Outcomes}
  {w : World}

/-- The step that ends the chain. -/
def lastStep (r : Request) : Step := if r.finalTemplate then .undefine else .define

theorem apply_eq (h : r.startTemplate = !r.finalTemplate) :
    apply r = [.patch, .transfer r.target, lastStep r] := by
  rw [apply, h, Request.target, lastStep]
  cases r.finalTemplate <;> rfl

theorem execute_last (w : World) :
    execute xml isPathsEqual r o [lastStep r] w =
      if r.callDone o then (true, { w with isDefined := !r.finalTemplate }) else (false, w) := by
  rw [lastStep, Request.callDone]
  cases r.finalTemplate <;> rfl

/-- The end of a chain, for a machine that is listed. -/
theorem converted_last {uuid : String} (h : Only w.directories r.item uuid) :
    r.Converted (execute xml isPathsEqual r o [lastStep r] w) ↔
      if r.callDone o then
        uuid = r.target ∧ (r.finalTemplate = true → uuid = r.templatesDirectoryUuid)
      else w.isDefined = false → uuid = r.templatesDirectoryUuid := by
  rw [execute_last]
  cases r.callDone o with
  | true =>
    rw [if_pos rfl, if_pos rfl]
    constructor
    · rintro ⟨u, honly, htarget, htemplate⟩
      rw [← honly.eq h]
      exact ⟨htarget rfl, fun hfinal => htemplate (by rw [hfinal]; rfl)⟩
    · rintro ⟨htarget, htemplate⟩
      exact ⟨uuid, h, fun _ => htarget, fun hdefined => htemplate (by simpa using hdefined)⟩
  | false =>
    rw [if_neg Bool.false_ne_true, if_neg Bool.false_ne_true]
    constructor
    · rintro ⟨u, honly, -, htemplate⟩
      rw [← honly.eq h]
      exact htemplate
    · exact fun htemplate => ⟨uuid, h, fun htrue => absurd htrue Bool.false_ne_true, htemplate⟩

/-- A machine that is listed nowhere is not converted. -/
theorem not_converted_last (h : Lists w.directories r.item.vmUuid fun _ => []) :
    ¬ r.Converted (execute xml isPathsEqual r o [lastStep r] w) := by
  rintro ⟨uuid, honly, -⟩
  rw [execute_last] at honly
  cases hdone : r.callDone o <;> rw [hdone] at honly <;> exact not_only_of_none h honly

/-- From the transfer on. -/
theorem converted_transfer (isPathsEqual : String → String → Bool) (finds : xml.Finds) (distinct : (uuids w.directories).Nodup)
    (h : Only w.directories r.item r.object.2) (hmoves : r.object.2 ≠ r.target)
    (hdefined : w.isDefined = r.finalTemplate)
    (htemplate : r.finalTemplate = false → r.object.2 = r.templatesDirectoryUuid) :
    r.Converted (execute xml isPathsEqual r o [.transfer r.target, lastStep r] w) ↔
      o.deleteSaved = false ∧ r.callDone o = false ∨
        o.deleteSaved = true ∧ o.insertSaved = true ∧ r.target ∈ uuids w.directories ∧
          (r.finalTemplate = true ∨ o.defined_ = true) := by
  obtain ⟨i, -, -, -, -, hitem⟩ := getVmDirItemByUuid_only finds h
  obtain ⟨hfailed, huuids, hlists⟩ := delete_only finds distinct h o.deleteSaved
  have hobject : r.item.vmUuid = r.object.1 := rfl
  rw [hobject] at hitem hfailed huuids hlists
  rw [execute, Transfer.execute, hitem]
  dsimp only
  rw [hfailed]
  cases hdelete : o.deleteSaved with
  | false =>
    rw [hdelete] at huuids hlists
    have honly : Only (w.directories.deleteVmDirItem xml false r.object.2 r.object.1).2 r.item
        r.object.2 := ⟨huuids ▸ h.1, hlists⟩
    rw [Bool.not_false, if_pos rfl, converted_last honly]
    cases r.callDone o with
    | true => simp [hmoves]
    | false =>
      simp only [Bool.false_ne_true, if_false, and_self, true_or, iff_true]
      exact fun hfalse => htemplate (hdefined.symm.trans hfalse)
  | true =>
    rw [hdelete] at huuids hlists
    rw [Bool.not_true, if_neg Bool.false_ne_true, ite_self]
    obtain ⟨-, hinsert⟩ := insert_none r.target r.item finds
      (huuids ▸ distinct) hlists o.insertSaved
    rw [huuids] at hinsert
    by_cases hin : o.insertSaved = true ∧ r.target ∈ uuids w.directories
    · rw [if_pos hin] at hinsert
      have honly : Only ((w.directories.deleteVmDirItem xml true r.object.2 r.object.1).2.addVmDirItem
          xml o.insertSaved r.target (some r.item)).2 r.item r.target := by
        refine ⟨?_, hinsert⟩
        rw [(insert_none r.target r.item finds (huuids ▸ distinct) hlists
          o.insertSaved).1, huuids]
        exact hin.2
      rw [converted_last honly]
      simp only [hin.1, hin.2, hdefined, true_and, Bool.true_eq_false, false_and, false_or]
      rw [Request.callDone, Request.target]
      cases hfinal : r.finalTemplate with
      | true => simp
      | false =>
        have hother : r.vmDirectoryUuid ≠ r.templatesDirectoryUuid := by
          intro heq
          rw [Request.target, hfinal, if_neg Bool.false_ne_true, heq] at hmoves
          exact hmoves (htemplate hfinal)
        cases o.defined_ <;> simp [hother]
    · rw [if_neg hin] at hinsert
      refine iff_of_false (not_converted_last hinsert) ?_
      rintro (⟨hfalse, -⟩ | ⟨-, hsaved, htarget, -⟩)
      · cases hfalse
      · exact hin ⟨hsaved, htarget⟩

/-- A conversion leaves the machine where it belongs just when its failures are harmless. -/
theorem converted_iff (isPathsEqual : String → String → Bool) (finds : xml.Finds)
    (start : r.Start w) :
    r.Converted (execute xml isPathsEqual r o (apply r) w) ↔ r.Harmless o w := by
  obtain ⟨name, home, honly⟩ := start.listed
  have htemplate : r.finalTemplate = false → r.object.2 = r.templatesDirectoryUuid := fun hfinal =>
    start.template (by rw [start.converts, hfinal]; rfl)
  have hdefined : w.isDefined = r.finalTemplate := by
    rw [start.isDefined, start.converts, Bool.not_not]
  obtain ⟨i, hitem, huuids, hpatched⟩ :=
    patch_only isPathsEqual finds start.distinct honly rfl
  rw [apply_eq start.converts, execute, Patch.execute, hitem]
  dsimp only
  rw [save_failed, Request.Harmless]
  cases hpatch : o.patchSaved with
  | false =>
    rw [Bool.not_false, if_pos rfl]
    refine iff_of_true ⟨r.object.2, hpatched, fun htrue => absurd htrue Bool.false_ne_true, ?_⟩
      (.inl rfl)
    exact fun hfalse => htemplate (hdefined.symm.trans hfalse)
  | true =>
    rw [Bool.not_true, if_neg Bool.false_ne_true]
    have hsaved : Only (CVmDirectories.saveVmDirCatalogue true
        ((setShared isPathsEqual r ⟨r.object.1, name, home⟩ w.directories).modifyItems i
          (setFirst r r.object.1))).2 r.item r.object.2 :=
      ⟨(uuids_save true).symm ▸ hpatched.1, hpatched.2.save true⟩
    have hsame := (uuids_save (s := (setShared isPathsEqual r ⟨r.object.1, name, home⟩
      w.directories).modifyItems i (setFirst r r.object.1)) true).trans huuids
    have hdistinct := start.distinct
    rw [← hsame] at hdistinct
    have hrest := converted_transfer (o := o) (w := ⟨_, w.isDefined⟩) isPathsEqual finds hdistinct hsaved start.moves hdefined htemplate
    rw [hrest, hsame]
    exact (or_iff_right (by simp)).symm

end Chain

/-- A machine in the first of two directories. -/
def oneMachine : World :=
  ⟨⟨[⟨"vms", [⟨"vm", "name", "/vz/vm"⟩], []⟩, ⟨"templates", [], []⟩], [], []⟩, true⟩

/-- The machine is made a template. -/
def toTemplate : Request :=
  ⟨("vm", "vms"), "name", "name", "/vz/vm", false, true, "vms", "templates"⟩

theorem oneMachine_start : toTemplate.Start oneMachine where
  distinct := by decide
  listed := ⟨"name", "/vz/vm", by decide, by rw [Lists]; decide⟩
  moves := by decide
  converts := rfl
  isDefined := rfl
  template h := absurd h Bool.false_ne_true

theorem converted_oneMachine :
    toTemplate.Converted (execute firstXml (fun p q => p == q) toTemplate
        ⟨true, true, true, true, true, true, true⟩ (apply toTemplate) oneMachine) ↔
      toTemplate.Harmless ⟨true, true, true, true, true, true, true⟩ oneMachine :=
  converted_iff _ firstXml_finds oneMachine_start

/-- A deletion that is not saved is passed over, and the machine is undefined where it was. -/
theorem not_converted_undeleted : ¬ ∀ (xml : XmlModel) (isPathsEqual : String → String → Bool)
    (r : Request) (o : Outcomes) (w : World), xml.Finds → r.Start w →
      r.Converted (execute xml isPathsEqual r o (apply r) w) := by
  intro hall
  obtain ⟨uuid, honly, htarget, -⟩ := hall firstXml (fun p q => p == q) toTemplate
    ⟨true, false, true, true, true, true, true⟩ oneMachine firstXml_finds oneMachine_start
  have htemplates : uuid = "templates" := htarget (by decide)
  have hlists := honly.2 ⟨"templates", [], []⟩ (by decide)
  rw [htemplates] at hlists
  revert hlists
  decide

end DispService.Edit.Convert
