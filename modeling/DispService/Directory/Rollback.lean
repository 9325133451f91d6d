import DispService.Directory.Catalogue
import Mathlib.Data.List.TakeWhile

/-! What a failed change of the catalogue leaves in memory. The change is made
first and taken back when the save fails. -/
namespace DispService.Directory

open CVmDirectories

inductive Mutator where
  | addNewVmDirectory (pVmDir : Option CVmDirectory)
  | addVmDirItem (dirUuid : String) (pVmDirItem : Option CVmDirectoryItem)
  | deleteVmDirItem (dirUuid vmUuid : String)

variable (xml : XmlModel)

def mutate (saveToFile : Bool) (s : CVmDirectories) : Mutator → PrlResult × CVmDirectories
  | .addNewVmDirectory pVmDir => addNewVmDirectory xml saveToFile s pVmDir
  | .addVmDirItem dirUuid pVmDirItem => addVmDirItem xml saveToFile s dirUuid pVmDirItem
  | .deleteVmDirItem dirUuid vmUuid => deleteVmDirItem xml saveToFile s dirUuid vmUuid

/-- The file holds what is in memory. -/
def Agrees (s : CVmDirectories) : Prop :=
  s.file = s.persistent

instance (s : CVmDirectories) : Decidable (Agrees s) :=
  inferInstanceAs (Decidable (s.file = s.persistent))

/-- Nothing but copies follows the first item with the uuid. -/
def LastOfDirectory (items : List CVmDirectoryItem) (vmUuid : String) : Prop :=
  ∀ item after, items.dropWhile (fun x => x.vmUuid ≠ vmUuid) = item :: after →
    ∀ x ∈ after, x = item

/-- The mutator gets no error from the save, or can take its change back. -/
def TakesBack (saveToFile : Bool) (s : CVmDirectories) : Mutator → Prop
  | .addNewVmDirectory pVmDir =>
      saveToFile = true ∨ ∀ d, pVmDir = some d → (s.getVmDirectory xml d.uuid).isSome = true
  | .addVmDirItem _ _ => True
  | .deleteVmDirItem dirUuid vmUuid =>
      saveToFile = true ∨
        ∀ i d, s.getVmDirectory xml dirUuid = some (i, d) → LastOfDirectory d.items vmUuid

section Lists

variable {α : Type} {x : α}

theorem cons_eq_append_singleton {after : List α} :
    x :: after = after ++ [x] ↔ ∀ y ∈ after, y = x := by
  induction after with
  | nil => simp
  | cons y after ih =>
      rw [List.cons_append, List.cons.injEq, List.forall_mem_cons]
      constructor
      · rintro ⟨rfl, hrest⟩
        exact ⟨rfl, ih.mp hrest⟩
      · rintro ⟨rfl, hrest⟩
        exact ⟨rfl, ih.mpr hrest⟩

theorem exists_first {p : α → Bool} {l : List α} (h : l.find? p = some x) :
    ∃ before after, l = before ++ x :: after ∧
      l.eraseP p = before ++ after ∧ l.dropWhile (fun y => !p y) = x :: after := by
  obtain ⟨hx, before, after, rfl, hbefore⟩ := List.find?_eq_some_iff_append.mp h
  have hnot : ∀ y ∈ before, ¬ p y = true := by
    intro y hy
    simpa using hbefore y hy
  refine ⟨before, after, rfl, ?_, ?_⟩
  · rw [List.eraseP_append_right _ hnot, List.eraseP_cons_of_pos hx]
  · rw [List.dropWhile_append_of_pos hbefore]
    simp [hx]

end Lists

section Modify

variable {s : CVmDirectories} {i : Nat} {d : CVmDirectory}

/-- The directories are as before exactly when the items of the changed one are. -/
theorem directories_modifyItems (hd : s.directories[i]? = some d)
    (f : List CVmDirectoryItem → List CVmDirectoryItem) :
    (s.modifyItems i f).directories = s.directories ↔ f d.items = d.items := by
  constructor
  · intro h
    have hi := getElem?_modifyDirectory s i i fun d => { d with items := f d.items }
    rw [modifyItems] at h
    rw [h, hd, Option.map_some, if_pos rfl, Option.some.injEq] at hi
    exact (congrArg CVmDirectory.items hi).symm
  · intro h
    apply List.ext_getElem?
    intro j
    rw [modifyItems, getElem?_modifyDirectory]
    by_cases hj : i = j
    · rw [← hj, hd, Option.map_some, if_pos rfl, h]
    · simp [hj]

@[simp] theorem modifyItems_modifyItems (s : CVmDirectories) (i : Nat)
    (f g : List CVmDirectoryItem → List CVmDirectoryItem) :
    (s.modifyItems i f).modifyItems i g = s.modifyItems i fun items => g (f items) := by
  simp only [modifyItems, modifyDirectory, List.modify_modify_eq]
  rfl

end Modify

section Mutators

variable {xml}

/-- With a working save a mutator succeeds or changes nothing. -/
theorem mutate_saved (s : CVmDirectories) (m : Mutator) :
    (mutate xml true s m).1 = .success ∨ (mutate xml true s m).2 = s := by
  cases m with
  | addNewVmDirectory pVmDir =>
      cases pVmDir with
      | none => exact .inr rfl
      | some d =>
          rw [mutate, addNewVmDirectory]
          split
          · exact .inr rfl
          · exact .inl rfl
  | addVmDirItem dirUuid pVmDirItem =>
      cases pVmDirItem with
      | none => exact .inr rfl
      | some item =>
          rw [mutate, addVmDirItem]
          split
          · exact .inr rfl
          · split
            · exact .inr rfl
            · exact .inl rfl
  | deleteVmDirItem dirUuid vmUuid =>
      rw [mutate, deleteVmDirItem]
      split
      · exact .inr rfl
      · split
        · exact .inr rfl
        · exact .inl rfl

/-- The directories in memory after the save has failed. -/
def leftBehind (xml : XmlModel) (s : CVmDirectories) : Mutator → List CVmDirectory
  | .addNewVmDirectory none => s.directories
  | .addNewVmDirectory (some d) =>
      if (s.getVmDirectory xml d.uuid).isSome then s.directories else s.directories ++ [d]
  | .addVmDirItem _ _ => s.directories
  | .deleteVmDirItem dirUuid vmUuid =>
      match s.getVmDirectory xml dirUuid with
      | none => s.directories
      | some (i, d) =>
          match d.items.find? fun item => item.vmUuid = vmUuid with
          | none => s.directories
          | some pItem =>
              (s.modifyItems i fun items =>
                (items.eraseP fun item => item.vmUuid = vmUuid) ++ [pItem]).directories

theorem mutate_unsaved (s : CVmDirectories) (m : Mutator) :
    ∃ code, code.failed = true ∧
      mutate xml false s m = (code, { s with directories := leftBehind xml s m }) := by
  cases m with
  | addNewVmDirectory pVmDir =>
      cases pVmDir with
      | none => exact ⟨_, rfl, rfl⟩
      | some d =>
          rw [mutate, addNewVmDirectory, leftBehind]
          split
          · exact ⟨_, rfl, rfl⟩
          · rw [xml.addVmDirectory_eq]
            exact ⟨_, rfl, rfl⟩
  | addVmDirItem dirUuid pVmDirItem =>
      cases pVmDirItem with
      | none => exact ⟨_, rfl, rfl⟩
      | some item =>
          rw [mutate, addVmDirItem, leftBehind]
          split
          · exact ⟨_, rfl, rfl⟩
          · rename_i i d hget
            split
            · exact ⟨_, rfl, rfl⟩
            · rename_i hnew
              have hfresh : item ∉ d.items := fun hmem => hnew ⟨item, hmem, rfl⟩
              have hback : (xml.addVmDirectoryItem d.items item).erase item = d.items := by
                rw [xml.addVmDirectoryItem_eq, List.erase_append_right _ hfresh]
                simp
              have hsame := (directories_modifyItems (getElem?_of_getVmDirectory hget)
                fun items => (xml.addVmDirectoryItem items item).erase item).mpr hback
              refine ⟨.saveVmCatalog, rfl, ?_⟩
              simp only [saveVmDirCatalogue, Bool.false_eq_true, if_false, modifyItems_modifyItems]
              rw [if_pos (by rfl), ← hsame]
              rfl
  | deleteVmDirItem dirUuid vmUuid =>
      rw [mutate, deleteVmDirItem, leftBehind]
      cases hget : s.getVmDirectory xml dirUuid with
      | none => exact ⟨_, rfl, rfl⟩
      | some found =>
          obtain ⟨i, d⟩ := found
          cases hfind : d.items.find? fun item => item.vmUuid = vmUuid with
          | none =>
              simp only [hfind]
              exact ⟨_, rfl, rfl⟩
          | some item =>
              refine ⟨.saveVmCatalog, rfl, ?_⟩
              simp only [hfind, xml.addVmDirectoryItem_eq, saveVmDirCatalogue, Bool.false_eq_true,
                if_false, modifyItems_modifyItems]
              rfl

theorem leftBehind_eq_iff (s : CVmDirectories) (m : Mutator) :
    leftBehind xml s m = s.directories ↔ TakesBack xml false s m := by
  cases m with
  | addNewVmDirectory pVmDir =>
      cases pVmDir with
      | none => simp [leftBehind, TakesBack]
      | some d =>
          by_cases hexists : (s.getVmDirectory xml d.uuid).isSome
          · simp [leftBehind, TakesBack, hexists]
          · simp [leftBehind, TakesBack, hexists]
  | addVmDirItem dirUuid pVmDirItem => simp [leftBehind, TakesBack]
  | deleteVmDirItem dirUuid vmUuid =>
      cases hget : s.getVmDirectory xml dirUuid with
      | none => simp [leftBehind, TakesBack, hget]
      | some found =>
          obtain ⟨i, d⟩ := found
          have hcondition : TakesBack xml false s (.deleteVmDirItem dirUuid vmUuid) ↔
              LastOfDirectory d.items vmUuid := by
            simp [TakesBack, hget]
          rw [hcondition]
          cases hfind : d.items.find? fun item => item.vmUuid = vmUuid with
          | none =>
              simp only [leftBehind, hget, hfind, true_iff]
              intro item after hdrop
              have hnone : d.items.dropWhile (fun x => x.vmUuid ≠ vmUuid) = [] := by
                rw [List.dropWhile_eq_nil_iff]
                intro x hx
                simpa using List.find?_eq_none.mp hfind x hx
              rw [hnone] at hdrop
              cases hdrop
          | some item =>
              obtain ⟨before, after, hsplit, herase, hdrop⟩ := exists_first hfind
              simp only [leftBehind, hget, hfind]
              rw [directories_modifyItems (getElem?_of_getVmDirectory hget), herase, hsplit,
                List.append_assoc, List.append_right_inj, eq_comm, cons_eq_append_singleton]
              have hbehind : d.items.dropWhile (fun x => x.vmUuid ≠ vmUuid) = item :: after := by
                simpa using hdrop
              rw [hsplit] at hbehind
              constructor
              · intro hcopies x rest hx
                rw [hbehind] at hx
                cases hx
                exact hcopies
              · intro hlast
                exact hlast item after hbehind

/-- A mutator that returns an error leaves the directories, and with them the
agreement with the file, as they were exactly when it can take its change back. -/
theorem mutate_error_keeps_iff (saveToFile : Bool) (s : CVmDirectories) (m : Mutator) :
    ((mutate xml saveToFile s m).1.failed = true →
      (mutate xml saveToFile s m).2.directories = s.directories ∧
      (Agrees s → Agrees (mutate xml saveToFile s m).2)) ↔
    TakesBack xml saveToFile s m := by
  cases saveToFile with
  | true =>
      have hright : TakesBack xml true s m := by
        cases m with
        | addNewVmDirectory pVmDir => exact .inl rfl
        | addVmDirItem dirUuid pVmDirItem => trivial
        | deleteVmDirItem dirUuid vmUuid => exact .inl rfl
      refine iff_of_true ?_ hright
      intro hfailed
      rcases mutate_saved s m with hsuccess | hsame
      · rw [hsuccess] at hfailed
        cases hfailed
      · rw [hsame]
        exact ⟨rfl, id⟩
  | false =>
      obtain ⟨code, hfailed, hmutate⟩ := mutate_unsaved s m
      rw [hmutate, ← leftBehind_eq_iff]
      constructor
      · intro hkeeps
        exact (hkeeps hfailed).1
      · intro hsame _
        refine ⟨hsame, ?_⟩
        unfold Agrees persistent
        rw [hsame]
        exact id

end Mutators

section Cases

/-- One directory with two VMs, as it is saved. -/
def twoVms : CVmDirectories :=
  ⟨[⟨"dir", [⟨"a", "A", "/a"⟩, ⟨"b", "B", "/b"⟩], []⟩], [],
    [("dir", [⟨"a", "A", "/a"⟩, ⟨"b", "B", "/b"⟩])]⟩

/-- A directory whose save fails stays in memory, and a VM whose deletion cannot be
saved comes back behind the others. -/
theorem mutate_error_changes_directories :
    Agrees twoVms ∧
    ∀ m ∈ [.addNewVmDirectory (some ⟨"new", [], []⟩), .deleteVmDirItem "dir" "a"],
      (mutate firstXml false twoVms m).1.failed = true ∧
      (mutate firstXml false twoVms m).2.directories ≠ twoVms.directories ∧
      ¬ Agrees (mutate firstXml false twoVms m).2 := by
  decide

end Cases

end DispService.Directory
