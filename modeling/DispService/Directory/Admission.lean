import DispService.Directory.Catalogue
import DispService.Lib.Run

/-! No two temporary entries that were admitted for new VMs share a key. Only the
admitting operation compares all keys; the others add entries that are not counted,
or remove entries. -/
namespace DispService.Directory

open DispService.Lib CVmDirectories

/-- The keys of a VM in a directory. -/
structure VmKeys where
  vmUuid : String
  vmName : String
  home : String
  deriving DecidableEq, Repr

def CVmDirectoryItem.keys (item : CVmDirectoryItem) : VmKeys :=
  ⟨item.vmUuid, item.vmName, item.vmHome⟩

def TemporaryCatalogueItem.keys (item : TemporaryCatalogueItem) : VmKeys :=
  ⟨item.vmUuid, item.vmName, item.vmXmlPath⟩

section Clashes

variable (isPathsEqual : String → String → Bool)

def SamePath (p q : String) : Prop :=
  p = q ∨ isPathsEqual p q = true

/-- One of the keys is given on both sides and is the same. -/
def Clashes (a b : VmKeys) : Prop :=
  (a.vmUuid ≠ "" ∧ a.vmUuid = b.vmUuid) ∨ (a.vmName ≠ "" ∧ a.vmName = b.vmName) ∨
    (a.home ≠ "" ∧ b.home ≠ "" ∧ SamePath isPathsEqual a.home b.home)

/-- The keys are those of no item and of no temporary entry. -/
def Free (d : CVmDirectory) (keys : VmKeys) : Prop :=
  (∀ item ∈ d.items, ¬ Clashes isPathsEqual keys item.keys) ∧
    ∀ entry ∈ d.temporaryCatalogue, ¬ Clashes isPathsEqual keys entry.item.keys

/-- The entries admitted by `checkAndLockNotExists` are pairwise without a clash. -/
def Apart (entries : List TemporaryEntry) : Prop :=
  (entries.filter TemporaryEntry.admitted).Pairwise fun a b =>
    ¬ Clashes isPathsEqual a.item.keys b.item.keys ∧
      ¬ Clashes isPathsEqual b.item.keys a.item.keys

def AllApart (s : CVmDirectories) : Prop :=
  ∀ d ∈ s.directories, Apart isPathsEqual d.temporaryCatalogue

variable {isPathsEqual}

theorem Clashes.symm (hsymm : ∀ p q, isPathsEqual p q = isPathsEqual q p) {a b : VmKeys}
    (h : Clashes isPathsEqual a b) : Clashes isPathsEqual b a := by
  rcases h with ⟨hne, heq⟩ | ⟨hne, heq⟩ | ⟨ha, hb, hpath⟩
  · exact .inl ⟨heq ▸ hne, heq.symm⟩
  · exact .inr (.inl ⟨heq ▸ hne, heq.symm⟩)
  · refine .inr (.inr ⟨hb, ha, ?_⟩)
    rcases hpath with heq | hequal
    · exact .inl heq.symm
    · exact .inr ((hsymm _ _).trans hequal)

theorem isPathsEqual_of_samePath (hrefl : ∀ p, isPathsEqual p p = true) {p q : String}
    (h : SamePath isPathsEqual p q) : isPathsEqual p q = true := by
  rcases h with rfl | hequal
  · exact hrefl p
  · exact hequal

/-- An item that causes no error clashes with nothing. -/
theorem not_clashes_of_itemErrors (hrefl : ∀ p, isPathsEqual p p = true)
    (hsymm : ∀ p q, isPathsEqual p q = isPathsEqual q p) {lockItem : TemporaryCatalogueItem}
    {item : CVmDirectoryItem} (h : itemErrors isPathsEqual lockItem item = []) :
    ¬ Clashes isPathsEqual lockItem.keys item.keys := by
  unfold itemErrors at h
  rw [List.append_eq_nil_iff, List.append_eq_nil_iff] at h
  obtain ⟨⟨huuid, hname⟩, hpath⟩ := h
  rintro (⟨hne, heq⟩ | ⟨hne, heq⟩ | ⟨hne, hhome, hsame⟩)
  · rw [if_pos ⟨hne, heq⟩] at huuid
    cases huuid
  · rw [if_pos ⟨hne, heq.symm⟩] at hname
    cases hname
  · rw [if_pos ⟨hne, hhome, (hsymm _ _).trans (isPathsEqual_of_samePath hrefl hsame)⟩] at hpath
    cases hpath

theorem checkItems_eq_nil {collect : Bool} {lockItem : TemporaryCatalogueItem}
    {errorList : List PrlResult} {items : List CVmDirectoryItem}
    (h : checkItems isPathsEqual collect lockItem errorList items = []) :
    errorList = [] ∧ ∀ item ∈ items, itemErrors isPathsEqual lockItem item = [] := by
  induction items generalizing errorList with
  | nil => exact ⟨h, fun item hitem => absurd hitem List.not_mem_nil⟩
  | cons item items ih =>
      rw [checkItems] at h
      split at h
      · cases h
      · split at h
        · rename_i herrors
          exact absurd h herrors.2
        · obtain ⟨hnil, hrest⟩ := ih h
          rw [List.append_eq_nil_iff] at hnil
          exact ⟨hnil.1, List.forall_mem_cons.mpr ⟨hnil.2, hrest⟩⟩

theorem not_clashes_of_isLocked (hrefl : ∀ p, isPathsEqual p p = true)
    {lockItem item : TemporaryCatalogueItem} (h : isLocked isPathsEqual lockItem item = false) :
    ¬ Clashes isPathsEqual lockItem.keys item.keys := by
  unfold isLocked at h
  rw [decide_eq_false_iff_not] at h
  rintro (⟨hne, heq⟩ | ⟨hne, heq⟩ | ⟨hne, _, hsame⟩)
  · exact h (.inl ⟨hne, heq⟩)
  · exact h (.inr (.inr ⟨hne, heq⟩))
  · exact h (.inr (.inl ⟨hne, isPathsEqual_of_samePath hrefl hsame⟩))

theorem Apart.sublist {entries entries' : List TemporaryEntry}
    (apart : Apart isPathsEqual entries) (h : entries'.Sublist entries) :
    Apart isPathsEqual entries' :=
  List.Pairwise.sublist (h.filter _) apart

theorem Apart.push_admitted (hsymm : ∀ p q, isPathsEqual p q = isPathsEqual q p)
    {entries : List TemporaryEntry} (apart : Apart isPathsEqual entries)
    {item : TemporaryCatalogueItem}
    (free : ∀ entry ∈ entries, ¬ Clashes isPathsEqual item.keys entry.item.keys) :
    Apart isPathsEqual (entries ++ [⟨item, true⟩]) := by
  unfold Apart
  rw [List.filter_append, List.pairwise_append]
  refine ⟨apart, List.pairwise_singleton _ _, ?_⟩
  intro entry hentry new hnew
  obtain rfl : new = ⟨item, true⟩ := by simpa using hnew
  have hnot := free entry (List.mem_filter.mp hentry).1
  exact ⟨fun h => hnot (h.symm hsymm), hnot⟩

theorem Apart.push_other {entries : List TemporaryEntry} (apart : Apart isPathsEqual entries)
    (item : TemporaryCatalogueItem) : Apart isPathsEqual (entries ++ [⟨item, false⟩]) := by
  have hfilter : (entries ++ [TemporaryEntry.mk item false]).filter TemporaryEntry.admitted =
      entries.filter TemporaryEntry.admitted := by
    simp [List.filter_append]
  rw [Apart, hfilter]
  exact apart

end Clashes

section Operations

variable {xml : XmlModel} {isPathsEqual : String → String → Bool} {s : CVmDirectories}

theorem AllApart.modifyDirectory (apart : AllApart isPathsEqual s) {i : Nat} {d : CVmDirectory}
    (hd : s.directories[i]? = some d) {f : CVmDirectory → CVmDirectory}
    (hf : Apart isPathsEqual (f d).temporaryCatalogue) :
    AllApart isPathsEqual (s.modifyDirectory i f) := by
  intro d' hd'
  obtain ⟨j, hj⟩ := List.mem_iff_getElem?.mp hd'
  rw [getElem?_modifyDirectory] at hj
  obtain ⟨e, he, rfl⟩ := Option.map_eq_some_iff.mp hj
  by_cases hij : i = j
  · rw [hij, he] at hd
    cases hd
    rw [if_pos hij]
    exact hf
  · rw [if_neg hij]
    exact apart e (List.mem_of_getElem? he)

/-- A lock for a new VM is refused without a change, or it finds the keys free. -/
theorem checkAndLock_cases (xml : XmlModel) (hrefl : ∀ p, isPathsEqual p p = true)
    (hsymm : ∀ p q, isPathsEqual p q = isPathsEqual q p) (collect : Bool) (s : CVmDirectories)
    (dirUuid : String) (lockItem : TemporaryCatalogueItem) :
    (∃ error errorList, checkAndLockNotExistsExclusiveVmParameters xml isPathsEqual collect s dirUuid
      lockItem = (error :: errorList, s)) ∨
    ∃ i d, s.getVmDirectory xml dirUuid = some (i, d) ∧ Free isPathsEqual d lockItem.keys ∧
      checkAndLockNotExistsExclusiveVmParameters xml isPathsEqual collect s dirUuid lockItem =
        ([], s.pushTemporary i ⟨lockItem, true⟩) := by
  unfold checkAndLockNotExistsExclusiveVmParameters
  cases hget : s.getVmDirectory xml dirUuid with
  | none => exact .inl ⟨_, _, rfl⟩
  | some found =>
      obtain ⟨i, d⟩ := found
      cases hcheck : checkItems isPathsEqual collect lockItem [] d.items with
      | cons error errorList =>
          simp only [hcheck]
          exact .inl ⟨_, _, rfl⟩
      | nil =>
          simp only [hcheck]
          split
          · exact .inl ⟨_, _, rfl⟩
          · rename_i hlocked
            refine .inr ⟨i, d, rfl, ⟨?_, ?_⟩, rfl⟩
            · intro item hitem
              exact not_clashes_of_itemErrors hrefl hsymm ((checkItems_eq_nil hcheck).2 item hitem)
            · intro entry hentry
              refine not_clashes_of_isLocked hrefl ?_
              rw [List.any_eq_true, not_exists] at hlocked
              exact Bool.eq_false_iff.mpr fun h => hlocked entry ⟨hentry, h⟩

theorem AllApart.unlock (apart : AllApart isPathsEqual s) (dirUuid : String)
    (lockItem : TemporaryCatalogueItem) :
    AllApart isPathsEqual (unlockExclusiveVmParameters xml s dirUuid lockItem) := by
  unfold unlockExclusiveVmParameters
  cases hget : s.getVmDirectory xml dirUuid with
  | none => exact apart
  | some found =>
      obtain ⟨i, d⟩ := found
      have hd := getElem?_of_getVmDirectory hget
      refine apart.modifyDirectory hd ?_
      exact (apart d (List.mem_of_getElem? hd)).sublist List.eraseP_sublist

theorem AllApart.unlockInAll (apart : AllApart isPathsEqual s)
    (lockItem : TemporaryCatalogueItem) :
    AllApart isPathsEqual (CVmDirectories.unlockInAll xml s lockItem) := by
  unfold CVmDirectories.unlockInAll
  generalize s.directories = ds
  induction ds generalizing s with
  | nil => exact apart
  | cons d ds ih => exact ih (apart.unlock d.uuid lockItem)

theorem AllApart.push_other (apart : AllApart isPathsEqual s) {dirUuid : String} {i : Nat}
    {d : CVmDirectory} (hget : s.getVmDirectory xml dirUuid = some (i, d))
    (lockItem : TemporaryCatalogueItem) :
    AllApart isPathsEqual (s.pushTemporary i ⟨lockItem, false⟩) := by
  have hd := getElem?_of_getVmDirectory hget
  exact apart.modifyDirectory hd ((apart d (List.mem_of_getElem? hd)).push_other lockItem)

theorem AllApart.checkAndLock (xml : XmlModel) (hrefl : ∀ p, isPathsEqual p p = true)
    (hsymm : ∀ p q, isPathsEqual p q = isPathsEqual q p) (apart : AllApart isPathsEqual s)
    (collect : Bool) (dirUuid : String) (lockItem : TemporaryCatalogueItem) :
    AllApart isPathsEqual (checkAndLockNotExistsExclusiveVmParameters xml isPathsEqual collect s
      dirUuid lockItem).2 := by
  rcases checkAndLock_cases xml hrefl hsymm collect s dirUuid lockItem with
    ⟨error, errorList, hrefused⟩ | ⟨i, d, hget, hfree, hadmitted⟩
  · rw [hrefused]
    exact apart
  · rw [hadmitted]
    have hd := getElem?_of_getVmDirectory hget
    refine apart.modifyDirectory hd ?_
    exact (apart d (List.mem_of_getElem? hd)).push_admitted hsymm hfree.2

theorem AllApart.checkAndLockLoop (hrefl : ∀ p, isPathsEqual p p = true)
    (hsymm : ∀ p q, isPathsEqual p q = isPathsEqual q p) (apart : AllApart isPathsEqual s)
    (collect : Bool) (lstDirUuid : List String) (lockItem : TemporaryCatalogueItem)
    (ds : List CVmDirectory) :
    AllApart isPathsEqual (CVmDirectories.checkAndLockLoop xml isPathsEqual collect lstDirUuid
      lockItem ds s).2 := by
  induction ds generalizing s with
  | nil => exact apart
  | cons d ds ih =>
      rw [CVmDirectories.checkAndLockLoop]
      split
      · exact ih apart
      · have hnext := apart.checkAndLock xml hrefl hsymm collect d.uuid lockItem
        split
        · rename_i hlock
          rw [hlock] at hnext
          exact ih hnext
        · rename_i hlock
          rw [hlock] at hnext
          exact hnext.unlockInAll lockItem

/-- `s'` has the items of `s` and at least its temporary entries. -/
structure Grown (s s' : CVmDirectories) : Prop where
  uuids : s'.directories.map CVmDirectory.uuid = s.directories.map CVmDirectory.uuid
  kept : ∀ (i : Nat) (d' : CVmDirectory), s'.directories[i]? = some d' →
    ∃ d, s.directories[i]? = some d ∧ d.items = d'.items ∧
      ∀ entry ∈ d.temporaryCatalogue, entry ∈ d'.temporaryCatalogue

theorem Grown.refl (s : CVmDirectories) : Grown s s :=
  ⟨rfl, fun _ d' h => ⟨d', h, rfl, fun _ hentry => hentry⟩⟩

theorem Grown.pushTemporary {s' : CVmDirectories} (grown : Grown s s') (i : Nat)
    (entry : TemporaryEntry) : Grown s (s'.pushTemporary i entry) := by
  constructor
  case uuids =>
    rw [← grown.uuids]
    apply List.ext_getElem?
    intro j
    rw [List.getElem?_map, List.getElem?_map, CVmDirectories.pushTemporary,
      getElem?_modifyDirectory, Option.map_map]
    congr 1
    funext d
    by_cases hij : i = j
    · simp [hij]
    · simp [hij]
  case kept =>
    intro j d' hd'
    rw [CVmDirectories.pushTemporary, getElem?_modifyDirectory] at hd'
    obtain ⟨e, he, rfl⟩ := Option.map_eq_some_iff.mp hd'
    obtain ⟨d, hd, hitems, hentries⟩ := grown.kept j e he
    refine ⟨d, hd, ?_, ?_⟩
    · by_cases hij : i = j
      · simp [hij, hitems]
      · simp [hij, hitems]
    · intro old hold
      by_cases hij : i = j
      · simp [hij, hentries old hold]
      · simp [hij, hentries old hold]

/-- Keys that are free now were free before. -/
theorem Grown.free {s' : CVmDirectories} (grown : Grown s s') {dirUuid : String} {i : Nat}
    {d' : CVmDirectory} {keys : VmKeys} (hget : s'.getVmDirectory xml dirUuid = some (i, d'))
    (hfree : Free isPathsEqual d' keys) :
    ∃ d, s.getVmDirectory xml dirUuid = some (i, d) ∧ Free isPathsEqual d keys := by
  obtain ⟨d, hd, hitems, hentries⟩ := grown.kept i d' (getElem?_of_getVmDirectory hget)
  refine ⟨d, ?_, ?_, fun entry hentry => hfree.2 entry (hentries entry hentry)⟩
  · rw [getVmDirectory_eq_some, ← grown.uuids]
    exact ⟨(getVmDirectory_eq_some.mp hget).1, hd⟩
  · rw [hitems]
    exact hfree.1

/-- When the loop ends without an error, the keys were free in every directory that it
visited. -/
theorem checkAndLockLoop_free (hrefl : ∀ p, isPathsEqual p p = true)
    (hsymm : ∀ p q, isPathsEqual p q = isPathsEqual q p) {collect : Bool}
    {lstDirUuid : List String} {lockItem : TemporaryCatalogueItem} {ds : List CVmDirectory}
    {s' : CVmDirectories} (grown : Grown s s')
    (h : (checkAndLockLoop xml isPathsEqual collect lstDirUuid lockItem ds s').1 = []) :
    ∀ d ∈ ds, lstDirUuid = [] ∨ d.uuid ∈ lstDirUuid →
      ∃ i e, s.getVmDirectory xml d.uuid = some (i, e) ∧ Free isPathsEqual e lockItem.keys := by
  induction ds generalizing s' with
  | nil =>
      intro d hd
      cases hd
  | cons d ds ih =>
      rw [checkAndLockLoop] at h
      rw [List.forall_mem_cons]
      by_cases hskip : lstDirUuid ≠ [] ∧ d.uuid ∉ lstDirUuid
      · rw [if_pos hskip] at h
        refine ⟨?_, ih grown h⟩
        rintro (hnil | hmem)
        · exact absurd hnil hskip.1
        · exact absurd hmem hskip.2
      · rw [if_neg hskip] at h
        rcases checkAndLock_cases xml hrefl hsymm collect s' d.uuid lockItem with
          ⟨error, errorList, hrefused⟩ | ⟨i, d', hget, hfree, hadmitted⟩
        · rw [hrefused] at h
          cases h
        · rw [hadmitted] at h
          refine ⟨fun _ => ?_, ih (grown.pushTemporary i _) h⟩
          obtain ⟨e, he, hfree'⟩ := grown.free hget hfree
          exact ⟨i, e, he, hfree'⟩

end Operations

section Runs

variable (xml : XmlModel) (isPathsEqual : String → String → Bool)

inductive Request where
  | checkAndLockNotExists (collect : Bool) (dirUuid : String) (lockItem : TemporaryCatalogueItem)
  | checkAndLockNotExistsIn (collect : Bool) (lstDirUuid : List String)
      (lockItem : TemporaryCatalogueItem)
  | lockExisting (dirUuid : String) (lockItem : TemporaryCatalogueItem)
  | lockExclusive (dirUuid : String) (lockItem : TemporaryCatalogueItem)
  | unlock (dirUuid : String) (lockItem : TemporaryCatalogueItem)
  | unlockInAll (lockItem : TemporaryCatalogueItem)
  | addVmDirItem (saveToFile : Bool) (dirUuid : String) (pVmDirItem : Option CVmDirectoryItem)
  | deleteVmDirItem (saveToFile : Bool) (dirUuid vmUuid : String)

def perform (s : CVmDirectories) : Request → CVmDirectories
  | .checkAndLockNotExists collect dirUuid lockItem =>
      (checkAndLockNotExistsExclusiveVmParameters xml isPathsEqual collect s dirUuid lockItem).2
  | .checkAndLockNotExistsIn collect lstDirUuid lockItem =>
      (checkAndLockInList xml isPathsEqual collect s lstDirUuid lockItem).2
  | .lockExisting dirUuid lockItem => (lockExistingExclusiveVmParameters xml s dirUuid lockItem).2
  | .lockExclusive dirUuid lockItem => (lockExclusiveVmParameters xml s dirUuid lockItem).2
  | .unlock dirUuid lockItem => unlockExclusiveVmParameters xml s dirUuid lockItem
  | .unlockInAll lockItem => CVmDirectories.unlockInAll xml s lockItem
  | .addVmDirItem saveToFile dirUuid pVmDirItem =>
      (CVmDirectories.addVmDirItem xml saveToFile s dirUuid pVmDirItem).2
  | .deleteVmDirItem saveToFile dirUuid vmUuid =>
      (CVmDirectories.deleteVmDirItem xml saveToFile s dirUuid vmUuid).2

variable {xml isPathsEqual} {s : CVmDirectories}

theorem AllApart.modifyItems (apart : AllApart isPathsEqual s) (i : Nat)
    (f : List CVmDirectoryItem → List CVmDirectoryItem) :
    AllApart isPathsEqual (s.modifyItems i f) := by
  intro d' hd'
  obtain ⟨j, hj⟩ := List.mem_iff_getElem?.mp hd'
  rw [CVmDirectories.modifyItems, getElem?_modifyDirectory] at hj
  obtain ⟨d, hd, rfl⟩ := Option.map_eq_some_iff.mp hj
  have hapart := apart d (List.mem_of_getElem? hd)
  by_cases hij : i = j
  · simpa [hij] using hapart
  · simpa [hij] using hapart

theorem AllApart.save (apart : AllApart isPathsEqual s) (saveToFile : Bool) :
    AllApart isPathsEqual (saveVmDirCatalogue saveToFile s).2 := by
  unfold AllApart
  rw [directories_saveVmDirCatalogue]
  exact apart

theorem AllApart.addVmDirItem (apart : AllApart isPathsEqual s) (saveToFile : Bool)
    (dirUuid : String) (pVmDirItem : Option CVmDirectoryItem) :
    AllApart isPathsEqual (CVmDirectories.addVmDirItem xml saveToFile s dirUuid pVmDirItem).2 := by
  cases pVmDirItem with
  | none => exact apart
  | some item =>
      unfold CVmDirectories.addVmDirItem
      cases hget : s.getVmDirectory xml dirUuid with
      | none => exact apart
      | some found =>
          dsimp only
          split
          · exact apart
          · have hsaved := (apart.modifyItems found.1 fun items =>
              xml.addVmDirectoryItem items item).save saveToFile
            split
            · exact hsaved.modifyItems found.1 _
            · exact hsaved

theorem AllApart.deleteVmDirItem (apart : AllApart isPathsEqual s) (saveToFile : Bool)
    (dirUuid vmUuid : String) :
    AllApart isPathsEqual (CVmDirectories.deleteVmDirItem xml saveToFile s dirUuid vmUuid).2 := by
  unfold CVmDirectories.deleteVmDirItem
  cases hget : s.getVmDirectory xml dirUuid with
  | none => exact apart
  | some found =>
      dsimp only
      split
      · exact apart
      · have hsaved := (apart.modifyItems found.1 fun items =>
          items.eraseP fun item => item.vmUuid = vmUuid).save saveToFile
        split
        · exact hsaved.modifyItems found.1 _
        · exact hsaved

theorem allApart_step (hrefl : ∀ p, isPathsEqual p p = true)
    (hsymm : ∀ p q, isPathsEqual p q = isPathsEqual q p) (s : CVmDirectories) (request : Request)
    (t : CVmDirectories) (apart : AllApart isPathsEqual s)
    (step : Graph (perform xml isPathsEqual) s request t) : AllApart isPathsEqual t := by
  unfold Lib.Graph at step
  subst step
  cases request with
  | checkAndLockNotExists collect dirUuid lockItem =>
      exact apart.checkAndLock xml hrefl hsymm collect dirUuid lockItem
  | checkAndLockNotExistsIn collect lstDirUuid lockItem =>
      exact apart.checkAndLockLoop hrefl hsymm collect lstDirUuid lockItem s.directories
  | lockExisting dirUuid lockItem =>
      unfold perform lockExistingExclusiveVmParameters
      dsimp only
      split
      · exact apart
      · rename_i hget
        split
        · exact apart
        · split
          · exact apart
          · exact apart.push_other hget lockItem
  | lockExclusive dirUuid lockItem =>
      unfold perform lockExclusiveVmParameters
      dsimp only
      split
      · exact apart
      · rename_i hget
        split
        · exact apart
        · exact apart.push_other hget lockItem
  | unlock dirUuid lockItem => exact apart.unlock dirUuid lockItem
  | unlockInAll lockItem => exact apart.unlockInAll lockItem
  | addVmDirItem saveToFile dirUuid pVmDirItem =>
      exact apart.addVmDirItem saveToFile dirUuid pVmDirItem
  | deleteVmDirItem saveToFile dirUuid vmUuid =>
      exact apart.deleteVmDirItem saveToFile dirUuid vmUuid

/-- A loaded catalogue has no temporary entries. -/
def Loaded (s : CVmDirectories) : Prop :=
  ∀ d ∈ s.directories, d.temporaryCatalogue = []

/-- In every state of every run the admitted entries of a directory share no key, and
a lock for a new VM succeeds only on free keys, in one directory or in a list of
them. -/
theorem admitted_apart_of_run (hrefl : ∀ p, isPathsEqual p p = true)
    (hsymm : ∀ p q, isPathsEqual p q = isPathsEqual q p) {s₀ : CVmDirectories}
    (loaded : Loaded s₀) {requests : List Request}
    (run : Run (Graph (perform xml isPathsEqual)) s₀ requests s) :
    AllApart isPathsEqual s ∧
    (∀ collect dirUuid lockItem,
      (checkAndLockNotExistsExclusiveVmParameters xml isPathsEqual collect s dirUuid
        lockItem).1 = [] →
      ∃ i d, s.getVmDirectory xml dirUuid = some (i, d) ∧ Free isPathsEqual d lockItem.keys) ∧
    ∀ collect lstDirUuid lockItem,
      (checkAndLockInList xml isPathsEqual collect s lstDirUuid lockItem).1 = [] →
      ∀ d ∈ s.directories, lstDirUuid = [] ∨ d.uuid ∈ lstDirUuid →
        ∃ i e, s.getVmDirectory xml d.uuid = some (i, e) ∧ Free isPathsEqual e lockItem.keys := by
  refine ⟨?_, ?_, ?_⟩
  · refine run.preserves (allApart_step hrefl hsymm) ?_
    intro d hd
    rw [loaded d hd]
    exact List.Pairwise.nil
  · intro collect dirUuid lockItem hsuccess
    rcases checkAndLock_cases xml hrefl hsymm collect s dirUuid lockItem with
      ⟨error, errorList, hrefused⟩ | ⟨i, d, hget, hfree, _⟩
    · rw [hrefused] at hsuccess
      cases hsuccess
    · exact ⟨i, d, hget, hfree⟩
  · intro collect lstDirUuid lockItem hsuccess
    exact checkAndLockLoop_free hrefl hsymm (Grown.refl s) hsuccess

/-- Two VMs are being added to one directory; the third has the name of the first. -/
theorem admitted_apart_of_two :
    let a : TemporaryCatalogueItem := ⟨"a", "/a", "A", "1"⟩
    let b : TemporaryCatalogueItem := ⟨"b", "/b", "B", "2"⟩
    let s := perform firstXml (· == ·) (perform firstXml (· == ·) ⟨[⟨"dir", [], []⟩], [], []⟩
      (.checkAndLockNotExists false "dir" a)) (.checkAndLockNotExistsIn true [] b)
    s.directories = [⟨"dir", [], [⟨a, true⟩, ⟨b, true⟩]⟩] ∧ AllApart (· == ·) s := by
  intro a b s
  refine ⟨by decide, ?_⟩
  have loaded : Loaded ⟨[⟨"dir", [], []⟩], [], []⟩ := by
    intro d hd
    rw [List.mem_singleton.mp hd]
  have hsymm : ∀ p q : String, (p == q) = (q == p) := fun p q => BEq.comm
  exact (admitted_apart_of_run (by simp) hsymm loaded (.cons rfl (.cons rfl (.nil s)))).1

end Runs

end DispService.Directory
