import DispService.Directory.Catalogue
import Mathlib.Data.List.Nodup

/-! The lock of a new VM in a list of directories: it holds in all of them or, where the id of the
item is not used yet, in none. -/
namespace DispService.Directory

open CVmDirectories

/-- What is relied on in the search of the XML model. -/
structure XmlModel.Finds (xml : XmlModel) : Prop where
  found : ∀ uuids uuid i, xml.getVmDirectoryByUuid uuids uuid = some i → uuids[i]? = some uuid
  finds : ∀ uuids uuid, uuid ∈ uuids → ∃ i, xml.getVmDirectoryByUuid uuids uuid = some i

theorem firstXml_finds : firstXml.Finds := by
  constructor
  case found =>
    intro uuids uuid i h
    obtain ⟨hlt, heq, _⟩ := List.findIdx?_eq_some_iff_getElem.mp h
    simpa [List.getElem?_eq_getElem hlt] using heq
  case finds =>
    intro uuids uuid h
    have hsome : (uuids.findIdx? fun u => u = uuid).isSome := by
      rw [List.findIdx?_isSome, List.any_eq_true]
      exact ⟨uuid, h, by simp⟩
    exact Option.isSome_iff_exists.mp hsome

/-- The item's id is the id of no temporary entry. -/
def CVmDirectory.Unused (d : CVmDirectory) (lockItem : TemporaryCatalogueItem) : Prop :=
  ∀ entry ∈ d.temporaryCatalogue, entry.item.sItemId ≠ lockItem.sItemId

/-- The directories that the caller means. -/
def Listed (lstDirUuid : List String) (uuid : String) : Prop :=
  lstDirUuid = [] ∨ uuid ∈ lstDirUuid

instance (lstDirUuid : List String) (uuid : String) : Decidable (Listed lstDirUuid uuid) :=
  inferInstanceAs (Decidable (_ ∨ _))

def CVmDirectory.push (lockItem : TemporaryCatalogueItem) (d : CVmDirectory) : CVmDirectory :=
  { d with temporaryCatalogue := d.temporaryCatalogue ++ [⟨lockItem, true⟩] }

def CVmDirectory.unlock (lockItem : TemporaryCatalogueItem) (d : CVmDirectory) : CVmDirectory :=
  { d with temporaryCatalogue :=
      d.temporaryCatalogue.eraseP fun entry => entry.item.sItemId = lockItem.sItemId }

@[simp] theorem CVmDirectory.uuid_push (lockItem : TemporaryCatalogueItem) (d : CVmDirectory) :
    (d.push lockItem).uuid = d.uuid := rfl

theorem CVmDirectory.Unused.unlock {d : CVmDirectory} {lockItem : TemporaryCatalogueItem}
    (unused : d.Unused lockItem) : d.unlock lockItem = d := by
  unfold CVmDirectory.unlock
  rw [List.eraseP_of_forall_not fun entry hentry => by simpa using unused entry hentry]

theorem CVmDirectory.Unused.unlock_push {d : CVmDirectory} {lockItem : TemporaryCatalogueItem}
    (unused : d.Unused lockItem) : (d.push lockItem).unlock lockItem = d := by
  have herase : (d.temporaryCatalogue ++ [TemporaryEntry.mk lockItem true]).eraseP
      (fun entry => entry.item.sItemId = lockItem.sItemId) = d.temporaryCatalogue := by
    rw [List.eraseP_append_right _ fun entry hentry => by simpa using unused entry hentry]
    simp
  simp only [CVmDirectory.unlock, CVmDirectory.push, herase]

namespace CVmDirectories

/-- The same change in every directory whose uuid is chosen. -/
def inEach (s : CVmDirectories) (chosen : String → Bool) (f : CVmDirectory → CVmDirectory) :
    CVmDirectories :=
  { s with directories := s.directories.map fun d => if chosen d.uuid then f d else d }

/-- The item is locked in the chosen directories. -/
def lockedIn (s : CVmDirectories) (chosen : String → Bool) (lockItem : TemporaryCatalogueItem) :
    CVmDirectories :=
  s.inEach chosen (CVmDirectory.push lockItem)

/-- `unlockExclusiveVmParameters` in each of the directories. -/
def unlockEach (xml : XmlModel) (uuids : List String) (lockItem : TemporaryCatalogueItem)
    (s : CVmDirectories) : CVmDirectories :=
  uuids.foldl (fun s uuid => unlockExclusiveVmParameters xml s uuid lockItem) s

section Changes

variable {xml : XmlModel} {isPathsEqual : String → String → Bool} {s : CVmDirectories}
  {lockItem : TemporaryCatalogueItem}

theorem lockedIn_none : s.lockedIn (fun _ => false) lockItem = s := by
  simp [lockedIn, inEach]

theorem uuids_lockedIn (chosen : String → Bool) :
    (s.lockedIn chosen lockItem).directories.map CVmDirectory.uuid =
      s.directories.map CVmDirectory.uuid := by
  simp only [lockedIn, inEach, List.map_map]
  refine List.map_congr_left fun d _ => ?_
  by_cases hd : chosen d.uuid = true
  · simp [hd]
  · simp [hd]

theorem lockedIn_congr {p q : String → Bool} (same : ∀ d ∈ s.directories, p d.uuid = q d.uuid) :
    s.lockedIn p lockItem = s.lockedIn q lockItem := by
  unfold lockedIn inEach
  congr 1
  refine List.map_congr_left fun d hd => ?_
  rw [same d hd]

/-- A change at the position of a uuid is a change in the one directory that has it. -/
theorem modifyDirectory_eq (finds : xml.Finds)
    (distinct : (s.directories.map CVmDirectory.uuid).Nodup) {uuid : String} {i : Nat}
    {d : CVmDirectory} (hget : s.getVmDirectory xml uuid = some (i, d))
    (f : CVmDirectory → CVmDirectory) :
    s.modifyDirectory i f = s.inEach (fun u => u = uuid) f := by
  obtain ⟨hfound, hd⟩ := getVmDirectory_eq_some.mp hget
  have hi := finds.found _ _ _ hfound
  unfold modifyDirectory inEach
  congr 1
  apply List.ext_getElem?
  intro j
  rw [List.getElem?_modify, List.getElem?_map]
  cases hj : s.directories[j]? with
  | none => rfl
  | some e =>
      have hiff : i = j ↔ e.uuid = uuid := by
        constructor
        · rintro rfl
          rw [List.getElem?_map, hj] at hi
          exact Option.some.inj hi
        · intro heq
          have huuid : (s.directories.map CVmDirectory.uuid)[j]? = some uuid := by
            rw [List.getElem?_map, hj, Option.map_some, heq]
          have hlt := (List.getElem?_eq_some_iff.mp hi).1
          exact (List.getElem?_inj hlt distinct).mp (hi.trans huuid.symm)
      by_cases heq : e.uuid = uuid
      · simp [hiff.mpr heq, heq]
      · simp [mt hiff.mp heq, heq]

theorem exists_getVmDirectory (finds : xml.Finds) {uuid : String}
    (h : uuid ∈ s.directories.map CVmDirectory.uuid) :
    ∃ i d, s.getVmDirectory xml uuid = some (i, d) := by
  obtain ⟨i, hi⟩ := finds.finds _ _ h
  have hlt := (List.getElem?_eq_some_iff.mp (finds.found _ _ _ hi)).1
  rw [List.length_map] at hlt
  exact ⟨i, s.directories[i], getVmDirectory_eq_some.mpr ⟨hi, List.getElem?_eq_getElem hlt⟩⟩

theorem unlock_eq (finds : xml.Finds) (distinct : (s.directories.map CVmDirectory.uuid).Nodup)
    (uuid : String) : unlockExclusiveVmParameters xml s uuid lockItem =
      s.inEach (fun u => u = uuid) (CVmDirectory.unlock lockItem) := by
  unfold unlockExclusiveVmParameters
  cases hget : s.getVmDirectory xml uuid with
  | some found => exact modifyDirectory_eq finds distinct hget _
  | none =>
      have hout : ∀ d ∈ s.directories, d.uuid ≠ uuid := by
        intro d hd heq
        obtain ⟨i, e, hsome⟩ := exists_getVmDirectory finds (List.mem_map.mpr ⟨d, hd, heq⟩)
        rw [hget] at hsome
        cases hsome
      have hmap : (s.directories.map fun d =>
          if decide (d.uuid = uuid) = true then d.unlock lockItem else d) = s.directories := by
        refine (List.map_congr_left fun d hd => ?_).trans (List.map_id s.directories)
        simp [hout d hd]
      simp only [inEach, hmap]

/-- An unlock takes the item out of one more directory. -/
theorem unlock_lockedIn (finds : xml.Finds)
    (distinct : (s.directories.map CVmDirectory.uuid).Nodup) (chosen : String → Bool) {uuid : String}
    (unused : ∀ d ∈ s.directories, d.uuid = uuid → d.Unused lockItem) :
    unlockExclusiveVmParameters xml (s.lockedIn chosen lockItem) uuid lockItem =
      s.lockedIn (fun u => chosen u && u ≠ uuid) lockItem := by
  rw [unlock_eq finds (by rw [uuids_lockedIn]; exact distinct)]
  unfold lockedIn inEach
  rw [CVmDirectories.mk.injEq, List.map_map]
  refine ⟨List.map_congr_left fun d hd => ?_, rfl, rfl⟩
  by_cases hu : d.uuid = uuid
  · have hunused := unused d hd hu
    subst hu
    by_cases hchosen : chosen d.uuid = true
    · simpa [hchosen] using hunused.unlock_push
    · simpa [hchosen] using hunused.unlock
  · by_cases hchosen : chosen d.uuid = true
    · simp [hchosen, hu]
    · simp [hchosen, hu]

theorem unlockEach_lockedIn (finds : xml.Finds)
    (distinct : (s.directories.map CVmDirectory.uuid).Nodup) (chosen : String → Bool)
    {uuids : List String}
    (unused : ∀ d ∈ s.directories, d.uuid ∈ uuids → d.Unused lockItem) :
    unlockEach xml uuids lockItem (s.lockedIn chosen lockItem) =
      s.lockedIn (fun u => chosen u && u ∉ uuids) lockItem := by
  unfold unlockEach
  induction uuids generalizing chosen with
  | nil => simp
  | cons uuid uuids ih =>
      rw [List.foldl_cons, unlock_lockedIn finds distinct chosen fun d hd heq =>
        unused d hd (by simp [heq]), ih _ fun d hd hin => unused d hd (by simp [hin])]
      refine lockedIn_congr fun d _ => ?_
      simp [Bool.and_assoc]

theorem unlockInAll_eq (s : CVmDirectories) (lockItem : TemporaryCatalogueItem) :
    unlockInAll xml s lockItem =
      unlockEach xml (s.directories.map CVmDirectory.uuid) lockItem s := by
  unfold unlockInAll unlockEach
  rw [List.foldl_map]

/-- The rollback finds nothing else with the id of the item. -/
theorem unlockInAll_lockedIn (finds : xml.Finds)
    (distinct : (s.directories.map CVmDirectory.uuid).Nodup) (chosen : String → Bool)
    (unused : ∀ d ∈ s.directories, d.Unused lockItem) :
    unlockInAll xml (s.lockedIn chosen lockItem) lockItem = s := by
  rw [unlockInAll_eq, uuids_lockedIn,
    unlockEach_lockedIn finds distinct chosen fun d hd _ => unused d hd]
  refine (lockedIn_congr fun d hd => ?_).trans lockedIn_none
  simp [List.mem_map_of_mem hd]

variable (isPathsEqual lockItem) in
/-- One directory refuses the item without a change, or it takes it. -/
theorem checkAndLock_lockedIn (finds : xml.Finds)
    (distinct : (s.directories.map CVmDirectory.uuid).Nodup) (collect : Bool)
    (chosen : String → Bool) {uuid : String} (hnew : chosen uuid = false) :
    (∃ error errorList, checkAndLockNotExistsExclusiveVmParameters xml isPathsEqual collect
      (s.lockedIn chosen lockItem) uuid lockItem =
        (error :: errorList, s.lockedIn chosen lockItem)) ∨
    checkAndLockNotExistsExclusiveVmParameters xml isPathsEqual collect
      (s.lockedIn chosen lockItem) uuid lockItem =
        ([], s.lockedIn (fun u => chosen u || u = uuid) lockItem) := by
  unfold checkAndLockNotExistsExclusiveVmParameters
  cases hget : (s.lockedIn chosen lockItem).getVmDirectory xml uuid with
  | none => exact .inl ⟨_, _, rfl⟩
  | some found =>
      obtain ⟨i, d⟩ := found
      cases hcheck : checkItems isPathsEqual collect lockItem [] d.items with
      | cons error errorList =>
          simp only [hcheck]
          exact .inl ⟨_, _, rfl⟩
      | nil =>
          simp only [hcheck]
          split
          · exact .inl ⟨_, _, rfl⟩
          · refine .inr ?_
            have hpush : (s.lockedIn chosen lockItem).pushTemporary i ⟨lockItem, true⟩ =
                (s.lockedIn chosen lockItem).inEach (fun u => u = uuid)
                  (CVmDirectory.push lockItem) :=
              modifyDirectory_eq finds (by rw [uuids_lockedIn]; exact distinct) hget _
            rw [hpush, Prod.mk.injEq]
            refine ⟨rfl, ?_⟩
            unfold lockedIn inEach
            rw [CVmDirectories.mk.injEq, List.map_map]
            refine ⟨List.map_congr_left fun e _ => ?_, rfl, rfl⟩
            by_cases hu : e.uuid = uuid
            · simp [hu, hnew]
            · by_cases he : chosen e.uuid = true
              · simp [he, hu]
              · simp [he, hu]

variable (isPathsEqual lockItem) in
/-- The loop: the directories before a conflict are locked when the rollback starts. -/
theorem checkAndLockLoop_lockedIn (finds : xml.Finds)
    (distinct : (s.directories.map CVmDirectory.uuid).Nodup) (collect : Bool)
    (lstDirUuid : List String) (chosen : String → Bool) {ds : List CVmDirectory}
    (nodup : (ds.map CVmDirectory.uuid).Nodup) (hnew : ∀ d ∈ ds, chosen d.uuid = false) :
    (∃ error errorList chosen', checkAndLockLoop xml isPathsEqual collect lstDirUuid lockItem ds
      (s.lockedIn chosen lockItem) =
        (error :: errorList, unlockInAll xml (s.lockedIn chosen' lockItem) lockItem)) ∨
    checkAndLockLoop xml isPathsEqual collect lstDirUuid lockItem ds
      (s.lockedIn chosen lockItem) =
        ([], s.lockedIn (fun u => chosen u || (u ∈ ds.map CVmDirectory.uuid && Listed lstDirUuid u))
          lockItem) := by
  induction ds generalizing chosen with
  | nil =>
      refine .inr ?_
      simp [checkAndLockLoop]
  | cons d ds ih =>
      rw [List.map_cons, List.nodup_cons] at nodup
      rw [checkAndLockLoop]
      by_cases hskip : lstDirUuid ≠ [] ∧ d.uuid ∉ lstDirUuid
      · rw [if_pos hskip]
        have hlisted : ¬ Listed lstDirUuid d.uuid := by
          rintro (hnil | hmem)
          · exact hskip.1 hnil
          · exact hskip.2 hmem
        rcases ih chosen nodup.2 fun e he => hnew e (by simp [he]) with hfail | hok
        · exact .inl hfail
        · refine .inr (hok.trans ?_)
          congr 1
          refine lockedIn_congr fun e _ => ?_
          by_cases heq : e.uuid = d.uuid
          · simp [heq, hlisted]
          · simp [heq]
      · rw [if_neg hskip]
        have hlisted : Listed lstDirUuid d.uuid := by
          by_cases hnil : lstDirUuid = []
          · exact .inl hnil
          · exact .inr (not_not.mp fun hmem => hskip ⟨hnil, hmem⟩)
        rcases checkAndLock_lockedIn isPathsEqual lockItem finds distinct collect chosen
          (hnew d (by simp)) with ⟨error, errorList, hrefused⟩ | htaken
        · rw [hrefused]
          exact .inl ⟨error, errorList, chosen, rfl⟩
        · rw [htaken]
          have hnew' : ∀ e ∈ ds, (chosen e.uuid || decide (e.uuid = d.uuid)) = false := by
            intro e he
            have hne : e.uuid ≠ d.uuid := fun heq => nodup.1 (heq ▸ List.mem_map_of_mem he)
            simp [hnew e (by simp [he]), hne]
          rcases ih (fun u => chosen u || u = d.uuid) nodup.2 hnew' with hfail | hok
          · exact .inl hfail
          · refine .inr (hok.trans ?_)
            congr 1
            refine lockedIn_congr fun e _ => ?_
            by_cases heq : e.uuid = d.uuid
            · simp [heq, hlisted]
            · simp [heq]

/-- A refused item is locked nowhere; an admitted one is locked once in every listed directory, and
unlocking it there restores the catalogues. -/
theorem checkAndLockInList_allOrNothing (finds : xml.Finds)
    (distinct : (s.directories.map CVmDirectory.uuid).Nodup) (collect : Bool)
    (lstDirUuid : List String) (lockItem : TemporaryCatalogueItem) :
    let r := checkAndLockInList xml isPathsEqual collect s lstDirUuid lockItem
    (r.1 ≠ [] → (∀ d ∈ s.directories, d.Unused lockItem) → r.2 = s) ∧
    (r.1 = [] →
      r.2 = s.lockedIn (fun u => Listed lstDirUuid u) lockItem ∧
      ((∀ d ∈ s.directories, Listed lstDirUuid d.uuid → d.Unused lockItem) →
        unlockEach xml (if lstDirUuid = [] then s.directories.map CVmDirectory.uuid else lstDirUuid)
          lockItem r.2 = s)) := by
  intro r
  have hloop := checkAndLockLoop_lockedIn isPathsEqual lockItem finds distinct collect lstDirUuid (fun _ => false) distinct fun _ _ => rfl
  rw [lockedIn_none] at hloop
  rcases hloop with ⟨error, errorList, chosen, hfail⟩ | hok
  · have hr : r = (error :: errorList, unlockInAll xml (s.lockedIn chosen lockItem) lockItem) :=
      hfail
    rw [hr]
    refine ⟨fun _ unused => ?_, fun h => by cases h⟩
    exact unlockInAll_lockedIn finds distinct chosen unused
  · have hr : r = ([], s.lockedIn (fun u => Listed lstDirUuid u) lockItem) := by
      refine Eq.trans hok ?_
      rw [Prod.mk.injEq]
      refine ⟨rfl, lockedIn_congr fun d hd => ?_⟩
      simp [List.mem_map_of_mem hd]
    rw [hr]
    refine ⟨fun h => absurd rfl h, fun _ => ⟨rfl, fun unused => ?_⟩⟩
    by_cases hnil : lstDirUuid = []
    · rw [if_pos hnil, unlockEach_lockedIn finds distinct _ fun d hd _ =>
        unused d hd (.inl hnil)]
      refine (lockedIn_congr fun d hd => ?_).trans lockedIn_none
      simp [List.mem_map_of_mem hd]
    · rw [if_neg hnil, unlockEach_lockedIn finds distinct _ fun d hd hin =>
        unused d hd (.inr hin)]
      refine (lockedIn_congr fun d hd => ?_).trans lockedIn_none
      simp [Listed, hnil]

/-- The conflict is found in the second of three directories. -/
theorem checkAndLockInList_restores :
    let a : TemporaryCatalogueItem := ⟨"a", "/a", "A", "1"⟩
    let s : CVmDirectories :=
      ⟨[⟨"one", [], []⟩, ⟨"two", [⟨"b", "A", "/b"⟩], []⟩, ⟨"three", [], []⟩], [], []⟩
    (checkAndLockInList firstXml (· == ·) false s [] a).1 ≠ [] ∧
      (checkAndLockInList firstXml (· == ·) false s [] a).2 = s := by
  intro a s
  have hfail : (checkAndLockInList firstXml (· == ·) false s [] a).1 ≠ [] := by decide
  refine ⟨hfail, ?_⟩
  refine (checkAndLockInList_allOrNothing firstXml_finds (by decide) false [] a).1 hfail
    fun d hd entry hentry => ?_
  simp only [s, List.mem_cons, List.not_mem_nil, or_false] at hd
  rcases hd with rfl | rfl | rfl
  · cases hentry
  · cases hentry
  · cases hentry

/-- The rollback takes away an entry with the id of the item that it did not make. -/
theorem checkAndLockInList_rollback_loses :
    let a : TemporaryCatalogueItem := ⟨"a", "/a", "A", "1"⟩
    let s : CVmDirectories :=
      ⟨[⟨"one", [⟨"b", "A", "/b"⟩], []⟩, ⟨"two", [], [⟨a, false⟩]⟩], [], []⟩
    (s.directories.map CVmDirectory.uuid).Nodup ∧
      (checkAndLockInList firstXml (· == ·) false s ["one"] a).1 ≠ [] ∧
      (checkAndLockInList firstXml (· == ·) false s ["one"] a).2.directories.map
        CVmDirectory.temporaryCatalogue ≠ s.directories.map CVmDirectory.temporaryCatalogue := by
  decide

end Changes

end CVmDirectories

end DispService.Directory
