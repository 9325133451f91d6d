import DispService.Restore.Online

/-! A failed online restore never leaves the VM as it was: what is set aside is, to the
assembly, the new data. -/
namespace DispService.Restore.Online

open DispService.Lib FileSystem Local Instrument

section Requests

variable {below : String → String → Bool} {kinds : String → Option Kind} {r : Request}

section Items

theorem aside_ne (n : String) : r.aside n ≠ n := by
  unfold Request.aside
  intro h
  have hlen := congrArg String.length h
  simp only [String.length_append] at hlen
  have hdot : (".").length = 1 := rfl
  omega

theorem disk_ne {n : String} (hn : n ∈ r.disks) : n ≠ "" := by
  rintro rfl
  have h := (List.mem_filter.mp hn).2
  simp at h

theorem essential_from : r.essential.from_ = r.home :=
  if_neg (aside_ne r.home).symm

theorem items_from : r.items.map Item.from_ = r.disks ++ [r.home] := by
  unfold Request.items
  rw [List.map_append, List.map_map, List.map_singleton, essential_from]
  exact congrArg (· ++ [r.home]) (List.map_id r.disks)

theorem items_dst : r.items.map Item.dst = r.m_componentList := by
  unfold Request.items Request.m_componentList
  rw [List.map_append, List.map_map]
  rfl

/-- Each item sets one of the old paths aside. -/
theorem mem_items {i : Item} (hi : i ∈ r.items) :
    ∃ n ∈ r.home :: r.disks, i.from_ = n ∧ i.dst = r.aside n ∧ i.may = r.may n := by
  cases List.mem_append.mp hi with
  | inl hdisk =>
      obtain ⟨n, hn, rfl⟩ := List.mem_map.mp hdisk
      exact ⟨n, List.mem_cons_of_mem _ hn, rfl, rfl, rfl⟩
  | inr hhome =>
      obtain rfl := List.mem_singleton.mp hhome
      exact ⟨r.home, List.mem_cons_self, essential_from, rfl, rfl⟩

theorem exists_item {n : String} (hn : n ∈ r.home :: r.disks) :
    ∃ i ∈ r.items, i.from_ = n ∧ i.dst = r.aside n ∧ i.may = r.may n := by
  cases List.mem_cons.mp hn with
  | inl heq =>
      subst heq
      exact ⟨r.essential, List.mem_append_right _ (List.mem_singleton.mpr rfl), essential_from,
        rfl, rfl⟩
  | inr hdisk =>
      exact ⟨r.external n, List.mem_append_left _ (List.mem_map_of_mem hdisk), rfl, rfl, rfl⟩

variable (h : Existing below kinds r)
include h

theorem from_ne {i : Item} (hi : i ∈ r.items) : i.from_ ≠ "" := by
  obtain ⟨n, hn, hfrom, -⟩ := mem_items hi
  rw [hfrom]
  cases List.mem_cons.mp hn with
  | inl heq => exact heq ▸ h.home_ne
  | inr hdisk => exact disk_ne hdisk

theorem dst_fresh {i : Item} (hi : i ∈ r.items) : kinds i.dst = none := by
  obtain ⟨n, hn, -, hdst, -⟩ := mem_items hi
  rw [hdst]
  exact h.fresh n hn

theorem dst_ne_home {i : Item} (hi : i ∈ r.items) : i.dst ≠ r.home := by
  intro heq
  exact h.home (heq ▸ dst_fresh h hi)

/-- With nothing at its target, a move is done if the call is carried out. -/
theorem moves_iff {i : Item} (hi : i ∈ r.items) :
    Moves kinds i ↔ i.may .do_ = true ∧ kinds i.from_ ≠ none := by
  unfold Moves
  rw [dst_fresh h hi]
  simp [from_ne h hi]

theorem all_moves_of_aside :
    (∀ i ∈ r.items, Moves kinds i) ↔
      ∀ n ∈ r.home :: r.disks, r.may n .do_ = true ∧ kinds n ≠ none := by
  constructor
  · intro hall n hn
    obtain ⟨i, hi, hfrom, -, hmay⟩ := exists_item hn
    rw [← hmay, ← hfrom]
    exact (moves_iff h hi).mp (hall i hi)
  · intro hall i hi
    obtain ⟨n, hn, hfrom, -, hmay⟩ := mem_items hi
    rw [moves_iff h hi, hfrom, hmay]
    exact hall n hn

end Items

section Backup

/-- The file system when the moves have been made, and the assembly that holds them. -/
theorem backupObject_eq (fs : Fs) :
    backupObject below r fs =
      (⟨r.items.map Item.move, [], trashOf r.items, false⟩, setAsideAll below r.items fs) := by
  unfold backupObject
  rw [build_eq]
  rfl

/-- The world in which the batch starts. -/
def built (below : String → String → Bool) (kinds : String → Option Kind) (r : Request) : World :=
  { before kinds with
    assembly := ⟨r.items.map Item.move, [], trashOf r.items, false⟩
    fs := setAsideAll below r.items (initial kinds) }

theorem handle_eq :
    handle below r (before kinds) =
      if r.isEfiEnabled = true then (.unsupportedDeviceType, (built below kinds r).destroy below)
      else
        (((batch below r).execute (built below kinds r)).1,
          ((batch below r).execute (built below kinds r)).2.destroy below) := by
  unfold handle
  dsimp only
  rw [backupObject_eq]
  rfl

/-- What the first step of the batch leaves. -/
def setAsideWorld (below : String → String → Bool) (kinds : String → Option Kind) (r : Request) :
    World :=
  { built below kinds r with
    assembly := ⟨(r.items.dropWhile (Moves kinds ·)).map Item.move,
      (r.items.takeWhile (Moves kinds ·)).map Item.doneMove, trashOf r.items, false⟩
    fs := (r.items.takeWhile (Moves kinds ·)).foldl (fun fs i => doMove below i fs)
      (setAsideAll below r.items (initial kinds)) }

variable (h : Existing below kinds r)
include h

theorem redo_backup :
    (addBackupObject below).redo (built below kinds r) =
      (if r.items.all (Moves kinds ·) = true then .success else .backupRestoreInternalError,
        setAsideWorld below kinds r) := by
  have hdo := do_eq_of_disjoint kinds h.separate fun i hi _ => h.apart i hi
  rw [build_eq] at hdo
  have hsame : (built below kinds r).assembly.do_ below (built below kinds r).fs =
      let x := Assembly.do_ below ⟨r.items.map Item.move, [], trashOf r.items, true⟩
        (setAsideAll below r.items (initial kinds))
      (x.1, { x.2.1 with m_trashPolicy := false }, x.2.2) := rfl
  unfold addBackupObject
  dsimp only
  rw [hsame]
  unfold setAsideAll at hdo ⊢
  dsimp only at hdo ⊢
  rw [hdo]
  rfl

/-- The moves of the assembly do not end in the folder of the VM. -/
def AsideOnly (r : Request) (a : Assembly) : Prop :=
  (∀ m ∈ a.m_ready, m.m_to ≠ r.home) ∧ ∀ m ∈ a.m_pending, m.m_to ≠ r.home

theorem asideOnly_setAsideWorld : AsideOnly r (setAsideWorld below kinds r).assembly := by
  constructor
  · intro m hm
    obtain ⟨i, hi, rfl⟩ := List.mem_map.mp hm
    exact dst_ne_home h (List.takeWhile_subset _ hi)
  · intro m hm
    obtain ⟨i, hi, rfl⟩ := List.mem_map.mp hm
    exact dst_ne_home h ((List.dropWhile_suffix _).subset hi)

/-- An assembly that goes with the move of the folder not done has removed the folder. -/
theorem dropped_absent (done : List Item) {pend : List Item} (hpend : pend ≠ [])
    (hlast : pend.getLast hpend = r.essential) (fs : Fs) :
    Absent r.home r.home (Assembly.destroy below (fun _ => true)
      ⟨pend.map Item.move, done.map Item.doneMove, trashOf r.items, false⟩ fs) := by
  have hdestroy : Assembly.destroy below (fun _ => true)
      ⟨pend.map Item.move, done.map Item.doneMove, trashOf r.items, false⟩ fs =
      pend.foldl (fun fs i => dropMove below i fs)
        (done.foldl (fun fs i => revertMove below i fs) fs) := by
    unfold Assembly.destroy
    simp only [List.map_eq_nil_iff, hpend, if_false, Bool.false_eq_true]
    unfold Assembly.revert
    simp only [List.foldl_map]
    rfl
  have hmem : r.essential ∈ r.items := List.mem_append_right _ (List.mem_singleton.mpr rfl)
  rw [hdestroy, ← List.dropLast_concat_getLast hpend, hlast, List.foldl_append]
  generalize pend.dropLast.foldl _ _ = fs'
  have hdrop : r.essential.may .dropUnlink = true := h.undoes r.home .dropUnlink (by decide)
  dsimp only [List.foldl_cons, List.foldl_nil]
  rw [dropMove_eq (from_ne h hmem), essential_from]
  apply (absent_closed below r.home r.home).rename _ _ _ _ (dst_ne_home h hmem)
  apply absent_of_none
  rw [unlink_self, hdrop]
  rfl

theorem efi_absent : Absent r.home r.home ((built below kinds r).destroy below).fs := by
  have hne : r.items ≠ [] := List.append_ne_nil_of_right_ne_nil _ (List.cons_ne_nil _ _)
  apply dropped_absent h [] hne
  exact List.getLast_concat

theorem aside_failed_absent (hfail : ¬ ∀ i ∈ r.items, Moves kinds i) :
    Absent r.home r.home ((setAsideWorld below kinds r).destroy below).fs := by
  have hne : r.items ≠ [] := List.append_ne_nil_of_right_ne_nil _ (List.cons_ne_nil _ _)
  have hpend : r.items.dropWhile (Moves kinds ·) ≠ [] := by
    intro hnil
    apply hfail
    intro i hi
    exact of_decide_eq_true (List.dropWhile_eq_nil_iff.mp hnil i hi)
  apply dropped_absent h _ hpend
  exact ((List.dropWhile_suffix (Moves kinds ·)).getLast hpend).trans List.getLast_concat

/-- The folder is moved with the last move. -/
theorem moved_absent (hall : ∀ i ∈ r.items, Moves kinds i) :
    Absent r.home r.home (setAsideWorld below kinds r).fs := by
  have hmem : r.essential ∈ r.items := List.mem_append_right _ (List.mem_singleton.mpr rfl)
  have hsep : Separate below (r.items ++ []) := (List.append_nil r.items).symm ▸ h.separate
  have hmoved := moved_agree hsep hmem (initial kinds)
  have hfrom := from_ne h hmem
  have hown := h.apart _ hmem
  obtain ⟨y, hput⟩ := Option.isSome_iff_exists.mp ((put_isSome hfrom).mpr (hall _ hmem))
  apply absent_of_none
  unfold setAsideWorld
  dsimp only
  rw [takeWhile_of_all hall]
  rw [List.append_nil] at hmoved
  have hsrc := hmoved _ (region_from _ hfrom)
  rw [essential_from] at hsrc
  rw [setAsideAll, hsrc]
  have hslots : (slots r.essential (doMove below r.essential
      (setAside below r.essential (initial kinds)))).src = none := by
    rw [slots_doMove hfrom hown, slots_setAside hfrom hown, doMove_eq_put hput]
  unfold slots at hslots
  rw [essential_from] at hslots
  exact hslots

end Backup

section Lost

/-- The folder of the VM is not what it was, and nothing at hand brings it back. -/
def Lost (r : Request) (w : World) : Prop :=
  Absent r.home r.home w.fs ∧ AsideOnly r w.assembly

variable (below r) in
theorem absent_mkdir {p : String} {fs : Fs} (hne : r.home ≠ "") (h : Absent r.home r.home fs) :
    Absent r.home r.home (mkdir fs p) := by
  intro c hc
  unfold mkdir at hc
  by_cases hp : r.home = p
  · subst hp
    rw [Function.update_self] at hc
    obtain rfl := Option.some.inj hc
    cases hold : fs r.home with
    | none => exact fun heq => hne heq.symm
    | some c => exact h c hold
  · rw [Function.update_of_ne hp] at hc
    exact h c hc

theorem absent_craftFile {p : String} {fs : Fs} (hne : r.home ≠ "")
    (h : Absent r.home r.home fs) : Absent r.home r.home (craftFile fs p) := by
  intro c hc
  unfold craftFile at hc
  by_cases hp : r.home = p
  · subst hp
    rw [Function.update_self] at hc
    obtain rfl := Option.some.inj hc
    exact fun heq => hne heq.symm
  · rw [Function.update_of_ne hp] at hc
    exact h c hc

theorem Lost.unlink {w : World} (h : Lost r w) (may : Bool) (p : String) :
    Lost r { w with fs := (unlink below may w.fs p).2 } :=
  ⟨(absent_closed below _ _).unlink _ _ _ h.1, h.2⟩

theorem Lost.rollback {w : World} (h : Lost r w) (k : Nat) : Lost r (Image.rollback below k w) := by
  unfold Image.rollback
  dsimp only
  split
  · exact h
  · exact h.unlink true _

theorem Lost.image {w : World} (hne : r.home ≠ "") (h : Lost r w) (k : Nat) (c : Component) :
    Lost r (Image.execute below k c w).2 := by
  have hmade : Lost r (if c.mkdir.failed = true then w
      else
        { w with
          fs := mkdir w.fs c.restorePath.absolutePath
          m_2unlink := Function.update w.m_2unlink k c.restorePath.absolutePath }) := by
    split
    · exact h
    · exact ⟨absent_mkdir r hne h.1, h.2⟩
  unfold Image.execute
  split
  · exact h
  · split
    · exact h
    · split
      · exact h
      · dsimp only
        generalize (if c.mkdir.failed = true then w else _ : World) = w' at hmade
        split
        · exact hmade.rollback k
        · have hcrafted : Lost r { w' with fs := craftFile w'.fs c.restorePath.absoluteFilePath } :=
            ⟨absent_craftFile hne hmade.1, hmade.2⟩
          split
          · exact hcrafted
          · exact hcrafted

theorem lost_addCraftImages (hne : r.home ≠ "") (k : Nat) (components : List Component) :
    Batch.Preserves (Lost r) (addCraftImages below k components) := by
  induction components generalizing k with
  | nil =>
      intro i hi
      cases hi
  | cons c components ih =>
      intro i hi
      cases List.mem_cons.mp hi with
      | inl heq =>
          subst heq
          constructor
          · intro w hw
            exact hw.image hne k c
          · rintro u ⟨⟩ w hw
            exact hw.rollback k
      | inr hmem => exact ih (k + 1) i hmem

theorem lost_addRebase : Batch.Preserves (Lost r) (addRebase below r) := by
  intro i hi
  cases List.mem_cons.mp hi with
  | inl heq =>
      subst heq
      constructor
      · intro w hw
        exact hw
      · rintro u ⟨⟩
  | inr hmem =>
      obtain ⟨c, -, rfl⟩ := List.mem_map.mp hmem
      constructor
      · intro w hw
        exact hw.unlink _ _
      · rintro u ⟨⟩

theorem lost_addPrepare (hne : r.home ≠ "") :
    Batch.Preserves (Lost r) [addPrepare below r] := by
  intro i hi
  obtain rfl := List.mem_singleton.mp hi
  constructor
  · intro w hw
    unfold addPrepare
    dsimp only
    split
    · exact hw
    · exact ⟨absent_mkdir r hne hw.1, hw.2⟩
  · rintro u ⟨⟩ w hw
    exact hw.unlink true _

/-- Steps that do not touch files. -/
theorem lost_others : Batch.Preserves (Lost r) [addEscort r, addDefine r, addStart r] := by
  intro i hi
  simp only [List.mem_cons, List.not_mem_nil, or_false] at hi
  constructor
  · intro w hw
    rcases hi with rfl | rfl | rfl
    · exact hw
    · unfold addDefine
      dsimp only
      split <;> exact hw
    · unfold addStart
      dsimp only
      split <;> exact hw
  · intro u hu w hw
    rcases hi with rfl | rfl | rfl
    · cases hu
    · cases hu
      exact hw
    · cases hu
      exact hw

/-- The batch without its first step. -/
def rest (below : String → String → Bool) (r : Request) : Batch World :=
  addPrepare below r :: addEscort r ::
    (addCraftImages below 0 r.components ++ addDefine r :: addStart r :: addRebase below r)

theorem lost_rest (hne : r.home ≠ "") : Batch.Preserves (Lost r) (rest below r) := by
  intro i hi
  simp only [rest, List.mem_cons, List.mem_append] at hi
  rcases hi with rfl | rfl | himage | rfl | rfl | hrebase
  · exact lost_addPrepare hne _ List.mem_cons_self
  · exact lost_others _ List.mem_cons_self
  · exact lost_addCraftImages hne 0 r.components i himage
  · exact lost_others _ (List.mem_cons_of_mem _ List.mem_cons_self)
  · exact lost_others _ (List.mem_cons_of_mem _ (List.mem_cons_of_mem _ List.mem_cons_self))
  · exact lost_addRebase i hrebase

theorem lost_undo_backup :
    ∀ u ∈ (addBackupObject below).undo, ∀ w, Lost r w → Lost r (u w) := by
  rintro u ⟨⟩ w ⟨habsent, haside⟩
  constructor
  · exact (absent_closed below _ _).assembly_revert haside.1 haside.2 habsent
  · constructor
    · intro m hm
      cases hm
    · intro m hm
      cases hm

theorem Lost.destroy {w : World} (h : Lost r w) : Absent r.home r.home (w.destroy below).fs :=
  (absent_closed below _ _).assembly_destroy h.2.1 h.2.2 _ h.1

variable (h : Existing below kinds r)
include h

/-- Whatever the batch comes to, the old folder is not where it was. -/
theorem batch_absent :
    Absent r.home r.home
      (((batch below r).execute (built below kinds r)).2.destroy below).fs := by
  by_cases hall : ∀ i ∈ r.items, Moves kinds i
  · apply Lost.destroy
    apply (lost_rest h.home_ne).execute_cons lost_undo_backup
    rw [redo_backup h]
    exact ⟨moved_absent h hall, asideOnly_setAsideWorld h⟩
  · have hfail : ((addBackupObject below).redo (built below kinds r)).1.failed = true := by
      rw [redo_backup h, if_neg (by rw [all_moves_iff]; exact hall)]
      rfl
    have hexec : ((batch below r).execute (built below kinds r)).2 = setAsideWorld below kinds r := by
      unfold batch Batch.execute Batch.loop
      simp only [List.isEmpty_cons, Bool.false_eq_true, if_false, hfail, if_true]
      rw [redo_backup h]
      rfl
    rw [hexec]
    exact aside_failed_absent h hall

/-- A request that fails loses the folder of the VM. -/
theorem handle_absent : Absent r.home r.home (handle below r (before kinds)).2.fs := by
  rw [handle_eq]
  split
  · exact efi_absent h
  · exact batch_absent h

end Lost

section Done

/-- Nothing is taken away; what is new was created. -/
def Grown (fs fs' : Fs) : Prop :=
  ∀ p, fs' p = fs p ∨ ∃ kind, fs' p = some (created kind)

theorem Grown.refl (fs : Fs) : Grown fs fs :=
  fun _ => Or.inl rfl

theorem Grown.trans {f g k : Fs} (h : Grown f g) (h' : Grown g k) : Grown f k := by
  intro p
  cases h' p with
  | inl hsame => exact hsame ▸ h p
  | inr hmade => exact Or.inr hmade

theorem Grown.ne_none {f g : Fs} (h : Grown f g) {p : String} (hp : f p ≠ none) : g p ≠ none := by
  cases h p with
  | inl hsame => exact hsame ▸ hp
  | inr hmade =>
      obtain ⟨kind, hkind⟩ := hmade
      rw [hkind]
      exact Option.some_ne_none _

theorem Grown.oldOnly {f g : Fs} (h : Grown f g) {olds : List String} (hempty : "" ∉ olds)
    {S : String → Prop} (hf : OldOnly olds S f) : OldOnly olds S g := by
  intro p c hc hold
  cases h p with
  | inl hsame => exact hf p c (hsame ▸ hc) hold
  | inr hmade =>
      obtain ⟨kind, hkind⟩ := hmade
      obtain rfl := Option.some.inj (hkind.symm.trans hc)
      cases hold with
      | inl horigin => exact absurd horigin hempty
      | inr hinside =>
          obtain ⟨o, ho, -⟩ := hinside
          cases ho

theorem grown_mkdir (fs : Fs) (p : String) : Grown fs (mkdir fs p) := by
  intro q
  unfold mkdir
  by_cases hq : q = p
  · subst hq
    rw [Function.update_self]
    cases hfs : fs q with
    | none => exact Or.inr ⟨.folder, rfl⟩
    | some c => exact Or.inl rfl
  · rw [Function.update_of_ne hq]
    exact Or.inl rfl

theorem grown_craftFile (fs : Fs) (p : String) : Grown fs (craftFile fs p) := by
  intro q
  unfold craftFile
  by_cases hq : q = p
  · subst hq
    rw [Function.update_self]
    exact Or.inr ⟨.file, rfl⟩
  · rw [Function.update_of_ne hq]
    exact Or.inl rfl

/-- The calls of the image succeed. -/
def Component.Ok (c : Component) : Prop :=
  c.mount.failed = false ∧ c.strand.failed = false ∧ c.build.failed = false

/-- What an image leaves that is built. -/
structure Built (k : Nat) (w w' : World) : Prop where
  grown : Grown w.fs w'.fs
  assembly : w'.assembly = w.assembly
  others : ∀ j, j ≠ k → w'.m_2unlink j = w.m_2unlink j

theorem image_ok {k : Nat} {c : Component} {w : World} (hk : w.m_2unlink k = "") :
    (Image.execute below k c w).1.failed = false ↔ c.Ok := by
  unfold Image.execute Component.Ok
  rw [if_neg (not_not.mpr hk)]
  cases hmount : c.mount.failed <;> cases hstrand : c.strand.failed <;>
    cases hbuild : c.build.failed <;> simp [hmount, hstrand, hbuild]
  split
  · exact hbuild
  · split <;> exact hbuild

theorem image_built {k : Nat} {c : Component} {w : World} (hk : w.m_2unlink k = "")
    (hok : c.Ok) : Built k w (Image.execute below k c w).2 := by
  obtain ⟨hmount, hstrand, hbuild⟩ := hok
  have hother : ∀ (u : Nat → String) (x : String) (j : Nat), j ≠ k →
      Function.update u k x j = u j :=
    fun u x j hj => Function.update_of_ne hj x u
  unfold Image.execute
  rw [if_neg (not_not.mpr hk)]
  simp only [hmount, hstrand, hbuild, Bool.false_eq_true, if_false]
  cases hmkdir : c.mkdir.failed
  · simp only [Bool.false_eq_true, if_false]
    have hgrown := (grown_mkdir w.fs c.restorePath.absolutePath).trans
      (grown_craftFile _ c.restorePath.absoluteFilePath)
    split
    · refine ⟨hgrown, rfl, ?_⟩
      intro j hj
      exact (hother _ _ j hj).trans (hother _ _ j hj)
    · exact ⟨hgrown, rfl, hother _ _⟩
  · simp only [if_true, hk]
    exact ⟨grown_craftFile _ _, rfl, hother _ _⟩

theorem passes_images {components : List Component} {k : Nat} {w : World}
    (hw : ∀ j, k ≤ j → w.m_2unlink j = "") :
    Batch.Passes (addCraftImages below k components) w ↔ ∀ c ∈ components, c.Ok := by
  induction components generalizing k w with
  | nil => exact ⟨fun _ c hc => absurd hc List.not_mem_nil, fun _ => trivial⟩
  | cons c components ih =>
      have hk := hw k (Nat.le_refl k)
      rw [List.forall_mem_cons]
      unfold addCraftImages Batch.Passes
      dsimp only
      rw [image_ok hk]
      apply and_congr_right
      intro hok
      apply ih
      intro j hj
      rw [(image_built hk hok).others j (by omega)]
      exact hw j (by omega)

theorem grown_images {components : List Component} {k : Nat} {w : World}
    (hw : ∀ j, k ≤ j → w.m_2unlink j = "") (hok : ∀ c ∈ components, c.Ok) :
    Grown w.fs (Batch.redoAll (addCraftImages below k components) w).fs ∧
      (Batch.redoAll (addCraftImages below k components) w).assembly = w.assembly := by
  induction components generalizing k w with
  | nil => exact ⟨.refl _, rfl⟩
  | cons c components ih =>
      obtain ⟨hc, hrest⟩ := List.forall_mem_cons.mp hok
      have hbuilt := @image_built below _ _ _ (hw k (Nat.le_refl k)) hc
      have hnext : ∀ j, k + 1 ≤ j → (Image.execute below k c w).2.m_2unlink j = "" := by
        intro j hj
        rw [hbuilt.others j (by omega)]
        exact hw j (by omega)
      obtain ⟨hgrown, hassembly⟩ := ih hnext hrest
      exact ⟨hbuilt.grown.trans hgrown, hassembly.trans hbuilt.assembly⟩

theorem unlink_done_iff {may : Bool} {fs : Fs} {p : String} (hp : fs p ≠ none) :
    (unlink below may fs p).1 = true ↔ may = true := by
  rw [unlink_fst]
  unfold Slots.clear
  cases may <;> simp [hp]

theorem passes_unlinks {cs : List String} {w : World} (hw : ∀ c ∈ cs, w.fs c ≠ none)
    (hapart : cs.Pairwise fun c d => ¬ Within below c d) :
    Batch.Passes (cs.map (unlinkOld below r)) w ↔ ∀ c ∈ cs, r.unlink c = true := by
  induction cs generalizing w with
  | nil => exact ⟨fun _ c hc => absurd hc List.not_mem_nil, fun _ => trivial⟩
  | cons c cs ih =>
      obtain ⟨hhead, htail⟩ := List.pairwise_cons.mp hapart
      rw [List.forall_mem_cons]
      have hcode : ((unlinkOld below r c).redo w).1.failed = false ↔ r.unlink c = true := by
        rw [← @unlink_done_iff below _ _ _ (hw c List.mem_cons_self)]
        unfold unlinkOld
        dsimp only
        cases (unlink below (r.unlink c) w.fs c).1 <;> simp [PrlResult.failed]
      apply and_congr hcode
      apply ih _ htail
      intro d hd
      have hsame : ((unlinkOld below r c).redo w).2.fs d = w.fs d :=
        (confined_unlink (r.unlink c) c).frame w.fs d (hhead d hd)
      rw [hsame]
      exact hw d (List.mem_cons_of_mem c hd)

/-- What is set aside is all that is old, and it is removed. -/
theorem unlinks_clean {olds : List String} {cs : List String} {w : World}
    (hpasses : Batch.Passes (cs.map (unlinkOld below r)) w) (hold : OldOnly olds (· ∈ cs) w.fs) :
    OldOnly olds (fun _ => False) (Batch.redoAll (cs.map (unlinkOld below r)) w).fs ∧
      (Batch.redoAll (cs.map (unlinkOld below r)) w).assembly = w.assembly := by
  induction cs generalizing w with
  | nil =>
      refine ⟨?_, rfl⟩
      intro p c hc hcold
      cases hold p c hc hcold
  | cons d cs ih =>
      obtain ⟨hok, hrest⟩ := hpasses
      apply ih hrest
      have hgone : ((unlinkOld below r d).redo w).2.fs d = none := by
        have hdone : (unlink below (r.unlink d) w.fs d).1 = true := by
          unfold unlinkOld at hok
          dsimp only at hok
          cases hcode : (unlink below (r.unlink d) w.fs d).1
          · rw [hcode] at hok
            cases hok
          · rfl
        rw [unlink_fst] at hdone
        exact (unlink_self d).trans (Option.isNone_iff_eq_none.mp hdone)
      intro p c hc hcold
      have hmem := hold.unlink (r.unlink d) d p c hc hcold
      cases List.mem_cons.mp hmem with
      | inl heq =>
          subst heq
          rw [hgone] at hc
          cases hc
      | inr hmem => exact hmem

end Done

section Atomic

/-- The moves that are made leave the old data at their targets. -/
theorem oldOnly_doMove {items : List Item} {olds : List String} {S : String → Prop} {fs : Fs}
    (hsep : Separate below items) (hfrom : ∀ i ∈ items, i.from_ ≠ "")
    (hown : ∀ i ∈ items, ApartPaths below i) (hok : ∀ i ∈ items, doOk below i fs = true)
    (hold : OldOnly olds (fun p => S p ∨ p ∈ items.map Item.from_) fs) :
    OldOnly olds (fun p => S p ∨ p ∈ items.map Item.dst)
      (items.foldl (fun fs i => doMove below i fs) fs) := by
  induction items generalizing fs S with
  | nil => exact hold
  | cons i items ih =>
      obtain ⟨hhead, htail⟩ := List.pairwise_cons.mp hsep
      have hi := List.mem_cons_self (a := i) (l := items)
      have hmem := fun j (hj : j ∈ items) => List.mem_cons_of_mem i hj
      have hrest : ∀ j ∈ items, doOk below j (doMove below i fs) = true := by
        intro j hj
        rw [← hok j (hmem j hj)]
        apply doOk_congr
        apply (confined_doMove i).agree
        intro p hp hin
        exact hhead j hj p hin hp
      have hmoved : OldOnly olds (fun p => (S p ∨ p = i.dst) ∨ p ∈ items.map Item.from_)
          (doMove below i fs) := by
        have hput := hok i hi
        rw [doOk_eq (hfrom i hi), rename_apart_fst (hown i hi).from_dst] at hput
        obtain ⟨y, hy⟩ := Option.isSome_iff_exists.mp hput
        rw [doMove_eq (hfrom i hi), rename_apart (hown i hi).from_dst, hy]
        intro p c hc hcold
        dsimp only at hc
        split at hc
        · rename_i hp
          exact Or.inl (Or.inr hp)
        · split at hc
          · cases hc
          · rename_i hp
            cases hold p c hc hcold with
            | inl hS => exact Or.inl (Or.inl hS)
            | inr hsrc =>
                cases List.mem_cons.mp hsrc with
                | inl heq => exact absurd (heq ▸ within_self _) hp
                | inr hmem => exact Or.inr hmem
      have hend := ih htail (fun j hj => hfrom j (hmem j hj)) (fun j hj => hown j (hmem j hj))
        hrest hmoved
      intro p c hc hcold
      rcases hend p c hc hcold with (hS | heq) | hdst
      · exact Or.inl hS
      · exact Or.inr (List.mem_cons.mpr (Or.inl heq))
      · exact Or.inr (List.mem_cons_of_mem _ hdst)

/-- With nothing at the targets, the constructors do nothing but remove. -/
theorem oldOnly_setAside {items : List Item} {olds : List String} {S : String → Prop} {fs : Fs}
    (hfrom : ∀ i ∈ items, i.from_ ≠ "") (hnone : ∀ i ∈ items, fs i.dst = none)
    (hold : OldOnly olds S fs) : OldOnly olds S (setAsideAll below items fs) := by
  unfold setAsideAll
  induction items generalizing fs with
  | nil => exact hold
  | cons i items ih =>
      have hkeep : ∀ p, fs p = none → (unlink below (i.may .asideUnlink) fs i.restore).2 p = none := by
        intro p hp
        cases @unlink_apply_or below (i.may .asideUnlink) fs i.restore p with
        | inl hgone => exact hgone
        | inr hsame => exact hsame.trans hp
      have hmade : setAside below i fs = (unlink below (i.may .asideUnlink) fs i.restore).2 := by
        rw [setAside_eq (hfrom i List.mem_cons_self),
          rename_of_missing (hkeep _ (hnone i List.mem_cons_self))]
      rw [List.foldl_cons, hmade]
      apply ih
      · exact fun j hj => hfrom j (List.mem_cons_of_mem i hj)
      · exact fun j hj => hkeep _ (hnone j (List.mem_cons_of_mem i hj))
      · exact hold.unlink _ _

theorem mem_olds {n : String} : n ∈ r.home :: r.disks ↔ n ∈ r.items.map Item.from_ := by
  rw [items_from]
  simp [or_comm]

variable (h : Existing below kinds r)
include h

/-- What is old is at the names it was set aside to. -/
theorem setAside_oldOnly (hall : ∀ i ∈ r.items, Moves kinds i) :
    OldOnly (r.home :: r.disks) (· ∈ r.m_componentList) (setAsideWorld below kinds r).fs := by
  have hfrom := fun i hi => from_ne h (i := i) hi
  have hown : ∀ i ∈ r.items, i.from_ ≠ "" → ApartPaths below i := fun i hi _ => h.apart i hi
  have hnone : ∀ i ∈ r.items, initial kinds i.dst = none := by
    intro i hi
    unfold initial
    rw [dst_fresh h hi]
    rfl
  have hinit : OldOnly (r.home :: r.disks)
      (fun p => False ∨ p ∈ r.items.map Item.from_) (initial kinds) := by
    intro p c hc hold
    obtain ⟨k, hk, rfl⟩ := initial_eq_some.mp hc
    cases hold with
    | inl horigin => exact Or.inr (mem_olds.mp horigin)
    | inr hinside =>
        obtain ⟨o, ho, -⟩ := hinside
        cases ho
  have hok : ∀ i ∈ r.items, doOk below i (setAsideAll below r.items (initial kinds)) = true := by
    intro i hi
    rw [doOk_setAsideAll h.separate hown hi]
    exact decide_eq_true (hall i hi)
  have hmoved := oldOnly_doMove h.separate hfrom h.apart hok
    (oldOnly_setAside hfrom hnone hinit)
  unfold setAsideWorld
  dsimp only
  rw [takeWhile_of_all hall, ← items_dst]
  intro p c hc hold
  exact (hmoved p c hc hold).resolve_left id

theorem setAside_present (hall : ∀ i ∈ r.items, Moves kinds i) :
    ∀ c ∈ r.m_componentList, (setAsideWorld below kinds r).fs c ≠ none := by
  intro c hc
  rw [← items_dst] at hc
  obtain ⟨i, hi, rfl⟩ := List.mem_map.mp hc
  have hfrom := from_ne h hi
  have hsep : Separate below (r.items ++ []) := (List.append_nil r.items).symm ▸ h.separate
  have hmoved := moved_agree hsep hi (initial kinds)
  obtain ⟨y, hput⟩ := Option.isSome_iff_exists.mp ((put_isSome hfrom).mpr (hall i hi))
  rw [List.append_nil] at hmoved
  unfold setAsideWorld
  dsimp only
  rw [takeWhile_of_all hall, setAsideAll, hmoved _ (region_dst i)]
  have hslots : (slots i (doMove below i (setAside below i (initial kinds)))).dst = some y := by
    rw [slots_doMove hfrom (h.apart i hi), slots_setAside hfrom (h.apart i hi), doMove_eq_put hput]
  exact fun hnone => Option.some_ne_none y (hslots.symm.trans hnone)

theorem components_apart : r.m_componentList.Pairwise fun c d => ¬ Within below c d := by
  rw [← items_dst, List.pairwise_map]
  apply h.separate.imp_of_mem
  intro i j hi hj hdisj hin
  apply hdisj j.dst _ (region_dst j)
  rw [region_eq i (from_ne h hi)]
  exact Or.inr (Or.inl hin)

omit h in
/-- The steps between the first and the removals only add to the files. -/
theorem grown_prepare (w : World) :
    Grown w.fs ((addPrepare below r).redo w).2.fs ∧
      ((addPrepare below r).redo w).2.assembly = w.assembly ∧
      ((addPrepare below r).redo w).2.m_2unlink = w.m_2unlink := by
  unfold addPrepare
  dsimp only
  split
  · exact ⟨.refl _, rfl, rfl⟩
  · exact ⟨grown_mkdir _ _, rfl, rfl⟩

omit h in
theorem define_files (w : World) :
    ((addDefine r).redo w).2.fs = w.fs ∧ ((addDefine r).redo w).2.assembly = w.assembly := by
  unfold addDefine
  dsimp only
  split <;> exact ⟨rfl, rfl⟩

omit h in
theorem start_files (w : World) :
    ((addStart r).redo w).2.fs = w.fs ∧ ((addStart r).redo w).2.assembly = w.assembly := by
  unfold addStart
  dsimp only
  split <;> exact ⟨rfl, rfl⟩

/-- The world in which the removals start. -/
def restored (below : String → String → Bool) (kinds : String → Option Kind) (r : Request) :
    World :=
  let w := ((addPrepare below r).redo (setAsideWorld below kinds r)).2
  let w := Batch.redoAll (addCraftImages below 0 r.components) w
  ((addStart r).redo ((addDefine r).redo w).2).2

omit h in
theorem passes_rest_split :
    Batch.Passes (rest below r) (setAsideWorld below kinds r) ↔
      r.mkdir.failed = false ∧ r.escort.failed = false ∧ (∀ c ∈ r.components, c.Ok) ∧
        r.define.failed = false ∧ r.start.failed = false ∧ r.rebase.failed = false ∧
        Batch.Passes (r.m_componentList.map (unlinkOld below r)) (restored below kinds r) := by
  obtain ⟨-, -, hunlink⟩ := @grown_prepare below r (setAsideWorld below kinds r)
  have himages : Batch.Passes (addCraftImages below 0 r.components)
      ((addPrepare below r).redo (setAsideWorld below kinds r)).2 ↔ ∀ c ∈ r.components, c.Ok :=
    passes_images fun j _ => congrFun hunlink j
  rw [← himages]
  apply and_congr_right fun _ => and_congr_right fun _ => ?_
  exact Batch.passes_append

omit h in
theorem grown_restored (hok : ∀ c ∈ r.components, c.Ok) :
    Grown (setAsideWorld below kinds r).fs (restored below kinds r).fs ∧
      (restored below kinds r).assembly = (setAsideWorld below kinds r).assembly := by
  obtain ⟨hprepare, hassembly, hunlink⟩ := @grown_prepare below r (setAsideWorld below kinds r)
  obtain ⟨himages, hassembly'⟩ :=
    @grown_images below _ 0 _ (fun j _ => congrFun hunlink j) hok
  unfold restored
  dsimp only
  rw [(start_files _).1, (start_files _).2, (define_files _).1, (define_files _).2]
  exact ⟨hprepare.trans himages, hassembly'.trans hassembly⟩

theorem olds_nonempty : "" ∉ r.home :: r.disks := by
  intro hmem
  cases List.mem_cons.mp hmem with
  | inl heq => exact h.home_ne heq.symm
  | inr hdisk => exact disk_ne hdisk rfl

theorem passes_batch :
    Batch.Passes (batch below r) (built below kinds r) ↔
      (∀ i ∈ r.items, Moves kinds i) ∧ Batch.Passes (rest below r) (setAsideWorld below kinds r) := by
  have hredo := redo_backup h
  have hpasses : Batch.Passes (batch below r) (built below kinds r) ↔
      ((addBackupObject below).redo (built below kinds r)).1.failed = false ∧
        Batch.Passes (rest below r) ((addBackupObject below).redo (built below kinds r)).2 := Iff.rfl
  rw [hpasses, hredo]
  apply and_congr_left'
  rw [← all_moves_iff]
  split
  · rename_i hall
    exact iff_of_true rfl hall
  · rename_i hall
    exact iff_of_false (fun hno => by cases hno) hall

/-- Every step passes exactly when nothing fails. -/
theorem passes_iff :
    Batch.Passes (batch below r) (built below kinds r) ∧ r.isEfiEnabled = false ↔
      NoFailure kinds r := by
  rw [passes_batch h, passes_rest_split]
  have hunlinks : (∀ i ∈ r.items, Moves kinds i) → (∀ c ∈ r.components, c.Ok) →
      (Batch.Passes (r.m_componentList.map (unlinkOld below r)) (restored below kinds r) ↔
        ∀ c ∈ r.m_componentList, r.unlink c = true) := by
    intro hall hok
    apply passes_unlinks _ (components_apart h)
    intro c hc
    exact (grown_restored hok).1.ne_none (setAside_present h hall c hc)
  constructor
  · rintro ⟨⟨hall, hmkdir, hescort, hok, hdefine, hstart, hrebase, hpass⟩, hefi⟩
    exact ⟨hefi, (all_moves_of_aside h).mp hall, hmkdir, hescort, hok, hdefine, hstart, hrebase,
      (hunlinks hall hok).mp hpass⟩
  · intro hno
    have hall := (all_moves_of_aside h).mpr hno.aside
    exact ⟨⟨hall, hno.mkdir, hno.escort, hno.images, hno.define, hno.start, hno.rebase,
      (hunlinks hall hno.images).mpr hno.unlink⟩, hno.isEfiEnabled⟩

/-- A batch that passes leaves nothing old. -/
theorem clean_of_passes (hpasses : Batch.Passes (batch below r) (built below kinds r)) :
    OldOnly (r.home :: r.disks) (fun _ => False)
      ((Batch.redoAll (batch below r) (built below kinds r)).destroy below).fs := by
  obtain ⟨hall, hrest⟩ := (passes_batch h).mp hpasses
  obtain ⟨-, -, hok, -, -, -, hunlinks⟩ := passes_rest_split.mp hrest
  have hold := (@grown_restored below kinds r hok).1.oldOnly (olds_nonempty h)
    (setAside_oldOnly h hall)
  obtain ⟨hclean, -⟩ := unlinks_clean hunlinks hold
  have hend : Batch.redoAll (batch below r) (built below kinds r) =
      Batch.redoAll (r.m_componentList.map (unlinkOld below r)) (restored below kinds r) := by
    have hfirst : Batch.redoAll (batch below r) (built below kinds r) =
        Batch.redoAll (rest below r) ((addBackupObject below).redo (built below kinds r)).2 := rfl
    rw [hfirst, redo_backup h]
    exact Batch.redoAll_append (addCraftImages below 0 r.components) _ _
  rw [hend]
  exact (clean_closed below _).assembly_destroy (fun _ _ => trivial) (fun _ _ => trivial) _ hclean

/-- The online restore over an existing VM keeps its promise exactly when nothing fails. -/
theorem atomic_iff : Atomic below kinds r ↔ NoFailure kinds r := by
  rw [← passes_iff h]
  have hne : batch below r ≠ [] := List.cons_ne_nil _ _
  have habsent := handle_absent h
  have hlost : ¬ ((handle below r (before kinds)).2.fs = initial kinds ∧
      (handle below r (before kinds)).2.domain = some .object) := by
    rintro ⟨hfs, -⟩
    obtain ⟨k, hk⟩ := Option.ne_none_iff_exists'.mp h.home
    rw [hfs] at habsent
    exact habsent ⟨r.home, k, []⟩ (initial_eq_some.mpr ⟨k, hk, rfl⟩) rfl
  unfold Atomic
  dsimp only
  by_cases hpass : Batch.Passes (batch below r) (built below kinds r) ∧ r.isEfiEnabled = false
  · obtain ⟨hpasses, hefi⟩ := hpass
    have hdone : handle below r (before kinds) = (.success,
        (Batch.redoAll (batch below r) (built below kinds r)).destroy below) := by
      rw [handle_eq, if_neg (by rw [hefi]; exact Bool.false_ne_true),
        Batch.execute_of_passes hne hpasses]
    rw [hdone]
    exact iff_of_true (clean_of_passes h hpasses) ⟨hpasses, hefi⟩
  · have hfailed : (handle below r (before kinds)).1.failed = true := by
      rw [handle_eq]
      split
      · rfl
      · rename_i hefi
        apply (Batch.execute_failed_iff hne).mpr
        intro hpasses
        exact hpass ⟨hpasses, Bool.eq_false_iff.mpr hefi⟩
    rw [if_pos hfailed]
    exact iff_of_false hlost hpass

end Atomic

end Requests

/-- A VM with one image outside of its folder, and a backup for which every call succeeds. -/
def plainRequest : Request where
  home := "/vz/a"
  images := ["disk.hdd", "/data/b.hdd"]
  uuid := "u"
  isEfiEnabled := false
  components := [⟨⟨"/vz/a/disk.hdd", "/vz/a"⟩, .success, .success, .success, .success⟩]
  may := fun _ _ => true
  mkdir := .success
  escort := .success
  define := .success
  start := .success
  rebase := .success
  unlink := fun _ => true

def plainKinds (path : String) : Option Kind :=
  if path = "/vz/a" then some .folder else if path = "/data/b.hdd" then some .file else none

theorem within_get {p q : String} (h : Within pathBelow p q) {k : Nat}
    (hk : k < p.toList.length) : q.toList[k]? = p.toList[k]? := by
  cases h with
  | inl heq => rw [heq]
  | inr hbelow =>
      have hprefix : p.toList <+: q.toList :=
        (List.prefix_append _ _).trans (List.isPrefixOf_iff_prefix.mp hbelow)
      obtain ⟨rest, hrest⟩ := hprefix
      rw [← hrest, List.getElem?_append_left hk]

theorem plainRequest_items :
    plainRequest.items = [plainRequest.external "/data/b.hdd", plainRequest.essential] := by
  rfl

theorem plainRequest_existing : Existing pathBelow plainKinds plainRequest where
  home_ne := by decide
  home := by decide
  fresh := by decide
  apart := by
    rw [plainRequest_items]
    intro i hi
    simp only [List.mem_cons, List.not_mem_nil, or_false] at hi
    rcases hi with rfl | rfl
    · constructor <;> unfold Apart <;> decide
    · constructor <;> unfold Apart <;> decide
  separate := by
    rw [plainRequest_items]
    have hdisk : ∀ p, region pathBelow (plainRequest.external "/data/b.hdd") p →
        p.toList[1]? = some 'd' := by
      intro p hp
      rw [region_eq _ (by decide)] at hp
      rcases hp with h | h | h
      · exact within_get h (by decide)
      · exact within_get h (by decide)
      · exact within_get h (by decide)
    have hhome : ∀ p, region pathBelow plainRequest.essential p → p.toList[1]? = some 'v' := by
      intro p hp
      rw [region_eq _ (by decide)] at hp
      rcases hp with h | h | h
      · exact within_get h (by decide)
      · exact within_get h (by decide)
      · exact within_get h (by decide)
    apply List.pairwise_pair.mpr
    intro p hp hp'
    have hchar := (hdisk p hp).symm.trans (hhome p hp')
    cases hchar
  undoes := fun _ _ _ => rfl

/-- The restore of the plain VM is atomic. -/
theorem atomic_plain : Atomic pathBelow plainKinds plainRequest :=
  (atomic_iff plainRequest_existing).mpr
    ⟨by decide, by decide, by decide, by decide, by decide, by decide, by decide, by decide,
      by decide⟩

/-- The backup of a VM with EFI is refused, and the VM is gone. -/
theorem not_atomic_efi :
    ¬ Atomic pathBelow plainKinds { plainRequest with isEfiEnabled := true } := by
  intro h
  have hfs := congrFun (h.1 : _ = initial plainKinds) "/vz/a"
  revert hfs
  decide

end DispService.Restore.Online
