import DispService.Backup.Incremental

/-! When a backup is made on top of the last ones with good reason, and when its archives are based
on those of the same disks. -/
namespace DispService.Backup.Creation

open Lib Product

/-- The names of the images that get an archive, in order. -/
def imageNames (c : Config) : List QString :=
  let p : Model := ⟨[], [], c.hardDisks, .tib⟩
  (p.getImages.filter fun h => !h.isRaw).map fun h => Model.chopped h.systemName

/-- The archives for the names, as the loop of `getVmTibs` finds them. -/
def archivesFor (fuel : Nat) (suffix : Suffix) :
    List QString → List QString → Option (List (QString × QString))
  | [], _ => some []
  | n :: g, w => do
      let t ← freeName '_' w fuel (QFileInfo.fileName n ++ suffix.text)
      let rest ← archivesFor fuel suffix g (w ++ [t])
      return (n, t) :: rest

/-- The names of the archives of a configuration in an item. -/
def archivesOf (c : Config) (n : Nat) : List (QString × QString) :=
  (archivesFor (c.hardDisks.length + 1) (.numbered PRL_PARTIAL_BACKUP_START_NUMBER n)
    (imageNames c) []).getD []

section Archives

variable {fuel fuel' : Nat} {suffix : Suffix} {names met : List QString}
  {l : List (QString × QString)}

theorem archivesFor_fst (h : archivesFor fuel suffix names met = some l) :
    l.map Prod.fst = names := by
  induction names generalizing met l with
  | nil =>
    cases h
    rfl
  | cons n g ih =>
    simp only [archivesFor, Option.bind_eq_bind, Option.bind_eq_some_iff, Option.pure_def,
      Option.some.injEq] at h
    obtain ⟨t, -, rest, hrest, rfl⟩ := h
    rw [List.map_cons, ih hrest]

theorem archivesFor_mono (hle : fuel ≤ fuel') (h : archivesFor fuel suffix names met = some l) :
    archivesFor fuel' suffix names met = some l := by
  induction names generalizing met l with
  | nil => exact h
  | cons n g ih =>
    simp only [archivesFor, Option.bind_eq_bind, Option.bind_eq_some_iff, Option.pure_def,
      Option.some.injEq] at h ⊢
    obtain ⟨t, ht, rest, hrest, rfl⟩ := h
    exact ⟨t, freeName_mono hle ht, rest, ih hrest, rfl⟩

/-- A name that is found is that of its file in the store. -/
theorem fileName_found {t n store : QString}
    (h : freeName '_' met fuel (QFileInfo.fileName n ++ suffix.text) = some t) :
    QFileInfo.fileName (QFileInfo.filePath store t) = t := by
  obtain ⟨k, rfl⟩ := freeName_eq h
  apply QFileInfo.fileName_filePath
  · simp [QFileInfo.fileName_slash, suffix.slash]
  · simp [suffix.ne_nil]

/-- The loop reads just the names of the images. -/
theorem vmTibs_archives (p : Model) (images : List HardDisk) :
    (p.vmTibs fuel images met).map (List.map fun t => (t.1.image, archiveName t)) =
      archivesFor fuel p.suffix
        ((images.filter fun h => !h.isRaw).map fun h => Model.chopped h.systemName) met := by
  induction images generalizing met with
  | nil => rfl
  | cons h g ih =>
    rw [Model.vmTibs]
    cases hraw : h.isRaw with
    | true =>
      rw [if_pos rfl, List.filter_cons_of_neg (by simp [hraw])]
      exact ih
    | false =>
      rw [List.filter_cons_of_pos (by simp [hraw]), List.map_cons, archivesFor]
      simp only [Bool.false_eq_true, if_false, Model.getTibName, Option.bind_eq_bind,
        Option.pure_def]
      cases hname : freeName '_' met fuel
          (QFileInfo.fileName (Model.chopped h.systemName) ++ p.suffix.text) with
      | none => rfl
      | some t =>
        have hfile : QFileInfo.fileName (QFileInfo.filePath p.store t) = t := fileName_found hname
        simp only [Option.bind_some, hfile]
        rw [← ih]
        cases p.vmTibs fuel g (met ++ [t]) with
        | none => rfl
        | some rest => simp [archiveName, hfile]

variable {r : Request} {c : Config} {uuid : String} {n : Nat}

theorem archivesFor_some (c : Config) (n : Nat) :
    archivesFor (c.hardDisks.length + 1) (.numbered PRL_PARTIAL_BACKUP_START_NUMBER n)
      (imageNames c) [] = some (archivesOf c n) := by
  let p : Model := ⟨[], [], c.hardDisks, .numbered PRL_PARTIAL_BACKUP_START_NUMBER n⟩
  have henough : p.getImages.length < c.hardDisks.length + 1 :=
    Nat.lt_succ_of_le (List.length_filter_le _ _)
  obtain ⟨tibs, htibs, -⟩ := getVmTibs_assigned henough
  have hloop : (p.vmTibs (c.hardDisks.length + 1) p.getImages []).map
      (List.map fun t => (t.1.image, archiveName t)) = _ := vmTibs_archives p p.getImages
  rw [show p.vmTibs _ p.getImages [] = some tibs from htibs, Option.map_some] at hloop
  have hsome : archivesFor (c.hardDisks.length + 1) (.numbered PRL_PARTIAL_BACKUP_START_NUMBER n)
      (imageNames c) [] = some _ := hloop.symm
  rw [archivesOf, hsome]
  rfl

/-- The archives of an item are those of the names of its images. -/
theorem product_archives : (r.product uuid n).map (fun t => (t.1.image, archiveName t)) =
    archivesOf r.config n := by
  let p : Model := ⟨r.getSequence uuid, r.home, r.config.hardDisks,
    .numbered PRL_PARTIAL_BACKUP_START_NUMBER n⟩
  have hloop : (p.vmTibs (r.config.hardDisks.length + 1) p.getImages []).map
      (List.map fun t => (t.1.image, archiveName t)) = _ := vmTibs_archives p p.getImages
  have hsome := hloop.trans (archivesFor_some r.config n)
  obtain ⟨tibs, htibs, heq⟩ := Option.map_eq_some_iff.mp hsome
  have hproduct : r.product uuid n = tibs := by
    rw [Request.product, vmTibsOf, show Model.getVmTibs _ _ = some tibs from htibs]
    rfl
  rw [hproduct]
  exact heq

/-- Alike names make alike archives. -/
theorem archivesOf_congr {c' : Config} (h : imageNames c = imageNames c') :
    archivesOf c n = archivesOf c' n := by
  have hsome := archivesFor_some c n
  have hsome' := archivesFor_some c' n
  rw [← h] at hsome'
  rcases Nat.le_total c.hardDisks.length c'.hardDisks.length with hle | hle
  · exact Option.some.inj ((archivesFor_mono (by omega) hsome).symm.trans hsome')
  · exact Option.some.inj (hsome.symm.trans (archivesFor_mono (by omega) hsome'))

end Archives

section Decision

variable {absolute : QString → QString → QString} {r : Request} {s : Catalog} {q : Sequence}
  {head : Item} {d : Decision}

/-- A last base is a sequence of the catalogue that has a head. -/
def Taken (s : Catalog) (a : Option (Sequence × Nat)) : Prop :=
  ∀ x ∈ a, (∃ u, s u = some x.1) ∧ x.1.items ≠ []

theorem later_taken {a a' : Option (Sequence × Nat)} {u : String} (ha : Taken s a)
    (h : r.later s a u = .ok a') : Taken s a' := by
  unfold Request.later at h
  split at h
  · cases h
    exact ha
  · next q hq =>
    split at h
    · cases h
      exact ha
    · split at h
      · cases h
      · next b rest hitems =>
        split at h
        · cases h
          rintro _ ⟨⟩
          exact ⟨⟨u, hq⟩, by simp [hitems]⟩
        · cases h
          exact ha

theorem foldlM_taken {l : List String} {a a' : Option (Sequence × Nat)} (ha : Taken s a)
    (h : l.foldlM (r.later s) a = .ok a') : Taken s a' := by
  induction l generalizing a with
  | nil =>
    cases h
    exact ha
  | cons u l ih =>
    rw [List.foldlM_cons] at h
    cases hround : r.later s a u with
    | error e =>
      rw [hround] at h
      cases h
    | ok b =>
      rw [hround] at h
      exact ih (later_taken ha hround) h

theorem lastBase_taken (h : r.getLastBaseBackup s = .ok (some q)) :
    (∃ u, s u = some q) ∧ ∃ head, q.items.head? = some head := by
  unfold Request.getLastBaseBackup at h
  cases hloop : r.getIndexForWrite.foldlM (r.later s) none with
  | error e =>
    rw [hloop] at h
    cases h
  | ok a =>
    rw [hloop] at h
    have htaken : Taken s a := foldlM_taken (fun _ hx => by cases hx) hloop
    cases a with
    | none => cases h
    | some x =>
      cases h
      obtain ⟨hin, hne⟩ := htaken x rfl
      refine ⟨hin, ?_⟩
      obtain ⟨head, rest, hitems⟩ := List.exists_cons_of_ne_nil hne
      exact ⟨head, by rw [hitems]; rfl⟩

/-- The last tests for a backup on top of a sequence. -/
def Passes (absolute : QString → QString → QString) (r : Request) (q : Sequence) (head : Item) :
    Prop :=
  r.vzfs = true ∨ r.loadsConfig = true ∧
    (if r.remoteV4 then q.uuid ∈ r.bitmaps else r.SameDisks absolute head)

theorem wasHddListChanged_eq (hhead : q.items.head? = some head) :
    r.wasHddListChanged absolute q =
      if r.loadsConfig then .ok (decide (¬ r.SameDisks absolute head))
      else .error .backupInternalError := by
  unfold Request.wasHddListChanged
  cases hitems : q.items with
  | nil =>
    rw [hitems] at hhead
    cases hhead
  | cons x rest =>
    rw [hitems] at hhead
    cases hhead
    rfl

/-- A backup that is not a full one is the next one of the last base. -/
theorem guess_incremental_iff (hhead : q.items.head? = some head) :
    r.guessBackupType absolute (some q) = .ok d ∧ d.full = false ↔
      d = ⟨false, q.uuid, q.next⟩ ∧ r.full = false ∧ q.Continues ∧ Passes absolute r q head := by
  unfold Request.guessBackupType Passes
  dsimp only
  by_cases hfull : r.full = true
  · rw [if_pos hfull]
    refine iff_of_false ?_ (fun h => by simp [hfull] at h)
    rintro ⟨h, hno⟩
    cases h
    cases hno
  rw [if_neg hfull]
  by_cases hnext : q.Continues
  swap
  · rw [if_pos hnext]
    refine iff_of_false ?_ (fun h => hnext h.2.2.1)
    rintro ⟨h, hno⟩
    cases h
    cases hno
  rw [if_neg (not_not.mpr hnext), wasHddListChanged_eq hhead]
  by_cases hvzfs : r.vzfs = true
  · rw [if_pos hvzfs]
    constructor
    · rintro ⟨h, -⟩
      cases h
      exact ⟨rfl, Bool.eq_false_iff.mpr hfull, hnext, .inl hvzfs⟩
    · rintro ⟨rfl, -⟩
      exact ⟨rfl, rfl⟩
  rw [if_neg hvzfs]
  by_cases hload : r.loadsConfig = true
  swap
  · rw [if_neg hload]
    refine iff_of_false (fun h => by cases h.1) ?_
    rintro ⟨-, -, -, h | ⟨h, -⟩⟩
    · exact hvzfs h
    · exact hload h
  rw [if_pos hload]
  have htest : (if r.remoteV4 = true then !r.bitmaps.contains q.uuid
      else decide (¬ r.SameDisks absolute head)) = true ↔
      ¬ (if r.remoteV4 = true then q.uuid ∈ r.bitmaps else r.SameDisks absolute head) := by
    split <;> simp
  by_cases hlast : if r.remoteV4 = true then q.uuid ∈ r.bitmaps else r.SameDisks absolute head
  · have hpass := mt htest.mp (not_not.mpr hlast)
    simp only [Bind.bind, Except.bind, Pure.pure, Except.pure, if_neg hpass]
    constructor
    · rintro ⟨h, -⟩
      cases h
      exact ⟨rfl, Bool.eq_false_iff.mpr hfull, hnext, .inr ⟨hload, hlast⟩⟩
    · rintro ⟨rfl, -⟩
      exact ⟨rfl, rfl⟩
  · simp only [Bind.bind, Except.bind, Pure.pure, Except.pure, if_pos (htest.mpr hlast)]
    refine iff_of_false ?_ ?_
    · rintro ⟨h, hno⟩
      cases h
      cases hno
    · rintro ⟨-, -, -, h | ⟨-, h⟩⟩
      · exact hvzfs h
      · exact hlast h

/-- What is decided for a request. -/
def decision (absolute : QString → QString → QString) (r : Request) (s : Catalog) :
    Except Failure Decision :=
  (r.getLastBaseBackup s).bind (r.guessBackupType absolute)

theorem decision_incremental_iff : decision absolute r s = .ok d ∧ d.full = false ↔
    ∃ q head, r.getLastBaseBackup s = .ok (some q) ∧ q.items.head? = some head ∧
      d = ⟨false, q.uuid, q.next⟩ ∧ r.full = false ∧ q.Continues ∧ Passes absolute r q head := by
  unfold decision
  constructor
  · rintro ⟨hd, hfull⟩
    cases hlast : r.getLastBaseBackup s with
    | error e =>
      rw [hlast] at hd
      cases hd
    | ok last =>
      rw [hlast] at hd
      cases last with
      | none =>
        have hbase : r.guessBackupType absolute none = .ok ⟨true, r.createUuid, BASE⟩ := by
          unfold Request.guessBackupType
          split <;> rfl
        cases hbase.symm.trans hd
        cases hfull
      | some q =>
        obtain ⟨-, head, hhead⟩ := lastBase_taken hlast
        exact ⟨q, head, rfl, hhead, (guess_incremental_iff hhead).mp ⟨hd, hfull⟩⟩
  · rintro ⟨q, head, hlast, hhead, h⟩
    rw [hlast]
    exact (guess_incremental_iff hhead).mpr h

end Decision

section Run

variable {absolute : QString → QString → QString} {r : Request} {s s' : Catalog} {q : Sequence}

/-- What the metadata of a head tell about its sequence. -/
structure Kept (u : String) (q : Sequence) : Prop where
  uuid : q.uuid = u
  ascending : q.index.Pairwise (· < ·)
  range : ∀ n ∈ q.index, BASE ≤ n ∧ n ≤ q.lastCreated
  last : q.lastNumber = q.lastCreated ∨ q.lastNumber = 0 ∧ ∀ n ∈ q.index, n = q.lastCreated
  archives : ∀ x ∈ q.items, x.remoteV4 = true → x.archives = archivesOf x.config x.number

/-- Fewer items are kept as well. -/
theorem Kept.sublist {u : String} {items : List Item} (h : Kept u q) (hle : items.Sublist q.items) :
    Kept u { q with items := items } := by
  have hindex : (items.map Item.number).Sublist q.index := hle.map _
  refine ⟨h.uuid, h.ascending.sublist hindex, fun n hn => h.range n (hindex.subset hn), ?_,
    fun x hx => h.archives x (hle.subset hx)⟩
  rcases h.last with hlast | ⟨hzero, hall⟩
  · exact .inl hlast
  · exact .inr ⟨hzero, fun n hn => hall n (hindex.subset hn)⟩

theorem Kept.remove {u : String} {keepChain : Bool} {number : Nat} {q' : Sequence} (h : Kept u q)
    (hq : q.remove keepChain number = some q') : Kept u q' := by
  unfold Sequence.remove at hq
  split at hq
  · cases hq
    exact h.sublist (List.filter_sublist)
  · split at hq
    · cases hq
      exact h.sublist (List.filter_sublist)
    · cases hq

/-- The next number is larger than those of the items. -/
theorem Kept.next {u : String} (h : Kept u q) : ∀ n ∈ q.index, n < q.next := by
  intro n hn
  have hne : q.index ≠ [] := List.ne_nil_of_mem hn
  have hnext : q.next = q.index.getLast hne + 1 := by
    rw [Sequence.next, List.getLast?_eq_some_getLast hne]
  rw [hnext]
  have hsplit := List.dropLast_append_getLast hne
  rw [← hsplit] at hn
  rcases List.mem_append.mp hn with hfront | hlast
  · have hasc := h.ascending
    rw [← hsplit, List.pairwise_append] at hasc
    have hlt := hasc.2.2 n hfront _ (List.mem_singleton_self _)
    omega
  · rw [List.mem_singleton] at hlast
    omega

theorem item_archives (d : Decision) (h : r.remoteV4 = true) :
    (r.item d).archives = archivesOf r.config d.number := by
  have hmap : ((r.product d.uuid d.number).mapIdx fun i t =>
      (t.1, archiveName t,
        (if PRL_PARTIAL_BACKUP_START_NUMBER ≤ d.number then r.product d.uuid (d.number - 1)
          else [])[i]?.map archiveName)).map (fun t => (t.1.image, t.2.1)) =
      (r.product d.uuid d.number).map fun t => (t.1.image, archiveName t) := by
    apply List.ext_getElem?
    intro i
    rw [List.getElem?_map, List.getElem?_mapIdx, Option.map_map, List.getElem?_map]
    rfl
  simp only [Request.item, h, if_true, Request.prepareImages]
  rw [hmap, product_archives]

/-- A new sequence. -/
theorem Kept.base (r : Request) (d : Decision) (hd : d.number = BASE) :
    Kept d.uuid ⟨d.uuid, [r.item d], 0, BASE⟩ := by
  have hindex : Sequence.index ⟨d.uuid, [r.item d], 0, BASE⟩ = [BASE] := by
    rw [← hd]
    rfl
  refine ⟨rfl, by rw [hindex]; exact List.pairwise_singleton _ _, ?_, .inr ⟨rfl, ?_⟩, ?_⟩
  · intro n hn
    rw [hindex, List.mem_singleton] at hn
    exact ⟨Nat.le_of_eq hn.symm, Nat.le_of_eq hn⟩
  · intro n hn
    rw [hindex, List.mem_singleton] at hn
    exact hn
  · intro x hx hv4
    cases List.mem_singleton.mp hx
    exact item_archives d hv4

/-- One more item. -/
theorem Kept.append {u : String} {d : Decision} (h : Kept u q) (hd : d.number = q.next)
    (hpos : BASE ≤ d.number) :
    Kept u { q with items := q.items ++ [r.item d], lastNumber := d.number, lastCreated := d.number } := by
  have hindex : Sequence.index { q with
      items := q.items ++ [r.item d], lastNumber := d.number, lastCreated := d.number } =
      q.index ++ [d.number] := by
    rw [Sequence.index, List.map_append]
    rfl
  have hlt : ∀ n ∈ q.index, n < d.number := by
    rw [hd]
    exact h.next
  refine ⟨h.uuid, ?_, ?_, .inl rfl, ?_⟩
  · rw [hindex, List.pairwise_append]
    refine ⟨h.ascending, List.pairwise_singleton _ _, fun n hn k hk => ?_⟩
    rw [List.mem_singleton.mp hk]
    exact hlt n hn
  · intro n hn
    rw [hindex] at hn
    rcases List.mem_append.mp hn with hn | hn
    · exact ⟨(h.range n hn).1, Nat.le_of_lt (hlt n hn)⟩
    · rw [List.mem_singleton.mp hn]
      exact ⟨hpos, Nat.le_refl _⟩
  · intro x hx hv4
    rcases List.mem_append.mp hx with hx | hx
    · exact h.archives x hx hv4
    · cases List.mem_singleton.mp hx
      exact item_archives d hv4

/-- Every sequence is kept. -/
def Invariant (s : Catalog) : Prop :=
  ∀ u q, s u = some q → Kept u q

theorem Invariant.update {u : String} {x : Option Sequence} (h : Invariant s)
    (hx : ∀ q ∈ x, Kept u q) : Invariant (Function.update s u x) := by
  intro v q hq
  by_cases hv : v = u
  · subst hv
    rw [Function.update_self] at hq
    exact hx q hq
  · rw [Function.update_of_ne hv] at hq
    exact h v q hq

/-- The last base is the sequence of its uuid. -/
theorem Invariant.lastBase (h : Invariant s) (hq : r.getLastBaseBackup s = .ok (some q)) :
    s q.uuid = some q := by
  obtain ⟨⟨u, hu⟩, -⟩ := lastBase_taken hq
  rw [(h u q hu).uuid]
  exact hu

theorem base_le_next (q : Sequence) : BASE ≤ q.next := by
  unfold Sequence.next
  split
  · exact Nat.le_refl _
  · exact Nat.le_add_left _ _

theorem guess_full {last : Option Sequence} {d : Decision}
    (h : r.guessBackupType absolute last = .ok d) (hfull : d.full = true) : d.number = BASE := by
  unfold Request.guessBackupType at h
  dsimp only at h
  split at h
  · cases h
    rfl
  split at h
  · cases h
    rfl
  split at h
  · cases h
    rfl
  split at h
  · cases h
    cases hfull
  next q _ _ =>
    cases hchanged : r.wasHddListChanged absolute q with
    | error e =>
      rw [hchanged] at h
      cases h
    | ok f =>
      simp only [hchanged, Bind.bind, Except.bind, Pure.pure, Except.pure, Except.ok.injEq] at h
      generalize (if r.remoteV4 = true then !r.bitmaps.contains q.uuid else f) = g at h
      subst h
      cases g with
      | true => rfl
      | false => cases hfull

theorem decision_full {d : Decision} (h : decision absolute r s = .ok d) (hfull : d.full = true) :
    d.number = BASE := by
  unfold decision at h
  cases hlast : r.getLastBaseBackup s with
  | error e =>
    rw [hlast] at h
    cases h
  | ok last =>
    rw [hlast] at h
    exact guess_full h hfull

theorem Invariant.perform {o : Operation} (h : Invariant s) (ho : perform absolute s o = some s') :
    Invariant s' := by
  cases o with
  | create r =>
    have hcreate : r.create absolute s = some s' := ho
    unfold Request.create at hcreate
    split at hcreate
    · cases hcreate
    · next d hd =>
      split at hcreate
      · next hfull hnone =>
        cases hcreate
        refine h.update ?_
        rintro _ ⟨⟩
        exact .base r d (decision_full hd hfull)
      · next q hfull hq =>
        cases hcreate
        refine h.update ?_
        rintro _ ⟨⟩
        obtain ⟨q', head, hlast, -, rfl, -⟩ := decision_incremental_iff.mp ⟨hd, hfull⟩
        have hsame := h.lastBase hlast
        cases hq.symm.trans hsame
        exact (h _ q hq).append rfl (base_le_next q)
      · cases hcreate
  | remove keepChain uuid number =>
    simp only [Creation.perform] at ho
    split at ho
    · cases ho
    · next q hq =>
      split at ho
      · cases ho
      · cases ho
        exact h.update fun q' hq' => (h uuid q hq).remove hq'
  | removeAll =>
    cases ho
    intro u q hq
    cases hq

/-- There is good reason for a backup on top of a sequence. -/
structure Justified (absolute : QString → QString → QString) (r : Request) (q : Sequence) :
    Prop where
  asked : r.full = false
  last : q.index.getLast? = some q.lastCreated
  disks : ∃ head ∈ q.items.head?, r.SameDisks absolute head
  bitmap : r.remoteV4 = true → q.uuid ∈ r.bitmaps

/-- Just with good reason a backup is made on top of a sequence. -/
def Justifies (absolute : QString → QString → QString) (r : Request) (s : Catalog) : Prop :=
  ∀ d, decision absolute r s = .ok d → d.full = false →
    ∃ q, r.getLastBaseBackup s = .ok (some q) ∧ q.uuid = d.uuid ∧ s d.uuid = some q ∧
      Justified absolute r q

/-- Each new archive is based on that of the same disk in the last item. -/
def BasedAlike (absolute : QString → QString → QString) (r : Request) (s : Catalog) : Prop :=
  ∀ d, decision absolute r s = .ok d → d.full = false → ∀ q, s d.uuid = some q →
    ∀ t ∈ r.prepareImages d.uuid d.number, ∃ x ∈ q.items.getLast?, ∃ a ∈ x.archives,
      a.1 = t.1.image ∧ t.2.2 = some a.2

/-- The disks are the same wherever their test does not count, and there is a bitmap where it is not
looked for. -/
def Tested (absolute : QString → QString → QString) (r : Request) (s : Catalog) : Prop :=
  ∀ q head, r.getLastBaseBackup s = .ok (some q) → q.items.head? = some head → r.full = false →
    q.Continues →
      (r.vzfs = true → r.SameDisks absolute head ∧ (r.remoteV4 = true → q.uuid ∈ r.bitmaps)) ∧
      (r.vzfs = false → r.loadsConfig = true → r.remoteV4 = true → q.uuid ∈ r.bitmaps →
        r.SameDisks absolute head)

/-- The last item has archives of images with the names of the present ones, in the same order. -/
def NamedAlike (r : Request) (s : Catalog) : Prop :=
  ∀ q, r.getLastBaseBackup s = .ok (some q) → r.full = false → r.remoteV4 = true → q.Continues →
    ∀ x ∈ q.items.getLast?, x.remoteV4 = true ∧ imageNames x.config = imageNames r.config

/-- The last item is that which was created last. -/
theorem Kept.continues {u : String} {head : Item} (h : Kept u q) (hhead : q.items.head? = some head)
    (hnext : q.Continues) : q.index.getLast? = some q.lastCreated := by
  have hmem : head.number ∈ q.index := List.mem_map_of_mem (List.mem_of_mem_head? hhead)
  have hne : q.index ≠ [] := List.ne_nil_of_mem hmem
  have hlast := List.getLast?_eq_some_getLast hne
  have heq : q.next = q.index.getLast hne + 1 := by
    rw [Sequence.next, hlast]
  rw [hlast, Option.some.injEq]
  rcases h.last with hnumber | ⟨-, hall⟩
  · have hpos : q.lastNumber ≠ 0 := by
      have hrange := h.range _ hmem
      unfold BASE at hrange
      omega
    have hcontinues := hnext hpos
    omega
  · exact hall _ (List.getLast_mem hne)

theorem justifies_iff (h : Invariant s) : Justifies absolute r s ↔ Tested absolute r s := by
  constructor
  · intro hjust q head hlast hhead hfull hnext
    have hpass : Passes absolute r q head →
        r.SameDisks absolute head ∧ (r.remoteV4 = true → q.uuid ∈ r.bitmaps) := by
      intro hpass
      obtain ⟨hd, hno⟩ := decision_incremental_iff.mpr
        ⟨q, head, hlast, hhead, rfl, hfull, hnext, hpass⟩
      obtain ⟨q', hlast', -, -, justified⟩ := hjust _ hd hno
      cases hlast.symm.trans hlast'
      obtain ⟨head', hhead', hsame⟩ := justified.disks
      cases hhead.symm.trans hhead'
      exact ⟨hsame, justified.bitmap⟩
    refine ⟨fun hvzfs => hpass (.inl hvzfs), fun _ hload hv4 hbitmap => ?_⟩
    exact (hpass (.inr ⟨hload, by rw [if_pos hv4]; exact hbitmap⟩)).1
  · intro htested d hd hno
    obtain ⟨q, head, hlast, hhead, rfl, hfull, hnext, hpass⟩ :=
      decision_incremental_iff.mp ⟨hd, hno⟩
    have hq := h.lastBase hlast
    refine ⟨q, hlast, rfl, hq, hfull, (h _ q hq).continues hhead hnext, ?_, ?_⟩
    · obtain ⟨hvzfs, htest⟩ := htested q head hlast hhead hfull hnext
      refine ⟨head, hhead, ?_⟩
      rcases hpass with hpass | ⟨hload, hpass⟩
      · exact (hvzfs hpass).1
      · cases hv : r.vzfs with
        | true => exact (hvzfs hv).1
        | false =>
          split at hpass
          · next hv4 => exact htest hv hload hv4 hpass
          · exact hpass
    · intro hv4
      rcases hpass with hpass | ⟨-, hpass⟩
      · exact ((htested q head hlast hhead hfull hnext).1 hpass).2 hv4
      · rw [if_pos hv4] at hpass
        exact hpass

theorem basedAlike (h : Invariant s) (hnames : NamedAlike r s) : BasedAlike absolute r s := by
  intro d hd hno q hq t ht
  obtain ⟨q', head, hlast, hhead, rfl, hfull, hnext, -⟩ := decision_incremental_iff.mp ⟨hd, hno⟩
  cases hq.symm.trans (h.lastBase hlast)
  have hkept := h _ q hq
  have hne : q.items ≠ [] := List.ne_nil_of_mem (List.mem_of_mem_head? hhead)
  have hitem := List.getLast?_eq_some_getLast hne
  have hmem := List.getLast_mem hne
  generalize q.items.getLast hne = x at hitem hmem
  cases hv4 : r.remoteV4 with
  | false => simp [Request.prepareImages, hv4] at ht
  | true =>
    obtain ⟨hxv4, halike⟩ := hnames q hlast hfull hv4 hnext x hitem
    have hnumber : q.next = x.number + 1 := by
      rw [Sequence.next, Sequence.index, List.getLast?_map, hitem]
      rfl
    have hpos : BASE ≤ x.number := (hkept.range _ (List.mem_map_of_mem hmem)).1
    have hbase : PRL_PARTIAL_BACKUP_START_NUMBER ≤ x.number + 1 := Nat.succ_le_succ hpos
    have harchives : x.archives =
        (r.product q.uuid x.number).map fun t => (t.1.image, archiveName t) := by
      rw [hkept.archives x hmem hxv4, product_archives]
      exact archivesOf_congr halike
    simp only [Request.prepareImages, hv4, if_true, hnumber, if_pos hbase, Nat.add_sub_cancel] at ht
    obtain ⟨i, hi, rfl⟩ := List.mem_mapIdx.mp ht
    have himages : ∀ n, (r.product q.uuid n).map (fun t => t.1.image) = imageNames r.config := by
      intro n
      have hfst := archivesFor_fst (archivesFor_some r.config n)
      have hproduct : (r.product q.uuid n).map (fun t => (t.1.image, archiveName t)) =
          archivesOf r.config n := product_archives
      rw [← hproduct, List.map_map] at hfst
      exact hfst
    have hlength : (r.product q.uuid x.number).length = (r.product q.uuid (x.number + 1)).length := by
      rw [← List.length_map (f := fun t => t.1.image), himages, ← himages (x.number + 1),
        List.length_map]
    have hi' : i < (r.product q.uuid x.number).length := by omega
    have himage : (r.product q.uuid x.number)[i].1.image =
        (r.product q.uuid (x.number + 1))[i].1.image := by
      have hsame := (himages x.number).trans (himages (x.number + 1)).symm
      have hget := congrArg (fun l => l[i]?) hsame
      simpa [hi, hi'] using hget
    refine ⟨x, hitem, ((r.product q.uuid x.number)[i].1.image,
      archiveName (r.product q.uuid x.number)[i]), ?_, himage, ?_⟩
    · rw [harchives]
      exact List.mem_map_of_mem (List.getElem_mem hi')
    · rw [List.getElem?_eq_getElem hi']
      rfl

/-- After every run, backups are made on top of others with good reason just if the tests that do
not count would pass; and archives are based alike if the images are named as those of the last
item. -/
theorem run_justifies_iff {ops : List Operation}
    (run : Run (fun s o t => perform absolute s o = some t) (fun _ => none) ops s) (r : Request) :
    (Justifies absolute r s ↔ Tested absolute r s) ∧
      (NamedAlike r s → BasedAlike absolute r s) := by
  have h : Invariant s := run.preserves (fun _ _ _ h hstep => h.perform hstep) (fun _ _ h => by cases h)
  exact ⟨justifies_iff h, basedAlike h⟩

end Run

/-- A request for a machine with one disk, whose only sequence is `s`. -/
def oneDisk (name : QString) : Request where
  full := false
  vzfs := false
  remoteV4 := true
  bitmaps := ["s"]
  config := ⟨.vm, [imageNamed 0 name], fun _ => 1⟩
  home := ['/', 'h', '/']
  currentDateTime := 1
  createUuid := "s"
  getIndexForWrite := ["s"]
  locked := fun _ => false
  loadsHead := fun _ => true
  loadsConfig := true
  getSequence := fun _ => ['/', 's']
  loadTibFiles := []

/-- After the first backup. -/
def afterFirst : Catalog :=
  Function.update (fun _ => none) "s" (some ⟨"s", [(oneDisk ['a']).item ⟨true, "s", 1⟩], 0, 1⟩)

theorem run_first :
    Run (fun s o t => perform (· ++ ·) s o = some t) (fun _ => none) [.create (oneDisk ['a'])]
      afterFirst :=
  .cons rfl (.nil _)

/-- The next backup of the same disk. -/
theorem run_justifies_again : (Justifies (· ++ ·) (oneDisk ['a']) afterFirst ↔
      Tested (· ++ ·) (oneDisk ['a']) afterFirst) ∧
    (NamedAlike (oneDisk ['a']) afterFirst → BasedAlike (· ++ ·) (oneDisk ['a']) afterFirst) :=
  run_justifies_iff run_first _

/-- With another disk, the backup is made on top of the first one. -/
theorem not_justifies_changed : ∃ ops s r,
    Run (fun s o t => perform (· ++ ·) s o = some t) (fun _ => none) ops s ∧
      ¬ Justifies (· ++ ·) r s := by
  refine ⟨_, _, oneDisk ['b'], run_first, fun h => ?_⟩
  obtain ⟨q, hlast, -, -, justified⟩ := h ⟨false, "s", 2⟩ rfl rfl
  have hq : (oneDisk ['b']).getLastBaseBackup afterFirst =
      .ok (some ⟨"s", [(oneDisk ['a']).item ⟨true, "s", 1⟩], 0, 1⟩) := rfl
  cases hq.symm.trans hlast
  obtain ⟨head, hhead, hsame⟩ := justified.disks
  cases hhead
  revert hsame
  decide

end DispService.Backup.Creation
