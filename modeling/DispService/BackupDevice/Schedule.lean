import DispService.BackupDevice.Service
import Mathlib.Data.List.Nodup
import Mathlib.Data.List.Flatten

/-! The events that a change of the attached backups takes, and the schedule that the partitioned
lists produce: the same events, each of them once. -/
namespace DispService.BackupDevice

open Lib

/-- What forbids the change: a disk that gets another URL, or one URL for two disks. -/
def Conflicting (old new : List CVmHardDisk) : Prop :=
  (∃ f ∈ old, ∃ d ∈ new, f.index = d.index ∧ Finding.getUrlPath f ≠ Finding.getUrlPath d) ∨
    ∃ d ∈ new, ∃ e ∈ new, d.index ≠ e.index ∧ Finding.getUrlPath d ≠ "" ∧
      Finding.getUrlPath d = Finding.getUrlPath e

/-- No disk of the list has the index. -/
def Missing (index : Int) (disks : List CVmHardDisk) : Prop :=
  ∀ d ∈ disks, d.index ≠ index

/-- The events that lead from the old disks to the new ones. -/
inductive Wanted (factory : Factory) (old new : List CVmHardDisk) : Event → Prop
  | setup {d} (hd : d ∈ new) (novel : Missing d.index old) :
      Wanted factory old new (.setup factory.uuid factory.home d)
  | setupDisabled {d} (hd : d ∈ new) (novel : Missing d.index old)
      (off : Finding.isEnabled d = false) :
      Wanted factory old new (.disable factory.uuid factory.home d)
  | enable {f d} (hf : f ∈ old) (hd : d ∈ new) (common : f.index = d.index)
      (off : Finding.isEnabled f = false) (on : Finding.isEnabled d = true) :
      Wanted factory old new (.enable factory.uuid d)
  | disable {f d} (hf : f ∈ old) (hd : d ∈ new) (common : f.index = d.index)
      (on : Finding.isEnabled f = true) (off : Finding.isEnabled d = false) :
      Wanted factory old new (.disable factory.uuid factory.home d)
  | teardown {f} (hf : f ∈ old) (gone : Missing f.index new)
      (vm : (factory.getVmTypeByUuid factory.uuid).getD .vm = .vm) :
      Wanted factory old new (.teardown factory.uuid factory.home f)
  | cleanup {f} (hf : f ∈ old) (gone : Missing f.index new)
      (ct : (factory.getVmTypeByUuid factory.uuid).getD .vm = .ct) :
      Wanted factory old new (.cleanup factory.uuid f)

section Membership

variable {old new old' new' : List CVmHardDisk} {factory : Factory}

theorem indexInRange_iff {range : List CVmHardDisk} {d : CVmHardDisk} :
    indexInRange range d = true ↔ ∃ r ∈ range, r.index = d.index := by
  simp [indexInRange]

theorem indexInRange_false {range : List CVmHardDisk} {d : CVmHardDisk} :
    indexInRange range d = false ↔ Missing d.index range := by
  rw [← Bool.not_eq_true, indexInRange_iff]
  simp [Missing]

theorem indexInRange_perm (h : old.Perm old') : indexInRange old = indexInRange old' := by
  funext d
  rw [Bool.eq_iff_iff, indexInRange_iff, indexInRange_iff]
  constructor
  · rintro ⟨r, hr, heq⟩
    exact ⟨r, h.mem_iff.mp hr, heq⟩
  · rintro ⟨r, hr, heq⟩
    exact ⟨r, h.mem_iff.mpr hr, heq⟩

theorem Missing.perm {index : Int} (h : old.Perm old') : Missing index old ↔ Missing index old' :=
  forall_congr' fun _ => by rw [h.mem_iff]

theorem Conflicting.perm (hold : old.Perm old') (hnew : new.Perm new') :
    Conflicting old new ↔ Conflicting old' new' := by
  simp only [Conflicting, hold.mem_iff, hnew.mem_iff]

theorem Wanted.perm {e : Event} (hold : old.Perm old') (hnew : new.Perm new')
    (h : Wanted factory old new e) : Wanted factory old' new' e := by
  cases h with
  | setup hd novel => exact .setup (hnew.mem_iff.mp hd) ((Missing.perm hold).mp novel)
  | setupDisabled hd novel off =>
      exact .setupDisabled (hnew.mem_iff.mp hd) ((Missing.perm hold).mp novel) off
  | enable hf hd common off on =>
      exact .enable (hold.mem_iff.mp hf) (hnew.mem_iff.mp hd) common off on
  | disable hf hd common on off =>
      exact .disable (hold.mem_iff.mp hf) (hnew.mem_iff.mp hd) common on off
  | teardown hf gone vm => exact .teardown (hold.mem_iff.mp hf) ((Missing.perm hnew).mp gone) vm
  | cleanup hf gone ct => exact .cleanup (hold.mem_iff.mp hf) ((Missing.perm hnew).mp gone) ct

theorem changed_iff {d f : CVmHardDisk} : Url.changed d f = true ↔
    f.index = d.index ∧ Finding.getUrlPath f ≠ Finding.getUrlPath d := by
  unfold Url.changed
  by_cases hindex : d.index = f.index
  · simp [hindex, ne_comm]
  · simp [hindex, Ne.symm hindex]

theorem same_iff {d e : CVmHardDisk} (hpath : Finding.getUrlPath d ≠ "") :
    Url.same e d = true ↔ d.index ≠ e.index ∧ Finding.getUrlPath d = Finding.getUrlPath e := by
  unfold Url.same
  by_cases hindex : e.index = d.index
  · simp [hindex]
  · by_cases hsame : Finding.getUrlPath d = Finding.getUrlPath e
    · simp [hindex, Ne.symm hindex, ← hsame, hpath]
    · simp [hindex, Ne.symm hindex, hsame, Ne.symm hsame]

/-- The two quadratic checks find just the conflicts. -/
theorem validator_failed : (Validator.run old new).failed = true ↔ Conflicting old new := by
  have hmodified : Validator.checkModified old new = true ↔
      ∃ f ∈ old, ∃ d ∈ new, f.index = d.index ∧ Finding.getUrlPath f ≠ Finding.getUrlPath d := by
    simp only [Validator.checkModified, List.any_eq_true, changed_iff]
  have hduplicated : Validator.checkDuplicated new = true ↔
      ∃ d ∈ new, ∃ e ∈ new, d.index ≠ e.index ∧ Finding.getUrlPath d ≠ "" ∧
        Finding.getUrlPath d = Finding.getUrlPath e := by
    simp only [Validator.checkDuplicated, List.any_eq_true, Bool.and_eq_true]
    constructor
    · rintro ⟨d, hd, hpath, e, he, hsame⟩
      have hne : Finding.getUrlPath d ≠ "" := by simpa using hpath
      obtain ⟨hindex, heq⟩ := (same_iff hne).mp hsame
      exact ⟨d, hd, e, he, hindex, hne, heq⟩
    · rintro ⟨d, hd, e, he, hindex, hne, heq⟩
      exact ⟨d, hd, by simpa using hne, e, he, (same_iff hne).mpr ⟨hindex, heq⟩⟩
  unfold Validator.run Conflicting
  by_cases hm : Validator.checkModified old new = true
  · rw [if_pos hm]
    exact iff_of_true rfl (.inl (hmodified.mp hm))
  · rw [if_neg hm]
    by_cases hdup : Validator.checkDuplicated new = true
    · rw [if_pos hdup]
      exact iff_of_true rfl (.inr (hduplicated.mp hdup))
    · rw [if_neg hdup]
      refine iff_of_false (by decide) ?_
      rintro (h | h)
      · exact hm (hmodified.mpr h)
      · exact hdup (hduplicated.mpr h)

end Membership

def Event.model : Event → CVmHardDisk
  | .setup _ _ model => model
  | .enable _ model => model
  | .disable _ _ model => model
  | .teardown _ _ model => model
  | .cleanup _ model => model

section Factory

variable {factory : Factory} {d f : CVmHardDisk} {e : Event}

theorem mem_novel : e ∈ factory.novel d ↔ e = .setup factory.uuid factory.home d ∨
    Finding.isEnabled d = false ∧ e = .disable factory.uuid factory.home d := by
  cases hon : Finding.isEnabled d <;> simp [Factory.novel, hon]

theorem novel_nodup : (factory.novel d).Nodup := by
  cases hon : Finding.isEnabled d <;> simp [Factory.novel, hon]

theorem mem_removed : e ∈ factory.removed f ↔
    (factory.getVmTypeByUuid factory.uuid).getD .vm = .vm ∧
        e = .teardown factory.uuid factory.home f ∨
      (factory.getVmTypeByUuid factory.uuid).getD .vm = .ct ∧ e = .cleanup factory.uuid f := by
  unfold Factory.removed
  cases (factory.getVmTypeByUuid factory.uuid).getD .vm <;> simp

theorem removed_nodup : (factory.removed f).Nodup := by
  unfold Factory.removed
  cases (factory.getVmTypeByUuid factory.uuid).getD .vm <;> simp

/-- The events of a common disk. -/
def switched (factory : Factory) (f d : CVmHardDisk) : List Event :=
  (factory.updated f d).1.toList ++ (factory.updated f d).2.toList

theorem mem_switched : e ∈ switched factory f d ↔
    Finding.isEnabled f = false ∧ Finding.isEnabled d = true ∧ e = .enable factory.uuid d ∨
      Finding.isEnabled f = true ∧ Finding.isEnabled d = false ∧
        e = .disable factory.uuid factory.home d := by
  cases hf : Finding.isEnabled f <;> cases hd : Finding.isEnabled d <;>
    simp [switched, Factory.updated, hf, hd]

theorem switched_nodup : (switched factory f d).Nodup := by
  cases hf : Finding.isEnabled f <;> cases hd : Finding.isEnabled d <;>
    simp [switched, Factory.updated, hf, hd]

/-- The events of an old disk that has a new one of its index among the disks `common`. -/
def updates (factory : Factory) (common : List CVmHardDisk) (f : CVmHardDisk) : List Event :=
  match common.find? (indexInRange [f]) with
  | some d => switched factory f d
  | none => []

/-- Where every old disk finds its new one, the loop reads nothing past the common disks. -/
theorem addUpdated_eq {common rest xs : List CVmHardDisk} {batch : List Event}
    (found : ∀ x ∈ xs, ∃ d ∈ common, x.index = d.index) :
    Difference.addUpdated factory common rest xs batch =
      some (batch ++ xs.flatMap (updates factory common)) := by
  induction xs generalizing batch with
  | nil => rw [Difference.addUpdated, List.flatMap_nil, List.append_nil]
  | cons x xs ih =>
      obtain ⟨d, hd, hindex⟩ := found x (List.mem_cons_self ..)
      obtain ⟨y, hy⟩ : ∃ y, common.find? (indexInRange [x]) = some y := by
        refine Option.isSome_iff_exists.mp (List.find?_isSome.mpr ⟨d, hd, ?_⟩)
        exact indexInRange_iff.mpr ⟨x, List.mem_singleton_self x, hindex⟩
      have hupdates : updates factory common x = switched factory x y := by rw [updates, hy]
      rw [Difference.addUpdated, hy, List.flatMap_cons, hupdates]
      simp only [Option.some_or, Option.bind_eq_bind, Option.bind_some]
      rw [ih fun z hz => found z (List.mem_cons_of_mem x hz), switched]
      simp only [List.append_assoc]

/-- Of disks with distinct indices, the search finds the one of the index. -/
theorem updates_eq {common : List CVmHardDisk} (distinct : (common.map CVmHardDisk.index).Nodup)
    (hd : d ∈ common) (hindex : f.index = d.index) :
    updates factory common f = switched factory f d := by
  have hfound : common.find? (indexInRange [f]) = some d := by
    obtain ⟨y, hy⟩ : ∃ y, common.find? (indexInRange [f]) = some y := by
      refine Option.isSome_iff_exists.mp (List.find?_isSome.mpr ⟨d, hd, ?_⟩)
      exact indexInRange_iff.mpr ⟨f, List.mem_singleton_self f, hindex⟩
    obtain ⟨r, hr, heq⟩ := indexInRange_iff.mp (List.find?_some hy)
    rw [List.mem_singleton.mp hr] at heq
    rw [hy, List.inj_on_of_nodup_map distinct (List.mem_of_find?_eq_some hy) hd
      (heq.symm.trans hindex)]
  rw [updates, hfound]

end Factory

/-- Events that name the disks they come from are distinct where the disks are. -/
theorem flatMap_nodup {disks : List CVmHardDisk} {events : CVmHardDisk → List Event}
    (distinct : (disks.map CVmHardDisk.index).Nodup)
    (named : ∀ d ∈ disks, ∀ e ∈ events d, e.model.index = d.index)
    (each : ∀ d ∈ disks, (events d).Nodup) : (disks.flatMap events).Nodup := by
  refine List.nodup_flatMap.mpr ⟨each, ?_⟩
  have hpairs := List.pairwise_map.mp distinct
  refine hpairs.imp_of_mem fun {d f} hd hf hne e hde hfe => ?_
  exact hne ((named d hd e hde).symm.trans (named f hf e hfe))

/-- The events in the order in which partitioned lists yield them. -/
def schedule (factory : Factory) (old new : List CVmHardDisk) : List Event :=
  ((new.filter fun d => !indexInRange old d).flatMap factory.novel ++
    (old.filter (indexInRange new)).flatMap
      (updates factory (new.filter (indexInRange old)))) ++
    (old.filter fun f => !indexInRange new f).flatMap factory.removed

section Schedule

variable {factory : Factory} {old new : List CVmHardDisk} {e : Event}

theorem mem_only {disks others : List CVmHardDisk} {d : CVmHardDisk} :
    d ∈ disks.filter (fun d => !indexInRange others d) ↔ d ∈ disks ∧ Missing d.index others := by
  rw [List.mem_filter, Bool.not_eq_true', indexInRange_false]

theorem mem_common {disks others : List CVmHardDisk} {d : CVmHardDisk} :
    d ∈ disks.filter (indexInRange others) ↔ d ∈ disks ∧ ∃ r ∈ others, r.index = d.index := by
  rw [List.mem_filter, indexInRange_iff]

theorem distinct_filter {disks : List CVmHardDisk} {p : CVmHardDisk → Bool}
    (distinct : (disks.map CVmHardDisk.index).Nodup) :
    ((disks.filter p).map CVmHardDisk.index).Nodup :=
  distinct.sublist (List.filter_sublist.map _)

/-- The events of an old disk of a common index are those of the two disks. -/
theorem mem_updates (distinct : (new.map CVmHardDisk.index).Nodup) {f : CVmHardDisk}
    (hf : f ∈ old.filter (indexInRange new)) :
    ∃ d ∈ new, f.index = d.index ∧
      updates factory (new.filter (indexInRange old)) f = switched factory f d := by
  obtain ⟨hold, d, hd, hindex⟩ := mem_common.mp hf
  have hcommon : d ∈ new.filter (indexInRange old) :=
    mem_common.mpr ⟨hd, f, hold, hindex.symm⟩
  exact ⟨d, hd, hindex.symm, updates_eq (distinct_filter distinct) hcommon hindex.symm⟩

/-- The schedule holds the wanted events and no other. -/
theorem mem_schedule (distinct : (new.map CVmHardDisk.index).Nodup) :
    e ∈ schedule factory old new ↔ Wanted factory old new e := by
  rw [schedule, List.mem_append, List.mem_append, List.mem_flatMap, List.mem_flatMap,
    List.mem_flatMap]
  constructor
  · rintro ((⟨d, hd, he⟩ | ⟨f, hf, he⟩) | ⟨f, hf, he⟩)
    · obtain ⟨hnew, hnovel⟩ := mem_only.mp hd
      obtain rfl | ⟨off, rfl⟩ := mem_novel.mp he
      · exact .setup hnew hnovel
      · exact .setupDisabled hnew hnovel off
    · obtain ⟨d, hd, hindex, heq⟩ := @mem_updates factory _ _ distinct _ hf
      rw [heq] at he
      obtain ⟨off, on, rfl⟩ | ⟨on, off, rfl⟩ := mem_switched.mp he
      · exact .enable (mem_common.mp hf).1 hd hindex off on
      · exact .disable (mem_common.mp hf).1 hd hindex on off
    · obtain ⟨hold, hgone⟩ := mem_only.mp hf
      obtain ⟨vm, rfl⟩ | ⟨ct, rfl⟩ := mem_removed.mp he
      · exact .teardown hold hgone vm
      · exact .cleanup hold hgone ct
  · have hcommon : ∀ f ∈ old, ∀ d ∈ new, f.index = d.index → e ∈ switched factory f d →
        ∃ f ∈ old.filter (indexInRange new),
          e ∈ updates factory (new.filter (indexInRange old)) f := by
      intro f hf d hd hindex he
      refine ⟨f, mem_common.mpr ⟨hf, d, hd, hindex.symm⟩, ?_⟩
      rwa [updates_eq (distinct_filter distinct) (mem_common.mpr ⟨hd, f, hf, hindex⟩) hindex]
    intro h
    cases h with
    | setup hd novel => exact .inl (.inl ⟨_, mem_only.mpr ⟨hd, novel⟩, mem_novel.mpr (.inl rfl)⟩)
    | setupDisabled hd novel off =>
        exact .inl (.inl ⟨_, mem_only.mpr ⟨hd, novel⟩, mem_novel.mpr (.inr ⟨off, rfl⟩)⟩)
    | enable hf hd common off on =>
        exact .inl (.inr (hcommon _ hf _ hd common (mem_switched.mpr (.inl ⟨off, on, rfl⟩))))
    | disable hf hd common on off =>
        exact .inl (.inr (hcommon _ hf _ hd common (mem_switched.mpr (.inr ⟨on, off, rfl⟩))))
    | teardown hf gone vm =>
        exact .inr ⟨_, mem_only.mpr ⟨hf, gone⟩, mem_removed.mpr (.inl ⟨vm, rfl⟩)⟩
    | cleanup hf gone ct =>
        exact .inr ⟨_, mem_only.mpr ⟨hf, gone⟩, mem_removed.mpr (.inr ⟨ct, rfl⟩)⟩

/-- The three parts of the schedule are about new, common and old indices. -/
theorem schedule_nodup (distinctOld : (old.map CVmHardDisk.index).Nodup)
    (distinct : (new.map CVmHardDisk.index).Nodup) : (schedule factory old new).Nodup := by
  have hnovel : ∀ d ∈ new.filter (fun d => !indexInRange old d), ∀ e ∈ factory.novel d,
      e.model.index = d.index := by
    intro d _ e he
    obtain rfl | ⟨-, rfl⟩ := mem_novel.mp he <;> rfl
  have hupdates : ∀ f ∈ old.filter (indexInRange new),
      ∀ e ∈ updates factory (new.filter (indexInRange old)) f, e.model.index = f.index := by
    intro f hf e he
    obtain ⟨d, -, hindex, heq⟩ := @mem_updates factory _ _ distinct _ hf
    rw [heq] at he
    obtain ⟨-, -, rfl⟩ | ⟨-, -, rfl⟩ := mem_switched.mp he <;> exact hindex.symm
  have hremoved : ∀ f ∈ old.filter (fun f => !indexInRange new f), ∀ e ∈ factory.removed f,
      e.model.index = f.index := by
    intro f _ e he
    obtain ⟨-, rfl⟩ | ⟨-, rfl⟩ := mem_removed.mp he <;> rfl
  refine List.nodup_append'.mpr ⟨List.nodup_append'.mpr ⟨?_, ?_, ?_⟩, ?_, ?_⟩
  · exact flatMap_nodup (distinct_filter distinct) hnovel fun d _ => novel_nodup
  · refine flatMap_nodup (distinct_filter distinctOld) hupdates fun f hf => ?_
    obtain ⟨d, -, -, heq⟩ := @mem_updates factory _ _ distinct _ hf
    rw [heq]
    exact switched_nodup
  · intro e he he'
    obtain ⟨d, hd, he⟩ := List.mem_flatMap.mp he
    obtain ⟨f, hf, he'⟩ := List.mem_flatMap.mp he'
    refine (mem_only.mp hd).2 f (mem_common.mp hf).1 ?_
    exact (hupdates f hf e he').symm.trans (hnovel d hd e he)
  · exact flatMap_nodup (distinct_filter distinctOld) hremoved fun f _ => removed_nodup
  · intro e he he'
    obtain ⟨f, hf, he'⟩ := List.mem_flatMap.mp he'
    have hindex := hremoved f hf e he'
    have hgone := (mem_only.mp hf).2
    rcases List.mem_append.mp he with he | he
    · obtain ⟨d, hd, he⟩ := List.mem_flatMap.mp he
      exact hgone d (mem_only.mp hd).1 ((hnovel d hd e he).symm.trans hindex)
    · obtain ⟨g, hg, he⟩ := List.mem_flatMap.mp he
      obtain ⟨d, hd, hsame⟩ := (mem_common.mp hg).2
      exact hgone d hd (hsame.trans ((hupdates g hg e he).symm.trans hindex))

/-- The events of a new disk that is not enabled follow one another. -/
theorem schedule_followed {d : CVmHardDisk} (hd : d ∈ new) (novel : Missing d.index old)
    (off : Finding.isEnabled d = false) :
    ∃ front back, schedule factory old new =
      front ++ .setup factory.uuid factory.home d :: .disable factory.uuid factory.home d ::
        back := by
  obtain ⟨front, back, hsplit⟩ := List.append_of_mem (mem_only.mpr ⟨hd, novel⟩)
  have hevents : factory.novel d =
      [.setup factory.uuid factory.home d, .disable factory.uuid factory.home d] := by
    simp [Factory.novel, off]
  rw [schedule, hsplit, List.flatMap_append, List.flatMap_cons, hevents]
  simp only [List.append_assoc, List.cons_append, List.nil_append]
  exact ⟨_, _, rfl⟩

end Schedule

end DispService.BackupDevice
