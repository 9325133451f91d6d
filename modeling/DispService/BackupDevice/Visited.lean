import DispService.BackupDevice.Schedule

/-! Which events a change of the attached backups visits. The partitioned lists yield one schedule,
the batches are visited as one, and the first event that fails is the last. -/
namespace DispService.BackupDevice

open Lib

/-- The visits of a schedule, up to the first one that fails. -/
inductive Halts : List Event → List (Event × PrlResult) → Prop
  | done : Halts [] []
  | failed {e es r} (h : r.failed = true) : Halts (e :: es) [(e, r)]
  | next {e es r vs} (h : r.failed = false) (rest : Halts es vs) :
      Halts (e :: es) ((e, r) :: vs)

/-- Every visit succeeded. -/
def Succeeded (visited : List (Event × PrlResult)) : Prop :=
  ∀ v ∈ visited, v.2.failed = false

instance (visited : List (Event × PrlResult)) : Decidable (Succeeded visited) :=
  inferInstanceAs (Decidable (∀ v ∈ visited, v.2.failed = false))

theorem succeeded_append {vs ws : List (Event × PrlResult)} (h : Succeeded vs) :
    Succeeded (vs ++ ws) ↔ Succeeded ws := by
  refine ⟨fun hall v hv => hall v (List.mem_append_right _ hv), fun hws v hv => ?_⟩
  rcases List.mem_append.mp hv with hv | hv
  · exact h v hv
  · exact hws v hv

namespace Halts

variable {es fs : List Event} {vs ws : List (Event × PrlResult)}

theorem visited_prefix (h : Halts es vs) : vs.map Prod.fst <+: es := by
  induction h with
  | done => exact List.nil_prefix
  | failed _ => exact (List.prefix_cons_inj _).mpr List.nil_prefix
  | next _ _ ih => exact (List.prefix_cons_inj _).mpr ih

theorem complete (h : Halts es vs) (succeeded : Succeeded vs) : vs.map Prod.fst = es := by
  induction h with
  | done => rfl
  | failed h =>
      rw [succeeded _ (List.mem_singleton_self _)] at h
      cases h
  | next _ _ ih =>
      rw [List.map_cons, ih fun v hv => succeeded v (List.mem_cons_of_mem _ hv)]

/-- Nothing is visited after a visit that failed. -/
theorem last (h : Halts es vs) {front back : List (Event × PrlResult)}
    {v : Event × PrlResult} (split : vs = front ++ v :: back) (failed : v.2.failed = true) :
    back = [] := by
  induction h generalizing front with
  | done => simp at split
  | failed _ =>
      cases front with
      | nil => exact (List.cons.inj split).2.symm
      | cons w front => simp at split
  | next h _ ih =>
      cases front with
      | nil =>
          rw [← (List.cons.inj split).1, h] at failed
          cases failed
      | cons w front => exact ih (List.cons.inj split).2

theorem append (h : Halts es vs) (h' : Halts fs ws) (succeeded : Succeeded vs) :
    Halts (es ++ fs) (vs ++ ws) := by
  induction h with
  | done => exact h'
  | failed h =>
      rw [succeeded _ (List.mem_singleton_self _)] at h
      cases h
  | next h _ ih => exact .next h (ih fun v hv => succeeded v (List.mem_cons_of_mem _ hv))

/-- A batch that failed is followed by no other. -/
theorem extend (h : Halts es vs) (failed : ¬ Succeeded vs) : Halts (es ++ fs) vs := by
  induction h with
  | done => exact absurd (fun v hv => by cases hv) failed
  | failed h => exact .failed h
  | next h _ ih =>
      refine .next h (ih fun succeeded => failed fun v hv => ?_)
      rcases List.mem_cons.mp hv with rfl | hv
      · exact h
      · exact succeeded v hv

/-- After an event that succeeds comes the one that follows it in the schedule. -/
theorem followed {front back : List Event} {e f : Event} {r : PrlResult}
    (h : Halts (front ++ e :: f :: back) vs) (once : (front ++ e :: f :: back).Nodup)
    (he : (e, r) ∈ vs) (ok : r.failed = false) :
    ∃ pre post r', vs = pre ++ (e, r) :: (f, r') :: post := by
  induction front generalizing vs with
  | nil =>
      rw [List.nil_append] at h once
      cases h with
      | failed hfailed =>
          cases List.mem_singleton.mp he
          rw [hfailed] at ok
          cases ok
      | next _ rest =>
          rcases List.mem_cons.mp he with heq | hmem
          · cases heq
            cases rest with
            | failed _ => exact ⟨[], [], _, rfl⟩
            | next _ _ => exact ⟨[], _, _, rfl⟩
          · have hlater := rest.visited_prefix.subset (List.mem_map_of_mem (f := Prod.fst) hmem)
            exact absurd hlater (List.nodup_cons.mp once).1
  | cons x front ih =>
      rw [List.cons_append] at h once
      have hne : e ≠ x := by
        rintro rfl
        exact (List.nodup_cons.mp once).1 (List.mem_append_right _ (List.mem_cons_self ..))
      cases h with
      | failed _ =>
          cases List.mem_singleton.mp he
          exact absurd rfl hne
      | next _ rest =>
          rcases List.mem_cons.mp he with heq | hmem
          · exact absurd (Prod.mk.inj heq).1 hne
          · obtain ⟨pre, post, r', heq⟩ := ih rest (List.nodup_cons.mp once).2 hmem
            exact ⟨_ :: pre, post, r', by rw [heq, List.cons_append]⟩

end Halts

section Batch

variable {σ τ : Type} {visitor : Visitor σ τ} {es : List Event} {output : PrlResult} {s : σ}

theorem acceptAll_halts : Halts es (acceptAll visitor es output s).visited := by
  induction es generalizing output s with
  | nil => exact .done
  | cons e es ih =>
      rw [acceptAll]
      cases hfailed : (visitor.visit e s).1.failed with
      | true => simpa only [hfailed, if_true] using Halts.failed hfailed
      | false =>
          simpa only [hfailed, Bool.false_eq_true, if_false] using Halts.next hfailed ih

/-- The code of a batch is that of its last visit. -/
theorem acceptAll_failed (start : output.failed = false) :
    (acceptAll visitor es output s).output.failed = false ↔
      Succeeded (acceptAll visitor es output s).visited := by
  induction es generalizing output s with
  | nil => exact iff_of_true start fun v hv => by cases hv
  | cons e es ih =>
      rw [acceptAll]
      cases hfailed : (visitor.visit e s).1.failed with
      | true => simp [hfailed, Succeeded]
      | false =>
          simp only [hfailed, Bool.false_eq_true, if_false]
          rw [ih hfailed]
          simp [Succeeded, hfailed]

end Batch

namespace Difference

variable (d : Difference)

/-- The answer of the validator is kept. -/
def checked : Difference :=
  { d with result := some (Validator.run d.from_ d.to_) }

/-- The events of the new and of the common disks. -/
def replacing : List Event :=
  (d.to_.filter fun x => !indexInRange d.from_ x).flatMap d.factory.novel ++
    (d.from_.filter (indexInRange d.to_)).flatMap
      (updates d.factory (d.to_.filter (indexInRange d.from_)))

/-- The events of the disks that are gone. -/
def removing : List Event :=
  (d.from_.filter fun x => !indexInRange d.to_ x).flatMap d.factory.removed

end Difference

/-- The lists of a difference, partitioned against each other. -/
structure Split (old new : List CVmHardDisk) (d : Difference) : Prop where
  old : d.from_.Perm old
  new : d.to_.Perm new
  from_ : Partitioned (indexInRange d.to_) d.from_
  to_ : Partitioned (indexInRange d.from_) d.to_
  cached : ∀ r ∈ d.result, r = Validator.run d.from_ d.to_

namespace Split

variable {partition : Partitioner CVmHardDisk} {old new : List CVmHardDisk} {factory : Factory}
  {d : Difference} {batch : List Event}

/-- The second partition leaves the first in place: it changes only the order of the disks. -/
theorem of_new : Split old new (.new partition old new factory) where
  old := partition.perm _ _
  new := partition.perm _ _
  from_ := partition.partitioned _ _
  to_ := by
    have hsame := indexInRange_perm (partition.perm
      (indexInRange (partition.arrange (indexInRange old) new)) old)
    simp only [Difference.new, hsame]
    exact partition.partitioned _ _
  cached := by
    intro r hr
    cases hr

/-- The answer of the validator, kept or new. -/
theorem validate_eq (split : Split old new d) : d.validate =
    (Validator.run d.from_ d.to_, d.checked) := by
  obtain ⟨from_, to_, factory, result⟩ := d
  cases result with
  | none => rfl
  | some r =>
      have hr : r = Validator.run from_ to_ := split.cached r rfl
      subst hr
      rfl

theorem checked (split : Split old new d) : Split old new d.checked where
  old := split.old
  new := split.new
  from_ := split.from_
  to_ := split.to_
  cached := by
    intro r hr
    exact (Option.some.inj hr).symm

/-- The validator's answer is about the lists in any order. -/
theorem run_failed (split : Split old new d) :
    (Validator.run d.from_ d.to_).failed = true ↔ Conflicting old new := by
  rw [validator_failed, Conflicting.perm split.old split.new]

theorem getNovel_eq (split : Split old new d) (ok : (Validator.run d.from_ d.to_).failed = false) :
    d.getNovel batch = (Validator.run d.from_ d.to_,
      batch ++ (d.to_.filter fun x => !indexInRange d.from_ x).flatMap d.factory.novel,
      d.checked) := by
  rw [Difference.getNovel, split.validate_eq]
  simp only [ok, Bool.false_eq_true, if_false, Difference.checked, split.to_.dropWhile_eq]

theorem getRemoved_eq (split : Split old new d)
    (ok : (Validator.run d.from_ d.to_).failed = false) :
    d.getRemoved batch = (Validator.run d.from_ d.to_, batch ++ d.removing, d.checked) := by
  rw [Difference.getRemoved, split.validate_eq]
  simp only [ok, Bool.false_eq_true, if_false, Difference.checked, Difference.removing,
    split.from_.dropWhile_eq]

theorem getUpdated_eq (split : Split old new d) (batch : List Event)
    (ok : (Validator.run d.from_ d.to_).failed = false) :
    d.getUpdated batch = some (Validator.run d.from_ d.to_,
      batch ++ (d.from_.filter (indexInRange d.to_)).flatMap
        (updates d.factory (d.to_.filter (indexInRange d.from_))),
      d.checked) := by
  have found : ∀ x ∈ d.from_.filter (indexInRange d.to_),
      ∃ y ∈ d.to_.filter (indexInRange d.from_), x.index = y.index := by
    intro x hx
    obtain ⟨hfrom, y, hy, hindex⟩ := mem_common.mp hx
    exact ⟨y, mem_common.mpr ⟨hy, x, hfrom, hindex.symm⟩, hindex.symm⟩
  rw [Difference.getUpdated, split.validate_eq]
  simp only [ok, Bool.false_eq_true, if_false, Difference.checked, split.to_.takeWhile_eq,
    split.from_.takeWhile_eq, addUpdated_eq found, Option.bind_eq_bind, Option.bind_some,
    Option.pure_def]

/-- An answer that fails ends the change before its first visit. -/
theorem getNovel_failed (split : Split old new d)
    (bad : (Validator.run d.from_ d.to_).failed = true) :
    d.getNovel batch = (Validator.run d.from_ d.to_, batch,
      d.checked) := by
  rw [Difference.getNovel, split.validate_eq]
  simp only [bad, if_true]

end Split

section Transition

variable {σ τ : Type} {old new : List CVmHardDisk} {t : Transition σ τ} {s : σ}

theorem replace_failed (split : Split old new t.diff) (conflict : Conflicting old new) :
    ∃ v t', t.replace s = some (v, t') ∧ v.output.failed = true ∧ v.visited = [] := by
  have hbad := split.run_failed.mpr conflict
  refine ⟨⟨Validator.run t.diff.from_ t.diff.to_, [], s⟩, { t with diff := t.diff.checked },
    ?_, hbad, rfl⟩
  rw [Transition.replace, split.getNovel_failed hbad]
  simp only [hbad, if_true, Option.pure_def]

theorem Split.run_ok {d : Difference} (split : Split old new d) (ok : ¬ Conflicting old new) :
    (Validator.run d.from_ d.to_).failed = false := by
  rw [← Bool.not_eq_true, split.run_failed]
  exact ok

theorem replace_eq (split : Split old new t.diff) (ok : ¬ Conflicting old new) :
    t.replace s = some (t.do_ t.diff.replacing s, { t with diff := t.diff.checked }) := by
  have hok := split.run_ok ok
  have hupdated := split.checked.getUpdated_eq
    ((t.diff.to_.filter fun x => !indexInRange t.diff.from_ x).flatMap t.diff.factory.novel)
    (split.checked.run_ok ok)
  rw [Transition.replace, split.getNovel_eq hok]
  simp only [hok, Bool.false_eq_true, if_false, List.nil_append, hupdated, Option.bind_eq_bind,
    Option.bind_some, Option.pure_def]
  rw [if_neg (by rw [split.checked.run_ok ok]; decide)]
  rfl

theorem remove_eq (split : Split old new t.diff) (ok : ¬ Conflicting old new) :
    t.remove s = t.do_ t.diff.removing s := by
  have hok := split.run_ok ok
  rw [Transition.remove, split.getRemoved_eq hok]
  simp only [hok, Bool.false_eq_true, if_false, List.nil_append]

theorem do_halts {batch : List Event} : Halts batch (t.do_ batch s).visited :=
  acceptAll_halts

theorem do_failed {batch : List Event} :
    (t.do_ batch s).output.failed = false ↔ Succeeded (t.do_ batch s).visited :=
  acceptAll_failed rfl

end Transition

/-- What a change from old to new backups visits. -/
structure Carried {σ : Type} (factory : Factory) (old new : List CVmHardDisk) (visits : Visits σ) :
    Prop where
  conflict : Conflicting old new → visits.visited = []
  wanted : ∀ e ∈ visits.visited.map Prod.fst, Wanted factory old new e
  once : (visits.visited.map Prod.fst).Nodup
  complete : ¬ Conflicting old new → Succeeded visits.visited →
    ∀ e, Wanted factory old new e → e ∈ visits.visited.map Prod.fst
  /-- A new disk that is not enabled is disabled right after its setup. -/
  followed : ∀ d ∈ new, Missing d.index old → Finding.isEnabled d = false →
    ∀ r, (.setup factory.uuid factory.home d, r) ∈ visits.visited → r.failed = false →
      ∃ pre post r', visits.visited = pre ++ (.setup factory.uuid factory.home d, r) ::
        (.disable factory.uuid factory.home d, r') :: post
  last : ∀ pre v post, visits.visited = pre ++ v :: post → v.2.failed = true → post = []
  reported : visits.output.failed = false ↔
    ¬ Conflicting old new ∧ Succeeded visits.visited

section SetDifference

variable {σ τ : Type} {partition : Partitioner CVmHardDisk} {factory : Factory}
  {old new from_ to_ : List CVmHardDisk} {visits : Visits σ}

/-- The visits of the schedule of the partitioned lists carry out the change. -/
theorem Carried.of_halts (distinctOld : (old.map CVmHardDisk.index).Nodup)
    (distinct : (new.map CVmHardDisk.index).Nodup) (hold : from_.Perm old) (hnew : to_.Perm new)
    (ok : ¬ Conflicting old new) (halts : Halts (schedule factory from_ to_) visits.visited)
    (output : visits.output.failed = false ↔ Succeeded visits.visited) :
    Carried factory old new visits := by
  have hfrom : (from_.map CVmHardDisk.index).Nodup := (hold.map _).nodup_iff.mpr distinctOld
  have hto : (to_.map CVmHardDisk.index).Nodup := (hnew.map _).nodup_iff.mpr distinct
  have hnodup := @schedule_nodup factory _ _ hfrom hto
  have hinit := halts.visited_prefix
  refine ⟨fun h => absurd h ok, fun e he => ?_, hnodup.sublist hinit.sublist,
    fun _ succeeded e he => ?_, fun d hd novel off r he hr => ?_,
    fun pre v post split failed => halts.last split failed, ?_⟩
  · exact ((mem_schedule hto).mp (hinit.subset he)).perm hold hnew
  · rw [halts.complete succeeded]
    exact (mem_schedule hto).mpr (he.perm hold.symm hnew.symm)
  · obtain ⟨front, back, hsplit⟩ := @schedule_followed factory _ _ _
      (hnew.mem_iff.mpr hd) ((Missing.perm hold).mpr novel) off
    rw [hsplit] at halts hnodup
    exact halts.followed hnodup he hr
  · exact ⟨fun h => ⟨ok, output.mp h⟩, fun h => output.mpr h.2⟩

/-- The two batches, one after the other, visit the schedule. -/
theorem setDifference_eq (service : Service σ τ) {s : σ}
    (distinctOld : ((Dao.getAll service.hardDisks).map CVmHardDisk.index).Nodup)
    (distinct : ((Dao.getAll new).map CVmHardDisk.index).Nodup) :
    ∃ visits, service.setDifference partition new s = some visits ∧
      Carried service.factory (Dao.getAll service.hardDisks) (Dao.getAll new) visits := by
  have split : Split (Dao.getAll service.hardDisks) (Dao.getAll new)
      (service.getTransition partition new).diff := .of_new
  by_cases conflict : Conflicting (Dao.getAll service.hardDisks) (Dao.getAll new)
  · obtain ⟨v, t', hreplace, hfailed, hnone⟩ := replace_failed split conflict (s := s)
    refine ⟨v, ?_, fun _ => hnone, ?_, ?_, fun ok => absurd conflict ok, ?_, ?_, ?_⟩
    · simp only [Service.setDifference, hreplace, Option.bind_eq_bind, Option.bind_some, hfailed,
        if_true, Option.pure_def]
    · simp [hnone]
    · simp [hnone]
    · simp [hnone]
    · simp [hnone]
    · simp [hfailed, conflict]
  · have hreplace := replace_eq split conflict (s := s)
    generalize hreplaced : Transition.do_ _ _ s = replaced at hreplace
    have hhalts := hreplaced ▸ do_halts (t := service.getTransition partition new) (s := s)
    have houtput := hreplaced ▸ do_failed (t := service.getTransition partition new) (s := s)
    cases hfailed : replaced.output.failed with
    | true =>
        refine ⟨replaced, ?_, .of_halts distinctOld distinct split.old split.new conflict
          (hhalts.extend ?_) houtput⟩
        · simp only [Service.setDifference, hreplace, Option.bind_eq_bind, Option.bind_some,
            hfailed, if_true, Option.pure_def]
        · rw [← houtput, hfailed]
          decide
    | false =>
        have hsucceeded := houtput.mp hfailed
        have hremove := remove_eq (t := { service.getTransition partition new with
          diff := (service.getTransition partition new).diff.checked })
          split.checked conflict (s := replaced.state)
        generalize hremoved : Transition.do_ _ _ replaced.state = removed at hremove
        have hrest := hremoved ▸
          do_halts (t := { service.getTransition partition new with
            diff := (service.getTransition partition new).diff.checked }) (s := replaced.state)
        have hcode := hremoved ▸
          do_failed (t := { service.getTransition partition new with
            diff := (service.getTransition partition new).diff.checked }) (s := replaced.state)
        refine ⟨{ removed with visited := replaced.visited ++ removed.visited }, ?_,
          .of_halts distinctOld distinct split.old split.new conflict
            (hhalts.append hrest hsucceeded) (hcode.trans (succeeded_append hsucceeded).symm)⟩
        simp only [Service.setDifference, hreplace, Option.bind_eq_bind, Option.bind_some,
          hfailed, Bool.false_eq_true, if_false, Option.pure_def, hremove]

theorem getAll_perm {store store' : List CVmHardDisk} (h : store.Perm store') :
    (Dao.getAll store).Perm (Dao.getAll store') :=
  (h.filter _).append (h.filter _)

/-- Two changes that succeed visit the same events if their lists differ in order only. -/
theorem Carried.perm {old' new' : List CVmHardDisk} {visits' : Visits σ}
    (h : Carried factory old new visits) (h' : Carried factory old' new' visits')
    (hold : old.Perm old') (hnew : new.Perm new') (succeeded : Succeeded visits.visited)
    (succeeded' : Succeeded visits'.visited) :
    (visits.visited.map Prod.fst).Perm (visits'.visited.map Prod.fst) := by
  by_cases conflict : Conflicting old new
  · rw [h.conflict conflict, h'.conflict ((Conflicting.perm hold hnew).mp conflict)]
  · have ok' : ¬ Conflicting old' new' := fun h => conflict ((Conflicting.perm hold hnew).mpr h)
    refine (List.perm_ext_iff_of_nodup h.once h'.once).mpr fun e => ⟨fun he => ?_, fun he => ?_⟩
    · exact h'.complete ok' succeeded' e ((h.wanted e he).perm hold hnew)
    · exact h.complete conflict succeeded e ((h'.wanted e he).perm hold.symm hnew.symm)

end SetDifference

/-- However the standard library partitions and whatever the visitor answers, a change of the
backups visits what leads from the old disks to the new ones, in any order of the disks. -/
theorem setDifference_carried {σ τ : Type} (service : Service σ τ) (new : List CVmHardDisk)
    (distinctOld : ((Dao.getAll service.hardDisks).map CVmHardDisk.index).Nodup)
    (distinct : ((Dao.getAll new).map CVmHardDisk.index).Nodup) :
    (∀ partition s, ∃ visits, service.setDifference partition new s = some visits ∧
      Carried service.factory (Dao.getAll service.hardDisks) (Dao.getAll new) visits) ∧
    ∀ partition partition' old' new' s s' visits visits',
      service.hardDisks.Perm old' → new.Perm new' →
      service.setDifference partition new s = some visits →
      { service with hardDisks := old' }.setDifference partition' new' s' = some visits' →
      Succeeded visits.visited → Succeeded visits'.visited →
      (visits.visited.map Prod.fst).Perm (visits'.visited.map Prod.fst) := by
  refine ⟨fun partition s => setDifference_eq service distinctOld distinct, ?_⟩
  intro partition partition' old' new' s s' visits visits' hold hnew hrun hrun' succeeded succeeded'
  have hold := getAll_perm hold
  have hnew := getAll_perm hnew
  obtain ⟨v, hv, hcarried⟩ := @setDifference_eq _ _ partition _ service s
    distinctOld distinct
  obtain ⟨v', hv', hcarried'⟩ := @setDifference_eq _ _ partition' _
    { service with hardDisks := old' } s' ((hold.map _).nodup_iff.mp distinctOld)
    ((hnew.map _).nodup_iff.mp distinct)
  rw [hrun] at hv
  rw [hrun'] at hv'
  cases hv
  cases hv'
  exact hcarried.perm hcarried' hold hnew succeeded succeeded'

def backupDisk (index : Int) (state : DeviceEnabled) (path : String) : CVmHardDisk :=
  ⟨index, state, .connected, ⟨false, true, "backup", path⟩⟩

def attached : Service Unit Unit where
  factory := ⟨"vm", "home", fun _ => some .vm⟩
  visitor := ⟨fun _ s => s, fun _ s => (.success, s)⟩
  topic := none
  hardDisks := [backupDisk 0 .enabled "a", backupDisk 1 .enabled "b"]

/-- One backup goes, one is switched off and one comes, in both orders of the lists. -/
theorem setDifference_carried_reversed :
    ∃ visits visits',
      attached.setDifference .stable [backupDisk 1 .disabled "b", backupDisk 2 .disabled "c"]
        () = some visits ∧
      { attached with hardDisks := attached.hardDisks.reverse }.setDifference .stable
        [backupDisk 2 .disabled "c", backupDisk 1 .disabled "b"] () = some visits' ∧
      visits.visited.map Prod.fst =
        [.setup "vm" "home" (backupDisk 2 .disabled "c"),
          .disable "vm" "home" (backupDisk 2 .disabled "c"),
          .disable "vm" "home" (backupDisk 1 .disabled "b"),
          .teardown "vm" "home" (backupDisk 0 .enabled "a")] ∧
      (visits.visited.map Prod.fst).Perm (visits'.visited.map Prod.fst) := by
  have h := setDifference_carried attached
    [backupDisk 1 .disabled "b", backupDisk 2 .disabled "c"] (by decide) (by decide)
  obtain ⟨visits, hrun, -⟩ := h.1 .stable ()
  have hvisits : visits.visited = [
      (.setup "vm" "home" (backupDisk 2 .disabled "c"), .success),
      (.disable "vm" "home" (backupDisk 2 .disabled "c"), .success),
      (.disable "vm" "home" (backupDisk 1 .disabled "b"), .success),
      (.teardown "vm" "home" (backupDisk 0 .enabled "a"), .success)] := by
    cases hrun
    rfl
  refine ⟨visits, _, hrun, rfl, by rw [hvisits]; rfl,
    h.2 .stable .stable _ _ () () visits _ (List.reverse_perm _).symm (.swap _ _ _) hrun rfl ?_ ?_⟩
  · simp [hvisits, Succeeded, PrlResult.failed]
  · decide

end DispService.BackupDevice
