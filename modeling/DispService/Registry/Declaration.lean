import DispService.Lib.Run
import DispService.Registry.Soundness

/-! What a successful declaration leads to when the operations follow one after
another. -/
namespace DispService.Registry

open DispService.Lib

/-- The operations on the registry, and `setHome` on the VM object that `find`
returns. -/
inductive Operation where
  | declare (ident : CVmIdent) (home : String)
  | undeclare (uuid : String)
  | define (prefs : Preferences) (uuid : String)
  | undefine (uuid : String)
  | reset (items : List Item)
  | setHome (uuid : String) (home : String)

def Operation.apply (s : Actual) : Operation → Actual
  | .declare ident home => (s.declare ident home).2
  | .undeclare uuid => (s.undeclare uuid).2
  | .define prefs uuid => (Actual.define prefs s uuid).2
  | .undefine uuid => (s.undefine uuid).2
  | .reset items => s.reset items
  | .setHome uuid home =>
      match s.definedMap.lookup uuid with
      | some m => s.setHome m home
      | none => s

/-- The operations after which an earlier declaration of the uuid need not hold. -/
def Operation.Overrides (uuid : String) : Operation → Prop
  | .undeclare u | .undefine u | .setHome u _ => u = uuid
  | .reset _ => True
  | .declare _ _ | .define _ _ => False

/-- The object belongs to the declared directory and has the declared home. -/
def Matches (ident : CVmIdent) (home : String) (vm : Vm) : Prop :=
  vm.directory = ident.2 ∧ vm.home = home

/-- No VM is kept undeclared with another directory or home. -/
def KeptMatches (s : Actual) (ident : CVmIdent) (home : String) : Prop :=
  ∀ a vm, s.undeclaredMap.lookup ident.1 = some a → s.heap.read a = some vm →
    Matches ident home vm

/-- A pending declaration of the uuid is conducted while its directory has a user. -/
def Conducted (uuid : String) (s : Actual) : Operation → Prop
  | .define prefs u =>
      u = uuid → u ∉ s.definedMap → u ∉ s.undeclaredMap →
        ∀ ident home, s.bookingMap.lookup u = some (.declaration ident home) →
          ident.2 ∈ prefs.userVmDirectories
  | _ => True

/-- The declaration is pending, or the VM object it asked for is defined. -/
inductive Honoured (ident : CVmIdent) (home : String) (s : Actual) : Prop where
  | pending (defined : s.definedMap.lookup ident.1 = none)
      (undeclared : s.undeclaredMap.lookup ident.1 = none)
      (booked : s.bookingMap.lookup ident.1 = some (.declaration ident home))
  | defined (a : Nat) (vm : Vm) (defined : s.definedMap.lookup ident.1 = some a)
      (read : s.heap.read a = some vm) (hmatch : Matches ident home vm)

variable {s t : Actual} {ident : CVmIdent} {home : String}

theorem Honoured.matches_of_find (honoured : Honoured ident home s) {vm : Vm}
    (hfind : s.find ident.1 = some vm) : Matches ident home vm := by
  unfold Actual.find at hfind
  cases honoured with
  | pending defined undeclared booked => simp [defined] at hfind
  | defined a vm' defined read hmatch =>
      rw [defined, Option.bind_some, read] at hfind
      cases hfind
      exact hmatch

/-- A successful declaration, by the tables it finds the uuid in. -/
theorem declare_success (h : (s.declare ident home).1 = .success) :
    s.definedMap.lookup ident.1 = none ∧
    ((∃ a, s.undeclaredMap.lookup ident.1 = some a ∧
        (s.declare ident home).2.definedMap.lookup ident.1 = some a) ∨
      s.undeclaredMap.lookup ident.1 = none ∧ Honoured ident home (s.declare ident home).2) := by
  unfold Actual.declare at h ⊢
  dsimp only at h ⊢
  split at h
  · cases h
  · rename_i hdefined
    rw [if_neg hdefined]
    rw [Table.notMem_iff] at hdefined
    refine ⟨hdefined, ?_⟩
    cases hundeclared : s.undeclaredMap.lookup ident.1 with
    | some a =>
        left
        exact ⟨a, rfl, Finmap.lookup_insert _⟩
    | none =>
        right
        rw [hundeclared] at h
        dsimp only at h ⊢
        split at h
        · cases h
        · rename_i hbooking
          rw [if_neg hbooking]
          exact ⟨rfl, .pending hdefined hundeclared (Finmap.lookup_insert _)⟩

/-- The declaration takes effect exactly when no other VM is kept for the uuid. -/
theorem honoured_declare_iff (sound : Sound s) (h : (s.declare ident home).1 = .success) :
    Honoured ident home (s.declare ident home).2 ↔ KeptMatches s ident home := by
  have hcases := (declare_success h).2
  constructor
  · intro honoured a vm hundeclared hread
    apply honoured.matches_of_find
    unfold Actual.find
    cases hcases with
    | inl hkept =>
        obtain ⟨a', ha', hdefined⟩ := hkept
        rw [hundeclared] at ha'
        cases ha'
        rw [hdefined, heap_declare]
        exact hread
    | inr hnone =>
        rw [hnone.1] at hundeclared
        cases hundeclared
  · intro kept
    cases hcases with
    | inl hkept =>
        obtain ⟨a, ha, hdefined⟩ := hkept
        obtain ⟨vm, hread, huuid⟩ := sound.undeclared _ a ha
        refine .defined a vm hdefined ?_ (kept a vm ha hread)
        rw [heap_declare]
        exact hread
    | inr hnone => exact hnone.2

/-- The step leaves what the tables say of a uuid, and its objects, as they are. -/
structure SameAt (u : String) (s t : Actual) : Prop where
  defined : t.definedMap.lookup u = s.definedMap.lookup u
  undeclared : t.undeclaredMap.lookup u = s.undeclaredMap.lookup u
  booking : t.bookingMap.lookup u = s.bookingMap.lookup u
  read : ∀ a vm, s.heap.read a = some vm → vm.uuid = u → t.heap.read a = some vm

theorem SameAt.refl (u : String) (s : Actual) : SameAt u s s :=
  ⟨rfl, rfl, rfl, fun _ _ hread _ => hread⟩

theorem Honoured.of_same (honoured : Honoured ident home s) (sound : Sound s)
    (same : SameAt ident.1 s t) : Honoured ident home t := by
  cases honoured with
  | pending defined undeclared booked =>
      exact .pending (same.defined.trans defined) (same.undeclared.trans undeclared)
        (same.booking.trans booked)
  | defined a vm defined read hmatch =>
      obtain ⟨vm', hread', huuid⟩ := sound.defined _ a defined
      rw [read] at hread'
      cases hread'
      exact .defined a vm (same.defined.trans defined) (same.read a vm read huuid) hmatch

section Others

variable {u uuid : String}

theorem sameAt_declare (hne : u ≠ ident.1) (s : Actual) (home : String) :
    SameAt u s (s.declare ident home).2 := by
  unfold Actual.declare
  dsimp only
  split
  · exact .refl u s
  · split
    · refine ⟨?_, ?_, rfl, fun _ _ hread _ => hread⟩
      · rw [Table.lookup_insert, if_neg hne]
      · rw [Table.lookup_erase, if_neg hne]
    · split
      · exact .refl u s
      · refine ⟨rfl, rfl, ?_, fun _ _ hread _ => hread⟩
        rw [Table.lookup_insert, if_neg hne]

theorem sameAt_undeclare (hne : u ≠ uuid) (s : Actual) : SameAt u s (s.undeclare uuid).2 := by
  unfold Actual.undeclare
  split
  · split
    · refine ⟨rfl, rfl, ?_, fun _ _ hread _ => hread⟩
      rw [Table.lookup_erase, if_neg hne]
    · exact .refl u s
  · refine ⟨?_, ?_, rfl, fun _ _ hread _ => hread⟩
    · rw [Table.lookup_erase, if_neg hne]
    · rw [Table.lookup_insert, if_neg hne]

theorem sameAt_undefine (hne : u ≠ uuid) (s : Actual) : SameAt u s (s.undefine uuid).2 := by
  unfold Actual.undefine
  split
  · refine ⟨rfl, ?_, rfl, fun _ _ hread _ => hread⟩
    rw [Table.lookup_erase, if_neg hne]
  · refine ⟨?_, rfl, rfl, fun _ _ hread _ => hread⟩
    rw [Table.lookup_erase, if_neg hne]

theorem read_makeVm (prefs : Preferences) (s : Actual) (ident : CVmIdent) (home : String)
    {a : Nat} {vm : Vm} (hread : s.heap.read a = some vm) :
    (Actual.makeVm prefs s ident home).2.heap.read a = some vm := by
  unfold Actual.makeVm
  split
  · exact read_alloc_of_read _ hread
  · exact hread

theorem read_conduct (prefs : Preferences) (s : Actual) (uuid : String) {a : Nat} {vm : Vm}
    (hread : s.heap.read a = some vm) :
    (Actual.conduct prefs s uuid).2.heap.read a = some vm := by
  unfold Actual.conduct
  split
  · exact read_makeVm prefs { s with bookingMap := s.bookingMap.erase uuid } _ _ hread
  · exact hread
  · exact read_makeVm prefs s _ _ hread

theorem sameAt_define (hne : u ≠ uuid) (prefs : Preferences) (s : Actual) :
    SameAt u s (Actual.define prefs s uuid).2 := by
  unfold Actual.define
  split
  · exact .refl u s
  · have htables := conduct_tables prefs s uuid
    have hread : ∀ a vm, s.heap.read a = some vm →
        (Actual.conduct prefs s uuid).2.heap.read a = some vm :=
      fun _ _ => read_conduct prefs s uuid
    have hbooking := htables.2.2 u
    rw [if_neg hne] at hbooking
    split
    · rename_i vm s' heq
      rw [heq] at htables hread hbooking
      refine ⟨?_, by rw [htables.2.1], hbooking, fun a vm h _ => hread a vm h⟩
      rw [Table.lookup_insert, if_neg hne, htables.1]
    · rename_i e s' heq
      rw [heq] at htables hread hbooking
      exact ⟨by rw [htables.1], by rw [htables.2.1], hbooking, fun a vm h _ => hread a vm h⟩

theorem sameAt_setHome (sound : Sound s) (hne : u ≠ uuid) {m : Nat}
    (hm : s.definedMap.lookup uuid = some m) (home : String) :
    SameAt u s (s.setHome m home) := by
  refine ⟨rfl, rfl, rfl, ?_⟩
  intro a vm hread huuid
  obtain ⟨vm', hread', huuid'⟩ := sound.defined _ m hm
  have ham : a ≠ m := by
    intro heq
    rw [heq, hread'] at hread
    cases hread
    exact hne (huuid.symm.trans huuid')
  unfold Actual.setHome
  rw [Heap.modify_of_read hread']
  exact (Heap.read_put_ne s.heap ham _).trans hread

end Others

theorem Sound.resetLoop (sound : Sound s) {b : Table Nat} (swapped : b.All (IsVm s.heap))
    (items : List Item) : Sound (items.foldl (Actual.resetItem b) s) := by
  induction items generalizing s with
  | nil => exact sound
  | cons item items ih =>
      have hitem := sound.resetItem swapped item
      exact ih hitem.1 (swapped.mono fun _ _ isVm => isVm.extends hitem.2)

theorem sound_apply (s : Actual) (operation : Operation) (t : Actual) (sound : Sound s)
    (step : Graph Operation.apply s operation t) : Sound t := by
  unfold Lib.Graph at step
  subst step
  cases operation with
  | declare ident home => exact sound.declare ident home
  | undeclare uuid => exact sound.undeclare uuid
  | define prefs uuid => exact sound.define prefs uuid
  | undefine uuid => exact sound.undefine uuid
  | reset items => exact Sound.resetLoop sound.resetSwap sound.defined items
  | setHome uuid home =>
      simp only [Operation.apply]
      split
      · exact sound.setHome _ home
      · exact sound

/-- A second declaration, or a definition, of the uuid itself. -/
theorem Honoured.declare_self (honoured : Honoured ident home s) {ident' : CVmIdent}
    (heq : ident'.1 = ident.1) (home' : String) :
    Honoured ident home (s.declare ident' home').2 := by
  have hsame : (s.declare ident' home').2 = s := by
    unfold Actual.declare
    dsimp only
    cases honoured with
    | pending defined undeclared booked =>
        rw [← heq] at defined undeclared booked
        rw [if_neg ((Table.notMem_iff _ _).mpr defined), undeclared]
        dsimp only
        rw [if_pos ((Table.mem_iff _ _).mpr ⟨_, booked⟩)]
    | defined a vm defined read hmatch =>
        rw [← heq] at defined
        rw [if_pos ((Table.mem_iff _ _).mpr ⟨a, defined⟩)]
  rw [hsame]
  exact honoured

/-- Without a user of its directory the pending declaration gets lost. -/
theorem Honoured.define_self_iff (honoured : Honoured ident home s) (prefs : Preferences) :
    Honoured ident home (Actual.define prefs s ident.1).2 ↔
      Conducted ident.1 s (.define prefs ident.1) := by
  unfold Actual.define Conducted
  cases honoured with
  | pending defined undeclared booked =>
      have hdefined := (Table.notMem_iff _ _).mpr defined
      have hundeclared := (Table.notMem_iff _ _).mpr undeclared
      rw [if_neg (not_or.mpr ⟨hdefined, hundeclared⟩)]
      unfold Actual.conduct
      rw [booked]
      dsimp only
      unfold Actual.makeVm
      by_cases huser : ident.2 ∈ prefs.userVmDirectories
      · rw [if_pos huser]
        apply iff_of_true
        · exact .defined _ _ (Finmap.lookup_insert _) (Heap.read_alloc_next _ _) ⟨rfl, rfl⟩
        · intro _ _ _ ident' home' hbooked
          rw [booked] at hbooked
          cases hbooked
          exact huser
      · rw [if_neg huser]
        apply iff_of_false
        · intro lost
          cases lost with
          | pending _ _ booked' => simp at booked'
          | defined a vm defined' _ _ =>
              rw [defined] at defined'
              cases defined'
        · intro conducted
          exact huser (conducted rfl hdefined hundeclared ident home booked)
  | defined a vm defined read hmatch =>
      have hmem := (Table.mem_iff _ _).mpr ⟨a, defined⟩
      rw [if_pos (Or.inl hmem)]
      exact iff_of_true (.defined a vm defined read hmatch) fun _ h => absurd hmem h

theorem Honoured.apply_iff (honoured : Honoured ident home s) (sound : Sound s)
    {operation : Operation} (keeps : ¬ operation.Overrides ident.1) :
    Honoured ident home (operation.apply s) ↔ Conducted ident.1 s operation := by
  cases operation with
  | declare ident' home' =>
      refine iff_of_true ?_ trivial
      by_cases heq : ident'.1 = ident.1
      · exact honoured.declare_self heq home'
      · exact honoured.of_same sound (sameAt_declare (Ne.symm heq) s home')
  | undeclare uuid =>
      exact iff_of_true (honoured.of_same sound (sameAt_undeclare (Ne.symm keeps) s)) trivial
  | define prefs uuid =>
      by_cases heq : uuid = ident.1
      · subst heq
        exact honoured.define_self_iff prefs
      · exact iff_of_true (honoured.of_same sound (sameAt_define (Ne.symm heq) prefs s))
          fun h => absurd h heq
  | undefine uuid =>
      exact iff_of_true (honoured.of_same sound (sameAt_undefine (Ne.symm keeps) s)) trivial
  | reset items => exact absurd trivial keeps
  | setHome uuid home' =>
      refine iff_of_true ?_ trivial
      simp only [Operation.apply]
      split
      · rename_i m hm
        exact honoured.of_same sound (sameAt_setHome sound (Ne.symm keeps) hm home')
      · exact honoured

theorem Honoured.run (honoured : Honoured ident home s) (sound : Sound s) {more : List Operation}
    (run : Run (Guarded (Conducted ident.1) (Graph Operation.apply)) s more t)
    (keeps : ∀ operation ∈ more, ¬ operation.Overrides ident.1) :
    Honoured ident home t ∧ Sound t := by
  induction run with
  | nil s => exact ⟨honoured, sound⟩
  | cons head tail ih =>
      have hstep : _ = _ := head.2
      subst hstep
      have hnow := keeps _ List.mem_cons_self
      apply ih ((honoured.apply_iff sound hnow).mpr head.1)
      · exact sound_apply _ _ _ sound rfl
      · intro operation hmem
        exact keeps operation (List.mem_cons_of_mem _ hmem)

/-- After a successful declaration at any point of a sequential run, it takes effect at
once exactly when no other VM is kept for the uuid. Then the object that `find` returns
is the declared one after every run that does not override it and conducts it while its
directory has a user; a step that does not loses it. -/
theorem declared_takes_effect {before : List Operation}
    (run : Run (Graph Operation.apply) {} before s)
    (success : (s.declare ident home).1 = .success) :
    (Honoured ident home (s.declare ident home).2 ↔ KeptMatches s ident home) ∧
    (KeptMatches s ident home → ∀ more t,
      Run (Guarded (Conducted ident.1) (Graph Operation.apply)) (s.declare ident home).2 more t →
      (∀ operation ∈ more, ¬ operation.Overrides ident.1) →
      (∀ vm, t.find ident.1 = some vm → Matches ident home vm) ∧
      ∀ operation : Operation, ¬ operation.Overrides ident.1 →
        (Honoured ident home (operation.apply t) ↔ Conducted ident.1 t operation)) := by
  have sound : Sound s := run.preserves sound_apply sound_empty
  have hiff := honoured_declare_iff sound success
  refine ⟨hiff, ?_⟩
  intro kept more t hrun keeps
  have hend := (hiff.mpr kept).run (sound.declare ident home) hrun keeps
  constructor
  · intro vm hfind
    exact hend.1.matches_of_find hfind
  · intro operation hkeeps
    exact hend.1.apply_iff hend.2 hkeeps

/-- The users of two directories. -/
def twoUsers : Preferences :=
  ⟨["dir", "other"], "dir"⟩

/-- A VM that was undeclared is declared again for another directory and home: `find`
returns the old object. -/
theorem declare_keeps_old_home :
    let s := [Operation.declare ("vm", "dir") "/vm", .define twoUsers "vm",
      .undeclare "vm"].foldl Operation.apply {}
    Run (Graph Operation.apply) {} [.declare ("vm", "dir") "/vm", .define twoUsers "vm",
      .undeclare "vm"] s ∧
    (s.declare ("vm", "other") "/new").1 = .success ∧
      (s.declare ("vm", "other") "/new").2.find "vm" = some ⟨"vm", "dir", "/vm"⟩ := by
  intro s
  exact ⟨.foldl Operation.apply {} _, by decide, by decide⟩

/-- A VM is undeclared and declared again for its old directory and home. -/
theorem declared_takes_effect_again :
    let before : List Operation := [.declare ("vm", "dir") "/vm", .define twoUsers "vm",
      .undeclare "vm"]
    let s := before.foldl Operation.apply {}
    ∀ vm, (s.declare ("vm", "dir") "/vm").2.find "vm" = some vm → vm.home = "/vm" := by
  intro before s vm hfind
  have run : Run (Graph Operation.apply) {} before s := .foldl Operation.apply {} before
  have success : (s.declare ("vm", "dir") "/vm").1 = .success := by decide
  have htake := declared_takes_effect run success
  refine ((htake.2 ?_ [] _ (.nil _) (by simp)).1 vm hfind).2
  intro a vm' hundeclared hread
  have ha : s.undeclaredMap.lookup "vm" = some 0 := by decide
  have hvm : s.heap.read 0 = some ⟨"vm", "dir", "/vm"⟩ := by decide
  rw [ha] at hundeclared
  cases hundeclared
  rw [hvm] at hread
  cases hread
  exact ⟨rfl, rfl⟩

end DispService.Registry
