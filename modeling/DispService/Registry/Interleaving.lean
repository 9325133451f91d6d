import DispService.Lib.Run
import DispService.Registry.Soundness

/-! Threads that share the registry. A `reset` holds the table it swapped out while
other threads take their steps between its items. -/
namespace DispService.Registry

open DispService.Lib

/-- A `reset` in flight: the table it swapped out, and what is left of the item
list once it has read it. -/
structure Resetting where
  swapped : Table Nat
  items : Option (List Item) := none

structure System where
  registry : Actual := {}
  resets : List Resetting := []

/-- The steps of the threads; a `reset` is known by its place in the list. -/
inductive Request where
  | declare (ident : CVmIdent) (home : String)
  | undeclare (uuid : String)
  | define (prefs : Preferences) (uuid : String)
  | undefine (uuid : String)
  | resetSwap
  | getItemList (reset : Nat) (items : List Item)
  | resetItem (reset : Nat)

def perform (s : System) : Request → System
  | .declare ident home => { s with registry := (s.registry.declare ident home).2 }
  | .undeclare uuid => { s with registry := (s.registry.undeclare uuid).2 }
  | .define prefs uuid => { s with registry := (Actual.define prefs s.registry uuid).2 }
  | .undefine uuid => { s with registry := (s.registry.undefine uuid).2 }
  | .resetSwap =>
      ⟨s.registry.resetSwap.2, s.resets ++ [{ swapped := s.registry.resetSwap.1 }]⟩
  | .getItemList i items =>
      match s.resets[i]? with
      | some ⟨swapped, none⟩ => { s with resets := s.resets.set i ⟨swapped, some items⟩ }
      | _ => s
  | .resetItem i =>
      match s.resets[i]? with
      | some ⟨swapped, some (item :: items)⟩ =>
          ⟨s.registry.resetItem swapped item, s.resets.set i ⟨swapped, some items⟩⟩
      | _ => s

/-- No uuid is in two of the tables. -/
def Disjoint (s : Actual) : Prop :=
  ∀ u, ¬ (u ∈ s.definedMap ∧ u ∈ s.undeclaredMap) ∧ ¬ (u ∈ s.definedMap ∧ u ∈ s.bookingMap) ∧
    ¬ (u ∈ s.undeclaredMap ∧ u ∈ s.bookingMap)

/-- A `reset` that is about to book an object it swapped out finds its uuid neither
defined again nor undeclared. -/
def Admissible (s : System) : Request → Prop
  | .resetItem i =>
      ∀ swapped item items m, s.resets[i]? = some ⟨swapped, some (item :: items)⟩ →
        item.skipped = false → swapped.lookup item.vmUuid = some m →
          item.vmUuid ∉ s.registry.definedMap ∧ item.vmUuid ∉ s.registry.undeclaredMap
  | _ => True

section Steps

variable {s : Actual}

theorem Disjoint.declare (disjoint : Disjoint s) (ident : CVmIdent) (home : String) :
    Disjoint (s.declare ident home).2 := by
  unfold Actual.declare
  dsimp only
  split
  · exact disjoint
  · split
    · rename_i m hm
      have hmem := (Table.mem_iff _ _).mpr ⟨m, hm⟩
      intro u
      have hu := disjoint u
      have hident := disjoint ident.1
      simp only [Table.mem_insert_iff, Table.mem_erase_iff]
      grind
    · rename_i hundeclared
      split
      · exact disjoint
      · rw [← Table.notMem_iff] at hundeclared
        intro u
        have hu := disjoint u
        simp only [Table.mem_insert_iff]
        grind

theorem Disjoint.undeclare (disjoint : Disjoint s) (uuid : String) :
    Disjoint (s.undeclare uuid).2 := by
  unfold Actual.undeclare
  split
  · split
    · intro u
      have hu := disjoint u
      simp only [Table.mem_erase_iff]
      grind
    · exact disjoint
  · rename_i m hm
    have hmem := (Table.mem_iff _ _).mpr ⟨m, hm⟩
    intro u
    have hu := disjoint u
    have huuid := disjoint uuid
    simp only [Table.mem_insert_iff, Table.mem_erase_iff]
    grind

theorem Disjoint.undefine (disjoint : Disjoint s) (uuid : String) :
    Disjoint (s.undefine uuid).2 := by
  unfold Actual.undefine
  split
  · intro u
    have hu := disjoint u
    simp only [Table.mem_erase_iff]
    grind
  · intro u
    have hu := disjoint u
    simp only [Table.mem_erase_iff]
    grind

theorem Disjoint.define (disjoint : Disjoint s) (prefs : Preferences) (uuid : String) :
    Disjoint (Actual.define prefs s uuid).2 := by
  unfold Actual.define
  split
  · exact disjoint
  · rename_i hfree
    have hconduct := conduct_tables prefs s uuid
    have hbooking : ∀ u, u ∈ (Actual.conduct prefs s uuid).2.bookingMap ↔
        u ≠ uuid ∧ u ∈ s.bookingMap := by
      intro u
      rw [Table.mem_iff, hconduct.2.2]
      by_cases hu : u = uuid <;> simp [hu, Table.mem_iff]
    split
    · rename_i vm s' heq
      rw [heq] at hconduct hbooking
      intro u
      have hu := disjoint u
      simp only [hbooking, Table.mem_insert_iff]
      grind
    · rename_i e s' heq
      rw [heq] at hconduct hbooking
      intro u
      have hu := disjoint u
      simp only [hbooking]
      grind

theorem Disjoint.resetSwap (disjoint : Disjoint s) : Disjoint s.resetSwap.2 := by
  intro u
  have hu := disjoint u
  simp [Actual.resetSwap, hu.2.2]

/-- Booking an object is all that can break the disjointness. -/
theorem disjoint_resetItem_iff (disjoint : Disjoint s) (b : Table Nat) (i : Item) :
    Disjoint (s.resetItem b i) ↔
      ∀ m, i.skipped = false → b.lookup i.vmUuid = some m →
        i.vmUuid ∉ s.definedMap ∧ i.vmUuid ∉ s.undeclaredMap := by
  unfold Actual.resetItem
  split
  · rename_i hskipped
    simp [hskipped, disjoint]
  · rename_i hskipped
    split
    · rename_i hnone
      simp [hnone, disjoint.declare]
    · rename_i m hm
      simp only [hskipped, hm, Option.some.injEq, forall_eq', forall_const]
      constructor
      · intro hdisjoint
        have hitem := hdisjoint i.vmUuid
        simp only [Table.mem_insert_iff, Actual.setHome, true_or, and_true] at hitem
        exact hitem.2
      · intro hfree u
        have hu := disjoint u
        simp only [Table.mem_insert_iff, Actual.setHome]
        grind

end Steps

theorem disjoint_perform_iff {s : System} (disjoint : Disjoint s.registry) (request : Request) :
    Disjoint (perform s request).registry ↔ Admissible s request := by
  cases request with
  | declare ident home => exact iff_of_true (disjoint.declare ident home) trivial
  | undeclare uuid => exact iff_of_true (disjoint.undeclare uuid) trivial
  | define prefs uuid => exact iff_of_true (disjoint.define prefs uuid) trivial
  | undefine uuid => exact iff_of_true (disjoint.undefine uuid) trivial
  | resetSwap => exact iff_of_true disjoint.resetSwap trivial
  | getItemList i items =>
      refine iff_of_true ?_ trivial
      simp only [perform]
      split <;> exact disjoint
  | resetItem i =>
      simp only [perform, Admissible]
      split
      · rename_i swapped item items hi
        dsimp only
        rw [disjoint_resetItem_iff disjoint, hi]
        simp
        grind
      · rename_i hno
        refine iff_of_true disjoint ?_
        intro swapped item items m hi
        exact absurd hi (hno swapped item items)

/-- Every table of the system, those swapped out included, is sound. -/
structure SystemSound (s : System) : Prop where
  registry : Sound s.registry
  swapped : ∀ r ∈ s.resets, r.swapped.All (IsVm s.registry.heap)

theorem SystemSound.of_extends {s : System} (sound : SystemSound s) {registry : Actual}
    (hregistry : Sound registry) (ext : Extends s.registry.heap registry.heap) :
    SystemSound { s with registry } where
  registry := hregistry
  swapped := fun r hr => (sound.swapped r hr).mono fun _ _ isVm => isVm.extends ext

theorem SystemSound.set {s : System} (sound : SystemSound s) {i : Nat} {swapped : Table Nat}
    {items : Option (List Item)} (hi : s.resets[i]? = some ⟨swapped, items⟩)
    (items' : Option (List Item)) :
    SystemSound { s with resets := s.resets.set i ⟨swapped, items'⟩ } where
  registry := sound.registry
  swapped := by
    intro r hr
    cases List.mem_or_eq_of_mem_set hr with
    | inl hmem => exact sound.swapped r hmem
    | inr heq =>
        rw [heq]
        exact sound.swapped ⟨swapped, items⟩ (List.mem_of_getElem? hi)

theorem systemSound_step (s : System) (request : Request) (t : System) (sound : SystemSound s)
    (step : Graph perform s request t) : SystemSound t := by
  unfold Lib.Graph at step
  subst step
  cases request with
  | declare ident home =>
      apply sound.of_extends (sound.registry.declare ident home)
      rw [heap_declare]
      exact .refl _
  | undeclare uuid =>
      apply sound.of_extends (sound.registry.undeclare uuid)
      rw [heap_undeclare]
      exact .refl _
  | define prefs uuid =>
      exact sound.of_extends (sound.registry.define prefs uuid) (extends_define _ prefs uuid)
  | undefine uuid =>
      apply sound.of_extends (sound.registry.undefine uuid)
      rw [heap_undefine]
      exact .refl _
  | resetSwap =>
      refine ⟨sound.registry.resetSwap, ?_⟩
      intro r hr
      cases List.mem_append.mp hr with
      | inl hmem => exact sound.swapped r hmem
      | inr hnew =>
          rw [List.mem_singleton.mp hnew]
          exact sound.registry.defined
  | getItemList i items =>
      simp only [perform]
      split
      · rename_i swapped hi
        exact sound.set hi (some items)
      · exact sound
  | resetItem i =>
      simp only [perform]
      split
      · rename_i swapped item items hi
        have hitem := sound.registry.resetItem (sound.swapped _ (List.mem_of_getElem? hi)) item
        exact (sound.of_extends hitem.1 hitem.2).set hi (some items)
      · exact sound

/-- In every interleaving `find` answers with a live VM exactly for the defined
uuids. Where each step is admissible no uuid is in two tables, and the next step
keeps it so exactly when it is admissible. -/
theorem tables_disjoint_of_run {requests : List Request} {s : System}
    (run : Run (Graph perform) {} requests s) :
    (∀ u, (s.registry.find u).isSome ↔ u ∈ s.registry.definedMap) ∧
    (Run (Guarded Admissible (Graph perform)) {} requests s →
      Disjoint s.registry ∧
        ∀ request, Disjoint (perform s request).registry ↔ Admissible s request) := by
  constructor
  · have sound : SystemSound s := by
      apply run.preserves systemSound_step
      refine ⟨sound_empty, ?_⟩
      intro r hr
      cases hr
    exact sound.registry.find_isSome
  · intro guarded
    have keep : ∀ s request t, Disjoint (System.registry s) →
        Guarded Admissible (Graph perform) s request t → Disjoint t.registry := by
      intro s request t disjoint step
      unfold Guarded Lib.Graph at step
      rw [← step.2]
      exact (disjoint_perform_iff disjoint request).mpr step.1
    have start : Disjoint {} := by
      intro u
      simp
    have disjoint : Disjoint s.registry := guarded.preserves (p := fun s => Disjoint s.registry) keep start
    exact ⟨disjoint, disjoint_perform_iff disjoint⟩

/-- One user, with the default directory. -/
def oneUser : Preferences :=
  ⟨["dir"], "dir"⟩

/-- A VM is defined, and an event defines it again while a `reset` is about to book
the object it swapped out. -/
def definedInReset : List Request :=
  [.define oneUser "vm", .resetSwap, .getItemList 0 [⟨"dir", "vm", "/vm", "", false⟩],
    .define oneUser "vm", .resetItem 0]

theorem tables_overlap :
    Run (Graph perform) {} definedInReset (definedInReset.foldl perform {}) ∧
    "vm" ∈ (definedInReset.foldl perform {}).registry.definedMap ∧
      "vm" ∈ (definedInReset.foldl perform {}).registry.bookingMap :=
  ⟨.foldl perform {} definedInReset, by decide, by decide⟩

/-- A VM is declared and defined; undone while a `reset` holds it, it is only booked. -/
theorem tables_disjoint_of_reset :
    let requests : List Request := [.declare ("vm", "dir") "/vm", .define oneUser "vm", .resetSwap,
      .undeclare "vm", .getItemList 0 [⟨"dir", "vm", "/home", "", false⟩], .resetItem 0]
    let s := requests.foldl perform {}
    s.registry.find "vm" = none ∧ "vm" ∈ s.registry.bookingMap ∧ Disjoint s.registry := by
  intro requests s
  refine ⟨by decide, by decide, ?_⟩
  have run : Run (Graph perform) {} requests s := .foldl perform {} requests
  have guarded : Run (Guarded Admissible (Graph perform)) {} requests s := by
    refine .cons ⟨trivial, rfl⟩ (.cons ⟨trivial, rfl⟩ (.cons ⟨trivial, rfl⟩
      (.cons ⟨trivial, rfl⟩ (.cons ⟨trivial, rfl⟩ (.cons ⟨?_, rfl⟩ (.nil s))))))
    intro swapped item items m hi hskipped hm
    cases hi
    exact ⟨by decide, by decide⟩
  exact ((tables_disjoint_of_run run).2 guarded).1

end DispService.Registry
