import DispService.Registry.Tables

/-! What every operation keeps: the objects a table holds are alive and carry the
uuid they are stored under. -/
namespace DispService.Registry

open DispService.Lib

/-- The address is that of a live object of the VM. -/
def IsVm (h : Heap Vm) (uuid : String) (a : Nat) : Prop :=
  ∃ vm, h.read a = some vm ∧ vm.uuid = uuid

/-- No object is destroyed or becomes that of another VM. -/
def Extends (h h' : Heap Vm) : Prop :=
  ∀ a vm, h.read a = some vm → ∃ vm', h'.read a = some vm' ∧ vm'.uuid = vm.uuid

theorem Extends.refl (h : Heap Vm) : Extends h h :=
  fun _ vm hread => ⟨vm, hread, rfl⟩

theorem IsVm.extends {h h' : Heap Vm} {uuid : String} {a : Nat} (isVm : IsVm h uuid a)
    (ext : Extends h h') : IsVm h' uuid a := by
  obtain ⟨vm, hread, huuid⟩ := isVm
  obtain ⟨vm', hread', huuid'⟩ := ext a vm hread
  exact ⟨vm', hread', huuid'.trans huuid⟩

/-- Allocation leaves every other object as it is. -/
theorem read_alloc_of_read {h : Heap Vm} {a : Nat} {vm : Vm} (v : Vm)
    (hread : h.read a = some vm) : (h.alloc v).read a = some vm := by
  rw [Heap.read_alloc, if_neg (Nat.ne_of_lt (Heap.lt_next_of_read hread)), hread]

theorem Extends.alloc (h : Heap Vm) (v : Vm) : Extends h (h.alloc v) := by
  intro a vm hread
  exact ⟨vm, read_alloc_of_read v hread, rfl⟩

/-- What stands in the booking table under a uuid. -/
def Booked (h : Heap Vm) (uuid : String) : Booking → Prop
  | .declaration ident _ => ident.1 = uuid
  | .bin a => IsVm h uuid a

theorem Booked.extends {h h' : Heap Vm} {uuid : String} {b : Booking} (booked : Booked h uuid b)
    (ext : Extends h h') : Booked h' uuid b := by
  cases b with
  | declaration ident home => exact booked
  | bin a => exact IsVm.extends booked ext

structure Sound (s : Actual) : Prop where
  defined : Table.All (IsVm s.heap) s.definedMap
  undeclared : Table.All (IsVm s.heap) s.undeclaredMap
  booking : Table.All (Booked s.heap) s.bookingMap

theorem sound_empty : Sound {} :=
  ⟨.empty, .empty, .empty⟩

/-- `find` returns a live VM exactly for the uuids of the defined table. -/
theorem Sound.find_isSome {s : Actual} (sound : Sound s) (uuid : String) :
    (s.find uuid).isSome ↔ uuid ∈ s.definedMap := by
  unfold Actual.find
  rw [Table.mem_iff]
  cases hlookup : s.definedMap.lookup uuid with
  | none => simp
  | some a =>
      obtain ⟨vm, hread, huuid⟩ := sound.defined uuid a hlookup
      simp [hread]

@[simp] theorem heap_declare (s : Actual) (ident : CVmIdent) (home : String) :
    (s.declare ident home).2.heap = s.heap := by
  unfold Actual.declare
  dsimp only
  split
  · rfl
  · split
    · rfl
    · split <;> rfl

@[simp] theorem heap_undeclare (s : Actual) (uuid : String) :
    (s.undeclare uuid).2.heap = s.heap := by
  unfold Actual.undeclare
  split
  · split <;> rfl
  · rfl

@[simp] theorem heap_undefine (s : Actual) (uuid : String) :
    (s.undefine uuid).2.heap = s.heap := by
  unfold Actual.undefine
  split <;> rfl

variable {s : Actual}

theorem Sound.declare (sound : Sound s) (ident : CVmIdent) (home : String) :
    Sound (s.declare ident home).2 := by
  unfold Actual.declare
  dsimp only
  split
  · exact sound
  · split
    · rename_i m hm
      exact ⟨sound.defined.insert (sound.undeclared _ m hm), sound.undeclared.erase _,
        sound.booking⟩
    · split
      · exact sound
      · exact ⟨sound.defined, sound.undeclared, sound.booking.insert rfl⟩

theorem Sound.undeclare (sound : Sound s) (uuid : String) : Sound (s.undeclare uuid).2 := by
  unfold Actual.undeclare
  split
  · split
    · exact ⟨sound.defined, sound.undeclared, sound.booking.erase uuid⟩
    · exact sound
  · rename_i m hm
    exact ⟨sound.defined.erase uuid, sound.undeclared.insert (sound.defined _ m hm),
      sound.booking⟩

theorem Sound.undefine (sound : Sound s) (uuid : String) : Sound (s.undefine uuid).2 := by
  unfold Actual.undefine
  split
  · exact ⟨sound.defined, sound.undeclared.erase uuid, sound.booking⟩
  · exact ⟨sound.defined.erase uuid, sound.undeclared, sound.booking⟩

/-- A change of the heap that extends it keeps the tables sound. -/
theorem Sound.extends (sound : Sound s) {h : Heap Vm} (ext : Extends s.heap h) :
    Sound { s with heap := h } where
  defined := sound.defined.mono fun _ _ isVm => isVm.extends ext
  undeclared := sound.undeclared.mono fun _ _ isVm => isVm.extends ext
  booking := sound.booking.mono fun _ _ booked => booked.extends ext

theorem extends_setHome (s : Actual) (a : Nat) (home : String) :
    Extends s.heap (s.setHome a home).heap := by
  intro b vm hread
  unfold Actual.setHome Heap.modify
  cases ha : s.heap.read a with
  | none => exact ⟨vm, hread, rfl⟩
  | some old =>
      by_cases hab : b = a
      · subst hab
        rw [ha] at hread
        cases hread
        exact ⟨{ vm with home }, Heap.read_put_self ha _, rfl⟩
      · exact ⟨vm, by simpa using (Heap.read_put_ne s.heap hab _).trans hread, rfl⟩

theorem Sound.setHome (sound : Sound s) (a : Nat) (home : String) : Sound (s.setHome a home) :=
  sound.extends (extends_setHome s a home)

theorem Sound.resetSwap (sound : Sound s) : Sound s.resetSwap.2 :=
  ⟨.empty, sound.undeclared, sound.booking⟩

theorem Sound.resetItem (sound : Sound s) {b : Table Nat} (swapped : b.All (IsVm s.heap))
    (i : Item) : Sound (s.resetItem b i) ∧ Extends s.heap (s.resetItem b i).heap := by
  unfold Actual.resetItem
  split
  · exact ⟨sound, .refl _⟩
  · split
    · refine ⟨sound.declare _ _, ?_⟩
      rw [heap_declare]
      exact .refl _
    · rename_i m hm
      have hext := extends_setHome s m i.vmHome
      have hset := sound.setHome m i.vmHome
      exact ⟨⟨hset.defined, hset.undeclared, hset.booking.insert ((swapped _ m hm).extends hext)⟩,
        hext⟩

theorem sound_makeVm (prefs : Preferences) (sound : Sound s) (ident : CVmIdent) (home : String) :
    Sound (Actual.makeVm prefs s ident home).2 ∧
    ∀ vm, (Actual.makeVm prefs s ident home).1 = .ok vm →
      (Actual.makeVm prefs s ident home).2.heap.read vm = some ⟨ident.1, ident.2, home⟩ := by
  unfold Actual.makeVm
  split
  · refine ⟨sound.extends (.alloc _ _), ?_⟩
    intro vm hvm
    cases hvm
    exact Heap.read_alloc_next _ _
  · refine ⟨sound, ?_⟩
    intro vm hvm
    cases hvm

theorem sound_conduct (prefs : Preferences) (uuid : String) (sound : Sound s) :
    Sound (Actual.conduct prefs s uuid).2 ∧
    ∀ vm, (Actual.conduct prefs s uuid).1 = .ok vm →
      IsVm (Actual.conduct prefs s uuid).2.heap uuid vm := by
  unfold Actual.conduct
  have herased : Sound { s with bookingMap := s.bookingMap.erase uuid } :=
    ⟨sound.defined, sound.undeclared, sound.booking.erase uuid⟩
  split
  · rename_i ident home hbooked
    have hmake := sound_makeVm prefs herased ident home
    refine ⟨hmake.1, ?_⟩
    intro vm hvm
    exact ⟨_, hmake.2 vm hvm, sound.booking _ _ hbooked⟩
  · rename_i a hbooked
    refine ⟨herased, ?_⟩
    intro vm hvm
    cases hvm
    exact sound.booking _ _ hbooked
  · have hmake := sound_makeVm prefs sound (uuid, prefs.defaultVmDirectory) ""
    refine ⟨hmake.1, ?_⟩
    intro vm hvm
    exact ⟨_, hmake.2 vm hvm, rfl⟩

theorem Sound.define (sound : Sound s) (prefs : Preferences) (uuid : String) :
    Sound (Actual.define prefs s uuid).2 := by
  unfold Actual.define
  split
  · exact sound
  · have hconduct := sound_conduct prefs uuid sound
    split
    · rename_i vm s' heq
      rw [heq] at hconduct
      exact ⟨hconduct.1.defined.insert (hconduct.2 vm rfl), hconduct.1.undeclared,
        hconduct.1.booking⟩
    · rename_i e s' heq
      rw [heq] at hconduct
      exact hconduct.1

theorem extends_makeVm (prefs : Preferences) (s : Actual) (ident : CVmIdent) (home : String) :
    Extends s.heap (Actual.makeVm prefs s ident home).2.heap := by
  unfold Actual.makeVm
  split
  · exact .alloc _ _
  · exact .refl _

theorem extends_conduct (prefs : Preferences) (uuid : String) (s : Actual) :
    Extends s.heap (Actual.conduct prefs s uuid).2.heap := by
  unfold Actual.conduct
  split
  · exact extends_makeVm prefs { s with bookingMap := s.bookingMap.erase uuid } _ _
  · exact .refl _
  · exact extends_makeVm prefs s _ _

theorem extends_define (s : Actual) (prefs : Preferences) (uuid : String) :
    Extends s.heap (Actual.define prefs s uuid).2.heap := by
  unfold Actual.define
  split
  · exact .refl _
  · have hext := extends_conduct prefs uuid s
    split
    · rename_i vm s' heq
      rw [heq] at hext
      exact hext
    · rename_i e s' heq
      rw [heq] at hext
      exact hext

/-- The conductor takes the booking away and leaves the other tables. -/
theorem conduct_tables (prefs : Preferences) (s : Actual) (uuid : String) :
    (Actual.conduct prefs s uuid).2.definedMap = s.definedMap ∧
    (Actual.conduct prefs s uuid).2.undeclaredMap = s.undeclaredMap ∧
    ∀ u, (Actual.conduct prefs s uuid).2.bookingMap.lookup u =
      if u = uuid then none else s.bookingMap.lookup u := by
  unfold Actual.conduct
  split
  · unfold Actual.makeVm
    split
    · exact ⟨rfl, rfl, fun u => Table.lookup_erase _ _ u⟩
    · exact ⟨rfl, rfl, fun u => Table.lookup_erase _ _ u⟩
  · exact ⟨rfl, rfl, fun u => Table.lookup_erase _ _ u⟩
  · rename_i hnone
    have hsame : ∀ u, s.bookingMap.lookup u = if u = uuid then none else s.bookingMap.lookup u := by
      intro u
      split
      · rename_i hu
        rw [hu, hnone]
      · rfl
    unfold Actual.makeVm
    split
    · exact ⟨rfl, rfl, hsame⟩
    · exact ⟨rfl, rfl, hsame⟩

end DispService.Registry
