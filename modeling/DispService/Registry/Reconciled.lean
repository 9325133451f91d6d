import DispService.Registry.Breeding
import DispService.Registry.Interleaving

/-! Which VMs the reconciliation forgets. A VM whose event comes first has its entry already, and
the reconciliation takes it for one that libvirt has lost. -/
namespace DispService.Registry.Breeding

open Lib

namespace Thread

/-- The VMs that are still to be added. -/
def awaited (t : Thread) : Finset String :=
  match t.phase with
  | .snapshot | .validate | .reset | .getItemList | .declare => t.b
  | .add => t.rest
  | _ => ∅

/-- The VMs that are to be taken away from libvirt. -/
def purged (t : Thread) : Finset String :=
  match t.phase with
  | .snapshot | .validate | .reset | .getItemList | .declare | .add | .define | .undefine _ => t.c
  | .purge => t.rest
  | _ => ∅

/-- What a loop over the VMs of libvirt has left. -/
def visited (t : Thread) : Finset String :=
  match t.phase with
  | .add | .update => t.rest
  | _ => ∅

/-- The defined table has been swapped out. -/
def late (t : Thread) : Bool :=
  match t.phase with
  | .all | .snapshot | .validate | .reset => false
  | _ => true

end Thread

/-- The VMs that are to be taken away from the registry, unless they are added before. -/
def System.dropped (st : System) : Finset String :=
  match st.thread.phase with
  | .snapshot => snapshot st.registry
  | .validate | .reset | .getItemList | .declare | .add => st.thread.s
  | .define => st.thread.rest
  | .undefine uuid => insert uuid st.thread.rest
  | _ => ∅

section Condition

variable (prefs : Preferences) (serverUuid : String)

/-- The directory that a VM is booked for, or the default one, is that of a user. -/
def HasUser : Option Booking → Prop
  | some (.declaration ident _) => ident.2 ∈ prefs.userVmDirectories
  | some (.bin _) => True
  | none => prefs.defaultVmDirectory ∈ prefs.userVmDirectories

/-- The registry defines the VM when it is asked to. -/
def Definable (s : Actual) (u : String) : Prop :=
  u ∉ s.definedMap ∧ u ∉ s.undeclaredMap ∧ HasUser prefs (s.bookingMap.lookup u)

def Addable (st : System) (u : String) : Prop :=
  u ≠ "" ∧ u ∉ st.m_domainMap ∧ Definable prefs st.registry u

/-- The VM is one of another server, and nothing is about to change that. -/
def Untouched (st : System) (u : String) : Prop :=
  Foreign serverUuid st u ∧ .updateConfig u ∉ st.reactions ∧ u ∉ st.thread.b

/-- An event adds no VM before the defined table is swapped out and none that is about to be
dropped, and a VM that it cannot add is none of libvirt, or one of another server, or its turn is
still to come. -/
def Heard (st : System) : List Event → Prop
  | .defined u :: events =>
      u ∉ st.m_domainMap →
        (Addable prefs st u →
          st.thread.late = true ∧ u ∉ st.dropped ∧ u ∉ st.thread.purged) ∧
        (¬ Addable prefs st u →
          u ∉ st.libvirt ∨ (∃ e ∈ events, e.uuid = u) ∨ st.thread.phase = .all ∨
            u ∈ st.thread.awaited ∨ Untouched serverUuid st u)
  | _ => True

/-- libvirt lists its VMs, and one that cannot be added is gone, or has not been there before, or
is one of another server. -/
def Taken (st : System) (u : String) (ok : Bool) : Phase → Prop
  | .all => ok = true
  | .add =>
      u ∈ st.thread.rest → u ∉ st.m_domainMap → ¬ Addable prefs st u →
        u ∉ st.libvirt ∨ (u ∉ st.thread.s ∧ ¬ Settled st u) ∨
          Foreign serverUuid st u ∧ .updateConfig u ∉ st.reactions
  | _ => True

/-- The events and the turns of the reconciliation fit, and libvirt gets no VM that is about to be
dropped. -/
def Fit (st : System) : Label → Prop
  | .define u =>
      u ∈ st.dropped → u ∉ st.thread.awaited → u ∈ st.libvirt ∨ Untouched serverUuid st u
  | .event => Heard prefs serverUuid st st.events
  | .breed u ok => Taken prefs serverUuid st u ok st.thread.phase
  | _ => True

instance (b : Option Booking) : Decidable (HasUser prefs b) :=
  match b with
  | some (.declaration _ _) => inferInstanceAs (Decidable (_ ∈ _))
  | some (.bin _) => .isTrue trivial
  | none => inferInstanceAs (Decidable (_ ∈ _))

instance (s : Actual) (u : String) : Decidable (Definable prefs s u) :=
  inferInstanceAs (Decidable (_ ∧ _))

instance (st : System) (u : String) : Decidable (Addable prefs st u) :=
  inferInstanceAs (Decidable (_ ∧ _))

instance (st : System) (u : String) : Decidable (Foreign serverUuid st u) :=
  inferInstanceAs (Decidable (_ ∧ _))

instance (st : System) (u : String) : Decidable (Untouched serverUuid st u) :=
  inferInstanceAs (Decidable (_ ∧ _))

instance (st : System) (u : String) : Decidable (Settled st u) :=
  inferInstanceAs (Decidable (∀ _ ∈ _, _))

instance (st : System) (events : List Event) : Decidable (Heard prefs serverUuid st events) :=
  match events with
  | .defined _ :: _ => inferInstanceAs (Decidable (_ → _))
  | .undefined _ :: _ => .isTrue trivial
  | [] => .isTrue trivial

instance (st : System) (u : String) (ok : Bool) (phase : Phase) :
    Decidable (Taken prefs serverUuid st u ok phase) :=
  match phase with
  | .all => inferInstanceAs (Decidable (_ = _))
  | .add => inferInstanceAs (Decidable (_ → _))
  | .snapshot | .validate | .reset | .getItemList | .declare | .define | .undefine _ | .purge
  | .update | .done => .isTrue trivial

instance (st : System) (l : Label) : Decidable (Fit prefs serverUuid st l) :=
  match l with
  | .define _ => inferInstanceAs (Decidable (_ → _))
  | .event => inferInstanceAs (Decidable (Heard _ _ _ _))
  | .breed _ _ => inferInstanceAs (Decidable (Taken _ _ _ _ _ _))
  | .undefine _ | .reaction _ _ => .isTrue trivial

end Condition

section Registry

variable {prefs : Preferences} {s : Actual} {u v : String}

theorem conduct_ok_iff : (∃ vm, (Actual.conduct prefs s u).1 = .ok vm) ↔
    HasUser prefs (s.bookingMap.lookup u) := by
  unfold Actual.conduct HasUser
  split
  · rename_i ident home hbooked
    simp only [hbooked, Actual.makeVm]
    split <;> simp_all
  · rename_i vm hbooked
    simp [hbooked]
  · rename_i hnone
    simp only [hnone, Actual.makeVm]
    split <;> simp_all

/-- What `define` does to the tables that `snapshot` reads. -/
theorem define_cases (prefs : Preferences) (s : Actual) (u : String) :
    (Definable prefs s u ∧ ∃ vm registry, Actual.define prefs s u = (.ok vm, registry) ∧
      registry.definedMap = s.definedMap.insert u vm ∧
      registry.undeclaredMap = s.undeclaredMap) ∨
    (¬ Definable prefs s u ∧ ∃ e registry, Actual.define prefs s u = (.error e, registry) ∧
      registry.definedMap = s.definedMap ∧ registry.undeclaredMap = s.undeclaredMap) := by
  unfold Actual.define
  split
  · rename_i hknown
    refine .inr ⟨fun hdef => hknown.elim hdef.1 hdef.2.1, _, _, rfl, rfl, rfl⟩
  · rename_i hfree
    rw [not_or] at hfree
    have htables := conduct_tables prefs s u
    have hok : (∃ vm, (Actual.conduct prefs s u).1 = .ok vm) ↔
        HasUser prefs (s.bookingMap.lookup u) := conduct_ok_iff
    cases hconduct : Actual.conduct prefs s u with
    | mk r registry =>
      rw [hconduct] at htables hok
      cases r with
      | ok vm =>
        refine .inl ⟨⟨hfree.1, hfree.2, hok.mp ⟨vm, rfl⟩⟩, vm, _, rfl, ?_, htables.2.1⟩
        rw [← htables.1]
      | error e =>
        refine .inr ⟨fun hdef => ?_, e, _, rfl, htables.1, htables.2.1⟩
        obtain ⟨vm, hvm⟩ := hok.mpr hdef.2.2
        cases hvm

theorem mem_define (h : v ∈ s.definedMap) : v ∈ (Actual.define prefs s u).2.definedMap := by
  obtain ⟨-, vm, registry, heq, hdefined, -⟩ | ⟨-, e, registry, heq, hdefined, -⟩ :=
    define_cases prefs s u
  · rw [heq, hdefined, Table.mem_insert_iff]
    exact .inr h
  · rw [heq, hdefined]
    exact h

theorem mem_undefine (hne : v ≠ u) (h : v ∈ s.definedMap) : v ∈ (s.undefine u).2.definedMap := by
  unfold Actual.undefine
  split
  · exact h
  · exact (Table.mem_erase_iff _ _ _).mpr ⟨hne, h⟩

theorem mem_resetItem {b : Table Nat} {i : Item} (h : v ∈ s.definedMap) :
    v ∈ (s.resetItem b i).definedMap := by
  unfold Actual.resetItem
  split
  · exact h
  · split
    · unfold Actual.declare
      dsimp only
      split
      · exact h
      · split
        · exact (Table.mem_insert_iff _ _ _ _).mpr (.inr h)
        · split <;> exact h
    · exact h

variable {st : System}

theorem add_of_addable (h : Addable prefs st u) : ∃ registry,
    add prefs st u = (true, { st with registry, m_domainMap := insert u st.m_domainMap }) ∧
      u ∈ registry.definedMap ∧ ∀ v ∈ st.registry.definedMap, v ∈ registry.definedMap := by
  obtain ⟨-, vm, registry, heq, hdefined, -⟩ | ⟨hno, -⟩ := define_cases prefs st.registry u
  · refine ⟨registry, ?_, ?_, fun v hv => ?_⟩
    · rw [add, if_neg (not_or.mpr ⟨h.1, h.2.1⟩), heq]
    · rw [hdefined]
      exact (Table.mem_insert_iff _ _ _ _).mpr (.inl rfl)
    · rw [hdefined]
      exact (Table.mem_insert_iff _ _ _ _).mpr (.inr hv)
  · exact absurd h.2.2 hno

theorem add_of_not_addable (h : ¬ Addable prefs st u) : ∃ registry,
    add prefs st u = (false, { st with registry }) ∧
      registry.definedMap = st.registry.definedMap ∧
      registry.undeclaredMap = st.registry.undeclaredMap := by
  by_cases hown : u = "" ∨ u ∈ st.m_domainMap
  · exact ⟨st.registry, if_pos hown, rfl, rfl⟩
  · obtain ⟨hdef, -⟩ | ⟨-, e, registry, heq, htables⟩ := define_cases prefs st.registry u
    · rw [not_or] at hown
      exact absurd ⟨hown.1, hown.2, hdef⟩ h
    · refine ⟨registry, ?_, htables⟩
      rw [add, if_neg hown, heq]

end Registry

/-- The last event about a VM. -/
def lastOf (events : List Event) (u : String) : Option Event :=
  (events.filter fun e => e.uuid = u).getLast?

section Events

variable {events : List Event} {e : Event} {u : String}

theorem lastOf_snoc :
    lastOf (events ++ [e]) u = if e.uuid = u then some e else lastOf events u := by
  unfold lastOf
  rw [List.filter_append]
  split
  · rename_i h
    simp [h]
  · rename_i h
    simp [h]

theorem lastOf_tail {x : Event} (h : lastOf (e :: events) u ≠ some x) :
    lastOf events u ≠ some x := by
  unfold lastOf at h ⊢
  rw [List.filter_cons] at h
  split at h
  · intro hlast
    rw [List.getLast?_cons, hlast] at h
    exact h rfl
  · exact h

/-- Once nothing follows about the VM, it is the last. -/
theorem lastOf_alone (h : ∀ e' ∈ events, e'.uuid ≠ e.uuid) : lastOf (e :: events) e.uuid = some e := by
  unfold lastOf
  have hnone : (events.filter fun e' => e'.uuid = e.uuid) = [] := by
    rw [List.filter_eq_nil_iff]
    intro e' he'
    simpa using h e' he'
  rw [List.filter_cons, if_pos (decide_eq_true rfl), hnone]
  rfl

end Events

/-- An entry of the domain map is in the registry, and nothing is about to take it away. A VM that
is to be dropped is lost to libvirt, or of another server, and each VM of libvirt that no event
speaks of is awaited, or has its entry, or is of another server. -/
structure Inv (serverUuid : String) (st : System) : Prop where
  early : st.thread.late = false → st.m_domainMap = ∅ ∧ st.reactions = []
  entered : ∀ u ∈ st.m_domainMap, u ∈ st.registry.definedMap ∧ .undefine u ∉ st.reactions ∧
    u ∉ st.dropped ∧ u ∉ st.thread.purged
  leaving : ∀ u, .undefine u ∈ st.reactions → u ∈ st.registry.definedMap ∧ u ∉ st.dropped ∧
    st.reactions.count (.undefine u) = 1
  purged : ∀ u ∈ st.thread.purged, Untouched serverUuid st u
  dropped : ∀ u ∈ st.dropped, u ∉ st.thread.awaited →
    u ∉ st.libvirt ∨ Untouched serverUuid st u
  last : ∀ u ∈ st.libvirt, lastOf st.events u ≠ some (.undefined u)
  known : st.thread.phase ≠ .all → ∀ u ∈ st.libvirt, Settled st u →
    u ∈ st.thread.awaited ∨ u ∈ st.m_domainMap ∨ Untouched serverUuid st u
  visits : st.thread.visited ⊆ st.thread.b

section Steps

variable {prefs : Preferences} {serverUuid : String} {st : System} {u : String}

theorem inv_start (registry : Actual) (items : List Item) (stored : String → Option String)
    (libvirt : Finset String) : Inv serverUuid (start registry items stored libvirt) where
  early := fun _ => ⟨rfl, rfl⟩
  entered := fun _ h => absurd h (Finset.notMem_empty _)
  leaving := fun _ h => absurd h List.not_mem_nil
  purged := fun _ h => absurd h (Finset.notMem_empty _)
  dropped := fun _ h => absurd h (Finset.notMem_empty _)
  last := fun _ _ => nofun
  known := fun h => absurd rfl h
  visits := Finset.empty_subset _

theorem Untouched.mono {st' : System} (h : Untouched serverUuid st u)
    (hstored : st'.stored u = st.stored u)
    (hreactions : .updateConfig u ∈ st'.reactions → .updateConfig u ∈ st.reactions)
    (hb : u ∈ st'.thread.b → u ∈ st.thread.b) : Untouched serverUuid st' u := by
  refine ⟨?_, mt hreactions h.2.1, mt hb h.2.2⟩
  unfold Foreign
  rw [hstored]
  exact h.1

/-- The registry may change, as long as it keeps what has an entry, or had one. -/
theorem Inv.registry (inv : Inv serverUuid st) (registry : Actual) (items : List Item)
    (hkept : ∀ u, u ∈ st.m_domainMap ∨ .undefine u ∈ st.reactions → u ∈ registry.definedMap)
    (hsnapshot : st.thread.phase = .snapshot → snapshot registry ⊆ snapshot st.registry) :
    Inv serverUuid { st with registry, items } := by
  have hdropped : System.dropped { st with registry, items } ⊆ st.dropped := by
    unfold System.dropped
    dsimp only
    split <;> first | exact subset_rfl | exact hsnapshot ‹_›
  refine ⟨inv.early, fun u hu => ?_, fun u hu => ?_, inv.purged, fun u hu => ?_, inv.last,
    inv.known, inv.visits⟩
  · obtain ⟨-, hundefine, hdrop, hpurge⟩ := inv.entered u hu
    exact ⟨hkept u (.inl hu), hundefine, fun hno => hdrop (hdropped hno), hpurge⟩
  · obtain ⟨-, hdrop, hcount⟩ := inv.leaving u hu
    exact ⟨hkept u (.inr hu), fun hno => hdrop (hdropped hno), hcount⟩
  · exact inv.dropped u (hdropped hu)

/-- The reconciliation may go on, as long as it drops and purges no other VM, and whatever is no
longer awaited has its entry, or need not have one. -/
theorem Inv.move (inv : Inv serverUuid st) {t : Thread} (hall : st.thread.phase ≠ .all)
    (hlate : t.late = false → st.thread.late = false) (hb : t.b ⊆ st.thread.b)
    (hdropped : System.dropped { st with thread := t } ⊆ st.dropped)
    (hpurged : ∀ u ∈ t.purged, u ∈ st.thread.purged ∨
      u ∉ st.m_domainMap ∧ Untouched serverUuid { st with thread := t } u)
    (hawaited : ∀ u ∈ st.thread.awaited, u ∉ t.awaited →
      (u ∈ st.libvirt → Settled st u →
        u ∈ st.m_domainMap ∨ Untouched serverUuid { st with thread := t } u) ∧
      (u ∈ System.dropped { st with thread := t } →
        u ∉ st.libvirt ∨ Untouched serverUuid { st with thread := t } u))
    (hvisits : t.visited ⊆ t.b) : Inv serverUuid { st with thread := t } := by
  have huntouched : ∀ u, Untouched serverUuid st u →
      Untouched serverUuid { st with thread := t } u :=
    fun u h => h.mono rfl id fun hu => hb hu
  refine ⟨fun h => inv.early (hlate h), fun u hu => ?_, fun u hu => ?_, fun u hu => ?_,
    fun u hu hno => ?_, inv.last, fun _ u hu hsettled => ?_, hvisits⟩
  · obtain ⟨hdefined, hundefine, hdrop, hpurge⟩ := inv.entered u hu
    refine ⟨hdefined, hundefine, fun hno => hdrop (hdropped hno), fun hno => ?_⟩
    exact (hpurged u hno).elim hpurge fun hnew => hnew.1 hu
  · obtain ⟨hdefined, hdrop, hcount⟩ := inv.leaving u hu
    exact ⟨hdefined, fun hno => hdrop (hdropped hno), hcount⟩
  · exact (hpurged u hu).elim (fun hold => huntouched u (inv.purged u hold)) And.right
  · by_cases hold : u ∈ st.thread.awaited
    · exact (hawaited u hold hno).2 hu
    · exact (inv.dropped u (hdropped hu) hold).imp id (huntouched u)
  · by_cases hnew : u ∈ t.awaited
    · exact .inl hnew
    · obtain hold | hmap | hforeign := inv.known hall u hu hsettled
      · exact .inr ((hawaited u hold hnew).1 hu hsettled)
      · exact .inr (.inl hmap)
      · exact .inr (.inr (huntouched u hforeign))

/-- The same, where everything that was awaited still is. -/
theorem Inv.advance (inv : Inv serverUuid st) {t : Thread} (hall : st.thread.phase ≠ .all)
    (hlate : t.late = false → st.thread.late = false) (hb : t.b = st.thread.b)
    (hdropped : System.dropped { st with thread := t } ⊆ st.dropped)
    (hpurged : t.purged ⊆ st.thread.purged) (hawaited : st.thread.awaited ⊆ t.awaited)
    (hvisits : t.visited ⊆ t.b) : Inv serverUuid { st with thread := t } :=
  inv.move hall hlate (hb ▸ subset_rfl) hdropped (fun _ hu => .inl (hpurged hu))
    (fun _ hu hno => absurd (hawaited hu) hno) hvisits


theorem dropped_of_late {st' : System} (hthread : st'.thread = st.thread)
    (hlate : st.thread.late = true) : st'.dropped = st.dropped := by
  unfold System.dropped
  rw [hthread]
  unfold Thread.late at hlate
  split <;> simp_all

/-- A VM gets its entry. -/
theorem Inv.enter (inv : Inv serverUuid st) {registry : Actual} (hlate : st.thread.late = true)
    (hu : u ∈ registry.definedMap) (hgrow : ∀ v ∈ st.registry.definedMap, v ∈ registry.definedMap)
    (hfree : u ∉ st.registry.definedMap) (hdrop : u ∉ st.dropped)
    (hpurge : u ∉ st.thread.purged) :
    Inv serverUuid { st with registry, m_domainMap := insert u st.m_domainMap } := by
  have hdropped : System.dropped
      { st with registry, m_domainMap := insert u st.m_domainMap } = st.dropped :=
    dropped_of_late rfl hlate
  refine ⟨fun hno => ?_, fun v hv => ?_, fun v hv => ?_, inv.purged, fun v hv => ?_, inv.last,
    fun hall v hv hsettled => ?_, inv.visits⟩
  · rw [hlate] at hno
    cases hno
  · rw [hdropped]
    obtain rfl | hold := Finset.mem_insert.mp hv
    · exact ⟨hu, fun hno => hfree (inv.leaving v hno).1, hdrop, hpurge⟩
    · obtain ⟨hdefined, hrest⟩ := inv.entered v hold
      exact ⟨hgrow v hdefined, hrest⟩
  · rw [hdropped]
    obtain ⟨hdefined, hrest⟩ := inv.leaving v hv
    exact ⟨hgrow v hdefined, hrest⟩
  · rw [hdropped] at hv
    exact inv.dropped v hv
  · exact (inv.known hall v hv hsettled).imp id fun h => h.imp Finset.mem_insert_of_mem id

/-- An entry is shown the new configuration. -/
theorem Inv.show (inv : Inv serverUuid st) (hu : u ∈ st.m_domainMap) :
    Inv serverUuid { st with reactions := st.reactions ++ [.updateConfig u] } := by
  have huntouched : ∀ v, v ≠ u → Untouched serverUuid st v →
      Untouched serverUuid { st with reactions := st.reactions ++ [.updateConfig u] } v :=
    fun v hne h => h.mono rfl (by simp [hne]) id
  obtain ⟨-, -, hdrop, hpurge⟩ := inv.entered u hu
  refine ⟨fun hno => ?_, fun v hv => ?_, fun v hv => ?_, fun v hv => ?_, fun v hv hno => ?_,
    inv.last, fun hall v hv hsettled => ?_, inv.visits⟩
  · rw [(inv.early hno).1] at hu
    exact absurd hu (Finset.notMem_empty _)
  · obtain ⟨hdefined, hundefine, hrest⟩ := inv.entered v hv
    exact ⟨hdefined, by simp [hundefine], hrest⟩
  · have hold : .undefine v ∈ st.reactions := by simpa using hv
    obtain ⟨hdefined, hdrop, hcount⟩ := inv.leaving v hold
    exact ⟨hdefined, hdrop, by simp [hcount]⟩
  · exact huntouched v (fun h => hpurge (h ▸ hv)) (inv.purged v hv)
  · exact (inv.dropped v hv hno).imp id (huntouched v fun h => hdrop (h ▸ hv))
  · by_cases hne : v = u
    · exact .inr (.inl (hne ▸ hu))
    · exact (inv.known hall v hv hsettled).imp id fun h => h.imp id (huntouched v hne)

/-- An entry goes, and the registry is to follow. -/
theorem Inv.leave (inv : Inv serverUuid st) (hu : u ∈ st.m_domainMap)
    (hcoming : ¬ Settled st u) :
    Inv serverUuid { st with
      m_domainMap := st.m_domainMap.erase u
      reactions := st.reactions ++ [.undefine u] } := by
  have huntouched : ∀ v, Untouched serverUuid st v →
      Untouched serverUuid { st with
        m_domainMap := st.m_domainMap.erase u
        reactions := st.reactions ++ [.undefine u] } v :=
    fun v h => h.mono rfl (by simp) id
  obtain ⟨hdefined, hnone, hdrop, -⟩ := inv.entered u hu
  refine ⟨fun hno => ?_, fun v hv => ?_, fun v hv => ?_, fun v hv => huntouched v (inv.purged v hv),
    fun v hv hno => (inv.dropped v hv hno).imp id (huntouched v), inv.last,
    fun hall v hv hsettled => ?_, inv.visits⟩
  · rw [(inv.early hno).1] at hu
    exact absurd hu (Finset.notMem_empty _)
  · obtain ⟨hne, hv⟩ := Finset.mem_erase.mp hv
    obtain ⟨hdefined, hundefine, hrest⟩ := inv.entered v hv
    exact ⟨hdefined, by simp [hundefine, hne], hrest⟩
  · by_cases hne : v = u
    · subst hne
      exact ⟨hdefined, hdrop, by simp [List.count_eq_zero_of_not_mem hnone]⟩
    · have hold : .undefine v ∈ st.reactions := by simpa [hne] using hv
      obtain ⟨hdefined, hdrop, hcount⟩ := inv.leaving v hold
      exact ⟨hdefined, hdrop, by simp [hcount, Ne.symm hne]⟩
  · refine (inv.known hall v hv hsettled).imp id fun h => h.imp (fun hmap => ?_) (huntouched v)
    exact Finset.mem_erase.mpr ⟨fun hno => hcoming (hno ▸ hsettled), hmap⟩

/-- An event has been handled. If nothing follows about its VM, the VM is known. -/
theorem Inv.handled (inv : Inv serverUuid st) {e : Event} {events : List Event}
    (hevents : st.events = e :: events)
    (hknown : e.uuid ∈ st.libvirt → (∀ e' ∈ events, e'.uuid ≠ e.uuid) → st.thread.phase ≠ .all →
      e.uuid ∈ st.thread.awaited ∨ e.uuid ∈ st.m_domainMap ∨ Untouched serverUuid st e.uuid) :
    Inv serverUuid { st with events } := by
  refine ⟨inv.early, inv.entered, inv.leaving, inv.purged, inv.dropped, fun v hv => ?_,
    fun hall v hv hsettled => ?_, inv.visits⟩
  · exact lastOf_tail (hevents ▸ inv.last v hv)
  · by_cases hne : e.uuid = v
    · subst hne
      exact hknown hv hsettled hall
    · refine inv.known hall v hv ?_
      unfold Settled
      rw [hevents]
      exact List.forall_mem_cons.mpr ⟨hne, hsettled⟩

/-- What libvirt says of a VM is stored. -/
theorem Inv.updateConfig (inv : Inv serverUuid st) (h : ¬ Untouched serverUuid st u) (ok : Bool) :
    Inv serverUuid (updateConfig serverUuid ok st u) := by
  unfold Breeding.updateConfig
  split
  · have huntouched : ∀ v, Untouched serverUuid st v → Untouched serverUuid
        { st with stored := Function.update st.stored u (some serverUuid) } v :=
      fun v hv => hv.mono (Function.update_of_ne (by rintro rfl; exact h hv) _ _) id id
    exact ⟨inv.early, inv.entered, inv.leaving, fun v hv => huntouched v (inv.purged v hv),
      fun v hv hno => (inv.dropped v hv hno).imp id (huntouched v), inv.last,
      fun hall v hv hsettled => (inv.known hall v hv hsettled).imp id
        fun h => h.imp id (huntouched v), inv.visits⟩
  · exact inv

/-- A thread of the pool takes a reaction. -/
theorem Inv.taken (inv : Inv serverUuid st) (i : Nat) :
    Inv serverUuid { st with reactions := st.reactions.eraseIdx i } := by
  have hmem : ∀ {r}, r ∈ st.reactions.eraseIdx i → r ∈ st.reactions := List.mem_of_mem_eraseIdx
  have huntouched : ∀ v, Untouched serverUuid st v → Untouched serverUuid
      { st with reactions := st.reactions.eraseIdx i } v :=
    fun v h => h.mono rfl hmem id
  refine ⟨fun h => ?_, fun v hv => ?_, fun v hv => ?_, fun v hv => huntouched v (inv.purged v hv),
    fun v hv hno => (inv.dropped v hv hno).imp id (huntouched v), inv.last,
    fun hall v hv hsettled => (inv.known hall v hv hsettled).imp id
      fun h => h.imp id (huntouched v), inv.visits⟩
  · obtain ⟨hmap, hreactions⟩ := inv.early h
    exact ⟨hmap, by rw [hreactions]; rfl⟩
  · obtain ⟨hdefined, hundefine, hrest⟩ := inv.entered v hv
    exact ⟨hdefined, fun hno => hundefine (hmem hno), hrest⟩
  · obtain ⟨hdefined, hdrop, hcount⟩ := inv.leaving v (hmem hv)
    have hle := (List.eraseIdx_sublist st.reactions i).count_le (.undefine v)
    have hpos : 0 < (st.reactions.eraseIdx i).count (.undefine v) := List.count_pos_iff.mpr hv
    refine ⟨hdefined, hdrop, ?_⟩
    change (st.reactions.eraseIdx i).count _ = 1
    omega

theorem Inv.notMem_taken (inv : Inv serverUuid st) {i : Nat}
    (hi : st.reactions[i]? = some (.undefine u)) :
    .undefine u ∉ st.reactions.eraseIdx i := by
  have hcount := (inv.leaving u (List.mem_of_getElem? hi)).2.2
  obtain ⟨hlt, hget⟩ := List.getElem?_eq_some_iff.mp hi
  rw [← List.take_append_drop i st.reactions, List.drop_eq_getElem_cons hlt, hget,
    List.count_append, List.count_cons_self] at hcount
  rw [List.eraseIdx_eq_take_drop_succ, ← List.count_eq_zero, List.count_append]
  omega

/-- A VM without an entry is taken away from the registry. -/
theorem Inv.undefine (inv : Inv serverUuid st) (hlate : st.thread.late = true)
    (hmap : u ∉ st.m_domainMap) (hreactions : .undefine u ∉ st.reactions) :
    Inv serverUuid (undefine st u) := by
  refine inv.registry _ _ (fun v hv => ?_) fun hno => ?_
  · obtain hv | hv := hv
    · exact mem_undefine (fun h => hmap (h ▸ hv)) (inv.entered v hv).1
    · exact mem_undefine (fun h => hreactions (h ▸ hv)) (inv.leaving v hv).1
  · simp [Thread.late, hno] at hlate

/-- The registry may change what it has booked. -/
theorem Inv.unadded (inv : Inv serverUuid st) {registry : Actual}
    (hdefined : registry.definedMap = st.registry.definedMap)
    (hundeclared : registry.undeclaredMap = st.registry.undeclaredMap) :
    Inv serverUuid { st with registry } := by
  refine inv.registry _ st.items (fun v hv => ?_) fun _ => ?_
  · rw [hdefined]
    exact hv.elim (fun h => (inv.entered v h).1) fun h => (inv.leaving v h).1
  · unfold snapshot
    rw [hdefined, hundeclared]

theorem Inv.forget (inv : Inv serverUuid st) (u : String) : Inv serverUuid (forget st u) := by
  refine ⟨inv.early, inv.entered, inv.leaving, inv.purged, fun v hv hno => ?_, fun v hv => ?_,
    fun hall v hv hsettled => ?_, inv.visits⟩
  · exact (inv.dropped v hv hno).imp (fun h hin => h (Finset.mem_of_mem_erase hin)) id
  · obtain ⟨hne, hv⟩ := Finset.mem_erase.mp hv
    change lastOf (st.events ++ [.undefined u]) v ≠ _
    rw [lastOf_snoc, if_neg (show (Event.undefined u).uuid ≠ v from Ne.symm hne)]
    exact inv.last v hv
  · exact inv.known hall v (Finset.mem_of_mem_erase hv)
      fun e he => hsettled e (List.mem_append_left _ he)

/-- libvirt gets a VM, or changes one. -/
theorem Inv.arise (inv : Inv serverUuid st)
    (hfit : u ∈ st.dropped → u ∉ st.thread.awaited →
      u ∈ st.libvirt ∨ Untouched serverUuid st u) :
    Inv serverUuid { st with
      libvirt := insert u st.libvirt, events := st.events ++ [.defined u] } := by
  refine ⟨inv.early, inv.entered, inv.leaving, inv.purged, fun v hv hno => ?_, fun v hv => ?_,
    fun hall v hv hsettled => ?_, inv.visits⟩
  · refine (inv.dropped v hv hno).elim (fun hlost => ?_) .inr
    by_cases hne : v = u
    · subst hne
      exact (hfit hv hno).elim (fun h => absurd h hlost) .inr
    · exact .inl fun hin => (Finset.mem_insert.mp hin).elim hne hlost
  · change lastOf (st.events ++ [.defined u]) v ≠ _
    rw [lastOf_snoc]
    split
    · nofun
    · rename_i hne
      exact inv.last v ((Finset.mem_insert.mp hv).resolve_left fun h => hne h.symm)
  · have hne : v ≠ u := fun h =>
      hsettled (.defined u) (List.mem_append_right _ (List.mem_singleton.mpr rfl)) h.symm
    exact inv.known hall v ((Finset.mem_insert.mp hv).resolve_left hne)
      fun e he => hsettled e (List.mem_append_left _ he)

/-- What an event about a new or changed VM may do. -/
theorem pullInfo_cases (prefs : Preferences) (st : System) (u : String) :
    (u ∈ st.m_domainMap ∧
      pullInfo prefs st u = { st with reactions := st.reactions ++ [.updateConfig u] }) ∨
    (Addable prefs st u ∧ ∃ registry, u ∈ registry.definedMap ∧
      (∀ v ∈ st.registry.definedMap, v ∈ registry.definedMap) ∧
      pullInfo prefs st u = { st with
        registry
        m_domainMap := insert u st.m_domainMap
        reactions := st.reactions ++ [.updateConfig u] }) ∨
    (u ∉ st.m_domainMap ∧ ¬ Addable prefs st u ∧ ∃ registry,
      registry.definedMap = st.registry.definedMap ∧
      registry.undeclaredMap = st.registry.undeclaredMap ∧
      pullInfo prefs st u = { st with registry }) := by
  unfold pullInfo
  by_cases hmap : u ∈ st.m_domainMap
  · exact .inl ⟨hmap, by simp only [if_pos hmap, if_true]⟩
  · by_cases haddable : Addable prefs st u
    · obtain ⟨registry, hadd, hu, hgrow⟩ := add_of_addable haddable
      refine .inr (.inl ⟨haddable, registry, hu, hgrow, ?_⟩)
      simp only [if_neg hmap, hadd, if_true]
    · obtain ⟨registry, hadd, hdefined, hundeclared⟩ := add_of_not_addable haddable
      refine .inr (.inr ⟨hmap, haddable, registry, hdefined, hundeclared, ?_⟩)
      simp only [if_neg hmap, hadd, Bool.false_eq_true, if_false]

/-- An event about a new or changed VM is handled. -/
theorem Inv.defined (inv : Inv serverUuid st) {events : List Event}
    (hevents : st.events = .defined u :: events) (hfit : Fit prefs serverUuid st .event) :
    Inv serverUuid { pullInfo prefs st u with events } := by
  unfold Fit at hfit
  rw [hevents] at hfit
  unfold Heard at hfit
  obtain ⟨hmap, heq⟩ | ⟨haddable, registry, hu, hgrow, heq⟩ |
    ⟨hmap, haddable, registry, hdefined, hundeclared, heq⟩ := pullInfo_cases prefs st u
  · rw [heq]
    exact (inv.show hmap).handled hevents fun _ _ _ => .inr (.inl hmap)
  · obtain ⟨hlate, hdrop, hpurge⟩ := (hfit haddable.2.1).1 haddable
    have hnew := Finset.mem_insert_self u st.m_domainMap
    rw [heq]
    exact ((inv.enter hlate hu hgrow haddable.2.2.1 hdrop hpurge).show hnew).handled hevents
      fun _ _ _ => .inr (.inl hnew)
  · rw [heq]
    refine (inv.unadded hdefined hundeclared).handled hevents fun hlibvirt hlast hall => ?_
    obtain hlost | ⟨e, he, hcoming⟩ | hstart | hawaited | huntouched := (hfit hmap).2 haddable
    · exact absurd hlibvirt hlost
    · exact absurd hcoming (hlast e he)
    · exact absurd hstart hall
    · exact .inl hawaited
    · exact .inr (.inr huntouched)

/-- An event about a VM that is gone is handled. -/
theorem Inv.undefined (inv : Inv serverUuid st) {events : List Event}
    (hevents : st.events = .undefined u :: events) :
    Inv serverUuid { remove st u with events } := by
  have hlost : u ∈ st.libvirt → ¬ ∀ e ∈ events, e.uuid ≠ u := by
    intro hlibvirt hlast
    refine inv.last u hlibvirt ?_
    rw [hevents]
    exact lastOf_alone hlast
  unfold remove
  split
  · rename_i hmap
    refine (inv.leave hmap fun hsettled => ?_).handled hevents
      fun hlibvirt hlast => absurd hlast (hlost hlibvirt)
    exact hsettled (.undefined u) (hevents ▸ List.mem_cons_self) rfl
  · exact inv.handled hevents fun hlibvirt hlast => absurd hlast (hlost hlibvirt)

/-- A thread of the pool runs what an entry was shown. -/
theorem Inv.run (inv : Inv serverUuid st) {i : Nat} {r : Reaction}
    (hr : st.reactions[i]? = some r) (ok : Bool) :
    Inv serverUuid
      (run serverUuid ok { st with reactions := st.reactions.eraseIdx i } r) := by
  have hmem := List.mem_of_getElem? hr
  cases r with
  | updateConfig u =>
      have hstored := (inv.updateConfig (fun h : Untouched serverUuid st u => h.2.1 hmem) ok).taken i
      cases ok <;> exact hstored
  | undefine u =>
      have hlate : st.thread.late = true := by
        by_contra hno
        rw [(inv.early (Bool.eq_false_iff.mpr hno)).2] at hmem
        exact absurd hmem List.not_mem_nil
      exact (inv.taken i).undefine hlate (fun hmap => (inv.entered u hmap).2.1 hmem)
        (inv.notMem_taken hr)

theorem foreign_of_validate (h : validate serverUuid st u = false) : Foreign serverUuid st u := by
  unfold validate at h
  unfold Foreign
  split at h
  · cases h
  · split at h
    · cases h
    · split at h
      · cases h
      · rename_i y hstored
        rw [hstored]
        simp only [beq_eq_false_iff_ne] at h
        exact ⟨Option.some_ne_none y, fun heq => h (Option.some.inj heq)⟩

section Phases

theorem Inv.breed_all (inv : Inv serverUuid st) (hphase : st.thread.phase = .all) :
    Inv serverUuid { st with thread := { phase := .snapshot, b := st.libvirt } } := by
  obtain ⟨hmap, hreactions⟩ := inv.early (by simp [Thread.late, hphase])
  refine ⟨fun _ => ⟨hmap, hreactions⟩, fun v hv => ?_, fun v hv => ?_,
    fun v hv => absurd hv (Finset.notMem_empty v), fun v _ hno => .inl hno, inv.last,
    fun _ v hv _ => .inl hv, Finset.empty_subset _⟩
  · exact absurd (hmap ▸ hv) (Finset.notMem_empty v)
  · exact absurd (hreactions ▸ hv) List.not_mem_nil

theorem Inv.breed_snapshot (inv : Inv serverUuid st) (hphase : st.thread.phase = .snapshot) :
    Inv serverUuid { st with thread := { st.thread with
      phase := .validate, s := snapshot st.registry, rest := snapshot st.registry } } := by
  refine inv.advance (by simp [hphase]) ?_ rfl ?_ ?_ ?_ (Finset.empty_subset _)
  · simp [Thread.late, hphase]
  · simp [System.dropped, hphase]
  · simp [Thread.purged, hphase]
  · simp [Thread.awaited, hphase]

theorem Inv.breed_validate (inv : Inv serverUuid st) (hphase : st.thread.phase = .validate)
    (hforeign : Foreign serverUuid st u) :
    Inv serverUuid { st with thread := { st.thread with
      rest := st.thread.rest.erase u
      b := st.thread.b.erase u
      c := if u ∈ st.thread.b then insert u st.thread.c else st.thread.c } } := by
  obtain ⟨hmap, hreactions⟩ := inv.early (by simp [Thread.late, hphase])
  have huntouched : Untouched serverUuid { st with thread := { st.thread with
      rest := st.thread.rest.erase u
      b := st.thread.b.erase u
      c := if u ∈ st.thread.b then insert u st.thread.c else st.thread.c } } u :=
    ⟨hforeign, by simp [hreactions], Finset.notMem_erase _ _⟩
  refine inv.move (by simp [hphase]) ?_ (Finset.erase_subset _ _) ?_ (fun v hv => ?_)
    (fun v hv hno => ?_) ?_
  · simp [Thread.late, hphase]
  · simp [System.dropped, hphase]
  · simp only [Thread.purged, hphase] at hv ⊢
    split at hv
    · obtain rfl | hold := Finset.mem_insert.mp hv
      · exact .inr ⟨by simp [hmap], huntouched⟩
      · exact .inl hold
    · exact .inl hv
  · simp only [Thread.awaited, hphase] at hv hno
    have hvu : v = u := by
      by_contra hne
      exact hno (Finset.mem_erase.mpr ⟨hne, hv⟩)
    subst hvu
    exact ⟨fun _ _ => .inr huntouched, fun _ => .inr huntouched⟩
  · simp [Thread.visited, hphase]

theorem Inv.breed_reset (inv : Inv serverUuid st) (hphase : st.thread.phase = .reset) :
    Inv serverUuid { st with
      registry := st.registry.resetSwap.2
      thread := { st.thread with phase := .getItemList, swapped := st.registry.resetSwap.1 } } := by
  obtain ⟨hmap, hreactions⟩ := inv.early (by simp [Thread.late, hphase])
  refine (inv.registry st.registry.resetSwap.2 st.items (fun v hv => ?_)
    fun hno => ?_).advance (by simp [hphase]) ?_ rfl ?_ ?_ ?_ (Finset.empty_subset _)
  · simp [hmap, hreactions] at hv
  · simp [hphase] at hno
  · simp [Thread.late]
  · simp [System.dropped, hphase]
  · simp [Thread.purged, hphase]
  · simp [Thread.awaited, hphase]

theorem Inv.breed_declare (inv : Inv serverUuid st) (hphase : st.thread.phase = .declare)
    (i : Item) (items : List Item) :
    Inv serverUuid { st with
      registry := st.registry.resetItem st.thread.swapped i
      thread := { st.thread with items } } := by
  refine (inv.registry (st.registry.resetItem st.thread.swapped i) st.items
    (fun v hv => mem_resetItem ?_) fun hno => ?_).advance (by simp [hphase]) ?_ rfl ?_ ?_ ?_ ?_
  · exact hv.elim (fun h => (inv.entered v h).1) fun h => (inv.leaving v h).1
  · simp [hphase] at hno
  · simp [Thread.late, hphase]
  · simp [System.dropped, hphase]
  · simp [Thread.purged, hphase]
  · simp [Thread.awaited, hphase]
  · simp [Thread.visited, hphase]

/-- A VM of libvirt gets its entry, and is no longer one that has disappeared. -/
theorem Inv.breed_added (inv : Inv serverUuid st) (hphase : st.thread.phase = .add)
    (hrest : u ∈ st.thread.rest) (haddable : Addable prefs st u) {registry : Actual}
    (hu : u ∈ registry.definedMap)
    (hgrow : ∀ v ∈ st.registry.definedMap, v ∈ registry.definedMap) :
    Inv serverUuid { st with
      registry
      m_domainMap := insert u st.m_domainMap
      thread := { st.thread with rest := st.thread.rest.erase u, s := st.thread.s.erase u } } := by
  have hb : u ∈ st.thread.b := inv.visits (by simpa [Thread.visited, hphase] using hrest)
  have hmoved : Inv serverUuid
      { st with thread := { st.thread with s := st.thread.s.erase u } } := by
    refine inv.advance (by simp [hphase]) ?_ rfl ?_ ?_ ?_ ?_
    · simp [Thread.late, hphase]
    · simp [System.dropped, hphase, Finset.erase_subset]
    · simp [Thread.purged, hphase]
    · simp [Thread.awaited, hphase]
    · simpa [Thread.visited, hphase] using inv.visits
  have hentered := hmoved.enter (by simp [Thread.late, hphase]) hu hgrow haddable.2.2.1
    (by simp [System.dropped, hphase]) fun hno => (inv.purged u hno).2.2 hb
  refine hentered.move (by simp [hphase]) ?_ subset_rfl ?_ (fun v hv => .inl ?_)
    (fun v hv hno => ?_) ?_
  · simp [Thread.late, hphase]
  · simp [System.dropped, hphase]
  · simpa [Thread.purged, hphase] using hv
  · simp only [Thread.awaited, hphase] at hv hno
    have hvu : v = u := by
      by_contra hne
      exact hno (Finset.mem_erase.mpr ⟨hne, hv⟩)
    subst hvu
    refine ⟨fun _ _ => .inl (Finset.mem_insert_self _ _), fun hdrop => ?_⟩
    simp [System.dropped, hphase] at hdrop
  · have hsub : st.thread.rest ⊆ st.thread.b := by
      simpa [Thread.visited, hphase] using inv.visits
    simpa [Thread.visited, hphase] using (Finset.erase_subset _ _).trans hsub

/-- A VM of libvirt that has its entry, or gets none, is no longer looked at. -/
theorem Inv.breed_refused (inv : Inv serverUuid st) (hphase : st.thread.phase = .add)
    (hfit : u ∉ st.m_domainMap → u ∉ st.libvirt ∨ (u ∉ st.thread.s ∧ ¬ Settled st u) ∨
      Foreign serverUuid st u ∧ .updateConfig u ∉ st.reactions) :
    Inv serverUuid { st with thread := { st.thread with
      rest := st.thread.rest.erase u, b := st.thread.b.erase u } } := by
  refine inv.move (by simp [hphase]) ?_ (Finset.erase_subset _ _) ?_ (fun v hv => .inl ?_)
    (fun v hv hno => ?_) ?_
  · simp [Thread.late, hphase]
  · simp [System.dropped, hphase]
  · simpa [Thread.purged, hphase] using hv
  · simp only [Thread.awaited, hphase] at hv hno
    have hvu : v = u := by
      by_contra hne
      exact hno (Finset.mem_erase.mpr ⟨hne, hv⟩)
    subst hvu
    by_cases hmap : v ∈ st.m_domainMap
    · refine ⟨fun _ _ => .inl hmap, fun hdrop => absurd ?_ (inv.entered v hmap).2.2.1⟩
      simpa [System.dropped, hphase] using hdrop
    · obtain hlost | ⟨hs, hcoming⟩ | ⟨hforeign, hreactions⟩ := hfit hmap
      · exact ⟨fun h => absurd h hlost, fun _ => .inl hlost⟩
      · refine ⟨fun _ hsettled => absurd hsettled hcoming, fun hdrop => absurd ?_ hs⟩
        simpa [System.dropped, hphase] using hdrop
      · have huntouched : Untouched serverUuid { st with thread := { st.thread with
            rest := st.thread.rest.erase v, b := st.thread.b.erase v } } v :=
          ⟨hforeign, hreactions, Finset.notMem_erase _ _⟩
        exact ⟨fun _ _ => .inr huntouched, fun _ => .inr huntouched⟩
  · have hsub : st.thread.rest ⊆ st.thread.b := by
      simpa [Thread.visited, hphase] using inv.visits
    simpa [Thread.visited, hphase] using Finset.erase_subset_erase _ hsub

/-- A VM that has disappeared is defined, so that its item can be told. -/
theorem Inv.breed_define (inv : Inv serverUuid st) (hphase : st.thread.phase = .define)
    (hrest : u ∈ st.thread.rest) :
    Inv serverUuid { st with
      registry := (Actual.define prefs st.registry u).2
      thread := { st.thread with phase := .undefine u, rest := st.thread.rest.erase u } } := by
  refine (inv.registry (Actual.define prefs st.registry u).2 st.items
    (fun v hv => mem_define ?_) fun hno => ?_).advance (by simp [hphase]) ?_ rfl ?_ ?_ ?_
    (Finset.empty_subset _)
  · exact hv.elim (fun h => (inv.entered v h).1) fun h => (inv.leaving v h).1
  · simp [hphase] at hno
  · simp [Thread.late]
  · simp [System.dropped, hphase, Finset.insert_erase hrest]
  · simp [Thread.purged, hphase]
  · simp [Thread.awaited, hphase]

theorem Inv.breed_undefine (inv : Inv serverUuid st) (hphase : st.thread.phase = .undefine u) :
    Inv serverUuid { Breeding.undefine st u with thread := { st.thread with phase := .define } } := by
  have hdropped : u ∈ st.dropped := by simp [System.dropped, hphase]
  refine (inv.undefine (by simp [Thread.late, hphase])
    (fun hmap => (inv.entered u hmap).2.2.1 hdropped)
    fun hno => (inv.leaving u hno).2.1 hdropped).advance ?_ ?_ rfl ?_ ?_ ?_ (Finset.empty_subset _)
  · simp [Breeding.undefine, hphase]
  · simp [Thread.late]
  · simp [System.dropped, Breeding.undefine, hphase]
  · simp [Thread.purged, Breeding.undefine, hphase]
  · simp [Thread.awaited, Breeding.undefine, hphase]

theorem Inv.breed_purge (inv : Inv serverUuid st) (hphase : st.thread.phase = .purge) (ok : Bool) :
    Inv serverUuid { (if ok then Breeding.forget st u else st) with
      thread := { st.thread with rest := st.thread.rest.erase u } } := by
  have hforgotten : Inv serverUuid (if ok then Breeding.forget st u else st) := by
    split
    · exact inv.forget u
    · exact inv
  have hthread : (if ok then Breeding.forget st u else st).thread = st.thread := by
    split <;> rfl
  have hphase' : (if ok then Breeding.forget st u else st).thread.phase = .purge := hthread ▸ hphase
  refine hforgotten.advance (by simp [hphase']) ?_ (by rw [hthread]) ?_ ?_ ?_ ?_
  · simp [Thread.late, hphase]
  · simp [System.dropped, hphase]
  · simp [Thread.purged, hthread, hphase, Finset.erase_subset]
  · simp [Thread.awaited, hthread, hphase]
  · simp [Thread.visited, hphase]

theorem Inv.breed_update (inv : Inv serverUuid st) (hphase : st.thread.phase = .update)
    (hrest : u ∈ st.thread.rest) (ok : Bool) :
    Inv serverUuid { Breeding.updateConfig serverUuid ok st u with
      thread := { st.thread with rest := st.thread.rest.erase u } } := by
  have hsub : st.thread.rest ⊆ st.thread.b := by
    simpa [Thread.visited, hphase] using inv.visits
  have hthread : (Breeding.updateConfig serverUuid ok st u).thread = st.thread := by
    unfold Breeding.updateConfig
    split <;> rfl
  refine (inv.updateConfig (fun h : Untouched serverUuid st u => h.2.2 (hsub hrest)) ok).advance
    ?_ ?_ (by rw [hthread]) ?_ ?_ ?_ ?_
  · simp [hthread, hphase]
  · simp [Thread.late, hphase]
  · simp [System.dropped, hphase]
  · simp [Thread.purged, hphase]
  · simp [Thread.awaited, hthread, hphase]
  · simpa [Thread.visited, hphase] using (Finset.erase_subset _ _).trans hsub

end Phases

/-- Every step of the reconciliation, phase by phase. -/
theorem Inv.breed (inv : Inv serverUuid st) {ok : Bool}
    (hfit : Fit prefs serverUuid st (.breed u ok)) :
    Inv serverUuid (breed prefs serverUuid st u ok) := by
  unfold Fit Taken at hfit
  unfold Breeding.breed
  dsimp only
  split
  · rename_i hphase
    simp only [hphase] at hfit
    rw [if_pos hfit]
    exact inv.breed_all hphase
  · rename_i hphase
    exact inv.breed_snapshot hphase
  · rename_i hphase
    split
    · refine inv.advance (by simp [hphase]) ?_ rfl ?_ ?_ ?_ (Finset.empty_subset _)
      · simp [Thread.late, hphase]
      · simp [System.dropped, hphase]
      · simp [Thread.purged, hphase]
      · simp [Thread.awaited, hphase]
    · split
      · exact inv
      · split
        · refine inv.advance (by simp [hphase]) ?_ rfl ?_ ?_ ?_ ?_
          · simp [Thread.late, hphase]
          · simp [System.dropped, hphase]
          · simp [Thread.purged, hphase]
          · simp [Thread.awaited, hphase]
          · simp [Thread.visited, hphase]
        · rename_i hforeign
          exact inv.breed_validate hphase
            (foreign_of_validate (u := u) (Bool.eq_false_iff.mpr hforeign))
  · rename_i hphase
    exact inv.breed_reset hphase
  · rename_i hphase
    refine inv.advance (by simp [hphase]) ?_ rfl ?_ ?_ ?_ (Finset.empty_subset _)
    · simp [Thread.late]
    · simp [System.dropped, hphase]
    · simp [Thread.purged, hphase]
    · simp [Thread.awaited, hphase]
  · rename_i hphase
    split
    · refine inv.advance (by simp [hphase]) ?_ rfl ?_ ?_ ?_ subset_rfl
      · simp [Thread.late]
      · simp [System.dropped, hphase]
      · simp [Thread.purged, hphase]
      · simp [Thread.awaited, hphase]
    · rename_i i items hitems
      exact inv.breed_declare hphase i items
  · rename_i hphase
    simp only [hphase] at hfit
    split
    · rename_i hrest
      refine inv.advance (by simp [hphase]) ?_ rfl ?_ ?_ ?_ (Finset.empty_subset _)
      · simp [Thread.late]
      · simp [System.dropped, hphase]
      · simp [Thread.purged, hphase]
      · simp [Thread.awaited, hphase, hrest]
    · split
      · exact inv
      · rename_i hrest
        have hrest : u ∈ st.thread.rest := not_not.mp hrest
        by_cases haddable : Addable prefs st u
        · obtain ⟨registry, hadd, hu, hgrow⟩ := add_of_addable haddable
          rw [hadd]
          exact inv.breed_added hphase hrest haddable hu hgrow
        · obtain ⟨registry, hadd, hdefined, hundeclared⟩ := add_of_not_addable haddable
          rw [hadd]
          exact (inv.unadded hdefined hundeclared).breed_refused hphase
            fun hmap => hfit hrest hmap haddable
  · rename_i hphase
    split
    · refine inv.advance (by simp [hphase]) ?_ rfl ?_ ?_ ?_ (Finset.empty_subset _)
      · simp [Thread.late]
      · simp [System.dropped]
      · simp [Thread.purged, hphase]
      · simp [Thread.awaited, hphase]
    · split
      · exact inv
      · rename_i hrest
        exact inv.breed_define hphase (not_not.mp hrest)
  · rename_i hphase
    exact inv.breed_undefine hphase
  · rename_i hphase
    split
    · refine inv.advance (by simp [hphase]) ?_ rfl ?_ ?_ ?_ subset_rfl
      · simp [Thread.late]
      · simp [System.dropped]
      · simp [Thread.purged]
      · simp [Thread.awaited, hphase]
    · split
      · exact inv
      · exact inv.breed_purge hphase ok
  · rename_i hphase
    split
    · refine inv.advance (by simp [hphase]) ?_ rfl ?_ ?_ ?_ (Finset.empty_subset _)
      · simp [Thread.late]
      · simp [System.dropped]
      · simp [Thread.purged]
      · simp [Thread.awaited, hphase]
    · split
      · exact inv
      · rename_i hrest
        exact inv.breed_update hphase (not_not.mp hrest) ok
  · rename_i hphase
    exact inv

theorem Inv.step (inv : Inv serverUuid st) {l : Label} (hfit : Fit prefs serverUuid st l) :
    Inv serverUuid (step prefs serverUuid st l) := by
  cases l with
  | define u => exact inv.arise hfit
  | undefine u => exact inv.forget u
  | event =>
      unfold Breeding.step
      dsimp only
      split
      · exact inv
      · rename_i e events hevents
        cases e with
        | defined u => exact inv.defined hevents hfit
        | undefined u => exact inv.undefined hevents
  | reaction i ok =>
      unfold Breeding.step
      dsimp only
      split
      · exact inv
      · rename_i r hr
        exact inv.run hr ok
  | breed u ok => exact inv.breed hfit

theorem Inv.justified (inv : Inv serverUuid st) (l : Label) : Justified serverUuid st l := by
  cases l with
  | breed u ok =>
      unfold Justified
      dsimp only
      split
      · rename_i uuid hphase
        have hdropped : uuid ∈ st.dropped := by simp [System.dropped, hphase]
        refine (inv.dropped uuid hdropped ?_).imp id And.left
        simp [Thread.awaited, hphase]
      · rename_i hphase
        intro hrest
        exact (inv.purged u (by simpa [Thread.purged, hphase] using hrest)).1
      · trivial
  | define | undefine | event | reaction => trivial

theorem Inv.registered (inv : Inv serverUuid st) : Registered serverUuid st := by
  intro hdone u hlibvirt hsettled hforeign
  obtain hawaited | hmap | huntouched := inv.known (by simp [hdone]) u hlibvirt hsettled
  · simp [Thread.awaited, hdone] at hawaited
  · exact ⟨(inv.entered u hmap).1, hmap⟩
  · exact absurd huntouched.1 hforeign

end Steps

/-- In every run that fits, the reconciliation takes away only VMs that libvirt does not have, or
that are of another server, and in the end the others are known. -/
theorem reconciled_along (prefs : Preferences) (serverUuid : String) (registry : Actual)
    (items : List Item) (stored : String → Option String) (libvirt : Finset String)
    {labels : List Label}
    (fit : Steps (step prefs serverUuid) (Fit prefs serverUuid)
      (start registry items stored libvirt) labels) :
    Along (step prefs serverUuid) (Registered serverUuid) (Justified serverUuid)
      (start registry items stored libvirt) labels :=
  Along.of_steps (fun _ inv => inv.registered)
    (fun _ _ inv hfit => ⟨inv.justified _, inv.step hfit⟩)
    (inv_start registry items stored libvirt) fit

/-- libvirt has one VM, another has disappeared, and libvirt gets a third while the items are
booked again. -/
def appearing : List Label :=
  [.breed "" true, .breed "" true, .breed "gone" true, .breed "" true, .breed "" true,
    .breed "" true, .breed "" true, .breed "" true, .define "new", .event, .reaction 0 true,
    .breed "vm" true, .breed "" true, .breed "gone" true, .breed "" true, .breed "" true,
    .breed "" true, .breed "vm" true, .breed "" true]

theorem reconciled_along_appearing :
    let registry : Actual := { definedMap := (∅ : Table Nat).insert "gone" 0 }
    let st := start registry [⟨"dir", "vm", "/vm", "", false⟩] (fun _ => none) {"vm"}
    Along (step oneUser "here") (Registered "here") (Justified "here") st appearing :=
  reconciled_along oneUser "here" _ _ _ _ (by decide)

/-- A VM of libvirt whose event is handled before the defined table is swapped out loses its
item. -/
example :
    let st := start {} [⟨"dir", "vm", "/vm", "", false⟩] (fun _ => none) {"vm"}
    let labels : List Label :=
      [.define "vm", .breed "" true, .event, .breed "" true, .breed "vm" true, .breed "" true,
        .breed "" true, .breed "" true, .breed "" true, .breed "" true, .breed "vm" true,
        .breed "" true, .breed "vm" true, .breed "" true]
    let st' := labels.foldl (step oneUser "here") st
    st'.items.length = 0 ∧ "vm" ∈ st'.libvirt ∧ "vm" ∈ st'.m_domainMap := by
  decide

end DispService.Registry.Breeding
