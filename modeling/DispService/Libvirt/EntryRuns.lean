import DispService.Libvirt.Entry

/-! What `m_last`, the queue and the state machine have to do with each other in every
run in which the states read from libvirt are set while they are fresh. -/
namespace DispService.Libvirt

open DispService.Lib Reaction

/-- The reaction feeds the machine with this state. -/
def Shown.Shows (reaction : Shown) (last : VirtualMachineState) : Prop :=
  reaction = .state last ∨ reaction = .prepareToSwitch ∧ last = .restoring

/-- The last of what is pending, or else what the machine was given, is the recorded
state. -/
def Tracks (pending : List Shown) (handed : Handed) (last : VirtualMachineState) : Prop :=
  match pending.getLast? with
  | some reaction => reaction.Shows last
  | none => handed.Shows last

theorem Handed.shows_destination (savFileExists : Bool) (value : VirtualMachineState) :
    Handed.Shows (.proceed (destination savFileExists value)) value := by
  unfold destination
  split
  · rename_i h
    exact Or.inr (Or.inl ⟨rfl, h.1⟩)
  · exact Or.inl rfl

section Tracks

variable {pending : List Shown} {handed handed' : Handed} {last : VirtualMachineState}
  {reaction : Shown}

theorem tracks_nil : Tracks [] handed last ↔ handed.Shows last :=
  Iff.rfl

theorem tracks_snoc : Tracks (pending ++ [reaction]) handed last ↔ reaction.Shows last := by
  unfold Tracks
  rw [List.getLast?_concat]

theorem Tracks.of_ne_nil (tracks : Tracks pending handed last) (h : pending ≠ []) :
    Tracks pending handed' last := by
  unfold Tracks at tracks ⊢
  cases hlast : pending.getLast? with
  | none => exact absurd (List.getLast?_eq_none_iff.mp hlast) h
  | some reaction =>
      rw [hlast] at tracks
      exact tracks

/-- The first of what is pending is given to the machine. -/
theorem Tracks.execute (tracks : Tracks (reaction :: pending) handed last)
    (given : reaction.Shows last → handed'.Shows last) : Tracks pending handed' last := by
  cases pending with
  | nil => exact given tracks
  | cons next pending =>
      have hsame : Tracks (next :: pending) handed last := by
        unfold Tracks at tracks ⊢
        rw [List.getLast?_cons_cons] at tracks
        exact tracks
      exact hsame.of_ne_nil (by simp)

end Tracks

/-- The invariant: the record is what the machine is about to be given last, by the
queue or by the one thread that has just changed it, or else what it was given. -/
structure Consistent (e : Entry) : Prop where
  served : Served e.demonstrator
  one : ∀ t t' v v', e.setters t = some (.changed v) → e.setters t' = some (.changed v') → t = t'
  inHand : (∃ t, e.setters t = some (.changed e.last) ∧ e.pending = []) ∨
    Tracks e.pending e.handed e.last
  latest : ∀ v, e.eventSinceRead = some v → e.last = v

variable {e e' : Entry}

theorem consistent_initial : Consistent {} where
  served := .idle []
  one := by simp
  inHand := Or.inr (Or.inl rfl)
  latest := by simp

theorem Consistent.arrive (h : Consistent e) {value : VirtualMachineState}
    (hstep : e.Step (.arrive value) e') : Consistent e' := by
  unfold Entry.Step Entry.step at hstep
  dsimp only at hstep
  split at hstep
  · cases hstep
  · rename_i hevent
    split at hstep
    · rename_i hvalue
      cases hstep
      refine ⟨h.served, h.one, h.inHand, ?_⟩
      intro v hv
      cases hv
      exact hvalue.symm
    · cases hstep
      have hpending : Entry.pending { e with event := some (.compared value) } = e.pending := by
        unfold Entry.pending
        rw [hevent]
      refine ⟨h.served, h.one, ?_, h.latest⟩
      rw [hpending]
      exact h.inHand

theorem Consistent.changeOf (h : Consistent e) {value : VirtualMachineState}
    (hevent : e.event = some (.compared value)) : Consistent (e.changeOf value) := by
  unfold Entry.changeOf
  split
  · rename_i hvalue
    refine ⟨h.served, h.one, Or.inr ?_, fun v hv => Option.some.inj hv⟩
    unfold Entry.pending
    rw [List.filter_append]
    exact tracks_snoc.mpr (Or.inr ⟨rfl, hvalue⟩)
  · split
    · rename_i hlast
      refine ⟨h.served, h.one, ?_, fun v hv => hlast.symm.trans (Option.some.inj hv)⟩
      have hsame : Entry.pending { e with event := none, eventSinceRead := some value } =
          e.pending := by
        unfold Entry.pending
        rw [hevent]
      rw [hsame]
      exact h.inHand
    · refine ⟨h.served, h.one, Or.inr ?_, fun v hv => Option.some.inj hv⟩
      unfold Entry.pending
      rw [List.filter_append]
      exact tracks_snoc.mpr (Or.inl rfl)

theorem Consistent.change (h : Consistent e) (hstep : e.Step .change e') : Consistent e' := by
  unfold Entry.Step Entry.step at hstep
  dsimp only at hstep
  split at hstep
  · rename_i value hevent
    cases hstep
    exact h.changeOf hevent
  · cases hstep

theorem Consistent.show (h : Consistent e) (hstep : e.Step .showState e') :
    Consistent e' := by
  unfold Entry.Step Entry.step at hstep
  dsimp only at hstep
  split at hstep
  · rename_i reaction hevent
    cases hshow : Reaction.step e.demonstrator (.showBegin reaction) with
    | none => simp [hshow] at hstep
    | some demonstrator =>
        rw [hshow, Option.map_some] at hstep
        cases hstep
        have hpending : Entry.pending { e with demonstrator, event := none } = e.pending := by
          unfold Entry.pending
          rw [unexecuted_showBegin h.served hshow, hevent, List.append_nil]
        refine ⟨served_step _ _ _ h.served hshow, h.one, ?_, h.latest⟩
        rw [hpending]
        exact h.inHand
  · cases hstep

theorem pending_queue (served : Served e.demonstrator) {l : Label Shown}
    (hstateless : Entry.stateless l = true) {demonstrator : Demonstrator Shown}
    (hqueue : Reaction.Step e.demonstrator l demonstrator) :
    Entry.pending { e with demonstrator } = e.pending := by
  unfold Entry.pending
  cases l with
  | showBegin reaction =>
      rw [unexecuted_showBegin served hqueue, List.filter_append, List.filter_append,
        List.filter_append]
      cases reaction with
      | state value => cases hstateless
      | prepareToSwitch => cases hstateless
      | insert => simp [Shown.feeds]
      | other => simp [Shown.feeds]
  | react i => cases hstateless
  | showEnd => rw [unexecuted_other (by simp) (by simp) hqueue]
  | head i => rw [unexecuted_other (by simp) (by simp) hqueue]
  | dequeue i => rw [unexecuted_other (by simp) (by simp) hqueue]

theorem Consistent.queue (h : Consistent e) {l : Label Shown} (hstep : e.Step (.queue l) e') :
    Consistent e' := by
  unfold Entry.Step Entry.step at hstep
  dsimp only at hstep
  split at hstep
  · rename_i hstateless
    cases hqueue : Reaction.step e.demonstrator l with
    | none => simp [hqueue] at hstep
    | some demonstrator =>
        rw [hqueue, Option.map_some] at hstep
        cases hstep
        refine ⟨served_step _ _ _ h.served hqueue, h.one, ?_, h.latest⟩
        rw [pending_queue h.served hstateless hqueue]
        exact h.inHand
  · cases hstep

/-- The reaction that is executed leaves the pending ones if it is one of them. -/
theorem pending_react (served : Served e.demonstrator) {i : Nat} {reaction : Shown}
    (hrunner : e.demonstrator.runners[i]? = some (.executing reaction))
    {demonstrator : Demonstrator Shown}
    (hreact : Reaction.Step e.demonstrator (.react i) demonstrator) :
    e.pending = (if reaction.feeds then [reaction] else []) ++
      Entry.pending { e with demonstrator } := by
  unfold Entry.pending
  rw [unexecuted_react served hrunner hreact, List.cons_append, List.filter_cons]
  split <;> rfl

/-- Executing a reaction that feeds the machine. -/
theorem Consistent.fed (h : Consistent e) {reaction : Shown} {pending : List Shown}
    {handed : Handed} (hpending : e.pending = reaction :: pending)
    (given : ∀ last, reaction.Shows last → handed.Shows last) : Tracks pending handed e.last := by
  cases h.inHand with
  | inl changed =>
      obtain ⟨t, ht, hnil⟩ := changed
      rw [hpending] at hnil
      cases hnil
  | inr tracks =>
      rw [hpending] at tracks
      exact tracks.execute (given e.last)

theorem Consistent.react (h : Consistent e) {i : Nat} {savFileExists : Bool}
    (hstep : e.Step (.react i savFileExists) e') : Consistent e' := by
  unfold Entry.Step Entry.step at hstep
  dsimp only at hstep
  split at hstep
  · rename_i reaction hrunner
    cases hreact : Reaction.step e.demonstrator (.react i) with
    | none => simp [hreact] at hstep
    | some demonstrator =>
        simp only [hreact, Option.map_some] at hstep
        have hserved := served_step _ _ _ h.served hreact
        have hpending := pending_react h.served hrunner hreact
        cases reaction with
        | state value =>
            cases hstep
            refine ⟨hserved, h.one, Or.inr ?_, h.latest⟩
            refine h.fed hpending ?_
            intro last hshows
            cases hshows with
            | inl hstate =>
                cases hstate
                exact Handed.shows_destination savFileExists value
            | inr hswitch => cases hswitch.1
        | prepareToSwitch =>
            cases hstep
            refine ⟨hserved, h.one, Or.inr ?_, h.latest⟩
            refine h.fed hpending ?_
            intro last hshows
            cases hshows with
            | inl hstate => cases hstate
            | inr hswitch => exact Or.inr (Or.inr ⟨rfl, hswitch.2⟩)
        | insert =>
            simp only [Entry.execute] at hstep
            split at hstep
            · cases hstep
              refine ⟨hserved, h.one, ?_, h.latest⟩
              have hsame : e.pending = Entry.pending { e with demonstrator } := hpending
              unfold Entry.pending at hsame ⊢
              dsimp only at hsame ⊢
              rw [← hsame]
              exact h.inHand
            · cases hstep
        | other =>
            cases hstep
            refine ⟨hserved, h.one, ?_, h.latest⟩
            have hsame : e.pending = Entry.pending { e with demonstrator } := hpending
            rw [← hsame]
            exact h.inHand
  · cases hstep

theorem Consistent.read (h : Consistent e) {thread : Nat} {value : VirtualMachineState}
    (hstep : e.Step (.read thread value) e') : Consistent e' := by
  unfold Entry.Step Entry.step at hstep
  dsimp only at hstep
  split at hstep
  · rename_i hfree
    cases hstep
    have hchanged : ∀ t v, Function.update e.setters thread (some (.read value)) t =
        some (.changed v) → e.setters t = some (.changed v) := by
      intro t v ht
      by_cases htt : t = thread
      · rw [htt, Function.update_self] at ht
        cases ht
      · rwa [Function.update_of_ne htt] at ht
    refine ⟨h.served, ?_, ?_, by simp⟩
    · intro t t' v v' ht ht'
      exact h.one t t' v v' (hchanged t v ht) (hchanged t' v' ht')
    · cases h.inHand with
      | inr tracks => exact Or.inr tracks
      | inl changed =>
          obtain ⟨t, ht, hnil⟩ := changed
          refine Or.inl ⟨t, ?_, hnil⟩
          have htt : t ≠ thread := by
            rintro rfl
            rw [hfree.1] at ht
            cases ht
          exact (Function.update_of_ne htt _ _).trans ht
  · cases hstep

/-- A thread that is done is no longer one that has changed the record. -/
theorem update_none_changed {setters : Nat → Option Setter} {thread t : Nat}
    {v : VirtualMachineState}
    (ht : Function.update setters thread none t = some (.changed v)) :
    t ≠ thread ∧ setters t = some (.changed v) := by
  by_cases htt : t = thread
  · rw [htt, Function.update_self] at ht
    cases ht
  · rw [Function.update_of_ne htt] at ht
    exact ⟨htt, ht⟩

theorem Consistent.setterChange (h : Consistent e) {thread : Nat}
    (fresh : Fresh e (.setterChange thread)) (hstep : e.Step (.setterChange thread) e') :
    Consistent e' := by
  unfold Entry.Step Entry.step at hstep
  dsimp only at hstep
  split at hstep
  · rename_i value hread
    split at hstep
    · cases hstep
      refine ⟨h.served, ?_, ?_, h.latest⟩
      · intro t t' v v' ht ht'
        exact h.one t t' v v' (update_none_changed ht).2 (update_none_changed ht').2
      · cases h.inHand with
        | inr tracks => exact Or.inr tracks
        | inl changed =>
            obtain ⟨t, ht, hnil⟩ := changed
            refine Or.inl ⟨t, ?_, hnil⟩
            have htt : t ≠ thread := by
              rintro rfl
              rw [hread] at ht
              cases ht
            exact (Function.update_of_ne htt _ _).trans ht
    · rename_i hvalue
      cases hstep
      have hfresh := (fresh value hread).resolve_left hvalue
      refine ⟨h.served, ?_, Or.inl ⟨thread, Function.update_self _ _ _, hfresh.1⟩, ?_⟩
      · have hthread : ∀ t v, Function.update e.setters thread (some (.changed value)) t =
            some (.changed v) → t = thread := by
          intro t v ht
          by_contra htt
          rw [Function.update_of_ne htt] at ht
          exact hfresh.2.2 t v ht
        intro t t' v v' ht ht'
        rw [hthread t v ht, hthread t' v' ht']
      · intro v hv
        have hnone : e.eventSinceRead = some v := hv
        rw [hfresh.2.1] at hnone
        cases hnone
  · cases hstep

theorem Consistent.setterHand (h : Consistent e) {thread : Nat} {savFileExists : Bool}
    (fresh : Fresh e (.setterHand thread savFileExists))
    (hstep : e.Step (.setterHand thread savFileExists) e') : Consistent e' := by
  unfold Entry.Step Entry.step at hstep
  dsimp only at hstep
  split at hstep
  · rename_i value hchanged
    cases hstep
    refine ⟨h.served, ?_, Or.inr ?_, h.latest⟩
    · intro t t' v v' ht ht'
      exact h.one t t' v v' (update_none_changed ht).2 (update_none_changed ht').2
    · have hgiven := Handed.shows_destination savFileExists value
      change Tracks e.pending (.proceed (destination savFileExists value)) e.last
      by_cases hnil : e.pending = []
      · have hvalue := (fresh value hchanged).resolve_right (not_not.mpr hnil)
        rw [hnil, tracks_nil, ← hvalue]
        exact hgiven
      · cases h.inHand with
        | inl changed =>
            obtain ⟨t, ht, hnil'⟩ := changed
            exact absurd hnil' hnil
        | inr tracks => exact tracks.of_ne_nil hnil
  · cases hstep

theorem consistent_step (e : Entry) (l : EntryLabel) (e' : Entry) (h : Consistent e)
    (step : Guarded Fresh Entry.Step e l e') : Consistent e' := by
  obtain ⟨fresh, hstep⟩ := step
  cases l with
  | arrive value => exact h.arrive hstep
  | change => exact h.change hstep
  | showState => exact h.show hstep
  | queue l => exact h.queue hstep
  | react i savFileExists => exact h.react hstep
  | read thread value => exact h.read hstep
  | setterChange thread => exact h.setterChange fresh hstep
  | setterHand thread savFileExists => exact h.setterHand fresh hstep

/-- No call of `setState` is under way: the event thread is outside of it, and no thread
is about to hand over a state it has recorded. -/
def Quiet (e : Entry) : Prop :=
  e.event = none ∧ ∀ t v, e.setters t ≠ some (.changed v)

/-- In every run in which the states that are read are set while they are fresh: when
the queue is empty and no call is under way, the machine was last given the recorded
state, which is that of the latest event if one came after the latest reading; and at
any time the recorded state, on which an event is dropped, is the one that the machine
was given or is about to be given last. -/
theorem last_tracks_of_run {labels : List EntryLabel}
    (run : Run (Guarded Fresh Entry.Step) {} labels e) :
    (e.demonstrator.queue = [] → Quiet e →
      e.handed.Shows e.last ∧ ∀ v, e.eventSinceRead = some v → e.last = v) ∧
    ((∃ t, e.setters t = some (.changed e.last) ∧ e.pending = []) ∨
      Tracks e.pending e.handed e.last) := by
  have h : Consistent e := run.preserves consistent_step consistent_initial
  refine ⟨?_, h.inHand⟩
  intro hqueue quiet
  refine ⟨?_, h.latest⟩
  have hpending : e.pending = [] := by
    unfold Entry.pending
    rw [h.served.unexecuted_eq_nil hqueue, quiet.1]
    rfl
  cases h.inHand with
  | inl changed =>
      obtain ⟨t, ht, hnil⟩ := changed
      exact absurd ht (quiet.2 t e.last)
  | inr tracks =>
      rw [hpending] at tracks
      exact tracks

/-- A new VM is found running by its `insert`, and then stopped with a saved state. -/
def insertedAndStopped : List EntryLabel :=
  [.queue (.showBegin .insert), .queue .showEnd, .queue (.head 0), .read 0 .running,
    .setterChange 0, .setterHand 0 false, .react 0 false, .queue (.dequeue 0), .arrive .stopped,
    .change, .showState, .queue .showEnd, .queue (.head 0), .react 0 true, .queue (.dequeue 0)]

theorem last_tracks_of_insert :
    ∃ e, Run (Guarded Fresh Entry.Step) {} insertedAndStopped e ∧ e.last = .stopped ∧
      e.handed.Shows .stopped := by
  have hrun : ∃ e, Run (Guarded Fresh Entry.Step) {} insertedAndStopped e ∧
      e.last = .stopped ∧ e.demonstrator.queue = [] ∧ Quiet e := by
    refine ⟨_, .cons ⟨trivial, rfl⟩ (.cons ⟨trivial, rfl⟩ (.cons ⟨trivial, rfl⟩
      (.cons ⟨trivial, rfl⟩ (.cons ⟨?_, rfl⟩ (.cons ⟨?_, rfl⟩ (.cons ⟨trivial, rfl⟩
      (.cons ⟨trivial, rfl⟩ (.cons ⟨trivial, rfl⟩ (.cons ⟨trivial, rfl⟩ (.cons ⟨trivial, rfl⟩
      (.cons ⟨trivial, rfl⟩ (.cons ⟨trivial, rfl⟩ (.cons ⟨trivial, rfl⟩ (.cons ⟨trivial, rfl⟩
      (.nil _))))))))))))))), rfl, rfl, rfl, ?_⟩
    · intro value hvalue
      refine Or.inr ⟨rfl, rfl, ?_⟩
      intro other v hother
      by_cases h : other = 0
      · subst h
        cases hother
      · cases (Function.update_of_ne h _ _).symm.trans hother
    · intro value hvalue
      cases hvalue
      exact Or.inl rfl
    · intro t v hchanged
      have ht := update_none_changed hchanged
      have hread := (Function.update_of_ne ht.1 _ _).symm.trans ht.2
      cases (Function.update_of_ne ht.1 _ _).symm.trans hread
  obtain ⟨e, run, hlast, hqueue, hquiet⟩ := hrun
  have hshows := ((last_tracks_of_run run).1 hqueue hquiet).1
  rw [hlast] at hshows
  exact ⟨e, run, hlast, hshows⟩

/-- A VM is stopped with a saved state: the machine is given `VMS_SUSPENDED`. And one
that an `insert` finds running is stopped before the `insert` sets what it read: the
event is recorded first and executed last. -/
theorem last_differs_from_handed :
    (∃ e, Run Entry.Step {} [.arrive .running, .change, .showState, .queue .showEnd,
        .queue (.head 0), .react 0 false, .queue (.dequeue 0), .arrive .stopped, .change,
        .showState, .queue .showEnd, .queue (.head 0), .react 0 true, .queue (.dequeue 0)] e ∧
      e.demonstrator.queue = [] ∧ e.last = .stopped ∧ e.handed = .proceed .suspended) ∧
    ∃ e, Run Entry.Step {} [.queue (.showBegin .insert), .queue .showEnd, .queue (.head 0),
        .read 0 .running, .arrive .stopped, .change, .showState, .queue .showEnd, .setterChange 0,
        .setterHand 0 false, .react 0 false, .queue (.dequeue 0), .queue (.head 0),
        .react 0 false, .queue (.dequeue 0)] e ∧
      e.demonstrator.queue = [] ∧ e.last = .running ∧ e.handed = .proceed .stopped ∧
        e.eventSinceRead = some .stopped :=
  ⟨⟨_, .foldlM rfl, rfl, rfl, rfl⟩, ⟨_, .foldlM rfl, rfl, rfl, rfl, rfl⟩⟩

end DispService.Libvirt
