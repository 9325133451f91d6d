import Mathlib.Data.List.Basic
import DispService.Pump.Pull

/-! The receiving pump gives its device the stream it received, in order, and
quits when the device has reported the last byte. -/
namespace DispService.Pump.Pull

open DispService.Lib

universe u v

variable {κ : Type u} {β : Type v} {device : Nat → List β → Option Nat}
  {w : World κ β} {items ds es : List (Package κ β)} {pots : List (WateringPot κ β)}

/-- The bytes still in the pots. -/
def content (pots : List (WateringPot κ β)) : List β :=
  pots.flatMap (·.rest)

/-- Nothing, or the end of the stream. -/
def Closing (es : List (Package κ β)) : Prop :=
  es = [] ∨ ∃ e, es = [e] ∧ e.data = []

theorem Closing.payload (h : Closing es) : payload es = [] := by
  rcases h with rfl | ⟨e, rfl, hdata⟩
  · rfl
  · rw [payload_cons, hdata]
    rfl

theorem takePots_append (hds : ∀ p ∈ ds, p.data ≠ []) (hes : Closing es) :
    takePots (ds ++ es) = (ds.map fun p => { load := p }, es) := by
  induction ds with
  | nil =>
      rcases hes with rfl | ⟨e, rfl, hdata⟩
      · rfl
      · rw [List.nil_append, takePots, if_pos ((isEof_cons []).mpr hdata)]
        rfl
  | cons p ds ih =>
      have hp := hds p List.mem_cons_self
      rw [List.cons_append, takePots, isEof_of_filled hp,
        ih fun x hx => hds x (List.mem_cons_of_mem _ hx)]
      rfl

theorem content_load (ds : List (Package κ β)) :
    content (ds.map fun p => { load := p }) = payload ds := by
  unfold content payload
  rw [List.flatMap_map]
  rfl

/-- What a pour that begins with `portion` unreported bytes comes to. -/
structure Flows (portion : Nat) (pots : List (WateringPot κ β)) (r : Poured κ β) : Prop where
  status : r.status = .ok ()
  content : r.written ++ content r.pouring.pots = content pots
  portion : r.pouring.portion = portion + r.written.length
  level : ∀ p ∈ r.pouring.pots, 0 < p.level
  progress : pots ≠ [] → r.written ≠ []

/-- A pot takes its turn only when those before it are empty. -/
theorem flow_flows (h : Accepts device) (n portion : Nat) (hpots : ∀ p ∈ pots, 0 < p.level) :
    Flows portion pots (Pouring.flow device n portion pots) := by
  induction pots generalizing n portion with
  | nil => exact ⟨rfl, rfl, rfl, (fun p hp => by cases hp), fun hno => absurd rfl hno⟩
  | cons p ps ih =>
      have hp := hpots p List.mem_cons_self
      have hrest : p.rest ≠ [] := by
        intro hno
        rw [p.level_eq, hno] at hp
        exact absurd hp (Nat.lt_irrefl 0)
      obtain ⟨output, hanswer, hpositive, hle⟩ := h n p.rest hrest
      have hlength : (p.rest.take output).length = output := by
        rw [List.length_take]
        exact Nat.min_eq_left hle
      have htaken : p.rest.take output ≠ [] := by
        intro hno
        rw [hno] at hlength
        exact absurd hlength.symm (Nat.ne_of_gt hpositive)
      have hdone : ({ p with done := p.done + output } : WateringPot κ β).rest =
          p.rest.drop output := by
        unfold WateringPot.rest
        rw [List.drop_drop]
      have hsplit : p.rest.take output ++ p.rest.drop output = p.rest :=
        List.take_append_drop output p.rest
      unfold Pouring.flow
      rw [hanswer]
      dsimp only
      split
      · rename_i hlevel
        refine ⟨rfl, ?_, ?_, ?_, fun _ => htaken⟩
        · unfold content
          rw [List.flatMap_cons, List.flatMap_cons, hdone, ← List.append_assoc, hsplit]
        · dsimp only
          rw [hlength]
        · intro x hx
          cases List.mem_cons.mp hx with
          | inl heq =>
              rw [heq]
              exact hlevel
          | inr hin => exact hpots x (List.mem_cons_of_mem _ hin)
      · rename_i hempty
        have hdrop : p.rest.drop output = [] := by
          rw [WateringPot.level_eq, hdone] at hempty
          exact List.length_eq_zero_iff.mp (Nat.eq_zero_of_not_pos hempty)
        have hih := ih (n + 1) (portion + output)
          fun x hx => hpots x (List.mem_cons_of_mem _ hx)
        refine ⟨hih.status, ?_, ?_, hih.level, fun _ hno => ?_⟩
        · dsimp only
          rw [List.append_assoc, hih.content]
          unfold content
          rw [List.flatMap_cons]
          rw [hdrop, List.append_nil] at hsplit
          rw [hsplit]
        · dsimp only
          rw [hih.portion, List.length_append, hlength]
          omega
        · exact htaken (List.append_eq_nil_iff.mp hno).1

/-- What was received and what is still queued have the same end. -/
structure Line (received items : List (Package κ β)) : Prop where
  line : ∃ fs ds es, (∀ p ∈ fs, p.data ≠ []) ∧ (∀ p ∈ ds, p.data ≠ []) ∧ Closing es ∧
    received = fs ++ es ∧ items = ds ++ es

inductive Phase (w : World κ β) (items : List (Package κ β)) : Prop where
  | reading (state : w.state = .reading) (items : items = []) (reported : w.unreported = 0)
      (written : w.written = payload w.received) (quits : w.quits = 0)
  | writing (x : Pouring κ β) (state : w.state = .writing x) (portion : x.portion = w.unreported)
      (pending : 0 < w.unreported) (level : ∀ p ∈ x.pots, 0 < p.level)
      (written : w.written ++ content x.pots ++ payload items = payload w.received)
      (quits : w.quits = 0)
  | success (state : w.state = .success) (e : Package κ β) (items : items = [e])
      (data : e.data = []) (reported : w.unreported = 0)
      (written : w.written = payload w.received) (quits : w.quits = 1)

structure Good (w : World κ β) (items : List (Package κ β)) : Prop where
  queue : w.queue = some items
  line : Line w.received items
  phase : Phase w items

/-- Pouring with bytes to pour leaves the machine writing. -/
theorem setState_pouring (h : Accepts device) {x : Pouring κ β}
    (hline : Line w.received items) (hportion : x.portion = w.unreported)
    (hlevel : ∀ p ∈ x.pots, 0 < p.level) (hbusy : 0 < x.portion ∨ x.pots ≠ [])
    (hwritten : w.written ++ content x.pots ++ payload items = payload w.received)
    (hquits : w.quits = 0) : Good (w.setState device (.pouring x, items)) items := by
  have hpour : Flows x.portion x.pots (x.pour device w.writes) ∨
      x.pour device w.writes = { status := .ok (), pouring := x, writes := w.writes } ∧
        0 < x.portion := by
    unfold Pouring.pour
    by_cases hwait : 0 < x.portion
    · rw [if_pos hwait]
      exact .inr ⟨rfl, hwait⟩
    · rw [if_neg hwait]
      exact .inl (flow_flows h _ _ hlevel)
  unfold World.setState
  rcases hpour with hflows | ⟨hsame, hwait⟩
  · dsimp only
    rw [hflows.status]
    refine ⟨rfl, hline, .writing _ rfl ?_ ?_ hflows.level ?_ hquits⟩
    · dsimp only
      rw [hflows.portion, hportion]
    · dsimp only
      rcases hbusy with hwait | hpots
      · omega
      · have hprogress := List.length_pos_iff.mpr (hflows.progress hpots)
        omega
    · dsimp only
      rw [List.append_assoc w.written, hflows.content]
      exact hwritten
  · dsimp only
    rw [hsame]
    refine ⟨rfl, hline, .writing x rfl ?_ ?_ hlevel ?_ hquits⟩
    · exact hportion
    · dsimp only
      omega
    · dsimp only
      rw [List.append_nil]
      exact hwritten

/-- With everything reported the machine turns to the packages that have come. -/
theorem setState_dequeue (h : Accepts device) (hline : Line w.received items)
    (hreported : w.unreported = 0)
    (hwritten : w.written ++ payload items = payload w.received) (hquits : w.quits = 0) :
    ∃ rest, Good (w.setState device (dequeue items)) rest := by
  obtain ⟨fs, ds, es, hfs, hds, hes, hreceived, hitems⟩ := hline.line
  cases ds with
  | nil =>
      rw [List.nil_append] at hitems
      subst hitems
      rw [hes.payload, List.append_nil] at hwritten
      rcases hes with rfl | ⟨e, rfl, hdata⟩
      · exact ⟨[], rfl, hline, .reading rfl rfl hreported hwritten hquits⟩
      · have hdequeue : dequeue [e] = (.success, [e]) := by
          unfold dequeue
          rw [if_neg (by simp), if_pos ((isEof_cons []).mpr hdata)]
        rw [hdequeue]
        refine ⟨[e], rfl, hline, .success rfl e rfl hdata hreported hwritten ?_⟩
        exact congrArg (· + 1) hquits
  | cons p ds =>
      have hp := hds p List.mem_cons_self
      have hdequeue : dequeue items =
          (.pouring { pots := (p :: ds).map fun p => { load := p } }, es) := by
        unfold dequeue
        rw [hitems, takePots_append hds hes, List.cons_append, isEof_of_filled hp]
        rfl
      rw [hdequeue]
      refine ⟨es, setState_pouring h ⟨fs, [], es, hfs, (fun x hx => by cases hx), hes, hreceived,
        rfl⟩ hreported.symm ?_ (.inr (by simp)) ?_ hquits⟩
      · intro x hx
        obtain ⟨y, hy, rfl⟩ := List.mem_map.mp hx
        exact List.length_pos_iff.mpr (hds y hy)
      · rw [content_load, List.append_assoc, ← payload_append, ← hitems]
        exact hwritten

/-- A package goes behind those that wait. -/
theorem Line.receipt {received : List (Package κ β)} (h : Line received items)
    (open_ : ∀ x ∈ received, x.data ≠ []) (p : Package κ β) :
    Line (received ++ [p]) (items ++ [p]) := by
  obtain ⟨fs, ds, es, hfs, hds, hes, hreceived, hitems⟩ := h.line
  have hnil : es = [] := by
    rcases hes with hnil | ⟨e, rfl, hdata⟩
    · exact hnil
    · exact absurd hdata (open_ e (by rw [hreceived]; simp))
  subst hnil
  rw [List.append_nil] at hreceived hitems
  subst hreceived hitems
  by_cases hdata : p.data = []
  · exact ⟨received, items, [p], hfs, hds, .inr ⟨p, rfl, hdata⟩, rfl, rfl⟩
  · have hmore : ∀ l : List (Package κ β), (∀ x ∈ l, x.data ≠ []) →
        ∀ x ∈ l ++ [p], x.data ≠ [] := by
      intro l hl x hx
      cases List.mem_append.mp hx with
      | inl hin => exact hl x hin
      | inr hin =>
          rw [List.mem_singleton.mp hin]
          exact hdata
    exact ⟨received ++ [p], items ++ [p], [], hmore received hfs, hmore items hds, .inl rfl,
      (List.append_nil _).symm, (List.append_nil _).symm⟩

theorem Good.receipt (h : Accepts device) (good : Good w items)
    (open_ : ∀ x ∈ w.received, x.data ≠ []) (p : Package κ β) :
    ∃ rest, Good (World.step device w (.receipt p)) rest := by
  have hline := good.line.receipt open_ p
  have hstep : World.step device w (.receipt p) =
      World.setState device { w with received := w.received ++ [p] }
        (Visitor.receipt w.state (items ++ [p])) := by
    unfold World.step World.reactReceipt
    rw [good.queue]
  rw [hstep]
  cases good.phase with
  | reading state hitems reported written quits =>
      rw [state]
      refine setState_dequeue h hline reported ?_ quits
      rw [hitems, List.nil_append, payload_append, written]
  | writing x state portion pending level written quits =>
      rw [state]
      have hwritten : w.written ++ content x.pots ++ payload (items ++ [p]) =
          payload (w.received ++ [p]) := by
        rw [payload_append, payload_append, ← List.append_assoc, written]
      exact ⟨items ++ [p], rfl, hline, .writing x rfl portion pending level hwritten quits⟩
  | success state e hitems data =>
      obtain ⟨fs, ds, es, hfs, hds, hes, hreceived, hline⟩ := good.line.line
      have hin : e ∈ ds ++ es := by
        rw [← hline, hitems]
        simp
      cases List.mem_append.mp hin with
      | inl hno => exact absurd data (hds e hno)
      | inr hno => exact absurd data (open_ e (by rw [hreceived]; simp [hno]))

theorem Pouring.remaining_pos_iff {x : Pouring κ β} (hlevel : ∀ p ∈ x.pots, 0 < p.level) :
    0 < x.remaining ↔ 0 < x.portion ∨ x.pots ≠ [] := by
  unfold Pouring.remaining
  cases hpots : x.pots with
  | nil => simp
  | cons p ps =>
      have hp := hlevel p (by rw [hpots]; simp)
      rw [List.map_cons, List.sum_cons]
      exact iff_of_true (by omega) (.inr (by simp))

theorem Good.bytesWritten (h : Accepts device) (good : Good w items) {value : Nat}
    (enabled : Enabled w (.bytesWritten value)) :
    ∃ rest, Good (World.step device w (.bytesWritten value)) rest := by
  obtain ⟨hpositive, hle⟩ := enabled
  have hstep : World.step device w (.bytesWritten value) =
      World.setState device { w with unreported := w.unreported - value }
        (Visitor.accounting value w.state items) := by
    unfold World.step World.reactBytesWritten
    rw [good.queue]
  rw [hstep]
  cases good.phase with
  | reading _ _ reported => omega
  | success _ _ _ _ reported => omega
  | writing x state portion pending level written quits =>
      have haccount : Visitor.accounting value w.state items =
          if 0 < ({ x with portion := x.portion - value } : Pouring κ β).remaining then
            (.pouring { x with portion := x.portion - value }, items)
          else dequeue items := by
        unfold Visitor.accounting Pouring.account
        have hlt : ¬ x.portion < value := by omega
        rw [state]
        dsimp only
        rw [if_neg hlt]
      have hremaining := Pouring.remaining_pos_iff
        (x := { x with portion := x.portion - value }) level
      rw [haccount]
      by_cases hbusy : 0 < ({ x with portion := x.portion - value } : Pouring κ β).remaining
      · rw [if_pos hbusy]
        refine ⟨items, setState_pouring h good.line ?_ level (hremaining.mp hbusy) written quits⟩
        dsimp only
        rw [portion]
      · rw [if_neg hbusy]
        rw [hremaining] at hbusy
        have hnone : x.pots = [] := by
          by_contra hno
          exact hbusy (.inr hno)
        have hportion : ¬ 0 < x.portion - value := fun hno => hbusy (.inl hno)
        refine setState_dequeue h good.line ?_ ?_ quits
        · dsimp only
          omega
        · rw [hnone] at written
          rw [← written]
          unfold content
          simp

theorem run_good (h : Accepts device) {events : List (Event κ β)}
    (run : Runs device {} events w) : ∃ items, Good w items := by
  refine run.preserves (p := fun w => ∃ items, Good w items) (fun s e t good step => ?_)
    ⟨[], rfl, ?_, ?_⟩
  · obtain ⟨items, good⟩ := good
    obtain ⟨enabled, rfl⟩ := step
    cases e with
    | receipt p => exact good.receipt h enabled p
    | bytesWritten value => exact good.bytesWritten h enabled
  · exact ⟨[], [], [], (fun p hp => by cases hp), (fun p hp => by cases hp), .inl rfl, rfl, rfl⟩
  · exact .reading rfl rfl rfl rfl rfl

theorem Good.conveyed (good : Good w items) : Conveyed w := by
  obtain ⟨fs, ds, es, hfs, hds, hes, hreceived, hitems⟩ := good.line.line
  cases good.phase with
  | reading state empty reported written quits =>
      have hes : es = [] := (List.append_eq_nil_iff.mp (hitems.symm.trans empty)).2
      refine ⟨⟨[], by rw [List.append_nil, written]⟩, fun _ => written, ?_, ?_⟩
      · intro x hx
        rw [state] at hx
        cases hx
      · rw [quits, if_neg]
        rintro ⟨⟨p, hp, hdata⟩, -⟩
        rw [hreceived, hes, List.append_nil] at hp
        exact hfs p hp hdata
  | writing x state portion pending level written quits =>
      refine ⟨⟨content x.pots ++ payload items, by rw [← List.append_assoc, written]⟩, ?_,
        fun _ _ => pending, ?_⟩
      · intro hno
        exact absurd hno (Nat.ne_of_gt pending)
      · rw [quits, if_neg]
        rintro ⟨-, hno⟩
        exact absurd hno (Nat.ne_of_gt pending)
  | success state e single data reported written quits =>
      refine ⟨⟨[], by rw [List.append_nil, written]⟩, fun _ => written, ?_, ?_⟩
      · intro x hx
        rw [state] at hx
        cases hx
      · rw [quits, if_pos]
        refine ⟨⟨e, ?_, data⟩, reported⟩
        have hin : e ∈ ds ++ es := by
          rw [← hitems, single]
          simp
        cases List.mem_append.mp hin with
        | inl hno => exact absurd data (hds e hno)
        | inr heof =>
            rw [hreceived]
            exact List.mem_append_right _ heof

/-- Whatever the order of receipts and reports, the device gets the received
stream in order and the pump quits once, at its end. -/
theorem pulling_conveyed (h : Accepts device) {events : List (Event κ β)}
    (run : Runs device {} events w) : Conveyed w := by
  obtain ⟨items, good⟩ := run_good h run
  exact good.conveyed

/-- Two bytes and the end of the stream, written one byte at a time. -/
theorem pulling_conveyed_bytes : ∃ w : World Unit Nat,
    Runs (fun _ _ => some 1) {}
      [.receipt ⟨(), [7, 8], none⟩, .receipt ⟨(), [], none⟩, .bytesWritten 1, .bytesWritten 1] w ∧
    Conveyed w ∧ w.written = [7, 8] ∧ w.quits = 1 := by
  have hrun : Runs (fun _ _ => some 1) ({} : World Unit Nat)
      [.receipt ⟨(), [7, 8], none⟩, .receipt ⟨(), [], none⟩, .bytesWritten 1, .bytesWritten 1] _ :=
    .cons ⟨by decide, rfl⟩ (.cons ⟨by decide, rfl⟩ (.cons ⟨by decide, rfl⟩
      (.cons ⟨by decide, rfl⟩ (.nil _))))
  refine ⟨_, hrun, pulling_conveyed (fun _ bs hbs => ⟨1, rfl, Nat.zero_lt_one, ?_⟩) hrun, rfl, rfl⟩
  exact List.length_pos_iff.mpr hbs

end DispService.Pump.Pull
