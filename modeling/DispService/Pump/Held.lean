import DispService.Pump.Push

/-! What the operations of the sending queue do to the bytes it holds. The
packages and the collector together are one stretch of the stream. -/
namespace DispService.Pump.Push

open DispService.Lib

universe u v

variable {κ : Type u} {β : Type v}

/-- A package of data that the pump itself made. -/
structure Packer.Data (k : Packer κ) (p : Package κ β) : Prop where
  made : p = k.assemble p.data
  filled : p.data ≠ []

theorem Packer.Data.assemble (k : Packer κ) {data : List β} (h : data ≠ []) :
    Packer.Data k (k.assemble data) :=
  ⟨rfl, h⟩

namespace Queue

variable {q u : Queue κ β} {slack : Nat → Nat}

structure Valid (q : Queue κ β) : Prop where
  collector : q.collector.Valid
  room : 0 < q.collector.capacity

/-- The bytes read and not yet accepted. -/
def held (q : Queue κ β) : List β :=
  payload q.items ++ q.collector.bytes

theorem Valid.bytes_ne_nil (h : q.Valid) (hsize : q.collector.size ≠ 0) :
    q.collector.bytes ≠ [] :=
  fun hno => hsize (h.collector.bytes_eq_nil_iff.mp hno)

theorem Valid.bytes_eq_nil (h : q.Valid) (hsize : q.collector.size = 0) :
    q.collector.bytes = [] :=
  h.collector.bytes_eq_nil_iff.mpr hsize

/-- The collector turned into a package. -/
def packed (q : Queue κ β) : Queue κ β :=
  { q with
    items := q.items ++ [q.packer.assemble q.collector.bytes],
    collector := q.collector.resize 0 }

theorem enqueue_eq (h : q.Valid) (hsize : q.collector.size ≠ 0) : q.enqueue = .ok q.packed := by
  unfold enqueue
  rw [Packer.pack_of_ne_nil _ (h.bytes_ne_nil hsize)]
  rfl

theorem Valid.packed (h : q.Valid) : q.packed.Valid :=
  ⟨h.collector.resize (Nat.zero_le _), h.room⟩

theorem held_packed : q.packed.held = q.held := by
  unfold held packed
  dsimp only
  rw [payload_append, Buffer.bytes_resize_zero, payload_cons, payload_nil]
  simp only [Packer.assemble_data, List.append_nil]

/-- What an operation that only takes bytes in does: data packages may be added
at the end. -/
structure Grown (q u : Queue κ β) (more : List β) : Prop where
  valid : u.Valid
  packer : u.packer = q.packer
  held : u.held = q.held ++ more
  items : ∃ ds, (∀ p ∈ ds, Packer.Data q.packer p) ∧ u.items = q.items ++ ds

theorem Valid.append (h : q.Valid) (slack : Nat → Nat) (bs : List β) :
    Grown q { q with collector := q.collector.append slack bs } bs where
  valid := by
    refine ⟨h.collector.append slack, ?_⟩
    have hroom := h.room
    simp only [Buffer.append]
    split
    · exact hroom
    · omega
  packer := rfl
  held := by
    unfold Queue.held
    dsimp only
    rw [h.collector.bytes_append, List.append_assoc]
  items := ⟨[], by simp, (List.append_nil _).symm⟩

theorem Valid.enqueue (h : q.Valid) (hsize : q.collector.size ≠ 0) : Grown q q.packed [] where
  valid := h.packed
  packer := rfl
  held := by rw [held_packed, List.append_nil]
  items := by
    refine ⟨[q.packer.assemble q.collector.bytes], ?_, rfl⟩
    intro p hp
    rw [List.mem_singleton.mp hp]
    exact Packer.Data.assemble _ (h.bytes_ne_nil hsize)

theorem Grown.trans {q u w : Queue κ β} {xs ys : List β} (first : Grown q u xs)
    (second : Grown u w ys) : Grown q w (xs ++ ys) where
  valid := second.valid
  packer := second.packer.trans first.packer
  held := by rw [second.held, first.held, List.append_assoc]
  items := by
    obtain ⟨ds, hds, hu⟩ := first.items
    obtain ⟨es, hes, hw⟩ := second.items
    refine ⟨ds ++ es, ?_, by rw [hw, hu, List.append_assoc]⟩
    intro p hp
    cases List.mem_append.mp hp with
    | inl h => exact hds p h
    | inr h =>
        rw [← first.packer]
        exact hes p h

theorem enqueueData_fits {device : List β} (hdevice : device ≠ [])
    (hfits : q.collector.capacity - q.collector.size ≠
      min (q.collector.capacity - q.collector.size) device.length) :
    q.enqueueData slack device = .ok { q with
      collector := q.collector.append slack
        (device.take (min (q.collector.capacity - q.collector.size) device.length)) } := by
  unfold enqueueData
  rw [Packer.pack_of_ne_nil _ hdevice]
  exact if_pos hfits

theorem enqueueData_full {device : List β} (hdevice : device ≠ []) {a : Nat}
    (ha : q.collector.capacity - q.collector.size = a) (hfull : a = min a device.length)
    (hu : { q with collector := q.collector.append slack (device.take (min a device.length)) } =
      u) (henqueue : u.enqueue = .ok u.packed) :
    q.enqueueData slack device =
      if device.length - min a device.length = 0 then .ok u.packed
      else .ok { u.packed with
        collector := u.packed.collector.append slack (device.drop (min a device.length)) } := by
  subst ha hu
  unfold enqueueData
  rw [Packer.pack_of_ne_nil _ hdevice]
  refine (if_neg (not_not_intro hfull)).trans ?_
  dsimp only [Packer.assemble_data]
  rw [henqueue]
  rfl

/-- Every byte read goes into the queue, in order. -/
theorem enqueueData_grown (h : q.Valid) {device : List β} (hdevice : device ≠ []) :
    ∃ u, q.enqueueData slack device = .ok u ∧ Grown q u device := by
  obtain ⟨a, ha⟩ : ∃ a, q.collector.capacity - q.collector.size = a := ⟨_, rfl⟩
  have hfirst := h.append slack (device.take (min a device.length))
  by_cases hfull : a = min a device.length
  · have hsize : (q.collector.append slack (device.take (min a device.length))).size ≠ 0 := by
      have hroom := h.room
      have hfits := h.collector.fits
      rw [Buffer.append_size, List.length_take]
      omega
    have hpacked := hfirst.trans (hfirst.valid.enqueue hsize)
    rw [List.append_nil] at hpacked
    rw [enqueueData_full hdevice ha hfull rfl (enqueue_eq hfirst.valid hsize)]
    by_cases hrest : device.length - min a device.length = 0
    · rw [if_pos hrest]
      refine ⟨_, rfl, ?_⟩
      rw [List.take_of_length_le (by omega)] at hpacked ⊢
      exact hpacked
    · rw [if_neg hrest]
      refine ⟨_, rfl, ?_⟩
      have hlast := hpacked.trans
        (hpacked.valid.append slack (device.drop (min a device.length)))
      rw [List.take_append_drop] at hlast
      exact hlast
  · subst ha
    refine ⟨_, enqueueData_fits hdevice hfull, ?_⟩
    rw [List.take_of_length_le (by omega)] at hfirst ⊢
    exact hfirst

/-- The end of the stream stands behind everything the queue held. -/
theorem enqueueEof_ends (h : q.Valid) :
    ∃ u, q.enqueueEof = .ok u ∧ u.Valid ∧ u.packer = q.packer ∧ u.held = q.held ∧
      u.collector.size = 0 ∧
      ∃ ds, (∀ p ∈ ds, Packer.Data q.packer p) ∧ u.items = q.items ++ ds ++ [q.packer.eof] := by
  have heof : ∀ w : Queue κ β,
      (held { w with items := w.items ++ [w.packer.eof] }) = w.held := by
    intro w
    unfold held
    dsimp only
    rw [payload_append, payload_cons, payload_nil, Packer.eof_data]
    simp only [List.append_nil]
  unfold enqueueEof
  by_cases hsize : q.collector.size = 0
  · rw [if_neg (fun hno => hno hsize)]
    refine ⟨_, rfl, ⟨h.collector, h.room⟩, rfl, heof q, hsize, [], by simp, ?_⟩
    rw [List.append_nil]
  · rw [if_pos hsize, enqueue_eq h hsize]
    have hgrown := h.enqueue hsize
    obtain ⟨ds, hds, hitems⟩ := hgrown.items
    refine ⟨_, rfl, ⟨hgrown.valid.collector, hgrown.valid.room⟩, rfl,
      (heof q.packed).trans held_packed, rfl, ds, hds, ?_⟩
    dsimp only
    rw [hitems]
    rfl

/-- What a call of `dequeue` that hands a package to the service does. -/
inductive Asked (q : Queue κ β) (service : SendResult) (r : Reply κ β) : Prop where
  | invalid (answer : service = .invalid) (target : r.target = .error .failure)
      (sent : r.sent = [])
  | full (answer : service = .sendQueueIsFull) (target : r.target = .ok .sending)
      (queue : r.queue = q) (sent : r.sent = [])
  | accepted (p : Package κ β) (answer : service = .accepted)
      (target : r.target = .ok (if p.data = [] then .closing else .sending))
      (sent : r.sent = [p]) (valid : r.queue.Valid) (packer : r.queue.packer = q.packer)
      (held : p.data ++ r.queue.held = q.held)
      (taken : (q.items = p :: r.queue.items ∧ r.queue.collector = q.collector) ∨
        (q.items = [] ∧ r.queue.items = [] ∧ r.queue.collector.size = 0 ∧
          Packer.Data q.packer p))

theorem sendHead_asked (h : q.Valid) (hitems : q.items ≠ []) (answer : SendResult) :
    Asked q answer (q.sendHead answer) := by
  cases hlist : q.items with
  | nil => exact absurd hlist hitems
  | cons p rest =>
      unfold sendHead
      rw [hlist]
      cases answer with
      | invalid => exact .invalid rfl rfl rfl
      | sendQueueIsFull => exact .full rfl rfl rfl rfl
      | accepted =>
          refine .accepted p rfl ?_ rfl ⟨h.collector, h.room⟩ rfl ?_ (.inl ⟨hlist, rfl⟩)
          · by_cases hdata : p.data = []
            · rw [if_pos hdata, if_pos]
              unfold isEof
              simp [hdata]
            · rw [if_neg hdata, isEof_of_filled hdata]
              rfl
          · unfold held
            rw [hlist, payload_cons, List.append_assoc]

/-- `dequeue` on a queue that holds something hands one package to the service. -/
theorem dequeue_asked (h : q.Valid) (hheld : ¬ (q.items = [] ∧ q.collector.size = 0))
    (answer : SendResult) :
    (q.dequeue answer).calls = 1 ∧ (q.dequeue answer).quit = false ∧
      (q.dequeue answer).read = [] ∧ Asked q answer (q.dequeue answer) := by
  have hcalls : ∀ w : Queue κ β, w.items ≠ [] → (w.sendHead answer).calls = 1 ∧
      (w.sendHead answer).quit = false ∧ (w.sendHead answer).read = [] := by
    intro w hw
    unfold sendHead
    cases hlist : w.items with
    | nil => exact absurd hlist hw
    | cons p rest => cases answer <;> exact ⟨rfl, rfl, rfl⟩
  by_cases hitems : q.items = []
  · have hsize : q.collector.size ≠ 0 := fun hno => hheld ⟨hitems, hno⟩
    have hpacked : q.packed.items = [q.packer.assemble q.collector.bytes] := by
      unfold packed
      rw [hitems]
      rfl
    have hdequeue : q.dequeue answer = putBack (q.packed.sendHead answer) := by
      unfold dequeue
      rw [hitems, enqueue_eq h hsize, if_neg (by simp), if_neg hsize]
    have hbytes := h.bytes_ne_nil hsize
    rw [hdequeue]
    unfold sendHead
    rw [hpacked]
    cases answer with
    | invalid => exact ⟨rfl, rfl, rfl, .invalid rfl rfl rfl⟩
    | sendQueueIsFull =>
        have hback : putBack { target := .ok .sending, queue := q.packed, calls := 1 } =
            { target := .ok .sending, queue := q, calls := 1 } := by
          unfold putBack
          rw [hpacked]
          dsimp only
          rw [Packer.assemble_data, h.collector.length]
          unfold packed
          rw [← hitems]
          rfl
        dsimp only
        rw [hback]
        exact ⟨rfl, rfl, rfl, .full rfl rfl rfl rfl⟩
    | accepted =>
        have hfilled : (q.packer.assemble q.collector.bytes).data ≠ [] := hbytes
        dsimp only
        rw [isEof_of_filled hfilled]
        refine ⟨rfl, rfl, rfl, .accepted (q.packer.assemble q.collector.bytes) rfl ?_ rfl
          ⟨h.packed.collector, h.packed.room⟩ rfl ?_
          (.inr ⟨hitems, rfl, rfl, Packer.Data.assemble _ hbytes⟩)⟩
        · rw [if_neg hfilled]
          rfl
        · unfold held putBack
          rw [hitems]
          dsimp only
          rw [show (Queue.packed q).collector = q.collector.resize 0 from rfl,
            Buffer.bytes_resize_zero, payload_nil]
          exact List.append_nil _
  · have hdequeue : q.dequeue answer = q.sendHead answer := by
      unfold dequeue
      rw [if_pos]
      cases hlist : q.items with
      | nil => exact absurd hlist hitems
      | cons p rest => rfl
    rw [hdequeue]
    obtain ⟨h₁, h₂, h₃⟩ := hcalls q hitems
    exact ⟨h₁, h₂, h₃, sendHead_asked h hitems answer⟩

theorem dequeue_idle (hitems : q.items = []) (hsize : q.collector.size = 0)
    (answer : SendResult) : q.dequeue answer = stay .reading q := by
  unfold dequeue
  rw [hitems, if_neg (by simp), if_pos hsize]
  rfl

theorem dequeue_read (h : q.Valid) (answer : SendResult) : (q.dequeue answer).read = [] := by
  by_cases hidle : q.items = [] ∧ q.collector.size = 0
  · rw [dequeue_idle hidle.1 hidle.2]
    rfl
  · exact (dequeue_asked h hidle answer).2.2.1

end Queue

end DispService.Pump.Push
