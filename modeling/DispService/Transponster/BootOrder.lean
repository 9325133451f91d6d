import DispService.Lib.Partitioned
import Mathlib.Data.List.Sort

/-! The list of boot devices: how it is read from the orders of a domain, and how the orders are
made of it. -/
namespace DispService.Transponster.Boot

open Lib

/-- The type of a device and its index. -/
abbrev Key := Nat × Nat

structure CVmBootDevice where
  deviceType : Nat
  deviceIndex : Nat
  sequenceNumber : Nat
  inUseStatus : Bool
deriving DecidableEq, Repr

namespace CVmBootDevice

variable (d : CVmBootDevice)

def getBootingNumber : Nat := d.sequenceNumber

def isInUse : Bool := d.inUseStatus

def key : Key := (d.deviceType, d.deviceIndex)

end CVmBootDevice

section Clip

-- A new device is what its constructor makes.
variable (blank : CVmBootDevice)

/-- The place of the device that a slot writes to. -/
def getBootSlot (m_bootList : List CVmBootDevice) : Option Nat → List CVmBootDevice × Nat
  | some order_ =>
      let d := { blank with sequenceNumber := order_, inUseStatus := true }
      let it := lowerBound (fun x => decide (x.getBootingNumber < order_) && x.isInUse) m_bootList
      (m_bootList.take it ++ d :: m_bootList.drop it, it)
  | none => (m_bootList ++ [blank], m_bootList.length)

def Slot.set (l : List CVmBootDevice) (slot : Nat) (k : Key) : List CVmBootDevice :=
  l.modify slot fun d => { d with deviceType := k.1, deviceIndex := k.2 }

/-- `getBootSlot(order).set(type, index)` -/
def take (l : List CVmBootDevice) (call : Option Nat × Key) : List CVmBootDevice :=
  let r := getBootSlot blank l call.1
  Slot.set r.1 r.2 call.2

end Clip

/-- The order of the device with a key, by the map that is made of a list. -/
def count (m : (Key → Option Nat) × Nat) (d : CVmBootDevice) : (Key → Option Nat) × Nat :=
  if d.isInUse then (Function.update m.1 d.key (some (m.2 + 1)), m.2 + 1) else m

def sorted (list_ : List CVmBootDevice) : List CVmBootDevice :=
  list_.mergeSort fun a b => decide (a.getBootingNumber ≤ b.getBootingNumber)

/-- `Boot::Reverse` -/
def reverse (list_ : List CVmBootDevice) : Key → Option Nat :=
  ((sorted list_).foldl count (fun _ => none, 0)).1

/-- The entry that a call makes. -/
def entry (blank : CVmBootDevice) (call : Option Nat × Key) : CVmBootDevice :=
  match call.1 with
  | some order_ => ⟨call.2.1, call.2.2, order_, true⟩
  | none => { blank with deviceType := call.2.1, deviceIndex := call.2.2 }

/-- The entries in use, by their orders, and then the others. -/
def Arranged (l : List CVmBootDevice) : Prop :=
  ∃ used unused, l = used ++ unused ∧ (∀ d ∈ used, d.isInUse = true) ∧
    used.Pairwise (fun a b => a.getBootingNumber ≤ b.getBootingNumber) ∧
    ∀ d ∈ unused, d.isInUse = false

/-- The devices in use, in the order of their booting numbers. -/
def inUse (l : List CVmBootDevice) : List CVmBootDevice :=
  (sorted l).filter CVmBootDevice.isInUse

/-- What the reader asks for, when the devices of a domain with such orders come one by one. -/
def calls (order : Key → Option Nat) (devices : List Key) : List (Option Nat × Key) :=
  devices.filterMap fun k => (order k).map fun o => (some o, k)

section Arranged

variable {blank : CVmBootDevice} {l : List CVmBootDevice}

theorem modify_middle {α : Type} (f : α → α) (front back : List α) (x : α) :
    (front ++ x :: back).modify front.length f = front ++ f x :: back := by
  induction front with
  | nil => rfl
  | cons y front ih =>
    rw [List.cons_append, List.length_cons, List.modify_succ_cons, ih]
    rfl

/-- The items with lower orders are the first of a sorted list. -/
theorem split_sorted {used : List CVmBootDevice} (o : Nat)
    (hsorted : used.Pairwise fun a b => a.getBootingNumber ≤ b.getBootingNumber) :
    ∃ low high, used = low ++ high ∧ (∀ d ∈ low, d.getBootingNumber < o) ∧
      ∀ d ∈ high, o ≤ d.getBootingNumber := by
  induction used with
  | nil => exact ⟨[], [], rfl, fun _ h => absurd h List.not_mem_nil, fun _ h => absurd h List.not_mem_nil⟩
  | cons d used ih =>
    obtain ⟨hd, hrest⟩ := List.pairwise_cons.mp hsorted
    by_cases hlt : d.getBootingNumber < o
    · obtain ⟨low, high, rfl, hlow, hhigh⟩ := ih hrest
      refine ⟨d :: low, high, rfl, fun e he => ?_, hhigh⟩
      rcases List.mem_cons.mp he with rfl | he
      · exact hlt
      · exact hlow e he
    · refine ⟨[], d :: used, rfl, fun _ h => absurd h List.not_mem_nil, fun e he => ?_⟩
      rcases List.mem_cons.mp he with rfl | he
      · exact Nat.not_lt.mp hlt
      · exact Nat.le_trans (Nat.not_lt.mp hlt) (hd e he)

/-- A new entry is put where its order belongs. -/
theorem Arranged.take (hblank : blank.isInUse = false) (h : Arranged l) (call : Option Nat × Key) :
    Arranged (take blank l call) ∧ (take blank l call).Perm (l ++ [entry blank call]) := by
  obtain ⟨used, unused, rfl, hused, hsorted, hunused⟩ := h
  obtain ⟨order, k⟩ := call
  cases order with
  | none =>
    have htake : Boot.take blank (used ++ unused) (none, k) =
        used ++ (unused ++ [entry blank (none, k)]) := by
      have hmodify := modify_middle (fun d : CVmBootDevice =>
        { d with deviceType := k.1, deviceIndex := k.2 }) (used ++ unused) [] blank
      rw [List.append_assoc] at hmodify
      rw [Boot.take, getBootSlot, Slot.set]
      dsimp only
      rw [List.append_assoc, hmodify, List.append_assoc]
      rfl
    rw [htake]
    refine ⟨⟨used, _, rfl, hused, hsorted, fun d hd => ?_⟩, ?_⟩
    · rcases List.mem_append.mp hd with hd | hd
      · exact hunused d hd
      · rw [List.mem_singleton.mp hd]
        exact hblank
    · rw [List.append_assoc]
  | some o =>
    obtain ⟨low, high, rfl, hlow, hhigh⟩ := split_sorted o hsorted
    obtain ⟨hlowSorted, hhighSorted, hcross⟩ := List.pairwise_append.mp hsorted
    have hsearch : lowerBound (fun x : CVmBootDevice => decide (x.getBootingNumber < o) && x.isInUse)
        (low ++ high ++ unused) = low.length := by
      rw [List.append_assoc]
      refine lowerBound_append (fun d hd => ?_) fun d hd => ?_
      · simp [hlow d hd, hused d (List.mem_append_left _ hd)]
      · rcases List.mem_append.mp hd with hd | hd
        · simp [hhigh d hd]
        · simp [hunused d hd]
    have htake : Boot.take blank (low ++ high ++ unused) (some o, k) =
        low ++ entry blank (some o, k) :: (high ++ unused) := by
      rw [Boot.take, getBootSlot, Slot.set]
      dsimp only
      rw [hsearch, List.append_assoc, List.take_left, List.drop_left, modify_middle]
      rfl
    rw [htake]
    refine ⟨⟨low ++ entry blank (some o, k) :: high, unused, by simp, fun d hd => ?_, ?_, hunused⟩, ?_⟩
    · rcases List.mem_append.mp hd with hd | hd
      · exact hused d (List.mem_append_left _ hd)
      · rcases List.mem_cons.mp hd with rfl | hd
        · rfl
        · exact hused d (List.mem_append_right _ hd)
    · refine List.pairwise_append.mpr ⟨hlowSorted, List.pairwise_cons.mpr ⟨hhigh, hhighSorted⟩, ?_⟩
      intro a ha b hb
      rcases List.mem_cons.mp hb with rfl | hb
      · exact Nat.le_of_lt (hlow a ha)
      · exact hcross a ha b hb
    · refine List.Perm.trans ?_ (List.perm_append_singleton _ _).symm
      rw [List.append_assoc low]
      exact List.perm_middle

theorem Arranged.run (hblank : blank.isInUse = false) (h : Arranged l)
    (cs : List (Option Nat × Key)) :
    Arranged (cs.foldl (Boot.take blank) l) ∧
      (cs.foldl (Boot.take blank) l).Perm (l ++ cs.map (entry blank)) := by
  induction cs generalizing l with
  | nil => exact ⟨h, by rw [List.map_nil, List.append_nil]; exact .refl _⟩
  | cons c cs ih =>
    obtain ⟨hstep, hperm⟩ := h.take hblank c
    obtain ⟨harranged, hrun⟩ := ih hstep
    refine ⟨harranged, hrun.trans ?_⟩
    rw [List.map_cons, List.append_cons]
    exact hperm.append_right _

end Arranged

section Reverse

variable {l ds : List CVmBootDevice}

theorem count_other {k : Key} (m : (Key → Option Nat) × Nat)
    (hk : k ∉ (ds.filter CVmBootDevice.isInUse).map CVmBootDevice.key) :
    (ds.foldl count m).1 k = m.1 k := by
  induction ds generalizing m with
  | nil => rfl
  | cons d ds ih =>
    rw [List.foldl_cons]
    by_cases huse : d.isInUse = true
    · rw [List.filter_cons_of_pos huse, List.map_cons, List.mem_cons, not_or] at hk
      rw [ih _ hk.2, count, if_pos huse]
      exact Function.update_of_ne hk.1 _ _
    · rw [List.filter_cons_of_neg huse] at hk
      rw [ih _ hk, count, if_neg huse]

/-- The devices in use get the orders that follow, one by one. -/
theorem count_orders (m : (Key → Option Nat) × Nat) (hnodup : (ds.map CVmBootDevice.key).Nodup) :
    (ds.filter CVmBootDevice.isInUse).map (fun d => (ds.foldl count m).1 d.key) =
      (List.range' (m.2 + 1) (ds.filter CVmBootDevice.isInUse).length).map some := by
  induction ds generalizing m with
  | nil => rfl
  | cons d ds ih =>
    rw [List.map_cons, List.nodup_cons] at hnodup
    rw [List.foldl_cons]
    by_cases huse : d.isInUse = true
    · have hother : d.key ∉ (ds.filter CVmBootDevice.isInUse).map CVmBootDevice.key :=
        fun h => hnodup.1 ((List.filter_sublist.map _).subset h)
      have hhead : (ds.foldl count (count m d)).1 d.key = some (m.2 + 1) := by
        rw [count_other _ hother, count, if_pos huse]
        exact Function.update_self _ _ _
      have hnext : (count m d).2 = m.2 + 1 := by rw [count, if_pos huse]
      rw [List.filter_cons_of_pos huse, List.map_cons, hhead, ih (count m d) hnodup.2, hnext,
        List.length_cons, List.range'_succ, List.map_cons]
    · rw [List.filter_cons_of_neg huse, ih (count m d) hnodup.2, count, if_neg huse]

theorem sorted_perm (l : List CVmBootDevice) : (sorted l).Perm l := List.mergeSort_perm _ _

theorem sorted_pairwise (l : List CVmBootDevice) :
    (sorted l).Pairwise fun a b => a.getBootingNumber ≤ b.getBootingNumber := by
  have h : (sorted l).Pairwise fun a b => decide (a.getBootingNumber ≤ b.getBootingNumber) =
      true := List.pairwise_mergeSort
    (fun a b c hab hbc => by
      rw [decide_eq_true_eq] at hab hbc ⊢
      exact Nat.le_trans hab hbc)
    (fun a b => by
      rw [Bool.or_eq_true, decide_eq_true_eq, decide_eq_true_eq]
      exact Nat.le_total _ _) l
  exact h.imp fun hab => of_decide_eq_true hab

theorem inUse_nodup (hnodup : (l.map CVmBootDevice.key).Nodup) :
    ((inUse l).map CVmBootDevice.key).Nodup :=
  (((sorted_perm l).map _).nodup_iff.mpr hnodup).sublist (List.filter_sublist.map _)

theorem reverse_orders (hnodup : (l.map CVmBootDevice.key).Nodup) :
    (inUse l).map (fun d => reverse l d.key) =
      (List.range' 1 (inUse l).length).map some :=
  count_orders (fun _ => none, 0) (((sorted_perm l).map _).nodup_iff.mpr hnodup)

theorem reverse_other {k : Key} (hk : k ∉ (inUse l).map CVmBootDevice.key) : reverse l k = none :=
  count_other (fun _ => none, 0) hk

/-- The orders of the devices in use are theirs alone, and grow along the list. -/
theorem reverse_pairwise (hnodup : (l.map CVmBootDevice.key).Nodup) :
    ((inUse l).map CVmBootDevice.key).Pairwise
      fun a b => (reverse l a).getD 0 < (reverse l b).getD 0 := by
  have horders := congrArg (List.map (Option.getD · 0)) (reverse_orders hnodup)
  rw [List.map_map, List.map_map] at horders
  have hrange : ((inUse l).map fun d => (reverse l d.key).getD 0) =
      List.range' 1 (inUse l).length := horders.trans (List.map_id _)
  have hlt : ((inUse l).map fun d => (reverse l d.key).getD 0).Pairwise (· < ·) := by
    rw [hrange]
    exact List.pairwise_lt_range'
  exact List.pairwise_map.mpr (List.pairwise_map.mp hlt)

theorem reverse_isSome (hnodup : (l.map CVmBootDevice.key).Nodup) {k : Key} :
    (reverse l k).isSome = true ↔ k ∈ (inUse l).map CVmBootDevice.key := by
  refine ⟨fun h => ?_, fun h => ?_⟩
  · by_contra hk
    rw [reverse_other hk] at h
    exact Bool.false_ne_true h
  · obtain ⟨d, hd, rfl⟩ := List.mem_map.mp h
    have hmem : reverse l d.key ∈ (inUse l).map fun d => reverse l d.key :=
      List.mem_map_of_mem hd
    rw [reverse_orders hnodup] at hmem
    obtain ⟨i, -, hi⟩ := List.mem_map.mp hmem
    rw [← hi]
    rfl

end Reverse

section Rebuilt

variable {blank : CVmBootDevice} {l : List CVmBootDevice} {order : Key → Option Nat}

theorem entries_key (devices : List Key) :
    ((calls order devices).map (entry blank)).map CVmBootDevice.key =
      devices.filter fun k => (order k).isSome := by
  induction devices with
  | nil => rfl
  | cons k devices ih =>
    cases ho : order k with
    | none =>
      have hcalls : calls order (k :: devices) = calls order devices := by
        rw [calls, List.filterMap_cons_none (by rw [ho]; rfl), ← calls]
      rw [hcalls, ih, List.filter_cons_of_neg (by simp [ho])]
    | some o =>
      have hcalls : calls order (k :: devices) = (some o, k) :: calls order devices := by
        rw [calls, List.filterMap_cons_some (by rw [ho]; rfl), ← calls]
      rw [hcalls, List.map_cons, List.map_cons, ih, List.filter_cons_of_pos (by simp [ho])]
      rfl

theorem entries_order {devices : List Key} {d : CVmBootDevice}
    (hd : d ∈ (calls order devices).map (entry blank)) :
    d.isInUse = true ∧ order d.key = some d.getBootingNumber := by
  obtain ⟨c, hc, rfl⟩ := List.mem_map.mp hd
  obtain ⟨k, -, hk⟩ := List.mem_filterMap.mp hc
  obtain ⟨o, ho, rfl⟩ := Option.map_eq_some_iff.mp hk
  exact ⟨rfl, ho⟩

/-- An arranged list without unused entries is sorted. -/
theorem Arranged.pairwise (h : Arranged l) (huse : ∀ d ∈ l, d.isInUse = true) :
    l.Pairwise fun a b => a.getBootingNumber ≤ b.getBootingNumber := by
  obtain ⟨used, unused, rfl, -, hsorted, hunused⟩ := h
  cases unused with
  | nil => rwa [List.append_nil]
  | cons d unused =>
    have hd := huse d (List.mem_append_right _ List.mem_cons_self)
    rw [hunused d List.mem_cons_self] at hd
    exact absurd hd Bool.false_ne_true

/-- The list that is made of the orders has the devices in use in their sequence, in whatever
sequence the devices of the domain come. -/
theorem rebuilt_key (hblank : blank.isInUse = false) (hnodup : (l.map CVmBootDevice.key).Nodup)
    {devices : List Key} (hdevices : devices.Nodup) (hall : ∀ d ∈ inUse l, d.key ∈ devices) :
    (∀ d ∈ (calls (reverse l) devices).foldl (take blank) [], d.isInUse = true) ∧
      ((calls (reverse l) devices).foldl (take blank) []).map CVmBootDevice.key =
        (inUse l).map CVmBootDevice.key := by
  have hstart : Arranged [] := ⟨[], [], rfl, fun _ h => absurd h List.not_mem_nil, .nil,
    fun _ h => absurd h List.not_mem_nil⟩
  obtain ⟨harranged, hperm⟩ := hstart.run hblank (calls (reverse l) devices)
  rw [List.nil_append] at hperm
  have hentry : ∀ d ∈ (calls (reverse l) devices).foldl (take blank) [],
      d.isInUse = true ∧ reverse l d.key = some d.getBootingNumber :=
    fun d hd => entries_order (hperm.subset hd)
  refine ⟨fun d hd => (hentry d hd).1, ?_⟩
  have hkeys := hperm.map CVmBootDevice.key
  rw [entries_key] at hkeys
  have hsame : (devices.filter fun k => (reverse l k).isSome).Perm
      ((inUse l).map CVmBootDevice.key) := by
    refine (List.perm_ext_iff_of_nodup (hdevices.filter _) (inUse_nodup hnodup)).mpr fun k => ?_
    rw [List.mem_filter, reverse_isSome hnodup]
    refine and_iff_right_of_imp fun hk => ?_
    obtain ⟨d, hd, rfl⟩ := List.mem_map.mp hk
    exact hall d hd
  have hpairwise := reverse_pairwise hnodup
  have hanti : ∀ a b,
      a ∈ ((calls (reverse l) devices).foldl (take blank) []).map CVmBootDevice.key →
      b ∈ (inUse l).map CVmBootDevice.key → (reverse l a).getD 0 ≤ (reverse l b).getD 0 →
      (reverse l b).getD 0 ≤ (reverse l a).getD 0 → a = b := by
    intro a b ha hb hab hba
    have hinj := List.inj_on_of_nodup_map (f := fun k => (reverse l k).getD 0)
      (List.pairwise_map.mpr (hpairwise.imp Nat.ne_of_lt))
    exact hinj ((hkeys.trans hsame).subset ha) hb (Nat.le_antisymm hab hba)
  refine List.Perm.eq_of_pairwise hanti ?_ (hpairwise.imp Nat.le_of_lt) (hkeys.trans hsame)
  refine List.pairwise_map.mpr ((harranged.pairwise fun d hd => (hentry d hd).1).imp_of_mem ?_)
  intro a b ha hb hab
  rw [(hentry a ha).2, (hentry b hb).2]
  exact hab

end Rebuilt

/-- The boot list stays arranged and loses nothing, and the orders that are made of a list rebuild
it. -/
theorem boot_order {blank : CVmBootDevice} (hblank : blank.isInUse = false) :
    (∀ l (cs : List (Option Nat × Key)), Arranged l → Arranged (cs.foldl (take blank) l) ∧
      (cs.foldl (take blank) l).Perm (l ++ cs.map (entry blank))) ∧
    ∀ l : List CVmBootDevice, (l.map CVmBootDevice.key).Nodup →
      (inUse l).Pairwise (fun a b => a.getBootingNumber ≤ b.getBootingNumber) ∧
      (inUse l).Perm (l.filter CVmBootDevice.isInUse) ∧
      (inUse l).map (fun d => reverse l d.key) = (List.range' 1 (inUse l).length).map some ∧
      (∀ k ∉ (inUse l).map CVmBootDevice.key, reverse l k = none) ∧
      ∀ devices : List Key, devices.Nodup → (∀ d ∈ inUse l, d.key ∈ devices) →
        (∀ d ∈ (calls (reverse l) devices).foldl (take blank) [], d.isInUse = true) ∧
        ((calls (reverse l) devices).foldl (take blank) []).map CVmBootDevice.key =
          (inUse l).map CVmBootDevice.key :=
  ⟨fun _ cs h => h.run hblank cs, fun l hnodup =>
    ⟨(sorted_pairwise l).sublist List.filter_sublist, (sorted_perm l).filter _,
      reverse_orders hnodup, fun _ hk => reverse_other hk,
      fun _ hdevices hall => rebuilt_key hblank hnodup hdevices hall⟩⟩

theorem boot_order_default :
    (∀ l (cs : List (Option Nat × Key)), Arranged l → Arranged (cs.foldl (take ⟨0, 0, 0, false⟩) l) ∧
      (cs.foldl (take ⟨0, 0, 0, false⟩) l).Perm (l ++ cs.map (entry ⟨0, 0, 0, false⟩))) ∧
    ∀ devices : List Key, devices.Nodup →
      (∀ d ∈ inUse [⟨6, 0, 2, true⟩, ⟨5, 0, 7, false⟩, ⟨6, 1, 1, true⟩], d.key ∈ devices) →
      ((calls (reverse [⟨6, 0, 2, true⟩, ⟨5, 0, 7, false⟩, ⟨6, 1, 1, true⟩]) devices).foldl
        (take ⟨0, 0, 0, false⟩) []).map CVmBootDevice.key =
          (inUse [⟨6, 0, 2, true⟩, ⟨5, 0, 7, false⟩, ⟨6, 1, 1, true⟩]).map CVmBootDevice.key := by
  have h := boot_order (rfl : (⟨0, 0, 0, false⟩ : CVmBootDevice).isInUse = false)
  exact ⟨h.1, fun devices hdevices hall =>
    ((h.2 [⟨6, 0, 2, true⟩, ⟨5, 0, 7, false⟩, ⟨6, 1, 1, true⟩] (by decide)).2.2.2.2
      devices hdevices hall).2⟩

end DispService.Transponster.Boot
