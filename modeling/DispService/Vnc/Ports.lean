import Mathlib.Data.Finset.Card
import Mathlib.Data.Finset.Image
import Mathlib.Data.List.Nodup
import Mathlib.Order.Interval.Finset.Nat

/-! The search for a port on which a tunnel starts. Port numbers and the size of the range have 16
bits. -/
namespace DispService.Vnc.Ports

/-- The ports that were tried, in order, and the one whose tunnel started. -/
structure Outcome where
  tried : List UInt16
  accept : Option UInt16
  deriving DecidableEq, Repr

def Outcome.prepend (ps : List UInt16) (o : Outcome) : Outcome :=
  ⟨ps ++ o.tried, o.accept⟩

/-- `QSet::insert`, with the item that its iterator points to; the end is `none`. -/
def insertItem (u : Finset UInt16) (p : UInt16) : Option UInt16 × Finset UInt16 :=
  (some p, insert p u)

/-- The loop of `Subject::startStunnel`; the `i`-th number that is drawn is `d i`. -/
def draw (launcher : UInt16 → Bool) (d : Nat → UInt16) (z : UInt16) :
    Nat → Nat → Finset UInt16 → Option Outcome
  | 0, _, _ => none
  | fuel + 1, i, u =>
      if u.card = z.toNat then
        some ⟨[], none⟩
      else
        let p := d i
        let (item, u) := insertItem u p
        if item = none then
          draw launcher d z fuel (i + 1) u
        else if launcher p then
          some ⟨[p], some p⟩
        else
          (draw launcher d z fuel (i + 1) u).map (Outcome.prepend [p])

/-- `Subject::startStunnel` for a range that is not empty. -/
def startStunnel (launcher : UInt16 → Bool) (d : Nat → UInt16) (lower upper : UInt16) (fuel : Nat) :
    Option Outcome :=
  draw launcher d (upper - lower + 1) fuel 0 ∅

/-- The loop of `Starter::Secure::start`. -/
def climb (stunnel : UInt16 → Bool) : Nat → UInt16 → UInt16 → Option Outcome
  | 0, _, _ => none
  | fuel + 1, start, stop =>
      if start ≤ stop then
        if stunnel start then
          some ⟨[start], some start⟩
        else
          (climb stunnel fuel (start + 1) stop).map (Outcome.prepend [start])
      else
        some ⟨[], none⟩

/-- `Starter::Secure::start`; `server` tells whether the server behind the tunnel starts. -/
def secureStart (server : Bool) (stunnel : UInt16 → Bool) (start stop : UInt16) (fuel : Nat) :
    Option Outcome :=
  if server then climb stunnel fuel start stop else some ⟨[], none⟩

/-- What a search for a port promises. -/
structure Searches (lower upper : UInt16) (o : Outcome) : Prop where
  inside : ∀ p ∈ o.tried, lower ≤ p ∧ p ≤ upper
  once : o.tried.Nodup
  failure : o.accept = none → ∀ p, lower ≤ p → p ≤ upper → p ∈ o.tried

/-- The search ends and keeps its promises. -/
def Fulfils (lower upper : UInt16) (search : Nat → Option Outcome) : Prop :=
  ∃ fuel o, search fuel = some o ∧ Searches lower upper o

theorem prepend_prepend (ps qs : List UInt16) (o : Outcome) :
    (o.prepend qs).prepend ps = o.prepend (ps ++ qs) := by
  simp [Outcome.prepend]

/-! ## Drawn ports -/

section Draw

variable {launcher : UInt16 → Bool} {d : Nat → UInt16} {z lower upper : UInt16} {fuel i n : Nat}
  {u : Finset UInt16} {o : Outcome}

theorem draw_full (hcard : u.card = z.toNat) :
    draw launcher d z (fuel + 1) i u = some ⟨[], none⟩ := by
  rw [draw, if_pos hcard]

theorem draw_accept (hcard : u.card ≠ z.toNat) (hstart : launcher (d i) = true) :
    draw launcher d z (fuel + 1) i u = some ⟨[d i], some (d i)⟩ := by
  simp [draw, hcard, insertItem, hstart]

/-- A port is tried whether it has been drawn before or not. -/
theorem draw_next (hcard : u.card ≠ z.toNat) (hfail : launcher (d i) = false) :
    draw launcher d z (fuel + 1) i u =
      (draw launcher d z fuel (i + 1) (insert (d i) u)).map (Outcome.prepend [d i]) := by
  simp [draw, hcard, insertItem, hfail]

theorem draw_mono (h : draw launcher d z fuel i u = some o) (k : Nat) :
    draw launcher d z (fuel + k) i u = some o := by
  induction fuel generalizing i u o with
  | zero => cases h
  | succ fuel ih =>
      rw [Nat.add_right_comm]
      by_cases hcard : u.card = z.toNat
      · rw [draw_full hcard] at h ⊢
        exact h
      · cases hstart : launcher (d i) with
        | true =>
            rw [draw_accept hcard hstart] at h ⊢
            exact h
        | false =>
            rw [draw_next hcard hstart] at h ⊢
            obtain ⟨o', ho', rfl⟩ := Option.map_eq_some_iff.mp h
            rw [ih ho', Option.map_some]

/-- The result does not depend on the fuel. -/
theorem draw_unique {fuel' : Nat} {o' : Outcome} (h : draw launcher d z fuel i u = some o)
    (h' : draw launcher d z fuel' i u = some o') : o = o' := by
  have hleft := draw_mono h fuel'
  have hright := draw_mono h' fuel
  rw [Nat.add_comm] at hright
  exact Option.some.inj (hleft.symm.trans hright)

/-- The ports drawn so far. -/
def drawn (d : Nat → UInt16) (n : Nat) : Finset UInt16 :=
  (Finset.range n).image d

theorem drawn_succ : insert (d n) (drawn d n) = drawn d (n + 1) := by
  rw [drawn, drawn, Finset.range_add_one, Finset.image_insert]

/-- The loop goes on while no tunnel starts and the set is not full. -/
theorem draw_until (hstart : ∀ k < n, launcher (d k) = false)
    (hcard : ∀ k < n, (drawn d k).card ≠ z.toNat) :
    draw launcher d z (n + fuel) 0 ∅ =
      (draw launcher d z fuel n (drawn d n)).map (Outcome.prepend ((List.range n).map d)) := by
  induction n generalizing fuel with
  | zero =>
      rw [Nat.zero_add, drawn, Finset.range_zero, Finset.image_empty]
      have hid : Outcome.prepend ((List.range 0).map d) = id := rfl
      rw [hid, Option.map_id, id]
  | succ n ih =>
      have hswap : n + 1 + fuel = n + (fuel + 1) := by omega
      rw [hswap, ih (fun k hk => hstart k (by omega)) fun k hk => hcard k (by omega),
        draw_next (hcard n (by omega)) (hstart n (by omega)), drawn_succ, Option.map_map,
        List.range_succ, List.map_append]
      congr 1
      funext o
      exact prepend_prepend _ _ o

theorem card_of_inside (hle : lower ≤ upper) (inside : ∀ p ∈ u, lower ≤ p ∧ p ≤ upper) :
    u.card = upper.toNat - lower.toNat + 1 ↔ ∀ p, lower ≤ p → p ≤ upper → p ∈ u := by
  have hinj : Function.Injective UInt16.toNat := fun _ _ h => UInt16.toNat_inj.mp h
  have hcard : (u.image UInt16.toNat).card = u.card := Finset.card_image_of_injective u hinj
  have hsub : u.image UInt16.toNat ⊆ Finset.Icc lower.toNat upper.toNat := by
    intro x hx
    obtain ⟨p, hp, rfl⟩ := Finset.mem_image.mp hx
    obtain ⟨hlo, hup⟩ := inside p hp
    exact Finset.mem_Icc.mpr ⟨UInt16.le_iff_toNat_le.mp hlo, UInt16.le_iff_toNat_le.mp hup⟩
  have hnat := UInt16.le_iff_toNat_le.mp hle
  have hsize : (Finset.Icc lower.toNat upper.toNat).card = upper.toNat - lower.toNat + 1 := by
    rw [Nat.card_Icc]
    omega
  constructor
  · intro hfull p hlo hup
    have heq := Finset.eq_of_subset_of_card_le hsub (by omega)
    have hmem : p.toNat ∈ u.image UInt16.toNat := by
      rw [heq]
      exact Finset.mem_Icc.mpr ⟨UInt16.le_iff_toNat_le.mp hlo, UInt16.le_iff_toNat_le.mp hup⟩
    obtain ⟨q, hq, hqp⟩ := Finset.mem_image.mp hmem
    exact hinj hqp ▸ hq
  · intro hall
    rw [← hcard, ← hsize]
    congr 1
    refine Finset.Subset.antisymm hsub fun x hx => ?_
    obtain ⟨hlo, hup⟩ := Finset.mem_Icc.mp hx
    have hlt := upper.toNat_lt
    have hsize : UInt16.size = 65536 := rfl
    have hx : (UInt16.ofNat x).toNat = x := UInt16.toNat_ofNat_of_lt' (by omega)
    refine Finset.mem_image.mpr ⟨UInt16.ofNat x, hall _ ?_ ?_, hx⟩
    · rw [UInt16.le_iff_toNat_le, hx]
      exact hlo
    · rw [UInt16.le_iff_toNat_le, hx]
      exact hup

/-- All 16 bit numbers: the size of this range wraps to zero. -/
def Full (lower upper : UInt16) : Prop :=
  lower = 0 ∧ upper = 65535

theorem size_eq (hle : lower ≤ upper) (hfull : ¬ Full lower upper) :
    (upper - lower + 1).toNat = upper.toNat - lower.toNat + 1 := by
  have hnat := UInt16.le_iff_toNat_le.mp hle
  have hlt := upper.toNat_lt
  have hne : ¬ (lower.toNat = 0 ∧ upper.toNat = 65535) := fun h =>
    hfull ⟨UInt16.toNat_inj.mp h.1, UInt16.toNat_inj.mp h.2⟩
  rw [UInt16.toNat_add, UInt16.toNat_sub_of_le _ _ hle]
  have hone : (1 : UInt16).toNat = 1 := rfl
  rw [hone]
  omega

/-- What the generator is relied on for. -/
structure Uniform (lower upper : UInt16) (d : Nat → UInt16) : Prop where
  inside : ∀ i, lower ≤ d i ∧ d i ≤ upper
  all : ∀ p, lower ≤ p → p ≤ upper → ∃ i, d i = p

theorem mem_drawn {p : UInt16} : p ∈ drawn d n ↔ ∃ k < n, d k = p := by
  simp [drawn]

theorem covered_iff (hle : lower ≤ upper) (hfull : ¬ Full lower upper)
    (uniform : Uniform lower upper d) :
    (drawn d n).card = (upper - lower + 1).toNat ↔
      ∀ p, lower ≤ p → p ≤ upper → ∃ k < n, d k = p := by
  rw [size_eq hle hfull, card_of_inside hle]
  · simp only [mem_drawn]
  · intro p hp
    obtain ⟨k, _, rfl⟩ := mem_drawn.mp hp
    exact uniform.inside k

/-- No port is drawn again before a tunnel has started or all ports have been drawn. -/
def NoneTwice (launcher : UInt16 → Bool) (d : Nat → UInt16) (lower upper : UInt16) : Prop :=
  ∀ i j, i < j → d i = d j →
    (∃ k < j, launcher (d k) = true) ∨ ∀ p, lower ≤ p → p ≤ upper → ∃ k < j, d k = p

/-- The first moment at which the loop can stop. -/
theorem exists_stop (hle : lower ≤ upper) (hfull : ¬ Full lower upper)
    (uniform : Uniform lower upper d) (launcher : UInt16 → Bool) :
    ∃ n, (launcher (d n) = true ∨ (drawn d n).card = (upper - lower + 1).toNat) ∧
      (∀ k < n, launcher (d k) = false) ∧
      ∀ k < n, (drawn d k).card ≠ (upper - lower + 1).toNat := by
  classical
  have hex : ∃ n, launcher (d n) = true ∨ (drawn d n).card = (upper - lower + 1).toNat := by
    choose! when hwhen using uniform.all
    refine ⟨((Finset.range 65536).image fun x => when (UInt16.ofNat x)).sup id + 1, .inr ?_⟩
    rw [covered_iff hle hfull uniform]
    intro p hlo hup
    refine ⟨when p, Nat.lt_succ_of_le ?_, hwhen p hlo hup⟩
    have hmem : when p ∈ (Finset.range 65536).image fun x => when (UInt16.ofNat x) :=
      Finset.mem_image.mpr ⟨p.toNat, Finset.mem_range.mpr p.toNat_lt, by rw [UInt16.ofNat_toNat]⟩
    exact Finset.le_sup (f := id) hmem
  refine ⟨Nat.find hex, Nat.find_spec hex, fun k hk => ?_, fun k hk => ?_⟩
  · exact Bool.eq_false_iff.mpr fun h => Nat.find_min hex hk (.inl h)
  · exact fun h => Nat.find_min hex hk (.inr h)

theorem tried_once : ((List.range n).map d).Nodup ↔ ∀ i j, i < j → j < n → d i ≠ d j := by
  rw [List.Nodup, List.pairwise_map, List.pairwise_iff_getElem]
  simp only [List.length_range, List.getElem_range]
  exact ⟨fun h i j hij hj => h i j (by omega) hj hij, fun h i j _ hj hij => h i j hij hj⟩

theorem startStunnel_full (hfull : Full lower upper) :
    ¬ Fulfils lower upper (startStunnel launcher d lower upper) := by
  obtain ⟨rfl, rfl⟩ := hfull
  rintro ⟨fuel, o, hrun, searches⟩
  cases fuel with
  | zero => cases hrun
  | succ fuel =>
      have hfirst : startStunnel launcher d 0 65535 (fuel + 1) = some ⟨[], none⟩ := draw_full rfl
      rw [hfirst] at hrun
      cases hrun
      have hmem := searches.failure rfl 0 (by decide) (by decide)
      cases hmem

/-- The search among drawn ports: the set of ports that were tried is not looked at. -/
theorem startStunnel_iff (hle : lower ≤ upper) (uniform : Uniform lower upper d) :
    Fulfils lower upper (startStunnel launcher d lower upper) ↔
      ¬ Full lower upper ∧ NoneTwice launcher d lower upper := by
  by_cases hfull : Full lower upper
  · exact ⟨fun h => absurd h (startStunnel_full hfull), fun h => absurd hfull h.1⟩
  · rw [and_iff_right hfull]
    obtain ⟨n, hstop, hstart, hcard⟩ := exists_stop hle hfull uniform launcher
    have hrun : ∀ fuel, draw launcher d (upper - lower + 1) (n + fuel) 0 ∅ =
        (draw launcher d (upper - lower + 1) fuel n (drawn d n)).map
          (Outcome.prepend ((List.range n).map d)) := fun _ => draw_until hstart hcard
    by_cases hall : (drawn d n).card = (upper - lower + 1).toNat
    · -- every port has been drawn
      have hend : startStunnel launcher d lower upper (n + 1) =
          some ⟨(List.range n).map d, none⟩ := by
        rw [startStunnel, hrun, draw_full hall, Option.map_some, Outcome.prepend, List.append_nil]
      have hcovered := (covered_iff hle hfull uniform).mp hall
      constructor
      · rintro ⟨fuel, o, hfuel, searches⟩ i j hij heq
        cases draw_unique hfuel hend
        by_cases hj : j < n
        · exact absurd heq (tried_once.mp searches.once i j hij hj)
        · refine .inr fun p hlo hup => ?_
          obtain ⟨k, hk, hp⟩ := hcovered p hlo hup
          exact ⟨k, by omega, hp⟩
      · intro hnone
        refine ⟨n + 1, _, hend, fun p hp => ?_, tried_once.mpr fun i j hij hj heq => ?_,
          fun _ p hlo hup => ?_⟩
        · obtain ⟨k, _, rfl⟩ := List.mem_map.mp hp
          exact uniform.inside k
        · rcases hnone i j hij heq with ⟨k, hk, hstarted⟩ | hcover
          · rw [hstart k (by omega)] at hstarted
            cases hstarted
          · exact hcard j hj ((covered_iff hle hfull uniform).mpr hcover)
        · obtain ⟨k, hk, hp⟩ := hcovered p hlo hup
          exact List.mem_map.mpr ⟨k, List.mem_range.mpr hk, hp⟩
    · -- a tunnel starts
      have hstarted : launcher (d n) = true := hstop.resolve_right hall
      have hend : startStunnel launcher d lower upper (n + 1) =
          some ⟨(List.range (n + 1)).map d, some (d n)⟩ := by
        rw [startStunnel, hrun, draw_accept hall hstarted, Option.map_some, Outcome.prepend,
          List.range_succ, List.map_append]
        rfl
      constructor
      · rintro ⟨fuel, o, hfuel, searches⟩ i j hij heq
        cases draw_unique hfuel hend
        by_cases hj : j < n + 1
        · exact absurd heq (tried_once.mp searches.once i j hij hj)
        · exact .inl ⟨n, by omega, hstarted⟩
      · intro hnone
        refine ⟨n + 1, _, hend, fun p hp => ?_, tried_once.mpr fun i j hij hj heq => ?_,
          fun h => by cases h⟩
        · obtain ⟨k, _, rfl⟩ := List.mem_map.mp hp
          exact uniform.inside k
        · rcases hnone i j hij heq with ⟨k, hk, hk'⟩ | hcover
          · rw [hstart k (by omega)] at hk'
            cases hk'
          · have hcovered := (covered_iff hle hfull uniform).mpr hcover
            by_cases hjn : j = n
            · exact hall (hjn ▸ hcovered)
            · exact hcard j (by omega) hcovered

end Draw

/-! ## Ascending ports -/

section Climb

variable {stunnel : UInt16 → Bool} {start stop : UInt16} {fuel : Nat} {o : Outcome}

theorem climb_accept (hle : start ≤ stop) (hstart : stunnel start = true) :
    climb stunnel (fuel + 1) start stop = some ⟨[start], some start⟩ := by
  rw [climb, if_pos hle, if_pos hstart]

theorem climb_next (hle : start ≤ stop) (hfail : stunnel start = false) :
    climb stunnel (fuel + 1) start stop =
      (climb stunnel fuel (start + 1) stop).map (Outcome.prepend [start]) := by
  rw [climb, if_pos hle, if_neg (by simp [hfail])]

theorem climb_end (hlt : ¬ start ≤ stop) : climb stunnel (fuel + 1) start stop = some ⟨[], none⟩ := by
  rw [climb, if_neg hlt]

theorem succ_toNat (hne : start ≠ 65535) : (start + 1).toNat = start.toNat + 1 := by
  have hlt := start.toNat_lt
  have hnat : start.toNat ≠ 65535 := fun h => hne (UInt16.toNat_inj.mp h)
  have hone : (1 : UInt16).toNat = 1 := rfl
  rw [UInt16.toNat_add, hone]
  omega

/-- Below the largest number, or up to a tunnel that starts, the counter does not wrap. -/
theorem climb_fulfils (hle : start ≤ stop)
    (hstops : stop ≠ 65535 ∨ ∃ p, start ≤ p ∧ p ≤ stop ∧ stunnel p = true) :
    Fulfils start stop fun fuel => climb stunnel fuel start stop := by
  obtain ⟨n, hn⟩ : ∃ n, stop.toNat - start.toNat = n := ⟨_, rfl⟩
  have hnat := UInt16.le_iff_toNat_le.mp hle
  induction n generalizing start with
  | zero =>
      have heq : start = stop := UInt16.toNat_inj.mp (by omega)
      subst heq
      have hone : ∀ p, start ≤ p → p ≤ start → p = start := fun p hlo hup =>
        UInt16.le_antisymm hup hlo
      cases hstart : stunnel start with
      | true =>
          refine ⟨1, _, climb_accept hle hstart, ?_, by simp, fun h => by cases h⟩
          simp
      | false =>
          have hmax : start ≠ 65535 := by
            refine hstops.resolve_right ?_
            rintro ⟨p, hlo, hup, hp⟩
            rw [hone p hlo hup, hstart] at hp
            cases hp
          have hsucc := succ_toNat hmax
          have hover : ¬ start + 1 ≤ start := by
            rw [UInt16.le_iff_toNat_le]
            omega
          refine ⟨2, ⟨[start], none⟩, ?_, by simp, by simp, fun _ p hlo hup => ?_⟩
          · simp only [climb_next hle hstart, climb_end hover, Option.map_some]
            rfl
          · simp [hone p hlo hup]
  | succ n ih =>
      have hmax : start ≠ 65535 := by
        rintro rfl
        have hlt := stop.toNat_lt
        have hconst : (65535 : UInt16).toNat = 65535 := rfl
        omega
      have hsucc := succ_toNat hmax
      cases hstart : stunnel start with
      | true =>
          refine ⟨1, _, climb_accept hle hstart, ?_, by simp, fun h => by cases h⟩
          simp [hle]
      | false =>
          have hle' : start + 1 ≤ stop := by
            rw [UInt16.le_iff_toNat_le]
            omega
          have hstops' : stop ≠ 65535 ∨ ∃ p, start + 1 ≤ p ∧ p ≤ stop ∧ stunnel p = true := by
            refine hstops.imp_right ?_
            rintro ⟨p, hlo, hup, hp⟩
            refine ⟨p, ?_, hup, hp⟩
            have hne : start.toNat ≠ p.toNat := by
              intro heq
              rw [UInt16.toNat_inj.mp heq, hp] at hstart
              cases hstart
            rw [UInt16.le_iff_toNat_le] at hlo ⊢
            omega
          obtain ⟨fuel, o, hrun, inside, once, failure⟩ :=
            ih hle' hstops' (by omega) (UInt16.le_iff_toNat_le.mp hle')
          refine ⟨fuel + 1, o.prepend [start], ?_, ?_, ?_, ?_⟩
          · simp only [climb_next hle hstart, hrun, Option.map_some]
          · intro p hp
            rcases List.mem_cons.mp hp with rfl | hp
            · exact ⟨UInt16.le_refl p, hle⟩
            · obtain ⟨hlo, hup⟩ := inside p hp
              rw [UInt16.le_iff_toNat_le] at hlo
              exact ⟨UInt16.le_iff_toNat_le.mpr (by omega), hup⟩
          · refine List.nodup_cons.mpr ⟨fun hp => ?_, once⟩
            have hlo := UInt16.le_iff_toNat_le.mp (inside start hp).1
            omega
          · intro hnone p hlo hup
            by_cases heq : p = start
            · exact heq ▸ List.mem_cons_self
            · refine List.mem_cons_of_mem _ (failure hnone p ?_ hup)
              have hne : p.toNat ≠ start.toNat := fun h => heq (UInt16.toNat_inj.mp h)
              rw [UInt16.le_iff_toNat_le] at hlo ⊢
              omega

/-- Up to the largest number the loop only ends with a tunnel. -/
theorem climb_accepts (hrun : climb stunnel fuel start 65535 = some o) :
    ∃ p ∈ o.tried, stunnel p = true := by
  induction fuel generalizing start o with
  | zero => cases hrun
  | succ fuel ih =>
      have hle : start ≤ 65535 := by
        rw [UInt16.le_iff_toNat_le]
        have hlt := start.toNat_lt
        have hconst : (65535 : UInt16).toNat = 65535 := rfl
        omega
      cases hstart : stunnel start with
      | true =>
          rw [climb_accept hle hstart] at hrun
          cases hrun
          exact ⟨start, by simp, hstart⟩
      | false =>
          rw [climb_next hle hstart] at hrun
          obtain ⟨o', ho', rfl⟩ := Option.map_eq_some_iff.mp hrun
          obtain ⟨p, hp, hstarted⟩ := ih ho'
          exact ⟨p, List.mem_cons_of_mem _ hp, hstarted⟩

/-- The search in ascending order. -/
theorem secureStart_iff (server : Bool) (stunnel : UInt16 → Bool) (hle : start ≤ stop) :
    Fulfils start stop (secureStart server stunnel start stop) ↔
      server = true ∧ (stop ≠ 65535 ∨ ∃ p, start ≤ p ∧ p ≤ stop ∧ stunnel p = true) := by
  cases server with
  | false =>
      refine ⟨?_, fun h => by cases h.1⟩
      rintro ⟨fuel, o, hrun, searches⟩
      cases hrun
      have hmem := searches.failure rfl start (UInt16.le_refl start) hle
      cases hmem
  | true =>
      rw [and_iff_right rfl]
      refine ⟨fun ⟨fuel, o, hrun, searches⟩ => ?_, climb_fulfils hle⟩
      by_cases hstop : stop = 65535
      · subst hstop
        obtain ⟨p, hp, hstarted⟩ := climb_accepts hrun
        obtain ⟨hlo, hup⟩ := searches.inside p hp
        exact .inr ⟨p, hlo, hup, hstarted⟩
      · exact .inl hstop

end Climb

/-! ## Both searches -/

/-- Each search keeps its promises just when no 16 bit number of it wraps, no port is drawn twice
and the server behind the tunnel starts. -/
theorem searches_iff {lower upper : UInt16} (hle : lower ≤ upper) (tunnel : UInt16 → Bool) :
    (∀ d, Uniform lower upper d → (Fulfils lower upper (startStunnel tunnel d lower upper) ↔
      ¬ Full lower upper ∧ NoneTwice tunnel d lower upper)) ∧
    ∀ server, Fulfils lower upper (secureStart server tunnel lower upper) ↔
      server = true ∧ (upper ≠ 65535 ∨ ∃ p, lower ≤ p ∧ p ≤ upper ∧ tunnel p = true) :=
  ⟨fun _ uniform => startStunnel_iff hle uniform, fun server => secureStart_iff server tunnel hle⟩

/-- No tunnel starts on the two last ports; the second number that is drawn is the first one
again. -/
theorem searches_none_twice :
    Fulfils 5900 5901 (secureStart true (fun _ => false) 5900 5901) ∧
      ¬ Fulfils 5900 5901
        (startStunnel (fun _ => false) (fun i => if i < 2 then 5900 else 5901) 5900 5901) := by
  have hle : (5900 : UInt16) ≤ 5901 := by decide
  have hiff := searches_iff hle fun _ => false
  have hports : ∀ p : UInt16, 5900 ≤ p → p ≤ 5901 → p = 5900 ∨ p = 5901 := by
    intro p hlo hup
    rw [UInt16.le_iff_toNat_le] at hlo hup
    have h0 : (5900 : UInt16).toNat = 5900 := rfl
    have h1 : (5901 : UInt16).toNat = 5901 := rfl
    by_cases hp : p.toNat = 5900
    · exact .inl (UInt16.toNat_inj.mp hp)
    · exact .inr (UInt16.toNat_inj.mp (by omega))
  refine ⟨(hiff.2 true).mpr ⟨rfl, .inl (by decide)⟩, fun h => ?_⟩
  have uniform : Uniform 5900 5901 fun i => if i < 2 then (5900 : UInt16) else 5901 := by
    constructor
    case inside =>
      intro i
      split
      · decide
      · decide
    case all =>
      intro p hlo hup
      rcases hports p hlo hup with rfl | rfl
      · exact ⟨0, rfl⟩
      · exact ⟨2, rfl⟩
  obtain ⟨_, hnone⟩ := (hiff.1 _ uniform).mp h
  rcases hnone 0 1 (by decide) rfl with ⟨k, _, hk⟩ | hcover
  · cases hk
  · obtain ⟨k, hk, hp⟩ := hcover 5901 (by decide) (by decide)
    have hk0 : k = 0 := by omega
    subst hk0
    exact absurd hp (by decide)

/-- Of the full range no port is tried, and above 65535 the other loop starts again at 0. -/
theorem searches_wrap :
    startStunnel (fun _ => true) (fun i => UInt16.ofNat i) 0 65535 1 = some ⟨[], none⟩ ∧
      climb (fun p => p = 0) 3 65534 65535 = some ⟨[65534, 65535, 0], some 0⟩ ∧
      ¬ Fulfils 65534 65535 (secureStart true (fun p => p = 0) 65534 65535) := by
  refine ⟨by decide, by decide, fun h => ?_⟩
  have hle : (65534 : UInt16) ≤ 65535 := by decide
  have hiff := secureStart_iff true (fun p => p = 0) hle
  rcases (hiff.mp h).2 with hne | ⟨p, hlo, _, hp⟩
  · exact hne rfl
  · have hzero : p = 0 := by simpa using hp
    subst hzero
    exact absurd hlo (by decide)

end DispService.Vnc.Ports
