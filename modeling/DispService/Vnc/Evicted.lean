import Mathlib.Data.List.Nodup
import DispService.Vnc.Driver

/-! The driver's promises hold through a run just when no signal of a tunnel
comes where the driver does not expect it. -/
namespace DispService.Vnc.Driver

open DispService.Lib

variable {d : Driver} {t : Nat} {f : Tunnel → Tunnel}

@[simp]
theorem modify_self : (d.modify t f).tunnels t = f (d.tunnels t) := by
  unfold modify
  exact if_pos rfl

theorem modify_other {x : Nat} (h : x ≠ t) : (d.modify t f).tunnels x = d.tunnels x := by
  unfold modify
  exact if_neg h

/-- Where the liquidator stands. -/
inductive Phase (d : Driver) : Prop where
  | before (liquidator : d.liquidator = false) (executed : d.executed = 0)
      (watched : ∀ x, (d.tunnels x).watched = false)
  | launching (liquidator : d.liquidator = true) (executed : d.executed = 0)
      (starting : d.starting ≠ none) (active : d.active = none)
      (watched : ∀ x, (d.tunnels x).watched = false)
  | watching (t : Nat) (liquidator : d.liquidator = true) (executed : d.executed = 0)
      (starting : d.starting = none) (active : d.active = none ∨ d.active = some t)
      (present : t < d.adopted ∧ t ∉ d.ripped)
      (watched : ∀ x, (d.tunnels x).watched = true ↔ x = t)
  | done (liquidator : d.liquidator = true) (executed : d.executed = 1)
      (starting : d.starting = none) (active : d.active = none)
      (watched : ∀ x, (d.tunnels x).watched = true → x ∈ d.ripped)

/-- A tunnel has raised `ripped` once it has neither process nor socket. -/
def Gone (d : Driver) (t : Nat) : Prop :=
  t < d.adopted ∧ (d.tunnels t).stunnel = false ∧ (d.tunnels t).keepAlive = false

structure Base (d : Driver) : Prop where
  alone : d.starting = none ∨ d.active = none
  fresh : ∀ t, d.adopted ≤ t → d.tunnels t = {}
  exits : ∀ t, (d.tunnels t).stunnel = !(d.tunnels t).finished
  once : d.ripped.Nodup
  rips : ∀ t, t ∈ d.ripped ↔ d.Gone t
  own : d.misplaced = 0
  scripts : ∀ s < d.scripts, s ∈ d.launched ∨ s ∈ d.replaced ∨ d.pending = some s
  prompt : d.pending ≠ none → d.liquidator = true ∨ d.active ≠ none ∨ d.starting ≠ none
  late : d.late = 0

structure Inv (d : Driver) : Prop where
  base : Base d
  active : ∀ t, d.active = some t → t < d.adopted ∧ t ∉ d.ripped
  phase : Phase d

theorem start_base : Base {} where
  alone := .inl rfl
  fresh := fun _ _ => rfl
  exits := fun _ => rfl
  once := List.nodup_nil
  rips := by
    intro t
    refine iff_of_false (fun hno => by cases hno) (fun hno => ?_)
    exact absurd hno.1 (Nat.not_lt_zero t)
  own := rfl
  scripts := by
    intro s hs
    exact absurd hs (Nat.not_lt_zero s)
  prompt := fun hno => absurd rfl hno
  late := rfl

theorem start_inv : Inv {} :=
  ⟨start_base, (fun _ hno => by cases hno), .before rfl rfl fun _ => rfl⟩

theorem Inv.kept (h : Inv d) : Kept d where
  alone := h.base.alone
  once := h.base.once
  own := h.base.own
  scripts := h.base.scripts
  prompt := h.base.prompt
  late := h.base.late
  executed := by
    cases h.phase with
    | before _ executed => omega
    | launching _ executed => omega
    | watching _ _ executed => omega
    | done _ executed => omega
  gone := by
    intro hpositive
    cases h.phase with
    | before _ executed => omega
    | launching _ executed => omega
    | watching _ _ executed => omega
    | done _ _ starting active => exact ⟨starting, active⟩
  ended := by
    intro hliquidator hstarting hall
    cases h.phase with
    | before liquidator =>
        rw [liquidator] at hliquidator
        cases hliquidator
    | launching _ _ starting => exact absurd hstarting starting
    | watching t _ _ _ _ present => exact absurd (hall t present.1) present.2
    | done _ executed => exact executed

/-- What an eviction in its place does: nothing, or the active tunnel gives way to
a script that waits. -/
theorem evict_placed (h : d.Placed t) :
    (d.active = none ∧ d.evict t = d) ∨
    (d.active = some t ∧ d.pending = none ∧ d.evict t = { d with active := none }) ∨
    (d.active = some t ∧ d.liquidator = false ∧ ∃ s, d.pending = some s ∧
      d.evict t = { d with
        active := none, starting := some s, pending := none,
        launched := d.launched ++ [s] }) := by
  unfold evict
  rcases h with hactive | ⟨hactive, hpending⟩
  · rw [hactive]
    exact .inl ⟨rfl, rfl⟩
  · rw [hactive]
    cases hs : d.pending with
    | none =>
        refine .inr (.inl ⟨rfl, rfl, ?_⟩)
        simp
    | some s =>
        have hliquidator : d.liquidator = false := by
          cases hl : d.liquidator with
          | false => rfl
          | true =>
              rw [hpending hl] at hs
              cases hs
        refine .inr (.inr ⟨rfl, hliquidator, s, rfl, ?_⟩)
        simp [launch, hliquidator]

/-- An eviction out of its place shows. -/
theorem evict_unplaced (h : ¬ d.Placed t) :
    (d.evict t).misplaced ≠ 0 ∨ (d.evict t).late ≠ 0 := by
  unfold Placed at h
  unfold evict
  cases hactive : d.active with
  | none => exact absurd (.inl hactive) h
  | some a =>
      dsimp only
      by_cases ha : a = t
      · subst ha
        have hpending : d.liquidator = true ∧ d.pending ≠ none := by
          by_contra hno
          refine h (.inr ⟨hactive, fun hl => ?_⟩)
          by_contra hp
          exact hno ⟨hl, hp⟩
        obtain ⟨s, hs⟩ := Option.ne_none_iff_exists'.mp hpending.2
        refine .inr ?_
        simp [hs, launch, hpending.1]
      · refine .inl ?_
        cases d.pending <;> simp [launch, ha]

theorem evict_ripped : (d.evict t).ripped = d.ripped := by
  unfold evict
  cases d.active with
  | none => rfl
  | some a =>
      dsimp only
      cases d.pending <;> simp [launch]

theorem rip_ripped : (d.rip t).ripped = d.ripped ++ [t] := by
  unfold rip
  dsimp only
  split
  · exact evict_ripped
  · exact evict_ripped

theorem rip_unplaced (h : ¬ d.Placed t) : (d.rip t).misplaced ≠ 0 ∨ (d.rip t).late ≠ 0 := by
  have hevict := evict_unplaced (d := { d with ripped := d.ripped ++ [t] }) (t := t) h
  unfold rip
  dsimp only
  split
  · exact hevict
  · exact hevict

theorem Base.evict (h : Base d) (placed : d.Placed t) : Base (d.evict t) := by
  rcases evict_placed placed with ⟨-, hsame⟩ | ⟨hactive, hpending, hevict⟩ |
    ⟨hactive, hliquidator, s, hpending, hevict⟩
  · rw [hsame]
    exact h
  · rw [hevict]
    exact ⟨.inr rfl, h.fresh, h.exits, h.once, h.rips, h.own, h.scripts, fun hno => absurd hpending hno, h.late⟩
  · rw [hevict]
    refine ⟨.inr rfl, h.fresh, h.exits, h.once, h.rips, h.own, ?_, fun hno => absurd rfl hno, h.late⟩
    intro x hx
    rcases h.scripts x hx with hl | hr | hp
    · exact .inl (List.mem_append_left _ hl)
    · exact .inr (.inl hr)
    · rw [hpending] at hp
      obtain rfl := Option.some.inj hp
      exact .inl (by simp)

/-- What an eviction in its place means to the liquidator. -/
structure Deactivated (d e : Driver) : Prop where
  liquidator : e.liquidator = d.liquidator
  executed : e.executed = d.executed
  tunnels : e.tunnels = d.tunnels
  adopted : e.adopted = d.adopted
  ripped : e.ripped = d.ripped
  active : e.active = none
  starting : e.starting = d.starting ∨ d.liquidator = false

theorem evict_deactivated (placed : d.Placed t) : Deactivated d (d.evict t) := by
  rcases evict_placed placed with ⟨hactive, hsame⟩ | ⟨-, -, hevict⟩ |
    ⟨-, hliquidator, s, -, hevict⟩
  · rw [hsame]
    exact ⟨rfl, rfl, rfl, rfl, rfl, hactive, .inl rfl⟩
  · rw [hevict]
    exact ⟨rfl, rfl, rfl, rfl, rfl, rfl, .inl rfl⟩
  · rw [hevict]
    exact ⟨rfl, rfl, rfl, rfl, rfl, rfl, .inr hliquidator⟩

/-- Without an active tunnel there is nothing to say of it. -/
theorem Deactivated.idle {e : Driver} (h : Deactivated d e) {p : Nat → Prop} (x : Nat)
    (hx : e.active = some x) : p x := by
  rw [h.active] at hx
  cases hx

theorem Deactivated.same_starting {e : Driver} (h : Deactivated d e)
    (liquidator : d.liquidator = true) : e.starting = d.starting := by
  rcases h.starting with hsame | hno
  · exact hsame
  · rw [liquidator] at hno
    cases hno

theorem Phase.deactivate {e : Driver} (h : Phase d) (gone : Deactivated d e) : Phase e := by
  cases h with
  | before liquidator executed watched =>
      refine .before (gone.liquidator.trans liquidator) (gone.executed.trans executed) ?_
      rw [gone.tunnels]
      exact watched
  | launching liquidator executed starting active watched =>
      refine .launching (gone.liquidator.trans liquidator) (gone.executed.trans executed) ?_
        gone.active ?_
      · rw [gone.same_starting liquidator]
        exact starting
      · rw [gone.tunnels]
        exact watched
  | watching x liquidator executed starting active present watched =>
      refine .watching x (gone.liquidator.trans liquidator) (gone.executed.trans executed)
        ((gone.same_starting liquidator).trans starting) (.inl gone.active) ?_ ?_
      · rw [gone.adopted, gone.ripped]
        exact present
      · rw [gone.tunnels]
        exact watched
  | done liquidator executed starting active watched =>
      refine .done (gone.liquidator.trans liquidator) (gone.executed.trans executed)
        ((gone.same_starting liquidator).trans starting) gone.active ?_
      rw [gone.tunnels, gone.ripped]
      exact watched

/-- A tunnel raises `closed`. -/
theorem Inv.close (h : Inv d) (placed : (d.tunnels t).collapsing = true → d.Placed t) :
    Inv (d.close t) := by
  unfold Driver.close
  split
  · rename_i hcollapsing
    exact ⟨h.base.evict (placed hcollapsing), (evict_deactivated (placed hcollapsing)).idle,
      h.phase.deactivate (evict_deactivated (placed hcollapsing))⟩
  · exact h

/-- A tunnel raises `ripped`; `d` is the driver with it already in the list. -/
theorem rip_inv (base : Base { d with ripped := d.ripped ++ [t] }) (phase : Phase d)
    (placed : d.Placed t) (absent : t ∉ d.ripped) : Inv (d.rip t) := by
  have gone : Deactivated { d with ripped := d.ripped ++ [t] }
      (evict { d with ripped := d.ripped ++ [t] } t) := evict_deactivated placed
  have hbase : Base (evict { d with ripped := d.ripped ++ [t] } t) := base.evict placed
  unfold rip
  dsimp only
  generalize evict { d with ripped := d.ripped ++ [t] } t = e at gone hbase
  have htunnels : e.tunnels = d.tunnels := gone.tunnels
  have hliquidator : e.liquidator = d.liquidator := gone.liquidator
  have hexecuted : e.executed = d.executed := gone.executed
  have hripped : e.ripped = d.ripped ++ [t] := gone.ripped
  have hadopted : e.adopted = d.adopted := gone.adopted
  by_cases hwatched : (e.tunnels t).watched = true
  · rw [if_pos hwatched]
    refine ⟨⟨hbase.alone, hbase.fresh, hbase.exits, hbase.once, hbase.rips, hbase.own,
      hbase.scripts, hbase.prompt, hbase.late⟩, gone.idle, ?_⟩
    rw [htunnels] at hwatched
    cases phase with
    | before _ _ watched =>
        rw [watched t] at hwatched
        cases hwatched
    | launching _ _ _ _ watched =>
        rw [watched t] at hwatched
        cases hwatched
    | watching x liquidator executed starting _ _ watched =>
        obtain rfl := (watched t).mp hwatched
        refine .done (hliquidator.trans liquidator) ?_
          ((gone.same_starting liquidator).trans starting) gone.active ?_
        · unfold execute
          rw [hexecuted, executed]
        · intro y hy
          unfold execute at hy ⊢
          rw [htunnels] at hy
          rw [(watched y).mp hy, hripped]
          simp
    | done _ _ _ _ watched => exact absurd (watched t hwatched) absent
  · rw [if_neg hwatched]
    refine ⟨hbase, gone.idle, ?_⟩
    rw [htunnels] at hwatched
    cases phase with
    | before liquidator executed watched =>
        refine .before (hliquidator.trans liquidator) (hexecuted.trans executed) ?_
        rw [htunnels]
        exact watched
    | launching liquidator executed starting _ watched =>
        refine .launching (hliquidator.trans liquidator) (hexecuted.trans executed) ?_
          gone.active ?_
        · rw [gone.same_starting liquidator]
          exact starting
        · rw [htunnels]
          exact watched
    | watching x liquidator executed starting _ present watched =>
        have hne : x ≠ t := fun heq => hwatched ((watched t).mpr heq.symm)
        refine .watching x (hliquidator.trans liquidator) (hexecuted.trans executed)
          ((gone.same_starting liquidator).trans starting) (.inl gone.active) ?_ ?_
        · rw [hadopted, hripped]
          refine ⟨present.1, fun hin => ?_⟩
          cases List.mem_append.mp hin with
          | inl hold => exact present.2 hold
          | inr hnew => exact hne (List.mem_singleton.mp hnew)
        · rw [htunnels]
          exact watched
    | done liquidator executed starting _ watched =>
        refine .done (hliquidator.trans liquidator) (hexecuted.trans executed)
          ((gone.same_starting liquidator).trans starting) gone.active ?_
        rw [htunnels, hripped]
        exact fun x hx => List.mem_append_left _ (watched x hx)

end DispService.Vnc.Driver
