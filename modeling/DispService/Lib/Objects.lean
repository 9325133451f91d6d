import Mathlib.Data.List.Nodup
import Mathlib.Logic.Function.Basic

/-! A list of references to objects. The object that satisfies a test is looked for from the front
and changed in place, and a new one is added where there is none. -/
namespace DispService.Lib

/-- The objects by their addresses, and the addresses listed. -/
structure Objects (α : Type*) where
  heap : Nat → α
  refs : List Nat

namespace Objects

variable {α κ : Type*} {p q : α → Bool} {f g : α → α} {a b : α} {r : Nat} {s t : Objects α}

/-- An address that is not listed. -/
def fresh (s : Objects α) : Nat :=
  s.refs.foldr max 0 + 1

def first (s : Objects α) (p : α → Bool) : Option Nat :=
  s.refs.find? fun r => p (s.heap r)

def put (s : Objects α) (r : Nat) (f : α → α) : Objects α :=
  { s with heap := Function.update s.heap r (f (s.heap r)) }

def append (s : Objects α) (r : Nat) : Objects α :=
  { s with refs := s.refs ++ [r] }

/-- A new object at an address of its own. -/
def alloc (s : Objects α) (a : α) : Objects α :=
  { s with heap := Function.update s.heap s.fresh a }

/-- A new object, listed. -/
def push (s : Objects α) (a : α) : Objects α :=
  (s.alloc a).append s.fresh

/-- The first object that satisfies the test, or else a new one, is changed. -/
def ensure (p : α → Bool) (a : α) (f : α → α) (s : Objects α) : Objects α :=
  match s.first p with
  | some r => s.put r f
  | none => s.push (f a)

theorem le_of_mem {l : List Nat} (h : r ∈ l) : r ≤ l.foldr max 0 := by
  induction l with
  | nil => cases h
  | cons x l ih =>
    rw [List.foldr_cons]
    obtain rfl | h := List.mem_cons.mp h
    · omega
    · have hle := ih h
      omega

theorem ne_fresh (h : r ∈ s.refs) : r ≠ s.fresh := by
  have hle := le_of_mem h
  unfold fresh
  omega

theorem first_mem (h : s.first p = some r) : r ∈ s.refs :=
  List.mem_of_find?_eq_some h

theorem first_holds (h : s.first p = some r) : p (s.heap r) = true :=
  List.find?_some (p := fun r => p (s.heap r)) h

@[simp] theorem put_refs : (s.put r f).refs = s.refs := rfl

@[simp] theorem put_heap_self : (s.put r f).heap r = f (s.heap r) := by
  simp [put]

theorem put_heap_ne {x : Nat} (h : x ≠ r) : (s.put r f).heap x = s.heap x := by
  simp [put, h]

theorem put_fixed (h : f (s.heap r) = s.heap r) : s.put r f = s := by
  rw [put, h, Function.update_eq_self]

@[simp] theorem push_refs : (s.push a).refs = s.refs ++ [s.fresh] := rfl

@[simp] theorem push_heap_fresh : (s.push a).heap s.fresh = a := by
  simp [push, append, alloc]

theorem push_heap_ne {x : Nat} (h : x ≠ s.fresh) : (s.push a).heap x = s.heap x := by
  simp [push, append, alloc, h]

/-- A change that the test does not see. -/
theorem first_put (h : q (f (s.heap r)) = q (s.heap r)) : (s.put r f).first q = s.first q := by
  unfold first
  rw [put_refs]
  congr 1
  funext x
  by_cases hx : x = r
  · rw [hx, put_heap_self, h]
  · rw [put_heap_ne hx]

theorem find_push (l : List Nat) (h : ∀ x ∈ l, x ∈ s.refs) :
    (l.find? fun x => q ((s.push a).heap x)) = l.find? fun x => q (s.heap x) := by
  induction l with
  | nil => rfl
  | cons x l ih =>
    have hx : x ≠ s.fresh := ne_fresh (h x (List.mem_cons_self ..))
    rw [List.find?_cons, List.find?_cons, push_heap_ne hx,
      ih fun y hy => h y (List.mem_cons_of_mem _ hy)]

theorem first_push : (s.push a).first q = (s.first q).or (if q a then some s.fresh else none) := by
  unfold first
  rw [push_refs, List.find?_append, find_push _ fun _ h => h]
  simp only [List.find?_cons, push_heap_fresh, List.find?_nil]
  cases q a <;> rfl

theorem ensure_found (h : s.first p = some r) : ensure p a f s = s.put r f := by
  rw [ensure, h]

theorem ensure_new (h : s.first p = none) : ensure p a f s = s.push (f a) := by
  rw [ensure, h]

/-- The first object that satisfies the test is as the change leaves it. -/
def Held (p : α → Bool) (f : α → α) (s : Objects α) : Prop :=
  ∃ r, s.first p = some r ∧ f (s.heap r) = s.heap r

/-- Where the object is as the change leaves it, nothing is done. -/
theorem Held.ensure (h : Held p f s) : ensure p a f s = s := by
  obtain ⟨r, hr, hfix⟩ := h
  rw [ensure_found hr, put_fixed hfix]

theorem held_ensure (hp : ∀ x, p (f x) = true) (hf : ∀ x, f (f x) = f x) :
    Held p f (ensure p a f s) := by
  cases hr : s.first p with
  | some r =>
    refine ⟨r, ?_, ?_⟩
    · rw [ensure_found hr, first_put ((hp _).trans (first_holds hr).symm), hr]
    · rw [ensure_found hr, put_heap_self, hf]
  | none =>
    refine ⟨s.fresh, ?_, ?_⟩
    · rw [ensure_new hr, first_push, hr, hp, if_pos rfl]
      rfl
    · rw [ensure_new hr, push_heap_fresh, hf]

/-- A search by a test that no object changed here satisfies, before or after. -/
theorem first_ensure (hpq : ∀ x, p x = true → q x = false) (hq : ∀ x, q (f x) = false) :
    (ensure p a f s).first q = s.first q := by
  cases hr : s.first p with
  | some r =>
    rw [ensure_found hr, first_put ((hq _).trans (hpq _ (first_holds hr)).symm)]
  | none =>
    rw [ensure_new hr, first_push, hq, if_neg Bool.false_ne_true, Option.or_none]

theorem heap_ensure (hpq : ∀ x, p x = true → q x = false) (hr : s.first q = some r) :
    (ensure p a f s).heap r = s.heap r := by
  cases hp : s.first p with
  | some x =>
    have hne : r ≠ x := by
      rintro rfl
      have hfalse := hpq _ (first_holds hp)
      rw [first_holds hr] at hfalse
      cases hfalse
    rw [ensure_found hp, put_heap_ne hne]
  | none => rw [ensure_new hp, push_heap_ne (ne_fresh (first_mem hr))]

/-- Objects of another test stay as they are left. -/
theorem Held.other (h : Held q g s) (hpq : ∀ x, p x = true → q x = false)
    (hq : ∀ x, q (f x) = false) : Held q g (Objects.ensure p a f s) := by
  obtain ⟨r, hr, hfix⟩ := h
  exact ⟨r, (first_ensure hpq hq).trans hr, by rw [heap_ensure hpq hr, hfix]⟩

/-- A new object at the end does not stand before the one found. -/
theorem Held.push (h : Held p f s) : Held p f (s.push a) := by
  obtain ⟨r, hr, hfix⟩ := h
  refine ⟨r, ?_, by rw [push_heap_ne (ne_fresh (first_mem hr)), hfix]⟩
  rw [first_push, hr, Option.some_or]

section Keys

variable {key : α → κ} {blank d : κ}

/-- No object is listed twice, and no key. -/
structure Distinct (key : α → κ) (s : Objects α) : Prop where
  refs : s.refs.Nodup
  keys : (s.refs.map fun r => key (s.heap r)).Nodup

/-- An object listed twice, or two that share a key that is set. -/
def Clash (key : α → κ) (blank : κ) (s : Objects α) : Prop :=
  ¬ s.refs.Nodup ∨ ∃ x ∈ s.refs, ∃ y ∈ s.refs, x ≠ y ∧ key (s.heap x) = key (s.heap y) ∧
    key (s.heap x) ≠ blank

/-- All objects stay listed, in their order, and no key that is set changes. -/
structure Kept (key : α → κ) (blank : κ) (s t : Objects α) : Prop where
  refs : s.refs <+: t.refs
  keys : ∀ r ∈ s.refs, key (s.heap r) ≠ blank → key (t.heap r) = key (s.heap r)

theorem Kept.refl : Kept key blank s s :=
  ⟨List.prefix_rfl, fun _ _ _ => rfl⟩

theorem Kept.trans {u : Objects α} (h : Kept key blank s t) (h' : Kept key blank t u) :
    Kept key blank s u := by
  refine ⟨h.refs.trans h'.refs, ?_⟩
  intro r hr hset
  have hkey := h.keys r hr hset
  rw [h'.keys r (h.refs.subset hr) (hkey ▸ hset), hkey]

theorem Distinct.eq (h : Distinct key s) {x y : Nat} (hx : x ∈ s.refs) (hy : y ∈ s.refs)
    (heq : key (s.heap x) = key (s.heap y)) : x = y :=
  List.inj_on_of_nodup_map h.keys hx hy heq

theorem Distinct.of_eq (hrefs : s.refs.Nodup)
    (h : ∀ x ∈ s.refs, ∀ y ∈ s.refs, key (s.heap x) = key (s.heap y) → x = y) :
    Distinct key s := by
  refine ⟨hrefs, List.Nodup.map_on ?_ hrefs⟩
  intro x hx y hy heq
  exact h x hx y hy heq

theorem Clash.not_distinct (h : Clash key blank s) : ¬ Distinct key s := by
  intro distinct
  obtain hrefs | ⟨x, hx, y, hy, hne, heq, -⟩ := h
  · exact hrefs distinct.refs
  · exact hne (distinct.eq hx hy heq)

theorem Clash.kept (h : Clash key blank s) (kept : Kept key blank s t) : Clash key blank t := by
  obtain hrefs | ⟨x, hx, y, hy, hne, heq, hset⟩ := h
  · exact .inl fun hnodup => hrefs (hnodup.sublist kept.refs.sublist)
  · have hkx := kept.keys x hx hset
    have hky := kept.keys y hy (heq ▸ hset)
    exact .inr ⟨x, kept.refs.subset hx, y, kept.refs.subset hy, hne, by rw [hkx, hky, heq],
      by rwa [hkx]⟩

theorem kept_push : Kept key blank s (s.push a) := by
  refine ⟨List.prefix_append .., ?_⟩
  intro r hr _
  rw [push_heap_ne (ne_fresh hr)]

/-- A new object with a key that no other one has. -/
theorem Distinct.push (h : Distinct key s) (hkey : ∀ r ∈ s.refs, key (s.heap r) ≠ key a) :
    Distinct key (s.push a) := by
  refine Distinct.of_eq ?_ ?_
  · rw [push_refs, List.nodup_append]
    refine ⟨h.refs, List.nodup_singleton _, ?_⟩
    intro x hx y hy
    rw [List.mem_singleton.mp hy]
    exact ne_fresh hx
  · intro x hx y hy heq
    rw [push_refs, List.mem_append, List.mem_singleton] at hx hy
    obtain hx | rfl := hx <;> obtain hy | rfl := hy
    · rw [push_heap_ne (ne_fresh hx), push_heap_ne (ne_fresh hy)] at heq
      exact h.eq hx hy heq
    · rw [push_heap_ne (ne_fresh hx), push_heap_fresh] at heq
      exact absurd heq (hkey x hx)
    · rw [push_heap_fresh, push_heap_ne (ne_fresh hy)] at heq
      exact absurd heq.symm (hkey y hy)
    · rfl

/-- A new object with the key of another one. -/
theorem clash_push (hr : r ∈ s.refs) (hkey : key (s.heap r) = key a) (hset : key a ≠ blank) :
    Clash key blank (s.push a) := by
  have hmem : r ∈ (s.push a).refs := List.mem_append_left _ hr
  refine .inr ⟨r, hmem, s.fresh, by simp, ne_fresh hr, ?_, ?_⟩
  · rw [push_heap_ne (ne_fresh hr), push_heap_fresh, hkey]
  · rwa [push_heap_ne (ne_fresh hr), hkey]

section Default

variable [DecidableEq κ]

/-- The key `d` can be given: the object found has a key, or no object has this one. -/
def Free (p : α → Bool) (key : α → κ) (blank d : κ) (s : Objects α) : Prop :=
  (∃ r, s.first p = some r ∧ key (s.heap r) ≠ blank) ∨ ∀ r ∈ s.refs, key (s.heap r) ≠ d

/-- The change gives the key `d` where none is set, and keeps it elsewhere. -/
def Names (key : α → κ) (blank d : κ) (f : α → α) : Prop :=
  ∀ x, key (f x) = if key x = blank then d else key x

theorem kept_ensure (names : Names key blank d f) : Kept key blank s (ensure p a f s) := by
  cases hr : s.first p with
  | some r =>
    rw [ensure_found hr]
    refine ⟨List.prefix_rfl, ?_⟩
    intro x _ hset
    by_cases hx : x = r
    · rw [hx] at hset ⊢
      rw [put_heap_self, names, if_neg hset]
    · rw [put_heap_ne hx]
  | none =>
    rw [ensure_new hr]
    exact kept_push

theorem put_key (names : Names key blank d f) (x : Nat) :
    key ((s.put r f).heap x) =
      if x = r ∧ key (s.heap x) = blank then d else key (s.heap x) := by
  by_cases hx : x = r
  · rw [hx, put_heap_self, names]
    simp
  · rw [put_heap_ne hx, if_neg fun h => hx h.1]

theorem Distinct.ensure (h : Distinct key s) (names : Names key blank d f) (ha : key a = blank)
    (free : Free p key blank d s) : Distinct key (ensure p a f s) := by
  cases hr : s.first p with
  | some r =>
    rw [ensure_found hr]
    refine Distinct.of_eq h.refs ?_
    intro x hx y hy heq
    rw [put_key names, put_key names] at heq
    obtain ⟨r', hr', hset⟩ | hd := free
    · cases hr.symm.trans hr'
      rw [if_neg (by rintro ⟨rfl, hb⟩; exact hset hb),
        if_neg (by rintro ⟨rfl, hb⟩; exact hset hb)] at heq
      exact h.eq hx hy heq
    · split at heq
      · next hxr =>
        split at heq
        · next hyr => exact hxr.1.trans hyr.1.symm
        · exact absurd heq.symm (hd y hy)
      · split at heq
        · exact absurd heq (hd x hx)
        · exact h.eq hx hy heq
  | none =>
    rw [ensure_new hr]
    apply h.push
    intro x hx
    rw [names, if_pos ha]
    obtain ⟨r', hr', -⟩ | hd := free
    · cases hr.symm.trans hr'
    · exact hd x hx

/-- Another key is as free as it was. -/
theorem unused_ensure (names : Names key blank d f) (ha : key a = blank) {e : κ} (hd : e ≠ d)
    (hblank : e ≠ blank) :
    (∀ r ∈ (ensure p a f s).refs, key ((ensure p a f s).heap r) ≠ e) ↔
      ∀ r ∈ s.refs, key (s.heap r) ≠ e := by
  cases hr : s.first p with
  | some r =>
    rw [ensure_found hr]
    refine forall₂_congr fun x _ => not_congr ?_
    rw [put_key names]
    split
    · next h =>
      rw [h.2]
      exact iff_of_false hd.symm hblank.symm
    · exact Iff.rfl
  | none =>
    rw [ensure_new hr, push_refs]
    constructor
    · intro h x hx
      rw [← push_heap_ne (a := f a) (ne_fresh hx)]
      exact h x (List.mem_append_left _ hx)
    · intro h x hx
      obtain hx | hx := List.mem_append.mp hx
      · rw [push_heap_ne (ne_fresh hx)]
        exact h x hx
      · rw [List.mem_singleton.mp hx, push_heap_fresh, names, if_pos ha]
        exact hd.symm

/-- Whether a key can be given to an object is not changed by giving another key to another one. -/
theorem free_ensure (names : Names key blank d f) (ha : key a = blank) {e : κ} (hd : e ≠ d)
    (hblank : e ≠ blank) (hpq : ∀ x, p x = true → q x = false) (hq : ∀ x, q (f x) = false) :
    Free q key blank e (ensure p a f s) ↔ Free q key blank e s := by
  unfold Free
  rw [unused_ensure names ha hd hblank, first_ensure hpq hq]
  refine or_congr_left (exists_congr fun r => and_congr_right fun hr => ?_)
  rw [heap_ensure hpq hr]

theorem clash_ensure (names : Names key blank d f) (ha : key a = blank) (hd : d ≠ blank)
    (taken : ¬ Free p key blank d s) : Clash key blank (ensure p a f s) := by
  unfold Free at taken
  push Not at taken
  obtain ⟨hblank, x, hx, hkey⟩ := taken
  cases hr : s.first p with
  | some r =>
    have hkr : key (s.heap r) = blank := hblank r hr
    have hne : x ≠ r := by
      rintro rfl
      exact hd (hkey.symm.trans hkr)
    rw [ensure_found hr]
    refine .inr ⟨x, hx, r, (first_mem hr : r ∈ s.refs), hne, ?_, ?_⟩
    · rw [put_heap_ne hne, put_heap_self, names, if_pos hkr, hkey]
    · rwa [put_heap_ne hne, hkey]
  | none =>
    rw [ensure_new hr]
    have hfa : key (f a) = d := by rw [names, if_pos ha]
    exact clash_push hx (hkey.trans hfa.symm) (hfa ▸ hd)

end Default

end Keys

end Objects

end DispService.Lib
