import Mathlib.Logic.Relation

/-! Programs that ask their surroundings. The surroundings also change on their own between two
calls, so that a condition that holds at one call is there at the next only if it is stable. -/
namespace DispService.Lib

universe u v w

/-- A program is what it returns, or a call and what it does with each reply. -/
inductive Dialog (Ask : Type u) (Reply : Ask → Type v) (α : Type w) where
  | ret (a : α)
  | ask (c : Ask) (next : Reply c → Dialog Ask Reply α)

namespace Dialog

variable {Ask : Type u} {Reply : Ask → Type v} {α β : Type w}

def bind : Dialog Ask Reply α → (α → Dialog Ask Reply β) → Dialog Ask Reply β
  | ret a, f => f a
  | ask c next, f => ask c fun r => (next r).bind f

instance : Monad (Dialog Ask Reply) where
  pure := ret
  bind := bind

/-- A single call. -/
def query {Reply : Ask → Type w} (c : Ask) : Dialog Ask Reply (Reply c) :=
  ask c ret

end Dialog

/-- What may happen between two calls, and what a call may be told. -/
structure Surroundings (σ : Type*) (Ask : Type u) (Reply : Ask → Type v) where
  change : σ → σ → Prop
  reply : σ → (c : Ask) → Reply c → σ → Prop

variable {σ : Type*} {Ask : Type u} {Reply : Ask → Type v} {α β : Type w}

/-- The program can return a value in a state, when it is started in another. -/
inductive Returns (E : Surroundings σ Ask Reply) : σ → Dialog Ask Reply α → α → σ → Prop where
  | ret (s : σ) (a : α) : Returns E s (.ret a) a s
  | change {s t u : σ} {p : Dialog Ask Reply α} {a : α} (head : E.change s t)
      (tail : Returns E t p a u) : Returns E s p a u
  | ask {s t u : σ} {c : Ask} {next : Reply c → Dialog Ask Reply α} {r : Reply c} {a : α}
      (head : E.reply s c r t) (tail : Returns E t (next r) a u) :
      Returns E s (.ask c next) a u

namespace Returns

variable {E : Surroundings σ Ask Reply} {s u : σ}

/-- A sequence returns where its second part does, started where the first returned. -/
theorem of_bind {p : Dialog Ask Reply α} {f : α → Dialog Ask Reply β} {b : β}
    (h : Returns E s (p.bind f) b u) : ∃ a t, Returns E s p a t ∧ Returns E t (f a) b u := by
  generalize hq : p.bind f = q at h
  induction h generalizing p with
  | ret s b =>
      cases p with
      | ret a =>
          have hfa : f a = .ret b := hq
          exact ⟨a, s, .ret s a, hfa ▸ .ret s b⟩
      | ask c next => cases hq
  | change head tail ih =>
      obtain ⟨a, t, hfirst, hsecond⟩ := ih hq
      exact ⟨a, t, .change head hfirst, hsecond⟩
  | @ask s t _ c next r b head tail ih =>
      cases p with
      | ret a =>
          have hfa : f a = .ask c next := hq
          exact ⟨a, s, .ret s a, hfa ▸ .ask head tail⟩
      | ask c' next' =>
          cases hq
          obtain ⟨a, t', hfirst, hsecond⟩ := ih rfl
          exact ⟨a, t', .ask head hfirst, hsecond⟩

/-- A program that can return after a reply can return. -/
theorem exists_ask {t : σ} {c : Ask} {next : Reply c → Dialog Ask Reply α} {r : Reply c} {a : α}
    (head : E.reply s c r t) (tail : ∃ u, Returns E t (next r) a u) :
    ∃ u, Returns E s (.ask c next) a u :=
  tail.imp fun _ => .ask head

theorem exists_change {t : σ} {p : Dialog Ask Reply α} {a : α} (head : E.change s t)
    (tail : ∃ u, Returns E t p a u) : ∃ u, Returns E s p a u :=
  tail.imp fun _ => .change head

end Returns

/-- The surroundings do not end a condition. -/
def Surroundings.Stable (E : Surroundings σ Ask Reply) (P : σ → Prop) : Prop :=
  ∀ s t, P s → E.change s t → P t

/-- Whatever the program returns, started under a condition, meets another. -/
def Holds (E : Surroundings σ Ask Reply) (P : σ → Prop) (p : Dialog Ask Reply α)
    (Q : α → σ → Prop) : Prop :=
  ∀ s a u, P s → Returns E s p a u → Q a u

namespace Holds

variable {E : Surroundings σ Ask Reply} {P P' : σ → Prop} {Q Q' : α → σ → Prop}

theorem mono {p : Dialog Ask Reply α} (h : Holds E P p Q) (hpre : ∀ s, P' s → P s)
    (hpost : ∀ a s, Q a s → Q' a s) : Holds E P' p Q' :=
  fun s a u hs hreturns => hpost a u (h s a u (hpre s hs) hreturns)

/-- What does not depend on the state can be assumed. -/
theorem of_fact {φ : Prop} {p : Dialog Ask Reply α} (h : φ → Holds E P p Q) :
    Holds E (fun s => φ ∧ P s) p Q :=
  fun s a u hs => h hs.1 s a u hs.2

theorem ret {a : α} (stable : E.Stable P) (h : ∀ s, P s → Q a s) : Holds E P (.ret a) Q := by
  intro s b u hs hreturns
  generalize hp : Dialog.ret a = p at hreturns
  induction hreturns with
  | ret s b =>
      cases hp
      exact h s hs
  | change head tail ih => exact ih (stable _ _ hs head) hp
  | ask head tail ih => cases hp

theorem pure {a : α} (stable : E.Stable P) (h : ∀ s, P s → Q a s) :
    Holds E P (Pure.pure a) Q :=
  ret stable h

theorem ask {c : Ask} {next : Reply c → Dialog Ask Reply α} {R : Reply c → σ → Prop}
    (stable : E.Stable P) (h : ∀ s r t, P s → E.reply s c r t → R r t)
    (hnext : ∀ r, Holds E (R r) (next r) Q) : Holds E P (.ask c next) Q := by
  intro s b u hs hreturns
  generalize hp : Dialog.ask c next = p at hreturns
  induction hreturns with
  | ret s b => cases hp
  | change head tail ih => exact ih (stable _ _ hs head) hp
  | ask head tail ih =>
      cases hp
      exact hnext _ _ _ _ (h _ _ _ hs head) tail

theorem bind {p : Dialog Ask Reply α} {f : α → Dialog Ask Reply β} {R : β → σ → Prop}
    (hp : Holds E P p Q) (hf : ∀ a, Holds E (Q a) (f a) R) : Holds E P (p >>= f) R := by
  intro s b u hs hreturns
  obtain ⟨a, t, hfirst, hsecond⟩ := hreturns.of_bind
  exact hf a t b u (hp s a t hs hfirst) hsecond

/-- The rule of a single call. -/
theorem query {Reply : Ask → Type w} {E : Surroundings σ Ask Reply} {c : Ask}
    {Q : Reply c → σ → Prop} (stable : E.Stable P) (hstable : ∀ r, E.Stable (Q r))
    (h : ∀ s r t, P s → E.reply s c r t → Q r t) : Holds E P (Dialog.query c) Q :=
  ask stable h fun r => ret (hstable r) fun _ => id

end Holds

namespace Surroundings

variable {E : Surroundings σ Ask Reply} {P Q : σ → Prop}

theorem Stable.and (hP : E.Stable P) (hQ : E.Stable Q) : E.Stable fun s => P s ∧ Q s :=
  fun s t h head => ⟨hP s t h.1 head, hQ s t h.2 head⟩

theorem Stable.or (hP : E.Stable P) (hQ : E.Stable Q) : E.Stable fun s => P s ∨ Q s :=
  fun s t h head => h.imp (fun h => hP s t h head) fun h => hQ s t h head

end Surroundings

end DispService.Lib
