import DispService.Lib.Glob

/-! Matching a string with a pattern that has wildcards. The matcher remembers the last star only,
and that is enough: it ends, and accepts exactly the strings of the pattern's language. -/
namespace DispService.Wildcards

open DispService.Lib
open DispService.Lib.Glob (Piece language Fixed)

/-- `pm` and `sm`: the pattern after the last star, and the string to try it at next. -/
structure Star (α : Type) where
  pm : List α
  sm : List α

/-- What there is to go back to: the pattern and the string. -/
def Star.room {α : Type} : Option (Star α) → Nat × Nat
  | none => (0, 0)
  | some m => (m.pm.length, m.sm.length)

@[simp] theorem Star.room_some {α : Type} (m : Star α) :
    Star.room (some m) = (m.pm.length, m.sm.length) := rfl

section Matcher

variable {α : Type} [DecidableEq α]

-- A pointer is the string from there to the terminator, and `*p` its head.
variable (star question : α)

/-- The loop before the first star; it gives up with none. -/
def lead : List α → List α → Option (List α × List α)
  | [], p => some ([], p)
  | c :: s, p =>
      if p.head? = some star then some (c :: s, p)
      else if p.head? ≠ some c ∧ p.head? ≠ some question then none
      else lead s p.tail

/-- The loop after the first star. A null pointer that is followed gives none. -/
def scan (s p : List α) (mark : Option (Star α)) : Option Bool :=
  match s with
  | [] => some (p.dropWhile (· = star)).isEmpty
  | c :: rest =>
      if p.head? = some star then
        if p.tail = [] then some true else scan (c :: rest) p.tail (some ⟨p.tail, rest⟩)
      else if p.head? = some c ∨ p.head? = some question then scan rest p.tail mark
      else
        match mark with
        | none => none
        | some m => scan m.sm m.pm (some { m with sm := m.sm.tail })
termination_by (max p.length (Star.room mark).1, (Star.room mark).2, s.length)
decreasing_by
  all_goals simp only [Prod.lex_def, Star.room_some, List.length_cons, List.length_tail, true_and]
  · rename_i hstar _
    have hpos : 0 < p.length := by
      cases p with
      | nil => cases hstar
      | cons d p => exact Nat.succ_pos _
    omega
  · omega
  · omega

/-- `_WILDCARDMATCH`; a null pointer is none. -/
def WILDCARDMATCH (s p : Option (List α)) : Option Bool :=
  match s, p with
  | some s, some p =>
      match lead star question s p with
      | none => some false
      | some (s, p) => scan star question s p none
  | none, none => some true
  | _, _ => some false

def piece (a : α) : Piece α :=
  if a = star then .many else if a = question then .one else .letter a

/-- The strings that a pattern stands for. -/
def glob (p : List α) : Language α :=
  language (p.map (piece star question))

end Matcher

-- The terminator is no letter of a string.
abbrev CChar := {c : UInt8 // c ≠ 0}

abbrev CShort := {c : UInt16 // c ≠ 0}

def CChar.star : CChar := ⟨42, by decide⟩

def CChar.question : CChar := ⟨63, by decide⟩

def CShort.star : CShort := ⟨42, by decide⟩

def CShort.question : CShort := ⟨63, by decide⟩

def wildcardMatch (s p : Option (List CChar)) : Option Bool :=
  WILDCARDMATCH CChar.star CChar.question s p

def wildcardMatchUnicode (s p : Option (List CShort)) : Option Bool :=
  WILDCARDMATCH CShort.star CShort.question s p

variable {α : Type} [DecidableEq α] {star question c d : α} {s p rest : List α} {m : Star α}

theorem piece_star : piece star question star = .many :=
  if_pos rfl

theorem piece_ne_many (h : d ≠ star) : piece star question d ≠ .many := by
  unfold piece
  rw [if_neg h]
  split <;> nofun

/-- A letter of the pattern takes a letter of the string: it is the wildcard, or the same. -/
theorem mem_piece (h : d ≠ star) {t : List α} {q : List (Piece α)} :
    t ∈ language (piece star question d :: q) ↔
      ∃ c, ∃ r ∈ language q, (c = d ∨ d = question) ∧ t = c :: r := by
  unfold piece
  rw [if_neg h]
  by_cases hq : d = question
  · rw [if_pos hq, Glob.mem_one]
    simp [hq]
  · rw [if_neg hq, Glob.mem_letter]
    simp [hq]

theorem glob_cons (h : d ≠ star) :
    c :: rest ∈ glob star question (d :: p) ↔
      (c = d ∨ d = question) ∧ rest ∈ glob star question p := by
  unfold glob
  rw [List.map_cons, mem_piece h]
  constructor
  · rintro ⟨c, r, hr, hcd, heq⟩
    cases heq
    exact ⟨hcd, hr⟩
  · rintro ⟨hcd, hr⟩
    exact ⟨c, rest, hr, hcd, rfl⟩

theorem glob_star_cons :
    c :: rest ∈ glob star question (star :: p) ↔
      c :: rest ∈ glob star question p ∨ ∃ t ∈ glob star question p, t <:+ rest := by
  unfold glob
  rw [List.map_cons, piece_star]
  exact Glob.mem_many_cons

theorem glob_star (s : List α) : s ∈ glob star question [star] := by
  unfold glob
  rw [List.map_cons, piece_star]
  exact Glob.mem_many.mpr ⟨[], Glob.mem_nil.mpr rfl, List.nil_suffix⟩

/-- What is left when the string is used up may only be stars. -/
theorem nil_mem_glob :
    (p.dropWhile (· = star)).isEmpty = true ↔ [] ∈ glob star question p := by
  induction p with
  | nil => exact iff_of_true rfl (Glob.mem_nil.mpr rfl)
  | cons d p ih =>
      rw [List.dropWhile_cons]
      by_cases h : d = star
      · subst h
        rw [if_pos (decide_eq_true rfl), ih]
        unfold glob
        rw [List.map_cons, piece_star, Glob.mem_many]
        constructor
        · intro hnil
          exact ⟨[], hnil, List.suffix_rfl⟩
        · rintro ⟨t, ht, hts⟩
          rwa [List.suffix_nil.mp hts] at ht
      · rw [if_neg (by simpa using h)]
        refine iff_of_false (by simp) fun hnil => ?_
        unfold glob at hnil
        rw [List.map_cons, mem_piece h] at hnil
        obtain ⟨c, r, -, -, heq⟩ := hnil
        cases heq

/-- The pattern does not go on with the letter. -/
theorem not_mem_glob (hstar : p.head? ≠ some star)
    (h : ¬ (p.head? = some c ∨ p.head? = some question)) : c :: rest ∉ glob star question p := by
  cases p with
  | nil =>
      intro hmem
      cases Glob.mem_nil.mp hmem
  | cons d p =>
      have hd : d ≠ star := fun heq => hstar (congrArg some heq)
      rw [glob_cons hd]
      rintro ⟨rfl | rfl, -⟩
      · exact h (.inl rfl)
      · exact h (.inr rfl)

/-- Where the matcher stands: since the remembered star it has met the letters `u` of the string
and the part `q` of the pattern, which has no star. -/
structure Since (star question : α) (m : Star α) (s p : List α) (q u : List α) : Prop where
  pattern : m.pm = q ++ p
  string : m.sm = (u ++ s).tail
  fixed : Fixed (q.map (piece star question))
  met : u ∈ glob star question q

namespace Since

variable {q u : List α}

/-- An attempt begins. -/
theorem begin : Since star question ⟨p, s.tail⟩ s p [] [] where
  pattern := rfl
  string := rfl
  fixed := List.not_mem_nil
  met := Glob.mem_nil.mpr rfl

theorem next (h : Since star question m (c :: rest) (d :: p) q u) (hd : d ≠ star)
    (hcd : c = d ∨ d = question) : Since star question m rest p (q ++ [d]) (u ++ [c]) where
  pattern := by rw [h.pattern, List.append_assoc, List.singleton_append]
  string := by rw [h.string, List.append_assoc, List.singleton_append]
  fixed := by
    intro hmem
    rw [List.map_append, List.mem_append] at hmem
    rcases hmem with hmem | hmem
    · exact h.fixed hmem
    · exact piece_ne_many hd (List.mem_singleton.mp hmem).symm
  met := by
    have hlast : [c] ∈ glob star question [d] :=
      (glob_cons hd).mpr ⟨hcd, Glob.mem_nil.mpr rfl⟩
    unfold glob at hlast ⊢
    rw [List.map_append]
    exact Glob.mem_append.mpr ⟨u, h.met, [c], hlast, rfl⟩

/-- No later attempt can succeed when the string is used up by this one. -/
theorem finished (h : Since star question m [] p q u)
    (hlater : ∃ t ∈ glob star question m.pm, t <:+ m.sm) : [] ∈ glob star question p := by
  obtain ⟨t, ht, hts⟩ := hlater
  have hlen := h.fixed.length h.met
  have hle := hts.length_le
  rw [h.string, List.append_nil, List.length_tail] at hle
  unfold glob at ht
  rw [h.pattern, List.map_append] at ht
  have hlong := h.fixed.length_le ht
  have hu : u = [] := List.length_eq_zero_iff.mp (by omega)
  have hq : q = [] := by
    rw [hu, List.length_nil, List.length_map] at hlen
    exact List.length_eq_zero_iff.mp hlen.symm
  have hempty : t = [] := List.length_eq_zero_iff.mp (by rw [hu] at hle; simpa using hle)
  rw [hq, hempty] at ht
  exact ht

/-- A star replaces the one before: whatever an attempt at a later place would find is found from
here. -/
theorem absorbed (h : Since star question m s (star :: p) q u)
    (hlater : ∃ t ∈ glob star question m.pm, t <:+ m.sm) :
    s ∈ glob star question (star :: p) := by
  obtain ⟨t, ht, hts⟩ := hlater
  rw [h.string] at hts
  unfold glob at ht ⊢
  rw [h.pattern, List.map_append, List.map_cons, piece_star] at ht
  rw [List.map_cons, piece_star]
  exact h.fixed.earliest h.met (hts.trans (List.tail_suffix _)) ht

end Since

/-- The attempt from here, or one at a later place. -/
def Accepts (star question : α) (m : Star α) (s p : List α) : Prop :=
  s ∈ glob star question p ∨ ∃ t ∈ glob star question m.pm, t <:+ m.sm

theorem accepts_retry : Accepts star question { m with sm := m.sm.tail } m.sm m.pm ↔
    ∃ t ∈ glob star question m.pm, t <:+ m.sm := by
  unfold Accepts
  cases hsm : m.sm with
  | nil =>
      constructor
      · rintro (hmem | ⟨t, ht, hts⟩)
        · exact ⟨[], hmem, List.suffix_rfl⟩
        · exact ⟨t, ht, hts⟩
      · rintro ⟨t, ht, hts⟩
        rw [List.suffix_nil.mp hts] at ht
        exact .inl ht
  | cons c rest =>
      constructor
      · rintro (hmem | ⟨t, ht, hts⟩)
        · exact ⟨_, hmem, List.suffix_rfl⟩
        · exact ⟨t, ht, hts.trans (List.suffix_cons c rest)⟩
      · rintro ⟨t, ht, hts⟩
        rcases List.suffix_cons_iff.mp hts with rfl | hts
        · exact .inl ht
        · exact .inr ⟨t, ht, hts⟩

theorem scan_cons {mark : Option (Star α)} : scan star question (c :: rest) p mark =
    if p.head? = some star then
      if p.tail = [] then some true
      else scan star question (c :: rest) p.tail (some ⟨p.tail, rest⟩)
    else if p.head? = some c ∨ p.head? = some question then scan star question rest p.tail mark
    else
      match mark with
      | none => none
      | some m => scan star question m.sm m.pm (some { m with sm := m.sm.tail }) := by
  rw [scan.eq_def]

/-- From the first star on. -/
theorem scan_accepts (mark : Option (Star α)) (hmark : mark = some m) {q u : List α}
    (h : Since star question m s p q u) :
    ∃ b, scan star question s p mark = some b ∧ (b = true ↔ Accepts star question m s p) := by
  induction s, p, mark using scan.induct star question generalizing m q u with
  | case1 p mark =>
      refine ⟨_, by rw [scan], ?_⟩
      rw [nil_mem_glob]
      exact ⟨.inl, fun hacc => hacc.elim id h.finished⟩
  | case2 p mark c rest hstar htail =>
      obtain ⟨p', rfl⟩ := List.head?_eq_some_iff.mp hstar
      obtain rfl : p' = [] := htail
      refine ⟨true, by rw [scan_cons, if_pos hstar, List.tail_cons, if_pos rfl], ?_⟩
      exact iff_of_true rfl (.inl (glob_star _))
  | case3 p mark c rest hstar htail ih =>
      obtain ⟨p', rfl⟩ := List.head?_eq_some_iff.mp hstar
      obtain ⟨b, hb, hiff⟩ := ih rfl (Since.begin (s := c :: rest))
      refine ⟨b, by rw [scan_cons, if_pos hstar, if_neg htail]; exact hb, hiff.trans ?_⟩
      have hwhole : Accepts star question ⟨p', rest⟩ (c :: rest) p' ↔
          c :: rest ∈ glob star question (star :: p') := glob_star_cons.symm
      exact hwhole.trans ⟨.inl, fun hacc => hacc.elim id h.absorbed⟩
  | case4 p mark c rest hstar hmeet ih =>
      cases p with
      | nil => rcases hmeet with hmeet | hmeet <;> cases hmeet
      | cons d p =>
          have hd : d ≠ star := fun heq => hstar (congrArg some heq)
          have hcd : c = d ∨ d = question := by simpa [eq_comm] using hmeet
          obtain ⟨b, hb, hiff⟩ := ih hmark (h.next hd hcd)
          refine ⟨b, by rw [scan_cons, if_neg hstar, if_pos hmeet]; exact hb, hiff.trans ?_⟩
          refine or_congr_left ?_
          rw [glob_cons hd]
          exact (and_iff_right hcd).symm
  | case5 p c rest hstar hmeet => cases hmark
  | case6 p c rest hstar hmeet m' ih =>
      obtain rfl : m' = m := Option.some.inj hmark
      obtain ⟨b, hb, hiff⟩ := ih rfl Since.begin
      refine ⟨b, by rw [scan_cons, if_neg hstar, if_neg hmeet]; exact hb, hiff.trans ?_⟩
      rw [accepts_retry]
      exact (or_iff_right (not_mem_glob hstar hmeet)).symm

/-- Before the first star there is nothing to go back to, and no need to. -/
theorem lead_accepts (star question : α) (s p : List α) :
    (lead star question s p = none ∧ s ∉ glob star question p) ∨
    ∃ s' p', lead star question s p = some (s', p') ∧ (s' = [] ∨ p'.head? = some star) ∧
      (s ∈ glob star question p ↔ s' ∈ glob star question p') := by
  induction s generalizing p with
  | nil => exact .inr ⟨[], p, rfl, .inl rfl, Iff.rfl⟩
  | cons c s ih =>
      rw [lead]
      by_cases hstar : p.head? = some star
      · rw [if_pos hstar]
        exact .inr ⟨c :: s, p, rfl, .inr hstar, Iff.rfl⟩
      · rw [if_neg hstar]
        by_cases hmeet : p.head? ≠ some c ∧ p.head? ≠ some question
        · rw [if_pos hmeet]
          exact .inl ⟨rfl, not_mem_glob hstar (not_or.mpr hmeet)⟩
        · rw [if_neg hmeet]
          rw [← not_or, not_not] at hmeet
          cases p with
          | nil => rcases hmeet with hmeet | hmeet <;> cases hmeet
          | cons d p =>
              have hd : d ≠ star := fun heq => hstar (congrArg some heq)
              have hcd : c = d ∨ d = question := by simpa [eq_comm] using hmeet
              rw [glob_cons hd, and_iff_right hcd]
              exact ih p

theorem scan_start (h : s = [] ∨ p.head? = some star) :
    ∃ b, scan star question s p none = some b ∧ (b = true ↔ s ∈ glob star question p) := by
  cases s with
  | nil => exact ⟨_, by rw [scan], nil_mem_glob⟩
  | cons c rest =>
      have hstar := h.resolve_left (List.cons_ne_nil c rest)
      obtain ⟨p', rfl⟩ := List.head?_eq_some_iff.mp hstar
      by_cases htail : p' = []
      · subst htail
        refine ⟨true, by rw [scan_cons, if_pos hstar, List.tail_cons, if_pos rfl], ?_⟩
        exact iff_of_true rfl (glob_star _)
      · have haccepts : ∃ b, scan star question (c :: rest) p' (some ⟨p', rest⟩) = some b ∧
            (b = true ↔ Accepts star question ⟨p', rest⟩ (c :: rest) p') :=
          scan_accepts _ rfl (Since.begin (s := c :: rest))
        obtain ⟨b, hb, hiff⟩ := haccepts
        refine ⟨b, by rw [scan_cons, if_pos hstar, if_neg (by simpa using htail)]; exact hb, ?_⟩
        rw [glob_star_cons]
        exact hiff

/-- The matcher always ends, follows no null pointer and accepts the language of the pattern. -/
theorem WILDCARDMATCH_glob (s p : List α) :
    ∃ b, WILDCARDMATCH star question (some s) (some p) = some b ∧
      (b = true ↔ s ∈ glob star question p) := by
  unfold WILDCARDMATCH
  rcases lead_accepts star question s p with
    ⟨hnone, hno⟩ | ⟨s', p', hsome, hplace, hsame⟩
  · exact ⟨false, by simp only [hnone], iff_of_false Bool.false_ne_true hno⟩
  · obtain ⟨b, hb, hiff⟩ := scan_start hplace
    exact ⟨b, by simpa only [hsome] using hb, hiff.trans hsame.symm⟩

theorem wildcardMatch_iff :
    (∀ s p : List CChar, ∃ b, wildcardMatch (some s) (some p) = some b ∧
      (b = true ↔ s ∈ glob CChar.star CChar.question p)) ∧
    ∀ s p : List CShort, ∃ b, wildcardMatchUnicode (some s) (some p) = some b ∧
      (b = true ↔ s ∈ glob CShort.star CShort.question p) :=
  ⟨WILDCARDMATCH_glob, WILDCARDMATCH_glob⟩

end DispService.Wildcards
