import Mathlib.Data.List.Basic

/-! Texts read line by line through a buffer, and texts taken apart into words. A text made of
lines that fit the buffer is read as these lines; words that are set apart by blanks are read as
these words. -/
namespace DispService.Lib

variable {α : Type}

/-- A line with its end, which together fit a buffer of `size`. -/
structure IsLine (eol : α) (size : Nat) (l : List α) : Prop where
  ended : ∃ body, l = body ++ [eol] ∧ eol ∉ body
  fits : l.length < size

theorem IsLine.ne_nil {eol : α} {size : Nat} {l : List α} (h : IsLine eol size l) : l ≠ [] := by
  obtain ⟨body, rfl, -⟩ := h.ended
  simp

theorem IsLine.mono {eol : α} {size size' : Nat} {l : List α} (h : IsLine eol size l)
    (hle : size ≤ size') : IsLine eol size' l :=
  ⟨h.ended, Nat.lt_of_lt_of_le h.fits hle⟩

section Pieces

variable [DecidableEq α]

/-- The pieces that `fgets` returns with a buffer of `size`, one after the other: each ends after
an `eol` or where the buffer is full. `acc` is what the current piece has so far, backwards. -/
def piecesFrom (eol : α) (size : Nat) : List α → List α → List (List α)
  | [], acc => if acc.isEmpty then [] else [acc.reverse]
  | c :: s, acc =>
      if c = eol ∨ acc.length + 2 = size then (c :: acc).reverse :: piecesFrom eol size s []
      else piecesFrom eol size s (c :: acc)

def pieces (eol : α) (size : Nat) (text : List α) : List (List α) := piecesFrom eol size text []

theorem piecesFrom_line {eol : α} {size : Nat} (body rest acc : List α) (hbody : eol ∉ body)
    (hfits : acc.length + body.length + 1 < size) :
    piecesFrom eol size (body ++ eol :: rest) acc =
      (acc.reverse ++ body ++ [eol]) :: piecesFrom eol size rest [] := by
  induction body generalizing acc with
  | nil => simp [piecesFrom]
  | cons c body ih =>
      have hc : c ≠ eol := fun h => hbody (by simp [h])
      have hbody' : eol ∉ body := fun h => hbody (List.mem_cons_of_mem c h)
      rw [List.length_cons] at hfits
      have hroom : ¬ (c = eol ∨ acc.length + 2 = size) := by
        rintro (h | h)
        · exact hc h
        · omega
      rw [List.cons_append, piecesFrom, if_neg hroom,
        ih (c :: acc) hbody' (by rw [List.length_cons]; omega)]
      simp

theorem pieces_lines {eol : α} {size : Nat} {ls : List (List α)}
    (h : ∀ l ∈ ls, IsLine eol size l) : pieces eol size ls.flatten = ls := by
  unfold pieces
  induction ls with
  | nil => rfl
  | cons l ls ih =>
      obtain ⟨body, rfl, hbody⟩ := (h l (by simp)).ended
      have hfits := (h _ (List.mem_cons_self ..)).fits
      rw [List.length_append, List.length_singleton] at hfits
      have hrest := ih fun l' hl' => h l' (List.mem_cons_of_mem _ hl')
      rw [List.flatten_cons, List.append_assoc, List.singleton_append,
        piecesFrom_line body _ [] hbody (by simpa using hfits), hrest]
      simp

end Pieces

section Words

/-- The words of a text, which the letters of `sep` set apart. -/
def words (sep : α → Bool) (s : List α) : List (List α) :=
  (s.splitOnP sep).filter fun w => !w.isEmpty

structure IsWord (sep : α → Bool) (w : List α) : Prop where
  ne_nil : w ≠ []
  letters : ∀ c ∈ w, sep c = false

theorem words_of_seps {sep : α → Bool} {s : List α} (h : ∀ c ∈ s, sep c = true) :
    words sep s = [] := by
  induction s with
  | nil => simp [words]
  | cons c s ih =>
      have hc : sep c = true := h c (by simp)
      have hs := ih fun c' hc' => h c' (List.mem_cons_of_mem c hc')
      have hnil : ∀ x ∈ ([] : List α), sep x = false := by simp
      have hsplit := List.splitOnP_append_cons_of_forall_mem hnil c hc s
      rw [List.nil_append] at hsplit
      unfold words at *
      rw [hsplit]
      simpa using hs

/-- A check of every element, as a computation on the list. -/
theorem forall_of_all {p : α → Prop} [DecidablePred p] {l : List α}
    (h : l.all (fun a => decide (p a)) = true) : ∀ a ∈ l, p a := by
  simpa using h

theorem words_join {sep : α → Bool} {blank : α} (hblank : sep blank = true) {ws : List (List α)}
    (hws : ∀ w ∈ ws, IsWord sep w) {tail : List α} (htail : ∀ c ∈ tail, sep c = true) :
    words sep (ws.flatMap (fun w => w ++ [blank]) ++ tail) = ws := by
  induction ws with
  | nil => exact words_of_seps htail
  | cons w ws ih =>
      have hw := hws w (by simp)
      have hrest := ih fun w' hw' => hws w' (List.mem_cons_of_mem w hw')
      have hempty : w.isEmpty = false := by simpa using hw.ne_nil
      unfold words at *
      rw [List.flatMap_cons, List.append_assoc, List.append_assoc, List.singleton_append,
        List.splitOnP_append_cons_of_forall_mem hw.letters blank hblank,
        List.filter_cons, hempty, Bool.not_false, if_pos rfl, hrest]

end Words

/-- Several copies of a list, one after the other. -/
def copies (k : Nat) (l : List α) : List α := (List.replicate k l).flatten

theorem copies_zero (l : List α) : copies 0 l = [] := rfl

theorem copies_one (l : List α) : copies 1 l = l := by simp [copies]

theorem copies_succ (k : Nat) (l : List α) : copies (k + 1) l = l ++ copies k l := by
  simp [copies, List.replicate_succ]

theorem copies_nil (k : Nat) : copies k ([] : List α) = [] := by simp [copies]

theorem length_copies (k : Nat) (l : List α) : (copies k l).length = k * l.length := by
  simp [copies]

theorem find?_copies {k : Nat} (hk : 0 < k) (p : α → Bool) (l : List α) :
    (copies k l).find? p = l.find? p := by
  induction k with
  | zero => omega
  | succ k ih =>
      rw [copies_succ, List.find?_append]
      cases hf : l.find? p with
      | some a => rfl
      | none =>
          by_cases hk' : 0 < k
          · simp [ih hk', hf]
          · obtain rfl : k = 0 := by omega
            simp [copies_zero]

theorem getLast?_copies {k : Nat} (hk : 0 < k) (l : List α) :
    (copies k l).getLast? = l.getLast? := by
  induction k with
  | zero => omega
  | succ k ih =>
      by_cases hk' : 0 < k
      · rw [copies_succ, List.getLast?_append, ih hk', Option.or_self]
      · obtain rfl : k = 0 := by omega
        rw [copies_one]

theorem filter_copies (k : Nat) (p : α → Bool) (l : List α) :
    (copies k l).filter p = copies k (l.filter p) := by
  induction k with
  | zero => rfl
  | succ k ih => simp [copies_succ, ih]

end DispService.Lib
