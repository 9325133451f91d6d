import DispService.Lib.Lines
import Mathlib.Algebra.Order.Ring.Int

/-! Texts of the vz configuration file: formats with place markers, numbers, and the settings that
a line starts with. A text is the list of its bytes, and a name stands as it is encoded. -/
namespace DispService.Shaping

open Lib

abbrev Text := List Char

def nul : Char := Char.ofNat 0

/-- `isspace`, and `\s` of a pattern. -/
def isSpace (c : Char) : Bool :=
  c = ' ' ∨ c = '\t' ∨ c = '\n' ∨ c = Char.ofNat 11 ∨ c = Char.ofNat 12 ∨ c = '\r'

/-! ## `QString::arg` -/

/-- The number at the head of a text, of at most two digits, with its length. -/
def markerNumber : Text → Option (Nat × Nat)
  | a :: b :: _ =>
      if a.isDigit then
        if b.isDigit then some (10 * (a.toNat - 48) + (b.toNat - 48), 2)
        else some (a.toNat - 48, 1)
      else none
  | [a] => if a.isDigit then some (a.toNat - 48, 1) else none
  | [] => none

/-- The place marker at the head of a text, with its length. -/
def marker : Text → Option (Nat × Nat)
  | '%' :: 'L' :: s => (markerNumber s).map fun m => (m.1, m.2 + 2)
  | '%' :: s => (markerNumber s).map fun m => (m.1, m.2 + 1)
  | _ => none

inductive Piece where
  | plain (c : Char)
  | marker (n : Nat) (raw : Text)
  deriving DecidableEq, Repr

/-- The place markers of a text and what stands between them; the first `skip` characters belong
to a marker that has been read. -/
def scan : Text → Nat → List Piece
  | [], _ => []
  | _ :: s, skip + 1 => scan s skip
  | c :: s, 0 =>
      match marker (c :: s) with
      | some (n, length) => .marker n ((c :: s).take length) :: scan s (length - 1)
      | none => .plain c :: scan s 0

def Piece.number? : Piece → Option Nat
  | .plain _ => none
  | .marker n _ => some n

/-- Every marker with the lowest number is replaced. -/
def arg (format a : Text) : Text :=
  let ps := scan format 0
  match (ps.filterMap Piece.number?).min? with
  | none => format
  | some low => ps.flatMap fun
      | .plain c => [c]
      | .marker n raw => if n = low then a else raw

theorem marker_of_ne {c : Char} {s : Text} (h : c ≠ '%') : marker (c :: s) = none := by
  unfold marker
  split
  · rename_i heq
    exact absurd (List.cons.inj heq).1 h
  · rename_i heq
    exact absurd (List.cons.inj heq).1 h
  · rfl

theorem scan_append {s : Text} (h : '%' ∉ s) (t : Text) :
    scan (s ++ t) 0 = s.map .plain ++ scan t 0 := by
  induction s with
  | nil => rfl
  | cons c s ih =>
      have hc : c ≠ '%' := fun hc => h (by simp [hc])
      have hs : '%' ∉ s := fun hs => h (List.mem_cons_of_mem c hs)
      rw [List.cons_append, scan, marker_of_ne hc]
      simp [ih hs]

/-- What stands before the first marker stays. -/
theorem arg_append {s : Text} (h : '%' ∉ s) (t a : Text) : arg (s ++ t) a = s ++ arg t a := by
  have hplain : ∀ low : Nat, (s.map Piece.plain).flatMap (fun
      | .plain c => [c]
      | .marker n raw => if n = low then a else raw) = s := by
    intro low
    rw [List.flatMap_map]
    exact List.flatMap_singleton' s
  have hnumber : (s.map Piece.plain).filterMap Piece.number? = [] := by
    rw [List.filterMap_map, List.filterMap_eq_nil_iff]
    exact fun c _ => rfl
  unfold arg
  simp only [scan_append h, List.filterMap_append, hnumber, List.nil_append, List.flatMap_append]
  cases ((scan t 0).filterMap Piece.number?).min? with
  | none => rfl
  | some low => simp only [hplain low]

/-! ## Numbers -/

def number (n : Nat) : Text := Nat.toDigits 10 n

def integer (n : Int) : Text := if n < 0 then '-' :: number n.natAbs else number n.natAbs

/-- The digits of a text that is a number, after a plus sign or none. -/
def digits? (text : Text) : Option Nat :=
  let body := match text with
    | '+' :: body => body
    | body => body
  if body ≠ [] ∧ body.all Char.isDigit then some (Nat.ofDigitChars 10 body 0) else none

/-- `QString::toUInt`: zero for what is no number or does not fit. -/
def toUInt (text : Text) : UInt32 :=
  match digits? text with
  | some n => if n < UInt32.size then UInt32.ofNat n else 0
  | none => 0

/-- The number of a text with a sign or none. -/
def signed? : Text → Option Int
  | '-' :: body =>
      if body.head? = some '+' then none else (digits? body).map fun n : Nat => -(n : Int)
  | body => (digits? body).map fun n : Nat => (n : Int)

def toInt (text : Text) : Int32 :=
  match signed? text with
  | some n => if -2 ^ 31 ≤ n ∧ n < 2 ^ 31 then Int32.ofInt n else 0
  | none => 0

theorem isDigit_number {n : Nat} {c : Char} (h : c ∈ number n) : c.isDigit = true :=
  Nat.isDigit_of_mem_toDigits (by omega) (by omega) h

theorem number_ne_nil (n : Nat) : number n ≠ [] := Nat.toDigits_ne_nil

/-- A character that is no digit does not stand in a number. -/
theorem not_mem_number {n : Nat} {c : Char} (h : c.isDigit = false) : c ∉ number n := by
  intro hc
  rw [isDigit_number hc] at h
  cases h

theorem digits?_number (n : Nat) : digits? (number n) = some n := by
  have hall : (number n).all Char.isDigit = true :=
    List.all_eq_true.mpr fun c hc => isDigit_number hc
  have hvalue : Nat.ofDigitChars 10 (number n) 0 = n := Nat.ofDigitChars_ten_toDigits
  unfold digits?
  split
  · rename_i body heq
    have hplus : '+' ∈ number n := by rw [heq]; exact List.mem_cons_self ..
    exact absurd hplus (not_mem_number (by decide))
  · simp [hall, hvalue, number_ne_nil]

theorem toUInt_number (n : UInt32) : toUInt (number n.toNat) = n := by
  have hn : n.toNat < UInt32.size := n.toNat_lt
  simp [toUInt, digits?_number, hn]

theorem signed?_integer (n : Int) : signed? (integer n) = some n := by
  unfold integer
  split
  case isTrue hneg =>
    have hhead : (number n.natAbs).head? ≠ some '+' := fun h =>
      not_mem_number (by decide) (List.mem_of_mem_head? h)
    have habs : -(n.natAbs : Int) = n := by omega
    simp only [signed?, digits?_number, hhead, if_false, Option.map_some, habs]
  case isFalse hneg =>
    have habs : (n.natAbs : Int) = n := by omega
    unfold signed?
    split
    · rename_i body heq
      have hminus : '-' ∈ number n.natAbs := by rw [heq]; exact List.mem_cons_self ..
      exact absurd hminus (not_mem_number (by decide))
    · rw [digits?_number, Option.map_some, habs]

theorem toInt_integer (n : Int32) : toInt (integer n.toInt) = n := by
  have hle : -2 ^ 31 ≤ n.toInt := n.le_toInt
  have hlt : n.toInt < 2 ^ 31 := n.toInt_lt
  rw [toInt, signed?_integer]
  simp only [hle, hlt, and_self, if_true, Int32.ofInt_toInt]

end DispService.Shaping
