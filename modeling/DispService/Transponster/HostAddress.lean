import Mathlib.Data.List.SplitOn
import Mathlib.Data.List.TakeWhile
import Mathlib.Data.Vector.Basic

/-! Addresses of hosts, the lengths of their masks, and the texts that stand for them in the
elements of libvirt. -/
namespace DispService.Transponster.Network

abbrev Text := List Char

/-- `Q_IPV6ADDR` -/
abbrev Ipv6 := Vector UInt8 16

inductive QHostAddress where
  | null
  | ipv4 (a : UInt32)
  | ipv6 (c : Ipv6) (scopeId : Text)
deriving DecidableEq

namespace QHostAddress

def toIPv4Address : QHostAddress → UInt32
  | ipv4 a => a
  | _ => 0

def toIPv6Address : QHostAddress → Ipv6
  | ipv6 c _ => c
  | _ => Vector.replicate 16 0

def setScopeId (id : Text) : QHostAddress → QHostAddress
  | ipv6 c _ => ipv6 c id
  | a => a

end QHostAddress

/-- What Qt and the patterns of the schemas make of addresses and texts. -/
structure Qt where
  toString : QHostAddress → Text
  /-- `QHostAddress(text)` -/
  ofText : Text → QHostAddress
  /-- `Validatable<PIpv4Addr>::validate` and `Validatable<PIpv6Addr>::validate` -/
  isIpv4Addr : Text → Bool
  isIpv6Addr : Text → Bool
  any : QHostAddress
  localHost : QHostAddress
  anyIPv6 : QHostAddress
  localHostIPv6 : QHostAddress

/-- The text of an address fits the pattern of its family, and is read as the address. -/
def Qt.Reads (qt : Qt) (a : QHostAddress) : Prop :=
  match a with
  | .null => True
  | .ipv4 _ => qt.isIpv4Addr (qt.toString a) = true ∧ qt.ofText (qt.toString a) = a
  | .ipv6 _ _ => qt.isIpv4Addr (qt.toString a) = false ∧ qt.isIpv6Addr (qt.toString a) = true ∧
      qt.ofText (qt.toString a) = a

inductive Family where
  | ipv4
  | ipv6
deriving DecidableEq

def Family.getFamily : Family → Text
  | ipv4 => ['i', 'p', 'v', '4']
  | ipv6 => ['i', 'p', 'v', '6']

inductive VIpAddr where
  | ipv4 (value : Text)
  | ipv6 (value : Text)
deriving DecidableEq

inductive VIpPrefix where
  | ipv4 (value : Nat)
  | ipv6 (value : Nat)
deriving DecidableEq

section Variants

variable (qt : Qt)

/-- The alternative of a family, whose value is set when it fits. -/
def craftAddr (family : Family) (value : Text) : VIpAddr :=
  match family with
  | .ipv4 => .ipv4 (if qt.isIpv4Addr value then value else [])
  | .ipv6 => .ipv6 (if qt.isIpv6Addr value then value else [])

def craftPrefix (family : Family) (value : Nat) : VIpPrefix :=
  match family with
  | .ipv4 => .ipv4 (if value ≤ 32 then value else 0)
  | .ipv6 => .ipv6 (if value ≤ 128 then value else 0)

/-- `Traits<VIpAddr>::parse` -/
def parseAddr (src : Text) : Option VIpAddr :=
  if qt.isIpv4Addr src then some (.ipv4 src)
  else if qt.isIpv6Addr src then some (.ipv6 src)
  else none

/-- `Traits<VIpAddr>::generate` -/
def generateAddr : VIpAddr → Text
  | .ipv4 value => value
  | .ipv6 value => value

/-- `Traits<VIpPrefix>::parse`, of the number in the text. -/
def parsePrefix (value : Nat) : Option VIpPrefix :=
  if value ≤ 32 then some (.ipv4 value)
  else if value ≤ 128 then some (.ipv6 value)
  else none

/-- `Traits<VIpPrefix>::generate` -/
def generatePrefix : VIpPrefix → Nat
  | .ipv4 value => value
  | .ipv6 value => value

/-- A length is read as a variant with the same number. -/
theorem parsePrefix_some {n : Nat} (h : n ≤ 128) :
    ∃ v, parsePrefix n = some v ∧ generatePrefix v = n := by
  rw [parsePrefix]
  by_cases h32 : n ≤ 32
  · exact ⟨.ipv4 n, if_pos h32, rfl⟩
  · exact ⟨.ipv6 n, by rw [if_neg h32, if_pos h], rfl⟩

end Variants

section Masks

/-- The ones of the last byte that counts. -/
def tailBits : UInt8 → Option Nat
  | 254 => some 7
  | 252 => some 6
  | 248 => some 5
  | 240 => some 4
  | 224 => some 3
  | 192 => some 2
  | 128 => some 1
  | 0 => some 0
  | _ => none

def cast (output : Nat) : List UInt8 → Nat
  | [] => output
  | b :: rest =>
      if b = 255 then cast (output + 8) rest
      else
        match tailBits b with
        | some n => output + n
        | none => 0

/-- The bytes of a number, the highest first. -/
def toBigEndian (x : UInt32) : List UInt8 :=
  [(x >>> 24).toUInt8, (x >>> 16).toUInt8, (x >>> 8).toUInt8, x.toUInt8]

def Family.getMask : Family → QHostAddress → Nat
  | ipv4, mask_ => cast 0 (toBigEndian mask_.toIPv4Address)
  | ipv6, mask_ => cast 0 mask_.toIPv6Address.toList

/-- A shift by 32 bits is not defined; it is taken as the processor does it, by none. -/
def getIPv4MaskFromPrefix (prefix4_ : Nat) : QHostAddress :=
  .ipv4 (0xFFFFFFFF <<< (32 - UInt32.ofNat prefix4_))

/-- So many bits are cleared, from the last byte on. -/
def clearBits : Nat → List UInt8 → List UInt8
  | _, [] => []
  | p, b :: rest =>
      if 8 ≤ p then 0 :: clearBits (p - 8) rest
      else if p ≠ 0 then (b <<< UInt8.ofNat p) :: rest
      else b :: rest

theorem length_clearBits (p : Nat) (l : List UInt8) : (clearBits p l).length = l.length := by
  induction l generalizing p with
  | nil => rfl
  | cons b rest ih =>
    rw [clearBits]
    split
    · rw [List.length_cons, List.length_cons, ih]
    · split <;> rfl

def getIPv6MaskFromPrefix (prefix6_ : Nat) : QHostAddress :=
  .ipv6 ⟨(clearBits (128 - prefix6_) (List.replicate 16 0xFF)).reverse.toArray, by
    rw [List.size_toArray, List.length_reverse, length_clearBits, List.length_replicate]⟩ []

/-- The mask with so many ones, which are its first. -/
def mask4 (n : Nat) : UInt32 := UInt32.ofNat (2 ^ 32 - 2 ^ (32 - n))

def mask6 (n : Nat) : Ipv6 :=
  Vector.ofFn fun i => UInt8.ofNat (256 - 2 ^ (8 - min 8 (n - 8 * i.val)))

theorem getMask_mask4 : ∀ n : Fin 33, Family.ipv4.getMask (.ipv4 (mask4 n.val)) = n.val := by
  decide +kernel

theorem getMask_mask6 : ∀ n : Fin 129, Family.ipv6.getMask (.ipv6 (mask6 n.val) []) = n.val := by
  decide +kernel

theorem mask4_of_prefix : ∀ n : Fin 33, n.val ≠ 0 →
    getIPv4MaskFromPrefix n.val = .ipv4 (mask4 n.val) := by
  decide +kernel

theorem clearBits_eq_mask6 : ∀ n : Fin 129, (clearBits (128 - n) (List.replicate 16 0xFF)).reverse =
    List.ofFn fun i : Fin 16 => UInt8.ofNat (256 - 2 ^ (8 - min 8 (n - 8 * i.val))) := by
  decide +kernel

theorem mask6_of_prefix (n : Fin 129) : getIPv6MaskFromPrefix n = .ipv6 (mask6 n) [] := by
  have h : (clearBits (128 - n) (List.replicate 16 0xFF)).reverse = (mask6 n).toList := by
    rw [clearBits_eq_mask6, mask6, Vector.toList_ofFn]
  exact congrArg (QHostAddress.ipv6 · []) (Vector.toList_inj.mp h)

end Masks

section Parse

variable {qt : Qt} {a : QHostAddress}

theorem parse_craft_ipv4 {x : UInt32} (h : qt.Reads (.ipv4 x)) :
    craftAddr qt .ipv4 (qt.toString (.ipv4 x)) = .ipv4 (qt.toString (.ipv4 x)) ∧
      parseAddr qt (generateAddr (.ipv4 (qt.toString (.ipv4 x)))) =
        some (.ipv4 (qt.toString (.ipv4 x))) := by
  refine ⟨?_, if_pos h.1⟩
  rw [craftAddr, if_pos h.1]

theorem parse_craft_ipv6 {c : Ipv6} {s : Text} (h : qt.Reads (.ipv6 c s)) :
    craftAddr qt .ipv6 (qt.toString (.ipv6 c s)) = .ipv6 (qt.toString (.ipv6 c s)) ∧
      parseAddr qt (generateAddr (.ipv6 (qt.toString (.ipv6 c s)))) =
        some (.ipv6 (qt.toString (.ipv6 c s))) := by
  refine ⟨?_, ?_⟩
  · rw [craftAddr, if_pos h.2.1]
  · rw [generateAddr, parseAddr, h.1, if_neg Bool.false_ne_true, if_pos h.2.1]

end Parse

section Samples

/-- An address of IPv6 that is zero but for three of its groups. -/
def groups (first block last : Nat) : Ipv6 :=
  Vector.ofFn fun i => match i.val with
    | 0 => UInt8.ofNat (first / 256)
    | 1 => UInt8.ofNat first
    | 12 => UInt8.ofNat (block / 256)
    | 13 => UInt8.ofNat block
    | 14 => UInt8.ofNat (last / 256)
    | 15 => UInt8.ofNat last
    | _ => 0

/-- The number that an address of IPv6 is. -/
def number (c : Ipv6) : Nat := c.toList.foldl (fun x b => 256 * x + b.toNat) 0

def table : List (Ipv6 × Text) := [
  (groups 0 0 0, [':', ':']),
  (groups 0xFD00 0 1, ['f', 'd', '0', '0', ':', ':', '1']),
  (groups 0xFD00 1 0xFFF0, ['f', 'd', '0', '0', ':', ':', '1', ':', 'f', 'f', 'f', '0']),
  (groups 0xFD00 1 0xFFFF, ['f', 'd', '0', '0', ':', ':', '1', ':', 'f', 'f', 'f', 'f']),
  (groups 0xFD00 2 0x10, ['f', 'd', '0', '0', ':', ':', '2', ':', '1', '0'])]

/-- `QString("%1")` -/
def decimal (n : Nat) : Text := Nat.toDigits 10 n

def ofDecimal (t : Text) : Nat := t.foldl (fun n c => 10 * n + (c.toNat - '0'.toNat)) 0

def dotted (x : UInt32) : Text :=
  ['.'].intercalate ((toBigEndian x).map fun b => decimal b.toNat)

def ofDotted (t : Text) : Option UInt32 :=
  match t.splitOn '.' with
  | [a, b, c, d] => some <| UInt32.ofNat <|
      256 * (256 * (256 * ofDecimal a + ofDecimal b) + ofDecimal c) + ofDecimal d
  | _ => none

/-- What is made of the addresses of IPv4, and of those of the table. -/
def ofTable : Qt where
  toString
    | .null => []
    | .ipv4 x => dotted x
    | .ipv6 c _ => ((table.find? fun e => e.1 = c).map (·.2)).getD []
  ofText t :=
    match ofDotted t with
    | some x => .ipv4 x
    | none => ((table.find? fun e => e.2 = t).map fun e => .ipv6 e.1 []).getD .null
  isIpv4Addr t := (ofDotted t).isSome
  isIpv6Addr t := table.any fun e => e.2 = t
  any := .ipv4 0
  localHost := .ipv4 0x7F000001
  anyIPv6 := .ipv6 (groups 0 0 0) []
  localHostIPv6 := .ipv6 (groups 0 0 1) []

end Samples

end DispService.Transponster.Network
