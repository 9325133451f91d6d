import DispService.Lib.Pattern
import Mathlib.Data.BitVec
import Mathlib.Data.List.TakeWhile

/-! Addresses, masks and ports of a firewall rule as the filter types of libvirt take them: texts
checked against the patterns of the schema, and the attributes that `Reverse` fills from the local
and the remote address of a rule. What Qt reads in a text is a parameter. -/
namespace DispService.Nwfilter

open Lib

abbrev QString := List Char

inductive Family where
  | IPv4
  | IPv6
  deriving DecidableEq, Repr

def Family.width : Family → Nat
  | .IPv4 => 32
  | .IPv6 => 128

inductive EDirectionType where
  | In
  | Out
  deriving DecidableEq, Repr

/-! ## The patterns of the schema -/

def digit : Pattern Char := Pattern.one fun c => '0' ≤ c ∧ c ≤ '9'

def isHex (c : Char) : Bool :=
  ('a' ≤ c ∧ c ≤ 'f') ∨ ('A' ≤ c ∧ c ≤ 'F') ∨ ('0' ≤ c ∧ c ≤ '9')

/-- `[0-2]?[0-9]?[0-9]` -/
def octet : Pattern Char :=
  ((Pattern.one fun c => '0' ≤ c ∧ c ≤ '2').optional.andThen digit.optional).andThen digit

/-- `([0-2]?[0-9]?[0-9]\.){3}[0-2]?[0-9]?[0-9]` -/
def dotted : Pattern Char :=
  ((octet.andThen (Pattern.one fun c => c = '.')).times 3).andThen octet

/-- `[a-fA-F0-9]{0,4}:` -/
def group : Pattern Char := ((Pattern.one isHex).upTo 4).andThen (Pattern.one fun c => c = ':')

def PData5622.validate (value : QString) : Bool := dotted.exactMatch value

/-- `([a-fA-F0-9]{0,4}:){2,7}([a-fA-F0-9]*)` and a dotted tail, or none. -/
def PData5625.validate (value : QString) : Bool :=
  (((group.range 2 7).andThen (Pattern.many isHex)).andThen dotted.optional).exactMatch value

def PData5628.validate (value : Int) : Bool := 0 ≤ value ∧ value ≤ 32

def PData5633.validate (value : Int) : Bool := 0 ≤ value ∧ value ≤ 128

def PData5657.validate (value : Int) : Bool := 0 ≤ value ∧ value ≤ 65535

/-- `Access::setValue`: a value that is refused leaves the one the holder was made with. -/
def setValue {α : Type} (validate : α → Bool) (initial value : α) : α :=
  if validate value then value else initial

def Family.validate : Family → QString → Bool
  | .IPv4 => PData5622.validate
  | .IPv6 => PData5625.validate

theorem letters_digit {P : Char → Prop} (h : ∀ c, ('0' ≤ c ∧ c ≤ '9') → P c) : digit.Letters P :=
  Pattern.letters_one fun c hc => h c (by simpa using hc)

theorem letters_dotted : dotted.Letters fun c => ('0' ≤ c ∧ c ≤ '9') ∨ c = '.' := by
  have hdigit : digit.Letters fun c => ('0' ≤ c ∧ c ≤ '9') ∨ c = '.' :=
    letters_digit fun c hc => .inl hc
  have hlead : (Pattern.one fun c => decide ('0' ≤ c ∧ c ≤ '2')).Letters
      fun c => ('0' ≤ c ∧ c ≤ '9') ∨ c = '.' := by
    apply Pattern.letters_one
    intro c hc
    have hc' : '0' ≤ c ∧ c ≤ '2' := by simpa using hc
    exact .inl ⟨hc'.1, Char.le_trans hc'.2 (show '2' ≤ '9' by decide)⟩
  have hoctet : octet.Letters fun c => ('0' ≤ c ∧ c ≤ '9') ∨ c = '.' :=
    (hlead.optional.andThen hdigit.optional).andThen hdigit
  have hdot : (Pattern.one fun c => decide (c = '.')).Letters
      fun c => ('0' ≤ c ∧ c ≤ '9') ∨ c = '.' :=
    Pattern.letters_one fun c hc => .inr (by simpa using hc)
  exact ((hoctet.andThen hdot).times 3).andThen hoctet

theorem letters_group : group.Letters fun c => isHex c = true ∨ c = ':' :=
  Pattern.Letters.andThen
    (Pattern.Letters.upTo (Pattern.letters_one fun _ hc => .inl hc) 4)
    (Pattern.letters_one fun _ hc => .inr (by simpa using hc))

theorem colon_of_validate {text : QString} (h : Family.IPv4.validate text = true) :
    ':' ∉ text := by
  intro hcolon
  have := letters_dotted.exact h ':' hcolon
  revert this
  decide

/-- The patterns of the two families have no text in common: one asks for a colon, the other
never takes one. -/
theorem validate_disjoint {text : QString} (h : Family.IPv4.validate text = true) :
    Family.IPv6.validate text = false := by
  by_contra h6
  have h6' : PData5625.validate text = true := by simpa [Family.validate] using h6
  have hgroup : group.Holds ':' :=
    Pattern.Holds.andThen_right
      (Pattern.Consumes.upTo (R := fun _ => True) trivial (fun _ _ _ _ => trivial)
        (Pattern.consumes_one isHex).any 4)
      (Pattern.holds_one fun c hc => by simpa using hc)
  have hrest : (group.times 1).Consumes fun _ => True :=
    Pattern.Consumes.times trivial (fun _ _ _ _ => trivial) letters_group.any 1
  have hupTo : (group.upTo 5).Consumes fun _ => True :=
    Pattern.Consumes.upTo trivial (fun _ _ _ _ => trivial) letters_group.any 5
  have hrange : (group.range 2 7).Holds ':' := (hgroup.andThen_left hrest).andThen_left hupTo
  have hall := (hrange.andThen_left (Pattern.consumes_many isHex)).andThen_left
    (letters_dotted.optional)
  exact colon_of_validate h (hall.exact h6')

/-! ## The attributes -/

/-- What lies outside the repository: the number that the text of a host stands for, and the
second component of `QHostAddress::parseSubnet`. -/
structure QHostAddress where
  setAddress : (f : Family) → QString → Option (BitVec f.width)
  parseSubnet : QString → Int

/-- A whole host without a mask is read as a subnet of its own. -/
def QHostAddress.HostPrefix (qt : QHostAddress) : Prop :=
  ∀ f text, f.validate text = true → (qt.setAddress f text).isSome = true →
    qt.parseSubnet text = f.width

/-- `value.split("/").first()` -/
def host (value : QString) : QString := value.takeWhile (· != '/')

def isSubnet (value : QString) : Bool := value.contains '/'

theorem host_of_host {value : QString} (h : isSubnet value = false) : host value = value := by
  unfold host
  rw [List.takeWhile_eq_self_iff]
  intro c hc
  have hne : c ≠ '/' := by
    rintro rfl
    simp [isSubnet, hc] at h
  simpa using hne

def prepareIp (value : QString) : Option QString :=
  if value.isEmpty then none else some (setValue PData5622.validate [] (host value))

def prepareIpv6 (value : QString) : Option QString :=
  if value.isEmpty then none else some (setValue PData5625.validate [] (host value))

def prepareIpMask (value : Int) : Option Int := some (setValue PData5628.validate 0 value)

def prepareIpv6Mask (value : Int) : Option Int := some (setValue PData5633.validate 0 value)

/-- `CommonIpAttributesP1` and `CommonIpv6AttributesP1`, which have the same fields. -/
structure IpAttributes where
  srcipaddr : Option QString := none
  srcipmask : Option Int := none
  dstipaddr : Option QString := none
  dstipmask : Option Int := none
  state : Option QString := none
  deriving DecidableEq, Repr

/-- The body that both families share, over the holders of the family. -/
def prepareAttributes (qt : QHostAddress) (prepareAddr : QString → Option QString)
    (prepareMask : Int → Option Int) (local_ip remote_ip : QString) (direction : EDirectionType) :
    IpAttributes :=
  let source_ip := if direction = .In then remote_ip else local_ip
  let destination_ip := if direction = .In then local_ip else remote_ip
  { srcipaddr := prepareAddr source_ip
    dstipaddr := prepareAddr destination_ip
    srcipmask := if isSubnet local_ip then prepareMask (qt.parseSubnet source_ip) else none
    dstipmask := if isSubnet remote_ip then prepareMask (qt.parseSubnet destination_ip) else none }

def prepareIpAttributes (qt : QHostAddress) : QString → QString → EDirectionType → IpAttributes :=
  prepareAttributes qt prepareIp prepareIpMask

def prepareIpv6Attributes (qt : QHostAddress) : QString → QString → EDirectionType → IpAttributes :=
  prepareAttributes qt prepareIpv6 prepareIpv6Mask

/-! ## Ports -/

def S_MAX_PORT : Nat := 65535

/-- A port that `CheckFirewall` lets pass. -/
abbrev Port := {port : Nat // port ≤ S_MAX_PORT}

structure PortAttributes where
  srcportstart : Option Int := none
  srcportend : Option Int := none
  dstportstart : Option Int := none
  dstportend : Option Int := none
  deriving DecidableEq, Repr

def preparePort (value : Port) : Option Int :=
  if value.val = 0 then none else some (setValue PData5657.validate 0 value.val)

def preparePortAttributes (local_port remote_port : Port) (direction : EDirectionType) :
    PortAttributes :=
  let source_port := if direction = .In then remote_port else local_port
  let destination_port := if direction = .In then local_port else remote_port
  { srcportstart := preparePort source_port
    srcportend := preparePort source_port
    dstportstart := preparePort destination_port
    dstportend := preparePort destination_port }

theorem preparePort_some {value : Port} (h : value.val ≠ 0) :
    preparePort value = some (value.val : Int) := by
  have hvalid : PData5657.validate value.val = true := by
    have := value.property
    simp only [PData5657.validate, S_MAX_PORT] at *
    simp
    omega
  simp [preparePort, h, setValue, hvalid]

end DispService.Nwfilter
