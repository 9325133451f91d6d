import DispService.PrlResult

/-! What the two ends of a migration pump send each other: packages of one
command that carry bytes, and an empty one for the end of the stream. -/
namespace DispService.Pump

universe u v

/-- An `IOPackage` in the layout of `Fragment::Flavor`: the data, then the spice. -/
structure Package (κ : Type u) (β : Type v) where
  type : κ
  data : List β
  spice : Option String := none

/-- `Fragment::Packer`. -/
structure Packer (κ : Type u) where
  command : κ
  spice : Option String := none

namespace Packer

variable {κ : Type u} {β : Type v}

/-- `Flavor::assemble`. -/
def assemble (p : Packer κ) (data : List β) : Package κ β :=
  { type := p.command, data, spice := p.spice }

/-- The end of the stream: `operator()()`. -/
def eof (p : Packer κ) : Package κ β :=
  p.assemble []

/-- `operator()(const QByteArray&)`: no package is made of no bytes. -/
def pack (p : Packer κ) (data : List β) : Option (Package κ β) :=
  if data.isEmpty then none else some (p.assemble data)

@[simp]
theorem assemble_data (p : Packer κ) (data : List β) : (p.assemble data).data = data :=
  rfl

@[simp]
theorem eof_data (p : Packer κ) : (p.eof : Package κ β).data = [] :=
  rfl

theorem pack_of_ne_nil (p : Packer κ) {data : List β} (h : data ≠ []) :
    p.pack data = some (p.assemble data) := by
  unfold pack
  rw [if_neg (by rw [List.isEmpty_iff]; exact h)]

end Packer

/-- The bytes a list of packages carries, in order. -/
def payload {κ : Type u} {β : Type v} (l : List (Package κ β)) : List β :=
  l.flatMap (·.data)

section

variable {κ : Type u} {β : Type v} {l m : List (Package κ β)} {p : Package κ β}

@[simp]
theorem payload_nil : payload ([] : List (Package κ β)) = [] :=
  rfl

@[simp]
theorem payload_cons : payload (p :: l) = p.data ++ payload l :=
  rfl

@[simp]
theorem payload_append : payload (l ++ m) = payload l ++ payload m :=
  List.flatMap_append

end

/-- `Pump::Queue::isEof`: the head of the queue is the end of the stream. -/
def isEof {κ : Type u} {β : Type v} (items : List (Package κ β)) : Bool :=
  match items with
  | [] => false
  | p :: _ => p.data.length == 0

section

variable {κ : Type u} {β : Type v} {p : Package κ β}

theorem isEof_cons (rest : List (Package κ β)) : isEof (p :: rest) = true ↔ p.data = [] := by
  unfold isEof
  rw [beq_iff_eq, List.length_eq_zero_iff]

theorem isEof_of_filled (h : p.data ≠ []) (rest : List (Package κ β)) :
    isEof (p :: rest) = false := by
  rw [← Bool.not_eq_true, isEof_cons]
  exact h

end

end DispService.Pump
