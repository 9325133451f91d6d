import Mathlib.Data.List.Basic

/-! A document object model, first child and next sibling. A cursor is the list of
siblings that starts at it. -/
namespace DispService.Lib

abbrev Attributes := List (String × String)

inductive Dom where
  | nil
  | element (tag : String) (attributes : Attributes) (childs next : Dom)
  | text (value : String) (next : Dom)
  | cdata (value : String) (next : Dom)
  deriving DecidableEq, Repr

structure DomElement where
  tag : String
  attributes : Attributes
  childs : Dom
  deriving DecidableEq, Repr

/-- The value of an attribute, empty when it is absent. -/
def Attributes.attribute (attributes : Attributes) (name : String) : String :=
  (attributes.lookup name).getD ""

/-- A new attribute, or a new value for the one of that name. -/
def Attributes.setAttribute : Attributes → String → String → Attributes
  | [], name, value => [(name, value)]
  | (n, v) :: rest, name, value =>
      if n = name then (n, value) :: rest else (n, v) :: setAttribute rest name value

namespace Dom

def append : Dom → Dom → Dom
  | nil, d => d
  | element tag attributes childs next, d => element tag attributes childs (next.append d)
  | text value next, d => text value (next.append d)
  | cdata value next, d => cdata value (next.append d)

def hasChildNodes : Dom → Bool
  | nil => false
  | _ => true

/-- The first element among the siblings. -/
def firstElement : Dom → Dom
  | nil => nil
  | element tag attributes childs next => element tag attributes childs next
  | text _ next => next.firstElement
  | cdata _ next => next.firstElement

/-- All character data inside, in document order. -/
def innerText : Dom → String
  | nil => ""
  | element _ _ childs next => childs.innerText ++ next.innerText
  | text value next => value ++ next.innerText
  | cdata value next => value ++ next.innerText

def depth : Dom → Nat
  | nil => 0
  | element _ _ childs next => max (childs.depth + 1) next.depth
  | text _ next => next.depth
  | cdata _ next => next.depth

/-- An element that holds one text. -/
def textElement (tag value : String) : Dom :=
  element tag [] (text value nil) nil

@[simp] theorem nil_append (d : Dom) : nil.append d = d := rfl

@[simp] theorem element_append (tag : String) (attributes : Attributes) (childs next d : Dom) :
    (element tag attributes childs next).append d =
      element tag attributes childs (next.append d) := rfl

@[simp] theorem innerText_text (value : String) : (text value nil).innerText = value := by
  simp [innerText]

@[simp] theorem append_nil (d : Dom) : d.append nil = d := by
  induction d with
  | nil => rfl
  | element tag attributes childs next _ ih => rw [element_append, ih]
  | text value next ih => rw [append, ih]
  | cdata value next ih => rw [append, ih]

theorem depth_append (d e : Dom) : (d.append e).depth = max d.depth e.depth := by
  induction d with
  | nil => simp [depth]
  | element tag attributes childs next _ ih => simp only [element_append, depth, ih, Nat.max_assoc]
  | text value next ih => exact ih
  | cdata value next ih => exact ih

end Dom

end DispService.Lib
