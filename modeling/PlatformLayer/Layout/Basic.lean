import PlatformLayer.Layout.Kind

/-!
# Storage layouts

A layout lists fields in declaration order. Each field starts at the first multiple of its alignment
after the field before it, and the whole is rounded up to the largest alignment. A *slot* is one
scalar field or one element of an array field; slots are what is read and written.
-/

namespace PlatformLayer

structure Field where
  name : String
  kind : Kind
  /-- The number of elements of an array field. -/
  length : Option Nat
  deriving DecidableEq

namespace Field

def count (f : Field) : Nat := f.length.getD 1

def size (f : Field) : Nat := f.count * f.kind.size

def scalar (kind : Kind) (name : String) : Field := ⟨name, kind, none⟩

def array (kind : Kind) (name : String) (length : Nat) : Field := ⟨name, kind, some length⟩

end Field

structure Layout where
  name : String
  fields : List Field
  /-- An alignment that holds whatever the fields need. -/
  alignment : Nat := 1

namespace Layout

/-- The first multiple of `a` that is not below `n`. -/
def roundUp (n a : Nat) : Nat := n + (a - n % a) % a

/-- Where the last of some fields ends, the first starting at zero. -/
def extent (fields : List Field) : Nat :=
  fields.foldl (fun stop f => roundUp stop f.kind.align + f.size) 0

def align (l : Layout) : Nat :=
  l.fields.foldl (fun a f => max a f.kind.align) l.alignment

def size (l : Layout) : Nat := roundUp (extent l.fields) l.align

/-- One scalar field, or one element of an array field. -/
structure Slot (l : Layout) where
  field : Fin l.fields.length
  element : Fin (l.fields.get field).count
  deriving DecidableEq

variable {l : Layout}

def Slot.kind (s : l.Slot) : Kind := (l.fields.get s.field).kind

def Slot.width (s : l.Slot) : Nat := s.kind.size

def fieldOffset (l : Layout) (i : Fin l.fields.length) : Nat :=
  roundUp (extent (l.fields.take i)) (l.fields.get i).kind.align

def Slot.offset (s : l.Slot) : Nat :=
  l.fieldOffset s.field + s.element * s.kind.size

/-- The field's name, with the index of an array element in brackets. -/
def Slot.name (s : l.Slot) : String :=
  let f := l.fields.get s.field
  match f.length with
  | none => f.name
  | some _ => f.name ++ "[" ++ toString s.element.val ++ "]"

/-- The slots of one field, in order. -/
def slotsOf (l : Layout) (i : Fin l.fields.length) : List l.Slot :=
  (List.finRange (l.fields.get i).count).map fun e => ⟨i, e⟩

/-- All slots, in declaration order. -/
def slots (l : Layout) : List l.Slot :=
  (List.finRange l.fields.length).flatMap l.slotsOf

def slot? (l : Layout) (name : String) : Option l.Slot :=
  l.slots.find? fun s => s.name == name

theorem mem_slots (s : l.Slot) : s ∈ l.slots := by
  obtain ⟨i, e⟩ := s
  simp [slots, slotsOf]

end Layout

end PlatformLayer
