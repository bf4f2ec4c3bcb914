import PlatformLayer.Context.Basic

/-!
# Text of a context

A context is shown as a record of its layout's fields in declaration order; an array field is shown
as the list of its elements.
-/

namespace PlatformLayer.Context

variable {l : Layout}

def fieldText (c : Context l) (i : Fin l.fields.length) : String :=
  let items := (l.slotsOf i).map fun s => Kind.text (c.value s)
  match (l.fields.get i).length with
  | none => items.headD ""
  | some _ => Text.array items

def fieldSpread (c : Context l) (i : Fin l.fields.length) : List String :=
  let items := (l.slotsOf i).map fun s => Kind.spread (c.value s)
  match (l.fields.get i).length with
  | none => items.headD []
  | some _ => Text.spreadArray items

/-- The context on one line. -/
def text (c : Context l) : String :=
  Text.record l.name ((List.finRange l.fields.length).map fun i =>
    ((l.fields.get i).name, c.fieldText i))

/-- The context with one field a line. -/
def spreadText (c : Context l) : String :=
  Text.lines (Text.spreadRecord l.name ((List.finRange l.fields.length).map fun i =>
    ((l.fields.get i).name, c.fieldSpread i)))

end PlatformLayer.Context
