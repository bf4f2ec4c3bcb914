/-!
# Text of structured values

Values are shown either on one line, `Name { a: 1, d: [0, 0] }`, or spread out with one member a
line. A spread-out value is a list of lines: a nested value keeps its lines and moves four columns
to the right, and every member ends in a comma.
-/

namespace PlatformLayer.Text

/-- A braced record on one line. -/
def record (name : String) (members : List (String × String)) : String :=
  name ++ " \x7b " ++ ", ".intercalate (members.map fun m => m.1 ++ ": " ++ m.2) ++ " \x7d"

def array (items : List String) : String :=
  "[" ++ ", ".intercalate items ++ "]"

/-- A name applied to one value. -/
def applied (name : String) (item : String) : String :=
  name ++ "(" ++ item ++ ")"

def option : Option String → String
  | some text => applied "Some" text
  | none => "None"

/-- Puts a comma after the last line. -/
def withComma : List String → List String
  | [] => []
  | [line] => [line ++ ","]
  | line :: rest => line :: withComma rest

/-- The lines of one member: a label before the first line and a comma after the last. -/
def member (label : String) : List String → List String
  | [] => []
  | line :: rest => withComma ((label ++ line) :: rest)

def indent (lines : List String) : List String :=
  lines.map ("    " ++ ·)

/-- A braced record, one member below the other. -/
def spreadRecord (name : String) (members : List (String × List String)) : List String :=
  (name ++ " \x7b") :: members.flatMap (fun m => indent (member (m.1 ++ ": ") m.2)) ++ ["\x7d"]

def spreadArray (items : List (List String)) : List String :=
  "[" :: items.flatMap (fun item => indent (member "" item)) ++ ["]"]

def lines (ls : List String) : String :=
  "\n".intercalate ls

end PlatformLayer.Text
