import TemplateTree.Source

/-! Paths, the references into the data that a template is rendered with, and the slots that they can
name. A path is resolved from the segments that it is written with; a slot is split off behind. -/
namespace TemplateTree

/-! ### Slots

Blocks fill insertion points, by their names. The suffix `::slot` of a text names one: texts are cut
at their first `::`, and a slot ends at the next one. -/

/-- The name of a slot; the empty name stands for no slot. -/
structure SlotName where
  text : String
deriving DecidableEq

namespace SlotName

def empty : SlotName := ⟨""⟩

/-- The slot of a block whose slots are declared by its else chain. An identifier spells this name
only if it has a bar in it. -/
def anonymous : SlotName := ⟨"|anonymous|"⟩

def isEmpty (s : SlotName) : Bool := s == empty

def isAnonymous (s : SlotName) : Bool := s == anonymous

end SlotName

namespace SlotSuffix

/-- Cuts at the first `::`: the text before it, and the text behind it when there is one. -/
def cut : List Char → List Char × Option (List Char)
  | [] => ([], none)
  | c :: rest =>
    if c = ':' ∧ rest.head? = some ':' then ([], some rest.tail)
    else
      let (before, behind) := cut rest
      (c :: before, behind)

/-- Everything before the first `::`; the whole text when there is none. -/
def stem (text : String) : String := String.ofList (cut text.toList).1

/-- The name and the slot of a text `name::slot`. There is no slot to split off when no `::`
occurs or nothing stands before it. -/
def split? (text : String) : Option (String × SlotName) :=
  match cut text.toList with
  | (name@(_ :: _), some behind) => some (String.ofList name, ⟨String.ofList (cut behind).1⟩)
  | _ => none

end SlotSuffix

/-! ### Paths -/

/-- A path such as `foo.bar`, `../name` or `@index`. -/
structure Path where
  /-- The path starts with `@` and names a data variable. -/
  data : Bool
  /-- How many contexts the path climbs. -/
  depth : Nat
  parts : List String
  /-- The path as written, with its separators and without brackets. -/
  written : String
  loc : Location
deriving DecidableEq

/-- The normal text of a path: `@` for data, the climb, and the names joined by points. A climb
with no name behind it does not end in a slash. -/
def Path.canonical (p : Path) : String :=
  let sigil := if p.data then "@" else ""
  let climb := List.replicate p.depth ".."
  if p.parts = [] then sigil ++ "/".intercalate climb
  else sigil ++ String.join (climb.map (· ++ "/")) ++ ".".intercalate p.parts

/-! ### Segments

The pieces of a written path: identifiers, possibly in brackets, with the separators before them. -/

/-- Takes the brackets off an identifier written as `[name]`; other identifiers stay. -/
def unbracket (token : String) : String :=
  match token.toList with
  | '[' :: rest => if rest.getLast? = some ']' then String.ofList rest.dropLast else token
  | _ => token

structure Segment where
  /-- The identifier without brackets. -/
  part : String
  /-- The identifier as written. -/
  written : String
  /-- The separator before it; the first segment has none. -/
  separator : Option String
deriving DecidableEq

namespace Segment

def ofToken (separator : Option String) (token : String) : Segment :=
  ⟨unbracket token, token, separator⟩

/-- The identifier was written in brackets, so that it is a name whatever its text. -/
def isLiteral (s : Segment) : Bool := s.written != s.part

/-- The segment names a context and no member of one. -/
def isReference (s : Segment) : Bool :=
  !s.isLiteral && (s.part == ".." || s.part == "." || s.part == "this")

def text (s : Segment) : String := s.separator.getD "" ++ s.part

end Segment

namespace Path

/-! ### Resolving segments

The references `..`, `.` and `this` stand before all names: `..` climbs one context, the other two
stay. -/

/-- What has been read of a path: its text, the contexts climbed and the names kept. -/
structure Progress where
  text : String
  depth : Nat
  parts : List String
deriving DecidableEq

namespace Progress

/-- Before the first segment only the mark of data has been read. -/
def start (data : Bool) : Progress := ⟨if data then "@" else "", 0, []⟩

/-- Reads one segment. A reference behind a name is a fault, reported with the text up to and
including it. -/
def step (p : Progress) (s : Segment) : Except String Progress :=
  let text := p.text ++ s.text
  if s.isReference then
    if p.parts = [] then .ok ⟨text, if s.part = ".." then p.depth + 1 else p.depth, []⟩
    else .error text
  else .ok ⟨text, p.depth, p.parts ++ [s.part]⟩

end Progress

def resolve (data : Bool) (segments : List Segment) (loc : Location) : Except BuildError Path :=
  match segments.foldlM Progress.step (Progress.start data) with
  | .ok p => .ok ⟨data, p.depth, p.parts, p.text, loc⟩
  | .error text => .error (.invalidPath text loc)

/-! ### Paths that name a slot

The text `name::slot` is a path to `name` and a slot. -/

/-- Cuts the last name at its `::`. -/
def stemLast (parts : List String) : List String :=
  match parts.getLast? with
  | some last => parts.dropLast ++ [SlotSuffix.stem last]
  | none => []

/-- Splits the slot off a path whose text has one. The text is cut at its first `::` and the last name
at its own, which is the same place unless an earlier name has a `::` too. -/
def splitSlot? (p : Path) : Option (Path × SlotName) :=
  (SlotSuffix.split? p.written).map fun (name, slot) =>
    ({ p with written := name, parts := stemLast p.parts }, slot)

end Path

end TemplateTree
