/-! Where the nodes of a tree stand in their template: points, the spans that a grammar reports for
them, and locations, which may carry the name of the template. The faults that only show when a tree
is built are reported at locations. -/
namespace TemplateTree

structure Position where
  line : UInt64
  column : UInt64
deriving DecidableEq

/-- What a grammar reports for a piece of template: its first and its last point. -/
structure Span where
  first : Position
  last : Position
deriving DecidableEq

/-- The range of a node, with the name of its template when that is known. -/
structure Location where
  source : Option String
  start : Position
  stop : Position
deriving DecidableEq

/-- A point is printed as its line and its column with a colon between. -/
def Position.text (p : Position) : String :=
  toString p.line.toNat ++ ":" ++ toString p.column.toNat

namespace Location

def ofSpan (source : Option String) (span : Span) : Location :=
  ⟨source, span.first, span.last⟩

/-- The range from the start of `first` to the end of `last`, in the template of `first`. -/
def merge (first last : Location) : Location :=
  ⟨first.source, first.start, last.stop⟩

/-- Moves a location by lines and columns, and puts a mark before the template's name. -/
def shift (lines columns : UInt64) (mark : String) (l : Location) : Location where
  source := l.source.map (mark ++ ·)
  start := ⟨l.start.line + lines, l.start.column + columns⟩
  stop := ⟨l.stop.line + lines, l.stop.column + columns⟩

/-- A location is printed as its two points, after the template's name and `@` if it has one. -/
def text (l : Location) : String :=
  let range := l.start.text ++ "-" ++ l.stop.text
  match l.source with
  | some name => name ++ "@" ++ range
  | none => range

end Location

/-! ### Faults -/

/-- Why a node cannot be built, and where. -/
inductive BuildError where
  | tagMismatch (opened closed : String) (loc : Location)
  /-- The path, whose text is given up to the fault, names a context behind a member. -/
  | invalidPath (written : String) (loc : Location)
  | inverseOnDecorator (loc : Location)
  /-- The text is no numeral, or one out of range. -/
  | invalidNumber (written : String) (loc : Location)
deriving DecidableEq

namespace BuildError

def loc : BuildError → Location
  | tagMismatch _ _ loc | invalidPath _ loc | inverseOnDecorator loc | invalidNumber _ loc => loc

def description : BuildError → String
  | tagMismatch opened closed _ => opened ++ " doesn't match " ++ closed
  | invalidPath written _ => "Invalid path: " ++ written
  | inverseOnDecorator _ => "Unexpected inverse block on decorator"
  | invalidNumber written _ => "Invalid number: " ++ written

def message (e : BuildError) : String := e.description ++ " - " ++ e.loc.start.text

end BuildError

/-- The node, unless there is a fault. -/
def unlessFault {α : Type} (fault : Option BuildError) (node : α) : Except BuildError α :=
  fault.elim (.ok node) .error

end TemplateTree
