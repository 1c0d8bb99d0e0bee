import TemplateTree.Builder
import TemplateTree.Json.Basic

/-! The records that nodes are made of, as values: points, spans, locations, trim marks, slot names,
kinds of nodes, options, and paths, which are tagged with their kind as parts of a tree. -/
namespace TemplateTree

open Json (member memberOr memberOrNull)

/-! ### Locations -/

def Json.ofUInt64 (n : UInt64) : Json := .int n.toNat

def Json.uint64? (j : Json) : Option UInt64 := j.nat64?.map UInt64.ofNat

namespace Position

def toJson (p : Position) : Json :=
  .object [("line", .ofUInt64 p.line), ("column", .ofUInt64 p.column)]

def ofJson? : Json → Option Position
  | .object ms => do
    let line ← member Json.uint64? "line" ms
    let column ← member Json.uint64? "column" ms
    return ⟨line, column⟩
  | _ => none

end Position

namespace Span

def toJson (s : Span) : Json :=
  .object [("first_line", .ofUInt64 s.first.line), ("first_column", .ofUInt64 s.first.column),
    ("last_line", .ofUInt64 s.last.line), ("last_column", .ofUInt64 s.last.column)]

def ofJson? : Json → Option Span
  | .object ms => do
    let firstLine ← member Json.uint64? "first_line" ms
    let firstColumn ← member Json.uint64? "first_column" ms
    let lastLine ← member Json.uint64? "last_line" ms
    let lastColumn ← member Json.uint64? "last_column" ms
    return ⟨⟨firstLine, firstColumn⟩, ⟨lastLine, lastColumn⟩⟩
  | _ => none

end Span

namespace Location

def toJson (l : Location) : Json :=
  .object [("source", .ofOption .string l.source), ("start", l.start.toJson),
    ("end", l.stop.toJson)]

def ofJson? : Json → Option Location
  | .object ms => do
    let source ← memberOrNull Json.string? "source" ms
    let start ← member Position.ofJson? "start" ms
    let stop ← member Position.ofJson? "end" ms
    return ⟨source, start, stop⟩
  | _ => none

end Location

/-! ### Marks and options -/

namespace Strip

def toJson (s : Strip) : Json := .object [("open", .bool s.opening), ("close", .bool s.closing)]

def ofJson? : Json → Option Strip
  | .object ms => do
    let opening ← member Json.bool? "open" ms
    let closing ← member Json.bool? "close" ms
    return ⟨opening, closing⟩
  | _ => none

end Strip

namespace SlotName

def toJson (s : SlotName) : Json := .string s.text

def ofJson? (j : Json) : Option SlotName := j.string?.map SlotName.mk

end SlotName

namespace NodeKind

def toJson (k : NodeKind) : Json := .string k.name

/-- A kind is read from its name, which may also be the only key of an object, over `null`. -/
def ofJson? : Json → Option NodeKind
  | .string name => ofName? name
  | .object [(name, .null)] => ofName? name
  | _ => none

end NodeKind

namespace Options

def toJson (o : Options) : Json :=
  .object [("source", .ofOption .string o.source), ("namedBlockSlots", .bool o.namedBlockSlots)]

/-- Options that are not given have their defaults. -/
def ofJson? : Json → Option Options
  | .object ms => do
    let source ← memberOrNull Json.string? "source" ms
    let namedBlockSlots ← memberOr true Json.bool? "namedBlockSlots" ms
    return ⟨source, namedBlockSlots⟩
  | _ => none

end Options

/-! ### Paths -/

/-- The tag that tells the kind of a node. -/
def NodeKind.tag (k : NodeKind) : String × Json := ("type", k.toJson)

/-- The kind that a node is tagged with; a tag is a name. -/
def NodeKind.ofMembers? (ms : Json.Members) : Option NodeKind :=
  (member Json.string? "type" ms).bind NodeKind.ofName?

theorem NodeKind.ofMembers?_tag (k : NodeKind) (ms : Json.Members) :
    NodeKind.ofMembers? (k.tag :: ms) = some k := by
  simp [ofMembers?, tag, toJson, member, Json.string?, ofName?_name]

namespace Path

def members (p : Path) : Json.Members :=
  [("data", .bool p.data), ("depth", .int p.depth), ("parts", .ofStrings p.parts),
    ("original", .string p.written), ("loc", p.loc.toJson)]

def ofMembers? (ms : Json.Members) : Option Path := do
  let data ← member Json.bool? "data" ms
  let depth ← member Json.nat64? "depth" ms
  let parts ← member Json.strings? "parts" ms
  let written ← member Json.string? "original" ms
  let loc ← member Location.ofJson? "loc" ms
  return ⟨data, depth, parts, written, loc⟩

def toJson (p : Path) : Json := .object p.members

def ofJson? : Json → Option Path
  | .object ms => ofMembers? ms
  | _ => none

/-- A path inside of a tree is tagged. -/
def toTagged (p : Path) : Json := .object (NodeKind.path.tag :: p.members)

/-- A path inside of a tree has to be tagged. -/
def ofTagged? : Json → Option Path
  | .object ms => if NodeKind.ofMembers? ms = some .path then ofMembers? ms else none
  | _ => none

end Path

end TemplateTree
