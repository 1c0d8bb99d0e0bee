import TemplateTree.Json.Expr
import TemplateTree.Statement.Basic

/-! Statements and programs as values. A statement is read by the kind that it is tagged with;
programs are tagged too, but their tag is not read. -/
namespace TemplateTree

open Json (member memberOr memberOrNull)

mutual
def Statement.toJson : Statement → Json
  | .mustache ⟨path, args, escaped, strip, loc⟩ =>
    .object (NodeKind.mustache.tag :: ("path", path.toJson) :: args.members ++
      [("escaped", .bool escaped), ("strip", strip.toJson), ("loc", loc.toJson)])
  | .decorator ⟨path, args, escaped, strip, loc⟩ =>
    .object (NodeKind.decorator.tag :: ("path", path.toJson) :: args.members ++
      [("escaped", .bool escaped), ("strip", strip.toJson), ("loc", loc.toJson)])
  | .block kind b => .object ((NodeKind.block kind).tag :: b.members)
  | .partialTag ⟨name, args, indent, strip, loc⟩ =>
    .object (NodeKind.partialTag.tag :: ("name", name.toJson) :: args.members ++
      [("indent", .string indent), ("strip", strip.toJson), ("loc", loc.toJson)])
  | .partialBlock b => .object (NodeKind.partialBlock.tag :: b.members)
  | .content value written loc =>
    .object [NodeKind.content.tag, ("value", .string value), ("original", .string written),
      ("loc", loc.toJson)]
  | .comment value strip loc =>
    .object [NodeKind.comment.tag, ("value", .string value), ("strip", strip.toJson),
      ("loc", loc.toJson)]

def Block.members : Block → Json.Members
  | ⟨path, slot, args, program, inverse, openStrip, inverseStrip, closeStrip, loc⟩ =>
    ("path", path.toTagged) :: ("slotName", slot.toJson) :: args.members ++
      [("program", Program.toJsonOption program), ("inverse", Program.toJsonOption inverse),
        ("openStrip", openStrip.toJson), ("inverseStrip", .ofOption Strip.toJson inverseStrip),
        ("closeStrip", .ofOption Strip.toJson closeStrip), ("loc", loc.toJson)]

def PartialBlock.members : PartialBlock → Json.Members
  | ⟨name, args, program, openStrip, closeStrip, loc⟩ =>
    ("name", name.toTagged) :: args.members ++
      [("program", program.toJson), ("openStrip", openStrip.toJson),
        ("closeStrip", .ofOption Strip.toJson closeStrip), ("loc", loc.toJson)]

def Program.toJsonOption : Option Program → Json
  | none => .null
  | some p => p.toJson

/-- A program; that it is not chained is not written. -/
def Program.toJson : Program → Json
  | ⟨body, blockParams, strip, chained, loc⟩ =>
    .object ([NodeKind.program.tag, ("body", .array (Statement.toJsonList body)),
      ("blockParams", .ofOption .ofStrings blockParams), ("strip", strip.toJson)] ++
      (if chained then [("chained", .bool true)] else []) ++
      [("loc", .ofOption Location.toJson loc)])

def Statement.toJsonList : List Statement → List Json
  | [] => []
  | s :: rest => s.toJson :: Statement.toJsonList rest
end

def Mustache.ofMembers? (ms : Json.Members) : Option Mustache := do
  let path ← member Expr.ofJson? "path" ms
  let args ← Arguments.ofMembers? ms
  let escaped ← member Json.bool? "escaped" ms
  let strip ← member Strip.ofJson? "strip" ms
  let loc ← member Location.ofJson? "loc" ms
  return ⟨path, args, escaped, strip, loc⟩

def PartialTag.ofMembers? (ms : Json.Members) : Option PartialTag := do
  let name ← member Expr.ofJson? "name" ms
  let args ← Arguments.ofMembers? ms
  let indent ← member Json.string? "indent" ms
  let strip ← member Strip.ofJson? "strip" ms
  let loc ← member Location.ofJson? "loc" ms
  return ⟨name, args, indent, strip, loc⟩

/-- Reads a block from its members, given its branches. -/
def Block.ofMembers? (program inverse : Option Program) (ms : Json.Members) : Option Block := do
  let path ← member Path.ofTagged? "path" ms
  let slot ← member SlotName.ofJson? "slotName" ms
  let args ← Arguments.ofMembers? ms
  let openStrip ← member Strip.ofJson? "openStrip" ms
  let inverseStrip ← memberOrNull Strip.ofJson? "inverseStrip" ms
  let closeStrip ← memberOrNull Strip.ofJson? "closeStrip" ms
  let loc ← member Location.ofJson? "loc" ms
  return ⟨path, slot, args, program, inverse, openStrip, inverseStrip, closeStrip, loc⟩

/-- Reads an included template with a body from its members, given that body. -/
def PartialBlock.ofMembers? (program : Program) (ms : Json.Members) : Option PartialBlock := do
  let name ← member Path.ofTagged? "name" ms
  let args ← Arguments.ofMembers? ms
  let openStrip ← member Strip.ofJson? "openStrip" ms
  let closeStrip ← memberOrNull Strip.ofJson? "closeStrip" ms
  let loc ← member Location.ofJson? "loc" ms
  return ⟨name, args, program, openStrip, closeStrip, loc⟩

/-- Reads a program from its members, given its statements. -/
def Program.ofMembers? (body : List Statement) (ms : Json.Members) : Option Program := do
  let blockParams ← memberOrNull Json.strings? "blockParams" ms
  let strip ← member Strip.ofJson? "strip" ms
  let chained ← memberOr false Json.bool? "chained" ms
  let loc ← memberOrNull Location.ofJson? "loc" ms
  return ⟨body, blockParams, strip, chained, loc⟩

mutual
def Statement.ofJson? : Json → Option Statement
  | .object ms => do
    match ← NodeKind.ofMembers? ms with
    | .mustache => return .mustache (← Mustache.ofMembers? ms)
    | .decorator => return .decorator (← Mustache.ofMembers? ms)
    | .block kind =>
      let program ← Program.memberOrNull? "program" ms
      let inverse ← Program.memberOrNull? "inverse" ms
      return .block kind (← Block.ofMembers? program inverse ms)
    | .partialTag => return .partialTag (← PartialTag.ofMembers? ms)
    | .partialBlock =>
      let program ← (← Program.memberOrNull? "program" ms)
      return .partialBlock (← PartialBlock.ofMembers? program ms)
    | .content =>
      let value ← member Json.string? "value" ms
      let written ← member Json.string? "original" ms
      return .content value written (← member Location.ofJson? "loc" ms)
    | .comment =>
      let value ← member Json.string? "value" ms
      let strip ← member Strip.ofJson? "strip" ms
      return .comment value strip (← member Location.ofJson? "loc" ms)
    | _ => none
  | _ => none

/-- The program under a key that may be absent or `null`. -/
def Program.memberOrNull? (key : String) : Json.Members → Option (Option Program)
  | [] => some none
  | (k, j) :: rest => if key = k then Program.orNull? j else Program.memberOrNull? key rest

def Program.orNull? : Json → Option (Option Program)
  | .null => some none
  | .object ms => do
    let body ← Statement.listMember? "body" ms
    return some (← Program.ofMembers? body ms)
  | _ => none

def Statement.listMember? (key : String) : Json.Members → Option (List Statement)
  | [] => none
  | (k, j) :: rest => if key = k then Statement.list? j else Statement.listMember? key rest

def Statement.list? : Json → Option (List Statement)
  | .array items => Statement.items? items
  | _ => none

def Statement.items? : List Json → Option (List Statement)
  | [] => some []
  | j :: rest => do return (← Statement.ofJson? j) :: (← Statement.items? rest)
end

/-- Reads a program that has to be there. -/
def Program.ofJson? (j : Json) : Option Program := (Program.orNull? j).join

end TemplateTree
