import TemplateTree.Expr.Basic
import TemplateTree.Json.Record

/-! Expressions as values. An expression is read by the kind that it is tagged with; hashes and
their pairs are tagged too, but only ever stand where nothing else may, and their tag is not
read. -/
namespace TemplateTree

open Json (member)

/-- A number. Only finite ones can be written. -/
def Json.ofDouble (x : Binary64) : Json := if x.isFinite then .double x else .null

mutual
def Expr.toJson : Expr → Json
  | .path p => p.toTagged
  | .call callee args loc =>
    .object (NodeKind.subExpression.tag :: ("path", callee.toJson) :: args.members ++
      [("loc", loc.toJson)])
  | .string value written loc =>
    .object [NodeKind.string.tag, ("value", .string value), ("original", .string written),
      ("loc", loc.toJson)]
  | .number value written loc =>
    .object [NodeKind.number.tag, ("value", .ofDouble value), ("original", .string written),
      ("loc", loc.toJson)]
  | .boolean value written loc =>
    .object [NodeKind.boolean.tag, ("value", .bool value), ("original", .string written),
      ("loc", loc.toJson)]
  | .undefined loc => .object [NodeKind.undefined.tag, ("loc", loc.toJson)]
  | .null loc => .object [NodeKind.null.tag, ("loc", loc.toJson)]

def Arguments.members : Arguments → Json.Members
  | ⟨params, hash⟩ => [("params", .array (Expr.toJsonList params)), ("hash", Hash.toJsonOption hash)]

def Expr.toJsonList : List Expr → List Json
  | [] => []
  | e :: rest => e.toJson :: Expr.toJsonList rest

def Hash.toJsonOption : Option Hash → Json
  | none => .null
  | some h => h.toJson

def Hash.toJson : Hash → Json
  | ⟨pairs, loc⟩ =>
    .object [NodeKind.hash.tag, ("pairs", .array (HashPair.toJsonList pairs)), ("loc", loc.toJson)]

def HashPair.toJsonList : List HashPair → List Json
  | [] => []
  | p :: rest => p.toJson :: HashPair.toJsonList rest

def HashPair.toJson : HashPair → Json
  | ⟨key, value, loc⟩ =>
    .object [NodeKind.hashPair.tag, ("key", .string key), ("value", value.toJson),
      ("loc", loc.toJson)]
end

mutual
def Expr.ofJson? : Json → Option Expr
  | .object ms => do
    match ← NodeKind.ofMembers? ms with
    | .path => return .path (← Path.ofMembers? ms)
    | .subExpression =>
      let callee ← Expr.member? "path" ms
      let params ← Expr.listMember? "params" ms
      let hash ← Hash.memberOrNull? "hash" ms
      return .call callee ⟨params, hash⟩ (← member Location.ofJson? "loc" ms)
    | .string =>
      let value ← member Json.string? "value" ms
      let written ← member Json.string? "original" ms
      return .string value written (← member Location.ofJson? "loc" ms)
    | .number =>
      let value ← member Json.double? "value" ms
      let written ← member Json.string? "original" ms
      return .number value written (← member Location.ofJson? "loc" ms)
    | .boolean =>
      let value ← member Json.bool? "value" ms
      let written ← member Json.string? "original" ms
      return .boolean value written (← member Location.ofJson? "loc" ms)
    | .undefined => return .undefined (← member Location.ofJson? "loc" ms)
    | .null => return .null (← member Location.ofJson? "loc" ms)
    | _ => none
  | _ => none

def Expr.member? (key : String) : Json.Members → Option Expr
  | [] => none
  | (k, j) :: rest => if key = k then Expr.ofJson? j else Expr.member? key rest

def Expr.listMember? (key : String) : Json.Members → Option (List Expr)
  | [] => none
  | (k, j) :: rest => if key = k then Expr.list? j else Expr.listMember? key rest

def Expr.list? : Json → Option (List Expr)
  | .array items => Expr.items? items
  | _ => none

def Expr.items? : List Json → Option (List Expr)
  | [] => some []
  | j :: rest => do return (← Expr.ofJson? j) :: (← Expr.items? rest)

/-- The hash under a key that may be absent or `null`. -/
def Hash.memberOrNull? (key : String) : Json.Members → Option (Option Hash)
  | [] => some none
  | (k, j) :: rest => if key = k then Hash.orNull? j else Hash.memberOrNull? key rest

def Hash.orNull? : Json → Option (Option Hash)
  | .null => some none
  | .object ms => do
    let pairs ← HashPair.listMember? "pairs" ms
    return some ⟨pairs, ← member Location.ofJson? "loc" ms⟩
  | _ => none

def HashPair.listMember? (key : String) : Json.Members → Option (List HashPair)
  | [] => none
  | (k, j) :: rest => if key = k then HashPair.list? j else HashPair.listMember? key rest

def HashPair.list? : Json → Option (List HashPair)
  | .array items => HashPair.items? items
  | _ => none

def HashPair.items? : List Json → Option (List HashPair)
  | [] => some []
  | j :: rest => do return (← HashPair.ofJson? j) :: (← HashPair.items? rest)

def HashPair.ofJson? : Json → Option HashPair
  | .object ms => do
    let key ← member Json.string? "key" ms
    let value ← Expr.member? "value" ms
    return ⟨key, value, ← member Location.ofJson? "loc" ms⟩
  | _ => none
end

/-- Reads a hash that has to be there. -/
def Hash.ofJson? (j : Json) : Option Hash := (Hash.orNull? j).join

def Arguments.ofMembers? (ms : Json.Members) : Option Arguments := do
  let params ← Expr.listMember? "params" ms
  return ⟨params, ← Hash.memberOrNull? "hash" ms⟩

end TemplateTree
