import TemplateTree.NodeKind
import TemplateTree.Numeral
import TemplateTree.Path

/-! Expressions: what a tag outputs, calls or passes on. -/
namespace TemplateTree

mutual
/-- An expression. Literals keep the text that they were written with. -/
inductive Expr where
  | path (path : Path)
  /-- A call in parentheses, such as `(concat a b)`. -/
  | call (callee : Expr) (args : Arguments) (loc : Location)
  | string (value written : String) (loc : Location)
  | number (value : Binary64) (written : String) (loc : Location)
  | boolean (value : Bool) (written : String) (loc : Location)
  | undefined (loc : Location)
  | null (loc : Location)

/-- The arguments of a call: those given by position, and those given by name. -/
structure Arguments where
  params : List Expr
  hash : Option Hash

/-- The named arguments of a call. A name may occur more than once. -/
structure Hash where
  pairs : List HashPair
  loc : Location

/-- One named argument, `key=value`. -/
structure HashPair where
  key : String
  value : Expr
  loc : Location
end

namespace Expr

def nodeKind : Expr → NodeKind
  | path _ => .path
  | call _ _ _ => .subExpression
  | string _ _ _ => .string
  | number _ _ _ => .number
  | boolean _ _ _ => .boolean
  | undefined _ => .undefined
  | null _ => .null

/-- The text that the expression was written with, where it is kept. -/
def written? : Expr → Option String
  | path p => some p.written
  | string _ written _ => some written
  | number _ written _ => some written
  | boolean _ written _ => some written
  | call _ _ _ | undefined _ | null _ => none

def loc : Expr → Location
  | path p => p.loc
  | call _ _ loc | string _ _ loc | number _ _ loc | boolean _ _ loc | undefined loc | null loc =>
    loc

def path? : Expr → Option Path
  | path p => some p
  | _ => none

end Expr

namespace Hash

def isEmpty (h : Hash) : Bool := h.pairs.isEmpty

/-- The value of the first argument with the given name. -/
def get? (h : Hash) (key : String) : Option Expr :=
  (h.pairs.find? (·.key == key)).map (·.value)

end Hash

end TemplateTree
