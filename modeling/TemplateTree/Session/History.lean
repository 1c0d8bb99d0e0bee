import TemplateTree.Tag.Block

/-! What has been built so far in a session: the results that calls of a builder pass on to one
another, and how later calls refer to them. -/
namespace TemplateTree

inductive Piece where
  | path (path : Path)
  | expr (expr : Expr)
  | hashPair (pair : HashPair)
  | hash (hash : Hash)
  | statement (statement : Statement)
  | program (program : Program)
  | openTag (tag : OpenTag)
  | closeTag (tag : CloseTag)
  | inverse (inverse : Inverse)

namespace Piece

def asPath? : Piece → Option Path
  | path p => some p
  | _ => none

/-- An expression; a path is one too. -/
def asExpr? : Piece → Option Expr
  | expr e => some e
  | path p => some (.path p)
  | _ => none

def asHashPair? : Piece → Option HashPair
  | hashPair p => some p
  | _ => none

def asHash? : Piece → Option Hash
  | hash h => some h
  | _ => none

def asStatement? : Piece → Option Statement
  | statement s => some s
  | _ => none

def asProgram? : Piece → Option Program
  | program p => some p
  | _ => none

def asOpenTag? : Piece → Option OpenTag
  | openTag t => some t
  | _ => none

def asCloseTag? : Piece → Option CloseTag
  | closeTag t => some t
  | _ => none

def asInverse? : Piece → Option Inverse
  | inverse i => some i
  | _ => none

end Piece

/-- The number of an earlier call, from zero. -/
abbrev Ref := Nat

/-- Why a call has no result. -/
inductive CallFault where
  | build (error : BuildError)
  /-- An argument refers to a call that has no result. -/
  | missing (ref : Ref)
  /-- An argument refers to a result of another kind. -/
  | wrongKind (ref : Ref)
deriving DecidableEq

/-- The results of the calls so far, in order; a call that failed has none. -/
abbrev History := List (Option Piece)

namespace History

variable {α : Type} (h : History) (view : Piece → Option α)

/-- The result that an argument refers to, as the kind of piece that is asked for. -/
def get (ref : Ref) : Except CallFault α :=
  match h[ref]? with
  | some (some piece) => (view piece).elim (.error (.wrongKind ref)) .ok
  | _ => .error (.missing ref)

def getOption : Option Ref → Except CallFault (Option α)
  | none => .ok none
  | some ref => (h.get view ref).map some

def getList : List Ref → Except CallFault (List α)
  | [] => .ok []
  | ref :: rest => do return (← h.get view ref) :: (← getList rest)

end History

end TemplateTree
