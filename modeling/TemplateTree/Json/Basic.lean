import TemplateTree.Numeral

/-! The values that trees are written as and read from: nested values with numbers, texts, lists
and members under keys. Integers are told apart from other numbers and have no bounds. -/
namespace TemplateTree

/-- A value. The members of an object keep their order; a key is looked up at its first
occurrence. -/
inductive Json where
  | null
  | bool (value : Bool)
  | int (value : Int)
  | double (value : Binary64)
  | string (value : String)
  | array (items : List Json)
  | object (members : List (String × Json))

namespace Json

abbrev Members := List (String × Json)

/-! ### Writing -/

/-- What is absent is written as `null`. -/
def ofOption {α : Type} (write : α → Json) : Option α → Json
  | some a => write a
  | none => null

def ofStrings (texts : List String) : Json := array (texts.map string)

/-! ### Reading -/

def string? : Json → Option String
  | string s => some s
  | _ => none

def bool? : Json → Option Bool
  | bool b => some b
  | _ => none

/-- An integer of sixty-four bits without a sign. -/
def nat64? : Json → Option Nat
  | int n => if 0 ≤ n ∧ n < UInt64.size then some n.toNat else none
  | _ => none

/-- A number of any form that is finite as a double. -/
def double? : Json → Option Binary64
  | int n => (some (Binary64.ofDecimal (.ofInt n))).filter Binary64.isFinite
  | double x => (some x).filter Binary64.isFinite
  | _ => none

def strings? : Json → Option (List String)
  | array items => items.mapM string?
  | _ => none

/-- The member under a key, which has to be there. -/
def member {α : Type} (read : Json → Option α) (key : String) (ms : Members) : Option α :=
  (ms.lookup key).bind read

/-- Reads `null` as nothing, and anything else with `read`. -/
def orNull {α : Type} (read : Json → Option α) : Json → Option (Option α)
  | null => some none
  | j => (read j).map some

/-- The member under a key that may be absent or `null`. -/
def memberOrNull {α : Type} (read : Json → Option α) (key : String) (ms : Members) :
    Option (Option α) :=
  match ms.lookup key with
  | some j => orNull read j
  | none => some none

/-- The member under a key that may be absent, but not `null`. -/
def memberOr {α : Type} (default : α) (read : Json → Option α) (key : String) (ms : Members) :
    Option α :=
  match ms.lookup key with
  | some j => read j
  | none => some default

end Json

end TemplateTree
