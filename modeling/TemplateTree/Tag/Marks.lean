/-! What the raw text of a tag says beyond its name: which of its sides are trimmed, whether it is a
decorator, whether its output is escaped, and where the text of a comment starts and ends. -/
namespace TemplateTree

/-! ### Trim marks

The `~` that a tag writes on the inside of its braces to have the blanks beside it removed. They are
only recorded here. -/

/-- Which sides of a tag carry a trim mark. -/
structure Strip where
  opening : Bool := false
  closing : Bool := false
deriving DecidableEq

namespace Strip

def isEmpty (s : Strip) : Bool := !s.opening && !s.closing

/-- The mark of an opening text is its third character, that of a closing text its third
from the end: the one next to the two braces. -/
def ofTags (opening closing : String) : Strip where
  opening := opening.toList[2]? == some '~'
  closing := closing.toList.reverse[2]? == some '~'

end Strip

/-! ### Opening texts

A star makes a decorator, a third brace or an ampersand turns escaping off. -/

namespace Delimiter

/-- A tag is a decorator when a star stands anywhere in its opening text. -/
def isDecorator (opening : String) : Bool := opening.toList.contains '*'

/-- The character that decides on escaping: the fourth when there is one, so that a trim mark
may stand before it, and else the third. -/
def escapeMark? (opening : String) : Option Char :=
  opening.toList[3]?.or opening.toList[2]?

/-- Output is escaped unless the deciding character is a brace or an ampersand. -/
def escapes (opening : String) : Bool :=
  match escapeMark? opening with
  | some c => c != '{' && c != '&'
  | none => true

end Delimiter

/-! ### Comments

Before a comment stand two braces, an optional trim mark, `!` and up to two hyphens; behind it stand
up to two hyphens, an optional trim mark and two braces. -/

namespace Comment

/-- Drops a leading `c`, if the text has one. -/
def dropMark (c : Char) : List Char → List Char
  | [] => []
  | d :: rest => if d = c then rest else d :: rest

/-- The text behind an opening markup, if one stands at the start. -/
def afterOpening? : List Char → Option (List Char)
  | '{' :: '{' :: rest =>
    match dropMark '~' rest with
    | '!' :: body => some (dropMark '-' (dropMark '-' body))
    | _ => none
  | _ => none

/-- The text before a closing markup, if one stands at the end. It is read from the end, so
the longest markup is taken. -/
def beforeClosing? (text : List Char) : Option (List Char) :=
  match text.reverse with
  | '}' :: '}' :: rest => some (dropMark '-' (dropMark '-' (dropMark '~' rest))).reverse
  | _ => none

/-- The text of a comment without its markup. The closing markup is looked for in what the
opening markup left, and each stays away on its own when it is not there. -/
def body (raw : String) : String :=
  let inner := (afterOpening? raw.toList).getD raw.toList
  String.ofList ((beforeClosing? inner).getD inner)

end Comment

end TemplateTree
