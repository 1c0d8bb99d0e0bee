/-! The kinds of nodes that a tree is made of, and their names. -/
namespace TemplateTree

inductive BlockKind where
  /-- A block whose helper is called with its body. -/
  | plain
  /-- A block that is run while its template is set up. -/
  | decorator
  /-- A block that declares the content of a slot. -/
  | namedSlot
deriving DecidableEq

inductive NodeKind where
  | program
  | mustache
  | decorator
  | block (kind : BlockKind)
  | partialTag
  | partialBlock
  | content
  | comment
  | path
  | subExpression
  | string
  | number
  | boolean
  | undefined
  | null
  | hash
  | hashPair
deriving DecidableEq

namespace NodeKind

def all : List NodeKind :=
  [program, mustache, decorator, block .plain, block .decorator, block .namedSlot, partialTag,
    partialBlock, content, comment, path, subExpression, string, number, boolean, undefined, null,
    hash, hashPair]

def name : NodeKind → String
  | program => "Program"
  | mustache => "MustacheStatement"
  | decorator => "Decorator"
  | block .plain => "BlockStatement"
  | block .decorator => "DecoratorBlock"
  | block .namedSlot => "NamedBlockSlotStatement"
  | partialTag => "PartialStatement"
  | partialBlock => "PartialBlockStatement"
  | content => "ContentStatement"
  | comment => "CommentStatement"
  | path => "PathExpression"
  | subExpression => "SubExpression"
  | string => "StringLiteral"
  | number => "NumberLiteral"
  | boolean => "BooleanLiteral"
  | undefined => "UndefinedLiteral"
  | null => "NullLiteral"
  | hash => "Hash"
  | hashPair => "HashPair"

def ofName? (text : String) : Option NodeKind := all.find? (·.name == text)

theorem ofName?_name (k : NodeKind) : ofName? k.name = some k := by
  cases k with
  | block kind => cases kind <;> rfl
  | _ => rfl

theorem ofName?_eq_some_iff {text : String} {k : NodeKind} : ofName? text = some k ↔ text = k.name := by
  constructor
  · intro h
    unfold ofName? at h
    have same := List.find?_some h
    exact (beq_iff_eq.1 same).symm
  · rintro rfl
    exact ofName?_name k

end NodeKind

end TemplateTree
