import TemplateTree.Expr.Equality
import TemplateTree.Path
import TemplateTree.Tag.Marks

/-! Statements, and the programs that hold them in sequence. -/
namespace TemplateTree

/-- A tag that outputs an expression, `{{expr}}`, or a decorator, `{{*expr}}`. -/
structure Mustache where
  path : Expr
  args : Arguments
  /-- The output is escaped: the tag is neither `{{{expr}}}` nor `{{&expr}}`. -/
  escaped : Bool
  strip : Strip
  loc : Location
deriving DecidableEq

/-- A tag that includes another template, `{{> name}}`. -/
structure PartialTag where
  name : Expr
  args : Arguments
  indent : String
  strip : Strip
  loc : Location
deriving DecidableEq

mutual
inductive Statement where
  | mustache (tag : Mustache)
  | decorator (tag : Mustache)
  | block (kind : BlockKind) (block : Block)
  | partialTag (tag : PartialTag)
  | partialBlock (block : PartialBlock)
  | content (value written : String) (loc : Location)
  | comment (value : String) (strip : Strip) (loc : Location)

/-- A sequence of statements: a whole template, or a branch of a block. -/
structure Program where
  body : List Statement
  /-- The names that a block gives to what it passes to its body. -/
  blockParams : Option (List String)
  strip : Strip
  /-- The program stands for one link of an else chain. -/
  chained : Bool
  loc : Option Location

structure Block where
  path : Path
  slot : SlotName
  args : Arguments
  program : Option Program
  inverse : Option Program
  openStrip : Strip
  /-- The trim marks of the tag between the branches. -/
  inverseStrip : Option Strip
  closeStrip : Option Strip
  loc : Location

/-- An included template with a body to fall back on, `{{#> name}}body{{/name}}`. -/
structure PartialBlock where
  name : Path
  args : Arguments
  program : Program
  openStrip : Strip
  closeStrip : Option Strip
  loc : Location
end

namespace Statement

def nodeKind : Statement → NodeKind
  | mustache _ => .mustache
  | decorator _ => .decorator
  | block kind _ => .block kind
  | partialTag _ => .partialTag
  | partialBlock _ => .partialBlock
  | content _ _ _ => .content
  | comment _ _ _ => .comment

def loc : Statement → Location
  | mustache tag | decorator tag => tag.loc
  | block _ b => b.loc
  | partialTag tag => tag.loc
  | partialBlock b => b.loc
  | content _ _ loc | comment _ _ loc => loc

def blockKind? : Statement → Option BlockKind
  | block kind _ => some kind
  | _ => none

def block? : Statement → Option Block
  | block _ b => some b
  | _ => none

def mustache? : Statement → Option Mustache
  | mustache tag | decorator tag => some tag
  | _ => none

/-- Gives a block other trim marks on its closing tag; what is no block stays as it is. -/
def setCloseStrip (strip : Option Strip) : Statement → Statement
  | block kind b => block kind { b with closeStrip := strip }
  | s => s

end Statement

namespace Program

/-- The program of a sequence of statements. Unless a location is given, it spans from the first
to the last of them; an empty one then has none. -/
def ofBody (body : List Statement) (loc : Option Location) : Program where
  body := body
  blockParams := none
  strip := {}
  chained := false
  loc := loc.or do return .merge (← body.head?).loc (← body.getLast?).loc

def first? (p : Program) : Option Statement := p.body.head?

/-- The program declares the content of a slot before anything else. -/
def startsWithNamedSlot (p : Program) : Bool :=
  p.first?.any fun s => s.nodeKind = .block .namedSlot

/-- Gives the first statement, if it is a block, other trim marks on its closing tag. -/
def setFirstCloseStrip (strip : Option Strip) (p : Program) : Program :=
  match p.body with
  | [] => p
  | s :: rest => { p with body := s.setCloseStrip strip :: rest }

end Program

end TemplateTree
