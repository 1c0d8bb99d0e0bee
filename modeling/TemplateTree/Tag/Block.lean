import TemplateTree.Source
import TemplateTree.Statement.Basic
import TemplateTree.Tag.Marks

/-! The tags that a block is written with: the one that opens it, the one that closes it, and the
else tags between. -/
namespace TemplateTree

structure OpenTag where
  path : Path
  args : Arguments
  blockParams : Option (List String)
  strip : Strip
  /-- The text before the path, braces and marks. -/
  opening : String
deriving DecidableEq

namespace OpenTag

/-- The tag of a raw block has no marks. -/
def raw (path : Path) (args : Arguments) : OpenTag := ⟨path, args, none, {}, ""⟩

def isDecorator (tag : OpenTag) : Bool := Delimiter.isDecorator tag.opening

end OpenTag

/-- The tag that closes a block. A link of an else chain is closed by the tag behind it, which
has trim marks to give but no name. -/
structure CloseTag where
  path : Option Path
  strip : Strip
deriving DecidableEq

def CloseTag.name? (tag : CloseTag) : Option String := tag.path.map (·.written)

/-- The fault of an opening path that is closed by another name than its text. It is found at
the opening path. -/
def Path.closingFault? (opened : Path) (closed : String) : Option BuildError :=
  if opened.written = closed then none
  else some (.tagMismatch opened.written closed opened.loc)

/-- An else tag and what follows it. -/
structure Inverse where
  program : Program
  strip : Strip
  /-- The tag opens one more block, as in `{{else if x}}`. -/
  chain : Bool

namespace Inverse

/-- The last else branch of a block, behind a plain else tag. -/
def ofTag (tag : String) (program : Program) : Inverse :=
  ⟨program, Strip.ofTags tag tag, false⟩

/-- The branch as a part of the block around it. A chained block has no closing tag of its own
and takes the trim marks of the one around it. -/
def branch (i : Inverse) (closeStrip : Option Strip) : Program :=
  if i.chain then i.program.setFirstCloseStrip closeStrip else i.program

/-- The chain goes on with the content of a slot. -/
def declaresSlot (i : Inverse) : Bool := i.chain && i.program.startsWithNamedSlot

end Inverse

/-- A block as it is written: its tags and what stands between them. -/
structure WrittenBlock where
  opening : OpenTag
  body : Program
  inverse : Option Inverse
  closing : Option CloseTag
  /-- The block is opened with a caret and its body is the inverse branch. -/
  inverted : Bool
  span : Span

end TemplateTree
