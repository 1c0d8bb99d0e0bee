import TemplateTree.Tag.Block

/-! Building the nodes of a tree from their parts and the spans that they cover. Most nodes only record
what they are given. Blocks are assembled: which kind of block it is, which slot it fills, how its
branches are linked, and whether its tags agree. -/
namespace TemplateTree

structure Options where
  source : Option String := none
  /-- Blocks may name the slot that they fill. -/
  namedBlockSlots : Bool := true
deriving DecidableEq

/-- Builds the nodes of a tree. It has no state: a node depends on what it is built from, the
options and the locations of spans. -/
structure Builder where
  options : Options
  locate : Span → Location

namespace Builder

/-- Locates every span as it is, in the template that the options name. -/
def ofOptions (options : Options) : Builder := ⟨options, .ofSpan options.source⟩

/-- The same builder with every location passed through `g`. -/
def relocate (b : Builder) (g : Location → Location) : Builder :=
  { b with locate := fun span => g (b.locate span) }

/-! ### Expressions -/

def path (b : Builder) (data : Bool) (segments : List Segment) (span : Span) :
    Except BuildError Path :=
  Path.resolve data segments (b.locate span)

def string (b : Builder) (text : String) (span : Span) : Expr :=
  .string text text (b.locate span)

/-- A number; its text has to be a numeral whose nearest double is finite. -/
def number (b : Builder) (text : String) (span : Span) : Except BuildError Expr :=
  match Binary64.ofText? text with
  | some value => .ok (.number value text (b.locate span))
  | none => .error (.invalidNumber text (b.locate span))

/-- A truth value: every text but `true` is false. -/
def boolean (b : Builder) (text : String) (span : Span) : Expr :=
  .boolean (text == "true") text (b.locate span)

def undefined (b : Builder) (span : Span) : Expr := .undefined (b.locate span)

def null (b : Builder) (span : Span) : Expr := .null (b.locate span)

def call (b : Builder) (callee : Expr) (args : Arguments) (span : Span) : Expr :=
  .call callee args (b.locate span)

/-- A named argument. Its name may be in brackets, which are taken off. -/
def hashPair (b : Builder) (key : String) (value : Expr) (span : Span) : HashPair :=
  ⟨unbracket key, value, b.locate span⟩

def hash (b : Builder) (pairs : List HashPair) (span : Span) : Hash := ⟨pairs, b.locate span⟩

/-! ### Statements other than assembled blocks -/

def content (b : Builder) (text : String) (span : Span) : Statement :=
  .content text text (b.locate span)

def comment (b : Builder) (raw : String) (span : Span) : Statement :=
  .comment (Comment.body raw) (Strip.ofTags raw raw) (b.locate span)

/-- An output, or a decorator if the opening text has a star. -/
def mustache (b : Builder) (path : Expr) (args : Arguments) (opening : String) (strip : Strip)
    (span : Span) : Statement :=
  let tag : Mustache := ⟨path, args, Delimiter.escapes opening, strip, b.locate span⟩
  if Delimiter.isDecorator opening then .decorator tag else .mustache tag

def partialTag (b : Builder) (name : Expr) (args : Arguments) (opening closing : String)
    (span : Span) : Statement :=
  .partialTag ⟨name, args, "", Strip.ofTags opening closing, b.locate span⟩

/-- A block whose body is taken as it is. Its name is compared as written, and no side is
trimmed. -/
def rawBlock (b : Builder) (opening : OpenTag) (contents : List Statement) (closed : String)
    (span : Span) : Except BuildError Statement :=
  let loc := b.locate span
  unlessFault (opening.path.closingFault? closed) (.block .plain
    { path := opening.path
      slot := .empty
      args := opening.args
      program := some (.ofBody contents (some loc))
      inverse := none
      openStrip := {}
      inverseStrip := some {}
      closeStrip := some {}
      loc := loc })

/-- An included template with a body. A closing tag without a name does not close it, unless its
own name is empty. -/
def partialBlock (b : Builder) (opening : OpenTag) (body : Program) (closing : CloseTag)
    (span : Span) : Except BuildError Statement :=
  unlessFault (opening.path.closingFault? (closing.name?.getD "")) (.partialBlock
    { name := opening.path
      args := opening.args
      program := body
      openStrip := opening.strip
      closeStrip := some closing.strip
      loc := b.locate span })

/-! ### Blocks from their tags and branches -/

/-- What a block is opened with: its path and the slot it names. Decorators fill no slots, and
without the option nothing is split off. -/
def target (b : Builder) (tag : OpenTag) : Path × SlotName :=
  if !tag.isDecorator && b.options.namedBlockSlots then
    tag.path.splitSlot?.getD (tag.path, .empty)
  else (tag.path, .empty)

/-- The slot that a block fills. A block that names none fills the anonymous slot when its else
chain goes on with the content of a slot. -/
def slot (b : Builder) (named : SlotName) (inverse : Option Inverse) : SlotName :=
  if named.isEmpty && b.options.namedBlockSlots && inverse.any (·.declaresSlot) then .anonymous
  else named

/-- The first fault of a block: a decorator with an inverse branch, found at that branch if it
stands anywhere, or else a closing name that is not that of the path without its slot. -/
def blockFault? (b : Builder) (w : WrittenBlock) : Option BuildError :=
  match w.opening.isDecorator, w.inverse with
  | true, some inverse =>
    some (.inverseOnDecorator (inverse.program.loc.getD (b.locate w.span)))
  | _, _ => do (b.target w.opening).1.closingFault? (← (← w.closing).name?)

/-- The block that its tags and branches make, faults aside. The names that the opening tag gives
go to the body as written, before an inverted block swaps its branches. -/
def blockNode (b : Builder) (w : WrittenBlock) : Block :=
  let closeStrip := w.closing.map (·.strip)
  let (path, named) := b.target w.opening
  let body : Program := { w.body with blockParams := w.opening.blockParams }
  let inverse := w.inverse.map (·.branch closeStrip)
  { path := path
    slot := b.slot named w.inverse
    args := w.opening.args
    program := if w.inverted then inverse else some body
    inverse := if w.inverted then some body else inverse
    openStrip := w.opening.strip
    inverseStrip := w.inverse.map (·.strip)
    closeStrip := closeStrip
    loc := b.locate w.span }

def block (b : Builder) (w : WrittenBlock) : Except BuildError Statement :=
  unlessFault (b.blockFault? w)
    (.block (if w.opening.isDecorator then .decorator else .plain) (b.blockNode w))

/-- A block that declares the content of a slot: its path is the slot's name, and it has no
arguments. -/
def namedBlockSlot (b : Builder) (w : WrittenBlock) : Except BuildError Statement :=
  let node := b.blockNode w
  unlessFault (b.blockFault? w)
    (.block .namedSlot { node with slot := ⟨node.path.written⟩, args := ⟨[], none⟩ })

/-- A link of an else chain. It is a block of its own, closed by the trim marks of what follows
it, and stands alone in a program that spans its body. -/
def chainLink (b : Builder) (named : Bool) (opening : OpenTag) (body : Program)
    (next : Option Inverse) (span : Span) : Except BuildError Inverse := do
  let closing := next.map fun inverse => ⟨none, inverse.strip⟩
  let w : WrittenBlock := ⟨opening, body, next, closing, false, span⟩
  let link ← if named then b.namedBlockSlot w else b.block w
  return ⟨{ Program.ofBody [link] body.loc with chained := true }, opening.strip, true⟩

end Builder

end TemplateTree
