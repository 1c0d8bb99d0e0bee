import TemplateTree.Proofs.Block.Assembly
import TemplateTree.Proofs.Tree

/-! What assembly does with the two branches of a block: one is the body and one the else branch, a
caret exchanges them, and hardly anything is changed in them. What does not change is told by
address: a node is found by the numbers of the children to go down by, so that it can be said of two
trees of any shape that they differ in these places and in no others. -/
namespace TemplateTree

namespace Tree

/-- The node that is reached by going down to the child of each number in turn. -/
def at? : Tree → List Nat → Option Tree
  | t, [] => some t
  | t, n :: rest => t.children[n]?.bind (·.at? rest)

/-- The same nodes stand at all addresses but these. -/
def SameExceptAt (changed : List (List Nat)) (t t' : Tree) : Prop :=
  ∀ address, address ∉ changed → t.at? address = t'.at? address

variable {t t' : Tree}

theorem at?_cons (t : Tree) (n : Nat) (rest : List Nat) :
    t.at? (n :: rest) = t.children[n]?.bind (·.at? rest) := by rfl

/-- What is below two nodes with the same children is the same. -/
theorem sameExceptAt_root (children : t.children = t'.children) : SameExceptAt [[]] t t' := by
  intro address elsewhere
  cases address with
  | nil => simp at elsewhere
  | cons n rest => rw [at?_cons, at?_cons, children]

/-- Two nodes have the same children but for the first, and those two have the same children. -/
theorem sameExceptAt_first {first first' : Tree} {others : List Tree}
    (same : first.children = first'.children) (children : t.children = first :: others)
    (children' : t'.children = first' :: others) : SameExceptAt [[], [0]] t t' := by
  intro address elsewhere
  match address with
  | [] => simp at elsewhere
  | [0] => simp at elsewhere
  | 0 :: n :: rest => simp [at?_cons, children, children', same]
  | (n + 1) :: rest => simp [at?_cons, children, children']

end Tree

/-! ### The else branch -/

/-- The branch that an else tag and what follows it become in a block that ends with these marks:
the same program, but where it goes on with one more block, that block takes the marks. -/
inductive Inverse.Becomes (i : Inverse) (closeStrip : Option Strip) : Program → Prop where
  | kept (whole : i.chain = true → ∀ kind node rest, i.program.body ≠ .block kind node :: rest) :
      Becomes i closeStrip i.program
  | closed {kind : BlockKind} {node : Block} {rest : List Statement} (chain : i.chain = true)
      (first : i.program.body = .block kind node :: rest) :
      Becomes i closeStrip
        { i.program with body := .block kind { node with closeStrip := closeStrip } :: rest }

theorem Statement.setCloseStrip_eq_self {s : Statement} (h : ∀ kind node, s ≠ .block kind node)
    (strip : Option Strip) : s.setCloseStrip strip = s := by
  cases s with
  | block kind node => exact absurd rfl (h kind node)
  | _ => rfl

theorem Program.setFirstCloseStrip_eq_self {p : Program}
    (h : ∀ kind node rest, p.body ≠ .block kind node :: rest) (strip : Option Strip) :
    p.setFirstCloseStrip strip = p := by
  obtain ⟨body, blockParams, pstrip, chained, loc⟩ := p
  cases body with
  | nil => rfl
  | cons s rest =>
    have noBlock : ∀ kind node, s ≠ .block kind node := by
      rintro kind node rfl
      exact h kind node rest rfl
    simp [setFirstCloseStrip, Statement.setCloseStrip_eq_self noBlock]

theorem Inverse.becomes_branch (i : Inverse) (closeStrip : Option Strip) :
    i.Becomes closeStrip (i.branch closeStrip) := by
  unfold branch
  split
  next chain =>
    by_cases opens : ∃ kind node rest, i.program.body = .block kind node :: rest
    · obtain ⟨kind, node, rest, first⟩ := opens
      have closed : i.program.setFirstCloseStrip closeStrip = { i.program with
          body := .block kind { node with closeStrip := closeStrip } :: rest } := by
        simp [Program.setFirstCloseStrip, first, Statement.setCloseStrip]
      rw [closed]
      exact .closed chain first
    · simp only [not_exists] at opens
      rw [Program.setFirstCloseStrip_eq_self opens]
      exact .kept fun _ => opens
  next ends => exact .kept fun chain => absurd chain ends

/-- Nothing in an else branch changes but its first statement, and nothing below that. -/
theorem Inverse.Becomes.sameExceptAt {i : Inverse} {closeStrip : Option Strip} {branch : Program}
    (h : i.Becomes closeStrip branch) :
    Tree.SameExceptAt [[], [0]] (.program i.program) (.program branch) := by
  cases h with
  | kept => exact fun _ _ => rfl
  | @closed kind node rest chain first =>
    have sameBlock : (Tree.statement (.block kind node)).children =
        (Tree.statement (.block kind { node with closeStrip := closeStrip })).children := by rfl
    have children : (Tree.program i.program).children =
        .statement (.block kind node) :: rest.map .statement := by simp [Tree.children, first]
    exact Tree.sameExceptAt_first sameBlock children rfl

/-! ### The two branches -/

/-- The two branches of a block, that of its body first, are what it was written with. Of the body
only the names are new, those of the opening tag; no node below it changes, and in the else branch
none but the block that a chain goes on with. -/
structure WrittenBlock.CopiedTo (w : WrittenBlock) (own other : Option Program) : Prop where
  body : own = some w.ownBody
  belowBody : Tree.SameExceptAt [[]] (.program w.body) (.program w.ownBody)
  alone : w.inverse = none → other = none
  inverse : ∀ i ∈ w.inverse, ∃ branch, other = some branch ∧
    i.Becomes (w.closing.map (·.strip)) branch ∧
    Tree.SameExceptAt [[], [0]] (.program i.program) (.program branch)

theorem WrittenBlock.copiedTo (w : WrittenBlock) :
    w.CopiedTo (some w.ownBody) (w.inverse.map (·.branch (w.closing.map (·.strip)))) where
  body := rfl
  belowBody := Tree.sameExceptAt_root rfl
  alone := by simp +contextual
  inverse := by
    intro i hi
    have becomes := i.becomes_branch (w.closing.map (·.strip))
    exact ⟨_, by rw [hi]; rfl, becomes, becomes.sameExceptAt⟩

/-- The block with its branches exchanged. -/
def Block.swap (node : Block) : Block :=
  { node with program := node.inverse, inverse := node.program }

/-- What a block becomes without a caret and with one: the same fault, or two blocks of one kind
that have each other's branches, where the body is the program of the first. -/
inductive Swapped (body : Program) :
    Except BuildError Statement → Except BuildError Statement → Prop where
  | failed (e : BuildError) : Swapped body (.error e) (.error e)
  | built (kind : BlockKind) {node : Block} (program : node.program = some body) :
      Swapped body (.ok (.block kind node)) (.ok (.block kind node.swap))

theorem swapped_unlessFault {body : Program} (fault : Option BuildError) (kind : BlockKind)
    (node : Block) (program : node.program = some body) :
    Swapped body (unlessFault fault (.block kind node))
      (unlessFault fault (.block kind node.swap)) :=
  match fault with
  | some e => .failed e
  | none => .built kind program

namespace Builder

variable {b : Builder} {w : WrittenBlock}

theorem blockFault?_inverted (inverted : Bool) :
    b.blockFault? { w with inverted := inverted } = b.blockFault? w := by rfl

theorem blockNode_inverted :
    b.blockNode { w with inverted := true } = (b.blockNode { w with inverted := false }).swap := by
  simp [blockNode, Block.swap]

theorem blockNode_program :
    (b.blockNode { w with inverted := false }).program = some w.ownBody := by
  simp [blockNode, WrittenBlock.ownBody]

/-- A caret does nothing to a block but exchange its branches, whatever else it is written with: it
has the same fault, or the same kind, path, slot, arguments and marks, and the names that its tag
gives are still those of the body. -/
theorem block_inverted (b : Builder) (w : WrittenBlock) :
    Swapped w.ownBody (b.block { w with inverted := false })
        (b.block { w with inverted := true }) ∧
      Swapped w.ownBody (b.namedBlockSlot { w with inverted := false })
        (b.namedBlockSlot { w with inverted := true }) := by
  have program := @blockNode_program b w
  constructor
  · simp only [block, blockFault?_inverted, blockNode_inverted]
    exact swapped_unlessFault _ _ _ program
  · simp only [namedBlockSlot, blockFault?_inverted, blockNode_inverted]
    let node := b.blockNode { w with inverted := false }
    exact swapped_unlessFault _ .namedSlot
      { node with slot := ⟨node.path.written⟩, args := ⟨[], none⟩ } program

theorem copiedTo_blockNode :
    (w.inverted = false → w.CopiedTo (b.blockNode w).program (b.blockNode w).inverse) ∧
      (w.inverted = true → w.CopiedTo (b.blockNode w).inverse (b.blockNode w).program) := by
  have copied := w.copiedTo
  constructor
  · intro inverted
    simpa [blockNode, inverted, WrittenBlock.ownBody] using copied
  · intro inverted
    simpa [blockNode, inverted, WrittenBlock.ownBody] using copied

/-- Whatever block is assembled, its branches are copies of what it was written with; with a caret
the body is the inverse branch. The block that a chain goes on with ends with the marks of the
closing tag, and that is all that changes. -/
theorem branches_copied {s : Statement} (built : b.block w = .ok s ∨ b.namedBlockSlot w = .ok s) :
    ∃ kind node, s = .block kind node ∧
      (w.inverted = false → w.CopiedTo node.program node.inverse) ∧
      (w.inverted = true → w.CopiedTo node.inverse node.program) := by
  have copied := @copiedTo_blockNode b w
  rcases built with built | built
  · obtain ⟨-, rfl⟩ := block_eq_ok_iff.1 built
    exact ⟨_, _, rfl, copied⟩
  · obtain ⟨-, rfl⟩ := namedBlockSlot_eq_ok_iff.1 built
    exact ⟨_, _, rfl, copied⟩

/-- In `{{^list}}{{else header}}{{else}}{{/list~}}` the else branch is the program of the block, and
its first block, which was closed by nothing, is closed by a trimmed tag. -/
theorem branches_copied_list :
    let span : Span := ⟨⟨1, 0⟩, ⟨1, 42⟩⟩
    let name (text : String) : Path := ⟨false, 0, [text], text, .ofSpan none span⟩
    let tag (text : String) : OpenTag := ⟨name text, ⟨[], none⟩, none, {}, "\x7b\x7b^"⟩
    let empty : Program := .ofBody [] none
    let header := (ofOptions {}).blockNode ⟨tag "header", empty, none, none, false, span⟩
    let behind : Statement := .content "rows" "rows" (.ofSpan none span)
    let chain : Inverse := ⟨.ofBody [.block .namedSlot header, behind] none, {}, true⟩
    let closing : CloseTag := ⟨some (name "list"), ⟨false, true⟩⟩
    let w : WrittenBlock := ⟨tag "list", empty, some chain, some closing, true, span⟩
    ∃ node, (ofOptions {}).block w = .ok (.block .plain node) ∧ header.closeStrip = none ∧
      node.program = some { chain.program with
        body := [.block .namedSlot { header with closeStrip := some ⟨false, true⟩ }, behind] } ∧
      w.CopiedTo node.inverse node.program := by
  intro span name tag empty header behind chain closing w
  have built : (ofOptions {}).block w = .ok (.block .plain ((ofOptions {}).blockNode w)) :=
    block_eq_plain (by decide) (by decide)
  obtain ⟨kind, node, same, -, copied⟩ := branches_copied (.inl built)
  obtain ⟨-, rfl⟩ : .plain = kind ∧ (ofOptions {}).blockNode w = node := by simpa using same
  exact ⟨_, built, rfl, rfl, copied rfl⟩

end Builder

end TemplateTree
