import TemplateTree.Proofs.Block.Assembly

/-! Else chains of any length. The links are built from the last to the first, each with what
follows it, and the block of a link is changed once more when the block around it is assembled:
only then does it get the trim marks of its end. So what is shown of a chain is shown for whatever
marks the block around it may give. -/
namespace TemplateTree

/-- What a link of an else chain is built from. -/
structure Link where
  /-- The link declares the content of a slot. -/
  named : Bool
  opening : OpenTag
  body : Program
  span : Span

/-- The kind of block that a link becomes. -/
def Link.kind (link : Link) : BlockKind := if link.named then .namedSlot else .plain

/-- The block at the start of the inverse branch of a block. -/
def Block.next? (b : Block) : Option Block := (b.inverse.bind (·.first?)).bind (·.block?)

/-- The block reached by so many steps along the inverse branches. -/
def Block.reach? (b : Block) : Nat → Option Block
  | 0 => some b
  | n + 1 => b.next?.bind (·.reach? n)

namespace Builder

/-- Builds links from the last to the first, in front of the last branch. -/
def chain (b : Builder) (last : Option Inverse) : List Link → Except BuildError (Option Inverse)
  | [] => .ok last
  | link :: rest => do
    let next ← b.chain last rest
    return some (← b.chainLink link.named link.opening link.body next link.span)

/-- The block that a link becomes. -/
def linkNode (b : Builder) (link : Link) (next : Option Inverse) : Block :=
  let node := b.blockNode (writtenLink link.opening link.body next link.span)
  if link.named then { node with slot := ⟨node.path.written⟩, args := ⟨[], none⟩ } else node

/-- The program that stands for a link, with the block of the link. -/
def linkProgram (b : Builder) (link : Link) (node : Block) : Program where
  body := [.block link.kind node]
  blockParams := none
  strip := {}
  chained := true
  loc := some (link.body.loc.getD (b.locate link.span))

/-- The else branch that a link becomes. -/
def linkInverse (b : Builder) (link : Link) (next : Option Inverse) : Inverse :=
  ⟨b.linkProgram link (b.linkNode link next), link.opening.strip, true⟩

/-- The first else branch of a chain of links. -/
def chained (b : Builder) (last : Option Inverse) : List Link → Option Inverse
  | [] => last
  | link :: rest => some (b.linkInverse link (b.chained last rest))

variable {b : Builder}

/-! ### Building the links -/

theorem linkNode_loc (link : Link) (next : Option Inverse) :
    (b.linkNode link next).loc = b.locate link.span := by
  simp only [linkNode]
  split <;> rfl

/-- A link that is no decorator is always built. -/
theorem chainLink_eq {link : Link} (plain : link.opening.isDecorator = false)
    (next : Option Inverse) :
    b.chainLink link.named link.opening link.body next link.span =
      .ok (b.linkInverse link next) := by
  have noFault : b.blockFault? (writtenLink link.opening link.body next link.span) = none := by
    refine blockFault?_eq_none plain ?_
    cases next <;> simp [writtenLink, CloseTag.name?]
  refine chainLink_eq_ok_iff.2 ⟨.block link.kind (b.linkNode link next), ?_, ?_⟩
  · by_cases named : link.named
    · simp only [named, if_true]
      refine namedBlockSlot_eq_ok_iff.2 ⟨noFault, ?_⟩
      simp [Link.kind, linkNode, named]
    · simp only [named, Bool.false_eq_true, if_false]
      refine block_eq_ok_iff.2 ⟨noFault, ?_⟩
      simp [Link.kind, linkNode, writtenLink, named, plain]
  · simp only [linkInverse, linkProgram, Program.ofBody, List.head?_cons, List.getLast?_singleton]
    cases link.body.loc <;> simp [Statement.loc, linkNode_loc, Location.merge]

theorem chain_eq (last : Option Inverse) {links : List Link}
    (plain : ∀ link ∈ links, link.opening.isDecorator = false) :
    b.chain last links = .ok (b.chained last links) := by
  induction links with
  | nil => rfl
  | cons link rest ih =>
    have hlink := plain link (by simp)
    have hrest := ih fun l hl => plain l (List.mem_cons_of_mem _ hl)
    simp only [chain, hrest, chained]
    show (do return some (← b.chainLink _ _ _ (b.chained last rest) _)) = _
    rw [chainLink_eq hlink]
    rfl

/-! ### Following the inverse branches -/

/-- The inner block is that of the link, and the branch of the outer block stands for the link:
the inner block is all that is in it. -/
structure IsLink (b : Builder) (link : Link) (outer : Block) (branch : Program) (inner : Block) :
    Prop where
  inverse : outer.inverse = some branch
  inverseStrip : outer.inverseStrip = some link.opening.strip
  body : branch.body = [.block link.kind inner]
  chained : branch.chained = true
  branchLoc : branch.loc = some (link.body.loc.getD (b.locate link.span))
  path : inner.path = (b.target link.opening).1
  args : inner.args = if link.named then ⟨[], none⟩ else link.opening.args
  program : inner.program = some { link.body with blockParams := link.opening.blockParams }
  openStrip : inner.openStrip = link.opening.strip
  loc : inner.loc = b.locate link.span

/-- The blocks of the links stand behind a block in their order, and the last branch behind the
last of them. The first link ends with the marks that the block gives it, and every other link
with its own: the link before it has no other marks to end with. -/
structure ChainsTo (b : Builder) (node : Block) (closeStrip : Option Strip) (links : List Link)
    (last : Option Inverse) : Prop where
  reaches : ∀ k link, links[k]? = some link → ∃ outer branch inner,
    node.reach? k = some outer ∧ node.reach? (k + 1) = some inner ∧
      b.IsLink link outer branch inner ∧
      inner.closeStrip = if k = 0 then closeStrip else some link.opening.strip
  ends : ∃ final, node.reach? links.length = some final ∧
    final.inverse = last.map (·.program) ∧ final.inverseStrip = last.map (·.strip)

variable {node inner : Block} {closeStrip next : Option Strip} {link : Link} {rest : List Link}
  {last : Option Inverse}

theorem ChainsTo.nil (inverse : node.inverse = last.map (·.program))
    (strip : node.inverseStrip = last.map (·.strip)) : b.ChainsTo node closeStrip [] last where
  reaches := by simp
  ends := ⟨node, rfl, inverse, strip⟩

theorem IsLink.next? {branch : Program} (h : b.IsLink link node branch inner) :
    node.next? = some inner := by
  simp [Block.next?, h.inverse, Program.first?, h.body, Statement.block?]

/-- One more link in front of a chain. The block of the link is closed by the marks of the link
behind it, if there is one. -/
theorem ChainsTo.cons {branch : Program} (hlink : b.IsLink link node branch inner)
    (close : inner.closeStrip = closeStrip)
    (hnext : ∀ l, rest.head? = some l → next = some l.opening.strip)
    (hrest : b.ChainsTo inner next rest last) : b.ChainsTo node closeStrip (link :: rest) last where
  reaches := by
    intro k l hl
    cases k with
    | zero =>
      obtain rfl : link = l := by simpa using hl
      exact ⟨node, branch, inner, rfl, by simp [Block.reach?, hlink.next?], hlink, close⟩
    | succ k =>
      have hl : rest[k]? = some l := by simpa using hl
      obtain ⟨outer, branch', inner', houter, hinner, hl', hclose⟩ := hrest.reaches k l hl
      refine ⟨outer, branch', inner', ?_, ?_, hl', ?_⟩
      · simpa [Block.reach?, hlink.next?] using houter
      · rw [Block.reach?, hlink.next?]
        exact hinner
      · cases k with
        | zero => simpa [hnext l (by rw [List.head?_eq_getElem?, hl])] using hclose
        | succ k => simpa using hclose
  ends := by
    obtain ⟨final, hfinal, hlast⟩ := hrest.ends
    refine ⟨final, ?_, hlast⟩
    rw [List.length_cons, Block.reach?, hlink.next?]
    exact hfinal

/-- The block of a link once the block around it has been assembled. -/
def closedLink (b : Builder) (link : Link) (following : Option Inverse)
    (closeStrip : Option Strip) : Block :=
  { b.linkNode link following with closeStrip := closeStrip }

theorem linkInverse_branch (link : Link) (following : Option Inverse) (closeStrip : Option Strip) :
    (b.linkInverse link following).branch closeStrip =
      b.linkProgram link (b.closedLink link following closeStrip) := rfl

theorem closedLink_inverse (link : Link) (following : Option Inverse) (closeStrip : Option Strip) :
    (b.closedLink link following closeStrip).inverse =
      following.map (·.branch (following.map (·.strip))) := by
  simp only [closedLink, linkNode]
  split <;> simp [blockNode, writtenLink, Function.comp_def]

theorem closedLink_inverseStrip (link : Link) (following : Option Inverse)
    (closeStrip : Option Strip) :
    (b.closedLink link following closeStrip).inverseStrip = following.map (·.strip) := by
  simp only [closedLink, linkNode]
  split <;> rfl

theorem isLink_closedLink {following : Option Inverse}
    (inverse : node.inverse = some (b.linkProgram link (b.closedLink link following closeStrip)))
    (strip : node.inverseStrip = some link.opening.strip) :
    b.IsLink link node (b.linkProgram link (b.closedLink link following closeStrip))
      (b.closedLink link following closeStrip) := by
  cases named : link.named <;>
    exact {
      inverse := inverse
      inverseStrip := strip
      body := rfl
      chained := rfl
      branchLoc := rfl
      path := by simp [closedLink, linkNode, named, blockNode, writtenLink]
      args := by simp [closedLink, linkNode, named, blockNode, writtenLink]
      program := by simp [closedLink, linkNode, named, blockNode, writtenLink]
      openStrip := by simp [closedLink, linkNode, named, blockNode, writtenLink]
      loc := linkNode_loc link following }

/-- Behind a block that has a chain as its else branch stand the links of the chain. -/
theorem chainsTo_chained (terminal : ∀ i ∈ last, i.chain = false) (links : List Link)
    (inverse : node.inverse = (b.chained last links).map (·.branch closeStrip))
    (strip : node.inverseStrip = (b.chained last links).map (·.strip)) :
    b.ChainsTo node closeStrip links last := by
  induction links generalizing node closeStrip with
  | nil =>
    refine .nil ?_ strip
    cases last with
    | none => exact inverse
    | some i => simpa [chained, Inverse.branch, terminal i rfl] using inverse
  | cons link rest ih =>
    simp only [chained, Option.map_some, linkInverse_branch] at inverse strip
    have hlink := isLink_closedLink inverse strip
    have hnext : ∀ l, rest.head? = some l →
        (b.chained last rest).map (·.strip) = some l.opening.strip := by
      intro l hl
      cases rest with
      | nil => cases hl
      | cons r rest =>
        obtain rfl : r = l := by simpa using hl
        rfl
    refine .cons hlink rfl hnext (ih ?_ ?_)
    · exact closedLink_inverse link _ closeStrip
    · exact closedLink_inverseStrip link _ closeStrip

/-- However many links an else chain has, and whether each declares the content of a slot or not:
the links are built, the block in front of them is assembled if its closing tag does not name
something else, and the links stand behind it in their order. -/
theorem block_chainsTo_links {b : Builder} {opening : OpenTag} {body : Program}
    {closing : Option CloseTag} {span : Span} {links : List Link}
    {last : Option (String × Program)}
    (plain : opening.isDecorator = false)
    (plainLinks : ∀ link ∈ links, link.opening.isDecorator = false)
    (closes : ∀ name ∈ closing.bind (·.name?), (b.target opening).1.written = name) :
    let terminal := last.map fun (tag, program) => Inverse.ofTag tag program
    ∃ inverse node, b.chain terminal links = .ok inverse ∧
      b.block ⟨opening, body, inverse, closing, false, span⟩ = .ok (.block .plain node) ∧
      node.program = some { body with blockParams := opening.blockParams } ∧
      node.openStrip = opening.strip ∧ node.closeStrip = closing.map (·.strip) ∧
      b.ChainsTo node (closing.map (·.strip)) links terminal := by
  intro terminal
  have noFault : b.blockFault? ⟨opening, body, b.chained terminal links, closing, false, span⟩ =
      none := blockFault?_eq_none plain closes
  refine ⟨b.chained terminal links, b.blockNode ⟨opening, body, b.chained terminal links, closing,
    false, span⟩, chain_eq terminal plainLinks, ?_, ?_, ?_, ?_, ?_⟩
  · refine block_eq_ok_iff.2 ⟨noFault, ?_⟩
    simp [plain]
  · simp [blockNode]
  · simp [blockNode]
  · simp [blockNode]
  · refine chainsTo_chained ?_ links ?_ ?_
    · intro i hi
      obtain ⟨tag, -, rfl⟩ := Option.map_eq_some_iff.1 hi
      rfl
    · simp [blockNode]
    · simp [blockNode]

/-- The chain of `{{#list::rows}}{{~else if}}{{else header}}{{else}}{{/list}}`, where the second
link declares the content of a slot. -/
theorem block_chainsTo_links_list :
    let span : Span := ⟨⟨1, 0⟩, ⟨1, 58⟩⟩
    let name (text : String) : Path := ⟨false, 0, [text], text, .ofSpan none span⟩
    let tag (text : String) (strip : Strip) : OpenTag :=
      ⟨name text, ⟨[], none⟩, none, strip, "\x7b\x7b#"⟩
    let empty : Program := .ofBody [] none
    let links : List Link :=
      [⟨false, tag "if" ⟨true, false⟩, empty, span⟩, ⟨true, tag "header" {}, empty, span⟩]
    let closing : CloseTag := ⟨some (name "list"), {}⟩
    let terminal : Inverse := .ofTag "{{else}}" empty
    ∃ inverse node, (ofOptions {}).chain (some terminal) links = .ok inverse ∧
      (ofOptions {}).block ⟨tag "list::rows" {}, empty, inverse, some closing, false, span⟩ =
        .ok (.block .plain node) ∧
      (ofOptions {}).ChainsTo node (some {}) links (some terminal) := by
  intro span name tag empty links closing terminal
  have plain : (tag "list::rows" {}).isDecorator = false := by decide
  have plainLinks : ∀ link ∈ links, link.opening.isDecorator = false := by decide
  have closes : ∀ name ∈ (some closing).bind (·.name?),
      ((ofOptions {}).target (tag "list::rows" {})).1.written = name := by decide
  obtain ⟨inverse, node, hchain, hblock, -, -, -, hlinks⟩ :=
    @block_chainsTo_links _ _ empty _ span _ (some ("{{else}}", empty)) plain plainLinks closes
  exact ⟨inverse, node, hchain, hblock, hlinks⟩

end Builder

end TemplateTree
