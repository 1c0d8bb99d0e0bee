import TemplateTree.Proofs.Session.Soundness

/-! Where the blocks of a session come from. Every block at any depth of a tree is what one call of the
session made of the tags and branches that it was given, but for the marks at its end, which the
block around a link of an else chain changes. So what holds of the blocks that calls assemble, and
does not speak of those marks, holds of all blocks of all trees. -/
namespace TemplateTree

/-- The tags and branches that a block is assembled from. -/
inductive BlockParts where
  /-- A block, a link of an else chain, or one of these that declares the content of a slot. -/
  | written (named : Bool) (w : WrittenBlock)
  | raw (opening : OpenTag) (contents : List Statement) (closed : String) (span : Span)

namespace BlockParts

def opening : BlockParts → OpenTag
  | written _ w => w.opening
  | raw opening _ _ _ => opening

/-- The trees that end up below the block, as they were built. -/
def trees : BlockParts → List Tree
  | written _ w => .program w.body :: w.inverse.toList.map fun i => .program i.program
  | raw _ contents _ _ => contents.map .statement

def build (b : Builder) : BlockParts → Except BuildError Statement
  | written named w => if named then b.namedBlockSlot w else b.block w
  | raw opening contents closed span => b.rawBlock opening contents closed span

/-- The block is built from the parts, but for the marks at its end. -/
def Becomes (parts : BlockParts) (b : Builder) (kind : BlockKind) (node : Block) : Prop :=
  ∃ built strip, parts.build b = .ok (.block kind built) ∧ node = { built with closeStrip := strip }

end BlockParts

namespace BlockParts.Becomes

variable {b : Builder} {kind : BlockKind} {node : Block} {w : WrittenBlock}

theorem of_build {parts : BlockParts} (ok : parts.build b = .ok (.block kind node)) :
    parts.Becomes b kind node :=
  ⟨node, node.closeStrip, ok, by cases node; rfl⟩

theorem of_written (h : (written false w).Becomes b kind node) :
    b.blockFault? w = none ∧ kind = (if w.opening.isDecorator then .decorator else .plain) ∧
      ∃ strip, node = { b.blockNode w with closeStrip := strip } := by
  obtain ⟨built, strip, ok, rfl⟩ := h
  obtain ⟨noFault, eq⟩ := Builder.block_eq_ok_iff.1 ok
  obtain ⟨rfl, rfl⟩ := Statement.block.inj eq
  exact ⟨noFault, rfl, strip, rfl⟩

theorem of_named (h : (written true w).Becomes b kind node) :
    b.blockFault? w = none ∧ kind = .namedSlot ∧
      ∃ strip, node = { b.blockNode w with
        slot := ⟨(b.blockNode w).path.written⟩, args := ⟨[], none⟩, closeStrip := strip } := by
  obtain ⟨built, strip, ok, rfl⟩ := h
  obtain ⟨noFault, eq⟩ := Builder.namedBlockSlot_eq_ok_iff.1 ok
  obtain ⟨rfl, rfl⟩ := Statement.block.inj eq
  exact ⟨noFault, rfl, strip, rfl⟩

theorem of_raw {opening : OpenTag} {contents : List Statement} {closed : String} {span : Span}
    (h : (raw opening contents closed span).Becomes b kind node) :
    kind = .plain ∧ node.path = opening.path ∧ node.slot = .empty := by
  obtain ⟨built, strip, ok, rfl⟩ := h
  obtain ⟨-, eq⟩ := unlessFault_eq_ok_iff.1 ok
  obtain ⟨rfl, rfl⟩ := Statement.block.inj eq
  exact ⟨rfl, rfl, rfl⟩

end BlockParts.Becomes

/-- What the call assembles a block from, if it is a call for a block and has all its arguments. -/
def Call.blockParts? (h : History) : Call → Option BlockParts
  | .chainLink named opening body next span => Except.toOption do
    let opening ← h.get Piece.asOpenTag? opening
    let body ← h.get Piece.asProgram? body
    let next ← h.getOption Piece.asInverse? next
    return .written named (Builder.writtenLink opening body next span)
  | .block refs => (h.getBlock refs).toOption.map (.written false)
  | .namedBlockSlot refs => (h.getBlock refs).toOption.map (.written true)
  | .rawBlock opening contents closed span => Except.toOption do
    let opening ← h.get Piece.asOpenTag? opening
    let contents ← h.getList Piece.asStatement? contents
    return .raw opening contents closed span
  | _ => none

/-- What the blocks of a session are assembled from, call by call, after the calls of a history. -/
def Builder.blockParts (b : Builder) (h : History) : List Call → List BlockParts
  | [] => []
  | c :: rest =>
    (c.blockParts? h).toList ++ b.blockParts (h ++ [(c.perform b h).toOption]) rest

/-- A property of blocks, as one of nodes of any kind. -/
def Tree.BlocksHave (Q : BlockKind → Block → Prop) : Tree → Prop
  | statement (.block kind node) => Q kind node
  | _ => True

variable {Q : BlockKind → Block → Prop}

namespace Tree

/-! ### There are no blocks in expressions -/

mutual
theorem blocksHave_expr : ∀ e : Expr, (expr e).Everywhere (BlocksHave Q)
  | .path _ => everywhere_expr_path.2 ⟨trivial, trivial⟩
  | .call callee args _ =>
    everywhere_call.2 ⟨trivial, blocksHave_expr callee, blocksHave_arguments args⟩
  | .string _ _ _ | .number _ _ _ | .boolean _ _ _ | .undefined _ | .null _ =>
    (everywhere_leaf rfl).2 trivial

theorem blocksHave_arguments : ∀ args : Arguments, EverywhereIn (BlocksHave Q) args
  | ⟨params, named⟩ => ⟨blocksHave_exprs params, blocksHave_hashOption named⟩

theorem blocksHave_exprs : ∀ es : List Expr, ∀ e ∈ es, (expr e).Everywhere (BlocksHave Q)
  | [] => nofun
  | e :: es => List.forall_mem_cons.2 ⟨blocksHave_expr e, blocksHave_exprs es⟩

theorem blocksHave_hashOption : ∀ h : Option Hash, ∀ x ∈ h, (hash x).Everywhere (BlocksHave Q)
  | none => nofun
  | some h => by
    rintro _ ⟨⟩
    exact blocksHave_hash h

theorem blocksHave_hash : ∀ h : Hash, (hash h).Everywhere (BlocksHave Q)
  | ⟨pairs, _⟩ => everywhere_hash.2 ⟨trivial, blocksHave_pairs pairs⟩

theorem blocksHave_pairs :
    ∀ ps : List HashPair, ∀ p ∈ ps, (hashPair p).Everywhere (BlocksHave Q)
  | [] => nofun
  | p :: ps => List.forall_mem_cons.2 ⟨blocksHave_pair p, blocksHave_pairs ps⟩

theorem blocksHave_pair : ∀ p : HashPair, (hashPair p).Everywhere (BlocksHave Q)
  | ⟨_, value, _⟩ => everywhere_hashPair.2 ⟨trivial, blocksHave_expr value⟩
end

/-! ### Building a block -/

theorem stable_blocksHave
    (closing : ∀ kind node strip, Q kind node → Q kind { node with closeStrip := strip }) :
    Stable (BlocksHave Q) where
  blockParams := fun _ _ _ => trivial
  firstCloseStrip := fun _ _ _ => trivial
  closeStrip := closing

theorem blocksHave_program_iff {p : Program} :
    (program p).Everywhere (BlocksHave Q) ↔ ∀ s ∈ p.body, (statement s).Everywhere (BlocksHave Q) := by
  rw [everywhere_program]
  exact and_iff_right trivial

/-- All blocks of a new block have the property if it has it and those below it have it. -/
theorem blocksHave_build {b : Builder}
    (closing : ∀ kind node strip, Q kind node → Q kind { node with closeStrip := strip })
    {parts : BlockParts} {s : Statement} (ok : parts.build b = .ok s)
    (root : ∀ kind node, s = .block kind node → Q kind node)
    (below : ∀ t ∈ parts.trees, t.Everywhere (BlocksHave Q)) :
    (statement s).Everywhere (BlocksHave Q) := by
  have stable := stable_blocksHave closing
  cases parts with
  | written named w =>
    obtain ⟨hbody, hinverse⟩ := List.forall_mem_cons.1 below
    have branches := stable.everywhere_branches (b := b) hbody
      (by simpa using hinverse)
    cases named with
    | false =>
      obtain ⟨-, rfl⟩ := Builder.block_eq_ok_iff.1 ok
      exact everywhere_block.2 ⟨root _ _ rfl, trivial, blocksHave_arguments _, branches⟩
    | true =>
      obtain ⟨-, rfl⟩ := Builder.namedBlockSlot_eq_ok_iff.1 ok
      exact everywhere_block.2 ⟨root _ _ rfl, trivial, blocksHave_arguments _, branches⟩
  | raw opening contents closed span =>
    obtain ⟨-, rfl⟩ := unlessFault_eq_ok_iff.1 ok
    have hcontents : ∀ c ∈ contents, (statement c).Everywhere (BlocksHave Q) := by
      simpa [BlockParts.trees] using below
    refine everywhere_block.2 ⟨root _ _ rfl, trivial, blocksHave_arguments _, ?_, nofun⟩
    rintro p ⟨⟩
    exact blocksHave_program_iff.2 hcontents

end Tree

/-! ### What has been built so far -/

/-- All blocks in all trees of the piece have the property. -/
def Piece.BlocksHave (Q : BlockKind → Block → Prop) (piece : Piece) : Prop :=
  ∀ t ∈ piece.trees, t.Everywhere (Tree.BlocksHave Q)

theorem Piece.blocksHave_iff {piece : Piece} : piece.BlocksHave Q ↔ match piece with
    | statement s => (Tree.statement s).Everywhere (Tree.BlocksHave Q)
    | program p => (Tree.program p).Everywhere (Tree.BlocksHave Q)
    | inverse i => (Tree.program i.program).Everywhere (Tree.BlocksHave Q)
    | path _ | expr _ | hashPair _ | hash _ | openTag _ | closeTag _ => True := by
  have path (p : Path) : (Tree.path p).Everywhere (Tree.BlocksHave Q) :=
    Tree.everywhere_path.2 trivial
  have args (args : Arguments) : ∀ c ∈ args.children, c.Everywhere (Tree.BlocksHave Q) :=
    Tree.everywhereIn_iff.1 (Tree.blocksHave_arguments args)
  unfold Piece.BlocksHave
  cases piece with
  | statement | program | inverse => exact List.forall_mem_singleton
  | path p => exact iff_of_true (List.forall_mem_singleton.2 (path p)) trivial
  | expr e => exact iff_of_true (List.forall_mem_singleton.2 (Tree.blocksHave_expr e)) trivial
  | hashPair p => exact iff_of_true (List.forall_mem_singleton.2 (Tree.blocksHave_pair p)) trivial
  | hash h => exact iff_of_true (List.forall_mem_singleton.2 (Tree.blocksHave_hash h)) trivial
  | openTag tag =>
    exact iff_of_true (List.forall_mem_cons.2 ⟨path tag.path, args tag.args⟩) trivial
  | closeTag tag => exact iff_of_true (by simp [trees, path]) trivial

theorem Piece.BlocksHave.mono {Q' : BlockKind → Block → Prop} {piece : Piece}
    (h : piece.BlocksHave Q) (imp : ∀ kind node, Q kind node → Q' kind node) :
    piece.BlocksHave Q' := by
  intro t ht
  refine (h t ht).mono fun t holds => ?_
  cases t with
  | statement s =>
    cases s with
    | block kind node => exact imp kind node holds
    | _ => trivial
  | _ => trivial

theorem Piece.BlocksHave.root {kind : BlockKind} {node : Block}
    (h : (statement (.block kind node)).BlocksHave Q) : Q kind node :=
  (Tree.everywhere_block.1 (Piece.blocksHave_iff.1 h)).1

/-- The piece is a block of that kind that passes the test. -/
def Piece.isBlock (kind : BlockKind) (test : Block → Bool) : Piece → Bool
  | statement (.block k node) => k = kind && test node
  | _ => false

/-- All blocks in all trees of the history have the property. -/
def History.BlocksHave (Q : BlockKind → Block → Prop) (h : History) : Prop :=
  ∀ piece, some piece ∈ h → piece.BlocksHave Q

namespace History.BlocksHave

variable {h : History} (blocks : h.BlocksHave Q)
include blocks

theorem statements :
    h.Views Piece.asStatement? fun s => (Tree.statement s).Everywhere (Tree.BlocksHave Q) := by
  intro piece hpiece s hview
  have hs := Piece.blocksHave_iff.1 (blocks piece hpiece)
  cases piece <;> simp_all [Piece.asStatement?]

theorem programs :
    h.Views Piece.asProgram? fun p => (Tree.program p).Everywhere (Tree.BlocksHave Q) := by
  intro piece hpiece p hview
  have hp := Piece.blocksHave_iff.1 (blocks piece hpiece)
  cases piece <;> simp_all [Piece.asProgram?]

theorem inverses :
    h.Views Piece.asInverse? fun i => (Tree.program i.program).Everywhere (Tree.BlocksHave Q) := by
  intro piece hpiece i hview
  have hi := Piece.blocksHave_iff.1 (blocks piece hpiece)
  cases piece <;> simp_all [Piece.asInverse?]

theorem written {refs : BlockRefs} {w : WrittenBlock} (ok : h.getBlock refs = .ok w) (named : Bool) :
    ∀ t ∈ (BlockParts.written named w).trees, t.Everywhere (Tree.BlocksHave Q) := by
  obtain ⟨-, hbody, hinverse, -⟩ := getBlock_eq_ok ok
  have hbody := blocks.programs.get hbody
  have hinverse := blocks.inverses.getOption hinverse
  exact List.forall_mem_cons.2 ⟨hbody, by simpa using hinverse⟩

/-- What a block is assembled from has been built before. -/
theorem below_blockParts {c : Call} {parts : BlockParts} (given : c.blockParts? h = some parts) :
    ∀ t ∈ parts.trees, t.Everywhere (Tree.BlocksHave Q) := by
  cases c <;> simp only [Call.blockParts?, Option.map_eq_some_iff, toOption_eq_some_iff,
    bind_eq_ok_iff, pure, Except.pure, Except.ok.injEq, reduceCtorEq] at given
  case chainLink =>
    obtain ⟨opening, -, body, hbody, next, hnext, rfl⟩ := given
    have hbody := blocks.programs.get hbody
    have hnext := blocks.inverses.getOption hnext
    exact List.forall_mem_cons.2 ⟨hbody, by simpa [Builder.writtenLink] using hnext⟩
  case block =>
    obtain ⟨w, hw, rfl⟩ := given
    exact blocks.written hw _
  case namedBlockSlot =>
    obtain ⟨w, hw, rfl⟩ := given
    exact blocks.written hw _
  case rawBlock =>
    obtain ⟨opening, -, contents, hcontents, rfl⟩ := given
    have hcontents := blocks.statements.getList hcontents
    simpa [BlockParts.trees] using hcontents

end History.BlocksHave

/-! ### Calls and sessions -/

variable {b : Builder} {h : History}

/-- One call keeps the property if the block that it assembles, if any, has it. -/
theorem Call.perform_blocksHave (blocks : h.BlocksHave Q)
    (closing : ∀ kind node strip, Q kind node → Q kind { node with closeStrip := strip })
    {c : Call} {piece : Piece} (ok : c.perform b h = .ok piece)
    (built : ∀ parts ∈ c.blockParts? h, ∀ kind node,
      parts.build b = .ok (.block kind node) → Q kind node) : piece.BlocksHave Q := by
  -- Only four calls assemble a block, and each goes through this; the others pass on trees of the
  -- history or build from expressions, which have no blocks in them.
  have assembled (parts : BlockParts) (given : c.blockParts? h = some parts) (s : Statement)
      (hs : parts.build b = .ok s) : (Tree.statement s).Everywhere (Tree.BlocksHave Q) :=
    Tree.blocksHave_build closing hs (fun kind node eq => built parts given kind node (eq ▸ hs))
      (blocks.below_blockParts given)
  rw [Piece.blocksHave_iff]
  cases c <;> simp only [Call.perform, bind_eq_ok_iff, CallFault.ofBuild_eq_ok_iff, pure,
    Except.pure, Except.ok.injEq] at ok
  case path =>
    obtain ⟨p, -, rfl⟩ := ok
    trivial
  case string | boolean | undefined | null =>
    subst ok
    trivial
  case number =>
    obtain ⟨e, -, rfl⟩ := ok
    trivial
  case call | openTag | rawOpenTag =>
    obtain ⟨_, -, _, -, rfl⟩ := ok
    trivial
  case hashPair | hash | closeTag =>
    obtain ⟨_, -, rfl⟩ := ok
    trivial
  case content | comment =>
    subst ok
    exact (Tree.everywhere_leaf rfl).2 trivial
  case mustache =>
    obtain ⟨callee, -, args, -, rfl⟩ := ok
    have hcallee := Tree.blocksHave_expr (Q := Q) callee
    have hargs := Tree.blocksHave_arguments (Q := Q) args
    simp only [Builder.mustache]
    split
    · exact Tree.everywhere_decorator.2 ⟨trivial, hcallee, hargs⟩
    · exact Tree.everywhere_mustache.2 ⟨trivial, hcallee, hargs⟩
  case partialTag =>
    obtain ⟨name, -, args, -, rfl⟩ := ok
    exact Tree.everywhere_partialTag.2
      ⟨trivial, Tree.blocksHave_expr name, Tree.blocksHave_arguments args⟩
  case program =>
    obtain ⟨body, hbody, rfl⟩ := ok
    exact Tree.blocksHave_program_iff.2 (blocks.statements.getList hbody)
  case elseTag | inverse =>
    obtain ⟨body, hbody, rfl⟩ := ok
    exact blocks.programs.get hbody
  case chainLink named _ _ _ span =>
    obtain ⟨opening, hopening, body, hbody, next, hnext, i, hi, rfl⟩ := ok
    obtain ⟨link, hlink, rfl⟩ := Builder.chainLink_eq_ok_iff.1 hi
    have hblock := assembled (.written named (Builder.writtenLink opening body next span))
      (by simp only [Call.blockParts?, hopening, hbody, hnext]; rfl) link hlink
    exact Tree.blocksHave_program_iff.2 (List.forall_mem_singleton.2 hblock)
  case block =>
    obtain ⟨w, hw, s, hs, rfl⟩ := ok
    exact assembled (.written false w) (by simp only [Call.blockParts?, hw]; rfl) s hs
  case namedBlockSlot =>
    obtain ⟨w, hw, s, hs, rfl⟩ := ok
    exact assembled (.written true w) (by simp only [Call.blockParts?, hw]; rfl) s hs
  case rawBlock =>
    obtain ⟨opening, hopening, contents, hcontents, s, hs, rfl⟩ := ok
    exact assembled (.raw opening contents _ _)
      (by simp only [Call.blockParts?, hopening, hcontents]; rfl) s hs
  case partialBlock =>
    obtain ⟨opening, -, body, hbody, closing, -, s, hs, rfl⟩ := ok
    obtain ⟨-, rfl⟩ := unlessFault_eq_ok_iff.1 hs
    have hbody := blocks.programs.get hbody
    exact Tree.everywhere_partialBlock.2
      ⟨trivial, trivial, Tree.blocksHave_arguments opening.args, hbody⟩

theorem History.BlocksHave.nil : History.BlocksHave Q [] := by
  intro piece hpiece
  cases hpiece

theorem History.BlocksHave.append (blocks : h.BlocksHave Q) {result : Except CallFault Piece}
    (hresult : ∀ piece, result = .ok piece → piece.BlocksHave Q) :
    History.BlocksHave Q (h ++ [result.toOption]) :=
  History.forall_append blocks hresult

namespace Builder

/-- What holds of the blocks that the calls of a session assemble, given that it holds of those below
them, holds of all blocks in all trees of the session. -/
theorem results_blocksHave_after (blocks : h.BlocksHave Q)
    (closing : ∀ kind node strip, Q kind node → Q kind { node with closeStrip := strip })
    {calls : List Call}
    (built : ∀ parts ∈ b.blockParts h calls,
      (∀ t ∈ parts.trees, t.Everywhere (Tree.BlocksHave Q)) →
        ∀ kind node, parts.build b = .ok (.block kind node) → Q kind node)
    {piece : Piece} (hpiece : .ok piece ∈ b.results h calls) : piece.BlocksHave Q := by
  induction calls generalizing h with
  | nil => cases hpiece
  | cons c rest ih =>
    simp only [blockParts, List.forall_mem_append, Option.mem_toList] at built
    obtain ⟨builtNow, builtLater⟩ := built
    have hresult : ∀ p, c.perform b h = .ok p → p.BlocksHave Q :=
      fun p hp => Call.perform_blocksHave blocks closing hp fun parts given =>
        builtNow parts given (blocks.below_blockParts given)
    rcases List.mem_cons.1 hpiece with hpiece | hpiece
    · exact hresult piece hpiece.symm
    · exact ih (blocks.append hresult) builtLater hpiece

/-- Every block in every tree that a session builds is what one of its calls made of the parts that
the call was given, but for the marks at its end. -/
theorem results_blocks {calls : List Call} {piece : Piece}
    (hpiece : .ok piece ∈ b.results [] calls) :
    piece.BlocksHave fun kind node =>
      ∃ parts ∈ b.blockParts [] calls, parts.Becomes b kind node := by
  refine b.results_blocksHave_after .nil ?_ ?_ hpiece
  · rintro kind node strip ⟨parts, given, built, -, ok, rfl⟩
    exact ⟨parts, given, built, strip, ok, rfl⟩
  · intro parts given _ kind node ok
    exact ⟨parts, given, .of_build ok⟩

/-- A block that is found by a look at the results of a session. -/
theorem exists_block {calls : List Call} {kind : BlockKind} {test : Block → Bool}
    (found : (b.results h calls).any (·.toOption.any (·.isBlock kind test)) = true) :
    ∃ node, .ok (.statement (.block kind node)) ∈ b.results h calls ∧ test node = true := by
  obtain ⟨result, hresult, hblock⟩ := List.any_eq_true.1 found
  cases result with
  | error fault => cases hblock
  | ok piece =>
    have hpiece : piece.isBlock kind test = true := hblock
    unfold Piece.isBlock at hpiece
    split at hpiece
    · rename_i k node
      obtain ⟨hkind, htest⟩ : k = kind ∧ test node = true := by simpa using hpiece
      exact ⟨node, hkind ▸ hresult, htest⟩
    · cases hpiece

end Builder

end TemplateTree
