import TemplateTree.Proofs.Block.Branches
import TemplateTree.Proofs.Session.Derivation

/-! What holds at every node of every tree that is built, whatever the session: which parts of a
node have to be there, and which exclude each other. Two operations change a node after it has been
built, and neither breaks it: the closing marks of a chained block, and the names that a block
gives to its body. -/
namespace TemplateTree

/-- A program has a location unless it is empty, and one that stands for a link of an else chain
is a block with a location. -/
structure Program.Sound (p : Program) : Prop where
  located : p.loc = none → p.body = []
  link : p.chained = true → p.loc.isSome ∧ ∃ kind b, p.body = [.block kind b]

/-- A block has a branch. One that declares the content of a slot has no arguments and is named
like its slot; a decorator has no slot, and no tag between branches. -/
structure Block.Sound (kind : BlockKind) (b : Block) : Prop where
  branch : b.program.isSome ∨ b.inverse.isSome
  namedSlot : kind = .namedSlot →
    b.args.params = [] ∧ b.args.hash = none ∧ b.slot.text = b.path.written
  decorator : kind = .decorator → b.slot.text = "" ∧ b.inverseStrip = none

/-- The node is one that builders make. -/
def Tree.Sound : Tree → Prop
  | expr (.number value _ _) => value.isFinite
  | statement (.block kind b) => b.Sound kind
  | statement (.partialBlock b) => b.closeStrip.isSome
  | program p => p.Sound
  | _ => True

/-- The trees that a piece brings into the trees made from it. -/
def Piece.trees : Piece → List Tree
  | path p => [.path p]
  | expr e => [.expr e]
  | hashPair p => [.hashPair p]
  | hash h => [.hash h]
  | statement s => [.statement s]
  | program p => [.program p]
  | openTag tag => .path tag.path :: tag.args.children
  | closeTag tag => tag.path.toList.map .path
  | inverse i => [.program i.program]

/-- All trees of the piece are sound everywhere. -/
def Piece.Sound (piece : Piece) : Prop := ∀ t ∈ piece.trees, t.Everywhere Tree.Sound

namespace Tree

/-! ### Numbers -/

theorem isFinite_of_ofText? {text : String} {x : Binary64} (h : Binary64.ofText? text = some x) :
    x.isFinite := by
  unfold Binary64.ofText? at h
  exact (Option.filter_eq_some_iff.1 h).2

theorem sound_number {b : Builder} {text : String} {span : Span} {e : Expr}
    (ok : b.number text span = .ok e) : (expr e).Everywhere Sound := by
  unfold Builder.number at ok
  split at ok
  · rename_i value hvalue
    obtain rfl : _ = e := Except.ok.inj ok
    exact (everywhere_leaf rfl).2 (isFinite_of_ofText? hvalue)
  · cases ok

/-! ### Programs -/

theorem sound_program_iff {p : Program} :
    (program p).Everywhere Sound ↔ p.Sound ∧ ∀ s ∈ p.body, (statement s).Everywhere Sound := by
  rw [everywhere_program]
  rfl

theorem sound_ofBody {body : List Statement} (h : ∀ s ∈ body, (statement s).Everywhere Sound)
    (loc : Option Location) : (program (.ofBody body loc)).Everywhere Sound := by
  refine sound_program_iff.2 ⟨⟨?_, nofun⟩, h⟩
  intro unlocated
  cases body with
  | nil => rfl
  | cons s rest =>
    cases loc <;> simp [Program.ofBody, List.getLast?_cons] at unlocated

/-- The names that a block gives to its body are no part of what makes the body sound, nor are the
marks at the end of a block. -/
theorem stable_sound : Stable Sound where
  blockParams := fun _ _ ⟨located, link⟩ => ⟨located, link⟩
  closeStrip := fun _ _ _ ⟨branch, namedSlot, decorator⟩ => ⟨branch, namedSlot, decorator⟩
  firstCloseStrip := by
    rintro ⟨body, blockParams, pstrip, chained, loc⟩ strip ⟨located, link⟩
    cases body with
    | nil => exact ⟨located, link⟩
    | cons s rest =>
      refine ⟨?_, ?_⟩
      · intro unlocated
        cases located unlocated
      · intro hchained
        obtain ⟨hloc, kind, b, hb⟩ := link hchained
        obtain ⟨rfl, rfl⟩ := List.cons.inj hb
        exact ⟨hloc, kind, _, rfl⟩

/-! ### Blocks -/

/-- Everything that a block is assembled from is sound. -/
structure SoundParts (w : WrittenBlock) : Prop where
  args : EverywhereIn Sound w.opening.args
  body : (program w.body).Everywhere Sound
  inverse : ∀ i ∈ w.inverse, (program i.program).Everywhere Sound

variable {b : Builder} {w : WrittenBlock}

private theorem branches_of_blockNode (b : Builder) (w : WrittenBlock) :
    (b.blockNode w).program.isSome ∨ (b.blockNode w).inverse.isSome := by
  cases inverted : w.inverted
  · left
    simp [Builder.blockNode, inverted]
  · right
    simp [Builder.blockNode, inverted]

/-- A decorator without a fault has no inverse branch, so that nothing is left of its slot and of
the marks between branches. -/
private theorem decorator_of_noFault (noFault : b.blockFault? w = none)
    (decorator : w.opening.isDecorator = true) :
    (b.blockNode w).slot = .empty ∧ (b.blockNode w).inverseStrip = none := by
  have alone := Builder.inverse_eq_none_of_decorator noFault decorator
  simp [Builder.blockNode, Builder.slot, Builder.target, decorator, alone]

theorem sound_block {s : Statement} (parts : SoundParts w) (ok : b.block w = .ok s) :
    (statement s).Everywhere Sound := by
  obtain ⟨noFault, rfl⟩ := Builder.block_eq_ok_iff.1 ok
  obtain ⟨hprogram, hinverse⟩ := stable_sound.everywhere_branches (b := b) parts.body parts.inverse
  refine everywhere_block.2 ⟨⟨branches_of_blockNode b w, ?_, ?_⟩, trivial, parts.args, hprogram,
    hinverse⟩
  · intro kind
    split at kind <;> cases kind
  · intro kind
    cases decorator : w.opening.isDecorator
    · simp [decorator] at kind
    · obtain ⟨hslot, hstrip⟩ := decorator_of_noFault noFault decorator
      exact ⟨by rw [hslot]; rfl, hstrip⟩

theorem sound_namedBlockSlot {s : Statement} (parts : SoundParts w)
    (ok : b.namedBlockSlot w = .ok s) : (statement s).Everywhere Sound := by
  obtain ⟨noFault, rfl⟩ := Builder.namedBlockSlot_eq_ok_iff.1 ok
  obtain ⟨hprogram, hinverse⟩ := stable_sound.everywhere_branches (b := b) parts.body parts.inverse
  have named : Block.Sound .namedSlot { b.blockNode w with
      slot := ⟨(b.blockNode w).path.written⟩, args := ⟨[], none⟩ } :=
    ⟨branches_of_blockNode b w, fun _ => ⟨rfl, rfl, rfl⟩, nofun⟩
  exact everywhere_block.2 ⟨named, trivial, ⟨nofun, nofun⟩, hprogram, hinverse⟩

theorem sound_chainLink {named : Bool} {opening : OpenTag} {body : Program}
    {next : Option Inverse} {span : Span} {i : Inverse}
    (args : EverywhereIn Sound opening.args) (hbody : (program body).Everywhere Sound)
    (hnext : ∀ n ∈ next, (program n.program).Everywhere Sound)
    (ok : b.chainLink named opening body next span = .ok i) :
    (program i.program).Everywhere Sound := by
  obtain ⟨link, hlink, rfl⟩ := Builder.chainLink_eq_ok_iff.1 ok
  have parts : SoundParts (Builder.writtenLink opening body next span) := ⟨args, hbody, hnext⟩
  have sound : (statement link).Everywhere Sound := by
    split at hlink
    · exact sound_namedBlockSlot parts hlink
    · exact sound_block parts hlink
  have block : ∃ kind node, link = .block kind node := by
    split at hlink
    · obtain ⟨-, rfl⟩ := Builder.namedBlockSlot_eq_ok_iff.1 hlink
      exact ⟨_, _, rfl⟩
    · obtain ⟨-, rfl⟩ := Builder.block_eq_ok_iff.1 hlink
      exact ⟨_, _, rfl⟩
  obtain ⟨kind, node, rfl⟩ := block
  have located : (Program.ofBody [.block kind node] body.loc).loc.isSome := by
    cases hloc : body.loc <;> simp [Program.ofBody]
  refine sound_program_iff.2 ⟨⟨?_, fun _ => ⟨located, kind, node, rfl⟩⟩,
    List.forall_mem_singleton.2 sound⟩
  intro unlocated
  exact absurd unlocated (Option.isSome_iff_ne_none.1 located)

theorem sound_rawBlock {opening : OpenTag} {contents : List Statement} {closed : String}
    {span : Span} {s : Statement} (args : EverywhereIn Sound opening.args)
    (hcontents : ∀ c ∈ contents, (statement c).Everywhere Sound)
    (ok : b.rawBlock opening contents closed span = .ok s) : (statement s).Everywhere Sound := by
  obtain ⟨-, rfl⟩ := unlessFault_eq_ok_iff.1 ok
  have body := sound_ofBody hcontents (some (b.locate span))
  refine everywhere_block.2 ⟨⟨.inl rfl, nofun, nofun⟩, trivial, args, ?_, nofun⟩
  rintro p ⟨⟩
  exact body

theorem sound_partialBlock {opening : OpenTag} {body : Program} {closing : CloseTag} {span : Span}
    {s : Statement} (args : EverywhereIn Sound opening.args)
    (hbody : (program body).Everywhere Sound)
    (ok : b.partialBlock opening body closing span = .ok s) : (statement s).Everywhere Sound := by
  obtain ⟨-, rfl⟩ := unlessFault_eq_ok_iff.1 ok
  exact everywhere_partialBlock.2 ⟨rfl, trivial, args, hbody⟩

end Tree

/-! ### Sessions -/

namespace Piece

variable {b : Builder}

theorem sound_iff {piece : Piece} :
    piece.Sound ↔ match piece with
      | path _ | closeTag _ => True
      | expr e => (Tree.expr e).Everywhere Tree.Sound
      | hashPair p => (Tree.hashPair p).Everywhere Tree.Sound
      | hash h => (Tree.hash h).Everywhere Tree.Sound
      | statement s => (Tree.statement s).Everywhere Tree.Sound
      | program p => (Tree.program p).Everywhere Tree.Sound
      | openTag tag => Tree.EverywhereIn Tree.Sound tag.args
      | inverse i => (Tree.program i.program).Everywhere Tree.Sound := by
  have path (p : Path) : (Tree.path p).Everywhere Tree.Sound := Tree.everywhere_path.2 trivial
  cases piece <;> simp [Piece.Sound, trees, Tree.everywhereIn_iff, path]

/-- No call breaks a tree: the trees of its result are sound if those of its arguments are. -/
theorem sound_of_made {piece : Piece} (made : Made b piece) : piece.Sound := by
  rw [sound_iff]
  induction made with
  | path | closeTag => trivial
  | pathExpr => exact Tree.everywhere_expr_path.2 ⟨trivial, trivial⟩
  | string | boolean | undefined | null => exact (Tree.everywhere_leaf rfl).2 trivial
  | number ok => exact Tree.sound_number ok
  | call _ _ _ _ callee params hash => exact Tree.everywhere_call.2 ⟨trivial, callee, params, hash⟩
  | hashPair _ _ _ value => exact Tree.everywhere_hashPair.2 ⟨trivial, value⟩
  | hash _ _ pairs => exact Tree.everywhere_hash.2 ⟨trivial, pairs⟩
  | content | comment => exact (Tree.everywhere_leaf rfl).2 trivial
  | mustache opening _ _ _ _ _ callee params hash =>
    simp only [Builder.mustache]
    split
    · exact Tree.everywhere_decorator.2 ⟨trivial, callee, params, hash⟩
    · exact Tree.everywhere_mustache.2 ⟨trivial, callee, params, hash⟩
  | partialTag _ _ _ _ _ _ name params hash =>
    exact Tree.everywhere_partialTag.2 ⟨trivial, name, params, hash⟩
  | program loc _ body => exact Tree.sound_ofBody body loc
  | openTag _ _ _ _ params hash => exact ⟨params, hash⟩
  | inverse _ program => exact program
  | chainLink _ _ _ ok opening body next => exact Tree.sound_chainLink opening body next ok
  | block _ _ _ _ ok opening body inverse => exact Tree.sound_block ⟨opening, body, inverse⟩ ok
  | namedBlockSlot _ _ _ _ ok opening body inverse =>
    exact Tree.sound_namedBlockSlot ⟨opening, body, inverse⟩ ok
  | rawBlock _ _ ok opening contents => exact Tree.sound_rawBlock opening contents ok
  | partialBlock _ _ _ ok opening body => exact Tree.sound_partialBlock opening body ok

/-- Every tree that a session builds is sound at every node, whatever the calls, the options and
the locations are. -/
theorem results_sound {b : Builder} {calls : List Call} {piece : Piece}
    (hpiece : .ok piece ∈ b.results [] calls) : ∀ t ∈ piece.trees, t.Everywhere Tree.Sound :=
  sound_of_made (Builder.results_made hpiece)

/-- A session that builds an else chain and the block in front of it. -/
theorem results_sound_else :
    let span : Span := ⟨⟨1, 0⟩, ⟨1, 40⟩⟩
    let calls : List Call := [.path false [.ofToken none "if"] span, .string "a" span,
      .openTag 0 "\x7b\x7b#" ⟨[1], none⟩ {} none, .content "text" span, .program [3] none,
      .chainLink false 2 4 none span, .block ⟨2, 4, some 5, none, true, span⟩]
    ∃ piece, .ok piece ∈ (Builder.ofOptions {}).results [] calls ∧
      (piece.asStatement?.bind (·.block?)).isSome ∧
      ∀ t ∈ piece.trees, t.Everywhere Tree.Sound := by
  intro span calls
  have built : ((Builder.ofOptions {}).results [] calls).any fun result =>
      result.toOption.any fun piece => (piece.asStatement?.bind (·.block?)).isSome := by decide
  obtain ⟨result, hmem, hblock⟩ := List.any_eq_true.1 built
  cases result with
  | error fault => cases hblock
  | ok piece => exact ⟨piece, hmem, hblock, results_sound hmem⟩

end Piece

end TemplateTree
