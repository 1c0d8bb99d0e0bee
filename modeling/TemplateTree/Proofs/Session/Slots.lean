import TemplateTree.Proofs.Session.Blocks
import TemplateTree.Proofs.Slot.Suffix

/-! Sessions without slots. Slots come into a tree in three ways: an opening path names one behind its
`::`, a block declares the content of one, or an else chain goes on with such a declaration and gives
the block in front of it the anonymous slot. The option governs the first and the last of these. So it
makes no difference to a session that does neither of the first two; and a session without the option
has slots where they are declared, and nowhere else. -/
namespace TemplateTree

/-- The same builder with the option on or off. -/
def Builder.withSlots (b : Builder) (enabled : Bool) : Builder :=
  { b with options := { b.options with namedBlockSlots := enabled } }

/-- The call declares the content of a slot. -/
def Call.declaresSlot : Call → Bool
  | .namedBlockSlot _ => true
  | .chainLink named _ _ _ _ => named
  | _ => false

def BlockParts.declaresSlot : BlockParts → Bool
  | written named _ => named
  | raw _ _ _ _ => false

/-- The block neither declares the content of a slot nor fills one. -/
def Block.Slotless (kind : BlockKind) (node : Block) : Prop :=
  kind ≠ .namedSlot ∧ node.slot = .empty

/-- Nothing that the block is written with names a slot. -/
structure WrittenBlock.Slotless (w : WrittenBlock) : Prop where
  path : ¬ SlotSuffix.Occurs w.opening.path.written
  inverse : ∀ i ∈ w.inverse, i.declaresSlot = false

namespace Builder

variable {b : Builder} {w : WrittenBlock}

/-! ### Blocks that name no slot -/

theorem target_eq (h : ¬ SlotSuffix.Occurs w.opening.path.written) :
    b.target w.opening = (w.opening.path, .empty) := by
  have none : w.opening.path.splitSlot? = none := by
    simp [Path.splitSlot?, SlotSuffix.split?_eq_none h]
  simp [target, none]

theorem slot_eq {named : SlotName} {inverse : Option Inverse}
    (h : ∀ i ∈ inverse, i.declaresSlot = false) : b.slot named inverse = named := by
  have none : inverse.any (·.declaresSlot) = false := by
    cases inverse with
    | none => rfl
    | some i => exact h i rfl
  simp [slot, none]

theorem blockNode_slot (free : w.Slotless) : (b.blockNode w).slot = .empty := by
  simp [blockNode, target_eq free.path, slot_eq free.inverse]

theorem block_withSlots (free : w.Slotless) (enabled : Bool) :
    (b.withSlots enabled).block w = b.block w := by
  have node : (b.withSlots enabled).blockNode w = b.blockNode w := by
    simp only [blockNode, target_eq free.path, slot_eq free.inverse]
    rfl
  have fault : (b.withSlots enabled).blockFault? w = b.blockFault? w := by
    simp only [blockFault?, target_eq free.path]
    rfl
  unfold block
  rw [node, fault]

end Builder

/-- No declaration of a slot is the first statement of a program that has none. -/
theorem Inverse.declaresSlot_eq_false {i : Inverse}
    (h : (Tree.program i.program).Everywhere (Tree.BlocksHave Block.Slotless)) :
    i.declaresSlot = false := by
  have hbody := Tree.blocksHave_program_iff.1 h
  unfold Inverse.declaresSlot Program.startsWithNamedSlot Program.first?
  cases hfirst : i.program.body.head? with
  | none => simp
  | some s =>
    have first := hbody s (List.mem_of_head? hfirst)
    cases s with
    | block kind node =>
      obtain ⟨hkind, -⟩ := (Tree.everywhere_block.1 first).1
      simp [Statement.nodeKind, hkind]
    | _ => simp [Statement.nodeKind]

/-! ### Calls and sessions that name no slot -/

variable {b : Builder} {h : History}

theorem bind_congr_of_ok {ε α β : Type} {x : Except ε α} {f f' : α → Except ε β}
    (same : ∀ a, x = .ok a → f a = f' a) : (x >>= f) = (x >>= f') := by
  cases x with
  | error e => rfl
  | ok a => exact same a rfl

/-- What a block is written with names no slot if its path does not and nothing that was built
before does. -/
theorem slotless_of_below {named : Bool} {w : WrittenBlock}
    (plain : ¬ SlotSuffix.Occurs w.opening.path.written)
    (below : ∀ t ∈ (BlockParts.written named w).trees,
      t.Everywhere (Tree.BlocksHave Block.Slotless)) : w.Slotless where
  path := plain
  inverse := by
    intro i hi
    exact Inverse.declaresSlot_eq_false (below _ (by simp [BlockParts.trees, Option.mem_def.1 hi]))

/-- The option makes no difference to a call that names no slot. -/
theorem Call.perform_withSlots (enabled : Bool) {c : Call} (declares : c.declaresSlot = false)
    (free : ∀ w, c.blockParts? h = some (.written false w) → w.Slotless) :
    c.perform (b.withSlots enabled) h = c.perform b h := by
  cases c with
  | block refs =>
    refine bind_congr_of_ok fun w hw => ?_
    have hw : w.Slotless := free w (by simp only [Call.blockParts?, hw]; rfl)
    rw [Builder.block_withSlots hw]
  | chainLink named opening body next span =>
    obtain rfl : named = false := declares
    refine bind_congr_of_ok fun opening hopening => ?_
    refine bind_congr_of_ok fun body hbody => ?_
    refine bind_congr_of_ok fun next hnext => ?_
    have hw : (Builder.writtenLink opening body next span).Slotless :=
      free _ (by simp only [Call.blockParts?, hopening, hbody, hnext]; rfl)
    rw [Builder.chainLink_eq_bind, Builder.chainLink_eq_bind]
    simp only [Bool.false_eq_true, if_false, Builder.block_withSlots hw]
  | namedBlockSlot refs => cases declares
  | _ => rfl

theorem Call.blockParts?_declaresSlot {c : Call} {parts : BlockParts}
    (given : c.blockParts? h = some parts) : parts.declaresSlot = c.declaresSlot := by
  cases c <;> simp only [Call.blockParts?, Option.map_eq_some_iff, toOption_eq_some_iff,
    bind_eq_ok_iff, pure, Except.pure, Except.ok.injEq, reduceCtorEq] at given
  case chainLink =>
    obtain ⟨opening, -, body, -, next, -, rfl⟩ := given
    rfl
  case block | namedBlockSlot =>
    obtain ⟨w, -, rfl⟩ := given
    rfl
  case rawBlock =>
    obtain ⟨opening, -, contents, -, rfl⟩ := given
    rfl

/-- A block that is built without a slot has none. -/
theorem slotless_of_build {parts : BlockParts} {kind : BlockKind} {node : Block}
    (declares : parts.declaresSlot = false) (free : ∀ w, parts = .written false w → w.Slotless)
    (ok : parts.build b = .ok (.block kind node)) : node.Slotless kind := by
  have becomes := BlockParts.Becomes.of_build ok
  rcases parts with ⟨named, w⟩ | ⟨opening, contents, closed, span⟩
  · obtain rfl : named = false := declares
    obtain ⟨-, rfl, strip, rfl⟩ := becomes.of_written
    refine ⟨?_, b.blockNode_slot (free w rfl)⟩
    split <;> simp
  · obtain ⟨rfl, -, slot⟩ := becomes.of_raw
    exact ⟨by simp, slot⟩

namespace Builder

theorem blockParts_declaresSlot {calls : List Call}
    (noDeclaration : ∀ c ∈ calls, c.declaresSlot = false) :
    ∀ parts ∈ b.blockParts h calls, parts.declaresSlot = false := by
  induction calls generalizing h with
  | nil => simp [blockParts]
  | cons c rest ih =>
    obtain ⟨declares, noLater⟩ := List.forall_mem_cons.1 noDeclaration
    refine List.forall_mem_append.2 ⟨?_, ih noLater⟩
    intro parts given
    exact (Call.blockParts?_declaresSlot (Option.mem_toList.1 given)).trans declares

section

variable {calls : List Call} (noDeclaration : ∀ c ∈ calls, c.declaresSlot = false)
  (plain : ∀ w, .written false w ∈ b.blockParts h calls →
    ¬ SlotSuffix.Occurs w.opening.path.written)
include noDeclaration plain

theorem results_slotless (blocks : h.BlocksHave fun kind node => node.Slotless kind) {piece : Piece}
    (hpiece : .ok piece ∈ b.results h calls) :
    piece.BlocksHave fun kind node => node.Slotless kind := by
  refine b.results_blocksHave_after blocks (fun _ _ _ slotless => slotless) ?_ hpiece
  intro parts given below kind node ok
  have free : ∀ w, parts = .written false w → w.Slotless := by
    rintro w rfl
    exact slotless_of_below (plain w given) below
  exact slotless_of_build (blockParts_declaresSlot noDeclaration parts given) free ok

theorem results_withSlots_after (blocks : h.BlocksHave fun kind node => node.Slotless kind)
    (enabled : Bool) : (b.withSlots enabled).results h calls = b.results h calls := by
  -- What is carried along is that nothing built so far has a slot: an inverse branch, wherever it
  -- comes from, then starts with no declaration, and no slot is inferred from it.
  induction calls generalizing h with
  | nil => rfl
  | cons c rest ih =>
    have hresult : ∀ p, c.perform b h = .ok p →
        p.BlocksHave fun kind node => node.Slotless kind := by
      intro p hp
      exact results_slotless noDeclaration plain blocks (List.mem_cons.2 (.inl hp.symm))
    obtain ⟨declares, noLater⟩ := List.forall_mem_cons.1 noDeclaration
    have step : c.perform (b.withSlots enabled) h = c.perform b h := by
      refine Call.perform_withSlots enabled declares fun w given => ?_
      exact slotless_of_below (plain w (by simp [blockParts, given])) (blocks.below_blockParts given)
    have later := ih noLater (fun w hw => plain w (by simp [blockParts, hw])) (blocks.append hresult)
    simp only [results, step, later]

end

/-- A session that declares the content of no slot, and whose blocks are all opened with paths
without a separator, has the same results with the option as without it, and none of the blocks in
them fills a slot. The hypothesis on the paths may be checked with either option. -/
theorem results_withSlots {calls : List Call}
    (noDeclaration : ∀ c ∈ calls, c.declaresSlot = false)
    (plain : ∀ w, .written false w ∈ b.blockParts [] calls →
      ¬ SlotSuffix.Occurs w.opening.path.written) :
    (b.withSlots true).results [] calls = (b.withSlots false).results [] calls ∧
      ∀ enabled piece, .ok piece ∈ (b.withSlots enabled).results [] calls →
        piece.BlocksHave fun _ node => node.slot = .empty := by
  have same (enabled : Bool) : (b.withSlots enabled).results [] calls = b.results [] calls :=
    results_withSlots_after noDeclaration plain .nil enabled
  refine ⟨(same true).trans (same false).symm, ?_⟩
  intro enabled piece hpiece
  rw [same enabled] at hpiece
  exact (results_slotless noDeclaration plain .nil hpiece).mono fun _ _ slotless => slotless.2

/-- The session of `{{#list}}{{else if}}{{/list}}`, without the closing tag. -/
theorem results_withSlots_list :
    let span : Span := ⟨⟨1, 0⟩, ⟨1, 28⟩⟩
    let calls : List Call := [.path false [.ofToken none "list"] span,
      .path false [.ofToken none "if"] span, .program [] none,
      .openTag 0 "\x7b\x7b#" ⟨[], none⟩ {} none, .openTag 1 "\x7b\x7belse " ⟨[], none⟩ {} none,
      .chainLink false 4 2 none span, .block ⟨3, 2, some 5, none, false, span⟩]
    (∀ c ∈ calls, c.declaresSlot = false) ∧
      (∀ w, .written false w ∈ (ofOptions {}).blockParts [] calls →
        ¬ SlotSuffix.Occurs w.opening.path.written) ∧
      ((ofOptions {}).withSlots true).results [] calls =
        ((ofOptions {}).withSlots false).results [] calls ∧
      ∃ node, .ok (.statement (.block .plain node)) ∈
        ((ofOptions {}).withSlots true).results [] calls ∧ node.slot = .empty := by
  intro span calls
  have noDeclaration : ∀ c ∈ calls, c.declaresSlot = false := by decide
  have plain : ∀ w, .written false w ∈ (ofOptions {}).blockParts [] calls →
      ¬ SlotSuffix.Occurs w.opening.path.written := by
    have all : ∀ parts ∈ (ofOptions {}).blockParts [] calls,
        ¬ SlotSuffix.Occurs parts.opening.path.written := by decide
    exact fun w hw => all _ hw
  obtain ⟨same, slotless⟩ := results_withSlots noDeclaration plain
  have found : (((ofOptions {}).withSlots true).results [] calls).any
      (·.toOption.any (·.isBlock .plain fun node => node.inverse.isSome)) = true := by decide
  obtain ⟨node, hpiece, -⟩ := exists_block found
  exact ⟨noDeclaration, plain, same, node, hpiece, (slotless true _ hpiece).root⟩

/-- Without the option a block has the path of the tag that opens it, whatever its kind. It has a
slot only if it declares the content of one: then its slot is its path. -/
theorem results_slots_off {calls : List Call} (off : b.options.namedBlockSlots = false)
    {piece : Piece} (hpiece : .ok piece ∈ b.results [] calls) :
    piece.BlocksHave fun kind node =>
      node.slot = (if kind = .namedSlot then ⟨node.path.written⟩ else .empty) ∧
        ∃ parts ∈ b.blockParts [] calls, parts.Becomes b kind node ∧
          node.path = parts.opening.path := by
  refine (results_blocks hpiece).mono ?_
  rintro kind node ⟨parts, given, becomes⟩
  have target (tag : OpenTag) : b.target tag = (tag.path, .empty) := by simp [Builder.target, off]
  have path (w : WrittenBlock) : (b.blockNode w).path = w.opening.path := by
    simp [blockNode, target]
  have slot (w : WrittenBlock) : (b.blockNode w).slot = .empty := by
    simp [blockNode, Builder.slot, target, off]
  rcases parts with ⟨named, w⟩ | ⟨opening, contents, closed, span⟩
  · cases named with
    | false =>
      have made := becomes
      obtain ⟨-, rfl, strip, rfl⟩ := becomes.of_written
      have kind : (if w.opening.isDecorator then .decorator else .plain) ≠ BlockKind.namedSlot := by
        split <;> simp
      rw [if_neg kind]
      exact ⟨slot w, _, given, made, path w⟩
    | true =>
      have made := becomes
      obtain ⟨-, rfl, strip, rfl⟩ := becomes.of_named
      exact ⟨rfl, _, given, made, path w⟩
  · obtain ⟨rfl, hpath, hslot⟩ := becomes.of_raw
    exact ⟨hslot, _, given, becomes, hpath⟩

/-- Without the option `{{#list::rows}}` is a block with that whole name. -/
theorem results_slots_off_list :
    let b := ofOptions { namedBlockSlots := false }
    let span : Span := ⟨⟨1, 0⟩, ⟨1, 28⟩⟩
    let calls : List Call := [.path false [.ofToken none "list::rows"] span, .program [] none,
      .openTag 0 "\x7b\x7b#" ⟨[], none⟩ {} none, .block ⟨2, 1, none, none, false, span⟩]
    b.options.namedBlockSlots = false ∧
      ∃ node, .ok (.statement (.block .plain node)) ∈ b.results [] calls ∧ node.slot = .empty ∧
        ∃ parts ∈ b.blockParts [] calls, parts.Becomes b .plain node ∧
          node.path = parts.opening.path := by
  intro b span calls
  have found : (b.results [] calls).any
      (·.toOption.any (·.isBlock .plain fun _ => true)) = true := by decide
  obtain ⟨node, hpiece, -⟩ := exists_block found
  exact ⟨rfl, node, hpiece, (results_slots_off rfl hpiece).root⟩

/-- Without the option the declaration `{{#header}}` still has the slot `header`. -/
theorem declared_slot_header :
    let b := ofOptions { namedBlockSlots := false }
    let calls : List Call := [.path false [.ofToken none "header"] ⟨⟨1, 7⟩, ⟨1, 13⟩⟩,
      .openTag 0 "\x7b\x7b#" ⟨[], none⟩ {} none, .program [] none,
      .namedBlockSlot ⟨1, 2, none, none, false, ⟨⟨1, 0⟩, ⟨1, 26⟩⟩⟩]
    ¬ ∀ piece, .ok piece ∈ b.results [] calls →
      piece.BlocksHave fun kind node => node.slot = .empty ∧
        ∃ parts ∈ b.blockParts [] calls, parts.Becomes b kind node ∧
          node.path = parts.opening.path := by
  intro b calls never
  have found : (b.results [] calls).any
      (·.toOption.any (·.isBlock .namedSlot fun node => node.slot = ⟨"header"⟩)) = true := by decide
  obtain ⟨node, hpiece, hslot⟩ := exists_block found
  obtain ⟨empty, -⟩ := (never _ hpiece).root
  rw [empty] at hslot
  exact absurd hslot (by decide)

end Builder

end TemplateTree
