import TemplateTree.Proofs.Block.Assembly
import TemplateTree.Proofs.Relocation.Tree

/-! Every way to build a node commutes with moving locations: from parts that have been moved, by a
builder whose spans are located elsewhere, comes the node that was built before, moved in the same
way, or the fault that was found before. Ranges are merged where a program is put together, and only
there does it matter what the move does to them. -/
namespace TemplateTree

section Results

variable {ε ε' α α' β β' : Type}

/-- The result with its fault and its value mapped. -/
def mapBoth (f : ε → ε') (k : α → α') : Except ε α → Except ε' α'
  | .error e => .error (f e)
  | .ok a => .ok (k a)

variable {f : ε → ε'} {k : α → α'} {l : β → β'}

theorem mapBoth_bind {x : Except ε α} {x' : Except ε' α'} {r : α → Except ε β}
    {r' : α' → Except ε' β'} (hx : x' = mapBoth f k x) (hr : ∀ a, r' (k a) = mapBoth f l (r a)) :
    (x' >>= r') = mapBoth f l (x >>= r) := by
  subst hx
  cases x with
  | error e => rfl
  | ok a => exact hr a

end Results

variable {g : Location → Location}

/-! ### Parts of a block -/

theorem unlessFault_relocate {α α' : Type} {k : α → α'} (fault : Option BuildError) (node : α) :
    unlessFault (fault.map (·.relocate g)) (k node) =
      mapBoth (BuildError.relocate g) k (unlessFault fault node) := by
  cases fault <;> rfl

theorem Path.closingFault?_relocate (p : Path) (closed : String) :
    (p.relocate g).closingFault? closed = (p.closingFault? closed).map (·.relocate g) := by
  unfold Path.closingFault?
  split <;> simp_all [Path.relocate, BuildError.relocate]

theorem Path.splitSlot?_relocate (p : Path) :
    (p.relocate g).splitSlot? = p.splitSlot?.map fun (stem, slot) => (stem.relocate g, slot) := by
  simp [Path.splitSlot?, Path.relocate, Function.comp_def]

theorem Program.ofBody_relocate (hg : Location.RespectsMerge g) (body : List Statement)
    (loc : Option Location) :
    (Program.ofBody body loc).relocate g = .ofBody (body.map (·.relocate g)) (loc.map g) := by
  cases loc with
  | some l => simp [Program.ofBody, Program.relocate]
  | none =>
    -- The only place where a location is made of two others, so the only one that needs `hg`.
    simp only [Program.ofBody, Program.relocate, List.head?_map, List.getLast?_map]
    cases body.head? <;> cases body.getLast? <;> simp [hg _ _]

theorem Program.startsWithNamedSlot_relocate (p : Program) :
    (p.relocate g).startsWithNamedSlot = p.startsWithNamedSlot := by
  unfold Program.startsWithNamedSlot Program.first?
  rw [Program.body_relocate, List.head?_map]
  cases p.body.head? <;> simp

theorem Inverse.declaresSlot_relocate (i : Inverse) :
    (i.relocate g).declaresSlot = i.declaresSlot := by
  simp [Inverse.declaresSlot, Inverse.relocate, Program.startsWithNamedSlot_relocate]

theorem Statement.setCloseStrip_relocate (s : Statement) (strip : Option Strip) :
    (s.relocate g).setCloseStrip strip = (s.setCloseStrip strip).relocate g := by
  cases s with
  | block kind b => cases b; rfl
  | _ => rfl

theorem Program.setFirstCloseStrip_relocate (p : Program) (strip : Option Strip) :
    (p.relocate g).setFirstCloseStrip strip = (p.setFirstCloseStrip strip).relocate g := by
  obtain ⟨body, blockParams, pstrip, chained, loc⟩ := p
  cases body with
  | nil => rfl
  | cons s rest =>
    simp [Program.setFirstCloseStrip, Program.relocate, Statement.setCloseStrip_relocate]

theorem Inverse.branch_relocate (i : Inverse) (strip : Option Strip) :
    (i.relocate g).branch strip = (i.branch strip).relocate g := by
  unfold Inverse.branch
  split <;> simp_all [Inverse.relocate, Program.setFirstCloseStrip_relocate]

namespace Builder

variable {b : Builder}

theorem target_relocate (tag : OpenTag) :
    (b.relocate g).target (tag.relocate g) =
      ((b.target tag).1.relocate g, (b.target tag).2) := by
  have sameTag : (tag.relocate g).isDecorator = tag.isDecorator := rfl
  have sameOptions : (b.relocate g).options = b.options := rfl
  unfold target
  rw [sameTag, sameOptions]
  split
  · cases h : tag.path.splitSlot? <;> simp [OpenTag.relocate, Path.splitSlot?_relocate, h]
  · rfl

theorem slot_relocate (named : SlotName) (inverse : Option Inverse) :
    (b.relocate g).slot named (inverse.map (·.relocate g)) = b.slot named inverse := by
  have sameOptions : (b.relocate g).options = b.options := rfl
  unfold slot
  rw [sameOptions]
  cases inverse <;> simp [Inverse.declaresSlot_relocate]

theorem blockFault?_relocate (w : WrittenBlock) :
    (b.relocate g).blockFault? (w.relocate g) = (b.blockFault? w).map (·.relocate g) := by
  obtain ⟨opening, body, inverse, closing, inverted, span⟩ := w
  have sameTag : (opening.relocate g).isDecorator = opening.isDecorator := rfl
  have closingFault : (closing.map (·.relocate g)).bind (fun tag =>
        tag.name?.bind ((b.relocate g).target (opening.relocate g)).1.closingFault?) =
      (closing.bind fun tag => tag.name?.bind (b.target opening).1.closingFault?).map
        (·.relocate g) := by
    rcases closing with - | ⟨- | path, strip⟩
    · rfl
    · rfl
    · rw [target_relocate]
      exact Path.closingFault?_relocate _ _
  cases decorator : opening.isDecorator with
  | false => simpa [blockFault?, WrittenBlock.relocate, sameTag, decorator] using closingFault
  | true =>
    cases inverse with
    | none => simpa [blockFault?, WrittenBlock.relocate, sameTag, decorator] using closingFault
    | some i =>
      cases h : i.program.loc <;>
        simp [blockFault?, WrittenBlock.relocate, sameTag, decorator, Inverse.relocate,
          BuildError.relocate, Builder.relocate, h]

theorem blockNode_relocate (w : WrittenBlock) :
    (b.relocate g).blockNode (w.relocate g) = (b.blockNode w).relocate g := by
  obtain ⟨opening, body, inverse, closing, inverted, span⟩ := w
  have closeStrip : (closing.map (·.relocate g)).map (·.strip) = closing.map (·.strip) := by
    cases closing <;> rfl
  have inverseStrip : (inverse.map (·.relocate g)).map (·.strip) = inverse.map (·.strip) := by
    cases inverse <;> rfl
  have branch (strip : Option Strip) : (inverse.map (·.relocate g)).map (·.branch strip) =
      (inverse.map (·.branch strip)).map (·.relocate g) := by
    cases inverse <;> simp [Inverse.branch_relocate]
  have params (names : Option (List String)) : { body.relocate g with blockParams := names } =
      { body with blockParams := names }.relocate g := (body.relocate_blockParams names).symm
  simp only [blockNode, WrittenBlock.relocate, target_relocate, slot_relocate, closeStrip,
    inverseStrip, branch, params, Block.relocate, Program.relocateOption_eq]
  cases inverted <;> rfl

theorem block_relocate (w : WrittenBlock) :
    (b.relocate g).block (w.relocate g) =
      mapBoth (BuildError.relocate g) (Statement.relocate g) (b.block w) := by
  unfold block
  rw [blockFault?_relocate, blockNode_relocate, ← unlessFault_relocate]
  rfl

theorem namedBlockSlot_relocate (w : WrittenBlock) :
    (b.relocate g).namedBlockSlot (w.relocate g) =
      mapBoth (BuildError.relocate g) (Statement.relocate g) (b.namedBlockSlot w) := by
  unfold namedBlockSlot
  rw [blockFault?_relocate, blockNode_relocate, ← unlessFault_relocate]
  rfl

theorem writtenLink_relocate (opening : OpenTag) (body : Program) (next : Option Inverse)
    (span : Span) :
    writtenLink (opening.relocate g) (body.relocate g) (next.map (·.relocate g)) span =
      (writtenLink opening body next span).relocate g := by
  cases next <;> rfl

theorem chainLink_relocate (hg : Location.RespectsMerge g) (named : Bool) (opening : OpenTag)
    (body : Program) (next : Option Inverse) (span : Span) :
    (b.relocate g).chainLink named (opening.relocate g) (body.relocate g)
        (next.map (·.relocate g)) span =
      mapBoth (BuildError.relocate g) (Inverse.relocate g)
        (b.chainLink named opening body next span) := by
  have wrapper (link : Statement) :
      { Program.ofBody [link.relocate g] (body.relocate g).loc with chained := true } =
        { Program.ofBody [link] body.loc with chained := true }.relocate g := by
    rw [Program.relocate_chained, Program.ofBody_relocate hg, Program.loc_relocate]
    rfl
  rw [chainLink_eq_bind, chainLink_eq_bind, writtenLink_relocate]
  refine mapBoth_bind (k := Statement.relocate g) ?_ fun link => ?_
  · cases named
    · exact block_relocate _
    · exact namedBlockSlot_relocate _
  · rw [wrapper]
    rfl

theorem rawBlock_relocate (hg : Location.RespectsMerge g) (opening : OpenTag)
    (contents : List Statement) (closed : String) (span : Span) :
    (b.relocate g).rawBlock (opening.relocate g) (contents.map (·.relocate g)) closed span =
      mapBoth (BuildError.relocate g) (Statement.relocate g)
        (b.rawBlock opening contents closed span) := by
  unfold rawBlock
  rw [← unlessFault_relocate, ← Path.closingFault?_relocate]
  simp [Statement.relocate, Block.relocate, Program.ofBody_relocate hg, OpenTag.relocate,
    Builder.relocate]

theorem partialBlock_relocate (opening : OpenTag) (body : Program) (closing : CloseTag)
    (span : Span) :
    (b.relocate g).partialBlock (opening.relocate g) (body.relocate g) (closing.relocate g) span =
      mapBoth (BuildError.relocate g) (Statement.relocate g)
        (b.partialBlock opening body closing span) := by
  have name : (closing.relocate g).name? = closing.name? := by
    obtain ⟨- | path, strip⟩ := closing <;> rfl
  unfold partialBlock
  rw [← unlessFault_relocate, ← Path.closingFault?_relocate, name]
  rfl

/-! ### Expressions and other statements -/

theorem path_relocate (data : Bool) (segments : List Segment) (span : Span) :
    (b.relocate g).path data segments span =
      mapBoth (BuildError.relocate g) (Path.relocate g) (b.path data segments span) := by
  unfold Builder.path Path.resolve
  cases segments.foldlM Path.Progress.step (.start data) <;> rfl

theorem number_relocate (text : String) (span : Span) :
    (b.relocate g).number text span =
      mapBoth (BuildError.relocate g) (Expr.relocate g) (b.number text span) := by
  unfold number
  cases Binary64.ofText? text <;> rfl

theorem hash_relocate (pairs : List HashPair) (span : Span) :
    (b.relocate g).hash (pairs.map (·.relocate g)) span = (b.hash pairs span).relocate g := by
  simp [hash, Hash.relocate, Builder.relocate]

theorem mustache_relocate (callee : Expr) (args : Arguments) (opening : String) (strip : Strip)
    (span : Span) :
    (b.relocate g).mustache (callee.relocate g) (args.relocate g) opening strip span =
      (b.mustache callee args opening strip span).relocate g := by
  unfold mustache
  split <;> rfl

end Builder

end TemplateTree
