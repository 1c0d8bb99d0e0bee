import TemplateTree.Proofs.Block.Assembly
import TemplateTree.Proofs.Tree

/-! What stands below an assembled block. Its branches are the body and the inverse program that it
was written with, but for the names that a body is given and for the closing marks of a chained
block. A property that survives these two changes holds everywhere below the block if it holds
everywhere in what the block is assembled from. -/
namespace TemplateTree.Tree

/-- The property survives the two changes that are made to a node after it has been built. -/
structure Stable (P : Tree → Prop) : Prop where
  blockParams (p : Program) (names : Option (List String)) :
    P (program p) → P (program { p with blockParams := names })
  firstCloseStrip (p : Program) (strip : Option Strip) :
    P (program p) → P (program (p.setFirstCloseStrip strip))
  closeStrip (kind : BlockKind) (b : Block) (strip : Option Strip) :
    P (statement (.block kind b)) → P (statement (.block kind { b with closeStrip := strip }))

namespace Stable

variable {P : Tree → Prop} (stable : Stable P)
include stable

theorem everywhere_blockParams {p : Program} (h : (program p).Everywhere P)
    (names : Option (List String)) :
    (program { p with blockParams := names }).Everywhere P := by
  obtain ⟨root, body⟩ := everywhere_program.1 h
  exact everywhere_program.2 ⟨stable.blockParams p names root, body⟩

theorem everywhere_setCloseStrip {s : Statement} (h : (statement s).Everywhere P)
    (strip : Option Strip) : (statement (s.setCloseStrip strip)).Everywhere P := by
  cases s with
  | block kind b =>
    obtain ⟨root, below⟩ := everywhere_block.1 h
    exact everywhere_block.2 ⟨stable.closeStrip kind b strip root, below⟩
  | _ => exact h

theorem everywhere_setFirstCloseStrip {p : Program} (h : (program p).Everywhere P)
    (strip : Option Strip) : (program (p.setFirstCloseStrip strip)).Everywhere P := by
  obtain ⟨root, hbody⟩ := everywhere_program.1 h
  refine everywhere_program.2 ⟨stable.firstCloseStrip p strip root, ?_⟩
  obtain ⟨body, blockParams, pstrip, chained, loc⟩ := p
  cases body with
  | nil => exact hbody
  | cons s rest =>
    obtain ⟨hfirst, hrest⟩ := List.forall_mem_cons.1 hbody
    exact List.forall_mem_cons.2 ⟨stable.everywhere_setCloseStrip hfirst strip, hrest⟩

theorem everywhere_branch {i : Inverse} (h : (program i.program).Everywhere P)
    (strip : Option Strip) : (program (i.branch strip)).Everywhere P := by
  unfold Inverse.branch
  split
  · exact stable.everywhere_setFirstCloseStrip h strip
  · exact h

/-- The property holds everywhere in both branches, whichever of them the body becomes. -/
theorem everywhere_branches {b : Builder} {w : WrittenBlock} (body : (program w.body).Everywhere P)
    (inverse : ∀ i ∈ w.inverse, (program i.program).Everywhere P) :
    (∀ p ∈ (b.blockNode w).program, (program p).Everywhere P) ∧
      ∀ p ∈ (b.blockNode w).inverse, (program p).Everywhere P := by
  have hbody := stable.everywhere_blockParams body w.opening.blockParams
  have hinverse : ∀ p ∈ w.inverse.map (·.branch (w.closing.map (·.strip))),
      (program p).Everywhere P := by
    intro p hp
    obtain ⟨i, hi, rfl⟩ := Option.map_eq_some_iff.1 hp
    exact stable.everywhere_branch (inverse i hi) _
  cases inverted : w.inverted
  · refine ⟨?_, by simpa [Builder.blockNode, inverted] using hinverse⟩
    intro p hp
    obtain rfl : _ = p := by simpa [Builder.blockNode, inverted] using hp
    exact hbody
  · refine ⟨by simpa [Builder.blockNode, inverted] using hinverse, ?_⟩
    intro p hp
    obtain rfl : _ = p := by simpa [Builder.blockNode, inverted] using hp
    exact hbody

end Stable

end TemplateTree.Tree
