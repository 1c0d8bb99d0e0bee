import TemplateTree.Statement.Basic

/-! Trees: nodes of every kind in one type, with what stands directly below each of them, and
properties that hold of a node and of everything below it. -/
namespace TemplateTree

/-- A node of any kind, with all that is below it. -/
inductive Tree where
  | path (path : Path)
  | expr (expr : Expr)
  | hashPair (pair : HashPair)
  | hash (hash : Hash)
  | statement (statement : Statement)
  | program (program : Program)

/-- What a call passes on: the arguments by position, and the hash. -/
def Arguments.children (args : Arguments) : List Tree :=
  args.params.map .expr ++ args.hash.toList.map .hash

namespace Tree

/-- The nodes directly below a node. A path that serves as an expression is below it. -/
def children : Tree → List Tree
  | path _ => []
  | expr (.path p) => [path p]
  | expr (.call callee args _) => expr callee :: args.children
  | expr _ => []
  | hashPair p => [expr p.value]
  | hash h => h.pairs.map hashPair
  | statement (.mustache tag) | statement (.decorator tag) => expr tag.path :: tag.args.children
  | statement (.block _ b) =>
    path b.path :: b.args.children ++ b.program.toList.map program ++ b.inverse.toList.map program
  | statement (.partialTag tag) => expr tag.name :: tag.args.children
  | statement (.partialBlock b) => path b.name :: b.args.children ++ [program b.program]
  | statement _ => []
  | program p => p.body.map statement

/-- The property holds of the root and, in the same way, of every tree below it. -/
inductive Everywhere (P : Tree → Prop) : Tree → Prop where
  | node {t : Tree} (holds : P t) (below : ∀ c ∈ t.children, Everywhere P c) : Everywhere P t

variable {P : Tree → Prop} {t : Tree}

theorem everywhere_iff : t.Everywhere P ↔ P t ∧ ∀ c ∈ t.children, c.Everywhere P :=
  ⟨fun | .node holds below => ⟨holds, below⟩, fun ⟨holds, below⟩ => .node holds below⟩

theorem Everywhere.mono {P' : Tree → Prop} (h : t.Everywhere P) (imp : ∀ t, P t → P' t) :
    t.Everywhere P' := by
  induction h with
  | node holds _ ih => exact .node (imp _ holds) ih

/-! ### Node by node -/

@[simp] theorem everywhere_path {p : Path} : (path p).Everywhere P ↔ P (path p) := by
  rw [everywhere_iff]
  simp [children]

@[simp] theorem everywhere_expr_path {p : Path} :
    (expr (.path p)).Everywhere P ↔ P (expr (.path p)) ∧ P (path p) := by
  rw [everywhere_iff]
  simp [children]

/-- The property holds everywhere in what a call passes on. -/
def EverywhereIn (P : Tree → Prop) (args : Arguments) : Prop :=
  (∀ e ∈ args.params, (expr e).Everywhere P) ∧ ∀ h ∈ args.hash, (hash h).Everywhere P

theorem everywhereIn_iff {args : Arguments} :
    EverywhereIn P args ↔ ∀ c ∈ args.children, c.Everywhere P := by
  simp [EverywhereIn, Arguments.children, or_imp, forall_and]

@[simp] theorem everywhere_call {callee : Expr} {args : Arguments} {loc : Location} :
    (expr (.call callee args loc)).Everywhere P ↔
      P (expr (.call callee args loc)) ∧ (expr callee).Everywhere P ∧ EverywhereIn P args := by
  rw [everywhere_iff, everywhereIn_iff]
  simp [children]

@[simp] theorem everywhere_hashPair {p : HashPair} :
    (hashPair p).Everywhere P ↔ P (hashPair p) ∧ (expr p.value).Everywhere P := by
  rw [everywhere_iff]
  simp [children]

@[simp] theorem everywhere_hash {h : Hash} :
    (hash h).Everywhere P ↔ P (hash h) ∧ ∀ p ∈ h.pairs, (hashPair p).Everywhere P := by
  rw [everywhere_iff]
  simp [children]

@[simp] theorem everywhere_mustache {tag : Mustache} :
    (statement (.mustache tag)).Everywhere P ↔
      P (statement (.mustache tag)) ∧ (expr tag.path).Everywhere P ∧ EverywhereIn P tag.args := by
  rw [everywhere_iff, everywhereIn_iff]
  simp [children]

@[simp] theorem everywhere_decorator {tag : Mustache} :
    (statement (.decorator tag)).Everywhere P ↔
      P (statement (.decorator tag)) ∧ (expr tag.path).Everywhere P ∧ EverywhereIn P tag.args := by
  rw [everywhere_iff, everywhereIn_iff]
  simp [children]

@[simp] theorem everywhere_block {kind : BlockKind} {b : Block} :
    (statement (.block kind b)).Everywhere P ↔
      P (statement (.block kind b)) ∧ P (path b.path) ∧ EverywhereIn P b.args ∧
        (∀ p ∈ b.program, (program p).Everywhere P) ∧
        ∀ p ∈ b.inverse, (program p).Everywhere P := by
  rw [everywhere_iff, everywhereIn_iff]
  simp [children, or_imp, forall_and]

@[simp] theorem everywhere_partialTag {tag : PartialTag} :
    (statement (.partialTag tag)).Everywhere P ↔
      P (statement (.partialTag tag)) ∧ (expr tag.name).Everywhere P ∧ EverywhereIn P tag.args := by
  rw [everywhere_iff, everywhereIn_iff]
  simp [children]

@[simp] theorem everywhere_partialBlock {b : PartialBlock} :
    (statement (.partialBlock b)).Everywhere P ↔
      P (statement (.partialBlock b)) ∧ P (path b.name) ∧ EverywhereIn P b.args ∧
        (program b.program).Everywhere P := by
  rw [everywhere_iff, everywhereIn_iff]
  simp [children, or_imp, forall_and]

@[simp] theorem everywhere_program {p : Program} :
    (program p).Everywhere P ↔
      P (program p) ∧ ∀ s ∈ p.body, (statement s).Everywhere P := by
  rw [everywhere_iff]
  simp [children]

/-- Literals, texts and comments have nothing below them. -/
theorem everywhere_leaf (leaf : t.children = []) : t.Everywhere P ↔ P t := by
  rw [everywhere_iff, leaf]
  simp

end Tree

end TemplateTree
