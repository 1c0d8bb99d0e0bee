import TemplateTree.Statement.Basic

/-! Equality of statements and programs is decidable: a comparison that follows the two trees
down. -/
namespace TemplateTree

mutual
def Statement.same : Statement → Statement → Bool
  | .mustache t, .mustache t' => t = t'
  | .decorator t, .decorator t' => t = t'
  | .block k b, .block k' b' => k = k' && b.same b'
  | .partialTag t, .partialTag t' => t = t'
  | .partialBlock b, .partialBlock b' => b.same b'
  | .content v o l, .content v' o' l' => v = v' && o = o' && l = l'
  | .comment v s l, .comment v' s' l' => v = v' && s = s' && l = l'
  | _, _ => false

def Statement.sameList : List Statement → List Statement → Bool
  | [], [] => true
  | s :: ss, s' :: ss' => s.same s' && Statement.sameList ss ss'
  | _, _ => false

def Program.same : Program → Program → Bool
  | ⟨body, params, strip, chained, loc⟩, ⟨body', params', strip', chained', loc'⟩ =>
    Statement.sameList body body' && params = params' && strip = strip' && chained = chained' &&
      loc = loc'

def Program.sameOption : Option Program → Option Program → Bool
  | none, none => true
  | some p, some p' => p.same p'
  | _, _ => false

def Block.same : Block → Block → Bool
  | ⟨path, slot, args, program, inverse, opening, middle, closing, loc⟩,
    ⟨path', slot', args', program', inverse', opening', middle', closing', loc'⟩ =>
    path = path' && slot = slot' && args = args' && Program.sameOption program program' &&
      Program.sameOption inverse inverse' && opening = opening' && middle = middle' &&
      closing = closing' && loc = loc'

def PartialBlock.same : PartialBlock → PartialBlock → Bool
  | ⟨name, args, program, opening, closing, loc⟩,
    ⟨name', args', program', opening', closing', loc'⟩ =>
    name = name' && args = args' && program.same program' && opening = opening' &&
      closing = closing' && loc = loc'
end

mutual
theorem Statement.same_iff : ∀ a b : Statement, a.same b = true ↔ a = b
  | .block k b, .block k' b' => by simp [Statement.same, Block.same_iff b b']
  | .partialBlock b, .partialBlock b' => by simp [Statement.same, PartialBlock.same_iff b b']
  | .mustache _, s | .decorator _, s | .partialTag _, s | .content _ _ _, s | .comment _ _ _, s => by
    cases s <;> simp [Statement.same, and_assoc]
  | .block _ _, .mustache _ | .block _ _, .decorator _ | .block _ _, .partialTag _
  | .block _ _, .partialBlock _ | .block _ _, .content _ _ _ | .block _ _, .comment _ _ _
  | .partialBlock _, .mustache _ | .partialBlock _, .decorator _ | .partialBlock _, .block _ _
  | .partialBlock _, .partialTag _ | .partialBlock _, .content _ _ _
  | .partialBlock _, .comment _ _ _ => by simp [Statement.same]

theorem Statement.sameList_iff : ∀ a b : List Statement, Statement.sameList a b = true ↔ a = b
  | [], [] | [], _ :: _ | _ :: _, [] => by simp [Statement.sameList]
  | s :: ss, s' :: ss' => by
    simp [Statement.sameList, Statement.same_iff s s', Statement.sameList_iff ss ss']

theorem Program.same_iff : ∀ a b : Program, a.same b = true ↔ a = b
  | ⟨body, _, _, _, _⟩, ⟨body', _, _, _, _⟩ => by
    simp [Program.same, Statement.sameList_iff body body', and_assoc]

theorem Program.sameOption_iff : ∀ a b : Option Program, Program.sameOption a b = true ↔ a = b
  | none, none | none, some _ | some _, none => by simp [Program.sameOption]
  | some p, some p' => by simp [Program.sameOption, Program.same_iff p p']

theorem Block.same_iff : ∀ a b : Block, a.same b = true ↔ a = b
  | ⟨_, _, _, program, inverse, _, _, _, _⟩, ⟨_, _, _, program', inverse', _, _, _, _⟩ => by
    simp [Block.same, Program.sameOption_iff program program',
      Program.sameOption_iff inverse inverse', and_assoc]

theorem PartialBlock.same_iff : ∀ a b : PartialBlock, a.same b = true ↔ a = b
  | ⟨_, _, program, _, _, _⟩, ⟨_, _, program', _, _, _⟩ => by
    simp [PartialBlock.same, Program.same_iff program program', and_assoc]
end

instance : DecidableEq Statement := fun a b => decidable_of_iff _ (Statement.same_iff a b)

instance : DecidableEq Program := fun a b => decidable_of_iff _ (Program.same_iff a b)

instance : DecidableEq Block := fun a b => decidable_of_iff _ (Block.same_iff a b)

end TemplateTree
