import TemplateTree.Expr.Basic

/-! Equality of expressions is decidable: a comparison that follows the two trees down. -/
namespace TemplateTree

mutual
def Expr.same : Expr → Expr → Bool
  | .path p, .path q => p = q
  | .call c a l, .call c' a' l' => c.same c' && a.same a' && l = l'
  | .string v o l, .string v' o' l' => v = v' && o = o' && l = l'
  | .number v o l, .number v' o' l' => v = v' && o = o' && l = l'
  | .boolean v o l, .boolean v' o' l' => v = v' && o = o' && l = l'
  | .undefined l, .undefined l' => l = l'
  | .null l, .null l' => l = l'
  | _, _ => false

def Arguments.same : Arguments → Arguments → Bool
  | ⟨ps, h⟩, ⟨ps', h'⟩ => Expr.sameList ps ps' && Hash.sameOption h h'

def Expr.sameList : List Expr → List Expr → Bool
  | [], [] => true
  | e :: es, e' :: es' => e.same e' && Expr.sameList es es'
  | _, _ => false

def Hash.sameOption : Option Hash → Option Hash → Bool
  | none, none => true
  | some h, some h' => h.same h'
  | _, _ => false

def Hash.same : Hash → Hash → Bool
  | ⟨ps, l⟩, ⟨ps', l'⟩ => HashPair.sameList ps ps' && l = l'

def HashPair.sameList : List HashPair → List HashPair → Bool
  | [], [] => true
  | p :: ps, p' :: ps' => p.same p' && HashPair.sameList ps ps'
  | _, _ => false

def HashPair.same : HashPair → HashPair → Bool
  | ⟨k, v, l⟩, ⟨k', v', l'⟩ => k = k' && v.same v' && l = l'
end

mutual
theorem Expr.same_iff : ∀ a b : Expr, a.same b = true ↔ a = b
  | .call c a l, .call c' a' l' => by
    simp [Expr.same, Expr.same_iff c c', Arguments.same_iff a a', and_assoc]
  | .path _, b | .string _ _ _, b | .number _ _ _, b | .boolean _ _ _, b | .undefined _, b
  | .null _, b => by cases b <;> simp [Expr.same, and_assoc]
  | .call _ _ _, .path _ | .call _ _ _, .string _ _ _ | .call _ _ _, .number _ _ _
  | .call _ _ _, .boolean _ _ _ | .call _ _ _, .undefined _ | .call _ _ _, .null _ => by
    simp [Expr.same]

theorem Arguments.same_iff : ∀ a b : Arguments, a.same b = true ↔ a = b
  | ⟨ps, h⟩, ⟨ps', h'⟩ => by
    simp [Arguments.same, Expr.sameList_iff ps ps', Hash.sameOption_iff h h']

theorem Expr.sameList_iff : ∀ a b : List Expr, Expr.sameList a b = true ↔ a = b
  | [], [] | [], _ :: _ | _ :: _, [] => by simp [Expr.sameList]
  | e :: es, e' :: es' => by simp [Expr.sameList, Expr.same_iff e e', Expr.sameList_iff es es']

theorem Hash.sameOption_iff : ∀ a b : Option Hash, Hash.sameOption a b = true ↔ a = b
  | none, none | none, some _ | some _, none => by simp [Hash.sameOption]
  | some h, some h' => by simp [Hash.sameOption, Hash.same_iff h h']

theorem Hash.same_iff : ∀ a b : Hash, a.same b = true ↔ a = b
  | ⟨ps, l⟩, ⟨ps', l'⟩ => by simp [Hash.same, HashPair.sameList_iff ps ps']

theorem HashPair.sameList_iff : ∀ a b : List HashPair, HashPair.sameList a b = true ↔ a = b
  | [], [] | [], _ :: _ | _ :: _, [] => by simp [HashPair.sameList]
  | p :: ps, p' :: ps' => by
    simp [HashPair.sameList, HashPair.same_iff p p', HashPair.sameList_iff ps ps']

theorem HashPair.same_iff : ∀ a b : HashPair, a.same b = true ↔ a = b
  | ⟨k, v, l⟩, ⟨k', v', l'⟩ => by simp [HashPair.same, Expr.same_iff v v', and_assoc]
end

instance : DecidableEq Expr := fun a b => decidable_of_iff _ (Expr.same_iff a b)

instance : DecidableEq Arguments := fun a b => decidable_of_iff _ (Arguments.same_iff a b)

instance : DecidableEq Hash := fun a b => decidable_of_iff _ (Hash.same_iff a b)

instance : DecidableEq HashPair := fun a b => decidable_of_iff _ (HashPair.same_iff a b)

end TemplateTree
