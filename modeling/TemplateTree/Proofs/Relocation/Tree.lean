import TemplateTree.Session.Call

/-! Moving what a session works with to other places. A function on locations is applied to every
location of a tree, of an error, of what is passed between calls and of the calls themselves;
everything else stays. Trees are followed down node by node, lists and optional parts with them. -/
namespace TemplateTree

namespace Location

/-- Moving two locations and then taking the range from one to the other is the same as moving
that range. -/
def RespectsMerge (g : Location → Location) : Prop :=
  ∀ first last, g (.merge first last) = .merge (g first) (g last)

/-- A shift by lines and columns respects ranges, whatever becomes of the template's name. -/
theorem respectsMerge_shift (rename : Option String → Option String) (lines columns : UInt64)
    (mark : String) :
    RespectsMerge fun l => { l.shift lines columns mark with source := rename l.source } :=
  fun _ _ => rfl

theorem respectsMerge_const (l : Location) : RespectsMerge fun _ => l := fun _ _ => rfl

end Location

variable (g : Location → Location)

/-! ### Trees -/

def Path.relocate (p : Path) : Path := { p with loc := g p.loc }

mutual
def Expr.relocate : Expr → Expr
  | .path p => .path (p.relocate g)
  | .call callee args loc => .call callee.relocate args.relocate (g loc)
  | .string value written loc => .string value written (g loc)
  | .number value written loc => .number value written (g loc)
  | .boolean value written loc => .boolean value written (g loc)
  | .undefined loc => .undefined (g loc)
  | .null loc => .null (g loc)

def Arguments.relocate : Arguments → Arguments
  | ⟨params, hash⟩ => ⟨Expr.relocateList params, Hash.relocateOption hash⟩

def Expr.relocateList : List Expr → List Expr
  | [] => []
  | e :: rest => e.relocate :: Expr.relocateList rest

def Hash.relocateOption : Option Hash → Option Hash
  | none => none
  | some h => some h.relocate

def Hash.relocate : Hash → Hash
  | ⟨pairs, loc⟩ => ⟨HashPair.relocateList pairs, g loc⟩

def HashPair.relocateList : List HashPair → List HashPair
  | [] => []
  | p :: rest => p.relocate :: HashPair.relocateList rest

def HashPair.relocate : HashPair → HashPair
  | ⟨key, value, loc⟩ => ⟨key, value.relocate, g loc⟩
end

def Mustache.relocate (tag : Mustache) : Mustache :=
  { tag with path := tag.path.relocate g, args := tag.args.relocate g, loc := g tag.loc }

def PartialTag.relocate (tag : PartialTag) : PartialTag :=
  { tag with name := tag.name.relocate g, args := tag.args.relocate g, loc := g tag.loc }

mutual
def Statement.relocate : Statement → Statement
  | .mustache tag => .mustache (tag.relocate g)
  | .decorator tag => .decorator (tag.relocate g)
  | .block kind b => .block kind b.relocate
  | .partialTag tag => .partialTag (tag.relocate g)
  | .partialBlock b => .partialBlock b.relocate
  | .content value written loc => .content value written (g loc)
  | .comment value strip loc => .comment value strip (g loc)

def Statement.relocateList : List Statement → List Statement
  | [] => []
  | s :: rest => s.relocate :: Statement.relocateList rest

def Program.relocate : Program → Program
  | ⟨body, blockParams, strip, chained, loc⟩ =>
    ⟨Statement.relocateList body, blockParams, strip, chained, loc.map g⟩

def Program.relocateOption : Option Program → Option Program
  | none => none
  | some p => some p.relocate

def Block.relocate : Block → Block
  | ⟨path, slot, args, program, inverse, openStrip, inverseStrip, closeStrip, loc⟩ =>
    ⟨path.relocate g, slot, args.relocate g, Program.relocateOption program,
      Program.relocateOption inverse, openStrip, inverseStrip, closeStrip, g loc⟩

def PartialBlock.relocate : PartialBlock → PartialBlock
  | ⟨name, args, program, openStrip, closeStrip, loc⟩ =>
    ⟨name.relocate g, args.relocate g, program.relocate, openStrip, closeStrip, g loc⟩
end

@[simp] theorem Expr.relocateList_eq (es : List Expr) :
    Expr.relocateList g es = es.map (·.relocate g) := by
  induction es with
  | nil => rfl
  | cons e es ih => simp [Expr.relocateList, ih]

@[simp] theorem HashPair.relocateList_eq (ps : List HashPair) :
    HashPair.relocateList g ps = ps.map (·.relocate g) := by
  induction ps with
  | nil => rfl
  | cons p ps ih => simp [HashPair.relocateList, ih]

@[simp] theorem Hash.relocateOption_eq (h : Option Hash) :
    Hash.relocateOption g h = h.map (·.relocate g) := by
  cases h <;> rfl

@[simp] theorem Statement.relocateList_eq (ss : List Statement) :
    Statement.relocateList g ss = ss.map (·.relocate g) := by
  induction ss with
  | nil => rfl
  | cons s ss ih => simp [Statement.relocateList, ih]

@[simp] theorem Program.relocateOption_eq (p : Option Program) :
    Program.relocateOption g p = p.map (·.relocate g) := by
  cases p <;> rfl

/-! ### What calls pass on -/

def OpenTag.relocate (tag : OpenTag) : OpenTag :=
  { tag with path := tag.path.relocate g, args := tag.args.relocate g }

def CloseTag.relocate (tag : CloseTag) : CloseTag := { tag with path := tag.path.map (·.relocate g) }

def Inverse.relocate (i : Inverse) : Inverse := { i with program := i.program.relocate g }

def WrittenBlock.relocate (w : WrittenBlock) : WrittenBlock :=
  { w with
    opening := w.opening.relocate g
    body := w.body.relocate g
    inverse := w.inverse.map (·.relocate g)
    closing := w.closing.map (·.relocate g) }

def Piece.relocate : Piece → Piece
  | .path p => .path (p.relocate g)
  | .expr e => .expr (e.relocate g)
  | .hashPair p => .hashPair (p.relocate g)
  | .hash h => .hash (h.relocate g)
  | .statement s => .statement (s.relocate g)
  | .program p => .program (p.relocate g)
  | .openTag tag => .openTag (tag.relocate g)
  | .closeTag tag => .closeTag (tag.relocate g)
  | .inverse i => .inverse (i.relocate g)

def History.relocate (h : History) : History := h.map (Option.map (Piece.relocate g))

def BuildError.relocate : BuildError → BuildError
  | .tagMismatch opened closed loc => .tagMismatch opened closed (g loc)
  | .invalidPath written loc => .invalidPath written (g loc)
  | .inverseOnDecorator loc => .inverseOnDecorator (g loc)
  | .invalidNumber written loc => .invalidNumber written (g loc)

def CallFault.relocate : CallFault → CallFault
  | .build error => .build (error.relocate g)
  | .missing ref => .missing ref
  | .wrongKind ref => .wrongKind ref

/-- The only location that a call is given is that of a program. -/
def Call.relocate : Call → Call
  | .program body loc => .program body (loc.map g)
  | c => c

/-! ### What stays where it is -/

variable {g}

@[simp] theorem Statement.nodeKind_relocate (s : Statement) :
    (s.relocate g).nodeKind = s.nodeKind := by
  cases s <;> rfl

@[simp] theorem Statement.loc_relocate (s : Statement) : (s.relocate g).loc = g s.loc := by
  cases s with
  | block kind b => cases b; rfl
  | partialBlock b => cases b; rfl
  | _ => rfl

@[simp] theorem Program.body_relocate (p : Program) :
    (p.relocate g).body = p.body.map (·.relocate g) := by
  cases p
  simp [Program.relocate]

@[simp] theorem Program.loc_relocate (p : Program) : (p.relocate g).loc = p.loc.map g := by
  cases p; rfl

theorem Program.relocate_blockParams (p : Program) (names : Option (List String)) :
    { p with blockParams := names }.relocate g = { p.relocate g with blockParams := names } := by
  cases p; rfl

theorem Program.relocate_chained (p : Program) (chained : Bool) :
    { p with chained := chained }.relocate g = { p.relocate g with chained := chained } := by
  cases p; rfl

end TemplateTree
