import TemplateTree.Json.Statement
import TemplateTree.Proofs.Tree

/-! The readers of nested nodes, in terms of the look-up of one member and of the reading of one
list. The recursive readers look a key up and read what they find in one pass; here the two are
taken apart, so that later proofs need no induction on members. -/
namespace TemplateTree

open Json (member memberOr memberOrNull orNull)

namespace Json

variable {α : Type}

/-- A list whose items are all read in the same way. -/
def items? (read : Json → Option α) : Json → Option (List α)
  | array js => js.mapM read
  | _ => none

private theorem lookup_cons (key k : String) (j : Json) (ms : Members) :
    List.lookup key ((k, j) :: ms) = if key = k then some j else List.lookup key ms := by
  by_cases h : key = k
  · simp [h]
  · have : (key == k) = false := beq_false_of_ne h
    simp [List.lookup_cons, h, this]

@[simp] theorem member_cons (read : Json → Option α) (key k : String) (j : Json) (ms : Members) :
    member read key ((k, j) :: ms) = if key = k then read j else member read key ms := by
  by_cases h : key = k <;> simp [member, lookup_cons, h]

@[simp] theorem memberOrNull_cons (read : Json → Option α) (key k : String) (j : Json)
    (ms : Members) :
    memberOrNull read key ((k, j) :: ms) =
      if key = k then orNull read j else memberOrNull read key ms := by
  by_cases h : key = k <;> simp [memberOrNull, lookup_cons, h]

@[simp] theorem memberOr_nil (default : α) (read : Json → Option α) (key : String) :
    memberOr default read key [] = some default := rfl

@[simp] theorem memberOr_cons (default : α) (read : Json → Option α) (key k : String) (j : Json)
    (ms : Members) :
    memberOr default read key ((k, j) :: ms) =
      if key = k then read j else memberOr default read key ms := by
  by_cases h : key = k <;> simp [memberOr, lookup_cons, h]

/-- Other members stand behind the tag that tells the kind of a node. -/
@[simp] theorem member_tag (read : Json → Option α) {key : String} (h : key ≠ "type")
    (k : NodeKind) (ms : Members) : member read key (k.tag :: ms) = member read key ms := by
  simp [NodeKind.tag, member_cons, h]

@[simp] theorem memberOrNull_tag (read : Json → Option α) {key : String} (h : key ≠ "type")
    (k : NodeKind) (ms : Members) : memberOrNull read key (k.tag :: ms) = memberOrNull read key ms := by
  simp [NodeKind.tag, memberOrNull_cons, h]

@[simp] theorem memberOr_tag (default : α) (read : Json → Option α) {key : String} (h : key ≠ "type")
    (k : NodeKind) (ms : Members) :
    memberOr default read key (k.tag :: ms) = memberOr default read key ms := by
  simp [NodeKind.tag, memberOr_cons, h]

theorem strings?_eq (j : Json) : strings? j = items? string? j := by
  cases j <;> rfl

end Json

/-! ### Expressions -/

theorem Expr.items?_eq (js : List Json) : Expr.items? js = js.mapM Expr.ofJson? := by
  induction js with
  | nil => rfl
  | cons j js ih => simp [Expr.items?, ih]

theorem HashPair.items?_eq (js : List Json) : HashPair.items? js = js.mapM HashPair.ofJson? := by
  induction js with
  | nil => rfl
  | cons j js ih => simp [HashPair.items?, ih]

theorem Expr.list?_eq (j : Json) : Expr.list? j = Json.items? Expr.ofJson? j := by
  cases j <;> simp [Expr.list?, Json.items?, Expr.items?_eq]

theorem HashPair.list?_eq (j : Json) : HashPair.list? j = Json.items? HashPair.ofJson? j := by
  cases j <;> simp [HashPair.list?, Json.items?, HashPair.items?_eq]

theorem Hash.orNull?_eq (j : Json) : Hash.orNull? j = orNull Hash.ofJson? j := by
  cases j with
  | object ms =>
    simp only [Hash.ofJson?, Hash.orNull?, orNull]
    cases HashPair.listMember? "pairs" ms <;> cases member Location.ofJson? "loc" ms <;> rfl
  | _ => rfl

@[simp] theorem Expr.member?_eq (key : String) (ms : Json.Members) :
    Expr.member? key ms = member Expr.ofJson? key ms := by
  induction ms with
  | nil => rfl
  | cons m ms ih =>
    obtain ⟨k, j⟩ := m
    simp [Expr.member?, Json.member_cons, ih]

@[simp] theorem Expr.listMember?_eq (key : String) (ms : Json.Members) :
    Expr.listMember? key ms = member (Json.items? Expr.ofJson?) key ms := by
  induction ms with
  | nil => rfl
  | cons m ms ih =>
    obtain ⟨k, j⟩ := m
    simp [Expr.listMember?, Json.member_cons, Expr.list?_eq, ih]

@[simp] theorem HashPair.listMember?_eq (key : String) (ms : Json.Members) :
    HashPair.listMember? key ms = member (Json.items? HashPair.ofJson?) key ms := by
  induction ms with
  | nil => rfl
  | cons m ms ih =>
    obtain ⟨k, j⟩ := m
    simp [HashPair.listMember?, Json.member_cons, HashPair.list?_eq, ih]

@[simp] theorem Hash.memberOrNull?_eq (key : String) (ms : Json.Members) :
    Hash.memberOrNull? key ms = memberOrNull Hash.ofJson? key ms := by
  induction ms with
  | nil => rfl
  | cons m ms ih =>
    obtain ⟨k, j⟩ := m
    simp [Hash.memberOrNull?, Json.memberOrNull_cons, Hash.orNull?_eq, ih]

@[simp] theorem Expr.toJsonList_eq (es : List Expr) : Expr.toJsonList es = es.map Expr.toJson := by
  induction es with
  | nil => rfl
  | cons e es ih => simp [Expr.toJsonList, ih]

@[simp] theorem HashPair.toJsonList_eq (ps : List HashPair) :
    HashPair.toJsonList ps = ps.map HashPair.toJson := by
  induction ps with
  | nil => rfl
  | cons p ps ih => simp [HashPair.toJsonList, ih]

@[simp] theorem Hash.toJsonOption_eq (h : Option Hash) :
    Hash.toJsonOption h = Json.ofOption Hash.toJson h := by
  cases h <;> rfl

@[simp] theorem Arguments.mk_params_hash (args : Arguments) :
    Arguments.mk args.params args.hash = args := by
  cases args
  rfl

@[simp] theorem Arguments.members_eq (args : Arguments) :
    args.members = [("params", .array (args.params.map Expr.toJson)),
      ("hash", .ofOption Hash.toJson args.hash)] := by
  obtain ⟨params, hash⟩ := args
  simp [Arguments.members]

/-! ### Statements -/

theorem Statement.items?_eq (js : List Json) :
    Statement.items? js = js.mapM Statement.ofJson? := by
  induction js with
  | nil => rfl
  | cons j js ih => simp [Statement.items?, ih]

theorem Statement.list?_eq (j : Json) : Statement.list? j = Json.items? Statement.ofJson? j := by
  cases j <;> simp [Statement.list?, Json.items?, Statement.items?_eq]

theorem Program.orNull?_eq (j : Json) : Program.orNull? j = orNull Program.ofJson? j := by
  cases j with
  | object ms =>
    simp only [Program.ofJson?, Program.orNull?, orNull]
    cases Statement.listMember? "body" ms with
    | none => rfl
    | some body =>
      simp only [Option.bind_eq_bind, Option.bind_some]
      cases Program.ofMembers? body ms <;> rfl
  | _ => rfl

@[simp] theorem Statement.listMember?_eq (key : String) (ms : Json.Members) :
    Statement.listMember? key ms = member (Json.items? Statement.ofJson?) key ms := by
  induction ms with
  | nil => rfl
  | cons m ms ih =>
    obtain ⟨k, j⟩ := m
    simp [Statement.listMember?, Json.member_cons, Statement.list?_eq, ih]

@[simp] theorem Program.memberOrNull?_eq (key : String) (ms : Json.Members) :
    Program.memberOrNull? key ms = memberOrNull Program.ofJson? key ms := by
  induction ms with
  | nil => rfl
  | cons m ms ih =>
    obtain ⟨k, j⟩ := m
    simp [Program.memberOrNull?, Json.memberOrNull_cons, Program.orNull?_eq, ih]

@[simp] theorem Statement.toJsonList_eq (ss : List Statement) :
    Statement.toJsonList ss = ss.map Statement.toJson := by
  induction ss with
  | nil => rfl
  | cons s ss ih => simp [Statement.toJsonList, ih]

@[simp] theorem Program.toJsonOption_eq (p : Option Program) :
    Program.toJsonOption p = Json.ofOption Program.toJson p := by
  cases p <;> rfl

/-! ### Trees -/

namespace Tree

/-- The kinds of tree: what a value can be read as. -/
inductive Kind where
  | path | expr | hashPair | hash | statement | program

/-- The kind of a tree. -/
def kind : Tree → Kind
  | path _ => .path
  | expr _ => .expr
  | hashPair _ => .hashPair
  | hash _ => .hash
  | statement _ => .statement
  | program _ => .program

/-- A tree as a value. A path that is a tree of its own is not tagged. -/
def toJson : Tree → Json
  | path p => p.toJson
  | expr e => e.toJson
  | hashPair p => p.toJson
  | hash h => h.toJson
  | statement s => s.toJson
  | program p => p.toJson

/-- Reads a value as a tree of the given kind. -/
def Kind.read? : Kind → Json → Option Tree
  | .path, j => (Path.ofJson? j).map Tree.path
  | .expr, j => (Expr.ofJson? j).map Tree.expr
  | .hashPair, j => (HashPair.ofJson? j).map Tree.hashPair
  | .hash, j => (Hash.ofJson? j).map Tree.hash
  | .statement, j => (Statement.ofJson? j).map Tree.statement
  | .program, j => (Program.ofJson? j).map Tree.program

end Tree

end TemplateTree
