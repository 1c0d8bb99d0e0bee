import TemplateTree.Proofs.Json.Readers
import TemplateTree.Proofs.Json.Agreement

/-! Reading and the schema agree. A value is read exactly when it has the shape of the kind it is
read as, and what was read is written again as the normal form of the value: nothing that the
schema knows is lost on the way, and nothing is made up. -/
namespace TemplateTree

open Json (Members member memberOr memberOrNull orNull ofOption)

section

attribute [local simp] Record.written? Record.fields Record.argumentFields Record.literalFields
  Record.tag Option.map_bind Option.bind_map Option.bind_assoc Function.comp_def

/-! ### Expressions -/

/-- Whatever may stand where an expression, a hash or a pair is read is read in agreement with the
schema. -/
structure ExprsAgree (j : Json) : Prop where
  expr : Agrees Expr.ofJson? Expr.toJson (.tagged .expr) j
  params : Agrees (Json.items? Expr.ofJson?) (fun es => .array (es.map Expr.toJson))
    (.list (.tagged .expr)) j
  hash : Agrees Hash.ofJson? Hash.toJson (.record (.node .hash)) j
  hashPair : Agrees HashPair.ofJson? HashPair.toJson (.record (.node .hashPair)) j
  pairs : Agrees (Json.items? HashPair.ofJson?) (fun ps => .array (ps.map HashPair.toJson))
    (.list (.record (.node .hashPair))) j

section

variable {ms : Members} (h : ∀ k j, (k, j) ∈ ms → ExprsAgree j)
include h

private theorem expr_field (key : String) :
    Field.normal? ms ⟨key, .tagged .expr, .required⟩ =
      (member Expr.ofJson? key ms).map fun e => [(key, e.toJson)] :=
  Field.normal?_required _ _ fun j hj => (h key j hj).expr

private theorem params_field :
    Field.normal? ms ⟨"params", .list (.tagged .expr), .required⟩ =
      (member (Json.items? Expr.ofJson?) "params" ms).map fun es =>
        [("params", .array (es.map Expr.toJson))] :=
  Field.normal?_required _ _ fun j hj => (h "params" j hj).params

private theorem hash_field :
    Field.normal? ms ⟨"hash", .record (.node .hash), .nullable⟩ =
      (memberOrNull Hash.ofJson? "hash" ms).map fun x => [("hash", ofOption Hash.toJson x)] :=
  Field.normal?_nullable _ _ fun j hj => (h "hash" j hj).hash

private theorem pairs_field :
    Field.normal? ms ⟨"pairs", .list (.record (.node .hashPair)), .required⟩ =
      (member (Json.items? HashPair.ofJson?) "pairs" ms).map fun ps =>
        [("pairs", .array (ps.map HashPair.toJson))] :=
  Field.normal?_required _ _ fun j hj => (h "pairs" j hj).pairs

private theorem agrees_expr : Agrees Expr.ofJson? Expr.toJson (.tagged .expr) (.object ms) := by
  refine agrees_tagged (fun k hmem hk => ?_) (fun k hmem hk => ?_) fun hk => ?_
  · cases k with
    | path =>
      simp only [← Path.ofMembers?_written, Expr.ofJson?, hk]
      cases Path.ofMembers? ms <;> rfl
    | subExpression =>
      simp [Expr.ofJson?, hk, Expr.toJson, expr_field h, params_field h, hash_field h]
    | string | number | boolean | undefined | null => simp [Expr.ofJson?, hk, Expr.toJson]
    | _ => simp [Family.kinds] at hmem
  · cases k with
    | path | subExpression | string | number | boolean | undefined | null =>
      simp [Family.kinds] at hmem
    | _ => simp [Expr.ofJson?, hk]
  · simp [Expr.ofJson?, hk]

private theorem agrees_hash :
    Agrees Hash.ofJson? Hash.toJson (.record (.node .hash)) (.object ms) := by
  have read : Hash.ofJson? (.object ms) = do
      let pairs ← member (Json.items? HashPair.ofJson?) "pairs" ms
      return ⟨pairs, ← member Location.ofJson? "loc" ms⟩ := by
    simp only [Hash.ofJson?, Hash.orNull?, HashPair.listMember?_eq]
    cases member (Json.items? HashPair.ofJson?) "pairs" ms <;>
      cases member Location.ofJson? "loc" ms <;> rfl
  rw [Agrees, Record.normal?_object, read]
  simp [Hash.toJson, pairs_field h]

private theorem agrees_hashPair :
    Agrees HashPair.ofJson? HashPair.toJson (.record (.node .hashPair)) (.object ms) := by
  rw [Agrees, Record.normal?_object]
  simp [HashPair.ofJson?, HashPair.toJson, expr_field h]

end

theorem exprsAgree (j : Json) : ExprsAgree j := by
  induction j using Json.induction with
  | array items ih =>
    constructor
    · simp [Agrees, Expr.ofJson?, Shape.normal?]
    · exact agrees_list fun j hj => (ih j hj).expr
    · simp [Agrees, Hash.ofJson?, Hash.orNull?, Shape.normal?]
    · simp [Agrees, HashPair.ofJson?, Shape.normal?]
    · exact agrees_list fun j hj => (ih j hj).hashPair
  | object ms ih =>
    constructor
    · exact agrees_expr ih
    · simp [Agrees, Json.items?, Shape.normal?, Shape.record?]
    · exact agrees_hash ih
    · exact agrees_hashPair ih
    · simp [Agrees, Json.items?, Shape.normal?, Shape.record?]
  | _ =>
    constructor <;> simp [Agrees, Json.items?, Shape.normal?, Expr.ofJson?, Hash.ofJson?,
      Hash.orNull?, HashPair.ofJson?]

/-! ### Statements -/

/-- Whatever may stand where a statement or a program is read is read in agreement with the
schema. -/
structure StatementsAgree (j : Json) : Prop where
  statement : Agrees Statement.ofJson? Statement.toJson (.tagged .statement) j
  body : Agrees (Json.items? Statement.ofJson?) (fun ss => .array (ss.map Statement.toJson))
    (.list (.tagged .statement)) j
  program : Agrees Program.ofJson? Program.toJson (.record (.node .program)) j

/-- A program that has to be there is read as one that may be `null`, and then insisted on. -/
private theorem program_member (ms : Members) :
    member Program.ofJson? "program" ms =
      (memberOrNull Program.ofJson? "program" ms).join := by
  simp only [memberOrNull, member]
  cases ms.lookup "program" with
  | none => rfl
  | some j =>
    cases j with
    | null => rfl
    | _ =>
      simp only [Option.bind_some, orNull]
      cases Program.ofJson? _ <;> rfl

private theorem program_read (ms : Members) :
    Program.ofJson? (.object ms) =
      (member (Json.items? Statement.ofJson?) "body" ms).bind fun body =>
        Program.ofMembers? body ms := by
  simp only [Program.ofJson?, Program.orNull?, Statement.listMember?_eq]
  cases member (Json.items? Statement.ofJson?) "body" ms with
  | none => rfl
  | some body =>
    simp only [Option.bind_eq_bind, Option.bind_some]
    cases Program.ofMembers? body ms <;> rfl

section

variable {ms : Members} (h : ∀ k j, (k, j) ∈ ms → StatementsAgree j)
include h

private theorem branch_field (key : String) :
    Field.normal? ms ⟨key, .record (.node .program), .nullable⟩ =
      (memberOrNull Program.ofJson? key ms).map fun p => [(key, ofOption Program.toJson p)] :=
  Field.normal?_nullable _ _ fun j hj => (h key j hj).program

private theorem agrees_program :
    Agrees Program.ofJson? Program.toJson (.record (.node .program)) (.object ms) := by
  have body := Field.normal?_required "body" ms fun j hj => (h "body" j hj).body
  have params := Field.normal?_nullable "blockParams" ms fun j _ => agrees_strings j
  rw [Agrees, Record.normal?_object, program_read]
  simp [Program.ofMembers?, Program.toJson, body, params]

private theorem block_written {kind : BlockKind} {program inverse : Option Program}
    (hp : memberOrNull Program.ofJson? "program" ms = some program)
    (hi : memberOrNull Program.ofJson? "inverse" ms = some inverse) :
    (Block.ofMembers? program inverse ms).map Block.members =
      (Record.node (.block kind)).written? ms := by
  have params := @params_field ms fun _ j _ => exprsAgree j
  have hash := @hash_field ms fun _ j _ => exprsAgree j
  have slot : Field.normal? ms ⟨"slotName", .text, .required⟩ = _ := slot_field
  have hprogram := branch_field h "program"
  have hinverse := branch_field h "inverse"
  rw [hp] at hprogram
  rw [hi] at hinverse
  simp [Block.ofMembers?, Arguments.ofMembers?, Block.members, params, hash, slot, hprogram,
    hinverse]

private theorem partialBlock_written {program : Program}
    (hp : member Program.ofJson? "program" ms = some program) :
    (PartialBlock.ofMembers? program ms).map PartialBlock.members =
      (Record.node .partialBlock).written? ms := by
  have params := @params_field ms fun _ j _ => exprsAgree j
  have hash := @hash_field ms fun _ j _ => exprsAgree j
  have hprogram := Field.normal?_required "program" ms fun j hj => (h "program" j hj).program
  rw [hp] at hprogram
  simp [PartialBlock.ofMembers?, Arguments.ofMembers?, PartialBlock.members, params, hash,
    hprogram]

private theorem written?_of_missing {r : Record} {key : String}
    (hf : ⟨key, .record (.node .program), .nullable⟩ ∈ r.fields)
    (hm : memberOrNull Program.ofJson? key ms = none) : r.written? ms = none := by
  have missing := branch_field h key
  rw [hm, Option.map_none] at missing
  exact Record.written?_eq_none hf missing

/-- The branches of a block are read ahead of its other members, so that a fault in one of them
has to be found in the middle of its fields. -/
private theorem block_read {kind : BlockKind} (hk : NodeKind.ofMembers? ms = some (.block kind)) :
    (Statement.ofJson? (.object ms)).map Statement.toJson =
      ((Record.node (.block kind)).written? ms).map fun w =>
        .object ((NodeKind.block kind).tag :: w) := by
  simp only [Statement.ofJson?, hk, Option.bind_eq_bind, Option.bind_some,
    Program.memberOrNull?_eq]
  cases hp : memberOrNull Program.ofJson? "program" ms with
  | none =>
    rw [written?_of_missing h (by simp) hp]
    rfl
  | some program =>
    cases hi : memberOrNull Program.ofJson? "inverse" ms with
    | none =>
      rw [written?_of_missing h (by simp) hi]
      rfl
    | some inverse =>
      rw [← block_written h hp hi, Option.bind_some, Option.bind_some]
      cases Block.ofMembers? program inverse ms <;> rfl

private theorem partialBlock_read (hk : NodeKind.ofMembers? ms = some .partialBlock) :
    (Statement.ofJson? (.object ms)).map Statement.toJson =
      ((Record.node .partialBlock).written? ms).map fun w =>
        .object (NodeKind.partialBlock.tag :: w) := by
  have insisted := program_member ms
  simp only [Statement.ofJson?, hk, Option.bind_eq_bind, Option.bind_some,
    Program.memberOrNull?_eq]
  cases hm : member Program.ofJson? "program" ms with
  | none =>
    have missing := Field.normal?_required "program" ms fun j hj => (h "program" j hj).program
    rw [hm, Option.map_none] at missing
    have unwritten : (Record.node .partialBlock).written? ms = none :=
      Record.written?_eq_none (by simp) missing
    rw [unwritten]
    rw [hm] at insisted
    cases hp : memberOrNull Program.ofJson? "program" ms with
    | none => rfl
    | some body =>
      obtain rfl : none = body := by simpa [hp] using insisted
      rfl
  | some program =>
    have hp : memberOrNull Program.ofJson? "program" ms = some (some program) := by
      rw [hm] at insisted
      exact Option.join_eq_some_iff.1 insisted.symm
    rw [← partialBlock_written h hm, hp]
    cases hb : PartialBlock.ofMembers? program ms <;> simp [hb, Statement.toJson]

private theorem agrees_statement :
    Agrees Statement.ofJson? Statement.toJson (.tagged .statement) (.object ms) := by
  have expr := @expr_field ms fun _ j _ => exprsAgree j
  have params := @params_field ms fun _ j _ => exprsAgree j
  have hash := @hash_field ms fun _ j _ => exprsAgree j
  refine agrees_tagged (fun k hmem hk => ?_) (fun k hmem hk => ?_) fun hk => ?_
  · cases k with
    | mustache | decorator =>
      simp [Statement.ofJson?, hk, Mustache.ofMembers?, Arguments.ofMembers?, Statement.toJson,
        expr, params, hash]
    | block kind => exact block_read h hk
    | partialTag =>
      simp [Statement.ofJson?, hk, PartialTag.ofMembers?, Arguments.ofMembers?, Statement.toJson,
        expr, params, hash]
    | partialBlock => exact partialBlock_read h hk
    | content | comment => simp [Statement.ofJson?, hk, Statement.toJson]
    | _ => simp [Family.kinds] at hmem
  · cases k with
    | block kind => cases kind <;> simp [Family.kinds] at hmem
    | mustache | decorator | partialTag | partialBlock | content | comment =>
      simp [Family.kinds] at hmem
    | _ => simp [Statement.ofJson?, hk]
  · simp [Statement.ofJson?, hk]

end

theorem statementsAgree (j : Json) : StatementsAgree j := by
  induction j using Json.induction with
  | array items ih =>
    constructor
    · simp [Agrees, Statement.ofJson?, Shape.normal?]
    · exact agrees_list fun j hj => (ih j hj).statement
    · simp [Agrees, Program.ofJson?, Program.orNull?, Shape.normal?]
  | object ms ih =>
    constructor
    · exact agrees_statement ih
    · simp [Agrees, Json.items?, Shape.normal?, Shape.record?]
    · exact agrees_program ih
  | _ =>
    constructor <;> simp [Agrees, Json.items?, Shape.normal?, Statement.ofJson?, Program.ofJson?,
      Program.orNull?]

end

/-! ### Trees -/

namespace Tree

/-- What a value has to be to be read as a tree of the kind. A path that is a tree of its own, a
hash, a pair and a program are told by their place; their tag is not read. -/
def Kind.shape : Kind → Shape
  | .path => .record (.node .path)
  | .expr => .tagged .expr
  | .hashPair => .record (.node .hashPair)
  | .hash => .record (.node .hash)
  | .statement => .tagged .statement
  | .program => .record (.node .program)

private theorem Kind.agrees (k : Kind) (j : Json) : Agrees k.read? Tree.toJson k.shape j := by
  rw [Agrees]
  cases k with
  | path => rw [read?, Option.map_map]; exact agrees_path j
  | expr => rw [read?, Option.map_map]; exact (exprsAgree j).expr
  | hashPair => rw [read?, Option.map_map]; exact (exprsAgree j).hashPair
  | hash => rw [read?, Option.map_map]; exact (exprsAgree j).hash
  | statement => rw [read?, Option.map_map]; exact (statementsAgree j).statement
  | program => rw [read?, Option.map_map]; exact (statementsAgree j).program

/-- A value is read as a tree exactly when it conforms to the schema of the kind of tree, and the
tree is written as all that the schema knows of the value. -/
theorem read?_accepts_schema (k : Kind) (j : Json) :
    ((k.read? j).isSome ↔ Conforms k.shape j) ∧
      (k.read? j).map Tree.toJson = Shape.normal? j k.shape := by
  have agrees : (k.read? j).map Tree.toJson = Shape.normal? j k.shape := k.agrees j
  refine ⟨?_, agrees⟩
  rw [← Shape.normal?_isSome_iff, ← agrees, Option.isSome_map]

end Tree

end TemplateTree
