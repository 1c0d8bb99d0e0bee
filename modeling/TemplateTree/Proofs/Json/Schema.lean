import TemplateTree.Json.Record

/-! The schema of trees as values: which members a record has, and which of them may be absent.
It is given as a table. `Conforms` says which values have a shape, and `normal?` gives for such a
value what is known of it, in the order of the table. -/
namespace TemplateTree

open Json (Members)

/-- The kinds of record: nodes, and what nodes hold besides other nodes. -/
inductive Record where
  | position
  | location
  | strip
  | node (kind : NodeKind)
deriving DecidableEq

/-- Places that hold nodes of more than one kind, or a node that has to be tagged. -/
inductive Family where
  | expr
  | statement
  /-- The path of a block, or the name of an included template with a body. -/
  | heldPath

/-- What a value is expected to be. -/
inductive Shape where
  | text
  | flag
  /-- An integer of sixty-four bits without a sign. -/
  | count
  /-- A number of any form that is finite as a double. -/
  | number
  | list (item : Shape)
  | record (record : Record)
  /-- A node of a family, told by its tag. -/
  | tagged (family : Family)

/-- Whether a member has to be there. -/
inductive Presence where
  | required
  /-- The member may be absent or `null`, which is the same. -/
  | nullable
  /-- The member may be absent, but not `null`. Absent counts as false, which is not written. -/
  | falseIfAbsent
deriving DecidableEq

/-- A member of a record. -/
structure Field where
  key : String
  shape : Shape
  presence : Presence := .required

/-- The kinds of node that stand in the places of a family. -/
def Family.kinds : Family → List NodeKind
  | .expr => [.path, .subExpression, .string, .number, .boolean, .undefined, .null]
  | .statement =>
    [.mustache, .decorator, .block .plain, .block .decorator, .block .namedSlot, .partialTag,
      .partialBlock, .content, .comment]
  | .heldPath => [.path]

namespace Record

/-- The location of a node. -/
def locField : Field := ⟨"loc", .record .location, .required⟩

/-- The arguments of a node. -/
def argumentFields : List Field :=
  [⟨"params", .list (.tagged .expr), .required⟩, ⟨"hash", .record (.node .hash), .nullable⟩]

/-- The fields of a literal with a value. -/
def literalFields (value : Shape) : List Field :=
  [⟨"value", value, .required⟩, ⟨"original", .text, .required⟩, locField]

/-- The members of each kind of record, besides the tag of a node. -/
def fields : Record → List Field
  | .position => [⟨"line", .count, .required⟩, ⟨"column", .count, .required⟩]
  | .location =>
    [⟨"source", .text, .nullable⟩, ⟨"start", .record .position, .required⟩,
      ⟨"end", .record .position, .required⟩]
  | .strip => [⟨"open", .flag, .required⟩, ⟨"close", .flag, .required⟩]
  | .node .program =>
    [⟨"body", .list (.tagged .statement), .required⟩, ⟨"blockParams", .list .text, .nullable⟩,
      ⟨"strip", .record .strip, .required⟩, ⟨"chained", .flag, .falseIfAbsent⟩,
      ⟨"loc", .record .location, .nullable⟩]
  | .node .mustache | .node .decorator =>
    ⟨"path", .tagged .expr, .required⟩ :: argumentFields ++
      [⟨"escaped", .flag, .required⟩, ⟨"strip", .record .strip, .required⟩, locField]
  | .node (.block _) =>
    ⟨"path", .tagged .heldPath, .required⟩ :: ⟨"slotName", .text, .required⟩ :: argumentFields ++
      [⟨"program", .record (.node .program), .nullable⟩,
        ⟨"inverse", .record (.node .program), .nullable⟩,
        ⟨"openStrip", .record .strip, .required⟩, ⟨"inverseStrip", .record .strip, .nullable⟩,
        ⟨"closeStrip", .record .strip, .nullable⟩, locField]
  | .node .partialTag =>
    ⟨"name", .tagged .expr, .required⟩ :: argumentFields ++
      [⟨"indent", .text, .required⟩, ⟨"strip", .record .strip, .required⟩, locField]
  | .node .partialBlock =>
    ⟨"name", .tagged .heldPath, .required⟩ :: argumentFields ++
      [⟨"program", .record (.node .program), .required⟩, ⟨"openStrip", .record .strip, .required⟩,
        ⟨"closeStrip", .record .strip, .nullable⟩, locField]
  | .node .content => literalFields .text
  | .node .comment =>
    [⟨"value", .text, .required⟩, ⟨"strip", .record .strip, .required⟩, locField]
  | .node .path =>
    [⟨"data", .flag, .required⟩, ⟨"depth", .count, .required⟩, ⟨"parts", .list .text, .required⟩,
      ⟨"original", .text, .required⟩, locField]
  | .node .subExpression => ⟨"path", .tagged .expr, .required⟩ :: argumentFields ++ [locField]
  | .node .string => literalFields .text
  | .node .number => literalFields .number
  | .node .boolean => literalFields .flag
  | .node .undefined | .node .null => [locField]
  | .node .hash => [⟨"pairs", .list (.record (.node .hashPair)), .required⟩, locField]
  | .node .hashPair =>
    [⟨"key", .text, .required⟩, ⟨"value", .tagged .expr, .required⟩, locField]

/-- The tag that a record is written with where none is read. -/
def tag : Record → Members
  | .node .hash => [NodeKind.hash.tag]
  | .node .hashPair => [NodeKind.hashPair.tag]
  | .node .program => [NodeKind.program.tag]
  | _ => []

end Record

/-! ### Acceptance -/

/-- The value has the shape. Only the members that a record knows count, and the tag of a
record that is not expected to be tagged does not. -/
inductive Conforms : Shape → Json → Prop where
  | text (s : String) : Conforms .text (.string s)
  | flag (b : Bool) : Conforms .flag (.bool b)
  | count {n : Nat} (small : n < UInt64.size) : Conforms .count (.int n)
  | integer {n : Int} (finite : (Binary64.ofDecimal (.ofInt n)).isFinite) :
    Conforms .number (.int n)
  | double {x : Binary64} (finite : x.isFinite) : Conforms .number (.double x)
  | list {s : Shape} {items : List Json} (all : ∀ j ∈ items, Conforms s j) :
    Conforms (.list s) (.array items)
  | record {r : Record} {ms : Members}
    (present : ∀ f ∈ r.fields, f.presence = .required → (ms.lookup f.key).isSome)
    (fits : ∀ f ∈ r.fields, ∀ j, ms.lookup f.key = some j →
      ¬(f.presence = .nullable ∧ j = .null) → Conforms f.shape j) :
    Conforms (.record r) (.object ms)
  | tagged {family : Family} {k : NodeKind} {ms : Members} (member : k ∈ family.kinds)
    (tag : ms.lookup "type" = some (.string k.name))
    (fields : Conforms (.record (.node k)) (.object ms)) : Conforms (.tagged family) (.object ms)

/-! ### What is known of a value -/

/-- What is written of a field that is absent. -/
def Field.absent? (f : Field) : Option Members :=
  match f.presence with
  | .required => none
  | .nullable => some [(f.key, .null)]
  | .falseIfAbsent => some []

/-- What is written of a field whose value has been checked. -/
def Field.present (f : Field) (j : Json) : Members :=
  match f.presence, j with
  | .falseIfAbsent, .bool false => []
  | _, _ => [(f.key, j)]

/-- The record that an object has to be, and the tag that it is written with. -/
def Shape.record? (ms : Members) : Shape → Option (Members × Record)
  | .record r => some (r.tag, r)
  | .tagged family => do
    let k ← NodeKind.ofMembers? ms
    if k ∈ family.kinds then some ([k.tag], .node k) else none
  | _ => none

mutual
/-- The value with nothing but what its shape knows, or nothing if it has not the shape. -/
def Shape.normal? : Json → Shape → Option Json
  | .string s, .text => some (.string s)
  | .bool b, .flag => some (.bool b)
  | .int n, .count => if 0 ≤ n ∧ n < UInt64.size then some (.int n) else none
  | .int n, .number =>
    let x := Binary64.ofDecimal (.ofInt n)
    if x.isFinite then some (.double x) else none
  | .double x, .number => if x.isFinite then some (.double x) else none
  | .array items, .list s => (Shape.normalItems? items s).map .array
  | .object ms, s => do
    let (tag, r) ← s.record? ms
    let written ← r.fields.mapM fun f => Field.normal? ms f
    return .object (tag ++ written.flatten)
  | _, _ => none

/-- Every item of a list in its normal form. -/
def Shape.normalItems? : List Json → Shape → Option (List Json)
  | [], _ => some []
  | j :: rest, s => do return (← Shape.normal? j s) :: (← Shape.normalItems? rest s)

/-- What is written of a field, looked up among the members. -/
def Field.normal? : Members → Field → Option Members
  | [], f => f.absent?
  | (k, j) :: rest, f =>
    if f.key = k then
      match f.presence, j with
      | .nullable, .null => f.absent?
      | _, _ => (Shape.normal? j f.shape).map f.present
    else Field.normal? rest f
end

theorem Shape.normal?_object {s : Shape} {ms tag : Members} {r : Record}
    (h : s.record? ms = some (tag, r)) :
    Shape.normal? (.object ms) s =
      (r.fields.mapM fun f => Field.normal? ms f).map fun w => .object (tag ++ w.flatten) := by
  cases fields : r.fields.mapM fun f => Field.normal? ms f with
  | none => simp [normal?, h, fields]
  | some written => simp [normal?, h, fields]

/-! ### The normal form is there when the value has the shape -/

/-- Induction on a value: a list has what its items have, an object what its members have. -/
theorem Json.induction {P : Json → Prop} (null : P .null) (bool : ∀ b, P (.bool b))
    (int : ∀ n, P (.int n)) (double : ∀ x, P (.double x)) (string : ∀ s, P (.string s))
    (array : ∀ items, (∀ j ∈ items, P j) → P (.array items))
    (object : ∀ ms, (∀ k j, (k, j) ∈ ms → P j) → P (.object ms)) (j : Json) : P j := by
  refine Json.rec (motive_1 := P) (motive_2 := fun items => ∀ j ∈ items, P j)
    (motive_3 := fun ms => ∀ k j, (k, j) ∈ ms → P j) (motive_4 := fun m => P m.2)
    null bool int double string array object ?_ ?_ ?_ ?_ ?_ j
  · simp
  · intro head tail hhead htail j hj
    rcases List.mem_cons.1 hj with rfl | hj
    · exact hhead
    · exact htail j hj
  · simp
  · intro head tail hhead htail k j hj
    rcases List.mem_cons.1 hj with rfl | hj
    · exact hhead
    · exact htail k j hj
  · exact fun _ _ hj => hj

/-- The field is among the members as its presence asks for. -/
def Field.Fits (f : Field) (ms : Members) : Prop :=
  (f.presence = .required → (ms.lookup f.key).isSome) ∧
    ∀ j, ms.lookup f.key = some j → ¬(f.presence = .nullable ∧ j = .null) → Conforms f.shape j

theorem conforms_record_iff {r : Record} {ms : Members} :
    Conforms (.record r) (.object ms) ↔ ∀ f ∈ r.fields, f.Fits ms := by
  constructor
  · rintro (_ | _)
    rename_i present fits
    exact fun f hf => ⟨present f hf, fits f hf⟩
  · exact fun h => .record (fun f hf => (h f hf).1) fun f hf => (h f hf).2

theorem NodeKind.ofMembers?_eq_some_iff {ms : Members} {k : NodeKind} :
    NodeKind.ofMembers? ms = some k ↔ ms.lookup "type" = some (.string k.name) := by
  simp only [NodeKind.ofMembers?, Json.member, Option.bind_eq_some_iff]
  constructor
  · rintro ⟨name, ⟨j, hj, hname⟩, hk⟩
    obtain rfl := NodeKind.ofName?_eq_some_iff.1 hk
    cases j with
    | string text =>
      simp only [Json.string?, Option.some.injEq] at hname
      rw [hj, hname]
    | _ => cases hname
  · intro h
    exact ⟨k.name, ⟨_, h, rfl⟩, NodeKind.ofName?_name k⟩

theorem conforms_object_iff {s : Shape} {ms : Members} :
    Conforms s (.object ms) ↔
      ∃ tag r, s.record? ms = some (tag, r) ∧ ∀ f ∈ r.fields, f.Fits ms := by
  cases s with
  | record r =>
    rw [conforms_record_iff]
    constructor
    · exact fun fits => ⟨r.tag, r, rfl, fits⟩
    · rintro ⟨_, _, ⟨⟩, fits⟩
      exact fits
  | tagged family =>
    constructor
    · rintro (_ | _)
      rename_i k member tag fields
      have hk := NodeKind.ofMembers?_eq_some_iff.2 tag
      exact ⟨[k.tag], .node k, by simp [Shape.record?, hk, member], conforms_record_iff.1 fields⟩
    · rintro ⟨tag, r, hr, fits⟩
      simp only [Shape.record?, Option.bind_eq_bind, Option.bind_eq_some_iff] at hr
      obtain ⟨k, hk, hr⟩ := hr
      by_cases member : k ∈ family.kinds
      · simp only [member, if_true, Option.some.injEq, Prod.mk.injEq] at hr
        obtain ⟨rfl, rfl⟩ := hr
        exact .tagged member (NodeKind.ofMembers?_eq_some_iff.1 hk) (conforms_record_iff.2 fits)
      · simp [member] at hr
  | _ =>
    simp only [Shape.record?]
    constructor
    · rintro (_ | _)
    · simp

private theorem mapM_isSome {α β : Type} {f : α → Option β} {as : List α} :
    (as.mapM f).isSome ↔ ∀ a ∈ as, (f a).isSome := by
  induction as with
  | nil => simp
  | cons a as ih =>
    cases h : f a with
    | none => simp [h]
    | some b =>
      simp only [List.mapM_cons, h, List.forall_mem_cons, ← ih]
      cases as.mapM f <;> simp

private theorem Field.absent?_isSome {f : Field} : f.absent?.isSome ↔ f.presence ≠ .required := by
  cases h : f.presence <;> simp [absent?, h]

private theorem Field.fits_cons {f : Field} {k : String} {j : Json} {ms : Members} :
    f.Fits ((k, j) :: ms) ↔
      if f.key = k then f.presence = .nullable ∧ j = .null ∨ Conforms f.shape j
      else f.Fits ms := by
  by_cases hk : f.key = k
  · have found : List.lookup f.key ((k, j) :: ms) = some j := by simp [hk]
    rw [Fits, found, if_pos hk]
    constructor
    · rintro ⟨-, fits⟩
      by_cases hnull : f.presence = .nullable ∧ j = .null
      · exact .inl hnull
      · exact .inr (fits j rfl hnull)
    · intro h
      refine ⟨fun _ => rfl, ?_⟩
      intro i hi hnull
      obtain rfl : j = i := Option.some.inj hi
      rcases h with h | h
      · exact absurd h hnull
      · exact h
  · have other : (f.key == k) = false := beq_false_of_ne hk
    have found : List.lookup f.key ((k, j) :: ms) = ms.lookup f.key := by
      simp [List.lookup_cons, other]
    rw [Fits, found, if_neg hk, Fits]

private theorem Field.normal?_isSome {f : Field} {ms : Members}
    (h : ∀ k j, (k, j) ∈ ms → ∀ s, (Shape.normal? j s).isSome ↔ Conforms s j) :
    (Field.normal? ms f).isSome ↔ f.Fits ms := by
  induction ms with
  | nil => simp [Field.normal?, absent?_isSome, Fits]
  | cons m ms ih =>
    obtain ⟨k, j⟩ := m
    have hj : (Shape.normal? j f.shape).isSome ↔ Conforms f.shape j := h k j (by simp) f.shape
    have hrest := ih fun k j hj => h k j (List.mem_cons_of_mem _ hj)
    rw [fits_cons]
    simp only [Field.normal?]
    by_cases hk : f.key = k
    · rw [if_pos hk, if_pos hk]
      by_cases hnull : f.presence = .nullable ∧ j = .null
      · obtain ⟨hp, rfl⟩ := hnull
        simp [hp, absent?]
      · rw [or_iff_right hnull, ← hj]
        split
        · exact absurd ⟨‹_›, rfl⟩ hnull
        · rw [Option.isSome_map]
    · rw [if_neg hk, if_neg hk]
      exact hrest

private theorem normalItems?_isSome {items : List Json} {s : Shape}
    (h : ∀ j ∈ items, ((Shape.normal? j s).isSome ↔ Conforms s j)) :
    (Shape.normalItems? items s).isSome ↔ ∀ j ∈ items, Conforms s j := by
  induction items with
  | nil => simp [Shape.normalItems?]
  | cons j items ih =>
    have hj := h j (by simp)
    have hrest := ih fun i hi => h i (List.mem_cons_of_mem _ hi)
    simp only [Shape.normalItems?, List.forall_mem_cons, ← hj, ← hrest]
    cases Shape.normal? j s <;> cases Shape.normalItems? items s <;> simp

private theorem conforms_count_iff {n : Int} :
    Conforms .count (.int n) ↔ 0 ≤ n ∧ n < UInt64.size := by
  constructor
  · intro h
    cases h with
    | count small => omega
  · rintro ⟨nonneg, small⟩
    obtain ⟨m, rfl⟩ := Int.eq_ofNat_of_zero_le nonneg
    exact .count (by omega)

private theorem conforms_integer_iff {n : Int} :
    Conforms .number (.int n) ↔ (Binary64.ofDecimal (.ofInt n)).isFinite := by
  constructor
  · intro h
    cases h with
    | integer finite => exact finite
  · exact .integer

private theorem conforms_double_iff {x : Binary64} :
    Conforms .number (.double x) ↔ x.isFinite := by
  constructor
  · intro h
    cases h with
    | double finite => exact finite
  · exact .double

private theorem conforms_array_iff {s : Shape} {items : List Json} :
    Conforms (.list s) (.array items) ↔ ∀ j ∈ items, Conforms s j := by
  constructor
  · intro h
    cases h with
    | list all => exact all
  · exact .list

private theorem normal?_object_isSome {s : Shape} {ms : Members}
    (h : ∀ k j, (k, j) ∈ ms → ∀ s, (Shape.normal? j s).isSome ↔ Conforms s j) :
    (Shape.normal? (.object ms) s).isSome ↔ Conforms s (.object ms) := by
  have fits (f : Field) : (Field.normal? ms f).isSome ↔ f.Fits ms := Field.normal?_isSome h
  rw [conforms_object_iff]
  cases hr : s.record? ms with
  | none => simp [Shape.normal?, hr]
  | some pair =>
    obtain ⟨tag, r⟩ := pair
    rw [Shape.normal?_object hr, Option.isSome_map, mapM_isSome]
    simp only [fits]
    constructor
    · exact fun all => ⟨tag, r, rfl, all⟩
    · rintro ⟨_, _, ⟨⟩, all⟩
      exact all

/-- No value of the wrong form has a normal form. -/
private theorem normal?_isSome_of_mismatch {j : Json} {s : Shape}
    (unknown : Shape.normal? j s = none) (mismatch : ¬Conforms s j) :
    (Shape.normal? j s).isSome ↔ Conforms s j := by
  simp [unknown, mismatch]

/-- A value has a normal form exactly when it has the shape. -/
theorem Shape.normal?_isSome_iff {j : Json} {s : Shape} :
    (Shape.normal? j s).isSome ↔ Conforms s j := by
  induction j using Json.induction generalizing s with
  | null =>
    refine normal?_isSome_of_mismatch ?_ (by rintro ⟨⟩)
    cases s <;> simp [normal?]
  | bool b =>
    cases s with
    | flag => simpa [normal?] using Conforms.flag b
    | _ => exact normal?_isSome_of_mismatch (by simp [normal?]) (by rintro ⟨⟩)
  | int n =>
    cases s with
    | count =>
      rw [conforms_count_iff, normal?]
      split <;> simp_all
    | number =>
      rw [conforms_integer_iff, normal?]
      split <;> simp_all
    | _ => exact normal?_isSome_of_mismatch (by simp [normal?]) (by rintro ⟨⟩)
  | double x =>
    cases s with
    | number =>
      rw [conforms_double_iff, normal?]
      split <;> simp_all
    | _ => exact normal?_isSome_of_mismatch (by simp [normal?]) (by rintro ⟨⟩)
  | string text =>
    cases s with
    | text => simpa [normal?] using Conforms.text text
    | _ => exact normal?_isSome_of_mismatch (by simp [normal?]) (by rintro ⟨⟩)
  | array items ih =>
    cases s with
    | list s =>
      rw [conforms_array_iff, normal?, Option.isSome_map]
      exact normalItems?_isSome fun j hj => ih j hj
    | _ => exact normal?_isSome_of_mismatch (by simp [normal?]) (by rintro ⟨⟩)
  | object ms ih => exact normal?_object_isSome fun k j hj s => ih k j hj

end TemplateTree
