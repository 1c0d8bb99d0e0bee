import TemplateTree.Proofs.Json.Readers
import TemplateTree.Proofs.Json.Schema

/-! Agreement of a reader and its writer with a shape: what is read from a value is written again
as the normal form of the value. Fields and lists agree when what stands in them does, and records
when their fields do. -/
namespace TemplateTree

open Json (Members member memberOr memberOrNull orNull ofOption)

section

variable {α : Type} {read : Json → Option α} {write : α → Json}

/-- What is read from the value is written as its normal form, and nothing is read from a value
that has none. -/
def Agrees (read : Json → Option α) (write : α → Json) (s : Shape) (j : Json) : Prop :=
  (read j).map write = Shape.normal? j s

/-! ### Fields -/

variable {s : Shape} (key : String) (ms : Members)

theorem Field.normal?_required (h : ∀ j, (key, j) ∈ ms → Agrees read write s j) :
    Field.normal? ms ⟨key, s, .required⟩ = (member read key ms).map fun a => [(key, write a)] := by
  induction ms with
  | nil => rfl
  | cons m ms ih =>
    obtain ⟨k, j⟩ := m
    have hrest := ih fun j hj => h j (List.mem_cons_of_mem _ hj)
    by_cases hk : key = k
    · subst hk
      have hj : (read j).map write = Shape.normal? j s := h j (by simp)
      simp [Field.normal?, ← hj, present, Function.comp_def]
    · simp [Field.normal?, hk, hrest]

theorem Field.normal?_nullable (h : ∀ j, (key, j) ∈ ms → Agrees read write s j) :
    Field.normal? ms ⟨key, s, .nullable⟩ =
      (memberOrNull read key ms).map fun a => [(key, ofOption write a)] := by
  induction ms with
  | nil => rfl
  | cons m ms ih =>
    obtain ⟨k, j⟩ := m
    have hrest := ih fun j hj => h j (List.mem_cons_of_mem _ hj)
    by_cases hk : key = k
    · subst hk
      have hj : (read j).map write = Shape.normal? j s := h j (by simp)
      cases j with
      | null => simp [Field.normal?, absent?, orNull, ofOption]
      | _ => simp [Field.normal?, ← hj, present, orNull, ofOption, Function.comp_def]
    · simp [Field.normal?, hk, hrest]

@[simp] theorem Field.normal?_falseIfAbsent :
    Field.normal? ms ⟨key, .flag, .falseIfAbsent⟩ =
      (memberOr false Json.bool? key ms).map fun b => if b then [(key, .bool true)] else [] := by
  induction ms with
  | nil => rfl
  | cons m ms ih =>
    obtain ⟨k, j⟩ := m
    by_cases hk : key = k
    · subst hk
      cases j with
      | bool b => cases b <;> simp [Field.normal?, present, Shape.normal?, Json.bool?]
      | _ => simp [Field.normal?, Shape.normal?, Shape.record?, Json.bool?]
    · simp [Field.normal?, hk, ih]

/-! ### Lists -/

private theorem normalItems?_eq {items : List Json} (h : ∀ j ∈ items, Agrees read write s j) :
    Shape.normalItems? items s = (items.mapM read).map (List.map write) := by
  induction items with
  | nil => rfl
  | cons j items ih =>
    have hj : (read j).map write = Shape.normal? j s := h j (by simp)
    have hrest := ih fun i hi => h i (List.mem_cons_of_mem _ hi)
    cases first : read j with
    | none => simp [Shape.normalItems?, ← hj, first]
    | some a => cases later : items.mapM read <;> simp [Shape.normalItems?, ← hj, hrest, first, later]

theorem agrees_list {items : List Json} (h : ∀ j ∈ items, Agrees read write s j) :
    Agrees (Json.items? read) (fun as => .array (as.map write)) (.list s) (.array items) := by
  simp [Agrees, Json.items?, Shape.normal?, normalItems?_eq h, Function.comp_def]

end

/-! ### Simple values -/

theorem agrees_text (j : Json) : Agrees Json.string? .string .text j := by
  cases j <;> simp [Agrees, Json.string?, Shape.normal?, Shape.record?]

theorem agrees_flag (j : Json) : Agrees Json.bool? .bool .flag j := by
  cases j <;> simp [Agrees, Json.bool?, Shape.normal?, Shape.record?]

theorem agrees_count (j : Json) : Agrees Json.nat64? (fun n => .int n) .count j := by
  cases j with
  | int n =>
    simp only [Agrees, Json.nat64?, Shape.normal?]
    split
    · simp
      omega
    · rfl
  | _ => simp [Agrees, Json.nat64?, Shape.normal?, Shape.record?]

theorem agrees_uint64 (j : Json) : Agrees Json.uint64? Json.ofUInt64 .count j := by
  cases j with
  | int n =>
    simp only [Agrees, Json.uint64?, Json.nat64?, Shape.normal?]
    split
    · rename_i small
      simp only [UInt64.size] at small
      simp [Json.ofUInt64]
      omega
    · rfl
  | _ => simp [Agrees, Json.uint64?, Json.nat64?, Shape.normal?, Shape.record?]

theorem agrees_number (j : Json) : Agrees Json.double? Json.ofDouble .number j := by
  cases j with
  | int n =>
    cases h : (Binary64.ofDecimal (.ofInt n)).isFinite <;>
      simp [Agrees, Json.double?, Json.ofDouble, Shape.normal?, Option.filter, h]
  | double x =>
    cases h : x.isFinite <;>
      simp [Agrees, Json.double?, Json.ofDouble, Shape.normal?, Option.filter, h]
  | _ => simp [Agrees, Json.double?, Shape.normal?, Shape.record?]

theorem agrees_slot (j : Json) : Agrees SlotName.ofJson? SlotName.toJson .text j := by
  rw [Agrees, SlotName.ofJson?, Option.map_map]
  exact agrees_text j

theorem agrees_strings (j : Json) : Agrees Json.strings? Json.ofStrings (.list .text) j := by
  cases j with
  | array items =>
    rw [Agrees, Json.strings?_eq]
    exact agrees_list fun j _ => agrees_text j
  | _ => simp [Agrees, Json.strings?, Shape.normal?, Shape.record?]

section

variable {key : String} {ms : Members}

@[simp] theorem text_field :
    Field.normal? ms ⟨key, .text, .required⟩ =
      (member Json.string? key ms).map fun s => [(key, .string s)] :=
  Field.normal?_required _ _ fun j _ => agrees_text j

@[simp] theorem flag_field :
    Field.normal? ms ⟨key, .flag, .required⟩ =
      (member Json.bool? key ms).map fun b => [(key, .bool b)] :=
  Field.normal?_required _ _ fun j _ => agrees_flag j

@[simp] theorem number_field :
    Field.normal? ms ⟨key, .number, .required⟩ =
      (member Json.double? key ms).map fun x => [(key, .ofDouble x)] :=
  Field.normal?_required _ _ fun j _ => agrees_number j

theorem slot_field :
    Field.normal? ms ⟨key, .text, .required⟩ =
      (member SlotName.ofJson? key ms).map fun s => [(key, s.toJson)] :=
  Field.normal?_required _ _ fun j _ => agrees_slot j

@[simp] theorem strings_field :
    Field.normal? ms ⟨key, .list .text, .required⟩ =
      (member Json.strings? key ms).map fun texts => [(key, .ofStrings texts)] :=
  Field.normal?_required _ _ fun j _ => agrees_strings j

end

/-! ### Records -/

/-- What is written of the members of a record. -/
def Record.written? (r : Record) (ms : Members) : Option Members :=
  (r.fields.mapM fun f => Field.normal? ms f).map List.flatten

theorem Record.normal?_object (r : Record) (ms : Members) :
    Shape.normal? (.object ms) (.record r) = (r.written? ms).map fun w => .object (r.tag ++ w) := by
  have hr : Shape.record? ms (.record r) = some (r.tag, r) := rfl
  rw [Shape.normal?_object hr, written?, Option.map_map]
  rfl

/-- A record is not written if one of its fields is not. -/
theorem Record.written?_eq_none {r : Record} {ms : Members} {f : Field} (hf : f ∈ r.fields)
    (h : Field.normal? ms f = none) : r.written? ms = none := by
  have fails : ∀ fs : List Field, f ∈ fs → (fs.mapM fun f => Field.normal? ms f) = none := by
    intro fs hf
    induction fs with
    | nil => cases hf
    | cons g fs ih =>
      rcases List.mem_cons.1 hf with rfl | hf
      · simp [h]
      · simp [ih hf]
  rw [written?, fails r.fields hf, Option.map_none]

/-- The tag tells which record of the family an object has to be, if any. -/
theorem agrees_tagged {α : Type} {read : Json → Option α} {write : α → Json} {family : Family}
    {ms : Members}
    (known : ∀ k ∈ family.kinds, NodeKind.ofMembers? ms = some k →
      (read (.object ms)).map write =
        ((Record.node k).written? ms).map fun w => .object (k.tag :: w))
    (unknown : ∀ k ∉ family.kinds, NodeKind.ofMembers? ms = some k → read (.object ms) = none)
    (untagged : NodeKind.ofMembers? ms = none → read (.object ms) = none) :
    Agrees read write (.tagged family) (.object ms) := by
  rw [Agrees]
  cases hk : NodeKind.ofMembers? ms with
  | none =>
    have hr : Shape.record? ms (.tagged family) = none := by simp [Shape.record?, hk]
    simp [untagged hk, Shape.normal?, hr]
  | some k =>
    by_cases hmem : k ∈ family.kinds
    · have hr : Shape.record? ms (.tagged family) = some ([k.tag], .node k) := by
        simp [Shape.record?, hk, hmem]
      rw [known k hmem hk, Shape.normal?_object hr, Record.written?, Option.map_map]
      rfl
    · have hr : Shape.record? ms (.tagged family) = none := by simp [Shape.record?, hk, hmem]
      simp [unknown k hmem hk, Shape.normal?, hr]

section

attribute [local simp] Agrees Record.normal?_object Record.written? Record.fields Record.tag
  Option.map_bind Option.bind_map Option.bind_assoc Function.comp_def

theorem agrees_position (j : Json) :
    Agrees Position.ofJson? Position.toJson (.record .position) j := by
  cases j with
  | object ms =>
    have count (key : String) := Field.normal?_required key ms
      fun j _ => agrees_uint64 j
    simp [Position.ofJson?, Position.toJson, count]
  | _ => simp [Position.ofJson?, Shape.normal?]

theorem agrees_location (j : Json) :
    Agrees Location.ofJson? Location.toJson (.record .location) j := by
  cases j with
  | object ms =>
    have source := Field.normal?_nullable "source" ms fun j _ => agrees_text j
    have point (key : String) := Field.normal?_required key ms
      fun j _ => agrees_position j
    simp [Location.ofJson?, Location.toJson, source, point]
  | _ => simp [Location.ofJson?, Shape.normal?]

theorem agrees_strip (j : Json) : Agrees Strip.ofJson? Strip.toJson (.record .strip) j := by
  cases j with
  | object ms => simp [Strip.ofJson?, Strip.toJson]
  | _ => simp [Strip.ofJson?, Shape.normal?]

end

section

variable {key : String} {ms : Members}

@[simp] theorem loc_field :
    Field.normal? ms Record.locField =
      (member Location.ofJson? "loc" ms).map fun l => [("loc", l.toJson)] :=
  Field.normal?_required _ _ fun j _ => agrees_location j

@[simp] theorem loc_field_nullable :
    Field.normal? ms ⟨key, .record .location, .nullable⟩ =
      (memberOrNull Location.ofJson? key ms).map fun l => [(key, ofOption Location.toJson l)] :=
  Field.normal?_nullable _ _ fun j _ => agrees_location j

@[simp] theorem strip_field :
    Field.normal? ms ⟨key, .record .strip, .required⟩ =
      (member Strip.ofJson? key ms).map fun s => [(key, s.toJson)] :=
  Field.normal?_required _ _ fun j _ => agrees_strip j

@[simp] theorem strip_field_nullable :
    Field.normal? ms ⟨key, .record .strip, .nullable⟩ =
      (memberOrNull Strip.ofJson? key ms).map fun s => [(key, ofOption Strip.toJson s)] :=
  Field.normal?_nullable _ _ fun j _ => agrees_strip j

end

/-! ### Paths -/

theorem Path.ofMembers?_written (ms : Members) :
    (Path.ofMembers? ms).map Path.members = (Record.node .path).written? ms := by
  have depth := Field.normal?_required "depth" ms fun j _ => agrees_count j
  simp [Path.ofMembers?, Path.members, Record.written?, Record.fields, depth, Option.map_bind,
    Option.bind_map, Option.bind_assoc, Function.comp_def]

/-- A path of its own may have any tag, or none. -/
theorem agrees_path (j : Json) : Agrees Path.ofJson? Path.toJson (.record (.node .path)) j := by
  cases j with
  | object ms =>
    rw [Agrees, Record.normal?_object, ← Path.ofMembers?_written, Option.map_map]
    rfl
  | _ => simp [Agrees, Path.ofJson?, Shape.normal?]

theorem agrees_heldPath (j : Json) : Agrees Path.ofTagged? Path.toTagged (.tagged .heldPath) j := by
  cases j with
  | object ms =>
    refine agrees_tagged (fun k hmem hk => ?_) (fun k hmem hk => ?_) fun hk => ?_
    · obtain rfl : k = .path := by simpa [Family.kinds] using hmem
      simp only [Path.ofTagged?, hk, if_true, ← Path.ofMembers?_written, Option.map_map]
      rfl
    · have other : k ≠ .path := by simpa [Family.kinds] using hmem
      simp [Path.ofTagged?, hk, other]
    · simp [Path.ofTagged?, hk]
  | _ => simp [Agrees, Path.ofTagged?, Shape.normal?]

@[simp] theorem heldPath_field {key : String} {ms : Members} :
    Field.normal? ms ⟨key, .tagged .heldPath, .required⟩ =
      (member Path.ofTagged? key ms).map fun p => [(key, p.toTagged)] :=
  Field.normal?_required _ _ fun j _ => agrees_heldPath j

end TemplateTree
