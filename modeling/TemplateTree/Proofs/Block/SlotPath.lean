import TemplateTree.Proofs.Block.Classification
import TemplateTree.Proofs.Path.Canonical
import TemplateTree.Proofs.Path.Resolution

/-! The path of a block that fills a slot. The slot is split off in two places: the text is cut at
its first separator, and the last name at its own. So the two agree only if the first separator
stands in the last name. And it is split off late, when the path has been resolved with the slot in
its last token: what is a reference without the slot has then been taken for a name. -/
namespace TemplateTree

/-! ### Text and names -/

/-- Taking the slot off a path whose text is its normal text: the text that is left is the normal
text of the names that are left, unless a name before the last has a separator in it. -/
theorem Path.canonical_stemLast_iff {p : Path} {name : String} {slot : SlotName}
    (consistent : p.canonical = p.written) (names : SlotSuffix.Names p.written name slot) :
    ({ p with written := name, parts := stemLast p.parts } : Path).canonical = name ↔
      ∀ part ∈ p.parts.dropLast, ¬ SlotSuffix.Occurs part := by
  rcases List.eq_nil_or_concat p.parts with none | ⟨init, last, parts⟩
  · have occurs := names.occurs
    rw [← consistent] at occurs
    exact absurd occurs (not_occurs_canonical none)
  · rw [List.concat_eq_append] at parts
    have whole : p.written = lead p.data p.depth init ++ last := by
      rw [← consistent, canonical_eq_lead parts]
    have left : ({ p with written := name, parts := stemLast p.parts } : Path).canonical =
        lead p.data p.depth init ++ SlotSuffix.stem last :=
      canonical_eq_lead (by simp [parts])
    have apart := lead_apart p.data p.depth init
    have occursLead := occurs_lead_iff p.data p.depth init
    rw [left, parts, List.dropLast_concat]
    constructor
    · -- The name that is left of the text has no separator, so none stands in its beginning.
      intro same part hpart occurs
      obtain ⟨-, behind, hcut, -⟩ := names
      refine hcut.not_occurs ?_
      rw [← same, SlotSuffix.occurs_append_iff apart]
      exact .inl (occursLead.2 ⟨part, hpart, occurs⟩)
    · intro free
      have free : ¬ SlotSuffix.Occurs (lead p.data p.depth init) := by
        rw [occursLead]
        rintro ⟨part, hpart, occurs⟩
        exact free part hpart occurs
      rw [← SlotSuffix.stem_append free apart, ← whole]
      exact names.stem_eq

namespace Builder

variable {b : Builder} {w : WrittenBlock} {tag : OpenTag}

theorem canonical_target_iff (consistent : tag.path.canonical = tag.path.written) :
    (b.target tag).1.canonical = (b.target tag).1.written ↔
      (∀ name slot, ¬ b.Splits tag name slot) ∨
        ∀ part ∈ tag.path.parts.dropLast, ¬ SlotSuffix.Occurs part := by
  rcases target_cases b tag with ⟨name, slot, splits, target⟩ | ⟨unsplit, target⟩
  · have never : ¬ ∀ name slot, ¬ b.Splits tag name slot := fun h => h name slot splits
    rw [target]
    simpa only [never, false_or] using Path.canonical_stemLast_iff consistent splits.names
  · rw [target]
    simp [unsplit, consistent]

/-- A block that is opened with a path whose text is its normal text has such a path too, unless a
slot is split off and the separator before it stands in another name than the last. Then the text
ends in an earlier name than the path does. The same goes for the declaration of a slot's content.
-/
theorem canonical_node_iff {named : Bool} {s : Statement}
    (consistent : w.opening.path.canonical = w.opening.path.written)
    (built : (if named then b.namedBlockSlot w else b.block w) = .ok s) :
    ∃ kind node, s = .block kind node ∧
      (node.path.canonical = node.path.written ↔
        (∀ name slot, ¬ b.Splits w.opening name slot) ∨
          ∀ part ∈ w.opening.path.parts.dropLast, ¬ SlotSuffix.Occurs part) := by
  cases named with
  | false =>
    obtain ⟨-, rfl⟩ := block_eq_ok_iff.1 built
    exact ⟨_, _, rfl, canonical_target_iff consistent⟩
  | true =>
    obtain ⟨-, rfl⟩ := namedBlockSlot_eq_ok_iff.1 built
    exact ⟨_, _, rfl, canonical_target_iff consistent⟩

/-- In `{{#ui.card::footer}}` the slot stands in the last name. -/
theorem canonical_node_card :
    let loc : Location := ⟨none, ⟨1, 3⟩, ⟨1, 18⟩⟩
    let path : Path := ⟨false, 0, ["ui", "card::footer"], "ui.card::footer", loc⟩
    let w : WrittenBlock := ⟨⟨path, ⟨[], none⟩, none, {}, "\x7b\x7b#"⟩, .ofBody [] none, none, none,
      false, ⟨⟨1, 0⟩, ⟨1, 32⟩⟩⟩
    path.canonical = path.written ∧ ∃ node, (ofOptions {}).block w = .ok (.block .plain node) ∧
      node.path.written = "ui.card" ∧ node.path.canonical = node.path.written := by
  intro loc path w
  have consistent : path.canonical = path.written := by decide
  have built := block_eq_plain (b := ofOptions {}) (w := w) (by decide) (by decide)
  obtain ⟨kind, node, heq, kept⟩ :=
    @canonical_node_iff (ofOptions {}) w false _ consistent built
  obtain ⟨rfl, rfl⟩ : .plain = kind ∧ (ofOptions {}).blockNode w = node := by simpa using heq
  exact ⟨consistent, _, built, by decide, kept.2 (.inr (by decide))⟩

/-- In `{{#[a::b].c}}` it stands in the first name. The text that is left is `a`, and the names are
still `a::b` and `c`. -/
theorem canonical_node_bracketed :
    let loc : Location := ⟨none, ⟨1, 3⟩, ⟨1, 11⟩⟩
    let path : Path := ⟨false, 0, ["a::b", "c"], "a::b.c", loc⟩
    let w : WrittenBlock := ⟨⟨path, ⟨[], none⟩, none, {}, "\x7b\x7b#"⟩, .ofBody [] none, none, none,
      false, ⟨⟨1, 0⟩, ⟨1, 19⟩⟩⟩
    Path.resolve false [.ofToken none "[a::b]", .ofToken (some ".") "c"] loc = .ok path ∧
      path.canonical = path.written ∧
      ¬ ∀ s, (ofOptions {}).block w = .ok s →
        ∃ kind node, s = .block kind node ∧ node.path.canonical = node.path.written := by
  intro loc path w
  refine ⟨by rfl, by decide, fun kept => ?_⟩
  have built := block_eq_plain (b := ofOptions {}) (w := w) (by decide) (by decide)
  obtain ⟨kind, node, heq, same⟩ := kept _ built
  obtain ⟨rfl, rfl⟩ : .plain = kind ∧ (ofOptions {}).blockNode w = node := by simpa using heq
  exact absurd same (by decide)

/-! ### Slots behind references -/

section Suffixed

variable {data : Bool} {before : List Segment} {separator : Option String} {token slot : String}
  {loc : Location} {p : Path}

/-- A token with a slot behind it is a name, even if it is a reference without the slot. -/
theorem not_reference_suffixed : ¬ ReferenceWord (token ++ "::" ++ slot) := by
  have occurs : SlotSuffix.Occurs (token ++ "::" ++ slot) :=
    ⟨token.toList, slot.toList, by simp⟩
  rintro (h | h | h) <;> exact absurd (h ▸ occurs) (by decide)

theorem not_bracketed_suffixed (bracket : slot.toList.getLast? ≠ some ']') :
    ¬ Bracketed (token ++ "::" ++ slot) := by
  refine not_bracketed ?_
  rw [String.toList_append, List.getLast?_append]
  cases h : slot.toList.getLast? with
  | none => simp
  | some c =>
    rw [h] at bracket
    exact bracket

/-- What a slot behind the last token does to a path that is resolved: the token and the slot become
its last name. -/
theorem resolve_suffixed
    (accepted : Path.resolve data (before ++ [.ofToken separator token]) loc = .ok p)
    (unbracketed : ¬ Bracketed token) (bracket : slot.toList.getLast? ≠ some ']')
    (loc' : Location) :
    ∃ depth init, Path.resolve data (before ++ [.ofToken separator (token ++ "::" ++ slot)]) loc' =
        .ok ⟨data, depth, init ++ [token ++ "::" ++ slot], p.written ++ "::" ++ slot, loc'⟩ ∧
      p.data = data ∧ token.toList <:+ p.written.toList ∧
      (¬ ReferenceWord token → p.depth = depth ∧ p.parts = init ++ [token]) ∧
      (ReferenceWord token → init = [] ∧ p.parts = [] ∧
        p.depth = depth + if token = ".." then 1 else 0) := by
  obtain ⟨q, r, hbefore, hlast, rfl⟩ := Path.resolve_concat_eq_ok_iff.1 accepted
  have bracketless : ¬ Bracketed (token ++ "::" ++ slot) := not_bracketed_suffixed bracket
  have name : (Segment.ofToken separator (token ++ "::" ++ slot)).isReference = false := by
    rw [← Bool.not_eq_true, Segment.isReference_ofToken bracketless]
    exact not_reference_suffixed
  have text : r.text = q.text ++ (separator.getD "" ++ token) := by
    rw [Path.Progress.text_of_step hlast, Segment.text_ofToken unbracketed]
  have part : (Segment.ofToken separator token).part = token := Segment.part_ofToken unbracketed
  refine ⟨q.depth, q.parts, ?_, rfl, ?_, ?_, ?_⟩
  · refine Path.resolve_concat_eq_ok_iff.2 ⟨q, _, hbefore, Path.Progress.step_name name, ?_⟩
    rw [Segment.part_ofToken bracketless, Segment.text_ofToken bracketless, text]
    simp [String.append_assoc]
  · simp only [text, String.toList_append]
    exact (List.suffix_append _ _).trans (List.suffix_append _ _)
  · intro ordinary
    have ordinary : (Segment.ofToken separator token).isReference = false := by
      rwa [← Bool.not_eq_true, Segment.isReference_ofToken unbracketed]
    rw [Path.Progress.step_name ordinary, part] at hlast
    cases hlast
    exact ⟨rfl, rfl⟩
  · intro reference
    have reference : (Segment.ofToken separator token).isReference = true :=
      (Segment.isReference_ofToken unbracketed).2 reference
    obtain ⟨none, rfl⟩ := (Path.Progress.step_reference_eq_ok_iff reference).1 hlast
    exact ⟨none, rfl, by rw [part]⟩

/-- A slot written behind the last token of a path: the path is resolved all the same, and the block
that it opens has that slot and closes with the text before it. It also has the path of that text,
unless the token is a reference. A reference with a slot behind it has become a name. -/
theorem block_suffixed
    (accepted : Path.resolve data (before ++ [.ofToken separator token]) loc = .ok p)
    (unbracketed : ¬ Bracketed token) (nonempty : p.written ≠ "")
    (free : ¬ SlotSuffix.Occurs p.written) (apart : p.written.toList.getLast? ≠ some ':')
    (single : ¬ SlotSuffix.Occurs slot) (bracket : slot.toList.getLast? ≠ some ']')
    (loc' : Location) :
    ∃ q, Path.resolve data (before ++ [.ofToken separator (token ++ "::" ++ slot)]) loc' = .ok q ∧
      ∀ (b : Builder) (w : WrittenBlock), w.opening.path = q → w.opening.isDecorator = false →
        b.options.namedBlockSlots = true →
        (∀ name ∈ w.closing.bind (·.name?), name = p.written) →
        ∃ node, b.block w = .ok (.block .plain node) ∧ (slot ≠ "" → node.slot = ⟨slot⟩) ∧
          node.path.data = p.data ∧ node.path.written = p.written ∧
          (¬ ReferenceWord token → node.path.depth = p.depth ∧ node.path.parts = p.parts) ∧
          (ReferenceWord token → node.path.parts = [token] ∧ p.parts = [] ∧
            p.depth = node.path.depth + if token = ".." then 1 else 0) := by
  obtain ⟨depth, init, resolved, hdata, hsuffix, ordinary, reference⟩ :=
    resolve_suffixed accepted unbracketed bracket loc'
  refine ⟨_, resolved, ?_⟩
  intro b w hpath plain enabled closes
  have splits : b.Splits w.opening p.written ⟨slot⟩ := by
    refine ⟨plain, enabled, ?_⟩
    rw [hpath]
    exact SlotSuffix.names_append nonempty free apart single
  have stem : SlotSuffix.stem (token ++ "::" ++ slot) = token := by
    refine SlotSuffix.stem_suffixed (fun occurs => free (occurs.trans hsuffix.isInfix)) ?_
    intro hlast
    obtain ⟨lead, hlead⟩ := hsuffix
    exact apart (by rw [← hlead, List.getLast?_append, hlast]; rfl)
  have target : b.target w.opening = (⟨data, depth, init ++ [token], p.written, loc'⟩, ⟨slot⟩) := by
    rw [target_of_splits splits, hpath]
    simp [stem]
  have closes : ∀ name ∈ w.closing.bind (·.name?), (b.target w.opening).1.written = name := by
    intro name hname
    rw [target, closes name hname]
  refine ⟨b.blockNode w, block_eq_plain plain closes, ?_⟩
  rw [blockNode_slot_eq, blockNode_path, target]
  refine ⟨?_, hdata.symm, rfl, ?_, ?_⟩
  · intro hslot
    have some : (⟨slot⟩ : SlotName) ≠ .empty := fun h => hslot (congrArg SlotName.text h)
    exact slot_eq_of_some some
  · intro h
    obtain ⟨hdepth, hparts⟩ := ordinary h
    exact ⟨hdepth.symm, hparts.symm⟩
  · intro h
    obtain ⟨rfl, hparts, hdepth⟩ := reference h
    exact ⟨rfl, hparts, hdepth⟩

/-- The block `{{#../ui.card::footer}}{{/../ui.card}}`. -/
theorem block_suffixed_card :
    let loc : Location := ⟨none, ⟨1, 3⟩, ⟨1, 21⟩⟩
    let before : List Segment := [.ofToken none "..", .ofToken (some "/") "ui"]
    let p : Path := ⟨false, 1, ["ui", "card"], "../ui.card", loc⟩
    Path.resolve false (before ++ [.ofToken (some ".") "card"]) loc = .ok p ∧
      ¬ Bracketed "card" ∧ p.written ≠ "" ∧ ¬ SlotSuffix.Occurs p.written ∧
      p.written.toList.getLast? ≠ some ':' ∧ ¬ SlotSuffix.Occurs "footer" ∧
      "footer".toList.getLast? ≠ some ']' ∧
      ∃ q, Path.resolve false
          (before ++ [.ofToken (some ".") ("card" ++ "::" ++ "footer")]) loc = .ok q ∧
        ∃ node, (ofOptions {}).block ⟨⟨q, ⟨[], none⟩, none, {}, "\x7b\x7b#"⟩, .ofBody [] none, none,
            some ⟨some p, {}⟩, false, ⟨⟨1, 0⟩, ⟨1, 38⟩⟩⟩ = .ok (.block .plain node) ∧
          node.slot = ⟨"footer"⟩ ∧ node.path.data = p.data ∧ node.path.written = p.written ∧
          node.path.depth = p.depth ∧ node.path.parts = p.parts := by
  intro loc before p
  have accepted : Path.resolve false (before ++ [.ofToken (some ".") "card"]) loc = .ok p := by rfl
  have unbracketed : ¬ Bracketed "card" := not_bracketed (by decide)
  have nonempty : p.written ≠ "" := by decide
  have free : ¬ SlotSuffix.Occurs p.written := fun occurs => absurd occurs.mem (by decide)
  have apart : p.written.toList.getLast? ≠ some ':' := by decide
  have single : ¬ SlotSuffix.Occurs "footer" := fun occurs => absurd occurs.mem (by decide)
  have bracket : "footer".toList.getLast? ≠ some ']' := by decide
  have plain : Delimiter.isDecorator "\x7b\x7b#" = false := by decide
  obtain ⟨q, resolved, blocks⟩ :=
    block_suffixed accepted unbracketed nonempty free apart single bracket loc
  obtain ⟨node, built, slot, data, written, ordinary, -⟩ := blocks (ofOptions {})
    ⟨⟨q, ⟨[], none⟩, none, {}, "\x7b\x7b#"⟩, .ofBody [] none, none, some ⟨some p, {}⟩, false,
      ⟨⟨1, 0⟩, ⟨1, 38⟩⟩⟩ rfl plain rfl (by simp [CloseTag.name?])
  obtain ⟨depth, parts⟩ := ordinary (by simp [ReferenceWord])
  exact ⟨accepted, unbracketed, nonempty, free, apart, single, bracket, q, resolved, node, built,
    slot (by decide), data, written, depth, parts⟩

/-- The block `{{#this::row}}{{/this}}` goes to the name `this`, though `this` alone is no name. -/
theorem suffixed_this_row :
    let loc : Location := ⟨none, ⟨1, 3⟩, ⟨1, 12⟩⟩
    let p : Path := ⟨false, 0, [], "this", loc⟩
    Path.resolve false [.ofToken none "this"] loc = .ok p ∧
      ¬ ∃ q, Path.resolve false [.ofToken none ("this" ++ "::" ++ "row")] loc = .ok q ∧
        ∀ w : WrittenBlock, w.opening.path = q → w.opening.isDecorator = false →
          (∀ name ∈ w.closing.bind (·.name?), name = p.written) →
          ∃ node, (ofOptions {}).block w = .ok (.block .plain node) ∧ node.slot = ⟨"row"⟩ ∧
            node.path.data = p.data ∧ node.path.depth = p.depth ∧ node.path.parts = p.parts ∧
            node.path.written = p.written := by
  intro loc p
  refine ⟨by rfl, ?_⟩
  rintro ⟨q, resolved, blocks⟩
  have name : Path.resolve false [.ofToken none ("this" ++ "::" ++ "row")] loc =
      .ok ⟨false, 0, ["this::row"], "this::row", loc⟩ := by rfl
  obtain rfl := Except.ok.inj (name.symm.trans resolved)
  let w : WrittenBlock := ⟨⟨⟨false, 0, ["this::row"], "this::row", loc⟩, ⟨[], none⟩, none, {},
    "\x7b\x7b#"⟩, .ofBody [] none, none, some ⟨some p, {}⟩, false, ⟨⟨1, 0⟩, ⟨1, 23⟩⟩⟩
  obtain ⟨node, built, -, -, -, parts, -⟩ := blocks w rfl (by decide) (by simp [w, CloseTag.name?])
  have assembled := block_eq_plain (b := ofOptions {}) (w := w) (by decide) (by decide)
  obtain rfl : (ofOptions {}).blockNode w = node := by simpa using assembled.symm.trans built
  exact absurd parts (by decide)

end Suffixed

end Builder

end TemplateTree
