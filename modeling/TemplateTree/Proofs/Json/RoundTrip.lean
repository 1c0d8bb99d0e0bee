import TemplateTree.Proofs.Json.Readers

/-! Reading back what was written. A tree comes back from its value as it was, provided that its
numbers fit into values: number literals are finite, and climbs are counted in sixty-four bits. -/
namespace TemplateTree

open Json (member memberOr memberOrNull orNull ofOption)

namespace Json

variable {α : Type} {read : Json → Option α} {write : α → Json}

/-- What may be absent comes back if what is present does, as nothing else is written `null`. -/
theorem orNull_ofOption {x : Option α} (h : ∀ a ∈ x, read (write a) = some a)
    (null : read .null = none) : orNull read (ofOption write x) = some x := by
  cases x with
  | none => rfl
  | some a =>
    have back : read (write a) = some a := h a rfl
    simp only [ofOption]
    cases hj : write a with
    | null => rw [hj, null] at back; cases back
    | _ => rw [hj] at back; simp [orNull, back]

theorem items?_map {as : List α} (h : ∀ a ∈ as, read (write a) = some a) :
    items? read (.array (as.map write)) = some as := by
  simp only [items?]
  induction as with
  | nil => rfl
  | cons a as ih =>
    have hrest := ih fun b hb => h b (List.mem_cons_of_mem a hb)
    simp [h a, hrest]

theorem strings?_ofStrings (texts : List String) : strings? (ofStrings texts) = some texts := by
  rw [strings?_eq]
  exact items?_map fun _ _ => rfl

theorem nat64?_int {n : Nat} (h : n < UInt64.size) : nat64? (.int n) = some n := by
  have small : 0 ≤ (n : Int) ∧ (n : Int) < UInt64.size := by omega
  rw [nat64?, if_pos small, Int.toNat_natCast]

theorem uint64?_ofUInt64 (n : UInt64) : uint64? (ofUInt64 n) = some n := by
  rw [uint64?, ofUInt64, nat64?_int n.toNat_lt_size]
  simp

theorem double?_ofDouble {x : Binary64} (h : x.isFinite) : double? (ofDouble x) = some x := by
  simp [ofDouble, double?, h]

end Json

theorem Position.ofJson?_toJson (p : Position) : Position.ofJson? p.toJson = some p := by
  simp [toJson, ofJson?, Json.uint64?_ofUInt64]

@[simp] theorem Location.ofJson?_toJson (l : Location) : Location.ofJson? l.toJson = some l := by
  have source : orNull Json.string? (ofOption .string l.source) = some l.source :=
    Json.orNull_ofOption (by simp [Json.string?]) rfl
  simp [toJson, ofJson?, Position.ofJson?_toJson, source]

@[simp] theorem Strip.ofJson?_toJson (s : Strip) : Strip.ofJson? s.toJson = some s := by
  simp [toJson, ofJson?, Json.bool?]

@[simp] theorem SlotName.ofJson?_toJson (s : SlotName) : SlotName.ofJson? s.toJson = some s := rfl

private theorem strip_orNull (s : Option Strip) :
    orNull Strip.ofJson? (ofOption Strip.toJson s) = some s :=
  Json.orNull_ofOption (fun s _ => s.ofJson?_toJson) rfl

/-! ### Paths -/

theorem Path.ofMembers?_members {p : Path} (h : p.depth < UInt64.size) :
    Path.ofMembers? p.members = some p := by
  simp [members, ofMembers?, Json.bool?, Json.string?, Json.nat64?_int h, Json.strings?_ofStrings]

theorem Path.ofMembers?_tag (k : NodeKind) (ms : Json.Members) :
    Path.ofMembers? (k.tag :: ms) = Path.ofMembers? ms := by
  simp [Path.ofMembers?]

/-- A path comes back with its tag if it does without. -/
theorem Path.ofTagged?_toTagged {p : Path} (h : Path.ofJson? p.toJson = some p) :
    Path.ofTagged? p.toTagged = some p := by
  have hms : Path.ofMembers? p.members = some p := h
  simp [toTagged, ofTagged?, NodeKind.ofMembers?_tag, ofMembers?_tag, hms]

/-! ### Nodes, from what is below them -/

/-- What is read from the value of the tree is the tree. -/
def Tree.ReadsBack : Tree → Prop
  | path p => Path.ofJson? p.toJson = some p
  | expr e => Expr.ofJson? e.toJson = some e
  | hashPair p => HashPair.ofJson? p.toJson = some p
  | hash h => Hash.ofJson? h.toJson = some h
  | statement s => Statement.ofJson? s.toJson = some s
  | program p => Program.ofJson? p.toJson = some p

theorem Tree.readsBack_iff {t : Tree} : t.ReadsBack ↔ t.kind.read? t.toJson = some t := by
  cases t <;> simp [ReadsBack, kind, toJson, Kind.read?]

section

variable {args : Arguments}

private theorem arguments_back (h : ∀ c ∈ args.children, c.ReadsBack) :
    Json.items? Expr.ofJson? (.array (args.params.map Expr.toJson)) = some args.params ∧
      orNull Hash.ofJson? (ofOption Hash.toJson args.hash) = some args.hash := by
  constructor
  · exact Json.items?_map fun e he => h (.expr e) (by simp [Arguments.children, he])
  · refine Json.orNull_ofOption (fun x hx => ?_) rfl
    exact h (.hash x) (by simpa [Arguments.children] using hx)

private theorem branch_back {p : Option Program}
    (h : ∀ c ∈ p.toList.map Tree.program, c.ReadsBack) :
    orNull Program.ofJson? (ofOption Program.toJson p) = some p :=
  Json.orNull_ofOption (fun x hx => h (.program x) (by simpa using hx)) rfl

private theorem call_back {callee : Expr} {loc : Location} (hc : (Tree.expr callee).ReadsBack)
    (ha : ∀ c ∈ args.children, c.ReadsBack) : (Tree.expr (.call callee args loc)).ReadsBack := by
  obtain ⟨params, hash⟩ := arguments_back ha
  simp only [Tree.ReadsBack] at hc ⊢
  simp [Expr.toJson, Expr.ofJson?, NodeKind.ofMembers?_tag, hc, params, hash]

private theorem hashPair_back {p : HashPair} (h : (Tree.expr p.value).ReadsBack) :
    (Tree.hashPair p).ReadsBack := by
  obtain ⟨key, value, loc⟩ := p
  simp only [Tree.ReadsBack] at h ⊢
  simp [HashPair.toJson, HashPair.ofJson?, Json.string?, h]

private theorem pairs_back {h : Hash} (hp : ∀ p ∈ h.pairs, (Tree.hashPair p).ReadsBack) :
    (Tree.hash h).ReadsBack := by
  obtain ⟨pairs, loc⟩ := h
  have hpairs : Json.items? HashPair.ofJson? (.array (pairs.map HashPair.toJson)) = some pairs :=
    Json.items?_map hp
  simp [Tree.ReadsBack, Hash.toJson, Hash.ofJson?, Hash.orNull?, hpairs]

private theorem mustache_back {tag : Mustache} (hp : (Tree.expr tag.path).ReadsBack)
    (ha : ∀ c ∈ tag.args.children, c.ReadsBack) :
    (Tree.statement (.mustache tag)).ReadsBack ∧ (Tree.statement (.decorator tag)).ReadsBack := by
  obtain ⟨path, args, escaped, strip, loc⟩ := tag
  obtain ⟨params, hash⟩ := arguments_back ha
  simp only [Tree.ReadsBack] at hp ⊢
  simp [Statement.toJson, Statement.ofJson?, NodeKind.ofMembers?_tag, Mustache.ofMembers?,
    Arguments.ofMembers?, Json.bool?, hp, params, hash]

private theorem partialTag_back {tag : PartialTag} (hn : (Tree.expr tag.name).ReadsBack)
    (ha : ∀ c ∈ tag.args.children, c.ReadsBack) :
    (Tree.statement (.partialTag tag)).ReadsBack := by
  obtain ⟨name, args, indent, strip, loc⟩ := tag
  obtain ⟨params, hash⟩ := arguments_back ha
  simp only [Tree.ReadsBack] at hn ⊢
  simp [Statement.toJson, Statement.ofJson?, NodeKind.ofMembers?_tag, PartialTag.ofMembers?,
    Arguments.ofMembers?, Json.string?, hn, params, hash]

private theorem block_back {kind : BlockKind} {b : Block} (hp : (Tree.path b.path).ReadsBack)
    (ha : ∀ c ∈ b.args.children, c.ReadsBack)
    (hprogram : ∀ c ∈ b.program.toList.map Tree.program, c.ReadsBack)
    (hinverse : ∀ c ∈ b.inverse.toList.map Tree.program, c.ReadsBack) :
    (Tree.statement (.block kind b)).ReadsBack := by
  obtain ⟨path, slot, args, program, inverse, openStrip, inverseStrip, closeStrip, loc⟩ := b
  obtain ⟨params, hash⟩ := arguments_back ha
  have hpath := Path.ofTagged?_toTagged hp
  have hprogram := branch_back hprogram
  have hinverse := branch_back hinverse
  simp [Tree.ReadsBack, Statement.toJson, Block.members, Statement.ofJson?, NodeKind.ofMembers?_tag,
    Block.ofMembers?, Arguments.ofMembers?, strip_orNull, hpath, params, hash, hprogram, hinverse]

private theorem partialBlock_back {b : PartialBlock} (hn : (Tree.path b.name).ReadsBack)
    (ha : ∀ c ∈ b.args.children, c.ReadsBack) (hp : (Tree.program b.program).ReadsBack) :
    (Tree.statement (.partialBlock b)).ReadsBack := by
  obtain ⟨name, args, program, openStrip, closeStrip, loc⟩ := b
  obtain ⟨params, hash⟩ := arguments_back ha
  have hname := Path.ofTagged?_toTagged hn
  have hprogram := branch_back (p := some program) (by simpa using hp)
  simp only [ofOption] at hprogram
  simp [Tree.ReadsBack, Statement.toJson, PartialBlock.members, Statement.ofJson?,
    NodeKind.ofMembers?_tag, PartialBlock.ofMembers?, Arguments.ofMembers?, strip_orNull, hname,
    params, hash, hprogram]

private theorem body_back {p : Program} (h : ∀ s ∈ p.body, (Tree.statement s).ReadsBack) :
    (Tree.program p).ReadsBack := by
  obtain ⟨body, blockParams, strip, chained, loc⟩ := p
  have hbody : Json.items? Statement.ofJson? (.array (body.map Statement.toJson)) = some body :=
    Json.items?_map h
  have hparams : orNull Json.strings? (ofOption Json.ofStrings blockParams) = some blockParams :=
    Json.orNull_ofOption (fun _ _ => Json.strings?_ofStrings _) rfl
  have hloc : orNull Location.ofJson? (ofOption Location.toJson loc) = some loc :=
    Json.orNull_ofOption (fun l _ => l.ofJson?_toJson) rfl
  cases chained <;>
    simp [Tree.ReadsBack, Program.toJson, Program.ofJson?, Program.orNull?, Program.ofMembers?,
      Json.bool?, hbody, hparams, hloc]

end

/-! ### Trees -/

namespace Tree

/-- The numbers of a node fit into values. -/
def Portable : Tree → Prop
  | path p => p.depth < UInt64.size
  | expr (.number value _ _) => value.isFinite
  | _ => True

private theorem expr_back {e : Expr} (holds : (expr e).Portable)
    (ih : ∀ c ∈ (expr e).children, c.ReadsBack) : (expr e).ReadsBack := by
  cases e with
  | path p =>
    have hp : Path.ofMembers? p.members = some p := ih (path p) (by simp [children])
    simp [ReadsBack, Expr.toJson, Path.toTagged, Expr.ofJson?, NodeKind.ofMembers?_tag,
      Path.ofMembers?_tag, hp]
  | call callee args loc =>
    simp only [children, List.forall_mem_cons] at ih
    exact call_back ih.1 ih.2
  | number value written loc =>
    have hvalue : value.isFinite := holds
    simp [ReadsBack, Expr.toJson, Expr.ofJson?, NodeKind.ofMembers?_tag, Json.string?,
      Json.double?_ofDouble hvalue]
  | _ =>
    simp [ReadsBack, Expr.toJson, Expr.ofJson?, NodeKind.ofMembers?_tag, Json.string?, Json.bool?]

private theorem statement_back {s : Statement} (ih : ∀ c ∈ (statement s).children, c.ReadsBack) :
    (statement s).ReadsBack := by
  cases s with
  | mustache tag =>
    simp only [children, List.forall_mem_cons] at ih
    exact (mustache_back ih.1 ih.2).1
  | decorator tag =>
    simp only [children, List.forall_mem_cons] at ih
    exact (mustache_back ih.1 ih.2).2
  | block kind b =>
    simp only [children, List.forall_mem_append, List.forall_mem_cons] at ih
    obtain ⟨⟨⟨hpath, hargs⟩, hprogram⟩, hinverse⟩ := ih
    exact block_back hpath hargs hprogram hinverse
  | partialTag tag =>
    simp only [children, List.forall_mem_cons] at ih
    exact partialTag_back ih.1 ih.2
  | partialBlock b =>
    simp only [children, List.forall_mem_append, List.forall_mem_cons] at ih
    obtain ⟨⟨hname, hargs⟩, hprogram, -⟩ := ih
    exact partialBlock_back hname hargs hprogram
  | _ =>
    simp [ReadsBack, Statement.toJson, Statement.ofJson?, NodeKind.ofMembers?_tag, Json.string?]

/-- Every tree whose numbers fit into values comes back from its value as it was. -/
theorem read?_toJson {t : Tree} (h : t.Everywhere Portable) : t.kind.read? t.toJson = some t := by
  rw [← readsBack_iff]
  induction h with
  | @node t holds below ih =>
    cases t with
    | path p => exact Path.ofMembers?_members holds
    | expr e => exact expr_back holds ih
    | hashPair p => exact hashPair_back (ih _ (by simp [children]))
    | hash h => exact pairs_back fun p hp => ih _ (by simp [children, hp])
    | statement s => exact statement_back ih
    | program p => exact body_back fun s hs => ih _ (by simp [children, hs])

/-- `{{#@../größe 0.5}}🙂{{/@../größe}}`, with a chain mark on the body. -/
theorem read?_toJson_block :
    let here : Location := ⟨some "größe.hbs", ⟨1, 0⟩, ⟨1, 34⟩⟩
    let half : Expr := .number ⟨0x3fe0000000000000⟩ "0.5" here
    let body : Program := ⟨[.content "🙂" "🙂" here], some ["x"], {}, true, some here⟩
    let block : Block := ⟨⟨true, 1, ["größe"], "@../größe", here⟩, .empty, ⟨[half], none⟩,
      some body, none, ⟨true, false⟩, none, some {}, here⟩
    (statement (.block .plain block)).Everywhere Portable ∧
      Kind.statement.read? (statement (.block .plain block)).toJson =
        some (statement (.block .plain block)) := by
  intro here half body block
  have portable : (statement (.block .plain block)).Everywhere Portable := by
    have finite : Binary64.isFinite ⟨0x3fe0000000000000⟩ := by decide
    have param : (expr half).Everywhere Portable := (everywhere_leaf rfl).2 finite
    have text : (statement (.content "🙂" "🙂" here)).Everywhere Portable :=
      (everywhere_leaf rfl).2 trivial
    have program : (program body).Everywhere Portable :=
      everywhere_program.2 ⟨trivial, List.forall_mem_singleton.2 text⟩
    refine everywhere_block.2 ⟨trivial, (by decide : 1 < UInt64.size), ⟨?_, nofun⟩, ?_, nofun⟩
    · exact List.forall_mem_singleton.2 param
    · rintro p ⟨⟩
      exact program
  have back := read?_toJson portable
  exact ⟨portable, back⟩

end Tree

end TemplateTree
