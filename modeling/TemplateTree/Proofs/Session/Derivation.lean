import TemplateTree.Session.Call

/-! What a session builds, without the session. Every result of a session is made by one call from
results that were made before it, so what holds of all pieces that are made holds of all results,
whatever the calls and however they refer to each other. -/
namespace TemplateTree

/-- The piece is made by calls of the builder from pieces that are made by calls. There is one
rule for each call, and one for a path that serves as an expression. -/
inductive Made (b : Builder) : Piece → Prop where
  | path {data : Bool} {segments : List Segment} {span : Span} {p : Path}
    (ok : b.path data segments span = .ok p) : Made b (.path p)
  | pathExpr {p : Path} (made : Made b (.path p)) : Made b (.expr (.path p))
  | string (text : String) (span : Span) : Made b (.expr (b.string text span))
  | number {text : String} {span : Span} {e : Expr} (ok : b.number text span = .ok e) :
    Made b (.expr e)
  | boolean (text : String) (span : Span) : Made b (.expr (b.boolean text span))
  | undefined (span : Span) : Made b (.expr (b.undefined span))
  | null (span : Span) : Made b (.expr (b.null span))
  | call {callee : Expr} {args : Arguments} (span : Span) (callee_made : Made b (.expr callee))
    (params : ∀ e ∈ args.params, Made b (.expr e)) (hash : ∀ h ∈ args.hash, Made b (.hash h)) :
    Made b (.expr (b.call callee args span))
  | hashPair {value : Expr} (key : String) (span : Span) (value_made : Made b (.expr value)) :
    Made b (.hashPair (b.hashPair key value span))
  | hash {pairs : List HashPair} (span : Span) (made : ∀ p ∈ pairs, Made b (.hashPair p)) :
    Made b (.hash (b.hash pairs span))
  | content (text : String) (span : Span) : Made b (.statement (b.content text span))
  | comment (raw : String) (span : Span) : Made b (.statement (b.comment raw span))
  | mustache {callee : Expr} {args : Arguments} (opening : String) (strip : Strip) (span : Span)
    (callee_made : Made b (.expr callee)) (params : ∀ e ∈ args.params, Made b (.expr e))
    (hash : ∀ h ∈ args.hash, Made b (.hash h)) :
    Made b (.statement (b.mustache callee args opening strip span))
  | partialTag {name : Expr} {args : Arguments} (opening closing : String) (span : Span)
    (name_made : Made b (.expr name)) (params : ∀ e ∈ args.params, Made b (.expr e))
    (hash : ∀ h ∈ args.hash, Made b (.hash h)) :
    Made b (.statement (b.partialTag name args opening closing span))
  | program {body : List Statement} (loc : Option Location)
    (made : ∀ s ∈ body, Made b (.statement s)) : Made b (.program (.ofBody body loc))
  | openTag {tag : OpenTag} (path : Made b (.path tag.path))
    (params : ∀ e ∈ tag.args.params, Made b (.expr e))
    (hash : ∀ h ∈ tag.args.hash, Made b (.hash h)) : Made b (.openTag tag)
  | closeTag {tag : CloseTag} (path : ∀ p ∈ tag.path, Made b (.path p)) : Made b (.closeTag tag)
  | inverse {i : Inverse} (program : Made b (.program i.program)) : Made b (.inverse i)
  | chainLink {named : Bool} {opening : OpenTag} {body : Program} {next : Option Inverse}
    {span : Span} {i : Inverse} (opening_made : Made b (.openTag opening))
    (body_made : Made b (.program body)) (next_made : ∀ n ∈ next, Made b (.inverse n))
    (ok : b.chainLink named opening body next span = .ok i) : Made b (.inverse i)
  | block {w : WrittenBlock} {s : Statement} (opening : Made b (.openTag w.opening))
    (body : Made b (.program w.body)) (inverse : ∀ i ∈ w.inverse, Made b (.inverse i))
    (closing : ∀ c ∈ w.closing, Made b (.closeTag c)) (ok : b.block w = .ok s) :
    Made b (.statement s)
  | namedBlockSlot {w : WrittenBlock} {s : Statement} (opening : Made b (.openTag w.opening))
    (body : Made b (.program w.body)) (inverse : ∀ i ∈ w.inverse, Made b (.inverse i))
    (closing : ∀ c ∈ w.closing, Made b (.closeTag c)) (ok : b.namedBlockSlot w = .ok s) :
    Made b (.statement s)
  | rawBlock {opening : OpenTag} {contents : List Statement} {closed : String} {span : Span}
    {s : Statement} (opening_made : Made b (.openTag opening))
    (contents_made : ∀ c ∈ contents, Made b (.statement c))
    (ok : b.rawBlock opening contents closed span = .ok s) : Made b (.statement s)
  | partialBlock {opening : OpenTag} {body : Program} {closing : CloseTag} {span : Span}
    {s : Statement} (opening_made : Made b (.openTag opening))
    (body_made : Made b (.program body)) (closing_made : Made b (.closeTag closing))
    (ok : b.partialBlock opening body closing span = .ok s) : Made b (.statement s)

/-! ### What references stand for -/

theorem bind_eq_ok_iff {ε α β : Type} {x : Except ε α} {f : α → Except ε β} {r : β} :
    (x >>= f) = .ok r ↔ ∃ a, x = .ok a ∧ f a = .ok r := by
  cases x with
  | error e => simp [bind, Except.bind]
  | ok a => simp [bind, Except.bind]

theorem CallFault.ofBuild_eq_ok_iff {α : Type} {built : Except BuildError α} {a : α} :
    CallFault.ofBuild built = .ok a ↔ built = .ok a := by
  cases built with
  | error e =>
    have failed : ofBuild (.error e : Except BuildError α) = .error (.build e) := rfl
    simp [failed]
  | ok x =>
    have built : ofBuild (.ok x) = .ok x := rfl
    simp [built]

theorem toOption_eq_some_iff {ε α : Type} {x : Except ε α} {a : α} :
    x.toOption = some a ↔ x = .ok a := by
  cases x <;> simp [Except.toOption]

namespace History

/-- A property of all pieces of a history goes on if the next result has it, should there be one. -/
theorem forall_append {h : History} {Q : Piece → Prop} (holds : ∀ piece, some piece ∈ h → Q piece)
    {result : Except CallFault Piece} (hresult : ∀ piece, result = .ok piece → Q piece) :
    ∀ piece, some piece ∈ h ++ [result.toOption] → Q piece := by
  intro piece hpiece
  rcases List.mem_append.1 hpiece with hpiece | hpiece
  · exact holds piece hpiece
  · have hok : result.toOption = some piece := (List.mem_singleton.1 hpiece).symm
    exact hresult piece (toOption_eq_some_iff.1 hok)

variable {α : Type} {h : History} {view : Piece → Option α} {Q : α → Prop}

/-- Everything that a history can be viewed as has the property. -/
def Views (h : History) (view : Piece → Option α) (Q : α → Prop) : Prop :=
  ∀ piece, some piece ∈ h → ∀ a, view piece = some a → Q a

theorem Views.get (hv : h.Views view Q) {ref : Ref} {a : α} (ok : h.get view ref = .ok a) :
    Q a := by
  unfold History.get at ok
  split at ok
  · rename_i piece hpiece
    have hmem : some piece ∈ h := List.mem_of_getElem? hpiece
    cases hview : view piece with
    | none => simp [hview] at ok
    | some a' =>
      obtain rfl : a' = a := by simpa [hview] using ok
      exact hv piece hmem a' hview
  · cases ok

theorem Views.getOption (hv : h.Views view Q) {ref : Option Ref} {a : Option α}
    (ok : h.getOption view ref = .ok a) : ∀ x ∈ a, Q x := by
  cases ref with
  | none =>
    obtain rfl : none = a := by simpa [History.getOption] using ok
    simp
  | some ref =>
    cases hget : h.get view ref with
    | error e => simp [History.getOption, hget, Except.map] at ok
    | ok x =>
      obtain rfl : some x = a := by simpa [History.getOption, hget, Except.map] using ok
      rintro _ ⟨⟩
      exact hv.get hget

theorem Views.getList (hv : h.Views view Q) {refs : List Ref} {as : List α}
    (ok : h.getList view refs = .ok as) : ∀ x ∈ as, Q x := by
  induction refs generalizing as with
  | nil =>
    obtain rfl : [] = as := by simpa [History.getList] using ok
    simp
  | cons ref refs ih =>
    obtain ⟨x, hx, ok⟩ := bind_eq_ok_iff.1 ok
    obtain ⟨rest, hrest, ok⟩ := bind_eq_ok_iff.1 ok
    obtain rfl : x :: rest = as := by simpa [pure, Except.pure] using ok
    intro y hy
    rcases List.mem_cons.1 hy with rfl | hy
    · exact hv.get hx
    · exact ih hrest y hy

/-- The parts of a written block are what its references stand for. -/
theorem getBlock_eq_ok {refs : BlockRefs} {w : WrittenBlock} (ok : h.getBlock refs = .ok w) :
    h.get Piece.asOpenTag? refs.opening = .ok w.opening ∧
      h.get Piece.asProgram? refs.body = .ok w.body ∧
      h.getOption Piece.asInverse? refs.inverse = .ok w.inverse ∧
      h.getOption Piece.asCloseTag? refs.closing = .ok w.closing := by
  obtain ⟨opening, hopening, ok⟩ := bind_eq_ok_iff.1 ok
  obtain ⟨body, hbody, ok⟩ := bind_eq_ok_iff.1 ok
  obtain ⟨inverse, hinverse, ok⟩ := bind_eq_ok_iff.1 ok
  obtain ⟨closing, hclosing, ok⟩ := bind_eq_ok_iff.1 ok
  obtain rfl : ⟨opening, body, inverse, closing, refs.inverted, refs.span⟩ = w := by
    simpa [pure, Except.pure] using ok
  exact ⟨hopening, hbody, hinverse, hclosing⟩

/-- Every result in the history is made by calls of the builder. -/
def AllMade (b : Builder) (h : History) : Prop := ∀ piece, some piece ∈ h → Made b piece

namespace AllMade

variable {b : Builder} (made : h.AllMade b)
include made

/-- A view that only takes pieces apart shows what was made. -/
theorem views {inject : α → Piece} (hview : ∀ piece a, view piece = some a → piece = inject a) :
    h.Views view fun a => Made b (inject a) := by
  intro piece hpiece a ha
  have hinject := hview piece a ha
  rw [← hinject]
  exact made piece hpiece

theorem paths : h.Views Piece.asPath? fun p => Made b (.path p) := by
  apply made.views
  intro piece p hview
  cases piece <;> simp_all [Piece.asPath?]

theorem exprs : h.Views Piece.asExpr? fun e => Made b (.expr e) := by
  intro piece hpiece e hview
  have piece_made := made piece hpiece
  cases piece with
  | path p =>
    obtain rfl : Expr.path p = e := Option.some.inj hview
    exact .pathExpr piece_made
  | expr e' =>
    obtain rfl : e' = e := Option.some.inj hview
    exact piece_made
  | _ => cases hview

theorem hashPairs : h.Views Piece.asHashPair? fun p => Made b (.hashPair p) := by
  apply made.views
  intro piece p hview
  cases piece <;> simp_all [Piece.asHashPair?]

theorem hashes : h.Views Piece.asHash? fun x => Made b (.hash x) := by
  apply made.views
  intro piece x hview
  cases piece <;> simp_all [Piece.asHash?]

theorem statements : h.Views Piece.asStatement? fun s => Made b (.statement s) := by
  apply made.views
  intro piece s hview
  cases piece <;> simp_all [Piece.asStatement?]

theorem programs : h.Views Piece.asProgram? fun p => Made b (.program p) := by
  apply made.views
  intro piece p hview
  cases piece <;> simp_all [Piece.asProgram?]

theorem openTags : h.Views Piece.asOpenTag? fun tag => Made b (.openTag tag) := by
  apply made.views
  intro piece tag hview
  cases piece <;> simp_all [Piece.asOpenTag?]

theorem closeTags : h.Views Piece.asCloseTag? fun tag => Made b (.closeTag tag) := by
  apply made.views
  intro piece tag hview
  cases piece <;> simp_all [Piece.asCloseTag?]

theorem inverses : h.Views Piece.asInverse? fun i => Made b (.inverse i) := by
  apply made.views
  intro piece i hview
  cases piece <;> simp_all [Piece.asInverse?]

theorem arguments {refs : ArgumentRefs} {args : Arguments} (ok : h.getArguments refs = .ok args) :
    (∀ e ∈ args.params, Made b (.expr e)) ∧ ∀ x ∈ args.hash, Made b (.hash x) := by
  obtain ⟨params, hparams, ok⟩ := bind_eq_ok_iff.1 ok
  obtain ⟨hash, hhash, ok⟩ := bind_eq_ok_iff.1 ok
  obtain rfl : ⟨params, hash⟩ = args := by simpa [pure, Except.pure] using ok
  have params_made := made.exprs.getList hparams
  have hash_made := made.hashes.getOption hhash
  exact ⟨params_made, hash_made⟩

theorem writtenBlock {refs : BlockRefs} {w : WrittenBlock} (ok : h.getBlock refs = .ok w) :
    Made b (.openTag w.opening) ∧ Made b (.program w.body) ∧
      (∀ i ∈ w.inverse, Made b (.inverse i)) ∧ ∀ c ∈ w.closing, Made b (.closeTag c) := by
  obtain ⟨hopening, hbody, hinverse, hclosing⟩ := getBlock_eq_ok ok
  have opening_made := made.openTags.get hopening
  have body_made := made.programs.get hbody
  have inverse_made := made.inverses.getOption hinverse
  have closing_made := made.closeTags.getOption hclosing
  exact ⟨opening_made, body_made, inverse_made, closing_made⟩

end AllMade

end History

/-! ### Calls and sessions -/

variable {b : Builder}

/-- One call makes its result from results of earlier calls. -/
theorem Call.perform_made {h : History} (made : h.AllMade b) {c : Call} {piece : Piece}
    (ok : c.perform b h = .ok piece) : Made b piece := by
  cases c <;> simp only [Call.perform, bind_eq_ok_iff, CallFault.ofBuild_eq_ok_iff, pure,
    Except.pure, Except.ok.injEq] at ok
  case path =>
    obtain ⟨p, hp, rfl⟩ := ok
    exact .path hp
  case string text span => exact ok ▸ .string text span
  case number =>
    obtain ⟨e, he, rfl⟩ := ok
    exact .number he
  case boolean text span => exact ok ▸ .boolean text span
  case undefined span => exact ok ▸ .undefined span
  case null span => exact ok ▸ .null span
  case call span =>
    obtain ⟨callee, hcallee, args, hargs, rfl⟩ := ok
    have callee_made := made.exprs.get hcallee
    obtain ⟨params, hash⟩ := made.arguments hargs
    exact .call span callee_made params hash
  case hashPair key _ span =>
    obtain ⟨value, hvalue, rfl⟩ := ok
    have value_made := made.exprs.get hvalue
    exact .hashPair key span value_made
  case hash span =>
    obtain ⟨pairs, hpairs, rfl⟩ := ok
    have pairs_made := made.hashPairs.getList hpairs
    exact .hash span pairs_made
  case content text span => exact ok ▸ .content text span
  case comment raw span => exact ok ▸ .comment raw span
  case mustache opening strip span =>
    obtain ⟨callee, hcallee, args, hargs, rfl⟩ := ok
    have callee_made := made.exprs.get hcallee
    obtain ⟨params, hash⟩ := made.arguments hargs
    exact .mustache opening strip span callee_made params hash
  case partialTag opening closing span =>
    obtain ⟨name, hname, args, hargs, rfl⟩ := ok
    have name_made := made.exprs.get hname
    obtain ⟨params, hash⟩ := made.arguments hargs
    exact .partialTag opening closing span name_made params hash
  case program loc =>
    obtain ⟨body, hbody, rfl⟩ := ok
    have body_made := made.statements.getList hbody
    exact .program loc body_made
  case openTag =>
    obtain ⟨target, htarget, args, hargs, rfl⟩ := ok
    have target_made := made.paths.get htarget
    obtain ⟨params, hash⟩ := made.arguments hargs
    exact .openTag target_made params hash
  case rawOpenTag =>
    obtain ⟨target, htarget, args, hargs, rfl⟩ := ok
    have target_made := made.paths.get htarget
    obtain ⟨params, hash⟩ := made.arguments hargs
    exact .openTag target_made params hash
  case closeTag =>
    obtain ⟨target, htarget, rfl⟩ := ok
    have target_made := made.paths.getOption htarget
    exact .closeTag target_made
  case elseTag =>
    obtain ⟨body, hbody, rfl⟩ := ok
    have body_made := made.programs.get hbody
    exact .inverse body_made
  case inverse =>
    obtain ⟨body, hbody, rfl⟩ := ok
    have body_made := made.programs.get hbody
    exact .inverse body_made
  case chainLink =>
    obtain ⟨opening, hopening, body, hbody, next, hnext, i, hi, rfl⟩ := ok
    have opening_made := made.openTags.get hopening
    have body_made := made.programs.get hbody
    have next_made := made.inverses.getOption hnext
    exact .chainLink opening_made body_made next_made hi
  case block =>
    obtain ⟨w, hw, s, hs, rfl⟩ := ok
    obtain ⟨opening, body, inverse, closing⟩ := made.writtenBlock hw
    exact .block opening body inverse closing hs
  case namedBlockSlot =>
    obtain ⟨w, hw, s, hs, rfl⟩ := ok
    obtain ⟨opening, body, inverse, closing⟩ := made.writtenBlock hw
    exact .namedBlockSlot opening body inverse closing hs
  case rawBlock =>
    obtain ⟨opening, hopening, contents, hcontents, s, hs, rfl⟩ := ok
    have opening_made := made.openTags.get hopening
    have contents_made := made.statements.getList hcontents
    exact .rawBlock opening_made contents_made hs
  case partialBlock =>
    obtain ⟨opening, hopening, body, hbody, closing, hclosing, s, hs, rfl⟩ := ok
    have opening_made := made.openTags.get hopening
    have body_made := made.programs.get hbody
    have closing_made := made.closeTags.get hclosing
    exact .partialBlock opening_made body_made closing_made hs

theorem History.AllMade.append {h : History} (made : h.AllMade b)
    {result : Except CallFault Piece} (hresult : ∀ piece, result = .ok piece → Made b piece) :
    History.AllMade b (h ++ [result.toOption]) :=
  History.forall_append made hresult

theorem Builder.results_made_after {h : History} (made : h.AllMade b) (calls : List Call)
    {piece : Piece} (hpiece : .ok piece ∈ b.results h calls) : Made b piece := by
  induction calls generalizing h with
  | nil => cases hpiece
  | cons c rest ih =>
    have hresult : ∀ p, c.perform b h = .ok p → Made b p := fun p hp => Call.perform_made made hp
    rcases List.mem_cons.1 hpiece with hpiece | hpiece
    · exact hresult piece hpiece.symm
    · exact ih (made.append hresult) hpiece

/-- Every result of a session is made by calls of the builder. -/
theorem Builder.results_made {calls : List Call} {piece : Piece}
    (hpiece : .ok piece ∈ b.results [] calls) : Made b piece :=
  b.results_made_after (h := []) nofun calls hpiece

end TemplateTree
