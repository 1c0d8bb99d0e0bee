import TemplateTree.Builder
import TemplateTree.Session.History

/-! Sessions: sequences of calls of a builder, whose arguments are texts, spans, marks and the
results of earlier calls. -/
namespace TemplateTree

structure ArgumentRefs where
  params : List Ref
  hash : Option Ref

structure BlockRefs where
  opening : Ref
  body : Ref
  inverse : Option Ref
  closing : Option Ref
  inverted : Bool
  span : Span

inductive Call where
  | path (data : Bool) (segments : List Segment) (span : Span)
  | string (text : String) (span : Span)
  | number (text : String) (span : Span)
  | boolean (text : String) (span : Span)
  | undefined (span : Span)
  | null (span : Span)
  | call (callee : Ref) (args : ArgumentRefs) (span : Span)
  | hashPair (key : String) (value : Ref) (span : Span)
  | hash (pairs : List Ref) (span : Span)
  | content (text : String) (span : Span)
  | comment (raw : String) (span : Span)
  | mustache (path : Ref) (args : ArgumentRefs) (opening : String) (strip : Strip) (span : Span)
  | partialTag (name : Ref) (args : ArgumentRefs) (opening closing : String) (span : Span)
  | program (body : List Ref) (loc : Option Location)
  | openTag (path : Ref) (opening : String) (args : ArgumentRefs) (strip : Strip)
    (blockParams : Option (List String))
  | rawOpenTag (path : Ref) (args : ArgumentRefs)
  | closeTag (path : Option Ref) (strip : Strip)
  | elseTag (tag : String) (program : Ref)
  /-- An else branch put together by hand. -/
  | inverse (program : Ref) (strip : Strip) (chain : Bool)
  | chainLink (named : Bool) (opening body : Ref) (next : Option Ref) (span : Span)
  | block (block : BlockRefs)
  | namedBlockSlot (block : BlockRefs)
  | rawBlock (opening : Ref) (contents : List Ref) (closed : String) (span : Span)
  | partialBlock (opening body closing : Ref) (span : Span)

namespace History

def getArguments (h : History) (args : ArgumentRefs) : Except CallFault Arguments := do
  let params ← h.getList Piece.asExpr? args.params
  let hash ← h.getOption Piece.asHash? args.hash
  return ⟨params, hash⟩

def getBlock (h : History) (block : BlockRefs) : Except CallFault WrittenBlock := do
  let opening ← h.get Piece.asOpenTag? block.opening
  let body ← h.get Piece.asProgram? block.body
  let inverse ← h.getOption Piece.asInverse? block.inverse
  let closing ← h.getOption Piece.asCloseTag? block.closing
  return ⟨opening, body, inverse, closing, block.inverted, block.span⟩

end History

def CallFault.ofBuild {α : Type} (built : Except BuildError α) : Except CallFault α :=
  built.mapError .build

/-- Performs one call after the calls of a history. Faults of references come before faults of
the node. -/
def Call.perform (b : Builder) (h : History) : Call → Except CallFault Piece
  | .path data segments span => do
    return .path (← CallFault.ofBuild (b.path data segments span))
  | .string text span => .ok (.expr (b.string text span))
  | .number text span => do return .expr (← CallFault.ofBuild (b.number text span))
  | .boolean text span => .ok (.expr (b.boolean text span))
  | .undefined span => .ok (.expr (b.undefined span))
  | .null span => .ok (.expr (b.null span))
  | .call callee args span => do
    let callee ← h.get Piece.asExpr? callee
    let args ← h.getArguments args
    return .expr (b.call callee args span)
  | .hashPair key value span => do
    let value ← h.get Piece.asExpr? value
    return .hashPair (b.hashPair key value span)
  | .hash pairs span => do
    let pairs ← h.getList Piece.asHashPair? pairs
    return .hash (b.hash pairs span)
  | .content text span => .ok (.statement (b.content text span))
  | .comment raw span => .ok (.statement (b.comment raw span))
  | .mustache callee args opening strip span => do
    let callee ← h.get Piece.asExpr? callee
    let args ← h.getArguments args
    return .statement (b.mustache callee args opening strip span)
  | .partialTag name args opening closing span => do
    let name ← h.get Piece.asExpr? name
    let args ← h.getArguments args
    return .statement (b.partialTag name args opening closing span)
  | .program body loc => do
    let body ← h.getList Piece.asStatement? body
    return .program (.ofBody body loc)
  | .openTag target opening args strip blockParams => do
    let target ← h.get Piece.asPath? target
    let args ← h.getArguments args
    return .openTag ⟨target, args, blockParams, strip, opening⟩
  | .rawOpenTag target args => do
    let target ← h.get Piece.asPath? target
    let args ← h.getArguments args
    return .openTag (.raw target args)
  | .closeTag target strip => do
    let target ← h.getOption Piece.asPath? target
    return .closeTag ⟨target, strip⟩
  | .elseTag tag body => do
    let body ← h.get Piece.asProgram? body
    return .inverse (.ofTag tag body)
  | .inverse body strip chain => do
    let body ← h.get Piece.asProgram? body
    return .inverse ⟨body, strip, chain⟩
  | .chainLink named opening body next span => do
    let opening ← h.get Piece.asOpenTag? opening
    let body ← h.get Piece.asProgram? body
    let next ← h.getOption Piece.asInverse? next
    return .inverse (← CallFault.ofBuild (b.chainLink named opening body next span))
  | .block refs => do
    let written ← h.getBlock refs
    return .statement (← CallFault.ofBuild (b.block written))
  | .namedBlockSlot refs => do
    let written ← h.getBlock refs
    return .statement (← CallFault.ofBuild (b.namedBlockSlot written))
  | .rawBlock opening contents closed span => do
    let opening ← h.get Piece.asOpenTag? opening
    let contents ← h.getList Piece.asStatement? contents
    return .statement (← CallFault.ofBuild (b.rawBlock opening contents closed span))
  | .partialBlock opening body closing span => do
    let opening ← h.get Piece.asOpenTag? opening
    let body ← h.get Piece.asProgram? body
    let closing ← h.get Piece.asCloseTag? closing
    return .statement (← CallFault.ofBuild (b.partialBlock opening body closing span))

/-- The results of calls in order, after the calls of a history. -/
def Builder.results (b : Builder) (h : History) : List Call → List (Except CallFault Piece)
  | [] => []
  | c :: rest =>
    let result := c.perform b h
    result :: b.results (h ++ [result.toOption]) rest

end TemplateTree
