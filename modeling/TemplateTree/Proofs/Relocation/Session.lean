import TemplateTree.Proofs.Relocation.Builder

/-! The locations of spans and of programs only ever end up as locations. When they are moved, every
step of a session has the result that it had before, moved in the same way. -/
namespace TemplateTree

variable {g : Location → Location}

/-! ### References -/

namespace Piece

theorem asPath?_relocate (piece : Piece) :
    (piece.relocate g).asPath? = piece.asPath?.map (·.relocate g) := by
  cases piece <;> rfl

theorem asExpr?_relocate (piece : Piece) :
    (piece.relocate g).asExpr? = piece.asExpr?.map (·.relocate g) := by
  cases piece <;> rfl

theorem asHashPair?_relocate (piece : Piece) :
    (piece.relocate g).asHashPair? = piece.asHashPair?.map (·.relocate g) := by
  cases piece <;> rfl

theorem asHash?_relocate (piece : Piece) :
    (piece.relocate g).asHash? = piece.asHash?.map (·.relocate g) := by
  cases piece <;> rfl

theorem asStatement?_relocate (piece : Piece) :
    (piece.relocate g).asStatement? = piece.asStatement?.map (·.relocate g) := by
  cases piece <;> rfl

theorem asProgram?_relocate (piece : Piece) :
    (piece.relocate g).asProgram? = piece.asProgram?.map (·.relocate g) := by
  cases piece <;> rfl

theorem asOpenTag?_relocate (piece : Piece) :
    (piece.relocate g).asOpenTag? = piece.asOpenTag?.map (·.relocate g) := by
  cases piece <;> rfl

theorem asCloseTag?_relocate (piece : Piece) :
    (piece.relocate g).asCloseTag? = piece.asCloseTag?.map (·.relocate g) := by
  cases piece <;> rfl

theorem asInverse?_relocate (piece : Piece) :
    (piece.relocate g).asInverse? = piece.asInverse?.map (·.relocate g) := by
  cases piece <;> rfl

end Piece

namespace History

variable {h : History}

section

variable {α : Type} {view : Piece → Option α} {k : α → α}
  (hview : ∀ piece : Piece, view (piece.relocate g) = (view piece).map k)
include hview

theorem get_relocate (ref : Ref) :
    (h.relocate g).get view ref = mapBoth (CallFault.relocate g) k (h.get view ref) := by
  unfold History.get History.relocate
  rw [List.getElem?_map]
  rcases h[ref]? with - | - | piece
  · rfl
  · rfl
  · simp only [Option.map_some, hview]
    cases view piece <;> rfl

theorem getOption_relocate (ref : Option Ref) :
    (h.relocate g).getOption view ref =
      mapBoth (CallFault.relocate g) (Option.map k) (h.getOption view ref) := by
  cases ref with
  | none => rfl
  | some ref =>
    simp only [History.getOption, get_relocate hview]
    cases h.get view ref <;> rfl

theorem getList_relocate (refs : List Ref) :
    (h.relocate g).getList view refs =
      mapBoth (CallFault.relocate g) (List.map k) (h.getList view refs) := by
  induction refs with
  | nil => rfl
  | cons ref refs ih =>
    refine mapBoth_bind (get_relocate hview ref) fun a => ?_
    refine mapBoth_bind ih fun as => ?_
    rfl

end

theorem getArguments_relocate (refs : ArgumentRefs) :
    (h.relocate g).getArguments refs =
      mapBoth (CallFault.relocate g) (Arguments.relocate g) (h.getArguments refs) := by
  refine mapBoth_bind (getList_relocate Piece.asExpr?_relocate _) fun params => ?_
  refine mapBoth_bind (getOption_relocate Piece.asHash?_relocate _) fun hash => ?_
  simp [pure, Except.pure, mapBoth, Arguments.relocate]

theorem getBlock_relocate (refs : BlockRefs) :
    (h.relocate g).getBlock refs =
      mapBoth (CallFault.relocate g) (WrittenBlock.relocate g) (h.getBlock refs) := by
  refine mapBoth_bind (get_relocate Piece.asOpenTag?_relocate _) fun opening => ?_
  refine mapBoth_bind (get_relocate Piece.asProgram?_relocate _) fun body => ?_
  refine mapBoth_bind (getOption_relocate Piece.asInverse?_relocate _) fun inverse => ?_
  refine mapBoth_bind (getOption_relocate Piece.asCloseTag?_relocate _) fun closing => ?_
  rfl

end History

/-! ### Calls and sessions -/

variable {b : Builder} {h : History}

theorem CallFault.ofBuild_relocate {α α' : Type} {k : α → α'} {built : Except BuildError α}
    {built' : Except BuildError α'} (same : built' = mapBoth (BuildError.relocate g) k built) :
    CallFault.ofBuild built' = mapBoth (CallFault.relocate g) k (CallFault.ofBuild built) := by
  subst same
  cases built <;> rfl

open History in
/-- A call whose arguments have been moved has its result moved. -/
theorem Call.perform_relocate (hg : Location.RespectsMerge g) (c : Call) :
    (c.relocate g).perform (b.relocate g) (h.relocate g) =
      mapBoth (CallFault.relocate g) (Piece.relocate g) (c.perform b h) := by
  cases c with
  | path data segments span =>
    refine mapBoth_bind (CallFault.ofBuild_relocate (b.path_relocate ..)) fun p => ?_
    rfl
  | string | boolean | undefined | null | content | comment => rfl
  | number text span =>
    refine mapBoth_bind (CallFault.ofBuild_relocate (b.number_relocate ..)) fun e => ?_
    rfl
  | call callee args span =>
    refine mapBoth_bind (get_relocate Piece.asExpr?_relocate _) fun callee => ?_
    refine mapBoth_bind (getArguments_relocate _) fun args => ?_
    rfl
  | hashPair key value span =>
    refine mapBoth_bind (get_relocate Piece.asExpr?_relocate _) fun value => ?_
    rfl
  | hash pairs span =>
    refine mapBoth_bind (getList_relocate Piece.asHashPair?_relocate _) fun pairs => ?_
    rw [Builder.hash_relocate]
    rfl
  | mustache callee args opening strip span =>
    refine mapBoth_bind (get_relocate Piece.asExpr?_relocate _) fun callee => ?_
    refine mapBoth_bind (getArguments_relocate _) fun args => ?_
    rw [Builder.mustache_relocate]
    rfl
  | partialTag name args opening closing span =>
    refine mapBoth_bind (get_relocate Piece.asExpr?_relocate _) fun name => ?_
    refine mapBoth_bind (getArguments_relocate _) fun args => ?_
    rfl
  | program body loc =>
    refine mapBoth_bind (getList_relocate Piece.asStatement?_relocate _) fun body => ?_
    rw [← Program.ofBody_relocate hg]
    rfl
  | openTag path opening args strip blockParams =>
    refine mapBoth_bind (get_relocate Piece.asPath?_relocate _) fun path => ?_
    refine mapBoth_bind (getArguments_relocate _) fun args => ?_
    rfl
  | rawOpenTag path args =>
    refine mapBoth_bind (get_relocate Piece.asPath?_relocate _) fun path => ?_
    refine mapBoth_bind (getArguments_relocate _) fun args => ?_
    rfl
  | closeTag path strip =>
    refine mapBoth_bind (getOption_relocate Piece.asPath?_relocate _) fun path => ?_
    rfl
  | elseTag tag body =>
    refine mapBoth_bind (get_relocate Piece.asProgram?_relocate _) fun body => ?_
    rfl
  | inverse body strip chain =>
    refine mapBoth_bind (get_relocate Piece.asProgram?_relocate _) fun body => ?_
    rfl
  | chainLink named opening body next span =>
    refine mapBoth_bind (get_relocate Piece.asOpenTag?_relocate _) fun opening => ?_
    refine mapBoth_bind (get_relocate Piece.asProgram?_relocate _) fun body => ?_
    refine mapBoth_bind (getOption_relocate Piece.asInverse?_relocate _) fun next => ?_
    refine mapBoth_bind (CallFault.ofBuild_relocate (b.chainLink_relocate hg ..)) fun i => ?_
    rfl
  | block refs =>
    refine mapBoth_bind (getBlock_relocate _) fun w => ?_
    refine mapBoth_bind (CallFault.ofBuild_relocate (b.block_relocate w)) fun s => ?_
    rfl
  | namedBlockSlot refs =>
    refine mapBoth_bind (getBlock_relocate _) fun w => ?_
    refine mapBoth_bind (CallFault.ofBuild_relocate (b.namedBlockSlot_relocate w)) fun s => ?_
    rfl
  | rawBlock opening contents closed span =>
    refine mapBoth_bind (get_relocate Piece.asOpenTag?_relocate _) fun opening => ?_
    refine mapBoth_bind (getList_relocate Piece.asStatement?_relocate _) fun contents => ?_
    refine mapBoth_bind (CallFault.ofBuild_relocate (b.rawBlock_relocate hg ..)) fun s => ?_
    rfl
  | partialBlock opening body closing span =>
    refine mapBoth_bind (get_relocate Piece.asOpenTag?_relocate _) fun opening => ?_
    refine mapBoth_bind (get_relocate Piece.asProgram?_relocate _) fun body => ?_
    refine mapBoth_bind (get_relocate Piece.asCloseTag?_relocate _) fun closing => ?_
    refine mapBoth_bind (CallFault.ofBuild_relocate (b.partialBlock_relocate ..)) fun s => ?_
    rfl

/-- The result of a call with all its locations moved, be it a piece or a fault. -/
def relocateResult (g : Location → Location) :
    Except CallFault Piece → Except CallFault Piece :=
  mapBoth (CallFault.relocate g) (Piece.relocate g)

theorem History.relocate_append (result : Except CallFault Piece) :
    (h ++ [result.toOption]).relocate g = h.relocate g ++ [(relocateResult g result).toOption] := by
  cases result <;> simp [History.relocate, relocateResult, mapBoth, Except.toOption]

namespace Builder

theorem results_relocate_after (hg : Location.RespectsMerge g) (calls : List Call) :
    (b.relocate g).results (h.relocate g) (calls.map (·.relocate g)) =
      (b.results h calls).map (relocateResult g) := by
  induction calls generalizing h with
  | nil => rfl
  | cons c rest ih =>
    have step : (c.relocate g).perform (b.relocate g) (h.relocate g) =
        relocateResult g (c.perform b h) := c.perform_relocate hg
    simp only [List.map_cons, results, step, ← History.relocate_append, ih]

/-- Moving the locations of spans and of programs moves the results of a session. -/
theorem results_relocate (hg : Location.RespectsMerge g) (calls : List Call) :
    (b.relocate g).results [] (calls.map (·.relocate g)) =
      (b.results [] calls).map (relocateResult g) :=
  b.results_relocate_after (h := []) hg calls

/-- With all locations blotted out, a session has the same results wherever the locations have
been moved: the sessions that are moved to one place are one session. -/
theorem results_relocate_const (calls : List Call) (l : Location) :
    ((b.relocate g).results [] (calls.map (·.relocate g))).map (relocateResult fun _ => l) =
      (b.results [] calls).map (relocateResult fun _ => l) := by
  have blotted (c : Call) : (c.relocate g).relocate (fun _ => l) = c.relocate fun _ => l := by
    cases c <;> simp [Call.relocate, Function.comp_def]
  have sameCalls : (calls.map (·.relocate g)).map (·.relocate fun _ => l) =
      calls.map (·.relocate fun _ => l) := by
    simp only [List.map_map, Function.comp_def, blotted]
  calc ((b.relocate g).results [] (calls.map (·.relocate g))).map (relocateResult fun _ => l)
    _ = ((b.relocate g).relocate fun _ => l).results []
          ((calls.map (·.relocate g)).map (·.relocate fun _ => l)) :=
        (results_relocate (Location.respectsMerge_const l) _).symm
    _ = (b.relocate fun _ => l).results [] (calls.map (·.relocate fun _ => l)) := by
        rw [sameCalls]
        rfl
    _ = (b.results [] calls).map (relocateResult fun _ => l) :=
        results_relocate (Location.respectsMerge_const l) calls

/-- How spans are located decides the locations of a session and nothing else. A move that respects
ranges, as renaming the template and moving by lines and columns does, moves the results, faults
included; and whatever the move is, what remains of the results without their locations is the
same. -/
theorem results_located (b : Builder) (calls : List Call) :
    (∀ g, Location.RespectsMerge g → (b.relocate g).results [] (calls.map (·.relocate g)) =
      (b.results [] calls).map (relocateResult g)) ∧
    (∀ g l, ((b.relocate g).results [] (calls.map (·.relocate g))).map (relocateResult fun _ => l) =
      (b.results [] calls).map (relocateResult fun _ => l)) ∧
    (∀ (rename : Option String → Option String) lines columns mark, Location.RespectsMerge fun l =>
      { l.shift lines columns mark with source := rename l.source }) ∧
    ∀ l, Location.RespectsMerge fun _ => l := by
  refine ⟨?_, ?_, Location.respectsMerge_shift, Location.respectsMerge_const⟩
  · intro g hg
    exact results_relocate hg calls
  · intro g l
    exact results_relocate_const calls l

/-- A block between two texts, closed once by its own name and once by another: the program and the
fault are found ten lines further down, in the template that the move names. -/
theorem results_located_list :
    let g (l : Location) : Location := { l.shift 10 2 "" with source := some "page.hbs" }
    let span (line : UInt64) : Span := ⟨⟨line, 0⟩, ⟨line, 20⟩⟩
    let calls : List Call := [.path false [.ofToken none "list"] (span 2),
      .path false [.ofToken none "each"] (span 3), .openTag 0 "\x7b\x7b#" ⟨[], none⟩ {} none,
      .closeTag (some 0) {}, .closeTag (some 1) {}, .content "a" (span 1), .program [5] none,
      .block ⟨2, 6, none, some 3, false, span 2⟩, .block ⟨2, 6, none, some 4, false, span 2⟩,
      .content "b" (span 4), .program [5, 7, 9] none]
    let moved := ((ofOptions {}).relocate g).results [] (calls.map (·.relocate g))
    moved = ((ofOptions {}).results [] calls).map (relocateResult g) ∧
      (moved.any fun
        | .ok (.program p) => p.loc = some ⟨some "page.hbs", ⟨11, 2⟩, ⟨14, 22⟩⟩
        | _ => false) ∧
      moved.any fun
        | .error fault =>
          fault = .build (.tagMismatch "list" "each" ⟨some "page.hbs", ⟨12, 2⟩, ⟨12, 22⟩⟩)
        | _ => false := by
  intro g span calls moved
  have respects : Location.RespectsMerge g := Location.respectsMerge_shift (fun _ => _) 10 2 ""
  have hmoved := (results_located (ofOptions {}) calls).1 g respects
  exact ⟨hmoved, by decide, by decide⟩

end Builder

end TemplateTree
