import Flowchart.Proofs.Calls
import Flowchart.Proofs.Coverage
/-! Markers stand for what has no code. A block of an unknown kind leaves its marker wherever it is met, except at the
head of a loop, where only the statements of the known kinds are kept. In code without markers every other block that
can be reached is translated. -/
namespace Flowchart

namespace Code

mutual
theorem Stmt.unsupportedCount_eq (s : Stmt) :
    s.unsupportedCount = (if s.isMarker then 1 else 0) + s.inner.countP Stmt.isMarker := by
  cases s with
  | program _ body => simp [unsupportedCount, isMarker, inner, Stmt.unsupportedCounts_eq body]
  | branch _ _ body orElse =>
    simp [unsupportedCount, isMarker, inner, Stmt.unsupportedCounts_eq body, Stmt.unsupportedElse_eq orElse]
  | loop _ _ body => simp [unsupportedCount, isMarker, inner, Stmt.unsupportedCounts_eq body]
  | _ => simp [unsupportedCount, isMarker, inner]
/-- The count of what has no code is that of the markers at any depth. -/
theorem Stmt.unsupportedCounts_eq (stmts : List Stmt) :
    Stmt.unsupportedCounts stmts = (Stmt.every stmts).countP Stmt.isMarker := by
  cases stmts with
  | nil => simp [unsupportedCounts, every]
  | cons s rest =>
    rw [unsupportedCounts, every, List.countP_cons, List.countP_append, Stmt.unsupportedCount_eq s,
      Stmt.unsupportedCounts_eq rest]
    omega
theorem Stmt.unsupportedElse_eq (orElse : Option (List Stmt)) :
    Stmt.unsupportedElse orElse = (Stmt.everyElse orElse).countP Stmt.isMarker := by
  cases orElse with
  | none => simp [unsupportedElse, everyElse]
  | some body => rw [unsupportedElse, everyElse, Stmt.unsupportedCounts_eq body]
end

end Code

theorem Compiled.not_isMarker {c : Compiled} (none : c.program.unsupportedCount = 0) :
    ∀ s ∈ Code.Stmt.every c.stmts, s.isMarker = false := by
  rw [program, Code.Stmt.unsupportedCount, Code.Stmt.unsupportedCounts_eq, List.countP_eq_zero] at none
  exact fun s member => Bool.eq_false_iff.2 (none s member)

/-- The code translates a block: it is of a known kind, its statements stand in the code and none is a marker, and a
conditional has a test, which is asked. -/
structure Plan.Translates (p : Plan) (b : Block) (stmts : List Code.Stmt) : Prop where
  known : b.content.isKnown = true
  own : ∀ s ∈ p.blockStmts b, s.isAction = true ∧ s ∈ Code.Stmt.every stmts
  asked : b.content.isBranching = true →
    (∃ test, Code.exprOf (p.origin b.id) (Code.testElements b.content) = .ok test) ∧
      ∃ s ∈ Code.Stmt.every stmts, p.Asks b s

/-- A block that is shown without markers is translated, if its kind is known. -/
theorem FlowGraph.Shows.translates {g : FlowGraph} {b : Block} {stmts : List Code.Stmt} (shows : g.Shows b stmts)
    (known : b.content.isKnown = true) (none : ∀ s ∈ Code.Stmt.every stmts, s.isMarker = false) :
    g.plan.Translates b stmts := by
  refine ⟨known, fun s own => ⟨?_, shows.block s own⟩, fun branching => ⟨?_, shows.asks branching⟩⟩
  · have flat := Interpretation.blockStmts_plain _ _ s own
    exact flat.resolve_right (by simp [none s (shows.block s own)])
  · cases made : Code.exprOf (g.plan.origin b.id) (Code.testElements b.content) with
    | ok test => exact ⟨test, rfl⟩
    | error marker =>
      have mark : marker ∈ (Code.test (g.plan.origin b.id) b.content).1 := by simp [Code.test, made]
      have marked := Interpretation.test_marks _ _ marker mark
      rw [none marker (shows.marks branching marker mark)] at marked
      cases marked

/-- The start block is of a known kind. -/
theorem FlowGraph.known_of_start {g : FlowGraph} {b : Block} (first : g.start? = some b.id) (listed : b ∈ g.blocks) :
    b.content.isKnown = true := by
  obtain ⟨start, member, same⟩ := List.mem_map.1 (List.mem_of_mem_head? first)
  obtain ⟨listed', starts⟩ := List.mem_filter.1 member
  cases block_eq listed' listed same
  cases content : b.content <;> simp_all [Content.isStart, Content.isKnown]

namespace Diagram
variable {d : Diagram} {start : String} {b : Block}

theorem shows_compile (first : d.flowGraph.start? = some start) (tidy : d.flowGraph.Tidy)
    (listed : b ∈ d.flowGraph.blocks) (live : d.flowGraph.Reachable b.id) : d.flowGraph.Shows b d.compile.stmts := by
  have shows := FlowGraph.shows_of_reachable tidy first listed live
  rcases compile_stmts first with is | ⟨empty, -⟩
  · rwa [is]
  · refine shows.within fun s member => ?_
    rw [empty] at member
    cases member

/-- No marker names a header of an unknown kind. -/
theorem not_marked_of_header (first : d.flowGraph.start? = some start) (tidy : d.flowGraph.Tidy)
    (listed : b ∈ d.flowGraph.blocks) (unknown : b.content.isKnown = false) {l : Loop}
    (member : l ∈ d.flowGraph.loops (.ofGraph d.flowGraph)) (header : l.header = b.id) (reason : String) :
    .unsupported (d.flowGraph.plan.origin b.id) reason ∉ Code.Stmt.every d.compile.stmts := by
  intro marked
  have live := FlowGraph.Reachable.of_start first
  rcases compile_stmts first with is | ⟨-, is⟩
  · rw [is] at marked
    obtain ⟨b', listed', -, makes, plain⟩ :=
      (tidy.lowers [] [] none start live (by simp)).made live.live _ marked
    have same : b = b' := FlowGraph.block_eq listed listed' (Plan.origin_inj makes.origin)
    subst same
    exact plain unknown rfl l member header
  · rw [is, Code.Stmt.every_of_flat (by simp [Code.Stmt.isMarker]), List.mem_singleton] at marked
    have same : b.id = start := Plan.origin_inj (Code.Stmt.unsupported.inj marked).1
    rw [FlowGraph.known_of_start (same ▸ first) listed] at unknown
    cases unknown

theorem origin_of_mem (listed : b ∈ d.flowGraph.blocks) :
    d.flowGraph.plan.origin b.id = some ⟨some b.id, some b.label⟩ := by
  have label : d.flowGraph.plan.graph.label b.id = b.label := FlowGraph.label_of_mem listed
  rw [Plan.origin, Code.originOf, label]

/-- A block of an unknown kind that can be reached has its marker in the code if it heads no loop, and none if it does.
Where the code has no markers, every block that can be reached is translated, except for such headers. -/
theorem compile_marks_unknown (d : Diagram) (start : String) (first : d.flowGraph.start? = some start)
    (tidy : d.flowGraph.Tidy) :
    (∀ b ∈ d.flowGraph.blocks, d.flowGraph.Reachable b.id → ∀ type, b.content = .unknown type →
      ((∀ l ∈ d.flowGraph.loops (.ofGraph d.flowGraph), l.header ≠ b.id) →
        .unsupported (some ⟨some b.id, some b.label⟩) ("Node '" ++ type.display ++ "' not supported.") ∈
          Code.Stmt.every d.compile.stmts) ∧
      ((∃ l ∈ d.flowGraph.loops (.ofGraph d.flowGraph), l.header = b.id) → ∀ reason,
        .unsupported (some ⟨some b.id, some b.label⟩) reason ∉ Code.Stmt.every d.compile.stmts)) ∧
    (d.compile.program.unsupportedCount = 0 → ∀ b ∈ d.flowGraph.blocks, d.flowGraph.Reachable b.id →
      d.flowGraph.plan.Translates b d.compile.stmts ∨
        b.content.isKnown = false ∧ ∃ l ∈ d.flowGraph.loops (.ofGraph d.flowGraph), l.header = b.id) := by
  refine ⟨fun b listed live type content => ⟨fun plain => ?_, ?_⟩, fun none b listed live => ?_⟩
  · rw [← origin_of_mem listed]
    refine (shows_compile first tidy listed live).own plain _ ?_
    simp [Plan.ownStmts, content]
  · rintro ⟨l, member, header⟩ reason
    rw [← origin_of_mem listed]
    exact not_marked_of_header first tidy listed (by rw [content]; rfl) member header reason
  · have shows := shows_compile first tidy listed live
    have unmarked := Compiled.not_isMarker none
    cases known : b.content.isKnown with
    | true => exact .inl (shows.translates known unmarked)
    | false =>
      refine .inr ⟨rfl, ?_⟩
      by_contra plain
      obtain ⟨type, content⟩ : ∃ type, b.content = .unknown type := by
        cases content : b.content <;> simp_all [Content.isKnown]
      have own : .unsupported (d.flowGraph.plan.origin b.id) ("Node '" ++ type.display ++ "' not supported.") ∈
          Code.Stmt.every d.compile.stmts := by
        refine shows.own (fun l member header => plain ⟨l, member, header⟩) _ ?_
        simp [Plan.ownStmts, content]
      exact absurd (unmarked _ own) (by simp [Code.Stmt.isMarker])

/-- A cycle of two blocks that is entered at one of an unknown kind. -/
def puzzling (second : Content) : Diagram where
  blocks := [⟨"s", none, .start⟩, ⟨"u", none, .unknown (.text "Widget")⟩, ⟨"v", none, second⟩]
  arrows := [⟨"s", "u", none, none⟩, ⟨"u", "v", none, none⟩, ⟨"v", "u", none, none⟩]

theorem blocks_puzzling (second : Content) : (puzzling second).flowGraph.blocks = (puzzling second).blocks :=
  rfl

def gadget : Content :=
  .unknown (.text "Gadget")

theorem compile_marks_puzzling :
    (puzzling gadget).flowGraph.start? = some "s" ∧ (puzzling gadget).flowGraph.Tidy ∧
    .unsupported (some ⟨some "v", some (.text "v")⟩) "Node 'Gadget' not supported." ∈
      Code.Stmt.every (puzzling gadget).compile.stmts ∧
    (∀ reason, .unsupported (some ⟨some "u", some (.text "u")⟩) reason ∉
      Code.Stmt.every (puzzling gadget).compile.stmts) := by
  have first : (puzzling gadget).flowGraph.start? = some "s" := by decide
  have tidy : (puzzling gadget).flowGraph.Tidy := .of_blocks (by decide) (by decide) (by decide) (by decide)
  have loops : (puzzling gadget).flowGraph.loops (.ofGraph (puzzling gadget).flowGraph) = [⟨"u", ["u", "v"]⟩] := by
    decide +kernel
  have atU : (puzzling gadget).flowGraph.Reachable "u" := (FlowGraph.Reachable.of_start first).next (by decide)
  have atV : (puzzling gadget).flowGraph.Reachable "v" := atU.next (by decide)
  obtain ⟨marks, -⟩ := compile_marks_unknown (puzzling gadget) "s" first tidy
  refine ⟨first, tidy, ?_, ?_⟩
  · refine (marks ⟨"v", none, gadget⟩ ?_ atV (.text "Gadget") rfl).1 ?_
    · rw [blocks_puzzling]
      simp [puzzling]
    · simp [loops]
  · refine (marks ⟨"u", none, .unknown (.text "Widget")⟩ ?_ atU (.text "Widget") rfl).2 ?_
    · rw [blocks_puzzling]
      simp [puzzling]
    · simp [loops]

/-- A block of an unknown kind at the head of a loop is dropped, and the code counts as complete. -/
theorem compile_drops_unknown_header :
    (puzzling (.output none)).flowGraph.start? = some "s" ∧ (puzzling (.output none)).flowGraph.Tidy ∧
    (∃ b ∈ (puzzling (.output none)).flowGraph.blocks, b.content.isKnown = false ∧
      (puzzling (.output none)).flowGraph.Reachable b.id ∧
      ∀ reason, .unsupported (some ⟨some b.id, some b.label⟩) reason ∉
        Code.Stmt.every (puzzling (.output none)).compile.stmts) ∧
    (puzzling (.output none)).compile.program.unsupportedCount = 0 := by
  have first : (puzzling (.output none)).flowGraph.start? = some "s" := by decide
  have live : (puzzling (.output none)).flowGraph.Reachable "u" := (FlowGraph.Reachable.of_start first).next (by decide)
  have code : (puzzling (.output none)).compile.stmts =
      [.loop (some ⟨some "u", some (.text "u")⟩) (.truth (some ⟨some "u", some (.text "u")⟩) true)
        [.print (some ⟨some "v", some (.text "v")⟩) []]] := by
    let p : Plan := ⟨(puzzling (.output none)).flowGraph, [⟨"u", ["u", "v"]⟩]⟩
    have plan : (puzzling (.output none)).flowGraph.plan = p := congrArg (Plan.mk _) (by decide +kernel)
    have again : p.Settles 1 (.block ["u"] ["v"] (some "u") (some "u")) _ _ :=
      .again ⟨by decide, rfl⟩ rfl (by decide)
    have round : p.Settles 2 (.block ["u"] [] (some "u") (some "v")) _ _ :=
      .pass (b := ⟨"v", none, .output none⟩) rfl (by decide) rfl again
    have loop : p.Settles 4 (.loop ["u"] ["s"] none "u") _ _ :=
      .forever (b := ⟨"u", none, .unknown (.text "Widget")⟩) (.tail _ (.head _)) rfl (round.next .done)
    have whole : p.Settles 6 (.block [] [] none (some "s")) _ _ :=
      .pass (b := ⟨"s", none, .start⟩) rfl (by decide) rfl
        (.enter ⟨by decide, rfl⟩ rfl (by decide) loop)
    refine compile_stmts_of_cons first ?_
    rw [plan, whole.stmts_lower]
    rfl
  refine ⟨first, .of_blocks (by decide) (by decide) (by decide) (by decide),
    ⟨⟨"u", none, .unknown (.text "Widget")⟩, ?_, rfl, live, fun reason => ?_⟩, ?_⟩
  · rw [blocks_puzzling]
    simp [puzzling]
  · simp [code, Code.Stmt.inner]
  · simp [Compiled.program, code, Code.Stmt.unsupportedCount, Code.Stmt.unsupportedCounts]

end Diagram

end Flowchart
