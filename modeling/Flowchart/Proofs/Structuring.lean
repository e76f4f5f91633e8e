import Flowchart.Proofs.Calls
import Flowchart.Proofs.Leaving
/-! Structured code keeps the behaviour of the diagram: the whole program follows the walk from the start. Loops that
are left only at their headers are one case; where loops are left from inside, nothing may be left to do behind
them. -/
namespace Flowchart

namespace Diagram

/-- The code follows the walk from the start where loops are left from inside only with nothing to do behind. -/
theorem follows_compile {σ : Type} {d : Diagram} {start : String} (first : d.flowGraph.start? = some start)
    (rejoining : d.flowGraph.Rejoining) (I : Interpretation σ) :
    I.Follows d.flowGraph none (some start) d.compile.stmts := by
  have lowers := rejoining.toTidy.lowers [] [] none start (.of_start first) (by simp)
  have tracks : I.Tracks d.flowGraph none none (some start) (d.flowGraph.plan.lower [] [] none start).stmts :=
    FlowGraph.tracks_of_lowers rejoining I lowers (.inr (FlowGraph.stands_start first)) (by simp)
  intro m last
  rw [← tracks.follows (FlowGraph.stays_of_lowers I lowers rfl) m last]
  rcases compile_stmts first with is | ⟨empty, is⟩
  · rw [is]
  · rw [is, empty]
    exact Interpretation.exec_marker rfl

/-- The code of a diagram does what walking the diagram does: under every interpretation of statements and
tests, from every state, both have the same endings. They end or go on for ever together, with the same
statements executed in the same order, in the same state. -/
theorem exec_compile_iff_walk {σ : Type} (d : Diagram) (start : String)
    (first : d.flowGraph.start? = some start) (structured : d.flowGraph.Structured)
    (I : Interpretation σ) (m : Memory σ) (last : Ending σ) :
    I.Exec d.compile.stmts m last ↔ ∃ n, I.Walk d.flowGraph none n (some start) m last :=
  follows_compile first structured.rejoining I m last

theorem structured_turning : turning.flowGraph.Structured := by
  have tidy : turning.flowGraph.Tidy := .of_blocks (by decide) (by decide) (by decide) (by decide)
  refine ⟨tidy.named, fun b listed _ => ?_, tidy.straight, tidy.final, tidy.labelled, ?_, fun id _ => ?_, ?_⟩
  · exact (by decide : ∀ b ∈ turning.flowGraph.blocks, b.content.isKnown = true) b listed
  · rw [FlowGraph.loops_turning]
    decide
  · refine FlowGraph.acyclic_of_rank (["u", "s", "c", "b", "e"].idxOf) ?_ id
    rw [FlowGraph.loops_turning, arrows_turning]
    decide
  · rw [FlowGraph.loops_turning, arrows_turning]
    decide

end Diagram

/-- Reads a test in a state that is one truth value. -/
def Code.Expr.reads : Code.Expr → Bool → Bool
  | .literal _ (.bool value) _, _ => value
  | .binary _ "==" test (.literal _ (.bool false) _), s => !reads test s
  | _, s => s

/-- Every statement turns a truth value around. -/
def Interpretation.toggle : Interpretation Bool where
  act _ s := some (!s)
  holds := Code.Expr.reads
  negated _ _ _ := by simp [Code.Expr.reads, Code.Expr.truth]
  always _ _ := by simp [Code.Expr.reads, Code.Expr.truth]

open Interpretation Diagram

theorem exprOf_more (origin : Option Code.Origin) :
    Code.exprOf origin [.attached "x" more] = .ok (.ident ⟨origin, "more"⟩) := by
  cbv

theorem test_asks (origin : Option Code.Origin) :
    Code.test origin asks.content = ([], .ident ⟨origin, "more"⟩) := by
  rw [Code.test, show Code.testElements asks.content = [.attached "x" more] from rfl, exprOf_more]

/-- A conditional that asks for the truth value goes where it says. -/
theorem next?_toggle {g : FlowGraph} (b : Block) (same : b.content = asks.content) (m : Memory Bool) :
    toggle.next? g b m = Run.next? g b (some m.state) := by
  rw [next?_branching (by rw [same]; rfl), Interpretation.test, same, test_asks]
  rfl

theorem effect_shows {g : FlowGraph} (m : Memory Bool) : toggle.effect g shows m =
    .done ⟨!m.state, m.log ++ [.print (Code.originOf g "b") [.ident ⟨Code.originOf g "b", "more"⟩]]⟩ := by
  have own : Code.blockStmts (Code.originOf g shows.id) shows.content =
      [.print (Code.originOf g "b") [.ident ⟨Code.originOf g "b", "more"⟩]] := by
    change Code.orMarker ((Code.exprOf _ [.attached "x" more]).map _) = _
    rw [exprOf_more]
    rfl
  rw [Interpretation.effect, own]
  rfl

/-- The loop is gone around once and then left, in the code as in the diagram. -/
theorem exec_compile_turning : turning.flowGraph.start? = some "s" ∧ turning.flowGraph.Structured ∧
    toggle.Exec turning.compile.stmts ⟨true, []⟩
      (.done ⟨false, [.print (Code.originOf turning.flowGraph "b")
        [.ident ⟨Code.originOf turning.flowGraph "b", "more"⟩]]⟩) := by
  have first : turning.flowGraph.start? = some "s" := by decide
  refine ⟨first, structured_turning,
    (exec_compile_iff_walk turning "s" first structured_turning _ _ _).2 ⟨5, ?_⟩⟩
  refine .pass ⟨"s", none, .start⟩ rfl rfl rfl rfl ?_
  refine .pass asks rfl rfl rfl (next?_toggle asks rfl _) ?_
  refine .pass shows rfl rfl (effect_shows _) rfl ?_
  refine .pass asks rfl rfl rfl (next?_toggle asks rfl _) ?_
  refine .pass ⟨"e", none, .finish⟩ rfl rfl rfl rfl ?_
  exact .ended rfl

namespace Diagram

/-- The code of a diagram does what walking the diagram does, also where loops are left from inside, as long as
nothing is left to do behind them: under every interpretation of statements and tests, from every state, both
have the same endings, with the same statements executed in the same order. -/
theorem exec_compile_iff_walk_of_rejoining {σ : Type} (d : Diagram) (start : String)
    (first : d.flowGraph.start? = some start) (rejoining : d.flowGraph.Rejoining)
    (I : Interpretation σ) (m : Memory σ) (last : Ending σ) :
    I.Exec d.compile.stmts m last ↔ ∃ n, I.Walk d.flowGraph none n (some start) m last :=
  follows_compile first rejoining I m last

def quits : Block :=
  ⟨"q", none, asks.content⟩

/-- A loop that is left from inside. One of the two ways out of it, from inside or from its header, leads to an
output. -/
def quitting (inside : Bool) : Diagram where
  blocks := [⟨"s", none, .start⟩, asks, quits, ⟨"y", none, .output none⟩, ⟨"e", none, .finish⟩]
  arrows := [⟨"s", "c", none, none⟩, ⟨"c", "q", some "yes", none⟩, ⟨"q", "c", some "no", none⟩,
    ⟨"q", if inside then "y" else "e", some "yes", none⟩, ⟨"c", if inside then "e" else "y", some "no", none⟩,
    ⟨"y", "e", none, none⟩]

theorem loops_quitting (inside : Bool) :
    (quitting inside).flowGraph.loops (.ofGraph (quitting inside).flowGraph) = [⟨"c", ["c", "q"]⟩] := by
  cases inside <;> decide +kernel

theorem plan_quitting (inside : Bool) :
    (quitting inside).flowGraph.plan = ⟨(quitting inside).flowGraph, [⟨"c", ["c", "q"]⟩]⟩ :=
  congrArg (Plan.mk _) (loops_quitting inside)

theorem escapes_quitting (inside : Bool) : ∃ l e, (quitting inside).flowGraph.Escapes l e := by
  have leaving : (quitting inside).flowGraph.outgoing "q" =
      [⟨"q", "c", some "no", none⟩, ⟨"q", if inside then "y" else "e", some "yes", none⟩] := by
    cases inside <;> rfl
  refine ⟨⟨"c", ["c", "q"]⟩, ⟨"q", if inside then "y" else "e", some "yes", none⟩, ?_, ?_, by simp, by simp, ?_⟩
  · rw [loops_quitting]
    exact List.mem_singleton.2 rfl
  · apply And.left
    rw [← FlowGraph.mem_outgoing, leaving]
    simp
  · cases inside <;> decide

theorem reducible_quitting (inside : Bool) : (quitting inside).flowGraph.Reducible where
  toTidy := by
    cases inside
    all_goals exact .of_blocks (by decide) (by decide) (by decide) (by decide)
  known b listed _ := by
    have all : ∀ b ∈ (quitting inside).flowGraph.blocks, b.content.isKnown = true := by
      cases inside <;> decide
    exact all b listed
  complete := by
    rw [loops_quitting]
    cases inside <;> decide
  acyclic id _ := by
    refine FlowGraph.acyclic_of_rank (["s", "c", "q", "y", "e"].idxOf) ?_ id
    rw [loops_quitting]
    cases inside <;> decide

theorem choice_asks (p : Plan) {b : Block} (same : b.content = asks.content) (thenPart : List Code.Stmt)
    (orElse : Option (List Code.Stmt)) :
    p.choice b thenPart orElse = [.branch (p.origin b.id) (.ident ⟨p.origin b.id, "more"⟩) thenPart orElse] := by
  rw [Plan.choice, same, test_asks]
  rfl

theorem repetition_asks (p : Plan) {b : Block} (same : b.content = asks.content) (body : List Code.Stmt) :
    p.repetition b (p.loopTest b true) body = [.loop (p.origin b.id) (.ident ⟨p.origin b.id, "more"⟩) body] := by
  rw [Plan.repetition, Plan.loopTest, same, test_asks]
  rfl

theorem settles_end_quitting (inside : Bool) (depth : Nat) {visited : List String} (new : "e" ∉ visited) :
    (Plan.mk (quitting inside).flowGraph [⟨"c", ["c", "q"]⟩]).Settles (depth + 1) (.block ["c"] visited none (some "e"))
      (.nothing ("e" :: visited)) [.block ["c"] visited none (some "e"), .block ["c"] ("e" :: visited) none none] := by
  cases inside
  all_goals
    exact .pass (b := ⟨"e", none, .finish⟩) rfl ⟨⟨by decide, rfl⟩, by decide, new⟩ rfl .nothing

/-- The code of the loop and of what comes behind it, from that of the two ways out of the loop. -/
theorem stmts_quitting {inside : Bool} {way behind : Lowered} {calls calls' : List Plan.Call}
    (leaves : (Plan.mk (quitting inside).flowGraph [⟨"c", ["c", "q"]⟩]).Settles 3
      (.arrow ["c"] ["q"] (some "c") "q" ((quitting inside).flowGraph.branch? "q" "yes")) way calls)
    (after : (Plan.mk (quitting inside).flowGraph [⟨"c", ["c", "q"]⟩]).Settles 4
      (.block ["c"] ["s"] none (some (if inside then "e" else "y"))) behind calls') :
    ((quitting inside).flowGraph.plan.lower [] [] none "s").stmts =
      .loop (Code.originOf (quitting inside).flowGraph "c")
        (.ident ⟨Code.originOf (quitting inside).flowGraph "c", "more"⟩)
        [.branch (Code.originOf (quitting inside).flowGraph "q")
          (.ident ⟨Code.originOf (quitting inside).flowGraph "q", "more"⟩) way.stmts none] :: behind.stmts := by
  rw [plan_quitting]
  let p : Plan := ⟨(quitting inside).flowGraph, [⟨"c", ["c", "q"]⟩]⟩
  have around : p.loopBody (some "c") = some ["c", "q"] := rfl
  have several (entry : String) : p.graph.predecessors "c" ≠ [entry] := by
    cases inside <;> simp [show p.graph.predecessors "c" = ["s", "q"] from rfl]
  cases inside
  all_goals
    have back : p.Settles 3 (.arrow ["c"] ["q"] (some "c") "q" (p.graph.branch? "q" "no")) _ _ :=
      .back (e := ⟨"q", "c", some "no", none⟩) around (by decide)
    have body : p.Settles 4 (.block ["c"] [] (some "c") (some "q")) _ _ :=
      .part (b := quits) rfl (by decide) rfl (by decide) leaves back
    have loop : p.Settles 6 (.loop ["c"] ["s"] none "c") _ _ :=
      .turning (b := asks) true (.tail _ (.head _)) rfl several (by decide) rfl (body.next .done) (after.next .done)
    have whole : p.Settles 8 (.block [] [] none (some "s")) _ _ :=
      .pass (b := ⟨"s", none, .start⟩) rfl (by decide) rfl
        (.enter ⟨by decide, rfl⟩ rfl (by decide) loop)
    rw [whole.stmts_lower]
    simp only [Lowered.after, repetition_asks p (b := asks) rfl, choice_asks p (b := quits) rfl]
    exact congrArg (List.cons _) (List.append_nil _)

theorem rejoining_quitting : (quitting true).flowGraph.Rejoining where
  toReducible := reducible_quitting true
  rejoins l e escapes := by
    have member := escapes.member
    rw [loops_quitting, List.mem_singleton] at member
    subst member
    refine .inl ⟨?_, by decide⟩
    rw [loops_quitting]
    simp

/-- A loop with its test at the bottom inside of another loop. -/
def rounding : Diagram where
  blocks := [⟨"s", none, .start⟩, asks, ⟨"x", none, .output none⟩, quits, ⟨"z", none, .output none⟩,
    ⟨"e", none, .finish⟩]
  arrows := [⟨"s", "c", none, none⟩, ⟨"c", "x", some "yes", none⟩, ⟨"c", "e", some "no", none⟩,
    ⟨"x", "q", none, none⟩, ⟨"q", "x", some "no", none⟩, ⟨"q", "z", some "yes", none⟩, ⟨"z", "c", none, none⟩]

theorem loops_rounding : rounding.flowGraph.loops (.ofGraph rounding.flowGraph) =
    [⟨"c", ["c", "z", "q", "x"]⟩, ⟨"x", ["x", "q"]⟩] := by
  decide +kernel

theorem rejoining_rounding : rounding.flowGraph.Rejoining where
  toTidy := .of_blocks (by decide) (by decide) (by decide) (by decide)
  known b listed _ := (by decide : ∀ b ∈ rounding.flowGraph.blocks, b.content.isKnown = true) b listed
  complete := by
    rw [loops_rounding]
    decide
  acyclic id _ := by
    refine FlowGraph.acyclic_of_rank (["s", "c", "x", "q", "z", "e"].idxOf) ?_ id
    rw [loops_rounding]
    decide
  rejoins l e escapes := by
    have outward : ∀ l ∈ ([⟨"c", ["c", "z", "q", "x"]⟩, ⟨"x", ["x", "q"]⟩] : List Loop),
        ∀ e ∈ rounding.flowGraph.arrows, e.source ∈ l.body → e.source ≠ l.header → e.target ∉ l.body →
          l = ⟨"x", ["x", "q"]⟩ ∧ e.source = "q" ∧ e.target = "z" := by decide
    obtain ⟨rfl, source, target⟩ := outward l (loops_rounding ▸ escapes.member) e escapes.listed
      escapes.inside escapes.apart escapes.outside
    have rest (x : String) (later : rounding.flowGraph.RestOfRound "c" "z" x) : x = "z" ∨ x = "c" := by
      induction later with
      | refl => exact .inl rfl
      | tail _ step ih =>
        obtain ⟨other, step⟩ := step
        have only : rounding.flowGraph.successors "z" = ["c"] := by decide
        rw [ih.resolve_right other, only] at step
        exact .inr (List.mem_singleton.1 step)
    refine .inr ⟨⟨"c", ["c", "z", "q", "x"]⟩, by simp [loops_rounding], by simp, by simp, ?_, by decide, ?_, ?_⟩
    · rw [loops_rounding]
      simp
    · intro x later other
      rw [target] at later
      rw [(rest x later).resolve_right other]
      decide
    · simp [target]

end Diagram

/-- A loop is left for the end of the program, and one is left for the next round of the loop around it. -/
theorem exec_compile_left_inside :
    (quitting true).flowGraph.start? = some "s" ∧ (quitting true).flowGraph.Rejoining ∧
    (∃ l e, (quitting true).flowGraph.Escapes l e) ∧
    toggle.Exec (quitting true).compile.stmts ⟨true, []⟩
      (.done ⟨false, [.print (Code.originOf (quitting true).flowGraph "y") []]⟩) ∧
    rounding.flowGraph.start? = some "s" ∧ rounding.flowGraph.Rejoining ∧
    toggle.Exec rounding.compile.stmts ⟨true, []⟩
      (.done ⟨false, [.print (Code.originOf rounding.flowGraph "x") [],
        .print (Code.originOf rounding.flowGraph "x") [],
        .print (Code.originOf rounding.flowGraph "z") []]⟩) := by
  have first : (quitting true).flowGraph.start? = some "s" := by decide
  have second : rounding.flowGraph.start? = some "s" := by decide
  refine ⟨first, rejoining_quitting, escapes_quitting true,
    (exec_compile_iff_walk_of_rejoining _ "s" first rejoining_quitting _ _ _).2 ⟨5, ?_⟩,
    second, rejoining_rounding,
    (exec_compile_iff_walk_of_rejoining _ "s" second rejoining_rounding _ _ _).2 ⟨9, ?_⟩⟩
  · refine .pass ⟨"s", none, .start⟩ rfl rfl rfl rfl ?_
    refine .pass asks rfl rfl rfl (next?_toggle asks rfl _) ?_
    refine .pass quits rfl rfl rfl (next?_toggle quits rfl _) ?_
    refine .pass ⟨"y", none, .output none⟩ rfl rfl rfl rfl ?_
    refine .pass ⟨"e", none, .finish⟩ rfl rfl rfl rfl ?_
    exact .ended rfl
  · refine .pass ⟨"s", none, .start⟩ rfl rfl rfl rfl ?_
    refine .pass asks rfl rfl rfl (next?_toggle asks rfl _) ?_
    refine .pass ⟨"x", none, .output none⟩ rfl rfl rfl rfl ?_
    refine .pass quits rfl rfl rfl (next?_toggle quits rfl _) ?_
    refine .pass ⟨"x", none, .output none⟩ rfl rfl rfl rfl ?_
    refine .pass quits rfl rfl rfl (next?_toggle quits rfl _) ?_
    refine .pass ⟨"z", none, .output none⟩ rfl rfl rfl rfl ?_
    refine .pass asks rfl rfl rfl (next?_toggle asks rfl _) ?_
    refine .pass ⟨"e", none, .finish⟩ rfl rfl rfl rfl ?_
    exact .ended rfl

/-- Where something stands behind the loop, it is executed also when the loop is left from inside. The walk ends
without it. -/
theorem exec_compile_goes_on_behind_loop :
    (quitting false).flowGraph.start? = some "s" ∧ (quitting false).flowGraph.Reducible ∧
    (∃ l e, (quitting false).flowGraph.Escapes l e) ∧
    (∃ n, toggle.Walk (quitting false).flowGraph none n (some "s") ⟨true, []⟩ (.done ⟨true, []⟩)) ∧
    ∀ last, toggle.Exec (quitting false).compile.stmts ⟨true, []⟩ last ↔
      last = .done ⟨false, [.print (Code.originOf (quitting false).flowGraph "y") []]⟩ := by
  have first : (quitting false).flowGraph.start? = some "s" := by decide
  refine ⟨first, reducible_quitting false, escapes_quitting false, ⟨4, ?_⟩, fun last => ?_⟩
  · refine .pass ⟨"s", none, .start⟩ rfl rfl rfl rfl ?_
    refine .pass asks rfl rfl rfl (next?_toggle asks rfl _) ?_
    refine .pass quits rfl rfl rfl (next?_toggle quits rfl _) ?_
    refine .pass ⟨"e", none, .finish⟩ rfl rfl rfl rfl ?_
    exact .ended rfl
  · let origin := Code.originOf (quitting false).flowGraph
    let leaving : List Code.Stmt :=
      [.branch (origin "q") (.ident ⟨origin "q", "more"⟩) [.leave (origin "q")] none]
    have code : (quitting false).compile.stmts =
        [.loop (origin "c") (.ident ⟨origin "c", "more"⟩) leaving, .print (origin "y") []] := by
      let p : Plan := ⟨(quitting false).flowGraph, [⟨"c", ["c", "q"]⟩]⟩
      have around : p.loopBody (some "c") = some ["c", "q"] := rfl
      have leaves : p.Settles 3 (.arrow ["c"] ["q"] (some "c") "q" (p.graph.branch? "q" "yes")) _ _ :=
        .finish (e := ⟨"q", "e", some "yes", none⟩) around (by decide) rfl
      have after : p.Settles 4 (.block ["c"] ["s"] none (some "y")) _ _ :=
        .pass (b := ⟨"y", none, .output none⟩) rfl (by decide) rfl (settles_end_quitting false 2 (by decide))
      exact compile_stmts_of_cons first (stmts_quitting leaves after)
    have body (middle : Ending Bool) : toggle.Exec leaving ⟨true, []⟩ middle ↔ middle = .left ⟨true, []⟩ :=
      exec_choice.trans exec_leave
    have turns : toggle.holds (.ident ⟨origin "c", "more"⟩) true = true := rfl
    rw [code, exec_loop, if_pos turns]
    simp only [body, exists_eq_left]
    rw [exec_action rfl]
    exact exec_nil

end Flowchart
