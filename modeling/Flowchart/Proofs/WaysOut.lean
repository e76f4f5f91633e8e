import Flowchart.Proofs.Entries
import Flowchart.Proofs.Structuring
import Flowchart.Proofs.PlanLikeness
/-! The ways out of a loop. Behind an arrow that leaves a loop, structuring stays outside of the loop: it would have
to pass the header, whose loop is being followed. So where the code behind the arrow does not end with leaving the
loop, its last block lies outside and leads to the header. -/
namespace Flowchart

namespace FlowGraph
variable {g : FlowGraph} {l : Loop} {active : List String} {a b x : String}

/-- A way from the one block to the other that passes none of those given. -/
def LeadsPast (g : FlowGraph) (active : List String) (a x : String) : Prop :=
  ∃ ids, g.Way a x ids ∧ ∀ y ∈ ids, y ∉ active

/-- The block enters the loop from outside: it leads to the header, and not all ways to it pass the header. -/
structure Enters (g : FlowGraph) (l : Loop) (x : String) : Prop where
  outside : x ∉ l.body
  step : l.header ∈ g.successors x
  apart : ¬g.Dominates l.header x

theorem leadsPast_self (new : a ∉ active) : g.LeadsPast active a a :=
  ⟨[a], .stay a, by simpa using new⟩

theorem LeadsPast.before (leads : g.LeadsPast active b x) (new : a ∉ active) (step : b ∈ g.successors a) :
    g.LeadsPast active a x := by
  obtain ⟨ids, way, avoids⟩ := leads
  exact ⟨a :: ids, .go step way, List.forall_mem_cons.2 ⟨new, avoids⟩⟩

theorem LeadsPast.fewer {header : String} (leads : g.LeadsPast (header :: active) a x) :
    g.LeadsPast active a x := by
  obtain ⟨ids, way, avoids⟩ := leads
  exact ⟨ids, way, fun y passed busy => avoids y passed (List.mem_cons_of_mem _ busy)⟩

theorem LeadsPast.live (leads : g.LeadsPast active a x) (live : g.Reachable a) : g.Reachable x := by
  obtain ⟨ids, way, -⟩ := leads
  exact live.along way

/-- Outside of a loop, a way that does not pass the header stays outside. -/
theorem LeadsPast.outside (leads : g.LeadsPast active a x) (member : l ∈ g.loops (.ofGraph g))
    (busy : l.header ∈ active) (live : g.Reachable a) (outside : a ∉ l.body) : x ∉ l.body := by
  obtain ⟨ids, way, avoids⟩ := leads
  intro inside
  exact outside (subset_body_of_way member way live inside (fun passed => avoids _ passed busy) _ way.first_mem)

/-- A block outside of a loop that is followed by one of the loop enters it. -/
theorem enters_of_successor (member : l ∈ g.loops (.ofGraph g)) (live : g.Reachable x) (outside : x ∉ l.body)
    (step : b ∈ g.successors x) (inside : b ∈ l.body) : g.Enters l x := by
  have header : b = l.header := by
    by_contra other
    exact outside (entered_at_header member step live inside other)
  subst header
  refine ⟨outside, step, fun dominates => outside ?_⟩
  obtain ⟨e, listed, rfl, target⟩ := mem_successors.1 step
  obtain ⟨l', member', header, source⟩ := ClosesLoop.loop ⟨listed, live, target ▸ dominates⟩
  cases loop_eq member' member (header.trans target)
  exact source

end FlowGraph

namespace Plan
variable {p : Plan} {active : List String} {inLoop : Option String} {id : String} {b : Block}
  {live live' : String → Prop} {stmts thenPart : List Code.Stmt}

theorem Sourced.mono (sourced : Sourced live stmts) (wider : ∀ x, live x → live' x) : Sourced live' stmts := by
  intro s member
  obtain ⟨x, inside, is⟩ := sourced s member
  exact ⟨x, wider x inside, is⟩

theorem Sourced.choice (here : live b.id) (thenPart : List Code.Stmt) (orElse : Option (List Code.Stmt)) :
    Sourced live (p.choice b thenPart orElse) :=
  (Sourced.marks here).append (.single here rfl)

theorem Sourced.repetition (here : live b.id) (test : Code.Expr) (body : List Code.Stmt) :
    Sourced live (p.repetition b test body) :=
  (Sourced.marks here).append (.single here rfl)

theorem Around.not_mem (around : p.Around active inLoop) (plain : ¬p.loops.has id = true) : id ∉ active :=
  fun busy => plain (around.headers id busy).2

/-- Where the statements of a call come from: from blocks that it leads to past the headers of the loops being
followed. Those of a loop come from the header or from behind it. -/
def Call.Sources (p : Plan) (stmts : List Code.Stmt) : Call → Prop
  | .block active _ _ next => Sourced (fun x => ∃ id, next = some id ∧ p.graph.LeadsPast active id x) stmts
  | .arrow .. => True
  | .each active _ _ ids => Sourced (fun x => ∃ id ∈ ids, p.graph.LeadsPast active id x) stmts
  | .loop active _ _ header => Sourced
      (fun x => x = header ∨ ∃ next ∈ p.graph.successors header, p.graph.LeadsPast active next x) stmts

/-- The statements of calls that fit come from where these calls lead. -/
theorem Settles.sources {depth : Nat} {call : Call} {r : Lowered} {calls : List Call}
    (settles : p.Settles depth call r calls) : (∀ c ∈ calls, c.Fits p) → call.Sources p r.stmts := by
  induction settles with
  | nothing | deferred | again | met | done | headless => exact fun _ => Sourced.nil
  | noArrow | back | finish | onward | exit => exact fun _ => trivial
  | @absent _ active _ _ id absent =>
    intro fits
    obtain ⟨around, live⟩ := fits _ List.mem_cons_self
    -- A reachable id that is not valid is the empty one, which is the header of no loop being followed.
    have new : id ∉ active := fun busy => absent ⟨(around.headers id busy).1, (live id rfl).mem_ids⟩
    intro s member
    rw [List.mem_singleton.1 member]
    exact ⟨id, ⟨id, rfl, FlowGraph.leadsPast_self new⟩, rfl⟩
  | @enter _ _ _ _ id _ _ _ _ free _ ih =>
    intro fits
    refine (ih fun c made => fits c (List.mem_cons_of_mem _ made)).mono fun x behind => ⟨id, rfl, ?_⟩
    rcases behind with rfl | ⟨next, step, leads⟩
    · exact FlowGraph.leadsPast_self free.2
    · exact leads.fewer.before free.2 step
  | @straight _ _ _ _ b _ _ _ _ plain _ _ _ ih =>
    intro fits
    have new := (fits _ List.mem_cons_self).1.not_mem plain
    refine (Sourced.ownStmts ⟨b.id, rfl, FlowGraph.leadsPast_self new⟩).append ?_
    refine (ih fun c made => fits c (List.mem_cons_of_mem _ made)).mono fun x behind => ?_
    obtain ⟨next, goes, leads⟩ := behind
    exact ⟨b.id, rfl, leads.before new (FlowGraph.mem_successors_of_next? goes)⟩
  | @merge _ _ _ _ b _ _ _ _ _ _ _ _ plain _ _ yesIs _ merges goes _ ih =>
    intro fits
    have around := (fits _ List.mem_cons_self).1
    have new := around.not_mem plain
    obtain ⟨straight, first⟩ := (merge?_eq_some merges).1
    have ordinary := around.not_mem (isStraight_iff.1 straight).1
    have step := FlowGraph.target_mem_successors (FlowGraph.branch?_eq_some yesIs).1
    refine (Sourced.choice ⟨b.id, rfl, FlowGraph.leadsPast_self new⟩ _ _).append ?_
    refine (ih fun c made => fits c (List.mem_cons_of_mem _ made)).mono fun x behind => ?_
    obtain ⟨id, is, leads⟩ := behind
    obtain ⟨-, is⟩ := Option.ite_none_left_eq_some.1 (goes.symm.trans is)
    cases is
    exact ⟨b.id, rfl, (leads.before ordinary (List.mem_of_mem_head? first)).before new step⟩
  | @parting _ _ _ _ b _ _ _ _ _ _ plain =>
    intro fits
    have new := (fits _ List.mem_cons_self).1.not_mem plain
    exact .choice ⟨b.id, rfl, FlowGraph.leadsPast_self new⟩ _ _
  | next _ _ ihFirst ihRest =>
    intro fits
    have first := ihFirst fun c made => fits c (subset_calls_left _ _ _ made)
    have rest := ihRest fun c made => fits c (subset_calls_right _ _ _ made)
    refine (first.mono fun x behind => ?_).append (rest.mono fun x behind => ?_)
    · obtain ⟨id, is, leads⟩ := behind
      cases is
      exact ⟨_, List.mem_cons_self, leads⟩
    · obtain ⟨id, later, leads⟩ := behind
      exact ⟨id, List.mem_cons_of_mem _ later, leads⟩
  | forever | unanswered => exact fun _ => .single (.inl rfl) rfl
  | sole | choosing => exact fun _ => .repetition (.inl rfl) _ _
  | turning _ _ _ _ _ _ _ _ _ ihAfter =>
    intro fits
    have behind := ihAfter fun c made => fits c (subset_calls_right _ _ _ made)
    refine (Sourced.repetition (.inl rfl) _ _).append (behind.mono fun x behind => .inr ?_)
    obtain ⟨next, out, leads⟩ := behind
    exact ⟨next, targets_subset outgoing_of_answering out, leads⟩

/-- The list of a conditional for one of its answers. -/
def arm (thenPart : List Code.Stmt) (orElse : Option (List Code.Stmt)) (yes : Bool) : List Code.Stmt :=
  if yes then thenPart else orElse.getD []

theorem leaves_eq_false {body : List String} {last : String} (stays : p.leaves body (some last) = false) :
    ∃ next ∈ p.graph.successors last, next ∈ body := by
  obtain ⟨next, step, inside⟩ := List.all_eq_false.1 stays
  exact ⟨next, step, by simpa using inside⟩

end Plan

namespace FlowGraph
variable {g : FlowGraph} {l : Loop} {active visited : List String} {id : String} {e : Arrow} {b : Block}

/-- The code of a branch that leaves a loop: it ends with leaving the loop, or with a block that enters the loop,
the target of the branch standing in where it has no statements. -/
def LeadsOut (g : FlowGraph) (l : Loop) (id target : String) (stmts : List Code.Stmt) : Prop :=
  stmts.getLast? = some (.leave (g.plan.origin id)) ∨
    ∃ last, Plan.lastId stmts target = some last ∧ g.Enters l last

/-- The code behind an arrow out of the loop being followed. -/
theorem leadsOut_arrow (member : l ∈ g.loops (.ofGraph g)) (around : g.plan.Around active (some l.header))
    (live : g.Reachable id) (out : e ∈ g.outgoing id) (outside : e.target ∉ l.body) :
    g.LeadsOut l id e.target
      (g.plan.lowerBranch active visited (some l.header) (some l.body) id (some e)).stmts := by
  have busy : l.header ∈ active := around.followed _ rfl
  have body := loopBody_plan (around.headers _ busy).1 member
  have there := live.next (target_mem_successors out)
  by_cases ends : (g.block? e.target).any (·.content.isFinish) = true
  · rw [Plan.lowerBranch_of_finish body outside ends]
    exact .inl rfl
  rw [Plan.lowerBranch_of_exit body outside ends]
  obtain ⟨calls, settles⟩ := g.plan.ends (.block active visited none (some e.target)) 0
  have fits : Plan.Call.Fits g.plan (.block active visited none (some e.target)) := by
    refine ⟨around.leave, fun id is => ?_⟩
    cases is
    exact there
  -- The target itself may be the busy header of a loop around, which has no code and leads nowhere.
  have sourced : Plan.Sourced (fun x => x = e.target ∨ g.LeadsPast active e.target x)
      (g.plan.lower active visited none e.target).stmts := by
    refine Plan.Sourced.mono (settles.sources (settles.fits fits)) fun x leads => ?_
    obtain ⟨id, is, leads⟩ := leads
    cases is
    exact .inr leads
  obtain ⟨last, is, behind⟩ := sourced.lastId (.inl rfl)
  have apart : g.Reachable last ∧ last ∉ l.body := by
    rcases behind with rfl | leads
    · exact ⟨there, outside⟩
    · exact ⟨leads.live there, leads.outside member busy there outside⟩
  dsimp only [Plan.leaving]
  rw [is]
  cases quits : g.plan.leaves l.body (some last) with
  | true => exact .inl (by simp)
  | false =>
    obtain ⟨next, step, inside⟩ := Plan.leaves_eq_false quits
    refine .inr ⟨last, by simpa using is, ?_⟩
    exact enters_of_successor member apart.1 apart.2 step inside

/-- The one block of a branch that meets the other branch in the loop again. -/
theorem leadsOut_meeting {next : String} (member : l ∈ g.loops (.ofGraph g)) (live : g.Reachable e.target)
    (outside : e.target ∉ l.body) (straight : g.plan.isStraight e.target = true)
    (first : (g.successors e.target).head? = some next) (inside : next ∈ l.body) :
    g.LeadsOut l id e.target (g.plan.stmtsAt e.target) := by
  have sourced : Plan.Sourced (· = e.target) (g.plan.stmtsAt e.target) := by
    obtain ⟨-, b, found, -⟩ := Plan.isStraight_iff.1 straight
    rw [Plan.stmtsAt, found]
    exact .blockStmts (block?_eq_some found).2
  obtain ⟨last, is, same⟩ := sourced.lastId rfl
  subst same
  exact .inr ⟨_, is, enters_of_successor member live outside (List.mem_of_mem_head? first) inside⟩

/-- In the course of structuring from the start, a conditional is lowered inside of the loop of a header. -/
structure Decides (g : FlowGraph) (active visited : List String) (header : String) (b : Block) : Prop where
  made : ∃ start depth r calls, g.start? = some start ∧
    g.plan.Settles depth (.block [] [] none (some start)) r calls ∧
    .block active visited (some header) (some b.id) ∈ calls
  listed : b ∈ g.blocks
  named : b.id ≠ ""
  branching : b.content.isBranching = true
  new : b.id ∉ visited

namespace Decides
variable {header : String} (decides : g.Decides active visited header b)
include decides

theorem fits : Plan.Call.Fits g.plan (.block active visited (some header) (some b.id)) := by
  obtain ⟨start, depth, r, calls, first, settles, made⟩ := decides.made
  exact settles.fits (fits_start first) _ made

theorem meets : g.plan.Meets (some header) b.id :=
  ⟨⟨decides.named, List.mem_map_of_mem decides.listed⟩, rfl⟩

end Decides

/-- Where a conditional that is no header is lowered inside of a loop and one of its arrows leads out of the loop,
the list for that arrow ends with leaving the loop, unless it ends with a block that enters the loop. -/
theorem branches_leave_loop (g : FlowGraph) (active visited : List String) (header : String) (b : Block)
    (decides : g.Decides active visited header b) (plain : ¬g.plan.loops.has b.id = true) :
    ∃ l ∈ g.loops (.ofGraph g), l.header = header ∧ ∃ thenPart orElse rest,
      (g.plan.lower active visited (some header) b.id).stmts = g.plan.choice b thenPart orElse ++ rest ∧
      ∀ yes e, g.branch? b.id (answer yes) = some e → e.target ∉ l.body →
        g.LeadsOut l b.id e.target (Plan.arm thenPart orElse yes) := by
  obtain ⟨around, live⟩ := decides.fits
  have busy : header ∈ active := around.followed _ rfl
  obtain ⟨named, has⟩ := around.headers _ busy
  obtain ⟨l, member, rfl⟩ := has_plan.1 has
  have here := live b.id rfl
  have found := block?_of_mem decides.listed
  refine ⟨l, member, rfl, ?_⟩
  cases merges : g.plan.merge? (g.branch? b.id "yes") (g.branch? b.id "no") (g.plan.loopBody (some l.header)) with
  | some next =>
    obtain ⟨yes, no, yesIs, noIs⟩ := Plan.exists_of_merge? merges
    rw [yesIs, noIs] at merges
    refine ⟨_, _, _, Plan.lower_stmts_of_merge decides.meets plain decides.new found decides.branching yesIs noIs
      merges, ?_⟩
    rw [loopBody_plan named member] at merges
    have inside := Plan.merge?_within merges
    obtain ⟨⟨yesStraight, yesFirst⟩, noStraight, noFirst⟩ := Plan.merge?_eq_some merges
    intro taken e is outside
    have there := here.next (target_mem_successors (branch?_eq_some is).1)
    cases taken with
    | true =>
      cases yesIs.symm.trans is
      exact leadsOut_meeting member there outside yesStraight yesFirst inside
    | false =>
      cases noIs.symm.trans is
      exact leadsOut_meeting member there outside noStraight noFirst inside
  | none =>
    obtain ⟨orElse, elsePart, code⟩ := Plan.lower_stmts_of_parting decides.meets plain decides.new found
      decides.branching merges
    refine ⟨_, orElse, [], by rw [code, List.append_nil]; rfl, fun taken e is outside => ?_⟩
    have leads : g.LeadsOut l b.id e.target (g.plan.lowerBranch active (b.id :: visited) (some l.header)
        (g.plan.loopBody (some l.header)) b.id (some e)).stmts := by
      rw [loopBody_plan named member]
      exact leadsOut_arrow member around here (branch?_eq_some is).1 outside
    rw [← is] at leads
    cases taken with
    | true => exact leads
    | false =>
      rw [Plan.arm, if_neg Bool.false_ne_true, elsePart]
      exact leads

end FlowGraph

/-- A loop that goes on with the first answer of its header is followed from the block behind that answer on. -/
theorem Plan.made_inside (p : Plan) (b : Block) (inner : String) (visited : List String)
    (listed : b ∈ p.graph.blocks) (meets : p.Meets none b.id) (has : p.loops.has b.id = true)
    (branching : b.content.isBranching = true) (entered : 2 ≤ (p.graph.predecessors b.id).length)
    (goesOn : p.inside b.id (p.answering b.id true) = [inner])
    (ends : p.inside b.id (p.answering b.id false) = []) :
    ∃ r calls, p.Settles ((p.loops.length + 1) * (2 * p.graph.ids.length + 4) + 3)
        (.block [] visited none (some b.id)) r calls ∧
      .block [b.id] [] (some b.id) (some inner) ∈ calls := by
  obtain ⟨calls, here⟩ := p.ends (.block [b.id] [] (some b.id) (some inner)) 0
  obtain ⟨calls', after⟩ := p.ends (.each [b.id] visited none (p.outside b.id (p.answering b.id false))) 1
  have several (entry : String) : p.graph.predecessors b.id ≠ [entry] := fun only => by simp [only] at entered
  have round := here.next .done
  rw [← goesOn] at round
  have whole := Plan.Settles.turning true listed branching several (by simp [goesOn]) ends round after
  refine ⟨_, _, .enter meets has (by simp) whole, ?_⟩
  simp [here.mem_calls]

namespace Diagram

theorem decides_quitting : (quitting true).flowGraph.Decides ["c"] [] "c" quits where
  made := by
    rw [plan_quitting]
    obtain ⟨r, calls, rest, made⟩ := Plan.made_inside
      ⟨(quitting true).flowGraph, [⟨"c", ["c", "q"]⟩]⟩ asks "q" ["s"]
      (.tail _ (.head _)) ⟨by decide, by decide⟩ (by decide) (by decide) (by decide) (by decide) (by decide)
    have whole := Plan.Settles.pass (b := ⟨"s", none, .start⟩) rfl (by decide) rfl rest
    exact ⟨"s", _, _, _, by decide, whole, .tail _ made⟩
  listed := .tail _ (.tail _ (.head _))
  named := by decide
  branching := rfl
  new := by decide

/-- The loop is left for an output and the end. -/
theorem branches_leave_loop_quitting :
    (quitting true).flowGraph.Decides ["c"] [] "c" quits ∧ ¬(quitting true).flowGraph.plan.loops.has "q" = true ∧
    ∃ thenPart orElse rest,
      ((quitting true).flowGraph.plan.lower ["c"] [] (some "c") "q").stmts =
        (quitting true).flowGraph.plan.choice quits thenPart orElse ++ rest ∧
      (quitting true).flowGraph.LeadsOut ⟨"c", ["c", "q"]⟩ "q" "y" thenPart := by
  have plain : ¬(quitting true).flowGraph.plan.loops.has "q" = true := by
    rw [plan_quitting]
    decide
  refine ⟨decides_quitting, plain, ?_⟩
  obtain ⟨l, member, -, thenPart, orElse, rest, code, leads⟩ :=
    FlowGraph.branches_leave_loop _ _ _ _ _ decides_quitting plain
  rw [loops_quitting, List.mem_singleton] at member
  subst member
  exact ⟨thenPart, orElse, rest, code, leads true ⟨"q", "y", some "yes", none⟩ rfl (by decide)⟩

/-- A loop that is left for an output from inside. The output leads into the loop, and it can be come to without
the loop too. -/
def returning : Diagram where
  blocks := [⟨"s", none, .start⟩, ⟨"p", none, asks.content⟩, ⟨"x", none, .output none⟩, asks, quits,
    ⟨"e", none, .finish⟩]
  arrows := [⟨"s", "p", none, none⟩, ⟨"p", "x", some "yes", none⟩, ⟨"p", "c", some "no", none⟩,
    ⟨"x", "c", none, none⟩, ⟨"c", "q", some "yes", none⟩, ⟨"c", "e", some "no", none⟩,
    ⟨"q", "x", some "yes", none⟩, ⟨"q", "c", some "no", none⟩]

theorem plan_returning : returning.flowGraph.plan = ⟨returning.flowGraph, [⟨"c", ["c", "q"]⟩]⟩ := by
  have loops : returning.flowGraph.loops (.ofGraph returning.flowGraph) = [⟨"c", ["c", "q"]⟩] := by
    decide +kernel
  exact congrArg (Plan.mk _) loops

theorem decides_returning : returning.flowGraph.Decides ["c"] [] "c" quits where
  made := by
    rw [plan_returning]
    obtain ⟨r, calls, rest, made⟩ := Plan.made_inside
      ⟨returning.flowGraph, [⟨"c", ["c", "q"]⟩]⟩ asks "q" ["p", "s"]
      (.tail _ (.tail _ (.tail _ (.head _)))) ⟨by decide, by decide⟩ (by decide) (by decide) (by decide)
      (by decide) (by decide)
    obtain ⟨calls', other⟩ := Plan.ends ⟨returning.flowGraph, [⟨"c", ["c", "q"]⟩]⟩
      (.arrow [] ["p", "s"] none "p" (returning.flowGraph.branch? "p" "yes")) 4
    have behind : Plan.Settles _ _ (.arrow [] ["p", "s"] none "p" (returning.flowGraph.branch? "p" "no")) _ _ :=
      .onward (e := ⟨"p", "c", some "no", none⟩) (by simp [Plan.loopBody]) rest
    have both := Plan.Settles.part (b := ⟨"p", none, asks.content⟩) rfl (by decide) rfl (by decide) other behind
    have whole := Plan.Settles.pass (b := ⟨"s", none, .start⟩) rfl (by decide) rfl both
    exact ⟨"s", _, _, _, by decide, whole, .tail _ (.tail _ (List.mem_append_right _ (.tail _ made)))⟩
  listed := .tail _ (.tail _ (.tail _ (.tail _ (.head _))))
  named := by decide
  branching := rfl
  new := by decide

theorem stmts_returning : (returning.flowGraph.plan.lower ["c"] [] (some "c") "q").stmts =
    returning.flowGraph.plan.choice quits [.print (returning.flowGraph.plan.origin "x") []] none := by
  rw [plan_returning]
  let p : Plan := ⟨returning.flowGraph, [⟨"c", ["c", "q"]⟩]⟩
  have around : p.loopBody (some "c") = some ["c", "q"] := rfl
  have output : p.Settles 2 (.block ["c"] ["q"] none (some "x")) _ _ :=
    .pass (b := ⟨"x", none, .output none⟩) rfl (by decide) rfl (.again ⟨by decide, rfl⟩ rfl (by decide))
  have leaves : p.Settles 3 (.arrow ["c"] ["q"] (some "c") "q" (p.graph.branch? "q" "yes")) _ _ :=
    .exit (e := ⟨"q", "x", some "yes", none⟩) around (by decide) (by decide) output
  have back : p.Settles 3 (.arrow ["c"] ["q"] (some "c") "q" (p.graph.branch? "q" "no")) _ _ :=
    .back (e := ⟨"q", "c", some "no", none⟩) around (by decide)
  have whole : p.Settles 4 (.block ["c"] [] (some "c") (some "q")) _ _ :=
    .part (b := quits) rfl (by decide) rfl (by decide) leaves back
  rw [whole.stmts_lower]
  rfl

/-- Two loops, the inner one of which is left at its header for an output behind both. -/
def overshooting : Diagram where
  blocks := [⟨"s", none, .start⟩, asks, quits, ⟨"r", none, asks.content⟩, ⟨"y", none, .output none⟩,
    ⟨"z", none, .output none⟩, ⟨"e", none, .finish⟩]
  arrows := [⟨"s", "c", none, none⟩, ⟨"c", "q", some "yes", none⟩, ⟨"c", "e", some "no", none⟩,
    ⟨"q", "r", some "yes", none⟩, ⟨"q", "z", some "no", none⟩, ⟨"z", "e", none, none⟩,
    ⟨"r", "q", some "yes", none⟩, ⟨"r", "y", some "no", none⟩, ⟨"y", "c", none, none⟩]

theorem plan_overshooting : overshooting.flowGraph.plan =
    ⟨overshooting.flowGraph, [⟨"c", ["c", "y", "r", "q"]⟩, ⟨"q", ["q", "r"]⟩]⟩ := by
  have loops : overshooting.flowGraph.loops (.ofGraph overshooting.flowGraph) =
      [⟨"c", ["c", "y", "r", "q"]⟩, ⟨"q", ["q", "r"]⟩] := by
    decide +kernel
  exact congrArg (Plan.mk _) loops

theorem decides_overshooting : overshooting.flowGraph.Decides ["c"] [] "c" quits where
  made := by
    rw [plan_overshooting]
    obtain ⟨r, calls, rest, made⟩ := Plan.made_inside
      ⟨overshooting.flowGraph, [⟨"c", ["c", "y", "r", "q"]⟩, ⟨"q", ["q", "r"]⟩]⟩ asks "q" ["s"]
      (.tail _ (.head _)) ⟨by decide, by decide⟩ (by decide) (by decide) (by decide) (by decide) (by decide)
    have whole := Plan.Settles.pass (b := ⟨"s", none, .start⟩) rfl (by decide) rfl rest
    exact ⟨"s", _, _, _, by decide, whole, .tail _ made⟩
  listed := .tail _ (.tail _ (.head _))
  named := by decide
  branching := rfl
  new := by decide

theorem stmts_overshooting : ∃ test body, (overshooting.flowGraph.plan.lower ["c"] [] (some "c") "q").stmts =
    [.loop (overshooting.flowGraph.plan.origin "q") test body,
      .print (overshooting.flowGraph.plan.origin "z") []] := by
  rw [plan_overshooting]
  let p : Plan := ⟨overshooting.flowGraph, [⟨"c", ["c", "y", "r", "q"]⟩, ⟨"q", ["q", "r"]⟩]⟩
  have several (entry : String) : p.graph.predecessors "q" ≠ [entry] := by
    simp [show p.graph.predecessors "q" = ["c", "r"] from rfl]
  have around : p.loopBody (some "q") = some ["q", "r"] := rfl
  have back : p.Settles 3 (.arrow ["q", "c"] ["r"] (some "q") "r" (p.graph.branch? "r" "yes")) _ _ :=
    .back (e := ⟨"r", "q", some "yes", none⟩) around (by decide)
  have output : p.Settles 2 (.block ["q", "c"] ["r"] none (some "y")) _ _ :=
    .pass (b := ⟨"y", none, .output none⟩) rfl (by decide) rfl (.again ⟨by decide, rfl⟩ rfl (by decide))
  have leaves : p.Settles 3 (.arrow ["q", "c"] ["r"] (some "q") "r" (p.graph.branch? "r" "no")) _ _ :=
    .exit (e := ⟨"r", "y", some "no", none⟩) around (by decide) (by decide) output
  have round : p.Settles 4 (.block ["q", "c"] [] (some "q") (some "r")) _ _ :=
    .part (b := ⟨"r", none, asks.content⟩) rfl (by decide) rfl (by decide) back leaves
  have ends : p.Settles 3 (.block ["q", "c"] ["z"] (some "c") (some "e")) _ _ :=
    .pass (b := ⟨"e", none, .finish⟩) rfl (by decide) rfl .nothing
  have after : p.Settles 4 (.block ["q", "c"] [] (some "c") (some "z")) _ _ :=
    .pass (b := ⟨"z", none, .output none⟩) rfl (by decide) rfl ends
  have loop : p.Settles 6 (.loop ["q", "c"] [] (some "c") "q") _ _ :=
    .turning (b := quits) true (.tail _ (.tail _ (.head _))) rfl several (by decide) rfl (round.next .done)
      (after.next .done)
  have whole : p.Settles 7 (.block ["c"] [] (some "c") (some "q")) _ _ :=
    .enter ⟨by decide, rfl⟩ rfl (by decide) loop
  refine ⟨.ident ⟨p.origin "q", "more"⟩, [.branch (p.origin "r") (.ident ⟨p.origin "r", "more"⟩) []
    (some [.print (p.origin "y") [], .leave (p.origin "r")])], ?_⟩
  rw [whole.stmts_lower]
  simp only [Lowered.after, repetition_asks p (b := quits) rfl,
    choice_asks p (b := ⟨"r", none, asks.content⟩) rfl]
  rfl

/-- Not every branch that leads out of a loop ends with leaving it: not where it comes to a block that enters the
loop, and not where it belongs to the header of an inner loop. -/
theorem branches_not_left :
    (returning.flowGraph.Decides ["c"] [] "c" quits ∧
      returning.flowGraph.branch? "q" "yes" = some ⟨"q", "x", some "yes", none⟩ ∧
      (∃ l ∈ returning.flowGraph.plan.loops, l.header = "c" ∧ "x" ∉ l.body) ∧
      (returning.flowGraph.plan.lower ["c"] [] (some "c") "q").stmts =
        returning.flowGraph.plan.choice quits [.print (returning.flowGraph.plan.origin "x") []] none) ∧
    overshooting.flowGraph.Decides ["c"] [] "c" quits ∧
      overshooting.flowGraph.branch? "q" "no" = some ⟨"q", "z", some "no", none⟩ ∧
      (∃ l ∈ overshooting.flowGraph.plan.loops, l.header = "c" ∧ "z" ∉ l.body) ∧
      ∃ test body, (overshooting.flowGraph.plan.lower ["c"] [] (some "c") "q").stmts =
        [.loop (overshooting.flowGraph.plan.origin "q") test body,
          .print (overshooting.flowGraph.plan.origin "z") []] := by
  refine ⟨⟨decides_returning, rfl, ?_, stmts_returning⟩, decides_overshooting, rfl, ?_, stmts_overshooting⟩
  · rw [plan_returning]
    decide
  · rw [plan_overshooting]
    decide

end Diagram

end Flowchart
