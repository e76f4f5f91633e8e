import Flowchart.Proofs.PlanLikeness
/-! Graphs that look the same from the start. Ways from the start pass only blocks that can be reached, and what
dominates a block or belongs to a loop is said of such ways. So graphs with the same start and the same blocks and
arrows wherever a way from the start leads have the same loops, the same code and the same runs, whatever else
they hold. -/
namespace Flowchart

theorem Loops.body?_eq_some {ls : Loops} {header : String} {body : List String}
    (found : ls.body? header = some body) : ∃ l ∈ ls, l.header = header ∧ l.body = body := by
  obtain ⟨l, searched, is⟩ := Option.map_eq_some_iff.1 found
  exact ⟨l, List.mem_of_find?_eq_some searched, by simpa using List.find?_some searched, is⟩

namespace FlowGraph
variable {g g' : FlowGraph} {a b h id m : String} {ids : List String} {l : Loop} {back : Arrow}

/-- The graphs start at the same block, and have the same blocks with the same arrows out of them, in order,
wherever a way from the start leads in the first graph. -/
structure Alike (g g' : FlowGraph) : Prop where
  start : g.start? = g'.start?
  block : ∀ id, g.Reachable id → g.block? id = g'.block? id
  outgoing : ∀ id, g.Reachable id → g.outgoing id = g'.outgoing id

namespace Alike

section Ways
variable (alike : g.Alike g')
include alike

theorem successors_eq (live : g.Reachable id) : g.successors id = g'.successors id :=
  congrArg (List.map Arrow.target) (alike.outgoing id live)

theorem way_iff (live : g.Reachable a) : g.Way a b ids ↔ g'.Way a b ids := by
  constructor
  · intro way
    induction way with
    | stay => exact .stay _
    | go step _ ih => exact .go (alike.successors_eq live ▸ step) (ih (live.next step))
  · intro way
    induction way with
    | stay => exact .stay _
    | go step _ ih =>
      rw [← alike.successors_eq live] at step
      exact .go step (ih (live.next step))

theorem reachable_iff : g.Reachable id ↔ g'.Reachable id := by
  constructor
  · rintro ⟨start, first, ids, way⟩
    exact ⟨start, alike.start ▸ first, ids, (alike.way_iff (.of_start first)).1 way⟩
  · rintro ⟨start, first, ids, way⟩
    rw [← alike.start] at first
    exact ⟨start, first, ids, (alike.way_iff (.of_start first)).2 way⟩

theorem symm : g'.Alike g where
  start := alike.start.symm
  block id live := (alike.block id (alike.reachable_iff.2 live)).symm
  outgoing id live := (alike.outgoing id (alike.reachable_iff.2 live)).symm

end Ways

/-! What is found out about the graphs. Each fact is carried over in one direction; the other one is the same
fact about the graphs the other way round. -/

theorem dominates (alike : g.Alike g') (passed : g.Dominates a b) : g'.Dominates a b := by
  intro start first ids way
  rw [← alike.start] at first
  exact passed start first ids ((alike.way_iff (.of_start first)).2 way)

theorem closesLoop (alike : g.Alike g') (closes : g.ClosesLoop back) : g'.ClosesLoop back := by
  obtain ⟨listed, live, passed⟩ := closes
  have out : back ∈ g.outgoing back.source := mem_outgoing.2 ⟨listed, rfl⟩
  rw [alike.outgoing _ live] at out
  exact ⟨(mem_outgoing.1 out).1, alike.reachable_iff.1 live, alike.dominates passed⟩

theorem leadsBack (alike : g.Alike g') (live : g.Reachable m) (leads : g.LeadsBack h m) : g'.LeadsBack h m := by
  obtain ⟨back, closes, header, ids, way, avoids⟩ := leads
  exact ⟨back, alike.closesLoop closes, header, ids, (alike.way_iff live).1 way, avoids⟩

theorem exists_loop (alike : g.Alike g') (member : l ∈ g.loops (.ofGraph g)) :
    ∃ l' ∈ g'.loops (.ofGraph g'), l'.header = l.header ∧ Plan.SameMembers l.body l'.body := by
  obtain ⟨back, closes, header⟩ := mem_headers.1 (List.mem_map_of_mem member)
  obtain ⟨l', member', header'⟩ := List.mem_map.1 (mem_headers.2 ⟨back, alike.closesLoop closes, header⟩)
  refine ⟨l', member', header', fun m => ?_⟩
  rw [mem_body member, mem_body member', header']
  refine or_congr_right ⟨?_, ?_⟩
  · rintro ⟨live, leads⟩
    exact ⟨alike.reachable_iff.1 live, alike.leadsBack live leads⟩
  · rintro ⟨live, leads⟩
    exact ⟨alike.reachable_iff.2 live, alike.symm.leadsBack live leads⟩

theorem isInner (alike : g.Alike g') (inner : g.plan.isInner id = true) : g'.plan.isInner id = true := by
  obtain ⟨l, member, is⟩ := List.any_eq_true.1 inner
  obtain ⟨l', member', header, same⟩ := alike.exists_loop member
  have live := reachable_header member
  have next : g'.plan.graph.successors l.header = g.plan.graph.successors l.header :=
    (alike.successors_eq live).symm
  refine List.any_eq_true.2 ⟨l', member', ?_⟩
  rw [header, ← same.contains_eq, next]
  exact is

theorem body? (alike : g.Alike g') (header : String) :
    Option.Rel Plan.SameMembers (g.plan.loops.body? header) (g'.plan.loops.body? header) := by
  cases found : g.plan.loops.body? header with
  | some body =>
    obtain ⟨l, member, rfl, rfl⟩ := Loops.body?_eq_some found
    obtain ⟨l', member', header', same⟩ := alike.exists_loop member
    have found' : g'.plan.loops.body? l'.header = some l'.body :=
      Loops.body?_of_mem (nodup_headers g' _) member'
    rw [← header', found']
    exact .some same
  | none =>
    cases found' : g'.plan.loops.body? header with
    | none => exact .none
    | some body' =>
      obtain ⟨l', member', rfl, rfl⟩ := Loops.body?_eq_some found'
      obtain ⟨l, member, header, -⟩ := alike.symm.exists_loop member'
      have here : g.plan.loops.body? l.header = some l.body := Loops.body?_of_mem (nodup_headers g _) member
      rw [header, found] at here
      cases here

/-- A header with a test is entered more than once. -/
theorem several {block : Block} (header : g.plan.loops.has block.id = true)
    (found : g.block? block.id = some block) (branching : block.content.isBranching = true) (entry : String) :
    g.predecessors block.id ≠ [entry] := by
  obtain ⟨l, member, is⟩ := has_plan.1 header
  exact entered_header member (block?_eq_some found).1 is.symm branching entry

theorem plan (alike : g.Alike g') : g.plan.Alike g'.plan g.Reachable where
  closed _ _ live step := live.next step
  block := alike.block
  outgoing := alike.outgoing
  inner _ _ := Bool.eq_iff_iff.2 ⟨alike.isInner, alike.symm.isInner⟩
  bodies := alike.body?
  entered block header found branching entry := by
    obtain ⟨l, member, is⟩ := has_plan.1 header
    obtain ⟨l', member', header', -⟩ := alike.exists_loop member
    have live : g.Reachable block.id := live_header member is.symm
    refine ⟨several header found branching entry, ?_⟩
    refine several (has_plan.2 ⟨l', member', header'.trans is⟩) ?_ branching entry
    exact alike.block block.id live ▸ found

/-- The graphs have the same code. -/
theorem compile_stmts (alike : g.Alike g') : g.compile.stmts = g'.compile.stmts := by
  rw [compile, compile, ← alike.start]
  cases first : g.start? with
  | none => rfl
  | some start =>
    have live := Reachable.of_start first
    have same := (alike.plan.twins [] [] none start live).same
    simp only [← same, ← alike.plan.origin_eq live]
    split <;> rfl

theorem walk_eq (alike : g.Alike g') (limit count : Nat) (s : State) (current : Option String)
    (live : ∀ id, current = some id → g.Reachable id) :
    Run.walk g limit count s current = Run.walk g' limit count s current := by
  induction limit generalizing count s current with
  | zero => cases current <;> rfl
  | succ limit ih =>
    cases current with
    | none => rfl
    | some id =>
      have here := live id rfl
      rw [Run.walk, Run.walk, ← alike.block id here]
      cases found : g.block? id with
      | none => rfl
      | some block =>
        obtain ⟨-, rfl⟩ := block?_eq_some found
        have later (effect : Effect) :
            Run.walk g limit (count + 1) effect.state (Run.next? g block effect.choice) =
              Run.walk g' limit (count + 1) effect.state (Run.next? g' block effect.choice) := by
          have next : Run.next? g block effect.choice = Run.next? g' block effect.choice :=
            alike.plan.next?_eq here effect.choice
          rw [← next]
          apply ih
          intro id goes
          exact here.next (mem_successors_of_next? goes)
        simp only [later]

/-- The graphs have the same runs. -/
theorem run_eq (alike : g.Alike g') (inputs : List String) (limit : Int) :
    Run.ofGraph g inputs limit = Run.ofGraph g' inputs limit := by
  rw [Run.ofGraph, Run.ofGraph, ← alike.start]
  cases first : g.start? with
  | none => rfl
  | some start =>
    refine alike.walk_eq _ _ _ _ ?_
    rintro id ⟨⟩
    exact .of_start first

end Alike

end FlowGraph

end Flowchart
