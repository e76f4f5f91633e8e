import Flowchart.Proofs.Lowering
import Flowchart.Proofs.Regions
/-! The shapes that structuring gives to a graph, as a relation. Where every block has the arrows of its kind
and no others, structuring is a choice between a few shapes, and the relation has a rule for each of them.
What holds of all the code that is made is then shown shape by shape, whatever loops the graph may have. -/
namespace Flowchart

/-- The label of the arrow for an answer. -/
def answer (yes : Bool) : String :=
  if yes then "yes" else "no"

namespace Plan
variable {p : Plan} {active visited : List String} {inLoop : Option String} {id : String} {b : Block}

/-- The test of a loop that goes on while the header's test has the given answer. -/
def loopTest (p : Plan) (b : Block) (turn : Bool) : Code.Expr :=
  if turn then (Code.test (p.origin b.id) b.content).2
  else .binary (p.origin b.id) "==" (Code.test (p.origin b.id) b.content).2 (.truth (p.origin b.id) false)

theorem lower_stmts_of_plain (meets : p.Meets inLoop id) (plain : ¬p.loops.has id = true)
    (new : id ∉ visited) (found : p.graph.block? id = some b) (same : b.id = id)
    (straight : b.content.isBranching = false)
    (final : b.content.isFinish = true → p.graph.successors id = []) :
    (p.lower active visited inLoop id).stmts =
      p.ownStmts b ++ p.lowerNext active (id :: visited) inLoop (p.graph.successors id).head? := by
  have goes : Run.next? p.graph b none = (p.graph.successors id).head? := by
    rw [Run.next?, same]
    split
    · next finish => rw [final finish, List.head?_nil]
    · rfl
  rw [lower_of_straight meets plain new found same straight, goes, ← stmts_lowerOn]
  rfl

theorem lowerEach_toList (next : Option String) :
    (p.lowerEach active visited inLoop next.toList).stmts = p.lowerNext active visited inLoop next := by
  cases next with
  | none =>
    rw [Option.toList_none, lowerEach]
    rfl
  | some id => exact lowerEach_singleton

section Loop
variable {header : String} {body : List String} {stays : Arrow} {out : Option Arrow}

/-- A loop whose header goes on inside with one answer and, if at all, outside with the other. -/
theorem lowerLoop_stmts_of_turn (turn : Bool) (found : p.graph.block? header = some b)
    (same : b.id = header) (branching : b.content.isBranching = true)
    (bodyIs : p.loops.body? header = some body) (entered : ∀ entry, p.graph.predecessors header ≠ [entry])
    (staysIs : (p.graph.outgoing header).filter (·.label == some (answer turn)) = [stays])
    (outIs : (p.graph.outgoing header).filter (·.label == some (answer !turn)) = out.toList)
    (inside : stays.target ∈ body) (outside : ∀ e ∈ out, e.target ∉ body) :
    (p.lowerLoop active visited inLoop header).stmts =
      (Code.test (p.origin header) b.content).1 ++
        .loop (p.origin header) (p.loopTest b turn) (p.lower active [] (some header) stays.target).stmts ::
        p.lowerNext active visited inLoop (out.map Arrow.target) := by
  subst same
  have staying : (out.toList.map Arrow.target).filter (fun t => body.contains t) = [] := by
    cases out with
    | none => rfl
    | some e => simp [outside e rfl]
  have leaving : (out.toList.map Arrow.target).filter (fun t => !body.contains t) =
      (out.map Arrow.target).toList := by
    cases out with
    | none => rfl
    | some e => simp [outside e rfl]
  have turning : ([stays].map Arrow.target).filter (fun t => body.contains t) = [stays.target] := by
    simp [inside]
  rw [lowerLoop, found]
  cases content : b.content with
  | conditional e =>
    cases turn with
    | true =>
      rw [show answer true = "yes" from rfl] at staysIs
      rw [show answer (!true) = "no" from rfl] at outIs
      simp only [content, bodyIs, staysIs, outIs, staying, leaving, turning, Option.getD_some]
      simp [loopTest, content, Lowered.after, lowerEach_singleton, lowerEach_toList]
    | false =>
      rw [show answer false = "no" from rfl] at staysIs
      rw [show answer (!false) = "yes" from rfl] at outIs
      simp only [content, bodyIs, staysIs, outIs, staying, leaving, turning, Option.getD_some]
      simp [loopTest, content, Lowered.after, lowerEach_singleton, lowerEach_toList]
  | _ => simp [content, Content.isBranching] at branching

end Loop

end Plan

namespace FlowGraph

theorem has_plan {g : FlowGraph} {id : String} :
    g.plan.loops.has id = true ↔ ∃ l ∈ g.loops (.ofGraph g), l.header = id :=
  Loops.has_iff.trans List.mem_map

/-- The body of the loop being followed is the one that structuring looks at. -/
theorem loopBody_plan {g : FlowGraph} {l : Loop} (named : l.header ≠ "") (member : l ∈ g.loops (.ofGraph g)) :
    g.plan.loopBody (some l.header) = some l.body := by
  simp only [Plan.loopBody, Option.filter_some, named, ne_eq, not_false_eq_true, decide_true, ↓reduceIte]
  exact Loops.body?_of_mem (nodup_headers g _) member

/-- Every reachable block has the arrows of its kind and no others. Loops may have any shape. -/
structure Tidy (g : FlowGraph) : Prop where
  named : ∀ id, g.Reachable id → id ≠ ""
  straight : ∀ b ∈ g.blocks, g.Reachable b.id → b.content.isBranching = false →
    (g.outgoing b.id).length ≤ 1
  final : ∀ b ∈ g.blocks, g.Reachable b.id → b.content.isFinish = true → g.outgoing b.id = []
  labelled : ∀ b ∈ g.blocks, g.Reachable b.id → b.content.isBranching = true →
    (∀ e ∈ g.outgoing b.id, e.label = some "yes" ∨ e.label = some "no") ∧
    ((g.outgoing b.id).filter (·.label == some "yes")).length ≤ 1 ∧
    ((g.outgoing b.id).filter (·.label == some "no")).length ≤ 1

/-- It is enough that all blocks have the arrows of their kind. -/
theorem Tidy.of_blocks {g : FlowGraph} (named : "" ∉ g.ids)
    (straight : ∀ b ∈ g.blocks, b.content.isBranching = false → (g.outgoing b.id).length ≤ 1)
    (final : ∀ b ∈ g.blocks, b.content.isFinish = true → (g.outgoing b.id).isEmpty = true)
    (labelled : ∀ b ∈ g.blocks, b.content.isBranching = true →
      (∀ e ∈ g.outgoing b.id, e.label = some "yes" ∨ e.label = some "no") ∧
      ((g.outgoing b.id).filter (·.label == some "yes")).length ≤ 1 ∧
      ((g.outgoing b.id).filter (·.label == some "no")).length ≤ 1) : g.Tidy := by
  refine ⟨fun id live same => ?_, fun b listed _ => straight b listed,
    fun b listed _ finish => List.isEmpty_iff.1 (final b listed finish), fun b listed _ => labelled b listed⟩
  exact named (same ▸ live.mem_ids)

theorem Structured.tidy {g : FlowGraph} (structured : g.Structured) : g.Tidy :=
  ⟨structured.named, structured.straight, structured.final, structured.labelled⟩

/-- What structuring makes code of: what comes from a block on, if there is one, or what lies behind an arrow
of a conditional, if it has that arrow. -/
inductive Place where
  | block (next : Option String)
  | arrow (id : String) (arrow : Option Arrow)

/-- The shapes of structured code. `active` are the headers of the loops being followed, `visited` the blocks
met, `inLoop` the header of the innermost loop. -/
inductive Lowers (g : FlowGraph) :
    (active visited : List String) → (inLoop : Option String) → Place → List Code.Stmt → Prop where
  /-- Nothing follows. -/
  | nothing {active visited : List String} {inLoop : Option String} :
      Lowers g active visited inLoop (.block none) []
  /-- Reached from outside of any loop, a block of a loop is left to the header it follows. -/
  | deferred {active visited : List String} {id : String} (inner : g.plan.isInner id = true) :
      Lowers g active visited none (.block (some id)) []
  /-- The header of a loop that is being followed. -/
  | again {active visited : List String} {inLoop : Option String} {l : Loop}
      (member : l ∈ g.loops (.ofGraph g)) (busy : inLoop = some l.header ∨ l.header ∈ active) :
      Lowers g active visited inLoop (.block (some l.header)) []
  | met {active visited : List String} {inLoop : Option String} {id : String} (old : id ∈ visited) :
      Lowers g active visited inLoop (.block (some id)) []
  /-- A block without a test, and what comes after it. -/
  | straight {active visited : List String} {inLoop : Option String} {b : Block} {rest : List Code.Stmt}
      (listed : b ∈ g.blocks) (plain : ∀ l ∈ g.loops (.ofGraph g), l.header ≠ b.id)
      (noTest : b.content.isBranching = false)
      (after : Lowers g active (b.id :: visited) inLoop (.block (g.successors b.id).head?) rest) :
      Lowers g active visited inLoop (.block (some b.id)) (g.plan.ownStmts b ++ rest)
  /-- Two branches of one straight block each, and what comes where they meet. -/
  | merge {active visited : List String} {inLoop : Option String} {b : Block} {yes no : Arrow}
      {next : String} {onward : Option String} {rest : List Code.Stmt}
      (listed : b ∈ g.blocks) (plain : ∀ l ∈ g.loops (.ofGraph g), l.header ≠ b.id)
      (branching : b.content.isBranching = true) (yesIs : g.branch? b.id "yes" = some yes)
      (noIs : g.branch? b.id "no" = some no)
      (merges : g.plan.merge? (some yes) (some no) (g.plan.loopBody inLoop) = some next)
      (goes : onward = some next ∨
        onward = none ∧ next ∈ Plan.withBranches yes.target no.target (b.id :: visited))
      (after : Lowers g active (Plan.withBranches yes.target no.target (b.id :: visited)) inLoop
        (.block onward) rest) :
      Lowers g active visited inLoop (.block (some b.id)) ((Code.test (g.plan.origin b.id) b.content).1 ++
        [.branch (g.plan.origin b.id) (Code.test (g.plan.origin b.id) b.content).2
          (g.plan.stmtsAt yes.target) (some (g.plan.stmtsAt no.target))] ++ rest)
  /-- Two branches that part for good. -/
  | parting {active visited : List String} {inLoop : Option String} {b : Block}
      {thenPart : List Code.Stmt} {orElse : Option (List Code.Stmt)}
      (listed : b ∈ g.blocks) (plain : ∀ l ∈ g.loops (.ofGraph g), l.header ≠ b.id)
      (branching : b.content.isBranching = true)
      (yes : Lowers g active (b.id :: visited) inLoop (.arrow b.id (g.branch? b.id "yes")) thenPart)
      (no : Lowers g active (b.id :: visited) inLoop (.arrow b.id (g.branch? b.id "no")) (orElse.getD [])) :
      Lowers g active visited inLoop (.block (some b.id)) ((Code.test (g.plan.origin b.id) b.content).1 ++
        [.branch (g.plan.origin b.id) (Code.test (g.plan.origin b.id) b.content).2 thenPart orElse])
  | noArrow {active visited : List String} {inLoop : Option String} {id : String} :
      Lowers g active visited inLoop (.arrow id none) []
  /-- An arrow that stays in the loop around it, if there is one. -/
  | onward {active visited : List String} {inLoop : Option String} {id : String} {e : Arrow}
      {stmts : List Code.Stmt}
      (within : ∀ l ∈ g.loops (.ofGraph g), inLoop = some l.header → e.target ∈ l.body)
      (after : Lowers g active visited inLoop (.block (some e.target)) stmts) :
      Lowers g active visited inLoop (.arrow id (some e)) stmts
  /-- An arrow out of the loop: what lies behind it is followed outside of any loop, and then the loop is
  left, unless that code seems to come back to it. -/
  | exit {active visited : List String} (id : String) {l : Loop} {e : Arrow} {stmts : List Code.Stmt}
      (member : l ∈ g.loops (.ofGraph g)) (outside : e.target ∉ l.body)
      (after : Lowers g active visited none (.block (some e.target)) stmts) :
      Lowers g active visited (some l.header) (.arrow id (some e)) (stmts ++
        if g.plan.leaves l.body (Plan.lastId stmts e.target) then [.leave (g.plan.origin id)] else [])
  /-- A loop whose header has no test. -/
  | forever {active visited : List String} {inLoop : Option String} {l : Loop} {b : Block}
      {next : String} {body : List Code.Stmt} (member : l ∈ g.loops (.ofGraph g)) (listed : b ∈ g.blocks)
      (header : b.id = l.header) (outer : inLoop ≠ some l.header) (idle : b.id ∉ active)
      (noTest : b.content.isBranching = false) (only : g.successors b.id = [next]) (inside : next ∈ l.body)
      (after : Lowers g (b.id :: active) [] (some b.id) (.block (some next)) body) :
      Lowers g active visited inLoop (.block (some b.id))
        [.loop (g.plan.origin b.id) (.truth (g.plan.origin b.id) true)
          (Code.blockStmts (g.plan.origin b.id) b.content ++ body)]
  /-- A loop that goes on with one answer of its header, and what comes behind the other answer. -/
  | turning {active visited : List String} {inLoop : Option String} {l : Loop} {b : Block} (turn : Bool)
      {stays : Arrow} {body rest : List Code.Stmt} (member : l ∈ g.loops (.ofGraph g))
      (listed : b ∈ g.blocks) (header : b.id = l.header) (outer : inLoop ≠ some l.header)
      (idle : b.id ∉ active) (branching : b.content.isBranching = true)
      (staysIs : g.branch? b.id (answer turn) = some stays) (inside : stays.target ∈ l.body)
      (outside : ∀ e, g.branch? b.id (answer !turn) = some e → e.target ∉ l.body)
      (after : Lowers g (b.id :: active) [] (some b.id) (.block (some stays.target)) body)
      (behind : Lowers g (b.id :: active) visited inLoop
        (.block ((g.branch? b.id (answer !turn)).map Arrow.target)) rest) :
      Lowers g active visited inLoop (.block (some b.id)) ((Code.test (g.plan.origin b.id) b.content).1 ++
        .loop (g.plan.origin b.id) (g.plan.loopTest b turn) body :: rest)
  /-- A loop that goes on with both answers of its header. -/
  | choosing {active visited : List String} {inLoop : Option String} {l : Loop} {b : Block}
      {yes no : Arrow} {thenPart elsePart : List Code.Stmt} (member : l ∈ g.loops (.ofGraph g))
      (listed : b ∈ g.blocks) (header : b.id = l.header) (outer : inLoop ≠ some l.header)
      (idle : b.id ∉ active) (branching : b.content.isBranching = true)
      (yesIs : g.branch? b.id "yes" = some yes) (noIs : g.branch? b.id "no" = some no)
      (yesInside : yes.target ∈ l.body) (noInside : no.target ∈ l.body)
      (then_ : Lowers g (b.id :: active) [] (some b.id) (.block (some yes.target)) thenPart)
      (else_ : Lowers g (b.id :: active) [] (some b.id) (.block (some no.target)) elsePart) :
      Lowers g active visited inLoop (.block (some b.id)) ((Code.test (g.plan.origin b.id) b.content).1 ++
        [.loop (g.plan.origin b.id) (.truth (g.plan.origin b.id) true)
          [.branch (g.plan.origin b.id) (Code.test (g.plan.origin b.id) b.content).2 thenPart
            (some elsePart)]])

variable {g : FlowGraph} {active visited : List String} {inLoop : Option String} {id : String} {b : Block}
  {l : Loop}

/-- Where at most one arrow has a label, it is the one that is found. -/
theorem filter_eq_branch? {label : String}
    (few : ((g.outgoing id).filter (·.label == some label)).length ≤ 1) :
    (g.outgoing id).filter (·.label == some label) = (g.branch? id label).toList := by
  unfold branch?
  rw [← List.head?_filter]
  generalize (g.outgoing id).filter (·.label == some label) = es at few
  cases es with
  | nil => rfl
  | cons e rest => rw [eq_singleton_of_mem few List.mem_cons_self]; rfl

theorem not_header_iff : ¬g.plan.loops.has id = true ↔ ∀ l ∈ g.loops (.ofGraph g), l.header ≠ id := by
  rw [has_plan]
  simp

section Tidy
variable (tidy : g.Tidy)
include tidy

theorem Tidy.loopBody_plan (member : l ∈ g.loops (.ofGraph g)) :
    g.plan.loopBody (some l.header) = some l.body :=
  FlowGraph.loopBody_plan (tidy.named _ (reachable_header member)) member

theorem Tidy.few (listed : b ∈ g.blocks) (live : g.Reachable b.id) (branching : b.content.isBranching = true)
    (yes : Bool) : ((g.outgoing b.id).filter (·.label == some (answer yes))).length ≤ 1 := by
  obtain ⟨-, fewYes, fewNo⟩ := tidy.labelled b listed live branching
  cases yes with
  | true => exact fewYes
  | false => exact fewNo

/-- Every arrow of a conditional is the one of an answer. -/
theorem Tidy.branch?_of_mem {e : Arrow} (listed : b ∈ g.blocks) (live : g.Reachable b.id)
    (branching : b.content.isBranching = true) (out : e ∈ g.outgoing b.id) :
    ∃ yes, g.branch? b.id (answer yes) = some e := by
  have found (yes : Bool) (is : e.label = some (answer yes)) : g.branch? b.id (answer yes) = some e := by
    have member : e ∈ (g.outgoing b.id).filter (·.label == some (answer yes)) :=
      List.mem_filter.2 ⟨out, by simpa using is⟩
    rw [filter_eq_branch? (tidy.few listed live branching yes)] at member
    exact Option.mem_toList.1 member
  rcases (tidy.labelled b listed live branching).1 e out with is | is
  · exact ⟨true, found true is⟩
  · exact ⟨false, found false is⟩

theorem Tidy.successors_eq (listed : b ∈ g.blocks) (live : g.Reachable b.id)
    (noTest : b.content.isBranching = false) {next : String} (step : next ∈ g.successors b.id) :
    g.successors b.id = [next] := by
  have few : (g.successors b.id).length ≤ 1 := by
    simpa [successors] using tidy.straight b listed live noTest
  exact eq_singleton_of_mem few step

theorem Tidy.successors_of_finish (found : g.block? id = some b) (live : g.Reachable id)
    (finish : b.content.isFinish = true) : g.successors id = [] := by
  obtain ⟨listed, rfl⟩ := block?_eq_some found
  simp [successors, tidy.final b listed live finish]

end Tidy

/-- The code from blocks on has one of the shapes, whatever loop is around them. -/
def LowersFrom (g : FlowGraph) (active visited : List String) : Prop :=
  ∀ inLoop id, g.Reachable id → (∀ h, inLoop = some h → ∃ l ∈ g.loops (.ofGraph g), l.header = h) →
    g.Lowers active visited inLoop (.block (some id)) (g.plan.lower active visited inLoop id).stmts

theorem LowersFrom.next (goes : g.LowersFrom active visited) {next : Option String}
    (live : ∀ id, next = some id → g.Reachable id)
    (around : ∀ h, inLoop = some h → ∃ l ∈ g.loops (.ofGraph g), l.header = h) :
    g.Lowers active visited inLoop (.block next) (g.plan.lowerNext active visited inLoop next) := by
  cases next with
  | none => exact .nothing
  | some id => exact goes inLoop id (live id rfl) around

section Tidy
variable (tidy : g.Tidy)
include tidy

theorem Tidy.lowers_finish (found : g.block? id = some b) (live : g.Reachable id)
    (finish : b.content.isFinish = true) : g.Lowers active visited inLoop (.block (some id)) [] := by
  have none := tidy.successors_of_finish found live finish
  obtain ⟨listed, rfl⟩ := block?_eq_some found
  have content : b.content = .finish := by
    cases content : b.content <;> simp_all [Content.isFinish]
  have own : g.plan.ownStmts b = [] := by simp [Plan.ownStmts, content, Code.blockStmts]
  have plain (l : Loop) (member : l ∈ g.loops (.ofGraph g)) : l.header ≠ b.id := by
    intro header
    obtain ⟨next, step, -⟩ := exists_next_inside member (header_mem_body member)
    rw [header, none] at step
    cases step
  have after : g.Lowers active (b.id :: visited) inLoop (.block (g.successors b.id).head?) [] := by
    rw [none]
    exact .nothing
  have shape := Lowers.straight listed plain (by rw [content]; rfl) after
  rwa [own] at shape

/-- Behind an arrow stands the code of its target, and leaving the loop where the arrow does so. -/
theorem Tidy.lowers_arrow (goes : g.LowersFrom active visited) (live : g.Reachable id)
    (around : ∀ h, inLoop = some h → ∃ l ∈ g.loops (.ofGraph g), l.header = h) {arrow : Option Arrow}
    (out : ∀ e, arrow = some e → e ∈ g.outgoing id) :
    g.Lowers active visited inLoop (.arrow id arrow)
      (g.plan.lowerBranch active visited inLoop (g.plan.loopBody inLoop) id arrow).stmts := by
  cases arrow with
  | none =>
    rw [Plan.lowerBranch]
    exact .noArrow
  | some e =>
    have step : e.target ∈ g.successors id := target_mem_successors (out e rfl)
    cases inLoop with
    | none =>
      rw [Plan.lowerBranch]
      · exact .onward (by simp) (goes none e.target (live.next step) around)
      · simp
    | some h =>
      obtain ⟨l, member, rfl⟩ := around h rfl
      have only (l' : Loop) (member' : l' ∈ g.loops (.ofGraph g)) (same : some l.header = some l'.header) :
          l' = l := loop_eq member' member (Option.some.inj same).symm
      rw [tidy.loopBody_plan member, Plan.lowerBranch]
      simp only [List.contains_iff_mem]
      by_cases inside : e.target ∈ l.body
      · have within (l' : Loop) (member' : l' ∈ g.loops (.ofGraph g))
            (same : some l.header = some l'.header) : e.target ∈ l'.body := only l' member' same ▸ inside
        rw [if_pos inside]
        by_cases back : e.target = l.header
        · rw [if_pos back]
          refine .onward within ?_
          rw [back]
          exact .again member (.inl rfl)
        · rw [if_neg back]
          exact .onward within (goes _ e.target (live.next step) around)
      · rw [if_neg inside]
        split
        · next finish =>
          obtain ⟨b, found, finish⟩ := (Option.any_eq_true _ _).1 finish
          have ends := tidy.successors_of_finish found (live.next step) finish
          have leaves : g.plan.leaves l.body (Plan.lastId [] e.target) = true := by
            change (g.successors e.target).all _ = true
            rw [ends]
            rfl
          have after : g.Lowers active visited none (.block (some e.target)) [] :=
            tidy.lowers_finish found (live.next step) finish
          have shape := Lowers.exit id member inside after
          rwa [if_pos leaves] at shape
        · have shape := Lowers.exit id member inside (goes none e.target (live.next step) (by simp))
          split
          · next leaves => rwa [if_pos leaves] at shape
          · next stays => rwa [if_neg stays, List.append_nil] at shape

/-- A block that is no header: it is met again, goes straight on, or branches. -/
theorem Tidy.lowers_plain (meets : g.plan.Meets inLoop id) (live : g.Reachable id)
    (around : ∀ h, inLoop = some h → ∃ l ∈ g.loops (.ofGraph g), l.header = h)
    (header : ¬g.plan.loops.has id = true)
    (next : id ∉ visited → g.LowersFrom active (id :: visited))
    (merged : id ∉ visited → ∀ yes no, g.LowersFrom active (Plan.withBranches yes no (id :: visited))) :
    g.Lowers active visited inLoop (.block (some id)) (g.plan.lower active visited inLoop id).stmts := by
  by_cases old : id ∈ visited
  · rw [Plan.lower_of_met meets header old]
    exact .met old
  obtain ⟨b, found⟩ := exists_block live.mem_ids
  obtain ⟨listed, rfl⟩ := block?_eq_some found
  have plain := not_header_iff.1 header
  cases branching : b.content.isBranching with
  | false =>
    have final (finish : b.content.isFinish = true) := tidy.successors_of_finish found live finish
    rw [Plan.lower_stmts_of_plain meets header old found rfl branching final]
    refine .straight listed plain branching ((next old).next (fun id first => ?_) around)
    exact live.next (List.mem_of_mem_head? first)
  | true =>
    cases merges : g.plan.merge? (g.branch? b.id "yes") (g.branch? b.id "no") (g.plan.loopBody inLoop) with
    | none =>
      obtain ⟨orElse, elseIs, whole⟩ :=
        @Plan.lower_stmts_of_parting _ active _ _ _ _ meets header old found branching merges
      have out (label : String) (e : Arrow) (is : g.branch? b.id label = some e) : e ∈ g.outgoing b.id :=
        (branch?_eq_some is).1
      rw [whole]
      refine .parting listed plain branching (tidy.lowers_arrow (next old) live around (out "yes")) ?_
      rw [elseIs]
      exact tidy.lowers_arrow (next old) live around (out "no")
    | some meeting =>
      cases yesIs : g.branch? b.id "yes" with
      | none => simp [yesIs, Plan.merge?] at merges
      | some yes =>
        cases noIs : g.branch? b.id "no" with
        | none => simp [yesIs, noIs, Plan.merge?] at merges
        | some no =>
          rw [yesIs, noIs] at merges
          rw [Plan.lower_stmts_of_merge meets header old found branching yesIs noIs merges]
          have yesLive : g.Reachable yes.target :=
            live.next (target_mem_successors (branch?_eq_some yesIs).1)
          have meetingLive : g.Reachable meeting :=
            yesLive.next (List.mem_of_mem_head? (Plan.merge?_eq_some merges).1.2)
          split
          · next again =>
            refine .merge listed plain branching yesIs noIs merges (.inr ⟨rfl, ?_⟩) .nothing
            exact List.contains_iff_mem.1 again
          · exact .merge listed plain branching yesIs noIs merges (.inl rfl)
              (merged old yes.target no.target inLoop meeting meetingLive around)

end Tidy

section Header
variable (tidy : g.Tidy) (member : l ∈ g.loops (.ofGraph g)) (listed : b ∈ g.blocks)
  (header : b.id = l.header) (outer : inLoop ≠ some l.header) (idle : b.id ∉ active)
  (inner : g.LowersFrom (b.id :: active) [])
include tidy member listed header

omit tidy listed in
theorem body?_header : g.plan.loops.body? b.id = some l.body := by
  rw [header]
  exact Loops.body?_of_mem (nodup_headers g _) member

omit tidy listed in
theorem around_header : ∀ h, some b.id = some h → ∃ l ∈ g.loops (.ofGraph g), l.header = h := by
  rintro h ⟨⟩
  exact ⟨l, member, header.symm⟩

omit tidy listed in
theorem live_header : g.Reachable b.id := by
  rw [header]
  exact reachable_header member

omit tidy in
theorem entered_header (branching : b.content.isBranching = true) (entry : String) :
    g.predecessors b.id ≠ [entry] := by
  rw [header]
  refine predecessors_ne_singleton member (fun first => ?_) entry
  have noTest := straight_of_start first (header ▸ block?_of_mem listed)
  rw [branching] at noTest
  cases noTest

include outer idle inner

theorem Tidy.lowers_forever (noTest : b.content.isBranching = false) :
    g.Lowers active visited inLoop (.block (some b.id))
      (g.plan.lowerLoop (b.id :: active) visited inLoop b.id).stmts := by
  have live := live_header member header
  obtain ⟨next, step, inside⟩ := exists_next_inside member ((mem_body member).2 (.inl header))
  have only := tidy.successors_eq listed live noTest step
  rw [Plan.lowerLoop_stmts_of_straight (block?_of_mem listed) noTest
    (body?_header member header) only inside]
  exact .forever member listed header outer idle noTest only inside
    (inner _ next (live.next step) (around_header member header))

/-- The header of a loop leads back into it with at least one of its answers. -/
theorem Tidy.lowers_choice (branching : b.content.isBranching = true)
    (around : ∀ h, inLoop = some h → ∃ l ∈ g.loops (.ofGraph g), l.header = h)
    (behind : g.LowersFrom (b.id :: active) visited) :
    g.Lowers active visited inLoop (.block (some b.id))
      (g.plan.lowerLoop (b.id :: active) visited inLoop b.id).stmts := by
  have live := live_header member header
  have found := block?_of_mem listed
  have entered := entered_header member listed header branching
  have bodyIs := body?_header member header
  have arrowIs (yes : Bool) : (g.outgoing b.id).filter (·.label == some (answer yes)) =
      (g.branch? b.id (answer yes)).toList := filter_eq_branch? (tidy.few listed live branching yes)
  have leads (yes : Bool) (e : Arrow) (is : g.branch? b.id (answer yes) = some e) : g.Reachable e.target :=
    live.next (target_mem_successors (branch?_eq_some is).1)
  have both (yes no : Arrow) (yesIs : g.branch? b.id "yes" = some yes) (noIs : g.branch? b.id "no" = some no)
      (yesInside : yes.target ∈ l.body) (noInside : no.target ∈ l.body) :
      g.Lowers active visited inLoop (.block (some b.id))
        (g.plan.lowerLoop (b.id :: active) visited inLoop b.id).stmts := by
    have yesOnly : (g.outgoing b.id).filter (·.label == some "yes") = [yes] := by
      rw [show some "yes" = some (answer true) from rfl, arrowIs, show answer true = "yes" from rfl, yesIs]
      rfl
    have noOnly : (g.outgoing b.id).filter (·.label == some "no") = [no] := by
      rw [show some "no" = some (answer false) from rfl, arrowIs, show answer false = "no" from rfl, noIs]
      rfl
    rw [Plan.lowerLoop_stmts_of_both found branching bodyIs entered yesOnly noOnly yesInside noInside]
    exact .choosing member listed header outer idle branching yesIs noIs yesInside noInside
      (inner _ _ (leads true yes yesIs) (around_header member header))
      (inner _ _ (leads false no noIs) (around_header member header))
  obtain ⟨next, step, inside⟩ := exists_next_inside member ((mem_body member).2 (.inl header))
  obtain ⟨e, out, rfl⟩ := List.mem_map.1 step
  obtain ⟨turn, staysIs⟩ := tidy.branch?_of_mem listed live branching out
  by_cases back : ∃ e', g.branch? b.id (answer !turn) = some e' ∧ e'.target ∈ l.body
  · obtain ⟨e', turnsIs, inside'⟩ := back
    cases turn with
    | true => exact both e e' staysIs turnsIs inside inside'
    | false => exact both e' e turnsIs staysIs inside' inside
  · have outside (e' : Arrow) (is : g.branch? b.id (answer !turn) = some e') : e'.target ∉ l.body :=
      fun inside' => back ⟨e', is, inside'⟩
    have staysOnly : (g.outgoing b.id).filter (·.label == some (answer turn)) = [e] := by
      rw [arrowIs, staysIs]
      rfl
    rw [Plan.lowerLoop_stmts_of_turn turn found rfl branching bodyIs entered staysOnly (arrowIs !turn) inside
      outside]
    refine .turning turn member listed header outer idle branching staysIs inside outside
      (inner _ _ (leads turn e staysIs) (around_header member header))
      (behind.next (fun id is => ?_) around)
    obtain ⟨e', found', rfl⟩ := Option.map_eq_some_iff.1 is
    exact leads _ e' found'

end Header

/-- Structuring a tidy graph makes code of these shapes. -/
theorem Tidy.lowers (tidy : g.Tidy) (active visited : List String) : g.LowersFrom active visited := by
  intro inLoop id live around
  have valid : id ≠ "" ∧ id ∈ g.ids := ⟨tidy.named id live, live.mem_ids⟩
  by_cases inner : (inLoop.isNone && g.plan.isInner id) = true
  · rw [Plan.lower_of_inner valid inner]
    cases inLoop with
    | none => exact .deferred (by simpa using inner)
    | some h => simp at inner
  have meets : g.plan.Meets inLoop id := ⟨valid, by simpa using inner⟩
  by_cases header : g.plan.loops.has id = true
  · obtain ⟨l, member, rfl⟩ := has_plan.1 header
    by_cases free : inLoop ≠ some l.header ∧ l.header ∉ active
    · have := g.plan.idle_cons_lt header free.2
      rw [Plan.lower_of_header meets header free]
      obtain ⟨b, found⟩ := exists_block live.mem_ids
      obtain ⟨listed, same⟩ := block?_eq_some found
      have inner := tidy.lowers (l.header :: active) []
      have behind := tidy.lowers (l.header :: active) visited
      have idle := free.2
      rw [← same] at inner behind idle ⊢
      cases branching : b.content.isBranching with
      | false => exact tidy.lowers_forever member listed same free.1 idle inner branching
      | true => exact tidy.lowers_choice member listed same free.1 idle inner branching around behind
    · rw [Plan.lower_of_busy meets header free]
      refine .again member ?_
      by_cases same : inLoop = some l.header
      · exact .inl same
      · exact .inr (by simpa [same] using free)
  · refine tidy.lowers_plain meets live around header (fun new => ?_) (fun new yes no => ?_)
    · have := g.plan.unseen_cons_lt live.mem_ids new
      exact tidy.lowers _ _
    · have := g.plan.unseen_cons_lt live.mem_ids new
      have := g.plan.unseen_withBranches_le yes no (id :: visited)
      exact tidy.lowers _ _
termination_by (g.plan.idle active, g.plan.unseen visited)
decreasing_by
  · exact Prod.Lex.left _ _ ‹_›
  · exact Prod.Lex.left _ _ ‹_›
  · exact Prod.Lex.right _ (by omega)
  · exact Prod.Lex.right _ (by omega)

end FlowGraph
end Flowchart
