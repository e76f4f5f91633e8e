import Flowchart.Proofs.Behaviour
/-! The cases of structuring, one equation each: a block without a test, two branches that meet again at
once, branches that part, and the shapes of a loop. What comes after a block is left as the code that
structuring makes of its successor. -/
namespace Flowchart.Plan
variable {p : Plan} {active visited : List String} {inLoop : Option String} {id : String} {b : Block}

/-- Structuring meets the block: it is there, and not left to a header that it follows. -/
structure Meets (p : Plan) (inLoop : Option String) (id : String) : Prop where
  valid : id ≠ "" ∧ id ∈ p.graph.ids
  outer : (inLoop.isNone && p.isInner id) = false

/-- The body of the loop that is being followed. -/
def loopBody (p : Plan) (inLoop : Option String) : Option (List String) :=
  (inLoop.filter (· ≠ "")).bind p.loops.body?

/-- What a block without a test becomes by itself. -/
def ownStmts (p : Plan) (b : Block) : List Code.Stmt :=
  match b.content with
  | .unknown type => [.unsupported (p.origin b.id) ("Node '" ++ type.display ++ "' not supported.")]
  | content => Code.blockStmts (p.origin b.id) content

/-- What structuring makes from a block on, if there is one. -/
def lowerOn (p : Plan) (active visited : List String) (inLoop current : Option String) : Lowered :=
  match current with
  | none => .nothing visited
  | some id => p.lower active visited inLoop id

/-- The code behind a block that may be followed by nothing. -/
def lowerNext (p : Plan) (active visited : List String) (inLoop current : Option String) :
    List Code.Stmt :=
  match current with
  | none => []
  | some id => (p.lower active visited inLoop id).stmts

theorem stmts_lowerOn (current : Option String) :
    (p.lowerOn active visited inLoop current).stmts = p.lowerNext active visited inLoop current := by
  cases current <;> rfl

/-! The whole result in each case: the code, the blocks met and the notes. -/

theorem lower_of_absent (absent : ¬(id ≠ "" ∧ id ∈ p.graph.ids)) :
    p.lower active visited inLoop id = ⟨[invalid (some id)], visited, []⟩ := by
  rw [lower, dif_neg absent]

theorem lower_of_inner (valid : id ≠ "" ∧ id ∈ p.graph.ids)
    (inner : (inLoop.isNone && p.isInner id) = true) : p.lower active visited inLoop id = .nothing visited := by
  rw [lower, dif_pos valid, if_pos inner]

theorem lower_of_busy (meets : p.Meets inLoop id) (header : p.loops.has id = true)
    (busy : ¬(inLoop ≠ some id ∧ id ∉ active)) : p.lower active visited inLoop id = .nothing visited := by
  rw [lower, dif_pos meets.valid, meets.outer, dif_pos header, dif_neg busy]
  rfl

theorem lower_of_header (meets : p.Meets inLoop id) (header : p.loops.has id = true)
    (free : inLoop ≠ some id ∧ id ∉ active) :
    p.lower active visited inLoop id = p.lowerLoop (id :: active) visited inLoop id := by
  rw [lower, dif_pos meets.valid, meets.outer, dif_pos header, dif_pos free]
  rfl

section Plain
variable (meets : p.Meets inLoop id) (plain : ¬p.loops.has id = true)
include meets plain

theorem lower_of_met (old : id ∈ visited) : p.lower active visited inLoop id = .nothing visited := by
  rw [lower, dif_pos meets.valid, meets.outer, dif_neg plain, dif_neg (fun new => new old)]
  rfl

variable (new : id ∉ visited) (found : p.graph.block? id = some b)
include new found

theorem lower_of_straight (same : b.id = id) (straight : b.content.isBranching = false) :
    p.lower active visited inLoop id =
      (p.lowerOn active (id :: visited) inLoop (Run.next? p.graph b none)).after (p.ownStmts b)
        (Code.blockNotes b.content) := by
  subst same
  rw [lower, dif_pos meets.valid, meets.outer, dif_neg plain, dif_pos new, found]
  cases content : b.content with
  | finish =>
    simp [Run.next?, content, Content.isFinish, ownStmts, Code.blockStmts, Code.blockNotes, lowerOn,
      Lowered.nothing, Lowered.after]
  | conditional => simp [content, Content.isBranching] at straight
  | _ =>
    simp only [Run.next?, content, Content.isFinish, ownStmts, Bool.false_eq_true, ↓reduceIte]
    cases p.graph.successors b.id <;> rfl

variable (branching : b.content.isBranching = true)
include branching

/-- Where the two branches meet again at once, what is behind that place comes after the branch. -/
theorem lower_of_merge {yes no : Arrow} {next : String} (yesIs : p.graph.branch? id "yes" = some yes)
    (noIs : p.graph.branch? id "no" = some no)
    (merges : p.merge? (some yes) (some no) (p.loopBody inLoop) = some next) :
    p.lower active visited inLoop id =
      (if (withBranches yes.target no.target (id :: visited)).contains next then
        .nothing (withBranches yes.target no.target (id :: visited))
      else p.lower active (withBranches yes.target no.target (id :: visited)) inLoop next).after
        ((Code.test (p.origin id) b.content).1 ++
          [.branch (p.origin id) (Code.test (p.origin id) b.content).2 (p.stmtsAt yes.target)
            (some (p.stmtsAt no.target))])
        (Code.testNotes b.content ++ p.notesAt yes.target ++ p.notesAt no.target) := by
  rw [lower, dif_pos meets.valid, meets.outer, dif_neg plain, dif_pos new, found]
  cases content : b.content with
  | conditional e =>
    simp only [content, Bool.false_eq_true, ↓reduceIte, yesIs, noIs]
    rw [show (Option.filter (fun x => decide (x ≠ "")) inLoop).bind p.loops.body? = p.loopBody inLoop from rfl,
      merges]
  | _ => simp [content, Content.isBranching] at branching

theorem lower_of_parting
    (parts : p.merge? (p.graph.branch? id "yes") (p.graph.branch? id "no") (p.loopBody inLoop) = none) :
    p.lower active visited inLoop id =
      let thenPart := p.lowerBranch active (id :: visited) inLoop (p.loopBody inLoop) id (p.graph.branch? id "yes")
      let elsePart := p.lowerBranch active (id :: visited) inLoop (p.loopBody inLoop) id (p.graph.branch? id "no")
      ⟨(Code.test (p.origin id) b.content).1 ++
          [.branch (p.origin id) (Code.test (p.origin id) b.content).2 thenPart.stmts
            (if elsePart.stmts.isEmpty then none else some elsePart.stmts)],
        bothMet (id :: visited) thenPart.visited elsePart.visited,
        Code.testNotes b.content ++ thenPart.notes ++ elsePart.notes⟩ := by
  rw [lower, dif_pos meets.valid, meets.outer, dif_neg plain, dif_pos new, found]
  cases content : b.content with
  | conditional e =>
    simp only [content, Bool.false_eq_true, ↓reduceIte]
    rw [show (Option.filter (fun x => decide (x ≠ "")) inLoop).bind p.loops.body? = p.loopBody inLoop from rfl,
      parts]
  | _ => simp [content, Content.isBranching] at branching

end Plain

/-! The code alone. -/

theorem isStraight_iff : p.isStraight id = true ↔
    ¬p.loops.has id = true ∧ ∃ b, p.graph.block? id = some b ∧ b.content.isStraight = true := by
  simp only [isStraight, Bool.and_eq_true, Bool.not_eq_true', Option.any_eq_true, Bool.not_eq_true]

/-- Branches that meet again at once have one straight block each, which leads to the place they meet. -/
theorem merge?_eq_some {yes no : Arrow} {body : Option (List String)} {next : String}
    (merges : p.merge? (some yes) (some no) body = some next) :
    (p.isStraight yes.target = true ∧ (p.graph.successors yes.target).head? = some next) ∧
      p.isStraight no.target = true ∧ (p.graph.successors no.target).head? = some next := by
  unfold merge? at merges
  grind

theorem exists_of_merge? {yes no : Option Arrow} {body : Option (List String)} {next : String}
    (merges : p.merge? yes no body = some next) : ∃ yes' no', yes = some yes' ∧ no = some no' := by
  cases yes with
  | none => simp [merge?] at merges
  | some yes' =>
    cases no with
    | none => simp [merge?] at merges
    | some no' => exact ⟨yes', no', rfl, rfl⟩

/-- Within a loop, branches meet in the loop. -/
theorem merge?_within {yes no : Arrow} {body : List String} {next : String}
    (merges : p.merge? (some yes) (some no) (some body) = some next) : next ∈ body := by
  unfold merge? at merges
  grind

/-- Where the two branches meet again at once, the code behind that place comes after the branch. -/
theorem lower_stmts_of_merge {yes no : Arrow} {next : String} (meets : p.Meets inLoop id)
    (plain : ¬p.loops.has id = true) (new : id ∉ visited) (found : p.graph.block? id = some b)
    (branching : b.content.isBranching = true) (yesIs : p.graph.branch? id "yes" = some yes)
    (noIs : p.graph.branch? id "no" = some no)
    (merges : p.merge? (some yes) (some no) (p.loopBody inLoop) = some next) :
    (p.lower active visited inLoop id).stmts = (Code.test (p.origin id) b.content).1 ++
      [.branch (p.origin id) (Code.test (p.origin id) b.content).2 (p.stmtsAt yes.target)
        (some (p.stmtsAt no.target))] ++
      if (withBranches yes.target no.target (id :: visited)).contains next then []
      else (p.lower active (withBranches yes.target no.target (id :: visited)) inLoop next).stmts := by
  rw [lower_of_merge meets plain new found branching yesIs noIs merges, Lowered.after]
  split <;> rfl

theorem lower_stmts_of_parting (meets : p.Meets inLoop id)
    (plain : ¬p.loops.has id = true) (new : id ∉ visited) (found : p.graph.block? id = some b)
    (branching : b.content.isBranching = true)
    (parts : p.merge? (p.graph.branch? id "yes") (p.graph.branch? id "no") (p.loopBody inLoop) = none) :
    ∃ orElse : Option (List Code.Stmt),
      orElse.getD [] = (p.lowerBranch active (id :: visited) inLoop (p.loopBody inLoop) id
        (p.graph.branch? id "no")).stmts ∧
      (p.lower active visited inLoop id).stmts = (Code.test (p.origin id) b.content).1 ++
        [.branch (p.origin id) (Code.test (p.origin id) b.content).2
          (p.lowerBranch active (id :: visited) inLoop (p.loopBody inLoop) id
            (p.graph.branch? id "yes")).stmts orElse] := by
  rw [lower_of_parting meets plain new found branching parts]
  refine ⟨_, ?_, rfl⟩
  split
  · next empty => simpa using empty.symm
  · rfl

theorem lowerEach_singleton : (p.lowerEach active visited inLoop [id]).stmts =
    (p.lower active visited inLoop id).stmts := by
  rw [lowerEach, lowerEach]
  simp [Lowered.after, Lowered.nothing]

section Loop
variable {header next : String} {body : List String} {yes no : Arrow}

theorem lowerLoop_stmts_of_straight (found : p.graph.block? header = some b)
    (straight : b.content.isBranching = false) (bodyIs : p.loops.body? header = some body)
    (only : p.graph.successors header = [next]) (inside : next ∈ body) :
    (p.lowerLoop active visited inLoop header).stmts =
      [.loop (p.origin header) (.truth (p.origin header) true)
        (Code.blockStmts (p.origin header) b.content ++
          (p.lower active [] (some header) next).stmts)] := by
  have targets : ((p.graph.outgoing header).map Arrow.target).filter (fun t => body.contains t) = [next] := by
    rw [show (p.graph.outgoing header).map Arrow.target = [next] from only]
    simp [inside]
  rw [lowerLoop, found]
  cases content : b.content with
  | conditional e => simp [content, Content.isBranching] at straight
  | _ =>
    simp only [content, bodyIs, Option.getD_some]
    rw [targets, lowerEach_singleton]

/-- A loop whose header goes on inside with either answer. -/
theorem lowerLoop_stmts_of_both (found : p.graph.block? header = some b)
    (branching : b.content.isBranching = true) (bodyIs : p.loops.body? header = some body)
    (entered : ∀ entry, p.graph.predecessors header ≠ [entry])
    (yesIs : (p.graph.outgoing header).filter (·.label == some "yes") = [yes])
    (noIs : (p.graph.outgoing header).filter (·.label == some "no") = [no])
    (yesInside : yes.target ∈ body) (noInside : no.target ∈ body) :
    (p.lowerLoop active visited inLoop header).stmts =
      (Code.test (p.origin header) b.content).1 ++
        [.loop (p.origin header) (.truth (p.origin header) true)
          [.branch (p.origin header) (Code.test (p.origin header) b.content).2
            (p.lower active [] (some header) yes.target).stmts
            (some (p.lower active [] (some header) no.target).stmts)]] := by
  rw [lowerLoop, found]
  cases content : b.content with
  | conditional e =>
    simp [content, bodyIs, yesIs, noIs, yesInside, noInside, lowerEach_singleton]
  | _ => simp [content, Content.isBranching] at branching

end Loop

end Flowchart.Plan

namespace Flowchart.Diagram
variable {d : Diagram} {start : String}

theorem compile_stmts_eq (some_blocks : d.blocks ≠ []) : d.compile.stmts = d.flowGraph.compile.stmts := by
  rw [compile, if_neg (by simpa using some_blocks)]

theorem blocks_ne_nil_of_start (first : d.flowGraph.start? = some start) : d.blocks ≠ [] := by
  intro none
  simp [flowGraph, FlowGraph.build, none, distinctBlocks, FlowGraph.start?, FlowGraph.starts] at first

/-- The code of a diagram with a start is what structuring makes, or one marker if that is nothing. -/
theorem compile_stmts (first : d.flowGraph.start? = some start) :
    d.compile.stmts = (d.flowGraph.plan.lower [] [] none start).stmts ∨
      (d.flowGraph.plan.lower [] [] none start).stmts = [] ∧
        d.compile.stmts = [.unsupported (d.flowGraph.plan.origin start)
          "Empty diagram - only Start node with no meaningful connections"] := by
  rw [compile_stmts_eq (blocks_ne_nil_of_start first), FlowGraph.compile, first]
  dsimp only
  split
  · next empty => exact .inr ⟨List.isEmpty_iff.1 empty, rfl⟩
  · exact .inl rfl

theorem compile_stmts_of_cons {s : Code.Stmt} {rest : List Code.Stmt} (first : d.flowGraph.start? = some start)
    (lowered : (d.flowGraph.plan.lower [] [] none start).stmts = s :: rest) : d.compile.stmts = s :: rest := by
  rcases compile_stmts first with is | ⟨empty, -⟩
  · rw [is, lowered]
  · rw [lowered] at empty
    cases empty

end Flowchart.Diagram
