import Flowchart.Code.OfBlock
import Flowchart.FlowGraph.Loop
/-! Nested code from a flow graph. The graph is followed from block to block; a conditional becomes a
branch, a loop header a loop whose body is followed on its own. Every step either starts a loop
that was not being followed, or meets a block for the first time, so the work comes to an end for
any set of loops. -/
namespace Flowchart

/-- A flow graph with the loops that are to be kept. -/
structure Plan where
  graph : FlowGraph
  loops : Loops

/-- Statements, the blocks met so far, and the notes of the work. -/
structure Lowered where
  stmts : List Code.Stmt
  visited : List String
  notes : List Note

namespace Lowered

/-- No statements. -/
def nothing (visited : List String) : Lowered :=
  ⟨[], visited, []⟩

/-- Puts statements and notes in front. -/
def after (stmts : List Code.Stmt) (notes : List Note) (l : Lowered) : Lowered :=
  ⟨stmts ++ l.stmts, l.visited, notes ++ l.notes⟩

end Lowered

namespace Plan

def origin (p : Plan) (id : String) : Option Code.Origin :=
  Code.originOf p.graph id

/-- The statements of a block itself. -/
def blockStmts (p : Plan) (b : Block) : List Code.Stmt :=
  Code.blockStmts (p.origin b.id) b.content

/-- The statements of the block with the given id. -/
def stmtsAt (p : Plan) (id : String) : List Code.Stmt :=
  ((p.graph.block? id).map p.blockStmts).getD []

/-- The notes on the statements of the block with the given id. -/
def notesAt (p : Plan) (id : String) : List Note :=
  ((p.graph.block? id).map fun b => Code.blockNotes b.content).getD []

/-- The marker for a block that is not there. -/
def invalid (id : Option String) : Code.Stmt :=
  .unsupported (some ⟨id, id.map .text⟩) ("Invalid or missing node ID: " ++ id.getD "None")

/-- Whether a block follows the header of a loop that it belongs to. Reached from outside of any
loop, it is left to that header. -/
def isInner (p : Plan) (id : String) : Bool :=
  p.loops.any fun l => l.header != id && l.body.contains id && (p.graph.successors l.header).contains id

/-- Whether a block is a straight one outside of the headers. -/
def isStraight (p : Plan) (id : String) : Bool :=
  !p.loops.has id && (p.graph.block? id).any (·.content.isStraight)

/-- The block where two branches of one straight block each meet again, within the loop where there
is one. -/
def merge? (p : Plan) (yes no : Option Arrow) (body : Option (List String)) : Option String :=
  match yes, no with
  | some yes, some no =>
    if p.isStraight yes.target && p.isStraight no.target then
      match p.graph.successors yes.target, p.graph.successors no.target with
      | next :: _, next' :: _ =>
        if next == next' && body.all (·.contains next) then some next else none
      | _, _ => none
    else none
  | _, _ => none

/-- Whether code that ends with a statement of the given origin leaves the loop behind: no block of
the loop follows. -/
def leaves (p : Plan) (body : List String) (last : Option String) : Bool :=
  match last with
  | none => true
  | some id => (p.graph.successors id).all fun s => !body.contains s

/-- The id of the block that the last of the statements came from. -/
def lastId (stmts : List Code.Stmt) (otherwise : String) : Option String :=
  match stmts.getLast? with
  | none => some otherwise
  | some s =>
    match s.origin with
    | none => some otherwise
    | some o => o.id

/-- The number of headers whose loops are not being followed. -/
def idle (p : Plan) (active : List String) : Nat :=
  p.loops.countP fun l => !active.contains l.header

/-- The number of blocks not met yet. -/
def unseen (p : Plan) (visited : List String) : Nat :=
  p.graph.ids.countP fun id => !visited.contains id

theorem unseen_le (p : Plan) (visited : List String) : p.unseen visited ≤ p.graph.ids.length :=
  List.countP_le_length

theorem unseen_anti (p : Plan) {visited more : List String} (grown : ∀ id ∈ visited, id ∈ more) :
    p.unseen more ≤ p.unseen visited := by
  refine List.countP_mono_left fun id _ => ?_
  simp only [Bool.not_eq_true', List.contains_eq_mem, decide_eq_false_iff_not]
  exact fun new old => new (grown id old)

theorem countP_lt_countP {α : Type} {p q : α → Bool} {l : List α} {a : α}
    (weaker : ∀ x ∈ l, p x = true → q x = true) (member : a ∈ l) (before : q a = true) (now : p a = false) :
    l.countP p < l.countP q := by
  induction l with
  | nil => simp at member
  | cons x rest ih =>
    simp only [List.countP_cons]
    have rest_le : rest.countP p ≤ rest.countP q :=
      List.countP_mono_left fun y inside => weaker y (List.mem_cons_of_mem _ inside)
    rcases List.mem_cons.1 member with rfl | inside
    · simp [before, now]
      omega
    · have := ih (fun y h => weaker y (List.mem_cons_of_mem _ h)) inside
      have head := weaker x (by simp)
      grind

theorem unseen_cons_lt (p : Plan) {visited : List String} {id : String} (there : id ∈ p.graph.ids)
    (new : id ∉ visited) : p.unseen (id :: visited) < p.unseen visited := by
  refine countP_lt_countP (fun x _ => ?_) there (by simpa using new) (by simp)
  simp only [List.contains_cons, Bool.not_or, Bool.and_eq_true]
  exact And.right

theorem idle_cons_lt (p : Plan) {active : List String} {id : String} (header : p.loops.has id = true)
    (new : id ∉ active) : p.idle (id :: active) < p.idle active := by
  obtain ⟨l, member, same⟩ := List.any_eq_true.1 header
  have same : l.header = id := by simpa using same
  subst same
  refine countP_lt_countP (fun x _ => ?_) member (by simpa using new) (by simp)
  simp only [List.contains_cons, Bool.not_or, Bool.and_eq_true]
  exact And.right

/-- The blocks met once two branches of one block each are taken. -/
def withBranches (yes no : String) (visited : List String) : List String :=
  yes :: no :: visited

theorem unseen_withBranches_le (p : Plan) (yes no : String) (visited : List String) :
    p.unseen (withBranches yes no visited) ≤ p.unseen visited :=
  p.unseen_anti fun _ h => List.mem_cons_of_mem _ (List.mem_cons_of_mem _ h)

/-- Joins the two branches of a conditional: what both have met counts as met. -/
def bothMet (visited yes no : List String) : List String :=
  visited ++ yes.filter fun id => no.contains id && !visited.contains id

mutual
/-- The code from a block on. `active` are the headers of the loops being followed, `visited` the
blocks met, `inLoop` the header of the innermost loop. -/
def lower (p : Plan) (active visited : List String) (inLoop : Option String) (id : String) : Lowered :=
  if valid : id ≠ "" ∧ id ∈ p.graph.ids then
    if inLoop.isNone && p.isInner id then .nothing visited
    else if header : p.loops.has id then
      if free : inLoop ≠ some id ∧ id ∉ active then
        have := p.idle_cons_lt header free.2
        lowerLoop p (id :: active) visited inLoop id
      else .nothing visited
    else if new : id ∉ visited then
      match p.graph.block? id with
      | none => .nothing visited
      | some b =>
        match b.content with
        | .finish => .nothing (id :: visited)
        | .conditional _ =>
          let body := (inLoop.filter (· ≠ "")).bind p.loops.body?
          let yes := p.graph.branch? id "yes"
          let no := p.graph.branch? id "no"
          let (marks, test) := Code.test (p.origin id) b.content
          match p.merge? yes no body, yes, no with
          | some next, some yes, some no =>
            let stmt := Code.Stmt.branch (p.origin id) test (p.stmtsAt yes.target)
              (some (p.stmtsAt no.target))
            let notes := Code.testNotes b.content ++ p.notesAt yes.target ++ p.notesAt no.target
            have := p.unseen_withBranches_le yes.target no.target (id :: visited)
            have := p.unseen_cons_lt valid.2 new
            (if (withBranches yes.target no.target (id :: visited)).contains next then
              .nothing (withBranches yes.target no.target (id :: visited))
            else lower p active (withBranches yes.target no.target (id :: visited)) inLoop next).after
              (marks ++ [stmt]) notes
          | _, _, _ =>
            have := p.unseen_cons_lt valid.2 new
            let thenPart := lowerBranch p active (id :: visited) inLoop body id yes
            let elsePart := lowerBranch p active (id :: visited) inLoop body id no
            let orElse := if elsePart.stmts.isEmpty then none else some elsePart.stmts
            ⟨marks ++ [.branch (p.origin id) test thenPart.stmts orElse],
              bothMet (id :: visited) thenPart.visited elsePart.visited,
              Code.testNotes b.content ++ thenPart.notes ++ elsePart.notes⟩
        | content =>
          let own :=
            match content with
            | .unknown type =>
              [Code.Stmt.unsupported (p.origin id) ("Node '" ++ type.display ++ "' not supported.")]
            | content => Code.blockStmts (p.origin id) content
          match p.graph.successors id with
          | [] => (Lowered.nothing (id :: visited)).after own (Code.blockNotes content)
          | next :: _ =>
            have := p.unseen_cons_lt valid.2 new
            (lower p active (id :: visited) inLoop next).after own (Code.blockNotes content)
    else .nothing visited
  else ⟨[invalid (some id)], visited, []⟩
termination_by (p.idle active, p.unseen visited, 0)
decreasing_by
  · exact Prod.Lex.left _ _ ‹_›
  all_goals exact Prod.Lex.right _ (Prod.Lex.left _ _ (by omega))
/-- The code behind one labelled arrow of a conditional. Inside a loop, an arrow out of the loop
ends with leaving it, and one back to the header needs no code. -/
def lowerBranch (p : Plan) (active visited : List String) (inLoop : Option String)
    (body : Option (List String)) (id : String) (arrow : Option Arrow) : Lowered :=
  match arrow with
  | none => .nothing visited
  | some arrow =>
    match inLoop, body with
    | some header, some body =>
      if body.contains arrow.target then
        if arrow.target = header then .nothing visited
        else lower p active visited (some header) arrow.target
      else if (p.graph.block? arrow.target).any (·.content.isFinish) then
        ⟨[.leave (p.origin id)], visited, []⟩
      else
        let out := lower p active visited none arrow.target
        if p.leaves body (lastId out.stmts arrow.target) then
          { out with stmts := out.stmts ++ [.leave (p.origin id)] }
        else out
    | inLoop, _ => lower p active visited inLoop arrow.target
termination_by (p.idle active, p.unseen visited, 1)
decreasing_by all_goals exact Prod.Lex.right _ (Prod.Lex.right _ Nat.one_pos)
/-- The code from several blocks on, one after the other. -/
def lowerEach (p : Plan) (active visited : List String) (inLoop : Option String)
    (ids : List String) : Lowered :=
  match ids with
  | [] => .nothing visited
  | id :: rest =>
    have := p.unseen_le visited
    let first := lower p active visited inLoop id
    (lowerEach p active first.visited inLoop rest).after first.stmts first.notes
termination_by (p.idle active, p.graph.ids.length + 1, ids.length)
decreasing_by
  · exact Prod.Lex.right _ (Prod.Lex.left _ _ (by omega))
  · exact Prod.Lex.right _ (Prod.Lex.right _ (by simp))
/-- The code of a loop, and where its header is left by a labelled arrow, the code behind that
arrow. The header is among the active ones. -/
def lowerLoop (p : Plan) (active visited : List String) (inLoop : Option String) (header : String) :
    Lowered :=
  match p.graph.block? header with
  | none => .nothing visited
  | some b =>
    let origin := p.origin header
    let body := (p.loops.body? header).getD []
    let outs := p.graph.outgoing header
    let inside (arrows : List Arrow) : List String :=
      (arrows.map Arrow.target).filter fun t => body.contains t
    let outside (arrows : List Arrow) : List String :=
      (arrows.map Arrow.target).filter fun t => !body.contains t
    let plain (marks : List Code.Stmt) (notes : List Note) : Lowered :=
      let inner := lowerEach p active [] (some header) (inside outs)
      ⟨[.loop origin (.truth origin true) (marks ++ inner.stmts)], visited, notes ++ inner.notes⟩
    match b.content with
    | .conditional _ =>
      let (marks, test) := Code.test origin b.content
      let notes := Code.testNotes b.content
      let yes := outs.filter (·.label == some "yes")
      let no := outs.filter (·.label == some "no")
      match p.graph.predecessors header with
      | [entry] =>
        let warning := if body.contains entry then [Note.soleEntry header entry] else []
        let check := Code.Stmt.branch origin test [] none
        ⟨marks ++ [.loop origin (.truth origin true) (p.stmtsAt entry ++ [check])], visited,
          notes ++ warning ++ p.notesAt entry⟩
      | _ =>
        match (inside yes).isEmpty, (inside no).isEmpty with
        | false, true =>
          let inner := lowerEach p active [] (some header) (inside yes)
          (lowerEach p active visited inLoop (outside no)).after
            (marks ++ [.loop origin test inner.stmts]) (notes ++ inner.notes)
        | true, false =>
          let inner := lowerEach p active [] (some header) (inside no)
          let negated := Code.Expr.binary origin "==" test (.truth origin false)
          (lowerEach p active visited inLoop (outside yes)).after
            (marks ++ [.loop origin negated inner.stmts]) (notes ++ inner.notes)
        | false, false =>
          let thenPart := lowerEach p active [] (some header) (inside yes)
          let elsePart := lowerEach p active [] (some header) (inside no)
          let choice := Code.Stmt.branch origin test thenPart.stmts (some elsePart.stmts)
          ⟨marks ++ [.loop origin (.truth origin true) [choice]], visited,
            notes ++ thenPart.notes ++ elsePart.notes⟩
        | true, true => plain marks notes
    | content =>
      plain (Code.blockStmts origin content) (Code.blockNotes content)
termination_by (p.idle active, p.graph.ids.length + 2, 0)
decreasing_by all_goals exact Prod.Lex.right _ (Prod.Lex.left _ _ (by omega))
end

/-- The code from a block on, with nothing being followed yet. -/
def lowerFrom (p : Plan) (visited : List String) (inLoop : Option String) (id : Option String) : Lowered :=
  match id with
  | some id => lower p [] visited inLoop id
  | none => ⟨[invalid none], visited, []⟩

end Plan

end Flowchart
