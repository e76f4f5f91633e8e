import Flowchart.Proofs.Calls
import Flowchart.Proofs.Structuring
/-! Where structured code leaves a loop. A statement that does so is the last one of its list, and some loop
stands around it. Code that is made outside of any loop is put into loops too, where it follows an arrow out of
one, so what is shown of it holds with a loop around it and without. -/
namespace Flowchart

namespace Code

mutual
/-- The lists of statements in a statement, at any depth, each with whether the body of a loop is around it. -/
def Stmt.lists (looped : Bool) : Stmt → List (Bool × List Stmt)
  | .program _ body => (looped, body) :: Stmt.listsWithin looped body
  | .branch _ _ body orElse => (looped, body) :: (Stmt.listsWithin looped body ++ Stmt.listsElse looped orElse)
  | .loop _ _ body => (true, body) :: Stmt.listsWithin true body
  | _ => []
/-- The lists in several statements. -/
def Stmt.listsWithin (looped : Bool) : List Stmt → List (Bool × List Stmt)
  | [] => []
  | s :: rest => s.lists looped ++ Stmt.listsWithin looped rest
/-- The lists of an else part. -/
def Stmt.listsElse (looped : Bool) : Option (List Stmt) → List (Bool × List Stmt)
  | none => []
  | some body => (looped, body) :: Stmt.listsWithin looped body
end

variable {looped : Bool} {stmts more body thenPart : List Stmt} {orElse : Option (List Stmt)}
  {origin : Option Origin} {test : Expr}

/-- In a list, only the last statement leaves a loop, and only where a loop is around. -/
def EndsWell (looped : Bool) (stmts : List Stmt) : Prop :=
  ∀ before origin after, stmts = before ++ .leave origin :: after → looped = true ∧ after = []

/-- All the lists inside of the statements end well. -/
def WellInside (looped : Bool) (stmts : List Stmt) : Prop :=
  ∀ x ∈ Stmt.listsWithin looped stmts, EndsWell x.1 x.2

/-- The statements as a list of their own and all the lists inside of them end well. -/
def WellEnded (looped : Bool) (stmts : List Stmt) : Prop :=
  EndsWell looped stmts ∧ WellInside looped stmts

/-- Statements that may stand anywhere: all the lists inside of them end well, and none of them leaves a loop
itself. -/
structure Placed (looped : Bool) (stmts : List Stmt) : Prop where
  inside : WellInside looped stmts
  goesOn : ∀ origin, Stmt.leave origin ∉ stmts

theorem Stmt.listsWithin_append (looped : Bool) (stmts more : List Stmt) :
    Stmt.listsWithin looped (stmts ++ more) = Stmt.listsWithin looped stmts ++ Stmt.listsWithin looped more := by
  induction stmts with
  | nil => rfl
  | cons s rest ih => rw [List.cons_append, Stmt.listsWithin, Stmt.listsWithin, ih, List.append_assoc]

theorem Stmt.listsWithin_singleton (looped : Bool) (s : Stmt) : Stmt.listsWithin looped [s] = s.lists looped := by
  rw [Stmt.listsWithin, Stmt.listsWithin, List.append_nil]

theorem Stmt.lists_of_flat {s : Stmt} (flat : s.isAction = true ∨ s.isMarker = true) : s.lists looped = [] := by
  cases s with
  | program | branch | loop => simp [isAction, isMarker] at flat
  | _ => rfl

theorem WellInside.append (first : WellInside looped stmts) (second : WellInside looped more) :
    WellInside looped (stmts ++ more) := by
  intro x member
  rw [Stmt.listsWithin_append] at member
  rcases List.mem_append.1 member with before | later
  · exact first x before
  · exact second x later

theorem WellEnded.listsElse (part : WellEnded looped (orElse.getD [])) :
    ∀ x ∈ Stmt.listsElse looped orElse, EndsWell x.1 x.2 := by
  intro x member
  cases orElse with
  | none => cases member
  | some body =>
    rcases List.mem_cons.1 member with rfl | inside
    · exact part.1
    · exact part.2 x inside

namespace Placed

theorem nil : Placed looped [] := by
  refine ⟨fun x member => ?_, fun origin member => ?_⟩
  · cases member
  · cases member

theorem append (first : Placed looped stmts) (second : Placed looped more) : Placed looped (stmts ++ more) := by
  refine ⟨first.inside.append second.inside, fun origin member => ?_⟩
  rcases List.mem_append.1 member with before | later
  · exact first.goesOn origin before
  · exact second.goesOn origin later

theorem wellEnded (placed : Placed looped stmts) : WellEnded looped stmts := by
  refine ⟨fun before origin after is => absurd ?_ (placed.goesOn origin), placed.inside⟩
  rw [is]
  exact List.mem_append_right _ List.mem_cons_self

/-- Leaving the loop around, behind statements that may stand anywhere. -/
theorem leave (placed : Placed true stmts) (origin : Option Origin) : WellEnded true (stmts ++ [.leave origin]) := by
  constructor
  · intro before origin' after is
    refine ⟨rfl, ?_⟩
    rcases List.eq_nil_or_concat after with rfl | ⟨rest, last, rfl⟩
    · rfl
    -- Were the statement not the last, it would stand among those in front.
    · have front : stmts = before ++ .leave origin' :: rest := by
        have whole : stmts ++ [.leave origin] = (before ++ .leave origin' :: rest) ++ [last] := by
          rw [is, List.concat_eq_append, List.append_assoc, List.cons_append]
        exact (List.append_inj' whole rfl).1
      refine absurd ?_ (placed.goesOn origin')
      rw [front]
      exact List.mem_append_right _ List.mem_cons_self
  · refine placed.inside.append ?_
    intro x member
    rw [Stmt.listsWithin_singleton] at member
    cases member

/-- Statements of blocks and markers. -/
theorem flat (flat : ∀ s ∈ stmts, s.isAction = true ∨ s.isMarker = true) : Placed looped stmts := by
  refine ⟨?_, fun origin member => by simpa [Stmt.isAction, Stmt.isMarker] using flat _ member⟩
  induction stmts with
  | nil => exact nil.inside
  | cons s rest ih =>
    have others := ih fun s later => flat s (List.mem_cons_of_mem _ later)
    intro x member
    rw [Stmt.listsWithin, Stmt.lists_of_flat (flat s List.mem_cons_self)] at member
    exact others x member

theorem branch (inThen : WellEnded looped thenPart) (orElse : Option (List Stmt))
    (inElse : WellEnded looped (orElse.getD [])) : Placed looped [.branch origin test thenPart orElse] := by
  refine ⟨fun x member => ?_, by simp⟩
  rw [Stmt.listsWithin_singleton, Stmt.lists] at member
  rcases List.mem_cons.1 member with rfl | inside
  · exact inThen.1
  · rcases List.mem_append.1 inside with inside | inside
    · exact inThen.2 x inside
    · exact inElse.listsElse x inside

theorem loop (within : WellEnded true body) : Placed looped [.loop origin test body] := by
  refine ⟨fun x member => ?_, by simp⟩
  rw [Stmt.listsWithin_singleton, Stmt.lists] at member
  rcases List.mem_cons.1 member with rfl | inside
  · exact within.1
  · exact within.2 x inside

end Placed

end Code

namespace Plan
open Code (Placed WellEnded)
variable {p : Plan} {b : Block} {looped : Bool}

theorem placed_blockStmts (p : Plan) (b : Block) : Placed looped (p.blockStmts b) :=
  .flat (Interpretation.blockStmts_plain _ _)

theorem placed_ownStmts (p : Plan) (b : Block) : Placed looped (p.ownStmts b) := by
  rcases p.ownStmts_cases b with ⟨type, -, is⟩ | is
  · rw [is]
    exact .flat (by simp [Code.Stmt.isMarker])
  · rw [is]
    exact p.placed_blockStmts b

theorem placed_stmtsAt (p : Plan) (id : String) : Placed looped (p.stmtsAt id) := by
  rw [stmtsAt]
  cases p.graph.block? id with
  | none => exact .nil
  | some b => exact p.placed_blockStmts b

theorem placed_marks (p : Plan) (b : Block) : Placed looped (Code.test (p.origin b.id) b.content).1 :=
  .flat fun s mark => .inr (Interpretation.test_marks _ _ s mark)

theorem placed_choice {thenPart : List Code.Stmt} (inThen : WellEnded looped thenPart)
    (orElse : Option (List Code.Stmt)) (inElse : WellEnded looped (orElse.getD [])) :
    Placed looped (p.choice b thenPart orElse) :=
  (p.placed_marks b).append (.branch inThen orElse inElse)

theorem placed_repetition {test : Code.Expr} {body : List Code.Stmt} (within : WellEnded true body) :
    Placed looped (p.repetition b test body) :=
  (p.placed_marks b).append (.loop within)

/-- The header of the loop that a call is made in. -/
def Call.inLoop : Call → Option String
  | .block _ _ inLoop _ => inLoop
  | .arrow _ _ inLoop _ _ => inLoop
  | .each _ _ inLoop _ => inLoop
  | .loop _ _ inLoop _ => inLoop

/-- What is shown of the code of a call: behind an arrow it may end with leaving the loop, elsewhere not. -/
def Call.Places (looped : Bool) (stmts : List Code.Stmt) : Call → Prop
  | .arrow .. => WellEnded looped stmts
  | _ => Placed looped stmts

/-- Structured code leaves loops in good places, if there is a loop around it where it was made for one. -/
theorem Settles.places {depth : Nat} {call : Call} {r : Lowered} {calls : List Call}
    (settles : p.Settles depth call r calls) :
    ∀ looped, (call.inLoop.isSome = true → looped = true) → call.Places looped r.stmts := by
  induction settles with
  | nothing | deferred | again | met | done | headless => exact fun looped _ => .nil
  | noArrow | back => exact fun looped _ => Placed.nil.wellEnded
  | absent => exact fun looped _ => .flat (by simp [invalid, Code.Stmt.isMarker])
  | enter _ _ _ _ ih => exact ih
  | straight _ _ _ _ _ _ ih => exact fun looped around => (p.placed_ownStmts _).append (ih looped around)
  | @merge _ _ _ _ _ _ no _ _ _ _ _ _ _ _ _ _ _ _ _ _ ih =>
    intro looped around
    have inElse : Placed looped (p.stmtsAt no.target) := p.placed_stmtsAt _
    exact (placed_choice (p.placed_stmtsAt _).wellEnded (some _) inElse.wellEnded).append (ih looped around)
  | @parting _ _ _ _ b thenPart elsePart _ _ _ _ _ _ _ _ _ _ ihYes ihNo =>
    intro looped around
    have part : (if elsePart.stmts.isEmpty then none else some elsePart.stmts).getD [] = elsePart.stmts := by
      split
      · next empty => exact (List.isEmpty_iff.1 empty).symm
      · rfl
    refine placed_choice (ihYes looped around) _ ?_
    rw [part]
    exact ihNo looped around
  | onward _ _ ih => exact fun looped around => Placed.wellEnded (ih looped around)
  | finish around =>
    intro looped isLooped
    obtain ⟨h, rfl, -⟩ := isSome_of_loopBody around
    cases isLooped rfl
    exact Placed.nil.leave _
  | @exit _ _ _ body inLoop id e r _ around _ _ _ ih =>
    intro looped isLooped
    obtain ⟨h, rfl, -⟩ := isSome_of_loopBody around
    cases isLooped rfl
    have path : Placed true r.stmts := ih true fun _ => rfl
    change WellEnded true (p.leaving id body e.target r.stmts)
    rw [leaving]
    split
    · exact path.leave _
    · rw [List.append_nil]
      exact path.wellEnded
  | next _ _ ihFirst ihRest => exact fun looped around => .append (ihFirst looped around) (ihRest looped around)
  | forever _ _ _ ih => exact fun looped _ => .loop ((p.placed_blockStmts _).append (ih true fun _ => rfl)).wellEnded
  | unanswered _ _ _ _ _ ih =>
    exact fun looped _ => .loop ((p.placed_marks _).append (ih true fun _ => rfl)).wellEnded
  | sole =>
    intro looped _
    refine placed_repetition ((p.placed_stmtsAt _).append ?_).wellEnded
    exact .branch Placed.nil.wellEnded none Placed.nil.wellEnded
  | turning _ _ _ _ _ _ _ _ ih ihAfter =>
    intro looped around
    exact (placed_repetition (Placed.wellEnded (ih true fun _ => rfl))).append (ihAfter looped around)
  | choosing _ _ _ _ _ _ ihYes ihNo =>
    intro looped _
    have inThen := Placed.wellEnded (ihYes true fun _ => rfl)
    have inElse := Placed.wellEnded (ihNo true fun _ => rfl)
    exact placed_repetition (Placed.branch inThen (some _) inElse).wellEnded

end Plan

namespace Diagram

/-- The code of a diagram is a marker, or what structuring makes from its start on. -/
theorem compile_cases (d : Diagram) :
    (∃ origin reason, d.compile.stmts = [.unsupported origin reason]) ∨
      ∃ start, d.flowGraph.start? = some start ∧
        d.compile.stmts = (d.flowGraph.plan.lower [] [] none start).stmts := by
  by_cases none : d.blocks.isEmpty = true
  · rw [compile, if_pos none]
    exact .inl ⟨_, _, rfl⟩
  cases first : d.flowGraph.start? with
  | none =>
    rw [compile, if_neg none, FlowGraph.compile, first]
    exact .inl ⟨_, _, rfl⟩
  | some start =>
    rcases compile_stmts first with is | ⟨-, is⟩
    · exact .inr ⟨start, rfl, is⟩
    · exact .inl ⟨_, _, is⟩

/-- In the program of a diagram, a statement that leaves a loop is the last one of the list it stands in, and
that list lies inside of a loop. -/
theorem compile_leaves_last_in_loop (d : Diagram) (looped : Bool) (before after : List Code.Stmt)
    (origin : Option Code.Origin)
    (there : (looped, before ++ .leave origin :: after) ∈ d.compile.program.lists false) :
    looped = true ∧ after = [] := by
  have placed : Code.Placed false d.compile.stmts := by
    rcases d.compile_cases with ⟨_, _, is⟩ | ⟨start, -, is⟩
    · rw [is]
      exact .flat (by simp [Code.Stmt.isMarker])
    · obtain ⟨calls, settles⟩ := d.flowGraph.plan.ends (.block [] [] none (some start)) 0
      rw [is]
      exact settles.places false (by simp [Plan.Call.inLoop])
  have ended := placed.wellEnded
  rcases List.mem_cons.1 there with top | inside
  · obtain ⟨rfl, is⟩ := Prod.mk.inj top
    exact ended.1 before origin after is.symm
  · exact ended.2 _ inside before origin after rfl

/-- A loop that is left from inside, with something to do before. -/
theorem compile_leaves_last_quitting :
    ∃ before origin after, before ≠ [] ∧
      (true, before ++ .leave origin :: after) ∈ (quitting true).compile.program.lists false ∧ after = [] := by
  let origin := Code.originOf (quitting true).flowGraph
  let way : List Code.Stmt := [.print (origin "y") []] ++ .leave (origin "q") :: []
  have first : (quitting true).flowGraph.start? = some "s" := by decide
  have code : (quitting true).compile.stmts = [.loop (origin "c") (.ident ⟨origin "c", "more"⟩)
      [.branch (origin "q") (.ident ⟨origin "q", "more"⟩) way none]] := by
    let p : Plan := ⟨(quitting true).flowGraph, [⟨"c", ["c", "q"]⟩]⟩
    have around : p.loopBody (some "c") = some ["c", "q"] := rfl
    have path : p.Settles 2 (.block ["c"] ["q"] none (some "y")) _ _ :=
      .pass (b := ⟨"y", none, .output none⟩) rfl (by decide) rfl (settles_end_quitting true 0 (by decide))
    have leaves : p.Settles 3 (.arrow ["c"] ["q"] (some "c") "q" (p.graph.branch? "q" "yes")) _ _ :=
      .exit (e := ⟨"q", "y", some "yes", none⟩) around (by decide) (by decide) path
    exact compile_stmts_of_cons first (stmts_quitting leaves (settles_end_quitting true 3 (by decide)))
  have there : (true, way) ∈ (quitting true).compile.program.lists false := by
    rw [Compiled.program, code]
    simp [Code.Stmt.lists, Code.Stmt.listsWithin]
  exact ⟨_, _, _, by simp, there, (compile_leaves_last_in_loop _ _ _ _ _ there).2⟩

end Diagram

end Flowchart
