import Flowchart.Drawing.OfGraph
import Flowchart.Proofs.Regions
/-! The drawing of a flow graph marks its back arrows. A drawing is given the loops alone and finds the arrows that
turn back again from their bodies: an arrow into a header from inside of its loop. Since a header dominates all its
loop, and only blocks that can be reached lie in loops, these are the arrows that closed the loops. -/
namespace Flowchart.FlowGraph
open Dot
variable {g : FlowGraph} {ls : Loops} {a : Arrow} {s t : String} {label : Option String}
  {attributes : List (String × String)}

/-- The sources and targets of the arrows that go to the header of a loop from inside its body. -/
def turns (g : FlowGraph) (ls : Loops) : List (String × String) :=
  ls.flatMap fun l => ((g.predecessors l.header).filter l.body.contains).map fun p => (p, l.header)

theorem mem_turns : (s, t) ∈ g.turns ls ↔ ∃ a ∈ g.arrows, a.source = s ∧ a.target = t ∧ isDashed ls a = true := by
  simp only [turns, isDashed, List.mem_flatMap, List.mem_map, List.mem_filter, Prod.mk.injEq, mem_predecessors,
    List.any_eq_true, Bool.and_eq_true, beq_iff_eq, List.contains_iff_mem]
  constructor
  · rintro ⟨l, member, _, ⟨⟨a, listed, target, rfl⟩, inside⟩, rfl, rfl⟩
    exact ⟨a, listed, rfl, target, l, member, target.symm, inside⟩
  · rintro ⟨a, listed, rfl, rfl, l, member, header, inside⟩
    exact ⟨l, member, a.source, ⟨⟨a, listed, header.symm, rfl⟩, inside⟩, rfl, header⟩

/-- An arrow is dashed by where it leaves and where it leads, so arrows between the same blocks are drawn alike. -/
theorem isDashed_iff (listed : a ∈ g.arrows) : isDashed ls a = true ↔ (a.source, a.target) ∈ g.turns ls := by
  rw [mem_turns]
  constructor
  · intro dashed
    exact ⟨a, listed, rfl, rfl, dashed⟩
  · rintro ⟨other, -, source, target, dashed⟩
    rwa [isDashed, source, target] at dashed

/-- From inside of a loop an arrow to the header is a back arrow, since the header dominates the body; and a back
arrow lies in the loop that it closes. -/
theorem isDashed_iff_closesLoop (listed : a ∈ g.arrows) :
    isDashed (g.loops (.ofGraph g)) a = true ↔ g.ClosesLoop a := by
  simp only [isDashed, List.any_eq_true, Bool.and_eq_true, beq_iff_eq, List.contains_iff_mem]
  constructor
  · rintro ⟨l, member, header, inside⟩
    exact ⟨listed, reachable_of_mem_body member inside, header ▸ header_dominates member inside⟩
  · intro closes
    obtain ⟨l, member, header, inside⟩ := closes.loop
    exact ⟨l, member, header, inside⟩

/-- Every arrow of the graph is drawn, and nothing else is drawn as an arrow. -/
theorem arrow_mem_drawing : .arrow s t label attributes ∈ (g.drawing ls).statements ↔
    ∃ a ∈ g.arrows, drawArrow ls a = .arrow s t label attributes := by
  have other (b : Block) : drawBlock ls b ≠ .arrow s t label attributes := by
    intro drawn
    cases drawn
  simp only [drawing, List.mem_append, List.mem_cons, List.mem_map, List.mem_flatMap, reduceCtorEq, other, and_false,
    exists_false, or_self, false_or]
  constructor
  · rintro ⟨id, -, a, out, drawn⟩
    exact ⟨a, (mem_outgoing.1 out).1, drawn⟩
  · rintro ⟨a, listed, drawn⟩
    exact ⟨a.source, (g.joined a listed).1, a, mem_outgoing.2 ⟨listed, rfl⟩, drawn⟩

theorem dashed_mem_iff (drawn : drawArrow ls a = .arrow s t label attributes) :
    ("style", "dashed") ∈ attributes ↔ isDashed ls a = true := by
  cases drawn
  cases dashed : isDashed ls a with
  | true => simp
  | false => simp

/-- The drawing of a flow graph with its natural loops dashes exactly the back arrows. The pairs of blocks that it
finds again from the bodies of the loops are those that a back arrow joins; these are the pairs with a dashed arrow
between them; and every arrow drawn between such a pair is dashed. -/
theorem drawing_dashes_back_arrows (g : FlowGraph) (s t : String) :
    ((s, t) ∈ g.turns (g.loops (.ofGraph g)) ↔
      ∃ back ∈ g.backArrows (.ofGraph g), back.source = s ∧ back.target = t) ∧
    ((∃ label attributes, .arrow s t label attributes ∈ (g.drawing (g.loops (.ofGraph g))).statements ∧
        ("style", "dashed") ∈ attributes) ↔
      ∃ back ∈ g.backArrows (.ofGraph g), back.source = s ∧ back.target = t) ∧
    ∀ label attributes, .arrow s t label attributes ∈ (g.drawing (g.loops (.ofGraph g))).statements →
      (("style", "dashed") ∈ attributes ↔
        ∃ back ∈ g.backArrows (.ofGraph g), back.source = s ∧ back.target = t) := by
  have found : (s, t) ∈ g.turns (g.loops (.ofGraph g)) ↔
      ∃ back ∈ g.backArrows (.ofGraph g), back.source = s ∧ back.target = t := by
    rw [mem_turns]
    constructor
    · rintro ⟨a, listed, source, target, dashed⟩
      exact ⟨a, mem_backArrows.2 ((isDashed_iff_closesLoop listed).1 dashed), source, target⟩
    · rintro ⟨back, member, source, target⟩
      have closes := mem_backArrows.1 member
      exact ⟨back, closes.1, source, target, (isDashed_iff_closesLoop closes.1).2 closes⟩
  have alike (label : Option String) (attributes : List (String × String))
      (drawn : .arrow s t label attributes ∈ (g.drawing (g.loops (.ofGraph g))).statements) :
      ("style", "dashed") ∈ attributes ↔ (s, t) ∈ g.turns (g.loops (.ofGraph g)) := by
    obtain ⟨a, listed, drawn⟩ := arrow_mem_drawing.1 drawn
    rw [dashed_mem_iff drawn, isDashed_iff listed]
    cases drawn
    rfl
  refine ⟨found, ?_, fun label attributes drawn => (alike label attributes drawn).trans found⟩
  rw [← found]
  constructor
  · rintro ⟨label, attributes, drawn, dashed⟩
    exact (alike label attributes drawn).1 dashed
  · intro turn
    obtain ⟨a, listed, rfl, rfl, -⟩ := mem_turns.1 turn
    have drawn : drawArrow (g.loops (.ofGraph g)) a ∈ (g.drawing (g.loops (.ofGraph g))).statements :=
      arrow_mem_drawing.2 ⟨a, listed, rfl⟩
    exact ⟨_, _, drawn, (alike _ _ drawn).2 turn⟩

end Flowchart.FlowGraph
