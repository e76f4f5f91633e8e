import Flowchart.Proofs.Regions
/-! Loops nest. Inside of a loop every block leads to every other, so a loop that shares a block with another
lies in it as a whole, unless it holds the other's header. Two loops that hold each other's headers are the
same, so no two loops overlap in part. -/
namespace Flowchart

/-- The inner loop is a part of the outer one and not all of it. -/
def Loop.Within (inner outer : Loop) : Prop :=
  inner.body ⊆ outer.body ∧ ¬outer.body ⊆ inner.body

namespace FlowGraph
variable {g : FlowGraph} {l other : Loop} {a b m : String}

/-- All ways to the block `b` pass `a`, which is another block. -/
def StrictlyDominates (g : FlowGraph) (a b : String) : Prop :=
  g.Dominates a b ∧ a ≠ b

/-- Every block of a loop leads to the header within the loop: along the way to the source of a back arrow,
and then along that arrow. -/
theorem way_to_header (member : l ∈ g.loops (.ofGraph g)) (inside : m ∈ l.body) :
    ∃ ids, g.Way m l.header ids ∧ ∀ x ∈ ids, x ∈ l.body := by
  rcases (mem_body member).1 inside with rfl | ⟨live, back, closes, header, ids, way, avoids⟩
  · exact ⟨[l.header], .stay _, by simpa using header_mem_body member⟩
  · obtain ⟨l', member', header', source⟩ := closes.loop
    cases loop_eq member' member (header'.trans header)
    have step : l.header ∈ g.successors back.source := mem_successors.2 ⟨back, closes.1, rfl, header⟩
    refine ⟨ids ++ [l.header], way.andThen step, fun x passed => ?_⟩
    rcases List.mem_append.1 passed with before | last
    · exact subset_body_of_way member way live source avoids x before
    · rw [List.mem_singleton.1 last]
      exact header_mem_body member

/-- Within a loop every block leads to every other. -/
theorem way_between (member : l ∈ g.loops (.ofGraph g)) (inside : a ∈ l.body) (inside' : b ∈ l.body) :
    ∃ ids, g.Way a b ids ∧ ∀ x ∈ ids, x ∈ l.body := by
  obtain ⟨ids, there, within⟩ := way_to_header member inside
  obtain ⟨more, onward, within'⟩ := way_inside member inside'
  obtain ⟨rest, rfl⟩ := onward.eq_cons
  refine ⟨ids ++ rest, there.join onward, fun x passed => ?_⟩
  rcases List.mem_append.1 passed with before | after
  · exact within x before
  · exact within' x (List.mem_cons_of_mem _ after)

/-- A loop that shares a block with another and does not hold the other's header is a part of it: all its
blocks lead to the shared one without passing that header. -/
theorem body_subset_of_shared (member : l ∈ g.loops (.ofGraph g)) (member' : other ∈ g.loops (.ofGraph g))
    (inside : m ∈ l.body) (inside' : m ∈ other.body) (outside : l.header ∉ other.body) :
    other.body ⊆ l.body := by
  intro x here
  obtain ⟨ids, way, within⟩ := way_between member' here inside'
  have live := reachable_of_mem_body member' here
  exact subset_body_of_way member way live inside (fun passed => outside (within _ passed)) x way.first_mem

/-- The header of a loop does not lie in a smaller loop of another header. -/
theorem header_not_mem_of_subset (member : l ∈ g.loops (.ofGraph g)) (member' : other ∈ g.loops (.ofGraph g))
    (apart : l.header ≠ other.header) (part : other.body ⊆ l.body) : l.header ∉ other.body := by
  intro inside
  exact apart (header_eq_of_mem member member' inside (part (header_mem_body member')))

theorem within_of_shared (member : l ∈ g.loops (.ofGraph g)) (member' : other ∈ g.loops (.ofGraph g))
    (inside : m ∈ l.body) (inside' : m ∈ other.body) (outside : l.header ∉ other.body) : other.Within l := by
  refine ⟨body_subset_of_shared member member' inside inside' outside, fun whole => ?_⟩
  exact outside (whole (header_mem_body member))

/-- The loops form a forest. Two of them have no block in common, or one is a part of the other and not all of
it; and where one is a part of the other, the header of the larger strictly dominates that of the smaller and
lies outside of the smaller. -/
theorem loops_form_forest (g : FlowGraph) (l other : Loop) (member : l ∈ g.loops (.ofGraph g))
    (member' : other ∈ g.loops (.ofGraph g)) (apart : l.header ≠ other.header) :
    (l.body.Disjoint other.body ∨ l.Within other ∨ other.Within l) ∧
    (other.body ⊆ l.body → g.StrictlyDominates l.header other.header ∧ l.header ∉ other.body) := by
  refine ⟨?_, fun part => ?_⟩
  · by_cases shared : ∃ m, m ∈ l.body ∧ m ∈ other.body
    · obtain ⟨m, inside, inside'⟩ := shared
      right
      by_cases outside : l.header ∈ other.body
      · have outside' : other.header ∉ l.body := fun again =>
          apart (header_eq_of_mem member member' outside again)
        exact .inl (within_of_shared member' member inside' inside outside')
      · exact .inr (within_of_shared member member' inside inside' outside)
    · left
      intro m inside inside'
      exact shared ⟨m, inside, inside'⟩
  · have dominates := header_dominates member (part (header_mem_body member'))
    exact ⟨⟨dominates, apart⟩, header_not_mem_of_subset member member' apart part⟩

end FlowGraph

namespace Diagram

/-- A test that repeats itself within a larger loop, which the test leads back into. -/
def nesting : Diagram where
  blocks := [⟨"s", none, .start⟩, asks, ⟨"q", none, .conditional none⟩, ⟨"e", none, .finish⟩]
  arrows := [⟨"s", "c", none, none⟩, ⟨"c", "q", some "yes", none⟩, ⟨"q", "q", some "yes", none⟩,
    ⟨"q", "c", some "no", none⟩, ⟨"c", "e", some "no", none⟩]

theorem loops_nesting : nesting.flowGraph.loops (.ofGraph nesting.flowGraph) =
    [⟨"c", ["c", "q"]⟩, ⟨"q", ["q"]⟩] := by
  decide +kernel

/-- The loop of the inner test is a part of the larger one, whose header lies outside of it. -/
theorem loops_form_forest_nesting :
    ⟨"c", ["c", "q"]⟩ ∈ nesting.flowGraph.loops (.ofGraph nesting.flowGraph) ∧
    ⟨"q", ["q"]⟩ ∈ nesting.flowGraph.loops (.ofGraph nesting.flowGraph) ∧
    (⟨"q", ["q"]⟩ : Loop).Within ⟨"c", ["c", "q"]⟩ ∧ nesting.flowGraph.StrictlyDominates "c" "q" := by
  have outer : ⟨"c", ["c", "q"]⟩ ∈ nesting.flowGraph.loops (.ofGraph nesting.flowGraph) := by
    simp [loops_nesting]
  have inner : ⟨"q", ["q"]⟩ ∈ nesting.flowGraph.loops (.ofGraph nesting.flowGraph) := by
    simp [loops_nesting]
  obtain ⟨nested, below⟩ := FlowGraph.loops_form_forest _ _ _ outer inner (by simp)
  have part : ["q"] ⊆ ["c", "q"] := by simp
  refine ⟨outer, inner, ?_, (below part).1⟩
  rcases nested with disjoint | within | within
  · exact (disjoint (show "q" ∈ ["c", "q"] by simp) (by simp)).elim
  · exact absurd (within.1 (show "c" ∈ ["c", "q"] by simp)) (below part).2
  · exact within

end Diagram

end Flowchart
