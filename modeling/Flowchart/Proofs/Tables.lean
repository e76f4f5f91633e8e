import Flowchart.FlowGraph.Basic
/-! What the two tables of a flow graph hold. Going through the arrows, each that joins two blocks is put at the end of
what stands at its source and at its target; so in the end a table holds, for every id, the arrows with this end in
the order they came. Both tables are filled from the same arrows, and therefore tell of the same arrows. -/
namespace Flowchart

namespace Tables
variable {ids : List String} {arrows : List Arrow} {a : Arrow}

/-- Whether both ends of an arrow are among the ids. -/
def joins (ids : List String) (a : Arrow) : Bool :=
  ids.contains a.source && ids.contains a.target

theorem joins_iff : joins ids a = true ↔ a.source ∈ ids ∧ a.target ∈ ids := by
  simp [joins]

/-- The arrows at every id, for one kind of end. -/
def sorted (ends : Arrow → String) (ids : List String) (arrows : List Arrow) : Bundles :=
  ids.map fun id => (id, arrows.filter (ends · == id))

theorem sorted_add (ends : Arrow → String) (ids : List String) (arrows : List Arrow) (a : Arrow) :
    (sorted ends ids arrows).add (ends a) a = sorted ends ids (arrows ++ [a]) := by
  rw [sorted, Bundles.add, List.map_map]
  apply List.map_congr_left
  intro id _
  by_cases here : ends a = id
  · simp [here]
  · simp [here, Ne.symm here]

/-- One arrow more: both tables get it, or none does. -/
theorem take_sorted (ids : List String) (arrows : List Arrow) (a : Arrow) :
    take ids ⟨sorted Arrow.source ids arrows, sorted Arrow.target ids arrows⟩ a =
      ⟨sorted Arrow.source ids (arrows ++ [a].filter (joins ids)),
        sorted Arrow.target ids (arrows ++ [a].filter (joins ids))⟩ := by
  rw [take, ← joins]
  by_cases both : joins ids a = true
  · rw [if_pos both, sorted_add, sorted_add]
    simp [both]
  · rw [if_neg both]
    simp [both]

private theorem foldl_take (ids : List String) (before arrows : List Arrow) :
    arrows.foldl (take ids) ⟨sorted Arrow.source ids before, sorted Arrow.target ids before⟩ =
      ⟨sorted Arrow.source ids (before ++ arrows.filter (joins ids)),
        sorted Arrow.target ids (before ++ arrows.filter (joins ids))⟩ := by
  induction arrows generalizing before with
  | nil => simp
  | cons a rest ih =>
    have first : (a :: rest).filter (joins ids) = [a].filter (joins ids) ++ rest.filter (joins ids) := by
      rw [← List.filter_append]
      rfl
    rw [List.foldl_cons, take_sorted, ih, first, List.append_assoc]

/-- All arrows: a table holds those that join two of the ids, each at its end. -/
theorem fill_eq (ids : List String) (arrows : List Arrow) :
    fill ids arrows = ⟨sorted Arrow.source ids (arrows.filter (joins ids)),
      sorted Arrow.target ids (arrows.filter (joins ids))⟩ :=
  foldl_take ids [] arrows

theorem map_fst_sorted (ends : Arrow → String) (ids : List String) (arrows : List Arrow) :
    (sorted ends ids arrows).map Prod.fst = ids := by
  rw [sorted, List.map_map]
  exact List.map_id ids

theorem of_sorted {ends : Arrow → String} (inside : ∀ a ∈ arrows, ends a ∈ ids) (id : String) :
    (sorted ends ids arrows).of id = arrows.filter (ends · == id) := by
  rw [Bundles.of, sorted, lookup_tagged]
  split
  · rfl
  · next foreign =>
    symm
    apply List.filter_eq_nil_iff.2
    intro a listed here
    exact foreign (beq_iff_eq.1 here ▸ inside a listed)

theorem leaving_fill (ids : List String) (arrows : List Arrow) (id : String) :
    (fill ids arrows).leaving.of id = (arrows.filter (joins ids)).filter (·.source == id) := by
  rw [fill_eq]
  exact of_sorted (fun a kept => (joins_iff.1 (List.mem_filter.1 kept).2).1) id

theorem entering_fill (ids : List String) (arrows : List Arrow) (id : String) :
    (fill ids arrows).entering.of id = (arrows.filter (joins ids)).filter (·.target == id) := by
  rw [fill_eq]
  exact of_sorted (fun a kept => (joins_iff.1 (List.mem_filter.1 kept).2).2) id

end Tables

namespace FlowGraph
variable {g : FlowGraph} {a : Arrow} {id : String}

/-- All arrows, block by block. -/
def arrows (g : FlowGraph) : List Arrow :=
  g.ids.flatMap g.outgoing

/-- Whatever graph it is, there are arrows that both of its tables sort. -/
theorem exists_sorted (g : FlowGraph) : ∃ listed : List Arrow, (∀ a ∈ listed, a.source ∈ g.ids ∧ a.target ∈ g.ids) ∧
    (∀ id, g.outgoing id = listed.filter (·.source == id)) ∧
    (∀ id, g.incoming id = listed.filter (·.target == id)) ∧ ∀ a, a ∈ g.arrows ↔ a ∈ listed := by
  obtain ⟨given, filled⟩ := g.filled
  have inside : ∀ a ∈ given.filter (Tables.joins g.ids), a.source ∈ g.ids ∧ a.target ∈ g.ids :=
    fun a kept => Tables.joins_iff.1 (List.mem_filter.1 kept).2
  have leaving (id : String) : g.outgoing id = (given.filter (Tables.joins g.ids)).filter (·.source == id) := by
    rw [outgoing, filled]
    exact Tables.leaving_fill _ _ id
  refine ⟨given.filter (Tables.joins g.ids), inside, leaving, fun id => ?_, fun a => ?_⟩
  · rw [incoming, filled]
    exact Tables.entering_fill _ _ id
  · rw [arrows, List.mem_flatMap]
    constructor
    · rintro ⟨id, -, out⟩
      exact (List.mem_filter.1 (leaving id ▸ out)).1
    · intro kept
      refine ⟨a.source, (inside a kept).1, ?_⟩
      rw [leaving]
      exact List.mem_filter.2 ⟨kept, beq_self_eq_true _⟩

/-- Every arrow joins two of the blocks. -/
theorem joined (g : FlowGraph) : ∀ a ∈ g.arrows, a.source ∈ g.ids ∧ a.target ∈ g.ids := by
  obtain ⟨listed, inside, -, -, all⟩ := g.exists_sorted
  exact fun a member => inside a ((all a).1 member)

theorem mem_outgoing : a ∈ g.outgoing id ↔ a ∈ g.arrows ∧ a.source = id := by
  obtain ⟨listed, -, leaving, -, all⟩ := g.exists_sorted
  rw [leaving, all]
  simp

theorem mem_incoming : a ∈ g.incoming id ↔ a ∈ g.arrows ∧ a.target = id := by
  obtain ⟨listed, -, -, entering, all⟩ := g.exists_sorted
  rw [entering, all]
  simp

/-- The tables of a graph that was built are those filled from its list of arrows. -/
theorem outgoing_build (blocks : List Block) (arrows : List Arrow) (id : String) : (build blocks arrows).outgoing id =
    (arrows.filter (Tables.joins (build blocks arrows).ids)).filter (·.source == id) :=
  Tables.leaving_fill _ arrows id

theorem incoming_build (blocks : List Block) (arrows : List Arrow) (id : String) : (build blocks arrows).incoming id =
    (arrows.filter (Tables.joins (build blocks arrows).ids)).filter (·.target == id) :=
  Tables.entering_fill _ arrows id

end FlowGraph
end Flowchart
