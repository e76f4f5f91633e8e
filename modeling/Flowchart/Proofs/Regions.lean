import Flowchart.Proofs.Behaviour
import Flowchart.Proofs.NaturalLoops
import Mathlib.Data.List.Nodup
import Mathlib.Logic.Relation
/-! Where structuring stands in a graph. Only the arrows that close loops make cycles, so a block is met in one
place: in its innermost loop, with nothing ahead of it that was met before. The steps forward and into a loop keep
this. -/
namespace Flowchart.FlowGraph

variable {g : FlowGraph} {a b id next : String} {l other : Loop}

/-- An arrow that closes no loop leads from the one block to the other. -/
def Forward (g : FlowGraph) (a b : String) : Prop :=
  ∃ e ∈ g.arrows, e.source = a ∧ e.target = b ∧ e ∉ g.backArrows (.ofGraph g)

/-- A graph that nested code can stand for: its reachable blocks have a meaning and the arrows they
need, only the arrows that close loops make cycles, and loops are left only at their headers. -/
structure Structured (g : FlowGraph) : Prop where
  named : ∀ id, g.Reachable id → id ≠ ""
  known : ∀ b ∈ g.blocks, g.Reachable b.id → b.content.isKnown = true
  straight : ∀ b ∈ g.blocks, g.Reachable b.id → b.content.isBranching = false →
    (g.outgoing b.id).length ≤ 1
  final : ∀ b ∈ g.blocks, g.Reachable b.id → b.content.isFinish = true → g.outgoing b.id = []
  labelled : ∀ b ∈ g.blocks, g.Reachable b.id → b.content.isBranching = true →
    (∀ e ∈ g.outgoing b.id, e.label = some "yes" ∨ e.label = some "no") ∧
    ((g.outgoing b.id).filter (·.label == some "yes")).length ≤ 1 ∧
    ((g.outgoing b.id).filter (·.label == some "no")).length ≤ 1
  complete : ∀ l ∈ g.loops (.ofGraph g), ∀ b ∈ g.blocks, b.id ∈ l.body → b.content.isBranching = true →
    (∃ e ∈ g.outgoing b.id, e.label = some "yes") ∧ ∃ e ∈ g.outgoing b.id, e.label = some "no"
  acyclic : ∀ id, g.Reachable id → ¬Relation.TransGen g.Forward id id
  leftAtHeader : ∀ l ∈ g.loops (.ofGraph g), ∀ e ∈ g.arrows, e.source ∈ l.body → e.target ∉ l.body →
    e.source = l.header

theorem block?_eq_some {block : Block} (found : g.block? id = some block) :
    block ∈ g.blocks ∧ block.id = id := by
  obtain ⟨same, -⟩ := List.find?_eq_some_iff_append.1 found
  exact ⟨List.mem_of_find?_eq_some found, by simpa using same⟩

/-- Blocks with the same id are the same. -/
theorem block_eq {block block' : Block} (listed : block ∈ g.blocks) (listed' : block' ∈ g.blocks)
    (same : block.id = block'.id) : block = block' :=
  List.inj_on_of_nodup_map g.distinct listed listed' same

theorem exists_block (there : id ∈ g.ids) : ∃ block, g.block? id = some block := by
  obtain ⟨block, member, same⟩ := List.mem_map.1 there
  refine Option.isSome_iff_exists.1 (List.find?_isSome.2 ⟨block, member, by simpa using same⟩)

theorem block?_of_mem {block : Block} (listed : block ∈ g.blocks) : g.block? block.id = some block := by
  obtain ⟨block', found⟩ := exists_block (List.mem_map_of_mem listed)
  obtain ⟨listed', same⟩ := block?_eq_some found
  rwa [block_eq listed' listed same] at found

theorem branch?_eq_some {label : String} {e : Arrow} (found : g.branch? id label = some e) :
    e ∈ g.outgoing id ∧ e.label = some label :=
  ⟨List.mem_of_find?_eq_some found, by simpa using List.find?_some found⟩

theorem exists_branch {label : String} {e : Arrow} (out : e ∈ g.outgoing id) (is : e.label = some label) :
    ∃ e', g.branch? id label = some e' :=
  Option.isSome_iff_exists.1 (List.find?_isSome.2 ⟨e, out, by simpa using is⟩)

theorem target_mem_successors {e : Arrow} (out : e ∈ g.outgoing id) : e.target ∈ g.successors id :=
  List.mem_map_of_mem out

/-- Two loops that hold each other's headers have the same header. -/
theorem header_eq_of_mem (member : l ∈ g.loops (.ofGraph g)) (member' : other ∈ g.loops (.ofGraph g))
    (inside : l.header ∈ other.body) (inside' : other.header ∈ l.body) : l.header = other.header :=
  (header_dominates member inside').antisymm (header_dominates member' inside)
    (reachable_of_mem_body member' inside)

/-- Loops with the same header are the same. -/
theorem loop_eq (member : l ∈ g.loops (.ofGraph g)) (member' : other ∈ g.loops (.ofGraph g))
    (same : l.header = other.header) : l = other :=
  List.inj_on_of_nodup_map (nodup_headers g _) member member' same

/-- A back arrow lies in the loop of its target. -/
theorem ClosesLoop.loop {back : Arrow} (closes : g.ClosesLoop back) :
    ∃ l ∈ g.loops (.ofGraph g), l.header = back.target ∧ back.source ∈ l.body := by
  obtain ⟨l, member, header⟩ := List.mem_map.1 (mem_headers.2 ⟨back, closes, rfl⟩)
  refine ⟨l, member, header, (mem_body member).2 ?_⟩
  by_cases self : back.source = l.header
  · exact .inl self
  · exact .inr ⟨closes.2.1, back, closes, header.symm, [back.source], .stay _, by simpa using Ne.symm self⟩

/-- A loop has an arrow of its own back to its header. -/
theorem exists_back (member : l ∈ g.loops (.ofGraph g)) :
    ∃ back, g.ClosesLoop back ∧ back.target = l.header ∧ back.source ∈ l.body := by
  obtain ⟨back, closes, header⟩ := mem_headers.1 (List.mem_map_of_mem member)
  obtain ⟨l', member', header', source⟩ := closes.loop
  cases loop_eq member' member (header'.trans header)
  exact ⟨back, closes, header, source⟩

/-- Every block of a loop has a successor in the loop. -/
theorem exists_next_inside (member : l ∈ g.loops (.ofGraph g)) (inside : a ∈ l.body) :
    ∃ b ∈ g.successors a, b ∈ l.body := by
  have here : l.header ∈ l.body := header_mem_body member
  rcases (mem_body member).1 inside with rfl | ⟨live, back, closes, header, ids, way, avoids⟩
  · obtain ⟨back, closes, header, source⟩ := exists_back member
    obtain ⟨ids, way, within⟩ := way_inside member source
    rcases way.first_step with self | ⟨next, step, rest, rfl, tail⟩
    · exact ⟨l.header, mem_successors.2 ⟨back, closes.1, self.symm, header⟩, here⟩
    · exact ⟨next, step, within next (List.mem_cons_of_mem _ tail.first_mem)⟩
  · rcases way.first_step with last | ⟨next, step, rest, rfl, tail⟩
    · exact ⟨l.header, mem_successors.2 ⟨back, closes.1, last.symm, header⟩, here⟩
    · refine ⟨next, step, (mem_body member).2 (.inr ⟨live.next step, back, closes, header, rest, tail, ?_⟩)⟩
      exact fun later => avoids (List.mem_cons_of_mem _ later)

/-- A loop that does not begin the program is entered from outside, on the way from the start. -/
theorem exists_entry (member : l ∈ g.loops (.ofGraph g)) (later : g.start? ≠ some l.header) :
    ∃ entry ∈ g.predecessors l.header, g.Reachable entry ∧ entry ∉ l.body := by
  have here : l.header ∈ l.body := header_mem_body member
  obtain ⟨start, first, ids, way⟩ := reachable_of_mem_body member here
  obtain ⟨before, after, rfl, new⟩ := List.eq_append_cons_of_mem way.last_mem
  rcases List.eq_nil_or_concat before with rfl | ⟨earlier, entry, rfl⟩
  · exact absurd (way.first_eq ▸ first) later
  · simp only [List.concat_eq_append, List.append_assoc, List.singleton_append] at way new
    obtain ⟨next, step, rest⟩ := way.onFrom.second (by simp)
    cases rest.first_eq
    refine ⟨entry, mem_predecessors_iff.2 step, ⟨start, first, _, way.upTo⟩, fun inside => new ?_⟩
    exact header_dominates member inside start first _ way.upTo

/-- So a header is entered at least twice: from outside, and by the arrow back. -/
theorem predecessors_ne_singleton (member : l ∈ g.loops (.ofGraph g)) (later : g.start? ≠ some l.header)
    (entry : String) : g.predecessors l.header ≠ [entry] := by
  intro sole
  obtain ⟨outer, before, -, outside⟩ := exists_entry member later
  obtain ⟨back, closes, header, inside⟩ := exists_back member
  have around : back.source ∈ g.predecessors l.header := mem_predecessors.2 ⟨back, closes.1, header, rfl⟩
  rw [sole] at before around
  rw [List.mem_singleton.1 before, ← List.mem_singleton.1 around] at outside
  exact outside inside

/-- The start block has no test. -/
theorem straight_of_start {block : Block} (first : g.start? = some id) (found : g.block? id = some block) :
    block.content.isBranching = false := by
  obtain ⟨listed, rfl⟩ := block?_eq_some found
  obtain ⟨start, member, same⟩ := List.mem_map.1 (List.mem_of_mem_head? first)
  obtain ⟨listed', starts⟩ := List.mem_filter.1 member
  cases block_eq listed' listed same
  cases content : block.content <;> simp_all [Content.isStart, Content.isBranching]

theorem mem_successors_of_next? {block : Block} {choice : Option Bool}
    (goes : Run.next? g block choice = some next) : next ∈ g.successors block.id := by
  unfold Run.next? at goes
  split at goes
  · obtain ⟨e, found, rfl⟩ := Option.map_eq_some_iff.1 goes
    exact target_mem_successors (branch?_eq_some found).1
  · split at goes
    · cases goes
    · exact List.mem_of_mem_head? goes

/-- A list of at most one element is its member. -/
theorem eq_singleton_of_mem {α : Type} {x : α} {xs : List α} (few : xs.length ≤ 1) (member : x ∈ xs) :
    xs = [x] := by
  match xs with
  | [] => cases member
  | [y] => rw [List.mem_singleton.1 member]
  | _ :: _ :: _ => simp at few

/-- Where structuring stands: at a reachable block, with `met` behind it, in the loop of `inLoop`, which
is the innermost one that the block belongs to without being its header. -/
structure Position (g : FlowGraph) (inLoop : Option String) (met : List String) (id : String) : Prop where
  live : g.Reachable id
  fresh : ∀ v ∈ met, ¬Relation.ReflTransGen g.Forward id v
  within : ∀ h, inLoop = some h → ∃ l ∈ g.loops (.ofGraph g), l.header = h ∧ id ∈ l.body
  innermost : ∀ l ∈ g.loops (.ofGraph g), id ∈ l.body → id ≠ l.header → ∃ h ∈ l.body, inLoop = some h

namespace Position
variable {inLoop : Option String} {met met' : List String}

/-- An arrow forward leads away from what was met, and from the block itself. -/
theorem fresh_of_forward (acyclic : ∀ id, g.Reachable id → ¬Relation.TransGen g.Forward id id)
    (position : g.Position inLoop met id)
    (forward : g.Forward id next) (grown : ∀ v ∈ met', v = id ∨ v ∈ met) :
    ∀ v ∈ met', ¬Relation.ReflTransGen g.Forward next v := by
  intro v member ahead
  rcases grown v member with rfl | old
  · exact acyclic v position.live (.head' forward ahead)
  · exact position.fresh v old (.head forward ahead)

section Step
variable (position : g.Position inLoop met id)
  (within : ∀ h, inLoop = some h → ∃ l ∈ g.loops (.ofGraph g), l.header = h ∧ next ∈ l.body)
  (apart : ∀ l ∈ g.loops (.ofGraph g), l.header = id → next ∉ l.body)
include position within apart

/-- Inside of the loop, an arrow back leads to the header of the loop around. -/
theorem again_of_back {e : Arrow} (back : e ∈ g.backArrows (.ofGraph g)) (source : e.source = id)
    (target : e.target = next) : inLoop = some next := by
  obtain ⟨l, member, header, inside⟩ := (mem_backArrows.1 back).loop
  rw [source] at inside
  rw [target] at header
  have other : id ≠ l.header := by
    intro same
    have self : l.header ∈ l.body := header_mem_body member
    exact apart l member same.symm (by rwa [header] at self)
  obtain ⟨h, around, same⟩ := position.innermost l member inside other
  obtain ⟨l', member', header', inside'⟩ := within h same
  have equal := header_eq_of_mem member' member (header' ▸ around) (header ▸ inside')
  rw [same, ← header, ← header', equal]

/-- Inside of the loop, an arrow forward leads to a new position. -/
theorem advance (acyclic : ∀ id, g.Reachable id → ¬Relation.TransGen g.Forward id id)
    (forward : g.Forward id next) (grown : ∀ v ∈ met', v = id ∨ v ∈ met) : g.Position inLoop met' next := by
  have ⟨e, listed, source, target, _⟩ := forward
  have step : next ∈ g.successors id := mem_successors.2 ⟨e, listed, source, target⟩
  refine ⟨position.live.next step, position.fresh_of_forward acyclic forward grown, within, ?_⟩
  intro l member inside other
  have before := entered_at_header member step position.live inside other
  have inner : id ≠ l.header := fun same => apart l member same.symm inside
  exact position.innermost l member before inner

end Step

/-- The step from a header into its loop. -/
theorem enter (acyclic : ∀ id, g.Reachable id → ¬Relation.TransGen g.Forward id id)
    (position : g.Position inLoop met id) (member : l ∈ g.loops (.ofGraph g)) (header : l.header = id)
    (step : next ∈ g.successors id) (inside : next ∈ l.body) (other : id ≠ next)
    (grown : ∀ v ∈ met', v = id ∨ v ∈ met) : g.Position (some id) met' next := by
  obtain ⟨e, listed, source, target⟩ := mem_successors.1 step
  have forward : e ∉ g.backArrows (.ofGraph g) := by
    intro back
    have closes := mem_backArrows.1 back
    have dominates : g.Dominates next id := by
      rw [← source, ← target]
      exact closes.2.2
    have dominated : g.Dominates id next := header ▸ header_dominates member inside
    exact other (dominated.antisymm dominates position.live)
  refine ⟨position.live.next step, ?_, ?_, fun l' member' inside' apart => ?_⟩
  · exact position.fresh_of_forward acyclic ⟨e, listed, source, target, forward⟩ grown
  · rintro h ⟨⟩
    exact ⟨l, member, header, inside⟩
  · exact ⟨id, entered_at_header member' step position.live inside' apart, rfl⟩

end Position

end Flowchart.FlowGraph
