import Flowchart.FlowGraph.Loop
import Flowchart.Proofs.Tables
/-! Ways along the arrows of a flow graph. What can be reached from the start, and which blocks no way
can avoid, are said of ways alone, without the computations that find them. The search for reachable
blocks is shown to find exactly what ways lead to. -/
namespace Flowchart

section Search
variable {next : String → List String} {domain pending : List String}

/-- What is pending within the domain is reached. -/
theorem mem_reach_of_pending {x : String} (seed : x ∈ pending) (inside : x ∈ domain) :
    x ∈ reach next domain pending := by
  fun_induction reach next domain pending with
  | case1 domain pending found =>
    exact absurd inside (by simpa using List.find?_eq_none.1 found x seed)
  | case2 domain pending s found smaller ih =>
    by_cases same : x = s
    · exact List.mem_cons.2 (.inl same)
    · exact List.mem_cons_of_mem _
        (ih (List.mem_append_right _ seed) ((List.mem_erase_of_ne same).2 inside))

/-- What follows something reached is reached, unless it lies outside of the domain. -/
theorem mem_reach_of_next {x y : String} (reached : x ∈ reach next domain pending)
    (step : y ∈ next x) (inside : y ∈ domain) : y ∈ reach next domain pending := by
  fun_induction reach next domain pending with
  | case1 => simp at reached
  | case2 domain pending s found smaller ih =>
    by_cases same : y = s
    · exact List.mem_cons.2 (.inl same)
    have left : y ∈ domain.erase s := (List.mem_erase_of_ne same).2 inside
    refine List.mem_cons_of_mem _ ?_
    rcases List.mem_cons.1 reached with rfl | later
    · exact mem_reach_of_pending (List.mem_append_left _ step) left
    · exact ih later left

/-- What holds of the pending items and goes on along the steps holds of all that is reached. -/
theorem reach_induction (holds : String → Prop) (seeds : ∀ x ∈ pending, x ∈ domain → holds x)
    (steps : ∀ x y, holds x → y ∈ next x → y ∈ domain → holds y) :
    ∀ x ∈ reach next domain pending, holds x := by
  fun_induction reach next domain pending with
  | case1 => simp
  | case2 domain pending s found smaller ih =>
    have inside : s ∈ domain := by simpa using List.find?_some found
    have first : holds s := seeds s (List.mem_of_find?_eq_some found) inside
    intro x reached
    rcases List.mem_cons.1 reached with rfl | later
    · exact first
    · refine ih (fun y seed left => ?_) (fun y z known step left => ?_) x later
      · rcases List.mem_append.1 seed with step | old
        · exact steps s y first step (List.mem_of_mem_erase left)
        · exact seeds y old (List.mem_of_mem_erase left)
      · exact steps y z known step (List.mem_of_mem_erase left)

end Search

namespace FlowGraph

/-- A way along the arrows from one block to another, with all the blocks on it in order. -/
inductive Way (g : FlowGraph) : String → String → List String → Prop where
  | stay (id : String) : Way g id id [id]
  | go {a b c : String} {ids : List String} (next : b ∈ g.successors a) (rest : Way g b c ids) :
      Way g a c (a :: ids)

variable {g : FlowGraph} {a b c : String} {ids : List String}

theorem mem_successors : b ∈ g.successors a ↔ ∃ e ∈ g.arrows, e.source = a ∧ e.target = b := by
  simp [successors, mem_outgoing, and_assoc]

theorem mem_predecessors : a ∈ g.predecessors b ↔ ∃ e ∈ g.arrows, e.target = b ∧ e.source = a := by
  simp [predecessors, mem_incoming, and_assoc]

/-- The two sides of the arrows agree. -/
theorem mem_predecessors_iff : a ∈ g.predecessors b ↔ b ∈ g.successors a := by
  rw [mem_predecessors, mem_successors]
  exact exists_congr fun e => and_congr_right fun _ => and_comm

theorem successors_subset_ids (next : b ∈ g.successors a) : b ∈ g.ids := by
  obtain ⟨e, member, -, rfl⟩ := mem_successors.1 next
  exact (g.joined e member).2

theorem mem_ids_of_successor (next : b ∈ g.successors a) : a ∈ g.ids := by
  obtain ⟨e, member, rfl, -⟩ := mem_successors.1 next
  exact (g.joined e member).1

theorem start_mem_ids (start : g.start? = some a) : a ∈ g.ids := by
  have first : a ∈ g.starts := List.mem_of_mem_head? start
  obtain ⟨block, member, rfl⟩ := List.mem_map.1 first
  exact List.mem_map_of_mem (List.mem_filter.1 member).1

/-- A run starts at the first of the start blocks. -/
theorem start?_eq_find? (g : FlowGraph) : g.start? = (g.blocks.find? (·.content.isStart)).map Block.id := by
  rw [start?, starts, List.head?_map, List.head?_filter]

namespace Way

theorem first_mem (way : Way g a b ids) : a ∈ ids := by
  cases way <;> exact List.mem_cons_self

theorem eq_cons (way : Way g a b ids) : ∃ rest, ids = a :: rest := by
  cases way <;> exact ⟨_, rfl⟩

/-- A way is over at once or takes an arrow first. -/
theorem first_step (way : Way g a b ids) :
    a = b ∨ ∃ next ∈ g.successors a, ∃ rest, ids = a :: rest ∧ Way g next b rest := by
  cases way with
  | stay => exact .inl rfl
  | go step rest => exact .inr ⟨_, step, _, rfl, rest⟩

theorem last_mem (way : Way g a b ids) : b ∈ ids := by
  induction way with
  | stay id => exact List.mem_cons_self
  | go next rest ih => exact List.mem_cons_of_mem _ ih

/-- A way that goes on with one more arrow. -/
theorem andThen (way : Way g a b ids) (next : c ∈ g.successors b) : Way g a c (ids ++ [c]) := by
  induction way with
  | stay id => exact .go next (.stay c)
  | go step rest ih => exact .go step (ih next)

/-- Two ways, one after the other; the block where they meet is not counted twice. -/
theorem join {more : List String} (way : Way g a b ids) (rest : Way g b c (b :: more)) :
    Way g a c (ids ++ more) := by
  induction way with
  | stay id => exact rest
  | go step _ ih => exact .go step (ih rest)

theorem first_eq {first : String} (way : Way g a b (first :: ids)) : a = first := by
  cases way <;> rfl

/-- A way with more than one block takes an arrow first. -/
theorem second {first : String} (way : Way g a b (first :: ids)) (more : ids ≠ []) :
    ∃ next ∈ g.successors a, Way g next b ids := by
  cases way with
  | stay => exact absurd rfl more
  | go step rest => exact ⟨_, step, rest⟩

/-- The part of a way up to a block on it. -/
theorem upTo {before after : List String} (way : Way g a c (before ++ b :: after)) :
    Way g a b (before ++ [b]) := by
  induction before generalizing a with
  | nil =>
    cases way.first_eq
    exact .stay b
  | cons x before ih =>
    obtain ⟨next, step, rest⟩ := way.second (by simp)
    cases way.first_eq
    exact .go step (ih rest)

/-- The part of a way from a block on it. -/
theorem onFrom {before after : List String} (way : Way g a c (before ++ b :: after)) :
    Way g b c (b :: after) := by
  induction before generalizing a with
  | nil =>
    cases way.first_eq
    exact way
  | cons x before ih =>
    obtain ⟨next, -, rest⟩ := way.second (by simp)
    exact ih rest

end Way

/-- A list splits at the last place of one of its members. -/
theorem exists_last_of_mem {x : String} {xs : List String} (member : x ∈ xs) :
    ∃ before after, xs = before ++ x :: after ∧ x ∉ after := by
  obtain ⟨after, before, split, new⟩ := List.eq_append_cons_of_mem (List.mem_reverse.2 member)
  refine ⟨before.reverse, after.reverse, ?_, by simpa using new⟩
  have := congrArg List.reverse split
  simpa using this

/-- A way from the start leads to the block. -/
def Reachable (g : FlowGraph) (id : String) : Prop :=
  ∃ start, g.start? = some start ∧ ∃ ids, g.Way start id ids

/-- Every way from the start to the block `b` passes the block `a`. -/
def Dominates (g : FlowGraph) (a b : String) : Prop :=
  ∀ start, g.start? = some start → ∀ ids, g.Way start b ids → a ∈ ids

namespace Reachable

theorem of_start (start : g.start? = some a) : g.Reachable a :=
  ⟨a, start, [a], .stay a⟩

theorem next (reached : g.Reachable a) (step : b ∈ g.successors a) : g.Reachable b := by
  obtain ⟨start, first, ids, way⟩ := reached
  exact ⟨start, first, ids ++ [b], way.andThen step⟩

theorem along (reached : g.Reachable a) (way : g.Way a b ids) : g.Reachable b := by
  induction way with
  | stay => exact reached
  | go step _ ih => exact ih (reached.next step)

theorem mem_ids (reached : g.Reachable a) : a ∈ g.ids := by
  obtain ⟨start, first, ids, way⟩ := reached
  have inside := start_mem_ids first
  clear first
  induction way with
  | stay => exact inside
  | go step _ ih => exact ih (successors_subset_ids step)

end Reachable

/-- The search finds exactly the blocks that a way from the start leads to. -/
theorem mem_reachable : a ∈ g.reachable ↔ g.Reachable a := by
  constructor
  · intro found
    refine reach_induction g.Reachable (fun x seed _ => ?_) (fun x y known step _ => known.next step) a found
    exact .of_start (Option.mem_toList.1 seed)
  · rintro ⟨start, first, ids, way⟩
    have found : start ∈ g.reachable :=
      mem_reach_of_pending (Option.mem_toList.2 first) (start_mem_ids first)
    clear first
    induction way with
    | stay => exact found
    | go step _ ih => exact ih (mem_reach_of_next found step (successors_subset_ids step))

namespace Dominates

/-- A block on all ways to another is on all ways to its predecessors, unless it is that block. -/
theorem of_next (dominates : g.Dominates a c) (other : a ≠ c) (step : c ∈ g.successors b) :
    g.Dominates a b := by
  intro start first ids way
  have passed := dominates start first _ (way.andThen step)
  rcases List.mem_append.1 passed with before | last
  · exact before
  · exact absurd (List.mem_singleton.1 last) other

theorem reachable (dominates : g.Dominates a b) (reached : g.Reachable b) : g.Reachable a := by
  obtain ⟨start, first, ids, way⟩ := reached
  obtain ⟨before, after, rfl⟩ := List.append_of_mem (dominates start first ids way)
  exact ⟨start, first, _, way.upTo⟩

/-- Two blocks that can be reached do not dominate each other. The part of a way before the first
place of `a` cannot hold `b`, since a way to `b` would then avoid `a`. -/
theorem antisymm (ab : g.Dominates a b) (ba : g.Dominates b a) (reached : g.Reachable a) : a = b := by
  obtain ⟨start, first, ids, way⟩ := reached
  obtain ⟨before, after, rfl, new⟩ := List.eq_append_cons_of_mem way.last_mem
  have toA := way.upTo
  rcases List.mem_append.1 (ba start first _ toA) with earlier | last
  · obtain ⟨head, tail, rfl⟩ := List.append_of_mem earlier
    have toB : g.Way start b (head ++ [b]) := by
      rw [List.append_assoc, List.cons_append] at toA
      exact toA.upTo
    have passed : a ∈ head ++ b :: tail := by
      have := ab start first _ toB
      grind
    exact absurd passed new
  · exact (List.mem_singleton.1 last).symm

end Dominates

end FlowGraph

/-! The diagram that the theory is shown on. -/

namespace Diagram

def more : Variable :=
  ⟨"v", "more", none, .scalar .boolean (by decide)⟩

def asks : Block :=
  ⟨"c", none, .conditional (some (.value [.attached "x" more]))⟩

def shows : Block :=
  ⟨"b", none, .output (some (.value [.attached "x" more]))⟩

/-- A loop with its test at the top, and a block outside that leads into it but that nothing leads to. -/
def turning : Diagram where
  blocks := [⟨"s", none, .start⟩, asks, shows, ⟨"u", none, .output none⟩, ⟨"e", none, .finish⟩]
  arrows := [⟨"s", "c", none, none⟩, ⟨"c", "b", some "yes", none⟩, ⟨"b", "c", none, none⟩,
    ⟨"u", "b", none, none⟩, ⟨"c", "e", some "no", none⟩]

theorem arrows_turning : turning.flowGraph.arrows = [⟨"s", "c", none, none⟩, ⟨"c", "b", some "yes", none⟩,
    ⟨"c", "e", some "no", none⟩, ⟨"b", "c", none, none⟩, ⟨"u", "b", none, none⟩] :=
  rfl

end Diagram

end Flowchart
