import Flowchart.Proofs.Ways
import Mathlib.Logic.Function.Iterate
/-! The computed dominators are exactly those of the ways. The sets never lose a block that all ways
pass, and they stop changing only when each follows from those of the predecessors, which carries
membership backwards along every way to the start. -/
namespace Flowchart.Dominators
open FlowGraph

variable {g : FlowGraph} {d e f : Dominators} {a b id : String}

theorem mem_of_update (shrinking : Shrinking g d) (there : id ∈ g.ids) : a ∈ (update g d id).of b ↔
    if b = id ∧ isGiven g id = false then a ∈ computed g d id else a ∈ d.of b := by
  rw [update]
  by_cases given : isGiven g id = true
  · simp [given]
  · rw [if_neg given, shrinking.listed.of_put there]
    by_cases same : b = id <;> simp [same, given]

/-- The sets that the work starts with. -/
theorem mem_of_initial :
    a ∈ (initial g).of b ↔ b ∈ g.ids ∧ (if g.start? = some b then a = b else a ∈ g.ids) := by
  rw [initial, of_tagged]
  by_cases there : b ∈ g.ids <;> by_cases start : g.start? = some b <;> simp [there, start]

/-- Sets that no block changes: each follows from those of the predecessors. -/
def Stable (g : FlowGraph) (d : Dominators) : Prop :=
  ∀ id ∈ g.ids, update g d id = d

theorem Within.antisymm (shrinking : Shrinking g d) (other : Shrinking g e) (smaller : Within d e)
    (larger : Within e d) : d = e :=
  shrinking.listed.ext other.listed fun b _ => (smaller b).eq_of_length_le (larger b).length_le

/-- A round that changes nothing was without change at every block: what one block leaves out, no later one
brings back. -/
private theorem update_eq_of_foldl (ids : List String) (inside : ∀ id ∈ ids, id ∈ g.ids) (shrinking : Shrinking g d)
    (same : ids.foldl (update g) d = d) : ∀ id ∈ ids, update g d id = d := by
  induction ids with
  | nil => simp
  | cons id rest ih =>
    have there : id ∈ g.ids := inside id List.mem_cons_self
    have after : ∀ i ∈ rest, i ∈ g.ids := fun i later => inside i (List.mem_cons_of_mem _ later)
    have still := shrinking_update shrinking there
    have smaller : Within d (update g d id) := by
      have rest_within := (foldl_update_shrinks rest after still).2
      rw [List.foldl_cons] at same
      rwa [same] at rest_within
    have unchanged : update g d id = d := (update_within shrinking there).antisymm still shrinking smaller
    rw [List.foldl_cons, unchanged] at same
    exact List.forall_mem_cons.2 ⟨unchanged, ih after same⟩

theorem stable_of_round_eq (shrinking : Shrinking g d) (same : round g d = d) : Stable g d :=
  update_eq_of_foldl g.ids (fun _ there => there) shrinking same

theorem shrinking_iterate (shrinking : Shrinking g d) (n : Nat) : Shrinking g ((round g)^[n] d) :=
  Function.Iterate.rec (Shrinking g) shrinking (fun _ known => known.round) n

/-- The rounds end with one that changes nothing, and all the rounds before it changed something. -/
theorem stabilize_eq (g : FlowGraph) (rounds : Nat) (d : Dominators) (shrinking : Shrinking g d) :
    ∃ n, stabilize g rounds d shrinking = ((round g)^[n] d, rounds + n + 1) ∧
      round g ((round g)^[n] d) = (round g)^[n] d ∧ ∀ m < n, round g ((round g)^[m] d) ≠ (round g)^[m] d := by
  fun_induction stabilize g rounds d shrinking with
  | case1 rounds d shrinking same => exact ⟨0, rfl, same, by simp⟩
  | case2 rounds d shrinking changed ih =>
    obtain ⟨n, result, last, earlier⟩ := ih
    refine ⟨n + 1, ?_, last, ?_⟩
    · rw [result, Function.iterate_succ_apply]
      congr 1
      omega
    · intro m before
      cases m with
      | zero => exact changed
      | succ m => exact earlier m (by omega)

/-- With a start the final sets are those of the first round that changes nothing. -/
theorem ofGraph_eq {start : String} (first : g.start? = some start) : ∃ n, ofGraph g = (round g)^[n] (initial g) ∧
    round g (ofGraph g) = ofGraph g ∧ ∀ m < n, round g ((round g)^[m] (initial g)) ≠ (round g)^[m] (initial g) := by
  obtain ⟨n, result, last, earlier⟩ := stabilize_eq g 0 (initial g) (shrinking_initial g)
  have final : ofGraph g = (round g)^[n] (initial g) := by
    rw [ofGraph, first]
    exact congrArg Prod.fst result
  exact ⟨n, final, by rw [final]; exact last, earlier⟩

theorem ofGraph_of_startless (none : g.start? = none) : ofGraph g = initial g := by
  rw [ofGraph, none]

/-! What an update preserves, and from it what all the rounds preserve. -/

/-- What updates preserve holds of the final sets when it holds of the first. -/
theorem ofGraph_induction (holds : Dominators → Prop) (first : holds (initial g))
    (step : ∀ d id, id ∈ g.ids → Shrinking g d → holds d → holds (update g d id)) : holds (ofGraph g) := by
  have fold (ids : List String) (inside : ∀ id ∈ ids, id ∈ g.ids) (d : Dominators)
      (known : Shrinking g d ∧ holds d) : holds (ids.foldl (update g) d) := by
    induction ids generalizing d with
    | nil => exact known.2
    | cons id rest ih =>
      have there : id ∈ g.ids := inside id List.mem_cons_self
      exact ih (fun i later => inside i (List.mem_cons_of_mem _ later)) _
        ⟨shrinking_update known.1 there, step d id there known.1 known.2⟩
  cases start : g.start? with
  | none =>
    rw [ofGraph_of_startless start]
    exact first
  | some s =>
    obtain ⟨n, result, -⟩ := ofGraph_eq start
    rw [result]
    exact (Function.Iterate.rec (fun d => Shrinking g d ∧ holds d) ⟨shrinking_initial g, first⟩
      (fun d known => ⟨known.1.round, fold g.ids (fun _ there => there) d known⟩) n).2

/-- No set ever loses a block that all ways pass. -/
theorem mem_of_of_dominates (known : a ∈ g.ids) (there : b ∈ g.ids) (dominates : g.Dominates a b) :
    a ∈ (ofGraph g).of b := by
  refine ofGraph_induction (fun d => ∀ b ∈ g.ids, g.Dominates a b → a ∈ d.of b)
    ?_ ?_ b there dominates
  · intro b there dominates
    refine mem_of_initial.2 ⟨there, ?_⟩
    split
    · next start => simpa using dominates b start [b] (.stay b)
    · exact known
  · intro d id inside shrinking covers b there dominates
    rw [mem_of_update shrinking inside]
    split
    · next here =>
      obtain ⟨rfl, -⟩ := here
      refine mem_computed.2 ⟨known, ?_⟩
      by_cases same : a = b
      · exact .inl same
      · refine .inr fun p before => ?_
        have step : b ∈ g.successors p := mem_predecessors_iff.1 before
        exact covers p (mem_ids_of_successor step) (dominates.of_next same step)
    · exact covers b there dominates

/-- The sets stay within those the work starts with. -/
theorem mem_of_initial_of_mem (member : a ∈ (ofGraph g).of b) : a ∈ (initial g).of b := by
  have within : Within (ofGraph g) (initial g) :=
    ofGraph_induction (fun d => Within d (initial g)) (.refl _)
      fun d id there shrinking smaller => (update_within shrinking there).trans smaller
  exact (within b).subset member

/-- In the final sets, what dominates a block is the block itself or dominates each predecessor. -/
theorem mem_of_predecessor (member : a ∈ (ofGraph g).of b) (other : a ≠ b)
    (step : b ∈ g.successors id) : a ∈ (ofGraph g).of id := by
  obtain ⟨there, initially⟩ := mem_of_initial.1 (mem_of_initial_of_mem member)
  have before : id ∈ g.predecessors b := mem_predecessors_iff.2 step
  cases start : g.start? with
  | none =>
    rw [if_neg (by simp [start])] at initially
    rw [ofGraph_of_startless start, mem_of_initial, if_neg (by simp [start])]
    exact ⟨mem_ids_of_successor step, initially⟩
  | some s =>
    -- Only the set of the start is not computed from its predecessors, and it has no other member.
    have free : isGiven g b = false := by
      have notStart : g.start? ≠ some b := fun same => other (by rwa [if_pos same] at initially)
      have entered : g.predecessors b ≠ [] := List.ne_nil_of_mem before
      simp [isGiven, notStart, entered]
    obtain ⟨n, final, last, -⟩ := ofGraph_eq start
    have shrinking : Shrinking g (ofGraph g) := by
      rw [final]
      exact shrinking_iterate (shrinking_initial g) n
    have anew : a ∈ (update g (ofGraph g) b).of b := by
      rw [stable_of_round_eq shrinking last b there]
      exact member
    rw [mem_of_update shrinking there, if_pos ⟨rfl, free⟩] at anew
    exact (mem_computed.1 anew).2.resolve_left other id before

/-- Along a way, what dominates its end is met on the way or dominates its first block. -/
theorem mem_or_mem_of_way {ids : List String} (way : g.Way id b ids) (member : a ∈ (ofGraph g).of b) :
    a ∈ ids ∨ a ∈ (ofGraph g).of id := by
  induction way with
  | stay => exact .inr member
  | @go id next b ids step rest ih =>
    rcases ih member with met | dominates
    · exact .inl (List.mem_cons_of_mem _ met)
    · by_cases same : a = next
      · exact .inl (List.mem_cons_of_mem _ (same ▸ rest.first_mem))
      · exact .inr (mem_of_predecessor dominates same step)

/-- The computed sets hold exactly the blocks that all ways pass. -/
theorem mem_of_ofGraph : a ∈ (ofGraph g).of b ↔ a ∈ g.ids ∧ b ∈ g.ids ∧ g.Dominates a b := by
  constructor
  · intro member
    obtain ⟨there, start⟩ := mem_of_initial.1 (mem_of_initial_of_mem member)
    have known : a ∈ g.ids := by
      split at start
      · exact start ▸ there
      · exact start
    refine ⟨known, there, fun start first ids way => ?_⟩
    rcases mem_or_mem_of_way way member with met | dominates
    · exact met
    · have only := (mem_of_initial.1 (mem_of_initial_of_mem dominates)).2
      rw [if_pos first] at only
      exact only ▸ way.first_mem
  · rintro ⟨known, there, dominates⟩
    exact mem_of_of_dominates known there dominates

/-- The rounds come to one without change, each leaves members out and brings none in, and the sets they end with are
those of the ways: the start is dominated by itself alone, and a block that no way leads to by all blocks. -/
theorem dominators_exact (g : FlowGraph) (start : String) (first : g.start? = some start) :
    (∃ n, ofGraph g = (round g)^[n] (initial g) ∧ round g (ofGraph g) = ofGraph g ∧
      ∀ m < n, round g ((round g)^[m] (initial g)) ≠ (round g)^[m] (initial g)) ∧
    (∀ m, Within ((round g)^[m + 1] (initial g)) ((round g)^[m] (initial g))) ∧
    (∀ a ∈ g.ids, ∀ b ∈ g.ids, a ∈ (ofGraph g).of b ↔ ∀ ids, g.Way start b ids → a ∈ ids) ∧
    (∀ a, a ∈ (ofGraph g).of start ↔ a = start) ∧
    (∀ b ∈ g.ids, (∀ ids, ¬g.Way start b ids) → ∀ a, a ∈ (ofGraph g).of b ↔ a ∈ g.ids) := by
  have fromStart {a b : String} : g.Dominates a b ↔ ∀ ids, g.Way start b ids → a ∈ ids :=
    ⟨fun dominates => dominates start first, fun all s same => by cases first.symm.trans same; exact all⟩
  refine ⟨ofGraph_eq first, ?_, ?_, ?_, ?_⟩
  · intro m
    rw [Function.iterate_succ_apply']
    exact round_within (shrinking_iterate (shrinking_initial g) m)
  · intro a known b there
    rw [mem_of_ofGraph, fromStart]
    exact ⟨fun h => h.2.2, fun h => ⟨known, there, h⟩⟩
  · intro a
    have there := start_mem_ids first
    rw [mem_of_ofGraph, fromStart]
    constructor
    · rintro ⟨-, -, all⟩
      simpa using all [start] (.stay start)
    · rintro rfl
      exact ⟨there, there, fun ids way => way.last_mem⟩
  · intro b there none a
    rw [mem_of_ofGraph, fromStart]
    exact ⟨fun h => h.1, fun known => ⟨known, there, fun ids way => absurd way (none ids)⟩⟩

/-- On a loop with its test at the top, all ways to the end pass the test and not all pass the loop. -/
theorem dominators_exact_turning : Diagram.turning.flowGraph.start? = some "s" ∧
    (∀ ids, Diagram.turning.flowGraph.Way "s" "e" ids → "c" ∈ ids) ∧
    ¬∀ ids, Diagram.turning.flowGraph.Way "s" "e" ids → "b" ∈ ids := by
  have first : Diagram.turning.flowGraph.start? = some "s" := by decide
  have exact := (dominators_exact Diagram.turning.flowGraph "s" first).2.2.1
  have sets : (ofGraph Diagram.turning.flowGraph).of "e" = ["s", "c", "e"] := by decide +kernel
  refine ⟨first, (exact "c" (by decide) "e" (by decide)).1 (by simp [sets]), fun all => ?_⟩
  have dominates := (exact "b" (by decide) "e" (by decide)).2 all
  simp [sets] at dominates

end Flowchart.Dominators
