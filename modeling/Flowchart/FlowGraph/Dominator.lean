import Flowchart.FlowGraph.Basic
/-! Dominators: a block dominates another when every way from the start to the other passes it. The
sets start as large as possible and are computed anew, block by block, until a round changes nothing. -/
namespace Flowchart

/-- The dominators of every block, in the order of the blocks. -/
structure Dominators where
  sets : List (String × List String)
deriving DecidableEq

namespace Dominators

/-- The dominators of one block. -/
def of (d : Dominators) (id : String) : List String :=
  (d.sets.lookup id).getD []

/-- Whether the block `a` dominates the block `b`. -/
def dominates (d : Dominators) (a b : String) : Bool :=
  (d.of b).contains a

/-- The largest sets: the start is dominated by itself alone, every other block by all. -/
def initial (g : FlowGraph) : Dominators :=
  ⟨g.ids.map fun id => (id, if g.start? = some id then [id] else g.ids)⟩

/-- Overwrites the set of one block. -/
def put (d : Dominators) (id : String) (set : List String) : Dominators :=
  ⟨d.sets.map fun (i, old) => (i, if i == id then set else old)⟩

/-- Whether the set of a block is given beforehand: that of the start, and that of a block that no
arrow enters. -/
def isGiven (g : FlowGraph) (id : String) : Bool :=
  g.start? == some id || (g.predecessors id).isEmpty

/-- What the sets of its predecessors make of the set of a block: the block itself and all that
dominates each of the predecessors. -/
def computed (g : FlowGraph) (d : Dominators) (id : String) : List String :=
  g.ids.filter fun a => a == id || (g.predecessors id).all fun p => d.dominates a p

/-- Computes the set of one block anew. -/
def update (g : FlowGraph) (d : Dominators) (id : String) : Dominators :=
  if isGiven g id then d else d.put id (computed g d id)

/-- Computes the sets of all blocks anew, in order; each is computed from those that stand then. -/
def round (g : FlowGraph) (d : Dominators) : Dominators :=
  g.ids.foldl (update g) d

/-- The number of all pairs of a block and a dominator. -/
def size (g : FlowGraph) (d : Dominators) : Nat :=
  (g.ids.flatMap d.of).length

/-! That the rounds come to an end: no set gets a member that it did not have, so a round that changes
something leaves fewer members in all. -/

section Shrinking
variable {g : FlowGraph} {d e f : Dominators} {a b id : String}

theorem mem_of_iff_dominates : d.dominates a b = true ↔ a ∈ d.of b := by
  simp [dominates]

theorem mem_computed : a ∈ computed g d id ↔ a ∈ g.ids ∧ (a = id ∨ ∀ p ∈ g.predecessors id, a ∈ d.of p) := by
  simp [computed, mem_of_iff_dominates]

/-- There is a set for each of the blocks, in their order. -/
def Listed (g : FlowGraph) (d : Dominators) : Prop :=
  d.sets = g.ids.map fun id => (id, d.of id)

theorem of_tagged (value : String → List String) :
    (⟨g.ids.map fun i => (i, value i)⟩ : Dominators).of b = if b ∈ g.ids then value b else [] := by
  rw [of, lookup_tagged]
  split <;> rfl

theorem listed_tagged (value : String → List String) : Listed g ⟨g.ids.map fun i => (i, value i)⟩ := by
  apply List.map_congr_left
  intro i there
  rw [of_tagged, if_pos there]

theorem Listed.put_eq (listed : Listed g d) (id : String) (set : List String) :
    d.put id set = ⟨g.ids.map fun i => (i, if i = id then set else d.of i)⟩ := by
  rw [put, listed, List.map_map]
  simp [Function.comp_def]

theorem Listed.of_put (listed : Listed g d) (there : id ∈ g.ids) (set : List String) :
    (d.put id set).of b = if b = id then set else d.of b := by
  have outside : b ∉ g.ids → d.of b = [] := by
    intro foreign
    rw [of, listed, lookup_tagged, if_neg foreign]
    rfl
  rw [listed.put_eq, of_tagged]
  by_cases same : b = id
  · rw [if_pos (same ▸ there)]
  · rw [if_neg same]
    split
    · rfl
    · next foreign => exact (outside foreign).symm

theorem Listed.ext (first : Listed g d) (second : Listed g e) (same : ∀ b ∈ g.ids, d.of b = e.of b) : d = e := by
  have sets : d.sets = e.sets := by
    rw [first, second]
    apply List.map_congr_left
    intro b there
    rw [same b there]
  cases d
  cases e
  exact congrArg Dominators.mk sets

/-- No set has a member that it does not have in `e`. -/
def Within (d e : Dominators) : Prop :=
  ∀ b, (d.of b).Sublist (e.of b)

theorem Within.refl (d : Dominators) : Within d d :=
  fun _ => .refl _

theorem Within.trans (first : Within d e) (second : Within e f) : Within d f :=
  fun b => (first b).trans (second b)

/-- Smaller sets of the predecessors make a smaller set. -/
theorem computed_sublist (smaller : Within d e) (id : String) : (computed g d id).Sublist (computed g e id) := by
  have kept : computed g d id =
      (computed g e id).filter fun a => a == id || (g.predecessors id).all fun p => d.dominates a p := by
    rw [computed, computed, List.filter_filter]
    apply List.filter_congr
    intro a _
    rw [Bool.eq_iff_iff]
    simp only [Bool.or_eq_true, Bool.and_eq_true, beq_iff_eq, List.all_eq_true, mem_of_iff_dominates]
    constructor
    · intro keep
      exact ⟨keep, keep.imp_right fun all p before => (smaller p).subset (all p before)⟩
    · exact And.left
  rw [kept]
  exact List.filter_sublist

/-- Sets that can only get smaller: none of those computed anew has a member that is not there yet. -/
structure Shrinking (g : FlowGraph) (d : Dominators) : Prop where
  listed : Listed g d
  sublist : ∀ id ∈ g.ids, isGiven g id = false → (computed g d id).Sublist (d.of id)

theorem shrinking_initial (g : FlowGraph) : Shrinking g (initial g) where
  listed := listed_tagged _
  sublist := by
    intro id there free
    have notStart : g.start? ≠ some id := by
      simp only [isGiven, Bool.or_eq_false_iff, beq_eq_false_iff_ne] at free
      exact free.1
    rw [initial, of_tagged, if_pos there, if_neg notStart]
    exact List.filter_sublist

theorem update_within (shrinking : Shrinking g d) (there : id ∈ g.ids) : Within (update g d id) d := by
  intro b
  rw [update]
  split
  · exact .refl _
  · next free =>
    rw [shrinking.listed.of_put there]
    split
    · next same => exact same ▸ shrinking.sublist id there (by simpa using free)
    · exact .refl _

theorem shrinking_update (shrinking : Shrinking g d) (there : id ∈ g.ids) : Shrinking g (update g d id) := by
  have smaller := update_within shrinking there
  rw [update] at smaller ⊢
  split at smaller
  · rwa [if_pos ‹_›]
  · rw [if_neg ‹_›]
    refine ⟨by rw [shrinking.listed.put_eq]; exact listed_tagged _, ?_⟩
    intro b known free
    have anew : (computed g (d.put id (computed g d id)) b).Sublist (computed g d b) := computed_sublist smaller b
    rw [shrinking.listed.of_put there]
    split
    · next same => exact same ▸ anew
    · exact anew.trans (shrinking.sublist b known free)

theorem foldl_update_shrinks (ids : List String) (inside : ∀ id ∈ ids, id ∈ g.ids) (shrinking : Shrinking g d) :
    Shrinking g (ids.foldl (update g) d) ∧ Within (ids.foldl (update g) d) d := by
  induction ids generalizing d with
  | nil => exact ⟨shrinking, .refl d⟩
  | cons id rest ih =>
    have there : id ∈ g.ids := inside id List.mem_cons_self
    obtain ⟨still, smaller⟩ :=
      ih (fun i later => inside i (List.mem_cons_of_mem _ later)) (shrinking_update shrinking there)
    exact ⟨still, smaller.trans (update_within shrinking there)⟩

theorem Shrinking.round (shrinking : Shrinking g d) : Shrinking g (round g d) :=
  (foldl_update_shrinks g.ids (fun _ there => there) shrinking).1

theorem round_within (shrinking : Shrinking g d) : Within (Dominators.round g d) d :=
  (foldl_update_shrinks g.ids (fun _ there => there) shrinking).2

private theorem length_flatMap_le (ids : List String) (smaller : Within d e) :
    (ids.flatMap d.of).length ≤ (ids.flatMap e.of).length ∧
      ((ids.flatMap e.of).length ≤ (ids.flatMap d.of).length → ∀ id ∈ ids, d.of id = e.of id) := by
  induction ids with
  | nil => simp
  | cons id rest ih =>
    have shorter := (smaller id).length_le
    simp only [List.flatMap_cons, List.length_append]
    refine ⟨by omega, fun same => ?_⟩
    refine List.forall_mem_cons.2 ⟨(smaller id).eq_of_length_le (by omega), ih.2 (by omega)⟩

/-- A round that changes something leaves fewer members. -/
theorem size_round_lt (shrinking : Shrinking g d) (changed : Dominators.round g d ≠ d) :
    size g (Dominators.round g d) < size g d := by
  obtain ⟨-, same⟩ := length_flatMap_le g.ids (round_within shrinking)
  apply Nat.lt_of_not_le
  intro noFewer
  exact changed (shrinking.round.listed.ext shrinking.listed (same noFewer))

end Shrinking

/-- Goes through rounds until one changes nothing, and counts them. -/
def stabilize (g : FlowGraph) (rounds : Nat) (d : Dominators) (shrinking : Shrinking g d) : Dominators × Nat :=
  if same : round g d = d then (d, rounds + 1)
  else stabilize g (rounds + 1) (round g d) shrinking.round
termination_by size g d
decreasing_by exact size_round_lt shrinking same

/-- The dominators of a flow graph; without a start the largest sets stay as they are. -/
def ofGraph (g : FlowGraph) : Dominators :=
  match g.start? with
  | none => initial g
  | some _ => (stabilize g 0 (initial g) (shrinking_initial g)).1

/-- The note on finding the dominators; without a start there is nothing to find. -/
def notes (g : FlowGraph) : List Note :=
  match g.start? with
  | none => []
  | some _ => [.dominatorsStable (stabilize g 0 (initial g) (shrinking_initial g)).2]

end Dominators

end Flowchart
