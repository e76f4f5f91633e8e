import Flowchart.Proofs.GraphLikeness
/-! What the code of a diagram does not depend on: blocks that cannot be reached, and the order in which blocks and
arrows are listed. In both cases the two diagrams have flow graphs that look the same from the start. -/
namespace Flowchart

section Blocks
variable {seen seen' : List String} {blocks : List Block}

/-- Only the ids of the blocks are looked for among those seen. -/
theorem distinctBlocks_congr (same : ∀ b ∈ blocks, b.id ∈ seen ↔ b.id ∈ seen') :
    distinctBlocks seen blocks = distinctBlocks seen' blocks := by
  induction blocks generalizing seen seen' with
  | nil => rfl
  | cons b rest ih =>
    have head : seen.contains b.id = seen'.contains b.id := by
      rw [Bool.eq_iff_iff, List.contains_iff_mem, List.contains_iff_mem]
      exact same b List.mem_cons_self
    have tail (c : Block) (later : c ∈ rest) := same c (List.mem_cons_of_mem _ later)
    rw [distinctBlocks, distinctBlocks, head, ih tail]
    congr 2
    apply ih
    intro c later
    rw [List.mem_cons, List.mem_cons, tail c later]

theorem distinctBlocks_of_nodup (distinct : (blocks.map Block.id).Nodup) (new : ∀ b ∈ blocks, b.id ∉ seen) :
    distinctBlocks seen blocks = blocks := by
  induction blocks generalizing seen with
  | nil => rfl
  | cons b rest ih =>
    obtain ⟨unused, distinct⟩ := List.nodup_cons.1 distinct
    rw [distinctBlocks, if_neg (by simpa using new b List.mem_cons_self)]
    congr 1
    refine ih distinct fun c later again => ?_
    rcases List.mem_cons.1 again with same | old
    · exact unused (same ▸ List.mem_map_of_mem later)
    · exact new c (List.mem_cons_of_mem _ later) old

/-- Leaving out blocks by their ids can be done before or after repeated ones are left out. -/
theorem distinctBlocks_filter (keep : String → Bool) (seen : List String) (blocks : List Block) :
    distinctBlocks seen (blocks.filter fun b => keep b.id) =
      (distinctBlocks seen blocks).filter fun b => keep b.id := by
  induction blocks generalizing seen with
  | nil => rfl
  | cons b rest ih =>
    by_cases kept : keep b.id = true
    · rw [List.filter_cons, if_pos kept, distinctBlocks, distinctBlocks]
      split
      · exact ih seen
      · rw [List.filter_cons, if_pos kept, ih]
    · rw [List.filter_cons, if_neg kept, distinctBlocks]
      split
      · exact ih seen
      · -- The block that is left out counts as seen on one side only, but no block that is kept has its id.
        rw [List.filter_cons, if_neg kept, ← ih]
        apply distinctBlocks_congr
        intro c member
        have other : c.id ≠ b.id := fun same => kept (same ▸ (List.mem_filter.1 member).2)
        simp [other]

end Blocks

namespace Diagram
open FlowGraph
variable {d d' : Diagram} {id start : String} {b : Block} {a : Arrow}

/-- The arrows out of a block are those listed with it as source that lead to a block. -/
theorem outgoing_flowGraph (d : Diagram) (id : String) : d.flowGraph.outgoing id =
    (d.arrows.filter (·.source == id)).filter fun a =>
      decide (a.source ∈ d.flowGraph.ids ∧ a.target ∈ d.flowGraph.ids) := by
  rw [flowGraph, outgoing_build, List.filter_comm]
  apply List.filter_congr
  intro a _
  rw [Bool.eq_iff_iff, Tables.joins_iff, decide_eq_true_iff]

/-! Leaving out what cannot be reached. -/

/-- The ids of the blocks that no way from the start leads to. -/
def stranded (d : Diagram) : List String :=
  (d.blocks.map Block.id).filter fun id => !d.flowGraph.reachable.contains id

/-- The diagram without the blocks that cannot be reached and without the arrows that leave them. -/
def pruned (d : Diagram) : Diagram where
  blocks := d.blocks.filter fun b => !d.stranded.contains b.id
  arrows := d.arrows.filter fun a => !d.stranded.contains a.source

theorem mem_stranded : id ∈ d.stranded ↔ id ∈ d.blocks.map Block.id ∧ ¬d.flowGraph.Reachable id := by
  rw [stranded, List.mem_filter, Bool.not_eq_true', ← Bool.not_eq_true, List.contains_iff_mem, mem_reachable]

theorem not_stranded_of_reachable (live : d.flowGraph.Reachable id) : (!d.stranded.contains id) = true := by
  simp [mem_stranded, live]

theorem blocks_flowGraph_pruned :
    d.pruned.flowGraph.blocks = d.flowGraph.blocks.filter fun b => !d.stranded.contains b.id :=
  distinctBlocks_filter (fun id => !d.stranded.contains id) [] d.blocks

theorem mem_blocks_pruned (listed : b ∈ d.flowGraph.blocks) (live : d.flowGraph.Reachable b.id) :
    b ∈ d.pruned.flowGraph.blocks := by
  rw [blocks_flowGraph_pruned]
  exact List.mem_filter.2 ⟨listed, not_stranded_of_reachable live⟩

theorem ids_pruned_subset : d.pruned.flowGraph.ids ⊆ d.flowGraph.ids := by
  rw [ids, blocks_flowGraph_pruned]
  exact List.map_subset _ (List.filter_subset_self _)

theorem mem_ids_pruned (live : d.flowGraph.Reachable id) : id ∈ d.pruned.flowGraph.ids := by
  obtain ⟨b, listed, rfl⟩ := List.mem_map.1 live.mem_ids
  exact List.mem_map_of_mem (mem_blocks_pruned listed live)

/-- The first start block can be reached, so it is still there and still the first. -/
theorem start?_pruned (first : d.flowGraph.start? = some start) : d.pruned.flowGraph.start? = some start := by
  have live := Reachable.of_start first
  rw [start?_eq_find?] at first ⊢
  obtain ⟨b, found, rfl⟩ := Option.map_eq_some_iff.1 first
  obtain ⟨starts, before, after, split, others⟩ := List.find?_eq_some_iff_append.1 found
  have still : d.pruned.flowGraph.blocks.find? (·.content.isStart) = some b := by
    rw [blocks_flowGraph_pruned, List.find?_filter, List.find?_eq_some_iff_append]
    refine ⟨decide_eq_true ⟨not_stranded_of_reachable live, starts⟩, before, after, split, fun c earlier => ?_⟩
    have other := others c earlier
    simp only [Bool.not_eq_true'] at other
    simp [other]
  rw [still]
  rfl

theorem alike_pruned (first : d.flowGraph.start? = some start) : d.flowGraph.Alike d.pruned.flowGraph where
  start := by rw [first, start?_pruned first]
  block id live := by
    obtain ⟨b, found⟩ := exists_block live.mem_ids
    obtain ⟨listed, rfl⟩ := block?_eq_some found
    rw [found, block?_of_mem (mem_blocks_pruned listed live)]
  outgoing id live := by
    have leaving : d.pruned.arrows.filter (·.source == id) = d.arrows.filter (·.source == id) := by
      rw [pruned, List.filter_filter]
      refine List.filter_congr fun a _ => ?_
      by_cases source : a.source = id
      · rw [source, not_stranded_of_reachable live, Bool.and_true]
      · simp [source]
    rw [outgoing_flowGraph, outgoing_flowGraph, leaving]
    refine List.filter_congr fun a member => ?_
    obtain ⟨listed, source⟩ := List.mem_filter.1 member
    cases beq_iff_eq.1 source
    refine decide_eq_decide.2 ⟨?_, ?_⟩
    · rintro ⟨here, there⟩
      have out : a ∈ d.flowGraph.outgoing a.source := by
        rw [outgoing_flowGraph]
        exact List.mem_filter.2 ⟨member, decide_eq_true ⟨here, there⟩⟩
      have next : a.target ∈ d.flowGraph.successors a.source := List.mem_map_of_mem out
      exact ⟨mem_ids_pruned live, mem_ids_pruned (live.next next)⟩
    · rintro ⟨here, there⟩
      exact ⟨ids_pruned_subset here, ids_pruned_subset there⟩

/-- Blocks that cannot be reached do not matter. Without them and the arrows that leave them, whatever these
arrows lead to, a diagram has the same code, with the same origins, and its runs take the same steps to the same
end, for all inputs and limits. -/
theorem pruned_keeps_code_and_runs (d : Diagram) (start : String) (first : d.flowGraph.start? = some start) :
    (∀ b, b ∈ d.pruned.blocks ↔ b ∈ d.blocks ∧ d.flowGraph.Reachable b.id) ∧
    (∀ a, a ∈ d.pruned.arrows ↔
      a ∈ d.arrows ∧ ∀ b ∈ d.blocks, b.id = a.source → d.flowGraph.Reachable b.id) ∧
    d.pruned.compile.stmts = d.compile.stmts ∧
    ∀ inputs limit, (d.pruned.run inputs limit).steps = (d.run inputs limit).steps ∧
      (d.pruned.run inputs limit).stopped = (d.run inputs limit).stopped := by
  have alike := alike_pruned first
  have kept (id : String) : (!d.stranded.contains id) = true ↔
      (id ∈ d.blocks.map Block.id → d.flowGraph.Reachable id) := by
    simp [mem_stranded]
  refine ⟨fun b => ?_, fun a => ?_, ?_, fun inputs limit => ?_⟩
  · rw [pruned, List.mem_filter, kept]
    refine and_congr_right fun listed => ?_
    exact ⟨fun live => live (List.mem_map_of_mem listed), fun live _ => live⟩
  · rw [pruned, List.mem_filter, kept]
    refine and_congr_right fun _ => ⟨fun live b listed same => ?_, fun live member => ?_⟩
    · exact same ▸ live (same ▸ List.mem_map_of_mem listed)
    · obtain ⟨b, listed, same⟩ := List.mem_map.1 member
      exact same ▸ live b listed same
  · rw [compile_stmts_eq (blocks_ne_nil_of_start first),
      compile_stmts_eq (blocks_ne_nil_of_start (start?_pruned first)), alike.compile_stmts]
  · rw [run, run, alike.run_eq]
    exact ⟨rfl, rfl⟩

/-- The block outside of the loop is left out, with the arrow by which it leads into the loop. -/
theorem pruned_keeps_turning : turning.flowGraph.start? = some "s" ∧
    turning.pruned.blocks.map Block.id = ["s", "c", "b", "e"] ∧ turning.pruned.arrows.length = 4 ∧
    turning.pruned.compile.stmts = turning.compile.stmts := by
  have first : turning.flowGraph.start? = some "s" := by decide
  refine ⟨first, by decide +kernel, by decide +kernel, ?_⟩
  exact (pruned_keeps_code_and_runs turning "s" first).2.2.1

/-! Listing blocks and arrows in another order. -/

theorem blocks_flowGraph (distinct : (d.blocks.map Block.id).Nodup) : d.flowGraph.blocks = d.blocks :=
  distinctBlocks_of_nodup distinct (by simp)

/-- Where there is at most one start block, its place does not matter. -/
theorem start?_of_perm {g g' : FlowGraph} (blocks : g.blocks.Perm g'.blocks)
    (few : g.blocks.countP (·.content.isStart) ≤ 1) : g.start? = g'.start? := by
  have starts : g.starts.Perm g'.starts := (blocks.filter _).map _
  have short : g.starts.length ≤ 1 := by
    rwa [FlowGraph.starts, List.length_map, ← List.countP_eq_length_filter]
  rw [start?, start?]
  generalize g.starts = first at starts short ⊢
  cases first with
  | nil => rw [starts.nil_eq]
  | cons id rest =>
    have single : rest = [] := by simpa using short
    subst single
    rw [starts.singleton_eq]

section Relisted
variable (blocks : d.flowGraph.blocks.Perm d'.flowGraph.blocks)
include blocks

theorem block?_of_perm (there : id ∈ d.flowGraph.ids) : d.flowGraph.block? id = d'.flowGraph.block? id := by
  obtain ⟨b, found⟩ := exists_block there
  obtain ⟨listed, rfl⟩ := block?_eq_some found
  rw [found, block?_of_mem (blocks.mem_iff.1 listed)]

theorem outgoing_of_perm (arrows : d.arrows.filter (·.source == id) = d'.arrows.filter (·.source == id)) :
    d.flowGraph.outgoing id = d'.flowGraph.outgoing id := by
  have ids (x : String) : x ∈ d.flowGraph.ids ↔ x ∈ d'.flowGraph.ids := (blocks.map Block.id).mem_iff
  rw [outgoing_flowGraph, outgoing_flowGraph, arrows]
  simp only [ids]

end Relisted

/-- The order in which a diagram lists its blocks does not matter, and neither does the order of its arrows, as
long as those that leave the same block keep their order: the code is the same, with the same origins. Arrows that
leave no block may be listed at will. -/
theorem compile_relisted (d d' : Diagram) (distinct : (d.blocks.map Block.id).Nodup)
    (few : d.blocks.countP (·.content.isStart) ≤ 1) (blocks : d.blocks.Perm d'.blocks)
    (arrows : ∀ b ∈ d.blocks, d.arrows.filter (·.source == b.id) = d'.arrows.filter (·.source == b.id)) :
    d.compile.stmts = d'.compile.stmts := by
  have distinct' : (d'.blocks.map Block.id).Nodup := (blocks.map Block.id).nodup distinct
  have same : d.flowGraph.blocks.Perm d'.flowGraph.blocks := by
    rwa [blocks_flowGraph distinct, blocks_flowGraph distinct']
  have alike : d.flowGraph.Alike d'.flowGraph := by
    refine ⟨start?_of_perm same ?_, fun id live => block?_of_perm same live.mem_ids, fun id live => ?_⟩
    · rwa [blocks_flowGraph distinct]
    · obtain ⟨b, listed, rfl⟩ := List.mem_map.1 live.mem_ids
      rw [blocks_flowGraph distinct] at listed
      exact outgoing_of_perm same (arrows b listed)
  by_cases none : d.blocks = []
  · have none' : d'.blocks = [] := (none ▸ blocks).nil_eq.symm
    simp [compile, none, none']
  · have some_blocks : d'.blocks ≠ [] := fun none' => none (none' ▸ blocks).eq_nil
    rw [compile_stmts_eq none, compile_stmts_eq some_blocks, alike.compile_stmts]

/-- The diagram with the loop, its blocks listed from the end and the arrows out of the test listed last. -/
def relisted : Diagram where
  blocks := turning.blocks.reverse
  arrows := [⟨"u", "b", none, none⟩, ⟨"b", "c", none, none⟩, ⟨"s", "c", none, none⟩,
    ⟨"c", "b", some "yes", none⟩, ⟨"c", "e", some "no", none⟩]

theorem compile_relisted_turning : (turning.blocks.map Block.id).Nodup ∧
    turning.blocks.countP (·.content.isStart) ≤ 1 ∧ turning.blocks.Perm relisted.blocks ∧
    relisted.blocks.head?.map Block.id = some "e" ∧ turning.compile.stmts = relisted.compile.stmts := by
  have distinct : (turning.blocks.map Block.id).Nodup := by decide
  have few : turning.blocks.countP (·.content.isStart) ≤ 1 := by decide
  have blocks : turning.blocks.Perm relisted.blocks := (List.reverse_perm _).symm
  refine ⟨distinct, few, blocks, by decide, compile_relisted turning relisted distinct few blocks ?_⟩
  simp [turning, relisted, asks, shows]

end Diagram
end Flowchart
