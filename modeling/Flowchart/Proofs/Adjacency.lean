import Flowchart.FlowGraph.Stored
import Flowchart.Proofs.Reading
import Flowchart.Proofs.Ways
import Mathlib.Data.List.Basic
import Mathlib.Data.List.Induction
/-! What a flow graph keeps of the lists that it is built from. The lists come as an editor leaves them: ids may be
repeated, arrows may name blocks that are not there or join the same blocks twice, and there may be several starts
or none. All analyses go by the arrows that leave a block and those that enter one, so the two have to tell of the
same arrows, each as often and in the same order as it was listed. -/
namespace Flowchart

section Blocks
variable {seen : List String} {blocks : List Block} {id : String}

/-- The blocks that stand where their id comes for the first time, in the order of the list. -/
def firstBlocks (blocks : List Block) : List Block :=
  (blocks.zipIdx.filter fun place => (blocks.take place.2).all (·.id != place.1.id)).map Prod.fst

/-- One block more at the end of the list: it is kept when its id is new, and the blocks before it stay. -/
theorem distinctBlocks_concat (seen : List String) (blocks : List Block) (b : Block) :
    distinctBlocks seen (blocks ++ [b]) =
      distinctBlocks seen blocks ++ if b.id ∈ seen ∨ b.id ∈ blocks.map Block.id then [] else [b] := by
  induction blocks generalizing seen with
  | nil => simp [distinctBlocks]
  | cons c rest ih =>
    rw [List.cons_append, distinctBlocks, distinctBlocks]
    split
    · rename_i old
      have same : b.id ∈ seen ∨ b.id ∈ rest.map Block.id ↔ b.id ∈ seen ∨ b.id ∈ (c :: rest).map Block.id := by
        have old : c.id ∈ seen := List.contains_iff_mem.1 old
        grind
      rw [ih, if_congr same rfl rfl]
    · have same : b.id ∈ c.id :: seen ∨ b.id ∈ rest.map Block.id ↔
          b.id ∈ seen ∨ b.id ∈ (c :: rest).map Block.id := by
        grind
      rw [ih, if_congr same rfl rfl, List.cons_append]

theorem firstBlocks_concat (blocks : List Block) (b : Block) :
    firstBlocks (blocks ++ [b]) = firstBlocks blocks ++ if b.id ∈ blocks.map Block.id then [] else [b] := by
  -- A place in the list sees the same blocks before it when the list grows at its end.
  have earlier : ∀ place ∈ blocks.zipIdx, ((blocks ++ [b]).take place.2).all (·.id != place.1.id) =
      (blocks.take place.2).all (·.id != place.1.id) := by
    intro place member
    have inside : place.2 < blocks.length := by simpa using List.snd_lt_of_mem_zipIdx member
    rw [List.take_append_of_le_length (Nat.le_of_lt inside)]
  have last : blocks.all (·.id != b.id) = !decide (b.id ∈ blocks.map Block.id) := by
    rw [Bool.eq_iff_iff]
    simp
  rw [firstBlocks, List.zipIdx_append, List.filter_append, List.filter_congr earlier, List.map_append, ← firstBlocks]
  congr 1
  simp only [List.zipIdx_singleton, Nat.zero_add, List.filter_singleton, List.take_left, last]
  by_cases old : b.id ∈ blocks.map Block.id
  · simp only [old, decide_true, Bool.not_true, if_true]
    rfl
  · simp only [old, decide_false, Bool.not_false, if_false]
    rfl

/-- Going through the list with the ids seen so far finds the places where an id comes for the first time. -/
theorem distinctBlocks_eq_firstBlocks (blocks : List Block) : distinctBlocks [] blocks = firstBlocks blocks := by
  induction blocks using List.reverseRecOn with
  | nil => rfl
  | append_singleton rest b ih =>
    rw [distinctBlocks_concat, firstBlocks_concat, ih]
    simp

/-- Of the blocks with an id that was not seen before, the first is found among those that are kept. -/
theorem find?_distinctBlocks (new : id ∉ seen) :
    (distinctBlocks seen blocks).find? (·.id == id) = blocks.find? (·.id == id) := by
  induction blocks generalizing seen with
  | nil => rfl
  | cons b rest ih =>
    rw [distinctBlocks]
    by_cases here : b.id = id
    · rw [if_neg (by simpa [here] using new)]
      simp [here]
    · rw [List.find?_cons_of_neg (by simpa using here)]
      split
      · exact ih new
      · rw [List.find?_cons_of_neg (by simpa using here)]
        apply ih
        simp [Ne.symm here, new]

end Blocks

/-- Arrows sorted by one of their ends, with every end once, are the same arrows. -/
theorem flatMap_filter_perm {ends : Arrow → String} {ids : List String} {arrows : List Arrow} (distinct : ids.Nodup)
    (inside : ∀ a ∈ arrows, ends a ∈ ids) :
    (ids.flatMap fun id => arrows.filter (ends · == id)).Perm arrows := by
  induction ids generalizing arrows with
  | nil =>
    have none : arrows = [] := List.eq_nil_iff_forall_not_mem.2 fun a member => by simpa using inside a member
    rw [none]
    exact .nil
  | cons id rest ih =>
    obtain ⟨unused, distinct⟩ := List.nodup_cons.1 distinct
    have others : ∀ other ∈ rest, arrows.filter (ends · == other) =
        (arrows.filter fun a => !(ends a == id)).filter (ends · == other) := by
      intro other member
      rw [List.filter_filter]
      apply List.filter_congr
      intro a _
      have apart : other ≠ id := fun same => unused (same ▸ member)
      by_cases here : ends a = other <;> simp [here, apart]
    have left : ∀ a ∈ arrows.filter fun a => !(ends a == id), ends a ∈ rest := by
      intro a member
      obtain ⟨listed, other⟩ := List.mem_filter.1 member
      exact (List.mem_cons.1 (inside a listed)).resolve_left (by simpa using other)
    rw [List.flatMap_cons, List.flatMap_congr others]
    exact ((ih distinct left).append_left _).trans (List.filter_append_perm _ _)

/-- The arrows with one end at a block that is there, out of those that join two blocks. -/
theorem filter_joins {near far : Arrow → String} {ids : List String} {id : String} (there : id ∈ ids)
    (ends : ∀ a, Tables.joins ids a = true ↔ near a ∈ ids ∧ far a ∈ ids) (arrows : List Arrow) :
    (arrows.filter (Tables.joins ids)).filter (near · == id) = arrows.filter fun a => near a = id ∧ far a ∈ ids := by
  rw [List.filter_filter]
  apply List.filter_congr
  intro a _
  rw [Bool.eq_iff_iff]
  simp only [Bool.and_eq_true, beq_iff_eq, decide_eq_true_eq, ends]
  constructor
  · rintro ⟨here, -, other⟩
    exact ⟨here, other⟩
  · rintro ⟨rfl, other⟩
    exact ⟨rfl, there, other⟩

theorem count_map_eq_length (ends : Arrow → String) (arrows : List Arrow) (id : String) :
    (arrows.map ends).count id = (arrows.filter (ends · == id)).length := by
  rw [List.count, List.countP_map, List.countP_eq_length_filter]
  rfl

theorem Content.isStart_iff {c : Content} : c.isStart = true ↔ c = .start := by
  cases c <;> simp [isStart]

namespace FlowGraph
variable {g : FlowGraph} {blocks : List Block} {arrows : List Arrow} {id : String}

theorem block?_build (blocks : List Block) (arrows : List Arrow) (id : String) :
    (build blocks arrows).block? id = blocks.find? (·.id == id) :=
  find?_distinctBlocks List.not_mem_nil

/-- A block that is left out leaves its id to the one that was kept. -/
theorem mem_ids_build : id ∈ (build blocks arrows).ids ↔ id ∈ blocks.map Block.id := by
  have kept : id ∈ (build blocks arrows).ids ↔ ((build blocks arrows).block? id).isSome := by
    simp [ids, block?]
  rw [kept, block?_build]
  simp

theorem outgoing_build_of_mem (there : id ∈ (build blocks arrows).ids) : (build blocks arrows).outgoing id =
    arrows.filter fun a => a.source = id ∧ a.target ∈ (build blocks arrows).ids := by
  rw [outgoing_build]
  exact filter_joins there (fun _ => Tables.joins_iff) arrows

theorem incoming_build_of_mem (there : id ∈ (build blocks arrows).ids) : (build blocks arrows).incoming id =
    arrows.filter fun a => a.target = id ∧ a.source ∈ (build blocks arrows).ids := by
  rw [incoming_build]
  exact filter_joins there (fun _ => Tables.joins_iff.trans and_comm) arrows

theorem rows_eq_ids (g : FlowGraph) :
    g.tables.leaving.map Prod.fst = g.ids ∧ g.tables.entering.map Prod.fst = g.ids := by
  obtain ⟨arrows, filled⟩ := g.filled
  rw [filled, Tables.fill_eq]
  exact ⟨Tables.map_fst_sorted _ _ _, Tables.map_fst_sorted _ _ _⟩

/-- At an id that no block has there are no arrows. -/
theorem nil_of_foreign (foreign : id ∉ g.ids) : g.outgoing id = [] ∧ g.incoming id = [] := by
  constructor
  · apply List.eq_nil_iff_forall_not_mem.2
    intro a out
    obtain ⟨listed, rfl⟩ := mem_outgoing.1 out
    exact foreign (g.joined a listed).1
  · apply List.eq_nil_iff_forall_not_mem.2
    intro a into
    obtain ⟨listed, rfl⟩ := mem_incoming.1 into
    exact foreign (g.joined a listed).2

/-- The arrows from one block to another are found from both sides, in the same order. -/
theorem transposed (g : FlowGraph) (s t : String) :
    (g.outgoing s).filter (·.target == t) = (g.incoming t).filter (·.source == s) := by
  obtain ⟨listed, -, leaving, entering, -⟩ := g.exists_sorted
  rw [leaving, entering]
  exact List.filter_comm _ _ _

/-- One block follows another as often as this goes before it. -/
theorem count_successors (g : FlowGraph) (s t : String) : (g.successors s).count t = (g.predecessors t).count s := by
  rw [successors, predecessors, count_map_eq_length, count_map_eq_length, transposed]

/-- Leaving arrows, block by block, and entering arrows, block by block, are the same arrows in two orders. -/
theorem outgoing_perm_incoming (g : FlowGraph) : (g.ids.flatMap g.outgoing).Perm (g.ids.flatMap g.incoming) := by
  obtain ⟨listed, inside, leaving, entering, -⟩ := g.exists_sorted
  have out : (g.ids.flatMap g.outgoing).Perm listed := by
    rw [funext leaving]
    exact flatMap_filter_perm g.distinct fun a member => (inside a member).1
  have into : (g.ids.flatMap g.incoming).Perm listed := by
    rw [funext entering]
    exact flatMap_filter_perm g.distinct fun a member => (inside a member).2
  exact out.trans into.symm

theorem start?_eq_some_iff : g.start? = some id ↔ ∃ before b after, g.blocks = before ++ b :: after ∧ b.id = id ∧
    b.content = .start ∧ ∀ c ∈ before, c.content ≠ .start := by
  simp only [start?_eq_find?, Option.map_eq_some_iff, List.find?_eq_some_iff_append, Bool.not_eq_true',
    ← Bool.not_eq_true, Content.isStart_iff]
  constructor
  · rintro ⟨b, ⟨starts, before, after, split, others⟩, same⟩
    exact ⟨before, b, after, split, same, starts, others⟩
  · rintro ⟨before, b, after, split, same, starts, others⟩
    exact ⟨b, ⟨starts, before, after, split, others⟩, same⟩

theorem start?_eq_none_iff : g.start? = none ↔ ∀ b ∈ g.blocks, b.content ≠ .start := by
  simp only [start?_eq_find?, Option.map_eq_none_iff, List.find?_eq_none, Content.isStart_iff, ne_eq]

/-- What a flow graph is to the blocks and arrows it was built from. -/
structure Represents (g : FlowGraph) (blocks : List Block) (arrows : List Arrow) : Prop where
  /-- Of every id the first block is kept, and what is kept keeps its order. -/
  firsts : g.blocks = firstBlocks blocks
  /-- An id stands for the first block that has it. -/
  found : ∀ id, g.block? id = blocks.find? (·.id == id)
  /-- Both tables have a row for every block that is kept, in the order of the blocks, and no other row. -/
  rows : g.tables.leaving.map Prod.fst = g.ids ∧ g.tables.entering.map Prod.fst = g.ids
  /-- The arrows out of a block are those listed with it as source that lead to a block that is kept. -/
  leaving : ∀ b ∈ blocks, g.outgoing b.id = arrows.filter fun a => a.source = b.id ∧ a.target ∈ g.ids
  /-- The arrows into a block are those listed with it as target that come from a block that is kept. -/
  entering : ∀ b ∈ blocks, g.incoming b.id = arrows.filter fun a => a.target = b.id ∧ a.source ∈ g.ids
  /-- An id that no block has is the end of no arrow. -/
  foreign : ∀ id, id ∉ blocks.map Block.id → g.outgoing id = [] ∧ g.incoming id = []
  /-- From both of its ends a bundle of arrows looks the same. -/
  transposed : ∀ s t, (g.outgoing s).filter (·.target == t) = (g.incoming t).filter (·.source == s)
  /-- One block follows another as often as this goes before it. -/
  counted : ∀ s t, (g.successors s).count t = (g.predecessors t).count s
  /-- Every arrow leaves as often as it enters. -/
  balanced : (g.ids.flatMap g.outgoing).Perm (g.ids.flatMap g.incoming)
  /-- A run starts at the first start block among those that are kept. -/
  starting : ∀ id, g.start? = some id ↔ ∃ before b after, g.blocks = before ++ b :: after ∧ b.id = id ∧
    b.content = .start ∧ ∀ c ∈ before, c.content ≠ .start
  /-- Only where no start block is kept there is no place to start. -/
  startless : g.start? = none ↔ ∀ b ∈ g.blocks, b.content ≠ .start

/-- Where every part can be read, reading goes to the end. -/
theorem readParts_of_mapM {α β ε : Type} {read : α → Except ε β} {parts : List α} {results : List β}
    (made : parts.mapM read = .ok results) : readParts read parts = (results, none) := by
  induction parts generalizing results with
  | nil =>
    cases made
    rfl
  | cons part rest ih =>
    rw [List.mapM_cons] at made
    obtain ⟨first, here, made⟩ := bind_eq_ok made
    obtain ⟨others, later, made⟩ := bind_eq_ok made
    cases made
    simp only [readParts, here, ih later]

/-- Building a flow graph keeps the first block of every id in the order of the list, and two tables, with a row for
each of these blocks, that are transposes of each other. In the row of a block that arrows leave are the listed arrows
with this source whose target is kept, in the row of one that they enter the listed arrows with this target whose
source is kept, both in the order of the list and each as often as it is listed. The start is the first start block
that is kept, and there is none exactly when no start block is kept. Stored blocks and arrows that can be read give
the same flow graph. -/
theorem build_represents_lists (blocks : List Block) (arrows : List Arrow) :
    (build blocks arrows).Represents blocks arrows ∧
    ∀ nodes edges : List Json, nodes.mapM Block.ofJson = .ok blocks → edges.mapM Arrow.ofJson = .ok arrows →
      (ofJson nodes edges).result = .ok (build blocks arrows) := by
  constructor
  · have kept {id : String} : id ∈ blocks.map Block.id → id ∈ (build blocks arrows).ids := mem_ids_build.2
    have unknown {id : String} : id ∉ blocks.map Block.id → id ∉ (build blocks arrows).ids := mt mem_ids_build.1
    exact {
      firsts := distinctBlocks_eq_firstBlocks blocks
      found := block?_build blocks arrows
      rows := rows_eq_ids _
      leaving := fun b listed => outgoing_build_of_mem (kept (List.mem_map_of_mem listed))
      entering := fun b listed => incoming_build_of_mem (kept (List.mem_map_of_mem listed))
      foreign := fun id none => nil_of_foreign (unknown none)
      transposed := transposed _
      counted := count_successors _
      balanced := outgoing_perm_incoming _
      starting := fun id => start?_eq_some_iff
      startless := start?_eq_none_iff }
  · intro nodes edges ofNodes ofEdges
    simp only [ofJson, readParts_of_mapM ofNodes, readParts_of_mapM ofEdges]

/-- Blocks and arrows that repeat ids, also by a start block that comes too late, name a block that is not there and
join the same blocks twice. -/
def tangled : Diagram where
  blocks := [⟨"a", none, .output none⟩, ⟨"s", none, .start⟩, ⟨"a", none, .start⟩, ⟨"t", none, .start⟩,
    ⟨"s", none, .finish⟩]
  arrows := [⟨"s", "a", none, some (.int 1)⟩, ⟨"s", "ghost", none, some (.int 2)⟩, ⟨"a", "a", none, some (.int 3)⟩,
    ⟨"s", "a", none, some (.int 4)⟩, ⟨"ghost", "a", none, some (.int 5)⟩, ⟨"a", "t", none, some (.int 6)⟩]

theorem build_represents_tangled :
    (tangled.blocks.map Block.toJson).mapM Block.ofJson = .ok tangled.blocks ∧
    (tangled.arrows.map Arrow.toJson).mapM Arrow.ofJson = .ok tangled.arrows ∧
    (ofJson (tangled.blocks.map Block.toJson) (tangled.arrows.map Arrow.toJson)).result = .ok tangled.flowGraph ∧
    tangled.flowGraph.outgoing "s" = [⟨"s", "a", none, some (.int 1)⟩, ⟨"s", "a", none, some (.int 4)⟩] ∧
    tangled.flowGraph.incoming "a" =
      [⟨"s", "a", none, some (.int 1)⟩, ⟨"a", "a", none, some (.int 3)⟩, ⟨"s", "a", none, some (.int 4)⟩] ∧
    tangled.flowGraph.start? = some "s" := by
  have ofNodes : (tangled.blocks.map Block.toJson).mapM Block.ofJson = .ok tangled.blocks := rfl
  have ofEdges : (tangled.arrows.map Arrow.toJson).mapM Arrow.ofJson = .ok tangled.arrows := rfl
  obtain ⟨represents, stored⟩ := build_represents_lists tangled.blocks tangled.arrows
  refine ⟨ofNodes, ofEdges, stored _ _ ofNodes ofEdges, ?_, ?_, ?_⟩
  · exact represents.leaving ⟨"s", none, .start⟩ (by simp [tangled])
  · exact represents.entering ⟨"a", none, .output none⟩ (by simp [tangled])
  · exact (represents.starting "s").2 ⟨[⟨"a", none, .output none⟩], ⟨"s", none, .start⟩, [⟨"t", none, .start⟩], rfl,
      rfl, rfl, by simp⟩

end FlowGraph
end Flowchart
