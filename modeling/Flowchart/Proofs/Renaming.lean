import Flowchart.Proofs.Calls
import Flowchart.Proofs.Indifference
import Flowchart.Proofs.Mirroring
import Mathlib.Logic.Equiv.Basic
/-! Other names for blocks. If the blocks of a diagram get other ids and the editor shows something else of them, ways,
dominators and loops are what they were, under the new ids. So the code differs in nothing but origins, and its text
in nothing but remarks. -/
namespace Flowchart

/-- The block with its new id and with something else shown of it. -/
def Block.renamed (f : String → String) (shown : Block → Option Json) (b : Block) : Block :=
  { b with id := f b.id, visualId := shown b }

/-- Only a block with an empty id may have an empty label. -/
theorem Block.id_eq_empty {b : Block} (absent : b.label.isPresent = false) : b.id = "" := by
  rw [Block.label] at absent
  cases shown : b.visualId.filter Json.isPresent with
  | none => simpa [shown, Json.isPresent] using absent
  | some j =>
    rw [shown, Option.getD_some, (Option.filter_eq_some_iff.1 shown).2] at absent
    cases absent

/-- Programs of statements that are the same but for origins have the same lines besides the remarks. -/
theorem Plan.Mirrors.codeLines_eq {f : String → String} {c c' : Compiled} (mirrors : Plan.Mirrors f c.stmts c'.stmts) :
    Text.codeLines c.text.toList = Text.codeLines c'.text.toList := by
  have same : c.program.bare = c'.program.bare := by
    rw [Compiled.program, Compiled.program, Code.Stmt.bare, Code.Stmt.bare, mirrors.bare]
  have like := Code.Stmt.like_of_bare_eq same mirrors.told.oneLine mirrors.told'.oneLine 0
  rw [Compiled.text, Compiled.text, Code.Stmt.toList_write, Code.Stmt.toList_write]
  exact like.codeLines_trimChars_eq (mirrors.told.begins _) (mirrors.told'.begins _)

namespace FlowGraph

/-- The second graph has the blocks and arrows of the first, under new ids. -/
structure Renames (f : String → String) (shown : Block → Option Json) (g g' : FlowGraph) : Prop where
  injective : Function.Injective f
  blocks : g'.blocks = g.blocks.map (Block.renamed f shown)
  outgoing : ∀ id, g'.outgoing (f id) = (g.outgoing id).map (Arrow.renamed f)

namespace Renames
variable {f : String → String} {shown : Block → Option Json} {g g' : FlowGraph} {a b h m id y : String}
  {ids : List String} {l l' : Loop} {back : Arrow} (renames : g.Renames f shown g')
include renames

theorem beq_eq (x y : String) : (f x == f y) = (x == y) := by
  rw [Bool.eq_iff_iff, beq_iff_eq, beq_iff_eq, renames.injective.eq_iff]

theorem ids_eq : g'.ids = g.ids.map f := by
  rw [FlowGraph.ids, FlowGraph.ids, renames.blocks, List.map_map, List.map_map]
  rfl

theorem block?_eq (id : String) : g'.block? (f id) = (g.block? id).map (Block.renamed f shown) := by
  have same : (fun b : Block => b.id == f id) ∘ Block.renamed f shown = fun b => b.id == id :=
    funext fun b => renames.beq_eq b.id id
  rw [block?, block?, renames.blocks, List.find?_map, same]

theorem arrows_eq : g'.arrows = g.arrows.map (Arrow.renamed f) := by
  rw [arrows, arrows, renames.ids_eq, List.flatMap_map, List.map_flatMap]
  simp only [renames.outgoing]

theorem successors_eq (id : String) : g'.successors (f id) = (g.successors id).map f := by
  rw [successors, successors, renames.outgoing, List.map_map, List.map_map]
  rfl

theorem start?_eq : g'.start? = g.start?.map f := by
  rw [start?, start?, starts, starts, renames.blocks, List.filter_map, List.map_map, List.head?_map, List.head?_map,
    Option.map_map]
  rfl

/-! Ways, and what is said of them. -/

theorem way (way : g.Way a b ids) : g'.Way (f a) (f b) (ids.map f) := by
  induction way with
  | stay => exact .stay _
  | go step _ ih =>
    refine .go ?_ ih
    rw [renames.successors_eq]
    exact List.mem_map_of_mem step

/-- Ways never leave the renamed blocks. -/
theorem exists_way {x : String} {ids' : List String} (way : g'.Way x y ids') (a : String) (begins : x = f a) :
    ∃ b ids, y = f b ∧ ids' = ids.map f ∧ g.Way a b ids := by
  induction way generalizing a with
  | stay id => exact ⟨a, [a], begins, by rw [begins]; rfl, .stay a⟩
  | go step _ ih =>
    rw [begins, renames.successors_eq] at step
    obtain ⟨next, here, is⟩ := List.mem_map.1 step
    obtain ⟨b, ids, ends, passed, way⟩ := ih next is.symm
    exact ⟨b, a :: ids, ends, by rw [begins, passed]; rfl, .go here way⟩

theorem way_of_renamed {ids' : List String} (way : g'.Way (f a) (f b) ids') :
    ∃ ids, ids' = ids.map f ∧ g.Way a b ids := by
  obtain ⟨c, ids, same, passed, way⟩ := renames.exists_way way a rfl
  cases renames.injective same
  exact ⟨ids, passed, way⟩

theorem exists_start (first : g'.start? = some y) : ∃ start, y = f start ∧ g.start? = some start := by
  rw [renames.start?_eq] at first
  obtain ⟨start, is, same⟩ := Option.map_eq_some_iff.1 first
  exact ⟨start, same.symm, is⟩

theorem start (first : g.start? = some a) : g'.start? = some (f a) := by
  rw [renames.start?_eq, first]
  rfl

theorem exists_reachable (live : g'.Reachable y) : ∃ id, y = f id ∧ g.Reachable id := by
  obtain ⟨start', first', ids', way⟩ := live
  obtain ⟨start, rfl, first⟩ := renames.exists_start first'
  obtain ⟨b, ids, ends, -, way⟩ := renames.exists_way way start rfl
  exact ⟨b, ends, start, first, ids, way⟩

theorem reachable_iff : g'.Reachable (f id) ↔ g.Reachable id := by
  constructor
  · intro live
    obtain ⟨other, same, live⟩ := renames.exists_reachable live
    cases renames.injective same
    exact live
  · rintro ⟨start, first, ids, way⟩
    exact ⟨f start, renames.start first, ids.map f, renames.way way⟩

theorem dominates_iff : g'.Dominates (f a) (f b) ↔ g.Dominates a b := by
  constructor
  · intro passed start first ids way
    exact (List.mem_map_of_injective renames.injective).1 (passed _ (renames.start first) _ (renames.way way))
  · intro passed start' first' ids' way'
    obtain ⟨start, rfl, first⟩ := renames.exists_start first'
    obtain ⟨ids, rfl, way⟩ := renames.way_of_renamed way'
    exact List.mem_map_of_mem (passed start first ids way)

theorem closesLoop (closes : g.ClosesLoop back) : g'.ClosesLoop (back.renamed f) := by
  obtain ⟨listed, live, passed⟩ := closes
  refine ⟨?_, renames.reachable_iff.2 live, renames.dominates_iff.2 passed⟩
  rw [renames.arrows_eq]
  exact List.mem_map_of_mem listed

theorem exists_closesLoop {back' : Arrow} (closes : g'.ClosesLoop back') :
    ∃ back, back' = back.renamed f ∧ g.ClosesLoop back := by
  obtain ⟨listed', live, passed⟩ := closes
  rw [renames.arrows_eq] at listed'
  obtain ⟨back, listed, rfl⟩ := List.mem_map.1 listed'
  exact ⟨back, rfl, listed, renames.reachable_iff.1 live, renames.dominates_iff.1 passed⟩

theorem leadsBack_iff : g'.LeadsBack (f h) (f m) ↔ g.LeadsBack h m := by
  constructor
  · rintro ⟨back', closes', header, ids', way', avoids⟩
    obtain ⟨back, rfl, closes⟩ := renames.exists_closesLoop closes'
    obtain ⟨ids, rfl, way⟩ := renames.way_of_renamed way'
    refine ⟨back, closes, renames.injective header, ids, way, fun passed => avoids (List.mem_map_of_mem passed)⟩
  · rintro ⟨back, closes, header, ids, way, avoids⟩
    refine ⟨back.renamed f, renames.closesLoop closes, congrArg f header, ids.map f, renames.way way, ?_⟩
    rwa [List.mem_map_of_injective renames.injective]

/-! Loops. -/

theorem mem_body_iff (member : l ∈ g.loops (.ofGraph g)) (member' : l' ∈ g'.loops (.ofGraph g'))
    (header : l'.header = f l.header) (x : String) : f x ∈ l'.body ↔ x ∈ l.body := by
  rw [mem_body member, mem_body member', header, renames.injective.eq_iff, renames.reachable_iff,
    renames.leadsBack_iff]

theorem exists_loop (member : l ∈ g.loops (.ofGraph g)) : ∃ l' ∈ g'.loops (.ofGraph g'), l'.header = f l.header := by
  obtain ⟨back, closes, header⟩ := mem_headers.1 (List.mem_map_of_mem member)
  exact List.mem_map.1 (mem_headers.2 ⟨_, renames.closesLoop closes, congrArg f header⟩)

theorem exists_old_loop (member' : l' ∈ g'.loops (.ofGraph g')) :
    ∃ l ∈ g.loops (.ofGraph g), l'.header = f l.header := by
  obtain ⟨back', closes', header'⟩ := mem_headers.1 (List.mem_map_of_mem member')
  obtain ⟨back, rfl, closes⟩ := renames.exists_closesLoop closes'
  obtain ⟨l, member, header⟩ := List.mem_map.1 (mem_headers.2 ⟨back, closes, rfl⟩)
  exact ⟨l, member, by rw [← header', header]; rfl⟩

theorem isInner_eq (id : String) : g'.plan.isInner (f id) = g.plan.isInner id := by
  have inner {l l' : Loop} (member : l ∈ g.loops (.ofGraph g)) (member' : l' ∈ g'.loops (.ofGraph g'))
      (header : l'.header = f l.header) :
      (l'.header != f id && l'.body.contains (f id) && (g'.plan.graph.successors l'.header).contains (f id)) =
        (l.header != id && l.body.contains id && (g.plan.graph.successors l.header).contains id) := by
    have next : g'.plan.graph.successors (f l.header) = (g.plan.graph.successors l.header).map f :=
      renames.successors_eq l.header
    rw [header, next, Bool.eq_iff_iff]
    simp only [Bool.and_eq_true, bne_iff_ne, List.contains_iff_mem, renames.injective.ne_iff,
      renames.mem_body_iff member member' header, List.mem_map_of_injective renames.injective]
  rw [Bool.eq_iff_iff, Plan.isInner, Plan.isInner, List.any_eq_true, List.any_eq_true]
  constructor
  · rintro ⟨l', member', holds⟩
    obtain ⟨l, member, header⟩ := renames.exists_old_loop member'
    exact ⟨l, member, inner member member' header ▸ holds⟩
  · rintro ⟨l, member, holds⟩
    obtain ⟨l', member', header⟩ := renames.exists_loop member
    exact ⟨l', member', inner member member' header ▸ holds⟩

theorem body?_rel (header : String) : Option.Rel (fun body body' => ∀ x, f x ∈ body' ↔ x ∈ body)
    (g.plan.loops.body? header) (g'.plan.loops.body? (f header)) := by
  cases found : g.plan.loops.body? header with
  | some body =>
    obtain ⟨l, member, rfl, rfl⟩ := Loops.body?_eq_some found
    obtain ⟨l', member', header'⟩ := renames.exists_loop member
    have found' : g'.plan.loops.body? l'.header = some l'.body := Loops.body?_of_mem (nodup_headers g' _) member'
    rw [← header', found']
    exact .some (renames.mem_body_iff member member' header')
  | none =>
    cases found' : g'.plan.loops.body? (f header) with
    | none => exact .none
    | some body' =>
      obtain ⟨l', member', is, rfl⟩ := Loops.body?_eq_some found'
      obtain ⟨l, member, header'⟩ := renames.exists_old_loop member'
      have here : g.plan.loops.body? l.header = some l.body := Loops.body?_of_mem (nodup_headers g _) member
      rw [renames.injective (header'.symm.trans is), found] at here
      cases here

end Renames

/-- Remarks call a block by its label, unless that is empty. -/
theorem oneLine_source {g : FlowGraph} (oneLine : ∀ b ∈ g.blocks, '\n' ∉ b.label.display.toList) {id : String}
    (here : id ∈ g.ids) : '\n' ∉ (g.plan.source id).text.toList := by
  obtain ⟨b, found⟩ := exists_block here
  obtain ⟨listed, rfl⟩ := block?_eq_some found
  have shown := oneLine b listed
  have label : g.plan.graph.label b.id = b.label := by
    rw [FlowGraph.label, show g.plan.graph.block? b.id = some b from found]
    rfl
  rw [Plan.source, Code.Origin.text, label]
  cases present : b.label.isPresent with
  | true => simpa [Option.filter, present] using shown
  | false => simp [Option.filter, present, Block.id_eq_empty present]

theorem Renames.plan {f : String → String} {shown : Block → Option Json} {g g' : FlowGraph}
    (renames : g.Renames f shown g') (empty : f "" = "") (oneLine : ∀ b ∈ g.blocks, '\n' ∉ b.label.display.toList)
    (oneLine' : ∀ b ∈ g'.blocks, '\n' ∉ b.label.display.toList) : g.plan.Renames f g'.plan where
  injective := renames.injective
  empty := empty
  ids := renames.ids_eq
  content id := by
    rw [show g'.plan.graph.block? (f id) = _ from renames.block?_eq id, Option.map_map]
    rfl
  outgoing := renames.outgoing
  inner := renames.isInner_eq
  bodies := renames.body?_rel
  entered b header found branching entry := by
    refine ⟨Alike.several header found branching entry, ?_⟩
    obtain ⟨l, member, is⟩ := has_plan.1 header
    obtain ⟨l', member', header'⟩ := renames.exists_loop member
    have found' : g'.block? (f b.id) = some (b.renamed f shown) := by
      rw [renames.block?_eq, show g.block? b.id = some b from found]
      rfl
    have has' : g'.plan.loops.has (f b.id) = true := has_plan.2 ⟨l', member', by rw [header', is]⟩
    have several : ∀ entry, g'.predecessors (b.renamed f shown).id ≠ [entry] := Alike.several has' found' branching
    exact several entry
  oneLine id here := oneLine_source oneLine here
  oneLine' id here := oneLine_source oneLine' (by rw [renames.ids_eq]; exact List.mem_map_of_mem here)

/-- The code of the two graphs is the same but for origins. -/
theorem Renames.mirrors_compile {f : String → String} {shown : Block → Option Json} {g g' : FlowGraph}
    (renames : g.Renames f shown g') (empty : f "" = "") (oneLine : ∀ b ∈ g.blocks, '\n' ∉ b.label.display.toList)
    (oneLine' : ∀ b ∈ g'.blocks, '\n' ∉ b.label.display.toList) : Plan.Mirrors f g.compile.stmts g'.compile.stmts := by
  have plans := renames.plan empty oneLine oneLine'
  rw [compile, compile, renames.start?_eq]
  cases first : g.start? with
  | none =>
    have told : Code.Stmt.AreTold (Compiled.marker "" "N/A" "No Start node found" []).stmts :=
      .unsupported (by decide) _
    exact ⟨rfl, fun _ => congrArg some empty.symm, told, told⟩
  | some start =>
    have here : start ∈ g.ids := start_mem_ids first
    have lowered := (plans.reflects [] [] none start here).stmts
    have nothing : (g'.plan.lower [] [] none (f start)).stmts.isEmpty =
        (g.plan.lower [] [] none start).stmts.isEmpty := by
      rw [Bool.eq_iff_iff, List.isEmpty_iff, List.isEmpty_iff]
      exact lowered.eq_nil_iff.symm
    simp only [Option.map_some, nothing]
    split
    · exact plans.mirrors_unsupported here _
    · exact lowered

end FlowGraph

theorem distinctBlocks_renamed {f : String → String} (injective : Function.Injective f) (shown : Block → Option Json)
    (seen : List String) (blocks : List Block) : distinctBlocks (seen.map f) (blocks.map (Block.renamed f shown)) =
      (distinctBlocks seen blocks).map (Block.renamed f shown) := by
  induction blocks generalizing seen with
  | nil => rfl
  | cons b rest ih =>
    have again : (seen.map f).contains (f b.id) = seen.contains b.id := by
      rw [Bool.eq_iff_iff, List.contains_iff_mem, List.contains_iff_mem, List.mem_map_of_injective injective]
    rw [List.map_cons, distinctBlocks, distinctBlocks]
    simp only [Block.renamed, again]
    split
    · exact ih seen
    · exact congrArg _ (ih (b.id :: seen))

theorem mem_of_mem_distinctBlocks {seen : List String} {blocks : List Block} {b : Block}
    (member : b ∈ distinctBlocks seen blocks) : b ∈ blocks := by
  induction blocks generalizing seen with
  | nil => cases member
  | cons c rest ih =>
    rw [distinctBlocks] at member
    split at member
    · exact List.mem_cons_of_mem _ (ih member)
    · exact List.mem_cons.2 ((List.mem_cons.1 member).imp id ih)

namespace Diagram

/-- The diagram with new ids for its blocks and with something else shown of them. -/
def renamed (f : String → String) (shown : Block → Option Json) (d : Diagram) : Diagram :=
  ⟨d.blocks.map (Block.renamed f shown), d.arrows.map (Arrow.renamed f)⟩

theorem renames_flowGraph {f : String → String} (injective : Function.Injective f) (shown : Block → Option Json)
    (d : Diagram) : d.flowGraph.Renames f shown (d.renamed f shown).flowGraph := by
  have blocks : (d.renamed f shown).flowGraph.blocks = d.flowGraph.blocks.map (Block.renamed f shown) :=
    distinctBlocks_renamed injective shown [] d.blocks
  have ids : (d.renamed f shown).flowGraph.ids = d.flowGraph.ids.map f := by
    rw [FlowGraph.ids, FlowGraph.ids, blocks, List.map_map, List.map_map]
    rfl
  have listed (id : String) : f id ∈ (d.renamed f shown).flowGraph.ids ↔ id ∈ d.flowGraph.ids := by
    rw [ids, List.mem_map_of_injective injective]
  refine ⟨injective, blocks, fun id => ?_⟩
  have joins : Tables.joins (d.renamed f shown).flowGraph.ids ∘ Arrow.renamed f = Tables.joins d.flowGraph.ids := by
    funext a
    rw [Bool.eq_iff_iff, Function.comp_apply, Tables.joins_iff, Tables.joins_iff]
    exact and_congr (listed a.source) (listed a.target)
  have leaves : (fun a : Arrow => a.source == f id) ∘ Arrow.renamed f = fun a => a.source == id := by
    funext a
    rw [Bool.eq_iff_iff, Function.comp_apply, beq_iff_eq, beq_iff_eq]
    exact injective.eq_iff
  rw [flowGraph, flowGraph, FlowGraph.outgoing_build, FlowGraph.outgoing_build, ← flowGraph, ← flowGraph]
  rw [renamed, List.filter_map, ← renamed, joins, List.filter_map, leaves]

/-- The code of a diagram under other names for its blocks has the same lines besides the remarks. -/
theorem codeLines_renamed {f : String → String} (injective : Function.Injective f) (empty : f "" = "")
    (shown : Block → Option Json) (d : Diagram) (oneLine : ∀ b ∈ d.blocks, '\n' ∉ b.label.display.toList)
    (oneLine' : ∀ b ∈ (d.renamed f shown).blocks, '\n' ∉ b.label.display.toList) :
    Text.codeLines (d.renamed f shown).compile.text.toList = Text.codeLines d.compile.text.toList := by
  by_cases none : d.blocks = []
  · simp [compile, renamed, none]
  have mirrors := (renames_flowGraph injective shown d).mirrors_compile empty
    (fun b member => oneLine b (mem_of_mem_distinctBlocks member))
    (fun b member => oneLine' b (mem_of_mem_distinctBlocks member))
  rw [← compile_stmts_eq none, ← compile_stmts_eq (by simpa [renamed] using none)] at mirrors
  exact mirrors.codeLines_eq.symm

end Diagram

open Code Text

/-- Origins show in nothing but remarks as long as they are named on one line. Two programs that differ in origins only
fail alike, and their texts have the same lines besides the remarks, up to blanks in front of everything, which are
trimmed where no remark stands before them. For the code of a diagram it does not matter how blocks are called or what
is shown of them. Of an origin on several lines, those below the first are lines of the program. Lines end at line
feeds here: for a reader who ends them at carriage returns too, a name has to be free of these as well. -/
theorem origins_show_in_remarks (p q : Stmt) (d : Diagram) (f : String → String) (shown : Block → Option Json)
    (o : Origin) (first more rest : List Char) (level : Nat) :
    (p.bare = q.bare → Origin.AreOneLine p.named → Origin.AreOneLine q.named →
      (∀ e, p.write? = .error e ↔ q.write? = .error e) ∧
      ∀ out out', p.write? = .ok out → q.write? = .ok out' →
        front (codeLines out.toList) = front (codeLines out'.toList) ∧
        ((∀ c ∈ (Stmt.text 0 p).toList.head?, isBlank c = false) →
          (∀ c ∈ (Stmt.text 0 q).toList.head?, isBlank c = false) → codeLines out.toList = codeLines out'.toList)) ∧
    (Function.Injective f → f "" = "" → (∀ b ∈ d.blocks, '\n' ∉ b.label.display.toList) →
      (∀ b ∈ (d.renamed f shown).blocks, '\n' ∉ b.label.display.toList) →
      codeLines (d.renamed f shown).compile.text.toList = codeLines d.compile.text.toList) ∧
    (o.text.toList = first ++ '\n' :: more → '\n' ∉ first →
      codeLines ((header (some o) level).toList ++ rest) = codeLines more ++ codeLines rest) := by
  refine ⟨fun same oneLine oneLine' => ⟨Stmt.write?_eq_error_iff same, fun out out' written written' => ?_⟩,
    fun injective empty => Diagram.codeLines_renamed injective empty shown d,
    fun lines oneLine => Stmt.codeLines_header lines oneLine level rest⟩
  have like := Stmt.like_of_bare_eq same oneLine oneLine' 0
  rw [Stmt.eq_write_of_write? written, Stmt.eq_write_of_write? written', Stmt.toList_write, Stmt.toList_write]
  exact ⟨like.front_eq, like.codeLines_trimChars_eq⟩

/-- A program that sets one variable to one. -/
def Code.Stmt.sets (name : String) (origin : Option Origin) : Stmt :=
  .program none [.assign origin (.ident ⟨none, name⟩) (.literal none (.int 1) "1")]

theorem origins_show_in_remarks_turning :
    codeLines (Stmt.sets "x" none).write.toList = codeLines (Stmt.sets "x" (some ⟨some "n", none⟩)).write.toList ∧
    codeLines (Diagram.turning.renamed (Equiv.swap "b" "c") fun b => some (.text ("No. " ++ b.id))).compile.text.toList =
      codeLines Diagram.turning.compile.text.toList ∧
    codeLines ((header (some ⟨none, some (.text "a\nx = 2")⟩) 0).toList ++ []) =
      codeLines "x = 2".toList ++ codeLines [] := by
  obtain ⟨programs, diagrams, lines⟩ := origins_show_in_remarks (Stmt.sets "x" none)
    (Stmt.sets "x" (some ⟨some "n", none⟩)) Diagram.turning (Equiv.swap "b" "c")
    (fun b => some (.text ("No. " ++ b.id))) ⟨none, some (.text "a\nx = 2")⟩ ['a'] "x = 2".toList [] 0
  refine ⟨?_, diagrams (Equiv.injective _) (by decide) (by decide) (by decide), lines (by decide) (by decide)⟩
  obtain ⟨-, texts⟩ := programs rfl (by decide) (by decide)
  have first : (Stmt.text 0 (Stmt.sets "x" none)).toList.head? = some 'x' := by decide
  have first' : (Stmt.text 0 (Stmt.sets "x" (some ⟨some "n", none⟩))).toList.head? = some '#' := by decide
  exact (texts _ _ rfl rfl).2 (by simp [first, isBlank]) (by simp [first', isBlank])

/-- A diagram that prints nothing, in a block of which `label` is shown. -/
def Diagram.showing (label : String) : Diagram where
  blocks := [⟨"s", none, .start⟩, ⟨"n", some (.text label), .output none⟩]
  arrows := [⟨"s", "n", none, none⟩]

theorem Diagram.stmts_showing {label : String} (present : label ≠ "") : (showing label).compile.stmts =
    [.print (some ⟨some "n", some (.text label)⟩) []] := by
  have loops : (showing label).flowGraph.loops (.ofGraph (showing label).flowGraph) = [] := by
    refine List.eq_nil_iff_forall_not_mem.2 fun l member => ?_
    obtain ⟨back, closes, -⟩ := FlowGraph.exists_back member
    have only : back ∈ [⟨"s", "n", none, none⟩] := closes.1
    rw [List.mem_singleton] at only
    subst only
    -- the start is come to without passing the output
    have passed := closes.2.2 "s" rfl _ (.stay "s")
    simp at passed
  let p : Plan := ⟨(showing label).flowGraph, []⟩
  have plan : (showing label).flowGraph.plan = p := congrArg (Plan.mk _) loops
  have output : p.Settles 1 (.block [] ["s"] none (some "n")) _ _ :=
    .pass (b := ⟨"n", some (.text label), .output none⟩) rfl
      ⟨⟨⟨by simp, .tail _ (.head _)⟩, rfl⟩, Bool.false_ne_true, by simp⟩ rfl .nothing
  have whole : p.Settles 2 (.block [] [] none (some "s")) _ _ :=
    .pass (b := ⟨"s", none, .start⟩) rfl ⟨⟨⟨by simp, .head _⟩, rfl⟩, Bool.false_ne_true, by simp⟩ rfl output
  refine compile_stmts_of_cons rfl ?_
  rw [plan]
  refine whole.stmts_lower.trans ?_
  change [Stmt.print (some ⟨some "n", some (Block.label ⟨"n", some (.text label), .output none⟩)⟩) []] = _
  simp [Block.label, Option.filter_some, Json.isPresent, present]

/-- What is shown of a block may become a line of the program. A blank in front of everything is trimmed without a
remark before it, and kept with one. -/
theorem label_adds_line :
    ((Diagram.showing "a").compile.program.bare = (Diagram.showing "a\nx = 2").compile.program.bare ∧
      codeLines (Diagram.showing "a").compile.text.toList = ["print()".toList] ∧
      codeLines (Diagram.showing "a\nx = 2").compile.text.toList = ["x = 2".toList, "print()".toList]) ∧
    (Stmt.sets " x" none).bare = (Stmt.sets " x" (some ⟨some "n", none⟩)).bare ∧
      codeLines (Stmt.sets " x" none).write.toList = ["x = 1".toList] ∧
      codeLines (Stmt.sets " x" (some ⟨some "n", none⟩)).write.toList = [" x = 1".toList] := by
  refine ⟨⟨?_, ?_, ?_⟩, rfl, by decide, by decide⟩
  · rw [Compiled.program, Compiled.program, Diagram.stmts_showing (by decide), Diagram.stmts_showing (by decide)]
    rfl
  · rw [Compiled.text, Compiled.program, Diagram.stmts_showing (by decide)]
    decide
  · rw [Compiled.text, Compiled.program, Diagram.stmts_showing (by decide)]
    decide

end Flowchart
