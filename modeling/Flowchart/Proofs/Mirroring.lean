import Flowchart.Proofs.BareBlocks
import Flowchart.Proofs.PlanLikeness
/-! Structuring does not look at the names of blocks. Two plans that are the same but for the ids of their blocks and
for what the editor shows of them are structured alike: the statements differ in nothing but origins. Ids are only
compared with each other and with the empty one, so an injective renaming that leaves the empty id alone goes
unnoticed. -/
namespace Flowchart

/-- The arrow between the blocks with the new ids. -/
def Arrow.renamed (f : String → String) (a : Arrow) : Arrow :=
  { a with source := f a.source, target := f a.target }

theorem Arrow.filter_targets_renamed {f : String → String} (keep keep' : String → Bool)
    (same : ∀ t, keep' (f t) = keep t) (arrows : List Arrow) :
    ((arrows.map (renamed f)).map target).filter keep' = ((arrows.map target).filter keep).map f := by
  have targets : (arrows.map (renamed f)).map target = (arrows.map target).map f := by
    rw [List.map_map, List.map_map]
    rfl
  rw [targets, List.filter_map, show keep' ∘ f = keep from funext same]

theorem Arrow.filter_label_renamed (f : String → String) (arrows : List Arrow) (label : String) :
    (arrows.map (renamed f)).filter (·.label == some label) =
      (arrows.filter (·.label == some label)).map (renamed f) := by
  rw [List.filter_map]
  rfl

namespace Plan

/-- The origin of what a block becomes. -/
def source (p : Plan) (id : String) : Code.Origin :=
  ⟨some id, some (p.graph.label id)⟩

theorem mem_ids_of_step {p : Plan} {id next : String} (step : next ∈ p.graph.successors id) : next ∈ p.graph.ids := by
  obtain ⟨e, listed, -, rfl⟩ := FlowGraph.mem_successors.1 step
  exact (p.graph.joined e listed).2

theorem target_mem_ids {p : Plan} (id label : String) (e : Arrow) (is : p.graph.branch? id label = some e) :
    e.target ∈ p.graph.ids :=
  mem_ids_of_step (FlowGraph.target_mem_successors (FlowGraph.branch?_eq_some is).1)

theorem lastId_append {stmts more : List Code.Stmt} (some : more ≠ []) (otherwise : String) :
    lastId (stmts ++ more) otherwise = lastId more otherwise := by
  rw [lastId, lastId, List.getLast?_append_of_ne_nil _ some]

/-- Statements that are the same but for origins; the block that the last one came from is the same under its new
id. -/
structure Mirrors (f : String → String) (stmts stmts' : List Code.Stmt) : Prop where
  bare : Code.Stmt.bareAll stmts = Code.Stmt.bareAll stmts'
  last : ∀ otherwise, lastId stmts' (f otherwise) = (lastId stmts otherwise).map f
  told : Code.Stmt.AreTold stmts
  told' : Code.Stmt.AreTold stmts'

namespace Mirrors
variable {f : String → String} {stmts stmts' more more' : List Code.Stmt}

theorem eq_nil_iff (mirrors : Mirrors f stmts stmts') : stmts = [] ↔ stmts' = [] := by
  have same := mirrors.bare
  rw [Code.Stmt.bareAll_eq_map, Code.Stmt.bareAll_eq_map] at same
  rw [← List.map_eq_nil_iff, same, List.map_eq_nil_iff]

/-- An else part without statements is left out in both. -/
theorem orElse (mirrors : Mirrors f stmts stmts') : Option.Rel (Mirrors f)
    (if stmts.isEmpty then none else some stmts) (if stmts'.isEmpty then none else some stmts') := by
  have empty : stmts.isEmpty = stmts'.isEmpty := by
    rw [Bool.eq_iff_iff, List.isEmpty_iff, List.isEmpty_iff, mirrors.eq_nil_iff]
  rw [empty]
  split
  · exact .none
  · exact .some mirrors

theorem nil : Mirrors f [] [] :=
  ⟨rfl, fun _ => rfl, .nil, .nil⟩

theorem append (first : Mirrors f stmts stmts') (second : Mirrors f more more') :
    Mirrors f (stmts ++ more) (stmts' ++ more') where
  bare := by
    simp only [Code.Stmt.bareAll_eq_map, List.map_append]
    rw [← Code.Stmt.bareAll_eq_map, ← Code.Stmt.bareAll_eq_map, first.bare, second.bare,
      Code.Stmt.bareAll_eq_map, Code.Stmt.bareAll_eq_map]
  last otherwise := by
    by_cases none : more = []
    · rw [none, second.eq_nil_iff.1 none, List.append_nil, List.append_nil, first.last]
    · rw [lastId_append none, lastId_append (mt second.eq_nil_iff.2 none), second.last]
  told := first.told.append second.told
  told' := first.told'.append second.told'

/-- Statements that all come from one block, under its old and its new id. -/
theorem of_origin (p p' : Plan) (id : String) (bare : Code.Stmt.bareAll stmts = Code.Stmt.bareAll stmts')
    (told : Code.Stmt.AreTold stmts) (told' : Code.Stmt.AreTold stmts') (all : ∀ s ∈ stmts, s.origin = p.origin id)
    (all' : ∀ s ∈ stmts', s.origin = p'.origin (f id)) : Mirrors f stmts stmts' where
  bare := bare
  told := told
  told' := told'
  last otherwise := by
    have lengths := congrArg List.length bare
    rw [Code.Stmt.bareAll_eq_map, Code.Stmt.bareAll_eq_map, List.length_map, List.length_map] at lengths
    rw [lastId, lastId]
    cases final : stmts.getLast? with
    | none =>
      rw [List.getLast?_eq_none_iff.1 final] at lengths
      rw [List.length_eq_zero_iff.1 lengths.symm]
      rfl
    | some s =>
      cases final' : stmts'.getLast? with
      | none =>
        rw [List.getLast?_eq_none_iff.1 final'] at lengths
        rw [List.length_eq_zero_iff.1 lengths] at final
        cases final
      | some t =>
        simp only [all s (List.mem_of_getLast? final), all' t (List.mem_of_getLast? final'), origin, Code.originOf,
          Option.map_some]

theorem single (p p' : Plan) (id : String) {s t : Code.Stmt} (bare : s.bare = t.bare)
    (told : Code.Stmt.AreTold [s]) (told' : Code.Stmt.AreTold [t]) (is : s.origin = p.origin id)
    (is' : t.origin = p'.origin (f id)) : Mirrors f [s] [t] :=
  .of_origin p p' id (by simp only [Code.Stmt.bareAll, bare]) told told' (List.forall_mem_singleton.2 is)
    (List.forall_mem_singleton.2 is')

/-- The marker for the empty id, which keeps its name. -/
theorem invalid (empty : f "" = "") : Mirrors f [Plan.invalid (some "")] [Plan.invalid (some "")] := by
  have told : Code.Stmt.AreTold [Plan.invalid (some "")] := .unsupported (by decide) _
  refine ⟨rfl, fun otherwise => ?_, told, told⟩
  exact congrArg some empty.symm

theorem leave (p p' : Plan) (id : String) : Mirrors f [.leave (p.origin id)] [.leave (p'.origin (f id))] :=
  .single p p' id rfl (.leave _) (.leave _) rfl rfl

end Mirrors

/-- The plans differ in nothing but the ids of blocks, which are renamed, and what is shown of them, which stands on one
line in both. Their loops have the same members. In neither plan has a loop with a test at its header a single way
in. -/
structure Renames (f : String → String) (p p' : Plan) : Prop where
  injective : Function.Injective f
  empty : f "" = ""
  ids : p'.graph.ids = p.graph.ids.map f
  content : ∀ id, (p'.graph.block? (f id)).map Block.content = (p.graph.block? id).map Block.content
  outgoing : ∀ id, p'.graph.outgoing (f id) = (p.graph.outgoing id).map (Arrow.renamed f)
  inner : ∀ id, p'.isInner (f id) = p.isInner id
  bodies : ∀ header, Option.Rel (fun body body' => ∀ x, f x ∈ body' ↔ x ∈ body) (p.loops.body? header)
    (p'.loops.body? (f header))
  entered : ∀ b, p.loops.has b.id = true → p.graph.block? b.id = some b → b.content.isBranching = true →
    ∀ entry, p.graph.predecessors b.id ≠ [entry] ∧ p'.graph.predecessors (f b.id) ≠ [entry]
  oneLine : ∀ id ∈ p.graph.ids, '\n' ∉ (p.source id).text.toList
  oneLine' : ∀ id ∈ p.graph.ids, '\n' ∉ (p'.source (f id)).text.toList

/-- Results whose statements are the same but for origins. -/
structure Reflects (f : String → String) (x y : Lowered) : Prop where
  stmts : Mirrors f x.stmts y.stmts
  visited : y.visited = x.visited.map f

/-- Structuring the two plans gives the same from every block on, but for origins. -/
def ReflectsFrom (f : String → String) (p p' : Plan) (active visited : List String) : Prop :=
  ∀ inLoop id, id ∈ p.graph.ids → Reflects f (p.lower active visited inLoop id)
    (p'.lower (active.map f) (visited.map f) (inLoop.map f) (f id))

namespace Reflects
variable {f : String → String} {x y : Lowered} {stmts stmts' : List Code.Stmt}

theorem nothing (visited : List String) : Reflects f (.nothing visited) (.nothing (visited.map f)) :=
  ⟨.nil, rfl⟩

theorem after (reflects : Reflects f x y) (mirrors : Mirrors f stmts stmts') (notes notes' : List Note) :
    Reflects f (x.after stmts notes) (y.after stmts' notes') :=
  ⟨mirrors.append reflects.stmts, reflects.visited⟩

end Reflects

theorem reflects_each {f : String → String} {p p' : Plan} {active : List String}
    (goes : ∀ visited, ReflectsFrom f p p' active visited) {ids : List String}
    (leads : ∀ id ∈ ids, id ∈ p.graph.ids) (visited : List String) (inLoop : Option String) :
    Reflects f (p.lowerEach active visited inLoop ids)
      (p'.lowerEach (active.map f) (visited.map f) (inLoop.map f) (ids.map f)) := by
  induction ids generalizing visited with
  | nil =>
    rw [List.map_nil, lowerEach, lowerEach]
    exact .nothing visited
  | cons id rest ih =>
    have first := goes visited inLoop id (leads id List.mem_cons_self)
    have later := ih (fun next member => leads next (List.mem_cons_of_mem _ member))
    rw [List.map_cons, lowerEach, lowerEach, first.visited]
    exact (later _).after first.stmts _ _

theorem reflects_targets {f : String → String} {p p' : Plan} {active : List String}
    (goes : ∀ visited, ReflectsFrom f p p' active visited) {id : String} {arrows : List Arrow}
    (out : arrows ⊆ p.graph.outgoing id) (keep : String → Bool) (visited : List String) (inLoop : Option String) :
    Reflects f (p.lowerEach active visited inLoop ((arrows.map Arrow.target).filter keep))
      (p'.lowerEach (active.map f) (visited.map f) (inLoop.map f)
        (((arrows.map Arrow.target).filter keep).map f)) := by
  refine reflects_each goes (fun t listed => ?_) visited inLoop
  obtain ⟨e, taken, rfl⟩ := List.mem_map.1 (List.mem_filter.1 listed).1
  exact mem_ids_of_step (FlowGraph.target_mem_successors (out taken))

namespace Renames
variable {f : String → String} {p p' : Plan} (renames : p.Renames f p') {active visited : List String}
  {inLoop : Option String} {id : String} {b : Block}
include renames

theorem eq_empty_iff : f id = "" ↔ id = "" := by
  rw [← renames.injective.eq_iff (a := id), renames.empty]

theorem contains_map (xs : List String) (id : String) : (xs.map f).contains (f id) = xs.contains id := by
  rw [Bool.eq_iff_iff, List.contains_iff_mem, List.contains_iff_mem, List.mem_map_of_injective renames.injective]

theorem mem_ids_iff : f id ∈ p'.graph.ids ↔ id ∈ p.graph.ids := by
  rw [renames.ids, List.mem_map_of_injective renames.injective]

theorem valid_iff : (f id ≠ "" ∧ f id ∈ p'.graph.ids) ↔ id ≠ "" ∧ id ∈ p.graph.ids := by
  rw [ne_eq, renames.eq_empty_iff, renames.mem_ids_iff]

theorem exists_block (found : p.graph.block? id = some b) :
    ∃ b', p'.graph.block? (f id) = some b' ∧ b'.id = f id ∧ b'.content = b.content := by
  have same := renames.content id
  rw [found, Option.map_some] at same
  obtain ⟨b', found', content⟩ := Option.map_eq_some_iff.1 same
  exact ⟨b', found', (FlowGraph.block?_eq_some found').2, content⟩

theorem any_block (holds : Content → Bool) (id : String) :
    (p'.graph.block? (f id)).any (fun b => holds b.content) = (p.graph.block? id).any fun b => holds b.content := by
  have same := congrArg (Option.any holds) (renames.content id)
  rwa [Option.any_map, Option.any_map] at same

theorem has_eq (id : String) : p'.loops.has (f id) = p.loops.has id := by
  have same := renames.bodies id
  rw [has_eq_isSome, has_eq_isSome]
  generalize p.loops.body? id = body, p'.loops.body? (f id) = body' at same ⊢
  cases same <;> rfl

theorem successors_eq (id : String) : p'.graph.successors (f id) = (p.graph.successors id).map f := by
  rw [FlowGraph.successors, FlowGraph.successors, renames.outgoing, List.map_map, List.map_map]
  rfl

theorem branch?_eq (id label : String) :
    p'.graph.branch? (f id) label = (p.graph.branch? id label).map (Arrow.renamed f) := by
  rw [FlowGraph.branch?, FlowGraph.branch?, renames.outgoing, List.find?_map]
  rfl

theorem meets_iff : p'.Meets (inLoop.map f) (f id) ↔ p.Meets inLoop id := by
  have inner := renames.inner id
  constructor
  · rintro ⟨valid, outer⟩
    exact ⟨renames.valid_iff.1 valid, by rwa [Option.isNone_map, inner] at outer⟩
  · rintro ⟨valid, outer⟩
    exact ⟨renames.valid_iff.2 valid, by rwa [Option.isNone_map, inner]⟩

theorem loopBody (inLoop : Option String) : Option.Rel (fun body body' => ∀ x, f x ∈ body' ↔ x ∈ body)
    (p.loopBody inLoop) (p'.loopBody (inLoop.map f)) := by
  cases inLoop with
  | none => exact .none
  | some header =>
    by_cases none : header = ""
    · rw [none, Option.map_some, renames.empty]
      exact .none
    · have other : f header ≠ "" := mt renames.eq_empty_iff.1 none
      simp only [Plan.loopBody, Option.map_some, Option.filter_some, none, other, ne_eq, not_false_eq_true,
        decide_true, if_true, Option.bind_some]
      exact renames.bodies header

theorem isStraight_eq (id : String) : p'.isStraight (f id) = p.isStraight id := by
  rw [isStraight, isStraight, renames.has_eq, renames.any_block]

theorem leaves_eq {body body' : List String} (same : ∀ x, f x ∈ body' ↔ x ∈ body) (last : Option String) :
    p'.leaves body' (last.map f) = p.leaves body last := by
  cases last with
  | none => rfl
  | some id =>
    simp only [leaves, Option.map_some, renames.successors_eq, List.all_map]
    refine congrArg (List.all _) (funext fun x => ?_)
    simp [same]

theorem merge?_eq {body body' : Option (List String)} (yes no : Option Arrow)
    (same : Option.Rel (fun body body' => ∀ x, f x ∈ body' ↔ x ∈ body) body body') :
    p'.merge? (yes.map (Arrow.renamed f)) (no.map (Arrow.renamed f)) body' = (p.merge? yes no body).map f := by
  have within (next : String) : body'.all (·.contains (f next)) = body.all (·.contains next) := by
    cases same with
    | none => rfl
    | some same => simp [same]
  cases yes with
  | none => rfl
  | some yes =>
    cases no with
    | none => rfl
    | some no =>
      simp only [merge?, Option.map_some, Arrow.renamed, renames.isStraight_eq, renames.successors_eq]
      split
      · cases p.graph.successors yes.target with
        | nil => rfl
        | cons next _ =>
          cases p.graph.successors no.target with
          | nil => rfl
          | cons next' _ =>
            have meet : (f next == f next') = (next == next') := by
              rw [Bool.eq_iff_iff, beq_iff_eq, beq_iff_eq, renames.injective.eq_iff]
            simp only [List.map_cons, meet, within]
            split <;> rfl
      · rfl

theorem bothMet_map (visited yes no : List String) :
    bothMet (visited.map f) (yes.map f) (no.map f) = (bothMet visited yes no).map f := by
  have both : (fun id => (no.map f).contains id && !(visited.map f).contains id) ∘ f =
      fun id => no.contains id && !visited.contains id :=
    funext fun id => by simp only [Function.comp, renames.contains_map]
  rw [bothMet, bothMet, List.map_append, List.filter_map, both]

/-! The code of single blocks. -/

section Block
variable (here : id ∈ p.graph.ids)
include here

theorem mirrors_blockStmts (c : Content) :
    Mirrors f (Code.blockStmts (p.origin id) c) (Code.blockStmts (p'.origin (f id)) c) :=
  .of_origin p p' id (by rw [Code.bareAll_blockStmts, Code.bareAll_blockStmts])
    (.blockStmts (renames.oneLine id here) c) (.blockStmts (renames.oneLine' id here) c)
    (Interpretation.forall_blockStmts c (fun _ => rfl) (fun _ _ => rfl) fun _ => rfl)
    (Interpretation.forall_blockStmts c (fun _ => rfl) (fun _ _ => rfl) fun _ => rfl)

theorem mirrors_marks (c : Content) :
    Mirrors f (Code.test (p.origin id) c).1 (Code.test (p'.origin (f id)) c).1 := by
  refine .of_origin p p' id ?_ (.marks (renames.oneLine id here) c) (.marks (renames.oneLine' id here) c) ?_ ?_
  · rw [(Code.bare_test _ c).1, (Code.bare_test _ c).1]
  · intro s mark
    obtain ⟨e, rfl⟩ := Interpretation.test_failure mark
    rfl
  · intro s mark
    obtain ⟨e, rfl⟩ := Interpretation.test_failure mark
    rfl

theorem mirrors_stmtsAt : Mirrors f (p.stmtsAt id) (p'.stmtsAt (f id)) := by
  obtain ⟨b, found⟩ := FlowGraph.exists_block here
  obtain ⟨b', found', is', content⟩ := renames.exists_block found
  obtain ⟨-, rfl⟩ := FlowGraph.block?_eq_some found
  rw [stmtsAt, stmtsAt, found, found']
  simp only [Option.map_some, Option.getD_some, blockStmts, is', content]
  exact renames.mirrors_blockStmts here b.content

theorem mirrors_branch (c : Content) {inThen inThen' : List Code.Stmt} (thens : Mirrors f inThen inThen')
    {inElse inElse' : Option (List Code.Stmt)} (elses : Option.Rel (Mirrors f) inElse inElse') :
    Mirrors f [.branch (p.origin id) (Code.test (p.origin id) c).2 inThen inElse]
      [.branch (p'.origin (f id)) (Code.test (p'.origin (f id)) c).2 inThen' inElse'] := by
  have bareElse : Code.Stmt.bareElse inElse = Code.Stmt.bareElse inElse' := by
    cases elses with
    | none => rfl
    | some elses => rw [Code.Stmt.bareElse, Code.Stmt.bareElse, elses.bare]
  refine .single p p' id ?_
    (.branch (renames.oneLine id here) _ thens.told ?_) (.branch (renames.oneLine' id here) _ thens.told' ?_) rfl rfl
  · rw [Code.Stmt.bare, Code.Stmt.bare, (Code.bare_test _ c).2, (Code.bare_test _ c).2, thens.bare, bareElse]
  · cases elses with
    | none => simp
    | some elses => simpa using elses.told
  · cases elses with
    | none => simp
    | some elses => simpa using elses.told'

theorem mirrors_loop {test test' : Code.Expr} (tests : test.bare = test'.bare) {body body' : List Code.Stmt}
    (bodies : Mirrors f body body') :
    Mirrors f [.loop (p.origin id) test body] [.loop (p'.origin (f id)) test' body'] := by
  refine .single p p' id ?_ (.loop (renames.oneLine id here) _ bodies.told)
    (.loop (renames.oneLine' id here) _ bodies.told') rfl rfl
  rw [Code.Stmt.bare, Code.Stmt.bare, tests, bodies.bare]

theorem mirrors_forever {body body' : List Code.Stmt} (bodies : Mirrors f body body') :
    Mirrors f [.loop (p.origin id) (.truth (p.origin id) true) body]
      [.loop (p'.origin (f id)) (.truth (p'.origin (f id)) true) body'] := by
  apply renames.mirrors_loop here _ bodies
  rfl

theorem mirrors_unsupported (reason : String) :
    Mirrors f [.unsupported (p.origin id) reason] [.unsupported (p'.origin (f id)) reason] :=
  .single p p' id rfl (.unsupported (renames.oneLine id here) _)
    (.unsupported (renames.oneLine' id here) _) rfl rfl

end Block

theorem mirrors_ownStmts {b' : Block} (here : b.id ∈ p.graph.ids) (is : b'.id = f b.id)
    (content : b'.content = b.content) : Mirrors f (p.ownStmts b) (p'.ownStmts b') := by
  rw [ownStmts, ownStmts, is, content]
  split
  · exact renames.mirrors_unsupported here _
  · exact renames.mirrors_blockStmts here _

/-! The two runs side by side, case by case. -/

theorem reflects_branch (id : String) (inLoop : Option String) (goes : ReflectsFrom f p p' active visited)
    {arrow : Option Arrow} (leads : ∀ e, arrow = some e → e.target ∈ p.graph.ids) {body body' : Option (List String)}
    (same : Option.Rel (fun body body' => ∀ x, f x ∈ body' ↔ x ∈ body) body body') :
    Reflects f (p.lowerBranch active visited inLoop body id arrow)
      (p'.lowerBranch (active.map f) (visited.map f) (inLoop.map f) body' (f id) (arrow.map (Arrow.renamed f))) := by
  cases arrow with
  | none =>
    rw [Option.map_none, lowerBranch, lowerBranch]
    exact .nothing visited
  | some e =>
    have there := leads e rfl
    cases inLoop with
    | none =>
      rw [Option.map_some, Option.map_none, lowerBranch, lowerBranch]
      · exact goes none e.target there
      · simp
      · simp
    | some header =>
      cases same with
      | none =>
        rw [Option.map_some, Option.map_some, lowerBranch, lowerBranch]
        · exact goes (some header) e.target there
        · simp
        · simp
      | @some body body' same =>
        have out := goes none e.target there
        have held : body'.contains (f e.target) = body.contains e.target := by
          rw [Bool.eq_iff_iff, List.contains_iff_mem, List.contains_iff_mem, same]
        have finishes := renames.any_block Content.isFinish e.target
        have leaves := renames.leaves_eq same (lastId (p.lower active visited none e.target).stmts e.target)
        rw [← out.stmts.last] at leaves
        rw [Option.map_some, Option.map_some, lowerBranch, lowerBranch]
        simp only [Arrow.renamed, held, renames.injective.eq_iff, finishes]
        split
        · split
          · exact .nothing visited
          · exact goes (some header) e.target there
        · split
          · exact ⟨.leave p p' id, rfl⟩
          · rw [Option.map_none] at leaves
            simp only [leaves]
            split
            · exact ⟨out.stmts.append (.leave p p' id), out.visited⟩
            · exact out

theorem contains_body (header t : String) : ((p'.loops.body? (f header)).getD []).contains (f t) =
    ((p.loops.body? header).getD []).contains t := by
  have same := renames.bodies header
  generalize p.loops.body? header = body, p'.loops.body? (f header) = body' at same ⊢
  cases same with
  | none => rfl
  | some same => simp [same]

theorem reflects_loop (goes : ∀ visited, ReflectsFrom f p p' active visited) (here : b.id ∈ p.graph.ids)
    (found : p.graph.block? b.id = some b) (header : p.loops.has b.id = true) :
    Reflects f (p.lowerLoop active visited inLoop b.id)
      (p'.lowerLoop (active.map f) (visited.map f) (inLoop.map f) (f b.id)) := by
  obtain ⟨b', found', is', content'⟩ := renames.exists_block found
  have inside := Arrow.filter_targets_renamed (fun t => ((p.loops.body? b.id).getD []).contains t)
    (fun t => ((p'.loops.body? (f b.id)).getD []).contains t) (renames.contains_body b.id)
  have outside := Arrow.filter_targets_renamed (fun t => !((p.loops.body? b.id).getD []).contains t)
    (fun t => !((p'.loops.body? (f b.id)).getD []).contains t) fun t => congrArg not (renames.contains_body b.id t)
  have labelled (label : String) := reflects_targets goes
    (List.filter_sublist.subset : (p.graph.outgoing b.id).filter (·.label == some label) ⊆ _)
  have inLabelled (label : String) :=
    (labelled label (fun t => ((p.loops.body? b.id).getD []).contains t) [] (some b.id)).stmts
  have inAll := (reflects_targets goes (List.Subset.refl (p.graph.outgoing b.id))
    (fun t => ((p.loops.body? b.id).getD []).contains t) [] (some b.id)).stmts
  rw [lowerLoop, lowerLoop, found, found', renames.outgoing]
  simp only [content', Arrow.filter_label_renamed, inside, outside, List.isEmpty_map]
  cases content : b.content with
  | conditional e =>
    have entered := renames.entered b header found (by rw [content]; rfl)
    have several (entry : String) : p.graph.predecessors b.id ≠ [entry] := (entered entry).1
    have several' (entry : String) : p'.graph.predecessors (f b.id) ≠ [entry] := (entered entry).2
    have marks := renames.mirrors_marks here (.conditional e)
    have tests : (Code.test (p.origin b.id) (.conditional e)).2.bare =
        (Code.test (p'.origin (f b.id)) (.conditional e)).2.bare := by
      rw [(Code.bare_test _ _).2, (Code.bare_test _ _).2]
    -- A header that is entered more than once gets the shape that its arrows ask for, whatever enters it.
    simp only
    split
    · have loop := renames.mirrors_loop here tests (inLabelled "yes")
      exact (labelled "no" _ visited inLoop).after (marks.append loop) _ _
    · refine (labelled "yes" _ visited inLoop).after (marks.append (renames.mirrors_loop here ?_ (inLabelled "no"))) _ _
      rw [Code.Expr.bare, Code.Expr.bare, tests]
      rfl
    · have choice := renames.mirrors_branch here (.conditional e) (inLabelled "yes") (.some (inLabelled "no"))
      exact ⟨marks.append (renames.mirrors_forever here choice), rfl⟩
    · exact ⟨renames.mirrors_forever here (marks.append inAll), rfl⟩
  | _ =>
    simp only
    have own := renames.mirrors_blockStmts here b.content
    rw [content] at own
    exact ⟨renames.mirrors_forever here (own.append inAll), rfl⟩

theorem not_has (plain : ¬p.loops.has id = true) : ¬p'.loops.has (f id) = true :=
  renames.has_eq id ▸ plain

theorem not_visited (new : id ∉ visited) : f id ∉ visited.map f :=
  mt (List.mem_map_of_injective renames.injective).1 new

theorem next?_eq {b' : Block} (is : b'.id = f b.id) (content : b'.content = b.content) :
    Run.next? p'.graph b' none = (Run.next? p.graph b none).map f := by
  rw [Run.next?, Run.next?, is, content, renames.successors_eq, List.head?_map]
  split <;> rfl

/-! A block that is no header and is met for the first time goes straight on, or branches into ways that come together
or part for good. -/

section Plain
variable (here : b.id ∈ p.graph.ids) (meets : p.Meets inLoop b.id) (plain : ¬p.loops.has b.id = true)
  (new : b.id ∉ visited) (found : p.graph.block? b.id = some b)
include here meets plain new found

theorem reflects_straight (straight : b.content.isBranching = false)
    (goes : ReflectsFrom f p p' active (b.id :: visited)) : Reflects f (p.lower active visited inLoop b.id)
      (p'.lower (active.map f) (visited.map f) (inLoop.map f) (f b.id)) := by
  obtain ⟨b', found', is', content'⟩ := renames.exists_block found
  have straight' : b'.content.isBranching = false := by rw [content', straight]
  rw [lower_of_straight meets plain new found rfl straight, lower_of_straight (renames.meets_iff.2 meets)
    (renames.not_has plain) (renames.not_visited new) found' is' straight', renames.next?_eq is' content']
  refine Reflects.after ?_ (renames.mirrors_ownStmts here is' content') _ _
  cases follows : Run.next? p.graph b none with
  | none => exact .nothing _
  | some next => exact goes inLoop next (mem_ids_of_step (FlowGraph.mem_successors_of_next? follows))

theorem reflects_parting (branching : b.content.isBranching = true)
    (parts : p.merge? (p.graph.branch? b.id "yes") (p.graph.branch? b.id "no") (p.loopBody inLoop) = none)
    (goes : ReflectsFrom f p p' active (b.id :: visited)) : Reflects f (p.lower active visited inLoop b.id)
      (p'.lower (active.map f) (visited.map f) (inLoop.map f) (f b.id)) := by
  obtain ⟨b', found', is', content'⟩ := renames.exists_block found
  have body := renames.loopBody inLoop
  have same := renames.merge?_eq (p.graph.branch? b.id "yes") (p.graph.branch? b.id "no") body
  rw [parts, Option.map_none, ← renames.branch?_eq, ← renames.branch?_eq] at same
  have thenPart := renames.reflects_branch b.id inLoop goes (target_mem_ids b.id "yes") body
  have elsePart := renames.reflects_branch b.id inLoop goes (target_mem_ids b.id "no") body
  rw [List.map_cons, ← renames.branch?_eq] at thenPart elsePart
  rw [lower_of_parting meets plain new found branching parts, lower_of_parting (renames.meets_iff.2 meets)
    (renames.not_has plain) (renames.not_visited new) found' (by rw [content', branching]) same, content']
  have marks := renames.mirrors_marks here b.content
  refine ⟨marks.append (renames.mirrors_branch here b.content thenPart.stmts elsePart.stmts.orElse), ?_⟩
  dsimp only
  rw [thenPart.visited, elsePart.visited]
  exact renames.bothMet_map (b.id :: visited) _ _

theorem reflects_merge (branching : b.content.isBranching = true) {meeting : String}
    (merges : p.merge? (p.graph.branch? b.id "yes") (p.graph.branch? b.id "no") (p.loopBody inLoop) = some meeting)
    (goes : ∀ yes no, ReflectsFrom f p p' active (withBranches yes no (b.id :: visited))) :
    Reflects f (p.lower active visited inLoop b.id)
      (p'.lower (active.map f) (visited.map f) (inLoop.map f) (f b.id)) := by
  obtain ⟨b', found', is', content'⟩ := renames.exists_block found
  obtain ⟨yes, no, yesIs, noIs⟩ := exists_of_merge? merges
  have same := renames.merge?_eq (p.graph.branch? b.id "yes") (p.graph.branch? b.id "no") (renames.loopBody inLoop)
  rw [merges, yesIs, noIs] at same
  rw [yesIs, noIs] at merges
  have there : meeting ∈ p.graph.ids := mem_ids_of_step (List.mem_of_mem_head? (merge?_eq_some merges).1.2)
  have yesIs' := renames.branch?_eq b.id "yes"
  have noIs' := renames.branch?_eq b.id "no"
  rw [yesIs, Option.map_some] at yesIs'
  rw [noIs, Option.map_some] at noIs'
  rw [lower_of_merge meets plain new found branching yesIs noIs merges, lower_of_merge (renames.meets_iff.2 meets)
    (renames.not_has plain) (renames.not_visited new) found' (by rw [content', branching]) yesIs' noIs' same, content']
  have marks := renames.mirrors_marks here b.content
  have choice := renames.mirrors_branch here b.content (renames.mirrors_stmtsAt (target_mem_ids b.id "yes" yes yesIs))
    (.some (renames.mirrors_stmtsAt (target_mem_ids b.id "no" no noIs)))
  refine Reflects.after ?_ (marks.append choice) _ _
  have met : (withBranches (yes.renamed f).target (no.renamed f).target (f b.id :: visited.map f)).contains
      (f meeting) = (withBranches yes.target no.target (b.id :: visited)).contains meeting :=
    renames.contains_map (withBranches yes.target no.target (b.id :: visited)) meeting
  rw [met]
  split
  · exact .nothing (withBranches yes.target no.target (b.id :: visited))
  · exact goes yes.target no.target inLoop meeting there

end Plain

theorem reflects_plain (here : id ∈ p.graph.ids) (meets : p.Meets inLoop id) (plain : ¬p.loops.has id = true)
    (goes : id ∉ visited → ReflectsFrom f p p' active (id :: visited))
    (merged : id ∉ visited → ∀ yes no, ReflectsFrom f p p' active (withBranches yes no (id :: visited))) :
    Reflects f (p.lower active visited inLoop id)
      (p'.lower (active.map f) (visited.map f) (inLoop.map f) (f id)) := by
  by_cases old : id ∈ visited
  · rw [lower_of_met meets plain old,
      lower_of_met (renames.meets_iff.2 meets) (renames.not_has plain) (List.mem_map_of_mem old)]
    exact .nothing visited
  obtain ⟨b, found⟩ := FlowGraph.exists_block here
  obtain ⟨-, rfl⟩ := FlowGraph.block?_eq_some found
  cases branching : b.content.isBranching with
  | false => exact renames.reflects_straight here meets plain old found branching (goes old)
  | true =>
    cases merges : p.merge? (p.graph.branch? b.id "yes") (p.graph.branch? b.id "no") (p.loopBody inLoop) with
    | none => exact renames.reflects_parting here meets plain old found branching merges (goes old)
    | some meeting => exact renames.reflects_merge here meets plain old found branching merges (merged old)

end Renames

/-- Structuring gives the same for both plans, but for origins. -/
theorem Renames.reflects {f : String → String} {p p' : Plan} (renames : p.Renames f p') (active visited : List String) :
    ReflectsFrom f p p' active visited := by
  intro inLoop id here
  by_cases none : id = ""
  · have absent : ¬(id ≠ "" ∧ id ∈ p.graph.ids) := fun valid => valid.1 none
    rw [lower_of_absent absent, lower_of_absent (mt renames.valid_iff.1 absent), none, renames.empty]
    exact ⟨.invalid renames.empty, rfl⟩
  have valid : id ≠ "" ∧ id ∈ p.graph.ids := ⟨none, here⟩
  by_cases inner : (inLoop.isNone && p.isInner id) = true
  · have inner' : ((inLoop.map f).isNone && p'.isInner (f id)) = true := by rwa [Option.isNone_map, renames.inner]
    rw [lower_of_inner valid inner, lower_of_inner (renames.valid_iff.2 valid) inner']
    exact .nothing visited
  have meets : p.Meets inLoop id := ⟨valid, by simpa using inner⟩
  by_cases header : p.loops.has id = true
  · have meets' := renames.meets_iff.2 meets
    have header' : p'.loops.has (f id) = true := by rw [renames.has_eq, header]
    have free_iff : (inLoop.map f ≠ some (f id) ∧ f id ∉ active.map f) ↔ inLoop ≠ some id ∧ id ∉ active := by
      rw [← Option.map_some, ne_eq, (Option.map_injective renames.injective).eq_iff,
        List.mem_map_of_injective renames.injective]
    by_cases free : inLoop ≠ some id ∧ id ∉ active
    · have := p.idle_cons_lt header free.2
      obtain ⟨b, found⟩ := FlowGraph.exists_block here
      obtain ⟨-, rfl⟩ := FlowGraph.block?_eq_some found
      rw [lower_of_header meets header free, lower_of_header meets' header' (free_iff.2 free)]
      exact renames.reflects_loop (fun visited => renames.reflects (b.id :: active) visited) here found header
    · rw [lower_of_busy meets header free, lower_of_busy meets' header' (mt free_iff.1 free)]
      exact .nothing visited
  · refine renames.reflects_plain here meets header (fun new => ?_) (fun new yes no => ?_)
    · have := p.unseen_cons_lt here new
      exact renames.reflects active (id :: visited)
    · have := p.unseen_cons_lt here new
      have := p.unseen_withBranches_le yes no (id :: visited)
      exact renames.reflects active (withBranches yes no (id :: visited))
termination_by (p.idle active, p.unseen visited)
decreasing_by
  · exact Prod.Lex.left _ _ ‹_›
  · exact Prod.Lex.right _ (by omega)
  · exact Prod.Lex.right _ (by omega)

end Plan

end Flowchart
