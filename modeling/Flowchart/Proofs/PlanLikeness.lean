import Flowchart.Proofs.Provenance
/-! What structuring looks at. Two plans that have the same blocks and arrows at every block that can be come
to, and loops with the same members, are structured alike: statements, notes and the blocks met are the same.
What else the plans hold, and in which order they hold it, is never looked at. -/
namespace Flowchart.Plan
variable {p p' : Plan} {active visited : List String} {inLoop : Option String} {id : String} {b : Block}

/-- Lists with the same members. -/
def SameMembers (xs ys : List String) : Prop :=
  ∀ x, x ∈ xs ↔ x ∈ ys

theorem SameMembers.contains_eq {xs ys : List String} (same : SameMembers xs ys) (x : String) :
    xs.contains x = ys.contains x := by
  rw [Bool.eq_iff_iff, List.contains_iff_mem, List.contains_iff_mem]
  exact same x

/-- The plans agree on the blocks of a set that the arrows do not lead out of: on the blocks themselves, on
the arrows that leave them, in order, and on the members of the loops. In neither plan has a loop with a test at
its header a single way in. -/
structure Alike (p p' : Plan) (live : String → Prop) : Prop where
  closed : ∀ id next, live id → next ∈ p.graph.successors id → live next
  block : ∀ id, live id → p.graph.block? id = p'.graph.block? id
  outgoing : ∀ id, live id → p.graph.outgoing id = p'.graph.outgoing id
  inner : ∀ id, live id → p.isInner id = p'.isInner id
  bodies : ∀ header, Option.Rel SameMembers (p.loops.body? header) (p'.loops.body? header)
  entered : ∀ b, p.loops.has b.id = true → p.graph.block? b.id = some b → b.content.isBranching = true →
    ∀ entry, p.graph.predecessors b.id ≠ [entry] ∧ p'.graph.predecessors b.id ≠ [entry]

/-- Every statement comes from a block of the set. -/
def Sourced (live : String → Prop) (stmts : List Code.Stmt) : Prop :=
  ∀ s ∈ stmts, ∃ id, live id ∧ s.origin.bind Code.Origin.id = some id

/-- Two results are the same, and their statements come from blocks of the set. -/
structure Twins (live : String → Prop) (x y : Lowered) : Prop where
  same : x = y
  sourced : Sourced live x.stmts

/-- Structuring the two plans gives the same result from every block of the set on. -/
def TwinsFrom (p p' : Plan) (live : String → Prop) (active visited : List String) : Prop :=
  ∀ inLoop id, live id → Twins live (p.lower active visited inLoop id) (p'.lower active visited inLoop id)

variable {live : String → Prop} {stmts more : List Code.Stmt}

namespace Sourced

theorem nil : Sourced live [] := by
  intro s member
  cases member

theorem append (first : Sourced live stmts) (second : Sourced live more) : Sourced live (stmts ++ more) := by
  intro s member
  rcases List.mem_append.1 member with before | after
  · exact first s before
  · exact second s after

/-- Statements with the origin of a block come from it. -/
theorem of_origin (here : live id) (all : ∀ s ∈ stmts, s.origin = p.origin id) : Sourced live stmts := by
  intro s member
  refine ⟨id, here, ?_⟩
  rw [all s member]
  rfl

theorem single {s : Code.Stmt} (here : live id) (is : s.origin = p.origin id) : Sourced live [s] :=
  .of_origin here fun _ member => List.mem_singleton.1 member ▸ is

theorem blockStmts (here : live b.id) : Sourced live (p.blockStmts b) :=
  .of_origin here fun _ own => (Makes.own own).origin

theorem ownStmts (here : live b.id) : Sourced live (p.ownStmts b) := by
  rcases p.ownStmts_cases b with ⟨type, -, is⟩ | is
  · rw [is]
    exact .single here rfl
  · rw [is]
    exact .blockStmts here

theorem marks (here : live b.id) : Sourced live (Code.test (p.origin b.id) b.content).1 :=
  .of_origin here fun _ mark => (Makes.mark mark).origin

/-- The last statement comes from a block of the set, and so does what stands in for it where there is none. -/
theorem lastId (sourced : Sourced live stmts) (here : live id) : ∃ last, lastId stmts id = some last ∧ live last := by
  unfold Plan.lastId
  cases final : stmts.getLast? with
  | none => exact ⟨id, rfl, here⟩
  | some s =>
    obtain ⟨last, inside, is⟩ := sourced s (List.mem_of_getLast? final)
    obtain ⟨o, origin, is⟩ := Option.bind_eq_some_iff.1 is
    simp only [origin]
    exact ⟨last, is, inside⟩

end Sourced

namespace Twins
variable {x y : Lowered}

theorem nothing (visited : List String) : Twins live (.nothing visited) (.nothing visited) :=
  ⟨rfl, .nil⟩

theorem after (twins : Twins live x y) (sourced : Sourced live stmts) (notes : List Note) :
    Twins live (x.after stmts notes) (y.after stmts notes) := by
  obtain ⟨rfl, rest⟩ := twins
  exact ⟨rfl, sourced.append rest⟩

end Twins

theorem twins_each (goes : ∀ visited, TwinsFrom p p' live active visited) {ids : List String}
    (leads : ∀ id ∈ ids, live id) (visited : List String) (inLoop : Option String) :
    Twins live (p.lowerEach active visited inLoop ids) (p'.lowerEach active visited inLoop ids) := by
  induction ids generalizing visited with
  | nil =>
    rw [lowerEach, lowerEach]
    exact .nothing visited
  | cons id rest ih =>
    have first := goes visited inLoop id (leads id List.mem_cons_self)
    have later := ih (fun next member => leads next (List.mem_cons_of_mem _ member))
    rw [lowerEach, lowerEach, ← first.same]
    exact (later _).after first.sourced _

theorem has_eq_isSome (ls : Loops) (id : String) : ls.has id = (ls.body? id).isSome := by
  rw [Loops.has, Loops.body?, Option.isSome_map, Bool.eq_iff_iff, List.find?_isSome, List.any_eq_true]

/-! What the plans agree on at the blocks of the set. -/

namespace Alike
variable (alike : p.Alike p' live)
include alike

theorem has_eq (id : String) : p.loops.has id = p'.loops.has id := by
  have same := alike.bodies id
  rw [has_eq_isSome, has_eq_isSome]
  generalize p.loops.body? id = body, p'.loops.body? id = body' at same ⊢
  cases same <;> rfl

theorem loopBody (inLoop : Option String) :
    Option.Rel SameMembers (p.loopBody inLoop) (p'.loopBody inLoop) := by
  unfold Plan.loopBody
  cases inLoop.filter (· ≠ "") with
  | none => exact .none
  | some header => exact alike.bodies header

section Block
variable (here : live id)
include here

theorem valid_iff : (id ≠ "" ∧ id ∈ p.graph.ids) ↔ id ≠ "" ∧ id ∈ p'.graph.ids := by
  have listed (g : FlowGraph) : id ∈ g.ids ↔ (g.block? id).isSome = true := by
    rw [Option.isSome_iff_exists]
    exact ⟨FlowGraph.exists_block, fun ⟨b, found⟩ =>
      (FlowGraph.block?_eq_some found).2 ▸ List.mem_map_of_mem (FlowGraph.block?_eq_some found).1⟩
  rw [listed, listed, alike.block id here]

theorem meets_iff : p.Meets inLoop id ↔ p'.Meets inLoop id := by
  have valid := alike.valid_iff here
  have inner := alike.inner id here
  constructor
  · rintro ⟨there, outer⟩
    exact ⟨valid.1 there, inner ▸ outer⟩
  · rintro ⟨there, outer⟩
    exact ⟨valid.2 there, inner ▸ outer⟩

theorem successors_eq : p.graph.successors id = p'.graph.successors id :=
  congrArg (List.map Arrow.target) (alike.outgoing id here)

theorem branch?_eq (label : String) : p.graph.branch? id label = p'.graph.branch? id label := by
  rw [FlowGraph.branch?, FlowGraph.branch?, alike.outgoing id here]

theorem origin_eq : p.origin id = p'.origin id := by
  rw [origin, origin, Code.originOf, Code.originOf, FlowGraph.label, FlowGraph.label, alike.block id here]

theorem stmtsAt_eq : p.stmtsAt id = p'.stmtsAt id := by
  rw [stmtsAt, stmtsAt, ← alike.block id here]
  cases found : p.graph.block? id with
  | none => rfl
  | some b =>
    obtain ⟨-, rfl⟩ := FlowGraph.block?_eq_some found
    simp only [Option.map_some, Option.getD_some, blockStmts, alike.origin_eq here]

theorem notesAt_eq : p.notesAt id = p'.notesAt id := by
  rw [notesAt, notesAt, alike.block id here]

theorem isStraight_eq : p.isStraight id = p'.isStraight id := by
  rw [isStraight, isStraight, alike.has_eq, alike.block id here]

theorem behind {label : String} {e : Arrow} (is : p.graph.branch? id label = some e) : live e.target :=
  alike.closed id _ here (FlowGraph.target_mem_successors (FlowGraph.branch?_eq_some is).1)

theorem leaves_eq {body body' : List String} (same : SameMembers body body') :
    p.leaves body (some id) = p'.leaves body' (some id) := by
  simp only [leaves, alike.successors_eq here, same.contains_eq]

end Block

theorem ownStmts_eq (here : live b.id) : p.ownStmts b = p'.ownStmts b := by
  rw [ownStmts, ownStmts, alike.origin_eq here]

theorem next?_eq (here : live b.id) (choice : Option Bool) :
    Run.next? p.graph b choice = Run.next? p'.graph b choice := by
  simp only [Run.next?, alike.branch?_eq here, alike.successors_eq here]

theorem merge?_eq {yes no : Option Arrow} {body body' : Option (List String)}
    (yesHere : ∀ e, yes = some e → live e.target) (noHere : ∀ e, no = some e → live e.target)
    (same : Option.Rel SameMembers body body') : p.merge? yes no body = p'.merge? yes no body' := by
  have within (next : String) : body.all (·.contains next) = body'.all (·.contains next) := by
    cases same with
    | none => rfl
    | some same => exact same.contains_eq next
  cases yes with
  | none => rfl
  | some yes =>
    cases no with
    | none => rfl
    | some no =>
      have yesHere := yesHere yes rfl
      have noHere := noHere no rfl
      simp only [merge?, alike.isStraight_eq yesHere, alike.isStraight_eq noHere, alike.successors_eq yesHere,
        alike.successors_eq noHere, within]

/-! The two runs side by side, case by case. -/

theorem twins_branch (inLoop : Option String) (goes : TwinsFrom p p' live active visited) (here : live id)
    {arrow : Option Arrow} (leads : ∀ e, arrow = some e → live e.target) {body body' : Option (List String)}
    (same : Option.Rel SameMembers body body') :
    Twins live (p.lowerBranch active visited inLoop body id arrow)
      (p'.lowerBranch active visited inLoop body' id arrow) := by
  cases arrow with
  | none =>
    rw [lowerBranch, lowerBranch]
    exact .nothing visited
  | some e =>
    have there := leads e rfl
    cases inLoop with
    | none =>
      rw [lowerBranch, lowerBranch]
      · exact goes none e.target there
      · simp
      · simp
    | some header =>
      cases same with
      | none =>
        rw [lowerBranch, lowerBranch]
        · exact goes (some header) e.target there
        · simp
        · simp
      | @some body body' same =>
        have out := goes none e.target there
        have leave : Sourced live [.leave (p.origin id)] := .single here rfl
        obtain ⟨last, lastIs, lastHere⟩ := out.sourced.lastId there
        rw [lowerBranch, lowerBranch, same.contains_eq, ← alike.block _ there, ← out.same]
        dsimp only
        rw [lastIs, alike.leaves_eq lastHere same, ← alike.origin_eq here]
        split
        · split
          · exact .nothing visited
          · exact goes (some header) e.target there
        · split
          · exact ⟨rfl, leave⟩
          · split
            · exact ⟨rfl, out.sourced.append leave⟩
            · exact ⟨rfl, out.sourced⟩

theorem twins_loop (goes : ∀ visited, TwinsFrom p p' live active visited) (here : live b.id)
    (found : p.graph.block? b.id = some b) (header : p.loops.has b.id = true) :
    Twins live (p.lowerLoop active visited inLoop b.id) (p'.lowerLoop active visited inLoop b.id) := by
  have member (t : String) : ((p.loops.body? b.id).getD []).contains t =
      ((p'.loops.body? b.id).getD []).contains t := by
    have same := alike.bodies b.id
    generalize p.loops.body? b.id = body, p'.loops.body? b.id = body' at same ⊢
    cases same with
    | none => rfl
    | some same => exact same.contains_eq t
  have each (arrows : List Arrow) (out : ∀ e ∈ arrows, e ∈ p.graph.outgoing b.id) (keep : String → Bool) :
      ∀ visited inLoop, Twins live
        (p.lowerEach active visited inLoop ((arrows.map Arrow.target).filter keep))
        (p'.lowerEach active visited inLoop ((arrows.map Arrow.target).filter keep)) := by
    refine twins_each goes fun t listed => ?_
    obtain ⟨e, taken, rfl⟩ := List.mem_map.1 (List.mem_filter.1 listed).1
    exact alike.closed _ _ here (FlowGraph.target_mem_successors (out e taken))
  have labelled (label : String) := each ((p.graph.outgoing b.id).filter (·.label == some label))
    fun e taken => (List.mem_filter.1 taken).1
  have all := each (p.graph.outgoing b.id) fun e taken => taken
  have loop (test : Code.Expr) (body : List Code.Stmt) : Sourced live [.loop (p.origin b.id) test body] :=
    .single here rfl
  have marks : Sourced live (Code.test (p.origin b.id) b.content).1 := .marks here
  rw [lowerLoop, lowerLoop, ← alike.block _ here, found, ← alike.origin_eq here, ← alike.outgoing _ here]
  cases content : b.content with
  | conditional e =>
    have entered := alike.entered b header found (by rw [content]; rfl)
    have several (entry : String) : p.graph.predecessors b.id ≠ [entry] := (entered entry).1
    have several' (entry : String) : p'.graph.predecessors b.id ≠ [entry] := (entered entry).2
    rw [content] at marks
    -- A header that is entered more than once gets the shape that its arrows ask for, whatever enters it.
    simp only [content, member]
    split
    · rw [← (labelled "yes" _ [] (some b.id)).same]
      exact (labelled "no" _ visited inLoop).after (marks.append (loop _ _)) _
    · rw [← (labelled "no" _ [] (some b.id)).same]
      exact (labelled "yes" _ visited inLoop).after (marks.append (loop _ _)) _
    · rw [← (labelled "yes" _ [] (some b.id)).same, ← (labelled "no" _ [] (some b.id)).same]
      exact ⟨rfl, marks.append (loop _ _)⟩
    · rw [← (all _ [] (some b.id)).same]
      exact ⟨rfl, loop _ _⟩
  | _ =>
    simp only [content, member]
    rw [← (all _ [] (some b.id)).same]
    exact ⟨rfl, loop _ _⟩

/-- A block that is no header: it is met again, goes straight on, or branches. -/
theorem twins_plain (here : live id) (meets : p.Meets inLoop id) (plain : ¬p.loops.has id = true)
    (goes : id ∉ visited → TwinsFrom p p' live active (id :: visited))
    (merged : id ∉ visited → ∀ yes no, TwinsFrom p p' live active (withBranches yes no (id :: visited))) :
    Twins live (p.lower active visited inLoop id) (p'.lower active visited inLoop id) := by
  have meets' := (alike.meets_iff here).1 meets
  have plain' : ¬p'.loops.has id = true := alike.has_eq id ▸ plain
  by_cases old : id ∈ visited
  · rw [lower_of_met meets plain old, lower_of_met meets' plain' old]
    exact .nothing visited
  obtain ⟨b, found⟩ := FlowGraph.exists_block meets.valid.2
  obtain ⟨-, rfl⟩ := FlowGraph.block?_eq_some found
  have found' : p'.graph.block? b.id = some b := alike.block b.id here ▸ found
  have marks : Sourced live (Code.test (p.origin b.id) b.content).1 := .marks here
  cases branching : b.content.isBranching with
  | false =>
    rw [lower_of_straight meets plain old found rfl branching,
      lower_of_straight meets' plain' old found' rfl branching, ← alike.next?_eq here, ← alike.ownStmts_eq here]
    refine Twins.after ?_ (.ownStmts here) _
    cases follows : Run.next? p.graph b none with
    | none => exact .nothing _
    | some next =>
      exact goes old inLoop next (alike.closed _ _ here (FlowGraph.mem_successors_of_next? follows))
  | true =>
    have behind (label : String) (e : Arrow) (is : p.graph.branch? b.id label = some e) : live e.target :=
      alike.behind here is
    have same := alike.merge?_eq (behind "yes") (behind "no") (alike.loopBody inLoop)
    cases merges : p.merge? (p.graph.branch? b.id "yes") (p.graph.branch? b.id "no") (p.loopBody inLoop) with
    | none =>
      have parts := same.symm.trans merges
      rw [alike.branch?_eq here, alike.branch?_eq here] at parts
      have thenPart := alike.twins_branch inLoop (goes old) here (behind "yes") (alike.loopBody inLoop)
      have elsePart := alike.twins_branch inLoop (goes old) here (behind "no") (alike.loopBody inLoop)
      rw [lower_of_parting meets plain old found branching merges,
        lower_of_parting meets' plain' old found' branching parts, ← alike.branch?_eq here,
        ← alike.branch?_eq here, ← alike.origin_eq here, ← thenPart.same, ← elsePart.same]
      exact ⟨rfl, marks.append (.single here rfl)⟩
    | some meeting =>
      cases yesIs : p.graph.branch? b.id "yes" with
      | none => simp [yesIs, merge?] at merges
      | some yes =>
        cases noIs : p.graph.branch? b.id "no" with
        | none => simp [yesIs, noIs, merge?] at merges
        | some no =>
          have yesHere := behind "yes" yes yesIs
          rw [yesIs, noIs] at merges same
          have there : live meeting :=
            alike.closed _ _ yesHere (List.mem_of_mem_head? (merge?_eq_some merges).1.2)
          rw [lower_of_merge meets plain old found branching yesIs noIs merges,
            lower_of_merge meets' plain' old found' branching (alike.branch?_eq here _ ▸ yesIs)
              (alike.branch?_eq here _ ▸ noIs) (same.symm.trans merges), ← alike.origin_eq here,
            ← alike.stmtsAt_eq yesHere, ← alike.stmtsAt_eq (behind "no" no noIs), ← alike.notesAt_eq yesHere,
            ← alike.notesAt_eq (behind "no" no noIs)]
          refine Twins.after ?_ (marks.append (.single here rfl)) _
          split
          · exact .nothing _
          · exact merged old yes.target no.target inLoop meeting there

end Alike

/-- Structuring gives the same result for plans that agree. -/
theorem Alike.twins (alike : p.Alike p' live) (active visited : List String) : TwinsFrom p p' live active visited := by
  intro inLoop id here
  by_cases valid : id ≠ "" ∧ id ∈ p.graph.ids
  swap
  · rw [lower_of_absent valid, lower_of_absent (mt (alike.valid_iff here).2 valid)]
    exact ⟨rfl, fun s member => ⟨id, here, by rw [List.mem_singleton.1 member]; rfl⟩⟩
  by_cases inner : (inLoop.isNone && p.isInner id) = true
  · rw [lower_of_inner valid inner,
      lower_of_inner ((alike.valid_iff here).1 valid) (alike.inner id here ▸ inner)]
    exact .nothing visited
  have meets : p.Meets inLoop id := ⟨valid, by simpa using inner⟩
  by_cases header : p.loops.has id = true
  · have meets' := (alike.meets_iff here).1 meets
    have header' : p'.loops.has id = true := alike.has_eq id ▸ header
    by_cases free : inLoop ≠ some id ∧ id ∉ active
    · have := p.idle_cons_lt header free.2
      obtain ⟨b, found⟩ := FlowGraph.exists_block valid.2
      obtain ⟨-, rfl⟩ := FlowGraph.block?_eq_some found
      rw [lower_of_header meets header free, lower_of_header meets' header' free]
      exact alike.twins_loop (fun visited => alike.twins (b.id :: active) visited) here found header
    · rw [lower_of_busy meets header free, lower_of_busy meets' header' free]
      exact .nothing visited
  · refine alike.twins_plain here meets header (fun new => ?_) (fun new yes no => ?_)
    · have := p.unseen_cons_lt valid.2 new
      exact alike.twins active (id :: visited)
    · have := p.unseen_cons_lt valid.2 new
      have := p.unseen_withBranches_le yes no (id :: visited)
      exact alike.twins active (withBranches yes no (id :: visited))
termination_by (p.idle active, p.unseen visited)
decreasing_by
  · exact Prod.Lex.left _ _ ‹_›
  · exact Prod.Lex.right _ (by omega)
  · exact Prod.Lex.right _ (by omega)

end Flowchart.Plan
