import Flowchart.Proofs.Calls
import Flowchart.Proofs.LoopForest
/-! How loops are entered. The calls that structuring makes from the start of a graph are about reachable blocks,
and the loops it follows are loops of the graph. The header of such a loop is entered from outside and from
inside, so a loop with a single way in never comes up, and the warning about it is never given. -/
namespace Flowchart

namespace FlowGraph
variable {g : FlowGraph} {l : Loop}

/-- A header other than the start is entered by two arrows. -/
theorem two_le_predecessors (member : l ∈ g.loops (.ofGraph g)) (later : g.start? ≠ some l.header) :
    2 ≤ (g.predecessors l.header).length := by
  have several := predecessors_ne_singleton member later
  obtain ⟨entry, before, -⟩ := exists_entry member later
  generalize g.predecessors l.header = entries at several before
  cases entries with
  | nil => cases before
  | cons first rest =>
    cases rest with
    | nil => exact absurd rfl (several first)
    | cons second rest => simp

end FlowGraph

namespace Plan
variable {p : Plan} {active visited : List String} {inLoop : Option String} {header : String}

/-- The loops being followed are loops of the plan, and the one that a call is made in is among them. -/
structure Around (p : Plan) (active : List String) (inLoop : Option String) : Prop where
  headers : ∀ h ∈ active, h ≠ "" ∧ p.loops.has h = true
  followed : ∀ h, inLoop = some h → h ∈ active

/-- What holds of the calls made from the start on. -/
def Call.Fits (p : Plan) : Call → Prop
  | .block active _ inLoop next => p.Around active inLoop ∧ ∀ id, next = some id → p.graph.Reachable id
  | .arrow active _ inLoop id taken =>
    p.Around active inLoop ∧ p.graph.Reachable id ∧ ∀ e, taken = some e → e ∈ p.graph.outgoing id
  | .each active _ inLoop ids => p.Around active inLoop ∧ ∀ id ∈ ids, p.graph.Reachable id
  | .loop active _ inLoop header =>
    p.Around active inLoop ∧ p.graph.Reachable header ∧ p.loops.has header = true ∧ header ∈ active

theorem Around.enter (around : p.Around active inLoop) (named : header ≠ "") (has : p.loops.has header = true) :
    p.Around (header :: active) inLoop :=
  ⟨List.forall_mem_cons.2 ⟨⟨named, has⟩, around.headers⟩,
    fun h is => List.mem_cons_of_mem _ (around.followed h is)⟩

/-- Within the loop of a header that is being followed. -/
theorem Around.within (around : p.Around active inLoop) (followed : header ∈ active) :
    p.Around active (some header) := by
  refine ⟨around.headers, fun h is => ?_⟩
  cases is
  exact followed

theorem Around.leave (around : p.Around active inLoop) : p.Around active none :=
  ⟨around.headers, by simp⟩

/-- Arrows of a block lead to its successors. -/
theorem targets_subset {id : String} {arrows : List Arrow} {keep : String → Bool}
    (out : ∀ e ∈ arrows, e ∈ p.graph.outgoing id) :
    (arrows.map Arrow.target).filter keep ⊆ p.graph.successors id := by
  intro t member
  obtain ⟨e, listed, rfl⟩ := List.mem_map.1 (List.mem_of_mem_filter member)
  exact FlowGraph.target_mem_successors (out e listed)

theorem outgoing_of_answering {id : String} {yes : Bool} :
    ∀ e ∈ p.answering id yes, e ∈ p.graph.outgoing id :=
  fun _ => List.mem_of_mem_filter

/-- A call that fits makes only calls that fit. -/
theorem Settles.fits {depth : Nat} {call : Call} {r : Lowered} {calls : List Call}
    (settles : p.Settles depth call r calls) : call.Fits p → ∀ c ∈ calls, c.Fits p := by
  induction settles with
  | nothing | absent | deferred | again | met | noArrow | back | finish | done | headless | sole =>
    exact fun fits => List.forall_mem_singleton.2 fits
  | enter meets header _ _ ih =>
    intro fits
    have live := fits.2 _ rfl
    have around := fits.1.enter meets.valid.1 header
    exact List.forall_mem_cons.2 ⟨fits, ih ⟨around, live, header, List.mem_cons_self⟩⟩
  | straight _ _ _ _ _ _ ih =>
    intro fits
    have live := fits.2 _ rfl
    refine List.forall_mem_cons.2 ⟨fits, ih ⟨fits.1, fun next goes => ?_⟩⟩
    exact live.next (FlowGraph.mem_successors_of_next? goes)
  | merge _ _ _ _ _ yesIs _ merges goes _ ih =>
    intro fits
    have live := fits.2 _ rfl
    refine List.forall_mem_cons.2 ⟨fits, ih ⟨fits.1, fun id is => ?_⟩⟩
    have step := FlowGraph.target_mem_successors (FlowGraph.branch?_eq_some yesIs).1
    have onward := List.mem_of_mem_head? (merge?_eq_some merges).1.2
    obtain ⟨-, is⟩ := Option.ite_none_left_eq_some.1 (goes.symm.trans is)
    cases is
    exact (live.next step).next onward
  | parting _ _ _ _ _ _ _ _ ihYes ihNo =>
    intro fits
    have live := fits.2 _ rfl
    refine List.forall_mem_cons.2 ⟨fits, List.forall_mem_append.2 ⟨ihYes ?_, ihNo ?_⟩⟩
    · exact ⟨fits.1, live, fun e is => (FlowGraph.branch?_eq_some is).1⟩
    · exact ⟨fits.1, live, fun e is => (FlowGraph.branch?_eq_some is).1⟩
  | onward _ _ ih =>
    intro fits
    refine List.forall_mem_cons.2 ⟨fits, ih ⟨fits.1, fun id is => ?_⟩⟩
    cases is
    exact fits.2.1.next (FlowGraph.target_mem_successors (fits.2.2 _ rfl))
  | exit _ _ _ _ ih =>
    intro fits
    refine List.forall_mem_cons.2 ⟨fits, ih ⟨fits.1.leave, fun id is => ?_⟩⟩
    cases is
    exact fits.2.1.next (FlowGraph.target_mem_successors (fits.2.2 _ rfl))
  | next _ _ ihFirst ihRest =>
    intro fits
    obtain ⟨live, later⟩ := List.forall_mem_cons.1 fits.2
    refine List.forall_mem_cons.2 ⟨fits, List.forall_mem_append.2
      ⟨ihFirst ⟨fits.1, ?_⟩, ihRest ⟨fits.1, later⟩⟩⟩
    intro id is
    cases is
    exact live
  | forever _ _ _ ih =>
    intro fits
    refine List.forall_mem_cons.2 ⟨fits, ih ⟨fits.1.within fits.2.2.2, ?_⟩⟩
    exact fun t inside => fits.2.1.next (targets_subset (fun _ => id) inside)
  | unanswered _ _ _ _ _ ih =>
    intro fits
    refine List.forall_mem_cons.2 ⟨fits, ih ⟨fits.1.within fits.2.2.2, ?_⟩⟩
    exact fun t inside => fits.2.1.next (targets_subset (fun _ => id) inside)
  | turning _ _ _ _ _ _ _ _ ih ihAfter =>
    intro fits
    refine List.forall_mem_cons.2 ⟨fits, List.forall_mem_append.2
      ⟨ih ⟨fits.1.within fits.2.2.2, ?_⟩, ihAfter ⟨fits.1, ?_⟩⟩⟩
    · exact fun t member => fits.2.1.next (targets_subset outgoing_of_answering member)
    · exact fun t member => fits.2.1.next (targets_subset outgoing_of_answering member)
  | choosing _ _ _ _ _ _ ihYes ihNo =>
    intro fits
    refine List.forall_mem_cons.2 ⟨fits, List.forall_mem_append.2
      ⟨ihYes ⟨fits.1.within fits.2.2.2, ?_⟩, ihNo ⟨fits.1.within fits.2.2.2, ?_⟩⟩⟩
    · exact fun t member => fits.2.1.next (targets_subset outgoing_of_answering member)
    · exact fun t member => fits.2.1.next (targets_subset outgoing_of_answering member)

end Plan

/-! The notes of structuring. Those on the code of blocks come from the parser, which leaves the warning about a
loop with a single way in to the calls for such loops. -/

/-- Notes of the parser. -/
def FromParser (notes : List Note) : Prop :=
  ∀ n ∈ notes, n.source = "parser"

namespace FromParser
variable {notes more : List Note}

theorem nil : FromParser [] := by
  intro n member
  cases member

theorem append (first : FromParser notes) (second : FromParser more) : FromParser (notes ++ more) :=
  List.forall_mem_append.2 ⟨first, second⟩

theorem ite {c : Bool} (first : FromParser notes) : FromParser (if c then notes else []) := by
  split
  · exact first
  · exact nil

theorem reading (es : List Element) : FromParser (readingNote es) := by
  unfold readingNote
  cases Term.parse es with
  | error => exact nil
  | ok t => exact List.forall_mem_singleton.2 rfl

mutual
theorem token (e : Element) : FromParser e.tokenNotes := by
  cases e with
  | function _ _ argument =>
    rw [Element.tokenNotes]
    exact expression argument
  | _ => exact nil
theorem tokens (es : List Element) : FromParser (Element.tokensNotes es) := by
  cases es with
  | nil => exact nil
  | cons e rest =>
    rw [Element.tokensNotes]
    exact (token e).append (tokens rest).ite
theorem expression (e : Expression) : FromParser e.parseNotes := by
  cases e with
  | value right | assignment _ right | condition _ _ right | halfCondition _ right =>
    rw [Expression.parseNotes]
    exact (tokens right).append (reading right)
end

theorem parse (es : List Element) : FromParser (Term.parseNotes es) :=
  (tokens es).append (reading es)

theorem term (t : Term) : FromParser (Code.termNotes t) := by
  fun_induction Code.termNotes t with
  | case1 _ v _ ih =>
    refine (parse v.index).append ?_
    split
    · exact nil
    · next index read => exact ih index read
  | case3 _ _ _ ihName ih | case6 _ _ _ ihName ih => exact ihName.append ih.ite
  | case4 _ _ ih | case5 _ _ ih => exact ih
  | case2 | case7 => exact nil

theorem elements (es : List Element) : FromParser (Code.elementsNotes es) := by
  unfold Code.elementsNotes
  split
  · exact nil
  · refine (parse es).append ?_
    cases Term.parse es with
    | error => exact nil
    | ok t => exact term t

theorem target (v : Variable) : FromParser (Code.targetNotes v) :=
  (elements v.index).ite

theorem block (content : Content) : FromParser (Code.blockNotes content) := by
  unfold Code.blockNotes
  split
  · exact (target _).append (elements _).ite
  · exact target _
  · exact elements _
  · exact nil

theorem test (content : Content) : FromParser (Code.testNotes content) :=
  elements (Code.testElements content)

theorem notesAt (p : Plan) (id : String) : FromParser (p.notesAt id) := by
  unfold Plan.notesAt
  cases p.graph.block? id with
  | none => exact nil
  | some b => exact block b.content

end FromParser

namespace Plan
variable {p : Plan} {calls more : List Call} {notes : List Note} {n : Note}

/-- A call for a loop with a test at its header and a single way in, and the warning about it. -/
def Call.Warns (p : Plan) (n : Note) : Call → Prop
  | .loop _ _ _ header => ∃ b ∈ p.graph.blocks, b.id = header ∧ b.content.isBranching = true ∧
    ∃ entry, p.graph.predecessors header = [entry] ∧ n = .soleEntry header entry
  | _ => False

/-- A note of the parser, or the warning of one of the calls. -/
def Told (p : Plan) (calls : List Call) (n : Note) : Prop :=
  n.source = "parser" ∨ ∃ call ∈ calls, call.Warns p n

theorem Told.mono (told : p.Told calls n) (part : calls ⊆ more) : p.Told more n := by
  rcases told with own | ⟨call, made, warns⟩
  · exact .inl own
  · exact .inr ⟨call, part made, warns⟩

theorem told_of_own (parser : FromParser notes) : ∀ n ∈ notes, p.Told calls n :=
  fun n member => .inl (parser n member)

theorem told_mono (told : ∀ n ∈ notes, p.Told calls n) (part : calls ⊆ more) : ∀ n ∈ notes, p.Told more n :=
  fun n member => (told n member).mono part

/-- All notes of structuring are accounted for by the calls made. -/
theorem Settles.told {depth : Nat} {call : Call} {r : Lowered} {calls : List Call}
    (settles : p.Settles depth call r calls) : ∀ n ∈ r.notes, p.Told calls n := by
  induction settles with
  | nothing | absent | deferred | again | met | noArrow | back | finish | done | headless => simp [Lowered.nothing]
  | enter _ _ _ _ ih | onward _ _ ih | exit _ _ _ _ ih => exact told_mono ih (List.subset_cons_self _ _)
  | straight _ _ _ _ _ _ ih =>
    exact List.forall_mem_append.2 ⟨told_of_own (.block _), told_mono ih (List.subset_cons_self _ _)⟩
  | merge _ _ _ _ _ _ _ _ _ _ ih =>
    refine List.forall_mem_append.2 ⟨told_of_own ?_, told_mono ih (List.subset_cons_self _ _)⟩
    exact ((FromParser.test _).append (.notesAt p _)).append (.notesAt p _)
  | parting _ _ _ _ _ _ _ _ ihYes ihNo =>
    refine List.forall_mem_append.2 ⟨List.forall_mem_append.2 ⟨told_of_own (.test _), ?_⟩, ?_⟩
    · exact told_mono ihYes (subset_calls_left _ _ _)
    · exact told_mono ihNo (subset_calls_right _ _ _)
  | next _ _ ihFirst ihRest =>
    refine List.forall_mem_append.2 ⟨?_, ?_⟩
    · exact told_mono ihFirst (subset_calls_left _ _ _)
    · exact told_mono ihRest (subset_calls_right _ _ _)
  | forever _ _ _ ih =>
    exact List.forall_mem_append.2 ⟨told_of_own (.block _), told_mono ih (List.subset_cons_self _ _)⟩
  | unanswered _ _ _ _ _ ih =>
    exact List.forall_mem_append.2 ⟨told_of_own (.test _), told_mono ih (List.subset_cons_self _ _)⟩
  | @sole _ _ _ _ b entry listed branching only =>
    refine List.forall_mem_append.2 ⟨List.forall_mem_append.2 ⟨told_of_own (.test _), ?_⟩,
      told_of_own (.notesAt p _)⟩
    intro n warning
    split at warning
    · cases List.mem_singleton.1 warning
      exact .inr ⟨_, List.mem_cons_self, b, listed, rfl, branching, entry, only, rfl⟩
    · cases warning
  | turning _ _ _ _ _ _ _ _ ih ihAfter =>
    refine List.forall_mem_append.2 ⟨List.forall_mem_append.2 ⟨told_of_own (.test _), ?_⟩, ?_⟩
    · exact told_mono ih (subset_calls_left _ _ _)
    · exact told_mono ihAfter (subset_calls_right _ _ _)
  | choosing _ _ _ _ _ _ ihYes ihNo =>
    refine List.forall_mem_append.2 ⟨List.forall_mem_append.2 ⟨told_of_own (.test _), ?_⟩, ?_⟩
    · exact told_mono ihYes (subset_calls_left _ _ _)
    · exact told_mono ihNo (subset_calls_right _ _ _)

end Plan

namespace FlowGraph
variable {g : FlowGraph} {start : String} {depth : Nat} {r : Lowered} {calls : List Plan.Call}

theorem fits_start (first : g.start? = some start) : Plan.Call.Fits g.plan (.block [] [] none (some start)) := by
  refine ⟨⟨by simp, by simp⟩, fun id is => ?_⟩
  cases is
  exact .of_start first

/-- From the start on, no call is made for a loop with a test at its header and a single way in: the start has no
test, and every other header is entered twice. -/
theorem two_le_predecessors_of_call (first : g.start? = some start)
    (settles : g.plan.Settles depth (.block [] [] none (some start)) r calls) {active visited : List String}
    {inLoop : Option String} {b : Block} (listed : b ∈ g.blocks) (branching : b.content.isBranching = true)
    (made : .loop active visited inLoop b.id ∈ calls) : 2 ≤ (g.predecessors b.id).length := by
  obtain ⟨-, -, has, -⟩ := settles.fits (fits_start first) _ made
  obtain ⟨l, member, header⟩ := has_plan.1 has
  rw [← header]
  refine two_le_predecessors member fun same => ?_
  rw [header] at same
  have straight := straight_of_start same (block?_of_mem listed)
  rw [branching] at straight
  cases straight

/-- So the warning about such a loop is not given. -/
theorem soleEntry_not_mem_notes (first : g.start? = some start)
    (settles : g.plan.Settles depth (.block [] [] none (some start)) r calls) (header entry : String) :
    .soleEntry header entry ∉ r.notes := by
  intro noted
  rcases settles.told _ noted with own | ⟨call, made, warns⟩
  · simp [Note.source] at own
  · cases call with
    | loop active visited inLoop header =>
      obtain ⟨b, listed, rfl, branching, entry, only, -⟩ := warns
      have twice := two_le_predecessors_of_call first settles listed branching made
      have only : g.predecessors b.id = [entry] := only
      simp [only] at twice
    | _ => exact warns

theorem soleEntry_not_mem_compile (g : FlowGraph) (header entry : String) :
    .soleEntry header entry ∉ g.compile.notes := by
  cases first : g.start? with
  | none => simp [compile, first, Compiled.marker]
  | some start =>
    obtain ⟨calls, settles⟩ := g.plan.ends (.block [] [] none (some start)) 0
    have silent : .soleEntry header entry ∉ (g.plan.lower [] [] none start).notes :=
      soleEntry_not_mem_notes first settles header entry
    have notes : g.compile.notes = Dominators.notes g ++ loopNotes g.plan.loops ++
        .structuring start g.blocks.length g.plan.loops.length :: (g.plan.lower [] [] none start).notes := by
      rw [compile, first]
      dsimp only
      split <;> rfl
    rw [notes]
    simp [Dominators.notes, first, loopNotes, silent]

theorem soleEntry_not_mem_buildNotes (blocks : List Block) (arrows : List Arrow) (header entry : String) :
    .soleEntry header entry ∉ buildNotes blocks arrows := by
  have starts : .soleEntry header entry ∉ (build blocks arrows).startNotes := by
    unfold startNotes
    split <;> simp
  simp [buildNotes, blockNotes, arrowNotes, starts]

end FlowGraph

namespace Diagram

/-- Every header other than the start is entered from a reachable block outside of its loop and from a block of
the loop, so by two arrows at least. Structuring a diagram therefore never takes a loop for one with its test at
the bottom, and never gives the warning that goes with it. -/
theorem headers_entered_twice (d : Diagram) :
    (∀ l ∈ d.flowGraph.loops (.ofGraph d.flowGraph), d.flowGraph.start? ≠ some l.header →
      (∃ e ∈ d.flowGraph.incoming l.header, d.flowGraph.Reachable e.source ∧ e.source ∉ l.body) ∧
      (∃ e ∈ d.flowGraph.incoming l.header, e.source ∈ l.body) ∧
      2 ≤ (d.flowGraph.predecessors l.header).length) ∧
    (∀ start depth r calls, d.flowGraph.start? = some start →
      d.flowGraph.plan.Settles depth (.block [] [] none (some start)) r calls →
      ∀ active visited inLoop, ∀ b ∈ d.flowGraph.blocks, .loop active visited inLoop b.id ∈ calls →
        b.content.isBranching = true → 2 ≤ (d.flowGraph.predecessors b.id).length) ∧
    ∀ header entry, .soleEntry header entry ∉ d.compile.notes := by
  refine ⟨fun l member later => ?_, ?_, fun header entry => ?_⟩
  · obtain ⟨entry, before, live, outside⟩ := FlowGraph.exists_entry member later
    obtain ⟨e, into, rfl⟩ := List.mem_map.1 before
    obtain ⟨back, closes, header, inside⟩ := FlowGraph.exists_back member
    have around : back ∈ d.flowGraph.incoming l.header := FlowGraph.mem_incoming.2 ⟨closes.1, header⟩
    exact ⟨⟨e, into, live, outside⟩, ⟨back, around, inside⟩, FlowGraph.two_le_predecessors member later⟩
  · intro start depth r calls first settles active visited inLoop b listed made branching
    exact FlowGraph.two_le_predecessors_of_call first settles listed branching made
  · rw [compile]
    split
    · simp [Compiled.empty, Compiled.marker]
    · rw [List.mem_append]
      rintro (built | compiled)
      · exact FlowGraph.soleEntry_not_mem_buildNotes _ _ _ _ built
      · exact d.flowGraph.soleEntry_not_mem_compile _ _ compiled

/-- The inner one of two loops, whose header is entered from the outer one and from itself. -/
theorem headers_entered_twice_nesting :
    ⟨"q", ["q"]⟩ ∈ nesting.flowGraph.loops (.ofGraph nesting.flowGraph) ∧
    (∃ e ∈ nesting.flowGraph.incoming "q", nesting.flowGraph.Reachable e.source ∧ e.source ∉ ["q"]) ∧
    (∃ e ∈ nesting.flowGraph.incoming "q", e.source ∈ ["q"]) ∧
    2 ≤ (nesting.flowGraph.predecessors "q").length := by
  have inner : ⟨"q", ["q"]⟩ ∈ nesting.flowGraph.loops (.ofGraph nesting.flowGraph) := by
    simp [loops_nesting]
  exact ⟨inner, (headers_entered_twice nesting).1 _ inner (by decide)⟩

end Diagram

end Flowchart
