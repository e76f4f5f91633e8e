import Flowchart.Proofs.Shapes
/-! The work of structuring, call by call, for any graph and any set of loops. A relation says how the answer to
a call is put together from the answers to the calls made on the way, and no more: it knows of no measure that
falls. Every call turns out to be settled by it, within a depth that the numbers of blocks and loops bound. What
holds of all structured code is then shown along the relation, and so is what holds of all the calls made. -/
namespace Flowchart.Plan
variable {p : Plan} {active visited : List String} {inLoop : Option String} {id header : String} {b : Block}

/-- What structuring is asked for: the code from a block on, if there is one; the code behind an arrow of a
conditional, if it has that arrow; the code from several blocks on, one after the other; the code of a loop. -/
inductive Call where
  | block (active visited : List String) (inLoop next : Option String)
  | arrow (active visited : List String) (inLoop : Option String) (id : String) (taken : Option Arrow)
  | each (active visited : List String) (inLoop : Option String) (ids : List String)
  | loop (active visited : List String) (inLoop : Option String) (header : String)

/-- What structuring answers. -/
def result (p : Plan) : Call → Lowered
  | .block active visited inLoop next => p.lowerOn active visited inLoop next
  | .arrow active visited inLoop id taken => p.lowerBranch active visited inLoop (p.loopBody inLoop) id taken
  | .each active visited inLoop ids => p.lowerEach active visited inLoop ids
  | .loop active visited inLoop header => p.lowerLoop active visited inLoop header

/-- A conditional with its two parts, after the marker of a test that has no code. -/
def choice (p : Plan) (b : Block) (thenPart : List Code.Stmt) (orElse : Option (List Code.Stmt)) :
    List Code.Stmt :=
  (Code.test (p.origin b.id) b.content).1 ++
    [.branch (p.origin b.id) (Code.test (p.origin b.id) b.content).2 thenPart orElse]

/-- A loop, after the marker of a test of its header that has no code. -/
def repetition (p : Plan) (b : Block) (test : Code.Expr) (body : List Code.Stmt) : List Code.Stmt :=
  (Code.test (p.origin b.id) b.content).1 ++ [.loop (p.origin b.id) test body]

/-- The targets of arrows that lie in the loop of a header. -/
def inside (p : Plan) (header : String) (arrows : List Arrow) : List String :=
  (arrows.map Arrow.target).filter fun t => ((p.loops.body? header).getD []).contains t

/-- The targets of arrows that do not lie in the loop of a header. -/
def outside (p : Plan) (header : String) (arrows : List Arrow) : List String :=
  (arrows.map Arrow.target).filter fun t => !((p.loops.body? header).getD []).contains t

/-- The arrows for an answer of a conditional. -/
def answering (p : Plan) (id : String) (yes : Bool) : List Arrow :=
  (p.graph.outgoing id).filter (·.label == some (answer yes))

/-- The code behind an arrow out of a loop, and then leaving the loop, unless a block of the loop follows the
block that this code ends with. -/
def leaving (p : Plan) (id : String) (body : List String) (target : String) (path : List Code.Stmt) :
    List Code.Stmt :=
  path ++ if p.leaves body (lastId path target) then [.leave (p.origin id)] else []

/-- A call is settled with a result. `depth` bounds how deep the calls are nested, those that follow each other
in a list counting once; `calls` are all the calls made, with the call itself. -/
inductive Settles (p : Plan) : (depth : Nat) → Call → Lowered → (calls : List Call) → Prop where
  /-- Nothing follows. -/
  | nothing {depth : Nat} {active visited : List String} {inLoop : Option String} :
      Settles p depth (.block active visited inLoop none) (.nothing visited) [.block active visited inLoop none]
  | absent {depth : Nat} {active visited : List String} {inLoop : Option String} {id : String}
      (absent : ¬(id ≠ "" ∧ id ∈ p.graph.ids)) :
      Settles p (depth + 1) (.block active visited inLoop (some id)) ⟨[invalid (some id)], visited, []⟩
        [.block active visited inLoop (some id)]
  /-- Reached from outside of any loop, a block of a loop is left to the header it follows. -/
  | deferred {depth : Nat} {active visited : List String} {inLoop : Option String} {id : String}
      (valid : id ≠ "" ∧ id ∈ p.graph.ids) (inner : (inLoop.isNone && p.isInner id) = true) :
      Settles p (depth + 1) (.block active visited inLoop (some id)) (.nothing visited)
        [.block active visited inLoop (some id)]
  /-- The header of a loop that is being followed. -/
  | again {depth : Nat} {active visited : List String} {inLoop : Option String} {id : String}
      (meets : p.Meets inLoop id) (header : p.loops.has id = true) (busy : ¬(inLoop ≠ some id ∧ id ∉ active)) :
      Settles p (depth + 1) (.block active visited inLoop (some id)) (.nothing visited)
        [.block active visited inLoop (some id)]
  | enter {depth : Nat} {active visited : List String} {inLoop : Option String} {id : String} {r : Lowered}
      {calls : List Call} (meets : p.Meets inLoop id) (header : p.loops.has id = true)
      (free : inLoop ≠ some id ∧ id ∉ active)
      (whole : Settles p depth (.loop (id :: active) visited inLoop id) r calls) :
      Settles p (depth + 1) (.block active visited inLoop (some id)) r
        (.block active visited inLoop (some id) :: calls)
  | met {depth : Nat} {active visited : List String} {inLoop : Option String} {id : String}
      (meets : p.Meets inLoop id) (plain : ¬p.loops.has id = true) (old : id ∈ visited) :
      Settles p (depth + 1) (.block active visited inLoop (some id)) (.nothing visited)
        [.block active visited inLoop (some id)]
  /-- A block without a test, and what comes after it. -/
  | straight {depth : Nat} {active visited : List String} {inLoop : Option String} {b : Block} {r : Lowered}
      {calls : List Call} (listed : b ∈ p.graph.blocks) (meets : p.Meets inLoop b.id)
      (plain : ¬p.loops.has b.id = true) (new : b.id ∉ visited) (noTest : b.content.isBranching = false)
      (rest : Settles p depth (.block active (b.id :: visited) inLoop (Run.next? p.graph b none)) r calls) :
      Settles p (depth + 1) (.block active visited inLoop (some b.id))
        (r.after (p.ownStmts b) (Code.blockNotes b.content)) (.block active visited inLoop (some b.id) :: calls)
  /-- Two branches of one straight block each, and what comes where they meet, unless it was met before. -/
  | merge {depth : Nat} {active visited : List String} {inLoop : Option String} {b : Block} {yes no : Arrow}
      {next : String} {onward : Option String} {r : Lowered} {calls : List Call} (listed : b ∈ p.graph.blocks)
      (meets : p.Meets inLoop b.id) (plain : ¬p.loops.has b.id = true) (new : b.id ∉ visited)
      (branching : b.content.isBranching = true) (yesIs : p.graph.branch? b.id "yes" = some yes)
      (noIs : p.graph.branch? b.id "no" = some no)
      (merges : p.merge? (some yes) (some no) (p.loopBody inLoop) = some next)
      (goes : onward =
        if (withBranches yes.target no.target (b.id :: visited)).contains next then none else some next)
      (rest : Settles p depth
        (.block active (withBranches yes.target no.target (b.id :: visited)) inLoop onward) r calls) :
      Settles p (depth + 1) (.block active visited inLoop (some b.id))
        (r.after (p.choice b (p.stmtsAt yes.target) (some (p.stmtsAt no.target)))
          (Code.testNotes b.content ++ p.notesAt yes.target ++ p.notesAt no.target))
        (.block active visited inLoop (some b.id) :: calls)
  /-- Two branches that part for good. -/
  | parting {depth : Nat} {active visited : List String} {inLoop : Option String} {b : Block}
      {thenPart elsePart : Lowered} {calls calls' : List Call} (listed : b ∈ p.graph.blocks)
      (meets : p.Meets inLoop b.id) (plain : ¬p.loops.has b.id = true) (new : b.id ∉ visited)
      (branching : b.content.isBranching = true)
      (parts : p.merge? (p.graph.branch? b.id "yes") (p.graph.branch? b.id "no") (p.loopBody inLoop) = none)
      (yes : Settles p depth (.arrow active (b.id :: visited) inLoop b.id (p.graph.branch? b.id "yes")) thenPart
        calls)
      (no : Settles p depth (.arrow active (b.id :: visited) inLoop b.id (p.graph.branch? b.id "no")) elsePart
        calls') :
      Settles p (depth + 1) (.block active visited inLoop (some b.id))
        ⟨p.choice b thenPart.stmts (if elsePart.stmts.isEmpty then none else some elsePart.stmts),
          bothMet (b.id :: visited) thenPart.visited elsePart.visited,
          Code.testNotes b.content ++ thenPart.notes ++ elsePart.notes⟩
        (.block active visited inLoop (some b.id) :: (calls ++ calls'))
  | noArrow {depth : Nat} {active visited : List String} {inLoop : Option String} {id : String} :
      Settles p (depth + 1) (.arrow active visited inLoop id none) (.nothing visited)
        [.arrow active visited inLoop id none]
  /-- An arrow that stays in the loop around it, if there is one, and does not lead back to its header. -/
  | onward {depth : Nat} {active visited : List String} {inLoop : Option String} {id : String} {e : Arrow}
      {r : Lowered} {calls : List Call}
      (within : ∀ body, p.loopBody inLoop = some body → e.target ∈ body ∧ inLoop ≠ some e.target)
      (rest : Settles p depth (.block active visited inLoop (some e.target)) r calls) :
      Settles p (depth + 1) (.arrow active visited inLoop id (some e)) r
        (.arrow active visited inLoop id (some e) :: calls)
  | back {depth : Nat} {active visited body : List String} {id : String} {e : Arrow}
      (around : p.loopBody (some e.target) = some body) (inside : e.target ∈ body) :
      Settles p (depth + 1) (.arrow active visited (some e.target) id (some e)) (.nothing visited)
        [.arrow active visited (some e.target) id (some e)]
  /-- An arrow out of the loop to an end. -/
  | finish {depth : Nat} {active visited body : List String} {inLoop : Option String} {id : String} {e : Arrow}
      (around : p.loopBody inLoop = some body) (outside : e.target ∉ body)
      (ends : (p.graph.block? e.target).any (·.content.isFinish) = true) :
      Settles p (depth + 1) (.arrow active visited inLoop id (some e)) ⟨[.leave (p.origin id)], visited, []⟩
        [.arrow active visited inLoop id (some e)]
  /-- An arrow out of the loop: what lies behind it is followed outside of any loop. -/
  | exit {depth : Nat} {active visited body : List String} {inLoop : Option String} {id : String} {e : Arrow}
      {r : Lowered} {calls : List Call} (around : p.loopBody inLoop = some body) (outside : e.target ∉ body)
      (goesOn : ¬(p.graph.block? e.target).any (·.content.isFinish) = true)
      (path : Settles p depth (.block active visited none (some e.target)) r calls) :
      Settles p (depth + 1) (.arrow active visited inLoop id (some e))
        { r with stmts := p.leaving id body e.target r.stmts }
        (.arrow active visited inLoop id (some e) :: calls)
  | done {depth : Nat} {active visited : List String} {inLoop : Option String} :
      Settles p (depth + 1) (.each active visited inLoop []) (.nothing visited) [.each active visited inLoop []]
  | next {depth : Nat} {active visited : List String} {inLoop : Option String} {id : String} {ids : List String}
      {r later : Lowered} {calls calls' : List Call}
      (first : Settles p depth (.block active visited inLoop (some id)) r calls)
      (rest : Settles p (depth + 1) (.each active r.visited inLoop ids) later calls') :
      Settles p (depth + 1) (.each active visited inLoop (id :: ids)) (later.after r.stmts r.notes)
        (.each active visited inLoop (id :: ids) :: (calls ++ calls'))
  | headless {depth : Nat} {active visited : List String} {inLoop : Option String} {header : String}
      (missing : p.graph.block? header = none) :
      Settles p (depth + 1) (.loop active visited inLoop header) (.nothing visited)
        [.loop active visited inLoop header]
  /-- A loop whose header has no test. -/
  | forever {depth : Nat} {active visited : List String} {inLoop : Option String} {b : Block} {r : Lowered}
      {calls : List Call} (listed : b ∈ p.graph.blocks) (noTest : b.content.isBranching = false)
      (round : Settles p depth (.each active [] (some b.id) (p.inside b.id (p.graph.outgoing b.id))) r calls) :
      Settles p (depth + 1) (.loop active visited inLoop b.id)
        ⟨[.loop (p.origin b.id) (.truth (p.origin b.id) true) (p.blockStmts b ++ r.stmts)], visited,
          Code.blockNotes b.content ++ r.notes⟩
        (.loop active visited inLoop b.id :: calls)
  /-- A loop whose header has a test, but no answer that leads into the loop. -/
  | unanswered {depth : Nat} {active visited : List String} {inLoop : Option String} {b : Block} {r : Lowered}
      {calls : List Call} (listed : b ∈ p.graph.blocks) (branching : b.content.isBranching = true)
      (entered : ∀ entry, p.graph.predecessors b.id ≠ [entry])
      (never : ∀ yes, p.inside b.id (p.answering b.id yes) = [])
      (round : Settles p depth (.each active [] (some b.id) (p.inside b.id (p.graph.outgoing b.id))) r calls) :
      Settles p (depth + 1) (.loop active visited inLoop b.id)
        ⟨[.loop (p.origin b.id) (.truth (p.origin b.id) true)
          ((Code.test (p.origin b.id) b.content).1 ++ r.stmts)], visited, Code.testNotes b.content ++ r.notes⟩
        (.loop active visited inLoop b.id :: calls)
  /-- A loop with a single way in, which is taken for one with its test at the bottom. -/
  | sole {depth : Nat} {active visited : List String} {inLoop : Option String} {b : Block} {entry : String}
      (listed : b ∈ p.graph.blocks) (branching : b.content.isBranching = true)
      (only : p.graph.predecessors b.id = [entry]) :
      Settles p (depth + 1) (.loop active visited inLoop b.id)
        ⟨p.repetition b (.truth (p.origin b.id) true) (p.stmtsAt entry ++
            [.branch (p.origin b.id) (Code.test (p.origin b.id) b.content).2 [] none]), visited,
          Code.testNotes b.content ++
            (if ((p.loops.body? b.id).getD []).contains entry then [.soleEntry b.id entry] else []) ++
            p.notesAt entry⟩
        [.loop active visited inLoop b.id]
  /-- A loop that goes on with one answer of its header, and what comes behind the other answer. -/
  | turning {depth : Nat} {active visited : List String} {inLoop : Option String} {b : Block} {r behind : Lowered}
      {calls calls' : List Call} (turn : Bool) (listed : b ∈ p.graph.blocks)
      (branching : b.content.isBranching = true) (entered : ∀ entry, p.graph.predecessors b.id ≠ [entry])
      (stays : p.inside b.id (p.answering b.id turn) ≠ [])
      (ends : p.inside b.id (p.answering b.id !turn) = [])
      (round : Settles p depth (.each active [] (some b.id) (p.inside b.id (p.answering b.id turn))) r calls)
      (after : Settles p depth (.each active visited inLoop (p.outside b.id (p.answering b.id !turn))) behind
        calls') :
      Settles p (depth + 1) (.loop active visited inLoop b.id)
        (behind.after (p.repetition b (p.loopTest b turn) r.stmts) (Code.testNotes b.content ++ r.notes))
        (.loop active visited inLoop b.id :: (calls ++ calls'))
  /-- A loop that goes on with both answers of its header. -/
  | choosing {depth : Nat} {active visited : List String} {inLoop : Option String} {b : Block}
      {thenPart elsePart : Lowered} {calls calls' : List Call} (listed : b ∈ p.graph.blocks)
      (branching : b.content.isBranching = true) (entered : ∀ entry, p.graph.predecessors b.id ≠ [entry])
      (stays : ∀ yes, p.inside b.id (p.answering b.id yes) ≠ [])
      (yes : Settles p depth (.each active [] (some b.id) (p.inside b.id (p.answering b.id true))) thenPart calls)
      (no : Settles p depth (.each active [] (some b.id) (p.inside b.id (p.answering b.id false))) elsePart
        calls') :
      Settles p (depth + 1) (.loop active visited inLoop b.id)
        ⟨p.repetition b (.truth (p.origin b.id) true)
          [.branch (p.origin b.id) (Code.test (p.origin b.id) b.content).2 thenPart.stmts
            (some elsePart.stmts)], visited,
          Code.testNotes b.content ++ thenPart.notes ++ elsePart.notes⟩
        (.loop active visited inLoop b.id :: (calls ++ calls'))

/-! The answers of structuring, in the same cases. -/

section Arrow
variable {body : List String} {e : Arrow}

theorem lowerBranch_of_within
    (within : ∀ body, p.loopBody inLoop = some body → e.target ∈ body ∧ inLoop ≠ some e.target) :
    p.lowerBranch active visited inLoop (p.loopBody inLoop) id (some e) =
      p.lower active visited inLoop e.target := by
  cases inLoop with
  | none =>
    rw [lowerBranch]
    simp
  | some h =>
    cases around : p.loopBody (some h) with
    | none =>
      rw [lowerBranch]
      simp
    | some body =>
      obtain ⟨inside, other⟩ := within body around
      rw [lowerBranch, if_pos (by simpa using inside), if_neg (fun same => other (congrArg some same.symm))]

theorem lowerBranch_of_back (inside : e.target ∈ body) :
    p.lowerBranch active visited (some e.target) (some body) id (some e) = .nothing visited := by
  rw [lowerBranch, if_pos (by simpa using inside), if_pos rfl]

theorem isSome_of_loopBody (around : p.loopBody inLoop = some body) :
    ∃ h, inLoop = some h ∧ h ≠ "" ∧ p.loops.body? h = some body := by
  obtain ⟨h, is, found⟩ := Option.bind_eq_some_iff.1 around
  obtain ⟨is, named⟩ := Option.filter_eq_some_iff.1 is
  exact ⟨h, is, by simpa using named, found⟩

theorem lowerBranch_of_finish (around : p.loopBody inLoop = some body) (outside : e.target ∉ body)
    (ends : (p.graph.block? e.target).any (·.content.isFinish) = true) :
    p.lowerBranch active visited inLoop (some body) id (some e) = ⟨[.leave (p.origin id)], visited, []⟩ := by
  obtain ⟨h, rfl, -⟩ := isSome_of_loopBody around
  rw [lowerBranch, if_neg (by simpa using outside), if_pos ends]

theorem lowerBranch_of_exit (around : p.loopBody inLoop = some body) (outside : e.target ∉ body)
    (goesOn : ¬(p.graph.block? e.target).any (·.content.isFinish) = true) :
    p.lowerBranch active visited inLoop (some body) id (some e) =
      { p.lower active visited none e.target with
        stmts := p.leaving id body e.target (p.lower active visited none e.target).stmts } := by
  obtain ⟨h, rfl, -⟩ := isSome_of_loopBody around
  rw [lowerBranch, if_neg (by simpa using outside), if_neg goesOn, leaving]
  dsimp only
  split
  · rfl
  · rw [List.append_nil]

end Arrow

theorem lowerEach_cons {ids : List String} :
    p.lowerEach active visited inLoop (id :: ids) =
      (p.lowerEach active (p.lower active visited inLoop id).visited inLoop ids).after
        (p.lower active visited inLoop id).stmts (p.lower active visited inLoop id).notes := by
  rw [lowerEach]

section Loop
variable (listed : b ∈ p.graph.blocks)
include listed

theorem lowerLoop_of_forever (noTest : b.content.isBranching = false) :
    p.lowerLoop active visited inLoop b.id =
      let round := p.lowerEach active [] (some b.id) (p.inside b.id (p.graph.outgoing b.id))
      ⟨[.loop (p.origin b.id) (.truth (p.origin b.id) true) (p.blockStmts b ++ round.stmts)], visited,
        Code.blockNotes b.content ++ round.notes⟩ := by
  rw [lowerLoop, FlowGraph.block?_of_mem listed]
  cases content : b.content with
  | conditional e => simp [content, Content.isBranching] at noTest
  | _ => simp only [content, blockStmts, inside]

variable (branching : b.content.isBranching = true)
include branching

theorem lowerLoop_of_sole {entry : String} (only : p.graph.predecessors b.id = [entry]) :
    p.lowerLoop active visited inLoop b.id =
      ⟨p.repetition b (.truth (p.origin b.id) true) (p.stmtsAt entry ++
          [.branch (p.origin b.id) (Code.test (p.origin b.id) b.content).2 [] none]), visited,
        Code.testNotes b.content ++
          (if ((p.loops.body? b.id).getD []).contains entry then [.soleEntry b.id entry] else []) ++
          p.notesAt entry⟩ := by
  rw [lowerLoop, FlowGraph.block?_of_mem listed]
  cases content : b.content with
  | conditional e => simp only [content, only, repetition]
  | _ => simp [content, Content.isBranching] at branching

variable (entered : ∀ entry, p.graph.predecessors b.id ≠ [entry])
include entered

theorem lowerLoop_of_unanswered (never : ∀ yes, p.inside b.id (p.answering b.id yes) = []) :
    p.lowerLoop active visited inLoop b.id =
      let round := p.lowerEach active [] (some b.id) (p.inside b.id (p.graph.outgoing b.id))
      ⟨[.loop (p.origin b.id) (.truth (p.origin b.id) true)
        ((Code.test (p.origin b.id) b.content).1 ++ round.stmts)], visited,
        Code.testNotes b.content ++ round.notes⟩ := by
  have yes := List.isEmpty_iff.2 (never true)
  have no := List.isEmpty_iff.2 (never false)
  simp only [inside, answering, answer, ↓reduceIte, Bool.false_eq_true] at yes no
  rw [lowerLoop, FlowGraph.block?_of_mem listed]
  cases content : b.content with
  | conditional e => simp only [content, yes, no, inside]
  | _ => simp [content, Content.isBranching] at branching

theorem lowerLoop_of_turning (turn : Bool) (stays : p.inside b.id (p.answering b.id turn) ≠ [])
    (ends : p.inside b.id (p.answering b.id !turn) = []) :
    p.lowerLoop active visited inLoop b.id =
      let round := p.lowerEach active [] (some b.id) (p.inside b.id (p.answering b.id turn))
      (p.lowerEach active visited inLoop (p.outside b.id (p.answering b.id !turn))).after
        (p.repetition b (p.loopTest b turn) round.stmts) (Code.testNotes b.content ++ round.notes) := by
  have stays := List.isEmpty_eq_false_iff.2 stays
  have ends := List.isEmpty_iff.2 ends
  rw [lowerLoop, FlowGraph.block?_of_mem listed]
  cases content : b.content with
  | conditional e =>
    cases turn
    all_goals
      simp only [inside, answering, answer, Bool.not_true, Bool.not_false, ↓reduceIte, Bool.false_eq_true]
        at stays ends
      simp only [content, stays, ends, inside, outside, answering, answer, repetition, loopTest, Bool.not_true,
        Bool.not_false, ↓reduceIte, Bool.false_eq_true]
  | _ => simp [content, Content.isBranching] at branching

theorem lowerLoop_of_choosing (stays : ∀ yes, p.inside b.id (p.answering b.id yes) ≠ []) :
    p.lowerLoop active visited inLoop b.id =
      let thenPart := p.lowerEach active [] (some b.id) (p.inside b.id (p.answering b.id true))
      let elsePart := p.lowerEach active [] (some b.id) (p.inside b.id (p.answering b.id false))
      ⟨p.repetition b (.truth (p.origin b.id) true)
        [.branch (p.origin b.id) (Code.test (p.origin b.id) b.content).2 thenPart.stmts (some elsePart.stmts)],
        visited, Code.testNotes b.content ++ thenPart.notes ++ elsePart.notes⟩ := by
  have yes := List.isEmpty_eq_false_iff.2 (stays true)
  have no := List.isEmpty_eq_false_iff.2 (stays false)
  simp only [inside, answering, answer, ↓reduceIte, Bool.false_eq_true] at yes no
  rw [lowerLoop, FlowGraph.block?_of_mem listed]
  cases content : b.content with
  | conditional e =>
    simp only [content, yes, no, inside, answering, answer, repetition, ↓reduceIte, Bool.false_eq_true]
  | _ => simp [content, Content.isBranching] at branching

end Loop

/-- A call is settled with the answer of structuring and with no other. -/
theorem Settles.eq_result {depth : Nat} {call : Call} {r : Lowered} {calls : List Call}
    (settles : p.Settles depth call r calls) : r = p.result call := by
  induction settles with
  | nothing => rfl
  | absent absent => exact (lower_of_absent absent).symm
  | deferred valid inner => exact (lower_of_inner valid inner).symm
  | again meets header busy => exact (lower_of_busy meets header busy).symm
  | enter meets header free whole ih => exact ih.trans (lower_of_header meets header free).symm
  | met meets plain old => exact (lower_of_met meets plain old).symm
  | straight listed meets plain new noTest rest ih =>
    rw [ih]
    exact (lower_of_straight meets plain new (FlowGraph.block?_of_mem listed) rfl noTest).symm
  | @merge _ active visited inLoop b yes no next onward r calls listed meets plain new branching yesIs noIs merges
      goes rest ih =>
    have whole := @lower_of_merge p active visited inLoop b.id b meets plain new (FlowGraph.block?_of_mem listed)
      branching yes no next yesIs noIs merges
    rw [ih, goes]
    refine Eq.trans ?_ whole.symm
    split <;> rfl
  | parting listed meets plain new branching parts yes no ihYes ihNo =>
    rw [ihYes, ihNo]
    exact (lower_of_parting meets plain new (FlowGraph.block?_of_mem listed) branching parts).symm
  | noArrow => rw [result, lowerBranch]
  | onward within rest ih => exact ih.trans (lowerBranch_of_within within).symm
  | back around inside => rw [result, around, lowerBranch_of_back inside]
  | finish around outside ends => rw [result, around, lowerBranch_of_finish around outside ends]
  | exit around outside goesOn path ih =>
    rw [ih, result, result, around, lowerBranch_of_exit around outside goesOn, lowerOn]
  | done => rw [result, lowerEach]
  | next first rest ihFirst ihRest =>
    rw [ihRest, ihFirst]
    exact lowerEach_cons.symm
  | headless missing => rw [result, lowerLoop, missing]
  | forever listed noTest round ih =>
    rw [ih]
    exact (lowerLoop_of_forever listed noTest).symm
  | unanswered listed branching entered never round ih =>
    rw [ih]
    exact (lowerLoop_of_unanswered listed branching entered never).symm
  | sole listed branching only => exact (lowerLoop_of_sole listed branching only).symm
  | turning turn listed branching entered stays ends round after ih ihAfter =>
    rw [ih, ihAfter]
    exact (lowerLoop_of_turning listed branching entered turn stays ends).symm
  | choosing listed branching entered stays yes no ihYes ihNo =>
    rw [ihYes, ihNo]
    exact (lowerLoop_of_choosing listed branching entered stays).symm

theorem Settles.stmts_lower {depth : Nat} {r : Lowered} {calls : List Call}
    (settles : p.Settles depth (.block active visited inLoop (some id)) r calls) :
    (p.lower active visited inLoop id).stmts = r.stmts :=
  congrArg Lowered.stmts settles.eq_result.symm

/-- A block that structuring takes up where it meets it: it is no header, and it was not met before. -/
structure Fresh (p : Plan) (visited : List String) (inLoop : Option String) (id : String) : Prop where
  meets : p.Meets inLoop id
  plain : ¬p.loops.has id = true
  new : id ∉ visited

instance (visited : List String) (inLoop : Option String) (id : String) : Decidable (p.Fresh visited inLoop id) :=
  decidable_of_iff ((id ≠ "" ∧ id ∈ p.graph.ids) ∧ (inLoop.isNone && p.isInner id) = false ∧
      ¬p.loops.has id = true ∧ id ∉ visited)
    ⟨fun ⟨valid, outer, plain, new⟩ => ⟨⟨valid, outer⟩, plain, new⟩,
      fun fresh => ⟨fresh.meets.valid, fresh.meets.outer, fresh.plain, fresh.new⟩⟩

theorem Settles.pass {depth : Nat} {r : Lowered} {calls : List Call} (found : p.graph.block? id = some b)
    (fresh : p.Fresh visited inLoop id) (noTest : b.content.isBranching = false)
    (rest : p.Settles depth (.block active (id :: visited) inLoop (Run.next? p.graph b none)) r calls) :
    p.Settles (depth + 1) (.block active visited inLoop (some id))
      (r.after (p.ownStmts b) (Code.blockNotes b.content)) (.block active visited inLoop (some id) :: calls) := by
  obtain ⟨listed, rfl⟩ := FlowGraph.block?_eq_some found
  exact .straight listed fresh.meets fresh.plain fresh.new noTest rest

theorem Settles.part {depth : Nat} {thenPart elsePart : Lowered} {calls calls' : List Call}
    (found : p.graph.block? id = some b) (fresh : p.Fresh visited inLoop id)
    (branching : b.content.isBranching = true)
    (parts : p.merge? (p.graph.branch? id "yes") (p.graph.branch? id "no") (p.loopBody inLoop) = none)
    (yes : p.Settles depth (.arrow active (id :: visited) inLoop id (p.graph.branch? id "yes")) thenPart calls)
    (no : p.Settles depth (.arrow active (id :: visited) inLoop id (p.graph.branch? id "no")) elsePart calls') :
    p.Settles (depth + 1) (.block active visited inLoop (some id))
      ⟨p.choice b thenPart.stmts (if elsePart.stmts.isEmpty then none else some elsePart.stmts),
        bothMet (id :: visited) thenPart.visited elsePart.visited,
        Code.testNotes b.content ++ thenPart.notes ++ elsePart.notes⟩
      (.block active visited inLoop (some id) :: (calls ++ calls')) := by
  obtain ⟨listed, rfl⟩ := FlowGraph.block?_eq_some found
  exact .parting listed fresh.meets fresh.plain fresh.new branching parts yes no

/-! Every call is settled. Within one loop each block is met once, and each costs at most two calls, its own and
that of an arrow; a loop inside of it is one that is no longer idle there. -/

/-- A depth that is enough for a call. -/
def depth (p : Plan) : Call → Nat
  | .block active visited _ _ => p.idle active * (2 * p.graph.ids.length + 4) + 2 * p.unseen visited + 1
  | .arrow active visited _ _ _ => p.idle active * (2 * p.graph.ids.length + 4) + 2 * p.unseen visited + 2
  | .each active _ _ _ => p.idle active * (2 * p.graph.ids.length + 4) + 2 * p.graph.ids.length + 2
  | .loop active _ _ _ => p.idle active * (2 * p.graph.ids.length + 4) + 2 * p.graph.ids.length + 3

/-- The call is settled within the depth, with the answer of structuring. -/
def Ends (p : Plan) (depth : Nat) (call : Call) : Prop :=
  ∃ calls, p.Settles depth call (p.result call) calls

section Ends
variable {depth : Nat}

theorem Settles.ends {call : Call} {r : Lowered} {calls : List Call} (settles : p.Settles depth call r calls) :
    p.Ends depth call := by
  have same := settles.eq_result
  subst same
  exact ⟨calls, settles⟩

variable (sooner : ∀ call, p.depth call ≤ depth → p.Ends depth call)
include sooner

theorem ends_arrow {taken : Option Arrow} (enough : p.depth (.arrow active visited inLoop id taken) ≤ depth + 1) :
    p.Ends (depth + 1) (.arrow active visited inLoop id taken) := by
  have goes (inLoop : Option String) (target : String) :
      p.Ends depth (.block active visited inLoop (some target)) := by
    apply sooner
    simp only [Plan.depth] at enough ⊢
    omega
  cases taken with
  | none => exact Settles.noArrow.ends
  | some e =>
    cases around : p.loopBody inLoop with
    | none =>
      obtain ⟨calls, rest⟩ := goes inLoop e.target
      refine (Settles.onward (fun body is => ?_) rest).ends
      rw [around] at is
      cases is
    | some body =>
      by_cases inside : e.target ∈ body
      · by_cases back : inLoop = some e.target
        · subst back
          exact (Settles.back around inside).ends
        · obtain ⟨calls, rest⟩ := goes inLoop e.target
          refine (Settles.onward (fun body' is => ?_) rest).ends
          cases around.symm.trans is
          exact ⟨inside, back⟩
      · by_cases ends : (p.graph.block? e.target).any (·.content.isFinish) = true
        · exact (Settles.finish around inside ends).ends
        · obtain ⟨calls, path⟩ := goes none e.target
          exact (Settles.exit around inside ends path).ends

theorem ends_each {ids : List String} (enough : p.depth (.each active visited inLoop ids) ≤ depth + 1) :
    p.Ends (depth + 1) (.each active visited inLoop ids) := by
  induction ids generalizing visited with
  | nil => exact Settles.done.ends
  | cons id ids ih =>
    have few := p.unseen_le visited
    obtain ⟨calls, first⟩ := sooner (.block active visited inLoop (some id)) (by
      simp only [Plan.depth] at enough ⊢
      omega)
    obtain ⟨calls', rest⟩ := @ih (p.result (.block active visited inLoop (some id))).visited enough
    exact (Settles.next first rest).ends

theorem ends_loop (enough : p.depth (.loop active visited inLoop header) ≤ depth + 1) :
    p.Ends (depth + 1) (.loop active visited inLoop header) := by
  have goes (visited : List String) (inLoop : Option String) (ids : List String) :
      p.Ends depth (.each active visited inLoop ids) := by
    apply sooner
    simp only [Plan.depth] at enough ⊢
    omega
  cases found : p.graph.block? header with
  | none => exact (Settles.headless found).ends
  | some b =>
    obtain ⟨listed, rfl⟩ := FlowGraph.block?_eq_some found
    cases branching : b.content.isBranching with
    | false =>
      obtain ⟨calls, round⟩ := goes [] (some b.id) (p.inside b.id (p.graph.outgoing b.id))
      exact (Settles.forever listed branching round).ends
    | true =>
      by_cases single : ∃ entry, p.graph.predecessors b.id = [entry]
      · obtain ⟨entry, only⟩ := single
        exact (Settles.sole listed branching only).ends
      have entered (entry : String) : p.graph.predecessors b.id ≠ [entry] := fun only => single ⟨entry, only⟩
      have turning (turn : Bool) (stays : p.inside b.id (p.answering b.id turn) ≠ [])
          (ends : p.inside b.id (p.answering b.id !turn) = []) :
          p.Ends (depth + 1) (.loop active visited inLoop b.id) := by
        obtain ⟨calls, round⟩ := goes [] (some b.id) (p.inside b.id (p.answering b.id turn))
        obtain ⟨calls', after⟩ := goes visited inLoop (p.outside b.id (p.answering b.id !turn))
        exact (Settles.turning turn listed branching entered stays ends round after).ends
      by_cases yes : p.inside b.id (p.answering b.id true) = []
      · by_cases no : p.inside b.id (p.answering b.id false) = []
        · obtain ⟨calls, round⟩ := goes [] (some b.id) (p.inside b.id (p.graph.outgoing b.id))
          exact (Settles.unanswered listed branching entered (Bool.forall_bool.2 ⟨no, yes⟩) round).ends
        · exact turning false no yes
      · by_cases no : p.inside b.id (p.answering b.id false) = []
        · exact turning true yes no
        · obtain ⟨calls, thenPart⟩ := goes [] (some b.id) (p.inside b.id (p.answering b.id true))
          obtain ⟨calls', elsePart⟩ := goes [] (some b.id) (p.inside b.id (p.answering b.id false))
          exact (Settles.choosing listed branching entered (Bool.forall_bool.2 ⟨no, yes⟩) thenPart elsePart).ends

/-- A block that is no header: it is met again, goes straight on, or branches. -/
theorem ends_plain (meets : p.Meets inLoop id) (plain : ¬p.loops.has id = true)
    (enough : p.depth (.block active visited inLoop (some id)) ≤ depth + 1) :
    p.Ends (depth + 1) (.block active visited inLoop (some id)) := by
  by_cases old : id ∈ visited
  · exact (Settles.met meets plain old).ends
  obtain ⟨b, found⟩ := FlowGraph.exists_block meets.valid.2
  obtain ⟨listed, rfl⟩ := FlowGraph.block?_eq_some found
  have fewer := p.unseen_cons_lt meets.valid.2 old
  cases branching : b.content.isBranching with
  | false =>
    obtain ⟨calls, rest⟩ := sooner (.block active (b.id :: visited) inLoop (Run.next? p.graph b none)) (by
      simp only [Plan.depth] at enough ⊢
      omega)
    exact (Settles.straight listed meets plain old branching rest).ends
  | true =>
    cases merges : p.merge? (p.graph.branch? b.id "yes") (p.graph.branch? b.id "no") (p.loopBody inLoop) with
    | none =>
      have goes (taken : Option Arrow) : p.Ends depth (.arrow active (b.id :: visited) inLoop b.id taken) := by
        apply sooner
        simp only [Plan.depth] at enough ⊢
        omega
      obtain ⟨calls, yes⟩ := goes (p.graph.branch? b.id "yes")
      obtain ⟨calls', no⟩ := goes (p.graph.branch? b.id "no")
      exact (Settles.parting listed meets plain old branching merges yes no).ends
    | some next =>
      obtain ⟨yes, no, yesIs, noIs⟩ := exists_of_merge? merges
      rw [yesIs, noIs] at merges
      have some_fewer := p.unseen_withBranches_le yes.target no.target (b.id :: visited)
      obtain ⟨calls, rest⟩ := sooner
        (.block active (withBranches yes.target no.target (b.id :: visited)) inLoop
          (if (withBranches yes.target no.target (b.id :: visited)).contains next then none else some next))
        (by
          simp only [Plan.depth] at enough ⊢
          omega)
      exact (Settles.merge listed meets plain old branching yesIs noIs merges rfl rest).ends

theorem ends_block {next : Option String} (enough : p.depth (.block active visited inLoop next) ≤ depth + 1) :
    p.Ends (depth + 1) (.block active visited inLoop next) := by
  cases next with
  | none => exact Settles.nothing.ends
  | some id =>
    by_cases valid : id ≠ "" ∧ id ∈ p.graph.ids
    swap
    · exact (Settles.absent valid).ends
    by_cases inner : (inLoop.isNone && p.isInner id) = true
    · exact (Settles.deferred valid inner).ends
    have meets : p.Meets inLoop id := ⟨valid, by simpa using inner⟩
    by_cases header : p.loops.has id = true
    · by_cases free : inLoop ≠ some id ∧ id ∉ active
      -- One loop fewer is idle, which makes room for all blocks to be met anew.
      · have fewer := p.idle_cons_lt header free.2
        have room := Nat.mul_le_mul_right (2 * p.graph.ids.length + 4) fewer
        rw [Nat.succ_mul] at room
        obtain ⟨calls, whole⟩ := sooner (.loop (id :: active) visited inLoop id) (by
          simp only [Plan.depth] at enough ⊢
          omega)
        exact (Settles.enter meets header free whole).ends
      · exact (Settles.again meets header free).ends
    · exact ends_plain sooner meets header enough

end Ends

theorem ends_of_depth_le {depth : Nat} {call : Call} (enough : p.depth call ≤ depth) : p.Ends depth call := by
  induction depth generalizing call with
  | zero => cases call <;> exact absurd enough (by simp [Plan.depth])
  | succ depth ih =>
    have sooner (call : Call) (less : p.depth call ≤ depth) : p.Ends depth call := ih less
    cases call with
    | block => exact ends_block sooner enough
    | arrow => exact ends_arrow sooner enough
    | each => exact ends_each sooner enough
    | loop => exact ends_loop sooner enough

theorem depth_le (p : Plan) (call : Call) :
    p.depth call ≤ (p.loops.length + 1) * (2 * p.graph.ids.length + 4) := by
  have room (active : List String) : p.idle active * (2 * p.graph.ids.length + 4) ≤
      p.loops.length * (2 * p.graph.ids.length + 4) :=
    Nat.mul_le_mul_right _ List.countP_le_length
  rw [Nat.add_mul, Nat.one_mul]
  cases call with
  | block active visited inLoop next =>
    have := room active
    have := p.unseen_le visited
    simp only [depth]
    omega
  | arrow active visited inLoop id taken =>
    have := room active
    have := p.unseen_le visited
    simp only [depth]
    omega
  | each active visited inLoop ids =>
    have := room active
    simp only [depth]
    omega
  | loop active visited inLoop header =>
    have := room active
    simp only [depth]
    omega

/-- Every call ends within one depth, and within all larger ones. -/
theorem ends (p : Plan) (call : Call) (more : Nat) :
    p.Ends ((p.loops.length + 1) * (2 * p.graph.ids.length + 4) + more) call :=
  ends_of_depth_le (Nat.le_trans (p.depth_le call) (Nat.le_add_right _ _))

theorem Settles.mem_calls {depth : Nat} {call : Call} {r : Lowered} {calls : List Call}
    (settles : p.Settles depth call r calls) : call ∈ calls := by
  cases settles <;> exact List.mem_cons_self

theorem subset_calls_left (call : Call) (calls calls' : List Call) : calls ⊆ call :: (calls ++ calls') :=
  fun _ made => List.mem_cons_of_mem _ (List.mem_append_left _ made)

theorem subset_calls_right (call : Call) (calls calls' : List Call) : calls' ⊆ call :: (calls ++ calls') :=
  fun _ made => List.mem_cons_of_mem _ (List.mem_append_right _ made)

/-- Structuring comes to an end for every graph, every set of loops and every place to begin at, and its calls
are never nested deeper than the numbers of loops and blocks allow. -/
theorem structuring_ends (p : Plan) (active visited : List String) (inLoop : Option String) (id : String) :
    (∃ calls, p.Settles ((p.loops.length + 1) * (2 * p.graph.ids.length + 4))
      (.block active visited inLoop (some id)) (p.lower active visited inLoop id) calls) ∧
    ∀ depth r calls, p.Settles depth (.block active visited inLoop (some id)) r calls →
      r = p.lower active visited inLoop id := by
  refine ⟨p.ends (.block active visited inLoop (some id)) 0, ?_⟩
  intro depth r calls settles
  exact settles.eq_result

end Flowchart.Plan
