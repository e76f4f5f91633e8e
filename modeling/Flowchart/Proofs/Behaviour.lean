import Flowchart.Compile
import Flowchart.Run
/-! Two meanings of a diagram: walking its blocks along the arrows, and executing nested code. Both
take what a single statement does and what a test says from an interpretation. A statement may fail and
so end everything at any point; agreement of the two meanings under all interpretations is therefore
agreement on every beginning of an execution, also of one that goes on for ever. -/
namespace Flowchart

/-- What the statements of blocks do to a state, and what tests say about it. Nothing is fixed but the
negation of a test and the test that is always true. -/
structure Interpretation (σ : Type) where
  act : Code.Stmt → σ → Option σ
  holds : Code.Expr → σ → Bool
  negated : ∀ origin test s,
    holds (.binary origin "==" test (.truth origin false)) s = !holds test s
  always : ∀ origin s, holds (.truth origin true) s = true

/-- A state with the statements executed so far. -/
structure Memory (σ : Type) where
  state : σ
  log : List Code.Stmt

/-- How an execution ends: at its last statement, by leaving the loop around it, or at a statement that
failed. -/
inductive Ending (σ : Type) where
  | done (m : Memory σ)
  | left (m : Memory σ)
  | failed (m : Memory σ)

/-- Goes on after an ending, if it is one to go on after. -/
def Ending.andThen {σ : Type} (first : Ending σ) (rest : Memory σ → Ending σ → Prop)
    (last : Ending σ) : Prop :=
  match first with
  | done m => rest m last
  | left m => last = left m
  | failed m => last = failed m

/-- Whether a statement is one that a block stands for. -/
def Code.Stmt.isAction : Code.Stmt → Bool
  | .assign .. => true
  | .print .. => true
  | _ => false

/-- Whether a statement only marks something: it is written as a comment. -/
def Code.Stmt.isMarker : Code.Stmt → Bool
  | .unsupported .. => true
  | _ => false

/-- Whether the language gives a block of this content a meaning. -/
def Content.isKnown : Content → Bool
  | .unknown _ => false
  | _ => true

namespace Interpretation
variable {σ : Type} (I : Interpretation σ)

/-- Executes one statement of a block. -/
def run (stmt : Code.Stmt) (m : Memory σ) : Ending σ :=
  match I.act stmt m.state with
  | some s => .done ⟨s, m.log ++ [stmt]⟩
  | none => .failed m

/-- Executes the statements of a block, markers left out. -/
def perform : List Code.Stmt → Memory σ → Ending σ
  | [], m => .done m
  | stmt :: rest, m =>
    if stmt.isAction then
      match I.run stmt m with
      | .done m => perform rest m
      | ended => ended
    else perform rest m

/-- What a block does by itself. -/
def effect (g : FlowGraph) (b : Block) (m : Memory σ) : Ending σ :=
  I.perform (Code.blockStmts (Code.originOf g b.id) b.content) m

/-- What the test of a conditional says. -/
def test (g : FlowGraph) (b : Block) (m : Memory σ) : Bool :=
  I.holds (Code.test (Code.originOf g b.id) b.content).2 m.state

/-- The block that a walk comes to after a block, the truth of its test deciding where it has one. -/
def next? (g : FlowGraph) (b : Block) (m : Memory σ) : Option String :=
  Run.next? g b (if b.content.isBranching then some (I.test g b m) else none)

/-- A walk in the order of a run, with the number of blocks it passes. It is complete after a block
that nothing follows; with a block `stop`, it is complete where it comes to that block. -/
inductive Walk (g : FlowGraph) (stop : Option String) :
    Nat → Option String → Memory σ → Ending σ → Prop where
  | ended {m : Memory σ} (free : stop = none) : Walk g stop 0 none m (.done m)
  | arrived {m : Memory σ} {id : String} (here : stop = some id) : Walk g stop 0 (some id) m (.done m)
  | step {m after : Memory σ} {last : Ending σ} {id : String} {b : Block} {n : Nat}
      (other : stop ≠ some id) (found : g.block? id = some b) (known : b.content.isKnown = true)
      (own : I.effect g b m = .done after) (rest : Walk g stop n (I.next? g b m) after last) :
      Walk g stop (n + 1) (some id) m last
  | failed {m after : Memory σ} {id : String} {b : Block} (other : stop ≠ some id)
      (found : g.block? id = some b) (known : b.content.isKnown = true)
      (own : I.effect g b m = .failed after) : Walk g stop 1 (some id) m (.failed after)

/-- Execution of nested code. `leave` ends the innermost loop. -/
inductive Exec : List Code.Stmt → Memory σ → Ending σ → Prop where
  | nil {m : Memory σ} : Exec [] m (.done m)
  | action {m after : Memory σ} {last : Ending σ} {stmt : Code.Stmt} {rest : List Code.Stmt}
      (own : stmt.isAction = true) (ran : I.run stmt m = .done after) (next : Exec rest after last) :
      Exec (stmt :: rest) m last
  | failed {m after : Memory σ} {stmt : Code.Stmt} {rest : List Code.Stmt}
      (own : stmt.isAction = true) (ran : I.run stmt m = .failed after) :
      Exec (stmt :: rest) m (.failed after)
  | marker {m : Memory σ} {last : Ending σ} {stmt : Code.Stmt} {rest : List Code.Stmt}
      (own : stmt.isMarker = true) (next : Exec rest m last) : Exec (stmt :: rest) m last
  | leave {m : Memory σ} {origin : Option Code.Origin} {rest : List Code.Stmt} :
      Exec (.leave origin :: rest) m (.left m)
  | branch {m after : Memory σ} {last : Ending σ} {origin : Option Code.Origin} {test : Code.Expr}
      {body rest : List Code.Stmt} {orElse : Option (List Code.Stmt)}
      (chosen : Exec (if I.holds test m.state then body else orElse.getD []) m (.done after))
      (next : Exec rest after last) : Exec (.branch origin test body orElse :: rest) m last
  | branchEnd {m : Memory σ} {last : Ending σ} {origin : Option Code.Origin} {test : Code.Expr}
      {body rest : List Code.Stmt} {orElse : Option (List Code.Stmt)}
      (chosen : Exec (if I.holds test m.state then body else orElse.getD []) m last)
      (ends : ∀ after, last ≠ .done after) : Exec (.branch origin test body orElse :: rest) m last
  | loopDone {m : Memory σ} {last : Ending σ} {origin : Option Code.Origin} {test : Code.Expr}
      {body rest : List Code.Stmt} (ends : I.holds test m.state = false) (next : Exec rest m last) :
      Exec (.loop origin test body :: rest) m last
  | loopAgain {m after : Memory σ} {last : Ending σ} {origin : Option Code.Origin} {test : Code.Expr}
      {body rest : List Code.Stmt} (again : I.holds test m.state = true)
      (once : Exec body m (.done after)) (next : Exec (.loop origin test body :: rest) after last) :
      Exec (.loop origin test body :: rest) m last
  | loopLeft {m after : Memory σ} {last : Ending σ} {origin : Option Code.Origin} {test : Code.Expr}
      {body rest : List Code.Stmt} (again : I.holds test m.state = true)
      (once : Exec body m (.left after)) (next : Exec rest after last) :
      Exec (.loop origin test body :: rest) m last
  | loopFailed {m after : Memory σ} {origin : Option Code.Origin} {test : Code.Expr}
      {body rest : List Code.Stmt} (again : I.holds test m.state = true)
      (once : Exec body m (.failed after)) : Exec (.loop origin test body :: rest) m (.failed after)
  | program {m : Memory σ} {last : Ending σ} {origin : Option Code.Origin}
      {body rest : List Code.Stmt} (inside : Exec (body ++ rest) m last) :
      Exec (.program origin body :: rest) m last

/-- Executing the code from a state is walking from the block, with the same endings. -/
def Follows (g : FlowGraph) (stop current : Option String) (stmts : List Code.Stmt) : Prop :=
  ∀ m last, I.Exec stmts m last ↔ ∃ n, I.Walk g stop n current m last

/-! The laws of execution: how each kind of statement opens, as an equivalence. -/

section Laws
variable {I} {m : Memory σ} {last : Ending σ} {stmts rest body : List Code.Stmt}
  {orElse : Option (List Code.Stmt)} {origin : Option Code.Origin} {test : Code.Expr}

theorem exec_nil : I.Exec [] m last ↔ last = .done m := by
  constructor
  · rintro ⟨⟩
    rfl
  · rintro rfl
    exact .nil

theorem exec_marker {stmt : Code.Stmt} (mark : stmt.isMarker = true) :
    I.Exec (stmt :: rest) m last ↔ I.Exec rest m last := by
  refine ⟨fun ran => ?_, .marker mark⟩
  cases ran with
  | marker _ next => exact next
  | action own => cases stmt <;> simp_all [Code.Stmt.isAction, Code.Stmt.isMarker]
  | failed own => cases stmt <;> simp_all [Code.Stmt.isAction, Code.Stmt.isMarker]
  | _ => simp [Code.Stmt.isMarker] at mark

theorem run_ne_left {stmt : Code.Stmt} {after : Memory σ} : I.run stmt m ≠ .left after := by
  unfold run
  split <;> simp

theorem exec_action {stmt : Code.Stmt} (own : stmt.isAction = true) :
    I.Exec (stmt :: rest) m last ↔ (I.run stmt m).andThen (I.Exec rest) last := by
  constructor
  · intro ran
    cases ran with
    | action _ ran next => rwa [ran]
    | failed _ ran => rw [ran]; rfl
    | marker mark => cases stmt <;> simp_all [Code.Stmt.isAction, Code.Stmt.isMarker]
    | _ => simp [Code.Stmt.isAction] at own
  · intro goes
    cases ran : I.run stmt m with
    | done after => rw [ran] at goes; exact .action own ran goes
    | left after => exact absurd ran run_ne_left
    | failed after => rw [ran] at goes; cases goes; exact .failed own ran

/-- Statements of blocks and markers in front of others are performed before these. -/
theorem exec_perform (plain : ∀ s ∈ stmts, s.isAction = true ∨ s.isMarker = true) :
    I.Exec (stmts ++ rest) m last ↔ (I.perform stmts m).andThen (I.Exec rest) last := by
  induction stmts generalizing m with
  | nil => rfl
  | cons stmt stmts ih =>
    have ih := fun m => ih (m := m) fun s h => plain s (List.mem_cons_of_mem _ h)
    rw [List.cons_append, perform]
    rcases plain stmt List.mem_cons_self with own | mark
    · rw [exec_action own, if_pos own]
      cases I.run stmt m with
      | done after => exact ih after
      | left after => rfl
      | failed after => rfl
    · have other : stmt.isAction = false := by
        cases stmt <;> simp_all [Code.Stmt.isAction, Code.Stmt.isMarker]
      rw [exec_marker mark, other]
      exact ih m

theorem exec_branch : I.Exec (.branch origin test body orElse :: rest) m last ↔
    ∃ middle, I.Exec (if I.holds test m.state then body else orElse.getD []) m middle ∧
      middle.andThen (I.Exec rest) last := by
  constructor
  · intro ran
    cases ran with
    | branch chosen next => exact ⟨_, chosen, next⟩
    | branchEnd chosen ends =>
      refine ⟨last, chosen, ?_⟩
      cases last with
      | done after => exact absurd rfl (ends after)
      | left after => rfl
      | failed after => rfl
    | action own => simp [Code.Stmt.isAction] at own
    | failed own => simp [Code.Stmt.isAction] at own
    | marker mark => simp [Code.Stmt.isMarker] at mark
  · rintro ⟨middle, chosen, goes⟩
    cases middle with
    | done after => exact .branch chosen goes
    | left after => cases goes; exact .branchEnd chosen (by simp)
    | failed after => cases goes; exact .branchEnd chosen (by simp)

theorem andThen_exec_nil {first : Ending σ} : first.andThen (I.Exec []) last ↔ last = first := by
  cases first with
  | done m => exact exec_nil
  | left m => rfl
  | failed m => rfl

/-- A branch that nothing comes after is the part that its test chooses. -/
theorem exec_choice : I.Exec [.branch origin test body orElse] m last ↔
    I.Exec (if I.holds test m.state then body else orElse.getD []) m last := by
  rw [exec_branch]
  simp only [andThen_exec_nil, exists_eq_right']

/-- A loop goes once more around, is left or is over. -/
theorem exec_loop : I.Exec (.loop origin test body :: rest) m last ↔
    if I.holds test m.state then
      ∃ middle, I.Exec body m middle ∧
        match middle with
        | .done after => I.Exec (.loop origin test body :: rest) after last
        | .left after => I.Exec rest after last
        | .failed after => last = .failed after
    else I.Exec rest m last := by
  constructor
  · intro ran
    cases ran with
    | loopDone ends next => simpa [ends] using next
    | loopAgain again once next => simpa [again] using ⟨_, once, next⟩
    | loopLeft again once next => simpa [again] using ⟨_, once, next⟩
    | loopFailed again once => simpa [again] using ⟨_, once, rfl⟩
    | action own => simp [Code.Stmt.isAction] at own
    | failed own => simp [Code.Stmt.isAction] at own
    | marker mark => simp [Code.Stmt.isMarker] at mark
  · split
    · next again =>
      rintro ⟨middle, once, goes⟩
      cases middle with
      | done after => exact .loopAgain again once goes
      | left after => exact .loopLeft again once goes
      | failed after => cases goes; exact .loopFailed again once
    · next ends => exact .loopDone (by simpa using ends)

end Laws

/-! The laws of walks. -/

section Walks
variable {I} {g : FlowGraph} {stop : Option String} {id : String} {b : Block} {m : Memory σ}
  {last : Ending σ} {n : Nat}

theorem perform_ne_left (stmts : List Code.Stmt) (m after : Memory σ) : I.perform stmts m ≠ .left after := by
  induction stmts generalizing m with
  | nil => simp [perform]
  | cons stmt rest ih =>
    rw [perform]
    split
    · split
      · exact ih _
      · exact run_ne_left
    · exact ih m

theorem effect_ne_left {after : Memory σ} : I.effect g b m ≠ .left after :=
  perform_ne_left _ m after

/-- The blocks before the end of a walk: it performs its first block and goes on behind it. -/
theorem walk_count (other : stop ≠ some id) (found : g.block? id = some b)
    (walk : I.Walk g stop n (some id) m last) :
    ∃ k, n = k + 1 ∧ (I.effect g b m).andThen (I.Walk g stop k (I.next? g b m)) last := by
  cases walk with
  | arrived here => exact absurd here other
  | step _ same _ own rest =>
    cases found.symm.trans same
    exact ⟨_, rfl, by rwa [own]⟩
  | failed _ same _ own =>
    cases found.symm.trans same
    exact ⟨0, rfl, by rw [own]; rfl⟩

theorem walk_block (other : stop ≠ some id) (found : g.block? id = some b)
    (known : b.content.isKnown = true) :
    (∃ n, I.Walk g stop n (some id) m last) ↔
      (I.effect g b m).andThen (fun after last => ∃ n, I.Walk g stop n (I.next? g b m) after last) last := by
  constructor
  · rintro ⟨n, walk⟩
    obtain ⟨k, -, goes⟩ := walk_count other found walk
    cases own : I.effect g b m with
    | done after => rw [own] at goes; exact ⟨k, goes⟩
    | left after => exact absurd own effect_ne_left
    | failed after => rwa [own] at goes
  · intro goes
    cases own : I.effect g b m with
    | done after =>
      rw [own] at goes
      obtain ⟨n, rest⟩ := goes
      exact ⟨n + 1, .step other found known own rest⟩
    | left after => exact absurd own effect_ne_left
    | failed after =>
      rw [own] at goes
      cases goes
      exact ⟨1, .failed other found known own⟩

theorem Walk.pass (b : Block) {after : Memory σ} {next : Option String} (found : g.block? id = some b)
    (known : b.content.isKnown = true) (own : I.effect g b m = .done after) (goes : I.next? g b m = next)
    (rest : I.Walk g none n next after last) : I.Walk g none (n + 1) (some id) m last :=
  .step (by simp) found known own (goes ▸ rest)

end Walks

/-! The code of one block. -/

section Blocks
variable {I} {g : FlowGraph} {b : Block} {rest : List Code.Stmt}

theorem exprOf_failure {origin : Option Code.Origin} {es : List Element} {s : Code.Stmt}
    (failed : Code.exprOf origin es = .error s) : ∃ e, s = Code.failure origin e := by
  unfold Code.exprOf at failed
  cases made : Code.ofElements origin es with
  | ok code => rw [made] at failed; cases failed
  | error e => rw [made] at failed; cases failed; exact ⟨e, rfl⟩

theorem targetOf_failure {origin : Option Code.Origin} {v : Variable} {s : Code.Stmt}
    (failed : Code.targetOf origin v = .error s) : ∃ e, s = Code.failure origin e := by
  unfold Code.targetOf at failed
  split at failed
  · cases made : Code.exprOf origin v.index with
    | ok e => rw [made] at failed; cases failed
    | error e => rw [made] at failed; cases failed; exact exprOf_failure made
  · cases failed

/-- A block becomes an assignment, an output or the marker of a failure. -/
theorem forall_blockStmts {holds : Code.Stmt → Prop} {origin : Option Code.Origin} (c : Content)
    (failure : ∀ e, holds (Code.failure origin e)) (assign : ∀ target value, holds (.assign origin target value))
    (print : ∀ args, holds (.print origin args)) : ∀ s ∈ Code.blockStmts origin c, holds s := by
  have one {result : Except Code.Stmt Code.Stmt} (ok : ∀ s, result = .ok s → holds s)
      (error : ∀ s, result = .error s → ∃ e, s = Code.failure origin e) :
      ∀ s ∈ Code.orMarker result, holds s := by
    cases result with
    | ok s => simpa [Code.orMarker] using ok s rfl
    | error s =>
      obtain ⟨e, rfl⟩ := error s rfl
      simpa [Code.orMarker] using failure e
  fun_cases Code.blockStmts origin c with
  | case1 target right =>
    refine one (fun s made => ?_) (fun s made => ?_)
    all_goals cases place : Code.targetOf origin target <;> rw [place] at made
    all_goals cases value : Code.exprOf origin right <;> rw [value] at made
    all_goals cases made
    · exact assign _ _
    · exact targetOf_failure place
    · exact targetOf_failure place
    · exact exprOf_failure value
  | case2 v =>
    refine one (fun s made => ?_) (fun s made => ?_)
    all_goals cases place : Code.targetOf origin v <;> rw [place] at made <;> cases made
    · exact assign _ _
    · exact targetOf_failure place
  | case3 => simpa using print []
  | case4 e =>
    refine one (fun s made => ?_) (fun s made => ?_)
    all_goals cases value : Code.exprOf origin e.right <;> rw [value] at made <;> cases made
    · exact print _
    · exact exprOf_failure value
  | case5 => simp

/-- The statements of blocks are actions or markers. -/
theorem blockStmts_plain (origin : Option Code.Origin) (c : Content) :
    ∀ s ∈ Code.blockStmts origin c, s.isAction = true ∨ s.isMarker = true :=
  forall_blockStmts c (fun _ => .inr rfl) (fun _ _ => .inl rfl) (fun _ => .inl rfl)

theorem test_failure {origin : Option Code.Origin} {c : Content} {s : Code.Stmt}
    (mark : s ∈ (Code.test origin c).1) : ∃ e, s = Code.failure origin e := by
  unfold Code.test at mark
  cases made : Code.exprOf origin (Code.testElements c) with
  | ok e => rw [made] at mark; cases mark
  | error e =>
    rw [made] at mark
    rw [List.mem_singleton.1 mark]
    exact exprOf_failure made

/-- The marks in front of a test are markers. -/
theorem test_marks (origin : Option Code.Origin) (c : Content) :
    ∀ s ∈ (Code.test origin c).1, s.isMarker = true := by
  intro s mark
  obtain ⟨e, rfl⟩ := test_failure mark
  rfl

/-- A conditional does nothing by itself. -/
theorem effect_branching (branching : b.content.isBranching = true) (m : Memory σ) :
    I.effect g b m = .done m := by
  unfold effect
  cases content : b.content <;> simp_all [Content.isBranching, Code.blockStmts, perform]

/-- Markers do nothing. -/
theorem perform_marks {marks : List Code.Stmt} (all : ∀ s ∈ marks, s.isMarker = true) (m : Memory σ) :
    I.perform marks m = .done m := by
  induction marks with
  | nil => rfl
  | cons s rest ih =>
    have other : s.isAction = false := by
      have := all s List.mem_cons_self
      cases s <;> simp_all [Code.Stmt.isAction, Code.Stmt.isMarker]
    rw [perform, other]
    exact ih fun t h => all t (List.mem_cons_of_mem _ h)

theorem exec_marks {marks : List Code.Stmt} (all : ∀ s ∈ marks, s.isMarker = true) {m : Memory σ}
    {last : Ending σ} : I.Exec (marks ++ rest) m last ↔ I.Exec rest m last := by
  rw [exec_perform fun s h => .inr (all s h), perform_marks all]
  rfl

theorem known_of_branching (branching : b.content.isBranching = true) : b.content.isKnown = true := by
  cases content : b.content <;> simp_all [Content.isBranching, Content.isKnown]

theorem next?_branching (branching : b.content.isBranching = true) (m : Memory σ) :
    I.next? g b m = Run.next? g b (some (I.test g b m)) := by
  simp [next?, branching]

end Blocks

end Interpretation

end Flowchart
