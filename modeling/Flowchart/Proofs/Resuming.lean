import Flowchart.Proofs.Behaviour
/-! Code inside of a loop that may be left. Such code ends in two ways, and each has its own place in the graph
where the walk goes on: the code comes to its end and the loop begins again at its header, or it leaves the loop
and the code behind the loop is next. Code and walk are compared with these two places in hand; the number of
blocks that the walk still has to pass bounds the rounds of a loop. -/
namespace Flowchart.Interpretation
variable {σ : Type} {I : Interpretation σ} {g : FlowGraph} {next exit current : Option String} {id : String}
  {b : Block} {stmts rest : List Code.Stmt} {m : Memory σ} {middle last : Ending σ} {n : Nat}

/-! Statements one after the other. -/

theorem Exec.append (first : I.Exec stmts m middle) (goes : middle.andThen (I.Exec rest) last) :
    I.Exec (stmts ++ rest) m last := by
  induction first with
  | nil => exact goes
  | action own ran _ ih => exact .action own ran (ih goes)
  | failed own ran =>
    cases goes
    exact .failed own ran
  | marker own _ ih => exact .marker own (ih goes)
  | leave =>
    cases goes
    exact .leave
  | branch chosen _ _ ih => exact .branch chosen (ih goes)
  | @branchEnd _ ending _ _ _ _ _ chosen ends =>
    cases ending with
    | done after => exact absurd rfl (ends after)
    | left after =>
      cases goes
      exact .branchEnd chosen ends
    | failed after =>
      cases goes
      exact .branchEnd chosen ends
  | loopDone ends _ ih => exact .loopDone ends (ih goes)
  | loopAgain again once _ _ ih => exact .loopAgain again once (ih goes)
  | loopLeft again once _ _ ih => exact .loopLeft again once (ih goes)
  | loopFailed again once =>
    cases goes
    exact .loopFailed again once
  | program _ ih =>
    have whole := ih goes
    rw [List.append_assoc] at whole
    exact .program whole

theorem Exec.split (ran : I.Exec (stmts ++ rest) m last) :
    ∃ middle, I.Exec stmts m middle ∧ middle.andThen (I.Exec rest) last := by
  generalize whole : stmts ++ rest = code at ran
  -- in every case either nothing of `stmts` is left, or its first statement is the one executed
  induction ran generalizing stmts with
  | nil =>
    obtain ⟨rfl, rfl⟩ := List.append_eq_nil_iff.1 whole
    exact ⟨_, .nil, .nil⟩
  | action own ran next ih =>
    rcases List.append_eq_cons_iff.1 whole with ⟨rfl, rfl⟩ | ⟨more, rfl, is⟩
    · exact ⟨_, .nil, .action own ran next⟩
    · obtain ⟨middle, first, goes⟩ := ih is.symm
      exact ⟨middle, .action own ran first, goes⟩
  | failed own ran =>
    rcases List.append_eq_cons_iff.1 whole with ⟨rfl, rfl⟩ | ⟨more, rfl, is⟩
    · exact ⟨_, .nil, .failed own ran⟩
    · exact ⟨_, .failed own ran, rfl⟩
  | marker own next ih =>
    rcases List.append_eq_cons_iff.1 whole with ⟨rfl, rfl⟩ | ⟨more, rfl, is⟩
    · exact ⟨_, .nil, .marker own next⟩
    · obtain ⟨middle, first, goes⟩ := ih is.symm
      exact ⟨middle, .marker own first, goes⟩
  | leave =>
    rcases List.append_eq_cons_iff.1 whole with ⟨rfl, rfl⟩ | ⟨more, rfl, is⟩
    · exact ⟨_, .nil, .leave⟩
    · exact ⟨_, .leave, rfl⟩
  | branch chosen next _ ih =>
    rcases List.append_eq_cons_iff.1 whole with ⟨rfl, rfl⟩ | ⟨more, rfl, is⟩
    · exact ⟨_, .nil, .branch chosen next⟩
    · obtain ⟨middle, first, goes⟩ := ih is.symm
      exact ⟨middle, .branch chosen first, goes⟩
  | @branchEnd _ ending _ _ _ _ _ chosen ends =>
    rcases List.append_eq_cons_iff.1 whole with ⟨rfl, rfl⟩ | ⟨more, rfl, is⟩
    · exact ⟨_, .nil, .branchEnd chosen ends⟩
    · refine ⟨_, .branchEnd chosen ends, ?_⟩
      cases ending with
      | done after => exact absurd rfl (ends after)
      | left after => rfl
      | failed after => rfl
  | loopDone ends next ih =>
    rcases List.append_eq_cons_iff.1 whole with ⟨rfl, rfl⟩ | ⟨more, rfl, is⟩
    · exact ⟨_, .nil, .loopDone ends next⟩
    · obtain ⟨middle, first, goes⟩ := ih is.symm
      exact ⟨middle, .loopDone ends first, goes⟩
  | loopAgain again once next _ ih =>
    rcases List.append_eq_cons_iff.1 whole with ⟨rfl, rfl⟩ | ⟨more, rfl, is⟩
    · exact ⟨_, .nil, .loopAgain again once next⟩
    · obtain ⟨middle, first, goes⟩ := ih whole
      exact ⟨middle, .loopAgain again once first, goes⟩
  | loopLeft again once next _ ih =>
    rcases List.append_eq_cons_iff.1 whole with ⟨rfl, rfl⟩ | ⟨more, rfl, is⟩
    · exact ⟨_, .nil, .loopLeft again once next⟩
    · obtain ⟨middle, first, goes⟩ := ih is.symm
      exact ⟨middle, .loopLeft again once first, goes⟩
  | loopFailed again once =>
    rcases List.append_eq_cons_iff.1 whole with ⟨rfl, rfl⟩ | ⟨more, rfl, is⟩
    · exact ⟨_, .nil, .loopFailed again once⟩
    · exact ⟨_, .loopFailed again once, rfl⟩
  | @program _ _ _ body _ inside ih =>
    rcases List.append_eq_cons_iff.1 whole with ⟨rfl, rfl⟩ | ⟨more, rfl, is⟩
    · exact ⟨_, .nil, .program inside⟩
    · obtain ⟨middle, first, goes⟩ := @ih (body ++ more) (by rw [List.append_assoc, is])
      exact ⟨middle, .program first, goes⟩

theorem exec_append :
    I.Exec (stmts ++ rest) m last ↔ ∃ middle, I.Exec stmts m middle ∧ middle.andThen (I.Exec rest) last := by
  constructor
  · exact Exec.split
  · rintro ⟨middle, first, goes⟩
    exact first.append goes

/-- A branch with code behind it is the chosen part with that code behind it. -/
theorem exec_branch_append {origin : Option Code.Origin} {test : Code.Expr} {body : List Code.Stmt}
    {orElse : Option (List Code.Stmt)} : I.Exec (.branch origin test body orElse :: rest) m last ↔
      I.Exec ((if I.holds test m.state then body else orElse.getD []) ++ rest) m last := by
  rw [exec_branch, exec_append]

theorem exec_leave {origin : Option Code.Origin} : I.Exec (.leave origin :: rest) m last ↔ last = .left m := by
  constructor
  · intro ran
    cases ran with
    | action own => simp [Code.Stmt.isAction] at own
    | failed own => simp [Code.Stmt.isAction] at own
    | marker mark => simp [Code.Stmt.isMarker] at mark
    | leave => rfl
  · rintro rfl
    exact .leave

/-- Executing the code does not leave the loop around it. -/
def Stays (I : Interpretation σ) (stmts : List Code.Stmt) : Prop :=
  ∀ m after, ¬I.Exec stmts m (.left after)

namespace Stays

theorem nil : I.Stays [] := by
  intro m after ran
  cases ran

theorem append (first : I.Stays stmts) (second : I.Stays rest) : I.Stays (stmts ++ rest) := by
  intro m after ran
  obtain ⟨middle, before, goes⟩ := ran.split
  cases middle with
  | done m' => exact second m' after goes
  | left m' => exact first m m' before
  | failed m' => cases goes

theorem plain (all : ∀ s ∈ stmts, s.isAction = true ∨ s.isMarker = true) : I.Stays stmts := by
  intro m after ran
  rw [← List.append_nil stmts, exec_perform all, andThen_exec_nil] at ran
  exact perform_ne_left stmts m after ran.symm

theorem branch {origin : Option Code.Origin} {test : Code.Expr} {thenPart : List Code.Stmt}
    {orElse : Option (List Code.Stmt)} (yes : I.Stays thenPart) (no : I.Stays (orElse.getD [])) :
    I.Stays [.branch origin test thenPart orElse] := by
  intro m after ran
  rw [exec_choice] at ran
  split at ran
  · exact yes m after ran
  · exact no m after ran

/-- A loop is left inside of itself at most. -/
theorem loop {origin : Option Code.Origin} {test : Code.Expr} {body : List Code.Stmt} :
    I.Stays [.loop origin test body] := by
  intro m after ran
  generalize code : [Code.Stmt.loop origin test body] = stmts at ran
  generalize ended : Ending.left after = last at ran
  induction ran with
  | action own => cases code; simp [Code.Stmt.isAction] at own
  | failed => cases ended
  | marker mark => cases code; simp [Code.Stmt.isMarker] at mark
  | loopDone _ next => cases code; cases ended; cases next
  | loopAgain _ _ _ _ ih => cases code; exact ih rfl ended
  | loopLeft _ _ next => cases code; cases ended; cases next
  | loopFailed => cases ended
  | _ => cases code

end Stays

/-! Code and the walk that goes on where it ends. -/

/-- How the walk goes on after code: from `next` where the code comes to its end, from `exit` where it leaves
the loop around it. It passes at most `n` blocks more. -/
def Resumes (I : Interpretation σ) (g : FlowGraph) (next exit : Option String) (n : Nat)
    (middle last : Ending σ) : Prop :=
  match middle with
  | .done m => ∃ j ≤ n, I.Walk g none j next m last
  | .left m => ∃ j ≤ n, I.Walk g none j exit m last
  | .failed m => last = .failed m

theorem Resumes.mono {k : Nat} (resumes : I.Resumes g next exit k middle last) (le : k ≤ n) :
    I.Resumes g next exit n middle last := by
  cases middle with
  | done m =>
    obtain ⟨j, bound, walk⟩ := resumes
    exact ⟨j, Nat.le_trans bound le, walk⟩
  | left m =>
    obtain ⟨j, bound, walk⟩ := resumes
    exact ⟨j, Nat.le_trans bound le, walk⟩
  | failed m => exact resumes

/-- From this memory on, executing the code and going on where it ends is the walk from `current`. -/
structure TracksAt (I : Interpretation σ) (g : FlowGraph) (next exit current : Option String)
    (stmts : List Code.Stmt) (m : Memory σ) : Prop where
  complete : ∀ n last, I.Walk g none n current m last →
    ∃ middle, I.Exec stmts m middle ∧ I.Resumes g next exit n middle last
  sound : ∀ n middle last, I.Exec stmts m middle → I.Resumes g next exit n middle last →
    ∃ n, I.Walk g none n current m last

/-- The same from every memory on. -/
def Tracks (I : Interpretation σ) (g : FlowGraph) (next exit current : Option String)
    (stmts : List Code.Stmt) : Prop :=
  ∀ m, I.TracksAt g next exit current stmts m

/-- The code passes a block: what is left of the walk then is shorter. -/
structure Passes (I : Interpretation σ) (g : FlowGraph) (next exit : Option String) (id : String)
    (stmts : List Code.Stmt) (m : Memory σ) : Prop where
  complete : ∀ n last, I.Walk g none n (some id) m last →
    ∃ middle, I.Exec stmts m middle ∧ ∃ k < n, I.Resumes g next exit k middle last
  sound : ∀ n middle last, I.Exec stmts m middle → I.Resumes g next exit n middle last →
    ∃ n, I.Walk g none n (some id) m last

theorem Passes.tracksAt (passes : I.Passes g next exit id stmts m) :
    I.TracksAt g next exit (some id) stmts m := by
  refine ⟨fun n last walk => ?_, passes.sound⟩
  obtain ⟨middle, ran, k, shorter, resumes⟩ := passes.complete n last walk
  exact ⟨middle, ran, resumes.mono (Nat.le_of_lt shorter)⟩

/-- Where the walk goes on anyway, no code is needed. -/
theorem tracks_nil : I.Tracks g next exit next [] := by
  intro m
  constructor
  · intro n last walk
    exact ⟨.done m, .nil, n, Nat.le_refl n, walk⟩
  · intro n middle last ran resumes
    cases exec_nil.1 ran
    obtain ⟨j, -, walk⟩ := resumes
    exact ⟨j, walk⟩

/-- The code of a block and then code that tracks the walk behind it. -/
theorem passes_block (found : g.block? id = some b) (known : b.content.isKnown = true)
    (runs : ∀ middle, I.Exec stmts m middle ↔ (I.effect g b m).andThen (I.Exec rest) middle)
    (after : I.Tracks g next exit (I.next? g b m) rest) : I.Passes g next exit id stmts m := by
  constructor
  · intro n last walk
    obtain ⟨k, rfl, goes⟩ := walk_count (by simp) found walk
    cases own : I.effect g b m with
    | done m' =>
      rw [own] at goes
      obtain ⟨middle, ran, resumes⟩ := (after m').complete k last goes
      exact ⟨middle, (runs middle).2 (by rwa [own]), k, Nat.lt_succ_self k, resumes⟩
    | left m' => exact absurd own effect_ne_left
    | failed m' =>
      rw [own] at goes
      exact ⟨.failed m', (runs _).2 (by rw [own]; rfl), k, Nat.lt_succ_self k, goes⟩
  · intro n middle last ran resumes
    rw [walk_block (by simp) found known]
    have ran := (runs middle).1 ran
    cases own : I.effect g b m with
    | done m' =>
      rw [own] at ran
      exact (after m').sound n middle last ran resumes
    | left m' => exact absurd own effect_ne_left
    | failed m' =>
      rw [own] at ran
      cases ran
      exact resumes

theorem tracks_straight (found : g.block? id = some b) (known : b.content.isKnown = true)
    (straight : b.content.isBranching = false) (after : I.Tracks g next exit (Run.next? g b none) rest) :
    I.Tracks g next exit (some id) (Code.blockStmts (Code.originOf g b.id) b.content ++ rest) := by
  intro m
  refine (passes_block found known (fun middle => exec_perform (blockStmts_plain _ _)) ?_).tracksAt
  rwa [next?, if_neg (by simp [straight])]

/-- A conditional is passed by the code of the answer that its test gives. -/
theorem passes_choice (found : g.block? id = some b) (branching : b.content.isBranching = true)
    (chosen : I.Tracks g next exit (Run.next? g b (some (I.test g b m))) stmts) :
    I.Passes g next exit id stmts m := by
  have runs (middle : Ending σ) : I.Exec stmts m middle ↔ (I.effect g b m).andThen (I.Exec stmts) middle := by
    rw [effect_branching branching]
    rfl
  refine passes_block found (known_of_branching branching) runs ?_
  rwa [next?_branching branching]

/-- Markers in front change nothing. -/
theorem Tracks.marked {marks : List Code.Stmt} (tracks : I.Tracks g next exit current stmts)
    (all : ∀ s ∈ marks, s.isMarker = true) : I.Tracks g next exit current (marks ++ stmts) := by
  intro m
  constructor
  · intro n last walk
    obtain ⟨middle, ran, resumes⟩ := (tracks m).complete n last walk
    exact ⟨middle, (exec_marks all).2 ran, resumes⟩
  · intro n middle last ran
    exact (tracks m).sound n middle last ((exec_marks all).1 ran)

/-- A branch with code behind it passes a conditional if each part with that code tracks its arrow. -/
theorem passes_branch {thenPart : List Code.Stmt} {orElse : Option (List Code.Stmt)}
    (found : g.block? id = some b) (branching : b.content.isBranching = true)
    (yes : I.Tracks g next exit (Run.next? g b (some true)) (thenPart ++ rest))
    (no : I.Tracks g next exit (Run.next? g b (some false)) (orElse.getD [] ++ rest)) :
    I.Passes g next exit id (.branch (Code.originOf g b.id) (Code.test (Code.originOf g b.id) b.content).2
      thenPart orElse :: rest) m := by
  have chosen : I.Passes g next exit id ((if I.test g b m then thenPart else orElse.getD []) ++ rest) m := by
    refine passes_choice found branching ?_
    cases I.test g b m with
    | true => exact yes
    | false => exact no
  constructor
  · intro n last walk
    obtain ⟨middle, ran, resumes⟩ := chosen.complete n last walk
    exact ⟨middle, exec_branch_append.2 ran, resumes⟩
  · intro n middle last ran
    exact chosen.sound n middle last (exec_branch_append.1 ran)

/-- A loop tracks the walk from its header. A round of it goes back to the header or leaves for `out`; the code
behind the loop goes on from there, and from the header where the test fails. -/
theorem tracks_loop {origin : Option Code.Origin} {test : Code.Expr} {inner : List Code.Stmt}
    {out : Option String}
    (around : ∀ m, I.holds test m.state = true → I.Passes g (some id) out id inner m)
    (finished : ∀ m, I.holds test m.state = false → I.TracksAt g next exit (some id) rest m)
    (behind : I.Tracks g next exit out rest) :
    I.Tracks g next exit (some id) (.loop origin test inner :: rest) := by
  intro m
  constructor
  · intro n last walk
    -- each round uses up blocks of the walk, so the rounds end with it
    induction n using Nat.strongRecOn generalizing m with
    | ind n ih =>
      cases turns : I.holds test m.state with
      | true =>
        obtain ⟨middle, once, k, shorter, resumes⟩ := (around m turns).complete n last walk
        cases middle with
        | done m' =>
          obtain ⟨j, le, walk⟩ := resumes
          obtain ⟨ending, ran, resumes⟩ := ih j (by omega) m' walk
          exact ⟨ending, .loopAgain turns once ran, resumes.mono (by omega)⟩
        | left m' =>
          obtain ⟨j, le, walk⟩ := resumes
          obtain ⟨ending, ran, resumes⟩ := (behind m').complete j last walk
          exact ⟨ending, .loopLeft turns once ran, resumes.mono (by omega)⟩
        | failed m' => exact ⟨.failed m', .loopFailed turns once, resumes⟩
      | false =>
        obtain ⟨ending, ran, resumes⟩ := (finished m turns).complete n last walk
        exact ⟨ending, .loopDone turns ran, resumes⟩
  · intro n middle last ran resumes
    generalize code : Code.Stmt.loop origin test inner :: rest = stmts at ran
    induction ran with
    | action own => cases code; simp [Code.Stmt.isAction] at own
    | failed own => cases code; simp [Code.Stmt.isAction] at own
    | marker mark => cases code; simp [Code.Stmt.isMarker] at mark
    | loopDone ends ran => cases code; exact (finished _ ends).sound n _ last ran resumes
    | @loopAgain m m' _ _ _ _ _ again once _ _ ih =>
      cases code
      obtain ⟨k, walk⟩ := ih resumes rfl
      exact (around m again).sound k _ last once ⟨k, Nat.le_refl k, walk⟩
    | @loopLeft m m' _ _ _ _ _ again once ran =>
      cases code
      obtain ⟨k, walk⟩ := (behind m').sound n _ last ran resumes
      exact (around m again).sound k _ last once ⟨k, Nat.le_refl k, walk⟩
    | loopFailed again once => cases code; exact (around _ again).sound n _ last once resumes
    | _ => cases code

/-- A loop around one choice of a conditional header, the other choice leading on. -/
theorem tracks_while {origin : Option Code.Origin} {test : Code.Expr} {inner : List Code.Stmt} (choice : Bool)
    (found : g.block? id = some b) (branching : b.content.isBranching = true)
    (tests : ∀ m, I.holds test m.state = (I.test g b m == choice))
    (inside : I.Tracks g (some id) (Run.next? g b (some !choice)) (Run.next? g b (some choice)) inner)
    (behind : I.Tracks g next exit (Run.next? g b (some !choice)) rest) :
    I.Tracks g next exit (some id) (.loop origin test inner :: rest) := by
  refine tracks_loop (fun m turns => ?_) (fun m ends => ?_) behind
  · rw [tests, beq_iff_eq] at turns
    refine passes_choice found branching ?_
    rwa [turns]
  · rw [tests, beq_eq_false_iff_ne] at ends
    refine (passes_choice found branching ?_).tracksAt
    rwa [Bool.eq_not.2 ends]

/-- A loop whose test always holds goes on with the loop around when it is left. -/
theorem tracks_forever {origin : Option Code.Origin} {inner : List Code.Stmt}
    (around : ∀ m, I.Passes g (some id) next id inner m) :
    I.Tracks g next exit (some id) [.loop origin (.truth origin true) inner] := by
  refine tracks_loop (fun m _ => around m) (fun m never => ?_) tracks_nil
  rw [I.always] at never
  cases never

/-! Leaving a loop. -/

/-- Walks from `beyond` and from `exit` have the same endings. There may be one block more to pass. -/
structure Agree (I : Interpretation σ) (g : FlowGraph) (beyond exit : Option String) : Prop where
  forth : ∀ n m last, I.Walk g none n beyond m last → ∃ j ≤ max n 1, I.Walk g none j exit m last
  back : ∀ n m last, I.Walk g none n exit m last → ∃ j, I.Walk g none j beyond m last

theorem agree_refl : I.Agree g exit exit :=
  ⟨fun n _ _ walk => ⟨n, Nat.le_max_left n 1, walk⟩, fun n _ _ walk => ⟨n, walk⟩⟩

/-- At the last block there is nothing more to do. -/
theorem agree_finish (found : g.block? id = some b) (finish : b.content.isFinish = true) :
    I.Agree g none (some id) := by
  have content : b.content = .finish := by
    cases content : b.content <;> simp_all [Content.isFinish]
  have own (m : Memory σ) : I.effect g b m = .done m := by
    rw [effect, content]
    rfl
  have ends (m : Memory σ) : I.next? g b m = none := by
    simp [next?, Run.next?, content, Content.isBranching, Content.isFinish]
  constructor
  · intro n m last walk
    refine ⟨1, Nat.le_max_right n 1, ?_⟩
    cases walk
    have rest : I.Walk g none 0 (I.next? g b m) m (.done m) := by
      rw [ends]
      exact .ended rfl
    exact .step (by simp) found (by rw [content]; rfl) (own m) rest
  · intro n m last walk
    obtain ⟨k, -, goes⟩ := walk_count (by simp) found walk
    rw [own, ends] at goes
    exact ⟨k, goes⟩

/-- Code that goes to the place behind the loop, and then leaves the loop. -/
theorem Tracks.leave {beyond other : Option String} {origin : Option Code.Origin}
    (tracks : I.Tracks g beyond other (some id) stmts) (stays : I.Stays stmts)
    (agrees : I.Agree g beyond exit) : I.Tracks g next exit (some id) (stmts ++ [.leave origin]) := by
  intro m
  constructor
  · intro n last walk
    have some_ : 1 ≤ n := by
      cases walk with
      | arrived here => cases here
      | step => omega
      | failed => omega
    obtain ⟨middle, ran, resumes⟩ := (tracks m).complete n last walk
    cases middle with
    | done m' =>
      obtain ⟨j, le, walk⟩ := resumes
      obtain ⟨k, le', walk⟩ := agrees.forth j m' last walk
      exact ⟨.left m', ran.append .leave, k, by omega, walk⟩
    | left m' => exact absurd ran (stays m m')
    | failed m' => exact ⟨.failed m', ran.append rfl, resumes⟩
  · intro n middle last ran resumes
    obtain ⟨first, before, goes⟩ := ran.split
    cases first with
    | done m' =>
      cases exec_leave.1 goes
      obtain ⟨j, -, walk⟩ := resumes
      obtain ⟨k, walk⟩ := agrees.back j m' last walk
      exact (tracks m).sound k _ last before ⟨k, Nat.le_refl k, walk⟩
    | left m' => exact absurd before (stays m m')
    | failed m' =>
      cases goes
      exact (tracks m).sound n _ last before resumes

/-- Outside of any loop, to track a walk is to follow it to its end. -/
theorem Tracks.follows (tracks : I.Tracks g none none current stmts) (stays : I.Stays stmts) :
    I.Follows g none current stmts := by
  intro m last
  constructor
  · intro ran
    cases last with
    | done m' => exact (tracks m).sound 0 _ _ ran ⟨0, Nat.le_refl 0, .ended rfl⟩
    | left m' => exact absurd ran (stays m m')
    | failed m' => exact (tracks m).sound 0 _ _ ran rfl
  · rintro ⟨n, walk⟩
    obtain ⟨middle, ran, resumes⟩ := (tracks m).complete n last walk
    cases middle with
    | done m' =>
      obtain ⟨j, -, walk⟩ := resumes
      cases walk
      exact ran
    | left m' => exact absurd ran (stays m m')
    | failed m' =>
      cases resumes
      exact ran

end Flowchart.Interpretation
