import Flowchart.Proofs.Failures
/-! How a run depends on its limit and on its inputs. A run that comes to its end is the same under every higher
limit and with more inputs behind those it was given, for it takes no more steps and reads no more inputs. The
steps are used up exactly when as many blocks as the limit allows were executed and another one is to come. -/
namespace Flowchart

/-- The state with more inputs behind those not read yet. -/
def State.followedBy (s : State) (more : List String) : State :=
  { s with inputs := s.inputs ++ more }

def Effect.followedBy (effect : Effect) (more : List String) : Effect :=
  { effect with state := effect.state.followedBy more }

namespace Run
variable {g : FlowGraph} {s : State} {b : Block} {effect : Effect} {limit count : Nat} {current : Option String}

theorem bound_followedBy {made : Except Error Binding} (done : bound s made = .ok effect) (more : List String) :
    bound (s.followedBy more) made = .ok (effect.followedBy more) := by
  obtain ⟨b, rfl, rfl⟩ := map_eq_ok done
  rfl

/-- A block that succeeds reads no input behind those that are there. -/
theorem execute_followedBy (done : execute s b = .ok effect) (more : List String) :
    execute (s.followedBy more) b = .ok (effect.followedBy more) := by
  unfold execute at done ⊢
  split at done
  · cases done; rfl
  · cases done; rfl
  · exact bound_followedBy done more
  · exact bound_followedBy done more
  · split at done
    · cases done
    · next text rest pending =>
      simp only [State.followedBy, pending, List.cons_append]
      split at done
      · cases done
      · exact bound_followedBy done more
  · split at done
    · next empty =>
      cases done
      simp only [empty, ↓reduceIte]
      rfl
    · next full =>
      obtain ⟨v, made, rfl⟩ := map_eq_ok done
      simp only [State.followedBy, full, made]
      rfl
  · cases done; rfl
  · obtain ⟨choice, made, rfl⟩ := map_eq_ok done
    simp only [State.followedBy, made]
    rfl
  · cases done
  · cases done
  · cases done; rfl

theorem executeNotes_followedBy (done : execute s b = .ok effect) (more : List String) :
    executeNotes (s.followedBy more) b = executeNotes s b := by
  unfold executeNotes
  split
  · rfl
  · next v is =>
    -- without an input there is nothing to note and no success
    cases pending : s.inputs with
    | nil =>
      rw [execute, is, pending] at done
      cases done
    | cons text rest => simp only [State.followedBy, pending, List.cons_append]
  · rfl
  · rfl
  · rfl

/-! One step of a run: there is no block, or it fails, or the run goes on behind it. -/

section Step
variable (limit count) {id : String}

theorem walk_of_missing (missing : g.block? id = none) :
    walk g (limit + 1) count s (some id) = ⟨[], none, [.finished count]⟩ := by
  rw [walk, missing]

theorem walk_of_failed {e : Error} (found : g.block? id = some b) (failed : execute s b = .error e) :
    walk g (limit + 1) count s (some id) = ⟨[], some e, executeNotes s b⟩ := by
  rw [walk, found]
  simp only [failed]

theorem walk_of_done (found : g.block? id = some b) (done : execute s b = .ok effect) :
    walk g (limit + 1) count s (some id) =
      ⟨⟨id, b.kind, effect.state.store, effect.output⟩ ::
          (walk g limit (count + 1) effect.state (next? g b effect.choice)).steps,
        (walk g limit (count + 1) effect.state (next? g b effect.choice)).stopped,
        executeNotes s b ++ (walk g limit (count + 1) effect.state (next? g b effect.choice)).notes⟩ := by
  rw [walk, found]
  simp only [done]

end Step

/-- What one step keeps, a run keeps: it is the same under a higher limit and with more inputs. -/
theorem walk_followedBy (ended : (walk g limit count s current).stopped = none) {limit' : Nat}
    (enough : limit ≤ limit') (more : List String) :
    walk g limit' count (s.followedBy more) current = walk g limit count s current := by
  induction limit generalizing count s current limit' with
  | zero =>
    cases current with
    | none => cases limit' <;> rfl
    | some id => cases ended
  | succ limit ih =>
    cases current with
    | none => cases limit' <;> rfl
    | some id =>
      obtain ⟨limit', rfl⟩ : ∃ n, limit' = n + 1 := ⟨limit' - 1, by omega⟩
      cases found : g.block? id with
      | none => rw [walk_of_missing _ _ found, walk_of_missing _ _ found]
      | some b =>
        cases done : execute s b with
        | error e =>
          rw [walk_of_failed _ _ found done] at ended
          cases ended
        | ok effect =>
          rw [walk_of_done _ _ found done] at ended
          rw [walk_of_done _ _ found done, walk_of_done _ _ found (execute_followedBy done more),
            executeNotes_followedBy done more]
          simp only [Effect.followedBy, ih ended (Nat.le_of_succ_le_succ enough)]
          rfl

theorem length_steps_walk_le (g : FlowGraph) (limit count : Nat) (s : State) (current : Option String) :
    (walk g limit count s current).steps.length ≤ limit := by
  induction limit generalizing count s current with
  | zero => cases current <;> simp [walk]
  | succ limit ih =>
    cases current with
    | none => simp [walk]
    | some id =>
      cases found : g.block? id with
      | none => simp [walk_of_missing _ _ found]
      | some b =>
        cases done : execute s b with
        | error e => simp [walk_of_failed _ _ found done]
        | ok effect => simpa [walk_of_done _ _ found done] using ih _ _ _

/-- So many blocks are executed one after the other, all of them with success. The run stands in one state before
one block at first, and in another state before another block then; there is none where the run has stopped. -/
inductive Executes (g : FlowGraph) : Nat → State → Option String → State → Option String → Prop where
  | stay (s : State) (current : Option String) : Executes g 0 s current s current
  | step {n : Nat} {s t : State} {id : String} {b : Block} {effect : Effect} {last : Option String}
      (found : g.block? id = some b) (done : execute s b = .ok effect)
      (rest : Executes g n effect.state (next? g b effect.choice) t last) : Executes g (n + 1) s (some id) t last

theorem executes_succ_iff {n : Nat} {t : State} {id : String} {last : Option String} :
    Executes g (n + 1) s (some id) t last ↔ ∃ b effect, g.block? id = some b ∧ execute s b = .ok effect ∧
      Executes g n effect.state (next? g b effect.choice) t last := by
  constructor
  · rintro ⟨⟩
    exact ⟨_, _, ‹_›, ‹_›, ‹_›⟩
  · rintro ⟨b, effect, found, done, rest⟩
    exact .step found done rest

/-- A run goes on where the executed blocks have brought it. -/
theorem Executes.stopped_walk {n : Nat} {t : State} {last : Option String} (executes : Executes g n s current t last)
    (limit count : Nat) :
    (walk g (limit + n) count s current).stopped = (walk g limit (count + n) t last).stopped := by
  induction executes generalizing count with
  | stay s current => rfl
  | step found done rest ih =>
    rw [← Nat.add_assoc, walk_of_done _ _ found done, Nat.add_left_comm, Nat.add_comm _ (count + 1)]
    exact ih (count + 1)

/-- The steps are used up exactly when there was a success for each of them and another block is to come. -/
theorem walk_stopped_stepLimit (sound : s.store.Sound) (written : s.store.IsOf (Block.written g.blocks)) :
    (walk g limit count s current).stopped = some .stepLimit ↔ ∃ t id, Executes g limit s current t (some id) := by
  induction limit generalizing count s current with
  | zero =>
    cases current with
    | none =>
      refine ⟨nofun, ?_⟩
      rintro ⟨t, id, ⟨⟩⟩
    | some id => exact ⟨fun _ => ⟨s, id, .stay s (some id)⟩, fun _ => rfl⟩
  | succ limit ih =>
    cases current with
    | none =>
      refine ⟨nofun, ?_⟩
      rintro ⟨t, id, ⟨⟩⟩
    | some id =>
      simp only [executes_succ_iff]
      cases found : g.block? id with
      | none => simp [walk_of_missing _ _ found]
      | some b =>
        have writes (v : Variable) (is : b.content.written? = some v) : v ∈ Block.written g.blocks :=
          List.mem_filterMap.2 ⟨b, List.mem_of_find?_eq_some found, is⟩
        cases done : execute s b with
        | error e =>
          -- a block does not fail for want of steps
          have other : e ≠ .stepLimit := by
            rintro rfl
            rcases failsAs_execute sound written writes _ done with told | untold
            · cases told
            · cases untold
          simp [walk_of_failed _ _ found done, done, other]
        | ok effect =>
          rw [walk_of_done _ _ found done]
          simp [done, ih (execute_sound sound done) (execute_isOf written writes done)]

theorem finished_eq_ok {r r' : Run} : r.finished = .ok r' ↔ r.stopped = none ∧ r = r' := by
  unfold finished
  cases r.stopped <;> simp

theorem finished_eq_error {r : Run} {e : Error} : r.finished = .error e ↔ r.stopped = some e := by
  unfold finished
  cases r.stopped <;> simp

theorem ofGraph_followedBy {inputs : List String} {limit limit' : Int}
    (ended : (ofGraph g inputs limit).stopped = none) (enough : limit ≤ limit') (more : List String) :
    ofGraph g (inputs ++ more) limit' = ofGraph g inputs limit := by
  unfold ofGraph at ended ⊢
  cases found : g.start? with
  | none => rfl
  | some start =>
    rw [found] at ended
    exact walk_followedBy ended (by omega) more

theorem length_steps_ofGraph_le {inputs : List String} {limit : Int}
    (ended : (ofGraph g inputs limit).stopped = none) : (ofGraph g inputs limit).steps.length ≤ limit := by
  unfold ofGraph at ended ⊢
  cases found : g.start? with
  | none =>
    rw [found] at ended
    cases ended
  | some start =>
    rw [found] at ended
    have bounded := length_steps_walk_le g limit.toNat 0 ⟨.empty, inputs⟩ (some start)
    -- without a step to take, no run comes to its end
    have positive : limit.toNat ≠ 0 := by
      intro zero
      simp only [zero] at ended
      cases ended
    simp only
    omega

end Run

namespace Diagram

/-- A run that comes to its end is stable, and the limit is exact. Under every higher limit and with more inputs
behind those given, the run has the same steps, hence the same outputs and the same store, and it has at most as
many steps as its limit allows. The steps are used up exactly when so many blocks were executed with success and
another one is to come. -/
theorem run_stable_within_exact_limit (d : Diagram) (inputs : List String) (limit : Int) :
    (∀ r, (d.run inputs limit).finished = .ok r → r.steps.length ≤ limit ∧
      ∀ limit' more, limit ≤ limit' → (d.run (inputs ++ more) limit').finished = .ok r) ∧
    ((d.run inputs limit).finished = .error .stepLimit ↔
      ∃ start t id, d.flowGraph.start? = some start ∧
        Run.Executes d.flowGraph limit.toNat ⟨.empty, inputs⟩ (some start) t (some id)) := by
  constructor
  · intro r finished
    obtain ⟨ended, rfl⟩ := Run.finished_eq_ok.1 finished
    refine ⟨Run.length_steps_ofGraph_le ended, ?_⟩
    intro limit' more enough
    have same : d.run (inputs ++ more) limit' = d.run inputs limit :=
      congrArg _ (Run.ofGraph_followedBy ended enough more)
    rw [same]
    exact finished
  · rw [Run.finished_eq_error]
    change (Run.ofGraph d.flowGraph inputs limit).stopped = _ ↔ _
    unfold Run.ofGraph
    cases d.flowGraph.start? with
    | none => simp
    | some start =>
      have written : Store.empty.IsOf (Block.written d.flowGraph.blocks) := nofun
      simpa using Run.walk_stopped_stepLimit (s := ⟨.empty, inputs⟩) Store.sound_empty written

/-- A text from the keyboard. -/
def word : Variable :=
  .make "w" .string "word" none none none []

/-- Reads a text and prints it. -/
def echo : Diagram where
  blocks := [⟨"s", none, .start⟩, ⟨"i", none, .input (some word)⟩,
    ⟨"o", none, .output (some (.value [.attached "x" word]))⟩]
  arrows := [⟨"s", "i", none, none⟩, ⟨"i", "o", none, none⟩]

theorem assign_reading_word :
    (Run.reading word (.text "yes")).assign .empty = .ok ⟨word, .text "yes"⟩ := by
  have read : Term.parse [.literal "input" "\"yes\""] = .ok (.literal (.text "yes") .string) :=
    Term.parse_literal ..
  have valued : evaluateElements .empty [.literal "input" "\"yes\""] = .ok ⟨.text "yes", some .string⟩ := by
    simp only [evaluateElements, read]
    rw [Eval.evaluate]
  have fitted : calculate .empty [.literal "input" "\"yes\""] (some .string) none = .ok (.text "yes") := by
    simp only [calculate, valued]
    rfl
  change (calculate .empty [.literal "input" "\"yes\""] (some .string) none).map _ = _
  rw [fitted]
  rfl

theorem execute_printing_word :
    Run.execute ⟨⟨[⟨word, .text "yes"⟩]⟩, []⟩ ⟨"o", none, .output (some (.value [.attached "x" word]))⟩ =
      .ok ⟨⟨⟨[⟨word, .text "yes"⟩]⟩, []⟩, some "yes", none⟩ := by
  have valued : evaluateElements ⟨[⟨word, .text "yes"⟩]⟩ [.attached "x" word] = .ok ⟨.text "yes", some .string⟩ := by
    rw [evaluateElements, Term.parse_attached]
    change Eval.evaluate _ (.named "word" word) = _
    rw [Eval.evaluate]
    rfl
  change (calculate _ [.attached "x" word] none none).map _ = _
  simp only [calculate, valued]
  rfl

/-- Two blocks succeed before the third. -/
theorem executes_echo : Run.Executes echo.flowGraph 2 ⟨.empty, ["yes"]⟩ (some "s")
    ⟨⟨[⟨word, .text "yes"⟩]⟩, []⟩ (some "o") := by
  have asked : Run.execute ⟨.empty, ["yes"]⟩ ⟨"i", none, .input (some word)⟩ =
      .ok ⟨⟨⟨[⟨word, .text "yes"⟩]⟩, []⟩, none, none⟩ := by
    change Run.bound _ ((Run.reading word (.text "yes")).assign .empty) = _
    rw [assign_reading_word]
    rfl
  exact .step rfl rfl (.step rfl asked (.stay _ _))

/-- Three steps are enough and two are not. -/
theorem run_stable_within_limit_of_echo :
    ((echo.run ["yes"] 3).finished = .ok (echo.run ["yes"] 3) ∧
      ∀ limit' more, 3 ≤ limit' → (echo.run (["yes"] ++ more) limit').finished = .ok (echo.run ["yes"] 3)) ∧
    (∃ start t id, echo.flowGraph.start? = some start ∧
      Run.Executes echo.flowGraph 2 ⟨.empty, ["yes"]⟩ (some start) t (some id)) ∧
    (echo.run ["yes"] 2).finished = .error .stepLimit := by
  have ended : (echo.run ["yes"] 3).stopped = none := by
    change (Run.walk echo.flowGraph (1 + 2) 0 ⟨.empty, ["yes"]⟩ (some "s")).stopped = none
    rw [executes_echo.stopped_walk, Run.walk_of_done _ _ rfl execute_printing_word]
    rfl
  have finished := Run.finished_eq_ok.2 ⟨ended, rfl⟩
  have short : ∃ start t id, echo.flowGraph.start? = some start ∧
      Run.Executes echo.flowGraph 2 ⟨.empty, ["yes"]⟩ (some start) t (some id) :=
    ⟨"s", _, "o", rfl, executes_echo⟩
  exact ⟨⟨finished, ((run_stable_within_exact_limit echo ["yes"] 3).1 _ finished).2⟩, short,
    (run_stable_within_exact_limit echo ["yes"] 2).2.2 short⟩

end Diagram

end Flowchart
