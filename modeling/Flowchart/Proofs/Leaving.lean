import Flowchart.Proofs.Coverage
import Flowchart.Proofs.Escapes
import Flowchart.Proofs.Resuming
/-! Structured code keeps the behaviour of a diagram whose loops are left from inside, where nothing is left to
do behind them. The code of every place tracks the walk from there. An arrow out of a loop goes to the place
behind the loop, and the code in front of leaving the loop is that of what lies ahead of the arrow. -/
namespace Flowchart

theorem Plan.ownStmts_of_known {p : Plan} {b : Block} (known : b.content.isKnown = true) :
    p.ownStmts b = p.blockStmts b := by
  rcases p.ownStmts_cases b with ⟨type, content, -⟩ | is
  · simp [content, Content.isKnown] at known
  · exact is

namespace FlowGraph

variable {σ : Type} {I : Interpretation σ} {g : FlowGraph} {active visited : List String}
  {inLoop around exit : Option String} {place : Place} {stmts : List Code.Stmt} {id next : String} {b : Block}
  {l : Loop} {e : Arrow}

/-- Back at the header of the loop around, there is no code. -/
theorem Lowers.eq_nil (lowers : g.Lowers active visited inLoop (.block (some id)) stmts)
    (again : g.Again active around id) : stmts = [] := by
  obtain ⟨-, busy, l, member, header⟩ := again
  cases lowers with
  | deferred | again | met => rfl
  | straight _ plain => exact absurd header (plain l member)
  | merge _ plain => exact absurd header (plain l member)
  | parting _ plain => exact absurd header (plain l member)
  | forever _ _ _ _ idle => exact absurd busy idle
  | turning _ _ _ _ _ idle => exact absurd busy idle
  | choosing _ _ _ _ idle => exact absurd busy idle

/-- The statements come from blocks that lie ahead of the given one, or from itself. -/
def Ahead (g : FlowGraph) (id : String) (stmts : List Code.Stmt) : Prop :=
  ∀ s ∈ stmts, ∃ x, s.origin = g.plan.origin x ∧ Relation.ReflTransGen g.Forward id x

namespace Ahead
variable {more : List Code.Stmt}

theorem nil : g.Ahead id [] := by
  intro s member
  cases member

theorem append (first : g.Ahead id stmts) (second : g.Ahead id more) : g.Ahead id (stmts ++ more) := by
  intro s member
  rcases List.mem_append.1 member with before | later
  · exact first s before
  · exact second s later

theorem makes (own : ∀ s ∈ stmts, g.plan.Makes b s) : g.Ahead b.id stmts :=
  fun s member => ⟨b.id, (own s member).origin, .refl⟩

theorem single {s : Code.Stmt} (own : g.plan.Makes b s) : g.Ahead b.id [s] :=
  .makes (by simpa using own)

theorem marks : g.Ahead b.id (Code.test (g.plan.origin b.id) b.content).1 :=
  .makes fun _ => .mark

theorem onward (ahead : g.Ahead next stmts) (path : Relation.ReflTransGen g.Forward id next) :
    g.Ahead id stmts := by
  intro s member
  obtain ⟨x, origin, later⟩ := ahead s member
  exact ⟨x, origin, path.trans later⟩

end Ahead

/-- The code from a block on comes from what lies ahead of it. -/
theorem ahead_of_lowers (rejoining : g.Rejoining) (lowers : g.Lowers active visited inLoop place stmts)
    (is : place = .block (some id)) (comes : g.Comes active visited inLoop around id) : g.Ahead id stmts := by
  induction lowers generalizing id with
  | nothing | deferred | again | met => exact .nil
  | noArrow | onward | exit => cases is
  | @straight _ _ _ b rest listed plain noTest after ih =>
    cases is
    have stands := Comes.stands comes plain
    have own : g.Ahead b.id (g.plan.ownStmts b) := by
      rcases g.plan.ownStmts_cases b with ⟨type, content, made⟩ | made
      · rw [made]
        exact .single (.unknown content)
      · rw [made]
        exact .makes fun s => .own
    refine own.append ?_
    cases first : (g.successors b.id).head? with
    | none =>
      rw [first] at after
      cases after
      exact .nil
    | some next =>
      rcases stands.onward_straight rejoining listed plain noTest (List.mem_of_mem_head? first) with
        again | ⟨forward, later⟩
      · rw [first] at after
        rw [after.eq_nil again]
        exact .nil
      · exact (ih (congrArg _ first) (.inr later)).onward (.single forward)
  | @merge _ _ _ b yes no next onward rest listed plain branching yesIs noIs merges goes after ih =>
    cases is
    have stands := Comes.stands comes plain
    refine (Ahead.marks.append (.single (.branch _ _ _))).append ?_
    rcases goes with rfl | ⟨rfl, -⟩
    · rcases stands.onward_merge rejoining plain yesIs noIs merges with again | ⟨path, later⟩
      · rw [after.eq_nil again]
        exact .nil
      · exact (ih rfl (.inr later)).onward path
    · cases after
      exact .nil
  | parting =>
    cases is
    exact Ahead.marks.append (.single (.branch _ _ _))
  | forever =>
    cases is
    exact .single (.loop _ _)
  | choosing =>
    cases is
    exact Ahead.marks.append (.single (.loop _ _))
  | @turning _ _ _ l b turn stays body rest member listed header outer idle branching staysIs inside outside
      after behind ih ihBehind =>
    cases is
    have stands := comes.resolve_left fun again => idle again.busy
    refine Ahead.marks.append ((Ahead.single (.loop _ _)).append ?_)
    cases found : g.branch? b.id (answer !turn) with
    | none =>
      rw [found] at behind
      cases behind
      exact .nil
    | some e =>
      have step := target_mem_successors (branch?_eq_some found).1
      rw [found] at behind
      rw [header] at stands step behind ⊢
      rcases stands.onward_header rejoining member step (outside e found) with again | ⟨forward, later⟩
      · rw [behind.eq_nil again]
        exact .nil
      · exact (ihBehind (by rw [found]; rfl) (.inr (header ▸ later))).onward (.single forward)

/-- Code that is made outside of any loop does not leave one. -/
theorem stays_of_lowers (I : Interpretation σ) (lowers : g.Lowers active visited inLoop place stmts)
    (outside : inLoop = none) : I.Stays stmts := by
  have marks (b : Block) : I.Stays (Code.test (g.plan.origin b.id) b.content).1 :=
    .plain fun s mark => .inr (Interpretation.test_marks _ _ s mark)
  have part (id : String) : I.Stays (g.plan.stmtsAt id) := by
    rw [Plan.stmtsAt]
    cases g.plan.graph.block? id with
    | none => exact .nil
    | some b => exact .plain (Interpretation.blockStmts_plain _ _)
  induction lowers with
  | nothing | deferred | again | met | noArrow => exact .nil
  | @straight _ _ _ b rest listed plain noTest after ih =>
    refine .append ?_ (ih outside)
    rcases g.plan.ownStmts_cases b with ⟨type, -, made⟩ | made
    · rw [made]
      exact .plain (by simp [Code.Stmt.isMarker])
    · rw [made]
      exact .plain (Interpretation.blockStmts_plain _ _)
  | merge _ _ _ _ _ _ _ _ ih =>
    refine .append (.append (marks _) (.branch (part _) ?_)) (ih outside)
    exact part _
  | parting _ _ _ _ _ ihYes ihNo => exact (marks _).append (.branch (ihYes outside) (ihNo outside))
  | onward _ _ ih => exact ih outside
  | exit => cases outside
  | forever => exact .loop
  | turning _ _ _ _ _ _ _ _ _ _ _ _ _ ihBehind =>
    exact (marks _).append (Interpretation.Stays.loop.append (ihBehind outside))
  | choosing => exact (marks _).append .loop

/-! The code tracks the walk. -/

/-- The loop is seen to be left where no block that the code ends with leads back into it. -/
theorem leaves_lastId {body : List String} {target : String}
    (first : stmts = [] → ∀ next ∈ g.successors target, next ∉ body)
    (later : ∀ s ∈ stmts, ∃ x, s.origin = g.plan.origin x ∧ ∀ next ∈ g.successors x, next ∉ body) :
    g.plan.leaves body (Plan.lastId stmts target) = true := by
  have all {x : String} (apart : ∀ next ∈ g.successors x, next ∉ body) :
      g.plan.leaves body (some x) = true := by
    refine List.all_eq_true.2 fun next step => ?_
    simpa using apart next step
  unfold Plan.lastId
  cases last : stmts.getLast? with
  | none => exact all (first (List.getLast?_eq_none_iff.1 last))
  | some s =>
    obtain ⟨x, origin, apart⟩ := later s (List.mem_of_getLast? last)
    simp only [origin, Plan.origin, Code.originOf]
    exact all apart

/-- Behind an arrow out of the loop stands the code of what lies ahead, and then the loop is left. -/
theorem tracks_exit (rejoining : g.Rejoining) {origin : Option Code.Origin}
    (stands : g.Stands active visited inLoop around e.source) (escapes : g.Escapes l e) (fits : g.Fits l exit)
    (after : g.Lowers active (e.source :: visited) none (.block (some e.target)) stmts)
    (tracks : ∀ beyond, g.Comes active (e.source :: visited) none beyond e.target →
      I.Tracks g beyond none (some e.target) stmts) :
    I.Tracks g around exit (some e.target) (stmts ++
      if g.plan.leaves l.body (Plan.lastId stmts e.target) then [.leave origin] else []) := by
  have stays := stays_of_lowers I after rfl
  have away {beyond : Option String} (comes : g.Comes active (e.source :: visited) none beyond e.target)
      (forward : g.Forward e.source e.target) : g.plan.leaves l.body (Plan.lastId stmts e.target) = true := by
    have apart {x : String} (ahead : Relation.ReflTransGen g.Forward e.target x) :
        ∀ next ∈ g.successors x, next ∉ l.body :=
      fun next => escapes.not_mem_of_ahead rejoining.acyclic forward ahead
    refine leaves_lastId (fun _ => apart .refl) fun s own => ?_
    obtain ⟨x, origin, ahead⟩ := ahead_of_lowers rejoining after rfl comes s own
    exact ⟨x, origin, apart ahead⟩
  obtain ⟨finished, back⟩ := fits e escapes
  rcases rejoining.rejoins l e escapes with finishes | ⟨outer, returns⟩
  · have comes : g.Comes active (e.source :: visited) none none e.target :=
      .inr (stands.finish rejoining.acyclic escapes finishes)
    rw [if_pos (away comes (finishes.forward escapes))]
    refine (tracks none comes).leave stays ?_
    rcases finished finishes with rfl | ⟨id, b, rfl, found, finish⟩
    · exact Interpretation.agree_refl
    · exact Interpretation.agree_finish found finish
  · have comes := stands.leave rejoining.acyclic escapes returns
    have leaves : g.plan.leaves l.body (Plan.lastId stmts e.target) = true := by
      by_cases direct : e.target = outer.header
      · have opened := stands.opened outer returns.member (returns.source_mem escapes)
          (returns.source_ne escapes)
        have again : g.Again active (some outer.header) e.target :=
          ⟨congrArg some direct.symm, direct ▸ opened, outer, returns.member, direct.symm⟩
        refine leaves_lastId (fun _ => ?_) (by simp [after.eq_nil again])
        rw [direct]
        exact returns.direct direct
      · exact away comes (returns.forward escapes direct)
    rw [if_pos leaves, back outer returns]
    exact (tracks _ comes).leave stays Interpretation.agree_refl

theorem Tidy.next?_straight (tidy : g.Tidy) (listed : b ∈ g.blocks) (live : g.Reachable b.id) :
    Run.next? g b none = (g.successors b.id).head? := by
  cases finish : b.content.isFinish with
  | true => simp [Run.next?, finish, tidy.successors_of_finish (block?_of_mem listed) live finish]
  | false => simp [Run.next?, finish]

theorem tracks_straight (rejoining : g.Rejoining) (listed : b ∈ g.blocks) (live : g.Reachable b.id)
    (noTest : b.content.isBranching = false) {rest : List Code.Stmt}
    (after : I.Tracks g around exit (g.successors b.id).head? rest) :
    I.Tracks g around exit (some b.id) (g.plan.blockStmts b ++ rest) := by
  rw [← rejoining.toTidy.next?_straight listed live] at after
  exact Interpretation.tracks_straight (block?_of_mem listed) (rejoining.known b listed live) noTest after

/-- A straight block that two branches meet behind, and the code of that place. -/
theorem tracks_stmtsAt (rejoining : g.Rejoining) (live : g.Reachable id)
    (straight : g.plan.isStraight id = true) (first : (g.successors id).head? = some next)
    {rest : List Code.Stmt}
    (behind : I.Tracks g around exit (some next) rest) :
    I.Tracks g around exit (some id) (g.plan.stmtsAt id ++ rest) := by
  obtain ⟨b, listed, rfl, -, noTest⟩ := exists_straight straight
  rw [stmtsAt_of_mem listed]
  refine tracks_straight rejoining listed live noTest ?_
  rwa [first]

/-- Inside of a loop there is a next block. -/
theorem Stands.around_eq_none (stands : g.Stands active visited inLoop around id)
    (last : g.successors id = []) : around = none := by
  by_contra inside
  obtain ⟨h, is⟩ := Option.ne_none_iff_exists'.1 inside
  obtain ⟨l, member, -, within⟩ := stands.within h is
  obtain ⟨next, step, -⟩ := exists_next_inside member within
  rw [last] at step
  cases step

/-- Inside of a loop a conditional has both its arrows. -/
theorem Rejoining.exists_branch (rejoining : g.Rejoining) (member : l ∈ g.loops (.ofGraph g))
    (listed : b ∈ g.blocks) (inside : b.id ∈ l.body) (branching : b.content.isBranching = true) (yes : Bool) :
    ∃ e, g.branch? b.id (answer yes) = some e := by
  obtain ⟨⟨e, out, label⟩, e', out', label'⟩ := rejoining.complete l member b listed inside branching
  cases yes with
  | true => exact FlowGraph.exists_branch out label
  | false => exact FlowGraph.exists_branch out' label'

theorem Stands.around_eq_none_of_branch (rejoining : g.Rejoining)
    (stands : g.Stands active visited inLoop around b.id) (listed : b ∈ g.blocks)
    (branching : b.content.isBranching = true) {yes : Bool} (last : g.branch? b.id (answer yes) = none) :
    around = none := by
  by_contra inside
  obtain ⟨h, is⟩ := Option.ne_none_iff_exists'.1 inside
  obtain ⟨l, member, -, within⟩ := stands.within h is
  obtain ⟨e, found⟩ := rejoining.exists_branch member listed within branching yes
  rw [last] at found
  cases found

/-! The header of a loop. -/

section Header
variable (member : l ∈ g.loops (.ofGraph g)) (header : b.id = l.header)
include member header

theorem Stands.comes_inside (rejoining : g.Rejoining) (stands : g.Stands active visited inLoop around b.id)
    (step : next ∈ g.successors b.id) (inside : next ∈ l.body) :
    (Place.block (some next)).Comes g (b.id :: active) [] (some b.id) (some b.id) := by
  rw [header] at stands step ⊢
  exact stands.enter rejoining.acyclic member step inside

theorem Stands.comes_behind (rejoining : g.Rejoining) (stands : g.Stands active visited inLoop around b.id)
    {label : String} (outside : e.target ∉ l.body) (is : g.branch? b.id label = some e) :
    (Place.block ((g.branch? b.id label).map Arrow.target)).Comes g (b.id :: active) visited inLoop around := by
  have step := target_mem_successors (branch?_eq_some is).1
  rw [is]
  rw [header] at stands step ⊢
  exact (stands.onward_header rejoining member step outside).imp_right And.right

theorem fits_inside (fits : g.Fits l exit) :
    ∀ l' ∈ g.loops (.ofGraph g), some b.id = some l'.header → g.Fits l' exit := by
  intro l' member' is
  rwa [loop_eq member' member ((Option.some.inj is).symm.trans header)]

end Header

theorem holds_loopTest (turn : Bool) (m : Memory σ) :
    I.holds (g.plan.loopTest b turn) m.state = (I.test g b m == turn) := by
  cases turn with
  | true =>
    rw [beq_true]
    rfl
  | false =>
    rw [beq_false]
    exact I.negated _ _ _

theorem next?_answer (yes : Bool) :
    Run.next? g b (some yes) = (g.branch? b.id (answer yes)).map Arrow.target :=
  rfl

/-- From every place on, the code tracks the walk. -/
theorem tracks_of_lowers (rejoining : g.Rejoining) (I : Interpretation σ)
    (lowers : g.Lowers active visited inLoop place stmts) (comes : place.Comes g active visited inLoop around)
    (fits : ∀ l ∈ g.loops (.ofGraph g), inLoop = some l.header → g.Fits l exit) :
    I.Tracks g around exit place.target stmts := by
  induction lowers generalizing around exit with
  | nothing =>
    cases comes
    exact Interpretation.tracks_nil
  | noArrow =>
    cases comes.2.2.1 rfl
    exact Interpretation.tracks_nil
  | deferred inner =>
    rcases comes with ⟨rfl, -⟩ | stands
    · exact Interpretation.tracks_nil
    · exact absurd inner stands.not_inner
  | again member busy =>
    rcases comes with ⟨rfl, -⟩ | stands
    · exact Interpretation.tracks_nil
    · rcases busy with here | old
      · exact absurd (stands.around_eq here) stands.apart
      · exact absurd (List.mem_append_left _ old) stands.new
  | met old =>
    rcases comes with ⟨rfl, -⟩ | stands
    · exact Interpretation.tracks_nil
    · exact absurd (List.mem_append_right _ old) stands.new
  | @straight active visited inLoop b rest listed plain noTest after ih =>
    have stands := Comes.stands comes plain
    rw [Plan.ownStmts_of_known (rejoining.known b listed stands.live)]
    refine tracks_straight rejoining listed stands.live noTest (ih ?_ fits)
    cases first : (g.successors b.id).head? with
    | none => exact stands.around_eq_none (List.head?_eq_none_iff.1 first)
    | some next =>
      have step := List.mem_of_mem_head? first
      exact (stands.onward_straight rejoining listed plain noTest step).imp_right And.right
  | @merge active visited inLoop b yes no next onward rest listed plain branching yesIs noIs merges goes
      after ih =>
    have stands := Comes.stands comes plain
    have behind : I.Tracks g around exit (some next) rest := by
      have meets := stands.onward_merge rejoining plain yesIs noIs merges
      rcases goes with rfl | ⟨rfl, old⟩
      · exact ih (meets.imp_right And.right) fits
      · cases after
        rcases meets with ⟨rfl, -⟩ | ⟨-, later⟩
        · exact Interpretation.tracks_nil
        · exact absurd (List.mem_append_right _ old) later.new
    have through {label : String} {e : Arrow} (is : g.branch? b.id label = some e)
        (straight : g.plan.isStraight e.target = true) (first : (g.successors e.target).head? = some next) :
        I.Tracks g around exit ((g.branch? b.id label).map Arrow.target) (g.plan.stmtsAt e.target ++ rest) := by
      rw [is]
      exact tracks_stmtsAt rejoining (stands.live.behind is) straight first behind
    obtain ⟨⟨yesStraight, yesNext⟩, noStraight, noNext⟩ := Plan.merge?_eq_some merges
    rw [List.append_assoc]
    refine Interpretation.Tracks.marked (fun m => ?_) (Interpretation.test_marks _ _)
    refine (Interpretation.passes_branch (block?_of_mem listed) branching ?_ ?_).tracksAt
    · exact through yesIs yesStraight yesNext
    · exact through noIs noStraight noNext
  | @parting active visited inLoop b thenPart orElse listed plain branching yes no ihYes ihNo =>
    have stands := Comes.stands comes plain
    have arrow (yes : Bool) : (Place.arrow b.id (g.branch? b.id (answer yes))).Comes g active (b.id :: visited)
        inLoop around :=
      ⟨⟨visited, rfl, stands⟩, plain, stands.around_eq_none_of_branch rejoining listed branching,
        fun e is => (branch?_eq_some is).1⟩
    refine Interpretation.Tracks.marked (fun m => ?_) (Interpretation.test_marks _ _)
    refine (Interpretation.passes_branch (block?_of_mem listed) branching ?_ ?_).tracksAt
    · rw [List.append_nil]
      exact ihYes (arrow true) fits
    · rw [List.append_nil]
      exact ihNo (arrow false) fits
  | @onward active visited inLoop id e stmts within after ih =>
    obtain ⟨⟨earlier, rfl, stands⟩, plain, -, out⟩ := comes
    refine ih (.imp_right And.right (stands.onward rejoining.acyclic (target_mem_successors (out e rfl))
      (fun l member header => absurd header (plain l member)) within (fun v old => old) (by grind))) fits
  | @exit active visited id l e stmts member outside after ih =>
    obtain ⟨⟨earlier, rfl, stands⟩, plain, -, out⟩ := comes
    obtain ⟨listed, rfl⟩ : e ∈ g.arrows ∧ e.source = id := mem_outgoing.1 (out e rfl)
    obtain ⟨inside, apart⟩ := stands.inside member (stands.around_eq rfl)
    exact tracks_exit rejoining stands ⟨member, listed, inside, apart, outside⟩ (fits l member rfl) after
      fun beyond comes => ih comes (by simp)
  | @forever active visited inLoop l b next body member listed header outer idle noTest only inside after ih =>
    have stands := comes.resolve_left fun again => idle again.busy
    have fitting : g.Fits l around := Stands.fits (header ▸ stands) member
    have within := ih (stands.comes_inside member header rejoining (by simp [only]) inside)
      (fits_inside member header fitting)
    refine Interpretation.tracks_forever fun m => Interpretation.passes_block (block?_of_mem listed)
      (rejoining.known b listed stands.live)
      (fun middle => Interpretation.exec_perform (Interpretation.blockStmts_plain _ _)) ?_
    have sole := rejoining.toTidy.next?_straight listed stands.live
    rwa [Interpretation.next?, if_neg (by simp [noTest]), sole, only]
  | @turning active visited inLoop l b turn stays body rest member listed header outer idle branching
      staysIs inside outside after behind ih ihBehind =>
    have stands := comes.resolve_left fun again => idle again.busy
    have here : b.id ∈ l.body := (mem_body member).2 (.inl header)
    obtain ⟨out, outIs⟩ := rejoining.exists_branch member listed here branching !turn
    have leads {label : String} {e : Arrow} (is : g.branch? b.id label = some e) :
        e.target ∈ g.successors b.id := target_mem_successors (branch?_eq_some is).1
    have fitting : g.Fits l (some out.target) := fits_of_step (header ▸ leads outIs) (outside out outIs)
    have within := ih (stands.comes_inside member header rejoining (leads staysIs) inside)
      (fits_inside member header fitting)
    have later := ihBehind (stands.comes_behind member header rejoining (outside out outIs) outIs) fits
    refine Interpretation.Tracks.marked ?_ (Interpretation.test_marks _ _)
    refine Interpretation.tracks_while turn (block?_of_mem listed) branching (holds_loopTest turn) ?_ later
    rwa [next?_answer, next?_answer, outIs, staysIs]
  | @choosing active visited inLoop l b yes no thenPart elsePart member listed header outer idle branching
      yesIs noIs yesInside noInside then_ else_ ihThen ihElse =>
    have stands := comes.resolve_left fun again => idle again.busy
    have fitting : g.Fits l around := Stands.fits (header ▸ stands) member
    have within {label : String} {e : Arrow} {part : List Code.Stmt} (is : g.branch? b.id label = some e)
        (inside : e.target ∈ l.body) (tracks : (Place.block (some e.target)).Comes g (b.id :: active) []
          (some b.id) (some b.id) → I.Tracks g (some b.id) around (some e.target) part) :
        I.Tracks g (some b.id) around ((g.branch? b.id label).map Arrow.target) (part ++ []) := by
      rw [is, List.append_nil]
      exact tracks (stands.comes_inside member header rejoining
        (target_mem_successors (branch?_eq_some is).1) inside)
    refine Interpretation.Tracks.marked ?_ (Interpretation.test_marks _ _)
    refine Interpretation.tracks_forever fun m =>
      Interpretation.passes_branch (block?_of_mem listed) branching ?_ ?_
    · exact within yesIs yesInside fun comes => ihThen comes (fits_inside member header fitting)
    · exact within noIs noInside fun comes => ihElse comes (fits_inside member header fitting)

/-- At the start nothing is behind, and no loop is around. -/
theorem stands_start (first : g.start? = some id) : g.Stands [] [] none none id := by
  have outside (l : Loop) (member : l ∈ g.loops (.ofGraph g)) (inside : id ∈ l.body) : id = l.header := by
    have passed := header_dominates member inside id first _ (.stay id)
    exact (List.mem_singleton.1 passed).symm
  exact ⟨⟨.of_start first, by simp, by simp, fun l member inside other => absurd (outside l member inside) other⟩,
    by simp, fun l member inside other => absurd (outside l member inside) other, .inl rfl⟩

end FlowGraph

end Flowchart
