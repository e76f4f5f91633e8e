import Flowchart.Proofs.Provenance
import Mathlib.Data.Set.Insert
/-! No block is lost and none is invented. Structuring passes over a block in several situations; each time
the block is being followed further up or will be met from the header of its loop. The blocks that the code
stands for are therefore closed under the arrows, up to those that lie behind, and at the start nothing lies
behind. -/
namespace Flowchart

/-- A statement asks the test of a block: it branches on the test, or goes on while the test has an answer. -/
inductive Plan.Asks (p : Plan) (b : Block) : Code.Stmt → Prop where
  | branch (body : List Code.Stmt) (orElse : Option (List Code.Stmt)) :
      Asks p b (.branch (p.origin b.id) (Code.test (p.origin b.id) b.content).2 body orElse)
  | loop (turn : Bool) (body : List Code.Stmt) : Asks p b (.loop (p.origin b.id) (p.loopTest b turn) body)

namespace FlowGraph
variable {g : FlowGraph} {active visited : List String} {inLoop : Option String} {place : Place}
  {stmts : List Code.Stmt} {id : String} {b : Block}

/-- What is known to be followed: the blocks of the set, and the successors inside of a loop whose header is
in the set. -/
def Accounted (g : FlowGraph) (known : Set String) (id : String) : Prop :=
  id ∈ known ∨ ∃ l ∈ g.loops (.ofGraph g), l.header ∈ known ∧ id ∈ g.successors l.header ∧ id ∈ l.body

/-- The code shows a block: it holds its statements, the marker of an unknown kind only outside of the headers; a
conditional is asked, and marked where its test has no code. -/
structure Shows (g : FlowGraph) (b : Block) (stmts : List Code.Stmt) : Prop where
  block : ∀ s ∈ g.plan.blockStmts b, s ∈ Code.Stmt.every stmts
  own : (∀ l ∈ g.loops (.ofGraph g), l.header ≠ b.id) → ∀ s ∈ g.plan.ownStmts b, s ∈ Code.Stmt.every stmts
  marks : b.content.isBranching = true →
    ∀ s ∈ (Code.test (g.plan.origin b.id) b.content).1, s ∈ Code.Stmt.every stmts
  asks : b.content.isBranching = true → ∃ s ∈ Code.Stmt.every stmts, g.plan.Asks b s

/-- The code stands for the blocks of `done`: it shows them, and what follows them is either among them or lies
behind. -/
structure Covers (g : FlowGraph) (behind done : Set String) (stmts : List Code.Stmt) : Prop where
  shows : ∀ b ∈ g.blocks, b.id ∈ done → g.Shows b stmts
  onward : ∀ id ∈ done, ∀ next ∈ g.successors id, g.Accounted (behind ∪ done) next
  entered : ∀ l ∈ g.loops (.ofGraph g), l.header ∈ done → ∀ next ∈ g.successors l.header, next ∈ l.body →
    next ∈ behind ∪ done

/-- A way from the start leads to the block, and its other blocks lie behind. -/
def Led (g : FlowGraph) (behind : Set String) (id : String) : Prop :=
  ∃ start, g.start? = some start ∧ ∃ ids, g.Way start id ids ∧ ∀ x ∈ ids, x = id ∨ x ∈ behind

variable {behind behind' done done' : Set String} {more : List Code.Stmt}

theorem Accounted.mono (accounted : g.Accounted behind id) (grown : behind ⊆ behind') :
    g.Accounted behind' id := by
  rcases accounted with known | ⟨l, member, header, step, inside⟩
  · exact .inl (grown known)
  · exact .inr ⟨l, member, grown header, step, inside⟩

theorem Led.live (led : g.Led behind id) : g.Reachable id := by
  obtain ⟨start, first, ids, way, -⟩ := led
  exact ⟨start, first, ids, way⟩

theorem Led.mono (led : g.Led behind id) (grown : behind ⊆ behind') : g.Led behind' id := by
  obtain ⟨start, first, ids, way, passed⟩ := led
  exact ⟨start, first, ids, way, fun x member => (passed x member).imp_right (grown ·)⟩

theorem Led.next {next : String} (led : g.Led behind id) (step : next ∈ g.successors id)
    (here : id ∈ behind') (grown : behind ⊆ behind') : g.Led behind' next := by
  obtain ⟨start, first, ids, way, passed⟩ := led
  refine ⟨start, first, ids ++ [next], way.andThen step, fun x member => ?_⟩
  rcases List.mem_append.1 member with before | last
  · rcases passed x before with rfl | old
    · exact .inr here
    · exact .inr (grown old)
  · exact .inl (List.mem_singleton.1 last)

/-- The header of a loop lies behind every other block of it. -/
theorem Led.header {l : Loop} (led : g.Led behind id) (member : l ∈ g.loops (.ofGraph g))
    (inside : id ∈ l.body) (other : l.header ≠ id) : l.header ∈ behind := by
  obtain ⟨start, first, ids, way, passed⟩ := led
  rcases passed _ (header_dominates member inside start first ids way) with same | old
  · exact absurd same other
  · exact old

namespace Shows

theorem within (shows : g.Shows b stmts) (part : ∀ s ∈ Code.Stmt.every stmts, s ∈ Code.Stmt.every more) :
    g.Shows b more := by
  refine ⟨fun s own => part s (shows.block s own), fun plain s own => part s (shows.own plain s own),
    fun branching s mark => part s (shows.marks branching s mark), fun branching => ?_⟩
  obtain ⟨s, member, asks⟩ := shows.asks branching
  exact ⟨s, part s member, asks⟩

/-- A block without a test is shown with its statements, which are all there are where it is known. -/
theorem of_own (noTest : b.content.isBranching = false)
    (own : ∀ s ∈ g.plan.ownStmts b, s ∈ Code.Stmt.every stmts) : g.Shows b stmts := by
  refine ⟨?_, fun _ => own, by simp [noTest], by simp [noTest]⟩
  rcases g.plan.ownStmts_cases b with ⟨type, content, -⟩ | is
  · simp [Plan.blockStmts, content, Code.blockStmts]
  · rwa [is] at own

/-- The header of a loop without a test is shown with its statements, whatever its kind. -/
theorem of_header {l : Loop} (member : l ∈ g.loops (.ofGraph g)) (header : b.id = l.header)
    (noTest : b.content.isBranching = false)
    (block : ∀ s ∈ g.plan.blockStmts b, s ∈ Code.Stmt.every stmts) : g.Shows b stmts :=
  ⟨block, fun plain => absurd header.symm (plain l member), by simp [noTest], by simp [noTest]⟩

/-- A conditional has no statements of its own. -/
theorem of_asks (branching : b.content.isBranching = true)
    (marks : ∀ s ∈ (Code.test (g.plan.origin b.id) b.content).1, s ∈ Code.Stmt.every stmts)
    (asks : ∃ s ∈ Code.Stmt.every stmts, g.plan.Asks b s) : g.Shows b stmts := by
  have block : g.plan.blockStmts b = [] := by
    cases content : b.content <;> simp_all [Content.isBranching, Plan.blockStmts, Code.blockStmts]
  have own : g.plan.ownStmts b = [] := by
    rcases g.plan.ownStmts_cases b with ⟨type, content, -⟩ | is
    · simp [content, Content.isBranching] at branching
    · rw [is, block]
  exact ⟨by simp [block], by simp [own], fun _ => marks, fun _ => asks⟩

theorem of_asking (branching : b.content.isBranching = true) {s : Code.Stmt} (asks : g.plan.Asks b s)
    (rest : List Code.Stmt) : g.Shows b ((Code.test (g.plan.origin b.id) b.content).1 ++ s :: rest) :=
  .of_asks branching (fun _ mark => Code.Stmt.mem_every_append.2 (.inl (Code.Stmt.mem_every_of_mem mark)))
    ⟨s, by simp, asks⟩

end Shows

namespace Covers

theorem none (behind : Set String) (stmts : List Code.Stmt) : g.Covers behind ∅ stmts :=
  ⟨by simp, by simp, by simp⟩

theorem within (covers : g.Covers behind done stmts)
    (part : ∀ s ∈ Code.Stmt.every stmts, s ∈ Code.Stmt.every more) : g.Covers behind done more :=
  ⟨fun b listed member => (covers.shows b listed member).within part, covers.onward, covers.entered⟩

theorem union (first : g.Covers behind done stmts) (second : g.Covers behind done' stmts) :
    g.Covers behind (done ∪ done') stmts := by
  have left : behind ∪ done ⊆ behind ∪ (done ∪ done') := Set.union_subset_union_right _ Set.subset_union_left
  have right : behind ∪ done' ⊆ behind ∪ (done ∪ done') := Set.union_subset_union_right _ Set.subset_union_right
  refine ⟨?_, ?_, ?_⟩
  · rintro b listed (member | member)
    · exact first.shows b listed member
    · exact second.shows b listed member
  · rintro id (member | member) next step
    · exact (first.onward id member next step).mono left
    · exact (second.onward id member next step).mono right
  · rintro l member (header | header) next step inside
    · exact left (first.entered l member header next step inside)
    · exact right (second.entered l member header next step inside)

/-- A block that lay behind counts as done once its own part is shown. -/
theorem add (listed : b ∈ g.blocks) (covers : g.Covers (insert b.id behind) done stmts) (shows : g.Shows b stmts)
    (onward : ∀ next ∈ g.successors b.id, g.Accounted (insert b.id behind ∪ done) next)
    (entered : ∀ l ∈ g.loops (.ofGraph g), l.header = b.id → ∀ next ∈ g.successors b.id, next ∈ l.body →
      next ∈ insert b.id behind ∪ done) : g.Covers behind (insert b.id done) stmts := by
  have same : behind ∪ insert b.id done = insert b.id behind ∪ done := by
    rw [Set.union_insert, Set.insert_union]
  refine ⟨?_, ?_, ?_⟩
  · rintro b' listed' (again | member)
    · rwa [block_eq listed' listed again]
    · exact covers.shows b' listed' member
  · rw [same]
    rintro x (rfl | member)
    · exact onward
    · exact covers.onward x member
  · rw [same]
    rintro l member (header | header)
    · rw [header]
      exact entered l member header
    · exact covers.entered l member header

end Covers

/-- What structuring keeps in mind lies behind. -/
structure Behind (behind : Set String) (active visited : List String) (inLoop : Option String) : Prop where
  active : ∀ id ∈ active, id ∈ behind
  visited : ∀ id ∈ visited, id ∈ behind
  around : ∀ h, inLoop = some h → h ∈ behind

theorem Behind.visit (keeps : Behind behind active visited inLoop) (id : String) :
    Behind (insert id behind) active (id :: visited) inLoop := by
  refine ⟨fun x member => .inr (keeps.active x member), ?_, fun h is => .inr (keeps.around h is)⟩
  rintro x member
  rcases List.mem_cons.1 member with rfl | old
  · exact .inl rfl
  · exact .inr (keeps.visited x old)

theorem Behind.follow (keeps : Behind behind active visited inLoop) (id : String) :
    Behind (insert id behind) (id :: active) visited inLoop := by
  refine ⟨?_, fun x member => .inr (keeps.visited x member), fun h is => .inr (keeps.around h is)⟩
  rintro x member
  rcases List.mem_cons.1 member with rfl | old
  · exact .inl rfl
  · exact .inr (keeps.active x old)

theorem Behind.enter (keeps : Behind behind active visited inLoop) (id : String) :
    Behind (insert id behind) (id :: active) [] (some id) := by
  refine ⟨(keeps.follow id).active, by simp, ?_⟩
  rintro h ⟨⟩
  exact .inl rfl

/-- A way leads to the place from behind. -/
def Place.Led (g : FlowGraph) (behind : Set String) : Place → Prop
  | .block next => ∀ id, next = some id → g.Led behind id
  | .arrow id taken => g.Led behind id ∧ id ∈ behind ∧ ∀ e, taken = some e → e ∈ g.outgoing id

/-- What the place leads to is accounted for, and inside of a loop it is not left to a header. -/
def Place.Met (g : FlowGraph) (known : Set String) (inLoop : Option String) : Place → Prop
  | .block next => ∀ id, next = some id → g.Accounted known id ∧ (inLoop ≠ none → id ∈ known)
  | .arrow _ taken => ∀ e, taken = some e → g.Accounted known e.target

theorem met_of_mem {known : Set String} (member : id ∈ known) : (Place.block (some id)).Met g known inLoop := by
  rintro x ⟨⟩
  exact ⟨.inl member, fun _ => member⟩

theorem Place.Met.mono {known known' : Set String} (met : place.Met g known inLoop) (grown : known ⊆ known') :
    place.Met g known' inLoop := by
  cases place with
  | block next =>
    intro id is
    obtain ⟨accounted, inside⟩ := met id is
    exact ⟨accounted.mono grown, fun around => grown (inside around)⟩
  | arrow id taken =>
    intro e is
    exact (met e is).mono grown

theorem Led.toPlace (led : g.Led behind id) : (Place.block (some id)).Led g behind := by
  rintro x ⟨⟩
  exact led

theorem label_of_mem (listed : b ∈ g.blocks) : g.label b.id = b.label := by
  rw [label, block?_of_mem listed]
  rfl

theorem stmtsAt_of_mem (listed : b ∈ g.blocks) : g.plan.stmtsAt b.id = g.plan.blockStmts b := by
  have found : g.plan.graph.block? b.id = some b := block?_of_mem listed
  rw [Plan.stmtsAt, found]
  rfl

/-- What follows a conditional is behind the arrow of an answer. -/
theorem Tidy.exists_answer (tidy : g.Tidy) (listed : b ∈ g.blocks) (live : g.Reachable b.id)
    (branching : b.content.isBranching = true) {next : String} (step : next ∈ g.successors b.id) :
    ∃ yes e, g.branch? b.id (answer yes) = some e ∧ e.target = next := by
  obtain ⟨e, out, rfl⟩ := List.mem_map.1 step
  obtain ⟨yes, is⟩ := tidy.branch?_of_mem listed live branching out
  exact ⟨yes, e, is, rfl⟩

/-- The code that structuring makes stands for all that is not behind it. -/
def Covered (g : FlowGraph) (behind : Set String) (inLoop : Option String) (place : Place)
    (stmts : List Code.Stmt) : Prop :=
  ∃ done, g.Covers behind done stmts ∧ place.Met g (behind ∪ done) inLoop

theorem covered_straight (tidy : g.Tidy) (listed : b ∈ g.blocks) (live : g.Reachable b.id)
    (noTest : b.content.isBranching = false) (plain : ∀ l ∈ g.loops (.ofGraph g), l.header ≠ b.id)
    (after : g.Covered (insert b.id behind) inLoop (.block (g.successors b.id).head?) stmts) :
    g.Covered behind inLoop (.block (some b.id)) (g.plan.ownStmts b ++ stmts) := by
  obtain ⟨done, covers, met⟩ := after
  have whole : g.Covers (insert b.id behind) done (g.plan.ownStmts b ++ stmts) :=
    covers.within fun s member => Code.Stmt.mem_every_append.2 (.inr member)
  have shows : g.Shows b (g.plan.ownStmts b ++ stmts) :=
    .of_own noTest fun s own => Code.Stmt.mem_every_append.2 (.inl (Code.Stmt.mem_every_of_mem own))
  refine ⟨insert b.id done, whole.add listed shows ?_ ?_, met_of_mem (.inr (.inl rfl))⟩
  · intro next step
    have only := tidy.successors_eq listed live noTest step
    exact (met next (by rw [only]; rfl)).1
  · intro l member header
    exact absurd header (plain l member)

/-- A conditional is covered with the code of its two answers, where these stand for all that follows it. -/
theorem covered_choice (listed : b ∈ g.blocks) (shows : g.Shows b stmts)
    {around around' : Option String} {first second : Place} {thenPart elsePart : List Code.Stmt}
    (onFirst : g.Covered (insert b.id behind) around first thenPart)
    (onSecond : g.Covered (insert b.id behind) around' second elsePart)
    (inFirst : ∀ s ∈ Code.Stmt.every thenPart, s ∈ Code.Stmt.every stmts)
    (inSecond : ∀ s ∈ Code.Stmt.every elsePart, s ∈ Code.Stmt.every stmts)
    (onward : ∀ known, first.Met g known around → second.Met g known around' →
      ∀ next ∈ g.successors b.id, g.Accounted known next)
    (entered : ∀ known, first.Met g known around → second.Met g known around' →
      ∀ l ∈ g.loops (.ofGraph g), l.header = b.id → ∀ next ∈ g.successors b.id, next ∈ l.body → next ∈ known) :
    g.Covered behind inLoop (.block (some b.id)) stmts := by
  obtain ⟨done, covers, met⟩ := onFirst
  obtain ⟨done', covers', met'⟩ := onSecond
  have left : first.Met g (insert b.id behind ∪ (done ∪ done')) around :=
    met.mono (Set.union_subset_union_right _ Set.subset_union_left)
  have right : second.Met g (insert b.id behind ∪ (done ∪ done')) around' :=
    met'.mono (Set.union_subset_union_right _ Set.subset_union_right)
  have both := (covers.within inFirst).union (covers'.within inSecond)
  exact ⟨insert b.id (done ∪ done'), both.add listed shows (onward _ left right) (entered _ left right),
    met_of_mem (.inr (.inl rfl))⟩

theorem covered_forever {next : String} {test : Code.Expr} {body : List Code.Stmt} {l : Loop}
    (member : l ∈ g.loops (.ofGraph g)) (listed : b ∈ g.blocks) (header : b.id = l.header)
    (noTest : b.content.isBranching = false) (only : g.successors b.id = [next])
    (after : g.Covered (insert b.id behind) (some b.id) (.block (some next)) body) :
    g.Covered behind inLoop (.block (some b.id))
      [.loop (g.plan.origin b.id) test (g.plan.blockStmts b ++ body)] := by
  obtain ⟨done, covers, met⟩ := after
  have known := (met next rfl).2 (by simp)
  have whole : g.Covers (insert b.id behind) done
      [.loop (g.plan.origin b.id) test (g.plan.blockStmts b ++ body)] :=
    covers.within fun s member => by simp [Code.Stmt.inner, member]
  have shows : g.Shows b [.loop (g.plan.origin b.id) test (g.plan.blockStmts b ++ body)] :=
    .of_header member header noTest fun s own => by simp [Code.Stmt.inner, Code.Stmt.mem_every_of_mem own]
  refine ⟨insert b.id done, whole.add listed shows ?_ ?_, met_of_mem (.inr (.inl rfl))⟩
  · intro next' step
    rw [only, List.mem_singleton] at step
    exact step ▸ .inl known
  · intro _ _ _ next' step _
    rw [only, List.mem_singleton] at step
    exact step ▸ known

/-- A branch of one straight block counts as done where it leads to what is accounted for. -/
theorem Covers.addStraight (tidy : g.Tidy) (live : g.Reachable id) (straight : g.plan.isStraight id = true)
    {next : String} (first : (g.successors id).head? = some next)
    (covers : g.Covers (insert id behind) done stmts)
    (holds : ∀ s ∈ g.plan.stmtsAt id, s ∈ Code.Stmt.every stmts)
    (accounted : g.Accounted (insert id behind ∪ done) next) : g.Covers behind (insert id done) stmts := by
  obtain ⟨header, b, found, simple⟩ := Plan.isStraight_iff.1 straight
  obtain ⟨listed, rfl⟩ := block?_eq_some found
  have noTest : b.content.isBranching = false := by
    cases content : b.content <;> simp_all [Content.isStraight, Content.isBranching]
  have only := tidy.successors_eq listed live noTest (List.mem_of_mem_head? first)
  have own : g.plan.ownStmts b = g.plan.stmtsAt b.id := by
    rw [stmtsAt_of_mem (g := g) listed]
    refine (g.plan.ownStmts_cases b).resolve_left ?_
    rintro ⟨type, content, -⟩
    simp [content, Content.isStraight] at simple
  refine covers.add listed (.of_own noTest (own ▸ holds)) ?_ ?_
  · intro next' step
    rw [only, List.mem_singleton] at step
    exact step ▸ accounted
  · intro l member same
    exact absurd same (not_header_iff.1 header l member)

theorem covered_merge (tidy : g.Tidy) (listed : b ∈ g.blocks) (live : g.Reachable b.id)
    (branching : b.content.isBranching = true) (plain : ∀ l ∈ g.loops (.ofGraph g), l.header ≠ b.id)
    {yes no : Arrow} {next : String} {body : Option (List String)}
    (yesIs : g.branch? b.id "yes" = some yes) (noIs : g.branch? b.id "no" = some no)
    (merges : g.plan.merge? (some yes) (some no) body = some next)
    {onward : Option String}
    (goes : onward = some next ∨
      onward = none ∧ next ∈ insert yes.target (insert no.target (insert b.id behind)))
    (after : g.Covered (insert yes.target (insert no.target (insert b.id behind))) inLoop (.block onward)
      stmts) :
    g.Covered behind inLoop (.block (some b.id))
      ((Code.test (g.plan.origin b.id) b.content).1 ++
        [.branch (g.plan.origin b.id) (Code.test (g.plan.origin b.id) b.content).2 (g.plan.stmtsAt yes.target)
          (some (g.plan.stmtsAt no.target))] ++ stmts) := by
  obtain ⟨done, covers, met⟩ := after
  have meeting : g.Accounted (insert yes.target (insert no.target (insert b.id behind)) ∪ done) next := by
    rcases goes with rfl | ⟨-, old⟩
    · exact (met next rfl).1
    · exact .inl (.inl old)
  obtain ⟨⟨yesStraight, yesNext⟩, noStraight, noNext⟩ := Plan.merge?_eq_some merges
  have whole : g.Covers (insert yes.target (insert no.target (insert b.id behind))) done
      ((Code.test (g.plan.origin b.id) b.content).1 ++
        [.branch (g.plan.origin b.id) (Code.test (g.plan.origin b.id) b.content).2 (g.plan.stmtsAt yes.target)
          (some (g.plan.stmtsAt no.target))] ++ stmts) :=
    covers.within fun s member => by simp [member]
  have withYes := whole.addStraight tidy (live.behind yesIs) yesStraight yesNext
    (fun s own => by simp [Code.Stmt.inner, Code.Stmt.mem_every_of_mem own]) meeting
  have withNo := withYes.addStraight tidy (live.behind noIs) noStraight noNext
    (fun s own => by simp [Code.Stmt.inner, Code.Stmt.everyElse, Code.Stmt.mem_every_of_mem own])
    (meeting.mono (by intro x; simp only [Set.mem_union, Set.mem_insert_iff]; tauto))
  have shows : g.Shows b ((Code.test (g.plan.origin b.id) b.content).1 ++
      [.branch (g.plan.origin b.id) (Code.test (g.plan.origin b.id) b.content).2 (g.plan.stmtsAt yes.target)
        (some (g.plan.stmtsAt no.target))] ++ stmts) := by
    rw [List.append_assoc]
    exact .of_asking branching (.branch _ _) stmts
  refine ⟨_, withNo.add listed shows ?_ ?_, met_of_mem (.inr (.inl rfl))⟩
  · intro next step
    obtain ⟨answered, e, is, rfl⟩ := tidy.exists_answer listed live branching step
    cases answered with
    | true =>
      cases yesIs.symm.trans is
      exact .inl (.inr (.inr (.inl rfl)))
    | false =>
      cases noIs.symm.trans is
      exact .inl (.inr (.inl rfl))
  · intro l member header
    exact absurd header (plain l member)

/-- Structuring loses nothing: its code stands for all that the place leads to, except for what lies behind. -/
theorem covered_of_lowers (tidy : g.Tidy) (lowers : g.Lowers active visited inLoop place stmts)
    (keeps : Behind behind active visited inLoop) (led : place.Led g behind) :
    g.Covered behind inLoop place stmts := by
  induction lowers generalizing behind with
  | nothing => exact ⟨∅, .none _ _, by rintro id ⟨⟩⟩
  | noArrow => exact ⟨∅, .none _ _, by rintro e ⟨⟩⟩
  | @deferred _ _ id inner =>
    obtain ⟨l, member, is⟩ := List.any_eq_true.1 inner
    simp only [Bool.and_eq_true, bne_iff_ne, List.contains_iff_mem] at is
    have header := (led id rfl).header member is.1.2 is.1.1
    refine ⟨∅, .none _ _, ?_⟩
    rintro x ⟨⟩
    exact ⟨.inr ⟨l, member, .inl header, is.2, is.1.2⟩, by simp⟩
  | @again _ _ _ l member busy =>
    refine ⟨∅, .none _ _, met_of_mem (.inl ?_)⟩
    rcases busy with here | old
    · exact keeps.around _ here
    · exact keeps.active _ old
  | met old => exact ⟨∅, .none _ _, met_of_mem (.inl (keeps.visited _ old))⟩
  | @straight _ _ _ b rest listed plain noTest after ih =>
    have here : g.Led behind b.id := led b.id rfl
    refine covered_straight tidy listed here.live noTest plain (ih (keeps.visit b.id) fun id first => ?_)
    exact here.next (List.mem_of_mem_head? first) (.inl rfl) (Set.subset_insert _ _)
  | @merge _ _ _ b yes no next onward rest listed plain branching yesIs noIs merges goes after ih =>
    have here : g.Led behind b.id := led b.id rfl
    have keeps' := ((keeps.visit b.id).visit no.target).visit yes.target
    have toYes : g.Led (insert b.id behind) yes.target :=
      here.next (target_mem_successors (branch?_eq_some yesIs).1) (.inl rfl) (Set.subset_insert _ _)
    have toNext := toYes.next (List.mem_of_mem_head? (Plan.merge?_eq_some merges).1.2)
      (Set.mem_insert yes.target (insert no.target (insert b.id behind)))
      ((Set.subset_insert _ _).trans (Set.subset_insert _ _))
    refine covered_merge tidy listed here.live branching plain yesIs noIs merges
      (goes.imp_right fun again => ⟨again.1, keeps'.visited _ again.2⟩) (ih keeps' fun id is => ?_)
    rcases goes with rfl | ⟨rfl, -⟩
    · cases is
      exact toNext
    · cases is
  | @parting _ _ _ b thenPart orElse listed plain branching yes no ihYes ihNo =>
    have here : g.Led behind b.id := led b.id rfl
    have behindArrow (label : String) : (Place.arrow b.id (g.branch? b.id label)).Led g (insert b.id behind) :=
      ⟨here.mono (Set.subset_insert _ _), .inl rfl, fun e is => (branch?_eq_some is).1⟩
    refine covered_choice listed (.of_asking branching (.branch thenPart orElse) [])
      (ihYes (keeps.visit b.id) (behindArrow "yes")) (ihNo (keeps.visit b.id) (behindArrow "no")) ?_ ?_ ?_ ?_
    · intro s member
      simp [Code.Stmt.inner, member]
    · intro s member
      simp [Code.Stmt.inner, Code.Stmt.everyElse_eq, member]
    · intro known metYes metNo next step
      obtain ⟨answered, e, is, rfl⟩ := tidy.exists_answer listed here.live branching step
      cases answered with
      | true => exact metYes e is
      | false => exact metNo e is
    · intro known metYes metNo l member header
      exact absurd header (plain l member)
  | @onward _ _ _ id e stmts within after ih =>
    obtain ⟨toId, here, out⟩ := led
    have toTarget := toId.next (target_mem_successors (out e rfl)) here (Set.Subset.refl _)
    obtain ⟨done, covers, met⟩ := ih keeps toTarget.toPlace
    refine ⟨done, covers, ?_⟩
    rintro e' ⟨⟩
    exact (met e.target rfl).1
  | @exit _ _ id l e stmts member outside after ih =>
    obtain ⟨toId, here, out⟩ := led
    have toTarget := toId.next (target_mem_successors (out e rfl)) here (Set.Subset.refl _)
    obtain ⟨done, covers, met⟩ := ih ⟨keeps.active, keeps.visited, by simp⟩ toTarget.toPlace
    refine ⟨done, covers.within fun s before => Code.Stmt.mem_every_append.2 (.inl before), ?_⟩
    rintro e' ⟨⟩
    exact (met e.target rfl).1
  | @forever _ _ _ l b next body member listed header outer idle noTest only inside after ih =>
    have here : g.Led behind b.id := led b.id rfl
    have toNext := here.next (by rw [only]; exact List.mem_cons_self) (Set.mem_insert b.id behind)
      (Set.subset_insert _ _)
    exact covered_forever member listed header noTest only (ih (keeps.enter b.id) toNext.toPlace)
  | @turning _ _ _ l b turn stays body rest member listed header outer idle branching staysIs inside outside
      after behindIt ih ihBehind =>
    have here : g.Led behind b.id := led b.id rfl
    have toArrow {label : String} {e : Arrow} (is : g.branch? b.id label = some e) :
        g.Led (insert b.id behind) e.target :=
      here.next (target_mem_successors (branch?_eq_some is).1) (.inl rfl) (Set.subset_insert _ _)
    have toOut :
        (Place.block ((g.branch? b.id (answer !turn)).map Arrow.target)).Led g (insert b.id behind) := by
      intro id is
      obtain ⟨e, found, rfl⟩ := Option.map_eq_some_iff.1 is
      exact toArrow found
    refine covered_choice listed (.of_asking branching (.loop turn body) rest)
      (ih (keeps.enter b.id) (toArrow staysIs).toPlace) (ihBehind (keeps.follow b.id) toOut) ?_ ?_ ?_ ?_
    · intro s member
      simp [Code.Stmt.inner, member]
    · intro s member
      simp [member]
    · intro known metIn metOut next step
      obtain ⟨answered, e, is, rfl⟩ := tidy.exists_answer listed here.live branching step
      by_cases same : answered = turn
      · subst same
        cases staysIs.symm.trans is
        exact (metIn _ rfl).1
      · rw [Bool.eq_not.2 same] at is
        exact (metOut e.target (by rw [is]; rfl)).1
    · intro known metIn metOut l' member' header' next step inside'
      cases loop_eq member' member (header'.trans header)
      obtain ⟨answered, e, is, rfl⟩ := tidy.exists_answer listed here.live branching step
      by_cases same : answered = turn
      · subst same
        cases staysIs.symm.trans is
        exact (metIn _ rfl).2 (by simp)
      · rw [Bool.eq_not.2 same] at is
        exact absurd inside' (outside e is)
  | @choosing _ _ _ l b yes no thenPart elsePart member listed header outer idle branching yesIs noIs yesInside
      noInside then_ else_ ihThen ihElse =>
    have here : g.Led behind b.id := led b.id rfl
    have toArrow {label : String} {e : Arrow} (is : g.branch? b.id label = some e) :
        (Place.block (some e.target)).Led g (insert b.id behind) :=
      (here.next (target_mem_successors (branch?_eq_some is).1) (.inl rfl) (Set.subset_insert _ _)).toPlace
    have known {known : Set String} (metYes : (Place.block (some yes.target)).Met g known (some b.id))
        (metNo : (Place.block (some no.target)).Met g known (some b.id)) :
        ∀ next ∈ g.successors b.id, next ∈ known := by
      intro next step
      obtain ⟨answered, e, is, rfl⟩ := tidy.exists_answer listed here.live branching step
      cases answered with
      | true =>
        cases yesIs.symm.trans is
        exact (metYes _ rfl).2 (by simp)
      | false =>
        cases noIs.symm.trans is
        exact (metNo _ rfl).2 (by simp)
    refine covered_choice listed (.of_asks branching ?_ ⟨_, ?_, .branch thenPart (some elsePart)⟩)
      (ihThen (keeps.enter b.id) (toArrow yesIs)) (ihElse (keeps.enter b.id) (toArrow noIs)) ?_ ?_ ?_ ?_
    · intro s mark
      simp [Code.Stmt.mem_every_of_mem mark]
    · simp [Code.Stmt.inner]
    · intro s member
      simp [Code.Stmt.inner, member]
    · intro s member
      simp [Code.Stmt.inner, Code.Stmt.everyElse, member]
    · intro _ metYes metNo next step
      exact .inl (known metYes metNo next step)
    · intro _ metYes metNo _ _ _ next step _
      exact known metYes metNo next step

/-- What is accounted for by covered blocks is covered, once nothing lies behind. -/
theorem Covers.closed (covers : g.Covers ∅ done stmts) (accounted : g.Accounted done id) : id ∈ done := by
  rcases accounted with known | ⟨l, member, header, step, inside⟩
  · exact known
  · have known := covers.entered l member header id step inside
    rwa [Set.empty_union] at known

theorem Covers.along {a : String} {ids : List String} (covers : g.Covers ∅ done stmts) (begun : a ∈ done)
    (way : g.Way a id ids) : id ∈ done := by
  induction way with
  | stay => exact begun
  | go step _ ih =>
    have accounted := covers.onward _ begun _ step
    rw [Set.empty_union] at accounted
    exact ih (covers.closed accounted)

/-- From the start on, the code shows every block that can be reached. -/
theorem shows_of_reachable {start : String} (tidy : g.Tidy) (first : g.start? = some start) (listed : b ∈ g.blocks)
    (live : g.Reachable b.id) : g.Shows b (g.plan.lower [] [] none start).stmts := by
  have led : g.Led ∅ start := ⟨start, first, [start], .stay start, by simp⟩
  obtain ⟨done, covers, met⟩ := covered_of_lowers tidy
    (tidy.lowers [] [] none start (.of_start first) (by simp)) ⟨by simp, by simp, by simp⟩ led.toPlace
  have begun : start ∈ done := covers.closed (by simpa using (met start rfl).1)
  obtain ⟨start', first', ids, way⟩ := live
  cases first.symm.trans first'
  exact covers.shows b listed (covers.along begun way)

theorem holds_of_reachable {start : String} (tidy : g.Tidy) (first : g.start? = some start)
    (live : g.Reachable id) :
    ∀ s ∈ g.plan.stmtsAt id, s ∈ Code.Stmt.every (g.plan.lower [] [] none start).stmts := by
  obtain ⟨b, found⟩ := exists_block live.mem_ids
  obtain ⟨listed, rfl⟩ := block?_eq_some found
  rw [stmtsAt_of_mem listed]
  exact (shows_of_reachable tidy first listed live).block

end FlowGraph

/-- Whether a block assigns, reads or shows something. -/
def Content.acts : Content → Bool
  | .assign _ => true
  | .input _ => true
  | .output _ => true
  | _ => false

theorem Plan.acts_of_blockStmts {p : Plan} {b : Block} (some_ : p.blockStmts b ≠ []) :
    b.content.acts = true := by
  cases content : b.content <;> simp_all [Plan.blockStmts, Code.blockStmts, Content.acts]

namespace Diagram
variable {d : Diagram} {start : String}

/-- The blocks whose own statements stand in the code are those that can be reached, assign, read or show
something, and have a statement. Each of these statements carries the origin of its block, and there is
nothing else in the code but what reachable blocks become. -/
theorem compile_keeps_blocks (d : Diagram) (start : String) (first : d.flowGraph.start? = some start)
    (tidy : d.flowGraph.Tidy) :
    (∀ b ∈ d.flowGraph.blocks,
      (∃ s ∈ d.flowGraph.plan.blockStmts b, s ∈ Code.Stmt.every d.compile.stmts) ↔
        d.flowGraph.Reachable b.id ∧ b.content.acts = true ∧ d.flowGraph.plan.blockStmts b ≠ []) ∧
    (∀ b ∈ d.flowGraph.blocks, ∀ s ∈ d.flowGraph.plan.blockStmts b,
      s.origin = some ⟨some b.id, some b.label⟩) ∧
    (∀ s ∈ Code.Stmt.every d.compile.stmts,
      (∃ b ∈ d.flowGraph.blocks, d.flowGraph.Reachable b.id ∧ d.flowGraph.plan.Makes b s) ∨
      s = .unsupported (d.flowGraph.plan.origin start)
        "Empty diagram - only Start node with no meaningful connections") := by
  have live := FlowGraph.Reachable.of_start first
  have made := FlowGraph.made_of_lowers (tidy.lowers [] [] none start live (by simp)) live.live
  have all : ∀ s ∈ Code.Stmt.every d.compile.stmts,
      (∃ b ∈ d.flowGraph.blocks, d.flowGraph.Reachable b.id ∧ d.flowGraph.plan.Makes b s) ∨
      s = .unsupported (d.flowGraph.plan.origin start)
        "Empty diagram - only Start node with no meaningful connections" := by
    intro s member
    rcases compile_stmts first with is | ⟨-, is⟩
    · rw [is] at member
      exact .inl (made s member)
    · rw [is, Code.Stmt.every_of_flat (by simp [Code.Stmt.isMarker])] at member
      exact .inr (List.mem_singleton.1 member)
  refine ⟨fun b listed => ⟨?_, ?_⟩, fun b listed s own => ?_, all⟩
  · rintro ⟨s, own, member⟩
    have some_ : d.flowGraph.plan.blockStmts b ≠ [] := List.ne_nil_of_mem own
    have origin := (Plan.Makes.own own).origin
    refine ⟨?_, Plan.acts_of_blockStmts some_, some_⟩
    rcases all s member with ⟨b', -, live', makes⟩ | rfl
    · rwa [Plan.origin_inj (origin.symm.trans makes.origin)]
    · rwa [← Plan.origin_inj origin]
  · rintro ⟨reached, -, some_⟩
    obtain ⟨s, own⟩ := List.exists_mem_of_ne_nil _ some_
    rw [← FlowGraph.stmtsAt_of_mem listed] at own
    have holds := FlowGraph.holds_of_reachable tidy first reached s own
    rw [FlowGraph.stmtsAt_of_mem listed] at own
    rcases compile_stmts first with is | ⟨empty, -⟩
    · exact ⟨s, own, is ▸ holds⟩
    · rw [empty] at holds
      cases holds
  · have label : d.flowGraph.plan.graph.label b.id = b.label := FlowGraph.label_of_mem listed
    rw [(Plan.Makes.own own).origin, Plan.origin, Code.originOf, label]

/-- Two outputs that lead to each other, entered at either of them: a cycle that is no loop. -/
def crossing : Diagram where
  blocks := [⟨"s", none, .start⟩, asks, ⟨"x", none, .output none⟩, ⟨"y", none, .output none⟩]
  arrows := [⟨"s", "c", none, none⟩, ⟨"c", "x", some "yes", none⟩, ⟨"c", "y", some "no", none⟩,
    ⟨"x", "y", none, none⟩, ⟨"y", "x", none, none⟩]

theorem blocks_crossing : crossing.flowGraph.blocks = crossing.blocks :=
  rfl

theorem tidy_crossing : crossing.flowGraph.Tidy :=
  .of_blocks (by decide) (by decide) (by decide) (by decide)

/-- Both outputs stand in the code. -/
theorem compile_keeps_crossing : crossing.flowGraph.start? = some "s" ∧ crossing.flowGraph.Tidy ∧
    .print (Code.originOf crossing.flowGraph "x") [] ∈ Code.Stmt.every crossing.compile.stmts ∧
    .print (Code.originOf crossing.flowGraph "y") [] ∈ Code.Stmt.every crossing.compile.stmts := by
  have first : crossing.flowGraph.start? = some "s" := by decide
  obtain ⟨kept, -, -⟩ := compile_keeps_blocks crossing "s" first tidy_crossing
  have atC : crossing.flowGraph.Reachable "c" := (FlowGraph.Reachable.of_start first).next (by decide)
  have own (b : Block) (listed : b ∈ crossing.flowGraph.blocks) (live : crossing.flowGraph.Reachable b.id)
      (shows : b.content = .output none) :
      .print (Code.originOf crossing.flowGraph b.id) [] ∈ Code.Stmt.every crossing.compile.stmts := by
    have stmts : crossing.flowGraph.plan.blockStmts b =
        [.print (Code.originOf crossing.flowGraph b.id) []] := by
      rw [Plan.blockStmts, shows]
      rfl
    obtain ⟨s, own, member⟩ := (kept b listed).2 ⟨live, by rw [shows]; rfl, by rw [stmts]; simp⟩
    rw [stmts, List.mem_singleton] at own
    rwa [own] at member
  have listed (b : Block) (member : b ∈ crossing.blocks) : b ∈ crossing.flowGraph.blocks :=
    blocks_crossing ▸ member
  refine ⟨first, tidy_crossing, ?_, ?_⟩
  · exact own ⟨"x", none, .output none⟩ (listed _ (by simp [crossing])) (atC.next (by decide)) rfl
  · exact own ⟨"y", none, .output none⟩ (listed _ (by simp [crossing])) (atC.next (by decide)) rfl

end Diagram
end Flowchart
