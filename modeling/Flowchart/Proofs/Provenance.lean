import Flowchart.Proofs.Shapes
/-! Every statement of structured code, at any depth, is what some reachable block becomes, and carries the
origin of that block. A block of an unknown kind becomes a marker, unless it is the header of a loop. This is shown
shape by shape; how the shapes were chosen does not matter. -/
namespace Flowchart

namespace Code

mutual
/-- The statements inside of a statement, at any depth. -/
def Stmt.inner : Stmt → List Stmt
  | .program _ body => Stmt.every body
  | .branch _ _ body orElse => Stmt.every body ++ Stmt.everyElse orElse
  | .loop _ _ body => Stmt.every body
  | _ => []
/-- Statements and those inside of them, at any depth. -/
def Stmt.every : List Stmt → List Stmt
  | [] => []
  | s :: rest => s :: (s.inner ++ Stmt.every rest)
/-- The statements of an else part, at any depth. -/
def Stmt.everyElse : Option (List Stmt) → List Stmt
  | none => []
  | some body => Stmt.every body
end

variable {s : Stmt} {stmts more body : List Stmt} {origin : Option Origin} {content : Content}

@[simp]
theorem Stmt.mem_every_nil : s ∈ Stmt.every [] ↔ False := by
  simp [Stmt.every]

@[simp]
theorem Stmt.mem_every_cons {first : Stmt} :
    s ∈ Stmt.every (first :: stmts) ↔ s = first ∨ s ∈ first.inner ∨ s ∈ Stmt.every stmts := by
  simp [Stmt.every]

@[simp]
theorem Stmt.mem_every_append :
    s ∈ Stmt.every (stmts ++ more) ↔ s ∈ Stmt.every stmts ∨ s ∈ Stmt.every more := by
  induction stmts with
  | nil => simp
  | cons first rest ih => simp [ih, or_assoc]

theorem Stmt.mem_every_of_mem (member : s ∈ stmts) : s ∈ Stmt.every stmts := by
  induction stmts with
  | nil => cases member
  | cons first rest ih =>
    rcases List.mem_cons.1 member with rfl | later
    · simp
    · simp [ih later]

theorem Stmt.everyElse_eq (orElse : Option (List Stmt)) :
    Stmt.everyElse orElse = Stmt.every (orElse.getD []) := by
  cases orElse <;> simp [Stmt.everyElse, Stmt.every]

/-- A statement of a block or a marker has nothing inside. -/
theorem Stmt.every_of_flat (flat : ∀ s ∈ stmts, s.isAction = true ∨ s.isMarker = true) :
    Stmt.every stmts = stmts := by
  induction stmts with
  | nil => rfl
  | cons first rest ih =>
    have leaf : first.inner = [] := by
      rcases flat first List.mem_cons_self with own | mark
      · cases first <;> simp_all [Stmt.isAction, Stmt.inner]
      · cases first <;> simp_all [Stmt.isMarker, Stmt.inner]
    have others := ih fun s later => flat s (List.mem_cons_of_mem _ later)
    rw [Stmt.every, leaf, others]
    rfl

end Code

/-- The statements that a block may become in structured code. -/
inductive Plan.Makes (p : Plan) (b : Block) : Code.Stmt → Prop where
  | own {s : Code.Stmt} (own : s ∈ p.blockStmts b) : Makes p b s
  | mark {s : Code.Stmt} (mark : s ∈ (Code.test (p.origin b.id) b.content).1) : Makes p b s
  | unknown {type : Json} (content : b.content = .unknown type) :
      Makes p b (.unsupported (p.origin b.id) ("Node '" ++ type.display ++ "' not supported."))
  | branch (test : Code.Expr) (body : List Code.Stmt) (orElse : Option (List Code.Stmt)) :
      Makes p b (.branch (p.origin b.id) test body orElse)
  | loop (test : Code.Expr) (body : List Code.Stmt) : Makes p b (.loop (p.origin b.id) test body)
  | leave : Makes p b (.leave (p.origin b.id))

theorem Plan.Makes.origin {p : Plan} {b : Block} {s : Code.Stmt} (makes : p.Makes b s) :
    s.origin = p.origin b.id := by
  cases makes with
  | own own =>
    have all : ∀ s ∈ p.blockStmts b, s.origin = p.origin b.id :=
      Interpretation.forall_blockStmts b.content (fun _ => rfl) (fun _ _ => rfl) (fun _ => rfl)
    exact all s own
  | mark mark =>
    obtain ⟨e, rfl⟩ := Interpretation.test_failure mark
    rfl
  | _ => rfl

theorem Plan.origin_inj {p : Plan} {a b : String} (same : p.origin a = p.origin b) : a = b := by
  simp only [Plan.origin, Code.originOf, Option.some.injEq, Code.Origin.mk.injEq] at same
  exact same.1

theorem Plan.ownStmts_cases (p : Plan) (b : Block) :
    (∃ type, b.content = .unknown type ∧
      p.ownStmts b = [.unsupported (p.origin b.id) ("Node '" ++ type.display ++ "' not supported.")]) ∨
      p.ownStmts b = p.blockStmts b := by
  unfold Plan.ownStmts
  split
  · next type content => exact .inl ⟨type, content, rfl⟩
  · exact .inr rfl

theorem Plan.every_blockStmts (p : Plan) (b : Block) : Code.Stmt.every (p.blockStmts b) = p.blockStmts b :=
  Code.Stmt.every_of_flat (Interpretation.blockStmts_plain _ _)

namespace FlowGraph
variable {g : FlowGraph} {active visited : List String} {inLoop : Option String} {place : Place}
  {stmts : List Code.Stmt} {id : String} {b : Block}

/-- All the code, at any depth, is what reachable blocks become, and no header of an unknown kind becomes a
marker. -/
def Made (g : FlowGraph) (stmts : List Code.Stmt) : Prop :=
  ∀ s ∈ Code.Stmt.every stmts, ∃ b ∈ g.blocks, g.Reachable b.id ∧ g.plan.Makes b s ∧
    (b.content.isKnown = false → s.isMarker = true → ∀ l ∈ g.loops (.ofGraph g), l.header ≠ b.id)

namespace Made
variable {more body thenPart : List Code.Stmt} {test : Code.Expr}

theorem nil : g.Made [] := by
  intro s member
  cases member

theorem append (first : g.Made stmts) (second : g.Made more) : g.Made (stmts ++ more) := by
  intro s member
  rcases Code.Stmt.mem_every_append.1 member with before | later
  · exact first s before
  · exact second s later

section Block
variable (listed : b ∈ g.blocks) (live : g.Reachable b.id)
include listed live

theorem block : g.Made (g.plan.blockStmts b) := by
  intro s own
  rw [g.plan.every_blockStmts] at own
  refine ⟨b, listed, live, .own own, fun unknown => ?_⟩
  cases content : b.content <;> simp_all [Content.isKnown, Plan.blockStmts, Code.blockStmts]

theorem own (plain : ∀ l ∈ g.loops (.ofGraph g), l.header ≠ b.id) : g.Made (g.plan.ownStmts b) := by
  rcases g.plan.ownStmts_cases b with ⟨type, content, is⟩ | is
  · intro s own
    rw [is, Code.Stmt.every_of_flat (by simp [Code.Stmt.isMarker])] at own
    rw [List.mem_singleton.1 own]
    exact ⟨b, listed, live, .unknown content, fun _ _ => plain⟩
  · rw [is]
    exact block listed live

theorem marks (branching : b.content.isBranching = true) :
    g.Made (Code.test (g.plan.origin b.id) b.content).1 := by
  intro s mark
  rw [Code.Stmt.every_of_flat fun s mark => .inr (Interpretation.test_marks _ _ s mark)] at mark
  refine ⟨b, listed, live, .mark mark, fun unknown => ?_⟩
  rw [Interpretation.known_of_branching branching] at unknown
  cases unknown

theorem branch (inThen : g.Made thenPart) (orElse : Option (List Code.Stmt))
    (inElse : g.Made (orElse.getD [])) : g.Made [.branch (g.plan.origin b.id) test thenPart orElse] := by
  intro s member
  simp only [Code.Stmt.mem_every_cons, Code.Stmt.mem_every_nil, or_false, Code.Stmt.inner,
    Code.Stmt.everyElse_eq, List.mem_append] at member
  rcases member with rfl | member | member
  · exact ⟨b, listed, live, .branch _ _ _, by simp [Code.Stmt.isMarker]⟩
  · exact inThen s member
  · exact inElse s member

theorem loop (within : g.Made body) : g.Made [.loop (g.plan.origin b.id) test body] := by
  intro s member
  simp only [Code.Stmt.mem_every_cons, Code.Stmt.mem_every_nil, or_false, Code.Stmt.inner] at member
  rcases member with rfl | member
  · exact ⟨b, listed, live, .loop _ _, by simp [Code.Stmt.isMarker]⟩
  · exact within s member

theorem leave : g.Made [.leave (g.plan.origin b.id)] := by
  intro s member
  simp only [Code.Stmt.mem_every_cons, Code.Stmt.mem_every_nil, or_false, Code.Stmt.inner,
    List.not_mem_nil] at member
  rw [member]
  exact ⟨b, listed, live, .leave, by simp [Code.Stmt.isMarker]⟩

end Block

theorem stmtsAt (live : g.Reachable id) : g.Made (g.plan.stmtsAt id) := by
  obtain ⟨b, found⟩ := exists_block live.mem_ids
  obtain ⟨listed, rfl⟩ := block?_eq_some found
  have found : g.plan.graph.block? b.id = some b := found
  rw [Plan.stmtsAt, found]
  exact block listed live

end Made

/-- The place can be reached. -/
def Place.Live (g : FlowGraph) : Place → Prop
  | .block next => ∀ id, next = some id → g.Reachable id
  | .arrow id taken => g.Reachable id ∧ ∀ e, taken = some e → e ∈ g.outgoing id

theorem Reachable.behind {label : String} {e : Arrow} (live : g.Reachable id)
    (is : g.branch? id label = some e) : g.Reachable e.target :=
  live.next (target_mem_successors (branch?_eq_some is).1)

theorem Reachable.live (live : g.Reachable id) : (Place.block (some id)).Live g := by
  rintro next ⟨⟩
  exact live

theorem Lowers.made (lowers : g.Lowers active visited inLoop place stmts) (live : place.Live g) :
    g.Made stmts := by
  induction lowers with
  | nothing | deferred | again | met | noArrow => exact .nil
  | @straight _ _ _ b rest listed plain noTest after ih =>
    have here : g.Reachable b.id := live b.id rfl
    have later := ih fun id first => here.next (List.mem_of_mem_head? first)
    exact (Made.own listed here plain).append later
  | @merge _ _ _ b yes no next onward rest listed plain branching yesIs noIs merges goes after ih =>
    have here : g.Reachable b.id := live b.id rfl
    have yesLive := here.behind yesIs
    have meeting := yesLive.next (List.mem_of_mem_head? (Plan.merge?_eq_some merges).1.2)
    have later : g.Made rest := by
      rcases goes with rfl | ⟨rfl, -⟩
      · exact ih meeting.live
      · exact ih (by rintro id ⟨⟩)
    have noMade := Made.stmtsAt (here.behind noIs)
    exact ((Made.marks listed here branching).append
      (.branch listed here (.stmtsAt yesLive) (some _) noMade)).append later
  | @parting _ _ _ b thenPart orElse listed plain branching yes no ihYes ihNo =>
    have here : g.Reachable b.id := live b.id rfl
    have inThen := ihYes ⟨here, fun e is => (branch?_eq_some is).1⟩
    have inElse := ihNo ⟨here, fun e is => (branch?_eq_some is).1⟩
    exact (Made.marks listed here branching).append (Made.branch listed here inThen orElse inElse)
  | onward within after ih =>
    exact ih (live.1.next (target_mem_successors (live.2 _ rfl))).live
  | @exit _ _ id l e stmts member outside after ih =>
    have before := ih (live.1.next (target_mem_successors (live.2 _ rfl))).live
    obtain ⟨b, found⟩ := exists_block live.1.mem_ids
    obtain ⟨listed, rfl⟩ := block?_eq_some found
    apply before.append
    split
    · exact Made.leave listed live.1
    · exact .nil
  | @forever _ _ _ l b next body member listed header outer idle noTest only inside after ih =>
    have here : g.Reachable b.id := live b.id rfl
    have within := ih (here.next (by rw [only]; exact List.mem_cons_self)).live
    exact Made.loop listed here ((Made.block listed here).append within)
  | @turning _ _ _ l b turn stays body rest member listed header outer idle branching staysIs inside outside
      after behind ih ihBehind =>
    have here : g.Reachable b.id := live b.id rfl
    have within := ih (here.behind staysIs).live
    have later := ihBehind fun id is => by
      obtain ⟨e, found, rfl⟩ := Option.map_eq_some_iff.1 is
      exact here.behind found
    exact (Made.marks listed here branching).append ((Made.loop listed here within).append later)
  | @choosing _ _ _ l b yes no thenPart elsePart member listed header outer idle branching yesIs noIs yesInside
      noInside then_ else_ ihThen ihElse =>
    have here : g.Reachable b.id := live b.id rfl
    have inThen := ihThen (here.behind yesIs).live
    have inElse := ihElse (here.behind noIs).live
    exact (Made.marks listed here branching).append
      (.loop listed here (.branch listed here inThen (some elsePart) inElse))

theorem made_of_lowers (lowers : g.Lowers active visited inLoop place stmts) (live : place.Live g) :
    ∀ s ∈ Code.Stmt.every stmts, ∃ b ∈ g.blocks, g.Reachable b.id ∧ g.plan.Makes b s := by
  intro s member
  obtain ⟨b, listed, reached, makes, -⟩ := lowers.made live s member
  exact ⟨b, listed, reached, makes⟩

end FlowGraph
end Flowchart
