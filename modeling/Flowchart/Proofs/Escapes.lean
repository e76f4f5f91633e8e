import Flowchart.Proofs.Shapes
/-! Loops that are left from inside. The code behind such an arrow is written in front of leaving the loop,
and what stands behind the loop comes after it. This is right where nothing is left to do behind the loop:
the way out leads to the end of the program, or back to the loop around. -/
namespace Flowchart.FlowGraph

variable {g : FlowGraph} {id next : String} {l outer other : Loop} {e : Arrow}

/-- The arrow leaves the loop from inside, from another block than the header. -/
structure Escapes (g : FlowGraph) (l : Loop) (e : Arrow) : Prop where
  member : l ∈ g.loops (.ofGraph g)
  listed : e ∈ g.arrows
  inside : e.source ∈ l.body
  apart : e.source ≠ l.header
  outside : e.target ∉ l.body

/-- Nothing but the end of the program stands behind the loop: the arrow leaves no other loop, and where the
header leads out of the loop, it leads to an end. -/
structure Finishes (g : FlowGraph) (l : Loop) (e : Arrow) : Prop where
  alone : ∀ l' ∈ g.loops (.ofGraph g), e.source ∈ l'.body → l' = l
  ends : ∀ next ∈ g.successors l.header, next ∉ l.body →
    ∃ b, g.block? next = some b ∧ b.content.isFinish = true

/-- What follows a block up to the header of the loop around: the rest of a round. -/
def RestOfRound (g : FlowGraph) (header : String) : String → String → Prop :=
  Relation.ReflTransGen fun a b => a ≠ header ∧ b ∈ g.successors a

/-- From the block on, the round stays in the loop, and meets no block that follows the header directly. -/
def Rounds (g : FlowGraph) (outer : Loop) (id : String) : Prop :=
  ∀ x, g.RestOfRound outer.header id x → x ≠ outer.header →
    x ∈ outer.body ∧ x ∉ g.successors outer.header

/-- Nothing but the next round of the loop around stands behind the loop: the arrow leads to the rest of a
round, and where the header leads out of the loop, it leads back to the loop around. -/
structure Returns (g : FlowGraph) (l : Loop) (e : Arrow) (outer : Loop) : Prop where
  member : outer ∈ g.loops (.ofGraph g)
  around : l.header ∈ outer.body
  other : outer ≠ l
  nearest : ∀ l' ∈ g.loops (.ofGraph g), e.source ∈ l'.body → l' = l ∨ outer.header ∈ l'.body
  back : ∀ next ∈ g.successors l.header, next ∉ l.body → next = outer.header
  rounds : g.Rounds outer e.target
  direct : e.target = outer.header → ∀ next ∈ g.successors outer.header, next ∉ l.body

/-- A graph that nested code can be made of: its reachable blocks have a meaning and the arrows they need, and
only the arrows that close loops make cycles. Loops may be left anywhere. -/
structure Reducible (g : FlowGraph) : Prop extends g.Tidy where
  known : ∀ b ∈ g.blocks, g.Reachable b.id → b.content.isKnown = true
  complete : ∀ l ∈ g.loops (.ofGraph g), ∀ b ∈ g.blocks, b.id ∈ l.body → b.content.isBranching = true →
    (∃ e ∈ g.outgoing b.id, e.label = some "yes") ∧ ∃ e ∈ g.outgoing b.id, e.label = some "no"
  acyclic : ∀ id, g.Reachable id → ¬Relation.TransGen g.Forward id id

/-- Loops are left from inside only where nothing is left to do behind them. -/
structure Rejoining (g : FlowGraph) : Prop extends g.Reducible where
  rejoins : ∀ l e, g.Escapes l e → g.Finishes l e ∨ ∃ outer, g.Returns l e outer

/-- Loops that are left only at their headers are not left from inside. -/
theorem Structured.rejoining (structured : g.Structured) : g.Rejoining where
  toTidy := structured.tidy
  known := structured.known
  complete := structured.complete
  acyclic := structured.acyclic
  rejoins l e escapes := by
    have atHeader := structured.leftAtHeader l escapes.member e escapes.listed escapes.inside escapes.outside
    exact absurd atHeader escapes.apart

/-! Ways forward and loops. -/

section Ways
variable {a b : String}

theorem Forward.step (forward : g.Forward a b) : b ∈ g.successors a := by
  obtain ⟨e, listed, source, target, -⟩ := forward
  exact mem_successors.2 ⟨e, listed, source, target⟩

theorem Reachable.ahead (live : g.Reachable a) (ahead : Relation.ReflTransGen g.Forward a b) :
    g.Reachable b := by
  induction ahead with
  | refl => exact live
  | tail _ forward ih => exact ih.next forward.step

/-- A step is forward, or closes the loop of the block it leads to. -/
theorem forward_or_back (step : b ∈ g.successors a) :
    g.Forward a b ∨ ∃ l ∈ g.loops (.ofGraph g), l.header = b ∧ a ∈ l.body := by
  obtain ⟨e, listed, rfl, rfl⟩ := mem_successors.1 step
  by_cases back : e ∈ g.backArrows (.ofGraph g)
  · exact .inr (mem_backArrows.1 back).loop
  · exact .inl ⟨e, listed, rfl, rfl, back⟩

/-- Where the arrows that close no loop lead upwards, they make no cycle. -/
theorem acyclic_of_rank (rank : String → Nat)
    (rises : ∀ e ∈ g.arrows, (∃ l ∈ g.loops (.ofGraph g), l.header = e.target ∧ e.source ∈ l.body) ∨
      rank e.source < rank e.target) (id : String) : ¬Relation.TransGen g.Forward id id := by
  have lift (a b : String) (forward : g.Forward a b) : rank a < rank b := by
    obtain ⟨e, listed, rfl, rfl, ahead⟩ := forward
    refine (rises e listed).resolve_left ?_
    rintro ⟨l, member, header, inside⟩
    apply ahead
    rw [mem_backArrows]
    exact ⟨listed, reachable_of_mem_body member inside, header ▸ header_dominates member inside⟩
  intro cycle
  have rises := cycle.lift rank lift
  rw [Relation.transGen_eq_self] at rises
  exact Nat.lt_irrefl _ rises

/-- A way forward into a loop passes its header, or it began inside. -/
theorem header_ahead (member : l ∈ g.loops (.ofGraph g)) (live : g.Reachable a)
    (ahead : Relation.ReflTransGen g.Forward a b) (inside : b ∈ l.body) :
    Relation.ReflTransGen g.Forward a l.header ∨ a ∈ l.body := by
  induction ahead with
  | refl => exact .inr inside
  | @tail y z before forward ih =>
    by_cases same : z = l.header
    · exact .inl (same ▸ before.tail forward)
    · exact ih (entered_at_header member forward.step (live.ahead before) inside same)

/-- The header of a loop leads forward to every block of the loop. -/
theorem ahead_of_header (member : l ∈ g.loops (.ofGraph g)) (inside : a ∈ l.body) :
    Relation.ReflTransGen g.Forward l.header a := by
  have here := reachable_header member
  have along {x : String} {ids : List String} (begun : Relation.ReflTransGen g.Forward l.header x)
      (way : g.Way x a ids) (within : ∀ y ∈ ids, y ∈ l.body) : Relation.ReflTransGen g.Forward l.header a := by
    induction way with
    | stay => exact begun
    | @go x y _ ids step rest ih =>
      refine ih inside ?_ fun z later => within z (List.mem_cons_of_mem _ later)
      rcases forward_or_back step with forward | ⟨l', member', rfl, before⟩
      · exact begun.tail forward
      -- an arrow back to a header that was passed already, or to the header of the loop itself
      · rcases header_ahead member' here begun before with ahead | around
        · exact ahead
        · have inside' := within l'.header (List.mem_cons_of_mem _ rest.first_mem)
          rw [header_eq_of_mem member member' around inside']
  obtain ⟨ids, way, within⟩ := way_inside member inside
  exact along .refl way within

section Nested
variable (member : l ∈ g.loops (.ofGraph g)) (member' : outer ∈ g.loops (.ofGraph g))
  (around : l.header ∈ outer.body) (different : outer ≠ l) (inside : a ∈ l.body)
include member member' around different inside

theorem ne_header_of_around : a ≠ outer.header := by
  rintro rfl
  exact different (loop_eq member' member (header_eq_of_mem member' member inside around))

/-- A loop that begins inside of another one lies in it. -/
theorem mem_body_of_around : a ∈ outer.body := by
  rcases (mem_body member).1 inside with rfl | ⟨live, back, closes, header, ids, way, avoids⟩
  · exact around
  have here : l.header ∈ l.body := header_mem_body member
  have last : back.source ∈ outer.body := by
    have step : l.header ∈ g.successors back.source := mem_successors.2 ⟨back, closes.1, rfl, header⟩
    exact entered_at_header member' step closes.2.1 around
      (ne_header_of_around member member' around different here)
  generalize leads : back.source = source at way
  induction way with
  | stay => rwa [leads] at last
  | @go x y _ ids step rest ih =>
    subst leads
    have later : l.header ∉ ids := fun passed => avoids (List.mem_cons_of_mem _ passed)
    have within : y ∈ l.body :=
      (mem_body member).2 (.inr ⟨live.next step, back, closes, header, ids, rest, later⟩)
    exact entered_at_header member' step live (ih within (live.next step) later rfl)
      (ne_header_of_around member member' around different within)

end Nested

/-! Arrows out of a loop. -/

section Escapes
variable (escapes : g.Escapes l e)
include escapes

theorem Escapes.step : e.target ∈ g.successors e.source :=
  mem_successors.2 ⟨e, escapes.listed, rfl, rfl⟩

theorem Escapes.live : g.Reachable e.source :=
  reachable_of_mem_body escapes.member escapes.inside

theorem Finishes.forward (finishes : g.Finishes l e) : g.Forward e.source e.target := by
  rcases forward_or_back escapes.step with forward | ⟨l', member, header, inside⟩
  · exact forward
  · cases finishes.alone l' member inside
    exact absurd ((mem_body member).2 (.inl header.symm)) escapes.outside

/-- An arrow to the rest of a round is one forward. -/
theorem Returns.forward (returns : g.Returns l e outer) (other : e.target ≠ outer.header) :
    g.Forward e.source e.target := by
  rcases forward_or_back escapes.step with forward | ⟨l', member, header, inside⟩
  · exact forward
  · rcases returns.nearest l' member inside with rfl | around
    · exact absurd ((mem_body member).2 (.inl header.symm)) escapes.outside
    · have within := (returns.rounds e.target .refl other).1
      rw [← header] at within other
      exact absurd (header_eq_of_mem member returns.member within around) other

theorem Returns.source_mem (returns : g.Returns l e outer) : e.source ∈ outer.body :=
  mem_body_of_around escapes.member returns.member returns.around returns.other escapes.inside

theorem Returns.source_ne (returns : g.Returns l e outer) : e.source ≠ outer.header :=
  ne_header_of_around escapes.member returns.member returns.around returns.other escapes.inside

/-- What lies ahead of the arrow does not lead back into the loop. -/
theorem Escapes.not_mem_of_ahead (acyclic : ∀ id, g.Reachable id → ¬Relation.TransGen g.Forward id id)
    (forward : g.Forward e.source e.target) (ahead : Relation.ReflTransGen g.Forward e.target a)
    (step : b ∈ g.successors a) : b ∉ l.body := by
  intro inside
  have here := reachable_header escapes.member
  have live := escapes.live.next escapes.step
  have out : Relation.TransGen g.Forward l.header e.target :=
    .tail' (ahead_of_header escapes.member escapes.inside) forward
  have again (within : a ∈ l.body) : Relation.ReflTransGen g.Forward e.target l.header :=
    (header_ahead escapes.member live ahead within).resolve_right escapes.outside
  suffices back : Relation.ReflTransGen g.Forward e.target l.header from
    acyclic l.header here (out.trans_left back)
  by_cases same : b = l.header
  · subst same
    rcases forward_or_back step with forward | ⟨l', member, header, within⟩
    · exact ahead.tail forward
    · cases loop_eq member escapes.member header
      exact again within
  · exact again (entered_at_header escapes.member step (live.ahead ahead) inside same)

/-- The header of an inner loop does not lead out of a loop around it. -/
theorem Rejoining.ne_source (rejoining : g.Rejoining) (member : other ∈ g.loops (.ofGraph g)) :
    other.header ≠ e.source := by
  intro header
  have inside : e.source ∈ other.body := (mem_body member).2 (.inl header.symm)
  have same (is : other = l) : False := escapes.apart (header ▸ is ▸ rfl)
  rcases rejoining.rejoins l e escapes with finishes | ⟨outer, returns⟩
  · exact same (finishes.alone other member inside)
  · rcases returns.nearest other member inside with is | around
    · exact same is
    · have within : other.header ∈ outer.body := header ▸ returns.source_mem escapes
      have equal := header_eq_of_mem member returns.member within around
      exact returns.source_ne escapes (header.symm.trans equal)

end Escapes

end Ways

/-! Where structuring stands, with loops left from inside. -/

section Stands
variable {active active' visited visited' : List String} {inLoop around exit : Option String} {b : Block}

/-- Structuring stands at a new block. `around` is the header of the innermost loop around it. In the rest of a
round, behind an arrow out of a loop, the block is followed as if outside of any loop. -/
structure Stands (g : FlowGraph) (active visited : List String) (inLoop around : Option String)
    (id : String) : Prop extends g.Position around (active ++ visited) id where
  apart : around ≠ some id
  opened : ∀ l ∈ g.loops (.ofGraph g), id ∈ l.body → id ≠ l.header → l.header ∈ active
  mode : inLoop = around ∨
    inLoop = none ∧ ∃ outer ∈ g.loops (.ofGraph g), around = some outer.header ∧ g.Rounds outer id

/-- Structuring is back at the header of the loop around. -/
structure Again (g : FlowGraph) (active : List String) (around : Option String) (id : String) : Prop where
  here : around = some id
  busy : id ∈ active
  header : ∃ l ∈ g.loops (.ofGraph g), l.header = id

/-- Structuring comes to a block: back to the header of the loop around, or to a new block. -/
def Comes (g : FlowGraph) (active visited : List String) (inLoop around : Option String) (id : String) : Prop :=
  g.Again active around id ∨ g.Stands active visited inLoop around id

theorem Comes.stands (comes : g.Comes active visited inLoop around id)
    (plain : ∀ l ∈ g.loops (.ofGraph g), l.header ≠ id) : g.Stands active visited inLoop around id := by
  rcases comes with again | stands
  · obtain ⟨l, member, header⟩ := again.header
    exact absurd header (plain l member)
  · exact stands

namespace Stands

theorem new (stands : g.Stands active visited inLoop around id) : id ∉ active ++ visited :=
  fun old => stands.fresh id old .refl

theorem around_mem (stands : g.Stands active visited inLoop around id) {h : String} (is : around = some h) :
    h ∈ active := by
  obtain ⟨l, member, rfl, inside⟩ := stands.within h is
  exact stands.opened l member inside fun same => stands.apart (by rw [is, same])

/-- One step on, not into a loop of the block itself and not out of the loop around: back to the header of the
loop around, or forward to a new block. -/
theorem onward (acyclic : ∀ id, g.Reachable id → ¬Relation.TransGen g.Forward id id)
    (stands : g.Stands active visited inLoop around id) (step : next ∈ g.successors id)
    (apart : ∀ l ∈ g.loops (.ofGraph g), l.header = id → next ∉ l.body)
    (within : ∀ l ∈ g.loops (.ofGraph g), inLoop = some l.header → next ∈ l.body)
    (kept : ∀ v ∈ active, v ∈ active')
    (grown : ∀ v ∈ active' ++ visited', v = id ∨ v ∈ active ++ visited) :
    g.Again active' around next ∨
      g.Forward id next ∧ g.Stands active' visited' inLoop around next := by
  have round {outer : Loop} (is : around = some outer.header) {x : String}
      (later : g.RestOfRound outer.header next x) : g.RestOfRound outer.header id x :=
    .head ⟨fun same => stands.apart (by rw [is, same]), step⟩ later
  by_cases again : around = some next
  · obtain ⟨l, member, header, -⟩ := stands.within next again
    exact .inl ⟨again, kept _ (stands.around_mem again), l, member, header⟩
  have inside (h : String) (is : around = some h) :
      ∃ l ∈ g.loops (.ofGraph g), l.header = h ∧ next ∈ l.body := by
    rcases stands.mode with same | ⟨-, outer, member, same, rounds⟩
    · obtain ⟨l, member, rfl, -⟩ := stands.within h is
      exact ⟨l, member, rfl, within l member (same.trans is)⟩
    · cases same.symm.trans is
      have other : next ≠ outer.header := fun back => again (by rw [is, back])
      exact ⟨outer, member, rfl, (rounds next (round is .refl) other).1⟩
  obtain ⟨e, listed, source, target⟩ := mem_successors.1 step
  have forward : e ∉ g.backArrows (.ofGraph g) := fun back =>
    again (stands.again_of_back inside apart back source target)
  refine .inr ⟨⟨e, listed, source, target, forward⟩,
    stands.advance inside apart acyclic ⟨e, listed, source, target, forward⟩ grown, again, ?_, ?_⟩
  · intro l member here other
    have before := entered_at_header member step stands.live here other
    exact kept _ (stands.opened l member before fun same => apart l member same.symm here)
  · rcases stands.mode with same | ⟨outside, outer, member, same, rounds⟩
    · exact .inl same
    · exact .inr ⟨outside, outer, member, same, fun x later => rounds x (round same later)⟩

/-- The step from a header into its loop. -/
theorem enter (acyclic : ∀ id, g.Reachable id → ¬Relation.TransGen g.Forward id id)
    (stands : g.Stands active visited inLoop around l.header) (member : l ∈ g.loops (.ofGraph g))
    (step : next ∈ g.successors l.header) (inside : next ∈ l.body) :
    g.Comes (l.header :: active) [] (some l.header) (some l.header) next := by
  by_cases again : l.header = next
  · exact .inl ⟨congrArg some again, by simp [again], l, member, again⟩
  have position : g.Position (some l.header) (l.header :: active ++ []) next :=
    stands.toPosition.enter acyclic member rfl step inside again (by grind)
  refine .inr ⟨position, by simpa using again, fun l' member' inside' other => ?_, .inl rfl⟩
  have before := entered_at_header member' step stands.live inside' other
  by_cases same : l.header = l'.header
  · rw [same]
    exact List.mem_cons_self
  · exact List.mem_cons_of_mem _ (stands.opened l' member' before same)

/-- The step out of a loop whose way out leads to the end of the program. -/
theorem finish (acyclic : ∀ id, g.Reachable id → ¬Relation.TransGen g.Forward id id)
    (stands : g.Stands active visited inLoop around e.source) (escapes : g.Escapes l e)
    (finishes : g.Finishes l e) : g.Stands active (e.source :: visited) none none e.target := by
  have outside (l' : Loop) (member : l' ∈ g.loops (.ofGraph g)) (inside : e.target ∈ l'.body) :
      e.target = l'.header := by
    by_contra other
    cases finishes.alone l' member (entered_at_header member escapes.step stands.live inside other)
    exact escapes.outside inside
  have fresh := stands.fresh_of_forward acyclic (finishes.forward escapes)
    (show ∀ v ∈ active ++ e.source :: visited, v = e.source ∨ v ∈ active ++ visited by grind)
  exact ⟨⟨stands.live.next escapes.step, fresh, by simp,
    fun l' member inside other => absurd (outside l' member inside) other⟩, by simp,
    fun l' member inside other => absurd (outside l' member inside) other, .inl rfl⟩

/-- The step out of a loop whose way out leads back to the loop around. -/
theorem leave (acyclic : ∀ id, g.Reachable id → ¬Relation.TransGen g.Forward id id)
    (stands : g.Stands active visited inLoop around e.source) (escapes : g.Escapes l e)
    (returns : g.Returns l e outer) :
    g.Comes active (e.source :: visited) none (some outer.header) e.target := by
  have opened := stands.opened outer returns.member (returns.source_mem escapes) (returns.source_ne escapes)
  by_cases again : e.target = outer.header
  · exact .inl ⟨congrArg some again.symm, again ▸ opened, outer, returns.member, again.symm⟩
  have around (l' : Loop) (member : l' ∈ g.loops (.ofGraph g)) (inside : e.target ∈ l'.body)
      (other : e.target ≠ l'.header) : e.source ∈ l'.body ∧ outer.header ∈ l'.body := by
    have before := entered_at_header member escapes.step stands.live inside other
    refine ⟨before, (returns.nearest l' member before).resolve_left ?_⟩
    rintro rfl
    exact escapes.outside inside
  have fresh := stands.fresh_of_forward acyclic (returns.forward escapes again)
    (show ∀ v ∈ active ++ e.source :: visited, v = e.source ∨ v ∈ active ++ visited by grind)
  refine .inr ⟨⟨stands.live.next escapes.step, fresh, ?_, ?_⟩, ?_, ?_, ?_⟩
  · rintro h ⟨⟩
    exact ⟨outer, returns.member, rfl, (returns.rounds e.target .refl again).1⟩
  · intro l' member inside other
    exact ⟨outer.header, (around l' member inside other).2, rfl⟩
  · simpa using Ne.symm again
  · intro l' member inside other
    obtain ⟨before, holds⟩ := around l' member inside other
    refine stands.opened l' member before fun same => ?_
    have equal := header_eq_of_mem member returns.member (same ▸ returns.source_mem escapes) holds
    exact returns.source_ne escapes (same.trans equal)
  · exact .inr ⟨rfl, outer, returns.member, rfl, returns.rounds⟩

end Stands

/-! What stands behind a loop. -/

/-- Every arrow out of the loop from inside leads to `exit`, or to the end of the program as `exit` does. -/
def Fits (g : FlowGraph) (l : Loop) (exit : Option String) : Prop :=
  ∀ e, g.Escapes l e →
    (g.Finishes l e → exit = none ∨
      ∃ id b, exit = some id ∧ g.block? id = some b ∧ b.content.isFinish = true) ∧
    ∀ outer, g.Returns l e outer → exit = some outer.header

/-- Where the header of the loop leads out, it leads to what stands behind the loop. -/
theorem fits_of_step (step : next ∈ g.successors l.header) (outside : next ∉ l.body) :
    g.Fits l (some next) := by
  intro e escapes
  constructor
  · intro finishes
    obtain ⟨b, found, finish⟩ := finishes.ends next step outside
    exact .inr ⟨next, b, rfl, found, finish⟩
  · intro outer returns
    rw [returns.back next step outside]

/-- Where it does not, the loop around goes on behind the loop. -/
theorem Stands.fits (stands : g.Stands active visited inLoop around l.header)
    (member : l ∈ g.loops (.ofGraph g)) : g.Fits l around := by
  intro e escapes
  -- a loop around the header is around the block that leads out as well
  have holds (h : String) (is : around = some h) : ∃ l' ∈ g.loops (.ofGraph g), l'.header = h ∧ l' ≠ l ∧
      e.source ∈ l'.body := by
    obtain ⟨l', member', rfl, inside⟩ := stands.within h is
    have other : l' ≠ l := by
      rintro rfl
      exact stands.apart is
    exact ⟨l', member', rfl, other, mem_body_of_around member member' inside other escapes.inside⟩
  constructor
  · intro finishes
    left
    by_contra inside
    obtain ⟨h, is⟩ := Option.ne_none_iff_exists'.1 inside
    obtain ⟨l', member', -, other, within⟩ := holds h is
    exact other (finishes.alone l' member' within)
  · intro outer returns
    have apart : l.header ≠ outer.header := fun same => returns.other (loop_eq returns.member member same.symm)
    obtain ⟨h, inside, is⟩ := stands.innermost outer returns.member returns.around apart
    obtain ⟨l', member', rfl, other, within⟩ := holds h is
    have around := (returns.nearest l' member' within).resolve_left other
    rw [is, header_eq_of_mem member' returns.member inside around]

/-! The steps of structuring. -/

/-- Structuring comes to a place. An arrow is taken from a block that was just met and is no header. -/
def Place.Comes (g : FlowGraph) (active visited : List String) (inLoop around : Option String) : Place → Prop
  | .block none => around = none
  | .block (some id) => g.Comes active visited inLoop around id
  | .arrow id taken => (∃ earlier, visited = id :: earlier ∧ g.Stands active earlier inLoop around id) ∧
      (∀ l ∈ g.loops (.ofGraph g), l.header ≠ id) ∧ (taken = none → around = none) ∧
      ∀ e, taken = some e → e ∈ g.outgoing id

/-- The block that a place leads to. -/
def Place.target : Place → Option String
  | .block current => current
  | .arrow _ taken => taken.map Arrow.target

namespace Stands

theorem around_eq (stands : g.Stands active visited inLoop around id) {h : String} (is : inLoop = some h) :
    around = some h := by
  rcases stands.mode with same | ⟨outside, -⟩
  · rw [← same, is]
  · rw [outside] at is
    cases is

/-- The block belongs to the loop that is being followed, and is not its header. -/
theorem inside (stands : g.Stands active visited inLoop around id) (member : l ∈ g.loops (.ofGraph g))
    (is : around = some l.header) : id ∈ l.body ∧ id ≠ l.header := by
  obtain ⟨l', member', header, inside⟩ := stands.within _ is
  cases loop_eq member' member header
  exact ⟨inside, fun same => stands.apart (by rw [is, same])⟩

theorem not_inner (stands : g.Stands active visited none around id) : ¬g.plan.isInner id = true := by
  intro inner
  obtain ⟨l, member, is⟩ := List.any_eq_true.1 inner
  simp only [Bool.and_eq_true, bne_iff_ne, List.contains_iff_mem] at is
  obtain ⟨h, holds, same⟩ := stands.innermost l member is.1.2 (Ne.symm is.1.1)
  rcases stands.mode with outside | ⟨-, outer, member', around, rounds⟩
  · rw [← outside] at same
    cases same
  · cases around.symm.trans same
    obtain ⟨inside, apart⟩ := stands.inside member' around
    have live := reachable_header member
    have within := entered_at_header member' is.2 live inside apart
    have equal := header_eq_of_mem member member' within holds
    exact (rounds id .refl apart).2 (equal ▸ is.2)

/-- A block without a test leads on inside of the loop around. -/
theorem onward_straight (rejoining : g.Rejoining) (stands : g.Stands active visited inLoop around b.id)
    (listed : b ∈ g.blocks) (plain : ∀ l ∈ g.loops (.ofGraph g), l.header ≠ b.id)
    (noTest : b.content.isBranching = false) (step : next ∈ g.successors b.id) :
    g.Again active around next ∨
      g.Forward b.id next ∧ g.Stands active (b.id :: visited) inLoop around next := by
  refine stands.onward rejoining.acyclic step (fun l member header => absurd header (plain l member))
    (fun l member is => ?_) (fun v old => old) (by grind)
  obtain ⟨next', step', inside⟩ := exists_next_inside member (stands.inside member (stands.around_eq is)).1
  rw [rejoining.toTidy.successors_eq listed stands.live noTest step, List.mem_singleton] at step'
  rwa [← step']

/-- The arrow that a header leads out by stays inside of the loop around. -/
theorem onward_header (rejoining : g.Rejoining) (stands : g.Stands active visited inLoop around l.header)
    (member : l ∈ g.loops (.ofGraph g)) (step : next ∈ g.successors l.header) (outside : next ∉ l.body) :
    g.Again (l.header :: active) around next ∨
      g.Forward l.header next ∧ g.Stands (l.header :: active) visited inLoop around next := by
  refine stands.onward rejoining.acyclic step (fun l' member' header => ?_) (fun l' member' is => ?_)
    (fun v old => List.mem_cons_of_mem _ old) (by grind)
  · cases loop_eq member' member header
    exact outside
  · by_contra out
    obtain ⟨e, listed, source, rfl⟩ := mem_successors.1 step
    obtain ⟨inside, apart⟩ := stands.inside member' (stands.around_eq is)
    have escapes : g.Escapes l' e := ⟨member', listed, source ▸ inside, source ▸ apart, out⟩
    exact rejoining.ne_source escapes member source.symm

/-- A branch of one straight block that leads on inside of the loop around lies in that loop itself. -/
theorem onward_branch (rejoining : g.Rejoining) (stands : g.Stands active visited inLoop around b.id)
    (plain : ∀ l ∈ g.loops (.ofGraph g), l.header ≠ b.id) (out : e ∈ g.outgoing b.id)
    (straight : g.plan.isStraight e.target = true) (step : next ∈ g.successors e.target)
    (within : ∀ l ∈ g.loops (.ofGraph g), inLoop = some l.header → next ∈ l.body) :
    g.Forward b.id e.target ∧ g.Stands active (b.id :: visited) inLoop around e.target := by
  have ordinary := not_header_iff.1 (Plan.isStraight_iff.1 straight).1
  obtain ⟨listed, source⟩ : e ∈ g.arrows ∧ e.source = b.id := mem_outgoing.1 out
  suffices within : ∀ l ∈ g.loops (.ofGraph g), inLoop = some l.header → e.target ∈ l.body by
    refine (stands.onward rejoining.acyclic (target_mem_successors out)
      (fun l member header => absurd header (plain l member)) within (fun v old => old)
      (by grind)).resolve_left ?_
    intro again
    obtain ⟨l, member, header⟩ := again.header
    exact ordinary l member header
  intro l member is
  by_contra outside
  obtain ⟨inside, apart⟩ := stands.inside member (stands.around_eq is)
  have escapes : g.Escapes l e := ⟨member, listed, source ▸ inside, source ▸ apart, outside⟩
  have forward : g.Forward e.source e.target := by
    rcases rejoining.rejoins l e escapes with finishes | ⟨outer, returns⟩
    · exact finishes.forward escapes
    · exact returns.forward escapes fun same => ordinary outer returns.member same.symm
  exact escapes.not_mem_of_ahead rejoining.acyclic forward .refl step (within l member is)

end Stands

/-- The block where two branches meet lies in the loop being followed. -/
theorem Tidy.merge?_within (tidy : g.Tidy) {yes no : Arrow}
    (merges : g.plan.merge? (some yes) (some no) (g.plan.loopBody inLoop) = some next)
    (member : l ∈ g.loops (.ofGraph g)) (is : inLoop = some l.header) : next ∈ l.body := by
  rw [is, tidy.loopBody_plan member] at merges
  exact Plan.merge?_within merges

/-- A straight block is no header and has no test. -/
theorem exists_straight (straight : g.plan.isStraight id = true) :
    ∃ b ∈ g.blocks, b.id = id ∧ (∀ l ∈ g.loops (.ofGraph g), l.header ≠ b.id) ∧
      b.content.isBranching = false := by
  obtain ⟨plain, b, found, simple⟩ := Plan.isStraight_iff.1 straight
  obtain ⟨listed, rfl⟩ := block?_eq_some found
  refine ⟨b, listed, rfl, not_header_iff.1 plain, ?_⟩
  cases content : b.content <;> simp_all [Content.isStraight, Content.isBranching]

namespace Stands

theorem union {visited₁ visited₂ : List String} (first : g.Stands active visited₁ inLoop around id)
    (second : g.Stands active visited₂ inLoop around id)
    (covered : ∀ v ∈ active ++ visited, v ∈ active ++ visited₁ ∨ v ∈ active ++ visited₂) :
    g.Stands active visited inLoop around id := by
  refine ⟨⟨first.live, fun v member => ?_, first.within, first.innermost⟩, first.apart, first.opened,
    first.mode⟩
  rcases covered v member with old | old
  · exact first.fresh v old
  · exact second.fresh v old

/-- The place where two branches of one straight block each meet. -/
theorem onward_merge (rejoining : g.Rejoining) (stands : g.Stands active visited inLoop around b.id)
    (plain : ∀ l ∈ g.loops (.ofGraph g), l.header ≠ b.id) {yes no : Arrow}
    (yesIs : g.branch? b.id "yes" = some yes) (noIs : g.branch? b.id "no" = some no)
    (merges : g.plan.merge? (some yes) (some no) (g.plan.loopBody inLoop) = some next) :
    g.Again active around next ∨
      Relation.ReflTransGen g.Forward b.id next ∧
        g.Stands active (Plan.withBranches yes.target no.target (b.id :: visited)) inLoop around next := by
  obtain ⟨⟨yesStraight, yesNext⟩, noStraight, noNext⟩ := Plan.merge?_eq_some merges
  have through {label : String} {e : Arrow} (is : g.branch? b.id label = some e)
      (straight : g.plan.isStraight e.target = true) (step : next ∈ g.successors e.target) :
      g.Again active around next ∨
        Relation.ReflTransGen g.Forward b.id next ∧
          g.Stands active (e.target :: b.id :: visited) inLoop around next := by
    obtain ⟨forward, later⟩ := stands.onward_branch rejoining plain (branch?_eq_some is).1 straight step
      fun l member => rejoining.toTidy.merge?_within merges member
    obtain ⟨b', listed, same, ordinary, noTest⟩ := exists_straight straight
    rw [← same] at forward later step ⊢
    rcases later.onward_straight rejoining listed ordinary noTest step with again | ⟨ahead, after⟩
    · exact .inl again
    · exact .inr ⟨.head forward (.single ahead), after⟩
  rcases through yesIs yesStraight (List.mem_of_mem_head? yesNext) with again | ⟨ahead, first⟩
  · exact .inl again
  rcases through noIs noStraight (List.mem_of_mem_head? noNext) with again | ⟨-, second⟩
  · exact .inl again
  exact .inr ⟨ahead, first.union second (by grind [Plan.withBranches])⟩

end Stands

end Stands

end Flowchart.FlowGraph
