import Flowchart.Proofs.Dominance
/-! Natural loops are what their arrows make them. The headers are the blocks that a reachable block
they dominate points back to, and a loop holds what leads to such a block without passing the header.
Dominance keeps the body below its header: the header is the only place where the loop is entered. -/
namespace Flowchart

namespace Loops
variable {new old l : Loop} {ls : Loops} {h : String}

/-- Joining a loop adds its header where no loop has it. -/
theorem headers_join (new : Loop) (ls : Loops) : (join new ls).map Loop.header =
    if new.header ∈ ls.map Loop.header then ls.map Loop.header else ls.map Loop.header ++ [new.header] := by
  induction ls with
  | nil => simp [join]
  | cons old rest ih =>
    by_cases same : old.header = new.header
    · simp [join, same]
    · have other : ¬new.header = old.header := fun h => same h.symm
      simp only [join, beq_iff_eq, same, ↓reduceIte, List.map_cons, ih, List.mem_cons, other, false_or]
      split <;> simp

/-- A loop after joining is an old one of another header, or it holds what is new and what the old one
of its header held. -/
theorem mem_join (distinct : (ls.map Loop.header).Nodup) (member : l ∈ join new ls) :
    (l.header ≠ new.header ∧ l ∈ ls) ∨
      (l.header = new.header ∧ ∀ m, m ∈ l.body ↔
        m ∈ new.body ∨ ∃ old ∈ ls, old.header = new.header ∧ m ∈ old.body) := by
  induction ls with
  | nil =>
    cases List.mem_singleton.1 member
    exact .inr ⟨rfl, by simp⟩
  | cons old rest ih =>
    obtain ⟨unused, distinct⟩ := List.nodup_cons.1 distinct
    by_cases same : old.header = new.header
    · have alone (other : Loop) (inside : other ∈ rest) : other.header ≠ new.header :=
        fun again => unused (List.mem_map.2 ⟨other, inside, again.trans same.symm⟩)
      simp only [join, beq_iff_eq, same, ↓reduceIte] at member
      rcases List.mem_cons.1 member with rfl | inside
      · refine .inr ⟨rfl, fun m => ?_⟩
        simp only [List.mem_append, List.mem_filter, List.mem_cons, exists_eq_or_imp]
        grind
      · exact .inl ⟨alone l inside, List.mem_cons_of_mem _ inside⟩
    · simp only [join, beq_iff_eq, same, ↓reduceIte] at member
      rcases List.mem_cons.1 member with rfl | inside
      · exact .inl ⟨same, List.mem_cons_self⟩
      · rcases ih distinct inside with ⟨other, kept⟩ | ⟨here, body⟩
        · exact .inl ⟨other, List.mem_cons_of_mem _ kept⟩
        · refine .inr ⟨here, fun m => ?_⟩
          simp [body, same]

theorem has_iff : ls.has h = true ↔ h ∈ ls.map Loop.header := by
  simp [has]

/-- The body found under the header of a loop is that of the loop. -/
theorem body?_of_mem (distinct : (ls.map Loop.header).Nodup) (member : l ∈ ls) :
    ls.body? l.header = some l.body := by
  induction ls with
  | nil => simp at member
  | cons first rest ih =>
    obtain ⟨unused, distinct⟩ := List.nodup_cons.1 distinct
    rcases List.mem_cons.1 member with rfl | inside
    · simp [body?]
    · have other : first.header ≠ l.header := fun same => unused (List.mem_map.2 ⟨l, inside, same.symm⟩)
      simpa [body?, List.find?_cons, other] using ih distinct inside

end Loops

namespace FlowGraph
variable {g : FlowGraph} {back : Arrow} {l : Loop} {h m : String}

/-- An arrow back from a reachable block to one that dominates it. -/
def ClosesLoop (g : FlowGraph) (back : Arrow) : Prop :=
  back ∈ g.arrows ∧ g.Reachable back.source ∧ g.Dominates back.target back.source

/-- A way from the block to the source of an arrow back to `h` avoids `h`. -/
def LeadsBack (g : FlowGraph) (h m : String) : Prop :=
  ∃ back, g.ClosesLoop back ∧ back.target = h ∧ ∃ ids, g.Way m back.source ids ∧ h ∉ ids

/-- The back arrows found are those that close loops. -/
theorem mem_backArrows : back ∈ g.backArrows (.ofGraph g) ↔ g.ClosesLoop back := by
  simp only [backArrows, List.mem_flatMap, List.mem_filter, mem_incoming, Bool.and_eq_true,
    List.contains_eq_mem, decide_eq_true_eq, mem_reachable, Dominators.mem_of_iff_dominates,
    Dominators.mem_of_ofGraph]
  constructor
  · rintro ⟨_, -, ⟨member, rfl⟩, live, -, -, dominates⟩
    exact ⟨member, live, dominates⟩
  · rintro ⟨member, live, dominates⟩
    obtain ⟨source, target⟩ := g.joined back member
    exact ⟨back.target, target, ⟨member, rfl⟩, live, target, source, dominates⟩

/-- The loop of one back arrow: its header, and what leads to its source around the header. -/
theorem mem_body_naturalLoop : m ∈ (g.naturalLoop back).body ↔
    m = back.target ∨ (g.Reachable m ∧ ∃ ids, g.Way m back.source ids ∧ back.target ∉ ids) := by
  have inDomain (x : String) : x ∈ g.reachable.filter (· != back.target) ↔
      g.Reachable x ∧ x ≠ back.target := by
    simp [mem_reachable]
  simp only [naturalLoop, List.mem_cons]
  refine or_congr_right ⟨fun found => ?_, ?_⟩
  · refine reach_induction
      (fun x => g.Reachable x ∧ ∃ ids, g.Way x back.source ids ∧ back.target ∉ ids)
      (fun x seed inside => ?_) (fun x y known step inside => ?_) m found
    · cases List.mem_singleton.1 seed
      obtain ⟨live, other⟩ := (inDomain _).1 inside
      exact ⟨live, [back.source], .stay _, by simpa using other.symm⟩
    · obtain ⟨-, ids, way, avoids⟩ := known
      obtain ⟨live, other⟩ := (inDomain y).1 inside
      refine ⟨live, y :: ids, .go (mem_predecessors_iff.1 step) way, ?_⟩
      exact List.not_mem_cons_of_ne_of_not_mem other.symm avoids
  · rintro ⟨live, ids, way, avoids⟩
    generalize same : back.source = last at way ⊢
    induction way with
    | stay =>
      refine mem_reach_of_pending (by simp) ((inDomain _).2 ⟨live, ?_⟩)
      exact fun header => avoids (by simp [header])
    | go step rest ih =>
      obtain ⟨other, avoids⟩ := not_or.1 (mt List.mem_cons.2 avoids)
      exact mem_reach_of_next (ih (live.next step) avoids same) (mem_predecessors_iff.2 step)
        ((inDomain _).2 ⟨live, fun header => other header.symm⟩)

/-- What the loops are once the given back arrows are taken in: every header once, and in each body
what the loops of its back arrows hold. -/
structure Collects (g : FlowGraph) (backs : List Arrow) (ls : Loops) : Prop where
  distinct : (ls.map Loop.header).Nodup
  headers : ∀ h, h ∈ ls.map Loop.header ↔ ∃ back ∈ backs, back.target = h
  bodies : ∀ l ∈ ls, ∀ m, m ∈ l.body ↔
    ∃ back ∈ backs, back.target = l.header ∧ m ∈ (g.naturalLoop back).body

theorem Collects.join {backs : List Arrow} {ls : Loops} (before : Collects g backs ls) (back : Arrow) :
    Collects g (backs ++ [back]) (Loops.join (g.naturalLoop back) ls) := by
  have headers := Loops.headers_join (g.naturalLoop back) ls
  refine ⟨?_, fun h => ?_, fun l member m => ?_⟩
  · rw [headers]
    split
    · exact before.distinct
    · next unused =>
      exact List.nodup_append.2 ⟨before.distinct, by simp, by grind⟩
  · rw [headers]
    have known := before.headers h
    have target : (g.naturalLoop back).header = back.target := rfl
    split <;> grind
  · rcases Loops.mem_join before.distinct member with ⟨other, kept⟩ | ⟨here, body⟩
    · have target : l.header ≠ back.target := other
      rw [before.bodies l kept m]
      grind
    · have target : l.header = back.target := here
      rw [body m]
      constructor
      · rintro (new | ⟨old, kept, same, inside⟩)
        · exact ⟨back, by simp, target.symm, new⟩
        · obtain ⟨earlier, listed, header, inside⟩ := (before.bodies old kept m).1 inside
          exact ⟨earlier, by simp [listed], header.trans (same.trans here.symm), inside⟩
      · rintro ⟨other, listed, header, inside⟩
        rcases List.mem_append.1 listed with earlier | last
        · obtain ⟨old, kept, same⟩ :=
            List.mem_map.1 ((before.headers other.target).2 ⟨other, earlier, rfl⟩)
          refine .inr ⟨old, kept, same.trans (header.trans here), ?_⟩
          exact (before.bodies old kept m).2 ⟨other, earlier, same.symm, inside⟩
        · cases List.mem_singleton.1 last
          exact .inl inside

theorem collects_loops (g : FlowGraph) (d : Dominators) : Collects g (g.backArrows d) (g.loops d) := by
  have fold (rest : List Arrow) : ∀ done ls, Collects g done ls →
      Collects g (done ++ rest) (rest.foldl (fun ls back => Loops.join (g.naturalLoop back) ls) ls) := by
    induction rest with
    | nil =>
      intro done ls before
      simpa using before
    | cons back rest ih =>
      intro done ls before
      have := ih (done ++ [back]) _ (before.join back)
      rwa [List.append_assoc, List.singleton_append] at this
  exact fold (g.backArrows d) [] [] ⟨by simp, by simp, by simp⟩

/-- Different loops have different headers. -/
theorem nodup_headers (g : FlowGraph) (d : Dominators) : ((g.loops d).map Loop.header).Nodup :=
  (collects_loops g d).distinct

theorem mem_headers :
    h ∈ (g.loops (.ofGraph g)).map Loop.header ↔ ∃ back, g.ClosesLoop back ∧ back.target = h := by
  rw [(collects_loops g _).headers]
  exact exists_congr fun back => and_congr_left fun _ => mem_backArrows

/-- A loop holds its header and the reachable blocks that lead back to it. -/
theorem mem_body (member : l ∈ g.loops (.ofGraph g)) :
    m ∈ l.body ↔ m = l.header ∨ (g.Reachable m ∧ g.LeadsBack l.header m) := by
  rw [(collects_loops g _).bodies l member]
  constructor
  · rintro ⟨back, listed, header, inside⟩
    rcases mem_body_naturalLoop.1 inside with same | ⟨live, ids, way, avoids⟩
    · exact .inl (same.trans header)
    · exact .inr ⟨live, back, mem_backArrows.1 listed, header, ids, way, header ▸ avoids⟩
  · rintro (rfl | ⟨live, back, closes, header, ids, way, avoids⟩)
    · obtain ⟨back, closes, header⟩ := mem_headers.1 (List.mem_map_of_mem member)
      exact ⟨back, mem_backArrows.2 closes, header, mem_body_naturalLoop.2 (.inl header.symm)⟩
    · exact ⟨back, mem_backArrows.2 closes, header,
        mem_body_naturalLoop.2 (.inr ⟨live, ids, way, header ▸ avoids⟩)⟩

theorem header_mem_body (member : l ∈ g.loops (.ofGraph g)) : l.header ∈ l.body :=
  (mem_body member).2 (.inl rfl)

/-- A block before one that leads back leads back too, unless it is the header. -/
theorem LeadsBack.before {a b : String} (leads : g.LeadsBack h b) (step : b ∈ g.successors a)
    (other : a ≠ h) : g.LeadsBack h a := by
  obtain ⟨back, closes, header, ids, way, avoids⟩ := leads
  exact ⟨back, closes, header, a :: ids, .go step way,
    List.not_mem_cons_of_ne_of_not_mem other.symm avoids⟩

/-- The header is on every way to a block that leads back to it: without it a way to the source of a
back arrow would avoid the header. -/
theorem LeadsBack.dominates (leads : g.LeadsBack h m) : g.Dominates h m := by
  obtain ⟨back, ⟨-, -, dominates⟩, rfl, more, way, avoids⟩ := leads
  intro start first ids toM
  obtain ⟨rest, rfl⟩ := way.eq_cons
  rcases List.mem_append.1 (dominates start first _ (toM.join way)) with met | later
  · exact met
  · exact absurd (List.mem_cons_of_mem _ later) avoids

theorem header_dominates (member : l ∈ g.loops (.ofGraph g)) (inside : m ∈ l.body) :
    g.Dominates l.header m := by
  rcases (mem_body member).1 inside with rfl | ⟨-, leads⟩
  · exact fun start first ids way => way.last_mem
  · exact leads.dominates

theorem reachable_of_mem_body (member : l ∈ g.loops (.ofGraph g)) (inside : m ∈ l.body) :
    g.Reachable m := by
  rcases (mem_body member).1 inside with rfl | ⟨live, -⟩
  · obtain ⟨back, ⟨-, live, dominates⟩, header⟩ := mem_headers.1 (List.mem_map_of_mem member)
    exact header ▸ dominates.reachable live
  · exact live

theorem reachable_header (member : l ∈ g.loops (.ofGraph g)) : g.Reachable l.header :=
  reachable_of_mem_body member (header_mem_body member)

/-- A loop is entered at its header alone. -/
theorem entered_at_header {a b : String} (member : l ∈ g.loops (.ofGraph g)) (step : b ∈ g.successors a)
    (live : g.Reachable a) (inside : b ∈ l.body) (other : b ≠ l.header) : a ∈ l.body := by
  rcases (mem_body member).1 inside with same | ⟨-, leads⟩
  · exact absurd same other
  · by_cases header : a = l.header
    · exact (mem_body member).2 (.inl header)
    · exact (mem_body member).2 (.inr ⟨live, leads.before step header⟩)

/-- A way along which every block after the first leads back stays in the loop. -/
theorem subset_body_of_way {a : String} {ids : List String} (member : l ∈ g.loops (.ofGraph g))
    (way : g.Way a m ids) (live : g.Reachable a) (inside : m ∈ l.body) (avoids : l.header ∉ ids) :
    ∀ x ∈ ids, x ∈ l.body := by
  induction way with
  | stay =>
    intro x here
    rwa [List.mem_singleton.1 here]
  | go step rest ih =>
    have later := ih (live.next step) inside (fun h => avoids (List.mem_cons_of_mem _ h))
    have next := later _ rest.first_mem
    have other : _ ≠ l.header := fun same => avoids (List.mem_cons_of_mem _ (same ▸ rest.first_mem))
    intro x here
    rcases List.mem_cons.1 here with rfl | after
    · exact entered_at_header member step live next other
    · exact later x after

/-- Every block of a loop is reached from the header within the loop: the part of a way from the start
after its last pass of the header. -/
theorem way_inside (member : l ∈ g.loops (.ofGraph g)) (inside : m ∈ l.body) :
    ∃ ids, g.Way l.header m ids ∧ ∀ x ∈ ids, x ∈ l.body := by
  have here : l.header ∈ l.body := header_mem_body member
  have live := reachable_of_mem_body member here
  obtain ⟨start, first, ids, way⟩ := reachable_of_mem_body member inside
  obtain ⟨before, after, rfl, last⟩ := exists_last_of_mem (header_dominates member inside start first _ way)
  have suffix := way.onFrom
  refine ⟨_, suffix, ?_⟩
  cases after with
  | nil => simpa using here
  | cons x after =>
    obtain ⟨next, step, rest⟩ := suffix.second (by simp)
    exact List.forall_mem_cons.2 ⟨here, subset_body_of_way member rest (live.next step) inside last⟩

/-- Natural loops are exactly what the arrows back to dominating blocks enclose, and they are entered
at their headers alone. -/
theorem natural_loops_exact (g : FlowGraph) :
    ((g.loops (.ofGraph g)).map Loop.header).Nodup ∧
    (∀ h, h ∈ (g.loops (.ofGraph g)).map Loop.header ↔
      ∃ e ∈ g.arrows, e.target = h ∧ g.Reachable e.source ∧ g.Dominates h e.source) ∧
    ∀ l ∈ g.loops (.ofGraph g),
      (∀ m, m ∈ l.body ↔ m = l.header ∨ (g.Reachable m ∧ ∃ e ∈ g.arrows, e.target = l.header ∧
        g.Reachable e.source ∧ g.Dominates l.header e.source ∧
        ∃ ids, g.Way m e.source ids ∧ l.header ∉ ids)) ∧
      (∀ m ∈ l.body, g.Dominates l.header m ∧
        ∃ ids, g.Way l.header m ids ∧ ∀ x ∈ ids, x ∈ l.body) ∧
      (∀ e ∈ g.arrows, g.Reachable e.source → e.source ∉ l.body → e.target ∈ l.body →
        e.target = l.header) := by
  refine ⟨nodup_headers g _, fun h => ?_, fun l member => ⟨fun m => ?_, fun m inside => ?_, ?_⟩⟩
  · rw [mem_headers]
    constructor
    · rintro ⟨back, ⟨listed, live, dominates⟩, rfl⟩
      exact ⟨back, listed, rfl, live, dominates⟩
    · rintro ⟨back, listed, rfl, live, dominates⟩
      exact ⟨back, ⟨listed, live, dominates⟩, rfl⟩
  · rw [mem_body member]
    refine or_congr_right (and_congr_right fun _ => ?_)
    constructor
    · rintro ⟨back, ⟨listed, live, dominates⟩, header, around⟩
      exact ⟨back, listed, header, live, header ▸ dominates, around⟩
    · rintro ⟨back, listed, header, live, dominates, around⟩
      exact ⟨back, ⟨listed, live, header ▸ dominates⟩, header, around⟩
  · exact ⟨header_dominates member inside, way_inside member inside⟩
  · intro e listed live outside inside
    have step : e.target ∈ g.successors e.source := mem_successors.2 ⟨e, listed, rfl, rfl⟩
    by_contra other
    exact outside (entered_at_header member step live inside other)

/-- The one loop of the diagram: the block outside leads into its middle, but cannot be reached. -/
theorem loops_turning : Diagram.turning.flowGraph.loops (.ofGraph Diagram.turning.flowGraph) =
    [⟨"c", ["c", "b"]⟩] := by
  decide +kernel

theorem natural_loops_exact_turning :
    ⟨"c", ["c", "b"]⟩ ∈ Diagram.turning.flowGraph.loops (.ofGraph Diagram.turning.flowGraph) ∧
    Diagram.turning.flowGraph.Dominates "c" "b" ∧ ¬Diagram.turning.flowGraph.Reachable "u" := by
  have member : ⟨"c", ["c", "b"]⟩ ∈ Diagram.turning.flowGraph.loops (.ofGraph Diagram.turning.flowGraph) := by
    simp [loops_turning]
  obtain ⟨-, inside, entered⟩ := (natural_loops_exact Diagram.turning.flowGraph).2.2 _ member
  refine ⟨member, (inside "b" (by simp)).1, fun live => ?_⟩
  have listed : ⟨"u", "b", none, none⟩ ∈ Diagram.turning.flowGraph.arrows := by
    rw [Diagram.arrows_turning]
    simp
  have header := entered _ listed live (by simp) (by simp)
  simp at header

end FlowGraph

end Flowchart
