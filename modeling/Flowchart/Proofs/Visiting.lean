import Flowchart.Proofs.IndexForms
/-! Evaluation and translation, visit by visit. A visit of a term either answers or asks for a visit of another term
and goes on with its answer. The terms asked for need not be parts of the term: a variable that carries its index has
the index read and asks for what was read. So a machine that follows such requests, with the visits that wait on a
stack, might go on for ever. It does not: a term weighs no more than the elements it was read from, those inside of
arguments and indexes included, and what a visit asks for weighs less than its term, all requests taken together. -/
namespace Flowchart

/-- What a visit does: it answers, or asks for a visit of a term and goes on with the answer. -/
inductive Visit (ε α : Type) where
  | answer (result : Except ε α)
  | ask (t : Term) (resume : α → Visit ε α)

namespace Visit
variable {ε α : Type}

/-- The answer of a visit, if requests are answered by the given function. A failure is the answer at once. -/
def solve (f : Term → Except ε α) : Visit ε α → Except ε α
  | answer result => result
  | ask t resume => (f t).bind fun a => (resume a).solve f

/-- Whatever answers it gets, the terms that a visit asks for weigh no more than the bound together. -/
def Affords : Visit ε α → Nat → Prop
  | answer _, _ => True
  | ask t resume, bound => ∃ rest, t.weight + rest ≤ bound ∧ ∀ a, (resume a).Affords rest

/-- A visit that asks once and answers. -/
theorem affords_once {t : Term} {finish : α → Except ε α} {bound : Nat} (fits : t.weight ≤ bound) :
    (ask t fun a => answer (finish a)).Affords bound :=
  ⟨0, fits, fun _ => trivial⟩

/-- A visit that asks twice and answers. -/
theorem affords_twice {t u : Term} {finish : α → α → Except ε α} {bound : Nat} (fits : t.weight + u.weight ≤ bound) :
    (ask t fun a => ask u fun b => answer (finish a b)).Affords bound :=
  ⟨u.weight, fits, fun _ => affords_once (Nat.le_refl _)⟩

end Visit

/-- The state of the machine: the visit that is at work, and those that wait for an answer, the innermost first. -/
structure Visiting (ε α : Type) where
  current : Visit ε α
  waiting : List (α → Visit ε α)

namespace Visiting
variable {ε α : Type} {visit : Term → Visit ε α} {f : Term → Except ε α}

/-- One step: a request starts a visit, an answer goes to the visit that waits for it, and a failure ends that visit
too. An answer that nobody waits for stays. -/
def step (visit : Term → Visit ε α) : Visiting ε α → Visiting ε α
  | ⟨.ask t resume, waiting⟩ => ⟨visit t, resume :: waiting⟩
  | ⟨.answer (.ok a), resume :: waiting⟩ => ⟨resume a, waiting⟩
  | ⟨.answer (.error e), _ :: waiting⟩ => ⟨.answer (.error e), waiting⟩
  | ⟨.answer result, []⟩ => ⟨.answer result, []⟩

/-- So many steps. -/
def run (visit : Term → Visit ε α) : Nat → Visiting ε α → Visiting ε α
  | 0, w => w
  | n + 1, w => run visit n (step visit w)

/-- The visit of a term, with nothing waiting. -/
def start (visit : Term → Visit ε α) (t : Term) : Visiting ε α :=
  ⟨visit t, []⟩

theorem run_add (n m : Nat) (w : Visiting ε α) : run visit (n + m) w = run visit m (run visit n w) := by
  induction n generalizing w with
  | zero => rw [Nat.zero_add, run]
  | succ n ih => rw [Nat.succ_add, run, run, ih]

theorem run_answered (n : Nat) (result : Except ε α) : run visit n ⟨.answer result, []⟩ = ⟨.answer result, []⟩ := by
  induction n with
  | zero => rfl
  | succ n ih => rwa [run, step]

/-- From one state the machine comes to another in at most `steps` steps, and no more than `depth` visits wait at any
time on the way. -/
def Passes (visit : Term → Visit ε α) (steps depth : Nat) (w w' : Visiting ε α) : Prop :=
  ∃ n ≤ steps, run visit n w = w' ∧ ∀ k ≤ n, (run visit k w).waiting.length ≤ depth

namespace Passes
variable {steps steps' depth depth' : Nat} {w w' w'' : Visiting ε α}

theorem stay (fits : w.waiting.length ≤ depth) : Passes visit 0 depth w w := by
  refine ⟨0, Nat.le_refl _, rfl, fun k early => ?_⟩
  rwa [Nat.le_zero.1 early]

theorem next (fits : w.waiting.length ≤ depth) (fits' : (step visit w).waiting.length ≤ depth) :
    Passes visit 1 depth w (step visit w) := by
  refine ⟨1, Nat.le_refl _, rfl, fun k early => ?_⟩
  rcases Nat.le_one_iff_eq_zero_or_eq_one.1 early with rfl | rfl
  · exact fits
  · exact fits'

theorem trans (first : Passes visit steps depth w w') (second : Passes visit steps' depth w' w'') :
    Passes visit (steps + steps') depth w w'' := by
  obtain ⟨n, within, rfl, shallow⟩ := first
  obtain ⟨m, within', rfl, shallow'⟩ := second
  refine ⟨n + m, by omega, run_add n m w, fun k early => ?_⟩
  by_cases before : k ≤ n
  · exact shallow k before
  · obtain ⟨j, rfl⟩ := Nat.exists_eq_add_of_le (Nat.le_of_not_le before)
    rw [run_add]
    exact shallow' j (by omega)

theorem mono (passes : Passes visit steps depth w w') (more : steps ≤ steps') (deeper : depth ≤ depth') :
    Passes visit steps' depth' w w' := by
  obtain ⟨n, within, ends, shallow⟩ := passes
  exact ⟨n, Nat.le_trans within more, ends, fun k early => Nat.le_trans (shallow k early) deeper⟩

end Passes

/-- A visit that affords so much is answered within twice as many steps, and at most so many visits wait besides those
that waited before. The induction is on what it affords: a visit that is asked for affords less than its term weighs,
and what comes after it affords the rest. -/
theorem passes_to_answer (thrifty : ∀ t, (visit t).Affords (t.weight - 1)) (solves : ∀ t, f t = (visit t).solve f)
    (bound : Nat) : ∀ (v : Visit ε α) (waiting : List (α → Visit ε α)), v.Affords bound →
      Passes visit (2 * bound) (waiting.length + bound) ⟨v, waiting⟩ ⟨.answer (v.solve f), waiting⟩ := by
  induction bound using Nat.strongRecOn with
  | ind bound ih =>
    intro v waiting affords
    cases v with
    | answer result => exact (Passes.stay (Nat.le_refl _)).mono (Nat.zero_le _) (by simp)
    | ask t resume =>
      obtain ⟨rest, fits, goesOn⟩ := affords
      have heavy := t.weight_pos
      have asked : Passes visit 1 (waiting.length + bound) ⟨.ask t resume, waiting⟩ ⟨visit t, resume :: waiting⟩ :=
        .next (by simp) (by simp [step]; omega)
      have visited : Passes visit (2 * (t.weight - 1)) (waiting.length + bound) ⟨visit t, resume :: waiting⟩
          ⟨.answer (f t), resume :: waiting⟩ := by
        rw [solves t]
        exact (ih (t.weight - 1) (by omega) (visit t) (resume :: waiting) (thrifty t)).mono (Nat.le_refl _)
          (by simp; omega)
      have untilAnswer := asked.trans visited
      cases answered : f t with
      | error e =>
        rw [answered] at untilAnswer
        have failed : Passes visit 1 (waiting.length + bound) ⟨.answer (.error e), resume :: waiting⟩
            ⟨.answer (.error e), waiting⟩ := .next (by simp; omega) (by simp [step])
        rw [Visit.solve, answered]
        exact (untilAnswer.trans failed).mono (by omega) (Nat.le_refl _)
      | ok a =>
        rw [answered] at untilAnswer
        have resumed : Passes visit 1 (waiting.length + bound) ⟨.answer (.ok a), resume :: waiting⟩
            ⟨resume a, waiting⟩ := .next (by simp; omega) (by simp [step])
        have finished := (ih rest (by omega) (resume a) waiting (goesOn a)).mono (Nat.le_refl _)
          (Nat.add_le_add_left (show rest ≤ bound by omega) waiting.length)
        rw [Visit.solve, answered]
        exact ((untilAnswer.trans resumed).trans finished).mono (by omega) (Nat.le_refl _)

/-- The machine comes to rest with an answer to the visit of a term: after at most `2 * bound` steps, and with fewer
than `bound` visits waiting at all times. -/
def Ends (visit : Term → Visit ε α) (bound : Nat) (t : Term) (result : Except ε α) : Prop :=
  (∃ n ≤ 2 * bound, run visit n (start visit t) = ⟨.answer result, []⟩) ∧
    ∀ n, (run visit n (start visit t)).waiting.length < bound

theorem ends (thrifty : ∀ t, (visit t).Affords (t.weight - 1)) (solves : ∀ t, f t = (visit t).solve f) {t : Term}
    {bound : Nat} (fits : t.weight ≤ bound) : Ends visit bound t (f t) := by
  have heavy := t.weight_pos
  obtain ⟨n, within, ends, shallow⟩ := passes_to_answer thrifty solves (t.weight - 1) (visit t) [] (thrifty t)
  rw [← solves] at ends
  refine ⟨⟨n, by omega, ends⟩, fun k => ?_⟩
  by_cases before : k ≤ n
  · have few := shallow k before
    simp only [List.length_nil, Nat.zero_add] at few
    exact Nat.lt_of_le_of_lt few (by omega)
  · obtain ⟨j, rfl⟩ := Nat.exists_eq_add_of_le (Nat.le_of_not_le before)
    rw [run_add, show run visit n (start visit t) = _ from ends, run_answered]
    exact Nat.lt_of_lt_of_le heavy fits

end Visiting

/-! The two visitors. -/

namespace Eval

/-- Evaluation in a store, visit by visit. The index that a variable carries is read when the variable is visited, and
what was read is visited next. -/
def visit (s : Store) : Term → Visit Error TypedValue
  | .literal value type => .answer (.ok ⟨value, some type⟩)
  | .named name v =>
    match s.get? v.id with
    | none => .answer (.error (.unassigned name))
    | some b =>
      if v.isIndexed then
        match Term.parse v.index with
        | .error e => .answer (.error (.malformed e))
        | .ok index => .ask index fun i => .answer (itemAt b name i)
      else .answer (.ok ⟨b.value, some b.target.type⟩)
  | .access name v index =>
    match s.get? v.id with
    | none => .answer (.error (.unassigned name))
    | some b => .ask index fun i => .answer (itemAt b name i)
  | .call f argument => .ask argument fun a => .answer (convert f a)
  | .unary op operand => .ask operand fun a => .answer (applyUnary op a)
  | .binary op left right => .ask left fun l => .ask right fun r => .answer (applyBinary op l r)
  | .blank label => .answer (.error (.blank .evaluating label))

theorem affords_visit (s : Store) (t : Term) : (visit s t).Affords (t.weight - 1) := by
  cases t with
  | literal | blank => trivial
  | named name v =>
    rw [visit]
    cases s.get? v.id with
    | none => trivial
    | some b =>
      cases indexed : v.isIndexed with
      | false => trivial
      | true =>
        cases read : Term.parse v.index with
        | error e => trivial
        | ok index =>
          apply Visit.affords_once
          rw [Term.weight]
          have lighter := Term.weight_parse_index read
          omega
  | access name v index =>
    rw [visit]
    cases s.get? v.id with
    | none => trivial
    | some b =>
      apply Visit.affords_once
      rw [Term.weight]
      omega
  | call f argument | unary op operand =>
    apply Visit.affords_once
    rw [Term.weight]
    omega
  | binary op left right =>
    apply Visit.affords_twice
    rw [Term.weight]
    omega

theorem evaluate_eq_solve (s : Store) (t : Term) : evaluate s t = (visit s t).solve (evaluate s) := by
  cases t with
  | literal | blank | call | unary =>
    rw [evaluate, visit]
    rfl
  | named name v =>
    cases found : s.get? v.id with
    | none =>
      rw [evaluate, visit, found]
      rfl
    | some b =>
      cases indexed : v.isIndexed with
      | false =>
        rw [evaluate, visit, found]
        simp only [indexed]
        rfl
      | true =>
        rw [evaluate_indexed name found indexed, visit, found]
        simp only [indexed]
        cases Term.parse v.index with
        | error e => rfl
        | ok index => rfl
  | access name v index =>
    rw [evaluate, visit]
    cases s.get? v.id with
    | none => rfl
    | some b => rfl
  | binary op left right =>
    rw [evaluate_binary, visit]
    rfl

end Eval

namespace Code

/-- Translation into code of an origin, visit by visit. -/
def visit (origin : Option Origin) : Term → Visit NoCode Expr
  | .literal value type => .answer (.ok (.literal origin value (literalText value type)))
  | .named name v =>
    if v.isIndexed then
      match Term.parse v.index with
      | .error e => .answer (.error (.malformed e))
      | .ok index => .ask index fun i => .answer (.ok (.subscript origin (.ident ⟨origin, name⟩) i))
    else .answer (.ok (.ident ⟨origin, name⟩))
  | .access name v index =>
    .ask (.named name v) fun object => .ask index fun i => .answer (.ok (.subscript origin object i))
  | .call f argument => .ask argument fun a => .answer (.ok (.call origin ⟨origin, castName f⟩ [a]))
  | .unary op operand => .ask operand fun e => .answer (applyUnary origin op e)
  | .binary op left right =>
    .ask left fun l => .ask right fun r => .answer (.ok (.binary origin (operatorName op) l r))
  | .blank label => .answer (.error (.blank label))

theorem affords_visit (origin : Option Origin) (t : Term) : (visit origin t).Affords (t.weight - 1) := by
  cases t with
  | literal | blank => trivial
  | named name v =>
    rw [visit]
    cases indexed : v.isIndexed with
    | false => trivial
    | true =>
      cases read : Term.parse v.index with
      | error e => trivial
      | ok index =>
        apply Visit.affords_once
        rw [Term.weight]
        have lighter := Term.weight_parse_index read
        omega
  | access name v index =>
    apply Visit.affords_twice
    rw [Term.weight, Term.weight]
    omega
  | call f argument | unary op operand =>
    apply Visit.affords_once
    rw [Term.weight]
    omega
  | binary op left right =>
    apply Visit.affords_twice
    rw [Term.weight]
    omega

theorem ofTerm_eq_solve (origin : Option Origin) (t : Term) :
    ofTerm origin t = (visit origin t).solve (ofTerm origin) := by
  cases t with
  | literal | blank | call | unary =>
    rw [ofTerm, visit]
    rfl
  | named name v =>
    cases indexed : v.isIndexed with
    | false =>
      rw [ofTerm_whole origin name indexed, visit, indexed]
      rfl
    | true =>
      rw [ofTerm_indexed origin name indexed, visit, indexed]
      cases Term.parse v.index with
      | error e => rfl
      | ok index => rfl
  | access name v index =>
    rw [ofTerm_access, visit]
    rfl
  | binary op left right =>
    rw [ofTerm_binary, visit]
    rfl

end Code

/-- Evaluation and translation end on every term that was read, in every store and for every origin, although a
variable's index is read anew whenever the variable is visited. The term weighs no more than there are elements, those
in arguments and indexes counted, and this number bounds the steps and how many visits wait for each other. -/
theorem Term.visits_end (es : List Element) (t : Term) (read : Term.parse es = .ok t) (s : Store)
    (origin : Option Code.Origin) : t.weight ≤ Element.weights es ∧
      Visiting.Ends (Eval.visit s) (Element.weights es) t (Eval.evaluate s t) ∧
      Visiting.Ends (Code.visit origin) (Element.weights es) t (Code.ofTerm origin t) := by
  have fits := Term.weight_parse read
  exact ⟨fits, Visiting.ends (Eval.affords_visit s) (Eval.evaluate_eq_solve s) fits,
    Visiting.ends (Code.affords_visit origin) (Code.ofTerm_eq_solve origin) fits⟩

/-- An item whose index is an item of the same array, whose index is a variable: three elements, each inside of the
one before, and each read when the variable around it is visited. -/
theorem Term.visits_end_linked :
    Term.parse [.attached "outer" .linked] = .ok (.named "row" .linked) ∧
    Element.weights [.attached "outer" .linked] = 3 ∧
    Visiting.Ends (Eval.visit .ofLinks) 3 (.named "row" .linked) (.ok ⟨.int 1, some .integer⟩) := by
  have read : Term.parse [.attached "outer" .linked] = .ok (.named "row" .linked) :=
    Term.parse_attached "outer" .linked
  have few : Element.weights [.attached "outer" .linked] = 3 := rfl
  have ends := (Term.visits_end _ _ read .ofLinks none).2.1
  rw [few, Store.evaluate_linked] at ends
  exact ⟨read, few, ends⟩

end Flowchart
