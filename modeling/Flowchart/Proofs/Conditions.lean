import Flowchart.Assign
import Flowchart.Proofs.Spelling
/-! Conditions as they are compiled and as they are run. Compiling reads the two sides and the relation
between them as one sequence, running reads the sides apart. Relations bind loosest and to the left, so the
relation of the condition takes as its right operand all that stands before the next relation outside of
brackets and parentheses: the two agree exactly if the right side has none. -/
namespace Flowchart
open Grammar

namespace Operator

def opens : Operator → Bool
  | openParen => true
  | openBracket => true
  | _ => false

def closes : Operator → Bool
  | closeParen => true
  | closeBracket => true
  | _ => false

/-- The operators outside of brackets and parentheses, of which `depth` are open at the start. What is no
operator is `none`. -/
def outside : (depth : Nat) → List (Option Operator) → List Operator
  | _, [] => []
  | depth, none :: rest => outside depth rest
  | depth, some o :: rest =>
    if o.opens then outside (depth + 1) rest
    else if o.closes then outside (depth - 1) rest
    else if depth = 0 then o :: outside depth rest
    else outside depth rest

end Operator

/-- The operator that an element stands for. -/
def Element.operator? : Element → Option Operator
  | .operator _ symbol => Operator.ofSymbol? symbol
  | _ => none

def Token.operator? : Token → Option Operator
  | .op o => some o
  | _ => none

namespace Grammar
variable {s t : Layer} {o : Operator} {op : BinaryOp}

theorem Spells.operator?_eq {e : Element} {t : Token} (spells : Spells e t) : e.operator? = t.operator? := by
  cases spells with
  | operator id known => exact known
  | _ => rfl

theorem operators_eq {es : List Element} {ts : List Token} (spells : List.Forall₂ Spells es ts) :
    es.map Element.operator? = ts.map Token.operator? := by
  induction spells with
  | nil => rfl
  | cons first _ ih => rw [List.map_cons, List.map_cons, first.operator?_eq, ih]

theorem Joins.delimits (joins : Joins s o op) : o.opens = false ∧ o.closes = false := by
  cases joins <;> exact ⟨rfl, rfl⟩

theorem Applies.delimits {sign : UnaryOp} (applies : Applies o sign) : o.opens = false ∧ o.closes = false := by
  cases applies <;> exact ⟨rfl, rfl⟩

theorem Covers.ne_expression (covers : Covers s t) : t ≠ .expression := by
  cases covers <;> simp

/-- The operators of a tree outside of its groups and indices. -/
def ParseTree.outer : {s : Layer} → ParseTree s → List Operator
  | _, pass _ inner => inner.outer
  | _, binary _ o _ _ left right => left.outer ++ o :: right.outer
  | _, unary o _ _ operand => o :: operand.outer
  | _, _ => []

/-- A scan passes a tree, which closes what it opens. -/
theorem ParseTree.outside_append (tree : ParseTree s) (depth : Nat) (rest : List (Option Operator)) :
    Operator.outside depth (tree.tokens.map Token.operator? ++ rest) =
      (if depth = 0 then tree.outer else []) ++ Operator.outside depth rest := by
  induction tree generalizing depth rest with
  | pass covers inner ih => exact ih depth rest
  | binary covers o op joins left right ihLeft ihRight =>
    obtain ⟨opens, closes⟩ := joins.delimits
    by_cases top : depth = 0 <;>
      simp [tokens, outer, Token.operator?, ihLeft, ihRight, Operator.outside, opens, closes, top]
  | unary o op applies operand ih =>
    obtain ⟨opens, closes⟩ := applies.delimits
    by_cases top : depth = 0 <;> simp [tokens, outer, Token.operator?, ih, Operator.outside, opens, closes, top]
  | item v index ih =>
    simp [tokens, outer, Token.operator?, ih, Operator.outside, Operator.opens, Operator.closes]
  | group inside ih =>
    simp [tokens, outer, Token.operator?, ih, Operator.outside, Operator.opens, Operator.closes]
  | _ => simp [tokens, outer, Token.operator?, Operator.outside]

/-- Below the loosest layer relations stand in groups and indices only. -/
theorem ParseTree.relation_notMem_outer (tree : ParseTree s) (below : s ≠ .expression) (r : Relation) :
    .relation r ∉ tree.outer := by
  induction tree with
  | pass covers inner ih => exact ih covers.ne_expression
  | binary covers o op joins left right ihLeft ihRight =>
    simp only [outer, List.mem_append, List.mem_cons, not_or]
    refine ⟨ihLeft below, ?_, ihRight covers.ne_expression⟩
    rintro rfl
    cases joins
    exact below rfl
  | unary o op applies operand ih =>
    simp only [outer, List.mem_cons, not_or]
    refine ⟨?_, ih below⟩
    rintro rfl
    cases applies
  | _ => simp [outer]

theorem ParseTree.outer_extend (tree : ParseTree s) (steps : List (Step s)) :
    (tree.extend steps).outer = tree.outer ++ steps.flatMap fun step => step.o :: step.right.outer := by
  induction steps generalizing tree with
  | nil => simp [extend]
  | cons step steps ih => simp [extend, ih, outer]

theorem ParseTree.weight_le_extend (tree : ParseTree s) (steps : List (Step s)) :
    tree.term.weight ≤ (tree.extend steps).term.weight := by
  induction steps generalizing tree with
  | nil => exact Nat.le_refl _
  | cons step steps ih =>
    refine Nat.le_trans ?_ (ih _)
    simp only [term, Term.weight]
    omega

/-- An operand with relations after it has a relation outside. -/
theorem no_relation_iff (first : ParseTree .disjunction) (steps : List (Step .expression)) :
    (∀ r, .relation r ∉ ((ParseTree.pass .expression first).extend steps).outer) ↔ steps = [] := by
  rw [ParseTree.outer_extend]
  constructor
  · intro noRelation
    cases steps with
    | nil => rfl
    | cons step steps =>
      obtain ⟨covers, o, op, joins, right⟩ := step
      cases joins with
      | relation r => exact absurd (by simp) (noRelation r)
  · rintro rfl r
    rw [List.flatMap_nil, List.append_nil]
    exact first.relation_notMem_outer (by simp) r

/-- The first relation of several joins what stands before it to the first operand after it alone. -/
theorem term_extend_eq_iff (joins : Joins .expression o op) (left : ParseTree .expression)
    (first : ParseTree .disjunction) (steps : List (Step .expression)) :
    ((ParseTree.binary .expression o op joins left first).extend steps).term =
        .binary op left.term ((ParseTree.pass .expression first).extend steps).term ↔ steps = [] := by
  constructor
  · intro same
    cases steps using List.reverseRecOn with
    | nil => rfl
    | append_singleton steps last =>
      rw [ParseTree.extend_append] at same
      simp only [ParseTree.extend, ParseTree.term, Term.binary.injEq] at same
      have heavier := (ParseTree.binary .expression o op joins left first).weight_le_extend steps
      rw [same.2.1] at heavier
      simp only [ParseTree.term, Term.weight] at heavier
      omega
  · rintro rfl
    rfl

theorem ParseTree.tokens_ne_nil (tree : ParseTree s) : tree.tokens ≠ [] := by
  induction tree with
  | pass covers inner ih => exact ih
  | _ => simp [tokens]

end Grammar

theorem Term.isEmpty_of_parse {es : List Element} {t : Term} (read : Term.parse es = .ok t) : es.isEmpty = false := by
  cases es with
  | nil =>
    obtain ⟨tree, ⟨spells, -⟩, -⟩ := Term.parse_eq_ok_iff_spelled.1 read
    exact absurd (List.forall₂_nil_left_iff.1 spells) tree.tokens_ne_nil
  | cons e rest => rfl

namespace Expression
variable {r : Relation} {left right : List Element}

/-- The sides of a condition, each read as a term, are compared as the operands of one comparison. -/
theorem verdict_eq_evaluate {l m : Term} (readLeft : Term.parse left = .ok l) (readRight : Term.parse right = .ok m)
    (s : Store) :
    (condition r left right).verdict s =
      (Eval.evaluate s (.binary (.compare (.relation r)) l m)).map TypedValue.value := by
  simp only [verdict, Term.isEmpty_of_parse readLeft, Term.isEmpty_of_parse readRight, Bool.or_false,
    Bool.false_eq_true, if_false, evaluateElements, readLeft, readRight]
  rw [Eval.evaluate]
  cases Eval.evaluate s l with
  | error e => rfl
  | ok x =>
    cases Eval.evaluate s m with
    | error e => rfl
    | ok y =>
      simp only [Eval.applyBinary]
      cases Eval.compare (.relation r) x y <;> rfl

/-- Compiling reads a condition whose sides can be read, and reads it as the comparison of the two sides,
which is what running evaluates, exactly if no relation stands on the right side outside of brackets and
parentheses. -/
theorem flat_read_iff (r : Relation) (left right : List Element) (l m : Term)
    (readLeft : Term.parse left = .ok l) (readRight : Term.parse right = .ok m) :
    (∃ t, Term.parse (condition r left right).flat = .ok t) ∧
    (Term.parse (condition r left right).flat = .ok (.binary (.compare (.relation r)) l m) ↔
      ∀ q, .relation q ∉ Operator.outside 0 (right.map Element.operator?)) ∧
    ∀ s, (condition r left right).verdict s =
      (Eval.evaluate s (.binary (.compare (.relation r)) l m)).map TypedValue.value := by
  obtain ⟨treeLeft, spelledLeft, rfl⟩ := Term.parse_eq_ok_iff_spelled.1 readLeft
  obtain ⟨treeRight, spelledRight, rfl⟩ := Term.parse_eq_ok_iff_spelled.1 readRight
  have outer := treeRight.outside_append 0 []
  rw [List.append_nil, ← operators_eq spelledRight.1, if_pos rfl, Operator.outside, List.append_nil] at outer
  obtain ⟨first, steps, rfl⟩ := treeRight.exists_extend .expression (by simp)
  have known : Operator.ofSymbol? r.symbol = some (.relation r) := by cases r <;> decide
  -- the relation of the condition comes before those of the right side
  have tokens : ((ParseTree.binary .expression _ _ (.relation r) treeLeft first).extend steps).tokens =
      treeLeft.tokens ++ .op (.relation r) :: ((ParseTree.pass .expression first).extend steps).tokens := by
    simp [ParseTree.tokens_extend, ParseTree.tokens]
  have spelled := (spelled_join tokens (by simp)).2
    ⟨left, .operator ("eq-" ++ r.symbol) r.symbol, right, rfl, spelledLeft, .operator _ known, spelledRight⟩
  have whole : Term.parse (condition r left right).flat = _ := Term.parse_eq_ok_iff_spelled.2 ⟨_, spelled, rfl⟩
  refine ⟨⟨_, whole⟩, ?_, verdict_eq_evaluate readLeft readRight⟩
  rw [whole, Except.ok.injEq, term_extend_eq_iff, outer, no_relation_iff]

end Expression

/-! ### A comparison on the right side -/

/-- A number as an operand and as an element. -/
def Grammar.ParseTree.number (n : Nat) : ParseTree .disjunction :=
  .pass .disjunction <| .pass .conjunction <| .pass .additive <| .pass .multiplicative <| .pass .unary <|
    .literal (Literal.infer (toString n)).value (Literal.infer (toString n)).type

def Element.number (n : Nat) : Element :=
  .literal (toString n) (toString n)

/-- One number below another, by itself and in parentheses. -/
def Grammar.ParseTree.ascending (n m : Nat) : ParseTree .expression :=
  .binary .expression _ _ (.relation .lt) (.pass .expression (.number n)) (.number m)

def Element.ascending (n m : Nat) : List Element :=
  [.number n, .operator "less" "<", .number m]

def Element.grouped (es : List Element) : List Element :=
  .operator "open" "(" :: (es ++ [.operator "close" ")"])

theorem Grammar.spelled_number (n : Nat) : (ParseTree.number n).Spelled [.number n] :=
  (spelled_single _ rfl).2 ⟨_, rfl, .literal _ _⟩

theorem Term.parse_number (n : Nat) : Term.parse [.number n] = .ok (ParseTree.number n).term :=
  Term.parse_eq_ok_iff_spelled.2 ⟨.pass .expression (.number n), spelled_number n, rfl⟩

theorem Term.parse_ascending (n m : Nat) : Term.parse (Element.ascending n m) = .ok (ParseTree.ascending n m).term := by
  refine Term.parse_eq_ok_iff_spelled.2 ⟨.ascending n m, spelled_binary.2 ?_, rfl⟩
  exact ⟨[.number n], _, [.number m], rfl, spelled_number n, .operator _ (by decide), spelled_number m⟩

theorem Term.parse_grouped {es : List Element} {t : Term} (read : Term.parse es = .ok t) :
    Term.parse (Element.grouped es) = .ok t := by
  obtain ⟨tree, spelled, rfl⟩ := Term.parse_eq_ok_iff_spelled.1 read
  refine Term.parse_eq_ok_iff_spelled.2 ⟨.pass .expression <| .pass .disjunction <| .pass .conjunction <|
    .pass .additive <| .pass .multiplicative <| .pass .unary <| .group tree, ?_, rfl⟩
  exact spelled_group.2 ⟨_, es, _, rfl, .operator _ (by decide), spelled, .operator _ (by decide)⟩

/-- The condition `1 == 2 < 3` is compiled as another comparison than the one it is run as, and
`1 == (2 < 3)` is not. -/
theorem Expression.flat_read_ascending :
    Term.parse (condition .eq [.number 1] (Element.ascending 2 3)).flat ≠
      .ok (.binary (.compare (.relation .eq)) (ParseTree.number 1).term (ParseTree.ascending 2 3).term) ∧
    Term.parse (condition .eq [.number 1] (Element.grouped (Element.ascending 2 3))).flat =
      .ok (.binary (.compare (.relation .eq)) (ParseTree.number 1).term (ParseTree.ascending 2 3).term) := by
  constructor
  · intro same
    have noRelation := (flat_read_iff .eq _ _ _ _ (Term.parse_number 1) (Term.parse_ascending 2 3)).2.1.1 same
    exact noRelation .lt (by decide)
  · refine (flat_read_iff .eq _ _ _ _ (Term.parse_number 1) (Term.parse_grouped (Term.parse_ascending 2 3))).2.1.2 ?_
    intro q
    cases q <;> decide

end Flowchart
