import Flowchart.Term.Parse
import Mathlib.Data.List.Chain
/-! The grammar of expressions, said apart from its reader. Its symbols lie in seven layers; a tree records
the rules by which a sequence of tokens is made, and no two trees make the same sequence. Left-associative
operators make left-recursive rules, so trees are compared from the left: what follows a tree is a list of
steps that extend it. -/
namespace Flowchart.Grammar

/-- The layers of the grammar, one symbol each, from the loosest to the tightest. -/
inductive Layer where
  | expression
  | disjunction
  | conjunction
  | additive
  | multiplicative
  | unary
  | primary

/-- A layer and the next tighter one. -/
inductive Covers : Layer → Layer → Prop
  | expression : Covers .expression .disjunction
  | disjunction : Covers .disjunction .conjunction
  | conjunction : Covers .conjunction .additive
  | additive : Covers .additive .multiplicative
  | multiplicative : Covers .multiplicative .unary
  | unary : Covers .unary .primary

/-- The operators that join two operands in a layer, and what they mean. -/
inductive Joins : Layer → Operator → BinaryOp → Prop
  | relation (r : Relation) : Joins .expression (.relation r) (.compare (.relation r))
  | or : Joins .disjunction .or .or
  | and : Joins .conjunction .and .and
  | plus : Joins .additive .plus .add
  | minus : Joins .additive .minus .subtract
  | times : Joins .multiplicative .times .multiply
  | divide : Joins .multiplicative .divide .divide
  | modulo : Joins .multiplicative .modulo .modulo

/-- The operators that stand before one operand, and what they mean. -/
inductive Applies : Operator → UnaryOp → Prop
  | not : Applies .not .not
  | minus : Applies .minus .minus
  | plus : Applies .plus .plus

/-- The derivations of a layer: one constructor for each kind of rule. -/
inductive ParseTree : Layer → Type
  | pass {s t : Layer} (covers : Covers s t) (inner : ParseTree t) : ParseTree s
  | binary {s t : Layer} (covers : Covers s t) (o : Operator) (op : BinaryOp) (joins : Joins s o op)
    (left : ParseTree s) (right : ParseTree t) : ParseTree s
  | unary (o : Operator) (op : UnaryOp) (applies : Applies o op) (operand : ParseTree .unary) :
    ParseTree .unary
  | literal (value : Value) (type : DataType) : ParseTree .primary
  | named (v : Variable) : ParseTree .primary
  | item (v : Variable) (index : ParseTree .expression) : ParseTree .primary
  | call (function : Function) (argument : Term) : ParseTree .primary
  | group (inside : ParseTree .expression) : ParseTree .primary

variable {s t : Layer} {o : Operator} {op : BinaryOp} {rest after : List Token}

namespace ParseTree

/-- The tokens that a tree derives. -/
def tokens : {s : Layer} → ParseTree s → List Token
  | _, pass _ inner => inner.tokens
  | _, binary _ o _ _ left right => left.tokens ++ .op o :: right.tokens
  | _, unary o _ _ operand => .op o :: operand.tokens
  | _, literal value type => [.literal value type]
  | _, named v => [.named v]
  | _, item v index => .named v :: .op .openBracket :: (index.tokens ++ [.op .closeBracket])
  | _, call function argument => [.call function argument]
  | _, group inside => .op .openParen :: (inside.tokens ++ [.op .closeParen])

/-- The term that a tree stands for. -/
def term : {s : Layer} → ParseTree s → Term
  | _, pass _ inner => inner.term
  | _, binary _ _ op _ left right => .binary op left.term right.term
  | _, unary _ op _ operand => .unary op operand.term
  | _, literal value type => .literal value type
  | _, named v => .named v.name v
  | _, item v index => .access v.name v.base index.term
  | _, call function argument => .call function argument
  | _, group inside => inside.term

/-- No primary starts with an operator that stands before an operand. -/
theorem not_applies_of_primary (tree : ParseTree .primary) {sign : UnaryOp} (applies : Applies o sign) :
    tree.tokens ++ rest ≠ .op o :: after := by
  intro same
  cases tree with
  | pass covers => cases covers
  | binary covers => cases covers
  | group inside =>
    simp only [tokens, List.cons_append, List.cons.injEq, Token.op.injEq] at same
    rw [← same.1] at applies
    cases applies
  | _ => simp [tokens] at same

end ParseTree

/-- How tightly a layer binds, counted from the loosest. -/
def Layer.level : Layer → Nat
  | expression => 0
  | disjunction => 1
  | conjunction => 2
  | additive => 3
  | multiplicative => 4
  | unary => 5
  | primary => 6

theorem Covers.level (covers : Covers s t) : t.level = s.level + 1 := by
  cases covers <;> rfl

theorem Covers.unique {t' : Layer} (first : Covers s t) (second : Covers s t') : t = t' := by
  cases first <;> cases second <;> rfl

theorem Joins.unique {s' : Layer} {op' : BinaryOp} (first : Joins s o op) (second : Joins s' o op') :
    s = s' ∧ op = op' := by
  cases first <;> cases second <;> exact ⟨rfl, rfl⟩

theorem Applies.unique {sign sign' : UnaryOp} (first : Applies o sign) (second : Applies o sign') :
    sign = sign' := by
  cases first <;> cases second <;> rfl

theorem Joins.ne_openBracket (joins : Joins s o op) : o ≠ .openBracket := by
  cases joins <;> simp

/-! ### What may follow -/

/-- Tokens at which an operand of level `n` ends: they neither select an item nor start with an operator of
that level or a tighter one. -/
def Stops (n : Nat) (rest : List Token) : Prop :=
  ∀ o more, rest = .op o :: more → o ≠ .openBracket ∧ ∀ s op, Joins s o op → s.level < n

theorem stops_nil (n : Nat) : Stops n [] := by
  intro o more same
  cases same

theorem Stops.mono {n m : Nat} (stops : Stops n rest) (le : n ≤ m) : Stops m rest := by
  intro o more same
  obtain ⟨noBracket, looser⟩ := stops o more same
  exact ⟨noBracket, fun s op joins => Nat.lt_of_lt_of_le (looser s op joins) le⟩

theorem stops_joins (joins : Joins s o op) (rest : List Token) : Stops (s.level + 1) (.op o :: rest) := by
  intro o' more same
  cases same
  refine ⟨joins.ne_openBracket, fun s' op' joins' => ?_⟩
  obtain ⟨rfl, -⟩ := joins.unique joins'
  exact Nat.lt_succ_self _

theorem stops_closeParen (n : Nat) (rest : List Token) : Stops n (.op .closeParen :: rest) := by
  intro o more same
  cases same
  exact ⟨by simp, fun s op joins => by cases joins⟩

theorem stops_closeBracket (n : Nat) (rest : List Token) : Stops n (.op .closeBracket :: rest) := by
  intro o more same
  cases same
  exact ⟨by simp, fun s op joins => by cases joins⟩

/-! ### Extending a tree to the right -/

/-- An operator of a layer with its right operand. -/
structure Step (s : Layer) where
  {next : Layer}
  covers : Covers s next
  o : Operator
  op : BinaryOp
  joins : Joins s o op
  right : ParseTree next

def Step.tokens (step : Step s) : List Token :=
  .op step.o :: step.right.tokens

/-- A tree with steps put after it, each joining all that stands before it. -/
def ParseTree.extend (tree : ParseTree s) : List (Step s) → ParseTree s
  | [] => tree
  | step :: steps => (ParseTree.binary step.covers step.o step.op step.joins tree step.right).extend steps

theorem ParseTree.extend_append (tree : ParseTree s) (first second : List (Step s)) :
    tree.extend (first ++ second) = (tree.extend first).extend second := by
  induction first generalizing tree with
  | nil => rfl
  | cons step steps ih => exact ih _

theorem ParseTree.tokens_extend (tree : ParseTree s) (steps : List (Step s)) :
    (tree.extend steps).tokens = tree.tokens ++ steps.flatMap Step.tokens := by
  induction steps generalizing tree with
  | nil => simp [extend]
  | cons step steps ih => simp [extend, ih, tokens, Step.tokens]

/-- A tree of a layer with operators between operands is its first operand, extended. -/
theorem ParseTree.exists_extend (covers : Covers s t) (binary : s ≠ .unary) (tree : ParseTree s) :
    ∃ (first : ParseTree t) (steps : List (Step s)), tree = (ParseTree.pass covers first).extend steps := by
  induction tree with
  | pass covers' inner =>
    obtain rfl := covers.unique covers'
    exact ⟨inner, [], rfl⟩
  | binary covers' o op joins left right ihLeft ihRight =>
    obtain ⟨first, steps, rfl⟩ := ihLeft covers binary
    refine ⟨first, steps ++ [⟨covers', o, op, joins, right⟩], ?_⟩
    rw [extend_append]
    rfl
  | unary => exact absurd rfl binary
  | _ => cases covers

theorem steps_eq_nil {steps : List (Step s)} (stops : Stops s.level (steps.flatMap Step.tokens ++ rest)) :
    steps = [] := by
  cases steps with
  | nil => rfl
  | cons step steps =>
    obtain ⟨-, looser⟩ := stops step.o _ rfl
    exact absurd (looser s step.op step.joins) (Nat.lt_irrefl _)

theorem stops_steps (stops : Stops s.level rest) (steps : List (Step s)) :
    Stops (s.level + 1) (steps.flatMap Step.tokens ++ rest) := by
  cases steps with
  | nil => exact stops.mono (Nat.le_succ _)
  | cons step steps => exact stops_joins step.joins _

/-! ### One tree for one sequence -/

/-- Of two trees that start the same tokens, the one that ends where its layer ends is the other one,
extended by what the other one leaves. -/
def ParseTree.Determines (tree : ParseTree s) : Prop :=
  ∀ (other : ParseTree s) (rest after : List Token), Stops (s.level + 1) rest → Stops s.level after →
    other.tokens ++ after = tree.tokens ++ rest →
    ∃ steps, other = tree.extend steps ∧ rest = steps.flatMap Step.tokens ++ after

theorem ParseTree.Determines.eq {tree other : ParseTree s} (determines : tree.Determines)
    (stops : Stops s.level rest) (stopsAfter : Stops s.level after)
    (same : other.tokens ++ after = tree.tokens ++ rest) :
    other = tree ∧ after = rest := by
  obtain ⟨steps, rfl, rfl⟩ := determines other rest after (stops.mono (Nat.le_succ _)) stopsAfter same
  obtain rfl := steps_eq_nil stops
  exact ⟨rfl, rfl⟩

theorem determines_pass (covers : Covers s t) {inner : ParseTree t} (ih : inner.Determines) :
    (ParseTree.pass covers inner).Determines := by
  intro other rest after stops stopsAfter same
  by_cases unary : s = .unary
  · subst unary
    cases other with
    | pass covers' inner' =>
      obtain rfl := covers.unique covers'
      have tighter : Stops t.level after := stopsAfter.mono (by rw [covers.level]; exact Nat.le_succ _)
      obtain ⟨rfl, rfl⟩ := ih.eq (covers.level ▸ stops) tighter same
      exact ⟨[], rfl, rfl⟩
    | binary _ _ _ joins => cases joins
    | unary o op applies operand =>
      cases covers
      exact absurd same.symm (inner.not_applies_of_primary applies)
  · obtain ⟨first, steps, rfl⟩ := other.exists_extend covers unary
    rw [ParseTree.tokens_extend, List.append_assoc] at same
    have tighter : Stops t.level (steps.flatMap Step.tokens ++ after) :=
      covers.level ▸ stops_steps stopsAfter steps
    obtain ⟨rfl, rfl⟩ := ih.eq (covers.level ▸ stops) tighter same
    exact ⟨steps, rfl, rfl⟩

theorem determines_binary (covers : Covers s t) (joins : Joins s o op) {left : ParseTree s}
    {right : ParseTree t} (ihLeft : left.Determines) (ihRight : right.Determines) :
    (ParseTree.binary covers o op joins left right).Determines := by
  intro other rest after stops stopsAfter same
  simp only [ParseTree.tokens, List.append_assoc, List.cons_append] at same
  obtain ⟨steps, rfl, split⟩ := ihLeft other _ after (stops_joins joins _) stopsAfter same
  cases steps with
  | nil =>
    obtain ⟨-, looser⟩ := stopsAfter o _ split.symm
    exact absurd (looser s op joins) (Nat.lt_irrefl _)
  | cons step steps =>
    obtain ⟨covers', o', op', joins', right'⟩ := step
    simp only [List.flatMap_cons, Step.tokens, List.cons_append, List.append_assoc, List.cons.injEq,
      Token.op.injEq] at split
    obtain ⟨rfl, split⟩ := split
    obtain ⟨-, rfl⟩ := joins.unique joins'
    obtain rfl := covers.unique covers'
    have tighter : Stops t.level (steps.flatMap Step.tokens ++ after) :=
      covers.level ▸ stops_steps stopsAfter steps
    obtain ⟨rfl, rfl⟩ := ihRight.eq (covers.level ▸ stops) tighter split.symm
    exact ⟨steps, rfl, rfl⟩

theorem determines_unary {sign : UnaryOp} (applies : Applies o sign) {operand : ParseTree .unary}
    (ih : operand.Determines) : (ParseTree.unary o sign applies operand).Determines := by
  intro other rest after stops stopsAfter same
  cases other with
  | pass covers inner =>
    cases covers
    exact absurd same (inner.not_applies_of_primary applies)
  | binary _ _ _ joins => cases joins
  | unary o' sign' applies' operand' =>
    simp only [ParseTree.tokens, List.cons_append, List.cons.injEq, Token.op.injEq] at same
    obtain ⟨rfl, same⟩ := same
    obtain rfl := applies.unique applies'
    obtain ⟨steps, rfl, rfl⟩ := ih operand' rest after stops stopsAfter same
    cases steps with
    | nil => exact ⟨[], rfl, rfl⟩
    | cons step => cases step.joins

theorem determines_item (v : Variable) {index : ParseTree .expression} (ih : index.Determines) :
    (ParseTree.item v index).Determines := by
  intro other rest after stops stopsAfter same
  cases other with
  | pass covers => cases covers
  | binary covers => cases covers
  | named v' =>
    simp only [ParseTree.tokens, List.cons_append, List.nil_append, List.cons.injEq] at same
    exact absurd rfl (stopsAfter _ _ same.2).1
  | item v' index' =>
    simp only [ParseTree.tokens, List.cons_append, List.append_assoc, List.nil_append, List.cons.injEq,
      Token.named.injEq, true_and] at same
    obtain ⟨rfl, same⟩ := same
    obtain ⟨rfl, closed⟩ := ih.eq (stops_closeBracket 0 rest) (stops_closeBracket 0 after) same
    cases closed
    exact ⟨[], rfl, rfl⟩
  | _ => simp [ParseTree.tokens] at same

theorem determines_group {inside : ParseTree .expression} (ih : inside.Determines) :
    (ParseTree.group inside).Determines := by
  intro other rest after stops stopsAfter same
  cases other with
  | pass covers => cases covers
  | binary covers => cases covers
  | group inside' =>
    simp only [ParseTree.tokens, List.cons_append, List.append_assoc, List.nil_append, List.cons.injEq,
      true_and] at same
    obtain ⟨rfl, closed⟩ := ih.eq (stops_closeParen 0 rest) (stops_closeParen 0 after) same
    cases closed
    exact ⟨[], rfl, rfl⟩
  | _ => simp [ParseTree.tokens] at same

theorem determines_named (v : Variable) : (ParseTree.named v).Determines := by
  intro other rest after stops stopsAfter same
  cases other with
  | pass covers => cases covers
  | binary covers => cases covers
  | item v' index =>
    simp only [ParseTree.tokens, List.cons_append, List.nil_append, List.cons.injEq] at same
    exact absurd rfl (stops _ _ same.2.symm).1
  | named v' =>
    cases same
    exact ⟨[], rfl, rfl⟩
  | _ => simp [ParseTree.tokens] at same

theorem determines_literal (value : Value) (type : DataType) : (ParseTree.literal value type).Determines := by
  intro other rest after stops stopsAfter same
  cases other with
  | pass covers => cases covers
  | binary covers => cases covers
  | literal value' type' =>
    cases same
    exact ⟨[], rfl, rfl⟩
  | _ => simp [ParseTree.tokens] at same

theorem determines_call (function : Function) (argument : Term) :
    (ParseTree.call function argument).Determines := by
  intro other rest after stops stopsAfter same
  cases other with
  | pass covers => cases covers
  | binary covers => cases covers
  | call function' argument' =>
    cases same
    exact ⟨[], rfl, rfl⟩
  | _ => simp [ParseTree.tokens] at same

theorem ParseTree.determines (tree : ParseTree s) : tree.Determines := by
  induction tree with
  | pass covers inner ih => exact determines_pass covers ih
  | binary covers o op joins left right ihLeft ihRight => exact determines_binary covers joins ihLeft ihRight
  | unary o op applies operand ih => exact determines_unary applies ih
  | literal value type => exact determines_literal value type
  | named v => exact determines_named v
  | item v index ih => exact determines_item v ih
  | call function argument => exact determines_call function argument
  | group inside ih => exact determines_group ih

/-- The grammar is unambiguous. -/
theorem ParseTree.eq_of_tokens_eq {tree other : ParseTree s} (same : other.tokens = tree.tokens) :
    other = tree := by
  have both : other.tokens ++ [] = tree.tokens ++ [] := by rw [same]
  exact (tree.determines.eq (stops_nil _) (stops_nil _) both).1

/-- Delimiters are matched within a tree, whatever is still open before it. -/
theorem ParseTree.matchDelimiters_append (tree : ParseTree s) (pending : List Operator) (rest : List Token) :
    Token.matchDelimiters pending (tree.tokens ++ rest) = Token.matchDelimiters pending rest := by
  induction tree generalizing pending rest with
  | pass covers inner ih => exact ih pending rest
  | binary covers o op joins left right ihLeft ihRight =>
    simp only [tokens, List.append_assoc, List.cons_append]
    rw [ihLeft, ← ihRight pending rest]
    cases joins <;> cases pending <;> simp [Token.matchDelimiters]
  | unary o op applies operand ih =>
    rw [← ih pending rest]
    cases applies <;> cases pending <;> simp [tokens, Token.matchDelimiters]
  | item v index ih => cases pending <;> simp [tokens, Token.matchDelimiters, ih]
  | group inside ih => cases pending <;> simp [tokens, Token.matchDelimiters, ih]
  | _ => cases pending <;> simp [tokens, Token.matchDelimiters]

end Flowchart.Grammar
