import Flowchart.Term.Token
/-! Reading terms. Five levels of left-associative operators stand above the prefix operators, and
those above literals, variables, applied functions and groups. Every step accounts for the weight of
what it has read, which bounds the term by the elements it came from. -/
namespace Flowchart
namespace Token

/-- A term read off the start of tokens and the tokens left, within a weight. -/
abbrev Read (bound : Nat) :=
  { r : Term × List Token // r.1.weight + weights r.2 ≤ bound }

/-- The error at tokens that cannot go on an expression. -/
def unexpected : List Token → SyntaxError
  | [] => .unexpectedEnd
  | t :: _ => .unexpectedToken t.shown

/-- Drops the given operator, which has to come next. -/
def expect (o : Operator) (ts : List Token) :
    Except SyntaxError { rest : List Token // weights rest + 1 = weights ts } :=
  match ts with
  | .op found :: rest =>
    if found = o then .ok ⟨rest, by simp only [weights, weight]; omega⟩
    else .error (unexpected (.op found :: rest))
  | [] => .error .unexpectedEnd
  | t :: _ => .error (.unexpectedToken t.shown)

/-- Whether tokens can go on after an operand: with an operator between operands or a closing
symbol, or not at all. -/
def canFollow : List Token → Bool
  | [] => true
  | .op o :: _ => o.binary?.isSome || o == .closeParen || o == .closeBracket
  | _ => false

/-- The number of levels of operators with two operands. -/
def levels : Nat := 5

mutual
/-- Reads operands and operators of level `n` and above. -/
def readLevel (n : Nat) (ts : List Token) : Except SyntaxError (Read (weights ts)) :=
  if n < levels then
    match readLevel (n + 1) ts with
    | .error e => .error e
    | .ok ⟨(left, rest), fits⟩ =>
      have := left.weight_pos
      match readMore n left rest with
      | .error e => .error e
      | .ok ⟨r, more⟩ => .ok ⟨r, by simp only at fits more; omega⟩
  else readUnary ts
termination_by (weights ts, levels - n + 2)
decreasing_by
  · right; simp only [levels] at *; omega
  · left; simp only at fits; omega
  · right; simp only [levels] at *; omega
/-- Goes on after an operand with the operators of level `n`. -/
def readMore (n : Nat) (left : Term) (ts : List Token) :
    Except SyntaxError (Read (left.weight + weights ts)) :=
  match ts with
  | .op o :: rest =>
    match o.binary? with
    | some operation =>
      if operation.level = n then
        match readLevel (n + 1) rest with
        | .error e => .error e
        | .ok ⟨(right, after), fits⟩ =>
          have := right.weight_pos
          match readMore n (.binary operation left right) after with
          | .error e => .error e
          | .ok ⟨r, more⟩ =>
            .ok ⟨r, by simp only [Term.weight, weights, weight] at fits more ⊢; omega⟩
      else .ok ⟨(left, .op o :: rest), Nat.le_refl _⟩
    | none => .ok ⟨(left, .op o :: rest), Nat.le_refl _⟩
  | [] => .ok ⟨(left, []), Nat.le_refl _⟩
  | t :: rest => .ok ⟨(left, t :: rest), Nat.le_refl _⟩
termination_by (weights ts, 0)
decreasing_by
  · left; simp only [weights, weight]; omega
  · left; simp only [weights, weight] at fits ⊢; omega
/-- Reads prefix operators and what they apply to. -/
def readUnary (ts : List Token) : Except SyntaxError (Read (weights ts)) :=
  match ts with
  | .literal value type :: rest =>
    .ok ⟨(.literal value type, rest), by simp [Term.weight, weights, weight]⟩
  | .call function argument :: rest =>
    .ok ⟨(.call function argument, rest), by simp [Term.weight, weights, weight]⟩
  | .named v :: .op .openBracket :: rest =>
    match readLevel 0 rest with
    | .error e => .error e
    | .ok ⟨(index, tail), fits⟩ =>
      match expect .closeBracket tail with
      | .error e => .error e
      | .ok ⟨after, dropped⟩ =>
        if v.isArray then
          .ok ⟨(.access v.name v.base index, after), by
            simp only [Term.weight, weights, weight, Variable.weight_base, Variable.weight_eq v] at fits ⊢
            omega⟩
        else if canFollow after then .error (.notArray v.name)
        else .error (unexpected after)
  | .named v :: rest =>
    .ok ⟨(.named v.name v, rest), by simp [Term.weight, weights, weight]⟩
  | .op .openParen :: rest =>
    match readLevel 0 rest with
    | .error e => .error e
    | .ok ⟨(inside, tail), fits⟩ =>
      match expect .closeParen tail with
      | .error e => .error e
      | .ok ⟨after, dropped⟩ =>
        .ok ⟨(inside, after), by simp only [weights, weight] at fits ⊢; omega⟩
  | .op o :: rest =>
    match o.unary? with
    | some operation =>
      match readUnary rest with
      | .error e => .error e
      | .ok ⟨(operand, after), fits⟩ =>
        .ok ⟨(.unary operation operand, after), by simp only [Term.weight, weights, weight] at fits ⊢; omega⟩
    | none => .error (unexpected (.op o :: rest))
  | [] => .error .unexpectedEnd
termination_by (weights ts, 1)
decreasing_by
  all_goals left
  all_goals simp only [weights, weight, Variable.weight_eq]
  all_goals omega
end

/-- Reads a whole sequence of tokens as one term: first the brackets, then the grammar. -/
def parse (ts : List Token) : Except SyntaxError Term :=
  match matchDelimiters [] ts with
  | .error e => .error e
  | .ok () =>
    match readLevel 0 ts with
    | .error e => .error e
    | .ok ⟨(t, []), _⟩ => .ok t
    | .ok ⟨(_, rest), _⟩ => .error (unexpected rest)

theorem weight_parse {ts : List Token} {t : Term} (read : parse ts = .ok t) :
    t.weight ≤ weights ts := by
  unfold parse at read
  split at read
  · cases read
  · split at read
    · cases read
    · rename_i r fits _
      cases read
      simpa [weights] using fits
    · cases read

end Token

mutual
/-- The token of an element. -/
def Element.token : Element → Except SyntaxError Token
  | .literal _ text => .ok (.literal (Literal.infer text).value (Literal.infer text).type)
  | .operator _ symbol =>
    match Operator.ofSymbol? symbol with
    | some o => .ok (.op o)
    | none => .error (.unknownOperator symbol)
  | .function _ name argument =>
    match argument.parse with
    | .ok t => .ok (.call (.ofName name) t)
    | .error e => .error e
  | .attached _ v => .ok (.named v)
  | .unattached _ name => .error (.unattached name)
/-- The tokens of several elements. -/
def Element.tokens : List Element → Except SyntaxError (List Token)
  | [] => .ok []
  | e :: rest =>
    match e.token with
    | .error err => .error err
    | .ok t =>
      match Element.tokens rest with
      | .error err => .error err
      | .ok ts => .ok (t :: ts)
/-- Reads the right side of an expression. -/
def Expression.parse : Expression → Except SyntaxError Term
  | .value right => (Element.tokens right).bind Token.parse
  | .assignment _ right => (Element.tokens right).bind Token.parse
  | .condition _ _ right => (Element.tokens right).bind Token.parse
  | .halfCondition _ right => (Element.tokens right).bind Token.parse
end

/-- Reads a sequence of elements as one term. -/
def Term.parse (es : List Element) : Except SyntaxError Term :=
  (Element.tokens es).bind Token.parse

theorem Expression.parse_eq (e : Expression) : e.parse = Term.parse e.right := by
  cases e <;> simp [Expression.parse, Term.parse, Expression.right]

mutual
theorem Element.weight_token (e : Element) {t : Token} (made : e.token = .ok t) :
    t.weight ≤ e.weight := by
  cases e with
  | literal => simp only [Element.token, Except.ok.injEq] at made; subst made; simp [Token.weight, Element.weight]
  | operator id symbol =>
    simp only [Element.token] at made
    split at made
    · cases made; simp [Token.weight, Element.weight]
    · cases made
  | function id name argument =>
    simp only [Element.token] at made
    split at made
    · cases made
      have := Expression.weight_parse argument ‹_›
      simp only [Token.weight, Element.weight]
      omega
    · cases made
  | attached id v => simp only [Element.token, Except.ok.injEq] at made; subst made; simp [Token.weight, Element.weight]
  | unattached => simp [Element.token] at made
theorem Element.weight_tokens (es : List Element) {ts : List Token} (made : Element.tokens es = .ok ts) :
    Token.weights ts ≤ Element.weights es := by
  cases es with
  | nil => simp only [Element.tokens, Except.ok.injEq] at made; subst made; simp [Token.weights, Element.weights]
  | cons e rest =>
    simp only [Element.tokens] at made
    split at made
    · cases made
    · split at made
      · cases made
      · cases made
        have := Element.weight_token e ‹_›
        have := Element.weight_tokens rest ‹_›
        simp only [Token.weights, Element.weights]
        omega
theorem Expression.weight_parse (e : Expression) {t : Term} (read : e.parse = .ok t) :
    t.weight ≤ e.weight := by
  have bounded {right : List Element} (tokens : ∀ ts, Element.tokens right = .ok ts →
      Token.weights ts ≤ Element.weights right)
      (read : (Element.tokens right).bind Token.parse = .ok t) : t.weight ≤ Element.weights right := by
    cases made : Element.tokens right with
    | error err => rw [made] at read; cases read
    | ok ts =>
      rw [made] at read
      exact Nat.le_trans (Token.weight_parse read) (tokens ts made)
  cases e with
  | value right =>
    simp only [Expression.parse] at read
    simpa [Expression.weight] using bounded (fun _ => Element.weight_tokens right) read
  | assignment _ right =>
    simp only [Expression.parse] at read
    simpa [Expression.weight] using bounded (fun _ => Element.weight_tokens right) read
  | condition _ _ right =>
    simp only [Expression.parse] at read
    simpa [Expression.weight] using bounded (fun _ => Element.weight_tokens right) read
  | halfCondition _ right =>
    simp only [Expression.parse] at read
    simpa [Expression.weight] using bounded (fun _ => Element.weight_tokens right) read
end

/-- A term weighs no more than the elements it was read from. -/
theorem Term.weight_parse {es : List Element} {t : Term} (read : Term.parse es = .ok t) :
    t.weight ≤ Element.weights es := by
  have := Expression.weight_parse (.value es) (t := t) (by simpa [Expression.parse, Term.parse] using read)
  simpa [Expression.weight] using this

/-- The term of a variable's index weighs less than the variable. -/
theorem Term.weight_parse_index {v : Variable} {t : Term} (read : Term.parse v.index = .ok t) :
    t.weight < v.weight := by
  have := Term.weight_parse read
  rw [Variable.weight_eq]
  omega

end Flowchart
