import Flowchart.Proofs.Grammar
import Flowchart.Proofs.Reading
/-! The reader reads exactly the grammar. Its functions carry the weight of what they read; here they are
taken without it, with one equation for each way they go on. What they read has a tree, and what has a tree
they read, provided that only arrays are indexed. -/
namespace Flowchart
open Grammar

namespace Token

/-- What is read at level `n`. -/
def read (n : Nat) (ts : List Token) : Except SyntaxError (Term × List Token) :=
  (readLevel n ts).map Subtype.val

/-- What is read after an operand at level `n`. -/
def readOn (n : Nat) (left : Term) (ts : List Token) : Except SyntaxError (Term × List Token) :=
  (readMore n left ts).map Subtype.val

/-- What is read as an operand. -/
def readOperand (ts : List Token) : Except SyntaxError (Term × List Token) :=
  (readUnary ts).map Subtype.val

/-- What is left after the given operator. -/
def skip (o : Operator) (ts : List Token) : Except SyntaxError (List Token) :=
  (expect o ts).map Subtype.val

variable {n : Nat} {ts rest : List Token} {o : Operator}

theorem read_of_lt (layer : n < levels) :
    read n ts = (read (n + 1) ts).bind fun r => readOn n r.1 r.2 := by
  unfold read readOn
  rw [readLevel, if_pos layer]
  cases readLevel (n + 1) ts with
  | error e => rfl
  | ok first =>
    obtain ⟨⟨left, rest⟩, fits⟩ := first
    simp only [Except.map, Except.bind]
    cases readMore n left rest <;> rfl

theorem read_of_le (top : levels ≤ n) : read n ts = readOperand ts := by
  unfold read readOperand
  rw [readLevel, if_neg (Nat.not_lt.2 top)]

theorem readOn_operator {o : Operator} {op : BinaryOp} (two : o.binary? = some op) (level : op.level = n)
    (left : Term) :
    readOn n left (.op o :: rest) =
      (read (n + 1) rest).bind fun r => readOn n (.binary op left r.1) r.2 := by
  unfold read readOn
  rw [readMore]
  simp only [two, level, if_true]
  cases readLevel (n + 1) rest with
  | error e => rfl
  | ok second =>
    obtain ⟨⟨right, after⟩, fits⟩ := second
    simp only [Except.map, Except.bind]
    cases readMore n (.binary op left right) after <;> rfl

theorem readOn_of_stops (left : Term)
    (stops : ∀ o more op, ts = .op o :: more → o.binary? = some op → op.level ≠ n) :
    readOn n left ts = .ok (left, ts) := by
  unfold readOn
  cases ts with
  | nil => rw [readMore]; rfl
  | cons first rest =>
    cases first with
    | op o =>
      rw [readMore]
      cases two : o.binary? with
      | none => rfl
      | some op =>
        simp only [if_neg (stops o rest op rfl two)]
        rfl
    | _ =>
      rw [readMore]
      · rfl
      · simp

theorem skip_eq_ok : skip o ts = .ok rest ↔ ts = .op o :: rest := by
  constructor
  · intro skipped
    obtain ⟨⟨left, fits⟩, dropped, rfl⟩ := map_eq_ok skipped
    unfold expect at dropped
    split at dropped
    · split at dropped
      · next same =>
        cases dropped
        rw [same]
      · cases dropped
    · cases dropped
    · cases dropped
  · rintro rfl
    simp [skip, expect, Except.map]

theorem readOperand_literal (value : Value) (type : DataType) :
    readOperand (.literal value type :: ts) = .ok (.literal value type, ts) := by
  unfold readOperand
  rw [readUnary]
  rfl

theorem readOperand_call (function : Function) (argument : Term) :
    readOperand (.call function argument :: ts) = .ok (.call function argument, ts) := by
  unfold readOperand
  rw [readUnary]
  rfl

theorem readOperand_named (v : Variable) (alone : ∀ more, ts ≠ .op .openBracket :: more) :
    readOperand (.named v :: ts) = .ok (.named v.name v, ts) := by
  unfold readOperand
  rw [readUnary]
  · rfl
  · exact alone

theorem readOperand_item (v : Variable) :
    readOperand (.named v :: .op .openBracket :: ts) =
      (read 0 ts).bind fun r => (skip .closeBracket r.2).bind fun rest =>
        if v.isArray then .ok (.access v.name v.base r.1, rest)
        else if canFollow rest then .error (.notArray v.name)
        else .error (unexpected rest) := by
  unfold readOperand read
  rw [readUnary]
  cases readLevel 0 ts with
  | error e => rfl
  | ok first =>
    obtain ⟨⟨index, tail⟩, fits⟩ := first
    simp only [Except.map, Except.bind, skip]
    cases expect .closeBracket tail with
    | error e => rfl
    | ok after =>
      by_cases array : v.isArray = true
      · simp [array]
      · by_cases follows : canFollow after.1 = true <;> simp [array, follows]

theorem readOperand_group :
    readOperand (.op .openParen :: ts) =
      (read 0 ts).bind fun r => (skip .closeParen r.2).map fun rest => (r.1, rest) := by
  unfold readOperand read
  rw [readUnary]
  cases readLevel 0 ts with
  | error e => rfl
  | ok first =>
    obtain ⟨⟨inside, tail⟩, fits⟩ := first
    simp only [Except.map, Except.bind, skip]
    cases expect .closeParen tail <;> rfl

theorem readOperand_sign {sign : UnaryOp} (one : o.unary? = some sign) :
    readOperand (.op o :: ts) = (readOperand ts).map fun r => (.unary sign r.1, r.2) := by
  unfold readOperand
  rw [readUnary]
  · simp only [one]
    cases readUnary ts <;> rfl
  · rintro rfl
    cases one

theorem readOperand_other (noGroup : o ≠ .openParen) (none : o.unary? = none) :
    readOperand (.op o :: ts) = .error (unexpected (.op o :: ts)) := by
  unfold readOperand
  rw [readUnary]
  · simp only [none]
    rfl
  · exact noGroup

end Token

/-! ### The operators of the grammar are those of the reader -/

namespace Grammar
variable {s t : Layer} {o : Operator} {op : BinaryOp}

theorem joins_iff : Joins s o op ↔ o.binary? = some op ∧ op.level = s.level := by
  constructor
  · intro joins
    cases joins <;> exact ⟨rfl, rfl⟩
  · rintro ⟨two, level⟩
    cases o <;> cases two <;> cases s <;> cases level <;> constructor

theorem applies_iff {sign : UnaryOp} : Applies o sign ↔ o.unary? = some sign := by
  constructor
  · intro applies
    cases applies <;> rfl
  · intro one
    cases o <;> cases one <;> constructor

/-! ### What is read has a tree -/

/-- Neighbours of which the second starts an index only if the first is an array. -/
def IndexesArray (first second : Token) : Prop :=
  ∀ v, first = .named v → second = .op .openBracket → v.isArray = true

theorem indexesArray_of_op (o : Operator) (second : Token) : IndexesArray (.op o) second := by
  intro v same
  cases same

theorem indexesArray_of_ne (first : Token) (other : o ≠ .openBracket) : IndexesArray first (.op o) := by
  intro v _ same
  cases same
  exact absurd rfl other

theorem isChain_op {ts : List Token} :
    (Token.op o :: ts).IsChain IndexesArray ↔ ts.IsChain IndexesArray := by
  rw [List.isChain_cons]
  exact and_iff_right fun t _ => indexesArray_of_op o t

theorem isChain_join {before after : List Token} (other : o ≠ .openBracket) :
    (before ++ .op o :: after).IsChain IndexesArray ↔
      before.IsChain IndexesArray ∧ after.IsChain IndexesArray := by
  rw [List.isChain_append, isChain_op]
  constructor
  · rintro ⟨first, second, -⟩
    exact ⟨first, second⟩
  · rintro ⟨first, second⟩
    refine ⟨first, second, fun t _ next same => ?_⟩
    cases same
    exact indexesArray_of_ne t other

theorem isChain_index {v : Variable} {index : List Token} :
    (Token.named v :: .op .openBracket :: (index ++ [.op .closeBracket])).IsChain IndexesArray ↔
      v.isArray = true ∧ index.IsChain IndexesArray := by
  rw [List.isChain_cons_cons, isChain_op, isChain_join (by simp)]
  constructor
  · rintro ⟨indexes, chain, -⟩
    exact ⟨indexes v rfl rfl, chain⟩
  · rintro ⟨array, chain⟩
    refine ⟨fun w same _ => ?_, chain, List.isChain_nil⟩
    cases same
    exact array

theorem isChain_group {inside : List Token} :
    (Token.op .openParen :: (inside ++ [.op .closeParen])).IsChain IndexesArray ↔
      inside.IsChain IndexesArray := by
  rw [isChain_op, isChain_join (by simp)]
  exact and_iff_left List.isChain_nil

/-- What is read off the tokens in a layer has a tree of that layer. -/
def Sound (s : Layer) (ts : List Token) : Prop :=
  ∀ term rest, Token.read s.level ts = .ok (term, rest) →
    ∃ tree : ParseTree s, ts = tree.tokens ++ rest ∧ tree.term = term ∧ tree.tokens.IsChain IndexesArray

section Steps
variable {ts rest : List Token} {term : Term}

theorem sound_readOn (covers : Covers s t) (left : ParseTree s) (chain : left.tokens.IsChain IndexesArray)
    (shorter : ∀ more, more.length < ts.length → Sound t more)
    (done : Token.readOn s.level left.term ts = .ok (term, rest)) :
    ∃ tree : ParseTree s, left.tokens ++ ts = tree.tokens ++ rest ∧ tree.term = term ∧
      tree.tokens.IsChain IndexesArray := by
  induction size : ts.length using Nat.strongRecOn generalizing ts left with
  | ind k ih =>
    by_cases goes : ∃ o more op, ts = .op o :: more ∧ Joins s o op
    · obtain ⟨o, more, op, rfl, joins⟩ := goes
      obtain ⟨two, level⟩ := joins_iff.1 joins
      rw [Token.readOn_operator two level] at done
      obtain ⟨⟨second, after⟩, first, done⟩ := bind_eq_ok done
      obtain ⟨right, rfl, rfl, chainRight⟩ :=
        shorter more (by simp) second after (by rw [covers.level]; exact first)
      have fewer : after.length < k := by
        rw [← size]
        simp only [List.length_cons, List.length_append]
        omega
      have joined : (ParseTree.binary covers o op joins left right).tokens.IsChain IndexesArray :=
        (isChain_join joins.ne_openBracket).2 ⟨chain, chainRight⟩
      obtain ⟨tree, same, means, whole⟩ := ih _ fewer (.binary covers o op joins left right) joined
        (fun more less => shorter more (by simp only at less; omega)) done rfl
      refine ⟨tree, ?_, means, whole⟩
      rw [← same]
      simp [ParseTree.tokens]
    · rw [Token.readOn_of_stops] at done
      · cases done
        exact ⟨left, rfl, rfl, chain⟩
      · intro o more op same two level
        exact goes ⟨o, more, op, same, joins_iff.2 ⟨two, level⟩⟩

/-- What is read in a layer of operators has a tree if that holds in the next layer. -/
theorem sound_layer (covers : Covers s t) (binary : s ≠ .unary)
    (inner : ∀ more, more.length ≤ ts.length → Sound t more) : Sound s ts := by
  intro term rest done
  have layer : s.level < Token.levels := by cases covers <;> first | decide | exact absurd rfl binary
  rw [Token.read_of_lt layer] at done
  obtain ⟨⟨first, after⟩, opened, done⟩ := bind_eq_ok done
  rw [← covers.level] at opened
  obtain ⟨left, rfl, rfl, chain⟩ := inner ts (Nat.le_refl _) first after opened
  exact sound_readOn covers (.pass covers left) chain
    (fun more less => inner more (by rw [List.length_append]; omega)) done

theorem sound_unary (inside : ∀ more, more.length < ts.length → Sound .expression more) :
    Sound .unary ts := by
  intro term rest done
  rw [Token.read_of_le (by decide)] at done
  induction ts generalizing term with
  | nil =>
    rw [Token.readOperand, Token.readUnary] at done
    cases done
  | cons first more ih =>
    cases first with
    | literal value type =>
      rw [Token.readOperand_literal] at done
      cases done
      exact ⟨.pass .unary (.literal value type), rfl, rfl, List.isChain_singleton _⟩
    | call function argument =>
      rw [Token.readOperand_call] at done
      cases done
      exact ⟨.pass .unary (.call function argument), rfl, rfl, List.isChain_singleton _⟩
    | named v =>
      by_cases bracket : ∃ index, more = .op .openBracket :: index
      · obtain ⟨index, rfl⟩ := bracket
        rw [Token.readOperand_item] at done
        obtain ⟨⟨position, tail⟩, opened, done⟩ := bind_eq_ok done
        obtain ⟨after, closed, done⟩ := bind_eq_ok done
        obtain rfl := Token.skip_eq_ok.1 closed
        obtain ⟨tree, rfl, rfl, chain⟩ := inside index (by simp only [List.length_cons]; omega) _ _ opened
        by_cases array : v.isArray = true
        · rw [if_pos array] at done
          cases done
          have whole := isChain_index.2 ⟨array, chain⟩
          exact ⟨.pass .unary (.item v tree), by simp [ParseTree.tokens], rfl, whole⟩
        · rw [if_neg array] at done
          split at done <;> cases done
      · rw [Token.readOperand_named v (fun index same => bracket ⟨index, same⟩)] at done
        cases done
        exact ⟨.pass .unary (.named v), rfl, rfl, List.isChain_singleton _⟩
    | op o =>
      by_cases paren : o = .openParen
      · subst paren
        rw [Token.readOperand_group] at done
        obtain ⟨⟨within, tail⟩, opened, done⟩ := bind_eq_ok done
        obtain ⟨after, closed, done⟩ := map_eq_ok done
        cases done
        obtain rfl := Token.skip_eq_ok.1 closed
        obtain ⟨tree, rfl, rfl, chain⟩ := inside more (by simp) _ _ opened
        exact ⟨.pass .unary (.group tree), by simp [ParseTree.tokens], rfl, isChain_group.2 chain⟩
      · cases one : o.unary? with
        | none =>
          rw [Token.readOperand_other paren one] at done
          cases done
        | some sign =>
          rw [Token.readOperand_sign one] at done
          obtain ⟨⟨operand, after⟩, applied, done⟩ := map_eq_ok done
          cases done
          obtain ⟨tree, rfl, rfl, chain⟩ :=
            ih (fun ts less => inside ts (Nat.lt_succ_of_lt less)) operand applied
          exact ⟨.unary o sign (applies_iff.2 one) tree, rfl, rfl, isChain_op.2 chain⟩

end Steps

/-- Six layers stand on the operands, whose groups and indices are shorter. -/
theorem sound_expression (ts : List Token) : Sound .expression ts := by
  induction size : ts.length using Nat.strongRecOn generalizing ts with
  | ind k ih =>
    have operand (more : List Token) (le : more.length ≤ k) : Sound .unary more :=
      sound_unary fun inner less => ih _ (by omega) inner rfl
    have product (more : List Token) (le : more.length ≤ k) : Sound .multiplicative more :=
      sound_layer .multiplicative (by simp) fun ts less => operand ts (by omega)
    have sum (more : List Token) (le : more.length ≤ k) : Sound .additive more :=
      sound_layer .additive (by simp) fun ts less => product ts (by omega)
    have both (more : List Token) (le : more.length ≤ k) : Sound .conjunction more :=
      sound_layer .conjunction (by simp) fun ts less => sum ts (by omega)
    have either (more : List Token) (le : more.length ≤ k) : Sound .disjunction more :=
      sound_layer .disjunction (by simp) fun ts less => both ts (by omega)
    exact sound_layer .expression (by simp) fun ts less => either ts (by omega)

/-! ### What has a tree is read -/

section Complete
variable {rest : List Token}

theorem readOn_of_stops (stops : Stops s.level rest) (left : Term) :
    Token.readOn s.level left rest = .ok (left, rest) := by
  apply Token.readOn_of_stops
  intro o more op same two level
  have tighter := (stops o more same).2 s op (joins_iff.2 ⟨two, level⟩)
  exact Nat.lt_irrefl _ tighter

theorem readOn_top {n : Nat} (top : Token.levels ≤ n) (left : Term) :
    Token.readOn n left rest = .ok (left, rest) := by
  apply Token.readOn_of_stops
  intro o more op _ _ level
  have below : op.level < Token.levels := by cases op <;> simp [BinaryOp.level, Token.levels]
  omega

/-- Reading in the layer of a tree passes it and goes on with its term. -/
def ParseTree.IsRead (tree : ParseTree s) : Prop :=
  ∀ rest, Stops (s.level + 1) rest → tree.tokens.IsChain IndexesArray →
    Token.read s.level (tree.tokens ++ rest) = Token.readOn s.level tree.term rest

theorem ParseTree.IsRead.eq_ok {tree : ParseTree s} (isRead : tree.IsRead) (stops : Stops s.level rest)
    (chain : tree.tokens.IsChain IndexesArray) :
    Token.read s.level (tree.tokens ++ rest) = .ok (tree.term, rest) := by
  rw [isRead rest (stops.mono (Nat.le_succ _)) chain, readOn_of_stops stops]

theorem isRead_pass (covers : Covers s t) {inner : ParseTree t} (ih : inner.IsRead) :
    (ParseTree.pass covers inner).IsRead := by
  intro rest stops chain
  have first := ih.eq_ok (covers.level ▸ stops) chain
  by_cases layer : s.level < Token.levels
  · rw [Token.read_of_lt layer, ← covers.level]
    simp only [ParseTree.tokens, ParseTree.term, first, Except.bind]
  · have top : Token.levels ≤ s.level := Nat.not_lt.1 layer
    rw [Token.read_of_le (by rw [covers.level]; omega)] at first
    rw [Token.read_of_le top, readOn_top top]
    exact first

theorem isRead_binary (covers : Covers s t) (joins : Joins s o op) {left : ParseTree s} {right : ParseTree t}
    (ihLeft : left.IsRead) (ihRight : right.IsRead) :
    (ParseTree.binary covers o op joins left right).IsRead := by
  intro rest stops chain
  obtain ⟨chainLeft, chainRight⟩ := (isChain_join joins.ne_openBracket).1 chain
  obtain ⟨two, level⟩ := joins_iff.1 joins
  have second := ihRight.eq_ok (covers.level ▸ stops) chainRight
  simp only [ParseTree.tokens, List.append_assoc, List.cons_append]
  rw [ihLeft _ (stops_joins joins _) chainLeft, Token.readOn_operator two level, ← covers.level, second]
  rfl

theorem isRead_unary {sign : UnaryOp} (applies : Applies o sign) {operand : ParseTree .unary}
    (ih : operand.IsRead) : (ParseTree.unary o sign applies operand).IsRead := by
  intro rest stops chain
  have inner := ih rest stops (isChain_op.1 chain)
  rw [Token.read_of_le (by decide), readOn_top (by decide)] at inner ⊢
  simp only [ParseTree.tokens, ParseTree.term, List.cons_append]
  rw [Token.readOperand_sign (applies_iff.1 applies), inner]
  rfl

theorem isRead_named (v : Variable) : (ParseTree.named v).IsRead := by
  intro rest stops chain
  rw [Token.read_of_le (by decide), readOn_top (by decide)]
  exact Token.readOperand_named v fun more same => (stops _ more same).1 rfl

theorem isRead_item (v : Variable) {index : ParseTree .expression} (ih : index.IsRead) :
    (ParseTree.item v index).IsRead := by
  intro rest stops chain
  obtain ⟨array, inner⟩ := isChain_index.1 chain
  have position := ih.eq_ok (stops_closeBracket 0 rest) inner
  rw [Token.read_of_le (by decide), readOn_top (by decide)]
  simp only [ParseTree.tokens, ParseTree.term, List.cons_append, List.append_assoc, List.nil_append]
  rw [Token.readOperand_item]
  simp only [Layer.level] at position
  rw [position]
  simp only [Except.bind, Token.skip_eq_ok.2 rfl, if_pos array]

theorem isRead_group {inside : ParseTree .expression} (ih : inside.IsRead) :
    (ParseTree.group inside).IsRead := by
  intro rest stops chain
  have within := ih.eq_ok (stops_closeParen 0 rest) (isChain_group.1 chain)
  rw [Token.read_of_le (by decide), readOn_top (by decide)]
  simp only [ParseTree.tokens, ParseTree.term, List.cons_append, List.append_assoc, List.nil_append]
  rw [Token.readOperand_group]
  simp only [Layer.level] at within
  rw [within]
  simp only [Except.bind, Token.skip_eq_ok.2 rfl, Except.map]

theorem ParseTree.isRead (tree : ParseTree s) : tree.IsRead := by
  induction tree with
  | pass covers inner ih => exact isRead_pass covers ih
  | binary covers o op joins left right ihLeft ihRight => exact isRead_binary covers joins ihLeft ihRight
  | unary o op applies operand ih => exact isRead_unary applies ih
  | literal value type =>
    intro rest stops chain
    rw [Token.read_of_le (by decide), readOn_top (by decide)]
    exact Token.readOperand_literal value type
  | named v => exact isRead_named v
  | item v index ih => exact isRead_item v ih
  | call function argument =>
    intro rest stops chain
    rw [Token.read_of_le (by decide), readOn_top (by decide)]
    exact Token.readOperand_call function argument
  | group inside ih => exact isRead_group ih

end Complete

/-! ### Sentences -/

theorem ParseTree.matchDelimiters_tokens (tree : ParseTree s) :
    Token.matchDelimiters [] tree.tokens = .ok () := by
  have matched := tree.matchDelimiters_append [] []
  rw [List.append_nil] at matched
  rw [matched, Token.matchDelimiters]

/-- An element and the token it is read as. The argument of a function is a sentence of its own. -/
inductive Spells : Element → Token → Prop
  | literal (id : String) (text : String) :
    Spells (.literal id text) (.literal (Literal.infer text).value (Literal.infer text).type)
  | operator (id : String) {symbol : String} {o : Operator} (known : Operator.ofSymbol? symbol = some o) :
    Spells (.operator id symbol) (.op o)
  | attached (id : String) (v : Variable) : Spells (.attached id v) (.named v)
  | function (id name : String) (argument : Expression) (tree : ParseTree .expression)
    (spells : List.Forall₂ Spells argument.right tree.tokens)
    (chain : tree.tokens.IsChain IndexesArray) :
    Spells (.function id name argument) (.call (.ofName name) tree.term)

/-- The tree derives the tokens of the elements, and only arrays are indexed in them. -/
def Derives (tree : ParseTree .expression) (es : List Element) : Prop :=
  Element.tokens es = .ok tree.tokens ∧ tree.tokens.IsChain IndexesArray

end Grammar

theorem Token.parse_eq_ok_iff_read {ts : List Token} {term : Term} :
    Token.parse ts = .ok term ↔
      Token.matchDelimiters [] ts = .ok () ∧ Token.read 0 ts = .ok (term, []) := by
  unfold Token.parse Token.read
  cases Token.matchDelimiters [] ts with
  | error e => simp
  | ok matched =>
    cases Token.readLevel 0 ts with
    | error e => simp [Except.map]
    | ok first =>
      obtain ⟨⟨t, rest⟩, fits⟩ := first
      cases rest <;> simp [Except.map]

theorem Token.parse_eq_ok {ts : List Token} {term : Term} :
    Token.parse ts = .ok term ↔
      ∃ tree : ParseTree .expression,
        tree.tokens = ts ∧ tree.tokens.IsChain IndexesArray ∧ tree.term = term := by
  rw [Token.parse_eq_ok_iff_read]
  constructor
  · rintro ⟨-, done⟩
    obtain ⟨tree, same, means, chain⟩ := sound_expression ts term [] done
    rw [List.append_nil] at same
    exact ⟨tree, same.symm, chain, means⟩
  · rintro ⟨tree, rfl, chain, rfl⟩
    have done := tree.isRead.eq_ok (stops_nil _) chain
    rw [List.append_nil] at done
    exact ⟨tree.matchDelimiters_tokens, done⟩

theorem Term.parse_eq_ok {es : List Element} {term : Term} :
    Term.parse es = .ok term ↔ ∃ tree, Derives tree es ∧ tree.term = term := by
  constructor
  · intro done
    obtain ⟨ts, made, done⟩ := bind_eq_ok done
    obtain ⟨tree, rfl, chain, means⟩ := Token.parse_eq_ok.1 done
    exact ⟨tree, ⟨made, chain⟩, means⟩
  · rintro ⟨tree, ⟨made, chain⟩, means⟩
    unfold Term.parse
    rw [made]
    exact Token.parse_eq_ok.2 ⟨tree, rfl, chain, means⟩

mutual
theorem Element.token_eq_ok (e : Element) {t : Token} : e.token = .ok t ↔ Spells e t := by
  cases e with
  | literal id text =>
    simp only [Element.token, Except.ok.injEq]
    constructor
    · rintro rfl
      exact .literal id text
    · intro spells
      cases spells
      rfl
  | operator id symbol =>
    simp only [Element.token]
    constructor
    · intro made
      split at made
      · next known =>
        cases made
        exact .operator id known
      · cases made
    · intro spells
      cases spells with
      | operator id known => simp [known]
  | function id name argument =>
    simp only [Element.token]
    constructor
    · intro made
      split at made
      · next read =>
        cases made
        obtain ⟨tree, spells, chain, rfl⟩ := (Expression.parse_eq_ok argument).1 read
        exact .function id name argument tree spells chain
      · cases made
    · intro spells
      cases spells with
      | function id name argument tree spells chain =>
        simp [(Expression.parse_eq_ok argument).2 ⟨tree, spells, chain, rfl⟩]
  | attached id v =>
    simp only [Element.token, Except.ok.injEq]
    constructor
    · rintro rfl
      exact .attached id v
    · intro spells
      cases spells
      rfl
  | unattached id name =>
    constructor
    · intro made
      simp [Element.token] at made
    · intro spells
      cases spells
theorem Element.tokens_eq_ok (es : List Element) {ts : List Token} :
    Element.tokens es = .ok ts ↔ List.Forall₂ Spells es ts := by
  cases es with
  | nil =>
    simp only [Element.tokens, Except.ok.injEq, List.forall₂_nil_left_iff]
    exact eq_comm
  | cons e rest =>
    have first (t : Token) : e.token = .ok t ↔ Spells e t := Element.token_eq_ok e
    have others (ts : List Token) : Element.tokens rest = .ok ts ↔ List.Forall₂ Spells rest ts :=
      Element.tokens_eq_ok rest
    simp only [Element.tokens]
    constructor
    · intro made
      split at made
      · cases made
      · next made₁ =>
        split at made
        · cases made
        · next made₂ =>
          cases made
          exact .cons ((first _).1 made₁) ((others _).1 made₂)
    · intro spells
      cases spells with
      | cons spells₁ spells₂ => simp [(first _).2 spells₁, (others _).2 spells₂]
theorem Expression.parse_eq_ok (e : Expression) {t : Term} :
    e.parse = .ok t ↔ ∃ tree : ParseTree .expression, List.Forall₂ Spells e.right tree.tokens ∧
      tree.tokens.IsChain IndexesArray ∧ tree.term = t := by
  have ofTokens {right : List Element}
      (tokens : ∀ ts, Element.tokens right = .ok ts ↔ List.Forall₂ Spells right ts) :
      Term.parse right = .ok t ↔
        ∃ tree : ParseTree .expression, List.Forall₂ Spells right tree.tokens ∧
          tree.tokens.IsChain IndexesArray ∧ tree.term = t := by
    simp only [Term.parse_eq_ok, Derives, tokens, and_assoc]
  rw [Expression.parse_eq]
  cases e with
  | value right => exact ofTokens fun _ => Element.tokens_eq_ok right
  | assignment _ right => exact ofTokens fun _ => Element.tokens_eq_ok right
  | condition _ _ right => exact ofTokens fun _ => Element.tokens_eq_ok right
  | halfCondition _ right => exact ofTokens fun _ => Element.tokens_eq_ok right
end

/-- Elements are read as a term exactly if they spell a sentence of the grammar in which only arrays are
indexed, and then as the term of its only tree. Matching the delimiters first refuses no sentence, and
whatever is no such sentence fails as a reading error. -/
theorem Term.parse_exact (es : List Element) :
    (∀ ts, Element.tokens es = .ok ts ↔ List.Forall₂ Spells es ts) ∧
    (∀ t, Term.parse es = .ok t ↔
      ∃ tree : ParseTree .expression, Derives tree es ∧
        (∀ other : ParseTree .expression, Element.tokens es = .ok other.tokens → other = tree) ∧
        tree.term = t) ∧
    (∀ tree : ParseTree .expression, Token.matchDelimiters [] tree.tokens = .ok ()) ∧
    ((∃ tree : ParseTree .expression, Derives tree es) ∨
      ∃ e, Error.ofSyntax (Term.parse es) = .error e ∧ e.family = .reading) := by
  refine ⟨fun ts => Element.tokens_eq_ok es, fun t => ?_, fun tree => tree.matchDelimiters_tokens, ?_⟩
  · rw [Term.parse_eq_ok]
    constructor
    · rintro ⟨tree, derives, means⟩
      refine ⟨tree, derives, fun other spelled => ?_, means⟩
      have same : other.tokens = tree.tokens := Except.ok.inj (spelled.symm.trans derives.1)
      exact ParseTree.eq_of_tokens_eq same
    · rintro ⟨tree, derives, -, means⟩
      exact ⟨tree, derives, means⟩
  · cases done : Term.parse es with
    | ok t =>
      obtain ⟨tree, derives, -⟩ := Term.parse_eq_ok.1 done
      exact .inl ⟨tree, derives⟩
    | error e => exact .inr ⟨.malformed e, rfl, rfl⟩

end Flowchart
