import Flowchart.Proofs.GrammarReading
/-! Elements that spell a tree. Each kind of tree divides the elements that spell it, and is spelled by what its
parts are spelled by; elements are read exactly as the trees they spell. -/
namespace Flowchart
open Grammar

namespace Grammar
variable {s t : Layer} {o : Operator} {op : BinaryOp} {es : List Element}

/-- The elements spell the tokens of the tree, and only arrays are indexed in them. -/
def ParseTree.Spelled (tree : ParseTree s) (es : List Element) : Prop :=
  List.Forall₂ Spells es tree.tokens ∧ tree.tokens.IsChain IndexesArray

theorem forall₂_split {α β : Type} {R : α → β → Prop} {xs : List α} {ys zs : List β}
    (related : List.Forall₂ R xs (ys ++ zs)) :
    ∃ first second, xs = first ++ second ∧ List.Forall₂ R first ys ∧ List.Forall₂ R second zs :=
  ⟨_, _, (List.take_append_drop _ _).symm, List.forall₂_take_append _ _ _ related,
    List.forall₂_drop_append _ _ _ related⟩

/-- A tree with an operator between two others, however it is grouped. -/
theorem spelled_join {u : Layer} {tree : ParseTree s} {left : ParseTree t} {right : ParseTree u}
    (joined : tree.tokens = left.tokens ++ .op o :: right.tokens) (other : o ≠ .openBracket) :
    tree.Spelled es ↔
      ∃ first e second, es = first ++ e :: second ∧ left.Spelled first ∧ Spells e (.op o) ∧
        right.Spelled second := by
  unfold ParseTree.Spelled
  rw [joined, isChain_join other]
  constructor
  · rintro ⟨spells, chainLeft, chainRight⟩
    obtain ⟨first, others, rfl, spellsLeft, later⟩ := forall₂_split spells
    obtain ⟨e, second, between, spellsRight, rfl⟩ := List.forall₂_cons_right_iff.1 later
    exact ⟨first, e, second, rfl, ⟨spellsLeft, chainLeft⟩, between, spellsRight, chainRight⟩
  · rintro ⟨first, e, second, rfl, ⟨spellsLeft, chainLeft⟩, between, spellsRight, chainRight⟩
    exact ⟨List.rel_append spellsLeft (.cons between spellsRight), chainLeft, chainRight⟩

theorem spelled_binary {covers : Covers s t} {joins : Joins s o op} {left : ParseTree s} {right : ParseTree t} :
    (ParseTree.binary covers o op joins left right).Spelled es ↔
      ∃ first e second, es = first ++ e :: second ∧ left.Spelled first ∧ Spells e (.op o) ∧
        right.Spelled second :=
  spelled_join rfl joins.ne_openBracket

theorem spelled_unary {sign : UnaryOp} {applies : Applies o sign} {operand : ParseTree .unary} :
    (ParseTree.unary o sign applies operand).Spelled es ↔
      ∃ e rest, es = e :: rest ∧ Spells e (.op o) ∧ operand.Spelled rest := by
  unfold ParseTree.Spelled
  rw [ParseTree.tokens, isChain_op]
  constructor
  · rintro ⟨spells, chain⟩
    obtain ⟨e, rest, applied, later, rfl⟩ := List.forall₂_cons_right_iff.1 spells
    exact ⟨e, rest, rfl, applied, later, chain⟩
  · rintro ⟨e, rest, rfl, applied, spells, chain⟩
    exact ⟨.cons applied spells, chain⟩

theorem spelled_item {v : Variable} {index : ParseTree .expression} :
    (ParseTree.item v index).Spelled es ↔
      ∃ id e inner f, es = .attached id v :: e :: (inner ++ [f]) ∧ v.isArray = true ∧
        Spells e (.op .openBracket) ∧ index.Spelled inner ∧ Spells f (.op .closeBracket) := by
  unfold ParseTree.Spelled
  rw [ParseTree.tokens, isChain_index]
  constructor
  · rintro ⟨spells, array, chain⟩
    obtain ⟨_, _, named, bracket, rfl⟩ := List.forall₂_cons_right_iff.1 spells
    obtain ⟨e, _, opened, later, rfl⟩ := List.forall₂_cons_right_iff.1 bracket
    obtain ⟨inner, _, rfl, within, last⟩ := forall₂_split later
    obtain ⟨f, _, closed, none, rfl⟩ := List.forall₂_cons_right_iff.1 last
    cases none
    cases named with
    | attached id v => exact ⟨id, e, inner, f, rfl, array, opened, ⟨within, chain⟩, closed⟩
  · rintro ⟨id, e, inner, f, rfl, array, opened, ⟨within, chain⟩, closed⟩
    exact ⟨.cons (.attached id v) (.cons opened (List.rel_append within (.cons closed .nil))), array, chain⟩

theorem spelled_group {inside : ParseTree .expression} :
    (ParseTree.group inside).Spelled es ↔
      ∃ e inner f, es = e :: (inner ++ [f]) ∧ Spells e (.op .openParen) ∧ inside.Spelled inner ∧
        Spells f (.op .closeParen) := by
  unfold ParseTree.Spelled
  rw [ParseTree.tokens, isChain_group]
  constructor
  · rintro ⟨spells, chain⟩
    obtain ⟨e, _, opened, later, rfl⟩ := List.forall₂_cons_right_iff.1 spells
    obtain ⟨inner, _, rfl, within, last⟩ := forall₂_split later
    obtain ⟨f, _, closed, none, rfl⟩ := List.forall₂_cons_right_iff.1 last
    cases none
    exact ⟨e, inner, f, rfl, opened, ⟨within, chain⟩, closed⟩
  · rintro ⟨e, inner, f, rfl, opened, ⟨within, chain⟩, closed⟩
    exact ⟨.cons opened (List.rel_append within (.cons closed .nil)), chain⟩

/-- A tree of one token. -/
theorem spelled_single (tree : ParseTree s) {t : Token} (single : tree.tokens = [t]) :
    tree.Spelled es ↔ ∃ e, es = [e] ∧ Spells e t := by
  unfold ParseTree.Spelled
  rw [single]
  constructor
  · rintro ⟨spells, -⟩
    obtain ⟨e, _, spelled, none, rfl⟩ := List.forall₂_cons_right_iff.1 spells
    cases none
    exact ⟨e, rfl, spelled⟩
  · rintro ⟨e, rfl, spelled⟩
    exact ⟨.cons spelled .nil, List.isChain_singleton t⟩

end Grammar

theorem Term.parse_eq_ok_iff_spelled {es : List Element} {t : Term} :
    Term.parse es = .ok t ↔ ∃ tree : ParseTree .expression, tree.Spelled es ∧ tree.term = t := by
  simp only [Term.parse_eq_ok, Derives, Element.tokens_eq_ok, ParseTree.Spelled]

theorem Term.parse_attached (id : String) (v : Variable) : Term.parse [.attached id v] = .ok (.named v.name v) := by
  refine Term.parse_eq_ok_iff_spelled.2 ⟨.pass .expression <| .pass .disjunction <| .pass .conjunction <|
    .pass .additive <| .pass .multiplicative <| .pass .unary <| .named v, ?_, rfl⟩
  exact (spelled_single _ rfl).2 ⟨_, rfl, .attached id v⟩

theorem Term.parse_literal (id text : String) :
    Term.parse [.literal id text] = .ok (.literal (Literal.infer text).value (Literal.infer text).type) := by
  refine Term.parse_eq_ok_iff_spelled.2 ⟨.pass .expression <| .pass .disjunction <| .pass .conjunction <|
    .pass .additive <| .pass .multiplicative <| .pass .unary <|
      .literal (Literal.infer text).value (Literal.infer text).type, ?_, rfl⟩
  exact (spelled_single _ rfl).2 ⟨_, rfl, .literal id text⟩

end Flowchart
