import Flowchart.Proofs.Unpacking
/-! Terms written back as tokens. A term keeps the tokens it was read from, in their order, less the parentheses
that group; but a variable that stands before a bracket is taken as a whole, so what it carries as its own index is
lost there and nowhere else. -/
namespace Flowchart
open Grammar

/-- The symbol that an operator is written with, if it is one of the grammar. -/
def UnaryOp.operator? : UnaryOp → Option Operator
  | not => some .not
  | minus => some .minus
  | plus => some .plus
  | other _ => none

/-- The symbol that an operator is written with, if it is one of the grammar. -/
def BinaryOp.operator? : BinaryOp → Option Operator
  | add => some .plus
  | subtract => some .minus
  | multiply => some .times
  | divide => some .divide
  | modulo => some .modulo
  | and => some .and
  | or => some .or
  | compare (.relation r) => some (.relation r)
  | compare (.other _) => none

/-- A term written back as tokens, its leaves and operators in order. A variable is written with the index that it
carries and a function with the term of its argument; no parentheses are written. -/
def Term.tokens? : Term → Option (List Token)
  | literal value type => some [.literal value type]
  | named _ v => some [.named v]
  | unary op operand =>
    op.operator?.bind fun o => operand.tokens?.map fun ts => .op o :: ts
  | binary op left right =>
    op.operator?.bind fun o => left.tokens?.bind fun ls => right.tokens?.map fun rs => ls ++ .op o :: rs
  | access _ v index =>
    index.tokens?.map fun ts => .named v :: .op .openBracket :: (ts ++ [.op .closeBracket])
  | call function argument => some [.call function argument]
  | blank _ => none

/-- A variable is taken as it is, as a whole, exactly if it carries no index. -/
theorem Variable.base_eq_iff {v : Variable} : v.base = v ↔ v.isIndexed = false := by
  constructor
  · intro same
    rw [← same, isIndexed_base]
  · intro plain
    obtain ⟨id, name, nodeId, shape⟩ := v
    cases shape with
    | scalar => rfl
    | array subtype named size positive index =>
      cases index with
      | nil => rfl
      | cons => cases plain

namespace Token

/-- Whether a token is a parenthesis. Those of a function belong to its token, so all others group. -/
def isParen : Token → Bool
  | op .openParen => true
  | op .closeParen => true
  | _ => false

/-- The tokens without the parentheses that group. -/
def ungrouped (ts : List Token) : List Token :=
  ts.filter fun t => !t.isParen

/-- The tokens with every variable that stands before a bracket taken as a whole. -/
def bared : List Token → List Token
  | [] => []
  | named v :: op .openBracket :: rest => named v.base :: op .openBracket :: bared rest
  | t :: rest => t :: bared rest

/-- Neighbours of which the second starts an index only if the first carries none. -/
def KeepsIndex (first second : Token) : Prop :=
  ∀ v, first = named v → second = op .openBracket → v.isIndexed = false

variable {ts us : List Token} {o : Operator}

theorem ungrouped_append : ungrouped (ts ++ us) = ungrouped ts ++ ungrouped us :=
  List.filter_append ..

theorem ungrouped_cons {t : Token} (kept : t.isParen = false) : ungrouped (t :: ts) = t :: ungrouped ts := by
  rw [ungrouped, List.filter_cons, kept]
  rfl

theorem bared_cons {t : Token} (alone : ∀ v rest, t = named v → ts ≠ op .openBracket :: rest) :
    bared (t :: ts) = t :: bared ts := by
  rw [bared]
  intro v rest same follows
  exact alone v rest same follows

/-- What stands behind an operator other than a bracket does not matter for what stands before it. -/
theorem bared_join (other : o ≠ .openBracket) : bared (ts ++ op o :: us) = bared ts ++ op o :: bared us := by
  fun_induction bared ts with
  | case1 => exact bared_cons (by simp)
  | case2 v rest ih => rw [List.cons_append, List.cons_append, bared, ih, List.cons_append, List.cons_append]
  | case3 t rest alone ih =>
    rw [List.cons_append, bared_cons, ih, List.cons_append]
    intro v more same follows
    cases rest with
    | nil =>
      cases follows
      exact other rfl
    | cons next rest =>
      cases follows
      exact alone v rest same rfl

theorem keepsIndex_named {v : Variable} : KeepsIndex (named v) (op .openBracket) ↔ v.isIndexed = false := by
  constructor
  · intro keeps
    exact keeps v rfl rfl
  · intro plain w same _
    cases same
    exact plain

theorem ungrouped_cons_inj {t : Token} : ungrouped (t :: ts) = ungrouped (t :: us) ↔ ungrouped ts = ungrouped us := by
  unfold ungrouped
  cases paren : t.isParen <;> simp [paren]

/-- Nothing is lost exactly if no variable with an index of its own stands before a bracket. -/
theorem ungrouped_bared_eq_iff : ungrouped (bared ts) = ungrouped ts ↔ ts.IsChain KeepsIndex := by
  fun_induction bared ts with
  | case1 => simp
  | case2 v rest ih =>
    have opened : (op .openBracket :: rest).IsChain KeepsIndex ↔ rest.IsChain KeepsIndex := by
      rw [List.isChain_cons]
      exact and_iff_right fun next _ w same => by cases same
    have kept (w : Variable) (us : List Token) : ungrouped (named w :: us) = named w :: ungrouped us :=
      ungrouped_cons rfl
    rw [kept, kept, List.cons.injEq, named.injEq, Variable.base_eq_iff, ungrouped_cons_inj, ih,
      List.isChain_cons_cons, keepsIndex_named, opened]
  | case3 t rest alone ih =>
    have keeps : ∀ next ∈ rest.head?, KeepsIndex t next := by
      rintro next first v same rfl
      obtain ⟨more, rfl⟩ := List.head?_eq_some_iff.1 first
      exact absurd rfl (alone v more same)
    rw [ungrouped_cons_inj, ih, List.isChain_cons]
    exact (and_iff_right keeps).symm

end Token

/-! ### What a tree writes -/

namespace Grammar
variable {s t : Layer} {o : Operator} {op : BinaryOp}

theorem Joins.operator?_eq (joins : Joins s o op) : op.operator? = some o := by
  cases joins <;> rfl

theorem Applies.operator?_eq {sign : UnaryOp} (applies : Applies o sign) : sign.operator? = some o := by
  cases applies <;> rfl

theorem Joins.isParen (joins : Joins s o op) : (Token.op o).isParen = false := by
  cases joins <;> rfl

theorem Applies.isParen {sign : UnaryOp} (applies : Applies o sign) : (Token.op o).isParen = false := by
  cases applies <;> rfl

/-- The term of a tree is written as the tokens of the tree, less what groups and what is lost before brackets. -/
theorem ParseTree.tokens?_term (tree : ParseTree s) :
    tree.term.tokens? = some (Token.ungrouped (Token.bared tree.tokens)) := by
  induction tree with
  | pass covers inner ih => exact ih
  | binary covers o op joins left right ihLeft ihRight =>
    simp only [term, tokens, Term.tokens?, joins.operator?_eq, ihLeft, ihRight, Option.bind_some, Option.map_some]
    rw [Token.bared_join joins.ne_openBracket, Token.ungrouped_append, Token.ungrouped_cons joins.isParen]
  | unary o sign applies operand ih =>
    simp only [term, tokens, Term.tokens?, applies.operator?_eq, ih, Option.bind_some, Option.map_some]
    rw [Token.bared_cons (by simp), Token.ungrouped_cons applies.isParen]
  | item v index ih =>
    simp only [term, tokens, Term.tokens?, ih, Option.map_some]
    rw [Token.bared, Token.bared_join (by simp), Token.ungrouped_cons rfl, Token.ungrouped_cons rfl,
      Token.ungrouped_append]
    rfl
  | group inside ih =>
    simp only [term, tokens, ih]
    rw [Token.bared_cons (by simp), Token.bared_join (by simp)]
    simp [Token.ungrouped, Token.isParen, Token.bared]
  | literal value type => rfl
  | named v => rfl
  | call function argument => rfl

end Grammar

/-- Reading keeps every part of the elements but one. The term that elements are read as, written back, gives their
tokens without the parentheses that group, where a variable before a bracket is taken as a whole. These are all
tokens as they were, with the index of every variable, exactly if no variable that carries an index stands before
a bracket. -/
theorem Term.parse_writes_back (es : List Element) (t : Term) (read : Term.parse es = .ok t) :
    ∃ ts, Element.tokens es = .ok ts ∧ t.tokens? = some (Token.ungrouped (Token.bared ts)) ∧
      (t.tokens? = some (Token.ungrouped ts) ↔
        ∀ before v after, ts = before ++ .named v :: .op .openBracket :: after → v.isIndexed = false) := by
  obtain ⟨tree, ⟨spelled, -⟩, rfl⟩ := Term.parse_eq_ok.1 read
  refine ⟨tree.tokens, spelled, tree.tokens?_term, ?_⟩
  rw [tree.tokens?_term, Option.some.injEq, Token.ungrouped_bared_eq_iff,
    List.isChain_iff_forall_rel_of_append_cons_cons]
  constructor
  · intro keeps before v after same
    exact keeps same v rfl rfl
  · rintro plain first second before after same v rfl rfl
    exact plain before v after same

/-! ### An item of an item -/

/-- The row at its place, and behind it the place in brackets again. -/
def Element.pickedTwice : List Element :=
  [.attached "r" .picked, .operator "o" "[", .attached "p" .place, .operator "c" "]"]

theorem Element.tokens_pickedTwice : Element.tokens Element.pickedTwice =
    .ok [.named .picked, .op .openBracket, .named .place, .op .closeBracket] := by
  refine (Element.tokens_eq_ok _).2 (.cons ?_ (.cons ?_ (.cons ?_ (.cons ?_ .nil))))
  · exact .attached "r" .picked
  · exact .operator "o" (by decide)
  · exact .attached "p" .place
  · exact .operator "c" (by decide)

theorem Term.parse_pickedTwice :
    Term.parse Element.pickedTwice = .ok (.access "row" (.row []) (.named "place" .place)) := by
  refine Term.parse_eq_ok_iff_spelled.2 ⟨.pass .expression <| .pass .disjunction <| .pass .conjunction <|
    .pass .additive <| .pass .multiplicative <| .pass .unary <| .item .picked <| .pass .expression <|
    .pass .disjunction <| .pass .conjunction <| .pass .additive <| .pass .multiplicative <| .pass .unary <|
    .named .place, ?_, rfl⟩
  refine spelled_item.2 ⟨"r", .operator "o" "[", [.attached "p" .place], .operator "c" "]", rfl, rfl, ?_, ?_, ?_⟩
  · exact .operator "o" (by decide)
  · exact (spelled_single _ rfl).2 ⟨_, rfl, .attached "p" .place⟩
  · exact .operator "c" (by decide)

/-- What is written back is the row as a whole at the second place. -/
theorem Term.parse_writes_back_pickedTwice :
    ∃ ts, Element.tokens Element.pickedTwice = .ok ts ∧
      Term.tokens? (.access "row" (.row []) (.named "place" .place)) = some (Token.ungrouped (Token.bared ts)) ∧
      ¬∀ before v after, ts = before ++ .named v :: .op .openBracket :: after → v.isIndexed = false := by
  obtain ⟨ts, spelled, written, -⟩ := Term.parse_writes_back _ _ Term.parse_pickedTwice
  refine ⟨ts, spelled, written, fun plain => ?_⟩
  have same := Except.ok.inj (Element.tokens_pickedTwice.symm.trans spelled)
  exact absurd (plain [] .picked _ same.symm) (by decide)

/-- Reading does not keep every part of what it accepts: the index that the row carries is lost. -/
theorem Term.parse_loses_index :
    ¬∀ es t ts, Term.parse es = .ok t → Element.tokens es = .ok ts → t.tokens? = some (Token.ungrouped ts) := by
  intro keeps
  have written := keeps _ _ _ Term.parse_pickedTwice Element.tokens_pickedTwice
  simp only [Term.tokens?, Option.map_some, Option.some.injEq] at written
  have same : Variable.row [] = Variable.picked := Token.named.inj (List.cons.inj written).1
  exact absurd (congrArg Variable.isIndexed same) (by decide)

end Flowchart
