import Flowchart.Code.Text
import Flowchart.Proofs.Unpacking
/-! The two forms of an item of an array can stand for each other. What is read in one form is read in the
other, as terms related by unpacking. A tree over the packed elements is unpacked leaf by leaf; a tree over the
unpacked elements is packed from the left, where properly nested brackets show which bracket closes an index. -/
namespace Flowchart
open Grammar

/-! ### Properly nested indices stay so when they are unpacked -/

namespace Operator.Nested

theorem append {first second : List (Option Operator)} (nested : Nested first) (more : Nested second) :
    Nested (first ++ second) := by
  induction nested with
  | nil => exact more
  | plain other _ ih => exact .plain other ih
  | enclosed pair inner _ _ ih =>
    rw [List.cons_append, List.append_assoc, List.cons_append]
    exact .enclosed pair inner ih

end Operator.Nested

namespace Element

theorem unpacked_of_operator? {e : Element} {o : Operator} (is : e.operator? = some o) : e.unpacked = [e] := by
  cases e with
  | operator id symbol => rw [unpacked]
  | _ => cases is

/-- The indices of fewer elements stay properly nested. -/
def StaysNested (es : List Element) : Prop :=
  AllWellIndexed es → Operator.Nested (es.map operator?) → Operator.Nested ((allUnpacked es).map operator?)

theorem nested_unpacked {e : Element} (lighter : ∀ us, weights us < e.weight → StaysNested us)
    (well : e.WellIndexed) (other : ∀ o, e.operator? = some o → o.opens = false ∧ o.closes = false) :
    Operator.Nested (e.unpacked.map operator?) := by
  cases e with
  | attached id v =>
    rw [unpacked]
    cases indexed : v.isIndexed with
    | false =>
      rw [Variable.unpacked_of_not_isIndexed indexed]
      exact .plain other .nil
    | true =>
      rw [Variable.unpacked_of_isIndexed indexed]
      rw [WellIndexed] at well
      obtain ⟨nested, within⟩ := well.index
      have fewer : weights v.index < (Element.attached id v).weight := by
        rw [weight, Variable.weight_eq]
        omega
      have inner := lighter v.index fewer within nested
      rw [List.map_cons, List.map_cons, List.map_append]
      exact .plain other (.enclosed rfl inner .nil)
  | function id name argument =>
    rw [unpacked]
    exact .plain (fun o none => by cases none) .nil
  | _ =>
    rw [unpacked]
    exact .plain other .nil

theorem staysNested_of_lighter {n : Nat} (lighter : ∀ us, weights us < n → StaysNested us) {es : List Element}
    (small : weights es ≤ n) : StaysNested es := by
  intro well nested
  generalize same : es.map operator? = os at nested
  -- along the nesting, not along the elements: what a bracket closes is taken at once
  induction nested generalizing es with
  | nil =>
    obtain rfl := List.map_eq_nil_iff.1 same
    rw [allUnpacked]
    exact .nil
  | @plain x rest other nested ih =>
    obtain ⟨e, more, rfl, rfl, rfl⟩ := List.map_eq_cons_iff.1 same
    rw [weights] at small
    rw [AllWellIndexed] at well
    obtain ⟨here, -, later⟩ := well
    rw [allUnpacked, List.map_append]
    have first := nested_unpacked (fun us fewer => lighter us (by omega)) here other
    exact first.append (ih (by omega) later rfl)
  | @enclosed o c inside rest pair inner nested ihInner ih =>
    obtain ⟨e, others, rfl, opens, same⟩ := List.map_eq_cons_iff.1 same
    obtain ⟨within, others, rfl, rfl, tail⟩ := List.map_eq_append_iff.1 same
    obtain ⟨f, more, rfl, closes, rfl⟩ := List.map_eq_cons_iff.1 tail
    rw [weights, weights_append, weights] at small
    rw [AllWellIndexed] at well
    obtain ⟨-, -, later⟩ := well
    obtain ⟨wellWithin, later⟩ := later.append
    rw [AllWellIndexed] at later
    have first := ihInner (by omega) wellWithin rfl
    have second := ih (by omega) later.2.2 rfl
    rw [allUnpacked, allUnpacked_append, allUnpacked, unpacked_of_operator? opens, unpacked_of_operator? closes]
    simp only [List.cons_append, List.nil_append, List.map_cons, List.map_append, opens, closes]
    exact .enclosed pair first second

theorem staysNested (es : List Element) : StaysNested es := by
  induction size : weights es using Nat.strongRecOn generalizing es with
  | ind n ih => exact staysNested_of_lighter (fun us fewer => ih _ fewer us rfl) (Nat.le_of_eq size)

end Element

/-! ### Which bracket closes an index -/

namespace Token

/-- Tokens that open and close nothing but their own. -/
def Passed (ts : List Token) : Prop :=
  ∀ pending rest, matchDelimiters pending (ts ++ rest) = matchDelimiters pending rest

theorem passed_of_nested {ts : List Token} (nested : Operator.Nested (ts.map operator?)) : Passed ts := by
  generalize same : ts.map operator? = os at nested
  induction nested generalizing ts with
  | nil =>
    obtain rfl := List.map_eq_nil_iff.1 same
    exact fun _ _ => rfl
  | @plain x rest other nested ih =>
    obtain ⟨t, more, rfl, rfl, rfl⟩ := List.map_eq_cons_iff.1 same
    intro pending after
    rw [List.cons_append, ← ih rfl pending after]
    cases t with
    | op o =>
      obtain ⟨opens, closes⟩ := other o rfl
      cases o <;> first | cases opens; done | cases closes; done | cases pending <;> simp [matchDelimiters]
    | _ => cases pending <;> simp [matchDelimiters]
  | @enclosed o c inside rest pair inner nested ihInner ih =>
    obtain ⟨t, others, rfl, opens, same⟩ := List.map_eq_cons_iff.1 same
    obtain ⟨within, others, rfl, rfl, tail⟩ := List.map_eq_append_iff.1 same
    obtain ⟨u, more, rfl, closes, rfl⟩ := List.map_eq_cons_iff.1 tail
    intro pending after
    rw [← ih rfl pending after, List.cons_append, List.append_assoc, List.cons_append]
    cases t with
    | op o =>
      cases u with
      | op c =>
        cases opens
        cases closes
        cases o with
        | openParen =>
          cases pair
          cases pending <;> simp [matchDelimiters, ihInner rfl _ _]
        | openBracket =>
          cases pair
          cases pending <;> simp [matchDelimiters, ihInner rfl _ _]
        | _ => cases pair
      | _ => cases closes
    | _ => cases opens

theorem passed_tokens {s : Layer} (tree : ParseTree s) : Passed tree.tokens :=
  tree.matchDelimiters_append

/-- A bracket that closes no bracket of its own ends the tokens before it. -/
theorem Passed.seam {us ws vs rest : List Token} (first : Passed us) (second : Passed ws)
    (same : us ++ .op .closeBracket :: vs = ws ++ .op .closeBracket :: rest) : us = ws ∧ vs = rest := by
  -- the longer of the two would close a bracket that it has not opened
  have refused (xs more : List Token) (passed : Passed xs) : ¬ Passed (xs ++ .op .closeBracket :: more) := by
    intro whole
    have matched := whole [] []
    rw [List.append_assoc, passed] at matched
    simp [matchDelimiters] at matched
  rcases List.append_eq_append_iff.1 same with ⟨mid, rfl, split⟩ | ⟨mid, rfl, split⟩
  · cases mid with
    | nil => cases split; exact ⟨(List.append_nil _).symm, rfl⟩
    | cons t mid =>
      cases split
      exact absurd second (refused us mid first)
  · cases mid with
    | nil => cases split; exact ⟨List.append_nil _, rfl⟩
    | cons t mid =>
      cases split
      exact absurd first (refused ws mid second)

end Token

/-! ### From packed to unpacked elements -/

namespace Element

/-- What is read from the elements is read, unpacked, from the unpacked ones. -/
def ReadsUnpacked (es : List Element) : Prop :=
  ∀ t t', Term.parse es = .ok t → t.Unpacks t' → Term.parse (allUnpacked es) = .ok t'

section
variable {n : Nat} (lighter : ∀ us, weights us < n → AllWellIndexed us → ReadsUnpacked us)
include lighter

theorem unpacked_named {id : String} {v : Variable} {t' : Term} (small : (Element.attached id v).weight ≤ n)
    (well : v.WellIndexed) (unpacks : (Term.named v.name v).Unpacks t') :
    ∃ tree : ParseTree .primary, tree.Spelled (v.unpacked id) ∧ tree.term = t' := by
  cases unpacks with
  | whole name plain =>
    rw [Variable.unpacked_of_not_isIndexed plain]
    exact ⟨.named v, (spelled_single _ rfl).2 ⟨_, rfl, .attached id v⟩, rfl⟩
  | item name indexed read inner =>
    rw [weight, Variable.weight_eq] at small
    have parsed := lighter v.index (by omega) well.index.2 _ _ read inner
    obtain ⟨index, spelled, rfl⟩ := Term.parse_eq_ok_iff_spelled.1 parsed
    rw [Variable.unpacked_of_isIndexed indexed]
    refine ⟨.item v.base index, spelled_item.2 ?_, by simp [ParseTree.term]⟩
    exact ⟨id, _, _, _, rfl, Variable.isArray_base_of_isIndexed indexed, .operator id (by decide), spelled,
      .operator id (by decide)⟩

theorem unpacked_call {e : Element} {f : Function} {argument t' : Term} (small : e.weight ≤ n)
    (well : e.WellIndexed) (spells : Spells e (.call f argument)) (unpacks : (Term.call f argument).Unpacks t') :
    ∃ tree : ParseTree .primary, tree.Spelled e.unpacked ∧ tree.term = t' := by
  cases spells with
  | function id name expression tree spells chain =>
    cases unpacks with
    | call f inner =>
      rw [weight, Expression.weight_eq] at small
      rw [WellIndexed] at well
      have read : Term.parse expression.right = .ok tree.term :=
        Term.parse_eq_ok_iff_spelled.2 ⟨tree, ⟨spells, chain⟩, rfl⟩
      have parsed := lighter expression.right (by omega) well.right _ _ read inner
      obtain ⟨tree', ⟨spells', chain'⟩, rfl⟩ := Term.parse_eq_ok_iff_spelled.1 parsed
      rw [unpacked]
      refine ⟨.call (.ofName name) tree'.term, (spelled_single _ rfl).2 ⟨_, rfl, ?_⟩, rfl⟩
      exact .function id name expression.unpacked tree' (by rwa [Expression.right_unpacked]) chain'

theorem exists_unpacked {s : Layer} (tree : ParseTree s) {es : List Element} {t' : Term} (small : weights es ≤ n)
    (well : AllWellIndexed es) (spelled : tree.Spelled es) (unpacks : tree.term.Unpacks t') :
    ∃ tree' : ParseTree s, tree'.Spelled (allUnpacked es) ∧ tree'.term = t' := by
  induction tree generalizing es t' with
  | pass covers inner ih =>
    obtain ⟨inner', spelled', rfl⟩ := ih small well spelled unpacks
    exact ⟨.pass covers inner', spelled', rfl⟩
  | binary covers o op joins left right ihLeft ihRight =>
    obtain ⟨first, e, second, rfl, spelledLeft, joined, spelledRight⟩ := spelled_binary.1 spelled
    rw [weights_append, weights] at small
    obtain ⟨wellFirst, wellRest⟩ := well.append
    rw [AllWellIndexed] at wellRest
    cases unpacks with
    | binary op unpacksLeft unpacksRight =>
      obtain ⟨left', spelledLeft', rfl⟩ := ihLeft (by omega) wellFirst spelledLeft unpacksLeft
      obtain ⟨right', spelledRight', rfl⟩ := ihRight (by omega) wellRest.2.2 spelledRight unpacksRight
      refine ⟨.binary covers o op joins left' right', spelled_binary.2 ?_, rfl⟩
      rw [allUnpacked_append, allUnpacked, unpacked_of_operator? joined.operator?_eq]
      exact ⟨_, e, _, rfl, spelledLeft', joined, spelledRight'⟩
  | unary o sign applies operand ih =>
    obtain ⟨e, rest, rfl, applied, spelledRest⟩ := spelled_unary.1 spelled
    rw [weights] at small
    rw [AllWellIndexed] at well
    cases unpacks with
    | unary sign inner =>
      obtain ⟨operand', spelled', rfl⟩ := ih (by omega) well.2.2 spelledRest inner
      refine ⟨.unary o sign applies operand', spelled_unary.2 ?_, rfl⟩
      rw [allUnpacked, unpacked_of_operator? applied.operator?_eq]
      exact ⟨e, _, rfl, applied, spelled'⟩
  | literal value type =>
    obtain ⟨e, rfl, spells⟩ := (spelled_single _ rfl).1 spelled
    cases unpacks
    cases spells with
    | literal id text =>
      rw [allUnpacked, unpacked, allUnpacked]
      exact ⟨_, spelled, rfl⟩
  | named v =>
    obtain ⟨e, rfl, spells⟩ := (spelled_single _ rfl).1 spelled
    rw [weights, weights] at small
    rw [AllWellIndexed] at well
    cases spells with
    | attached id v =>
      rw [WellIndexed] at well
      rw [allUnpacked, unpacked, allUnpacked, List.append_nil]
      exact unpacked_named lighter small well.1 unpacks
  | call f argument =>
    obtain ⟨e, rfl, spells⟩ := (spelled_single _ rfl).1 spelled
    rw [weights, weights] at small
    rw [AllWellIndexed] at well
    rw [allUnpacked, allUnpacked, List.append_nil]
    exact unpacked_call lighter small well.1 spells unpacks
  | item v index ih =>
    obtain ⟨id, e, inner, f, rfl, array, opened, spelledInner, closed⟩ := spelled_item.1 spelled
    rw [weights, weights, weights_append] at small
    rw [AllWellIndexed] at well
    obtain ⟨-, apart, later⟩ := well
    -- the bracket behind the variable shows that it carries no index
    have plain : v.isIndexed = false := by
      by_contra indexed
      have carries : v.isIndexed = true := by simpa using indexed
      exact apart carries e rfl opened.operator?_eq
    rw [AllWellIndexed] at later
    cases unpacks with
    | access name _ unpacksIndex =>
      obtain ⟨index', spelled', rfl⟩ := ih (by omega) later.2.2.append.1 spelledInner unpacksIndex
      refine ⟨.item v index', spelled_item.2 ?_, rfl⟩
      rw [allUnpacked, unpacked, Variable.unpacked_of_not_isIndexed plain, allUnpacked,
        unpacked_of_operator? opened.operator?_eq, allUnpacked_append, allUnpacked,
        unpacked_of_operator? closed.operator?_eq, allUnpacked]
      exact ⟨id, e, _, f, rfl, array, opened, spelled', closed⟩
  | group inside ih =>
    obtain ⟨e, inner, f, rfl, opened, spelledInner, closed⟩ := spelled_group.1 spelled
    rw [weights, weights_append] at small
    rw [AllWellIndexed] at well
    obtain ⟨inside', spelled', rfl⟩ := ih (by omega) well.2.2.append.1 spelledInner unpacks
    refine ⟨.group inside', spelled_group.2 ?_, rfl⟩
    rw [allUnpacked, unpacked_of_operator? opened.operator?_eq, allUnpacked_append, allUnpacked,
      unpacked_of_operator? closed.operator?_eq, allUnpacked]
    exact ⟨e, _, f, rfl, opened, spelled', closed⟩

end

theorem readsUnpacked (es : List Element) (well : AllWellIndexed es) : ReadsUnpacked es := by
  induction size : weights es using Nat.strongRecOn generalizing es with
  | ind n ih =>
    intro t t' read unpacks
    obtain ⟨tree, spelled, rfl⟩ := Term.parse_eq_ok_iff_spelled.1 read
    have lighter (us : List Element) (fewer : weights us < n) (well : AllWellIndexed us) : ReadsUnpacked us :=
      ih _ fewer us well rfl
    exact Term.parse_eq_ok_iff_spelled.2 (exists_unpacked lighter tree (Nat.le_of_eq size) well spelled unpacks)

/-! ### From unpacked to packed elements -/

/-- How elements can begin if they spell a token and others after it when they are unpacked. -/
inductive Begins : List Element → Token → List Token → Prop
  | plain {e : Element} {more : List Element} {t : Token} {ts : List Token} (spells : Spells e t)
    (noCall : ∀ f argument, t ≠ .call f argument) (plain : e.isIndexed = false)
    (later : List.Forall₂ Spells (allUnpacked more) ts) : Begins (e :: more) t ts
  | call {id name : String} {argument : Expression} {more : List Element} {t : Token} {ts : List Token}
    (spells : Spells (.function id name argument.unpacked) t)
    (later : List.Forall₂ Spells (allUnpacked more) ts) : Begins (.function id name argument :: more) t ts
  | item {id : String} {v : Variable} {more : List Element} {us ts : List Token} (indexed : v.isIndexed = true)
    (inner : List.Forall₂ Spells (allUnpacked v.index) us) (later : List.Forall₂ Spells (allUnpacked more) ts) :
    Begins (.attached id v :: more) (.named v.base) (.op .openBracket :: (us ++ .op .closeBracket :: ts))

theorem allUnpacked_eq_nil {es : List Element} : allUnpacked es = [] ↔ es = [] := by
  cases es with
  | nil => simp [allUnpacked]
  | cons e more =>
    have some : e.unpacked ≠ [] := by
      cases e with
      | attached id v =>
        cases indexed : v.isIndexed with
        | false => simp [unpacked, Variable.unpacked_of_not_isIndexed indexed]
        | true => simp [unpacked, Variable.unpacked_of_isIndexed indexed]
      | _ => simp [unpacked]
    simp [allUnpacked, some]

theorem begins {es : List Element} {t : Token} {ts : List Token}
    (spells : List.Forall₂ Spells (allUnpacked es) (t :: ts)) : Begins es t ts := by
  cases es with
  | nil =>
    rw [allUnpacked] at spells
    cases spells
  | cons e more =>
    rw [allUnpacked] at spells
    cases e with
    | literal id text =>
      rw [unpacked] at spells
      cases spells with
      | cons first later =>
        cases first
        exact .plain (.literal id text) (fun _ _ call => by cases call) rfl later
    | operator id symbol =>
      rw [unpacked] at spells
      cases spells with
      | cons first later =>
        cases first with
        | operator id known => exact .plain (.operator id known) (fun _ _ call => by cases call) rfl later
    | function id name argument =>
      rw [unpacked] at spells
      cases spells with
      | cons first later => exact .call first later
    | unattached id name =>
      rw [unpacked] at spells
      cases spells with
      | cons first later => cases first
    | attached id v =>
      rw [unpacked] at spells
      cases indexed : v.isIndexed with
      | false =>
        rw [Variable.unpacked_of_not_isIndexed indexed] at spells
        cases spells with
        | cons first later =>
          cases first
          exact .plain (.attached id v) (fun _ _ call => by cases call) indexed later
      | true =>
        rw [Variable.unpacked_of_isIndexed indexed] at spells
        simp only [List.cons_append, List.append_assoc, List.nil_append] at spells
        obtain ⟨first, rest⟩ := List.forall₂_cons.1 spells
        cases first
        obtain ⟨_, _, opened, within, rfl⟩ := List.forall₂_cons_left_iff.1 rest
        obtain ⟨us, _, rfl, inner, last⟩ := forall₂_split (R := flip Spells) within.flip
        obtain ⟨_, vs, closed, later, rfl⟩ := List.forall₂_cons_left_iff.1 last.flip
        cases opened with
        | operator _ known =>
          cases closed with
          | operator _ known' =>
            cases known
            cases known'
            exact .item indexed inner.flip later

theorem begins_op {es : List Element} {o : Operator} {ts : List Token}
    (spells : List.Forall₂ Spells (allUnpacked es) (.op o :: ts)) :
    ∃ e more, es = e :: more ∧ Spells e (.op o) ∧ List.Forall₂ Spells (allUnpacked more) ts := by
  cases begins spells with
  | plain first noCall plain later => exact ⟨_, _, rfl, first, later⟩
  | call first => cases first

/-- What is read from the unpacked elements is read, packed, from the elements. -/
def ReadsPacked (es : List Element) : Prop :=
  ∀ t', Term.parse (allUnpacked es) = .ok t' → ∃ t, Term.parse es = .ok t ∧ t.Unpacks t'

/-- Where the unpacked elements spell the tree and something after it that selects no item, the elements divide
there, and the first of them spell a tree that unpacks to the given one. -/
def PacksAs (n : Nat) {s : Layer} (tree : ParseTree s) : Prop :=
  tree.tokens.IsChain IndexesArray → ∀ es rest, weights es ≤ n → AllWellIndexed es →
    List.Forall₂ Spells (allUnpacked es) (tree.tokens ++ rest) → (∀ more, rest ≠ .op .openBracket :: more) →
    ∃ (first second : List Element) (packed : ParseTree s), es = first ++ second ∧ packed.Spelled first ∧
      packed.term.Unpacks tree.term ∧ List.Forall₂ Spells (allUnpacked second) rest

variable {n : Nat} {s t : Layer} {o : Operator} {op : BinaryOp}

theorem packsAs_binary {covers : Covers s t} {joins : Joins s o op} {left : ParseTree s} {right : ParseTree t}
    (ihLeft : PacksAs n left) (ihRight : PacksAs n right) :
    PacksAs n (ParseTree.binary covers o op joins left right) := by
  intro chain es rest small well spells noIndex
  obtain ⟨chainLeft, chainRight⟩ := (isChain_join joins.ne_openBracket).1 chain
  rw [ParseTree.tokens, List.append_assoc] at spells
  have noItem (more : List Token) : Token.op o :: right.tokens ++ rest ≠ .op .openBracket :: more := by
    intro same
    cases same
    exact joins.ne_openBracket rfl
  obtain ⟨first, others, left', rfl, spelledLeft, unpacksLeft, later⟩ :=
    ihLeft chainLeft es _ small well spells noItem
  obtain ⟨e, others, rfl, joined, later⟩ := begins_op later
  rw [weights_append, weights] at small
  have wellOthers := well.append.2
  rw [AllWellIndexed] at wellOthers
  obtain ⟨second, more, right', rfl, spelledRight, unpacksRight, later⟩ :=
    ihRight chainRight others rest (by omega) wellOthers.2.2 later noIndex
  refine ⟨first ++ e :: second, more, .binary covers o op joins left' right', by simp, ?_, ?_, later⟩
  · exact spelled_binary.2 ⟨first, e, second, rfl, spelledLeft, joined, spelledRight⟩
  · exact .binary op unpacksLeft unpacksRight

theorem packsAs_unary {sign : UnaryOp} {applies : Applies o sign} {operand : ParseTree .unary}
    (ih : PacksAs n operand) : PacksAs n (ParseTree.unary o sign applies operand) := by
  intro chain es rest small well spells noIndex
  obtain ⟨e, others, rfl, applied, later⟩ := begins_op spells
  rw [weights] at small
  rw [AllWellIndexed] at well
  obtain ⟨first, second, operand', rfl, spelled, unpacks, later⟩ :=
    ih (isChain_op.1 chain) others rest (by omega) well.2.2 later noIndex
  exact ⟨e :: first, second, .unary o sign applies operand', rfl,
    spelled_unary.2 ⟨e, first, rfl, applied, spelled⟩, .unary sign unpacks, later⟩

/-- An expression between an operator that opens and one that closes. -/
theorem packs_inside {inside : ParseTree .expression} {c : Operator} (ih : PacksAs n inside)
    (chain : inside.tokens.IsChain IndexesArray) {es : List Element} {rest : List Token} (small : weights es ≤ n)
    (well : AllWellIndexed es) (other : c ≠ .openBracket)
    (spells : List.Forall₂ Spells (allUnpacked es) (inside.tokens ++ .op c :: rest)) :
    ∃ (first : List Element) (f : Element) (second : List Element) (packed : ParseTree .expression),
      es = first ++ f :: second ∧ packed.Spelled first ∧ Spells f (.op c) ∧ packed.term.Unpacks inside.term ∧
        List.Forall₂ Spells (allUnpacked second) rest := by
  have noItem (more : List Token) : Token.op c :: rest ≠ .op .openBracket :: more := by
    intro same
    cases same
    exact other rfl
  obtain ⟨first, others, packed, rfl, spelled, unpacks, later⟩ := ih chain es _ small well spells noItem
  obtain ⟨f, second, rfl, closed, later⟩ := begins_op later
  exact ⟨first, f, second, packed, rfl, spelled, closed, unpacks, later⟩

theorem packsAs_group {inside : ParseTree .expression} (ih : PacksAs n inside) :
    PacksAs n (ParseTree.group inside) := by
  intro chain es rest small well spells noIndex
  simp only [ParseTree.tokens, List.cons_append, List.append_assoc, List.nil_append] at spells
  obtain ⟨e, others, rfl, opened, later⟩ := begins_op spells
  rw [weights] at small
  rw [AllWellIndexed] at well
  obtain ⟨first, f, second, inside', rfl, spelled, closed, unpacks, later⟩ :=
    packs_inside ih (isChain_group.1 chain) (by omega) well.2.2 (by simp) later
  refine ⟨e :: (first ++ [f]), second, .group inside', by simp, ?_, unpacks, later⟩
  exact spelled_group.2 ⟨e, first, f, rfl, opened, spelled, closed⟩

theorem packsAs_named (v : Variable) : PacksAs n (ParseTree.named v) := by
  intro chain es rest small well spells noIndex
  cases begins spells with
  | @plain e more _ _ first noCall plain later =>
    have spelled := (spelled_single (.named v) rfl).2 ⟨e, rfl, first⟩
    cases first with
    | attached id v => exact ⟨_, more, .named v, rfl, spelled, .whole v.name plain, later⟩
  | call first => cases first
  | item => exact absurd rfl (noIndex _)

theorem packsAs_literal (value : Value) (type : DataType) : PacksAs n (ParseTree.literal value type) := by
  intro chain es rest small well spells noIndex
  cases begins spells with
  | @plain e more _ _ first noCall plain later =>
    have spelled := (spelled_single (.literal value type) rfl).2 ⟨e, rfl, first⟩
    exact ⟨_, more, .literal value type, rfl, spelled, .literal value type, later⟩
  | call first => cases first

section
variable (lighter : ∀ us, weights us < n → AllWellIndexed us → ReadsPacked us)
include lighter

theorem packsAs_item {v : Variable} {index : ParseTree .expression} (ih : PacksAs n index) :
    PacksAs n (ParseTree.item v index) := by
  intro chain es rest small well spells noIndex
  obtain ⟨array, chainIndex⟩ := isChain_index.1 chain
  simp only [ParseTree.tokens, List.cons_append, List.append_assoc, List.nil_append] at spells
  generalize ahead : Token.op .openBracket :: (index.tokens ++ .op .closeBracket :: rest) = ts at spells
  cases begins spells with
  | @plain e more _ _ first noCall plain later =>
    subst ahead
    obtain ⟨b, others, rfl, opened, later⟩ := begins_op later
    rw [weights, weights] at small
    rw [AllWellIndexed, AllWellIndexed] at well
    obtain ⟨inner, f, second, index', rfl, spelled, closed, unpacks, later⟩ :=
      packs_inside ih chainIndex (by omega) well.2.2.2.2 (by simp) later
    cases first with
    | attached id v =>
      refine ⟨.attached id v :: b :: (inner ++ [f]), second, .item v index', by simp, ?_, ?_, later⟩
      · exact spelled_item.2 ⟨id, b, inner, f, rfl, array, opened, spelled, closed⟩
      · exact .access v.name v.base unpacks
  | call first => cases first
  | @item id w more us vs indexed inner later =>
    rw [weights, weight, Variable.weight_eq] at small
    rw [AllWellIndexed, WellIndexed] at well
    obtain ⟨nested, within⟩ := well.1.index
    have passed : Token.Passed us :=
      Token.passed_of_nested (operators_eq inner ▸ staysNested w.index within nested)
    obtain ⟨rfl, rfl⟩ := passed.seam (Token.passed_tokens index) (List.cons.inj ahead).2.symm
    have parsed := Term.parse_eq_ok_iff_spelled.2 ⟨index, ⟨inner, chainIndex⟩, rfl⟩
    obtain ⟨i, read, unpacks⟩ := lighter w.index (by omega) within _ parsed
    refine ⟨[.attached id w], more, .named w, rfl, (spelled_single _ rfl).2 ⟨_, rfl, .attached id w⟩, ?_, later⟩
    simp only [ParseTree.term, Variable.name_base, Variable.base_base]
    exact .item w.name indexed read unpacks

theorem packsAs_call (f : Function) (argument : Term) : PacksAs n (ParseTree.call f argument) := by
  intro chain es rest small well spells noIndex
  cases begins spells with
  | plain first noCall => exact absurd rfl (noCall f argument)
  | @call id name expression more _ _ first later =>
    rw [weights, weight, Expression.weight_eq] at small
    rw [AllWellIndexed, WellIndexed] at well
    cases first with
    | function _ _ _ tree within chainWithin =>
      rw [Expression.right_unpacked] at within
      have parsed := Term.parse_eq_ok_iff_spelled.2 ⟨tree, ⟨within, chainWithin⟩, rfl⟩
      obtain ⟨a, read, unpacks⟩ := lighter expression.right (by omega) well.1.right _ parsed
      obtain ⟨packed, ⟨spells', chain'⟩, rfl⟩ := Term.parse_eq_ok_iff_spelled.1 read
      have spelled := Spells.function id name expression packed spells' chain'
      exact ⟨[_], more, .call (.ofName name) packed.term, rfl, (spelled_single _ rfl).2 ⟨_, rfl, spelled⟩,
        .call (.ofName name) unpacks, later⟩

theorem packsAs (tree : ParseTree s) : PacksAs n tree := by
  induction tree with
  | pass covers inner ih =>
    intro chain es rest small well spells noIndex
    obtain ⟨first, second, packed, split, spelled, unpacks, later⟩ := ih chain es rest small well spells noIndex
    exact ⟨first, second, .pass covers packed, split, spelled, unpacks, later⟩
  | binary covers o op joins left right ihLeft ihRight => exact packsAs_binary ihLeft ihRight
  | unary o sign applies operand ih => exact packsAs_unary ih
  | literal value type => exact packsAs_literal value type
  | named v => exact packsAs_named v
  | item v index ih => exact packsAs_item lighter ih
  | call f argument => exact packsAs_call lighter f argument
  | group inside ih => exact packsAs_group ih

end

theorem readsPacked (es : List Element) (well : AllWellIndexed es) : ReadsPacked es := by
  induction size : weights es using Nat.strongRecOn generalizing es with
  | ind n ih =>
    intro t' read
    obtain ⟨tree, ⟨spells, chain⟩, rfl⟩ := Term.parse_eq_ok_iff_spelled.1 read
    have lighter (us : List Element) (fewer : weights us < n) (well : AllWellIndexed us) : ReadsPacked us :=
      ih _ fewer us well rfl
    rw [← List.append_nil tree.tokens] at spells
    obtain ⟨first, second, packed, rfl, spelled, unpacks, later⟩ :=
      packsAs lighter tree chain es [] (Nat.le_of_eq size) well spells (by simp)
    obtain rfl := allUnpacked_eq_nil.1 (List.forall₂_nil_right_iff.1 later)
    rw [List.append_nil]
    exact ⟨packed.term, Term.parse_eq_ok_iff_spelled.2 ⟨packed, spelled, rfl⟩, unpacks⟩

end Element

theorem evaluateElements_eq_ok {s : Store} {es : List Element} {r : TypedValue} :
    evaluateElements s es = .ok r ↔ ∃ t, Term.parse es = .ok t ∧ Eval.evaluate s t = .ok r := by
  unfold evaluateElements
  cases Term.parse es <;> simp

theorem Code.ofElements_eq_ok {origin : Option Origin} {es : List Element} {code : Expr} (some : es ≠ []) :
    ofElements origin es = .ok code ↔ ∃ t, Term.parse es = .ok t ∧ ofTerm origin t = .ok code := by
  unfold ofElements
  rw [if_neg (by simpa using some)]
  cases Term.parse es <;> simp

namespace Element
variable {es : List Element}

/-- A property of terms that unpacking keeps, and that only holds of terms that can be unpacked. -/
theorem read_unpacked_iff (well : AllWellIndexed es) {holds : Term → Prop}
    (keeps : ∀ t t', t.Unpacks t' → (holds t ↔ holds t')) (unpackable : ∀ t, holds t → ∃ t', t.Unpacks t') :
    (∃ t, Term.parse es = .ok t ∧ holds t) ↔ ∃ t, Term.parse (allUnpacked es) = .ok t ∧ holds t := by
  constructor
  · rintro ⟨t, read, holdsOf⟩
    obtain ⟨t', unpacks⟩ := unpackable t holdsOf
    exact ⟨t', readsUnpacked es well t t' read unpacks, (keeps t t' unpacks).1 holdsOf⟩
  · rintro ⟨t', read, holdsOf⟩
    obtain ⟨t, packed, unpacks⟩ := readsPacked es well t' read
    exact ⟨t, packed, (keeps t t' unpacks).2 holdsOf⟩

theorem code_unpacked_iff (well : AllWellIndexed es) (origin : Option Code.Origin) (code : Code.Expr) :
    Code.ofElements origin es = .ok code ↔ Code.ofElements origin (allUnpacked es) = .ok code := by
  by_cases empty : es = []
  · rw [empty, allUnpacked]
  · have some : allUnpacked es ≠ [] := fun none => empty (allUnpacked_eq_nil.1 none)
    rw [Code.ofElements_eq_ok empty, Code.ofElements_eq_ok some]
    refine read_unpacked_iff well (fun t t' unpacks => ?_) (fun t done => ?_)
    · rw [unpacks.code_eq]
    · exact (Code.descends_ofTerm origin).exists_unpacks t ⟨code, done⟩

/-- The two forms of an item of an array can stand for each other: the elements and the unpacked elements have the
same value in every store, with its type, and the same text in the code, if they have any. -/
theorem index_forms_interchange (es : List Element) (well : AllWellIndexed es) :
    (∀ (s : Store) (r : TypedValue),
      evaluateElements s es = .ok r ↔ evaluateElements s (allUnpacked es) = .ok r) ∧
    ∀ (origin : Option Code.Origin) (text : String),
      (Code.ofElements origin es).map Code.Expr.text = .ok text ↔
        (Code.ofElements origin (allUnpacked es)).map Code.Expr.text = .ok text := by
  constructor
  · intro s r
    rw [evaluateElements_eq_ok, evaluateElements_eq_ok]
    refine read_unpacked_iff well (fun t t' unpacks => ?_) (fun t done => ?_)
    · rw [unpacks.evaluate_eq]
    · exact (Eval.descends_evaluate s).exists_unpacks t ⟨r, done⟩
  · intro origin text
    constructor
    · intro written
      obtain ⟨code, made, rfl⟩ := map_eq_ok written
      rw [(code_unpacked_iff well origin code).1 made]
      rfl
    · intro written
      obtain ⟨code, made, rfl⟩ := map_eq_ok written
      rw [(code_unpacked_iff well origin code).2 made]
      rfl

end Element

/-! ### An item whose index is an item -/

/-- A row of two places, the item of it at a place, and the item at the place found there. -/
def Store.ofLinks : Store :=
  ⟨[⟨.row [], .array [.int 1, .int 0]⟩, ⟨.place, .int 1⟩]⟩

def Variable.linked : Variable :=
  .row [.attached "inner" .picked]

theorem Store.evaluate_linked : Eval.evaluate .ofLinks (.named "row" .linked) = .ok ⟨.int 1, some .integer⟩ := by
  have place : Eval.evaluate .ofLinks (.named "place" .place) = .ok ⟨.int 1, some .integer⟩ := by
    rw [Eval.evaluate]
    rfl
  have picked : Eval.evaluate .ofLinks (.named "row" .picked) = .ok ⟨.int 0, some .integer⟩ := by
    rw [Eval.evaluate_indexed "row" rfl rfl]
    have read : Term.parse Variable.picked.index = .ok (.named "place" .place) := Term.parse_attached "x" .place
    rw [read]
    simp only [Error.ofSyntax, Except.bind, place]
    rfl
  rw [Eval.evaluate_indexed "row" rfl rfl]
  have read : Term.parse Variable.linked.index = .ok (.named "row" .picked) := Term.parse_attached "inner" .picked
  rw [read]
  simp only [Error.ofSyntax, Except.bind, picked]
  rfl

theorem Element.wellIndexed_single (id : String) {v : Variable} (well : v.WellIndexed) :
    AllWellIndexed [.attached id v] := by
  refine ⟨well, ?_, trivial⟩
  intro _ next follows
  cases follows

theorem Variable.wellIndexed_row (id : String) {v : Variable} (well : v.WellIndexed) :
    (Variable.row [.attached id v]).WellIndexed :=
  ⟨.plain (fun _ none => by cases none) .nil, Element.wellIndexed_single id well⟩

theorem Element.index_forms_linked :
    AllWellIndexed [.attached "outer" .linked] ∧
    allUnpacked [.attached "outer" .linked] =
      [.attached "outer" (.row []), .operator "outer" "[", .attached "inner" (.row []), .operator "inner" "[",
        .attached "x" .place, .operator "inner" "]", .operator "outer" "]"] ∧
    evaluateElements .ofLinks (allUnpacked [.attached "outer" .linked]) = .ok ⟨.int 1, some .integer⟩ := by
  have well : AllWellIndexed [.attached "outer" .linked] :=
    wellIndexed_single "outer" (Variable.wellIndexed_row "inner" (Variable.wellIndexed_row "x" trivial))
  refine ⟨well, rfl, ?_⟩
  exact ((index_forms_interchange _ well).1 .ofLinks _).1
    (evaluateElements_eq_ok.2 ⟨_, Term.parse_attached "outer" .linked, Store.evaluate_linked⟩)

end Flowchart
