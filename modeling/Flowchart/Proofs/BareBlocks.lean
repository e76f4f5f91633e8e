import Flowchart.Proofs.Behaviour
import Flowchart.Proofs.Remarks
import Flowchart.Proofs.Unpacking
/-! The code of a block, origins apart. An origin goes into every node of a block's code and decides nothing about it:
the code without origins does not depend on the origin it was made with. What a block becomes begins with its remark,
or is one itself. -/
namespace Flowchart

namespace Code

theorem map_bare_ofTerm (origin : Option Origin) (t : Term) : (ofTerm origin t).map Expr.bare = ofTerm none t := by
  cases t with
  | literal value type =>
    rw [ofTerm, ofTerm]
    rfl
  | named name v =>
    cases indexed : v.isIndexed with
    | false =>
      rw [ofTerm_whole origin name indexed, ofTerm_whole none name indexed]
      rfl
    | true =>
      rw [ofTerm_indexed origin name indexed, ofTerm_indexed none name indexed]
      cases read : Term.parse v.index with
      | error e => rfl
      | ok index =>
        have := Term.weight_parse_index read
        have inner := map_bare_ofTerm origin index
        dsimp only [Except.mapError, Except.bind]
        rw [← inner]
        cases ofTerm origin index <;> rfl
  | access name v index =>
    have object := map_bare_ofTerm origin (.named name v)
    have inner := map_bare_ofTerm origin index
    rw [ofTerm_access, ofTerm_access, ← object, ← inner]
    cases ofTerm origin (.named name v) <;> cases ofTerm origin index <;> rfl
  | call f argument =>
    have inner := map_bare_ofTerm origin argument
    rw [ofTerm, ofTerm, ← inner]
    cases ofTerm origin argument <;> rfl
  | unary op operand =>
    have inner := map_bare_ofTerm origin operand
    rw [ofTerm, ofTerm, ← inner]
    cases ofTerm origin operand with
    | error e => rfl
    | ok code => cases op <;> rfl
  | binary op left right =>
    have first := map_bare_ofTerm origin left
    have second := map_bare_ofTerm origin right
    rw [ofTerm_binary, ofTerm_binary, ← first, ← second]
    cases ofTerm origin left <;> cases ofTerm origin right <;> rfl
  | blank label =>
    rw [ofTerm, ofTerm]
    rfl
termination_by t.weight
decreasing_by all_goals simp only [Term.weight]; omega

/-- A piece of code for a block, or the marker that takes its place, with an origin and without one. -/
inductive Bares (origin : Option Origin) : Except Stmt Expr → Except Stmt Expr → Prop
  | ok (e : Expr) : Bares origin (.ok e) (.ok e.bare)
  | error (e : NoCode) : Bares origin (.error (failure origin e)) (.error (failure none e))

variable (origin : Option Origin)

theorem bares_exprOf (es : List Element) : Bares origin (exprOf origin es) (exprOf none es) := by
  have bare : (ofElements origin es).map Expr.bare = ofElements none es := by
    rw [ofElements, ofElements]
    split
    · rfl
    · cases Term.parse es with
      | error e => rfl
      | ok t => exact map_bare_ofTerm origin t
  rw [exprOf, exprOf, ← bare]
  cases ofElements origin es with
  | error e => exact .error e
  | ok code => exact .ok code

theorem bares_targetOf (v : Variable) : Bares origin (targetOf origin v) (targetOf none v) := by
  rw [targetOf, targetOf]
  split
  · have index := bares_exprOf origin v.index
    generalize exprOf origin v.index = result, exprOf none v.index = result' at index ⊢
    cases index with
    | ok e => exact .ok (.subscript origin (.ident ⟨origin, v.name⟩) e)
    | error e => exact .error e
  · exact .ok (.ident ⟨origin, v.name⟩)

theorem bare_inputCall (v : Variable) : (inputCall origin v).bare = inputCall none v := by
  rw [inputCall, inputCall]
  cases inputCast? (v.subtype?.getD v.type) <;> rfl

theorem bareAll_blockStmts (c : Content) : Stmt.bareAll (blockStmts origin c) = blockStmts none c := by
  fun_cases blockStmts origin c with
  | case1 target right =>
    have place := bares_targetOf origin target
    have value := bares_exprOf origin right
    rw [blockStmts]
    generalize targetOf origin target = first, targetOf none target = first' at place ⊢
    generalize exprOf origin right = second, exprOf none right = second' at value ⊢
    cases place with
    | error e => rfl
    | ok target =>
      cases value with
      | error e => rfl
      | ok e => rfl
  | case2 v =>
    have place := bares_targetOf origin v
    rw [blockStmts, ← bare_inputCall origin]
    generalize targetOf origin v = first, targetOf none v = first' at place ⊢
    cases place with
    | error e => rfl
    | ok target => rfl
  | case3 => rfl
  | case4 e =>
    have value := bares_exprOf origin e.right
    rw [blockStmts]
    generalize exprOf origin e.right = second, exprOf none e.right = second' at value ⊢
    cases value with
    | error e => rfl
    | ok e => rfl
  | case5 c noAssign noInput noOutput noResult =>
    rw [blockStmts]
    · rfl
    all_goals assumption

theorem bare_test (c : Content) :
    Stmt.bareAll (test origin c).1 = (test none c).1 ∧ (test origin c).2.bare = (test none c).2 := by
  have result := bares_exprOf origin (testElements c)
  rw [test, test]
  generalize exprOf origin (testElements c) = first, exprOf none (testElements c) = first' at result ⊢
  cases result with
  | ok e => exact ⟨rfl, rfl⟩
  | error e => exact ⟨rfl, rfl⟩

namespace Stmt

theorem bareAll_eq_map (stmts : List Stmt) : bareAll stmts = stmts.map bare := by
  induction stmts with
  | nil => rfl
  | cons s rest ih => rw [bareAll, ih, List.map_cons]

theorem namedIn_append (stmts more : List Stmt) : namedIn (stmts ++ more) = namedIn stmts ++ namedIn more := by
  induction stmts with
  | nil => rfl
  | cons s rest ih => rw [List.cons_append, namedIn, namedIn, ih, List.append_assoc]

/-- The text of a statement that is not nested begins with something visible. -/
def Opens (s : Stmt) : Prop :=
  ∃ c, (text 0 s).toList.head? = some c ∧ Text.isBlank c = false

/-- Statements that begin with something visible and name their origins on one line. -/
structure AreTold (stmts : List Stmt) : Prop where
  oneLine : Origin.AreOneLine (namedIn stmts)
  opens : ∀ s ∈ stmts, s.Opens

namespace AreTold
variable {stmts more : List Stmt}

theorem nil : AreTold [] :=
  ⟨List.forall_mem_nil _, List.forall_mem_nil _⟩

theorem append (first : AreTold stmts) (second : AreTold more) : AreTold (stmts ++ more) := by
  refine ⟨?_, List.forall_mem_append.2 ⟨first.opens, second.opens⟩⟩
  rw [namedIn_append]
  exact List.forall_mem_append.2 ⟨first.oneLine, second.oneLine⟩

theorem single {s : Stmt} (oneLine : Origin.AreOneLine s.named) (opens : s.Opens) : AreTold [s] := by
  refine ⟨?_, List.forall_mem_singleton.2 opens⟩
  rw [namedIn, namedIn, List.append_nil]
  exact oneLine

/-- A program of such statements begins with something visible, too. -/
theorem begins (told : AreTold stmts) (origin : Option Origin) :
    ∀ c ∈ (text 0 (.program origin stmts)).toList.head?, Text.isBlank c = false := by
  cases stmts with
  | nil => simp [text, texts, stack]
  | cons s rest =>
    obtain ⟨c, first, visible⟩ := told.opens s List.mem_cons_self
    obtain ⟨tail, whole⟩ := List.head?_eq_some_iff.1 first
    have shown : Text.isBlankText (text 0 s) = false := by simp [Text.isBlankText, whole, visible]
    rw [text, texts, toList_stack_cons, shown, if_neg Bool.false_ne_true, whole]
    split <;> simp [visible]

theorem of_mem (each : ∀ s ∈ stmts, AreTold [s]) : AreTold stmts := by
  induction stmts with
  | nil => exact .nil
  | cons s rest ih =>
    obtain ⟨first, later⟩ := List.forall_mem_cons.1 each
    exact first.append (ih later)

section Forms
variable {o : Origin} (oneLine : '\n' ∉ o.text.toList)
include oneLine

theorem assign (target value : Expr) : AreTold [.assign (some o) target value] :=
  .single (by simpa [named, Origin.AreOneLine] using oneLine) ⟨'#', by simp [text, header, toList_indent], by decide⟩

theorem print (args : List Expr) : AreTold [.print (some o) args] :=
  .single (by simpa [named, Origin.AreOneLine] using oneLine) ⟨'#', by simp [text, header, toList_indent], by decide⟩

theorem unsupported (reason : String) : AreTold [.unsupported (some o) reason] :=
  .single (by simpa [named, Origin.AreOneLine] using oneLine) ⟨'#', by simp [text, toList_indent], by decide⟩

theorem branch (test : Expr) {body : List Stmt} (inThen : AreTold body) {orElse : Option (List Stmt)}
    (inElse : ∀ other ∈ orElse, AreTold other) : AreTold [.branch (some o) test body orElse] := by
  refine .single ?_ ⟨'#', by simp [text, header, toList_indent], by decide⟩
  have inElse : Origin.AreOneLine (namedElse orElse) := by
    cases orElse with
    | none => exact List.forall_mem_nil _
    | some other => exact (inElse other rfl).oneLine
  rw [named]
  exact List.forall_mem_append.2 ⟨List.forall_mem_append.2 ⟨by simpa using oneLine, inThen.oneLine⟩, inElse⟩

theorem loop (test : Expr) {body : List Stmt} (inside : AreTold body) : AreTold [.loop (some o) test body] := by
  refine .single ?_ ⟨'#', by simp [text, header, toList_indent], by decide⟩
  rw [named]
  exact List.forall_mem_append.2 ⟨by simpa using oneLine, inside.oneLine⟩

theorem blockStmts (c : Content) : AreTold (blockStmts (some o) c) :=
  .of_mem (Interpretation.forall_blockStmts c (fun _ => .unsupported oneLine _) (fun _ _ => .assign oneLine _ _)
    fun _ => .print oneLine _)

theorem marks (c : Content) : AreTold (test (some o) c).1 := by
  refine .of_mem fun s mark => ?_
  obtain ⟨e, rfl⟩ := Interpretation.test_failure mark
  exact .unsupported oneLine _

end Forms

theorem leave (origin : Option Origin) : AreTold [.leave origin] :=
  .single (List.forall_mem_nil _) ⟨'b', by simp [text, toList_indent], by decide⟩

end AreTold

end Stmt

end Code

end Flowchart
