import Flowchart.Proofs.CodeLines
/-! The lines of a program determine how its statements are nested. A block ends where the lines are indented less, an
empty block is a line of its own, and a branch has an else part where the word stands at its own level. So no two
programs that differ in more than origins, values and remarks are written alike. -/
namespace Flowchart.Code

/-! Statements without what the text does not show. -/

mutual
/-- A statement without origins, without the values of its literals and without the reasons of its markers. An else
part without statements counts as none. -/
def Stmt.erase : Stmt → Stmt
  | .program _ body => .program none (Stmt.eraseAll body)
  | .assign _ target value => .assign none target.erase value.erase
  | .branch _ test body orElse => .branch none test.erase (Stmt.eraseAll body) (Stmt.eraseElse orElse)
  | .loop _ test body => .loop none test.erase (Stmt.eraseAll body)
  | .print _ args => .print none (Expr.eraseAll args)
  | .leave _ => .leave none
  | .unsupported _ _ => .unsupported none ""
  | .expr e => .expr e.erase
/-- The same of several statements. -/
def Stmt.eraseAll : List Stmt → List Stmt
  | [] => []
  | s :: rest => s.erase :: Stmt.eraseAll rest
/-- The same of an else part. -/
def Stmt.eraseElse : Option (List Stmt) → Option (List Stmt)
  | none => none
  | some [] => none
  | some (s :: rest) => some (s.erase :: Stmt.eraseAll rest)
end

/-! Skeletons. -/

/-- Whether a row only says where code came from. -/
def Row.isComment : Row → Bool
  | comment _ => true
  | _ => false

/-- Whether a row is the first of a statement, comments apart. -/
def Row.opens : Row → Bool
  | comment _ => false
  | code .orElse => false
  | code .pass => false
  | _ => true

/-- Lines without comments and without what rows leave open. -/
def Line.skeleton (ls : List Line) : List Line :=
  (ls.map Line.erase).filter fun l => !l.row.isComment

namespace Line

theorem skeleton_append (ls ls' : List Line) : skeleton (ls ++ ls') = skeleton ls ++ skeleton ls' := by
  simp [skeleton]

theorem skeleton_code (level : Nat) (c : Clause) (ls : List Line) :
    skeleton (⟨level, .code c⟩ :: ls) = ⟨level, .code c.erase⟩ :: skeleton ls := by
  simp [skeleton, erase, Row.erase, Row.isComment]

theorem skeleton_origin (level : Nat) (origin : Option Origin) : skeleton (Origin.lines level origin) = [] := by
  cases origin with
  | none => rfl
  | some o => rfl

end Line

namespace Stmt

open Line

variable {V : Vocabulary} {level : Nat}

@[simp]
theorem skeleton_assign (origin : Option Origin) (target value : Expr) :
    skeleton ((assign origin target value).lines level) = [⟨level, .code (.assign target.erase value.erase)⟩] := by
  rw [lines, skeleton_append, skeleton_origin, skeleton_code]
  rfl

@[simp]
theorem skeleton_branch (origin : Option Origin) (test : Expr) (body : List Stmt) (orElse : Option (List Stmt)) :
    skeleton ((branch origin test body orElse).lines level) =
      ⟨level, .code (.branch test.erase)⟩ ::
        (skeleton (blockLines (level + 1) body) ++ skeleton (elseLines level orElse)) := by
  rw [lines, skeleton_append, skeleton_origin, skeleton_code, skeleton_append]
  rfl

@[simp]
theorem skeleton_loop (origin : Option Origin) (test : Expr) (body : List Stmt) :
    skeleton ((loop origin test body).lines level) =
      ⟨level, .code (.loop test.erase)⟩ :: skeleton (blockLines (level + 1) body) := by
  rw [lines, skeleton_append, skeleton_origin, skeleton_code]
  rfl

@[simp]
theorem skeleton_print (origin : Option Origin) (args : List Expr) :
    skeleton ((print origin args).lines level) = [⟨level, .code (.print (Expr.eraseAll args))⟩] := by
  rw [lines, skeleton_append, skeleton_origin, skeleton_code]
  rfl

@[simp]
theorem skeleton_leave (origin : Option Origin) :
    skeleton ((leave origin).lines level) = [⟨level, .code .leave⟩] := rfl

@[simp]
theorem skeleton_unsupported (origin : Option Origin) (reason : String) :
    skeleton ((unsupported origin reason).lines level) = [⟨level, .marker ""⟩] := rfl

/-- Every statement shows, at its own level. -/
theorem skeleton_begins {s : Stmt} (plain : s.IsPlain V) (level : Nat) :
    ∃ row rest, skeleton (s.lines level) = ⟨level, row⟩ :: rest ∧ row.opens = true := by
  cases s with
  | program | expr => exact plain.elim
  | assign => exact ⟨_, _, skeleton_assign .., rfl⟩
  | branch => exact ⟨_, _, skeleton_branch .., rfl⟩
  | loop => exact ⟨_, _, skeleton_loop .., rfl⟩
  | print => exact ⟨_, _, skeleton_print .., rfl⟩
  | leave => exact ⟨_, _, skeleton_leave .., rfl⟩
  | unsupported => exact ⟨_, _, skeleton_unsupported .., rfl⟩

/-! What follows. -/

/-- Lines behind a block at a level: the first of them is indented less. -/
def Outside (level : Nat) (ls : List Line) : Prop :=
  ∀ l, ls.head? = some l → l.level < level

/-- Lines behind a statement at a level: they are behind its block, or begin the next statement. -/
def Follows (level : Nat) (ls : List Line) : Prop :=
  ∀ l, ls.head? = some l → l.level < level ∨ (l.level = level ∧ l.row.opens = true)

theorem Outside.follows {ls : List Line} (outside : Outside level ls) : Follows level ls := by
  intro l first
  exact .inl (outside l first)

theorem Follows.outside {ls : List Line} (follows : Follows level ls) : Outside (level + 1) ls := by
  intro l first
  rcases follows l first with less | ⟨same, -⟩
  · omega
  · omega

theorem follows_linesOf {body : List Stmt} (plain : ArePlain V body) {ls : List Line} (outside : Outside level ls) :
    Follows level (skeleton (linesOf level body) ++ ls) := by
  cases body with
  | nil => exact outside.follows
  | cons s rest =>
    obtain ⟨row, more, begun, opens⟩ := skeleton_begins plain.1 level
    rw [linesOf, skeleton_append, begun]
    rintro l ⟨⟩
    exact .inr ⟨rfl, opens⟩

/-- An else part begins at the level of its branch. -/
theorem outside_elseLines (orElse : Option (List Stmt)) {ls : List Line} (follows : Follows level ls) :
    Outside (level + 1) (skeleton (elseLines level orElse) ++ ls) := by
  cases orElse with
  | none => exact follows.outside
  | some body =>
    cases body with
    | nil => exact follows.outside
    | cons s rest =>
      rw [elseLines_cons, skeleton_code]
      rintro l ⟨⟩
      exact Nat.lt_succ_self level

/-! Reading back. -/

/-- Whatever statement shows like this one, before what may follow it, is the same statement. -/
def Cancels (V : Vocabulary) (s : Stmt) : Prop :=
  ∀ (level : Nat) (t : Stmt) (ls ls' : List Line), t.IsPlain V → Follows level ls → Follows level ls' →
    skeleton (s.lines level) ++ ls = skeleton (t.lines level) ++ ls' → s.erase = t.erase ∧ ls = ls'

theorem linesOf_cancel {body body' : List Stmt} {ls ls' : List Line} (each : ∀ s ∈ body, Cancels V s)
    (plain : ArePlain V body) (plain' : ArePlain V body') (outside : Outside level ls) (outside' : Outside level ls')
    (same : skeleton (linesOf level body) ++ ls = skeleton (linesOf level body') ++ ls') :
    eraseAll body = eraseAll body' ∧ ls = ls' := by
  have notOver {s : Stmt} {rest : List Stmt} {ls ls' : List Line} (plain : ArePlain V (s :: rest))
      (outside : Outside level ls) : skeleton (linesOf level (s :: rest)) ++ ls' ≠ ls := by
    intro same
    obtain ⟨row, more, begun, -⟩ := skeleton_begins plain.1 level
    rw [linesOf, skeleton_append, begun] at same
    have less := outside ⟨level, row⟩ (by rw [← same]; rfl)
    exact Nat.lt_irrefl level less
  induction body generalizing body' with
  | nil =>
    cases body' with
    | nil => exact ⟨rfl, same⟩
    | cons t rest' => exact absurd same.symm (notOver plain' outside)
  | cons s rest ih =>
    cases body' with
    | nil => exact absurd same (notOver plain outside')
    | cons t rest' =>
      obtain ⟨first, later⟩ := List.forall_mem_cons.1 each
      rw [ArePlain] at plain plain'
      rw [linesOf, linesOf, skeleton_append, skeleton_append, List.append_assoc, List.append_assoc] at same
      obtain ⟨stmts, more⟩ := first level t _ _ plain'.1 (follows_linesOf plain.2 outside)
        (follows_linesOf plain'.2 outside') same
      obtain ⟨rests, after⟩ := ih later plain.2 plain'.2 more
      exact ⟨by rw [eraseAll, eraseAll, stmts, rests], after⟩

/-- A block without statements is no other block, since no statement shows like its line. -/
theorem blockLines_cancel {body body' : List Stmt} {ls ls' : List Line} (each : ∀ s ∈ body, Cancels V s)
    (plain : ArePlain V body) (plain' : ArePlain V body') (outside : Outside level ls) (outside' : Outside level ls')
    (same : skeleton (blockLines level body) ++ ls = skeleton (blockLines level body') ++ ls') :
    eraseAll body = eraseAll body' ∧ ls = ls' := by
  have notEmpty {s : Stmt} {rest : List Stmt} {ls ls' : List Line} (plain : ArePlain V (s :: rest)) :
      skeleton (blockLines level (s :: rest)) ++ ls ≠ skeleton (blockLines level []) ++ ls' := by
    intro same
    obtain ⟨row, more, begun, opens⟩ := skeleton_begins plain.1 level
    rw [blockLines_cons, linesOf, skeleton_append, begun] at same
    cases (List.cons.inj same).1
    cases opens
  cases body with
  | nil =>
    cases body' with
    | nil => exact ⟨rfl, (List.cons.inj same).2⟩
    | cons t rest' => exact absurd same.symm (notEmpty plain')
  | cons s rest =>
    cases body' with
    | nil => exact absurd same (notEmpty plain)
    | cons t rest' =>
      rw [blockLines_cons, blockLines_cons] at same
      exact linesOf_cancel each plain plain' outside outside' same

theorem else_cases (orElse : Option (List Stmt)) :
    (eraseElse orElse = none ∧ ∀ level, elseLines level orElse = []) ∨ ∃ s rest, orElse = some (s :: rest) := by
  cases orElse with
  | none => exact .inl ⟨by rw [eraseElse], fun level => by rw [elseLines]⟩
  | some body =>
    cases body with
    | nil => exact .inl ⟨by rw [eraseElse], fun level => by rw [elseLines]⟩
    | cons s rest => exact .inr ⟨s, rest, rfl⟩

/-- No other line at the level of a branch goes on with its else part. -/
theorem elseLines_cancel {orElse orElse' : Option (List Stmt)} {ls ls' : List Line}
    (each : ∀ body ∈ orElse, ∀ s ∈ body, Cancels V s) (plain : IsPlainElse V orElse) (plain' : IsPlainElse V orElse')
    (follows : Follows level ls) (follows' : Follows level ls')
    (same : skeleton (elseLines level orElse) ++ ls = skeleton (elseLines level orElse') ++ ls') :
    eraseElse orElse = eraseElse orElse' ∧ ls = ls' := by
  have notElse {s : Stmt} {rest : List Stmt} {ls ls' : List Line} (follows : Follows level ls) :
      skeleton (elseLines level (some (s :: rest))) ++ ls' ≠ ls := by
    intro same
    rw [elseLines_cons, skeleton_code] at same
    rcases follows ⟨level, .code .orElse⟩ (by rw [← same]; rfl) with less | ⟨-, opens⟩
    · exact Nat.lt_irrefl level less
    · cases opens
  rcases else_cases orElse with ⟨erased, none⟩ | ⟨s, rest, rfl⟩
  · rcases else_cases orElse' with ⟨erased', none'⟩ | ⟨t, rest', rfl⟩
    · rw [none, none'] at same
      exact ⟨by rw [erased, erased'], same⟩
    · rw [none] at same
      exact absurd same.symm (notElse follows)
  · rcases else_cases orElse' with ⟨erased', none'⟩ | ⟨t, rest', rfl⟩
    · rw [none'] at same
      exact absurd same (notElse follows')
    · rw [IsPlainElse] at plain plain'
      rw [elseLines_cons, elseLines_cons, skeleton_code, skeleton_code] at same
      obtain ⟨bodies, after⟩ := linesOf_cancel (each _ rfl) plain plain' follows.outside follows'.outside
        (List.cons.inj same).2
      rw [eraseAll, eraseAll] at bodies
      exact ⟨by rw [eraseElse, eraseElse, bodies], after⟩

mutual
theorem cancels {s : Stmt} (plain : s.IsPlain V) : Cancels V s := by
  intro level t ls ls' plain' follows follows' same
  cases s with
  | program | expr => exact plain.elim
  | assign origin target value =>
    cases t with
    | program | expr => exact plain'.elim
    | assign origin' target' value' =>
      simp only [skeleton_assign, List.singleton_append, List.cons.injEq, Line.mk.injEq, Row.code.injEq,
        Clause.assign.injEq, true_and] at same
      exact ⟨by rw [erase, erase, same.1.1, same.1.2], same.2⟩
    | _ => simp at same
  | branch origin test body orElse =>
    cases t with
    | program | expr => exact plain'.elim
    | branch origin' test' body' orElse' =>
      rw [IsPlain] at plain plain'
      simp only [skeleton_branch, List.cons_append, List.append_assoc, List.cons.injEq, Line.mk.injEq, Row.code.injEq,
        Clause.branch.injEq, true_and] at same
      obtain ⟨tests, same⟩ := same
      obtain ⟨bodies, same⟩ := blockLines_cancel (cancels_each plain.2.2.1) plain.2.2.1 plain'.2.2.1
        (outside_elseLines orElse follows) (outside_elseLines orElse' follows') same
      obtain ⟨elses, after⟩ := elseLines_cancel (cancels_eachElse plain.2.2.2) plain.2.2.2 plain'.2.2.2 follows
        follows' same
      exact ⟨by rw [erase, erase, tests, bodies, elses], after⟩
    | _ => simp at same
  | loop origin test body =>
    cases t with
    | program | expr => exact plain'.elim
    | loop origin' test' body' =>
      rw [IsPlain] at plain plain'
      simp only [skeleton_loop, List.cons_append, List.cons.injEq, Line.mk.injEq, Row.code.injEq,
        Clause.loop.injEq, true_and] at same
      obtain ⟨bodies, after⟩ := blockLines_cancel (cancels_each plain.2.2) plain.2.2 plain'.2.2
        follows.outside follows'.outside same.2
      exact ⟨by rw [erase, erase, same.1, bodies], after⟩
    | _ => simp at same
  | print origin args =>
    cases t with
    | program | expr => exact plain'.elim
    | print origin' args' =>
      simp only [skeleton_print, List.singleton_append, List.cons.injEq, Line.mk.injEq, Row.code.injEq,
        Clause.print.injEq, true_and] at same
      exact ⟨by rw [erase, erase, same.1], same.2⟩
    | _ => simp at same
  | leave origin =>
    cases t with
    | program | expr => exact plain'.elim
    | leave origin' => exact ⟨rfl, (List.cons.inj same).2⟩
    | _ => simp at same
  | unsupported origin reason =>
    cases t with
    | program | expr => exact plain'.elim
    | unsupported origin' reason' => exact ⟨rfl, (List.cons.inj same).2⟩
    | _ => simp at same

theorem cancels_each {body : List Stmt} (plain : ArePlain V body) : ∀ s ∈ body, Cancels V s := by
  cases body with
  | nil => nofun
  | cons s rest =>
    rw [ArePlain] at plain
    exact List.forall_mem_cons.2 ⟨cancels plain.1, cancels_each plain.2⟩

theorem cancels_eachElse {orElse : Option (List Stmt)} (plain : IsPlainElse V orElse) :
    ∀ body ∈ orElse, ∀ s ∈ body, Cancels V s := by
  cases orElse with
  | none => nofun
  | some body =>
    rw [IsPlainElse] at plain
    rintro _ ⟨⟩
    exact cancels_each plain
end

/-! Programs. -/

mutual
theorem firstBlank?_eq_none {s : Stmt} (plain : s.IsPlain V) : s.firstBlank? = none := by
  cases s with
  | program | expr => exact plain.elim
  | assign origin target value =>
    rw [IsPlain] at plain
    rw [firstBlank?, Expr.firstBlank?_eq_none plain.2.1, Expr.firstBlank?_eq_none plain.2.2, Option.none_or]
  | branch origin test body orElse =>
    rw [IsPlain] at plain
    rw [firstBlank?, Expr.firstBlank?_eq_none plain.2.1, firstBlankIn?_eq_none plain.2.2.1,
      firstBlankElse?_eq_none plain.2.2.2, Option.none_or, Option.none_or]
  | loop origin test body =>
    rw [IsPlain] at plain
    rw [firstBlank?, Expr.firstBlank?_eq_none plain.2.1, firstBlankIn?_eq_none plain.2.2, Option.none_or]
  | print origin args =>
    rw [IsPlain] at plain
    rw [firstBlank?, Expr.firstBlankIn?_eq_none plain.2]
  | leave origin => rfl
  | unsupported origin reason => rfl

theorem firstBlankIn?_eq_none {body : List Stmt} (plain : ArePlain V body) : firstBlankIn? body = none := by
  cases body with
  | nil => rfl
  | cons s rest =>
    rw [ArePlain] at plain
    rw [firstBlankIn?, firstBlank?_eq_none plain.1, firstBlankIn?_eq_none plain.2, Option.none_or]

theorem firstBlankElse?_eq_none {orElse : Option (List Stmt)} (plain : IsPlainElse V orElse) :
    firstBlankElse? orElse = none := by
  cases orElse with
  | none => rfl
  | some body =>
    rw [IsPlainElse] at plain
    rw [firstBlankElse?, firstBlankIn?_eq_none plain]
end

/-- A whole program of plain statements. -/
def IsProgram (V : Vocabulary) : Stmt → Prop
  | .program _ body => ArePlain V body
  | _ => False

theorem IsProgram.exists_body {p : Stmt} (program : p.IsProgram V) :
    ∃ origin body, p = .program origin body ∧ ArePlain V body := by
  cases p with
  | program origin body => exact ⟨origin, body, rfl, program⟩
  | _ => exact program.elim

theorem IsProgram.write?_eq_ok {p : Stmt} (program : p.IsProgram V) : p.write? = .ok p.write := by
  obtain ⟨origin, body, rfl, plain⟩ := program.exists_body
  rw [write?, firstBlank?, firstBlankIn?_eq_none plain]

/-- Plain programs are always written, and their text shows everything about them but origins, the values behind the
literals and the remarks: what is written alike is alike. Texts between quotes show what they hold. -/
theorem write_unambiguous {p q : Stmt} (program : p.IsProgram V) (program' : q.IsProgram V) :
    (∃ text, p.write? = .ok text) ∧ (p.write? = q.write? → p.erase = q.erase) ∧ Function.Injective Text.quoted := by
  refine ⟨⟨p.write, program.write?_eq_ok⟩, ?_, ?_⟩
  · intro same
    rw [program.write?_eq_ok, program'.write?_eq_ok] at same
    obtain ⟨origin, body, rfl, plain⟩ := program.exists_body
    obtain ⟨origin', body', rfl, plain'⟩ := program'.exists_body
    have lines := map_erase_linesOf_of_write plain plain' (Except.ok.inj same)
    have skeletons : skeleton (linesOf 0 body) ++ [] = skeleton (linesOf 0 body') ++ [] := by
      rw [skeleton, skeleton, lines]
    have outside : Outside 0 [] := by
      intro l first
      cases first
    obtain ⟨bodies, -⟩ := linesOf_cancel (cancels_each plain) plain plain' outside outside skeletons
    rw [erase, erase, bodies]
  · intro s t same
    have chars : (Text.quoted s).toList ++ [] = (Text.quoted t).toList ++ [] := by rw [same]
    exact (Text.quoted_cancel chars).1

/-- A loop with a branch that does nothing, and a text that looks like code. -/
def counting (origin : Origin) (limit : Value) (orElse : Option (List Stmt)) : Stmt :=
  .program none
    [.loop (some origin) (.binary none "<" (.ident ⟨none, "n"⟩) (.literal none limit "3"))
      [.branch none (.subscript none (.ident ⟨none, "full"⟩) (.ident ⟨none, "n"⟩)) [] orElse,
        .print none [.literal none (.text "\")\nelse:") (Text.quoted "\")\nelse:")], .leave none]]

/-- The program as it is compiled. -/
def compiled : Stmt :=
  counting ⟨some "a", none⟩ (.int 3) none

/-- The program with what the text does not show put in otherwise. -/
def recovered : Stmt :=
  counting ⟨none, some (.text "a")⟩ .nothing (some [])

theorem isProgram_counting (origin : Origin) (limit : Value) (orElse : Option (List Stmt))
    (oneLine : '\n' ∉ origin.text.toList) (plain : IsPlainElse .common orElse) :
    (counting origin limit orElse).IsProgram .common := by
  have loopOrigin : Origin.IsOneLine (some origin) := by
    rintro o ⟨⟩
    exact oneLine
  have less : IsOperator "<" := ⟨.relation .lt, _, rfl, rfl⟩
  have text : Vocabulary.common.IsLiteral (Text.quoted "\")\nelse:") := .inr (.inr ⟨_, rfl⟩)
  have three : Vocabulary.common.IsLiteral "3" := .inr (.inl (by decide))
  have n : Vocabulary.common.IsIdent "n" := by decide
  have full : Vocabulary.common.IsIdent "full" := by decide
  simp only [counting, IsProgram, ArePlain, IsPlain, Expr.IsPlain, Expr.ArePlain]
  exact ⟨⟨loopOrigin, ⟨less, n, three⟩, ⟨nofun, ⟨full, n⟩, trivial, plain⟩, ⟨nofun, text, trivial⟩, trivial, trivial⟩,
    trivial⟩

theorem write_unambiguous_counting :
    compiled.IsProgram .common ∧ recovered.IsProgram .common ∧ compiled.write? = recovered.write? ∧
      compiled.erase = recovered.erase := by
  have program : compiled.IsProgram .common := by
    apply isProgram_counting
    · decide
    · simp [IsPlainElse]
  have program' : recovered.IsProgram .common := by
    apply isProgram_counting
    · decide
    · simp [IsPlainElse, ArePlain]
  have same : compiled.write? = recovered.write? := rfl
  exact ⟨program, program', same, (write_unambiguous program program').2.1 same⟩

end Stmt

end Flowchart.Code
