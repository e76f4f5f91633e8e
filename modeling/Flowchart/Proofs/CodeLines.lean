import Flowchart.Proofs.ExpressionTexts
import Mathlib.Data.List.DropRight
/-! The lines of written code. A line is its indentation and a comment or a clause, and shows which; the text of a
program is its lines one below the other, less the blanks at its end. So the text determines the lines, up to what
comments say. -/
namespace Flowchart

namespace Text

/-- Trimming the end drops nothing before a visible character. -/
theorem rdropWhile_append {c : Char} (visible : isBlank c = false) (before rest : List Char) :
    (before ++ c :: rest).rdropWhile isBlank = before ++ c :: rest.rdropWhile isBlank := by
  simp only [List.rdropWhile, List.reverse_append, List.reverse_cons, List.append_assoc]
  rw [List.dropWhile_append]
  split
  · rename_i blank
    simp [visible, List.isEmpty_iff.1 blank]
  · simp

theorem rdropWhile_of_endsVisibly {cs : List Char} (ends : endsVisibly cs = true) : cs.rdropWhile isBlank = cs := by
  rw [List.rdropWhile_eq_self_iff]
  intro nonempty
  rw [endsVisibly, List.getLast?_eq_some_getLast nonempty] at ends
  simpa using ends

theorem intercalate_append {sep : List Char} {ls ls' : List (List Char)} (some : ls ≠ []) (more : ls' ≠ []) :
    sep.intercalate (ls ++ ls') = sep.intercalate ls ++ sep ++ sep.intercalate ls' := by
  induction ls with
  | nil => exact absurd rfl some
  | cons l ls ih =>
    by_cases single : ls = []
    · rw [single, List.singleton_append, List.intercalate_cons_of_ne_nil more, List.intercalate_singleton]
    · rw [List.cons_append, List.intercalate_cons_of_ne_nil (by simp [single]), ih single,
        List.intercalate_cons_of_ne_nil single]
      simp

theorem trimChars_cons {c : Char} (visible : isBlank c = false) (rest : List Char) :
    trimChars (c :: rest) = (c :: rest).rdropWhile isBlank := by
  rw [trimChars, List.dropWhile_cons_of_neg (by simp [visible])]
  rfl

end Text

namespace Code

/-! Clauses: the lines of code. -/

/-- A line of code. -/
inductive Clause where
  | assign (target value : Expr)
  | branch (test : Expr)
  | orElse
  | loop (test : Expr)
  | print (args : List Expr)
  | leave
  | pass

namespace Clause

/-- The expression that a clause begins with: a keyword counts as a name. -/
def lead : Clause → Expr
  | assign target _ => target
  | branch _ => .ident ⟨none, "if"⟩
  | orElse => .ident ⟨none, "else"⟩
  | loop _ => .ident ⟨none, "while"⟩
  | print args => .call none ⟨none, "print"⟩ args
  | leave => .ident ⟨none, "break"⟩
  | pass => .ident ⟨none, "pass"⟩

/-- What follows the expression that a clause begins with. -/
def rest : Clause → List Char
  | assign _ value => ' ' :: '=' :: ' ' :: value.chars
  | branch test => ' ' :: (test.chars ++ [':'])
  | orElse => [':']
  | loop test => ' ' :: (test.chars ++ [':'])
  | print _ => []
  | leave => []
  | pass => []

def chars (c : Clause) : List Char :=
  c.lead.chars ++ c.rest

def IsPlain (V : Vocabulary) : Clause → Prop
  | assign target value => target.IsPlain V ∧ value.IsPlain V
  | branch test => test.IsPlain V
  | loop test => test.IsPlain V
  | print args => Expr.ArePlain V args
  | _ => True

/-- A clause without origins and without the values of its literals. -/
def erase : Clause → Clause
  | assign target value => .assign target.erase value.erase
  | branch test => .branch test.erase
  | loop test => .loop test.erase
  | print args => .print (Expr.eraseAll args)
  | orElse => .orElse
  | leave => .leave
  | pass => .pass

variable {V : Vocabulary} {c d : Clause}

theorem isPlain_keyword {word : String} (known : word ∈ keywords) : (Expr.ident ⟨none, word⟩).IsPlain V := by
  have named : ∀ word ∈ keywords, isName word = true := by decide
  rw [Expr.IsPlain]
  exact ⟨named word known, fun reserved => V.apart word reserved known⟩

theorem isPlain_lead (plain : c.IsPlain V) : c.lead.IsPlain V := by
  cases c with
  | assign target value => exact plain.1
  | print args =>
    have keyword : (Expr.ident ⟨none, "print"⟩).IsPlain V := isPlain_keyword (by decide)
    rw [Expr.IsPlain] at keyword
    rw [lead, Expr.IsPlain]
    exact ⟨keyword, plain⟩
  | _ => exact isPlain_keyword (by decide)

theorem endsAt_rest (c : Clause) : Expr.EndsAt Expr.marks c.rest := by
  cases c with
  | assign | branch | orElse | loop => exact Expr.endsAt_cons (by decide)
  | print | leave | pass => nofun

/-- No test begins as the rest of an assignment does. -/
theorem rest_assign_ne_test {value test : Expr} (plain : test.IsPlain V) :
    ' ' :: '=' :: ' ' :: value.chars ≠ ' ' :: (test.chars ++ [':']) := by
  intro same
  exact Expr.chars_append_ne_cons plain (by decide) _ _ (List.cons.inj same).2.symm

theorem rest_assign_ne {target value : Expr} (plain : c.IsPlain V) (other : ∀ target value, c ≠ .assign target value) :
    (assign target value).rest ≠ c.rest := by
  cases c with
  | assign target' value' => exact absurd rfl (other target' value')
  | branch test => exact rest_assign_ne_test plain
  | loop test => exact rest_assign_ne_test plain
  | orElse | print | leave | pass => nofun

theorem test_erase_eq {test test' : Expr} (plain : test.IsPlain V) (plain' : test'.IsPlain V)
    (rests : ' ' :: (test.chars ++ [':']) = ' ' :: (test'.chars ++ [':'])) : test.erase = test'.erase := by
  have ends : Expr.EndsAt Expr.marks [':'] := Expr.endsAt_cons (by decide)
  exact (Expr.cancels plain test' _ _ plain' ends ends (List.cons.inj rests).2).1

/-- Equal clauses say the same: what follows the first expression shows whether they are assignments, and keywords
tell the other clauses apart. -/
theorem erase_eq_of_chars (plain : c.IsPlain V) (plain' : d.IsPlain V) (same : c.chars = d.chars) :
    c.erase = d.erase := by
  obtain ⟨leads, rests⟩ := Expr.cancels (isPlain_lead plain) d.lead c.rest d.rest (isPlain_lead plain')
    (endsAt_rest c) (endsAt_rest d) same
  cases c with
  | assign target value =>
    cases d with
    | assign target' value' =>
      have values : value.chars ++ [] = value'.chars ++ [] := by
        simpa [rest] using rests
      obtain ⟨values, -⟩ := Expr.cancels plain.2 value' [] [] plain'.2 nofun nofun values
      rw [erase, erase, values]
      exact congrArg (Clause.assign · _) leads
    | _ => exact absurd rests (rest_assign_ne plain' nofun)
  | branch test =>
    cases d with
    | assign => exact absurd rests.symm (rest_assign_ne plain nofun)
    | branch test' => rw [erase, erase, test_erase_eq plain plain' rests]
    | _ => simp [lead, Expr.erase] at leads
  | loop test =>
    cases d with
    | assign => exact absurd rests.symm (rest_assign_ne plain nofun)
    | loop test' => rw [erase, erase, test_erase_eq plain plain' rests]
    | _ => simp [lead, Expr.erase] at leads
  | print args =>
    cases d with
    | assign => exact absurd rests.symm (rest_assign_ne plain nofun)
    | print args' =>
      simp only [lead, Expr.erase, Expr.call.injEq, true_and] at leads
      rw [erase, erase, leads]
    | _ => simp [lead, Expr.erase] at leads
  | orElse =>
    cases d with
    | assign => exact absurd rests.symm (rest_assign_ne plain nofun)
    | orElse => rfl
    | _ => simp [lead, Expr.erase] at leads
  | leave =>
    cases d with
    | assign => exact absurd rests.symm (rest_assign_ne plain nofun)
    | leave => rfl
    | _ => simp [lead, Expr.erase] at leads
  | pass =>
    cases d with
    | assign => exact absurd rests.symm (rest_assign_ne plain nofun)
    | pass => rfl
    | _ => simp [lead, Expr.erase] at leads

theorem begins (plain : c.IsPlain V) : ∃ first tail, c.chars = first :: tail ∧ isOpening first = true := by
  obtain ⟨first, tail, chars, opening⟩ := Expr.begins (isPlain_lead plain)
  exact ⟨first, tail ++ c.rest, by rw [Clause.chars, chars, List.cons_append], opening⟩

theorem endsVisibly_chars (plain : c.IsPlain V) : Text.endsVisibly c.chars = true := by
  have test {test : Expr} {before : List Char} : Text.endsVisibly (before ++ ' ' :: (test.chars ++ [':'])) = true := by
    rw [← List.cons_append, ← List.append_assoc, Text.endsVisibly_append]
    rfl
  cases c with
  | assign target value =>
    have ends := Expr.endsVisibly_chars plain.2
    obtain ⟨first, tail, chars, -⟩ := Expr.begins plain.2
    rw [chars] at ends
    have split : (assign target value).chars = target.chars ++ [' ', '=', ' '] ++ first :: tail := by
      simp [Clause.chars, lead, rest, chars]
    rw [split, Text.endsVisibly_append, ends]
  | branch | loop => exact test
  | orElse =>
    rw [chars, rest, Text.endsVisibly_append]
    rfl
  | print | leave | pass =>
    rw [chars, rest, List.append_nil]
    exact Expr.endsVisibly_chars (isPlain_lead plain)

theorem not_mem_chars (plain : c.IsPlain V) : '\n' ∉ c.chars := by
  rw [chars, List.mem_append, not_or]
  refine ⟨Expr.not_mem_chars (isPlain_lead plain), ?_⟩
  cases c with
  | assign target value => simp [rest, Expr.not_mem_chars plain.2]
  | branch test | loop test => simp [rest, Expr.not_mem_chars (show test.IsPlain V from plain)]
  | orElse | print | leave | pass => simp [rest]

end Clause

/-! Lines. -/

/-- What a line holds behind its indentation: a comment on where code came from, a marker for what has no code, or a
clause. -/
inductive Row where
  | comment (about : String)
  | marker (about : String)
  | code (c : Clause)

namespace Row

def chars : Row → List Char
  | comment about => '#' :: ' ' :: 'B' :: ("lock ID: ".toList ++ about.toList)
  | marker about => '#' :: ' ' :: 'U' :: ("nsupported Block ID: ".toList ++ about.toList)
  | code c => c.chars

def IsPlain (V : Vocabulary) : Row → Prop
  | comment about => '\n' ∉ about.toList
  | marker about => '\n' ∉ about.toList
  | code c => c.IsPlain V

/-- A row without what comments and markers say. -/
def erase : Row → Row
  | comment _ => .comment ""
  | marker _ => .marker ""
  | code c => .code c.erase

variable {V : Vocabulary} {row row' : Row}

theorem begins (plain : row.IsPlain V) : ∃ first tail, row.chars = first :: tail ∧ Text.isBlank first = false := by
  cases row with
  | comment about => exact ⟨'#', _, rfl, by decide⟩
  | marker about => exact ⟨'#', _, rfl, by decide⟩
  | code c =>
    obtain ⟨first, tail, chars, opening⟩ := Clause.begins plain
    exact ⟨first, tail, chars, isBlank_eq_false_of_isOpening opening⟩

theorem not_mem_chars (plain : row.IsPlain V) : '\n' ∉ row.chars := by
  cases row with
  | comment about =>
    rw [IsPlain] at plain
    simp [chars, plain]
  | marker about =>
    rw [IsPlain] at plain
    simp [chars, plain]
  | code c => exact Clause.not_mem_chars plain

theorem code_ne_hash {c : Clause} (plain : c.IsPlain V) (tail : List Char) : c.chars ≠ '#' :: tail :=
  Expr.chars_append_ne_cons (Clause.isPlain_lead plain) (by decide) _ _

/-- Rows that show the same say the same: comments and markers differ in their third character. -/
theorem erase_eq_of_rdropWhile (plain : row.IsPlain V) (plain' : row'.IsPlain V)
    (same : row.chars.rdropWhile Text.isBlank = row'.chars.rdropWhile Text.isBlank) : row.erase = row'.erase := by
  have comment (about : String) : ∃ tail, (comment about).chars.rdropWhile Text.isBlank = '#' :: ' ' :: 'B' :: tail :=
    ⟨_, Text.rdropWhile_append (by decide) ['#', ' '] _⟩
  have marker (about : String) : ∃ tail, (marker about).chars.rdropWhile Text.isBlank = '#' :: ' ' :: 'U' :: tail :=
    ⟨_, Text.rdropWhile_append (by decide) ['#', ' '] _⟩
  have code {c : Clause} (plain : c.IsPlain V) : (code c).chars.rdropWhile Text.isBlank = c.chars :=
    Text.rdropWhile_of_endsVisibly (Clause.endsVisibly_chars plain)
  cases row with
  | comment about =>
    obtain ⟨tail, shown⟩ := comment about
    cases row' with
    | comment => rfl
    | marker about' =>
      obtain ⟨tail', shown'⟩ := marker about'
      rw [shown, shown'] at same
      simp at same
    | code c =>
      rw [shown, code plain'] at same
      exact absurd same.symm (code_ne_hash plain' _)
  | marker about =>
    obtain ⟨tail, shown⟩ := marker about
    cases row' with
    | comment about' =>
      obtain ⟨tail', shown'⟩ := comment about'
      rw [shown, shown'] at same
      simp at same
    | marker => rfl
    | code c =>
      rw [shown, code plain'] at same
      exact absurd same.symm (code_ne_hash plain' _)
  | code c =>
    rw [code plain] at same
    cases row' with
    | comment about' =>
      obtain ⟨tail', shown'⟩ := comment about'
      rw [shown'] at same
      exact absurd same (code_ne_hash plain _)
    | marker about' =>
      obtain ⟨tail', shown'⟩ := marker about'
      rw [shown'] at same
      exact absurd same (code_ne_hash plain _)
    | code c' =>
      rw [code plain'] at same
      rw [erase, erase, Clause.erase_eq_of_chars plain plain' same]

end Row

/-- A line of the text: a row at a nesting level. -/
structure Line where
  level : Nat
  row : Row

namespace Line

def chars (l : Line) : List Char :=
  List.replicate (2 * l.level) ' ' ++ l.row.chars

def erase (l : Line) : Line :=
  ⟨l.level, l.row.erase⟩

variable {V : Vocabulary} {l l' : Line}

theorem not_mem_chars (plain : l.row.IsPlain V) : '\n' ∉ l.chars := by
  simp [chars, Row.not_mem_chars plain]

theorem rdropWhile_chars (plain : l.row.IsPlain V) :
    l.chars.rdropWhile Text.isBlank = List.replicate (2 * l.level) ' ' ++ l.row.chars.rdropWhile Text.isBlank := by
  obtain ⟨first, tail, chars, visible⟩ := Row.begins plain
  rw [Line.chars, chars, Text.rdropWhile_append visible]
  exact congrArg _ (Text.rdropWhile_append visible [] tail).symm

/-- A line shows its level and its row, also without the blanks at its end. -/
theorem erase_eq_of_rdropWhile (plain : l.row.IsPlain V) (plain' : l'.row.IsPlain V)
    (same : l.chars.rdropWhile Text.isBlank = l'.chars.rdropWhile Text.isBlank) : l.erase = l'.erase := by
  have stops {row : Row} (plain : row.IsPlain V) :
      ∀ c, (row.chars.rdropWhile Text.isBlank).head? = some c → (c == ' ') = false := by
    obtain ⟨first, tail, chars, visible⟩ := Row.begins plain
    intro c begun
    rw [chars, show first :: tail = [] ++ first :: tail from rfl, Text.rdropWhile_append visible] at begun
    cases begun
    rw [beq_eq_false_iff_ne]
    rintro rfl
    cases visible
  have spaces {n : Nat} : ∀ c ∈ List.replicate n ' ', (c == ' ') = true := by
    intro c member
    rw [(List.mem_replicate.1 member).2]
    rfl
  rw [rdropWhile_chars plain, rdropWhile_chars plain'] at same
  obtain ⟨indents, rows⟩ := append_cancel_of_stops spaces spaces (stops plain) (stops plain') same
  have levels := congrArg List.length indents
  rw [List.length_replicate, List.length_replicate] at levels
  have level : l.level = l'.level := by omega
  rw [erase, erase, level, Row.erase_eq_of_rdropWhile plain plain' rows]

/-- Lines one below the other. -/
def join (ls : List Line) : List Char :=
  ['\n'].intercalate (ls.map chars)

theorem join_append {ls ls' : List Line} (some : ls ≠ []) (more : ls' ≠ []) :
    join (ls ++ ls') = join ls ++ '\n' :: join ls' := by
  rw [join, List.map_append, Text.intercalate_append (by simpa using some) (by simpa using more)]
  simp [join]

theorem join_cons {ls : List Line} (more : ls ≠ []) (l : Line) : join (l :: ls) = l.chars ++ '\n' :: join ls := by
  rw [join, List.map_cons, List.intercalate_cons_of_ne_nil (by simpa using more)]
  simp [join]

theorem exists_visible (plain : l.row.IsPlain V) :
    ∃ before c rest, l.chars = before ++ c :: rest ∧ Text.isBlank c = false := by
  obtain ⟨first, tail, chars, visible⟩ := Row.begins plain
  exact ⟨List.replicate (2 * l.level) ' ', first, tail, by rw [Line.chars, chars], visible⟩

theorem exists_visible_join {ls : List Line} (plain : ∀ l ∈ ls, l.row.IsPlain V) (some : ls ≠ []) :
    ∃ c ∈ join ls, Text.isBlank c = false := by
  obtain ⟨l, ls, rfl⟩ := List.exists_cons_of_ne_nil some
  obtain ⟨before, c, rest, chars, visible⟩ := exists_visible (plain l List.mem_cons_self)
  refine ⟨c, ?_, visible⟩
  by_cases single : ls = []
  · simp [single, join, chars]
  · simp [join_cons single, chars]

/-- The blanks at the end of a text are those at the end of its last line. -/
theorem rdropWhile_join {ls : List Line} (plain : l.row.IsPlain V) :
    (join (ls ++ [l])).rdropWhile Text.isBlank =
      ['\n'].intercalate (ls.map chars ++ [l.chars.rdropWhile Text.isBlank]) := by
  obtain ⟨before, c, rest, chars, visible⟩ := exists_visible plain
  by_cases single : ls = []
  · simp [single, join]
  · rw [join, List.map_append, Text.intercalate_append (by simpa using single) (by simp),
      Text.intercalate_append (by simpa using single) (by simp)]
    simp only [List.map_cons, List.map_nil, List.intercalate_singleton, chars]
    rw [← List.append_assoc, Text.rdropWhile_append visible, Text.rdropWhile_append visible, List.append_assoc]

/-- The lines can be read off the text, less the blanks at their ends. -/
theorem map_splitOn_join {ls : List Line} (plain : ∀ l ∈ ls, l.row.IsPlain V) (some : ls ≠ []) :
    (((join ls).rdropWhile Text.isBlank).splitOn '\n').map (List.rdropWhile Text.isBlank) =
      ls.map fun l => l.chars.rdropWhile Text.isBlank := by
  rcases List.eq_nil_or_concat ls with rfl | ⟨before, last, rfl⟩
  · exact absurd rfl some
  rw [List.concat_eq_append] at plain ⊢
  have plainLast := plain last (by simp)
  rw [rdropWhile_join plainLast, List.splitOn_intercalate '\n' ?_ (by simp)]
  · simp [Function.comp_def, List.rdropWhile_idempotent]
  · intro chars member
    rcases List.mem_append.1 member with early | late
    · obtain ⟨l, held, rfl⟩ := List.mem_map.1 early
      exact not_mem_chars (plain l (by simp [held]))
    · rw [List.mem_singleton.1 late]
      intro feed
      exact not_mem_chars plainLast ((List.rdropWhile_prefix _ _).subset feed)

theorem map_erase_eq_of_shown {ls ls' : List Line} (plain : ∀ l ∈ ls, l.row.IsPlain V)
    (plain' : ∀ l ∈ ls', l.row.IsPlain V)
    (same : (ls.map fun l => l.chars.rdropWhile Text.isBlank) = ls'.map fun l => l.chars.rdropWhile Text.isBlank) :
    ls.map erase = ls'.map erase := by
  induction ls generalizing ls' with
  | nil => rw [List.map_eq_nil_iff.1 same.symm]
  | cons l ls ih =>
    cases ls' with
    | nil => cases same
    | cons l' ls' =>
      simp only [List.map_cons, List.cons.injEq] at same
      obtain ⟨first, later⟩ := List.forall_mem_cons.1 plain
      obtain ⟨first', later'⟩ := List.forall_mem_cons.1 plain'
      rw [List.map_cons, List.map_cons, erase_eq_of_rdropWhile first first' same.1, ih later later' same.2]

/-- A text determines its lines, up to what comments say. -/
theorem map_erase_eq_of_join {ls ls' : List Line} (plain : ∀ l ∈ ls, l.row.IsPlain V)
    (plain' : ∀ l ∈ ls', l.row.IsPlain V)
    (same : (join ls).rdropWhile Text.isBlank = (join ls').rdropWhile Text.isBlank) : ls.map erase = ls'.map erase := by
  have blank {ls : List Line} (plain : ∀ l ∈ ls, l.row.IsPlain V)
      (none : (join ls).rdropWhile Text.isBlank = []) : ls = [] := by
    by_contra some
    obtain ⟨c, member, visible⟩ := exists_visible_join plain some
    rw [List.rdropWhile_eq_nil_iff.1 none c member] at visible
    cases visible
  by_cases empty : ls = []
  · rw [empty] at same
    rw [empty, blank plain' same.symm]
  · by_cases empty' : ls' = []
    · rw [empty'] at same
      exact absurd (blank plain same) empty
    · apply map_erase_eq_of_shown plain plain'
      rw [← map_splitOn_join plain empty, ← map_splitOn_join plain' empty', same]

/-- Nothing is trimmed before a first line that is not indented. -/
theorem trimChars_join {ls : List Line} (plain : ∀ l ∈ ls, l.row.IsPlain V)
    (outer : ∀ l, ls.head? = some l → l.level = 0) :
    Text.trimChars (join ls) = (join ls).rdropWhile Text.isBlank := by
  cases ls with
  | nil => rfl
  | cons l ls =>
    obtain ⟨first, tail, chars, visible⟩ := Row.begins (plain l List.mem_cons_self)
    have begun : ∃ rest, join (l :: ls) = first :: rest := by
      by_cases single : ls = []
      · exact ⟨tail, by simp [single, join, Line.chars, outer l rfl, chars]⟩
      · exact ⟨tail ++ '\n' :: join ls, by simp [join_cons single, Line.chars, outer l rfl, chars]⟩
    obtain ⟨rest, begun⟩ := begun
    rw [begun, Text.trimChars_cons visible]

end Line

/-! Statements as lines. -/

/-- An origin that is named on one line. -/
def Origin.IsOneLine (origin : Option Origin) : Prop :=
  ∀ o, origin = some o → '\n' ∉ o.text.toList

mutual
/-- A statement of plain expressions, in which what comments say stands on one line. -/
def Stmt.IsPlain (V : Vocabulary) : Stmt → Prop
  | .assign origin target value => Origin.IsOneLine origin ∧ target.IsPlain V ∧ value.IsPlain V
  | .branch origin test body orElse =>
    Origin.IsOneLine origin ∧ test.IsPlain V ∧ Stmt.ArePlain V body ∧ Stmt.IsPlainElse V orElse
  | .loop origin test body => Origin.IsOneLine origin ∧ test.IsPlain V ∧ Stmt.ArePlain V body
  | .print origin args => Origin.IsOneLine origin ∧ Expr.ArePlain V args
  | .leave _ => True
  | .unsupported origin reason => Origin.IsOneLine origin ∧ '\n' ∉ reason.toList
  | .program .. => False
  | .expr _ => False
/-- The same of several statements. -/
def Stmt.ArePlain (V : Vocabulary) : List Stmt → Prop
  | [] => True
  | s :: rest => s.IsPlain V ∧ Stmt.ArePlain V rest
/-- The same of an else part. -/
def Stmt.IsPlainElse (V : Vocabulary) : Option (List Stmt) → Prop
  | none => True
  | some body => Stmt.ArePlain V body
end

/-- The comment line before a statement. -/
def Origin.lines (level : Nat) : Option Origin → List Line
  | none => []
  | some o => [⟨level, .comment o.text⟩]

mutual
/-- The lines of a statement at a nesting level. -/
def Stmt.lines (level : Nat) : Stmt → List Line
  | .program _ body => Stmt.linesOf level body
  | .assign origin target value => Origin.lines level origin ++ [⟨level, .code (.assign target value)⟩]
  | .branch origin test body orElse =>
    Origin.lines level origin ++ ⟨level, .code (.branch test)⟩ ::
      (Stmt.blockLines (level + 1) body ++ Stmt.elseLines level orElse)
  | .loop origin test body =>
    Origin.lines level origin ++ ⟨level, .code (.loop test)⟩ :: Stmt.blockLines (level + 1) body
  | .print origin args => Origin.lines level origin ++ [⟨level, .code (.print args)⟩]
  | .leave _ => [⟨level, .code .leave⟩]
  | .unsupported origin reason =>
    [⟨level, .marker ((origin.map Origin.text).getD "N/A" ++ " - " ++ reason)⟩]
  | .expr _ => []
/-- The lines of several statements. -/
def Stmt.linesOf (level : Nat) : List Stmt → List Line
  | [] => []
  | s :: rest => Stmt.lines level s ++ Stmt.linesOf level rest
/-- The lines of a block. -/
def Stmt.blockLines (level : Nat) : List Stmt → List Line
  | [] => [⟨level, .code .pass⟩]
  | s :: rest => Stmt.lines level s ++ Stmt.linesOf level rest
/-- The lines of an else part. -/
def Stmt.elseLines (level : Nat) : Option (List Stmt) → List Line
  | none => []
  | some [] => []
  | some (s :: rest) => ⟨level, .code .orElse⟩ :: (Stmt.lines (level + 1) s ++ Stmt.linesOf (level + 1) rest)
end

namespace Stmt

variable {V : Vocabulary}

theorem lines_begins {s : Stmt} (plain : s.IsPlain V) (level : Nat) :
    ∃ l rest, s.lines level = l :: rest ∧ l.level = level := by
  have headed (origin : Option Origin) (row : Row) (more : List Line) :
      ∃ l rest, Origin.lines level origin ++ ⟨level, row⟩ :: more = l :: rest ∧ l.level = level := by
    cases origin with
    | none => exact ⟨_, _, rfl, rfl⟩
    | some o => exact ⟨_, _, rfl, rfl⟩
  cases s with
  | program | expr => exact plain.elim
  | assign origin | branch origin | loop origin | print origin => exact headed origin _ _
  | leave | unsupported => exact ⟨_, _, rfl, rfl⟩

theorem lines_ne_nil {s : Stmt} (plain : s.IsPlain V) (level : Nat) : s.lines level ≠ [] := by
  obtain ⟨l, rest, lines, -⟩ := lines_begins plain level
  simp [lines]

theorem blockLines_cons (level : Nat) (s : Stmt) (rest : List Stmt) :
    blockLines level (s :: rest) = linesOf level (s :: rest) := by
  rw [blockLines, linesOf]

theorem elseLines_cons (level : Nat) (s : Stmt) (rest : List Stmt) :
    elseLines level (some (s :: rest)) = ⟨level, .code .orElse⟩ :: linesOf (level + 1) (s :: rest) := by
  rw [elseLines, linesOf]

theorem blockLines_ne_nil {body : List Stmt} (plain : ArePlain V body) (level : Nat) : blockLines level body ≠ [] := by
  cases body with
  | nil => simp [blockLines]
  | cons s rest => simp [blockLines, lines_ne_nil plain.1]

theorem linesOf_cons_ne_nil {s : Stmt} {rest : List Stmt} (plain : ArePlain V (s :: rest)) (level : Nat) :
    linesOf level (s :: rest) ≠ [] := by
  simp [linesOf, lines_ne_nil plain.1]

/-! The rows are plain where the statements are. -/

theorem isPlain_originLines {origin : Option Origin} (oneLine : Origin.IsOneLine origin) (level : Nat) :
    ∀ l ∈ Origin.lines level origin, l.row.IsPlain V := by
  cases origin with
  | none => nofun
  | some o =>
    intro l member
    rw [List.mem_singleton.1 member]
    exact oneLine o rfl

theorem isPlain_marker {origin : Option Origin} {reason : String} (oneLine : Origin.IsOneLine origin)
    (plain : '\n' ∉ reason.toList) :
    (Row.marker ((origin.map Origin.text).getD "N/A" ++ " - " ++ reason)).IsPlain V := by
  have named : '\n' ∉ ((origin.map Origin.text).getD "N/A").toList := by
    cases origin with
    | none => decide
    | some o => exact oneLine o rfl
  simp [Row.IsPlain, named, plain]

mutual
theorem isPlain_lines {s : Stmt} (plain : s.IsPlain V) (level : Nat) : ∀ l ∈ s.lines level, l.row.IsPlain V := by
  cases s with
  | program => exact plain.elim
  | expr => exact plain.elim
  | assign origin target value =>
    rw [IsPlain] at plain
    rw [lines, List.forall_mem_append, List.forall_mem_singleton]
    exact ⟨isPlain_originLines plain.1 level, plain.2⟩
  | branch origin test body orElse =>
    rw [IsPlain] at plain
    rw [lines, List.forall_mem_append, List.forall_mem_cons, List.forall_mem_append]
    exact ⟨isPlain_originLines plain.1 level, plain.2.1, isPlain_blockLines plain.2.2.1 (level + 1),
      isPlain_elseLines plain.2.2.2 level⟩
  | loop origin test body =>
    rw [IsPlain] at plain
    rw [lines, List.forall_mem_append, List.forall_mem_cons]
    exact ⟨isPlain_originLines plain.1 level, plain.2.1, isPlain_blockLines plain.2.2 (level + 1)⟩
  | print origin args =>
    rw [IsPlain] at plain
    rw [lines, List.forall_mem_append, List.forall_mem_singleton]
    exact ⟨isPlain_originLines plain.1 level, plain.2⟩
  | leave => simp [lines, Row.IsPlain, Clause.IsPlain]
  | unsupported origin reason =>
    rw [IsPlain] at plain
    rw [lines, List.forall_mem_singleton]
    exact isPlain_marker plain.1 plain.2

theorem isPlain_linesOf {body : List Stmt} (plain : ArePlain V body) (level : Nat) :
    ∀ l ∈ linesOf level body, l.row.IsPlain V := by
  cases body with
  | nil => nofun
  | cons s rest =>
    rw [ArePlain] at plain
    rw [linesOf, List.forall_mem_append]
    exact ⟨isPlain_lines plain.1 level, isPlain_linesOf plain.2 level⟩

theorem isPlain_blockLines {body : List Stmt} (plain : ArePlain V body) (level : Nat) :
    ∀ l ∈ blockLines level body, l.row.IsPlain V := by
  cases body with
  | nil => simp [blockLines, Row.IsPlain, Clause.IsPlain]
  | cons s rest =>
    rw [ArePlain] at plain
    rw [blockLines, List.forall_mem_append]
    exact ⟨isPlain_lines plain.1 level, isPlain_linesOf plain.2 level⟩

theorem isPlain_elseLines {orElse : Option (List Stmt)} (plain : IsPlainElse V orElse) (level : Nat) :
    ∀ l ∈ elseLines level orElse, l.row.IsPlain V := by
  cases orElse with
  | none => nofun
  | some body =>
    cases body with
    | nil => nofun
    | cons s rest =>
      rw [IsPlainElse, ArePlain] at plain
      rw [elseLines, List.forall_mem_cons, List.forall_mem_append]
      exact ⟨trivial, isPlain_lines plain.1 (level + 1), isPlain_linesOf plain.2 (level + 1)⟩
end

/-! The text of a statement is its lines. -/

theorem toList_indent (level : Nat) : (indent level).toList = List.replicate (2 * level) ' ' := by
  rw [indent, String.toList_ofList]

theorem toList_header_append {ls : List Line} (some : ls ≠ []) (origin : Option Origin) (level : Nat) :
    (header origin level).toList ++ Line.join ls = Line.join (Origin.lines level origin ++ ls) := by
  cases origin with
  | none => rfl
  | some o =>
    rw [Origin.lines, List.singleton_append, Line.join_cons some]
    simp [header, toList_indent, Line.chars, Row.chars]

theorem join_singleton_code (level : Nat) (c : Clause) :
    Line.join [⟨level, .code c⟩] = (indent level).toList ++ c.chars := by
  simp [Line.join, Line.chars, Row.chars, toList_indent]

theorem isBlankText_text {s : Stmt} {level : Nat} (plain : s.IsPlain V)
    (text_eq : (s.text level).toList = Line.join (s.lines level)) : Text.isBlankText (s.text level) = false := by
  obtain ⟨c, member, visible⟩ := Line.exists_visible_join (isPlain_lines plain level) (lines_ne_nil plain level)
  rw [Text.isBlankText, text_eq, List.all_eq_false]
  exact ⟨c, member, by simp [visible]⟩

/-- No statement is blank, so none is left out. -/
theorem toList_stack {body : List Stmt} {level : Nat} (plain : ArePlain V body)
    (each : ∀ s ∈ body, (text level s).toList = Line.join (lines level s)) :
    (stack (texts level body)).toList = Line.join (linesOf level body) := by
  induction body with
  | nil => rfl
  | cons s rest ih =>
    obtain ⟨first, later⟩ := List.forall_mem_cons.1 each
    rw [ArePlain] at plain
    have visible := isBlankText_text plain.1 first
    cases rest with
    | nil => simp [stack, texts, linesOf, visible, first]
    | cons next rest =>
      have more := ih plain.2 later
      have nextVisible := isBlankText_text plain.2.1 (later next List.mem_cons_self)
      rw [linesOf, Line.join_append (lines_ne_nil plain.1 level) (linesOf_cons_ne_nil plain.2 level), ← first, ← more]
      simp [stack, texts, visible, nextVisible, String.toList_intercalate]

theorem toList_blockText {body : List Stmt} {level : Nat} (plain : ArePlain V body)
    (each : ∀ s ∈ body, (text level s).toList = Line.join (lines level s)) :
    (blockText level body).toList = Line.join (blockLines level body) := by
  cases body with
  | nil =>
    rw [blockLines, join_singleton_code]
    simp [blockText, Clause.chars, Clause.lead, Clause.rest, Expr.chars, Expr.text]
  | cons s rest =>
    rw [blockText, blockLines_cons, ← toList_stack plain each, texts]

theorem join_append_elseLines {orElse : Option (List Stmt)} {level : Nat} {ls : List Line} (some : ls ≠ [])
    (plain : IsPlainElse V orElse)
    (each : ∀ body ∈ orElse, ∀ s ∈ body, (text (level + 1) s).toList = Line.join (lines (level + 1) s)) :
    Line.join (ls ++ elseLines level orElse) = Line.join ls ++ (elseText level orElse).toList := by
  cases orElse with
  | none => simp [elseLines, elseText]
  | some body =>
    cases body with
    | nil => simp [elseLines, elseText]
    | cons s rest =>
      rw [IsPlainElse] at plain
      rw [elseLines_cons, Line.join_append some (by simp), Line.join_cons (linesOf_cons_ne_nil plain (level + 1)),
        ← toList_stack plain (each _ rfl)]
      simp [elseText, texts, toList_indent, Line.chars, Row.chars, Clause.chars, Clause.lead, Clause.rest, Expr.chars,
        Expr.text]
mutual
theorem toList_text {s : Stmt} (plain : s.IsPlain V) (level : Nat) :
    (s.text level).toList = Line.join (s.lines level) := by
  cases s with
  | program => exact plain.elim
  | expr => exact plain.elim
  | assign origin target value =>
    rw [lines, ← toList_header_append (by simp), join_singleton_code]
    simp [text, Clause.chars, Clause.lead, Clause.rest, Expr.chars]
  | branch origin test body orElse =>
    rw [IsPlain] at plain
    have blocks := blockLines_ne_nil plain.2.2.1 (level + 1)
    rw [lines, ← toList_header_append (by simp), Line.join_cons (by simp [blocks]),
      join_append_elseLines blocks plain.2.2.2 (toList_eachElse plain.2.2.2 (level + 1)),
      ← toList_blockText plain.2.2.1 (toList_each plain.2.2.1 (level + 1))]
    simp [text, toList_indent, Line.chars, Row.chars, Clause.chars, Clause.lead, Clause.rest, Expr.chars, Expr.text]
  | loop origin test body =>
    rw [IsPlain] at plain
    rw [lines, ← toList_header_append (by simp), Line.join_cons (blockLines_ne_nil plain.2.2 (level + 1)),
      ← toList_blockText plain.2.2 (toList_each plain.2.2 (level + 1))]
    simp [text, toList_indent, Line.chars, Row.chars, Clause.chars, Clause.lead, Clause.rest, Expr.chars, Expr.text]
  | print origin args =>
    rw [lines, ← toList_header_append (by simp), join_singleton_code]
    simp [text, Clause.chars, Clause.lead, Clause.rest, Expr.chars, Expr.text]
  | leave origin =>
    rw [lines, join_singleton_code]
    simp [text, Clause.chars, Clause.lead, Clause.rest, Expr.chars, Expr.text]
  | unsupported origin reason => simp [text, lines, Line.join, toList_indent, Line.chars, Row.chars]

theorem toList_each {body : List Stmt} (plain : ArePlain V body) (level : Nat) :
    ∀ s ∈ body, (text level s).toList = Line.join (lines level s) := by
  cases body with
  | nil => nofun
  | cons s rest =>
    rw [ArePlain] at plain
    exact List.forall_mem_cons.2 ⟨toList_text plain.1 level, toList_each plain.2 level⟩

theorem toList_eachElse {orElse : Option (List Stmt)} (plain : IsPlainElse V orElse) (level : Nat) :
    ∀ body ∈ orElse, ∀ s ∈ body, (text level s).toList = Line.join (lines level s) := by
  cases orElse with
  | none => nofun
  | some body =>
    rw [IsPlainElse] at plain
    rintro _ ⟨⟩
    exact toList_each plain level
end

/-- The text of a program determines its lines, up to what comments say. -/
theorem map_erase_linesOf_of_write {origin origin' : Option Origin} {body body' : List Stmt} (plain : ArePlain V body)
    (plain' : ArePlain V body') (same : (program origin body).write = (program origin' body').write) :
    (linesOf 0 body).map Line.erase = (linesOf 0 body').map Line.erase := by
  have trimmed {origin : Option Origin} {body : List Stmt} (plain : ArePlain V body) :
      (program origin body).write.toList = (Line.join (linesOf 0 body)).rdropWhile Text.isBlank := by
    rw [write, Text.trim, String.toList_ofList, text, toList_stack plain (toList_each plain 0)]
    refine Line.trimChars_join (isPlain_linesOf plain 0) ?_
    cases body with
    | nil => nofun
    | cons s rest =>
      obtain ⟨first, later, lines, outer⟩ := lines_begins plain.1 0
      rw [linesOf, lines]
      rintro l ⟨⟩
      exact outer
  apply Line.map_erase_eq_of_join (isPlain_linesOf plain 0) (isPlain_linesOf plain' 0)
  rw [← trimmed plain, ← trimmed plain', same]

end Stmt

end Code

end Flowchart
