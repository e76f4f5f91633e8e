import Flowchart.Proofs.CodeLines
/-! Origins show in remarks only. A remark is a line whose first visible character is `#`. As long as origins are named
on one line, two programs that differ only in where their nodes came from have the same lines besides the remarks: a
statement puts at most a whole remark in front of its lines, or is a remark itself. -/
namespace Flowchart

namespace Text

/-- Whether the first visible character of a line is a `#`. -/
def isRemark (line : List Char) : Bool :=
  (line.dropWhile isBlank).head? == some '#'

/-- The lines of a text, as line feeds part them, without the remarks. -/
def codeLines (cs : List Char) : List (List Char) :=
  (cs.splitOn '\n').filter fun line => !isRemark line

variable {u u' v w x y z : List Char}

theorem codeLines_append_feed (before after : List Char) :
    codeLines (before ++ '\n' :: after) = codeLines before ++ codeLines after := by
  rw [codeLines, List.splitOn_append_cons_self, List.filter_append]
  rfl

theorem splitOn_append (oneLine : '\n' ∉ u) (rest : List Char) :
    (u ++ rest).splitOn '\n' = (rest.splitOn '\n').modifyHead (u ++ ·) := by
  induction u with
  | nil => exact (congrFun List.modifyHead_id _).symm
  | cons c u ih =>
    obtain ⟨other, later⟩ := List.ne_and_not_mem_of_not_mem_cons oneLine
    rw [List.cons_append, List.splitOn_cons_eq_if_modifyHead, if_neg (by simpa using Ne.symm other), ih later,
      List.modifyHead_modifyHead]
    rfl

theorem isRemark_append (remark : isRemark u = true) (rest : List Char) : isRemark (u ++ rest) = true := by
  rw [isRemark, List.dropWhile_append]
  cases left : u.dropWhile isBlank with
  | nil => simp [isRemark, left] at remark
  | cons c more => simpa [isRemark, left] using remark

/-- A remark takes the rest of its line with it. -/
theorem codeLines_append_of_isRemark (oneLine : '\n' ∉ u) (remark : isRemark u = true) (rest : List Char) :
    codeLines (u ++ rest) = (rest.splitOn '\n').tail.filter fun line => !isRemark line := by
  obtain ⟨line, lines, split⟩ := List.exists_cons_of_ne_nil (List.splitOn_ne_nil '\n' rest)
  rw [codeLines, splitOn_append oneLine, split]
  simp [isRemark_append remark]

/-- Two starts of texts leave the same lines besides the remarks, whatever follows. -/
def Swap (u u' : List Char) : Prop :=
  ∀ rest, codeLines (u ++ rest) = codeLines (u' ++ rest)

namespace Swap

theorem symm (swap : Swap u u') : Swap u' u :=
  fun rest => (swap rest).symm

theorem trans (swap : Swap u v) (swap' : Swap v w) : Swap u w :=
  fun rest => (swap rest).trans (swap' rest)

theorem append (swap : Swap u u') (v : List Char) : Swap (u ++ v) (u' ++ v) := by
  intro rest
  rw [List.append_assoc, List.append_assoc]
  exact swap (v ++ rest)

theorem of_remarks (oneLine : '\n' ∉ u) (remark : isRemark u = true) (oneLine' : '\n' ∉ u')
    (remark' : isRemark u' = true) : Swap u u' := by
  intro rest
  rw [codeLines_append_of_isRemark oneLine remark, codeLines_append_of_isRemark oneLine' remark']

theorem of_remark_line (oneLine : '\n' ∉ u) (remark : isRemark u = true) : Swap (u ++ ['\n']) [] := by
  intro rest
  have none : codeLines u = [] := by
    simpa using codeLines_append_of_isRemark oneLine remark []
  rw [List.append_assoc, List.singleton_append, codeLines_append_feed, none, List.nil_append]
  rfl

/-- Whole lines can be put in front. -/
theorem below (lines : codeLines x = codeLines y) (swap : Swap u u') : Swap (x ++ '\n' :: u) (y ++ '\n' :: u') := by
  intro rest
  rw [List.append_assoc, List.append_assoc, List.cons_append, List.cons_append, codeLines_append_feed,
    codeLines_append_feed, lines, swap rest]

end Swap

/-- Texts that are the same, or differ in nothing but remarks, and only in front of something visible. -/
def Like (x y : List Char) : Prop :=
  x = y ∨ ∃ u u' v, x = u ++ v ∧ y = u' ++ v ∧ Swap u u' ∧ v.all isBlank = false

namespace Like

theorem refl (x : List Char) : Like x x :=
  .inl rfl

theorem swap (swap : Swap u u') (visible : v.all isBlank = false) : Like (u ++ v) (u' ++ v) :=
  .inr ⟨u, u', v, rfl, rfl, swap, visible⟩

theorem symm (like : Like x y) : Like y x := by
  rcases like with rfl | ⟨u, u', v, rfl, rfl, swaps, visible⟩
  · exact .refl _
  · exact .swap swaps.symm visible

/-- The two ends that stay the same overlap, and the shorter one stays the same in both steps. -/
theorem trans (first : Like x y) (second : Like y z) : Like x z := by
  rcases first with rfl | ⟨u, u', v, rfl, same, swaps, visible⟩
  · exact second
  rcases second with rfl | ⟨t, t', w, split, rfl, swaps', visible'⟩
  · rw [same]
    exact .swap swaps visible
  rw [same] at split
  rcases List.append_eq_append_iff.1 split with ⟨more, rfl, rfl⟩ | ⟨more, rfl, rfl⟩
  · rw [← List.append_assoc]
    exact .swap ((swaps.append more).trans swaps') visible'
  · rw [← List.append_assoc]
    exact .swap (swaps.trans (swaps'.append more)) visible

theorem append (like : Like x y) (w : List Char) : Like (x ++ w) (y ++ w) := by
  rcases like with rfl | ⟨u, u', v, rfl, rfl, swaps, visible⟩
  · exact .refl _
  · rw [List.append_assoc, List.append_assoc]
    exact .swap swaps (by simp [visible])

theorem codeLines_eq (like : Like x y) : codeLines x = codeLines y := by
  rcases like with rfl | ⟨u, u', v, rfl, rfl, swaps, -⟩
  · rfl
  · exact swaps v

theorem all_isBlank_eq (like : Like x y) : x.all isBlank = y.all isBlank := by
  rcases like with rfl | ⟨u, u', v, rfl, rfl, -, visible⟩
  · rfl
  · simp [visible]

/-- One text below the other. -/
theorem join (first : Like x y) (second : Like z w) : Like (x ++ '\n' :: z) (y ++ '\n' :: w) := by
  rcases second with rfl | ⟨u, u', v, rfl, rfl, swaps, visible⟩
  · exact first.append _
  · have swaps := swaps.below first.codeLines_eq
    simpa using Like.swap swaps visible

/-- What is trimmed at the end lies behind something visible, where the texts are the same. -/
theorem rdropWhile (like : Like x y) : Like (x.rdropWhile isBlank) (y.rdropWhile isBlank) := by
  rcases like with rfl | ⟨u, u', v, rfl, rfl, swaps, visible⟩
  · exact .refl _
  · obtain ⟨c, member, shown⟩ := List.all_eq_false.1 visible
    obtain ⟨before, rest, rfl⟩ := List.append_of_mem member
    have shown : isBlank c = false := by simpa using shown
    rw [← List.append_assoc, ← List.append_assoc, rdropWhile_append shown, rdropWhile_append shown, List.append_assoc,
      List.append_assoc]
    exact .swap swaps (by simp [shown])

end Like

/-- Lines one below the other, from the first visible character on. -/
def front (lines : List (List Char)) : List Char :=
  (['\n'].intercalate lines).dropWhile isBlank

theorem front_codeLines_cons {c : Char} (blank : isBlank c = true) (cs : List Char) :
    front (codeLines (c :: cs)) = front (codeLines cs) := by
  by_cases feed : c = '\n'
  · subst feed
    rw [← List.nil_append ('\n' :: cs), codeLines_append_feed]
    by_cases none : codeLines cs = []
    · rw [none]
      rfl
    · rw [front, intercalate_append (by decide) none]
      exact List.dropWhile_cons_of_pos blank
  · obtain ⟨line, lines, split⟩ := List.exists_cons_of_ne_nil (List.splitOn_ne_nil '\n' cs)
    have same : isRemark (c :: line) = isRemark line := by rw [isRemark, List.dropWhile_cons_of_pos blank, isRemark]
    rw [codeLines, codeLines, List.splitOn_cons_eq_if_modifyHead, if_neg (by simpa using feed), split,
      List.modifyHead_cons, List.filter_cons, List.filter_cons, same]
    split
    · rw [front, front]
      cases lines.filter fun line => !isRemark line <;> simp [List.intercalate, List.intersperse, blank]
    · rfl

theorem front_codeLines_dropWhile (cs : List Char) :
    front (codeLines (cs.dropWhile isBlank)) = front (codeLines cs) := by
  induction cs with
  | nil => rfl
  | cons c cs ih =>
    by_cases blank : isBlank c = true
    · rw [List.dropWhile_cons_of_pos blank, ih, front_codeLines_cons blank]
    · rw [List.dropWhile_cons_of_neg blank]

/-- The ends of a text can be trimmed in any order. -/
theorem trimChars_eq (cs : List Char) : trimChars cs = (cs.rdropWhile isBlank).dropWhile isBlank := by
  have whole := List.takeWhile_append_dropWhile (p := isBlank) (l := cs)
  have blank : ∀ c ∈ cs.takeWhile isBlank, isBlank c = true := List.all_eq_true.1 List.all_takeWhile
  rw [trimChars]
  cases left : cs.dropWhile isBlank with
  | nil =>
    rw [List.rdropWhile_eq_nil_iff.2 (List.dropWhile_eq_nil_iff.1 left)]
    rfl
  | cons c rest =>
    have visible : isBlank c = false := by
      simpa [left] using List.head?_dropWhile_not isBlank cs
    rw [left] at whole
    rw [← whole, rdropWhile_append visible, List.dropWhile_append_of_pos blank,
      List.dropWhile_cons_of_neg (by simp [visible])]
    exact rdropWhile_append visible [] rest

/-- Trimmed texts have the same lines besides the remarks, from the first visible character on. -/
theorem Like.front_eq (like : Like x y) :
    front (codeLines (trimChars x)) = front (codeLines (trimChars y)) := by
  rw [trimChars_eq, trimChars_eq, front_codeLines_dropWhile, front_codeLines_dropWhile, like.rdropWhile.codeLines_eq]

/-- Nothing is trimmed in front of texts that begin with something visible. -/
theorem Like.codeLines_trimChars_eq (like : Like x y) (begins : ∀ c ∈ x.head?, isBlank c = false)
    (begins' : ∀ c ∈ y.head?, isBlank c = false) : codeLines (trimChars x) = codeLines (trimChars y) := by
  have kept {cs : List Char} (begins : ∀ c ∈ cs.head?, isBlank c = false) : trimChars cs = cs.rdropWhile isBlank := by
    cases cs with
    | nil => rfl
    | cons c rest => exact trimChars_cons (begins c rfl) rest
  rw [kept begins, kept begins', like.rdropWhile.codeLines_eq]

end Text

namespace Code

/-! Code without origins. -/

mutual
/-- An expression without origins. -/
def Expr.bare : Expr → Expr
  | .ident i => .ident ⟨none, i.name⟩
  | .literal _ value raw => .literal none value raw
  | .binary _ op left right => .binary none op left.bare right.bare
  | .call _ callee args => .call none ⟨none, callee.name⟩ (Expr.bareAll args)
  | .subscript _ object index => .subscript none object.bare index.bare
  | .blank _ label => .blank none label
/-- The same of several expressions. -/
def Expr.bareAll : List Expr → List Expr
  | [] => []
  | e :: rest => e.bare :: Expr.bareAll rest
end

mutual
/-- A statement without origins. -/
def Stmt.bare : Stmt → Stmt
  | .program _ body => .program none (Stmt.bareAll body)
  | .assign _ target value => .assign none target.bare value.bare
  | .branch _ test body orElse => .branch none test.bare (Stmt.bareAll body) (Stmt.bareElse orElse)
  | .loop _ test body => .loop none test.bare (Stmt.bareAll body)
  | .print _ args => .print none (Expr.bareAll args)
  | .leave _ => .leave none
  | .unsupported _ reason => .unsupported none reason
  | .expr e => .expr e.bare
/-- The same of several statements. -/
def Stmt.bareAll : List Stmt → List Stmt
  | [] => []
  | s :: rest => s.bare :: Stmt.bareAll rest
/-- The same of an else part. -/
def Stmt.bareElse : Option (List Stmt) → Option (List Stmt)
  | none => none
  | some body => some (Stmt.bareAll body)
end

mutual
/-- The origins that the text of a statement names. -/
def Stmt.named : Stmt → List Origin
  | .program _ body => Stmt.namedIn body
  | .assign origin .. => origin.toList
  | .branch origin _ body orElse => origin.toList ++ Stmt.namedIn body ++ Stmt.namedElse orElse
  | .loop origin _ body => origin.toList ++ Stmt.namedIn body
  | .print origin _ => origin.toList
  | .leave _ => []
  | .unsupported origin _ => origin.toList
  | .expr _ => []
/-- The same of several statements. -/
def Stmt.namedIn : List Stmt → List Origin
  | [] => []
  | s :: rest => s.named ++ Stmt.namedIn rest
/-- The same of an else part. -/
def Stmt.namedElse : Option (List Stmt) → List Origin
  | none => []
  | some body => Stmt.namedIn body
end

/-- All origins are named on one line. -/
def Origin.AreOneLine (origins : List Origin) : Prop :=
  ∀ o ∈ origins, '\n' ∉ o.text.toList

instance (origins : List Origin) : Decidable (Origin.AreOneLine origins) :=
  inferInstanceAs (Decidable (∀ o ∈ origins, '\n' ∉ o.text.toList))

namespace Expr

mutual
theorem text_bare (e : Expr) : e.bare.text = e.text := by
  cases e with
  | ident i => rfl
  | literal => rfl
  | binary origin op left right => rw [bare, text, text, text_bare left, text_bare right]
  | call origin callee args => rw [bare, text, text, texts_bareAll args]
  | subscript origin object index => rw [bare, text, text, text_bare object, text_bare index]
  | blank => rfl

theorem texts_bareAll (es : List Expr) : texts (bareAll es) = texts es := by
  cases es with
  | nil => rfl
  | cons e rest => rw [bareAll, texts, texts, text_bare e, texts_bareAll rest]
end

mutual
theorem firstBlank?_bare (e : Expr) : e.bare.firstBlank? = e.firstBlank? := by
  cases e with
  | ident i => rfl
  | literal => rfl
  | binary origin op left right =>
    rw [bare, firstBlank?, firstBlank?, firstBlank?_bare left, firstBlank?_bare right]
  | call origin callee args => rw [bare, firstBlank?, firstBlank?, firstBlankIn?_bareAll args]
  | subscript origin object index =>
    rw [bare, firstBlank?, firstBlank?, firstBlank?_bare object, firstBlank?_bare index]
  | blank => rfl

theorem firstBlankIn?_bareAll (es : List Expr) : firstBlankIn? (bareAll es) = firstBlankIn? es := by
  cases es with
  | nil => rfl
  | cons e rest => rw [bareAll, firstBlankIn?, firstBlankIn?, firstBlank?_bare e, firstBlankIn?_bareAll rest]
end

end Expr

namespace Stmt
open Text

mutual
theorem firstBlank?_bare (s : Stmt) : s.bare.firstBlank? = s.firstBlank? := by
  cases s with
  | program origin body => rw [bare, firstBlank?, firstBlank?, firstBlankIn?_bareAll body]
  | assign origin target value =>
    rw [bare, firstBlank?, firstBlank?, Expr.firstBlank?_bare, Expr.firstBlank?_bare]
  | branch origin test body orElse =>
    rw [bare, firstBlank?, firstBlank?, Expr.firstBlank?_bare, firstBlankIn?_bareAll body,
      firstBlankElse?_bareElse orElse]
  | loop origin test body => rw [bare, firstBlank?, firstBlank?, Expr.firstBlank?_bare, firstBlankIn?_bareAll body]
  | print origin args => rw [bare, firstBlank?, firstBlank?, Expr.firstBlankIn?_bareAll]
  | leave => rfl
  | unsupported => rfl
  | expr e => rw [bare, firstBlank?, firstBlank?, Expr.firstBlank?_bare]

theorem firstBlankIn?_bareAll (body : List Stmt) : firstBlankIn? (bareAll body) = firstBlankIn? body := by
  cases body with
  | nil => rfl
  | cons s rest => rw [bareAll, firstBlankIn?, firstBlankIn?, firstBlank?_bare s, firstBlankIn?_bareAll rest]

theorem firstBlankElse?_bareElse (orElse : Option (List Stmt)) :
    firstBlankElse? (bareElse orElse) = firstBlankElse? orElse := by
  cases orElse with
  | none => rfl
  | some body => rw [bareElse, firstBlankElse?, firstBlankElse?, firstBlankIn?_bareAll body]
end

/-! The text of a statement is like its text without origins. -/

theorem isRemark_indented (level : Nat) (rest : List Char) :
    isRemark ((indent level).toList ++ '#' :: rest) = true := by
  have blank : ∀ c ∈ List.replicate (2 * level) ' ', isBlank c = true := by
    intro c member
    rw [(List.mem_replicate.1 member).2]
    decide
  rw [toList_indent, isRemark, List.dropWhile_append_of_pos blank, List.dropWhile_cons_of_neg (by decide)]
  rfl

theorem not_mem_indent (level : Nat) : '\n' ∉ (indent level).toList := by
  simp [toList_indent]

theorem swap_header {origin : Option Origin} (oneLine : Origin.AreOneLine origin.toList) (level : Nat) :
    Swap (header origin level).toList [] := by
  cases origin with
  | none => exact fun rest => rfl
  | some o =>
    have told : '\n' ∉ o.text.toList := oneLine o (by simp)
    have remark := isRemark_indented level (" Block ID: ".toList ++ o.text.toList)
    have line := Swap.of_remark_line (by simp [not_mem_indent, told]) remark
    simpa [header] using line

theorem like_header {origin : Option Origin} (oneLine : Origin.AreOneLine origin.toList) (level : Nat)
    {clause : String} (visible : isBlankText clause = false) :
    Like (header origin level ++ clause).toList (header none level ++ clause).toList := by
  rw [String.toList_append, String.toList_append]
  exact .swap (swap_header oneLine level) visible

/-- A marker is a remark, whatever block it names, and the dash behind the name is visible. -/
theorem like_marker {origin : Option Origin} (oneLine : Origin.AreOneLine origin.toList) (level : Nat)
    (reason : String) :
    Like (indent level ++ "# Unsupported Block ID: " ++ (origin.map Origin.text).getD "N/A" ++ " - " ++ reason).toList
      (indent level ++ "# Unsupported Block ID: " ++ ((none : Option Origin).map Origin.text).getD "N/A" ++ " - " ++
        reason).toList := by
  have named : '\n' ∉ ((origin.map Origin.text).getD "N/A").toList := by
    cases origin with
    | none => decide
    | some o => exact oneLine o (by simp)
  have marker (about : String) (told : '\n' ∉ about.toList) :
      '\n' ∉ (indent level ++ "# Unsupported Block ID: " ++ about).toList ∧
        isRemark (indent level ++ "# Unsupported Block ID: " ++ about).toList = true := by
    refine ⟨by simp [not_mem_indent, told], ?_⟩
    have remark := isRemark_indented level (" Unsupported Block ID: ".toList ++ about.toList)
    simpa using remark
  have first := marker _ named
  have second := marker "N/A" (by decide)
  have swaps := Swap.of_remarks first.1 first.2 second.1 second.2
  have visible : (" - " ++ reason).toList.all isBlank = false := by simp [isBlank]
  simpa using Like.swap swaps visible

theorem toList_stack_cons (line : String) (lines : List String) : (stack (line :: lines)).toList =
    if isBlankText line then (stack lines).toList
    else if lines.all isBlankText then line.toList else line.toList ++ '\n' :: (stack lines).toList := by
  by_cases blank : isBlankText line = true
  · simp [stack, blank]
  · by_cases others : lines.all isBlankText = true
    · have none : lines.filter (fun line => !isBlankText line) = [] := by simpa using others
      simp [stack, blank, none, others]
    · have some : lines.filter (fun line => !isBlankText line) ≠ [] := by simpa using others
      rw [if_neg blank, if_neg others, stack, stack, List.filter_cons_of_pos (by simp [blank]),
        String.toList_intercalate, String.toList_intercalate, List.map_cons,
        List.intercalate_cons_of_ne_nil (by simpa using some)]
      simp

/-- Lines that are alike one by one are alike one below the other: the same ones are left out. -/
theorem like_stack {lines lines' : List String}
    (alike : List.Forall₂ (fun s t => Like s.toList t.toList) lines lines') :
    Like (stack lines).toList (stack lines').toList ∧ lines.all isBlankText = lines'.all isBlankText := by
  induction alike with
  | nil => exact ⟨.refl _, rfl⟩
  | @cons s t lines lines' first later ih =>
    obtain ⟨rest, blank⟩ := ih
    have head : isBlankText s = isBlankText t := first.all_isBlank_eq
    refine ⟨?_, by rw [List.all_cons, List.all_cons, head, blank]⟩
    rw [toList_stack_cons, toList_stack_cons, head, blank]
    split
    · exact rest
    · split
      · exact first
      · exact first.join rest

theorem bareAll_cons (s : Stmt) (rest : List Stmt) : bareAll (s :: rest) = s.bare :: bareAll rest := by
  rw [bareAll]

theorem like_blockText {body : List Stmt} {level : Nat}
    (each : List.Forall₂ (fun s t : String => Like s.toList t.toList) (texts level body) (texts level (bareAll body))) :
    Like (blockText level body).toList (blockText level (bareAll body)).toList := by
  cases body with
  | nil =>
    rw [bareAll]
    exact .refl _
  | cons s rest =>
    rw [bareAll_cons, texts, texts] at each
    rw [bareAll_cons, blockText, blockText]
    exact (like_stack each).1

theorem like_elseText {orElse : Option (List Stmt)} {level : Nat} {before before' : List Char}
    (like : Like before before')
    (each : ∀ body ∈ orElse, List.Forall₂ (fun s t : String => Like s.toList t.toList) (texts (level + 1) body)
      (texts (level + 1) (bareAll body))) :
    Like (before ++ (elseText level orElse).toList) (before' ++ (elseText level (bareElse orElse)).toList) := by
  cases orElse with
  | none =>
    rw [bareElse]
    exact like.append _
  | some body =>
    cases body with
    | nil =>
      rw [bareElse, bareAll]
      exact like.append _
    | cons s rest =>
      have stacked := each _ rfl
      rw [bareAll_cons, texts, texts] at stacked
      rw [bareElse, bareAll_cons, elseText, elseText]
      have below := (Like.refl ((indent level ++ "else:").toList)).join (like_stack stacked).1
      simpa using like.join below

mutual
/-- A statement is written as without origins, but for remarks. -/
theorem like_bare (s : Stmt) (level : Nat) (oneLine : Origin.AreOneLine s.named) :
    Like (text level s).toList (text level s.bare).toList := by
  cases s with
  | program origin body =>
    rw [named] at oneLine
    rw [bare, text, text]
    exact (like_stack (like_bareAll body level oneLine)).1
  | assign origin target value =>
    rw [named] at oneLine
    rw [bare, text, text, Expr.text_bare, Expr.text_bare]
    simp only [String.append_assoc]
    exact like_header oneLine level (by simp [isBlankText, isBlank])
  | branch origin test body orElse =>
    rw [named, List.append_assoc] at oneLine
    obtain ⟨own, inside⟩ := List.forall_mem_append.1 oneLine
    obtain ⟨inThen, inElse⟩ := List.forall_mem_append.1 inside
    have visible : isBlankText (indent level ++ "if " ++ test.text ++ ":") = false := by simp [isBlankText, isBlank]
    have first := (like_header own level visible).join (like_blockText (like_bareAll body (level + 1) inThen))
    have whole := like_elseText first (like_bareElse orElse (level + 1) inElse)
    rw [bare, text, text, Expr.text_bare]
    simpa using whole
  | loop origin test body =>
    rw [named] at oneLine
    obtain ⟨own, inside⟩ := List.forall_mem_append.1 oneLine
    have visible : isBlankText (indent level ++ "while " ++ test.text ++ ":") = false := by simp [isBlankText, isBlank]
    have whole := (like_header own level visible).join (like_blockText (like_bareAll body (level + 1) inside))
    rw [bare, text, text, Expr.text_bare]
    simpa using whole
  | print origin args =>
    rw [named] at oneLine
    rw [bare, text, text, Expr.texts_bareAll]
    simp only [String.append_assoc]
    exact like_header oneLine level (by simp [isBlankText, isBlank])
  | leave => exact .refl _
  | unsupported origin reason =>
    rw [named] at oneLine
    rw [bare, text, text]
    exact like_marker oneLine level reason
  | expr e =>
    rw [bare, text, text, Expr.text_bare]
    exact .refl _

theorem like_bareAll (body : List Stmt) (level : Nat) (oneLine : Origin.AreOneLine (namedIn body)) :
    List.Forall₂ (fun s t : String => Like s.toList t.toList) (texts level body) (texts level (bareAll body)) := by
  cases body with
  | nil =>
    rw [bareAll, texts]
    exact .nil
  | cons s rest =>
    rw [namedIn] at oneLine
    obtain ⟨first, later⟩ := List.forall_mem_append.1 oneLine
    rw [bareAll, texts, texts]
    exact .cons (like_bare s level first) (like_bareAll rest level later)

theorem like_bareElse (orElse : Option (List Stmt)) (level : Nat) (oneLine : Origin.AreOneLine (namedElse orElse)) :
    ∀ body ∈ orElse,
      List.Forall₂ (fun s t : String => Like s.toList t.toList) (texts level body) (texts level (bareAll body)) := by
  cases orElse with
  | none => simp
  | some body =>
    rw [namedElse] at oneLine
    rintro _ ⟨⟩
    exact like_bareAll body level oneLine
end

theorem toList_write (s : Stmt) : s.write.toList = Text.trimChars (text 0 s).toList :=
  String.toList_ofList

section Pair
variable {p q : Stmt} (same : p.bare = q.bare)
include same

theorem like_of_bare_eq (oneLine : Origin.AreOneLine p.named) (oneLine' : Origin.AreOneLine q.named) (level : Nat) :
    Like (text level p).toList (text level q).toList := by
  have first := like_bare p level oneLine
  rw [same] at first
  exact first.trans (like_bare q level oneLine').symm

theorem firstBlank?_eq_of_bare_eq : p.firstBlank? = q.firstBlank? := by
  rw [← firstBlank?_bare, same, firstBlank?_bare]

theorem write?_eq_error_iff (e : Error) : p.write? = .error e ↔ q.write? = .error e := by
  rw [write?, write?, firstBlank?_eq_of_bare_eq same]
  cases q.firstBlank? <;> simp

end Pair

theorem eq_write_of_write? {p : Stmt} {out : String} (written : p.write? = .ok out) : out = p.write := by
  rw [write?] at written
  split at written
  · cases written
  · exact (Except.ok.inj written).symm

/-- Only the first line of an origin belongs to the remark; the lines below are lines of the program. -/
theorem codeLines_header {o : Origin} {first more : List Char} (lines : o.text.toList = first ++ '\n' :: more)
    (oneLine : '\n' ∉ first) (level : Nat) (rest : List Char) :
    Text.codeLines ((header (some o) level).toList ++ rest) = Text.codeLines more ++ Text.codeLines rest := by
  have remark := isRemark_indented level (" Block ID: ".toList ++ first)
  have gone := Swap.of_remark_line (by simp [not_mem_indent, oneLine]) remark (more ++ '\n' :: rest)
  rw [List.nil_append, codeLines_append_feed] at gone
  simpa [header, lines] using gone

end Stmt

end Code

end Flowchart
