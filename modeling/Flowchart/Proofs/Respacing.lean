import Flowchart.Expression.Declaration
import Flowchart.Expression.OfText
import Flowchart.Proofs.Cutting
import Flowchart.Proofs.Reading
/-! The text of elements gives the elements again. Elements that were made from a text are written with spaces between
them, and with brackets right behind the names of functions and arrays. The words of that text are those of the first
one, so the same elements are made of them. Only an empty index is lost, since it is not written. -/
namespace Flowchart

open Code.Expr (EndsAt endsAt_cons)

namespace Element
variable {declared : List Variable} {ls : List Lexeme}

/-! ### What a name takes with it -/

theorem append_splitClosing? {opening closing : String} {depth : Nat} {inside after : List Lexeme}
    (found : splitClosing? opening closing depth ls = some (inside, after)) :
    ∃ l : Lexeme, l.text = closing ∧ ls = inside ++ l :: after := by
  induction ls generalizing depth inside with
  | nil => cases found
  | cons l rest ih =>
    -- Whatever the word does to the depth, it is put in front of what the rest gives.
    have later {d : Nat} {push : List Lexeme × List Lexeme → List Lexeme × List Lexeme}
        (pushes : ∀ r, push r = (l :: r.1, r.2))
        (more : (splitClosing? opening closing d rest).map push = some (inside, after)) :
        ∃ m : Lexeme, m.text = closing ∧ l :: rest = inside ++ m :: after := by
      obtain ⟨⟨i, a⟩, cut, same⟩ := Option.map_eq_some_iff.1 more
      rw [pushes] at same
      cases same
      obtain ⟨m, closes, rfl⟩ := ih cut
      exact ⟨m, closes, rfl⟩
    unfold splitClosing? at found
    split at found
    · exact later (fun _ => rfl) found
    · split at found
      · next closes =>
        cases depth with
        | zero =>
          cases found
          exact ⟨l, eq_of_beq closes, rfl⟩
        | succ d => exact later (fun _ => rfl) found
      · exact later (fun _ => rfl) found

theorem eq_cons_of_isNext {text : String} (next : isNext text ls = true) :
    ∃ l : Lexeme, l.text = text ∧ ls = l :: ls.tail := by
  cases ls with
  | nil => cases next
  | cons l rest =>
    simp only [isNext, List.head?_cons, Option.any_some, beq_iff_eq] at next
    exact ⟨l, next, rfl⟩

/-- The words in brackets, and those after them. -/
def Bracketed (opening closing : String) (inside after rest : List Lexeme) : Prop :=
  ∃ first last : Lexeme, rest = first :: (inside ++ last :: after) ∧ first.text = opening ∧ last.text = closing

theorem Bracketed.isInfix {opening closing : String} {inside after rest : List Lexeme}
    (taken : Bracketed opening closing inside after rest) (l : Lexeme) :
    inside <:+: l :: rest ∧ after <:+: l :: rest := by
  obtain ⟨first, last, rfl, -, -⟩ := taken
  exact ⟨⟨[l, first], last :: after, by simp⟩, ⟨l :: first :: (inside ++ [last]), [], by simp⟩⟩

theorem Bracketed.length_lt {opening closing : String} {inside after rest : List Lexeme}
    (taken : Bracketed opening closing inside after rest) :
    inside.length < rest.length ∧ after.length < rest.length := by
  obtain ⟨first, last, rfl, -, -⟩ := taken
  simp only [List.length_cons, List.length_append]
  omega

/-- What a name stands for is declared, and what it takes with it is in brackets. -/
def Naming.Fits (declared : List Variable) (name : String) (rest : List Lexeme) : Naming → Prop
  | truth => True
  | whole v => lookup? declared name = some v
  | call inside after => Bracketed "(" ")" inside after rest
  | item v inside after => lookup? declared name = some v ∧ v.isArray = true ∧ Bracketed "[" "]" inside after rest

theorem bracketed_of_splitClosing? {opening closing : String} {inside after : List Lexeme}
    (next : isNext opening ls = true) (found : splitClosing? opening closing 0 ls.tail = some (inside, after)) :
    Bracketed opening closing inside after ls := by
  obtain ⟨first, opens, same⟩ := eq_cons_of_isNext next
  obtain ⟨last, closes, tail⟩ := append_splitClosing? found
  rw [tail] at same
  exact ⟨first, last, same, opens, closes⟩

theorem fits_of_naming {name : String} {rest : List Lexeme} {n : Naming} (named : naming declared name rest = .ok n) :
    n.Fits declared name rest := by
  unfold naming at named
  split at named
  · next applied =>
    split at named
    · cases named
    · next found =>
      cases named
      exact bracketed_of_splitClosing? (Bool.and_eq_true_iff.1 applied).2 found
  · split at named
    · cases named
      trivial
    · split at named
      · cases named
      · next v known =>
        split at named
        · next indexed =>
          obtain ⟨array, next⟩ := Bool.and_eq_true_iff.1 indexed
          split at named
          · cases named
          · next found =>
            cases named
            exact ⟨known, array, bracketed_of_splitClosing? next found⟩
        · cases named
          exact known

theorem name_of_lookup? {name : String} {v : Variable} (known : lookup? declared name = some v) :
    v.name = name ∧ v ∈ declared := by
  have same := List.find?_some known
  have member := List.mem_of_find?_eq_some known
  exact ⟨by simpa using same, by simpa using member⟩

/-- The elements of a name, when it is known what it stands for, and of what follows. -/
def ofNaming (declared : List Variable) (count : Nat) (name : String) (rest : List Lexeme) :
    Naming → Except SyntaxError (List Element × Nat)
  | .truth => (ofLexemes declared (count + 1) rest).map fun later =>
    (.literal (numbered "lit" (count + 1)) name :: later.1, later.2)
  | .whole v => (ofLexemes declared (count + 1) rest).map fun later =>
    (.attached (numbered "var" (count + 1)) v :: later.1, later.2)
  | .call inside after => (ofLexemes declared count inside).bind fun argument =>
    (ofLexemes declared (argument.2 + 1) after).map fun later =>
      (.function (numbered "fn" (argument.2 + 1)) name (.value argument.1) :: later.1, later.2)
  | .item v inside after => (ofLexemes declared count inside).bind fun index =>
    (ofLexemes declared (index.2 + 1) after).map fun later =>
      (.attached (numbered "var" (index.2 + 1)) (v.indexed index.1) :: later.1, later.2)

theorem ofLexemes_name (declared : List Variable) (count : Nat) (name : String) (rest : List Lexeme) :
    ofLexemes declared count (.name name :: rest) =
      (naming declared name rest).bind (ofNaming declared count name rest) := by
  rw [ofLexemes]
  split
  · next named => rw [named]; rfl
  · next named =>
    simp only [named, Except.bind, ofNaming]
    cases ofLexemes declared (count + 1) rest <;> rfl
  · next v named =>
    simp only [named, Except.bind, ofNaming]
    cases ofLexemes declared (count + 1) rest <;> rfl
  · next inside after named =>
    simp only [named, Except.bind, ofNaming]
    cases ofLexemes declared count inside with
    | error e => rfl
    | ok argument =>
      simp only [bind, Except.bind]
      cases ofLexemes declared (argument.2 + 1) after <;> rfl
  · next v inside after named =>
    simp only [named, Except.bind, ofNaming]
    cases ofLexemes declared count inside with
    | error e => rfl
    | ok index =>
      simp only [bind, Except.bind]
      cases ofLexemes declared (index.2 + 1) after <;> rfl

/-! ### Texts of elements -/

/-- The characters of elements, with a space between neighbours. -/
def chars (es : List Element) : List Char :=
  (" ".intercalate (texts es)).toList

theorem chars_singleton (e : Element) : chars [e] = e.text.toList := by
  simp [chars, texts]

theorem chars_cons_cons (e f : Element) (es : List Element) :
    chars (e :: f :: es) = e.text.toList ++ ' ' :: chars (f :: es) := by
  simp only [chars, String.toList_intercalate, texts, List.map_cons]
  rw [List.intercalate_cons_cons]
  simp

theorem text_of_whole {v : Variable} (whole : v.isIndexed = false) : v.text = v.name := by
  obtain ⟨id, name, nodeId, shape⟩ := v
  cases shape with
  | scalar type simple => rfl
  | array subtype named size positive index =>
    have empty : index = [] := by simpa [Variable.isIndexed, Variable.index, Variable.isArray] using whole
    rw [empty]
    rfl

theorem toList_text_indexed {v : Variable} {index : List Element} (array : v.isArray = true) (nonempty : index ≠ []) :
    (v.indexed index).text.toList = v.name.toList ++ '[' :: (chars index ++ [']']) := by
  obtain ⟨id, name, nodeId, shape⟩ := v
  cases shape with
  | scalar type simple => cases array
  | array subtype named size positive old => simp [Variable.indexed, Variable.text, nonempty, chars]

theorem toList_text_function (id name : String) (argument : List Element) :
    (Element.function id name (.value argument)).text.toList = name.toList ++ '(' :: (chars argument ++ [')']) := by
  simp [Element.text, Expression.text, chars]

/-! ### The same words again -/

/-- The words are found again in the characters, whatever words follow after a separator. -/
def Renders (ls : List Lexeme) (cs : List Char) : Prop :=
  ∀ more rest, EndsAt Lexeme.separators rest → Lexeme.Spaced more rest → Lexeme.Spaced (ls ++ more) (cs ++ rest)

theorem renders_nil : Renders [] [] :=
  fun _ _ _ spaced => spaced

theorem renders_word {l : Lexeme} (cut : l.IsCut) : Renders [l] l.text.toList :=
  fun _ _ ends spaced => .word (cut.split?_append ends) spaced

theorem Renders.cons {e : Element} {es : List Element} {ms : List Lexeme} (first : Renders ls e.text.toList)
    (later : Renders ms (chars es)) : Renders (ls ++ ms) (chars (e :: es)) := by
  intro more rest ends spaced
  have after := later more rest ends spaced
  rw [List.append_assoc]
  cases es with
  | nil =>
    rw [chars_singleton]
    exact first _ _ ends after
  | cons f es =>
    rw [chars_cons_cons, List.append_assoc, List.cons_append]
    exact first _ _ (endsAt_cons (by decide)) (.space after)

/-- Brackets right behind a word are found again, and so is what is inside. -/
theorem renders_bracketed {word : Lexeme} {opening closing : String} {inside after rest : List Lexeme} {a b : Char}
    {e : Element} {fs es : List Element} (cut : ∀ l ∈ word :: rest, l.IsCut)
    (taken : Bracketed opening closing inside after rest) (within : Renders inside (chars fs))
    (behind : Renders after (chars es)) (opens : opening.toList = [a] ∧ a ∈ Lexeme.separators)
    (alone : Lexeme.singles.contains a = true ∧ a ∉ Lexeme.pairs.map Prod.fst)
    (closes : closing.toList = [b] ∧ b ∈ Lexeme.separators)
    (text : e.text.toList = word.text.toList ++ a :: (chars fs ++ [b])) : Renders (word :: rest) (chars (e :: es)) := by
  obtain ⟨first, last, rfl, rfl, rfl⟩ := taken
  have whole : Renders (word :: first :: (inside ++ [last])) e.text.toList := by
    intro more tail ends spaced
    have closed := Lexeme.Spaced.word ((cut last (by simp)).split?_append ends) spaced
    rw [closes.1] at closed
    have inner := within _ _ (endsAt_cons closes.2) closed
    have opened := Lexeme.Spaced.word ((cut first (by simp)).split?_single opens.1 alone.1 alone.2 _) inner
    rw [opens.1] at opened
    have named := Lexeme.Spaced.word ((cut word (by simp)).split?_append (endsAt_cons opens.2)) opened
    rw [text]
    simpa using named
  simpa using whole.cons behind

/-- No name of an array is followed by an empty index. Such an index is not written, so it would not be found again. -/
def Filled (declared : List Variable) (ls : List Lexeme) : Prop :=
  ∀ name v, [.name name, .op "[", .op "]"] <:+: ls → lookup? declared name = some v → v.isArray = false

theorem Filled.inside_ne_nil {name : String} {rest inside after : List Lexeme} {v : Variable}
    (filled : Filled declared (.name name :: rest)) (cut : ∀ l ∈ .name name :: rest, l.IsCut)
    (known : lookup? declared name = some v) (array : v.isArray = true) (taken : Bracketed "[" "]" inside after rest) :
    inside ≠ [] := by
  rintro rfl
  obtain ⟨first, last, rfl, opens, closes⟩ := taken
  obtain rfl : first = .op "[" :=
    (cut first (by simp)).eq_op (by rw [opens]; rfl) (by decide : Lexeme.singles.contains '[' = true) (by decide)
  obtain rfl : last = .op "]" :=
    (cut last (by simp)).eq_op (by rw [closes]; rfl) (by decide : Lexeme.singles.contains ']' = true) (by decide)
  have scalar := filled name v ⟨[], after, rfl⟩ known
  rw [array] at scalar
  cases scalar

/-- The words that elements were made of are found again in the characters of the elements. The induction is on the
number of words, since what is in brackets is made by itself. -/
theorem renders_ofLexemes {count total : Nat} {es : List Element} (whole : ∀ v ∈ declared, v.isIndexed = false)
    (cut : ∀ l ∈ ls, l.IsCut) (filled : Filled declared ls) (made : ofLexemes declared count ls = .ok (es, total)) :
    Renders ls (chars es) ∧ (es = [] → ls = []) := by
  induction size : ls.length using Nat.strongRecOn generalizing ls count total es with
  | ind k ih =>
    have part {ms : List Lexeme} {n m : Nat} {fs : List Element} (within : ms <:+: ls) (shorter : ms.length < k)
        (made : ofLexemes declared n ms = .ok (fs, m)) : Renders ms (chars fs) ∧ (fs = [] → ms = []) :=
      ih _ shorter (fun l member => cut l (within.subset member))
        (fun name v here => filled name v (here.trans within)) made rfl
    cases ls with
    | nil =>
      rw [ofLexemes] at made
      cases made
      exact ⟨renders_nil, fun _ => rfl⟩
    | cons l rest =>
      have word {n : Nat} {e : Element} {fs : List Element} {m : Nat} (text : e.text = l.text)
          (made : ofLexemes declared n rest = .ok (fs, m)) : Renders (l :: rest) (chars (e :: fs)) := by
        have first := renders_word (cut l (by simp))
        rw [← text] at first
        exact first.cons (part (List.suffix_cons l rest).isInfix (by rw [← size]; simp) made).1
      have brackets {opening closing : String} {inside after : List Lexeme} {n m n' m' : Nat} {fs gs : List Element}
          (taken : Bracketed opening closing inside after rest) (nested : ofLexemes declared n inside = .ok (fs, m))
          (later : ofLexemes declared n' after = .ok (gs, m')) :
          (Renders inside (chars fs) ∧ (fs = [] → inside = [])) ∧ Renders after (chars gs) := by
        obtain ⟨within, behind⟩ := taken.isInfix l
        have shorter := taken.length_lt
        rw [List.length_cons] at size
        exact ⟨part within (by omega) nested, (part behind (by omega) later).1⟩
      cases l with
      | number text | quoted text | op text =>
        rw [ofLexemes] at made
        obtain ⟨⟨fs, m⟩, later, done⟩ := bind_eq_ok made
        cases done
        exact ⟨word rfl later, by simp⟩
      | name name =>
        rw [ofLexemes_name] at made
        obtain ⟨n, named, made⟩ := bind_eq_ok made
        have fits := fits_of_naming named
        cases n with
        | truth =>
          obtain ⟨⟨fs, m⟩, later, done⟩ := map_eq_ok made
          cases done
          exact ⟨word rfl later, by simp⟩
        | whole v =>
          obtain ⟨⟨fs, m⟩, later, done⟩ := map_eq_ok made
          cases done
          obtain ⟨rfl, member⟩ := name_of_lookup? fits
          exact ⟨word (text_of_whole (whole v member)) later, by simp⟩
        | call inside after =>
          obtain ⟨⟨argument, n⟩, nested, made⟩ := bind_eq_ok made
          obtain ⟨⟨fs, m⟩, later, done⟩ := map_eq_ok made
          cases done
          obtain ⟨⟨within, -⟩, behind⟩ := brackets fits nested later
          have text := toList_text_function (numbered "fn" (n + 1)) name argument
          exact ⟨renders_bracketed cut fits within behind (by decide) (by decide) (by decide) text, by simp⟩
        | item v inside after =>
          obtain ⟨⟨index, n⟩, nested, made⟩ := bind_eq_ok made
          obtain ⟨⟨fs, m⟩, later, done⟩ := map_eq_ok made
          cases done
          obtain ⟨known, array, taken⟩ := fits
          obtain ⟨⟨within, filling⟩, behind⟩ := brackets taken nested later
          obtain ⟨rfl, -⟩ := name_of_lookup? known
          have nonempty : index ≠ [] := fun empty => filled.inside_ne_nil cut known array taken (filling empty)
          have text := toList_text_indexed array nonempty
          exact ⟨renders_bracketed cut taken within behind (by decide) (by decide) (by decide) text, by simp⟩

end Element

/-- What is made of a text is made again of the text of the elements with a space between neighbours, ids included.
Variables are declared as a whole, and no name of an array is followed by an empty index. -/
theorem Element.ofText_texts {declared : List Variable} {s : String} {es : List Element}
    (whole : ∀ v ∈ declared, v.isIndexed = false)
    (filled : ∀ ls, Lexeme.scan s = .ok ls → Element.Filled declared ls)
    (made : Element.ofText declared s = .ok es) :
    Element.ofText declared (" ".intercalate (Element.texts es)) = .ok es := by
  obtain ⟨ls, scanned, made⟩ := bind_eq_ok made
  obtain ⟨⟨fs, total⟩, built, done⟩ := bind_eq_ok made
  cases done
  obtain ⟨renders, -⟩ := Element.renders_ofLexemes whole (Lexeme.isCut_of_scanFrom scanned) (filled ls scanned) built
  have spaced := renders [] [] endsAt_nil .nil
  rw [List.append_nil, List.append_nil] at spaced
  have again : Lexeme.scan (" ".intercalate (Element.texts es)) = .ok ls := spaced.scanFrom_eq 0
  unfold Element.ofText
  rw [again]
  change (Element.ofLexemes declared 0 ls).bind _ = _
  rw [built]
  rfl

/-! ### Declared variables -/

namespace Variable

theorem isIndexed_make (id : String) (type : DataType) (name : String) (nodeId subtype : Option String)
    (size : Option Int) : (make id type name nodeId subtype size []).isIndexed = false := by
  unfold make
  split <;> rfl

theorem isIndexed_of_ofDeclaration {text : String} {number : Int} {v : Variable}
    (declared : ofDeclaration text number = .ok v) : v.isIndexed = false := by
  unfold ofDeclaration at declared
  simp only at declared
  generalize (if (splitAt ':' text.toList).2.isEmpty = true then "integer".toList
    else (splitAt ':' text.toList).2) = type at declared
  split at declared
  · split at declared
    · cases declared
    · rw [← Except.ok.inj declared]
      exact isIndexed_make ..
  · split at declared
    · rw [← Except.ok.inj declared]
      exact isIndexed_make ..
    · cases declared

/-- What texts declare are whole variables: an index belongs to where a variable is used. -/
theorem isIndexed_of_ofDeclarations {texts : List String} {first : Int} {vs : List Variable}
    (declared : ofDeclarations first texts = .ok vs) : ∀ v ∈ vs, v.isIndexed = false := by
  induction texts generalizing first vs with
  | nil =>
    cases declared
    simp
  | cons text rest ih =>
    obtain ⟨v, made, declared⟩ := bind_eq_ok declared
    obtain ⟨later, others, done⟩ := bind_eq_ok declared
    cases done
    intro w member
    rcases List.mem_cons.1 member with rfl | member
    · exact isIndexed_of_ofDeclaration made
    · exact ih others w member

def declaredRow (index : List Element) : Variable :=
  make "v1" .array "row" (some "") (some "integer") (some 2) index

def declaredPlace : Variable :=
  make "v2" .integer "place" (some "") none none []

/-- A row and a place in it, as they are declared. -/
def rowAndPlace : List Variable :=
  [declaredRow [], declaredPlace]

theorem ofDeclarations_rowAndPlace : ofDeclarations 1 ["row:integer[2]", "place:integer"] = .ok rowAndPlace :=
  rfl

end Variable

theorem Lexeme.scan_row : Lexeme.scan "row [place]+place" =
    .ok [.name "row", .op "[", .name "place", .op "]", .op "+", .name "place"] := by
  have spaced : Lexeme.Spaced [.name "row", .op "[", .name "place", .op "]", .op "+", .name "place"]
      "row [place]+place".toList :=
    .word (l := .name "row") rfl <| .space <| .word (l := .op "[") rfl <| .word (l := .name "place") rfl <|
      .word (l := .op "]") rfl <| .word (l := .op "+") rfl <| .word (l := .name "place") rfl .nil
  exact spaced.scanFrom_eq 0

theorem Element.ofLexemes_place (count : Nat) : Element.ofLexemes Variable.rowAndPlace count [.name "place"] =
    .ok ([.attached (Element.numbered "var" (count + 1)) .declaredPlace], count + 1) := by
  have named : Element.naming Variable.rowAndPlace "place" [] = .ok (.whole .declaredPlace) := rfl
  rw [Element.ofLexemes_name, named]
  simp only [Except.bind, Element.ofNaming]
  rw [Element.ofLexemes]
  rfl

theorem Element.ofText_row : Element.ofText Variable.rowAndPlace "row [place]+place" =
    .ok [.attached "var-2" (.declaredRow [.attached "var-1" .declaredPlace]), .operator "op-3" "+",
      .attached "var-4" .declaredPlace] := by
  have named : Element.naming Variable.rowAndPlace "row" [.op "[", .name "place", .op "]", .op "+", .name "place"] =
      .ok (.item (.declaredRow []) [.name "place"] [.op "+", .name "place"]) := rfl
  unfold Element.ofText
  rw [Lexeme.scan_row]
  simp only [bind, Except.bind]
  rw [Element.ofLexemes_name, named]
  simp only [Except.bind, Element.ofNaming]
  rw [Element.ofLexemes_place]
  simp only
  rw [Element.ofLexemes, Element.ofLexemes_place]
  rfl

/-- The space before the bracket goes, and others come, but the elements stay. -/
theorem Element.ofText_texts_row :
    ∃ vs es, Variable.ofDeclarations 1 ["row:integer[2]", "place:integer"] = .ok vs ∧
      Element.ofText vs "row [place]+place" = .ok es ∧ Element.ofText vs "row[place] + place" = .ok es := by
  have filled : ∀ ls, Lexeme.scan "row [place]+place" = .ok ls → Element.Filled Variable.rowAndPlace ls := by
    intro ls scanned name v here
    rw [Lexeme.scan_row] at scanned
    cases scanned
    simp [List.infix_cons_iff] at here
  have whole := Variable.isIndexed_of_ofDeclarations Variable.ofDeclarations_rowAndPlace
  have again := Element.ofText_texts whole filled Element.ofText_row
  exact ⟨_, _, Variable.ofDeclarations_rowAndPlace, Element.ofText_row, again⟩

end Flowchart
