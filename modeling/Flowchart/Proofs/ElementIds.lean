import Mathlib.Data.List.DropRight
import Mathlib.Data.List.Nodup
import Flowchart.Proofs.Respacing
/-! Elements are known by their ids. One counter numbers the elements of a text while they are made, also those inside
of arguments and of indices, and the search goes into both. So no id stands for two elements, and each is found. -/
namespace Flowchart

mutual
/-- All elements of a sequence and of what they contain, in the order in which they are completed. -/
def Element.all : List Element → List Element
  | [] => []
  | e :: rest => e.contents ++ e :: Element.all rest
/-- What an element contains: the argument of a function, the index of a variable. -/
def Element.contents : Element → List Element
  | .function _ _ argument => argument.elements
  | .attached _ v => v.elements
  | _ => []
/-- The elements of a variable's index. -/
def Variable.elements : Variable → List Element
  | ⟨_, _, _, .scalar ..⟩ => []
  | ⟨_, _, _, .array _ _ _ _ index⟩ => Element.all index
/-- The elements of both sides of an expression. -/
def Expression.elements : Expression → List Element
  | .value right => Element.all right
  | .assignment target right => target.elements ++ Element.all right
  | .condition _ left right => Element.all left ++ Element.all right
  | .halfCondition _ right => Element.all right
end

namespace Element

variable {declared : List Variable} {ls : List Lexeme} {es : List Element} {count total : Nat}

/-! ### Numbers in ids -/

/-- The number in an id: the digits behind its last dash. -/
def idNumber (id : String) : Nat :=
  Nat.ofDigitChars 10 (id.toList.rtakeWhile (· != '-')) 0

theorem idNumber_numbered (stem : String) (n : Nat) : idNumber (numbered stem n) = n := by
  have chars : (numbered stem n).toList = stem.toList ++ '-' :: Nat.toDigits 10 n := by
    rw [numbered, String.toList_append, String.toList_append, List.append_assoc]
    congr 1
    exact congrArg ('-' :: ·) Nat.toList_repr
  have digits : ∀ c ∈ (Nat.toDigits 10 n).reverse, (c != '-') = true := by
    intro c member
    refine bne_iff_ne.2 ?_
    rintro rfl
    cases Nat.isDigit_of_mem_toDigits (by decide) (by decide) (List.mem_reverse.1 member)
  have behind : (stem.toList ++ '-' :: Nat.toDigits 10 n).rtakeWhile (· != '-') = Nat.toDigits 10 n := by
    rw [List.rtakeWhile, List.reverse_append, List.reverse_cons, List.append_assoc, List.takeWhile_append_of_pos digits]
    simp
  rw [idNumber, chars, behind, Nat.ofDigitChars_ten_toDigits]

/-! ### How the elements of a text are numbered -/

/-- The element contains the given elements and nothing else, and is searched where they are. -/
structure Contains (e : Element) (inner : List Element) : Prop where
  contents : e.contents = all inner
  search : ∀ id, e.findInside id = findIn id inner

/-- Elements that are numbered from `count + 1` to `total`: the first of them after what it contains, then the
others. -/
inductive Numbered : (count : Nat) → List Element → (total : Nat) → Prop
  | nil (count : Nat) : Numbered count [] count
  | cons {count middle total : Nat} {e : Element} {inner es : List Element} (contains : e.Contains inner)
      (nested : Numbered count inner middle) (number : idNumber e.id = middle + 1)
      (later : Numbered (middle + 1) es total) : Numbered count (e :: es) total

theorem contains_function (id name : String) (argument : List Element) :
    (function id name (.value argument)).Contains argument :=
  ⟨rfl, fun _ => rfl⟩

theorem contains_indexed (id : String) {v : Variable} (array : v.isArray = true) (index : List Element) :
    (attached id (v.indexed index)).Contains index := by
  obtain ⟨vid, name, nodeId, shape⟩ := v
  cases shape with
  | scalar => cases array
  | array => exact ⟨rfl, fun _ => rfl⟩

theorem contains_whole (id : String) {v : Variable} (whole : v.isIndexed = false) : (attached id v).Contains [] := by
  obtain ⟨vid, name, nodeId, shape⟩ := v
  cases shape with
  | scalar => exact ⟨rfl, fun _ => rfl⟩
  | array subtype named size positive index =>
    obtain rfl : index = [] := by simpa [Variable.isIndexed, Variable.index] using whole
    exact ⟨rfl, fun _ => rfl⟩

/-- The induction is on the number of words, since what is in brackets is made by itself. -/
theorem numbered_ofLexemes (whole : ∀ v ∈ declared, v.isIndexed = false)
    (made : ofLexemes declared count ls = .ok (es, total)) : Numbered count es total := by
  induction size : ls.length using Nat.strongRecOn generalizing ls count total es with
  | ind k ih =>
    cases ls with
    | nil =>
      rw [ofLexemes] at made
      cases made
      exact .nil count
    | cons l rest =>
      rw [List.length_cons] at size
      have single {stem : String} {e : Element} {fs : List Element} {m : Nat} (empty : e.Contains [])
          (id : e.id = numbered stem (count + 1)) (made : ofLexemes declared (count + 1) rest = .ok (fs, m)) :
          Numbered count (e :: fs) m :=
        .cons empty (.nil count) (by rw [id, idNumber_numbered]) (ih _ (by omega) made rfl)
      have holder {stem opening closing : String} {e : Element} {inside after : List Lexeme}
          {fs gs : List Element} {n m : Nat} (taken : Bracketed opening closing inside after rest)
          (nested : ofLexemes declared count inside = .ok (fs, n)) (contains : e.Contains fs)
          (id : e.id = numbered stem (n + 1)) (later : ofLexemes declared (n + 1) after = .ok (gs, m)) :
          Numbered count (e :: gs) m := by
        have shorter := taken.length_lt
        exact .cons contains (ih _ (by omega) nested rfl) (by rw [id, idNumber_numbered]) (ih _ (by omega) later rfl)
      cases l with
      | number text | quoted text | op text =>
        rw [ofLexemes] at made
        obtain ⟨⟨fs, m⟩, later, done⟩ := bind_eq_ok made
        cases done
        exact single ⟨rfl, fun _ => rfl⟩ rfl later
      | name name =>
        rw [ofLexemes_name] at made
        obtain ⟨n, named, made⟩ := bind_eq_ok made
        have fits := fits_of_naming named
        cases n with
        | truth =>
          obtain ⟨⟨fs, m⟩, later, done⟩ := map_eq_ok made
          cases done
          exact single ⟨rfl, fun _ => rfl⟩ rfl later
        | whole v =>
          obtain ⟨⟨fs, m⟩, later, done⟩ := map_eq_ok made
          cases done
          obtain ⟨-, member⟩ := name_of_lookup? fits
          exact single (contains_whole _ (whole v member)) rfl later
        | call inside after =>
          obtain ⟨⟨argument, n⟩, nested, made⟩ := bind_eq_ok made
          obtain ⟨⟨fs, m⟩, later, done⟩ := map_eq_ok made
          cases done
          exact holder fits nested (contains_function ..) rfl later
        | item v inside after =>
          obtain ⟨⟨index, n⟩, nested, made⟩ := bind_eq_ok made
          obtain ⟨⟨fs, m⟩, later, done⟩ := map_eq_ok made
          cases done
          obtain ⟨-, array, taken⟩ := fits
          exact holder taken nested (contains_indexed _ array index) rfl later

namespace Numbered

/-- The elements are numbered one after the other, each when it is completed. -/
theorem map_idNumber (numbered : Numbered count es total) :
    total = count + (all es).length ∧
      (all es).map (fun e => idNumber e.id) = List.range' (count + 1) (all es).length := by
  induction numbered with
  | nil => exact ⟨rfl, rfl⟩
  | @cons count middle total e inner es contains _ number _ ihNested ihLater =>
    obtain ⟨rfl, nested⟩ := ihNested
    obtain ⟨rfl, later⟩ := ihLater
    have length : (all (e :: es)).length = (all inner).length + ((all es).length + 1) := by
      rw [all, contains.contents, List.length_append, List.length_cons]
    refine ⟨by omega, ?_⟩
    calc (all (e :: es)).map (fun e => idNumber e.id)
      _ = List.range' (count + 1) (all inner).length ++
          (count + (all inner).length + 1) :: List.range' (count + (all inner).length + 1 + 1) (all es).length := by
        rw [all, contains.contents, List.map_append, List.map_cons, nested, later, number]
      _ = List.range' (count + 1) (all inner).length ++
          List.range' (count + 1 + (all inner).length) ((all es).length + 1) := by
        rw [← List.range'_succ, Nat.add_right_comm]
      _ = List.range' (count + 1) (all (e :: es)).length := by
        rw [List.range'_append_1, length]

theorem nodup_ids (numbered : Numbered count es total) : ((all es).map Element.id).Nodup := by
  have numbers : (((all es).map Element.id).map idNumber).Nodup := by
    rw [List.map_map]
    exact numbered.map_idNumber.2 ▸ List.nodup_range'
  exact numbers.of_map idNumber

/-- The search for an id ends at an element that has it, or goes through all elements. -/
theorem findIn_cases (numbered : Numbered count es total) (id : String) :
    (∃ e ∈ all es, e.id = id ∧ findIn id es = .ok (some e)) ∨
      ((∀ e ∈ all es, e.id ≠ id) ∧ findIn id es = .ok none) := by
  induction numbered with
  | nil => simp [all, findIn]
  | @cons count middle total e inner es contains _ _ _ ihNested ihLater =>
    rw [all, findIn, contains.contents, contains.search]
    by_cases here : e.id = id
    · left
      refine ⟨e, by simp, here, ?_⟩
      simp [here]
    rcases ihNested with ⟨f, member, same, found⟩ | ⟨others, none⟩
    · left
      refine ⟨f, by simp [member], same, ?_⟩
      simp [here, found]
    rcases ihLater with ⟨f, member, same, found⟩ | ⟨others', none'⟩
    · left
      refine ⟨f, by simp [member], same, ?_⟩
      simp [here, none, found]
    · right
      constructor
      · intro f member
        rw [List.mem_append, List.mem_cons] at member
        rcases member with inside | rfl | later
        · exact others f inside
        · exact here
        · exact others' f later
      · simp [here, none, none']

end Numbered

/-- Elements made of a text are identified by their ids. No two elements at any depth share an id; the search for an
id finds the element that has it, and nothing where none has. Variables are declared as a whole. -/
theorem ofText_ids_identify {declared : List Variable} {s : String} {es : List Element}
    (whole : ∀ v ∈ declared, v.isIndexed = false) (made : ofText declared s = .ok es) :
    ((all es).map Element.id).Nodup ∧ (∀ e ∈ all es, (Expression.value es).find e.id = .ok (some e)) ∧
      ∀ id, (∀ e ∈ all es, e.id ≠ id) → (Expression.value es).find id = .ok none := by
  obtain ⟨ls, -, made⟩ := bind_eq_ok made
  obtain ⟨⟨fs, total⟩, built, done⟩ := bind_eq_ok made
  cases done
  have numbered := numbered_ofLexemes whole built
  have distinct := numbered.nodup_ids
  refine ⟨distinct, ?_, ?_⟩
  · intro e member
    rcases numbered.findIn_cases e.id with ⟨f, other, same, found⟩ | ⟨none, -⟩
    · obtain rfl := List.inj_on_of_nodup_map distinct other member same
      rw [Expression.find, found]
    · exact absurd rfl (none e member)
  · intro id absent
    rcases numbered.findIn_cases id with ⟨f, member, same, -⟩ | ⟨-, nothing⟩
    · exact absurd same (absent f member)
    · rw [Expression.find, nothing]

/-- The index of the row is made first and has the lower number; the search looks into it. -/
theorem ofText_ids_identify_row :
    ∃ vs es, Variable.ofDeclarations 1 ["row:integer[2]", "place:integer"] = .ok vs ∧
      ofText vs "row [place]+place" = .ok es ∧ (all es).map Element.id = ["var-1", "var-2", "op-3", "var-4"] ∧
      (Expression.value es).find "var-1" = .ok (some (.attached "var-1" .declaredPlace)) ∧
      (Expression.value es).find "var-3" = .ok none := by
  have whole := Variable.isIndexed_of_ofDeclarations Variable.ofDeclarations_rowAndPlace
  obtain ⟨-, finds, misses⟩ := ofText_ids_identify whole ofText_row
  have ids : (all [.attached "var-2" (.declaredRow [.attached "var-1" .declaredPlace]), .operator "op-3" "+",
      .attached "var-4" .declaredPlace]).map Element.id = ["var-1", "var-2", "op-3", "var-4"] := rfl
  refine ⟨_, _, Variable.ofDeclarations_rowAndPlace, ofText_row, ids, ?_, ?_⟩
  · exact finds (.attached "var-1" .declaredPlace) List.mem_cons_self
  · apply misses
    intro e member same
    have listed := List.mem_map_of_mem (f := Element.id) member
    rw [ids, same] at listed
    revert listed
    decide

end Element

end Flowchart
