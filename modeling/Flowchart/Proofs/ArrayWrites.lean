import Flowchart.Proofs.IndexForms
import Flowchart.Proofs.StoreTyping
/-! Writing an item of an array and reading items afterwards. The two sides check bounds apart from each other:
writing looks at the array it starts from, which may have to be created first, reading at the array it finds.
They agree on them, and a write changes what is read at one place alone. -/
namespace Flowchart
open Grammar

/-- The array that writing an item starts from, and the store in which index and value are evaluated: what is
bound under the id of the variable, or the array as it starts, which is put into the store first. -/
inductive Store.Opens (s : Store) (array : Variable) : Binding → Store → Prop
  | bound {b : Binding} (found : s.get? array.id = some b) : Opens s array b s
  | fresh {size : Nat} {subtype : DataType} {item : Value} (unbound : s.get? array.id = none)
      (sized : array.size? = some size) (items : array.subtype? = some subtype)
      (starts : subtype.default? = some item) :
      Opens s array ⟨array.base, .array (List.replicate size item)⟩
        (s.insert ⟨array.base, .array (List.replicate size item)⟩)

/-- What reading the item at `j` gives, once `w` was written to the item at `i` of an array of `items`. -/
structure Rereads (items : List Value) (subtype : DataType) (i : Int) (w : Value) (j : Int) (name : String)
    (result : Except Error TypedValue) : Prop where
  written : j = i → result = .ok ⟨w, some subtype⟩
  kept : j ≠ i → 0 ≤ j → ∀ old, items[j.toNat]? = some old → result = .ok ⟨old, some subtype⟩
  outside : j < 0 ∨ items.length ≤ j → result = .error (.outOfBounds (.int j) name items.length)

/-- A variable reads in the second store as in the first: as a whole, and at every index that has the same
value in both. -/
structure Store.ReadsAlike (s s' : Store) (v : Variable) : Prop where
  whole : ∀ name, v.isIndexed = false → Eval.evaluate s' (.named name v) = Eval.evaluate s (.named name v)
  access : ∀ name index, Eval.evaluate s' index = Eval.evaluate s index →
    Eval.evaluate s' (.access name v index) = Eval.evaluate s (.access name v index)
  item : ∀ name index, Term.parse v.index = .ok index → Eval.evaluate s' index = Eval.evaluate s index →
    Eval.evaluate s' (.named name v) = Eval.evaluate s (.named name v)

variable {s s' : Store} {target v : Variable} {b : Binding} {items : List Value} {subtype : DataType} {w : Value}
  {i j : Int} {name : String}

/-! ### The array before the write -/

namespace Store.Opens

theorem id_eq (opens : s.Opens target b s') : b.id = target.id := by
  cases opens with
  | bound found => simpa using List.find?_some found
  | fresh => exact target.id_base

theorem currentArray_eq (opens : s.Opens target b s') : Expression.currentArray s target.base = .ok (b, s') := by
  unfold Expression.currentArray
  rw [target.id_base]
  cases opens with
  | bound found => rw [found]
  | fresh unbound sized items starts =>
    rw [unbound]
    obtain ⟨id, title, nodeId, shape⟩ := target
    cases shape with
    | scalar => cases sized
    | array =>
      cases sized
      cases items
      simp only [Binding.ofVariable, Variable.default, Variable.base, Variable.indexed, starts]
      rfl

theorem hasKind (opens : s.Opens target b s') (typed : s.WellTyped) : b.value.HasKind b.target.kind := by
  have current := opens.currentArray_eq
  unfold Expression.currentArray at current
  split at current
  · next found =>
    cases current
    exact Store.hasKind_of_get? typed found
  · obtain ⟨made, starts, same⟩ := map_eq_ok current
    cases same
    exact Binding.hasKind_ofVariable starts

end Store.Opens

/-- An array of its kind has as many items as declared. -/
theorem Value.HasKind.exists_items {n : Nat} (has : b.value.HasKind b.target.kind) (sized : b.target.size? = some n) :
    ∃ items, b.value = .array items ∧ items.length = n := by
  obtain ⟨⟨id, title, nodeId, shape⟩, value⟩ := b
  cases shape with
  | scalar => cases sized
  | array =>
    cases sized
    cases has with
    | array length all => exact ⟨_, rfl, length⟩

/-! ### The write -/

theorem Variable.isIndexed_of_parse {index : Term} (read : Term.parse v.index = .ok index) : v.isIndexed = true := by
  rw [Variable.isIndexed, Term.isEmpty_of_parse read]
  rfl

theorem Variable.isArray_of_isIndexed (indexed : v.isIndexed = true) : v.isArray = true := by
  obtain ⟨id, title, nodeId, shape⟩ := v
  cases shape with
  | scalar => cases indexed
  | array => rfl

/-- The access that a write is read as has the index of the target as its index. -/
theorem Expression.parse_accessElements {index : Term} (read : Term.parse target.index = .ok index) :
    ∃ name array, Term.parse (accessElements target) = .ok (.access name array index) := by
  obtain ⟨tree, spelled, rfl⟩ := Term.parse_eq_ok_iff_spelled.1 read
  have array := Variable.isArray_base_of_isIndexed (Variable.isIndexed_of_parse read)
  refine ⟨_, _, Term.parse_eq_ok_iff_spelled.2 ⟨.pass .expression <| .pass .disjunction <| .pass .conjunction <|
    .pass .additive <| .pass .multiplicative <| .pass .unary <| .item target.base tree, ?_, rfl⟩⟩
  exact spelled_item.2 ⟨_, _, target.index, _, rfl, array, .operator _ (by decide), spelled,
    .operator _ (by decide)⟩

/-- Writing an item replaces it in the array that the write starts from, if the index is within its bounds. -/
theorem Expression.assign_eq {right : List Element} (opens : s.Opens target b s') (held : b.value = .array items)
    (sized : b.target.size? = some items.length) (typed : b.target.subtype? = some subtype)
    (selects : evaluateElements s' target.index = .ok ⟨.int i, some .integer⟩)
    (fits : Flowchart.calculate s' right (some subtype) none = .ok w) :
    (assignment target right).assign s =
      if i < 0 ∨ i ≥ items.length then .error (.outOfBounds (.int i) target.name items.length)
      else .ok ⟨b.target, .array (items.set i.toNat w)⟩ := by
  obtain ⟨index, read, selected⟩ := evaluateElements_eq_ok.1 selects
  obtain ⟨title, array, access⟩ := parse_accessElements read
  have indexed := Variable.isIndexed_of_parse read
  have isArray := Variable.isArray_of_isIndexed indexed
  have whole : arrayItems b target.name = .ok items := by
    simp only [arrayItems, held, Value.items?, sized, ↓reduceIte]
  simp only [assign, isArray, indexed, ↓reduceIte, assignItem, access]
  rw [opens.currentArray_eq]
  simp only [bind, Except.bind, whole, selected, position, ↓reduceIte, Value.number?, typed, fits]
  by_cases outside : i < 0 ∨ i ≥ items.length
  · simp only [outside, ↓reduceIte]
  · simp only [outside, ↓reduceIte]
    rfl

/-! ### Reading afterwards -/

theorem Eval.itemAt_outside (sized : v.size? = some items.length) (outside : j < 0 ∨ items.length ≤ j) :
    itemAt ⟨v, .array items⟩ name ⟨.int j, some .integer⟩ = .error (.outOfBounds (.int j) name items.length) := by
  simp only [itemAt, item, ↓reduceIte, Value.number?, Value.items?, sized, Option.getD_some]
  rw [if_pos outside]

theorem Eval.itemAt_inside {value : Value} (sized : v.size? = some items.length)
    (typed : v.subtype? = some subtype) (low : 0 ≤ j) (found : items[j.toNat]? = some value) :
    itemAt ⟨v, .array items⟩ name ⟨.int j, some .integer⟩ = .ok ⟨value, some subtype⟩ := by
  have high : j.toNat < items.length := (List.getElem?_eq_some_iff.1 found).1
  simp only [itemAt, item, ↓reduceIte, Value.number?, Value.items?, sized, Option.getD_some, found, typed]
  rw [if_neg (by omega)]

/-- Reading an item of an array in which one item was replaced. -/
theorem rereads_itemAt (sized : v.size? = some items.length) (typed : v.subtype? = some subtype) (low : 0 ≤ i)
    (high : i < items.length) :
    Rereads items subtype i w j name
      (Eval.itemAt ⟨v, .array (items.set i.toNat w)⟩ name ⟨.int j, some .integer⟩) := by
  have length : (items.set i.toNat w).length = items.length := List.length_set
  rw [← length] at sized
  constructor
  · rintro rfl
    exact Eval.itemAt_inside sized typed low (List.getElem?_set_self (by omega))
  · intro other nonneg old found
    refine Eval.itemAt_inside sized typed nonneg ?_
    rw [List.getElem?_set_ne (by omega), found]
  · intro outside
    rw [← length] at outside ⊢
    exact Eval.itemAt_outside sized outside

theorem Eval.evaluate_access {index : Term} (found : s.get? v.id = some b) :
    evaluate s (.access name v index) = (evaluate s index).bind (itemAt b name) := by
  rw [evaluate, found]

/-- A variable reads alike in two stores that hold the same under its id. -/
theorem Store.readsAlike_of_get?_eq (same : s'.get? v.id = s.get? v.id) : s.ReadsAlike s' v := by
  constructor
  · intro name plain
    rw [Eval.evaluate, Eval.evaluate, same]
    cases s.get? v.id with
    | none => rfl
    | some b => simp only [plain, Bool.false_eq_true, ↓reduceIte]
  · intro name index alike
    rw [Eval.evaluate, Eval.evaluate, same, alike]
  · intro name index read alike
    have indexed := Variable.isIndexed_of_parse read
    cases found : s.get? v.id with
    | none => rw [Eval.evaluate, Eval.evaluate, same, found]
    | some b =>
      rw [Eval.evaluate_indexed name (same.trans found) indexed, Eval.evaluate_indexed name found indexed, read]
      simp only [Error.ofSyntax, Except.bind, alike]

/-- Writing an item of an array obeys the laws of reading over writing, and writing and reading share their
bounds. A write succeeds exactly if its index is within the size, and fails as out of bounds otherwise. It keeps
the variable that is bound and its length. Afterwards the written item reads as the value written, every other
item as before and any other index as out of bounds, with the index in brackets or carried along; and every
other variable reads as before. -/
theorem Expression.assign_item_reread (s : Store) (typed : s.WellTyped) (target : Variable) (b : Binding)
    (s' : Store) (opens : s.Opens target b s') (n : Nat) (sized : b.target.size? = some n) (subtype : DataType)
    (ofItems : b.target.subtype? = some subtype) (i : Int)
    (selects : evaluateElements s' target.index = .ok ⟨.int i, some .integer⟩) (right : List Element) (w : Value)
    (fits : Flowchart.calculate s' right (some subtype) none = .ok w) :
    ∃ items, b.value = .array items ∧ items.length = n ∧
      (¬(0 ≤ i ∧ i < n) →
        (assignment target right).assign s = .error (.outOfBounds (.int i) target.name n)) ∧
      (0 ≤ i ∧ i < n → ∃ new, (assignment target right).assign s = .ok new ∧
        new.target = b.target ∧ (∃ written, new.value = .array written ∧ written.length = n) ∧
        (∀ (v : Variable) (name : String) (index : Term) (j : Int), v.id = target.id →
          Eval.evaluate (s.insert new) index = .ok ⟨.int j, some .integer⟩ →
          Rereads items subtype i w j name (Eval.evaluate (s.insert new) (.access name v index)) ∧
          (Term.parse v.index = .ok index →
            Rereads items subtype i w j name (Eval.evaluate (s.insert new) (.named name v)))) ∧
        ∀ v : Variable, v.id ≠ target.id → s.ReadsAlike (s.insert new) v) := by
  obtain ⟨items, held, rfl⟩ := (opens.hasKind typed).exists_items sized
  have assigned := assign_eq opens held sized ofItems selects fits
  refine ⟨items, held, rfl, ?_, ?_⟩
  · intro outside
    rw [assigned, if_pos (by omega)]
  · rintro ⟨low, high⟩
    rw [if_neg (by omega)] at assigned
    have own : Binding.id ⟨b.target, .array (items.set i.toNat w)⟩ = target.id := opens.id_eq
    refine ⟨_, assigned, rfl, ⟨_, rfl, List.length_set⟩, ?_, ?_⟩
    · intro v name index j same selected
      have found := Store.get?_insert s ⟨b.target, .array (items.set i.toNat w)⟩ v.id
      rw [if_pos (same.trans own.symm)] at found
      have reread : Rereads items subtype i w j name _ := rereads_itemAt sized ofItems low high
      constructor
      · rw [Eval.evaluate_access found, selected]
        exact reread
      · intro read
        rw [Eval.evaluate_indexed name found (Variable.isIndexed_of_parse read), read]
        simp only [Error.ofSyntax, Except.bind, selected]
        exact reread
    · intro v other
      apply Store.readsAlike_of_get?_eq
      rw [Store.get?_insert, if_neg fun same => other (same.trans own)]

/-! ### A row that was never written -/

/-- The place where the row is written to, and no row yet. -/
def Store.ofPlace : Store :=
  ⟨[⟨.place, .int 1⟩]⟩

theorem Store.wellTyped_ofPlace : Store.ofPlace.WellTyped := by
  intro b held
  obtain rfl := List.mem_singleton.1 held
  exact .scalar (.int 1)

theorem evaluateElements_place {s : Store} (id : String) (found : s.get? "i" = some ⟨.place, .int 1⟩) :
    evaluateElements s [.attached id .place] = .ok ⟨.int 1, some .integer⟩ := by
  refine evaluateElements_eq_ok.2 ⟨_, Term.parse_attached id .place, ?_⟩
  rw [Eval.evaluate, show Variable.place.id = "i" from rfl, found]
  rfl

theorem calculate_place {s : Store} (id : String) (found : s.get? "i" = some ⟨.place, .int 1⟩) :
    calculate s [.attached id .place] (some .integer) none = .ok (.int 1) := by
  simp only [calculate, List.isEmpty_cons, Bool.false_eq_true, ↓reduceIte, evaluateElements_place id found]
  rfl

/-- The row is created with two zeros, and its item at the place becomes the place. -/
theorem Expression.assign_item_reread_row :
    ∃ new, (assignment .picked [.attached "y" .place]).assign .ofPlace = .ok new ∧ new.target = .row [] ∧
      Eval.evaluate (Store.ofPlace.insert new) (.named "row" .picked) = .ok ⟨.int 1, some .integer⟩ := by
  have opens := @Store.Opens.fresh .ofPlace .picked 2 .integer (.int 0) rfl rfl rfl rfl
  have held : (Store.ofPlace.insert ⟨Variable.picked.base, .array (List.replicate 2 (.int 0))⟩).get? "i" =
      some ⟨.place, .int 1⟩ := rfl
  obtain ⟨items, -, -, -, succeeds⟩ := assign_item_reread .ofPlace Store.wellTyped_ofPlace .picked _ _ opens 2 rfl
    .integer rfl 1 (evaluateElements_place "x" held) _ _ (calculate_place "y" held)
  obtain ⟨new, made, kept, -, reads, others⟩ := succeeds (by decide)
  refine ⟨new, made, kept, ?_⟩
  have place : Eval.evaluate (Store.ofPlace.insert new) (.named "place" .place) = .ok ⟨.int 1, some .integer⟩ := by
    rw [(others .place (by decide)).whole "place" rfl, Eval.evaluate]
    rfl
  exact ((reads .picked "row" _ 1 rfl place).2 (Term.parse_attached "x" .place)).written rfl

end Flowchart
