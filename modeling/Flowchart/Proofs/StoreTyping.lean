import Flowchart.Proofs.TypeSoundness
import Flowchart.Run
import Mathlib.Data.List.Nodup
/-! The store of a run stays well typed. A block writes at most one binding: the default of a declared
variable, a value fitted to the type of its target, or an array with one item replaced. Each of these is of
the kind that the written variable is declared with, whatever was declared under its id before. -/
namespace Flowchart

variable {s : Store} {b : Binding} {v w : Value} {t : DataType} {k : Kind}

/-! Values as a store keeps them. -/

namespace Value

theorem HasType.marked (has : v.HasType t) (next : Nat) : (v.marked next).1.HasType t := by
  cases has with
  | int n => exact .int n
  | float x =>
    unfold Value.marked
    split
    · exact .nan next
    · exact .float x
  | nan mark => exact .nan mark
  | text s => exact .text s
  | bool b => exact .bool b
  | unknown s name unknown => exact .unknown s name unknown

/-- Only lists are held otherwise, and no value of a kind is a list. -/
theorem HasKind.held (has : v.HasKind k) : v.held.HasKind k := by
  cases has with
  | scalar has => cases has <;> exact .scalar (by constructor)
  | array length all => exact .array length all

end Value

theorem Store.hasType_keep (has : v.HasType t) : (s.keep v).HasType t :=
  has.marked s.nextMark

/-! The store as a map from ids to bindings. -/

/-- A store that keeps to its declarations: no two bindings have the same id, and each holds a value of the
kind its variable is declared with. -/
structure Store.Sound (s : Store) : Prop where
  distinct : (s.bindings.map Binding.id).Nodup
  typed : s.WellTyped

namespace Store

theorem ids_insertIn (b : Binding) (bs : List Binding) : (insertIn b bs).map Binding.id =
    if b.id ∈ bs.map Binding.id then bs.map Binding.id else bs.map Binding.id ++ [b.id] := by
  induction bs with
  | nil => simp [insertIn]
  | cons old rest ih =>
    by_cases same : old.id = b.id
    · simp [insertIn, same]
    · have other : ¬b.id = old.id := fun is => same is.symm
      simp only [insertIn, beq_iff_eq, same, ↓reduceIte, List.map_cons, ih, List.mem_cons, other, false_or]
      split <;> simp

theorem mem_insertIn {b old : Binding} {bs : List Binding} (member : old ∈ insertIn b bs) :
    old = b ∨ old ∈ bs := by
  induction bs with
  | nil => exact .inl (List.mem_singleton.1 member)
  | cons first rest ih =>
    unfold insertIn at member
    split at member
    · rcases List.mem_cons.1 member with here | later
      · exact .inl here
      · exact .inr (List.mem_cons_of_mem _ later)
    · rcases List.mem_cons.1 member with rfl | later
      · exact .inr List.mem_cons_self
      · exact (ih later).imp_right (List.mem_cons_of_mem _)

theorem sound_empty : Store.empty.Sound := by
  refine ⟨List.nodup_nil, ?_⟩
  intro b member
  cases member

/-- Writing a binding of the right kind keeps the store sound. -/
theorem Sound.insert (sound : s.Sound) (has : b.value.HasKind b.target.kind) : (s.insert b).Sound := by
  constructor
  · have ids := ids_insertIn b s.bindings
    rw [show (s.insert b).bindings = insertIn b s.bindings from rfl, ids]
    split
    · exact sound.distinct
    · next unused =>
      refine List.nodup_append.2 ⟨sound.distinct, by simp, ?_⟩
      rintro id old _ new rfl
      exact unused (List.mem_singleton.1 new ▸ old)
  · intro other member
    rcases mem_insertIn member with rfl | old
    · exact has
    · exact sound.typed other old

/-- In a sound store every binding is found under the id of its own variable. -/
theorem Sound.get?_id (sound : s.Sound) (member : b ∈ s.bindings) : s.get? b.id = some b := by
  obtain ⟨found, here⟩ := Option.isSome_iff_exists.1
    (List.find?_isSome.2 ⟨b, member, beq_self_eq_true b.id⟩ : (s.get? b.id).isSome = true)
  have same : found.id = b.id := by simpa using List.find?_some here
  have equal : found = b :=
    List.inj_on_of_nodup_map sound.distinct (List.mem_of_find?_eq_some here) member same
  rw [← equal] at here ⊢
  exact here

end Store

/-! Defaults. -/

theorem DataType.hasType_default? (starts : t.default? = some v) : v.HasType t := by
  cases t with
  | integer => cases starts; exact .int 0
  | float => cases starts; exact .float 0.0
  | string => cases starts; exact .text ""
  | boolean => cases starts; exact .bool false
  | array => cases starts
  | other name unknown => cases starts

/-- A variable starts with a value of its kind, if there is one to start with. -/
theorem Variable.hasKind_default {target : Variable} (starts : target.default = .ok v) :
    v.HasKind target.kind := by
  obtain ⟨id, name, nodeId, shape⟩ := target
  cases shape with
  | scalar type simple =>
    cases starts
    refine .scalar ?_
    cases first : type.default? with
    | some v => exact DataType.hasType_default? first
    | none =>
      -- only unknown types are left, and these start as texts
      cases type with
      | array => exact absurd rfl simple
      | other name unknown => exact .unknown "" name unknown
      | _ => cases first
  | array subtype named size positive index =>
    simp only [Variable.default] at starts
    split at starts
    · next item first =>
      cases starts
      refine .array List.length_replicate ?_
      intro other member
      rw [List.eq_of_mem_replicate member]
      exact DataType.hasType_default? first
    · cases starts

theorem Binding.hasKind_ofVariable {target : Variable} (made : Binding.ofVariable target none = .ok b) :
    b.value.HasKind b.target.kind := by
  obtain ⟨value, starts, rfl⟩ := map_eq_ok made
  exact (Variable.hasKind_default starts).held

/-! Values fitted to a type. -/

theorem evaluateElements_fits (typed : s.WellTyped) {es : List Element} {r : TypedValue}
    (done : evaluateElements s es = .ok r) : ∃ k, r.Fits k := by
  unfold evaluateElements at done
  split at done
  · cases done
  · next t read =>
    have agrees := agrees_evaluate typed t (Term.holds_of_parse Term.kept_literalsFit read)
    rw [done] at agrees
    obtain ⟨k, -, fits⟩ := agrees
    exact ⟨k, fits⟩

/-- What is fitted to the type of a single value has that type. -/
theorem hasType_coerce {r : TypedValue} (fits : r.Fits k) (simple : t ≠ .array)
    (done : coerce r t none = .ok v) : v.HasType t := by
  unfold coerce at done
  rw [fits.type] at done
  dsimp only at done
  split at done
  · cases done
  split at done
  · next same =>
    cases done
    exact (fits.hasType same.symm simple).2
  split at done
  · next whole =>
    obtain ⟨rfl, integer⟩ := whole
    obtain ⟨value, type⟩ := r
    obtain ⟨-, has⟩ := fits.hasType integer (by decide)
    cases has with
    | int n =>
      simp only [Value.toFloat, Value.number?, Number.toFloat] at done
      cases made : Double.ofInt? n with
      | some x => rw [made] at done; cases done; exact .float x
      | none => rw [made] at done; cases done
  split at done
  · next real =>
    obtain ⟨rfl, -⟩ := real
    split at done
    · cases done
    · obtain ⟨n, -, rfl⟩ := map_eq_ok done
      exact .int n
  · cases done

theorem hasType_calculate (typed : s.WellTyped) {es : List Element} (simple : t ≠ .array)
    (done : calculate s es (some t) none = .ok v) : v.HasType t := by
  unfold calculate at done
  split at done
  · cases done
  split at done
  · cases done
  · next r evaluated =>
    obtain ⟨k, fits⟩ := evaluateElements_fits typed evaluated
    obtain ⟨value, fitted, rfl⟩ := map_eq_ok done
    exact Store.hasType_keep (hasType_coerce fits simple fitted)

/-! Assignments. -/

namespace Expression

/-- The array that an item is written to, with the store to evaluate in. Both are sound, also where the
array was created just now. -/
theorem currentArray_sound (sound : s.Sound) {array : Variable} {current : Binding} {s' : Store}
    (found : currentArray s array = .ok (current, s')) :
    current.value.HasKind current.target.kind ∧ s'.Sound := by
  unfold currentArray at found
  split at found
  · next held =>
    cases found
    exact ⟨Store.hasKind_of_get? sound.typed held, sound⟩
  · obtain ⟨b, made, same⟩ := map_eq_ok found
    cases same
    have has := Binding.hasKind_ofVariable made
    exact ⟨has, sound.insert has⟩

/-- An array with one item replaced by a value of its subtype keeps its kind. The subtype is no array,
since the array has an item already. -/
theorem hasKind_set {current : Binding} {items : List Value} {name : String} {n : Nat}
    (has : current.value.HasKind current.target.kind) (held : arrayItems current name = .ok items)
    (fits : ∀ t, t ≠ .array → current.target.subtype? = some t → w.HasType t) :
    (Value.array (items.set n w)).HasKind current.target.kind := by
  obtain ⟨⟨id, title, nodeId, shape⟩, value⟩ := current
  cases shape with
  | scalar type simple =>
    cases has with
    | scalar has => cases has <;> cases held
  | array subtype named size positive index =>
    cases has with
    | @array given _ _ _ length all =>
      have same : given = items := by
        simp only [arrayItems, Value.items?, Variable.size?, length, ↓reduceIte, Except.ok.injEq] at held
        exact held
      subst same
      have simple : subtype ≠ .array := by
        rintro rfl
        obtain ⟨first, rest, rfl⟩ := List.exists_cons_of_length_pos (length ▸ positive)
        cases all first List.mem_cons_self
      refine .array (by rw [List.length_set, length]) ?_
      intro other member
      rcases List.mem_or_eq_of_mem_set member with old | rfl
      · exact all other old
      · exact fits subtype simple rfl

theorem hasKind_assignItem (sound : s.Sound) {target : Variable} {right : List Element}
    (made : assignItem s target right = .ok b) : b.value.HasKind b.target.kind := by
  unfold assignItem at made
  split at made
  · cases made
  · next index read =>
    obtain ⟨⟨current, s'⟩, found, made⟩ := bind_eq_ok made
    obtain ⟨items, held, made⟩ := bind_eq_ok made
    obtain ⟨place, -, made⟩ := bind_eq_ok made
    obtain ⟨value, fitted, made⟩ := bind_eq_ok made
    obtain ⟨has, sound'⟩ := currentArray_sound sound found
    cases place with
    | none => cases made
    | some n =>
      cases made
      have kept : (Value.array (items.set n value)).HasKind current.target.kind := by
        refine hasKind_set has held ?_
        intro t simple subtype
        rw [subtype] at fitted
        exact hasType_calculate sound'.typed simple fitted
      exact kept.held
  · cases made

/-- The binding that an assignment makes is of the kind of its variable. -/
theorem hasKind_assign (sound : s.Sound) {e : Expression} (made : e.assign s = .ok b) :
    b.value.HasKind b.target.kind := by
  unfold assign at made
  split at made
  · next target right =>
    split at made
    · split at made
      · exact hasKind_assignItem sound made
      · cases made
    · next single =>
      obtain ⟨value, fitted, rfl⟩ := map_eq_ok made
      obtain ⟨id, name, nodeId, shape⟩ := target
      cases shape with
      | scalar type simple =>
        have has : value.HasType type := hasType_calculate sound.typed simple fitted
        exact (Value.HasKind.scalar has).held
      | array => exact absurd rfl single
  · cases made

end Expression

/-! Runs. -/

namespace Run

theorem bound_sound {state : State} {made : Except Error Binding} {effect : Effect}
    (sound : state.store.Sound) (has : ∀ b, made = .ok b → b.value.HasKind b.target.kind)
    (done : bound state made = .ok effect) : effect.state.store.Sound := by
  obtain ⟨b, ok, rfl⟩ := map_eq_ok done
  exact sound.insert (has b ok)

/-- What executing one block keeps: the store stays sound. -/
theorem execute_sound {state : State} {block : Block} {effect : Effect} (sound : state.store.Sound)
    (done : execute state block = .ok effect) : effect.state.store.Sound := by
  unfold execute at done
  split at done
  · cases done; exact sound
  · cases done; exact sound
  · exact bound_sound sound (fun b => Binding.hasKind_ofVariable) done
  · exact bound_sound sound (fun b => Expression.hasKind_assign sound) done
  · split at done
    · cases done
    · split at done
      · cases done
      · next value read =>
        refine bound_sound (by exact sound) (fun b => ?_) done
        exact Expression.hasKind_assign sound
  · split at done
    · cases done; exact sound
    · obtain ⟨v, -, rfl⟩ := map_eq_ok done
      exact sound
  · cases done; exact sound
  · obtain ⟨choice, -, rfl⟩ := map_eq_ok done
    exact sound
  · cases done
  · cases done
  · cases done; exact sound

/-- What a run keeps: the store after each of its steps is sound. -/
theorem walk_sound (g : FlowGraph) (limit count : Nat) (state : State) (current : Option String)
    (sound : state.store.Sound) :
    ∀ step ∈ (walk g limit count state current).steps, step.store.Sound := by
  induction limit generalizing count state current with
  | zero => cases current <;> simp [walk]
  | succ limit ih =>
    cases current with
    | none => simp [walk]
    | some id =>
      unfold walk
      split
      · simp
      · next block found =>
        split
        · simp
        · next effect done =>
          have after := execute_sound sound done
          intro step member
          rcases List.mem_cons.1 member with rfl | later
          · exact after
          · exact ih _ _ _ after step later

end Run

namespace Diagram

/-- The store stays well typed along every run: after each step, every binding is the one found under the
id of its own variable, a single value has the type it is declared with, and an array has as many items as
declared, at least one, all of its subtype. -/
theorem run_keeps_store_typed (d : Diagram) (inputs : List String) (limit : Int) :
    ∀ step ∈ (d.run inputs limit).steps, ∀ b ∈ step.store.bindings,
      step.store.get? b.id = some b ∧ b.value.HasKind b.target.kind := by
  intro step member b held
  have sound : step.store.Sound := by
    change step ∈ (Run.ofGraph d.flowGraph inputs limit).steps at member
    unfold Run.ofGraph at member
    split at member
    · cases member
    · exact Run.walk_sound _ _ _ _ _ Store.sound_empty step member
  exact ⟨sound.get?_id held, sound.typed b held⟩

/-- A truth value under the id that rows are declared with. -/
def flag : Variable :=
  .make "a" .boolean "flag" none none none []

/-- One id is declared twice, first as a row of integers and then as a truth value. -/
def redeclared : Diagram where
  blocks := [⟨"s", none, .start⟩, ⟨"r", none, .declare (some (.row []))⟩, ⟨"f", none, .declare (some flag)⟩]
  arrows := [⟨"s", "r", none, none⟩, ⟨"r", "f", none, none⟩]

/-- The row is of its kind before the truth value takes its place. -/
theorem run_keeps_redeclared_typed :
    (redeclared.run [] 3).steps.map Step.store =
        [.empty, ⟨[⟨.row [], .array [.int 0, .int 0]⟩]⟩, ⟨[⟨flag, .bool false⟩]⟩] ∧
      (Value.array [.int 0, .int 0]).HasKind (Variable.row []).kind ∧
      (Value.bool false).HasKind flag.kind := by
  have steps : (redeclared.run [] 3).steps =
      [⟨"s", "Start", .empty, none⟩,
        ⟨"r", "DeclareVariable", ⟨[⟨.row [], .array [.int 0, .int 0]⟩]⟩, none⟩,
        ⟨"f", "DeclareVariable", ⟨[⟨flag, .bool false⟩]⟩, none⟩] := rfl
  have row := run_keeps_store_typed redeclared [] 3 ⟨"r", "DeclareVariable",
    ⟨[⟨.row [], .array [.int 0, .int 0]⟩]⟩, none⟩ (by simp [steps]) _ List.mem_cons_self
  have truth := run_keeps_store_typed redeclared [] 3 ⟨"f", "DeclareVariable",
    ⟨[⟨flag, .bool false⟩]⟩, none⟩ (by simp [steps]) _ List.mem_cons_self
  exact ⟨by rw [steps]; rfl, row.2, truth.2⟩

end Diagram

end Flowchart
