import Flowchart.Proofs.Reading
import Flowchart.Proofs.SmallLetters
import Flowchart.Proofs.StoredForms
import Flowchart.Proofs.Tidying
/-! Saving a diagram and reading it again. What was read once comes back tidied: arrows without an id have got one,
and labels and visual ids that count as missing are gone; names, values and types come back as they were stored,
texts or not. It is stored as before, and it means the same, which compiles and runs as before. Not every draft comes
back: a label in capitals and a block of unknown type that bears the name of a known one do not, but such are never
read. -/
namespace Flowchart

namespace Draft

/-- The stored block without a visual id that counts as missing. -/
def Block.tidied (b : Block) : Block :=
  { b with visualId := b.visualId.filter Json.isPresent }

/-- The stored diagram with all its blocks and arrows tidied. -/
def tidied (g : Draft) : Draft :=
  ⟨g.blocks.map Block.tidied, g.arrows.map Arrow.tidied⟩

/-- The names of the types of blocks that there are. -/
def Content.kinds : List String :=
  ["Start", "End", "DeclareVariable", "AssignVariable", "Input", "Output", "Conditional"]

end Draft

/-- What stands for an unknown type: no list, no object, and no name of a known type. -/
structure Json.IsForeign (type : Json) : Prop where
  noList : type.items? = none
  noObject : type.members? = none
  unnamed : ∀ kind ∈ Draft.Content.kinds, type.text? ≠ some kind

/-- A block that can be read: an unknown type does not bear the name of a known one. -/
def Draft.Block.IsReadable (b : Draft.Block) : Prop :=
  ∀ type, b.content = .unknown type → type.IsForeign

/-- An arrow that can be read: its label is in small letters. -/
def Arrow.IsReadable (a : Arrow) : Prop :=
  ∀ label, a.label = some label → Text.lower label = label

/-- A stored diagram of blocks and arrows that can be read. -/
structure Draft.IsReadable (g : Draft) : Prop where
  blocks : ∀ b ∈ g.blocks, b.IsReadable
  arrows : ∀ a ∈ g.arrows, a.IsReadable

/-! What is read can be read. -/

theorem Json.blockType_eq_ok {j type : Json} (typed : j.blockType = .ok type) :
    type.items? = none ∧ type.members? = none := by
  unfold blockType at typed
  generalize (j.get? "type").getD (.text "") = found at typed
  cases found <;> cases typed <;> exact ⟨rfl, rfl⟩

theorem Draft.Content.ofJson_eq_unknown {type data type' : Json}
    (read : Content.ofJson type data = .ok (.unknown type')) :
    type' = type ∧ ∀ kind ∈ kinds, type.text? ≠ some kind := by
  unfold Draft.Content.ofJson at read
  extract_lets target expression at read
  split at read
  case h_8 =>
    cases read
    refine ⟨rfl, ?_⟩
    intro kind known named
    simp only [kinds, List.mem_cons, List.not_mem_nil, or_false] at known
    rcases known with rfl | rfl | rfl | rfl | rfl | rfl | rfl <;> contradiction
  case h_1 | h_2 => cases read
  all_goals
    obtain ⟨part, -, made⟩ := map_eq_ok read
    cases made

/-- A block that is read has an id, data and a type, and its content is read from these. -/
theorem Draft.Block.ofJson_eq_ok {j : Json} {b : Block} (read : Block.ofJson j = .ok b) :
    ∃ data type, j.blockType = .ok type ∧ Content.ofJson type data = .ok b.content := by
  obtain ⟨mentioned, -, read⟩ := bind_eq_ok read
  cases mentioned with
  | false => cases read
  | true =>
    cases found : j.get? "id" with
    | none => simp [found] at read
    | some id =>
      simp only [found] at read
      obtain ⟨data, -, read⟩ := bind_eq_ok read
      obtain ⟨type, typed, read⟩ := bind_eq_ok read
      obtain ⟨content, has, read⟩ := bind_eq_ok read
      cases read
      exact ⟨data, type, typed, has⟩

theorem Draft.Block.isReadable_of_ofJson {j : Json} {b : Block} (read : Block.ofJson j = .ok b) : b.IsReadable := by
  intro type unknown
  obtain ⟨data, type', typed, has⟩ := Block.ofJson_eq_ok read
  rw [unknown] at has
  obtain ⟨rfl, unnamed⟩ := Content.ofJson_eq_unknown has
  exact ⟨(Json.blockType_eq_ok typed).1, (Json.blockType_eq_ok typed).2, unnamed⟩

/-- The label of an arrow that is read was lower-cased. -/
theorem Arrow.ofJson_eq_ok {j : Json} {a : Arrow} (read : Arrow.ofJson j = .ok a) :
    ∃ label : Option Json, a.label = label.map fun label => Text.lower label.display := by
  obtain ⟨source, -, read⟩ := bind_eq_ok read
  obtain ⟨target, -, read⟩ := bind_eq_ok read
  cases both : source && target with
  | false => simp [both, bind, Except.bind, throw, throwThe, MonadExceptOf.throw] at read
  | true =>
    simp only [both, Bool.not_true, Bool.false_eq_true, ↓reduceIte] at read
    split at read
    · obtain ⟨data, -, rfl⟩ := map_eq_ok read
      exact ⟨_, rfl⟩
    · cases read

theorem Arrow.isReadable_of_ofJson {j : Json} {a : Arrow} (read : Arrow.ofJson j = .ok a) : a.IsReadable := by
  intro label labelled
  obtain ⟨given, same⟩ := Arrow.ofJson_eq_ok read
  rw [same] at labelled
  obtain ⟨shown, -, rfl⟩ := Option.map_eq_some_iff.1 labelled
  exact Text.lower_lower _

/-! Reading what was written. -/

theorem Json.dataOf_of_present? {j : Json} {members : List (String × Json)}
    (found : j.present? "data" = (some (Json.object members)).filter isPresent) : j.dataOf = .ok (.object members) := by
  rw [Json.dataOf, found]
  cases members <;> rfl

theorem Json.given?_of_get? {j : Json} {key : String} {found : Option Json}
    (get : j.get? key = found.filter isPresent) : j.given? key = found.filter isPresent := by
  rw [Json.given?, get]
  cases kept : found.filter isPresent with
  | none => rfl
  | some datum =>
    have present := (Option.filter_eq_some_iff.1 kept).2
    cases datum with
    | null => cases present
    | _ => rfl

theorem Json.blockType_of_get? {j : Json} {c : Draft.Content} (found : j.get? "type" = some c.type)
    (foreign : ∀ type, c = .unknown type → type.IsForeign) : j.blockType = .ok c.type := by
  rw [Json.blockType, found]
  cases c with
  | unknown type =>
    have noList := (foreign type rfl).noList
    have noObject := (foreign type rfl).noObject
    cases type with
    | list items => cases noList
    | object members => cases noObject
    | _ => rfl
  | _ => rfl

namespace Draft

namespace Content

/-- The part of a block's data that is shown. -/
def shown (visualId : Option Json) : List (String × Json) :=
  ((visualId.filter Json.isPresent).map fun shown => ("visualId", shown)).toList

theorem present?_shown (visualId : Option Json) (members : List (String × Json)) (key : String)
    (other : "visualId" ≠ key) :
    (Json.object (shown visualId ++ members)).present? key = (Json.object members).present? key := by
  unfold shown
  cases visualId.filter Json.isPresent <;> simp [other]

theorem get?_shown (visualId : Option Json) (c : Content) :
    (Json.object (shown visualId ++ c.members)).get? "visualId" = visualId.filter Json.isPresent := by
  unfold shown
  cases visualId.filter Json.isPresent with
  | some datum => simp
  | none => rcases c with _ | _ | (_ | _) | (_ | _) | (_ | _) | (_ | _) | (_ | _) | _ <;> simp [members]

theorem ofJson_foreign {type : Json} (foreign : type.IsForeign) (data : Json) :
    Content.ofJson type data = .ok (.unknown type) := by
  have unnamed := foreign.unnamed
  simp only [kinds, List.mem_cons, List.not_mem_nil, or_false, forall_eq_or_imp, forall_eq] at unnamed
  unfold Content.ofJson
  extract_lets
  split <;> simp_all

/-- Content is read from its own type and members, whatever is shown beside them. -/
theorem ofJson_members (c : Content) (visualId : Option Json) (foreign : ∀ type, c = .unknown type → type.IsForeign) :
    Content.ofJson c.type (.object (shown visualId ++ c.members)) = .ok c := by
  have target := present?_shown visualId c.members "variable" (by decide)
  have expression := present?_shown visualId c.members "expression" (by decide)
  rw [Content.ofJson, target, expression]
  cases c with
  | unknown type => exact ofJson_foreign (foreign type rfl) (.object [])
  | start | finish => rfl
  | declare v | input v =>
    cases v with
    | none => rfl
    | some v => simp [type, Json.text?, members, Option.filter_some, v.isPresent_toJson, v.ofJson_toJson, Except.map]
  | assign e | output e | conditional e =>
    cases e with
    | none => rfl
    | some e => simp [type, Json.text?, members, Option.filter_some, e.isPresent_toJson, e.ofJson_toJson, Except.map]

end Content

theorem Block.toJson_tidied (b : Block) : b.tidied.toJson = b.toJson := by
  simp [toJson, tidied, Option.filter_filter]

/-- A block that can be read comes back tidied. -/
theorem Block.ofJson_toJson {b : Block} (readable : b.IsReadable) : Block.ofJson b.toJson = .ok b.tidied := by
  have data : b.toJson.dataOf = .ok (.object (Content.shown b.visualId ++ b.content.members)) :=
    Json.dataOf_of_present? (by simp [toJson, Content.shown])
  have typed : b.toJson.blockType = .ok b.content.type := Json.blockType_of_get? (by simp [toJson]) readable
  have shown := Json.given?_of_get? (Content.get?_shown b.visualId b.content)
  have named : b.toJson.get? "id" = some (.text b.id) := by simp [toJson]
  have mentioned : b.toJson.mentions "id" = .ok true := by simp [Json.mentions, toJson]
  simp [Block.ofJson, mentioned, named, data, typed, b.content.ofJson_members b.visualId readable, shown, tidied,
    Json.display, bind, Except.bind, pure, Except.pure]

end Draft

/-- The id that an arrow is stored with. -/
def Arrow.storedId (a : Arrow) : Json :=
  (a.id.filter Json.isPresent).getD (.text ("e" ++ a.source ++ "-" ++ a.target))

theorem Arrow.isPresent_storedId (a : Arrow) : a.storedId.isPresent = true := by
  unfold storedId
  cases kept : a.id.filter Json.isPresent with
  | some id => exact (Option.filter_eq_some_iff.1 kept).2
  | none => simp [Json.isPresent]

/-- An arrow is stored with what its tidied form holds. The data are missing where the label is. -/
theorem Arrow.toJson_eq (a : Arrow) : a.toJson = .object (("id", a.storedId) :: ("source", .text a.source) ::
    ("target", .text a.target) ::
      (a.tidied.label.map fun s => ("data", Json.object [("conditionalLabel", .text s)])).toList) := rfl

theorem Arrow.toJson_tidied (a : Arrow) : a.tidied.toJson = a.toJson := by
  have named : a.tidied.storedId = a.storedId := by
    have kept : a.tidied.id = some a.storedId := rfl
    rw [storedId, kept, Option.filter_some, if_pos a.isPresent_storedId]
    rfl
  have labelled : a.tidied.tidied.label = a.tidied.label := by simp [tidied, Option.filter_filter]
  rw [toJson_eq, toJson_eq, named, labelled, source_tidied, target_tidied]

theorem Arrow.given?_id_toJson (a : Arrow) : a.toJson.given? "id" = a.tidied.id := by
  have kept : (some a.storedId).filter Json.isPresent = some a.storedId := by
    rw [Option.filter_some, if_pos a.isPresent_storedId]
  have named : a.tidied.id = some a.storedId := rfl
  have given : a.toJson.given? "id" = (some a.storedId).filter Json.isPresent :=
    Json.given?_of_get? (by simp [toJson_eq, kept])
  rw [given, kept, named]

theorem Arrow.dataOf_toJson {a : Arrow} (readable : a.IsReadable) : ∃ data, a.toJson.dataOf = .ok data ∧
    (data.given? "conditionalLabel").map (fun label => Text.lower label.display) = a.tidied.label := by
  have small (label : String) (labelled : a.tidied.label = some label) : Text.lower label = label :=
    readable label (Option.filter_eq_some_iff.1 labelled).1
  rw [toJson_eq]
  cases labelled : a.tidied.label with
  | none => exact ⟨.object [], rfl, rfl⟩
  | some label =>
    refine ⟨.object [("conditionalLabel", .text label)], rfl, ?_⟩
    simp [Json.given?, Json.display, small label labelled]

/-- An arrow that can be read comes back tidied. -/
theorem Arrow.ofJson_toJson {a : Arrow} (readable : a.IsReadable) : Arrow.ofJson a.toJson = .ok a.tidied := by
  obtain ⟨data, has, labelled⟩ := Arrow.dataOf_toJson readable
  have source : a.toJson.get? "source" = some (.text a.source) := by simp [toJson_eq]
  have target : a.toJson.get? "target" = some (.text a.target) := by simp [toJson_eq]
  have mentions {key : String} {datum : Json} (found : a.toJson.get? key = some datum) :
      a.toJson.mentions key = .ok true := by
    rw [toJson_eq] at found ⊢
    simp only [Json.mentions, found, Option.isSome_some]
  simp only [Arrow.ofJson, mentions source, mentions target, source, target, has, labelled, given?_id_toJson,
    Except.map]
  rfl

theorem Json.listed_of_get? {j : Json} {key : String} {items : List Json} (found : j.get? key = some (.list items)) :
    j.listed key = .ok items := by
  rw [Json.listed, Json.present?, found]
  cases items <;> rfl

theorem mapM_map_eq_ok {α β γ ε : Type} {write : α → β} {read : β → Except ε γ} {f : α → γ} {xs : List α}
    (each : ∀ x ∈ xs, read (write x) = .ok (f x)) : (xs.map write).mapM read = .ok (xs.map f) := by
  induction xs with
  | nil => rfl
  | cons x rest ih =>
    have others := ih fun y later => each y (List.mem_cons_of_mem _ later)
    rw [List.map_cons, List.mapM_cons, each x List.mem_cons_self, others]
    rfl

theorem exists_of_mapM_eq_ok {α β ε : Type} {read : α → Except ε β} {xs : List α} {ys : List β}
    (made : xs.mapM read = .ok ys) {y : β} (member : y ∈ ys) : ∃ x, read x = .ok y := by
  induction xs generalizing ys with
  | nil =>
    cases made
    cases member
  | cons x rest ih =>
    rw [List.mapM_cons] at made
    obtain ⟨first, here, made⟩ := bind_eq_ok made
    obtain ⟨others, later, made⟩ := bind_eq_ok made
    cases made
    rcases List.mem_cons.1 member with rfl | further
    · exact ⟨x, here⟩
    · exact ih later further

namespace Draft

/-- A diagram that was read can be read. -/
theorem isReadable_of_ofJson {j : Json} {g : Draft} (read : Draft.ofJson j = .ok g) : g.IsReadable := by
  unfold Draft.ofJson at read
  split at read
  · cases read
  obtain ⟨nodes, -, read⟩ := bind_eq_ok read
  obtain ⟨blocks, ofNodes, read⟩ := bind_eq_ok read
  obtain ⟨edges, -, read⟩ := bind_eq_ok read
  obtain ⟨arrows, ofEdges, read⟩ := bind_eq_ok read
  cases read
  constructor
  · intro b member
    obtain ⟨node, read⟩ := exists_of_mapM_eq_ok ofNodes member
    exact Block.isReadable_of_ofJson read
  · intro a member
    obtain ⟨edge, read⟩ := exists_of_mapM_eq_ok ofEdges member
    exact Arrow.isReadable_of_ofJson read

theorem ofJson_lists {nodes edges : List Json} {g : Draft} (ofNodes : nodes.mapM Block.ofJson = .ok g.blocks)
    (ofEdges : edges.mapM Arrow.ofJson = .ok g.arrows) :
    Draft.ofJson (.object [("nodes", .list nodes), ("edges", .list edges)]) = .ok g := by
  have blocks : (Json.object [("nodes", .list nodes), ("edges", .list edges)]).listed "nodes" = .ok nodes :=
    Json.listed_of_get? rfl
  have arrows : (Json.object [("nodes", .list nodes), ("edges", .list edges)]).listed "edges" = .ok edges :=
    Json.listed_of_get? rfl
  simp [Draft.ofJson, blocks, arrows, ofNodes, ofEdges, bind, Except.bind, pure, Except.pure]

/-- A diagram that can be read comes back tidied. -/
theorem ofJson_toJson {g : Draft} (readable : g.IsReadable) : Draft.ofJson g.toJson = .ok g.tidied :=
  ofJson_lists (mapM_map_eq_ok fun b member => Block.ofJson_toJson (readable.blocks b member))
    (mapM_map_eq_ok fun a member => Arrow.ofJson_toJson (readable.arrows a member))

/-- A tidied diagram is stored as the diagram is. -/
theorem toJson_tidied (g : Draft) : g.tidied.toJson = g.toJson := by
  simp [toJson, tidied, Function.comp_def, Block.toJson_tidied, Arrow.toJson_tidied]

theorem Block.meant_tidied (b : Block) : b.tidied.meant = b.meant.map Flowchart.Block.tidied := by
  rw [Block.meant, Block.meant]
  change b.content.meant.map _ = _
  cases b.content.meant <;> rfl

/-- What a tidied diagram means is tidied, and it means nothing where the diagram means nothing. -/
theorem meant_tidied (g : Draft) : g.tidied.meant = g.meant.map Diagram.tidied := by
  have blocks (bs : List Block) :
      (bs.map Block.tidied).mapM Block.meant = (bs.mapM Block.meant).map (List.map Flowchart.Block.tidied) := by
    induction bs with
    | nil => rfl
    | cons b rest ih =>
      rw [List.map_cons, List.mapM_cons, List.mapM_cons, Block.meant_tidied, ih]
      cases b.meant with
      | error e => rfl
      | ok block => cases rest.mapM Block.meant <;> rfl
  rw [meant, meant, tidied, blocks]
  cases g.blocks.mapM Block.meant <;> rfl

/-- The variable of the diagram below. -/
def counted : Variable :=
  ⟨.text "n", .text "n", .null, .scalar (.text "integer") (by decide)⟩

/-- A stored diagram with a number for an id, an empty visual id, an unknown type, a label in capitals, an empty
label, and arrows without ids. -/
def unkempt : Json :=
  .object [
    ("nodes", .list [
      .object [("id", .int 1), ("type", .text "Start"), ("data", .object [("visualId", .text "")])],
      .object [("id", .text "n"), ("type", .text "DeclareVariable"), ("data", .object [("variable", counted.toJson)])],
      .object [("id", .text "x"), ("type", .text "Comment")]]),
    ("edges", .list [
      .object [("source", .int 1), ("target", .text "n"), ("data", .object [("conditionalLabel", .text "YES")])],
      .object [("id", .int 0), ("source", .text "n"), ("target", .text "x"),
        ("data", .object [("conditionalLabel", .text "")])]])]

/-- The diagram that is read from it. -/
def combed : Draft where
  blocks := [⟨"1", some (.text ""), .start⟩, ⟨"n", none, .declare (some counted)⟩,
    ⟨"x", none, .unknown (.text "Comment")⟩]
  arrows := [⟨"1", "n", some "yes", none⟩, ⟨"n", "x", some "", some (.int 0)⟩]

theorem ofJson_unkempt : Draft.ofJson unkempt = .ok combed := by
  have declared : Block.ofJson (.object [("id", .text "n"), ("type", .text "DeclareVariable"),
      ("data", .object [("variable", counted.toJson)])]) = .ok ⟨"n", none, .declare (some counted)⟩ :=
    Block.ofJson_toJson (b := ⟨"n", none, .declare (some counted)⟩) fun type unknown => nomatch unknown
  have small : Text.lower "YES" = "yes" := by decide +kernel
  have labelled : Arrow.ofJson (.object [("source", .int 1), ("target", .text "n"),
      ("data", .object [("conditionalLabel", .text "YES")])]) = .ok ⟨"1", "n", some "yes", none⟩ := by
    rw [← small]
    rfl
  apply ofJson_lists
  · simp only [List.mapM_cons, declared]
    rfl
  · simp only [List.mapM_cons, labelled]
    rfl

/-- A stored diagram in which numbers stand for a value, for ids, for a name and for a subtype. -/
def numbered : Json :=
  .object [
    ("nodes", .list [
      .object [("id", .text "o"), ("type", .text "Output"), ("data", .object [("expression", .object [("rightSide",
        .list [.object [("id", .int 1), ("type", .text "literal"), ("value", .int 5)]])])])],
      .object [("id", .text "d"), ("type", .text "DeclareVariable"), ("data", .object [("variable", .object [
        ("id", .int 1), ("type", .text "array"), ("name", .int 2), ("nodeId", .text ""), ("arraySubtype", .int 5),
        ("arraySize", .int 3)])])]]),
    ("edges", .list [])]

/-- The diagram that is read from it. The numbers are kept. -/
def counting : Draft where
  blocks := [⟨"o", none, .output (some (.value [.literal (.int 1) (.int 5)]))⟩,
    ⟨"d", none, .declare (some ⟨.int 1, .int 2, .text "", .array (.int 5) rfl 3 (by decide) []⟩)⟩]
  arrows := []

theorem ofJson_numbered : Draft.ofJson numbered = .ok counting := by
  have reads (b : Block) (member : b ∈ counting.blocks) : Block.ofJson b.toJson = .ok b.tidied := by
    apply Block.ofJson_toJson
    intro type unknown
    simp only [counting, List.mem_cons, List.not_mem_nil, or_false] at member
    rcases member with rfl | rfl <;> cases unknown
  exact ofJson_lists (mapM_map_eq_ok reads) rfl

end Draft

/-! The same of diagrams in which everything is named by texts. -/

theorem Content.meant_draft (c : Content) : c.draft.meant = .ok c := by
  cases c with
  | declare v | input v =>
    cases v with
    | none => rfl
    | some v => simp [draft, Draft.Content.meant, Draft.partMeant, v.meant_draft, Except.map]
  | assign e | output e | conditional e =>
    cases e with
    | none => rfl
    | some e => simp [draft, Draft.Content.meant, Draft.partMeant, e.meant_draft, Except.map]
  | _ => rfl

theorem Diagram.meant_draft (d : Diagram) : d.draft.meant = .ok d := by
  have blocks : (d.blocks.map Block.draft).mapM Draft.Block.meant = .ok d.blocks := by
    have each (b : Block) : b.draft.meant = .ok b := by
      rw [Draft.Block.meant, Block.draft, Content.meant_draft]
      rfl
    simpa using mapM_map_eq_ok (f := id) fun b (_ : b ∈ d.blocks) => each b
  rw [Draft.meant, draft, blocks]
  rfl

/-- A diagram whose draft can be read comes back tidied. -/
theorem Diagram.ofJson_toJson {d : Diagram} (readable : d.draft.IsReadable) :
    Diagram.ofJson d.toJson = .ok d.tidied := by
  rw [Diagram.ofJson, Diagram.toJson, Draft.ofJson_toJson readable]
  change d.draft.tidied.meant = _
  rw [Draft.meant_tidied, d.meant_draft]
  rfl

end Flowchart
