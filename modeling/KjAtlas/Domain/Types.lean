import KjAtlas.Foundation.KeyedStore
import KjAtlas.Foundation.Traverse
import KjAtlas.Js.Json

/-! # Documents and their entities

An entity is an object of the running program: its own properties, together
with the properties that the code reads without checking them. Other properties
of an entity are only copied and compared.
-/

namespace KjAtlas

open Js

/-! ## Entities -/

structure Card where
  props : Props
  id : String
  id_eq : props.string? "id" = some id
deriving DecidableEq

structure Island where
  props : Props
  id : String
  cardIds : List String
  id_eq : props.string? "id" = some id
  cardIds_eq : props.strings? "cardIds" = some cardIds
deriving DecidableEq

inductive EdgeEndpointKind where
  | card
  | island
deriving DecidableEq

def EdgeEndpointKind.text : EdgeEndpointKind → String
  | .card => "card"
  | .island => "island"

structure Edge where
  props : Props
  id : String
  fromId : String
  toId : String
  fromKind : Option EdgeEndpointKind
  toKind : Option EdgeEndpointKind
  id_eq : props.string? "id" = some id
  fromId_eq : props.string? "fromId" = some fromId
  toId_eq : props.string? "toId" = some toId
  fromKind_eq : props.get "fromKind" = fromKind.map fun kind => .string kind.text
  toKind_eq : props.get "toKind" = toKind.map fun kind => .string kind.text
deriving DecidableEq

/-- The type of a relation, a text. -/
def Edge.type (edge : Edge) : String := (edge.props.string? "type").getD ""

structure EvidenceLink where
  props : Props
  id : String
  fromCardId : String
  toCardId : String
  id_eq : props.string? "id" = some id
  fromCardId_eq : props.string? "fromCardId" = some fromCardId
  toCardId_eq : props.string? "toCardId" = some toCardId
deriving DecidableEq

def EvidenceLink.touches (link : EvidenceLink) (cardId : String) : Bool :=
  decide (link.fromCardId = cardId) || decide (link.toCardId = cardId)

/-- A relation summary. It is identified by its `sourceSignature`. -/
structure RelationSummary where
  props : Props
  sourceSignature : String
  groundingCardIds : List String
  groundingEdgeIds : List String
  sourceSignature_eq : props.string? "sourceSignature" = some sourceSignature
  groundingCardIds_eq : props.strings? "groundingCardIds" = some groundingCardIds
  groundingEdgeIds_eq : props.strings? "groundingEdgeIds" = some groundingEdgeIds
deriving DecidableEq

/-- The entries of `summary.history ?? []`. -/
def RelationSummary.history (summary : RelationSummary) : List Props :=
  match summary.props.get "history" with
  | some (.array entries) => entries.map JsValue.props
  | _ => []

def RelationSummary.historyIds (summary : RelationSummary) (key : String) : List String :=
  summary.history.flatMap fun entry => (entry.strings? key).getD []

/-! ## Entities of any kind -/

inductive EntityKind where
  | card
  | island
  | edge
  | relSummary
  | evidenceLink
deriving DecidableEq

def EntityKind.text : EntityKind → String
  | .card => "card"
  | .island => "island"
  | .edge => "edge"
  | .relSummary => "relSummary"
  | .evidenceLink => "evidenceLink"

/-- The identity of an entity within a document. -/
structure EntityKey where
  kind : EntityKind
  id : String
deriving DecidableEq

/-- The key as the program writes it, such as `card:a`. -/
def EntityKey.text (key : EntityKey) : String := key.kind.text ++ ":" ++ key.id

/-- A label without the separator is recovered from what it labels. -/
theorem separated_inj {separator : String} {mark : Char} {left right first second : String}
    (hmark : separator.toList = [mark]) (hleft : mark ∉ left.toList) (hright : mark ∉ right.toList)
    (heq : left ++ separator ++ first = right ++ separator ++ second) :
    left = right ∧ first = second := by
  have hlist := congrArg String.toList heq
  simp only [String.toList_append, List.append_assoc, hmark] at hlist
  obtain ⟨hlabel, hrest⟩ := append_cons_inj hleft hright hlist
  exact ⟨String.toList_inj.mp hlabel, String.toList_inj.mp hrest⟩

theorem labelled_inj {left right first second : String} (hleft : ':' ∉ left.toList)
    (hright : ':' ∉ right.toList) (heq : left ++ ":" ++ first = right ++ ":" ++ second) :
    left = right ∧ first = second :=
  separated_inj rfl hleft hright heq

theorem EntityKind.colon_not_mem_text (kind : EntityKind) : ':' ∉ kind.text.toList := by
  cases kind <;> decide

inductive Entity where
  | card (card : Card)
  | island (island : Island)
  | edge (edge : Edge)
  | relationSummary (summary : RelationSummary)
  | evidenceLink (link : EvidenceLink)
deriving DecidableEq

namespace Entity

def props : Entity → Props
  | .card value => value.props
  | .island value => value.props
  | .edge value => value.props
  | .relationSummary value => value.props
  | .evidenceLink value => value.props

def toJs (entity : Entity) : JsValue := .object entity.props

def key : Entity → EntityKey
  | .card value => ⟨.card, value.id⟩
  | .island value => ⟨.island, value.id⟩
  | .edge value => ⟨.edge, value.id⟩
  | .relationSummary value => ⟨.relSummary, value.sourceSignature⟩
  | .evidenceLink value => ⟨.evidenceLink, value.id⟩

def touches : Entity → String → Bool
  | .evidenceLink value, cardId => value.touches cardId
  | _, _ => false

end Entity

/-- An entity or `null`. -/
def entityValue (entity : Option Entity) : JsValue := (entity.map Entity.toJs).getD .null

/-! ## Documents -/

/-- A document. The properties that the modelled code neither reads nor
writes are kept in `rest`. -/
structure DocumentV1 where
  id : String
  updatedAt : String
  cards : List Card
  edges : List Edge
  islands : List Island
  readingOrder : Option (List String)
  relationSummaries : Option (List RelationSummary)
  evidenceLinks : Option (List EvidenceLink)
  rest : Props

namespace DocumentV1

/-- `doc.relationSummaries ?? []`. -/
def summaries (doc : DocumentV1) : List RelationSummary := doc.relationSummaries.getD []

/-- `doc.evidenceLinks ?? []`. -/
def links (doc : DocumentV1) : List EvidenceLink := doc.evidenceLinks.getD []

def lookup (doc : DocumentV1) (key : EntityKey) : Option Entity :=
  match key.kind with
  | .card => (findBy Card.id key.id doc.cards).map .card
  | .island => (findBy Island.id key.id doc.islands).map .island
  | .edge => (findBy Edge.id key.id doc.edges).map .edge
  | .relSummary =>
      (findBy RelationSummary.sourceSignature key.id doc.summaries).map .relationSummary
  | .evidenceLink => (findBy EvidenceLink.id key.id doc.links).map .evidenceLink

def ids (doc : DocumentV1) : EntityKind → List String
  | .card => doc.cards.map Card.id
  | .island => doc.islands.map Island.id
  | .edge => doc.edges.map Edge.id
  | .relSummary => doc.summaries.map RelationSummary.sourceSignature
  | .evidenceLink => doc.links.map EvidenceLink.id

/-- No two entities of a kind share an id. -/
def UniqueIds (doc : DocumentV1) : Prop := ∀ kind, (doc.ids kind).Nodup

def hasEndpoint (doc : DocumentV1) (kind : Option EdgeEndpointKind) (id : String) : Prop :=
  match kind.getD .card with
  | .card => ∃ card ∈ doc.cards, card.id = id
  | .island => ∃ island ∈ doc.islands, island.id = id

theorem lookup_key {doc : DocumentV1} {key : EntityKey} {entity : Entity}
    (hlookup : doc.lookup key = some entity) : entity.key = key := by
  obtain ⟨kind, id⟩ := key
  cases kind <;>
  · simp only [lookup, Option.map_eq_some_iff] at hlookup
    obtain ⟨item, hfind, rfl⟩ := hlookup
    simp only [Entity.key, (findBy_eq_some _ hfind).2]

end DocumentV1

/-! ## JSON round trips -/

def Card.json (card : Card) : Card := ⟨card.props.json, card.id, by simp [card.id_eq]⟩

def Island.json (island : Island) : Island :=
  ⟨island.props.json, island.id, island.cardIds, by simp [island.id_eq], by simp [island.cardIds_eq]⟩

theorem get_json_endpointKind {props : Props} {key : String} {kind : Option EdgeEndpointKind}
    (hkind : props.get key = kind.map fun kind => .string kind.text) :
    props.json.get key = kind.map fun kind => .string kind.text := by
  rw [Props.get_json, hkind]
  cases kind <;> rfl

def Edge.json (edge : Edge) : Edge where
  props := edge.props.json
  id := edge.id
  fromId := edge.fromId
  toId := edge.toId
  fromKind := edge.fromKind
  toKind := edge.toKind
  id_eq := by simp [edge.id_eq]
  fromId_eq := by simp [edge.fromId_eq]
  toId_eq := by simp [edge.toId_eq]
  fromKind_eq := get_json_endpointKind edge.fromKind_eq
  toKind_eq := get_json_endpointKind edge.toKind_eq

def EvidenceLink.json (link : EvidenceLink) : EvidenceLink where
  props := link.props.json
  id := link.id
  fromCardId := link.fromCardId
  toCardId := link.toCardId
  id_eq := by simp [link.id_eq]
  fromCardId_eq := by simp [link.fromCardId_eq]
  toCardId_eq := by simp [link.toCardId_eq]

def RelationSummary.json (summary : RelationSummary) : RelationSummary where
  props := summary.props.json
  sourceSignature := summary.sourceSignature
  groundingCardIds := summary.groundingCardIds
  groundingEdgeIds := summary.groundingEdgeIds
  sourceSignature_eq := by simp [summary.sourceSignature_eq]
  groundingCardIds_eq := by simp [summary.groundingCardIds_eq]
  groundingEdgeIds_eq := by simp [summary.groundingEdgeIds_eq]

def Entity.json : Entity → Entity
  | .card value => .card value.json
  | .island value => .island value.json
  | .edge value => .edge value.json
  | .relationSummary value => .relationSummary value.json
  | .evidenceLink value => .evidenceLink value.json

/-- A document after `JSON.parse(JSON.stringify(doc))`. -/
def DocumentV1.json (doc : DocumentV1) : DocumentV1 :=
  { doc with
    cards := doc.cards.map Card.json
    edges := doc.edges.map Edge.json
    islands := doc.islands.map Island.json
    relationSummaries := doc.relationSummaries.map fun summaries =>
      summaries.map RelationSummary.json
    evidenceLinks := doc.evidenceLinks.map fun links => links.map EvidenceLink.json
    rest := doc.rest.json }

theorem DocumentV1.lookup_json (doc : DocumentV1) (key : EntityKey) :
    doc.json.lookup key = (doc.lookup key).map Entity.json := by
  have hfind : ∀ {α : Type} (idOf : α → String) (json : α → α), (∀ item, idOf (json item) = idOf item) →
      ∀ items : List α, findBy idOf key.id (items.map json) =
        (findBy idOf key.id items).map json := by
    intro α idOf json hid items
    simp only [findBy, List.find?_map, Function.comp_def, hid]
  have hsummaries : doc.json.summaries = doc.summaries.map RelationSummary.json := by
    rw [summaries, summaries, json]
    cases doc.relationSummaries <;> rfl
  have hlinks : doc.json.links = doc.links.map EvidenceLink.json := by
    rw [links, links, json]
    cases doc.evidenceLinks <;> rfl
  unfold lookup
  cases key.kind with
  | relSummary =>
      simp only [hsummaries, hfind RelationSummary.sourceSignature RelationSummary.json fun _ => rfl]
      simp only [Option.map_map]
      rfl
  | evidenceLink =>
      simp only [hlinks, hfind EvidenceLink.id EvidenceLink.json fun _ => rfl]
      simp only [Option.map_map]
      rfl
  | card =>
      simp only [json, hfind Card.id Card.json fun _ => rfl, Option.map_map]
      rfl
  | island =>
      simp only [json, hfind Island.id Island.json fun _ => rfl, Option.map_map]
      rfl
  | edge =>
      simp only [json, hfind Edge.id Edge.json fun _ => rfl, Option.map_map]
      rfl

def Card.smallest (id text : String) : Card where
  props := [("id", some (.string id)), ("text", some (.string text)),
    ("x", some (.number .zero)), ("y", some (.number .zero))]
  id
  id_eq := by simp [Props.string?, Props.get_cons, JsValue.string?]

def Edge.smallest (id fromId toId type : String) : Edge where
  props := [("id", some (.string id)), ("fromId", some (.string fromId)),
    ("toId", some (.string toId)), ("type", some (.string type))]
  id
  fromId
  toId
  fromKind := none
  toKind := none
  id_eq := by simp [Props.string?, Props.get_cons, JsValue.string?]
  fromId_eq := by simp [Props.string?, Props.get_cons, JsValue.string?]
  toId_eq := by simp [Props.string?, Props.get_cons, JsValue.string?]
  fromKind_eq := by simp [Props.get_cons]
  toKind_eq := by simp [Props.get_cons]

def EvidenceLink.smallest (id fromCardId toCardId : String) : EvidenceLink where
  props := [("id", some (.string id)), ("type", some (.string "supports")),
    ("fromCardId", some (.string fromCardId)), ("toCardId", some (.string toCardId))]
  id
  fromCardId
  toCardId
  id_eq := by simp [Props.string?, Props.get_cons, JsValue.string?]
  fromCardId_eq := by simp [Props.string?, Props.get_cons, JsValue.string?]
  toCardId_eq := by simp [Props.string?, Props.get_cons, JsValue.string?]

def originView : JsValue := .object [("panX", some (.number .zero)),
  ("panY", some (.number .zero)), ("zoom", some (.number .one))]

def DocumentV1.smallest (cards : List Card) (links : List EvidenceLink) : DocumentV1 where
  id := "doc"
  updatedAt := "2026-01-01T00:00:00.000Z"
  cards
  edges := []
  islands := []
  readingOrder := none
  relationSummaries := none
  evidenceLinks := some links
  rest := [("createdAt", some (.string "2026-01-01T00:00:00.000Z")),
    ("transform", some originView)]

end KjAtlas
