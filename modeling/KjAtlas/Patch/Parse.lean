import KjAtlas.Domain.Schema
import KjAtlas.Patch.Op

/-! # Reading patches

Patches are read from values whose shape is not known. Cards are copied with
their `meta` and `ka` rebuilt, evidence links are rebuilt from the known
properties, and the other entities are copied as they are.
-/

namespace KjAtlas

open Js

/-! ## Reading the properties that the code relies on -/

def Card.ofProps? (props : Props) : Option Card :=
  match h : props.string? "id" with
  | some id => some ⟨props, id, h⟩
  | none => none

def Island.ofProps? (props : Props) : Option Island :=
  match h₁ : props.string? "id", h₂ : props.strings? "cardIds" with
  | some id, some cardIds => some ⟨props, id, cardIds, h₁, h₂⟩
  | _, _ => none

/-- `undefined`, `"card"` or `"island"`. -/
def endpointKind? : Option JsValue → Option (Option EdgeEndpointKind)
  | none => some none
  | some (.string s) =>
      if s = "card" then some (some .card)
      else if s = "island" then some (some .island)
      else none
  | some _ => none

theorem endpointKind?_eq_some {value : Option JsValue} {kind : Option EdgeEndpointKind} :
    endpointKind? value = some kind ↔ value = kind.map fun kind => .string kind.text := by
  constructor
  · intro hkind
    unfold endpointKind? at hkind
    split at hkind
    · rw [← Option.some.inj hkind]
      rfl
    · split at hkind
      next hs =>
        rw [← Option.some.inj hkind, hs]
        rfl
      next =>
        split at hkind
        next hs =>
          rw [← Option.some.inj hkind, hs]
          rfl
        next => contradiction
    · contradiction
  · rintro rfl
    cases kind with
    | none => rfl
    | some kind => cases kind <;> rfl

def Edge.ofProps? (props : Props) : Option Edge :=
  match h₁ : props.string? "id", h₂ : props.string? "fromId", h₃ : props.string? "toId",
    h₄ : endpointKind? (props.get "fromKind"), h₅ : endpointKind? (props.get "toKind") with
  | some id, some fromId, some toId, some fromKind, some toKind =>
      some ⟨props, id, fromId, toId, fromKind, toKind, h₁, h₂, h₃,
        endpointKind?_eq_some.mp h₄, endpointKind?_eq_some.mp h₅⟩
  | _, _, _, _, _ => none

def EvidenceLink.ofProps? (props : Props) : Option EvidenceLink :=
  match h₁ : props.string? "id", h₂ : props.string? "fromCardId",
    h₃ : props.string? "toCardId" with
  | some id, some fromCardId, some toCardId =>
      some ⟨props, id, fromCardId, toCardId, h₁, h₂, h₃⟩
  | _, _, _ => none

def RelationSummary.ofProps? (props : Props) : Option RelationSummary :=
  match h₁ : props.string? "sourceSignature", h₂ : props.strings? "groundingCardIds",
    h₃ : props.strings? "groundingEdgeIds" with
  | some sourceSignature, some groundingCardIds, some groundingEdgeIds =>
      some ⟨props, sourceSignature, groundingCardIds, groundingEdgeIds, h₁, h₂, h₃⟩
  | _, _, _ => none

variable {props : Props}

theorem Card.props_of_ofProps? {card : Card} (hcard : Card.ofProps? props = some card) :
    card.props = props := by
  unfold ofProps? at hcard
  split at hcard
  · cases hcard
    rfl
  · contradiction

theorem Island.props_of_ofProps? {island : Island} (hisland : Island.ofProps? props = some island) :
    island.props = props := by
  unfold ofProps? at hisland
  split at hisland
  · cases hisland
    rfl
  · contradiction

theorem Edge.props_of_ofProps? {edge : Edge} (hedge : Edge.ofProps? props = some edge) :
    edge.props = props := by
  unfold ofProps? at hedge
  split at hedge
  · cases hedge
    rfl
  · contradiction

theorem EvidenceLink.props_of_ofProps? {link : EvidenceLink}
    (hlink : EvidenceLink.ofProps? props = some link) : link.props = props := by
  unfold ofProps? at hlink
  split at hlink
  · cases hlink
    rfl
  · contradiction

theorem RelationSummary.props_of_ofProps? {summary : RelationSummary}
    (hsummary : RelationSummary.ofProps? props = some summary) : summary.props = props := by
  unfold ofProps? at hsummary
  split at hsummary
  · cases hsummary
    rfl
  · contradiction

/-! ## Entities -/

/-- `value.key === undefined || check(value.key)`. -/
def optionally (props : Props) (key : String) (check : JsValue → Bool) : Bool :=
  (props.get key).all check

def isString (value : JsValue) : Bool := value.string?.isSome

def isBoolean (value : JsValue) : Bool := value.bool?.isSome

def isStringArray (value : JsValue) : Bool := value.strings?.isSome

/-- `typeof value.key === "string" && value.key.length > 0 ? value.key : undefined`. -/
def nonEmptyText? (props : Props) (key : String) : Option JsValue :=
  match props.string? key with
  | some text => if text ≠ "" then some (.string text) else none
  | none => none

/-- The properties that have a value, as an object; nothing when none has. -/
def rebuild (fields : List (String × Option JsValue)) : Option JsValue :=
  if fields.all fun field => field.2.isNone then none
  else some (.object (fields.filter fun field => field.2.isSome))

def sanitizedMeta (props : Props) : Option JsValue :=
  rebuild [("seq", (props.get "seq").bind fun seq => seq.finite?.map .number),
    ("source", nonEmptyText? props "source")]

def sanitizedKa (props : Props) : Option JsValue :=
  rebuild [("voice", nonEmptyText? props "voice"), ("value", nonEmptyText? props "value")]

/-- Replace a property that is present by its sanitized form, at the end of the
object; drop it when nothing of it is left. -/
def sanitize (key : String) (sanitized : Props → Option JsValue) (card : Props) : Option Props :=
  match card.get key with
  | none => some card
  | some value =>
      if value.isRecord then
        let rest := card.filter fun prop => !decide (prop.1 = key)
        match sanitized value.props with
        | some value => some (rest ++ [(key, some value)])
        | none => some rest
      else none

def parseCard (value : JsValue) : Option Card :=
  let card := value.props
  if (card.string? "id").isSome && (card.string? "text").isSome &&
      ((card.get "x").bind JsValue.finite?).isSome &&
      ((card.get "y").bind JsValue.finite?).isSome &&
      optionally card "canonicalId" isString && optionally card "sources" isStringArray &&
      optionally card "critique" isString && optionally card "critiqueTags" isStringArray &&
      optionally card "textReviewed" isBoolean then
    ((sanitize "meta" sanitizedMeta card).bind (sanitize "ka" sanitizedKa)).bind Card.ofProps?
  else none

def parseEdge (value : JsValue) : Option Edge :=
  let edge := value.props
  if (edge.string? "id").isSome && (edge.string? "fromId").isSome &&
      (edge.string? "toId").isSome && (nonEmptyText? edge "type").isSome &&
      (endpointKind? (edge.get "fromKind")).isSome &&
      (endpointKind? (edge.get "toKind")).isSome then
    Edge.ofProps? edge
  else none

def parseIsland (value : JsValue) : Option Island :=
  let island := value.props
  if (island.string? "id").isSome && (island.strings? "cardIds").isSome &&
      optionally island "parentIslandId" isString && optionally island "placardCardId" isString &&
      optionally island "collapsed" isBoolean && optionally island "title" isString &&
      optionally island "titleReviewed" isBoolean && optionally island "summaryText" isString &&
      optionally island "summaryReviewed" isBoolean &&
      optionally island "summaryGrounding" isStringArray &&
      optionally island "imageUrl" isString && optionally island "imageReviewed" isBoolean &&
      optionally island "critique" isString && optionally island "critiqueTags" isStringArray &&
      optionally island "shapeStale" isBoolean then
    Island.ofProps? island
  else none

def parseRelationSummary (value : JsValue) : Option RelationSummary :=
  let summary := value.props
  if (summary.string? "id").isSome && (summary.string? "createdAt").isSome &&
      (summary.string? "islandAId").isSome && (summary.string? "islandBId").isSome &&
      (summary.string? "relationType").any (fun relationType =>
        decide (relationType = "unknown") || Schema.knownEdgeTypes.contains relationType) &&
      ((summary.get "derived").bind JsValue.bool?).isSome && (summary.string? "text").isSome &&
      ((summary.get "reviewed").bind JsValue.bool?).isSome &&
      (summary.strings? "groundingCardIds").isSome &&
      (summary.strings? "groundingEdgeIds").isSome &&
      (summary.string? "sourceSignature").isSome &&
      optionally summary "warnings" isStringArray then
    RelationSummary.ofProps? summary
  else none

def parseEvidenceLink (value : JsValue) : Option EvidenceLink :=
  let link := value.props
  match link.string? "id", link.string? "fromCardId", link.string? "toCardId",
    link.string? "type" with
  | some id, some fromCardId, some toCardId, some type =>
      if type ≠ "supports" ∧ type ≠ "contradicts" then none
      else if fromCardId = toCardId then none
      else EvidenceLink.ofProps? [("id", some (.string id)), ("type", some (.string type)),
        ("fromCardId", some (.string fromCardId)), ("toCardId", some (.string toCardId)),
        ("note", (link.string? "note").map .string),
        ("createdAt", (link.string? "createdAt").map .string)]
  | _, _, _, _ => none

/-! ## Patches -/

def parsePatchOp (item : JsValue) : Option PatchOp :=
  let op := item.props
  match op.string? "id", op.string? "kind" with
  | some id, some kind =>
      if kind = "upsert_card" then
        ((op.get "card").bind parseCard).map fun card => ⟨id, .upsertCard card⟩
      else if kind = "delete_card" then
        (op.string? "cardId").map fun cardId => ⟨id, .deleteCard cardId⟩
      else if kind = "upsert_island" then
        ((op.get "island").bind parseIsland).map fun island => ⟨id, .upsertIsland island⟩
      else if kind = "delete_island" then
        (op.string? "islandId").map fun islandId => ⟨id, .deleteIsland islandId⟩
      else if kind = "upsert_edge" then
        ((op.get "edge").bind parseEdge).map fun edge => ⟨id, .upsertEdge edge⟩
      else if kind = "delete_edge" then
        (op.string? "edgeId").map fun edgeId => ⟨id, .deleteEdge edgeId⟩
      else if kind = "upsert_relation_summary" then
        ((op.get "relationSummary").bind parseRelationSummary).map fun summary =>
          ⟨id, .upsertRelationSummary summary⟩
      else if kind = "delete_relation_summary" then
        (op.string? "sourceSignature").map fun sourceSignature =>
          ⟨id, .deleteRelationSummary sourceSignature⟩
      else if kind = "upsert_evidence_link" then
        ((op.get "evidenceLink").bind parseEvidenceLink).map fun link =>
          ⟨id, .upsertEvidenceLink link⟩
      else if kind = "delete_evidence_link" then
        (op.string? "evidenceLinkId").map fun linkId => ⟨id, .deleteEvidenceLink linkId⟩
      else none
  | _, _ => none

def parsePatchDocument (value : JsValue) : Option PatchV1 :=
  let patch := value.props
  if patch.get "kind" = some (.string "sui-sensemaking-patch") ∧
      patch.get "version" = some (.number .one) then
    match patch.get "ops" with
    | some (.array items) =>
        if optionally patch "author" isString && optionally patch "authorNote" isString &&
            optionally patch "sourceApp" isString &&
            optionally patch "patchFingerprint" isString &&
            optionally patch "patchId" isString then
          (items.mapM parsePatchOp).map fun ops => {
            baseDocSignature := some (patch.string? "baseDocSignature")
            author := some (patch.string? "author")
            authorNote := some (patch.string? "authorNote")
            sourceApp := some (patch.string? "sourceApp")
            patchFingerprint := some (patch.string? "patchFingerprint")
            patchId := some (patch.string? "patchId")
            ops }
        else none
    | _ => none
  else none

def OptionalText.toProps (name : String) (field : OptionalText) : Props :=
  field.toList.map fun text => (name, text.map .string)

def PatchV1.toProps (patch : PatchV1) : Props :=
  [("kind", some (.string "sui-sensemaking-patch")), ("version", some (.number .one))] ++
    OptionalText.toProps "baseDocSignature" patch.baseDocSignature ++
    OptionalText.toProps "author" patch.author ++
    OptionalText.toProps "authorNote" patch.authorNote ++
    OptionalText.toProps "sourceApp" patch.sourceApp ++
    OptionalText.toProps "patchFingerprint" patch.patchFingerprint ++
    OptionalText.toProps "patchId" patch.patchId ++
    [("ops", some (.array (patch.ops.map PatchOp.toJs)))]

def PatchV1.toJs (patch : PatchV1) : JsValue := .object patch.toProps

theorem PatchV1.nodup_names (patch : PatchV1) : (Props.names patch.toProps).Nodup := by
  have htext : ∀ name (field : OptionalText),
      (Props.names (field.toProps name)).Sublist [name] := by
    intro name field
    cases field with
    | none => exact List.nil_sublist _
    | some text => exact List.Sublist.refl _
  have hnames : (Props.names patch.toProps).Sublist (["kind", "version"] ++ ["baseDocSignature"] ++
      ["author"] ++ ["authorNote"] ++ ["sourceApp"] ++ ["patchFingerprint"] ++ ["patchId"] ++
      ["ops"]) := by
    simp only [toProps, Props.names, List.map_append]
    exact (((((((List.Sublist.refl _).append (htext _ _)).append (htext _ _)).append
      (htext _ _)).append (htext _ _)).append (htext _ _)).append (htext _ _)).append
      (List.Sublist.refl _)
  exact hnames.nodup (by decide)

end KjAtlas
