import KjAtlas.Js.Shape
import KjAtlas.Shelf.Rules

/-! # Records of the review loop

Critiques, reproposals and the attribution of a review are checked by contracts
of their own. An import keeps the records that pass, as they are.
-/

namespace KjAtlas

open Js

/-! ## Texts -/

def afterWord (word : String) (text : Text) : Option Text :=
  if word.toList.isPrefixOf text then some (text.drop word.toList.length) else none

/-- What follows the white space at the start of a text, of which there is some. -/
def afterSpaces (text : Text) : Option Text :=
  if text.head?.any isWhiteSpace then some (text.dropWhile isWhiteSpace) else none

/-- `/^(card|island|cluster|edge|proposal):[^:\s][^\s]*$/.test(value)`. -/
def isA1TargetRef (value : Option JsValue) : Bool :=
  (value.bind JsValue.string?).any fun text =>
    ["card", "island", "cluster", "edge", "proposal"].any fun kind =>
      match afterWord (kind ++ ":") text.toList with
      | some (c :: rest) => c != ':' && (c :: rest).all fun c => !isWhiteSpace c
      | _ => false

/-- `/provider\s+user\s+id/` at the start of a text. -/
def startsWithProviderUserId (text : Text) : Bool :=
  (((((afterWord "provider" text).bind afterSpaces).bind (afterWord "user")).bind
    afterSpaces).bind (afterWord "id")).isSome

/-- `/@|external_uid|provider\s+user\s+id|provider_user_id/i.test(value)`. -/
def hasPiiLikeText (value : String) : Bool :=
  (value.toList.map Char.toLower).tails.any fun text =>
    (afterWord "@" text).isSome || (afterWord "external_uid" text).isSome ||
      startsWithProviderUserId text || (afterWord "provider_user_id" text).isSome

/-! ## Checks on properties -/

def hasPiiLikeIdentityFields (value : Props) : Bool :=
  ["provider", "external_uid", "email"].any value.hasOwn

def hasOnlyAllowedKeys (value : JsValue) (allowedKeys : List String) : Bool :=
  (objectKeys value).all allowedKeys.contains

/-- `Number.isInteger(value) && value >= 1`. -/
def isIteration : Option JsValue → Bool
  | some (.number n) => n.isInteger && !n.isBelowOne
  | _ => false

/-- `value === undefined || typeof value === "string"`. -/
def isOptionalString (value : Option JsValue) : Bool :=
  value.all fun value => value.string?.isSome

def isOneOf (texts : List String) (value : Option JsValue) : Bool :=
  value.any (Shape.literals texts)

def isPlainPayloadObject : Option JsValue → Bool
  | some (.object _) => true
  | _ => false

def hilRsCritiqueTypes : List String :=
  ["too_close", "too_far", "not_the_same", "feels_off", "no_articulable_reason"]

def hilRsDiffOpTypes : List String := ["add", "remove", "move", "regroup", "relabel"]

def hilRsReviewStates : List String := ["unreviewed", "human_reviewed"]

def hilRsCritiqueAllowedKeys : List String :=
  ["schemaVersion", "critiqueId", "targetRef", "critiqueType", "createdAt", "iteration", "comment",
    "constraintHints"]

def hilRsRediffAllowedKeys : List String :=
  ["schemaVersion", "proposalId", "basedOnIteration", "diffOps", "traceKey", "rationale"]

def hilRsDiffOpAllowedKeys : List String :=
  ["opId", "opType", "targetRef", "before", "after", "rationale"]

def hilRsReviewProtectedKeys : List String :=
  ["textReviewed", "reviewed", "reviewState", "reviewedAt", "reviewerRef", "reviewAttribution"]

def hilRsAttributionAllowedKeys : List String :=
  ["schemaVersion", "reviewState", "reviewedAt", "reviewerRef", "auditRecordedAt",
    "overridePolicy", "reviewContext", "ownerRef"]

/-- Whether a property at any depth has a protected name. -/
def hasReviewProtectedField : JsValue → Bool := JsValue.fold {
  null := false
  bool _ := false
  number _ := false
  string _ := false
  array items := items.any id
  object props := props.any fun prop =>
    hilRsReviewProtectedKeys.contains prop.1 || prop.2.getD false }

section Contracts

variable (dates : DateFormat)

def validateHilRsCritiqueInput (value : JsValue) : Bool :=
  let input := value.props
  value.isRecord && hasOnlyAllowedKeys value hilRsCritiqueAllowedKeys &&
    isOneOf ["1.0.0"] (input.get "schemaVersion") && isNonEmptyString (input.get "critiqueId") &&
    isA1TargetRef (input.get "targetRef") &&
    (isNonEmptyString (input.get "createdAt") && isIsoTimestamp dates (input.get "createdAt")) &&
    isIteration (input.get "iteration") && isOneOf hilRsCritiqueTypes (input.get "critiqueType") &&
    isOptionalString (input.get "comment") &&
    (input.get "constraintHints").all (Shape.array Shape.string) &&
    !(["reviewed", "reviewState", "reviewedAt", "reviewerRef"].any input.hasOwn) &&
    !hasPiiLikeIdentityFields input

/-- The check of an operation inside the loop of `validateHilRsRediffPayload`. -/
def validateHilRsDiffOp (op : JsValue) : Bool :=
  let parsed := op.props
  let before := parsed.get "before"
  let after := parsed.get "after"
  op.isRecord && hasOnlyAllowedKeys op hilRsDiffOpAllowedKeys &&
    isNonEmptyString (parsed.get "opId") && isOneOf hilRsDiffOpTypes (parsed.get "opType") &&
    isA1TargetRef (parsed.get "targetRef") && parsed.hasOwn "before" && parsed.hasOwn "after" &&
    !(decide (before = some .null) && decide (after = some .null)) &&
    (decide (before = some .null) || isPlainPayloadObject before) &&
    (decide (after = some .null) || isPlainPayloadObject after) &&
    !(before.any hasReviewProtectedField || after.any hasReviewProtectedField) &&
    isOptionalString (parsed.get "rationale")

def validateHilRsRediffPayload (value : JsValue) : Bool :=
  let payload := value.props
  value.isRecord && hasOnlyAllowedKeys value hilRsRediffAllowedKeys &&
    isOneOf ["1.0.0"] (payload.get "schemaVersion") &&
    isNonEmptyString (payload.get "proposalId") && isIteration (payload.get "basedOnIteration") &&
    isNonEmptyString (payload.get "traceKey") && isOptionalString (payload.get "rationale") &&
    match payload.get "diffOps" with
    | some (.array ops) => !ops.isEmpty && ops.all validateHilRsDiffOp
    | _ => false

def validateHilRsReviewAttribution (value : JsValue) : Bool :=
  let attribution := value.props
  let reviewedAt := attribution.get "reviewedAt"
  value.isRecord && hasOnlyAllowedKeys value hilRsAttributionAllowedKeys &&
    isOneOf ["1.0.0"] (attribution.get "schemaVersion") &&
    isOneOf hilRsReviewStates (attribution.get "reviewState") &&
    isNonEmptyString (attribution.get "reviewerRef") &&
    !((attribution.string? "reviewerRef").any hasPiiLikeText) &&
    (isNonEmptyString (attribution.get "auditRecordedAt") &&
      isIsoTimestamp dates (attribution.get "auditRecordedAt")) &&
    isOneOf ["human_dual_control_only"] (attribution.get "overridePolicy") &&
    isOptionalString (attribution.get "reviewContext") &&
    isOptionalString (attribution.get "ownerRef") &&
    !((attribution.string? "ownerRef").any hasPiiLikeText) &&
    reviewedAt.any (Shape.either Shape.string Shape.null) &&
    (decide (reviewedAt = some .null) || isIsoTimestamp dates reviewedAt) &&
    !(isOneOf ["human_reviewed"] (attribution.get "reviewState") &&
      !isNonEmptyString reviewedAt) &&
    !(isOneOf ["unreviewed"] (attribution.get "reviewState") && !decide (reviewedAt = some .null)) &&
    !hasPiiLikeIdentityFields attribution

end Contracts

end KjAtlas
