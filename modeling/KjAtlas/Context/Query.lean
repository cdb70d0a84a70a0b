import KjAtlas.Js.Json
import KjAtlas.Py.Json

/-! # Context queries

A query is drafted in the front end and sent as JSON. Both ends write it as a
canonical text and hash this text: the front end with the properties sorted by
`localeCompare`, the back end with the keys sorted by code points. The front end
compares the hash that comes back with its own.
-/

namespace KjAtlas.Context

open Js Py

/-! ## The front end -/

inductive Scope where
  | document
  | view
  | island

def Scope.text : Scope → String
  | .document => "document"
  | .view => "view"
  | .island => "island"

inductive ReviewFilter where
  | reviewedOnly
  | includeUnreviewed
deriving DecidableEq

def ReviewFilter.text : ReviewFilter → String
  | .reviewedOnly => "reviewedOnly"
  | .includeUnreviewed => "includeUnreviewed"

inductive OutputMode where
  | summary
  | proposal
  | candidate

def OutputMode.text : OutputMode → String
  | .summary => "summary"
  | .proposal => "proposal"
  | .candidate => "candidate"

/-- A draft. Its `safeModePolicy` is always `"strict"`. -/
structure ContextQueryDraft where
  queryId : String
  goal : String
  scope : Scope
  depth : JsNumber
  constraints : Props
  reviewFilter : ReviewFilter
  outputMode : OutputMode
  previewConfirmed : Bool

def ContextQueryDraft.toProps (draft : ContextQueryDraft) : Props :=
  [("queryId", some (.string draft.queryId)), ("goal", some (.string draft.goal)),
    ("scope", some (.string draft.scope.text)), ("depth", some (.number draft.depth)),
    ("constraints", some (.object draft.constraints)),
    ("reviewFilter", some (.string draft.reviewFilter.text)),
    ("safeModePolicy", some (.string "strict")),
    ("outputMode", some (.string draft.outputMode.text)),
    ("previewConfirmed", some (.bool draft.previewConfirmed))]

/-- The number of a property name that is an array index. -/
def arrayIndex? (key : String) : Option Nat :=
  let index := Nat.ofDigitChars 10 key.toList 0
  if key.toList = Nat.toDigits 10 index ∧ index < 2 ^ 32 - 1 then some index else none

/-- Array indices come first, in ascending order, before all other names. -/
def indexLe (left right : String) : Bool :=
  match arrayIndex? left, arrayIndex? right with
  | some m, some n => decide (m ≤ n)
  | some _, none => true
  | none, some _ => false
  | none, none => true

/-- The entries of an object in the order in which it enumerates them, from the order in which
they were added. -/
def enumerate {α : Type} (entries : List (String × α)) : List (String × α) :=
  Props.sort indexLe entries

/-- The entries of the object that `toStableValue` builds. -/
def stableEntries (lc : Collation) {α : Type} (entries : List (String × α)) : List (String × α) :=
  enumerate (Props.sort lc.le entries)

def toStableValue (lc : Collation) : JsValue → JsValue := JsValue.fold {
  null := .null
  bool := .bool
  number := .number
  string := .string
  array := .array
  object props := .object (stableEntries lc props) }

def toCanonicalQueryKey (lc : Collation) (draft : ContextQueryDraft) : Text :=
  render (toStableValue lc (.object draft.toProps))

/-- The SHA-256 of a text, in hexadecimal digits. -/
abbrev Sha256 : Type := Text → String

def toCanonicalQueryHash (lc : Collation) (sha256 : Sha256) (draft : ContextQueryDraft) : String :=
  sha256 (toCanonicalQueryKey lc draft)

/-- `n > 5`. -/
def isAboveFive : JsNumber → Bool
  | .finite value => !value.negative && (decide (1 < value.point) || decide (value.point = 1) &&
      (value.digits.head?.any (5 < ·) ||
        decide (value.digits.head? = some 5 ∧ 1 < value.digits.length)))
  | .nan => false
  | .infinity negative => !negative

/-- The blocker that `runMockContextIntegration` tells from the others. -/
def previewBlocker : String := "previewConfirmed must be true before submit"

/-- The `blockers` of `buildQueryPreviewState`; a draft without blockers can be submitted. -/
def previewBlockers (draft : ContextQueryDraft) : List String :=
  (if trim draft.queryId = "" then ["queryId is required"] else []) ++
  (if trim draft.goal = "" then ["goal is required"] else []) ++
  (if draft.depth.isNegative || isAboveFive draft.depth then
    ["depth must be between 0 and 5"] else []) ++
  (if draft.reviewFilter = .includeUnreviewed then
    ["safeMode strict requires reviewFilter=reviewedOnly"] else []) ++
  (if draft.previewConfirmed then [] else [previewBlocker])

def contextQueryV1Keys : List String :=
  ["queryId", "goal", "scope", "depth", "constraints", "reviewFilter", "safeModePolicy",
    "outputMode", "previewConfirmed"]

def contextBundleV1Keys : List String :=
  ["queryCanonicalHash", "bundleHash", "selected", "relations", "evidence", "contradictions",
    "reviewFlags", "truncationMeta", "excludedReason"]

/-- The names of an object that are not among the known ones, sorted. -/
def unknownKeys (lc : Collation) (known : List String) (props : Props) : List String :=
  sortOn lc.le id (props.names.filter fun key => !known.contains key)

def isArray : JsValue → Bool
  | .array _ => true
  | _ => false

def isNumber : JsValue → Bool
  | .number _ => true
  | _ => false

/-- An object that is neither `null` nor an array. -/
def isPlainObject : JsValue → Bool
  | .object _ => true
  | _ => false

def hasText (bundle : Props) (key : String) : Bool :=
  (bundle.string? key).any fun text => decide (text ≠ "")

/-- The number of a property of `reviewFlags`. -/
def hasCount (bundle : Props) (key : String) : Bool :=
  (((bundle.get "reviewFlags").bind fun flags => flags.props.get key)).any isNumber

def validateContextBundleV1 (lc : Collation) (bundle : Props) : List String :=
  let unknown := unknownKeys lc contextBundleV1Keys bundle
  (if unknown = [] then [] else ["unknown ContextBundleV1 keys: " ++ ", ".intercalate unknown]) ++
  (if hasText bundle "queryCanonicalHash" then []
    else ["queryCanonicalHash must be non-empty string"]) ++
  (if hasText bundle "bundleHash" then [] else ["bundleHash must be non-empty string"]) ++
  (["selected", "relations", "evidence", "contradictions"].flatMap fun key =>
    if (bundle.get key).any isArray then [] else [key ++ " must be array"]) ++
  (if hasCount bundle "reviewed" && hasCount bundle "unreviewed" then []
    else ["reviewFlags must include numeric reviewed/unreviewed"]) ++
  (if (bundle.get "truncationMeta").any isPlainObject then []
    else ["truncationMeta must be object"]) ++
  (if (bundle.strings? "excludedReason").isSome then [] else ["excludedReason must be string[]"])

inductive RunMockContextIntegrationResult where
  | unknownContractKey (unknownKeys : List String)
  | invalidBundleContract (invalidReasons : List String)
  | previewRequired (blockers : List String)
  | invalidQuery (blockers : List String)
  | nondeterministicBundle
  | canSubmit (queryCanonicalHash bundleHash sourceBundleHash : String)
      (excludedReason : List String)

/-- The integration with a server that answers with a bundle. -/
def runMockContextIntegration (lc : Collation) (sha256 : Sha256) (draft : ContextQueryDraft)
    (response : Props) : RunMockContextIntegrationResult :=
  let unknown := unknownKeys lc contextQueryV1Keys draft.toProps
  let blockers := previewBlockers draft
  let bundleErrors := validateContextBundleV1 lc response
  let queryCanonicalHash := toCanonicalQueryHash lc sha256 draft
  if unknown ≠ [] then .unknownContractKey unknown
  else if blockers ≠ [] then
    if previewBlocker ∈ blockers then .previewRequired blockers else .invalidQuery blockers
  else if bundleErrors ≠ [] then .invalidBundleContract bundleErrors
  else if response.string? "queryCanonicalHash" ≠ some queryCanonicalHash then
    .nondeterministicBundle
  else .canSubmit ((response.string? "queryCanonicalHash").getD "")
    ((response.string? "bundleHash").getD "") ((response.string? "bundleHash").getD "")
    ((response.strings? "excludedReason").getD [])

/-! ## The back end -/

variable {F : Type}

/-- A query as it is accepted. Its `safeModePolicy` is always `"strict"`. -/
structure ContextQuery (F : Type) where
  queryId : String
  goal : String
  scope : Scope
  depth : Int
  constraints : List (String × Json F)
  reviewFilter : ReviewFilter
  outputMode : OutputMode
  previewConfirmed : Bool

mutual

/-- How many values `_validate_context_constraints` visits. -/
def nodeCount : Json F → Nat
  | .list items => nodeCountItems items + 1
  | .dict members => nodeCountMembers members + 1
  | _ => 1

def nodeCountItems : List (Json F) → Nat
  | [] => 0
  | item :: items => nodeCount item + nodeCountItems items

def nodeCountMembers : List (String × Json F) → Nat
  | [] => 0
  | (_, value) :: members => nodeCount value + nodeCountMembers members

end

mutual

/-- The depth of the deepest value in a value. -/
def nesting : Json F → Nat
  | .list items => nestingItems items
  | .dict members => nestingMembers members
  | _ => 0

def nestingItems : List (Json F) → Nat
  | [] => 0
  | item :: items => max (nesting item + 1) (nestingItems items)

def nestingMembers : List (String × Json F) → Nat
  | [] => 0
  | (_, value) :: members => max (nesting value + 1) (nestingMembers members)

end

/-- The constraints have at most 1024 values, at most eight deep, and a text of at most 64 KiB. -/
def validateContextConstraints (floats : Floats F) (constraints : List (String × Json F)) : Bool :=
  decide (nodeCount (.dict constraints) ≤ 1024) && decide (nesting (.dict constraints) ≤ 8) &&
    (dumps floats (.dict constraints)).any fun text => decide ((utf8 text).length ≤ 64 * 1024)

def field? (members : List (String × Json F)) (key : String) : Option (Json F) :=
  (findBy Prod.fst key members).map Prod.snd

def strField? (members : List (String × Json F)) (key : String) : Option String :=
  match field? members key with
  | some (.str s) => some s
  | _ => none

def intField? (members : List (String × Json F)) (key : String) : Option Int :=
  match field? members key with
  | some (.int n) => some n
  | _ => none

def dictField? (members : List (String × Json F)) (key : String) :
    Option (List (String × Json F)) :=
  match field? members key with
  | some (.dict fields) => some fields
  | _ => none

def boolField? (members : List (String × Json F)) (key : String) : Option Bool :=
  match field? members key with
  | some (.bool b) => some b
  | some _ => none
  | none => some false

def Scope.ofText? : String → Option Scope
  | "document" => some .document
  | "view" => some .view
  | "island" => some .island
  | _ => none

def ReviewFilter.ofText? : String → Option ReviewFilter
  | "reviewedOnly" => some .reviewedOnly
  | "includeUnreviewed" => some .includeUnreviewed
  | _ => none

def OutputMode.ofText? : String → Option OutputMode
  | "summary" => some .summary
  | "proposal" => some .proposal
  | "candidate" => some .candidate
  | _ => none

/-- The query that a request is accepted as, with fields of the types that a draft has. -/
def ContextQuery.ofJson? (floats : Floats F) : Json F → Option (ContextQuery F)
  | .dict members => do
      guard (members.all fun member => contextQueryV1Keys.contains member.1)
      let queryId ← strField? members "queryId"
      guard (queryId ≠ "")
      let goal ← strField? members "goal"
      guard (goal ≠ "")
      let scope ← (strField? members "scope").bind Scope.ofText?
      let depth ← intField? members "depth"
      guard (0 ≤ depth ∧ depth ≤ 5)
      let constraints ← dictField? members "constraints"
      guard (validateContextConstraints floats constraints)
      let reviewFilter ← (strField? members "reviewFilter").bind ReviewFilter.ofText?
      guard (strField? members "safeModePolicy" = some "strict")
      let outputMode ← (strField? members "outputMode").bind OutputMode.ofText?
      let previewConfirmed ← boolField? members "previewConfirmed"
      return ⟨queryId, goal, scope, depth, constraints, reviewFilter, outputMode, previewConfirmed⟩
  | _ => none

mutual

def stableValue : Json F → Json F
  | .dict members => .dict (sortOn codePointLe Prod.fst (stableMembers members))
  | .list items => .list (stableItems items)
  | value => value

def stableItems : List (Json F) → List (Json F)
  | [] => []
  | item :: items => stableValue item :: stableItems items

def stableMembers : List (String × Json F) → List (String × Json F)
  | [] => []
  | (key, value) :: members => (key, stableValue value) :: stableMembers members

end

def canonicalQueryHashPayload (query : ContextQuery F) : Json F :=
  .dict [("queryId", .str query.queryId), ("goal", .str query.goal),
    ("scope", .str query.scope.text), ("depth", .int query.depth),
    ("constraints", stableValue (.dict query.constraints)),
    ("reviewFilter", .str query.reviewFilter.text), ("safeModePolicy", .str "strict"),
    ("outputMode", .str query.outputMode.text), ("previewConfirmed", .bool query.previewConfirmed)]

/-- The text that `_sha256_canonical` hashes. -/
def canonicalText (floats : Floats F) (payload : Json F) : Option Text := dumps floats payload

def sha256Canonical (floats : Floats F) (sha256 : Sha256) (payload : Json F) : Option String :=
  (canonicalText floats payload).map sha256

/-- A draft is sent as its JSON text, and accepted as a query. -/
def receive (floats : Floats F) (draft : ContextQueryDraft) : Option (ContextQuery F) := do
  let body ← loads floats (render (.object draft.toProps))
  ContextQuery.ofJson? floats body

end KjAtlas.Context
