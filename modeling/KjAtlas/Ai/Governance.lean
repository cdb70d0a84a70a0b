import KjAtlas.Ai.Provider
import KjAtlas.Ir.Build

/-! # What a request to a model must pass

The model of a request must be registered and active, with a provider that is
active, and one of those that the tenant allows. The texts of cards must be
reviewed, unless the request asks for a relaxation that the settings permit.
-/

namespace KjAtlas.Ai

open Ir (Runtime)

/-! ## Failures -/

/-- The detail of an `HTTPException`. -/
inductive Detail where
  | text (message : String)
  | coded (code message : String)
  | modelNotAllowed (message : String) (allowedModels : List String)
  | provider (error : ProviderError)

/-- What ends a request without a response. -/
inductive Raised where
  | http (statusCode : Nat) (detail : Detail)
  /-- An exception that no route expects. -/
  | uncaught (exception : String)

/-- A route, up to the calls of `generate`. -/
abbrev Route (α : Type) : Type := Asking Dispatch Answer Raised α

/-- `_raise_llm_http_error`. -/
def llmHttpError : ProviderError → Raised
  | .disabled message metadata => .http 503 (.provider (.disabled message metadata))
  | .request message metadata code =>
      .http (match code with
        | .providerTimeout => 504
        | .providerValidation => 422
        | .providerUnavailable => 503) (.provider (.request message metadata code))

/-- An `IRGenerationError` as a response. -/
def irError (error : IRGenerationError) : Raised := .http 422 (.coded error.code error.message)

/-! ## The registry -/

structure LLMProviderRegistryRow where
  id : String
  providerKind : String
  baseUrl : Option String
  apiKeyRef : Option String
  lifecycleState : String

structure LLMModelRegistryRow where
  id : String
  providerId : String
  lifecycleState : String

structure TenantModelAllowlistRow where
  tenantId : String
  modelId : String
  lifecycleState : String

/-- The tables of providers and models, whose keys are their ids, and the allowlist. -/
structure Registry where
  providers : List LLMProviderRegistryRow
  models : List LLMModelRegistryRow
  allowlist : List TenantModelAllowlistRow
  nodup_providers : (providers.map LLMProviderRegistryRow.id).Nodup
  nodup_models : (models.map LLMModelRegistryRow.id).Nodup

/-- `list_tenant_allowed_model_ids`. -/
def Registry.allowedModelIds (registry : Registry) (tenantId : String) : List String :=
  distinct ((registry.allowlist.filter fun row =>
    decide (row.tenantId = tenantId) && decide (row.lifecycleState = "active")).map
      TenantModelAllowlistRow.modelId)

def Registry.activeProviders (registry : Registry) : List LLMProviderRegistryRow :=
  registry.providers.filter fun row => decide (row.lifecycleState = "active")

def Registry.activeModel (registry : Registry) (modelId : String) :
    Option (LLMModelRegistryRow × LLMProviderRegistryRow) := do
  let model ← registry.models.find? fun row =>
    decide (row.id = modelId) && decide (row.lifecycleState = "active")
  let provider ← registry.activeProviders.find? fun row => decide (row.id = model.providerId)
  return (model, provider)

def registeredConfig (model : LLMModelRegistryRow) (provider : LLMProviderRegistryRow) :
    RegisteredProviderConfig where
  providerId := provider.id
  providerKind := provider.providerKind
  baseUrl := provider.baseUrl
  apiKeyRef := provider.apiKeyRef
  modelId := model.id

/-! ## The server -/

/-- `ExternalProposalReference`. -/
structure ExternalProposalReference where
  proposalId : String
  sourceBundleHash : String

/-- What the routes find on the server. The tenant is that of the request, which can be refused, as
can be an access to a document; references to proposals and documents are looked up, and proposals
written, in the database. A text is read by `json.loads`, or else an exception is raised. -/
structure Server (F : Type) where
  platform : Platform
  settings : Settings
  runtime : Runtime F
  loads : Py.Str → Except String (Py.Value F)
  /-- `str(value)` of a value that is no text. -/
  str : Py.Value F → String
  /-- `f"{value:.2f}"`. -/
  twoDecimals : F → String
  /-- `float(value)`, which fails for an integer that is too large. -/
  floatOfInt : Int → Option F
  /-- What a field of type `int` takes for its value, and one of type `float`. -/
  intField : Py.Value F → Option Int
  floatField : Py.Value F → Option F
  /-- `str(uuid4())`. -/
  newId : String
  registry : Registry
  tenant : Except Raised String
  /-- The tenant of a request that may write a document. -/
  authorizeWrite : String → Except Raised String
  hasDocument : String → String → Bool
  validateProposal : ExternalProposalReference → String → Except Raised Unit
  holdProposal : ExternalProposalReference → String → Except Raised Unit
  registerProposal : String → String → Except Raised Unit

variable {F : Type} (server : Server F)

/-- `_assert_model_allowed`. -/
def assertModelAllowed (modelId : String) : Except Raised RegisteredProviderConfig := do
  let tenantId ← server.tenant
  let effective := server.registry.allowedModelIds tenantId
  ensure (effective = [] ∨ modelId ∈ effective)
    (.http 403 (.modelNotAllowed
      ("Model '" ++ modelId ++ "' is not in the tenant's allowed model set.")
      (sortOn codePointLe (fun id => id) effective)))
  let (model, provider) ← found
    (.http 403 (.coded "model_not_registered"
      ("Model '" ++ modelId ++ "' is not an active registered model.")))
    (server.registry.activeModel modelId)
  let config := registeredConfig model provider
  match buildRegisteredProvider server.platform server.settings config with
  | .ok _ => return config
  | .error _ => .error (.http 503 (.coded "model_provider_unavailable"
      "The model's registered provider is not available in this runtime."))

def generate (request : LLMRequest) : Asking Dispatch Answer ProviderError LLMResponse :=
  generateWithFallback server.platform server.settings request

/-- A provider is asked, and a failure of it ends the request. -/
def generateOrRaise (request : LLMRequest) : Route LLMResponse :=
  (generate server request).andThen fun result => .done (result.mapError llmHttpError)

def requestedModel (model : Option String) (task : String) : String :=
  (nonEmpty model).getD (resolveModelForTask server.platform server.settings task none)

/-- The model is checked, and asked through its registration. -/
def generateChecked (modelId : String) (request : LLMRequest) : Route LLMResponse := do
  let config ← assertModelAllowed server modelId
  generateOrRaise server
    { request with model := some modelId, registeredProvider := some config }

/-! ## Final judgements -/

/-- A proposal that the request names is held where a check of the model fails. -/
def governanceFailureCodes : List String :=
  ["model_not_allowed", "model_not_registered", "model_provider_unavailable"]

def Raised.isGovernanceFailure : Raised → Bool
  | .http _ (.coded code _) => governanceFailureCodes.contains code
  | .http _ (.modelNotAllowed _ _) => true
  | _ => false

/-- The failures of a provider that hold a proposal. -/
def ProviderError.isUnavailability : ProviderError → Bool
  | .disabled _ _ => true
  | .request _ _ code => decide (code ≠ .providerValidation)

def holdThenRaise {α : Type} (ref : Option ExternalProposalReference) (docId : String)
    (holds : Bool) (error : Raised) : Except Raised α := do
  match ref with
  | none => .error error
  | some ref =>
      if holds then server.holdProposal ref docId
      .error error

theorem holdThenRaise_ne_ok {server : Server F} {α : Type} {ref : Option ExternalProposalReference} {docId : String}
    {holds : Bool} {error : Raised} {value : α} :
    holdThenRaise server ref docId holds error ≠ .ok value := by
  intro hok
  unfold holdThenRaise at hok
  cases ref with
  | none => cases hok
  | some ref =>
      dsimp only at hok
      split at hok
      · obtain ⟨-, -, hok⟩ := bind_eq_ok.mp hok
        cases hok
      · cases hok

/-- The model of a task is asked for a final judgement. Where it cannot be asked, the proposal that
is named is held. -/
def finalJudgement (ref : Option ExternalProposalReference) (docId task : String)
    (prompt : Prompt) : Route LLMResponse := do
  let modelId := resolveModelForTask server.platform server.settings task none
  let config ← (assertModelAllowed server modelId).tryCatch fun error =>
    holdThenRaise server ref docId error.isGovernanceFailure error
  (generate server
    { task
      prompt
      model := some modelId
      registeredProvider := some config }).andThen fun result =>
    match result with
    | .ok response => .done (.ok response)
    | .error error => .done
        (holdThenRaise server ref docId error.isUnavailability (llmHttpError error))

/-- The relaxation is requested and permitted. -/
def IsRelaxed (allowUnreviewedText : Option Bool) : Prop :=
  allowUnreviewedText = some true ∧ server.settings.allowUnreviewedAiText = true

instance (allowUnreviewedText : Option Bool) : Decidable (IsRelaxed server allowUnreviewedText) :=
  inferInstanceAs (Decidable (_ ∧ _))

/-- `_reject_unreviewed_text`. -/
def rejectUnreviewedText (cards : List (Ir.Card F)) (allowUnreviewedText : Option Bool) :
    Except Raised Unit :=
  ensure (IsRelaxed server allowUnreviewedText ∨ ∀ card ∈ cards, card.textReviewed = some true)
    (.http 422 (.coded "unreviewed_text_not_allowed"
      "Document contains unreviewed card text, which cannot be sent to the LLM under SafeMode."))

/-- `_reject_unreviewed_cards`, for the flags of the cards of the request. -/
def rejectUnreviewedCards (textReviewed : List Bool) (allowUnreviewedText : Option Bool) :
    Except Raised Unit :=
  ensure (IsRelaxed server allowUnreviewedText ∨ ∀ reviewed ∈ textReviewed, reviewed = true)
    (.http 422 (.coded "unreviewed_text_not_allowed"
      "Request contains unreviewed card text, which cannot be sent to the LLM under SafeMode."))

/-- `_CardRef`. -/
structure CardRef where
  id : String
  text : String
  textReviewed : Bool

def CardRef.toSource (card : CardRef) : Ir.SourceCard F where
  id := card.id
  text := card.text
  textReviewed := some card.textReviewed
  x := none
  y := none
  holdState := none

/-- The source of a projection without a document. -/
def bareSource (cards : List (Ir.SourceCard F)) : Ir.IRSource F where
  docId := ""
  docVersion := 1
  cards := cards
  relations := []
  islands := []
  evidenceLinks := []
  createdAt := none
  updatedAt := none

def requestSource (doc : Option (Ir.DocumentV1 F)) (cards : List CardRef) : Ir.IRSource F :=
  match doc with
  | none => bareSource (cards.map CardRef.toSource)
  | some doc =>
      let source := Ir.sourceFromDocument doc
      let known := source.cards.map Ir.SourceCard.id
      { source with
        cards := source.cards ++ (cards.filter fun card => card.id ∉ known).map CardRef.toSource }

/-- A link between two cards, in either direction. -/
def IsBetween (fromCardId toCardId cardAId cardBId : String) : Prop :=
  (fromCardId = cardAId ∧ toCardId = cardBId) ∨ (fromCardId = cardBId ∧ toCardId = cardAId)

instance (fromCardId toCardId cardAId cardBId : String) :
    Decidable (IsBetween fromCardId toCardId cardAId cardBId) :=
  inferInstanceAs (Decidable (_ ∨ _))

end KjAtlas.Ai
