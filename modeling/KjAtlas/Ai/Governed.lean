import KjAtlas.Ai.HumanDecisions
import KjAtlas.Ai.Merges
import KjAtlas.Ai.Narrative
import KjAtlas.Ai.IslandSummary

/-! # Governed calls

A route whose request or task names a model asks it through its registration
only. Three routes have no model: they ask the provider of the settings, whatever
the registry and the tenant say.
-/

namespace KjAtlas.Ai

variable {F : Type} {server : Server F}

/-- A call of a route that asks a model. -/
inductive Call (F : Type) where
  | suggestLayout (payload : SuggestLayoutRequest F)
  | suggestMerges (payload : SuggestMergesRequest F)
  | suggestIslandSummary (payload : SuggestIslandSummaryRequest F)
  | proposeIslandSummary (payload : ProposeIslandSummaryRequest F)
  | proposeOpposingViewpoint (payload : ProposeOpposingViewpointRequest F)
  | generateNarrative (payload : GenerateNarrativeRequest F)
  | checkNarrative (payload : CheckNarrativeRequest F)
  | summarizeIslandRelation (payload : SummarizeIslandRelationRequest F)
  | suggestCardGroups (payload : SuggestCardGroupsRequest F)
  | detectContradiction (payload : DetectContradictionRequest F)
  | refineCardText (payload : RefineCardTextRequest)
  | suggestDocumentTitle (payload : SuggestDocumentTitleRequest)

namespace Call

/-- Every call of `generate` has a property, whatever the providers answer. -/
def Asks (server : Server F) (P : Dispatch → Prop) : Call F → Prop
  | .suggestLayout payload => (Ai.suggestLayout server payload).Asks P
  | .suggestMerges payload => (Ai.suggestMerges server payload).Asks P
  | .suggestIslandSummary payload => (Ai.suggestIslandSummary server payload).Asks P
  | .proposeIslandSummary payload => (Ai.proposeIslandSummary server payload).Asks P
  | .proposeOpposingViewpoint payload => (Ai.proposeOpposingViewpoint server payload).Asks P
  | .generateNarrative payload => (Ai.generateNarrative server payload).Asks P
  | .checkNarrative payload => (Ai.checkNarrative server payload).Asks P
  | .summarizeIslandRelation payload => (Ai.summarizeIslandRelation server payload).Asks P
  | .suggestCardGroups payload => (Ai.suggestCardGroups server payload).Asks P
  | .detectContradiction payload => (Ai.detectContradiction server payload).Asks P
  | .refineCardText payload => (Ai.refineCardText server payload).Asks P
  | .suggestDocumentTitle payload => (Ai.suggestDocumentTitle server payload).Asks P

end Call

/-- The model id that `generate` sends, where the provider has a destination and may use it. -/
def Provider.sentModel (p : Platform) (settings : Settings) (request : LLMRequest) :
    Provider → Option String
  | .none => Option.none
  | .local =>
      (nonEmpty settings.localLlmBaseUrl).map fun _ =>
        resolveModelForTask p settings request.task request.model
  | .largeScale => do
      let baseUrl ← nonEmpty settings.largeScaleLlmBaseUrl
      let model ← nonEmpty settings.largeScaleLlmModel
      guard (settings.llmLargeScaleOptIn = true ∧ settings.llmEscalationEnabled = true)
      guard (endpointHost p baseUrl ≠ "" ∧
        endpointHost p baseUrl ∈ normalizeAllowlist p settings.largeScaleLlmAllowlist)
      return model
  | .deepSeek =>
      (nonEmpty settings.deepseekApiKey).map fun _ =>
        let model := resolveModelForTask p settings request.task request.model
        if some model = settings.localLlmModel ∨ model = "default" then settings.deepseekModel
        else model
  | .registeredHttp config _ =>
      (nonEmpty config.baseUrl).bind fun _ => nonEmpty (some config.modelId)
  | .registeredDeepSeek config _ => (nonEmpty config.baseUrl).map fun _ => config.modelId

/-! ## Governance -/

/-- A model may be asked, and the transport is that of its registration. -/
structure IsGoverned (server : Server F) (modelId : String) (transport : Provider) : Prop where
  allowed : ∀ tenantId, server.tenant = .ok tenantId →
    server.registry.allowedModelIds tenantId = [] ∨
      modelId ∈ server.registry.allowedModelIds tenantId
  registered : ∃ model ∈ server.registry.models, ∃ provider ∈ server.registry.providers,
    model.id = modelId ∧ model.lifecycleState = "active" ∧
      provider.id = model.providerId ∧ provider.lifecycleState = "active" ∧
        buildRegisteredProvider server.platform server.settings (registeredConfig model provider) =
          .ok transport

/-- What is sent, if anything, goes to a governed model. -/
def Governed (server : Server F) (dispatch : Dispatch) : Prop :=
  ∀ modelId ∈ dispatch.provider.sentModel server.platform server.settings dispatch.request,
    IsGoverned server modelId dispatch.provider

/-- The provider of the settings is asked, without a model and without a registration. -/
def SentBySettings (server : Server F) (dispatch : Dispatch) : Prop :=
  getProvider server.platform server.settings = .ok dispatch.provider ∧
    dispatch.request.model = none ∧ dispatch.request.registeredProvider = none

variable {config : RegisteredProviderConfig} {modelId : String} {request : LLMRequest}
  {P : Dispatch → Prop} {provider : Provider} {ref : Option ExternalProposalReference}

theorem sentModel_of_build {p : Platform} {settings : Settings}
    (hbuild : buildRegisteredProvider p settings config = .ok provider)
    (hsent : provider.sentModel p settings request = some modelId) : modelId = config.modelId := by
  unfold buildRegisteredProvider at hbuild
  obtain ⟨⟨⟩, -, hbuild⟩ := bind_eq_ok.mp hbuild
  obtain ⟨baseUrl, -, hbuild⟩ := bind_eq_ok.mp hbuild
  obtain ⟨⟨⟩, -, hbuild⟩ := bind_eq_ok.mp hbuild
  split at hbuild
  next =>
    obtain ⟨apiKey, -, hbuild⟩ := bind_eq_ok.mp hbuild
    cases hbuild
    obtain ⟨url, -, hmodel⟩ := Option.map_eq_some_iff.mp hsent
    exact hmodel.symm
  next =>
    have hprovider : provider = .registeredHttp { config with baseUrl := some baseUrl }
        (canonicalRegisteredProviderKind p config.providerKind) := by
      split at hbuild
      · obtain ⟨⟨⟩, -, hbuild⟩ := bind_eq_ok.mp hbuild
        cases hbuild
        rfl
      · cases hbuild
        rfl
    subst hprovider
    obtain ⟨url, -, hmodel⟩ := Option.bind_eq_some_iff.mp hsent
    exact (Option.some.inj (Option.filter_eq_some_iff.mp hmodel).1).symm

theorem assertModelAllowed_spec (hassert : assertModelAllowed server modelId = .ok config) :
    ∃ model ∈ server.registry.models, ∃ provider ∈ server.registry.providers,
      model.id = modelId ∧ model.lifecycleState = "active" ∧ provider.id = model.providerId ∧
        provider.lifecycleState = "active" ∧ registeredConfig model provider = config ∧
          ∀ tenantId, server.tenant = .ok tenantId →
            server.registry.allowedModelIds tenantId = [] ∨
              modelId ∈ server.registry.allowedModelIds tenantId := by
  unfold assertModelAllowed at hassert
  obtain ⟨tenantId, htenant, hassert⟩ := bind_eq_ok.mp hassert
  obtain ⟨⟨⟩, hallowed, hassert⟩ := bind_eq_ok.mp hassert
  obtain ⟨⟨model, provider⟩, hactive, hassert⟩ := bind_eq_ok.mp hassert
  have hconfig : registeredConfig model provider = config := by
    dsimp only at hassert
    split at hassert
    · cases hassert
      rfl
    · cases hassert
  rw [found_eq_ok, Registry.activeModel] at hactive
  obtain ⟨row, hrow, hactive⟩ := Option.bind_eq_some_iff.mp hactive
  obtain ⟨owner, howner, hactive⟩ := Option.bind_eq_some_iff.mp hactive
  cases hactive
  have hmodel := List.find?_some hrow
  rw [Bool.and_eq_true, decide_eq_true_eq, decide_eq_true_eq] at hmodel
  have howns := List.find?_some howner
  obtain ⟨hprovider, hlifecycle⟩ := List.mem_filter.mp (List.mem_of_find?_eq_some howner)
  refine ⟨_, List.mem_of_find?_eq_some hrow, _, hprovider, hmodel.1, hmodel.2,
    of_decide_eq_true howns, of_decide_eq_true hlifecycle, hconfig, ?_⟩
  intro other hother
  rw [htenant] at hother
  cases hother
  exact ensure_eq_ok.mp hallowed

/-- A checked model is asked through its registration. -/
theorem governed_of_assert (hassert : assertModelAllowed server modelId = .ok config)
    (hbuild : buildRegisteredProvider server.platform server.settings config = .ok provider)
    (request : LLMRequest) : Governed server ⟨provider, request⟩ := by
  intro sent hsent
  obtain ⟨model, hmodel, owner, howner, hid, hactive, howns, hownerActive, hconfig, hallowed⟩ :=
    assertModelAllowed_spec hassert
  have heq : sent = modelId := by
    rw [sentModel_of_build hbuild hsent, ← hconfig]
    exact hid
  rw [heq]
  refine ⟨hallowed, model, hmodel, owner, howner, hid, hactive, howns, hownerActive, ?_⟩
  rw [hconfig]
  exact hbuild

/-! ## What is asked -/

theorem asks_generate :
    (generate server request).Asks P ↔
      ∀ provider, requestProvider server.platform server.settings request = .ok provider →
        P ⟨provider, request⟩ := by
  unfold generate generateWithFallback
  rw [Asking.asks_lift_bind]
  apply forall_congr'
  intro provider
  apply imp_congr_right
  intro _
  rw [Asking.asks_bind]
  constructor
  · rintro ⟨hquestion, -⟩
    exact hquestion.1
  · intro hdispatch
    refine ⟨⟨hdispatch, fun _ => trivial⟩, ?_⟩
    intro answer _
    cases answer with
    | ok response => trivial
    | error error => trivial

theorem asks_generateOrRaise :
    (generateOrRaise server request).Asks P ↔
      ∀ provider, requestProvider server.platform server.settings request = .ok provider →
        P ⟨provider, request⟩ := by
  unfold generateOrRaise
  rw [Asking.asks_andThen, asks_generate]
  exact and_iff_left fun _ _ => trivial

theorem asks_sentBySettings (hmodel : request.model = none)
    (hregistered : request.registeredProvider = none) :
    (generateOrRaise server request).Asks (SentBySettings server) := by
  rw [asks_generateOrRaise]
  intro provider hprovider
  rw [requestProvider, hregistered] at hprovider
  exact ⟨hprovider, hmodel, hregistered⟩

theorem asks_generateChecked : (generateChecked server modelId request).Asks (Governed server) := by
  unfold generateChecked
  rw [Asking.asks_lift_bind]
  intro config hassert
  rw [asks_generateOrRaise]
  intro provider hprovider
  exact governed_of_assert hassert hprovider _

theorem assertModelAllowed_of_tryCatch {docId : String}
    (hcatch : (assertModelAllowed server modelId).tryCatch (fun error =>
      holdThenRaise server ref docId error.isGovernanceFailure error) = .ok config) :
    assertModelAllowed server modelId = .ok config := by
  cases hassert : assertModelAllowed server modelId with
  | ok found =>
      rw [hassert] at hcatch
      exact hcatch
  | error error =>
      rw [hassert] at hcatch
      exact absurd hcatch holdThenRaise_ne_ok

theorem asks_finalJudgement {docId task : String} {prompt : Prompt} :
    (finalJudgement server ref docId task prompt).Asks (Governed server) := by
  unfold finalJudgement
  rw [Asking.asks_lift_bind]
  intro config hcatch
  rw [Asking.asks_andThen, asks_generate]
  constructor
  · intro provider hprovider
    exact governed_of_assert (assertModelAllowed_of_tryCatch hcatch) hprovider _
  · intro result _
    cases result with
    | ok response => trivial
    | error error => trivial

/-! ## What each route asks -/

theorem asks_route {α β γ : Type} {prepare : Except Raised α} {ask : α → Route β}
    {read : α → β → Route γ} (hask : ∀ request, prepare = .ok request → (ask request).Asks P)
    (hread : ∀ request response, (read request response).Asks P) :
    (liftM prepare >>= fun request => ask request >>= read request : Route γ).Asks P := by
  rw [Asking.asks_lift_bind]
  intro request hprepare
  exact Asking.asks_bind_of (hask request hprepare) (hread request)

theorem asks_suggestLayout (payload : SuggestLayoutRequest F) :
    (suggestLayout server payload).Asks (SentBySettings server) := by
  unfold suggestLayout
  refine asks_route (fun request hprepare => ?_) (by simp)
  obtain ⟨⟨⟩, -, hprepare⟩ := bind_eq_ok.mp hprepare
  obtain ⟨ir, -, hprepare⟩ := bind_eq_ok.mp hprepare
  cases hprepare
  exact asks_sentBySettings rfl rfl

theorem asks_suggestMerges (payload : SuggestMergesRequest F) :
    (suggestMerges server payload).Asks (SentBySettings server) := by
  unfold suggestMerges
  rw [Asking.asks_lift_bind]
  intro checked _
  split
  · exact Asking.asks_pure
  · rw [Asking.asks_lift_bind]
    intro request hrequest
    unfold mergeRequest at hrequest
    obtain ⟨ir, -, hrequest⟩ := bind_eq_ok.mp hrequest
    cases hrequest
    apply Asking.asks_bind_of (asks_sentBySettings rfl rfl)
    intro response
    simp only [Asking.asks_lift_bind, Asking.asks_lift, implies_true]

theorem asks_summarizeIslandRelation (payload : SummarizeIslandRelationRequest F) :
    (summarizeIslandRelation server payload).Asks (SentBySettings server) := by
  unfold summarizeIslandRelation
  refine asks_route (fun request hprepare => ?_) (by simp)
  obtain ⟨⟨⟩, -, hprepare⟩ := bind_eq_ok.mp hprepare
  obtain ⟨⟨⟩, -, hprepare⟩ := bind_eq_ok.mp hprepare
  cases hprepare
  exact asks_sentBySettings rfl rfl

theorem asks_suggestIslandSummary (payload : SuggestIslandSummaryRequest F) :
    (suggestIslandSummary server payload).Asks (Governed server) := by
  unfold suggestIslandSummary
  exact asks_route (fun _ _ => asks_generateChecked) (by simp)

theorem asks_suggestCardGroups (payload : SuggestCardGroupsRequest F) :
    (suggestCardGroups server payload).Asks (Governed server) := by
  unfold suggestCardGroups
  rw [Asking.asks_lift_bind]
  intro checked _
  rw [Asking.asks_lift_bind]
  intro ir _
  dsimp only
  rw [Asking.asks_lift_bind]
  intro config hassert
  split
  · exact Asking.asks_pure
  · apply Asking.asks_bind_of
    · rw [asks_generateOrRaise]
      intro provider hprovider
      exact governed_of_assert hassert hprovider _
    · intro response
      simp only [Asking.asks_lift_bind, Asking.asks_lift, implies_true]

theorem asks_detectContradiction (payload : DetectContradictionRequest F) :
    (detectContradiction server payload).Asks (Governed server) := by
  unfold detectContradiction
  rw [Asking.asks_lift_bind]
  intro ir _
  split
  · exact Asking.asks_pure
  · apply Asking.asks_bind_of asks_finalJudgement
    intro response
    simp only [Asking.asks_lift_bind, Asking.asks_lift, implies_true]

/-! ## All routes -/

/-- What a call asks: the provider of the settings where neither the request nor the task names a
model, and otherwise a governed model. -/
def Call.Expected (server : Server F) : Call F → Dispatch → Prop
  | .suggestLayout _ => SentBySettings server
  | .suggestMerges _ => SentBySettings server
  | .summarizeIslandRelation _ => SentBySettings server
  | _ => Governed server

/-- Every route that has a model asks governed models only. The three routes that have none ask
the provider of the settings. -/
theorem calls_are_governed (call : Call F) : call.Asks server (call.Expected server) := by
  cases call with
  | suggestLayout payload => exact asks_suggestLayout payload
  | suggestMerges payload => exact asks_suggestMerges payload
  | suggestIslandSummary payload => exact asks_suggestIslandSummary payload
  | proposeIslandSummary payload =>
      exact asks_route (fun _ _ => asks_suggestIslandSummary _) (by simp)
  | checkNarrative payload => exact asks_route (fun _ _ => asks_finalJudgement) (by simp)
  | summarizeIslandRelation payload => exact asks_summarizeIslandRelation payload
  | suggestCardGroups payload => exact asks_suggestCardGroups payload
  | detectContradiction payload => exact asks_detectContradiction payload
  | proposeOpposingViewpoint payload | generateNarrative payload | refineCardText payload
  | suggestDocumentTitle payload =>
      exact asks_route (fun _ _ => asks_generateChecked) (by simp)

namespace EmptyRegistry

/-- No model is registered, but the settings have a provider with a destination. -/
def unregistered : Server Int where
  __ := ParallelLinks.localServer
  settings := { ParallelLinks.settings with localLlmBaseUrl := some "http://localhost:8080" }
  registry := ⟨[], [], [], List.nodup_nil, List.nodup_nil⟩

def document : DocumentV1 Int := ParallelLinks.ofCards [ParallelLinks.fullCard "a"]

/-- The layout is asked of a model that is not registered. -/
theorem layout_is_not_governed :
    ¬ (Call.suggestLayout ⟨document, none, none⟩).Asks unregistered (Governed unregistered) := by
  intro hasks
  have hsent : ((suggestLayout unregistered ⟨document, none, none⟩).firstQuestion.map fun question =>
      question.provider.sentModel unregistered.platform unregistered.settings question.request) =
        some (some "m") := by decide +kernel
  obtain ⟨question, hfirst, hmodel⟩ := Option.map_eq_some_iff.mp hsent
  obtain ⟨-, model, hmem, -⟩ := Asking.Asks.firstQuestion hasks hfirst "m" hmodel
  exact absurd hmem List.not_mem_nil

end EmptyRegistry

end KjAtlas.Ai
