import Mathlib.Data.Rat.Defs
import KjAtlas.Foundation.Asking
import KjAtlas.Foundation.Transactions
import KjAtlas.Ir.Input
import KjAtlas.Py.UrlSplit
import KjAtlas.Py.Value

/-! # Model providers

A request to a model goes to the provider that its registration names, or else to
the one of the settings. What the provider answers is a question to the outside.
A registration leads to a provider only if its kind is known, its address can be
trusted, and the settings permit it.
-/

/-! ## Prompts

A prompt is written line by line. A line is written in pieces, and where the text
of a card stands in it is marked.
-/

namespace KjAtlas.Ai

open Js (Text)

/-- A piece of a line. -/
inductive Piece where
  | plain (text : String)
  /-- The text of a card as it is. -/
  | card (text : String)
  /-- `json.dumps` of the text of a card. -/
  | cardJson (text : String)
  /-- `json.dumps` of the text of a card, with `ensure_ascii=False`. -/
  | cardUnicodeJson (text : String)

abbrev Line : Type := List Piece

abbrev Prompt : Type := List Line

/-- A code unit as `json.dumps` writes it. -/
def unitEscape (unit : Nat) : Text :=
  ['\\', 'u', Js.hexDigit (unit / 4096 % 16), Js.hexDigit (unit / 256 % 16),
    Js.hexDigit (unit / 16 % 16), Js.hexDigit (unit % 16)]

/-- One character inside a string of `json.dumps`: what is not ASCII is escaped. -/
def asciiEscape (c : Char) : Text :=
  if c.toNat < 0x7F then Js.escapeChar c
  else if c.toNat < 0x10000 then unitEscape c.toNat
  else
    unitEscape (0xD800 + (c.toNat - 0x10000) / 0x400) ++
      unitEscape (0xDC00 + (c.toNat - 0x10000) % 0x400)

/-- `json.dumps(text)`. -/
def dumpsText (text : String) : String :=
  .ofList ('"' :: (text.toList.flatMap asciiEscape ++ ['"']))

/-- `", ".join(texts)`, and the like. -/
def joinText (separator : String) : List String → String
  | [] => ""
  | text :: rest => rest.foldl (fun joined text => joined ++ separator ++ text) text

/-- `json.dumps(texts)`. -/
def dumpsTexts (texts : List String) : String :=
  "[" ++ joinText ", " (texts.map dumpsText) ++ "]"

def plainLine (text : String) : Line := [.plain text]

def plainLines (texts : List String) : Prompt := texts.map plainLine

def headed (heading : String) (lines : List String) : List String :=
  if lines = [] then [] else heading :: lines

def relationLine (relation : IrRelation) : String :=
  "- " ++ relation.type ++ ": " ++ relation.fromId ++ " -> " ++ relation.toId

end KjAtlas.Ai

namespace KjAtlas.Ai

open Js (Text)
open Py (Unicode)

/-! ## Requests and answers -/

/-- `RegisteredProviderConfig`. -/
structure RegisteredProviderConfig where
  providerId : String
  providerKind : String
  baseUrl : Option String
  apiKeyRef : Option String
  modelId : String

/-- `LLMRequest`, with the prompt in its pieces, of which a provider sends the text. The projection
that it carries along is left out, as no provider reads it. -/
structure LLMRequest where
  task : String
  prompt : Prompt
  temperature : Rat := 1 / 5
  maxTokens : Nat := 2000
  model : Option String := none
  registeredProvider : Option RegisteredProviderConfig := none

/-- `LLMCallMetadata`, without the fields that nothing reads here. -/
structure LLMCallMetadata where
  providerKind : String
  providerName : String
  modelId : String
  transport : String
  traceId : String
  fallbackToNone : Bool := false
  executionPath : String := "primary"

structure LLMResponse where
  rawText : Py.Str
  metadata : LLMCallMetadata

inductive ProviderErrorCode where
  | providerTimeout
  | providerValidation
  | providerUnavailable
deriving DecidableEq

/-- `ProviderDisabledError` and `ProviderRequestError`. -/
inductive ProviderError where
  | disabled (message : String) (metadata : LLMCallMetadata)
  | request (message : String) (metadata : LLMCallMetadata) (code : ProviderErrorCode)

def ProviderErrorCode.text : ProviderErrorCode → String
  | .providerTimeout => "provider_timeout"
  | .providerValidation => "provider_validation"
  | .providerUnavailable => "provider_unavailable"

/-- The settings that concern models, with the key of the environment. -/
structure Settings where
  llmProvider : String
  llmTaskModelMap : String
  llmHighReasoningModel : Option String
  localLlmModel : Option String
  localLlmBaseUrl : Option String
  largeScaleLlmModel : Option String
  largeScaleLlmBaseUrl : Option String
  largeScaleLlmAllowlist : Option String
  llmLargeScaleOptIn : Bool
  llmEscalationEnabled : Bool
  llmFallbackToNone : Bool
  deepseekApiKey : Option String
  deepseekBaseUrl : String
  deepseekModel : String
  environDeepseekApiKey : Option String
  allowUnreviewedAiText : Bool

/-- The runtime: tables of Unicode, checks of network locations, and new trace ids. -/
structure Platform where
  unicode : Unicode
  validNetloc : Text → Bool
  traceId : String

def nonEmpty (value : Option String) : Option String := value.filter (· ≠ "")

def finalJudgementTasks : List String := ["check_narrative", "detect_contradiction"]

/-- The model of a task in `SUI_LLM_TASK_MODEL_MAP`. -/
def taskModel (taskModelMap task : String) : Option String :=
  ((strip taskModelMap.toList).splitOn ',').findSome? fun pair =>
    let pair := strip pair
    let (name, model) := Py.partition '=' pair
    if '=' ∈ pair ∧ String.ofList (strip name) = task ∧ strip model ≠ [] then
      some (.ofList (strip model))
    else none

/-- `resolve_model_for_task`; `requested` is the model of the request, if there is one. -/
def resolveModelForTask (p : Platform) (settings : Settings) (task : String)
    (requested : Option String) : String :=
  match nonEmpty requested, taskModel settings.llmTaskModelMap task with
  | some model, _ => model
  | none, some model => model
  | none, none =>
      match nonEmpty settings.llmHighReasoningModel with
      | some model => if task ∈ finalJudgementTasks then model else fallback
      | none => fallback
where
  fallback : String :=
    if p.unicode.lower (stripText settings.llmProvider) = "deepseek" then settings.deepseekModel
    else (nonEmpty settings.localLlmModel).getD "default"

/-! ## Providers -/

/-- The providers: those of the settings, and those of a registration. -/
inductive Provider where
  | none
  | «local»
  | largeScale
  | deepSeek
  | registeredHttp (config : RegisteredProviderConfig) (providerKind : String)
  | registeredDeepSeek (config : RegisteredProviderConfig) (apiKey : String)

/-- `canonical_registered_provider_kind`. -/
def canonicalRegisteredProviderKind (p : Platform) (rawKind : String) : String :=
  let normalized := p.unicode.lower (stripText rawKind)
  ([("local_http", "local"), ("large_scale", "large-scale"), ("external", "large-scale")].lookup
    normalized).getD normalized

def isCanonicalKey (p : Platform) (value : String) : Bool :=
  decide (value ≠ "") && value.toList.all fun c => !isPythonSpace c && p.unicode.isPrintable c

/-- `_resolve_registered_api_key`. -/
def resolveRegisteredApiKey (p : Platform) (settings : Settings) (apiKeyRef : Option String) :
    Option String :=
  if apiKeyRef = some "SUI_DEEPSEEK_API_KEY" then
    (settings.environDeepseekApiKey.or settings.deepseekApiKey).filter (isCanonicalKey p)
  else Option.none

/-- `hostname`, in lower case up to a zone. -/
def hostname (p : Platform) (parsed : Py.SplitResult) : Option String :=
  let (host, zone) := Py.partition '%' parsed.hostinfo.1
  if parsed.hostinfo.1 = [] then Option.none
  else some (p.unicode.lower (.ofList host) ++
    if '%' ∈ parsed.hostinfo.1 then .ofList ('%' :: zone) else "")

/-- The characters of an address are those of a canonical one. -/
def hasCanonicalText (p : Platform) (endpoint : String) : Bool :=
  decide (endpoint ≠ "") && endpoint.toList.all fun c =>
    !(['\\', '?', '#'].contains c) && !isPythonSpace c && p.unicode.isPrintable c

/-- `_validate_trusted_http_endpoint` raises no `ValueError`. -/
def isTrustedHttpEndpoint (p : Platform) (endpoint : String) : Bool :=
  hasCanonicalText p endpoint &&
    match Py.urlsplit p.validNetloc endpoint.toList with
    | Option.none => false
    | some parsed =>
        decide parsed.PortReadable && decide (parsed.scheme ∈ ["http".toList, "https".toList]) &&
          (hostname p parsed).isSome && !decide parsed.HasUsername && parsed.query.isEmpty &&
          parsed.fragment.isEmpty &&
          (decide (parsed.scheme ≠ "http".toList) ||
            decide (hostname p parsed ∈ [some "localhost", some "127.0.0.1", some "::1"]))

/-- `_normalize_allowlist`. -/
def normalizeAllowlist (p : Platform) (rawAllowlist : Option String) : List String :=
  match nonEmpty rawAllowlist with
  | Option.none => []
  | some raw => ((raw.toList.splitOn ',').map strip).filterMap fun item =>
      if item = [] then Option.none else some (p.unicode.lower (.ofList item))

/-- The host of an address in lower case. -/
def endpointHost (p : Platform) (endpoint : String) : String :=
  p.unicode.lower (((Py.urlsplit p.validNetloc endpoint.toList).bind (hostname p)).getD "")

/-- The address of a registration. One that has none uses that of the settings for its kind, if
the settings choose this kind. -/
def registeredBaseUrl (p : Platform) (settings : Settings) (config : RegisteredProviderConfig) :
    Option String :=
  let kind := canonicalRegisteredProviderKind p config.providerKind
  let configured := canonicalRegisteredProviderKind p settings.llmProvider
  match config.baseUrl with
  | some baseUrl => some baseUrl
  | Option.none =>
      if kind = "local" ∧ configured = "local" then settings.localLlmBaseUrl
      else if kind = "deepseek" ∧ configured = "deepseek" then some settings.deepseekBaseUrl
      else Option.none

def registeredKinds : List String := ["local", "large-scale", "deepseek"]

/-- `ProviderRequestError.unavailable`, for a registration. -/
def registrationUnavailable (p : Platform) (config : RegisteredProviderConfig) (message : String) :
    ProviderError :=
  let kind := canonicalRegisteredProviderKind p config.providerKind
  .request message
    { providerKind := if kind = "" then "unknown" else kind
      providerName := config.providerId
      modelId := config.modelId
      transport := if kind ∈ registeredKinds then "http" else "none"
      traceId := p.traceId }
    .providerUnavailable

/-- A destination of the kind "large-scale" must be permitted. -/
def checkLargeScale (p : Platform) (settings : Settings) (config : RegisteredProviderConfig)
    (baseUrl : String) : Except ProviderError Unit := do
  ensure (settings.llmLargeScaleOptIn = true ∧ settings.llmEscalationEnabled = true)
    (registrationUnavailable p config "Registered large-scale provider is disabled by policy")
  ensure (endpointHost p baseUrl ∈ normalizeAllowlist p settings.largeScaleLlmAllowlist)
    (registrationUnavailable p config "Registered large-scale destination is not allowlisted")

/-- `build_registered_provider`. -/
def buildRegisteredProvider (p : Platform) (settings : Settings)
    (config : RegisteredProviderConfig) : Except ProviderError Provider := do
  let kind := canonicalRegisteredProviderKind p config.providerKind
  let unavailable := registrationUnavailable p config
  ensure (kind ∈ registeredKinds) (unavailable "Registered provider kind is unsupported")
  let baseUrl ← found (unavailable "Registered provider destination is unavailable")
    (registeredBaseUrl p settings config)
  ensure (isTrustedHttpEndpoint p baseUrl = true)
    (unavailable "Registered provider destination is unavailable")
  let effective := { config with baseUrl := some baseUrl }
  if kind = "deepseek" then
    let apiKey ← found (unavailable "Registered provider credential is unavailable")
      (resolveRegisteredApiKey p settings config.apiKeyRef)
    return .registeredDeepSeek effective apiKey
  else
    if kind = "large-scale" then checkLargeScale p settings config baseUrl
    return .registeredHttp effective kind

/-- `get_provider`. -/
def getProvider (p : Platform) (settings : Settings) : Except ProviderError Provider :=
  let normalized := stripText (p.unicode.lower settings.llmProvider)
  match [("none", Provider.none), ("local", .local), ("local_http", .local),
      ("large-scale", .largeScale), ("large_scale", .largeScale), ("external", .largeScale),
      ("deepseek", .deepSeek)].lookup normalized with
  | some provider => .ok provider
  | Option.none =>
      .error (.request ("Unsupported SUI_LLM_PROVIDER: " ++ settings.llmProvider)
        { providerKind := "unknown"
          providerName := if normalized = "" then "unknown" else normalized
          modelId := "unknown"
          transport := "none"
          traceId := p.traceId } .providerUnavailable)

/-! ## Generation -/

/-- A call of `generate`. -/
structure Dispatch where
  provider : Provider
  request : LLMRequest

abbrev Answer : Type := Except ProviderError LLMResponse

def fallbackError (settings : Settings) : ProviderError → ProviderError
  | .disabled message metadata => .disabled message metadata
  | .request message metadata code =>
      if code = .providerValidation ∨ settings.llmFallbackToNone = false then
        .request message metadata code
      else
        .disabled ("LLM provider '" ++ metadata.providerName ++ "' failed (" ++ code.text ++
            ") and fallbacked to none")
          { providerKind := "none"
            providerName := "none"
            modelId := "none"
            transport := "none"
            traceId := metadata.traceId
            fallbackToNone := true
            executionPath := metadata.providerName ++ "->none" }

def requestProvider (p : Platform) (settings : Settings) (request : LLMRequest) :
    Except ProviderError Provider :=
  match request.registeredProvider with
  | some config => buildRegisteredProvider p settings config
  | Option.none => getProvider p settings

/-- `generate_with_fallback`. -/
def generateWithFallback (p : Platform) (settings : Settings) (request : LLMRequest) :
    Asking Dispatch Answer ProviderError LLMResponse := do
  let provider ← requestProvider p settings request
  let answer ← .question ⟨provider, request⟩
  match answer with
  | .ok response => return response
  | .error error => .done (.error (fallbackError settings error))

end KjAtlas.Ai
