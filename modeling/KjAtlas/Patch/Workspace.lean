import KjAtlas.Context.Query

/-! # The patch workspace

The workspace keeps a decision for each candidate, a stack of snapshots to roll
back to, and a log of the decisions. Decisions are kept in a plain object under
the ids of the candidates, so reading one under an id that is not there finds
what the object inherits under that name.
-/

namespace KjAtlas.Workspace

open Js

inductive WorkspaceDecision where
  | adopt
  | reject
  | hold
deriving DecidableEq

inductive QueryScope where
  | all
  | selection
  | island

def QueryScope.text : QueryScope → String
  | all => "all"
  | selection => "selection"
  | island => "island"

inductive WorkspacePhase where
  | idle
  | decisionRecorded
  | presetReplayed
  | rollbackReady
  | error

structure CandidateItem where
  id : String
  label : String

structure QueryPresetInput where
  scope : QueryScope
  depth : JsNumber
  filters : List String

/-! ## Decisions in a plain object -/

/-- A value found under a property name: a decision, or what every plain object inherits. -/
inductive PropertyValue where
  | decision (decision : WorkspaceDecision)
  | inherited (name : String)
deriving DecidableEq

/-- The names that `Object.prototype` has a value under. -/
def objectPrototypeNames : List String :=
  ["constructor", "__defineGetter__", "__defineSetter__", "hasOwnProperty", "__lookupGetter__",
    "__lookupSetter__", "isPrototypeOf", "propertyIsEnumerable", "toString", "valueOf", "__proto__",
    "toLocaleString"]

/-- The own properties of an object that is used as a record of decisions. -/
abbrev Decisions : Type := InsertionMap String PropertyValue

namespace Decisions

/-- `decisions[name]`. -/
def read (decisions : Decisions) (name : String) : Option PropertyValue :=
  (decisions.get? name).or (if name ∈ objectPrototypeNames then some (.inherited name) else none)

/-- `decisions[name] ?? "hold"`. -/
def readOrHold (decisions : Decisions) (name : String) : PropertyValue :=
  (decisions.read name).getD (.decision .hold)

/-- `Object.keys(decisions)`. -/
def objectKeys (decisions : Decisions) : List String :=
  (Context.enumerate decisions.entries).map Prod.fst

end Decisions

/-! ## States -/

structure WorkspaceSnapshot where
  decisions : Decisions
  selectedCandidateId : Option String
  phase : WorkspacePhase

inductive AuditReason where
  | decision
  | rollback

/-- An entry of the log; `from`, `to` and `at` in the source. -/
structure WorkspaceAuditEntry where
  candidateId : String
  fromDecision : PropertyValue
  toDecision : PropertyValue
  loggedAt : String
  reason : AuditReason

structure WorkspaceState where
  decisions : Decisions
  selectedCandidateId : Option String
  rollbackStack : List WorkspaceSnapshot
  auditLog : List WorkspaceAuditEntry
  phase : WorkspacePhase
  lastExecutedQuery : Option Text
  failureMessage : Option String

def buildInitialDecisions (candidates : List CandidateItem) : Decisions :=
  .ofList (candidates.map fun candidate => (candidate.id, .decision .hold))

def snapshotState (state : WorkspaceState) : WorkspaceSnapshot where
  decisions := state.decisions
  selectedCandidateId := state.selectedCandidateId
  phase := state.phase

def buildInitialWorkspaceState (candidates : List CandidateItem) : WorkspaceState where
  decisions := buildInitialDecisions candidates
  selectedCandidateId := candidates.head?.map CandidateItem.id
  rollbackStack := []
  auditLog := []
  phase := .idle
  lastExecutedQuery := none
  failureMessage := none

/-! ## Operations -/

/-- Carry a decision over; a name that is inherited is found as well. -/
def carryOver (decisions next : Decisions) (id : String) : Decisions :=
  match decisions.read id with
  | some value => next.set id value
  | none => next

def syncWorkspaceCandidates (state : WorkspaceState) (candidates : List CandidateItem) :
    WorkspaceState :=
  let ids := candidates.map CandidateItem.id
  { state with
    decisions := ids.foldl (carryOver state.decisions) (buildInitialDecisions candidates)
    selectedCandidateId :=
      (state.selectedCandidateId.filter fun id => decide (id ≠ "" ∧ id ∈ ids)).or
        (candidates.head?.map CandidateItem.id) }

def commitWorkspaceDecision (state : WorkspaceState) (candidateId : String)
    (decision : WorkspaceDecision) (now : String) : WorkspaceState :=
  let previousDecision := state.decisions.readOrHold candidateId
  if previousDecision = .decision decision then
    { state with
      phase := if state.rollbackStack ≠ [] then .rollbackReady else .idle
      failureMessage := none }
  else
    { state with
      decisions := state.decisions.set candidateId (.decision decision)
      rollbackStack := state.rollbackStack ++ [snapshotState state]
      auditLog := state.auditLog ++
        [⟨candidateId, previousDecision, .decision decision, now, .decision⟩]
      phase := .decisionRecorded
      failureMessage := none }

def rollbackEntryFor (now : String) (current restored : Decisions) (candidateId : String) :
    Option WorkspaceAuditEntry :=
  let before := current.readOrHold candidateId
  let after := restored.readOrHold candidateId
  if before = after then none else some ⟨candidateId, before, after, now, .rollback⟩

def rollbackWorkspaceDecision (state : WorkspaceState) (now : String) : WorkspaceState :=
  match state.rollbackStack.getLast? with
  | none => { state with
      phase := .error
      failureMessage := some "No rollback point available." }
  | some snapshot =>
      let candidateIds := distinct (state.decisions.objectKeys ++ snapshot.decisions.objectKeys)
      { state with
        decisions := snapshot.decisions
        selectedCandidateId := snapshot.selectedCandidateId
        rollbackStack := state.rollbackStack.dropLast
        auditLog := state.auditLog ++
          candidateIds.filterMap (rollbackEntryFor now state.decisions snapshot.decisions)
        phase := if 1 < state.rollbackStack.length then .rollbackReady else .idle
        failureMessage := none }

/-! ## Presets -/

section Presets

variable (lc : Collation) (toLowerCase : String → String)

/-- The digits before the decimal point, without the zeros at their end. -/
def wholeDigits (value : Decimal) : List (Fin 10) :=
  (value.digits.take value.point.toNat).rdropWhile fun digit => decide (digit = 0)

theorem head?_wholeDigits (value : Decimal) : (wholeDigits value).head? ≠ some 0 := by
  have hprefix : wholeDigits value <+: value.digits :=
    (List.rdropWhile_prefix _ _).trans (List.take_prefix _ _)
  obtain ⟨rest, hrest⟩ := hprefix
  have hhead := value.head_ne_zero
  rw [← hrest] at hhead
  cases hdigits : wholeDigits value with
  | nil => simp
  | cons digit digits => simpa [hdigits] using hhead

theorem getLast?_wholeDigits (value : Decimal) : (wholeDigits value).getLast? ≠ some 0 := by
  intro hlast
  have hne : wholeDigits value ≠ [] := by
    intro hnil
    rw [hnil] at hlast
    cases hlast
  have hnot := List.rdropWhile_last_not _ _ hne
  rw [List.getLast?_eq_some_getLast hne] at hlast
  exact hnot (decide_eq_true (Option.some.inj hlast))

/-- `Math.max(1, Math.floor(depth))`, or one for a depth that is not finite. -/
def normalizeDepth : JsNumber → JsNumber
  | .finite value =>
      if hdigits : value.negative ∨ wholeDigits value = [] then .one
      else .finite {
        negative := false
        digits := wholeDigits value
        point := value.point
        head_ne_zero := head?_wholeDigits value
        last_ne_zero := getLast?_wholeDigits value
        zero_normal := fun hnil => absurd (Or.inr hnil) hdigits }
  | .nan | .infinity _ => .one

/-- The filters, trimmed and in lower case, each once, in the order of the locale. -/
def normalizedFilters (filters : List String) : List String :=
  sortOn lc.le id (distinct
    ((filters.map fun filter => toLowerCase (trim filter)).filter fun filter => decide (filter ≠ "")))

def normalizePresetInput (preset : QueryPresetInput) : QueryPresetInput where
  scope := preset.scope
  depth := normalizeDepth preset.depth
  filters := normalizedFilters lc toLowerCase preset.filters

def normalizePresetQuery (preset : QueryPresetInput) : Text :=
  let normalized := normalizePresetInput lc toLowerCase preset
  render (.object [("scope", some (.string normalized.scope.text)),
    ("depth", some (.number normalized.depth)), ("filters", some (textArray normalized.filters))])

def replayPreset (state : WorkspaceState) (preset : QueryPresetInput) (hasCandidates : Bool) :
    WorkspaceState :=
  if hasCandidates then
    { state with
      phase := .presetReplayed
      lastExecutedQuery := some (normalizePresetQuery lc toLowerCase preset)
      failureMessage := none }
  else
    { state with
      phase := .error
      failureMessage :=
        some "No candidates available. Collect candidates before preset execution." }

end Presets

end KjAtlas.Workspace
