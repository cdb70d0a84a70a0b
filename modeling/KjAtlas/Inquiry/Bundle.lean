import KjAtlas.Foundation.KeyedStore

/-! # Inquiry bundles

A journey records rounds, each with its parents, and a snapshot of the document
for its origins and for what its rounds put out. Lineage edges say which cards of
one snapshot became which of another.
-/

namespace KjAtlas.Inquiry

/-- `INQUIRY_SCHEMA_VERSION`. -/
def inquirySchemaVersion : String := "1.0.0"

inductive RoundStage where
  | r1ProblemSetting
  | r2SituationGrasp
  | r3EssencePursuit
  | r4ConceptPlanning
  | r5ConcreteMeasures
  | r6ProcedurePlanning

def RoundStage.text : RoundStage → String
  | .r1ProblemSetting => "r1_problem_setting"
  | .r2SituationGrasp => "r2_situation_grasp"
  | .r3EssencePursuit => "r3_essence_pursuit"
  | .r4ConceptPlanning => "r4_concept_planning"
  | .r5ConcreteMeasures => "r5_concrete_measures"
  | .r6ProcedurePlanning => "r6_procedure_planning"

/-- `ROUND_STAGES`. -/
def roundStages : List String :=
  [RoundStage.r1ProblemSetting, .r2SituationGrasp, .r3EssencePursuit, .r4ConceptPlanning,
    .r5ConcreteMeasures, .r6ProcedurePlanning].map RoundStage.text

/-- `ROUND_STATUSES`. -/
def roundStatuses : List String := ["working", "paused", "handed_off", "superseded"]

theorem RoundStage.text_mem (stage : RoundStage) : stage.text ∈ roundStages := by
  cases stage <;> decide

/-! ## Documents -/

structure Card where
  id : String
  text : String
  source : Option String
deriving DecidableEq

structure Island where
  id : String
  title : Option String
  summaryText : Option String
deriving DecidableEq

structure Narrative where
  id : String
  title : String
deriving DecidableEq

structure RelationSummary where
  id : String
  text : String
deriving DecidableEq

/-- The parts of a document that inquiries read. -/
structure DocumentV1 where
  id : String
  title : Option String
  cards : List Card
  islands : List Island
  narratives : Option (List Narrative)
  relationSummaries : Option (List RelationSummary)
deriving DecidableEq

def DocumentV1.cardIds (doc : DocumentV1) : List String := doc.cards.map Card.id

structure RoundSnapshotV1 where
  schemaVersion : String
  snapshotId : String
  createdAt : String
  canonicalDigest : String
  document : DocumentV1
deriving DecidableEq

/-! ## Rounds -/

structure CardAddressV1 where
  snapshotId : String
  cardId : String
deriving DecidableEq

inductive RoundArtifactKind where
  | card
  | island
  | narrative
  | relationSummary
deriving DecidableEq

structure RoundArtifactRefV1 where
  snapshotId : String
  kind : RoundArtifactKind
  entityId : String
deriving DecidableEq

inductive FieldworkOutcomeKind where
  | answered
  | noResult
  | unexpected
deriving DecidableEq

structure FieldworkOutcomeV1 where
  kind : FieldworkOutcomeKind
  responseCardRefs : List CardAddressV1
  note : Option String
deriving DecidableEq

structure FieldworkRequestV1 where
  requestId : String
  question : String
  outcome : Option FieldworkOutcomeV1
deriving DecidableEq

/-- `request.outcome?.responseCardRefs ?? []`. -/
def FieldworkRequestV1.responseCardRefs (request : FieldworkRequestV1) : List CardAddressV1 :=
  (request.outcome.map FieldworkOutcomeV1.responseCardRefs).getD []

structure RoundHandoffV1 where
  carryoverRefs : List RoundArtifactRefV1
  heldRefs : List RoundArtifactRefV1
  unresolvedQuestions : List String
  fieldworkRequests : List FieldworkRequestV1
  understandingDelta : Option String
deriving DecidableEq

/-- The stage and the status are texts: a bundle that was read can have others than those listed. -/
structure RoundRecordV1 where
  roundId : String
  createdAt : String
  updatedAt : String
  stage : String
  iteration : Int
  parentRoundIds : List String
  status : String
  theme : String
  inputSnapshotIds : List String
  outputSnapshotId : Option String
  handoff : Option RoundHandoffV1
deriving DecidableEq

/-- `round.outputSnapshotId`, unless it is absent or empty. -/
def RoundRecordV1.output (round : RoundRecordV1) : Option String :=
  round.outputSnapshotId.filter (· ≠ "")

structure InquiryJourneyV1 where
  schemaVersion : String
  journeyId : String
  title : String
  originSnapshotIds : List String
  roundRecords : List RoundRecordV1
  headRoundIds : List String
  defaultHeadRoundId : Option String
  createdAt : String
  updatedAt : String
deriving DecidableEq

/-! ## Lineage -/

inductive OneToOneLineageKind where
  | carried
  | edited
deriving DecidableEq

/-- What became of cards, by kind. -/
inductive Lineage where
  | oneToOne (kind : OneToOneLineageKind) (source target : CardAddressV1)
  | derived (sources : List CardAddressV1) (target : CardAddressV1)
  | split (source : CardAddressV1) (targets : List CardAddressV1)
  | merged (sources : List CardAddressV1) (target : CardAddressV1)
  | new (target : CardAddressV1)
  | retired (source : CardAddressV1)
deriving DecidableEq

structure CardLineageEdgeV1 where
  lineageId : String
  lineage : Lineage
deriving DecidableEq

namespace CardLineageEdgeV1

/-- `getLineageAddresses(edge).from`. -/
def sources (edge : CardLineageEdgeV1) : List CardAddressV1 :=
  match edge.lineage with
  | .oneToOne _ source _ | .split source _ | .retired source => [source]
  | .derived sources _ | .merged sources _ => sources
  | .new _ => []

/-- `getLineageAddresses(edge).to`. -/
def targets (edge : CardLineageEdgeV1) : List CardAddressV1 :=
  match edge.lineage with
  | .oneToOne _ _ target | .derived _ target | .merged _ target | .new target => [target]
  | .split _ targets => targets
  | .retired _ => []

end CardLineageEdgeV1

inductive InquiryExportInfoV1 where
  | full
  | round (selectedRoundId : String)
deriving DecidableEq

structure InquiryBundleV1 where
  schemaVersion : String
  journey : InquiryJourneyV1
  snapshots : List RoundSnapshotV1
  cardLineage : List CardLineageEdgeV1
  exportInfo : Option InquiryExportInfoV1
deriving DecidableEq

inductive InquiryValidationIssueCode where
  | schemaVersion
  | invalidTimestamp
  | duplicateRoundId
  | invalidRoundStage
  | invalidRoundStatusValue
  | duplicateParentRound
  | missingParentRound
  | roundCycle
  | invalidIteration
  | invalidRoundStatus
  | duplicateHeadRound
  | invalidHeadRound
  | missingLeafHead
  | invalidDefaultHead
  | invalidExportInfo
  | duplicateSnapshotId
  | missingOriginSnapshot
  | duplicateOriginSnapshot
  | invalidSnapshotDigest
  | duplicateSnapshotCardId
  | missingSnapshot
  | duplicateOutputSnapshot
  | unownedSnapshot
  | duplicateInputSnapshot
  | invalidInputSnapshot
  | duplicateLineageId
  | invalidLineageCardinality
  | missingLineageCard
  | invalidLineageDirection
  | missingHandoffArtifact
deriving DecidableEq

structure InquiryValidationIssue where
  code : InquiryValidationIssueCode
  path : String
deriving DecidableEq

end KjAtlas.Inquiry
