import KjAtlas.Inquiry.Validate

/-! # Valid bundles

The validation finds no issue exactly in valid bundles: the rounds form an
acyclic graph whose leaves are the heads, they count the iterations of their
stage along their ancestry, every snapshot is an origin or has an owner, and
lineage leads from ancestors to descendants.
-/

namespace KjAtlas.Inquiry

open Js (DateFormat)
open Relation (TransGen)

variable {values : List String} {code : InquiryValidationIssueCode}
  {snapshots : List RoundSnapshotV1} {edge : CardLineageEdgeV1}

theorem repeated_eq_nil {seen : List String} :
    repeated seen values = [] ↔ values.Nodup ∧ ∀ value ∈ values, value ∉ seen := by
  induction values generalizing seen with
  | nil => simp [repeated]
  | cons value values ih =>
      unfold repeated
      split
      next hseen => simp [hseen]
      next hseen =>
        rw [ih, List.nodup_cons, List.forall_mem_cons]
        constructor
        · rintro ⟨hnodup, hnew⟩
          refine ⟨⟨fun hmem => hnew value hmem List.mem_cons_self, hnodup⟩, hseen, ?_⟩
          exact fun other hother hmem => hnew other hother (List.mem_cons_of_mem _ hmem)
        · rintro ⟨⟨hvalue, hnodup⟩, -, hnew⟩
          refine ⟨hnodup, fun other hother hmem => ?_⟩
          rcases List.mem_cons.mp hmem with rfl | hmem
          · exact hvalue hother
          · exact hnew other hother hmem

@[simp] theorem findDuplicates_eq_nil : findDuplicates values = [] ↔ values.Nodup := by
  have hdistinct : distinct (repeated [] values) = [] ↔ repeated [] values = [] := by
    cases repeated [] values with
    | nil => simp [distinct]
    | cons value values => simp [distinct]
  rw [findDuplicates, hdistinct, repeated_eq_nil]
  simp

@[simp] theorem issueIf_eq_nil {condition : Prop} [Decidable condition] {path : String} :
    issueIf condition code path = [] ↔ ¬ condition := by
  unfold issueIf
  split
  next hcondition => simp [hcondition]
  next hcondition => simp [hcondition]

@[simp] theorem duplicateIssues_eq_nil {path : String} :
    duplicateIssues values code path = [] ↔ values.Nodup := by
  rw [duplicateIssues, List.map_eq_nil_iff, findDuplicates_eq_nil]

theorem isEarlier_trans {dates : DateFormat} {first second third : String}
    (hsecond : isCanonicalTimestamp dates second) (hle : ¬ isEarlier dates second first)
    (hle' : ¬ isEarlier dates third second) : ¬ isEarlier dates third first := by
  revert hsecond hle hle'
  unfold isEarlier isCanonicalTimestamp
  cases dates.parse second with
  | none => simp
  | some time =>
      cases dates.parse first with
      | none => cases dates.parse third <;> simp
      | some time' =>
          cases dates.parse third with
          | none => simp
          | some time'' =>
              simp only [decide_eq_true_eq, Int.not_lt]
              omega

theorem isEarlier_self {dates : DateFormat} (text : String) : ¬ isEarlier dates text text := by
  unfold isEarlier
  cases dates.parse text with
  | none => simp
  | some time => simp

theorem hasValidTimestamps_iff {dates : DateFormat} {createdAt updatedAt : String} :
    hasValidTimestamps dates createdAt updatedAt ↔
      isCanonicalTimestamp dates createdAt ∧ isCanonicalTimestamp dates updatedAt ∧
        ¬ isEarlier dates updatedAt createdAt := by
  simp [hasValidTimestamps, and_assoc]

variable {round : RoundRecordV1} {roundId : String}

namespace RoundsById

variable {rounds : RoundsById}

abbrev HasParent (rounds : RoundsById) : String → String → Prop := Points rounds.parents

theorem parents_of_get? (hround : rounds.get? roundId = some round) :
    rounds.parents roundId = round.parentRoundIds := by
  rw [parents, hround]
  rfl

theorem parents_of_not_mem (hround : roundId ∉ rounds.keys) : rounds.parents roundId = [] := by
  have hnone : rounds.get? roundId = none := by
    rw [InsertionMap.mem_keys] at hround
    simpa using hround
  rw [parents, hnone]
  rfl

end RoundsById

@[simp] theorem mem_collectAncestorIds {rounds : RoundsById} {ancestorId : String} :
    ancestorId ∈ collectAncestorIds roundId rounds ↔
      TransGen rounds.HasParent roundId ancestorId :=
  mem_reachableFrom fun _ => RoundsById.parents_of_not_mem

theorem has_roundsById {rounds : List RoundRecordV1} :
    (roundsById rounds).has roundId ↔ roundId ∈ rounds.map RoundRecordV1.roundId := by
  rw [List.mem_map]
  exact InsertionMap.has_ofList_map RoundRecordV1.roundId id rounds roundId

theorem get?_roundsById {rounds : List RoundRecordV1}
    (hnodup : (rounds.map RoundRecordV1.roundId).Nodup) (roundId : String) :
    (roundsById rounds).get? roundId = findBy RoundRecordV1.roundId roundId rounds := by
  have hget := InsertionMap.get?_ofList_map RoundRecordV1.roundId id hnodup roundId
  rwa [Option.map_id] at hget

theorem has_snapshotsById {snapshotId : String} :
    (snapshotsById snapshots).has snapshotId ↔
      snapshotId ∈ snapshots.map RoundSnapshotV1.snapshotId := by
  rw [List.mem_map]
  exact InsertionMap.has_ofList_map RoundSnapshotV1.snapshotId id snapshots snapshotId

theorem get?_snapshotsById (hnodup : (snapshots.map RoundSnapshotV1.snapshotId).Nodup)
    (snapshotId : String) :
    (snapshotsById snapshots).get? snapshotId =
      findBy RoundSnapshotV1.snapshotId snapshotId snapshots := by
  have hget := InsertionMap.get?_ofList_map RoundSnapshotV1.snapshotId id hnodup snapshotId
  rwa [Option.map_id] at hget

/-! ## Validity -/

structure ValidRound (dates : DateFormat) (rounds : RoundsById) (round : RoundRecordV1) :
    Prop where
  timestamps : hasValidTimestamps dates round.createdAt round.updatedAt
  stage : round.stage ∈ roundStages
  status : round.status ∈ roundStatuses
  parents_nodup : round.parentRoundIds.Nodup
  parents_known : ∀ parentId ∈ round.parentRoundIds, rounds.has parentId
  iteration_safe : isSafeInteger round.iteration
  iteration_pos : 1 ≤ round.iteration
  iteration_eq : round.iteration = expectedIteration round rounds
  output : round.status = "working" ∨ round.output ≠ none

structure ValidHeads (journey : InquiryJourneyV1) : Prop where
  nodup : journey.headRoundIds.Nodup
  mem_iff : ∀ roundId, roundId ∈ journey.headRoundIds ↔ roundId ∈ leafIds journey.roundRecords
  default : ∀ headId ∈ journey.defaultHeadRoundId, headId ∈ journey.headRoundIds

structure ValidSnapshot (dates : DateFormat) (snapshot : RoundSnapshotV1) : Prop where
  version : snapshot.schemaVersion = inquirySchemaVersion
  digest : isDigest snapshot.canonicalDigest
  timestamp : isCanonicalTimestamp dates snapshot.createdAt
  cardIds : snapshot.document.cardIds.Nodup

/-- What a round puts out after others. -/
structure ValidOutput (bundle : InquiryBundleV1) (before : List RoundRecordV1)
    (snapshotId : String) : Prop where
  known : (snapshotsById bundle.snapshots).has snapshotId
  unowned : ownerOf before snapshotId = none
  no_origin : snapshotId ∉ bundle.journey.originSnapshotIds

/-- A snapshot is an origin, or an ancestor of the round put it out. -/
def IsBefore (journey : InquiryJourneyV1) (snapshotId roundId : String) : Prop :=
  snapshotId ∈ journey.originSnapshotIds ∨
    ∃ ownerId ∈ ownerOf journey.roundRecords snapshotId,
      TransGen (roundsById journey.roundRecords).HasParent roundId ownerId

structure ValidInputs (bundle : InquiryBundleV1) (round : RoundRecordV1) : Prop where
  nodup : round.inputSnapshotIds.Nodup
  known : ∀ inputId ∈ round.inputSnapshotIds, (snapshotsById bundle.snapshots).has inputId
  before : ∀ inputId ∈ round.inputSnapshotIds, IsBefore bundle.journey inputId round.roundId

structure ValidEdge (bundle : InquiryBundleV1) (edge : CardLineageEdgeV1) : Prop where
  cardinality : ¬ hasInvalidCardinality edge
  cards : ∀ address ∈ edge.sources ++ edge.targets,
    hasCard (snapshotsById bundle.snapshots) address
  direction : ∀ target ∈ edge.targets, ∃ targetOwner ∈ ownerOf bundle.journey.roundRecords
    target.snapshotId, ∀ source ∈ edge.sources, IsBefore bundle.journey source.snapshotId targetOwner

structure Valid (dates : DateFormat) (bundle : InquiryBundleV1) : Prop where
  version : bundle.schemaVersion = inquirySchemaVersion
  journey_version : bundle.journey.schemaVersion = inquirySchemaVersion
  timestamps : hasValidTimestamps dates bundle.journey.createdAt bundle.journey.updatedAt
  roundIds : (bundle.journey.roundRecords.map RoundRecordV1.roundId).Nodup
  rounds : ∀ round ∈ bundle.journey.roundRecords,
    ValidRound dates (roundsById bundle.journey.roundRecords) round
  acyclic : ∀ roundId,
    ¬ TransGen (roundsById bundle.journey.roundRecords).HasParent roundId roundId
  heads : ValidHeads bundle.journey
  exported : exportIssues bundle = []
  snapshotIds : (bundle.snapshots.map RoundSnapshotV1.snapshotId).Nodup
  snapshots : ∀ snapshot ∈ bundle.snapshots, ValidSnapshot dates snapshot
  origins_ne_nil : bundle.journey.originSnapshotIds ≠ []
  origins_nodup : bundle.journey.originSnapshotIds.Nodup
  origins_known : ∀ originId ∈ bundle.journey.originSnapshotIds,
    (snapshotsById bundle.snapshots).has originId
  outputs : ∀ before round after, bundle.journey.roundRecords = before ++ round :: after →
    ∀ snapshotId ∈ round.output, ValidOutput bundle before snapshotId
  owned : ∀ snapshot ∈ bundle.snapshots,
    snapshot.snapshotId ∈ bundle.journey.originSnapshotIds ∨
      (outputOwners bundle.journey.roundRecords).has snapshot.snapshotId
  inputs : ∀ round ∈ bundle.journey.roundRecords, ValidInputs bundle round
  handoffs : ∀ round ∈ bundle.journey.roundRecords, handoffIssues bundle round = []
  lineageIds : (bundle.cardLineage.map CardLineageEdgeV1.lineageId).Nodup
  lineage : ∀ edge ∈ bundle.cardLineage, ValidEdge bundle edge

variable {dates : DateFormat} {bundle : InquiryBundleV1}

theorem roundIssues_eq_nil {rounds : RoundsById} :
    roundIssues dates rounds round = [] ↔ ValidRound dates rounds round := by
  simp only [roundIssues, List.append_eq_nil_iff, issueIf_eq_nil, duplicateIssues_eq_nil,
    List.flatMap_eq_nil_iff, not_not, not_or, not_and_or, Int.not_lt]
  constructor
  · rintro ⟨⟨⟨⟨⟨⟨htimestamps, hstage⟩, hstatus⟩, hnodup⟩, hknown⟩, hsafe, hpos, heq⟩, houtput⟩
    exact ⟨htimestamps, hstage, hstatus, hnodup, hknown, hsafe, hpos, heq, houtput⟩
  · rintro ⟨htimestamps, hstage, hstatus, hnodup, hknown, hsafe, hpos, heq, houtput⟩
    exact ⟨⟨⟨⟨⟨⟨htimestamps, hstage⟩, hstatus⟩, hnodup⟩, hknown⟩, hsafe, hpos, heq⟩, houtput⟩

section

variable {rounds : List RoundRecordV1}

/-- With known parents only, the validation meets a cycle if there is one. -/
theorem cycleIssues_eq_nil
    (hknown : ∀ a b, b ∈ (roundsById rounds).parents a → (roundsById rounds).has b) :
    cycleIssues rounds = [] ↔ ∀ roundId, ¬ TransGen (roundsById rounds).HasParent roundId roundId := by
  have hparents : (fun roundId => ((roundsById rounds).parents roundId).filter
      fun parentId => (roundsById rounds).has parentId) = (roundsById rounds).parents := by
    funext roundId
    exact List.filter_eq_self.mpr (hknown roundId)
  rw [cycleIssues, List.map_eq_nil_iff, hparents]
  exact DepthFirst.visitAll_cycles_eq_nil fun a b hedge => has_roundsById.mp (hknown a b hedge)

theorem mem_leafIds :
    roundId ∈ leafIds rounds ↔
      roundId ∈ rounds.map RoundRecordV1.roundId ∧
        ∀ round ∈ rounds, roundId ∉ round.parentRoundIds := by
  rw [leafIds, mem_distinct, List.mem_filter, decide_eq_true_eq, List.mem_flatMap]
  simp only [not_exists, not_and]

theorem headIssues_eq_nil {journey : InquiryJourneyV1} :
    headIssues journey = [] ↔ ValidHeads journey := by
  simp only [headIssues, List.append_eq_nil_iff, issueIf_eq_nil, duplicateIssues_eq_nil,
    List.flatMap_eq_nil_iff, mem_distinct, not_or, not_not]
  constructor
  · rintro ⟨⟨⟨hnodup, hheads⟩, hleaves⟩, hdefault⟩
    refine ⟨hnodup, fun roundId => ⟨fun hhead => (hheads roundId hhead).2, hleaves roundId⟩, ?_⟩
    intro headId hhead
    by_contra hmem
    exact hdefault ⟨headId, hhead, hmem⟩
  · rintro ⟨hnodup, hmem, hdefault⟩
    refine ⟨⟨⟨hnodup, fun headId hhead => ?_⟩, fun leafId hleaf => (hmem leafId).mpr hleaf⟩, ?_⟩
    · have hleaf := (hmem headId).mp hhead
      exact ⟨has_roundsById.mpr (mem_leafIds.mp hleaf).1, hleaf⟩
    · rintro ⟨headId, hhead, hmissing⟩
      exact hmissing (hdefault headId hhead)

end

theorem snapshotIssues_eq_nil {snapshot : RoundSnapshotV1} :
    snapshotIssues dates snapshot = [] ↔ ValidSnapshot dates snapshot := by
  simp only [snapshotIssues, List.append_eq_nil_iff, issueIf_eq_nil, duplicateIssues_eq_nil, not_not]
  constructor
  · rintro ⟨⟨⟨hversion, hdigest⟩, htimestamp⟩, hcards⟩
    exact ⟨hversion, hdigest, htimestamp, hcards⟩
  · rintro ⟨hversion, hdigest, htimestamp, hcards⟩
    exact ⟨⟨⟨hversion, hdigest⟩, htimestamp⟩, hcards⟩

theorem outputIssues_eq_nil {before rounds : List RoundRecordV1} :
    outputIssues bundle (outputOwners before) rounds = [] ↔
      ∀ earlier round later, rounds = earlier ++ round :: later →
        ∀ snapshotId ∈ round.output, ValidOutput bundle (before ++ earlier) snapshotId := by
  induction rounds generalizing before with
  | nil => simp [outputIssues]
  | cons round rounds ih =>
      have howners : claimOutput (outputOwners before) round = outputOwners (before ++ [round]) := by
        rw [outputOwners, outputOwners, List.foldl_append]
        rfl
      rw [outputIssues, List.append_eq_nil_iff, howners, ih]
      constructor
      · rintro ⟨hround, hrounds⟩ earlier other later hsplit snapshotId houtput
        rcases List.cons_eq_append_iff.mp hsplit with ⟨rfl, hother⟩ | ⟨rest, rfl, hrest⟩
        · obtain ⟨rfl, -⟩ := List.cons.inj hother
          rw [Option.mem_def] at houtput
          simp only [houtput, List.append_eq_nil_iff, issueIf_eq_nil, not_not] at hround
          refine ⟨hround.1.1, ?_, hround.2⟩
          rw [List.append_nil, ownerOf]
          exact Option.not_isSome_iff_eq_none.mp hround.1.2
        · have hlater := hrounds rest other later hrest snapshotId houtput
          rwa [List.append_assoc, List.singleton_append] at hlater
      · intro hvalid
        constructor
        · cases houtput : round.output with
          | none => rfl
          | some snapshotId =>
              obtain ⟨hknown, hunowned, horigin⟩ := hvalid [] round rounds rfl snapshotId houtput
              simp only [List.append_eq_nil_iff, issueIf_eq_nil, not_not]
              refine ⟨⟨hknown, ?_⟩, horigin⟩
              rw [List.append_nil, ownerOf] at hunowned
              rw [hunowned]
              simp
        · intro earlier other later hsplit snapshotId houtput
          rw [List.append_assoc, List.singleton_append]
          exact hvalid (round :: earlier) other later (by rw [hsplit]; rfl) snapshotId houtput

theorem inputIssues_eq_nil : inputIssues bundle round = [] ↔ ValidInputs bundle round := by
  simp only [inputIssues, List.append_eq_nil_iff, duplicateIssues_eq_nil, List.flatMap_eq_nil_iff]
  have hinput : ∀ inputId, (if ¬ (snapshotsById bundle.snapshots).has inputId then
      [(⟨.missingSnapshot, roundPath round "inputSnapshotIds." ++ inputId⟩ : InquiryValidationIssue)]
      else issueIf (inputId ∉ bundle.journey.originSnapshotIds ∧
            ¬ ∃ ownerId ∈ ownerOf bundle.journey.roundRecords inputId,
              ownerId ∈ collectAncestorIds round.roundId (roundsById bundle.journey.roundRecords))
          .invalidInputSnapshot (roundPath round "inputSnapshotIds." ++ inputId)) = [] ↔
        (snapshotsById bundle.snapshots).has inputId ∧
          IsBefore bundle.journey inputId round.roundId := by
    intro inputId
    split
    next hmissing => simp [hmissing]
    next hknown =>
      rw [not_not] at hknown
      rw [issueIf_eq_nil, not_and_or, not_not, not_not]
      simp only [mem_collectAncestorIds, hknown, true_and]
      rfl
  simp only [hinput]
  constructor
  · rintro ⟨hnodup, hinputs⟩
    exact ⟨hnodup, fun inputId hmem => (hinputs inputId hmem).1,
      fun inputId hmem => (hinputs inputId hmem).2⟩
  · rintro ⟨hnodup, hknown, hbefore⟩
    exact ⟨hnodup, fun inputId hmem => ⟨hknown inputId hmem, hbefore inputId hmem⟩⟩

theorem directionIssues_eq_nil {target : CardAddressV1} :
    directionIssues bundle edge target = [] ↔
      ∃ targetOwner ∈ ownerOf bundle.journey.roundRecords target.snapshotId,
        ∀ source ∈ edge.sources, IsBefore bundle.journey source.snapshotId targetOwner := by
  cases howner : ownerOf bundle.journey.roundRecords target.snapshotId with
  | none => simp [directionIssues, howner]
  | some targetOwner =>
      simp only [directionIssues, howner, List.flatMap_eq_nil_iff, issueIf_eq_nil, not_and_or, not_not, Option.mem_def,
        Option.some.injEq, exists_eq_left', mem_collectAncestorIds]
      rfl

theorem lineageIssues_eq_nil : lineageIssues bundle edge = [] ↔ ValidEdge bundle edge := by
  simp only [lineageIssues, List.append_eq_nil_iff, issueIf_eq_nil, List.flatMap_eq_nil_iff, not_not,
    directionIssues_eq_nil]
  constructor
  · rintro ⟨⟨hcardinality, hcards⟩, hdirection⟩
    exact ⟨hcardinality, hcards, hdirection⟩
  · rintro ⟨hcardinality, hcards, hdirection⟩
    exact ⟨⟨hcardinality, hcards⟩, hdirection⟩

/-- An artifact that is referred to exists. -/
def KnownArtifact (bundle : InquiryBundleV1) (ref : RoundArtifactRefV1) : Prop :=
  ∃ snapshot ∈ (snapshotsById bundle.snapshots).get? ref.snapshotId,
    ref.entityId ∈ getArtifactIds snapshot ref.kind

theorem handoffIssues_eq_nil {handoff : RoundHandoffV1} (hhandoff : round.handoff = some handoff) :
    handoffIssues bundle round = [] ↔
      (∀ ref ∈ handoff.carryoverRefs ++ handoff.heldRefs, KnownArtifact bundle ref) ∧
        ∀ request ∈ handoff.fieldworkRequests, ∀ ref ∈ request.responseCardRefs,
          hasCard (snapshotsById bundle.snapshots) ref := by
  simp only [handoffIssues, hhandoff, List.append_eq_nil_iff, List.flatMap_eq_nil_iff,
    issueIf_eq_nil, not_not]
  rfl

theorem parents_known {rounds : List RoundRecordV1}
    (hrounds : ∀ round ∈ rounds, ValidRound dates (roundsById rounds) round)
    (hnodup : (rounds.map RoundRecordV1.roundId).Nodup) (a b : String)
    (hparent : b ∈ (roundsById rounds).parents a) : (roundsById rounds).has b := by
  cases hget : (roundsById rounds).get? a with
  | none => simp [RoundsById.parents, hget] at hparent
  | some round =>
      rw [RoundsById.parents_of_get? hget] at hparent
      rw [get?_roundsById hnodup] at hget
      exact (hrounds round (findBy_eq_some _ hget).1).parents_known b hparent

theorem validateInquiryBundle_eq_nil :
    validateInquiryBundle dates bundle = [] ↔ Valid dates bundle := by
  simp only [validateInquiryBundle, versionIssues, originIssues, unownedIssues,
    List.append_eq_nil_iff, List.flatMap_eq_nil_iff, issueIf_eq_nil, duplicateIssues_eq_nil,
    roundIssues_eq_nil, headIssues_eq_nil, snapshotIssues_eq_nil, inputIssues_eq_nil,
    lineageIssues_eq_nil, mem_distinct, not_not, not_and_or]
  have hempty : (InsertionMap.empty : InsertionMap String String) = outputOwners [] := rfl
  rw [hempty, outputIssues_eq_nil]
  constructor
  · rintro ⟨⟨⟨⟨⟨⟨⟨⟨⟨⟨⟨⟨⟨⟨⟨hversion, hjourney⟩, htimestamps⟩, hroundIds⟩, hrounds⟩, hcycles⟩,
      hheads⟩, hexported⟩, hsnapshotIds⟩, hsnapshots⟩, ⟨hne, hnodup⟩, hknown⟩, houtputs⟩, howned⟩,
      hinner⟩, hlineageIds⟩, hlineage⟩
    exact ⟨hversion, hjourney, htimestamps, hroundIds, hrounds,
      (cycleIssues_eq_nil (parents_known hrounds hroundIds)).mp hcycles, hheads, hexported,
      hsnapshotIds, hsnapshots, hne, hnodup, hknown, houtputs, howned,
      fun round hround => (hinner round hround).1, fun round hround => (hinner round hround).2,
      hlineageIds, hlineage⟩
  · rintro ⟨hversion, hjourney, htimestamps, hroundIds, hrounds, hacyclic, hheads, hexported,
      hsnapshotIds, hsnapshots, hne, hnodup, hknown, houtputs, howned, hinputs, hhandoffs,
      hlineageIds, hlineage⟩
    exact ⟨⟨⟨⟨⟨⟨⟨⟨⟨⟨⟨⟨⟨⟨⟨hversion, hjourney⟩, htimestamps⟩, hroundIds⟩, hrounds⟩,
      (cycleIssues_eq_nil (parents_known hrounds hroundIds)).mpr hacyclic⟩, hheads⟩, hexported⟩,
      hsnapshotIds⟩, hsnapshots⟩, ⟨hne, hnodup⟩, hknown⟩, houtputs⟩, howned⟩,
      fun round hround => ⟨hinputs round hround, hhandoffs round hround⟩⟩, hlineageIds⟩, hlineage⟩

end KjAtlas.Inquiry
