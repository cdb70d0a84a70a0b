import KjAtlas.Inquiry.Growth

/-! # Rounds are updated

An update leaves the place of every round in the journey as it is: its id, its
parents, its stage and iteration, and what it takes in and puts out. The graph,
the iterations and the owners of the updated rounds are those before.
-/

namespace KjAtlas.Inquiry

open Js (DateFormat)
open Relation (TransGen)

/-- An update that leaves the place of every round as it is. -/
structure KeepsPlace (update : RoundRecordV1 → RoundRecordV1) : Prop where
  roundId : ∀ round, (update round).roundId = round.roundId
  stage : ∀ round, (update round).stage = round.stage
  iteration : ∀ round, (update round).iteration = round.iteration
  parents : ∀ round, (update round).parentRoundIds = round.parentRoundIds
  inputs : ∀ round, (update round).inputSnapshotIds = round.inputSnapshotIds
  output : ∀ round, (update round).outputSnapshotId = round.outputSnapshotId

namespace KeepsPlace

variable {update : RoundRecordV1 → RoundRecordV1} (hkeeps : KeepsPlace update)
  (rounds : List RoundRecordV1)

include hkeeps

theorem output_eq (round : RoundRecordV1) : (update round).output = round.output := by
  rw [RoundRecordV1.output, RoundRecordV1.output, hkeeps.output]

theorem map_roundId : (rounds.map update).map RoundRecordV1.roundId =
    rounds.map RoundRecordV1.roundId := by
  rw [List.map_map]
  exact List.map_congr_left fun round _ => hkeeps.roundId round

theorem get?_map (roundId : String) :
    (roundsById (rounds.map update)).get? roundId =
      ((roundsById rounds).get? roundId).map update := by
  have hentries : (rounds.map update).map (fun round => (round.roundId, round)) =
      (rounds.map fun round => (round.roundId, round)).map
        fun entry => (entry.1, (fun _ round => update round) entry.1 entry.2) := by
    rw [List.map_map, List.map_map]
    exact List.map_congr_left fun round _ => by simp [hkeeps.roundId]
  rw [roundsById, hentries, InsertionMap.get?_ofList_map_snd (fun _ round => update round)]
  rfl

theorem has_map (roundId : String) :
    (roundsById (rounds.map update)).has roundId = (roundsById rounds).has roundId := by
  rw [InsertionMap.has, InsertionMap.has, hkeeps.get?_map, Option.isSome_map]

theorem parents_map : (roundsById (rounds.map update)).parents = (roundsById rounds).parents := by
  funext roundId
  rw [RoundsById.parents, RoundsById.parents, hkeeps.get?_map]
  cases (roundsById rounds).get? roundId with
  | none => rfl
  | some round => exact hkeeps.parents round

theorem hasParent_map :
    (roundsById (rounds.map update)).HasParent = (roundsById rounds).HasParent := by
  unfold RoundsById.HasParent
  rw [hkeeps.parents_map]

theorem previousMaximum_map (stage : String) {ids ids' : List String}
    (hids : ∀ id, id ∈ ids ↔ id ∈ ids') :
    previousMaximum (roundsById (rounds.map update)) stage ids =
      previousMaximum (roundsById rounds) stage ids' := by
  apply eq_of_forall_ge_iff
  intro bound
  rw [previousMaximum_le_iff, previousMaximum_le_iff]
  apply and_congr_right'
  simp only [hkeeps.get?_map, Option.mem_def, Option.map_eq_some_iff, hids]
  constructor
  · intro hall id hid round hround hstage
    have hle := hall id hid (update round) ⟨round, hround, rfl⟩ ((hkeeps.stage round).trans hstage)
    rwa [hkeeps.iteration] at hle
  · rintro hall id hid _ ⟨round, hround, rfl⟩ hstage
    rw [hkeeps.iteration]
    exact hall id hid round hround ((hkeeps.stage round).symm.trans hstage)

theorem expectedIteration_map (round : RoundRecordV1) :
    expectedIteration (update round) (roundsById (rounds.map update)) =
      expectedIteration round (roundsById rounds) := by
  unfold expectedIteration
  rw [hkeeps.stage, hkeeps.roundId]
  congr 1
  refine hkeeps.previousMaximum_map rounds round.stage fun id => ?_
  rw [mem_collectAncestorIds, mem_collectAncestorIds, hkeeps.hasParent_map]

theorem outputOwners_map : outputOwners (rounds.map update) = outputOwners rounds := by
  rw [outputOwners, outputOwners, List.foldl_map]
  congr 1
  funext owners round
  rw [claimOutput, claimOutput, hkeeps.output_eq, hkeeps.roundId]

theorem ownerOf_map (snapshotId : String) :
    ownerOf (rounds.map update) snapshotId = ownerOf rounds snapshotId := by
  rw [ownerOf, ownerOf, hkeeps.outputOwners_map]

theorem leafIds_map : leafIds (rounds.map update) = leafIds rounds := by
  have hparents : (rounds.map update).flatMap RoundRecordV1.parentRoundIds =
      rounds.flatMap RoundRecordV1.parentRoundIds := by
    rw [List.flatMap_map]
    congr 1
    funext round
    exact hkeeps.parents round
  unfold leafIds
  rw [hkeeps.map_roundId, hparents]

end KeepsPlace

/-! ## Validity -/

def updated (bundle : InquiryBundleV1) (update : RoundRecordV1 → RoundRecordV1)
    (updatedAt : String) : InquiryBundleV1 :=
  { bundle with
    journey := { bundle.journey with
      roundRecords := bundle.journey.roundRecords.map update
      updatedAt } }

/-- What has to hold of an updated round for itself. -/
structure UpdatesRound (dates : DateFormat) (bundle : InquiryBundleV1)
    (update : RoundRecordV1 → RoundRecordV1) (round : RoundRecordV1) : Prop where
  timestamps : hasValidTimestamps dates (update round).createdAt (update round).updatedAt
  status : (update round).status ∈ roundStatuses
  output : (update round).status = "working" ∨ round.output ≠ none
  handoff : handoffIssues bundle (update round) = []

section Valid

variable {dates : DateFormat} {bundle : InquiryBundleV1} {update : RoundRecordV1 → RoundRecordV1}
  {updatedAt : String}

theorem isBefore_updated (hkeeps : KeepsPlace update) (snapshotId roundId : String) :
    IsBefore (updated bundle update updatedAt).journey snapshotId roundId ↔
      IsBefore bundle.journey snapshotId roundId := by
  unfold IsBefore updated
  rw [hkeeps.ownerOf_map, hkeeps.hasParent_map]

theorem ValidRound.updated {rounds : List RoundRecordV1} {round : RoundRecordV1}
    (hvalid : ValidRound dates (roundsById rounds) round) (hkeeps : KeepsPlace update)
    (hround : UpdatesRound dates bundle update round) :
    ValidRound dates (roundsById (rounds.map update)) (update round) where
  timestamps := hround.timestamps
  stage := (hkeeps.stage round).symm ▸ hvalid.stage
  status := hround.status
  parents_nodup := (hkeeps.parents round).symm ▸ hvalid.parents_nodup
  parents_known := by
    intro parentId hparent
    rw [hkeeps.parents] at hparent
    rw [hkeeps.has_map]
    exact hvalid.parents_known parentId hparent
  iteration_safe := (hkeeps.iteration round).symm ▸ hvalid.iteration_safe
  iteration_pos := (hkeeps.iteration round).symm ▸ hvalid.iteration_pos
  iteration_eq := by
    rw [hkeeps.iteration, hkeeps.expectedIteration_map]
    exact hvalid.iteration_eq
  output := by
    rw [hkeeps.output_eq]
    exact hround.output

theorem ValidHeads.updated (hvalid : ValidHeads bundle.journey) (hkeeps : KeepsPlace update) :
    ValidHeads (updated bundle update updatedAt).journey where
  nodup := hvalid.nodup
  mem_iff := by
    intro roundId
    have hleaves := hkeeps.leafIds_map bundle.journey.roundRecords
    rw [show (KjAtlas.Inquiry.updated bundle update updatedAt).journey.roundRecords =
      bundle.journey.roundRecords.map update from rfl, hleaves]
    exact hvalid.mem_iff roundId
  default := hvalid.default

theorem Valid.updated (hvalid : Valid dates bundle) (hkeeps : KeepsPlace update)
    (htimestamps : hasValidTimestamps dates bundle.journey.createdAt updatedAt)
    (hrounds : ∀ round ∈ bundle.journey.roundRecords, UpdatesRound dates bundle update round) :
    Valid dates (updated bundle update updatedAt) where
  version := hvalid.version
  journey_version := hvalid.journey_version
  timestamps := htimestamps
  roundIds := by
    have hids := hkeeps.map_roundId bundle.journey.roundRecords
    exact (congrArg List.Nodup hids).mpr hvalid.roundIds
  rounds := by
    intro round hround
    obtain ⟨before, hbefore, rfl⟩ := List.mem_map.mp hround
    exact (hvalid.rounds before hbefore).updated hkeeps (hrounds before hbefore)
  acyclic := by
    intro roundId hcycle
    have hparents := hkeeps.hasParent_map bundle.journey.roundRecords
    exact hvalid.acyclic roundId (hparents ▸ hcycle)
  heads := hvalid.heads.updated hkeeps
  exported := hvalid.exported
  snapshotIds := hvalid.snapshotIds
  snapshots := hvalid.snapshots
  origins_ne_nil := hvalid.origins_ne_nil
  origins_nodup := hvalid.origins_nodup
  origins_known := hvalid.origins_known
  outputs := by
    intro before round after hsplit snapshotId houtput
    obtain ⟨before', rest, hrecords, rfl, hrest⟩ := List.map_eq_append_iff.mp hsplit
    obtain ⟨round', after', rfl, rfl, rfl⟩ := List.map_eq_cons_iff.mp hrest
    rw [hkeeps.output_eq] at houtput
    obtain ⟨hknown, hunowned, horigin⟩ :=
      hvalid.outputs before' round' after' hrecords snapshotId houtput
    exact ⟨hknown, (hkeeps.ownerOf_map before' snapshotId).trans hunowned, horigin⟩
  owned := by
    intro snapshot hsnapshot
    have howners := hkeeps.outputOwners_map bundle.journey.roundRecords
    refine (hvalid.owned snapshot hsnapshot).imp_right fun hhas => ?_
    exact (congrArg (fun owners => owners.has snapshot.snapshotId = true) howners).mpr hhas
  inputs := by
    intro round hround
    obtain ⟨before, hbefore, rfl⟩ := List.mem_map.mp hround
    obtain ⟨hnodup, hknown, hinputs⟩ := hvalid.inputs before hbefore
    refine ⟨(hkeeps.inputs before).symm ▸ hnodup, ?_, ?_⟩
    · rw [hkeeps.inputs]
      exact hknown
    · rw [hkeeps.inputs, hkeeps.roundId]
      intro inputId hinput
      exact (isBefore_updated hkeeps inputId before.roundId).mpr (hinputs inputId hinput)
  handoffs := by
    intro round hround
    obtain ⟨before, hbefore, rfl⟩ := List.mem_map.mp hround
    exact (hrounds before hbefore).handoff
  lineageIds := hvalid.lineageIds
  lineage := by
    intro edge hedge
    obtain ⟨hcardinality, hcards, hdirection⟩ := hvalid.lineage edge hedge
    refine ⟨hcardinality, hcards, fun target htarget => ?_⟩
    obtain ⟨owner, howner, hsources⟩ := hdirection target htarget
    have howner' := (hkeeps.ownerOf_map bundle.journey.roundRecords target.snapshotId).trans howner
    exact ⟨owner, howner', fun source hsource =>
      (isBefore_updated hkeeps source.snapshotId owner).mpr (hsources source hsource)⟩

end Valid

end KjAtlas.Inquiry
