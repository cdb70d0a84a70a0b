import KjAtlas.Inquiry.Growth
import KjAtlas.Js.Order

/-! # The bundle of a round

A selected round and its ancestors make a bundle of their own, with the snapshots
that they take in and put out and with the lineage between these. It is refused
when a handoff or a lineage edge leads out of these snapshots.
-/

namespace KjAtlas.Inquiry

open Js (DateFormat codeUnitLe)
open Relation (ReflTransGen TransGen)

inductive InquiryBundleProjectionResult where
  | ok (bundle : InquiryBundleV1)
  | roundNotFound
  | invalidBundle (issues : List InquiryValidationIssue)
  | dependencyOutsideScope (snapshotIds : List String)
deriving DecidableEq

def collectRoundScope (bundle : InquiryBundleV1) (selectedRoundId : String) :
    Option (List String) :=
  let rounds := roundsById bundle.journey.roundRecords
  if rounds.has selectedRoundId then
    some (collectFrom rounds.parents
      (1 + (rounds.keys.map fun roundId => (rounds.parents roundId).length).sum) []
      [selectedRoundId]).1
  else none

def includedSnapshotIds (originIds : List String) (includedRounds : List RoundRecordV1) :
    List String :=
  originIds ++ includedRounds.flatMap fun round => round.inputSnapshotIds ++ round.output.toList

def handoffSnapshotIds (round : RoundRecordV1) : List String :=
  match round.handoff with
  | none => []
  | some handoff =>
      (handoff.carryoverRefs ++ handoff.heldRefs).map RoundArtifactRefV1.snapshotId ++
        handoff.fieldworkRequests.flatMap fun request =>
          request.responseCardRefs.map CardAddressV1.snapshotId

def CardLineageEdgeV1.snapshotIds (edge : CardLineageEdgeV1) : List String :=
  (edge.sources ++ edge.targets).map CardAddressV1.snapshotId

/-- How an edge lies to a set of snapshots. -/
inductive EdgeScope where
  | excluded
  | crossing (outside : List String)
  | included
deriving DecidableEq

def edgeScope (inside : List String) (edge : CardLineageEdgeV1) : EdgeScope :=
  if edge.targets ≠ [] ∧ ¬ ∃ target ∈ edge.targets, target.snapshotId ∈ inside then .excluded
  else if edge.targets = [] ∧ ¬ ∃ source ∈ edge.sources, source.snapshotId ∈ inside then .excluded
  else
    match edge.snapshotIds.filter fun snapshotId => snapshotId ∉ inside with
    | [] => .included
    | outside => .crossing outside

def EdgeScope.outside : EdgeScope → List String
  | .crossing outside => outside
  | _ => []

/-- The snapshots outside that handoffs and lineage refer to. -/
def outsideDependencies (inside : List String) (includedRounds : List RoundRecordV1)
    (lineage : List CardLineageEdgeV1) : List String :=
  distinct ((includedRounds.flatMap fun round =>
      (handoffSnapshotIds round).filter fun snapshotId => snapshotId ∉ inside) ++
    lineage.flatMap fun edge => (edgeScope inside edge).outside)

def deriveInquiryRoundBundle (dates : DateFormat) (source : InquiryBundleV1)
    (selectedRoundId : String) : InquiryBundleProjectionResult :=
  let sourceIssues := validateInquiryBundle dates source
  if sourceIssues ≠ [] then .invalidBundle sourceIssues
  else
    match collectRoundScope source selectedRoundId with
    | none => .roundNotFound
    | some includedRoundIds =>
        let includedRounds := source.journey.roundRecords.filter fun round =>
          round.roundId ∈ includedRoundIds
        let inside := includedSnapshotIds source.journey.originSnapshotIds includedRounds
        let outside := outsideDependencies inside includedRounds source.cardLineage
        if outside ≠ [] then .dependencyOutsideScope (sortOn codeUnitLe id outside)
        else
          let projected : InquiryBundleV1 := { source with
            journey := { source.journey with
              roundRecords := includedRounds
              headRoundIds := [selectedRoundId]
              defaultHeadRoundId := some selectedRoundId }
            snapshots := source.snapshots.filter fun snapshot => snapshot.snapshotId ∈ inside
            cardLineage := source.cardLineage.filter fun edge => edgeScope inside edge = .included }
          let projectedIssues := validateInquiryBundle dates projected
          if projectedIssues ≠ [] then .invalidBundle projectedIssues else .ok projected

/-! ## Scopes -/

section Scope

variable (bundle : InquiryBundleV1) (roundId : String)

/-- The selected round, or an ancestor of it. -/
def InRoundScope (other : String) : Prop :=
  ReflTransGen (roundsById bundle.journey.roundRecords).HasParent roundId other

/-- An origin, or what a round in scope takes in or puts out. -/
def InSnapshotScope (snapshotId : String) : Prop :=
  snapshotId ∈ bundle.journey.originSnapshotIds ∨
    ∃ round ∈ bundle.journey.roundRecords, InRoundScope bundle roundId round.roundId ∧
      (snapshotId ∈ round.inputSnapshotIds ∨ round.output = some snapshotId)

inductive DependsOn (snapshotId : String) : Prop
  /-- The handoff of a round in scope refers to it. -/
  | handoff {round : RoundRecordV1} (hround : round ∈ bundle.journey.roundRecords)
      (hscope : InRoundScope bundle roundId round.roundId)
      (href : snapshotId ∈ handoffSnapshotIds round)
      (houtside : ¬ InSnapshotScope bundle roundId snapshotId)
  /-- An edge leads into the scope, and has an address outside. -/
  | crossing {edge : CardLineageEdgeV1} (hedge : edge ∈ bundle.cardLineage) {target : CardAddressV1}
      (htarget : target ∈ edge.targets) (hinside : InSnapshotScope bundle roundId target.snapshotId)
      (haddress : snapshotId ∈ edge.snapshotIds)
      (houtside : ¬ InSnapshotScope bundle roundId snapshotId)
  /-- An edge retires a card in the scope, and has an address outside. -/
  | retired {edge : CardLineageEdgeV1} (hedge : edge ∈ bundle.cardLineage) {source : CardAddressV1}
      (hretired : edge.lineage = .retired source)
      (hinside : InSnapshotScope bundle roundId source.snapshotId)
      (haddress : snapshotId ∈ edge.snapshotIds)
      (houtside : ¬ InSnapshotScope bundle roundId snapshotId)

theorem collectRoundScope_eq {includedRoundIds : List String}
    (hcollect : collectRoundScope bundle roundId = some includedRoundIds) (other : String) :
    other ∈ includedRoundIds ↔ InRoundScope bundle roundId other := by
  unfold collectRoundScope at hcollect
  dsimp only at hcollect
  split at hcollect
  next =>
    obtain rfl := Option.some.inj hcollect
    have hspec := @collectFrom_spec String (roundsById bundle.journey.roundRecords).parents _ _ []
      [roundId] _ (fun a _ ha => RoundsById.parents_of_not_mem ha) (by simp) (le_of_eq rfl)
    rw [List.length_singleton] at hspec
    rw [hspec.2]
    simp [InRoundScope]
  next => cases hcollect

theorem exists_collectRoundScope
    (hround : roundId ∈ bundle.journey.roundRecords.map RoundRecordV1.roundId) :
    ∃ includedRoundIds, collectRoundScope bundle roundId = some includedRoundIds := by
  unfold collectRoundScope
  dsimp only
  rw [if_pos (has_roundsById.mpr hround)]
  exact ⟨_, rfl⟩

end Scope

end KjAtlas.Inquiry
