import KjAtlas.Inquiry.RoundBundle

/-! # When the bundle of a round is exact

A selected round and its ancestors are closed under parents, so that their
ancestry, iterations, inputs and owners are those of the whole bundle. The
projection passes the validation again unless it keeps the export information of
another round, or keeps an edge into a snapshot whose owner is out of scope.
-/

namespace KjAtlas.Inquiry

open Js (DateFormat codeUnitLe)
open Relation (ReflTransGen TransGen)

/-! ## Owners -/

section Owners

variable {rounds : List RoundRecordV1} {snapshotId ownerId : String}

def SingleOwner (rounds : List RoundRecordV1) : Prop :=
  ∀ before round after, rounds = before ++ round :: after →
    ∀ snapshotId ∈ round.output, ownerOf before snapshotId = none

variable {later : List RoundRecordV1} {round : RoundRecordV1}

theorem SingleOwner.left (hsingle : SingleOwner (rounds ++ later)) : SingleOwner rounds := by
  rintro before round after rfl
  exact hsingle before round (after ++ later) (by simp)

theorem ownerOf_append_later (howner : ownerOf rounds snapshotId = some ownerId) :
    ownerOf (rounds ++ later) snapshotId = some ownerId := by
  induction later using List.reverseRecOn with
  | nil => rwa [List.append_nil]
  | append_singleton later round ih =>
      rw [← List.append_assoc]
      exact ownerOf_append_old ih

theorem ne_of_ownerOf (howner : ownerOf rounds snapshotId = some ownerId) : ownerId ≠ "" := by
  rw [ownerOf, Option.filter_eq_some_iff, decide_eq_true_eq] at howner
  exact howner.2

theorem SingleOwner.ownerOf_iff (hsingle : SingleOwner rounds) :
    ownerOf rounds snapshotId = some ownerId ↔ ownerId ≠ "" ∧
      ∃ round ∈ rounds, round.roundId = ownerId ∧ round.output = some snapshotId := by
  constructor
  · exact fun howner => ⟨ne_of_ownerOf howner, ownerOf_eq_some howner⟩
  · rintro ⟨hne, round, hround, rfl, houtput⟩
    obtain ⟨before, after, rfl⟩ := List.append_of_mem hround
    have hunowned := hsingle before round after rfl snapshotId houtput
    have howner := ownerOf_append_new houtput hne hunowned
    rw [List.append_cons]
    exact ownerOf_append_later howner

theorem SingleOwner.filter (hsingle : SingleOwner rounds) (keep : RoundRecordV1 → Bool) :
    SingleOwner (rounds.filter keep) := by
  intro before round after hsplit snapshotId houtput
  obtain ⟨left, right, rfl, rfl, hright⟩ := List.filter_eq_append_iff.mp hsplit
  obtain ⟨dropped, later, rfl, -, -, -⟩ := List.filter_eq_cons_iff.mp hright
  rw [← List.append_assoc] at hsingle
  have hunowned := hsingle (left ++ dropped) round later rfl snapshotId houtput
  have hearlier : SingleOwner (left ++ dropped) := hsingle.left
  by_contra howned
  obtain ⟨ownerId, howner⟩ := Option.ne_none_iff_exists'.mp howned
  obtain ⟨owner, hmem, hid, howns⟩ := ownerOf_eq_some howner
  have hkept : owner ∈ left ++ dropped := List.mem_append_left _ (List.mem_filter.mp hmem).1
  rw [hearlier.ownerOf_iff.mpr ⟨ne_of_ownerOf howner, owner, hkept, hid, howns⟩] at hunowned
  cases hunowned

theorem has_outputOwners (hround : round ∈ rounds) (houtput : round.output = some snapshotId) :
    (outputOwners rounds).has snapshotId := by
  induction rounds using List.reverseRecOn with
  | nil => exact absurd hround List.not_mem_nil
  | append_singleton rounds last ih =>
      rcases mem_snoc.mp hround with hearlier | rfl
      · exact has_outputOwners_append (ih hearlier)
      · rw [outputOwners_append, claimOutput, houtput]
        dsimp only
        split
        next howned =>
          obtain ⟨owner, howner⟩ := Option.isSome_iff_exists.mp howned
          rw [InsertionMap.has, (Option.filter_eq_some_iff.mp howner).1]
          rfl
        next =>
          rw [InsertionMap.has, InsertionMap.get?_set, if_pos rfl]
          rfl

end Owners

theorem Valid.singleOwner {dates : DateFormat} {bundle : InquiryBundleV1}
    (hvalid : Valid dates bundle) : SingleOwner bundle.journey.roundRecords :=
  fun before round after hsplit snapshotId houtput =>
    (hvalid.outputs before round after hsplit snapshotId houtput).unowned

/-! ## Rounds in scope -/

section Rounds

variable {dates : DateFormat} {bundle : InquiryBundleV1} {roundId : String}
  {includedRoundIds : List String} {round : RoundRecordV1}

def includedRounds (bundle : InquiryBundleV1) (includedRoundIds : List String) :
    List RoundRecordV1 :=
  bundle.journey.roundRecords.filter fun round => round.roundId ∈ includedRoundIds

def inside (bundle : InquiryBundleV1) (includedRoundIds : List String) : List String :=
  includedSnapshotIds bundle.journey.originSnapshotIds (includedRounds bundle includedRoundIds)

/-- A scope that is collected in a valid bundle for a round that exists. -/
structure Scoped (dates : DateFormat) (bundle : InquiryBundleV1) (roundId : String)
    (includedRoundIds : List String) : Prop where
  valid : Valid dates bundle
  mem_iff : ∀ other, other ∈ includedRoundIds ↔ InRoundScope bundle roundId other
  selected : roundId ∈ bundle.journey.roundRecords.map RoundRecordV1.roundId

def projected (bundle : InquiryBundleV1) (roundId : String) (includedRoundIds : List String) :
    InquiryBundleV1 :=
  { bundle with
    journey := { bundle.journey with
      roundRecords := includedRounds bundle includedRoundIds
      headRoundIds := [roundId]
      defaultHeadRoundId := some roundId }
    snapshots := bundle.snapshots.filter fun snapshot =>
      snapshot.snapshotId ∈ inside bundle includedRoundIds
    cardLineage := bundle.cardLineage.filter fun edge =>
      edgeScope (inside bundle includedRoundIds) edge = .included }

def LeadsToScope (bundle : InquiryBundleV1) (roundId : String) (edge : CardLineageEdgeV1) : Prop :=
  ∀ target ∈ edge.targets, ∃ ownerId ∈ ownerOf bundle.journey.roundRecords target.snapshotId,
    InRoundScope bundle roundId ownerId

/-- What the projection has to keep apart from what it always keeps. -/
structure Projects (bundle : InquiryBundleV1) (roundId : String) : Prop where
  /-- The bundle is not the export of another round. -/
  exported : ∀ selectedRoundId, bundle.exportInfo = some (.round selectedRoundId) →
    selectedRoundId = roundId
  /-- Edges within the scope lead to snapshots that rounds in scope own. -/
  lineage : ∀ edge ∈ bundle.cardLineage,
    (∀ snapshotId ∈ edge.snapshotIds, InSnapshotScope bundle roundId snapshotId) →
      LeadsToScope bundle roundId edge

namespace Scoped

variable (hscoped : Scoped dates bundle roundId includedRoundIds)

include hscoped

theorem mem_includedRounds :
    round ∈ includedRounds bundle includedRoundIds ↔
      round ∈ bundle.journey.roundRecords ∧ InRoundScope bundle roundId round.roundId := by
  rw [includedRounds, List.mem_filter, decide_eq_true_eq, hscoped.mem_iff]

theorem nodup_included :
    ((includedRounds bundle includedRoundIds).map RoundRecordV1.roundId).Nodup :=
  hscoped.valid.roundIds.sublist (List.filter_sublist.map _)

/-- A round in scope is found as before, and no other round is found. -/
theorem get?_included (other : String) :
    (roundsById (includedRounds bundle includedRoundIds)).get? other =
      if other ∈ includedRoundIds then (roundsById bundle.journey.roundRecords).get? other
        else none := by
  rw [get?_roundsById hscoped.nodup_included, get?_roundsById hscoped.valid.roundIds,
    includedRounds, findBy_filter _ _ _ hscoped.valid.roundIds]
  cases hfind : findBy RoundRecordV1.roundId other bundle.journey.roundRecords with
  | none => simp
  | some round =>
      obtain ⟨-, rfl⟩ := findBy_eq_some _ hfind
      rw [Option.filter_some]
      simp

theorem parents_included (other : String) :
    (roundsById (includedRounds bundle includedRoundIds)).parents other =
      if other ∈ includedRoundIds then (roundsById bundle.journey.roundRecords).parents other
        else [] := by
  unfold RoundsById.parents
  rw [hscoped.get?_included]
  split <;> rfl

theorem parent_mem {a b : String} (ha : a ∈ includedRoundIds)
    (hparent : (roundsById bundle.journey.roundRecords).HasParent a b) : b ∈ includedRoundIds := by
  rw [hscoped.mem_iff] at ha ⊢
  exact ha.tail hparent

theorem hasParent_included {a b : String} :
    (roundsById (includedRounds bundle includedRoundIds)).HasParent a b ↔
      a ∈ includedRoundIds ∧ (roundsById bundle.journey.roundRecords).HasParent a b := by
  unfold RoundsById.HasParent Points
  rw [hscoped.parents_included]
  split
  next ha => simp [ha]
  next ha => simp [ha]

/-- The ancestors of a round in scope are those that it has in the whole bundle. -/
theorem transGen_included {a b : String} (ha : a ∈ includedRoundIds) :
    TransGen (roundsById (includedRounds bundle includedRoundIds)).HasParent a b ↔
      b ∈ includedRoundIds ∧ TransGen (roundsById bundle.journey.roundRecords).HasParent a b := by
  constructor
  · intro hancestor
    induction hancestor with
    | single hparent =>
        rw [hscoped.hasParent_included] at hparent
        exact ⟨hscoped.parent_mem ha hparent.2, .single hparent.2⟩
    | tail _ hparent ih =>
        rw [hscoped.hasParent_included] at hparent
        exact ⟨hscoped.parent_mem ih.1 hparent.2, ih.2.tail hparent.2⟩
  · rintro ⟨-, hancestor⟩
    suffices hboth : b ∈ includedRoundIds ∧
        TransGen (roundsById (includedRounds bundle includedRoundIds)).HasParent a b from hboth.2
    induction hancestor with
    | single hparent =>
        exact ⟨hscoped.parent_mem ha hparent,
          .single (hscoped.hasParent_included.mpr ⟨ha, hparent⟩)⟩
    | tail _ hparent ih =>
        exact ⟨hscoped.parent_mem ih.1 hparent,
          ih.2.tail (hscoped.hasParent_included.mpr ⟨ih.1, hparent⟩)⟩

theorem acyclic_included (a : String) :
    ¬ TransGen (roundsById (includedRounds bundle includedRoundIds)).HasParent a a := by
  intro hcycle
  exact hscoped.valid.acyclic a
    (hcycle.lift id fun b c hparent => (hscoped.hasParent_included.mp hparent).2)

theorem ancestor_mem {a b : String} (ha : a ∈ includedRoundIds)
    (hancestor : TransGen (roundsById bundle.journey.roundRecords).HasParent a b) :
    b ∈ includedRoundIds := by
  rw [hscoped.mem_iff] at ha ⊢
  exact ha.trans hancestor.to_reflTransGen

theorem expectedIteration_included (hround : round.roundId ∈ includedRoundIds) :
    expectedIteration round (roundsById (includedRounds bundle includedRoundIds)) =
      expectedIteration round (roundsById bundle.journey.roundRecords) := by
  unfold expectedIteration
  congr 1
  refine previousMaximum_congr (fun id => ?_) fun id hid => ?_
  · rw [mem_collectAncestorIds, mem_collectAncestorIds, hscoped.transGen_included hround]
    exact ⟨And.right, fun hancestor => ⟨hscoped.ancestor_mem hround hancestor, hancestor⟩⟩
  · rw [mem_collectAncestorIds, hscoped.transGen_included hround] at hid
    rw [hscoped.get?_included, if_pos hid.1]

theorem hasParent_of_mem (hround : round ∈ bundle.journey.roundRecords) {parentId : String}
    (hparent : parentId ∈ round.parentRoundIds) :
    (roundsById bundle.journey.roundRecords).HasParent round.roundId parentId := by
  have hget : (roundsById bundle.journey.roundRecords).get? round.roundId = some round := by
    rw [get?_roundsById hscoped.valid.roundIds]
    exact findBy_of_mem _ hscoped.valid.roundIds hround
  unfold RoundsById.HasParent Points
  rwa [RoundsById.parents_of_get? hget]

theorem exists_of_hasParent {a b : String}
    (hparent : (roundsById bundle.journey.roundRecords).HasParent a b) :
    ∃ round ∈ bundle.journey.roundRecords, round.roundId = a ∧ b ∈ round.parentRoundIds := by
  unfold RoundsById.HasParent Points at hparent
  cases hget : (roundsById bundle.journey.roundRecords).get? a with
  | none => simp [RoundsById.parents, hget] at hparent
  | some round =>
      rw [RoundsById.parents_of_get? hget] at hparent
      rw [get?_roundsById hscoped.valid.roundIds] at hget
      exact ⟨round, (findBy_eq_some _ hget).1, (findBy_eq_some _ hget).2, hparent⟩

theorem validRound_included (hround : round ∈ includedRounds bundle includedRoundIds) :
    ValidRound dates (roundsById (includedRounds bundle includedRoundIds)) round := by
  obtain ⟨hmem, hscope⟩ := hscoped.mem_includedRounds.mp hround
  have hid := (hscoped.mem_iff _).mpr hscope
  have hvalid := hscoped.valid.rounds round hmem
  refine { hvalid with parents_known := fun parentId hparent => ?_, iteration_eq := ?_ }
  · have hedge := hscoped.hasParent_of_mem hmem hparent
    have hknown := hvalid.parents_known parentId hparent
    rw [InsertionMap.has] at hknown ⊢
    rwa [hscoped.get?_included, if_pos (hscoped.parent_mem hid hedge)]
  · rw [hscoped.expectedIteration_included hid]
    exact hvalid.iteration_eq

theorem mem_leafIds_included (other : String) :
    other ∈ leafIds (includedRounds bundle includedRoundIds) ↔ other = roundId := by
  rw [mem_leafIds]
  constructor
  · rintro ⟨hother, hleaf⟩
    obtain ⟨round, hround, rfl⟩ := List.mem_map.mp hother
    obtain ⟨-, hscope⟩ := hscoped.mem_includedRounds.mp hround
    rcases Relation.ReflTransGen.cases_tail hscope with heq | ⟨child, hchild, hparent⟩
    · exact heq
    · obtain ⟨record, hrecord, rfl, hmem⟩ := hscoped.exists_of_hasParent hparent
      exact absurd hmem (hleaf record (hscoped.mem_includedRounds.mpr ⟨hrecord, hchild⟩))
  · rintro rfl
    obtain ⟨selected, hselected, hid⟩ := List.mem_map.mp hscoped.selected
    refine ⟨List.mem_map.mpr ⟨selected, hscoped.mem_includedRounds.mpr ⟨hselected, ?_⟩, hid⟩, ?_⟩
    · rw [hid]
      exact .refl
    · intro child hchild hparent
      obtain ⟨hmem, hscope⟩ := hscoped.mem_includedRounds.mp hchild
      exact hscoped.valid.acyclic other
        (Relation.TransGen.tail' hscope (hscoped.hasParent_of_mem hmem hparent))

/-! ## Snapshots in scope -/

variable {snapshotId : String} {edge : CardLineageEdgeV1}

theorem mem_inside :
    snapshotId ∈ inside bundle includedRoundIds ↔ InSnapshotScope bundle roundId snapshotId := by
  rw [inside, includedSnapshotIds, List.mem_append, List.mem_flatMap, InSnapshotScope]
  refine or_congr Iff.rfl (exists_congr fun round => ?_)
  rw [hscoped.mem_includedRounds, List.mem_append, Option.mem_toList, and_assoc]

theorem known_of_inside (hinside : snapshotId ∈ inside bundle includedRoundIds) :
    (snapshotsById bundle.snapshots).has snapshotId := by
  rcases hscoped.mem_inside.mp hinside with horigin | ⟨round, hround, -, hinput | houtput⟩
  · exact hscoped.valid.origins_known snapshotId horigin
  · exact (hscoped.valid.inputs round hround).known snapshotId hinput
  · obtain ⟨before, after, hsplit⟩ := List.append_of_mem hround
    exact (hscoped.valid.outputs before round after hsplit snapshotId houtput).known

theorem origin_or_output (hinside : snapshotId ∈ inside bundle includedRoundIds) :
    snapshotId ∈ bundle.journey.originSnapshotIds ∨
      ∃ round ∈ includedRounds bundle includedRoundIds, round.output = some snapshotId := by
  rcases hscoped.mem_inside.mp hinside with horigin | ⟨round, hround, hscope, hinput | houtput⟩
  · exact .inl horigin
  · rcases (hscoped.valid.inputs round hround).before snapshotId hinput with
      horigin | ⟨ownerId, howner, hancestor⟩
    · exact .inl horigin
    · obtain ⟨owner, hmem, rfl, houtput⟩ := ownerOf_eq_some howner
      exact .inr ⟨owner, hscoped.mem_includedRounds.mpr
        ⟨hmem, hscope.trans hancestor.to_reflTransGen⟩, houtput⟩
  · exact .inr ⟨round, hscoped.mem_includedRounds.mpr ⟨hround, hscope⟩, houtput⟩

theorem nodup_snapshots (inside : List String) :
    ((bundle.snapshots.filter fun snapshot => snapshot.snapshotId ∈ inside).map
      RoundSnapshotV1.snapshotId).Nodup :=
  hscoped.valid.snapshotIds.sublist (List.filter_sublist.map _)

theorem get?_snapshots (inside : List String) (snapshotId : String) :
    (snapshotsById (bundle.snapshots.filter fun snapshot => snapshot.snapshotId ∈ inside)).get?
        snapshotId =
      if snapshotId ∈ inside then (snapshotsById bundle.snapshots).get? snapshotId else none := by
  rw [get?_snapshotsById (hscoped.nodup_snapshots inside),
    get?_snapshotsById hscoped.valid.snapshotIds, findBy_filter _ _ _ hscoped.valid.snapshotIds]
  cases hfind : findBy RoundSnapshotV1.snapshotId snapshotId bundle.snapshots with
  | none => simp
  | some snapshot =>
      obtain ⟨-, rfl⟩ := findBy_eq_some _ hfind
      rw [Option.filter_some]
      simp

theorem ownerOf_included {ownerId : String} :
    ownerOf (includedRounds bundle includedRoundIds) snapshotId = some ownerId ↔
      ownerId ∈ includedRoundIds ∧
        ownerOf bundle.journey.roundRecords snapshotId = some ownerId := by
  have hsingle := hscoped.valid.singleOwner
  have hincluded : SingleOwner (includedRounds bundle includedRoundIds) := hsingle.filter _
  rw [hincluded.ownerOf_iff, hsingle.ownerOf_iff]
  constructor
  · rintro ⟨hne, round, hround, rfl, houtput⟩
    obtain ⟨hmem, hscope⟩ := hscoped.mem_includedRounds.mp hround
    exact ⟨(hscoped.mem_iff _).mpr hscope, hne, round, hmem, rfl, houtput⟩
  · rintro ⟨hscope, hne, round, hround, rfl, houtput⟩
    exact ⟨hne, round, hscoped.mem_includedRounds.mpr ⟨hround, (hscoped.mem_iff _).mp hscope⟩, rfl,
      houtput⟩

/-! ## The projection -/

theorem isBefore_projected {other : String} (hother : other ∈ includedRoundIds)
    (hbefore : IsBefore bundle.journey snapshotId other) :
    IsBefore (projected bundle roundId includedRoundIds).journey snapshotId other := by
  rcases hbefore with horigin | ⟨ownerId, howner, hancestor⟩
  · exact .inl horigin
  · have hmem := hscoped.ancestor_mem hother hancestor
    exact .inr ⟨ownerId, hscoped.ownerOf_included.mpr ⟨hmem, howner⟩,
      (hscoped.transGen_included hother).mpr ⟨hmem, hancestor⟩⟩

theorem validHeads_projected : ValidHeads (projected bundle roundId includedRoundIds).journey where
  nodup := List.nodup_singleton roundId
  mem_iff other := by
    change other ∈ [roundId] ↔ other ∈ leafIds (includedRounds bundle includedRoundIds)
    rw [hscoped.mem_leafIds_included, List.mem_singleton]
  default headId hhead := by
    obtain rfl := Option.some.inj hhead
    exact List.mem_singleton_self _

theorem validInputs_projected (hround : round ∈ includedRounds bundle includedRoundIds) :
    ValidInputs (projected bundle roundId includedRoundIds) round := by
  obtain ⟨hmem, hscope⟩ := hscoped.mem_includedRounds.mp hround
  have hid := (hscoped.mem_iff _).mpr hscope
  obtain ⟨hnodup, hknown, hbefore⟩ := hscoped.valid.inputs round hmem
  refine ⟨hnodup, fun inputId hinput => ?_, fun inputId hinput =>
    hscoped.isBefore_projected hid (hbefore inputId hinput)⟩
  have hinside := hscoped.mem_inside.mpr (.inr ⟨round, hmem, hscope, .inl hinput⟩)
  have hhas := hknown inputId hinput
  rw [InsertionMap.has] at hhas ⊢
  change ((snapshotsById (bundle.snapshots.filter _)).get? inputId).isSome
  rwa [hscoped.get?_snapshots, if_pos hinside]

theorem has_projected (hinside : snapshotId ∈ inside bundle includedRoundIds) :
    (snapshotsById (projected bundle roundId includedRoundIds).snapshots).has snapshotId := by
  have hhas := hscoped.known_of_inside hinside
  rw [InsertionMap.has] at hhas ⊢
  change ((snapshotsById (bundle.snapshots.filter _)).get? snapshotId).isSome
  rwa [hscoped.get?_snapshots, if_pos hinside]

theorem outputs_projected (before : List RoundRecordV1) (round : RoundRecordV1)
    (after : List RoundRecordV1)
    (hsplit : includedRounds bundle includedRoundIds = before ++ round :: after)
    (snapshotId : String) (houtput : snapshotId ∈ round.output) :
    ValidOutput (projected bundle roundId includedRoundIds) before snapshotId := by
  have hround : round ∈ includedRounds bundle includedRoundIds := by
    rw [hsplit]
    simp
  obtain ⟨hmem, hscope⟩ := hscoped.mem_includedRounds.mp hround
  refine ⟨hscoped.has_projected (hscoped.mem_inside.mpr (.inr ⟨round, hmem, hscope, .inr houtput⟩)),
    ?_, ?_⟩
  · have hincluded : SingleOwner (includedRounds bundle includedRoundIds) :=
      hscoped.valid.singleOwner.filter _
    exact hincluded before round after hsplit snapshotId houtput
  · obtain ⟨left, right, hwhole⟩ := List.append_of_mem hmem
    exact (hscoped.valid.outputs left round right hwhole snapshotId houtput).no_origin

theorem handoffs_projected (hround : round ∈ includedRounds bundle includedRoundIds)
    (hrefs : ∀ snapshotId ∈ handoffSnapshotIds round, snapshotId ∈ inside bundle includedRoundIds) :
    handoffIssues (projected bundle roundId includedRoundIds) round = [] := by
  have hvalid := hscoped.valid.handoffs round (hscoped.mem_includedRounds.mp hround).1
  have hsame : ∀ snapshotId ∈ handoffSnapshotIds round,
      (snapshotsById (projected bundle roundId includedRoundIds).snapshots).get? snapshotId =
        (snapshotsById bundle.snapshots).get? snapshotId := by
    intro snapshotId hmem
    change (snapshotsById (bundle.snapshots.filter _)).get? snapshotId = _
    rw [hscoped.get?_snapshots, if_pos (hrefs snapshotId hmem)]
  unfold handoffIssues at hvalid ⊢
  unfold handoffSnapshotIds at hsame
  cases hhandoff : round.handoff with
  | none => rfl
  | some handoff =>
      rw [hhandoff] at hvalid hsame
      simp only [List.append_eq_nil_iff, List.flatMap_eq_nil_iff, issueIf_eq_nil, not_not]
        at hvalid ⊢
      refine ⟨fun ref href => ?_, fun request hrequest ref href => ?_⟩
      · rw [hsame ref.snapshotId (List.mem_append_left _ (List.mem_map_of_mem href))]
        exact hvalid.1 ref href
      · rw [hasCard, hsame ref.snapshotId (List.mem_append_right _ (List.mem_flatMap.mpr
          ⟨request, hrequest, List.mem_map_of_mem href⟩))]
        exact hvalid.2 request hrequest ref href

omit hscoped in
theorem retired_of_targets (hcardinality : ¬ hasInvalidCardinality edge)
    (hnil : edge.targets = []) : ∃ source, edge.lineage = .retired source := by
  cases hlineage : edge.lineage with
  | retired source => exact ⟨source, rfl⟩
  | split source targets =>
      have htargets : targets = [] := by
        rwa [CardLineageEdgeV1.targets, hlineage] at hnil
      simp [hasInvalidCardinality, hlineage, htargets] at hcardinality
  | _ => simp [CardLineageEdgeV1.targets, hlineage] at hnil

omit hscoped in
theorem edgeScope_eq_included {inside : List String} (hcardinality : ¬ hasInvalidCardinality edge) :
    edgeScope inside edge = .included ↔ ∀ snapshotId ∈ edge.snapshotIds, snapshotId ∈ inside := by
  have htargets : (∀ snapshotId ∈ edge.snapshotIds, snapshotId ∈ inside) → edge.targets ≠ [] →
      ∃ target ∈ edge.targets, target.snapshotId ∈ inside := by
    intro hall hne
    obtain ⟨target, htarget⟩ := List.exists_mem_of_ne_nil _ hne
    exact ⟨target, htarget, hall _ (List.mem_map_of_mem (List.mem_append_right _ htarget))⟩
  have hsources : (∀ snapshotId ∈ edge.snapshotIds, snapshotId ∈ inside) → edge.targets = [] →
      ∃ source ∈ edge.sources, source.snapshotId ∈ inside := by
    intro hall hnil
    obtain ⟨source, hretired⟩ := retired_of_targets hcardinality hnil
    have hsource : source ∈ edge.sources := by
      rw [CardLineageEdgeV1.sources, hretired]
      exact List.mem_singleton_self source
    exact ⟨source, hsource, hall _ (List.mem_map_of_mem (List.mem_append_left _ hsource))⟩
  unfold edgeScope
  split
  next hexcluded => exact ⟨nofun, fun hall => absurd (htargets hall hexcluded.1) hexcluded.2⟩
  next =>
    split
    next hexcluded => exact ⟨nofun, fun hall => absurd (hsources hall hexcluded.1) hexcluded.2⟩
    next =>
      split
      next hnil =>
        rw [List.filter_eq_nil_iff] at hnil
        simpa using hnil
      next hcons =>
        refine ⟨nofun, fun hall => absurd ?_ hcons⟩
        refine List.filter_eq_nil_iff.mpr fun snapshotId hmem => ?_
        simpa using hall snapshotId hmem

omit hscoped in
/-- What an edge contributes to the dependencies. -/
theorem mem_outside_edgeScope {inside : List String} :
    snapshotId ∈ (edgeScope inside edge).outside ↔
      (snapshotId ∈ edge.snapshotIds ∧ snapshotId ∉ inside) ∧
        ((∃ target ∈ edge.targets, target.snapshotId ∈ inside) ∨
          (edge.targets = [] ∧ ∃ source ∈ edge.sources, source.snapshotId ∈ inside)) := by
  have hfilter : snapshotId ∈ edge.snapshotIds.filter (fun snapshotId => snapshotId ∉ inside) ↔
      snapshotId ∈ edge.snapshotIds ∧ snapshotId ∉ inside := by
    rw [List.mem_filter, decide_eq_true_eq]
  unfold edgeScope
  split
  next hexcluded =>
    refine ⟨nofun, ?_⟩
    rintro ⟨-, htarget | ⟨hnil, -⟩⟩
    · exact absurd htarget hexcluded.2
    · exact absurd hnil hexcluded.1
  next hnotExcluded =>
    split
    next hexcluded =>
      refine ⟨nofun, ?_⟩
      rintro ⟨-, ⟨target, htarget, -⟩ | ⟨-, hsource⟩⟩
      · rw [hexcluded.1] at htarget
        exact absurd htarget List.not_mem_nil
      · exact absurd hsource hexcluded.2
    next hnotRetired =>
      have hmeets : (∃ target ∈ edge.targets, target.snapshotId ∈ inside) ∨
          (edge.targets = [] ∧ ∃ source ∈ edge.sources, source.snapshotId ∈ inside) := by
        by_cases hnil : edge.targets = []
        · exact .inr ⟨hnil, not_not.mp fun hnone => hnotRetired ⟨hnil, hnone⟩⟩
        · exact .inl (not_not.mp fun hnone => hnotExcluded ⟨hnil, hnone⟩)
      rw [← hfilter, and_iff_left hmeets]
      split
      next hnil => rw [hnil]; exact ⟨nofun, nofun⟩
      next hcons => rfl

theorem validEdge_projected (hedge : edge ∈ bundle.cardLineage)
    (hinside : ∀ snapshotId ∈ edge.snapshotIds, snapshotId ∈ inside bundle includedRoundIds) :
    ValidEdge (projected bundle roundId includedRoundIds) edge ↔
      LeadsToScope bundle roundId edge := by
  obtain ⟨hcardinality, hcards, hdirection⟩ := hscoped.valid.lineage edge hedge
  constructor
  · rintro ⟨-, -, hprojected⟩ target htarget
    obtain ⟨ownerId, howner, -⟩ := hprojected target htarget
    obtain ⟨hmem, howner⟩ := hscoped.ownerOf_included.mp howner
    exact ⟨ownerId, howner, (hscoped.mem_iff _).mp hmem⟩
  · intro hleads
    refine ⟨hcardinality, fun address haddress => ?_, fun target htarget => ?_⟩
    · have hcard := hcards address haddress
      have hmem : address.snapshotId ∈ edge.snapshotIds := List.mem_map_of_mem haddress
      unfold hasCard at hcard ⊢
      change ((snapshotsById (bundle.snapshots.filter _)).get? address.snapshotId).any _ = true
      rwa [hscoped.get?_snapshots, if_pos (hinside _ hmem)]
    · obtain ⟨targetOwner, howner, hsources⟩ := hdirection target htarget
      obtain ⟨ownerId, hsame, hscope⟩ := hleads target htarget
      obtain rfl : targetOwner = ownerId := Option.some.inj (howner.symm.trans hsame)
      have hmem := (hscoped.mem_iff _).mpr hscope
      refine ⟨targetOwner, hscoped.ownerOf_included.mpr ⟨hmem, howner⟩, fun source hsource => ?_⟩
      exact hscoped.isBefore_projected hmem (hsources source hsource)

/-- Without dependencies outside, these are the conditions for the second validation. -/
theorem valid_projected_iff (hrefs : ∀ round ∈ includedRounds bundle includedRoundIds,
      ∀ snapshotId ∈ handoffSnapshotIds round, snapshotId ∈ inside bundle includedRoundIds) :
    Valid dates (projected bundle roundId includedRoundIds) ↔ Projects bundle roundId := by
  have hlineage : (∀ edge ∈ (projected bundle roundId includedRoundIds).cardLineage,
      ValidEdge (projected bundle roundId includedRoundIds) edge) ↔
        ∀ edge ∈ bundle.cardLineage,
          (∀ snapshotId ∈ edge.snapshotIds, InSnapshotScope bundle roundId snapshotId) →
            LeadsToScope bundle roundId edge := by
    simp only [← hscoped.mem_inside]
    constructor
    · intro hvalid edge hedge hinside
      have hincluded : edge ∈ (projected bundle roundId includedRoundIds).cardLineage :=
        List.mem_filter.mpr ⟨hedge, decide_eq_true
          ((edgeScope_eq_included (hscoped.valid.lineage edge hedge).cardinality).mpr hinside)⟩
      exact (hscoped.validEdge_projected hedge hinside).mp (hvalid edge hincluded)
    · intro hleads edge hincluded
      obtain ⟨hedge, hscope⟩ := List.mem_filter.mp hincluded
      have hinside := (edgeScope_eq_included (hscoped.valid.lineage edge hedge).cardinality).mp
        (of_decide_eq_true hscope)
      exact (hscoped.validEdge_projected hedge hinside).mpr (hleads edge hedge hinside)
  have hexported : exportIssues (projected bundle roundId includedRoundIds) = [] ↔
      ∀ selectedRoundId, bundle.exportInfo = some (.round selectedRoundId) →
        selectedRoundId = roundId := by
    have hinfo : (projected bundle roundId includedRoundIds).exportInfo = bundle.exportInfo := rfl
    unfold exportIssues
    rw [hinfo]
    cases bundle.exportInfo with
    | none => simp
    | some info =>
        cases info with
        | full => simp
        | round selectedRoundId =>
            dsimp only
            rw [issueIf_eq_nil]
            simp only [projected, not_or, not_not, List.cons.injEq, and_true,
              Option.some.injEq, InquiryExportInfoV1.round.injEq, forall_eq', and_self]
            exact eq_comm
  constructor
  · intro hvalid
    exact ⟨hexported.mp hvalid.exported, hlineage.mp hvalid.lineage⟩
  · intro hprojects
    exact {
      version := hscoped.valid.version
      journey_version := hscoped.valid.journey_version
      timestamps := hscoped.valid.timestamps
      roundIds := hscoped.nodup_included
      rounds := fun round hround => hscoped.validRound_included hround
      acyclic := hscoped.acyclic_included
      heads := hscoped.validHeads_projected
      exported := hexported.mpr hprojects.exported
      snapshotIds := hscoped.nodup_snapshots _
      snapshots := fun snapshot hsnapshot =>
        hscoped.valid.snapshots snapshot (List.mem_filter.mp hsnapshot).1
      origins_ne_nil := hscoped.valid.origins_ne_nil
      origins_nodup := hscoped.valid.origins_nodup
      origins_known := fun originId horigin =>
        hscoped.has_projected (hscoped.mem_inside.mpr (.inl horigin))
      outputs := hscoped.outputs_projected
      owned := fun snapshot hsnapshot => by
        have hinside := of_decide_eq_true (List.mem_filter.mp hsnapshot).2
        rcases hscoped.origin_or_output hinside with horigin | ⟨round, hround, houtput⟩
        · exact .inl horigin
        · exact .inr (has_outputOwners hround houtput)
      inputs := fun round hround => hscoped.validInputs_projected hround
      handoffs := fun round hround => hscoped.handoffs_projected hround (hrefs round hround)
      lineageIds := hscoped.valid.lineageIds.sublist (List.filter_sublist.map _)
      lineage := hlineage.mpr hprojects.lineage }

theorem mem_outsideDependencies {snapshotId : String} :
    snapshotId ∈ outsideDependencies (inside bundle includedRoundIds)
        (includedRounds bundle includedRoundIds) bundle.cardLineage ↔
      DependsOn bundle roundId snapshotId := by
  rw [outsideDependencies, mem_distinct, List.mem_append, List.mem_flatMap, List.mem_flatMap]
  simp only [List.mem_filter, decide_eq_true_eq, mem_outside_edgeScope, hscoped.mem_inside,
    hscoped.mem_includedRounds]
  constructor
  · rintro (⟨round, ⟨hround, hscope⟩, href, houtside⟩ | ⟨edge, hedge, ⟨haddress, houtside⟩, hmeets⟩)
    · exact .handoff hround hscope href houtside
    · rcases hmeets with ⟨target, htarget, hinside⟩ | ⟨hnil, source, hsource, hinside⟩
      · exact .crossing hedge htarget hinside haddress houtside
      · obtain ⟨retired, hretired⟩ :=
          retired_of_targets (hscoped.valid.lineage edge hedge).cardinality hnil
        rw [CardLineageEdgeV1.sources, hretired, List.mem_singleton] at hsource
        exact .retired hedge hretired (hsource ▸ hinside) haddress houtside
  · rintro (⟨hround, hscope, href, houtside⟩ | ⟨hedge, htarget, hinside, haddress, houtside⟩ |
      ⟨hedge, hretired, hinside, haddress, houtside⟩)
    · exact .inl ⟨_, ⟨hround, hscope⟩, href, houtside⟩
    · exact .inr ⟨_, hedge, ⟨haddress, houtside⟩, .inl ⟨_, htarget, hinside⟩⟩
    · refine .inr ⟨_, hedge, ⟨haddress, houtside⟩, .inr ⟨?_, _, ?_, hinside⟩⟩
      · rw [CardLineageEdgeV1.targets, hretired]
      · rw [CardLineageEdgeV1.sources, hretired]
        exact List.mem_singleton_self _

end Scoped

end Rounds

/-! ## Exact projections -/

section Exact

variable {dates : DateFormat} {bundle : InquiryBundleV1} {roundId : String}

/-- A bundle is that of a round and its ancestors. -/
structure IsRoundBundle (dates : DateFormat) (bundle : InquiryBundleV1) (roundId : String)
    (result : InquiryBundleV1) : Prop where
  valid : validateInquiryBundle dates result = []
  rounds : result.journey.roundRecords.Sublist bundle.journey.roundRecords
  mem_rounds : ∀ round, round ∈ result.journey.roundRecords ↔
    round ∈ bundle.journey.roundRecords ∧ InRoundScope bundle roundId round.roundId
  snapshots : result.snapshots.Sublist bundle.snapshots
  mem_snapshots : ∀ snapshotId, snapshotId ∈ result.snapshots.map RoundSnapshotV1.snapshotId ↔
    InSnapshotScope bundle roundId snapshotId
  lineage : result.cardLineage.Sublist bundle.cardLineage
  mem_lineage : ∀ edge, edge ∈ result.cardLineage ↔ edge ∈ bundle.cardLineage ∧
    ∀ snapshotId ∈ edge.snapshotIds, InSnapshotScope bundle roundId snapshotId

def IsSorted (snapshotIds : List String) : Prop :=
  snapshotIds.Nodup ∧ snapshotIds.Pairwise fun left right => codeUnitLe left right = true

/-- What is asked of the bundle of a round. -/
structure RoundExact (dates : DateFormat) (bundle : InquiryBundleV1) (roundId : String) : Prop where
  not_invalid : ∀ issues, deriveInquiryRoundBundle dates bundle roundId ≠ .invalidBundle issues
  found : deriveInquiryRoundBundle dates bundle roundId ≠ .roundNotFound
  ok : ∀ result, deriveInquiryRoundBundle dates bundle roundId = .ok result →
    IsRoundBundle dates bundle roundId result
  outside : ∀ snapshotIds, deriveInquiryRoundBundle dates bundle roundId =
    .dependencyOutsideScope snapshotIds → IsSorted snapshotIds ∧
      ∀ snapshotId, snapshotId ∈ snapshotIds ↔ DependsOn bundle roundId snapshotId
  outside_iff : (∃ snapshotIds, deriveInquiryRoundBundle dates bundle roundId =
    .dependencyOutsideScope snapshotIds) ↔ ∃ snapshotId, DependsOn bundle roundId snapshotId

variable {includedRoundIds : List String}

theorem deriveInquiryRoundBundle_eq (hscoped : Scoped dates bundle roundId includedRoundIds)
    (hcollect : collectRoundScope bundle roundId = some includedRoundIds) :
    deriveInquiryRoundBundle dates bundle roundId =
      let outside := outsideDependencies (inside bundle includedRoundIds)
        (includedRounds bundle includedRoundIds) bundle.cardLineage
      let issues := validateInquiryBundle dates (projected bundle roundId includedRoundIds)
      if outside ≠ [] then .dependencyOutsideScope (sortOn codeUnitLe id outside)
      else if issues ≠ [] then .invalidBundle issues
      else .ok (projected bundle roundId includedRoundIds) := by
  unfold deriveInquiryRoundBundle
  dsimp only
  rw [validateInquiryBundle_eq_nil.mpr hscoped.valid, if_neg (not_not.mpr rfl), hcollect]
  rfl

theorem isSorted_sortOn {snapshotIds : List String} (hnodup : snapshotIds.Nodup) :
    IsSorted (sortOn codeUnitLe id snapshotIds) :=
  ⟨(sortOn.perm codeUnitLe id snapshotIds).nodup_iff.mpr hnodup,
    sortOn.pairwise codeUnitLe id Js.codeUnitLe_total Js.codeUnitLe_trans snapshotIds⟩

theorem exact_of_outside {outside : List String} (hnodup : outside.Nodup) (hne : outside ≠ [])
    (hmem : ∀ snapshotId, snapshotId ∈ outside ↔ DependsOn bundle roundId snapshotId)
    (hresult : deriveInquiryRoundBundle dates bundle roundId =
      .dependencyOutsideScope (sortOn codeUnitLe id outside)) :
    RoundExact dates bundle roundId where
  not_invalid issues := by simp [hresult]
  found := by simp [hresult]
  ok result := by simp [hresult]
  outside snapshotIds heq := by
    rw [hresult, InquiryBundleProjectionResult.dependencyOutsideScope.injEq] at heq
    subst heq
    exact ⟨isSorted_sortOn hnodup, fun snapshotId => by rw [sortOn.mem, hmem]⟩
  outside_iff := by
    obtain ⟨snapshotId, hsnapshotId⟩ := List.exists_mem_of_ne_nil _ hne
    exact ⟨fun _ => ⟨snapshotId, (hmem snapshotId).mp hsnapshotId⟩, fun _ => ⟨_, hresult⟩⟩

theorem exact_of_ok (hscoped : Scoped dates bundle roundId includedRoundIds)
    (hnone : ∀ snapshotId, ¬ DependsOn bundle roundId snapshotId)
    (hvalid : validateInquiryBundle dates (projected bundle roundId includedRoundIds) = [])
    (hresult : deriveInquiryRoundBundle dates bundle roundId =
      .ok (projected bundle roundId includedRoundIds)) : RoundExact dates bundle roundId where
  not_invalid issues := by simp [hresult]
  found := by simp [hresult]
  ok result heq := by
    rw [hresult, InquiryBundleProjectionResult.ok.injEq] at heq
    subst heq
    exact {
      valid := hvalid
      rounds := List.filter_sublist
      mem_rounds := fun round => hscoped.mem_includedRounds
      snapshots := List.filter_sublist
      mem_snapshots := fun snapshotId => by
        rw [← has_snapshotsById, ← hscoped.mem_inside]
        refine ⟨fun hhas => ?_, hscoped.has_projected⟩
        change ((snapshotsById (bundle.snapshots.filter _)).get? snapshotId).isSome at hhas
        rw [hscoped.get?_snapshots] at hhas
        split at hhas
        next hinside => exact hinside
        next => cases hhas
      lineage := List.filter_sublist
      mem_lineage := fun edge => by
        change edge ∈ bundle.cardLineage.filter _ ↔ _
        rw [List.mem_filter, decide_eq_true_eq]
        refine and_congr_right fun hedge => ?_
        rw [Scoped.edgeScope_eq_included (hscoped.valid.lineage edge hedge).cardinality]
        simp only [hscoped.mem_inside] }
  outside snapshotIds := by simp [hresult]
  outside_iff := by simp [hresult, hnone]

/-- The bundle of a round is exact when it depends on something outside, and is then refused, or
when nothing that it keeps belongs to another scope. -/
theorem deriveInquiryRoundBundle_exact_iff (haccepted : validateInquiryBundle dates bundle = [])
    (hround : roundId ∈ bundle.journey.roundRecords.map RoundRecordV1.roundId) :
    RoundExact dates bundle roundId ↔
      (∃ snapshotId, DependsOn bundle roundId snapshotId) ∨ Projects bundle roundId := by
  obtain ⟨includedRoundIds, hcollect⟩ := exists_collectRoundScope bundle roundId hround
  have hscoped : Scoped dates bundle roundId includedRoundIds :=
    ⟨validateInquiryBundle_eq_nil.mp haccepted, collectRoundScope_eq bundle roundId hcollect,
      hround⟩
  have hresult := deriveInquiryRoundBundle_eq hscoped hcollect
  dsimp only at hresult
  have hmem := fun snapshotId => @Scoped.mem_outsideDependencies _ _ _ _ hscoped snapshotId
  have hnodup : (outsideDependencies (inside bundle includedRoundIds)
    (includedRounds bundle includedRoundIds) bundle.cardLineage).Nodup := nodup_distinct _
  generalize outsideDependencies (inside bundle includedRoundIds)
    (includedRounds bundle includedRoundIds) bundle.cardLineage = outside at hresult hmem hnodup
  split at hresult
  next hne =>
    obtain ⟨snapshotId, hsnapshotId⟩ := List.exists_mem_of_ne_nil _ hne
    exact ⟨fun _ => .inl ⟨snapshotId, (hmem snapshotId).mp hsnapshotId⟩,
      fun _ => exact_of_outside hnodup hne hmem hresult⟩
  next hnil =>
    have hnone : ∀ snapshotId, ¬ DependsOn bundle roundId snapshotId := by
      intro snapshotId hdepends
      rw [← hmem, not_not.mp hnil] at hdepends
      exact absurd hdepends List.not_mem_nil
    have hrefs : ∀ round ∈ includedRounds bundle includedRoundIds,
        ∀ snapshotId ∈ handoffSnapshotIds round, snapshotId ∈ inside bundle includedRoundIds := by
      intro round hround snapshotId href
      by_contra houtside
      obtain ⟨hrecord, hscope⟩ := hscoped.mem_includedRounds.mp hround
      exact hnone snapshotId
        (.handoff hrecord hscope href fun hinside => houtside (hscoped.mem_inside.mpr hinside))
    have hvalid := (validateInquiryBundle_eq_nil.trans (hscoped.valid_projected_iff hrefs))
    split at hresult
    next hinvalid =>
      refine ⟨fun hexact => absurd hresult (hexact.not_invalid _), ?_⟩
      rintro (⟨snapshotId, hdepends⟩ | hprojects)
      · exact absurd hdepends (hnone snapshotId)
      · exact absurd (hvalid.mpr hprojects) hinvalid
    next hok =>
      rw [not_not] at hok
      exact ⟨fun _ => .inr (hvalid.mp hok), fun _ => exact_of_ok hscoped hnone hok hresult⟩

end Exact

/-! ## Two rounds -/

namespace TwoRounds

open OneDay (dates snapshot round)

/-- A round and its child, the only head. -/
def bundle (exportInfo : Option InquiryExportInfoV1) : InquiryBundleV1 :=
  OneDay.bundle ["s0"] [round "r1" "r1_problem_setting" [] ["s0"] "s1" none,
      round "r2" "r2_situation_grasp" ["r1"] ["s1"] "s2" none] "r2"
    [snapshot "s0" ["card"], snapshot "s1" ["card"], snapshot "s2" ["card"]]
    [⟨"lineage-1", .new ⟨"s1", "card"⟩⟩] exportInfo

/-- The bundle of the first round. -/
theorem first_round_exact : RoundExact dates (bundle none) "r1" := by
  refine (deriveInquiryRoundBundle_exact_iff (by decide) (by decide)).mpr
    (.inr ⟨by simp [bundle, OneDay.bundle], ?_⟩)
  intro edge hedge _ target htarget
  obtain rfl := List.mem_singleton.mp hedge
  obtain rfl := List.mem_singleton.mp htarget
  exact ⟨"r1", by decide, .refl⟩

/-- Once the bundle was made for the second round, it cannot be made for the first. -/
theorem exported_round_invalid :
    ¬ ∀ (dates : DateFormat) (bundle : InquiryBundleV1) (roundId : String),
      validateInquiryBundle dates bundle = [] →
      roundId ∈ bundle.journey.roundRecords.map RoundRecordV1.roundId →
        RoundExact dates bundle roundId := by
  intro hall
  have hexact := hall dates (bundle (some (.round "r2"))) "r1" (by decide) (by decide)
  exact hexact.not_invalid [⟨.invalidExportInfo, "exportInfo.selectedRoundId"⟩] (by decide)

end TwoRounds

end KjAtlas.Inquiry
