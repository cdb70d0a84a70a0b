import KjAtlas.Inquiry.Valid

/-! # A round is added

A new round points to rounds that exist and none of them points to it: the
ancestry of the others stays as it is, and its own is that of its parents. What
was put out keeps its owner.
-/

namespace KjAtlas.Inquiry

open Relation (ReflTransGen TransGen)

section Maximum

variable {rounds rounds' : RoundsById} {stage : String} {ids ids' : List String}

theorem previousMaximum_le_iff {bound : Int} :
    previousMaximum rounds stage ids ≤ bound ↔
      0 ≤ bound ∧ ∀ id ∈ ids, ∀ round ∈ rounds.get? id, round.stage = stage →
        round.iteration ≤ bound := by
  unfold previousMaximum
  generalize (0 : Int) = start
  induction ids generalizing start with
  | nil => simp
  | cons id ids ih =>
      rw [List.foldl_cons, ih, List.forall_mem_cons, ← and_assoc]
      apply and_congr_left'
      cases rounds.get? id with
      | none => simp
      | some round =>
          by_cases hstage : round.stage = stage
          · simp [hstage]
          · simp [hstage]

theorem previousMaximum_congr (hids : ∀ id, id ∈ ids ↔ id ∈ ids')
    (hrounds : ∀ id ∈ ids, rounds.get? id = rounds'.get? id) :
    previousMaximum rounds stage ids = previousMaximum rounds' stage ids' := by
  apply eq_of_forall_ge_iff
  intro bound
  rw [previousMaximum_le_iff, previousMaximum_le_iff]
  apply and_congr_right'
  constructor
  · intro hall id hid
    rw [← hrounds id ((hids id).mpr hid)]
    exact hall id ((hids id).mpr hid)
  · intro hall id hid
    rw [hrounds id hid]
    exact hall id ((hids id).mp hid)

theorem previousMaximum_nonneg : 0 ≤ previousMaximum rounds stage ids :=
  (previousMaximum_le_iff.mp le_rfl).1

end Maximum

/-! ## The graph -/

section Graph

variable {rounds : List RoundRecordV1} {round : RoundRecordV1}

/-- A new round, after rounds that do not know it. -/
structure Joins (rounds : List RoundRecordV1) (round : RoundRecordV1) : Prop where
  nodup : (rounds.map RoundRecordV1.roundId).Nodup
  known : ∀ a b, b ∈ (roundsById rounds).parents a → (roundsById rounds).has b
  new : round.roundId ∉ rounds.map RoundRecordV1.roundId
  parents : ∀ parentId ∈ round.parentRoundIds, (roundsById rounds).has parentId

theorem get?_roundsById_append (roundId : String) :
    (roundsById (rounds ++ [round])).get? roundId =
      if round.roundId = roundId then some round else (roundsById rounds).get? roundId :=
  InsertionMap.get?_ofList_snoc ..

variable {roundId : String}

theorem has_roundsById_append (hhas : (roundsById rounds).has roundId) :
    (roundsById (rounds ++ [round])).has roundId := by
  rw [has_roundsById, List.map_append] at *
  exact List.mem_append_left _ hhas

theorem parents_append_new :
    (roundsById (rounds ++ [round])).parents round.roundId = round.parentRoundIds :=
  RoundsById.parents_of_get? (by rw [get?_roundsById_append, if_pos rfl])

theorem parents_append_old (hne : roundId ≠ round.roundId) :
    (roundsById (rounds ++ [round])).parents roundId = (roundsById rounds).parents roundId := by
  rw [RoundsById.parents, RoundsById.parents, get?_roundsById_append, if_neg hne.symm]

namespace Joins

variable (hjoins : Joins rounds round)

include hjoins

theorem nodup_append : ((rounds ++ [round]).map RoundRecordV1.roundId).Nodup := by
  rw [List.map_append, List.nodup_append]
  refine ⟨hjoins.nodup, List.nodup_singleton _, ?_⟩
  rintro id hid other hother rfl
  rw [List.map_singleton, List.mem_singleton] at hother
  exact hjoins.new (hother ▸ hid)

theorem ne_new (hknown : (roundsById rounds).has roundId) : roundId ≠ round.roundId := by
  rintro rfl
  exact hjoins.new (has_roundsById.mp hknown)

theorem known_append (a b : String) (hparent : b ∈ (roundsById (rounds ++ [round])).parents a) :
    (roundsById rounds).has b := by
  by_cases ha : a = round.roundId
  · rw [ha, parents_append_new] at hparent
    exact hjoins.parents b hparent
  · rw [parents_append_old ha] at hparent
    exact hjoins.known a b hparent

theorem ancestor_known {a b : String}
    (hancestor : TransGen (roundsById (rounds ++ [round])).HasParent a b) :
    (roundsById rounds).has b := by
  obtain ⟨middle, -, hlast⟩ := Relation.TransGen.tail'_iff.mp hancestor
  exact hjoins.known_append middle b hlast

theorem hasParent_mono {a b : String} (hparent : (roundsById rounds).HasParent a b) :
    (roundsById (rounds ++ [round])).HasParent a b := by
  have hne : a ≠ round.roundId := by
    rintro rfl
    have hnew : round.roundId ∉ (roundsById rounds).keys := by
      rw [InsertionMap.mem_keys]
      exact fun hhas => hjoins.new (has_roundsById.mp hhas)
    rw [RoundsById.HasParent, Points, RoundsById.parents_of_not_mem hnew] at hparent
    simp at hparent
  rwa [RoundsById.HasParent, Points, parents_append_old hne]

theorem transGen_mono {a b : String} (hancestor : TransGen (roundsById rounds).HasParent a b) :
    TransGen (roundsById (rounds ++ [round])).HasParent a b := by
  have hle : (roundsById rounds).HasParent ≤ (roundsById (rounds ++ [round])).HasParent :=
    fun _ _ => hjoins.hasParent_mono
  exact TransGen.mono hle a b hancestor

/-- The ancestors of the other rounds stay the same. -/
theorem transGen_old {a b : String} (hne : a ≠ round.roundId) :
    TransGen (roundsById (rounds ++ [round])).HasParent a b ↔
      TransGen (roundsById rounds).HasParent a b := by
  refine ⟨fun hancestor => ?_, hjoins.transGen_mono⟩
  have hedge : ∀ c d, c ≠ round.roundId → (roundsById (rounds ++ [round])).HasParent c d →
      (roundsById rounds).HasParent c d := by
    intro c d hc hparent
    rwa [RoundsById.HasParent, Points, parents_append_old hc] at hparent
  induction hancestor using Relation.TransGen.head_induction_on with
  | single hparent => exact .single (hedge _ _ hne hparent)
  | head hparent _ ih =>
      exact .head (hedge _ _ hne hparent) (ih (hjoins.ne_new (hjoins.known_append _ _ hparent)))

theorem transGen_new {b : String} :
    TransGen (roundsById (rounds ++ [round])).HasParent round.roundId b ↔
      ∃ parentId ∈ round.parentRoundIds,
        b = parentId ∨ TransGen (roundsById rounds).HasParent parentId b := by
  rw [transGen_points_iff, parents_append_new]
  refine exists_congr fun parentId => and_congr_right fun hparent => ?_
  rw [Relation.reflTransGen_iff_eq_or_transGen,
    hjoins.transGen_old (hjoins.ne_new (hjoins.parents parentId hparent))]

theorem acyclic (hacyclic : ∀ a, ¬ TransGen (roundsById rounds).HasParent a a) (a : String) :
    ¬ TransGen (roundsById (rounds ++ [round])).HasParent a a := by
  intro hcycle
  have hne := hjoins.ne_new (hjoins.ancestor_known hcycle)
  exact hacyclic a ((hjoins.transGen_old hne).mp hcycle)

theorem get?_old {a b : String}
    (hancestor : TransGen (roundsById (rounds ++ [round])).HasParent a b) :
    (roundsById rounds).get? b = (roundsById (rounds ++ [round])).get? b := by
  rw [get?_roundsById_append,
    if_neg (hjoins.ne_new (hjoins.ancestor_known hancestor)).symm]

theorem expectedIteration_old {other : RoundRecordV1} (hne : other.roundId ≠ round.roundId) :
    expectedIteration other (roundsById (rounds ++ [round])) =
      expectedIteration other (roundsById rounds) := by
  rw [expectedIteration, expectedIteration]
  refine congrArg (· + 1) (previousMaximum_congr ?_ ?_).symm
  · intro id
    rw [mem_collectAncestorIds, mem_collectAncestorIds, hjoins.transGen_old hne]
  · intro id hid
    rw [mem_collectAncestorIds] at hid
    exact hjoins.get?_old (hjoins.transGen_mono hid)

theorem mem_parents_ancestors {id : String} :
    id ∈ distinct (round.parentRoundIds.flatMap fun parentId =>
        parentId :: collectAncestorIds parentId (roundsById rounds)) ↔
      TransGen (roundsById (rounds ++ [round])).HasParent round.roundId id := by
  rw [mem_distinct, List.mem_flatMap, hjoins.transGen_new]
  simp only [List.mem_cons, mem_collectAncestorIds]

theorem expectedIteration_new :
    expectedIteration round (roundsById (rounds ++ [round])) =
      previousMaximum (roundsById rounds) round.stage
        (distinct (round.parentRoundIds.flatMap fun parentId =>
          parentId :: collectAncestorIds parentId (roundsById rounds))) + 1 := by
  rw [expectedIteration]
  refine congrArg (· + 1) (previousMaximum_congr ?_ ?_).symm
  · intro id
    rw [mem_collectAncestorIds, hjoins.mem_parents_ancestors]
  · intro id hid
    exact hjoins.get?_old (hjoins.mem_parents_ancestors.mp hid)

theorem mem_leafIds_append :
    roundId ∈ leafIds (rounds ++ [round]) ↔
      roundId = round.roundId ∨ roundId ∈ leafIds rounds ∧ roundId ∉ round.parentRoundIds := by
  have hself : round.roundId ∉ round.parentRoundIds := fun hmem =>
    hjoins.ne_new (hjoins.parents _ hmem) rfl
  have hothers : ∀ other ∈ rounds, round.roundId ∉ other.parentRoundIds := by
    intro other hother hmem
    have hget := (get?_roundsById hjoins.nodup other.roundId).trans
      (findBy_of_mem RoundRecordV1.roundId hjoins.nodup hother)
    rw [← RoundsById.parents_of_get? hget] at hmem
    exact hjoins.ne_new (hjoins.known _ _ hmem) rfl
  rw [mem_leafIds, mem_leafIds, List.map_append, List.mem_append]
  simp only [List.map_singleton, List.mem_singleton, List.mem_append, or_imp, forall_and,
    forall_eq]
  constructor
  · rintro ⟨hold | hnew, hleaf, hparent⟩
    · exact .inr ⟨⟨hold, hleaf⟩, hparent⟩
    · exact .inl hnew
  · rintro (rfl | ⟨⟨hold, hleaf⟩, hparent⟩)
    · exact ⟨.inr rfl, hothers, hself⟩
    · exact ⟨.inl hold, hleaf, hparent⟩

end Joins

end Graph

/-! ## Owners -/

section Owners

variable {rounds : List RoundRecordV1} {round : RoundRecordV1} {snapshotId ownerId : String}

theorem outputOwners_append (rounds : List RoundRecordV1) (round : RoundRecordV1) :
    outputOwners (rounds ++ [round]) = claimOutput (outputOwners rounds) round := by
  rw [outputOwners, outputOwners, List.foldl_append]
  rfl

theorem get?_outputOwners {rounds : List RoundRecordV1} {snapshotId ownerId : String}
    (howner : (outputOwners rounds).get? snapshotId = some ownerId) :
    ∃ round ∈ rounds, round.roundId = ownerId ∧ round.output = some snapshotId := by
  induction rounds using List.reverseRecOn with
  | nil => simp [outputOwners] at howner
  | append_singleton rounds round ih =>
      have hearlier : (outputOwners rounds).get? snapshotId = some ownerId →
          ∃ other ∈ rounds ++ [round], other.roundId = ownerId ∧
            other.output = some snapshotId := by
        intro hrounds
        obtain ⟨other, hother, hfacts⟩ := ih hrounds
        exact ⟨other, List.mem_append_left _ hother, hfacts⟩
      rw [outputOwners_append, claimOutput] at howner
      split at howner
      next => exact hearlier howner
      next output houtput =>
        split at howner
        next => exact hearlier howner
        next =>
          rw [InsertionMap.get?_set] at howner
          split at howner
          next heq =>
            subst heq
            exact ⟨round, by simp, Option.some.inj howner, houtput⟩
          next => exact hearlier howner

theorem output_eq_some {round : RoundRecordV1} {snapshotId : String} :
    round.output = some snapshotId ↔ round.outputSnapshotId = some snapshotId ∧ snapshotId ≠ "" := by
  rw [RoundRecordV1.output, Option.filter_eq_some_iff, decide_eq_true_eq]

theorem ownerOf_eq_some {rounds : List RoundRecordV1} {snapshotId ownerId : String}
    (howner : ownerOf rounds snapshotId = some ownerId) :
    ∃ round ∈ rounds, round.roundId = ownerId ∧ round.output = some snapshotId := by
  rw [ownerOf, Option.filter_eq_some_iff] at howner
  exact get?_outputOwners howner.1

variable {owners : InsertionMap String String}

theorem get?_claimOutput_new (houtput : round.output = some snapshotId)
    (hunowned : (owners.get? snapshotId).filter (· ≠ "") = none) :
    (claimOutput owners round).get? snapshotId = some round.roundId := by
  have hfree : ¬ ((owners.get? snapshotId).filter (· ≠ "")).isSome := by
    rw [hunowned]
    simp
  simp only [claimOutput, houtput, if_neg hfree, InsertionMap.get?_set, if_true]

theorem get?_claimOutput_old (howner : (owners.get? snapshotId).filter (· ≠ "") = some ownerId) :
    (claimOutput owners round).get? snapshotId = some ownerId := by
  have hget := (Option.filter_eq_some_iff.mp howner).1
  rw [claimOutput]
  split
  next => exact hget
  next other houtput =>
    split
    next => exact hget
    next hunowned =>
      rw [InsertionMap.get?_set, if_neg, hget]
      rintro rfl
      rw [howner] at hunowned
      exact hunowned rfl

theorem ownerOf_append_old (howner : ownerOf rounds snapshotId = some ownerId) :
    ownerOf (rounds ++ [round]) snapshotId = some ownerId := by
  rw [ownerOf, outputOwners_append, get?_claimOutput_old howner, Option.filter_eq_some_iff]
  exact ⟨rfl, (Option.filter_eq_some_iff.mp howner).2⟩

theorem ownerOf_append_new (houtput : round.output = some snapshotId) (hid : round.roundId ≠ "")
    (hunowned : ownerOf rounds snapshotId = none) :
    ownerOf (rounds ++ [round]) snapshotId = some round.roundId := by
  rw [ownerOf, outputOwners_append, get?_claimOutput_new houtput hunowned,
    Option.filter_eq_some_iff]
  exact ⟨rfl, by simpa using hid⟩

theorem has_outputOwners_append (hhas : (outputOwners rounds).has snapshotId) :
    (outputOwners (rounds ++ [round])).has snapshotId := by
  rw [outputOwners_append, claimOutput]
  split
  next => exact hhas
  next =>
    split
    next => exact hhas
    next =>
      unfold InsertionMap.has at hhas ⊢
      rw [InsertionMap.get?_set]
      split
      next => rfl
      next => exact hhas

end Owners

end KjAtlas.Inquiry
