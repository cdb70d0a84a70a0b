import KjAtlas.Inquiry.Growth
import KjAtlas.Inquiry.Session

/-! # Recorded journeys are valid

Every id of a recorded bundle was drawn from the factory, every round has put
out a snapshot, and the iteration of a round is at most the number of rounds.
With this, recording a round keeps the bundle valid.
-/

namespace KjAtlas.Inquiry

open Js (DateFormat)
open Relation (TransGen)

/-! ## What succeeds -/

theorem checkParents_eq_ok {rounds : RoundsById} {parentIds : List String} :
    checkParents rounds parentIds = .ok () ↔
      ∀ parentId ∈ parentIds, ∃ parent, rounds.get? parentId = some parent ∧
        parent.output ≠ none := by
  induction parentIds with
  | nil => simp [checkParents]
  | cons parentId parentIds ih =>
      simp only [checkParents, bind_eq_ok, found_eq_ok, ensure_eq_ok, ih, List.forall_mem_cons]
      constructor
      · rintro ⟨parent, hparent, -, houtput, hrest⟩
        exact ⟨⟨parent, hparent, houtput⟩, hrest⟩
      · rintro ⟨⟨parent, hparent, houtput⟩, hrest⟩
        exact ⟨parent, hparent, (), houtput, hrest⟩

def InquiryJourneyV1.withRound (journey : InquiryJourneyV1) (round : RoundRecordV1) :
    InquiryJourneyV1 :=
  { journey with
    roundRecords := journey.roundRecords ++ [round]
    headRoundIds := (journey.headRoundIds.filter fun headId => headId ∉ round.parentRoundIds) ++
      [round.roundId]
    defaultHeadRoundId := some round.roundId
    updatedAt := round.updatedAt }

def countedRound (journey : InquiryJourneyV1) (record : RoundRecordV1) : RoundRecordV1 :=
  { record with iteration := nextRoundIteration journey record.stage record.parentRoundIds }

theorem appendRoundRecord_eq_ok {dates : DateFormat} {journey next : InquiryJourneyV1}
    {record : RoundRecordV1} (hok : appendRoundRecord dates journey record = .ok next) :
    ¬ (roundsById journey.roundRecords).has record.roundId ∧ record.parentRoundIds.Nodup ∧
      hasValidTimestamps dates record.createdAt record.updatedAt ∧
      ¬ isEarlier dates record.updatedAt journey.updatedAt ∧
      (∀ parentId ∈ record.parentRoundIds, ∃ parent,
        (roundsById journey.roundRecords).get? parentId = some parent ∧ parent.output ≠ none) ∧
      journey.roundRecords.length < 2 ^ 32 - 1 ∧
      next = journey.withRound (countedRound journey record) := by
  simp only [appendRoundRecord, bind_eq_ok, ensure_eq_ok, pure_eq_ok] at hok
  obtain ⟨-, hnew, -, hnodup, -, ⟨htimestamps, hlater⟩, ⟨⟩, hparents, -, hlength, rfl⟩ := hok
  exact ⟨hnew, findDuplicates_eq_nil.mp hnodup, htimestamps, hlater,
    checkParents_eq_ok.mp hparents, hlength, rfl⟩

variable {bundle : InquiryBundleV1} {snapshotId : String} {edge : CardLineageEdgeV1}

theorem inputSnapshot_eq_ok {parentRoundId : Option String} {input : RoundSnapshotV1}
    (hok : inputSnapshot bundle parentRoundId = .ok input) :
    input ∈ bundle.snapshots ∧
      (input.snapshotId ∈ bundle.journey.originSnapshotIds ∨
        ∃ parentId ∈ parentRoundId, ∃ parent,
          findBy RoundRecordV1.roundId parentId bundle.journey.roundRecords = some parent ∧
            parent.outputSnapshotId = some input.snapshotId) := by
  simp only [inputSnapshot, bind_eq_ok, found_eq_ok] at hok
  obtain ⟨outputId, hparent, inputId, hinputId, hinput⟩ := hok
  obtain ⟨hmem, rfl⟩ := findBy_eq_some _ hinput
  refine ⟨hmem, ?_⟩
  cases outputId with
  | none => exact .inl (List.mem_of_head? hinputId)
  | some output =>
      obtain rfl : output = input.snapshotId := Option.some.inj hinputId
      cases parentRoundId with
      | none => simp [parentOutput] at hparent
      | some parentId =>
          simp only [parentOutput, bind_eq_ok, found_eq_ok, pure_eq_ok] at hparent
          obtain ⟨parent, hfound, houtput⟩ := hparent
          exact .inr ⟨parentId, rfl, parent, hfound, houtput⟩

def InquiryBundleV1.withRound (bundle : InquiryBundleV1) (round : RoundRecordV1)
    (output : RoundSnapshotV1) (lineage : List CardLineageEdgeV1) : InquiryBundleV1 :=
  { bundle with
    journey := bundle.journey.withRound round
    snapshots := bundle.snapshots ++ [output]
    cardLineage := bundle.cardLineage ++ lineage }

section Call

variable (options : SessionOptions) (session : Session) (call : RecordCall)

/-- The snapshot that a call puts out. -/
def outputSnapshot : RoundSnapshotV1 :=
  createSnapshot options ("snapshot-" ++ options.ids session.drawn) call.recordedAt call.document

def callRecord (input : RoundSnapshotV1) : RoundRecordV1 :=
  newRound options call (call.parent session.bundle.journey) input session.drawn

def callLineage (input : RoundSnapshotV1) : List CardLineageEdgeV1 :=
  buildCardLineage options input (outputSnapshot options session call) (session.drawn + 2)

variable {options session call}

theorem recordInquiryRound_eq_ok {drawn : Nat}
    (hok : recordInquiryRound options session call = (.ok bundle, drawn)) :
    ∃ input journey,
      inputSnapshot session.bundle (call.parent session.bundle.journey) = .ok input ∧
        appendRoundRecord options.dates session.bundle.journey
          (callRecord options session call input) = .ok journey ∧
        bundle = session.bundle.withRound
          (countedRound session.bundle.journey (callRecord options session call input))
          (outputSnapshot options session call) (callLineage options session call input) ∧
        drawn = session.drawn + 2 + (callLineage options session call input).length := by
  unfold recordInquiryRound at hok
  cases hinput : inputSnapshot session.bundle (call.parent session.bundle.journey) with
  | error failure => simp [hinput] at hok
  | ok input =>
      cases happend : appendRoundRecord options.dates session.bundle.journey
          (newRound options call (call.parent session.bundle.journey) input session.drawn) with
      | error failure =>
          simp only [hinput, happend] at hok
          split at hok <;> simp_all
      | ok journey =>
          simp only [hinput, happend, Prod.mk.injEq, Except.ok.injEq] at hok
          obtain ⟨rfl, rfl⟩ := hok
          obtain rfl := (appendRoundRecord_eq_ok happend).2.2.2.2.2.2
          exact ⟨input, _, rfl, happend, rfl, rfl⟩

end Call

def Drawn (options : SessionOptions) (label : String) (drawn : Nat) (id : String) : Prop :=
  ∃ n < drawn, id = label ++ options.ids n

section Ids

variable {options : SessionOptions} {label : String} {drawn drawn' : Nat} {id : String}

theorem Drawn.mono (hdrawn : Drawn options label drawn id) (hle : drawn ≤ drawn') :
    Drawn options label drawn' id := by
  obtain ⟨n, hn, hid⟩ := hdrawn
  exact ⟨n, hn.trans_le hle, hid⟩

/-- An id that comes later was not drawn before. -/
theorem not_drawn (hids : Function.Injective options.ids) {n : Nat} (hn : drawn ≤ n) :
    ¬ Drawn options label drawn (label ++ options.ids n) := by
  rintro ⟨m, hm, heq⟩
  have hsame := hids ((String.append_right_inj label).mp heq)
  omega

theorem append_ne_empty {text : String} (hlabel : label ≠ "") : label ++ text ≠ "" := by
  intro hempty
  exact hlabel (String.append_eq_empty_iff.mp hempty).1

end Ids

section Snapshots

variable {snapshots : List RoundSnapshotV1} {snapshot : RoundSnapshotV1}

theorem get?_snapshotsById_append (snapshotId : String) :
    (snapshotsById (snapshots ++ [snapshot])).get? snapshotId =
      if snapshot.snapshotId = snapshotId then some snapshot
      else (snapshotsById snapshots).get? snapshotId :=
  InsertionMap.get?_ofList_snoc ..

theorem has_snapshotsById_append (hhas : (snapshotsById snapshots).has snapshotId) :
    (snapshotsById (snapshots ++ [snapshot])).has snapshotId := by
  rw [has_snapshotsById, List.map_append] at *
  exact List.mem_append_left _ hhas

theorem hasCard_append (hnew : snapshot.snapshotId ∉ snapshots.map RoundSnapshotV1.snapshotId)
    {address : CardAddressV1} (hcard : hasCard (snapshotsById snapshots) address) :
    hasCard (snapshotsById (snapshots ++ [snapshot])) address := by
  have hne : snapshot.snapshotId ≠ address.snapshotId := by
    intro heq
    have hnone : (snapshotsById snapshots).get? address.snapshotId = none := by
      rw [heq, ← has_snapshotsById, InsertionMap.has] at hnew
      simpa using hnew
    simp [hasCard, hnone] at hcard
  rwa [hasCard, get?_snapshotsById_append, if_neg hne]

theorem hasCard_of_mem (hnodup : (snapshots.map RoundSnapshotV1.snapshotId).Nodup)
    (hmem : snapshot ∈ snapshots) {cardId : String} (hcard : cardId ∈ snapshot.document.cardIds) :
    hasCard (snapshotsById snapshots) ⟨snapshot.snapshotId, cardId⟩ := by
  have hget : (snapshotsById snapshots).get? snapshot.snapshotId = some snapshot :=
    (get?_snapshotsById hnodup _).trans (findBy_of_mem _ hnodup hmem)
  obtain ⟨card, hmem, heq⟩ := List.mem_map.mp hcard
  simp only [hasCard, hget, Option.any_some, List.any_eq_true, decide_eq_true_eq]
  exact ⟨card, hmem, heq⟩

end Snapshots

theorem isHex_hexDigit : ∀ n < 16, (Js.hexDigit n).isDigit ||
    ('a' ≤ Js.hexDigit n && Js.hexDigit n ≤ 'f') := by decide

theorem length_flatMap_hexByte (bytes : List UInt8) :
    (bytes.flatMap hexByte).length = 2 * bytes.length := by
  induction bytes with
  | nil => rfl
  | cons byte bytes ih =>
      rw [List.flatMap_cons, List.length_append, ih, List.length_cons]
      simp only [hexByte, List.length_cons, List.length_nil]
      omega

theorem isDigest_computeRoundSnapshotDigest (options : SessionOptions) (document : DocumentV1) :
    isDigest (computeRoundSnapshotDigest options document) := by
  have hlist : (computeRoundSnapshotDigest options document).toList =
      "sha256:".toList ++ (options.sha256 document).val.flatMap hexByte := by
    simp only [computeRoundSnapshotDigest, String.toList_append, String.toList_ofList]
  have hdrop : (computeRoundSnapshotDigest options document).toList.drop 7 =
      (options.sha256 document).val.flatMap hexByte := by
    rw [hlist]
    rfl
  have hpre : "sha256:".toList.isPrefixOf (computeRoundSnapshotDigest options document).toList := by
    rw [List.isPrefixOf_iff_prefix, hlist]
    exact List.prefix_append _ _
  rw [isDigest, hdrop, Bool.and_eq_true, Bool.and_eq_true, List.all_eq_true]
  refine ⟨⟨hpre, ?_⟩, ?_⟩
  · rw [decide_eq_true_eq, length_flatMap_hexByte, (options.sha256 document).property]
  · intro c hc
    obtain ⟨byte, -, hc⟩ := List.mem_flatMap.mp hc
    have hbyte := byte.toNat_lt
    rcases List.mem_cons.mp hc with rfl | hc
    · exact isHex_hexDigit _ (by omega)
    · rw [List.mem_singleton.mp hc]
      exact isHex_hexDigit _ (by omega)

/-! ## Lineage -/

section Lineage

variable {fromSnapshot toSnapshot : RoundSnapshotV1}

theorem mem_keys_cardsById {cards : List Card} {cardId : String} :
    cardId ∈ (cardsById cards).keys ↔ cardId ∈ cards.map Card.id := by
  rw [InsertionMap.mem_keys, List.mem_map]
  exact InsertionMap.has_ofList_map Card.id id cards cardId

theorem mem_cardLineages {lineage : Lineage} (hmem : lineage ∈ cardLineages fromSnapshot toSnapshot) :
    (∃ cardId ∈ toSnapshot.document.cardIds, lineage = .new ⟨toSnapshot.snapshotId, cardId⟩) ∨
      (∃ kind, ∃ cardId ∈ toSnapshot.document.cardIds, cardId ∈ fromSnapshot.document.cardIds ∧
        lineage = .oneToOne kind ⟨fromSnapshot.snapshotId, cardId⟩
          ⟨toSnapshot.snapshotId, cardId⟩) ∨
      ∃ cardId ∈ fromSnapshot.document.cardIds,
        lineage = .retired ⟨fromSnapshot.snapshotId, cardId⟩ := by
  rw [cardLineages, List.mem_append] at hmem
  rcases hmem with hmem | hmem
  · obtain ⟨entry, hentry, rfl⟩ := List.mem_map.mp hmem
    have hcard : entry.1 ∈ toSnapshot.document.cardIds :=
      mem_keys_cardsById.mp (List.mem_map_of_mem hentry)
    cases hget : (cardsById fromSnapshot.document.cards).get? entry.1 with
    | none => exact .inl ⟨entry.1, hcard, rfl⟩
    | some previous =>
        refine .inr (.inl ⟨_, entry.1, hcard, ?_, rfl⟩)
        apply mem_keys_cardsById.mp
        rw [InsertionMap.mem_keys, hget]
        rfl
  · obtain ⟨cardId, hcard, rfl⟩ := List.mem_map.mp hmem
    exact .inr (.inr ⟨cardId, mem_keys_cardsById.mp (List.mem_filter.mp hcard).1, rfl⟩)

theorem mem_buildCardLineage {options : SessionOptions} {drawn : Nat}
    (hmem : edge ∈ buildCardLineage options fromSnapshot toSnapshot drawn) :
    edge.lineage ∈ cardLineages fromSnapshot toSnapshot ∧
      ∃ n, drawn ≤ n ∧
        n < drawn + (buildCardLineage options fromSnapshot toSnapshot drawn).length ∧
        edge.lineageId = "lineage-" ++ options.ids n := by
  obtain ⟨entry, hentry, rfl⟩ := List.mem_map.mp hmem
  obtain ⟨hle, hlt, -⟩ := List.mem_zipIdx hentry
  refine ⟨List.fst_mem_of_mem_zipIdx hentry, entry.2, hle, ?_, rfl⟩
  rwa [buildCardLineage, List.length_map, List.length_zipIdx]

theorem nodup_buildCardLineage {options : SessionOptions}
    (hids : Function.Injective options.ids) (drawn : Nat) :
    ((buildCardLineage options fromSnapshot toSnapshot drawn).map
      CardLineageEdgeV1.lineageId).Nodup := by
  have hmap : (buildCardLineage options fromSnapshot toSnapshot drawn).map
      CardLineageEdgeV1.lineageId =
        (((cardLineages fromSnapshot toSnapshot).zipIdx drawn).map Prod.snd).map
          fun n => "lineage-" ++ options.ids n := by
    rw [buildCardLineage, List.map_map, List.map_map]
    rfl
  rw [hmap, List.zipIdx_map_snd]
  apply List.Nodup.map
  · intro n m heq
    exact hids ((String.append_right_inj "lineage-").mp heq)
  · exact List.nodup_range'

theorem validEdge_of_mem (hnodup : (bundle.snapshots.map RoundSnapshotV1.snapshotId).Nodup)
    (hfrom : fromSnapshot ∈ bundle.snapshots) (hto : toSnapshot ∈ bundle.snapshots)
    {ownerId : String}
    (howner : ownerOf bundle.journey.roundRecords toSnapshot.snapshotId = some ownerId)
    (hbefore : IsBefore bundle.journey fromSnapshot.snapshotId ownerId)
    (hedge : edge.lineage ∈ cardLineages fromSnapshot toSnapshot) : ValidEdge bundle edge := by
  obtain ⟨lineageId, lineage⟩ := edge
  have hsource : ∀ cardId ∈ fromSnapshot.document.cardIds,
      hasCard (snapshotsById bundle.snapshots) ⟨fromSnapshot.snapshotId, cardId⟩ :=
    fun _ hcard => hasCard_of_mem hnodup hfrom hcard
  have htarget : ∀ cardId ∈ toSnapshot.document.cardIds,
      hasCard (snapshotsById bundle.snapshots) ⟨toSnapshot.snapshotId, cardId⟩ :=
    fun _ hcard => hasCard_of_mem hnodup hto hcard
  rcases mem_cardLineages hedge with ⟨cardId, hcard, rfl⟩ | ⟨kind, cardId, hcard, hold, rfl⟩ |
    ⟨cardId, hold, rfl⟩
  · refine ⟨?_, ?_, ?_⟩
    · simp [hasInvalidCardinality, CardLineageEdgeV1.sources, CardLineageEdgeV1.targets]
    · simpa [CardLineageEdgeV1.sources, CardLineageEdgeV1.targets] using htarget cardId hcard
    · intro target htarget
      obtain rfl := List.mem_singleton.mp htarget
      exact ⟨ownerId, howner, by simp [CardLineageEdgeV1.sources]⟩
  · refine ⟨?_, ?_, ?_⟩
    · simp [hasInvalidCardinality, CardLineageEdgeV1.sources, CardLineageEdgeV1.targets]
    · simpa [CardLineageEdgeV1.sources, CardLineageEdgeV1.targets] using
        ⟨hsource cardId hold, htarget cardId hcard⟩
    · intro target htarget
      obtain rfl := List.mem_singleton.mp htarget
      refine ⟨ownerId, howner, fun source hsource => ?_⟩
      obtain rfl := List.mem_singleton.mp hsource
      exact hbefore
  · refine ⟨?_, ?_, ?_⟩
    · simp [hasInvalidCardinality, CardLineageEdgeV1.sources, CardLineageEdgeV1.targets]
    · simpa [CardLineageEdgeV1.sources, CardLineageEdgeV1.targets] using hsource cardId hold
    · simp [CardLineageEdgeV1.targets]

end Lineage

/-! ## The invariant -/

/-- A recorded bundle is valid, and its ids were drawn from the factory. -/
structure Recorded (options : SessionOptions) (session : Session) : Prop where
  valid : Valid options.dates session.bundle
  exportInfo : session.bundle.exportInfo = none
  snapshotIds : ∀ snapshot ∈ session.bundle.snapshots,
    Drawn options "snapshot-" session.drawn snapshot.snapshotId
  roundIds : ∀ round ∈ session.bundle.journey.roundRecords,
    Drawn options "round-" session.drawn round.roundId
  lineageIds : ∀ edge ∈ session.bundle.cardLineage,
    Drawn options "lineage-" session.drawn edge.lineageId
  handoffs : ∀ round ∈ session.bundle.journey.roundRecords, round.handoff = none
  iterations : ∀ round ∈ session.bundle.journey.roundRecords,
    round.iteration ≤ session.bundle.journey.roundRecords.length
  length : session.bundle.journey.roundRecords.length ≤ 2 ^ 32 - 1

/-- What a call that succeeds rests on. -/
structure Succeeds (options : SessionOptions) (session : Session) (call : RecordCall)
    (input : RoundSnapshotV1) : Prop where
  ids : Function.Injective options.ids
  recorded : Recorded options session
  cards : call.document.cardIds.Nodup
  input_mem : input ∈ session.bundle.snapshots
  input_before : input.snapshotId ∈ session.bundle.journey.originSnapshotIds ∨
    ∃ parentId ∈ call.parent session.bundle.journey, ∃ parent,
      findBy RoundRecordV1.roundId parentId session.bundle.journey.roundRecords = some parent ∧
        parent.outputSnapshotId = some input.snapshotId
  timestamp : isCanonicalTimestamp options.dates call.recordedAt
  later : ¬ isEarlier options.dates call.recordedAt session.bundle.journey.updatedAt
  parents : ∀ parentId ∈ (call.parent session.bundle.journey).toList,
    (roundsById session.bundle.journey.roundRecords).has parentId
  room : session.bundle.journey.roundRecords.length < 2 ^ 32 - 1

namespace Succeeds

section Step

variable {options : SessionOptions} {session : Session} {call : RecordCall}
  {input : RoundSnapshotV1}

def round (options : SessionOptions) (session : Session) (call : RecordCall)
    (input : RoundSnapshotV1) : RoundRecordV1 :=
  countedRound session.bundle.journey (callRecord options session call input)

def next (options : SessionOptions) (session : Session) (call : RecordCall)
    (input : RoundSnapshotV1) : InquiryBundleV1 :=
  session.bundle.withRound (round options session call input) (outputSnapshot options session call)
    (callLineage options session call input)

variable (hsucceeds : Succeeds options session call input)

include hsucceeds

theorem joins : Joins session.bundle.journey.roundRecords (round options session call input) := by
  have hvalid := hsucceeds.recorded.valid
  refine ⟨hvalid.roundIds, parents_known hvalid.rounds hvalid.roundIds, ?_, hsucceeds.parents⟩
  intro hmem
  obtain ⟨other, hother, heq⟩ := List.mem_map.mp hmem
  have hdrawn := hsucceeds.recorded.roundIds other hother
  rw [heq] at hdrawn
  exact not_drawn hsucceeds.ids (Nat.le_succ _) hdrawn

theorem output_new : (outputSnapshot options session call).snapshotId ∉
    session.bundle.snapshots.map RoundSnapshotV1.snapshotId := by
  intro hmem
  obtain ⟨other, hother, heq⟩ := List.mem_map.mp hmem
  have hdrawn := hsucceeds.recorded.snapshotIds other hother
  rw [heq] at hdrawn
  exact not_drawn hsucceeds.ids le_rfl hdrawn

theorem snapshotIds_nodup :
    ((next options session call input).snapshots.map RoundSnapshotV1.snapshotId).Nodup := by
  show ((session.bundle.snapshots ++ [outputSnapshot options session call]).map
    RoundSnapshotV1.snapshotId).Nodup
  rw [List.map_append, List.nodup_append]
  refine ⟨hsucceeds.recorded.valid.snapshotIds, List.nodup_singleton _, ?_⟩
  rintro id hid other hother rfl
  rw [List.map_singleton, List.mem_singleton] at hother
  exact hsucceeds.output_new (hother ▸ hid)

/-! ### Owners -/

omit hsucceeds in
theorem round_output : (round options session call input).output =
    some (outputSnapshot options session call).snapshotId :=
  output_eq_some.mpr ⟨rfl, append_ne_empty (by decide)⟩

theorem output_unowned : ownerOf session.bundle.journey.roundRecords
    (outputSnapshot options session call).snapshotId = none := by
  cases howner : ownerOf session.bundle.journey.roundRecords
      (outputSnapshot options session call).snapshotId with
  | none => rfl
  | some ownerId =>
      obtain ⟨other, hother, -, houtput⟩ := ownerOf_eq_some howner
      obtain ⟨before, after, hsplit⟩ := List.append_of_mem hother
      have hknown :=
        (hsucceeds.recorded.valid.outputs before other after hsplit _ houtput).known
      exact absurd (has_snapshotsById.mp hknown) hsucceeds.output_new

theorem output_owned : ownerOf (next options session call input).journey.roundRecords
    (outputSnapshot options session call).snapshotId =
      some (round options session call input).roundId :=
  ownerOf_append_new round_output (append_ne_empty (by decide)) hsucceeds.output_unowned

theorem isBefore_mono {roundId : String}
    (hbefore : IsBefore session.bundle.journey snapshotId roundId) :
    IsBefore (next options session call input).journey snapshotId roundId := by
  rcases hbefore with horigin | ⟨ownerId, howner, hancestor⟩
  · exact .inl horigin
  · exact .inr ⟨ownerId, ownerOf_append_old howner, hsucceeds.joins.transGen_mono hancestor⟩

theorem ownerOf_output {parent : RoundRecordV1}
    (hparent : parent ∈ session.bundle.journey.roundRecords)
    (houtput : parent.output = some snapshotId) :
    ownerOf session.bundle.journey.roundRecords snapshotId = some parent.roundId := by
  obtain ⟨before, after, hsplit⟩ := List.append_of_mem hparent
  have hunowned :=
    (hsucceeds.recorded.valid.outputs before parent after hsplit _ houtput).unowned
  obtain ⟨n, -, hid⟩ := hsucceeds.recorded.roundIds parent hparent
  have howned : ownerOf (before ++ [parent]) snapshotId = some parent.roundId :=
    ownerOf_append_new houtput (hid ▸ append_ne_empty (by decide)) hunowned
  rw [hsplit, ← List.singleton_append, ← List.append_assoc]
  clear hsplit
  induction after using List.reverseRecOn with
  | nil => rwa [List.append_nil]
  | append_singleton after other ih =>
      rw [← List.append_assoc]
      exact ownerOf_append_old ih

theorem input_isBefore : IsBefore (next options session call input).journey input.snapshotId
    (round options session call input).roundId := by
  rcases hsucceeds.input_before with horigin | ⟨parentId, hparentId, parent, hfound, houtput⟩
  · exact .inl horigin
  · obtain ⟨hparent, rfl⟩ := findBy_eq_some _ hfound
    have hne : input.snapshotId ≠ "" := by
      obtain ⟨n, -, hid⟩ := hsucceeds.recorded.snapshotIds input hsucceeds.input_mem
      exact hid ▸ append_ne_empty (by decide)
    have howner := hsucceeds.ownerOf_output hparent (output_eq_some.mpr ⟨houtput, hne⟩)
    refine .inr ⟨parent.roundId, ownerOf_append_old howner, ?_⟩
    exact hsucceeds.joins.transGen_new.mpr
      ⟨parent.roundId, Option.mem_toList.mpr hparentId, .inl rfl⟩

/-! ### Rounds -/

theorem iteration_le : (round options session call input).iteration ≤
    session.bundle.journey.roundRecords.length + 1 := by
  show previousMaximum _ _ _ + 1 ≤ _
  refine Int.add_le_add_right (previousMaximum_le_iff.mpr ⟨by omega, ?_⟩) 1
  intro id _ other hother _
  rw [get?_roundsById hsucceeds.joins.nodup] at hother
  exact hsucceeds.recorded.iterations other (findBy_eq_some _ hother).1

theorem validRound_new : ValidRound options.dates
    (roundsById (next options session call input).journey.roundRecords)
    (round options session call input) where
  timestamps := hasValidTimestamps_iff.mpr
    ⟨hsucceeds.timestamp, hsucceeds.timestamp, isEarlier_self _⟩
  stage := call.stage.text_mem
  status := (by decide : "paused" ∈ roundStatuses)
  parents_nodup := by
    show (call.parent session.bundle.journey).toList.Nodup
    cases call.parent session.bundle.journey <;> simp
  parents_known := fun parentId hparent =>
    has_roundsById_append (hsucceeds.parents parentId hparent)
  iteration_safe := by
    have hle := hsucceeds.iteration_le
    have hpos : 0 < (round options session call input).iteration :=
      Int.lt_add_one_of_le previousMaximum_nonneg
    have hroom := hsucceeds.room
    rw [isSafeInteger, decide_eq_true_eq]
    omega
  iteration_pos := Int.add_le_add_right previousMaximum_nonneg 1
  iteration_eq := hsucceeds.joins.expectedIteration_new.symm
  output := .inr (by rw [round_output]; exact Option.some_ne_none _)

variable {other : RoundRecordV1}

theorem validRound_old (hother : other ∈ session.bundle.journey.roundRecords) :
    ValidRound options.dates (roundsById (next options session call input).journey.roundRecords)
      other := by
  have hvalid := hsucceeds.recorded.valid.rounds other hother
  have hne := hsucceeds.joins.ne_new (has_roundsById.mpr (List.mem_map_of_mem hother))
  exact {
    hvalid with
    parents_known := fun parentId hparent =>
      has_roundsById_append (hvalid.parents_known parentId hparent)
    iteration_eq := hvalid.iteration_eq.trans (hsucceeds.joins.expectedIteration_old hne).symm
  }

omit hsucceeds in
theorem forall_rounds {P : RoundRecordV1 → Prop}
    (hold : ∀ other ∈ session.bundle.journey.roundRecords, P other)
    (hnew : P (round options session call input)) :
    ∀ other ∈ (next options session call input).journey.roundRecords, P other := by
  intro other hother
  rcases mem_snoc.mp hother with hother | hother
  · exact hold other hother
  · rw [hother]
    exact hnew

theorem validHeads : ValidHeads (next options session call input).journey := by
  have hheads := hsucceeds.recorded.valid.heads
  have hmem : ∀ roundId, roundId ∈ (next options session call input).journey.headRoundIds ↔
      roundId ∈ session.bundle.journey.headRoundIds ∧
          roundId ∉ (round options session call input).parentRoundIds ∨
        roundId = (round options session call input).roundId := by
    intro roundId
    show roundId ∈ (session.bundle.journey.headRoundIds.filter _) ++ [_] ↔ _
    rw [List.mem_append, List.mem_filter, List.mem_singleton, decide_eq_true_eq]
  refine ⟨?_, ?_, ?_⟩
  · show ((session.bundle.journey.headRoundIds.filter _) ++ [_]).Nodup
    rw [List.nodup_append]
    refine ⟨hheads.nodup.filter _, List.nodup_singleton _, ?_⟩
    rintro headId hhead other hother rfl
    rw [List.mem_singleton] at hother
    have hleaf := (hheads.mem_iff headId).mp (List.mem_filter.mp hhead).1
    exact hsucceeds.joins.new (hother ▸ (mem_leafIds.mp hleaf).1)
  · intro roundId
    rw [hmem, hheads.mem_iff, or_comm]
    exact hsucceeds.joins.mem_leafIds_append.symm
  · intro headId hhead
    rw [hmem]
    exact .inr (Option.some.inj hhead).symm

/-! ### Snapshots -/

theorem validOutput {before : List RoundRecordV1} {after : List RoundRecordV1}
    (hsplit : (next options session call input).journey.roundRecords = before ++ other :: after)
    (houtput : other.output = some snapshotId) :
    ValidOutput (next options session call input) before snapshotId := by
  have hvalid := hsucceeds.recorded.valid
  rcases List.eq_nil_or_concat after with rfl | ⟨rest, last, rfl⟩
  · -- The new round is the last one.
    obtain ⟨rfl, hlast⟩ := List.append_inj' hsplit rfl
    obtain ⟨rfl, -⟩ := List.cons.inj hlast
    rw [round_output] at houtput
    obtain rfl := Option.some.inj houtput
    refine ⟨has_snapshotsById.mpr ?_, hsucceeds.output_unowned, ?_⟩
    · show _ ∈ (session.bundle.snapshots ++ [_]).map RoundSnapshotV1.snapshotId
      simp
    · exact fun horigin =>
        hsucceeds.output_new (has_snapshotsById.mp (hvalid.origins_known _ horigin))
  · rw [List.concat_eq_append, ← List.cons_append, ← List.append_assoc] at hsplit
    obtain ⟨hrounds, -⟩ := List.append_inj' hsplit rfl
    obtain ⟨hknown, hunowned, horigin⟩ :=
      hvalid.outputs before other rest hrounds snapshotId houtput
    exact ⟨has_snapshotsById_append hknown, hunowned, horigin⟩

variable {snapshot : RoundSnapshotV1}

theorem owned (hsnapshot : snapshot ∈ (next options session call input).snapshots) :
    snapshot.snapshotId ∈ (next options session call input).journey.originSnapshotIds ∨
      (outputOwners (next options session call input).journey.roundRecords).has
        snapshot.snapshotId := by
  rcases mem_snoc.mp hsnapshot with hold | hnew
  · exact (hsucceeds.recorded.valid.owned snapshot hold).imp_right has_outputOwners_append
  · rw [hnew]
    have howned := (Option.filter_eq_some_iff.mp hsucceeds.output_owned).1
    rw [InsertionMap.has, howned]
    exact .inr rfl

theorem validSnapshot (hsnapshot : snapshot ∈ (next options session call input).snapshots) :
    ValidSnapshot options.dates snapshot := by
  rcases mem_snoc.mp hsnapshot with hold | hnew
  · exact hsucceeds.recorded.valid.snapshots snapshot hold
  · rw [hnew]
    exact ⟨rfl, isDigest_computeRoundSnapshotDigest options call.document, hsucceeds.timestamp,
      hsucceeds.cards⟩

theorem validInputs_new : ValidInputs (next options session call input)
    (round options session call input) := by
  refine ⟨List.nodup_singleton _, ?_, ?_⟩
  · intro inputId hmem
    obtain rfl := List.mem_singleton.mp hmem
    exact has_snapshotsById_append
      (has_snapshotsById.mpr (List.mem_map_of_mem hsucceeds.input_mem))
  · intro inputId hmem
    obtain rfl := List.mem_singleton.mp hmem
    exact hsucceeds.input_isBefore

theorem validInputs_old (hother : other ∈ session.bundle.journey.roundRecords) :
    ValidInputs (next options session call input) other := by
  obtain ⟨hnodup, hknown, hbefore⟩ := hsucceeds.recorded.valid.inputs other hother
  exact ⟨hnodup, fun inputId hmem => has_snapshotsById_append (hknown inputId hmem),
    fun inputId hmem => hsucceeds.isBefore_mono (hbefore inputId hmem)⟩

theorem lineageIds_nodup :
    ((next options session call input).cardLineage.map CardLineageEdgeV1.lineageId).Nodup := by
  show ((session.bundle.cardLineage ++ callLineage options session call input).map
    CardLineageEdgeV1.lineageId).Nodup
  rw [List.map_append, List.nodup_append]
  refine ⟨hsucceeds.recorded.valid.lineageIds, nodup_buildCardLineage hsucceeds.ids _, ?_⟩
  rintro id hid other hother rfl
  obtain ⟨edge, hedge, rfl⟩ := List.mem_map.mp hid
  obtain ⟨edge', hedge', heq⟩ := List.mem_map.mp hother
  obtain ⟨-, n, hn, -, hnew⟩ := mem_buildCardLineage hedge'
  have hdrawn := hsucceeds.recorded.lineageIds edge hedge
  rw [← heq, hnew] at hdrawn
  exact not_drawn hsucceeds.ids (by omega) hdrawn

theorem validEdge (hedge : edge ∈ (next options session call input).cardLineage) :
    ValidEdge (next options session call input) edge := by
  rcases List.mem_append.mp hedge with hold | hnew
  · obtain ⟨hcardinality, hcards, hdirection⟩ := hsucceeds.recorded.valid.lineage edge hold
    refine ⟨hcardinality, fun address haddress =>
      hasCard_append hsucceeds.output_new (hcards address haddress), fun target htarget => ?_⟩
    obtain ⟨ownerId, howner, hbefore⟩ := hdirection target htarget
    exact ⟨ownerId, ownerOf_append_old howner, fun source hsource =>
      hsucceeds.isBefore_mono (hbefore source hsource)⟩
  · exact validEdge_of_mem hsucceeds.snapshotIds_nodup
      (List.mem_append_left _ hsucceeds.input_mem) (List.mem_append_right _ List.mem_cons_self)
      hsucceeds.output_owned hsucceeds.input_isBefore (mem_buildCardLineage hnew).1

theorem valid_next : Valid options.dates (next options session call input) := by
  have hvalid := hsucceeds.recorded.valid
  have hjoins := hsucceeds.joins
  exact {
    version := hvalid.version
    journey_version := hvalid.journey_version
    timestamps := by
      obtain ⟨hcreated, hupdated, hle⟩ := hasValidTimestamps_iff.mp hvalid.timestamps
      exact hasValidTimestamps_iff.mpr
        ⟨hcreated, hsucceeds.timestamp, isEarlier_trans hupdated hle hsucceeds.later⟩
    roundIds := hjoins.nodup_append
    rounds := forall_rounds (fun _ hother => hsucceeds.validRound_old hother)
      hsucceeds.validRound_new
    acyclic := hjoins.acyclic hvalid.acyclic
    heads := hsucceeds.validHeads
    exported := by
      have hnone : (next options session call input).exportInfo = none :=
        hsucceeds.recorded.exportInfo
      rw [exportIssues, hnone]
    snapshotIds := hsucceeds.snapshotIds_nodup
    snapshots := fun _ hsnapshot => hsucceeds.validSnapshot hsnapshot
    origins_ne_nil := hvalid.origins_ne_nil
    origins_nodup := hvalid.origins_nodup
    origins_known := fun originId horigin =>
      has_snapshotsById_append (hvalid.origins_known originId horigin)
    outputs := fun _ _ _ hsplit _ houtput => hsucceeds.validOutput hsplit houtput
    owned := fun _ hsnapshot => hsucceeds.owned hsnapshot
    inputs := forall_rounds (fun _ hother => hsucceeds.validInputs_old hother)
      hsucceeds.validInputs_new
    handoffs := forall_rounds
      (fun other hother => by rw [handoffIssues, hsucceeds.recorded.handoffs other hother]) rfl
    lineageIds := hsucceeds.lineageIds_nodup
    lineage := fun _ hedge => hsucceeds.validEdge hedge
  }

theorem recorded_next : Recorded options ⟨next options session call input,
    session.drawn + 2 + (callLineage options session call input).length⟩ := by
  have hrecorded := hsucceeds.recorded
  have hlength : ((next options session call input).journey.roundRecords.length : Int) =
      session.bundle.journey.roundRecords.length + 1 := by
    show ((session.bundle.journey.roundRecords ++ [_]).length : Int) = _
    rw [List.length_append, List.length_singleton]
    rfl
  have hroom := hsucceeds.room
  refine ⟨hsucceeds.valid_next, hrecorded.exportInfo, ?_, ?_, ?_, ?_, ?_, by
    show (next options session call input).journey.roundRecords.length ≤ _
    omega⟩
  · intro snapshot hsnapshot
    rcases mem_snoc.mp hsnapshot with hold | hnew
    · exact (hrecorded.snapshotIds snapshot hold).mono (by dsimp only; omega)
    · rw [hnew]
      exact ⟨session.drawn, by dsimp only; omega, rfl⟩
  · refine forall_rounds (fun other hother => ?_) ?_
    · exact (hrecorded.roundIds other hother).mono (by dsimp only; omega)
    · exact ⟨session.drawn + 1, by dsimp only; omega, rfl⟩
  · intro edge hedge
    rcases List.mem_append.mp hedge with hold | hnew
    · exact (hrecorded.lineageIds edge hold).mono (by dsimp only; omega)
    · obtain ⟨-, n, -, hn, hid⟩ := mem_buildCardLineage hnew
      exact ⟨n, hn, hid⟩
  · exact forall_rounds hrecorded.handoffs rfl
  · refine forall_rounds (fun other hother => ?_) ?_
    · have hle := hrecorded.iterations other hother
      dsimp only
      omega
    · have hle := hsucceeds.iteration_le
      dsimp only
      omega

end Step

end Succeeds

/-! ## Runs -/

section Runs

variable {options : SessionOptions} {call : RecordCall} {session : Session} {drawn : Nat}

/-- A call that succeeds keeps the invariant. -/
theorem Recorded.record_ok (hids : Function.Injective options.ids)
    (hrecorded : Recorded options session) (hcards : call.document.cardIds.Nodup)
    (hok : recordInquiryRound options session call = (.ok bundle, drawn)) :
    Recorded options ⟨bundle, drawn⟩ := by
  obtain ⟨input, journey, hinput, happend, rfl, rfl⟩ := recordInquiryRound_eq_ok hok
  obtain ⟨hmem, hbefore⟩ := inputSnapshot_eq_ok hinput
  obtain ⟨-, -, htimestamps, hlater, hparents, hroom, -⟩ := appendRoundRecord_eq_ok happend
  have hsucceeds : Succeeds options session call input := {
    ids := hids
    recorded := hrecorded
    cards := hcards
    input_mem := hmem
    input_before := hbefore
    timestamp := (hasValidTimestamps_iff.mp htimestamps).1
    later := hlater
    parents := by
      intro parentId hparent
      obtain ⟨parent, hget, -⟩ := hparents parentId hparent
      rw [InsertionMap.has, hget]
      rfl
    room := hroom
  }
  exact hsucceeds.recorded_next

theorem recordInquiryRound_error {failure : RecordFailure}
    (herror : recordInquiryRound options session call = (.error failure, drawn)) :
    session.drawn ≤ drawn := by
  unfold recordInquiryRound at herror
  simp only at herror
  split at herror
  next =>
    obtain ⟨-, rfl⟩ := Prod.mk.inj herror
    exact le_rfl
  next =>
    split at herror
    next =>
      obtain ⟨-, rfl⟩ := Prod.mk.inj herror
      omega
    next =>
      obtain ⟨-, rfl⟩ := Prod.mk.inj herror
      omega
    next => simp at herror

theorem Recorded.drawn_mono (hrecorded : Recorded options session)
    (hle : session.drawn ≤ drawn) : Recorded options ⟨session.bundle, drawn⟩ where
  valid := hrecorded.valid
  exportInfo := hrecorded.exportInfo
  snapshotIds := fun snapshot hsnapshot => (hrecorded.snapshotIds snapshot hsnapshot).mono hle
  roundIds := fun round hround => (hrecorded.roundIds round hround).mono hle
  lineageIds := fun edge hedge => (hrecorded.lineageIds edge hedge).mono hle
  handoffs := hrecorded.handoffs
  iterations := hrecorded.iterations
  length := hrecorded.length

theorem Recorded.record (hids : Function.Injective options.ids)
    (hrecorded : Recorded options session) (hcards : call.document.cardIds.Nodup) :
    Recorded options (session.record options call) := by
  unfold Session.record
  split
  next bundle drawn hok => exact hrecorded.record_ok hids hcards hok
  next failure drawn herror => exact hrecorded.drawn_mono (recordInquiryRound_error herror)

theorem recorded_start {document : DocumentV1} (hcards : document.cardIds.Nodup) {createdAt : String}
    (hcreated : isCanonicalTimestamp options.dates createdAt) :
    Recorded options (startInquiryJourney options document createdAt) where
  valid := {
    version := rfl
    journey_version := rfl
    timestamps := hasValidTimestamps_iff.mpr ⟨hcreated, hcreated, isEarlier_self _⟩
    roundIds := List.nodup_nil
    rounds := by simp [startInquiryJourney]
    acyclic := by
      intro roundId hcycle
      obtain ⟨parentId, hparent, -⟩ := transGen_points_iff.mp hcycle
      exact absurd hparent List.not_mem_nil
    heads := by
      refine ⟨List.nodup_nil, fun roundId => ?_, ?_⟩
      · simp [startInquiryJourney, mem_leafIds]
      · simp [startInquiryJourney]
    exported := rfl
    snapshotIds := List.nodup_singleton _
    snapshots := by
      intro snapshot hsnapshot
      rw [List.mem_singleton.mp hsnapshot]
      exact ⟨rfl, isDigest_computeRoundSnapshotDigest options document, hcreated, hcards⟩
    origins_ne_nil := List.cons_ne_nil _ _
    origins_nodup := List.nodup_singleton _
    origins_known := by
      intro originId horigin
      rw [List.mem_singleton.mp horigin]
      exact has_snapshotsById.mpr List.mem_cons_self
    outputs := by
      intro before round after hsplit
      exact absurd hsplit (by simp [startInquiryJourney])
    owned := fun snapshot hsnapshot => by
      rw [List.mem_singleton.mp hsnapshot]
      exact .inl List.mem_cons_self
    inputs := by simp [startInquiryJourney]
    handoffs := by simp [startInquiryJourney]
    lineageIds := List.nodup_nil
    lineage := by simp [startInquiryJourney]
  }
  exportInfo := rfl
  snapshotIds := by
    intro snapshot hsnapshot
    rw [List.mem_singleton.mp hsnapshot]
    exact ⟨0, Nat.zero_lt_two, rfl⟩
  roundIds := by simp [startInquiryJourney]
  lineageIds := by simp [startInquiryJourney]
  handoffs := by simp [startInquiryJourney]
  iterations := by simp [startInquiryJourney]
  length := Nat.zero_le _

def Session.recordAll (options : SessionOptions) (session : Session) (calls : List RecordCall) :
    Session :=
  calls.foldl (Session.record options) session

theorem Recorded.recordAll (hids : Function.Injective options.ids)
    (hrecorded : Recorded options session) {calls : List RecordCall}
    (hcards : ∀ call ∈ calls, call.document.cardIds.Nodup) :
    Recorded options (session.recordAll options calls) :=
  List.foldlRecOn (motive := Recorded options) calls (Session.record options) hrecorded
    fun _ hrecorded call hcall => hrecorded.record hids (hcards call hcall)

/-- Whatever rounds are recorded, with whatever parents and times, the bundle is valid; and a call
that fails leaves it as it was. -/
theorem recorded_valid (options : SessionOptions) (hids : Function.Injective options.ids)
    (document : DocumentV1) (createdAt : String) (hcards : document.cardIds.Nodup)
    (hcreated : isCanonicalTimestamp options.dates createdAt) (calls : List RecordCall)
    (hcalls : ∀ call ∈ calls, call.document.cardIds.Nodup) :
    let session := (startInquiryJourney options document createdAt).recordAll options calls
    validateInquiryBundle options.dates session.bundle = [] ∧
      ∀ call failure, (recordInquiryRound options session call).1 = .error failure →
        (session.record options call).bundle = session.bundle := by
  intro session
  refine ⟨validateInquiryBundle_eq_nil.mpr
    ((recorded_start hcards hcreated).recordAll hids hcalls).valid, ?_⟩
  intro call failure hfailure
  unfold Session.record
  split
  next bundle drawn hok =>
    rw [hok] at hfailure
    contradiction
  next => rfl

end Runs

/-! ## A branching session -/

namespace BranchingSession

def options : SessionOptions where
  dates := .instant "2026-01-01T00:00:00.000Z"
  sha256 _ := ⟨List.replicate 32 0, rfl⟩
  ids n := String.ofList (List.replicate n 'x')

theorem ids_injective : Function.Injective options.ids := by
  intro n m heq
  have hlist := congrArg (fun text => text.toList.length) heq
  simpa [options] using hlist

def document (cardIds : List String) : DocumentV1 :=
  ⟨"doc", some " Title ", cardIds.map fun cardId => ⟨cardId, "text", none⟩, [], none, none⟩

/-- Two rounds, and one more from the first of them. -/
def calls : List RecordCall :=
  [⟨document ["a", "b"], .r1ProblemSetting, "2026-01-01T00:00:00.000Z", none⟩,
    ⟨document ["b", "c"], .r1ProblemSetting, "2026-01-01T00:00:00.000Z", none⟩,
    ⟨document ["a"], .r2SituationGrasp, "2026-01-01T00:00:00.000Z", some "round-xxx"⟩]

theorem valid_branching : validateInquiryBundle options.dates
    ((startInquiryJourney options (document ["a"]) "2026-01-01T00:00:00.000Z").recordAll options
      calls).bundle = [] :=
  (recorded_valid options ids_injective (document ["a"]) "2026-01-01T00:00:00.000Z" (by decide)
    (by decide) calls (by decide)).1

/-- The branch has succeeded: its round and the second one are the heads. -/
example : ((startInquiryJourney options (document ["a"]) "2026-01-01T00:00:00.000Z").recordAll
    options calls).bundle.journey.headRoundIds = ["round-xxxxxxx", "round-xxxxxxxxxxxx"] := by
  decide

end BranchingSession

end KjAtlas.Inquiry
