import KjAtlas.Inquiry.HandoffReview
import KjAtlas.Inquiry.Update

/-! # A reviewed handoff is kept

A review that is saved as it was built gives the handoff back: what is held
stays held, what is carried over and not held is carried over, and the texts
are trimmed, those that are blank left out. Nothing else in the bundle changes
but times and the status of the round.
-/

namespace KjAtlas.Inquiry

open Js (DateFormat trim trim_trim keepFirst keepFirst_eq_self keepFirst_sublist pairwise_keepFirst
  exists_keepFirst)

/-! ## The candidates -/

variable {entry : RoundArtifactRefV1 × String} {fieldwork : List FieldworkRequestV1}

section Candidates

variable (bundle : InquiryBundleV1) (round : RoundRecordV1) (snapshot : RoundSnapshotV1)

def reviewable : List RoundArtifactRefV1 :=
  (snapshotArtifacts snapshot).map Prod.fst ++ (carryoverRefs round ++ heldRefs round)

def reviewCandidate (round : RoundRecordV1) (entry : RoundArtifactRefV1 × String) :
    InquiryHandoffArtifactCandidate :=
  artifactCandidate ((carryoverRefs round).map artifactKey) ((heldRefs round).map artifactKey) entry

def reviewCandidates : List InquiryHandoffReviewCandidate :=
  ((reviewedRefs bundle round snapshot).map fun entry => .artifact (reviewCandidate round entry)) ++
    (textCandidates round).map .text

variable {bundle round snapshot}

theorem buildInquiryHandoffReview_eq {roundId : String}
    (hround : findBy RoundRecordV1.roundId roundId bundle.journey.roundRecords = some round)
    (hsnapshot : (round.outputSnapshotId.bind fun snapshotId =>
      findBy RoundSnapshotV1.snapshotId snapshotId bundle.snapshots) = some snapshot) :
    buildInquiryHandoffReview bundle (some roundId) =
      .ok (round.roundId, reviewCandidates bundle round snapshot) := by
  simp only [buildInquiryHandoffReview, Option.some_or, Option.bind_some, hround, hsnapshot]
  rfl

theorem mem_reviewable_of_mem (hentry : entry ∈ reviewedRefs bundle round snapshot) :
    entry.1 ∈ reviewable round snapshot := by
  have hmem := (keepFirst_sublist _).mem hentry
  rw [reviewable]
  rcases List.mem_append.mp hmem with hartifact | href
  · exact List.mem_append_left _ (List.mem_map_of_mem hartifact)
  · obtain ⟨ref, hlisted, rfl⟩ := List.mem_map.mp href
    exact List.mem_append_right _ hlisted

theorem exists_reviewedRefs {ref : RoundArtifactRefV1} (href : ref ∈ reviewable round snapshot) :
    ∃ entry ∈ reviewedRefs bundle round snapshot, artifactKey entry.1 = artifactKey ref := by
  have hlisted : ∃ label, (ref, label) ∈ snapshotArtifacts snapshot ++
      (carryoverRefs round ++ heldRefs round).map fun ref => (ref, artifactLabel bundle ref) := by
    rcases List.mem_append.mp href with hartifact | href
    · obtain ⟨⟨_, label⟩, hentry, rfl⟩ := List.mem_map.mp hartifact
      exact ⟨label, List.mem_append_left _ hentry⟩
    · exact ⟨artifactLabel bundle ref, List.mem_append_right _ (List.mem_map_of_mem href)⟩
  obtain ⟨label, hlisted⟩ := hlisted
  obtain ⟨entry, hentry, rfl | hclash⟩ :=
    @exists_keepFirst _ (fun left right : RoundArtifactRefV1 × String => sameKey left.1 right.1)
      _ _ hlisted
  · exact ⟨_, hentry, rfl⟩
  · exact ⟨entry, hentry, (of_decide_eq_true hclash).symm⟩

theorem pairwise_reviewedRefs (bundle : InquiryBundleV1) (round : RoundRecordV1)
    (snapshot : RoundSnapshotV1) :
    (reviewedRefs bundle round snapshot).Pairwise fun earlier later =>
      artifactKey later.1 ≠ artifactKey earlier.1 :=
  (pairwise_keepFirst _).imp fun hclash => of_decide_eq_false hclash

end Candidates

/-! ## The references -/

section Refs

variable {bundle : InquiryBundleV1} {round : RoundRecordV1} {snapshot : RoundSnapshotV1}
  {ref : RoundArtifactRefV1}

theorem artifactCandidates_reviewCandidates :
    artifactCandidates (reviewCandidates bundle round snapshot) =
      (reviewedRefs bundle round snapshot).map (reviewCandidate round) := by
  have htexts : artifactCandidates ((textCandidates round).map .text) = [] := by
    rw [artifactCandidates, List.filterMap_map, List.filterMap_eq_nil_iff]
    exact fun _ _ => rfl
  have hrefs : artifactCandidates ((reviewedRefs bundle round snapshot).map fun entry =>
      .artifact (reviewCandidate round entry)) =
        (reviewedRefs bundle round snapshot).map (reviewCandidate round) := by
    rw [artifactCandidates, List.filterMap_map, ← List.filterMap_eq_map]
    rfl
  rw [reviewCandidates, artifactCandidates, List.filterMap_append]
  exact (congrArg₂ (· ++ ·) hrefs htexts).trans (List.append_nil _)

/-- The references under a decision: their keys differ, so that none is left out. -/
theorem uniqueArtifactRefs_reviewCandidates (decision : InquiryHandoffReviewDecision) :
    uniqueArtifactRefs (reviewCandidates bundle round snapshot) decision =
      ((reviewedRefs bundle round snapshot).filter fun entry =>
        (reviewCandidate round entry).decision = decision).map Prod.fst := by
  rw [uniqueArtifactRefs, artifactCandidates_reviewCandidates, List.filter_map, List.map_map]
  refine keepFirst_eq_self (List.pairwise_map.mpr ?_)
  refine ((pairwise_reviewedRefs bundle round snapshot).sublist List.filter_sublist).imp ?_
  exact fun hne => decide_eq_false hne

theorem decision_eq_held :
    (reviewCandidate round entry).decision = .held ↔
      artifactKey entry.1 ∈ (heldRefs round).map artifactKey := by
  unfold reviewCandidate artifactCandidate
  split_ifs with hheld hcarryover
  · simp [hheld]
  · simp [hheld]
  · simp [hheld]

theorem decision_eq_adopted :
    (reviewCandidate round entry).decision = .adopted ↔
      artifactKey entry.1 ∈ (carryoverRefs round).map artifactKey ∧
        artifactKey entry.1 ∉ (heldRefs round).map artifactKey := by
  unfold reviewCandidate artifactCandidate
  split_ifs with hheld hcarryover
  · simp [hheld]
  · simp [hheld, hcarryover]
  · simp [hcarryover]

variable {decision : InquiryHandoffReviewDecision}

theorem mem_reviewable_of_mem_unique
    (href : ref ∈ uniqueArtifactRefs (reviewCandidates bundle round snapshot) decision) :
    ref ∈ reviewable round snapshot := by
  rw [uniqueArtifactRefs_reviewCandidates] at href
  obtain ⟨entry, hentry, rfl⟩ := List.mem_map.mp href
  exact mem_reviewable_of_mem (List.mem_filter.mp hentry).1

/-- Different references have different keys. -/
def DistinctKeys (refs : List RoundArtifactRefV1) : Prop :=
  ∀ left ∈ refs, ∀ right ∈ refs, artifactKey left = artifactKey right → left = right

theorem mem_map_key_iff {refs : List RoundArtifactRefV1}
    (hkeys : DistinctKeys (reviewable round snapshot)) (href : ref ∈ reviewable round snapshot)
    (hrefs : ∀ other ∈ refs, other ∈ reviewable round snapshot) :
    artifactKey ref ∈ refs.map artifactKey ↔ ref ∈ refs := by
  refine ⟨fun hmem => ?_, List.mem_map_of_mem⟩
  obtain ⟨other, hother, hkey⟩ := List.mem_map.mp hmem
  exact hkeys other (hrefs other hother) ref href hkey ▸ hother

theorem mem_uniqueArtifactRefs (hkeys : DistinctKeys (reviewable round snapshot)) :
    ref ∈ uniqueArtifactRefs (reviewCandidates bundle round snapshot) decision ↔
      ref ∈ reviewable round snapshot ∧
        ∃ label, (reviewCandidate round (ref, label)).decision = decision := by
  have hdecision : ∀ label label', (reviewCandidate round (ref, label)).decision =
      (reviewCandidate round (ref, label')).decision := fun _ _ => rfl
  constructor
  · intro href
    refine ⟨mem_reviewable_of_mem_unique href, ?_⟩
    rw [uniqueArtifactRefs_reviewCandidates] at href
    obtain ⟨⟨_, label⟩, hentry, rfl⟩ := List.mem_map.mp href
    exact ⟨label, of_decide_eq_true (List.mem_filter.mp hentry).2⟩
  · rintro ⟨href, label, hlabel⟩
    obtain ⟨⟨other, label'⟩, hentry, hkey⟩ := @exists_reviewedRefs bundle _ _ _ href
    obtain rfl := hkeys other (mem_reviewable_of_mem hentry) ref href hkey
    rw [uniqueArtifactRefs_reviewCandidates]
    refine List.mem_map.mpr ⟨(other, label'), List.mem_filter.mpr ⟨hentry, ?_⟩, rfl⟩
    exact decide_eq_true ((hdecision label' label).trans hlabel)

theorem carryoverRefs_reviewable : ∀ ref ∈ carryoverRefs round, ref ∈ reviewable round snapshot :=
  fun _ href => List.mem_append_right _ (List.mem_append_left _ href)

theorem heldRefs_reviewable : ∀ ref ∈ heldRefs round, ref ∈ reviewable round snapshot :=
  fun _ href => List.mem_append_right _ (List.mem_append_right _ href)

theorem mem_held (hkeys : DistinctKeys (reviewable round snapshot)) (ref : RoundArtifactRefV1) :
    ref ∈ uniqueArtifactRefs (reviewCandidates bundle round snapshot) .held ↔
      ref ∈ heldRefs round := by
  rw [mem_uniqueArtifactRefs hkeys]
  simp only [decision_eq_held, exists_const]
  constructor
  · rintro ⟨href, hmem⟩
    exact (mem_map_key_iff hkeys href heldRefs_reviewable).mp hmem
  · intro href
    exact ⟨heldRefs_reviewable ref href, List.mem_map_of_mem href⟩

theorem mem_carryover (hkeys : DistinctKeys (reviewable round snapshot))
    (ref : RoundArtifactRefV1) :
    ref ∈ uniqueArtifactRefs (reviewCandidates bundle round snapshot) .adopted ↔
      ref ∈ carryoverRefs round ∧ ref ∉ heldRefs round := by
  rw [mem_uniqueArtifactRefs hkeys]
  simp only [decision_eq_adopted, exists_const]
  constructor
  · rintro ⟨href, hcarryover, hheld⟩
    rw [mem_map_key_iff hkeys href carryoverRefs_reviewable] at hcarryover
    rw [mem_map_key_iff hkeys href heldRefs_reviewable] at hheld
    exact ⟨hcarryover, hheld⟩
  · rintro ⟨hcarryover, hheld⟩
    have href := @carryoverRefs_reviewable round snapshot ref hcarryover
    refine ⟨href, List.mem_map_of_mem hcarryover, ?_⟩
    rwa [mem_map_key_iff hkeys href heldRefs_reviewable]

end Refs

/-! ## The texts -/

def FieldworkRequestV1.trimmed (request : FieldworkRequestV1) : FieldworkRequestV1 :=
  { request with question := trim request.question }

variable {unresolved : List String}

section Texts

variable {bundle : InquiryBundleV1} {round : RoundRecordV1} {snapshot : RoundSnapshotV1}

def isAdopted (kind : InquiryHandoffTextKind) (candidate : InquiryHandoffTextCandidate) : Bool :=
  decide (candidate.kind = kind ∧ candidate.decision = .adopted ∧ trim candidate.value ≠ "")

theorem adoptedTexts_reviewCandidates (kind : InquiryHandoffTextKind) :
    adoptedTexts kind (reviewCandidates bundle round snapshot) =
      (textCandidates round).filter (isAdopted kind) := by
  have hrefs : adoptedTexts kind ((reviewedRefs bundle round snapshot).map fun entry =>
      .artifact (reviewCandidate round entry)) = [] := by
    rw [adoptedTexts, List.filterMap_map, List.filterMap_eq_nil_iff]
    exact fun _ _ => rfl
  have htexts : adoptedTexts kind ((textCandidates round).map .text) =
      (textCandidates round).filter (isAdopted kind) := by
    rw [adoptedTexts, List.filterMap_map, ← List.filterMap_eq_filter]
    refine List.filterMap_congr fun candidate _ => ?_
    simp [isAdopted, Option.guard]
  rw [reviewCandidates, adoptedTexts, List.filterMap_append]
  exact congrArg₂ (· ++ ·) hrefs htexts

variable {candidates : List InquiryHandoffTextCandidate} {kind : InquiryHandoffTextKind}
  {candidate : InquiryHandoffTextCandidate} {handoff : RoundHandoffV1}

theorem filter_isAdopted_eq_nil
    (hnone : ∀ candidate ∈ candidates, candidate.kind ≠ kind ∨ candidate.decision = .pending) :
    candidates.filter (isAdopted kind) = [] := by
  refine List.filter_eq_nil_iff.mpr fun candidate hcandidate hadopted => ?_
  obtain ⟨hkind, hdecision, -⟩ := of_decide_eq_true hadopted
  rcases hnone candidate hcandidate with hne | hpending
  · exact hne hkind
  · simp [hpending] at hdecision

theorem kind_of_mem_unresolvedCandidates
    (hcandidate : candidate ∈ unresolvedCandidates unresolved) :
    candidate.kind = .unresolvedQuestion := by
  unfold unresolvedCandidates at hcandidate
  split at hcandidate
  · rw [List.mem_singleton.mp hcandidate]
    rfl
  · obtain ⟨index, -, rfl⟩ := List.mem_mapIdx.mp hcandidate
    rfl

theorem kind_of_mem_fieldworkCandidates (hcandidate : candidate ∈ fieldworkCandidates fieldwork) :
    candidate.kind = .fieldworkRequest := by
  unfold fieldworkCandidates at hcandidate
  split at hcandidate
  · rw [List.mem_singleton.mp hcandidate]
    rfl
  · obtain ⟨request, -, rfl⟩ := List.mem_map.mp hcandidate
    rfl

theorem map_filter_isAdopted
    (hall : ∀ candidate ∈ candidates, candidate.kind = kind ∧ candidate.decision = .adopted) :
    (candidates.filter (isAdopted kind)).map (fun candidate => trim candidate.value) =
      (candidates.map fun candidate => trim candidate.value).filter (· ≠ "") := by
  rw [List.filter_map]
  congr 1
  refine List.filter_congr fun candidate hcandidate => ?_
  simp [isAdopted, hall candidate hcandidate]

theorem unresolved_eq (unresolved : List String) :
    ((unresolvedCandidates unresolved).filter (isAdopted .unresolvedQuestion)).map
        (fun candidate => trim candidate.value) =
      (unresolved.map trim).filter (· ≠ "") := by
  unfold unresolvedCandidates
  split_ifs with hnil
  · rw [hnil, filter_isAdopted_eq_nil fun candidate hcandidate => ?_]
    · rfl
    · rw [List.mem_singleton.mp hcandidate]
      exact .inr rfl
  · rw [map_filter_isAdopted fun candidate hcandidate => ?_]
    · refine congrArg (List.filter _) (map_mapIdx_eq_map ?_ unresolved)
      exact fun _ _ => rfl
    · obtain ⟨index, -, rfl⟩ := List.mem_mapIdx.mp hcandidate
      exact ⟨rfl, rfl⟩

theorem buildRequests_eq (ids : Nat → String) (drawn : Nat) (fieldwork : List FieldworkRequestV1) :
    buildRequests ids drawn ((fieldworkCandidates fieldwork).filter
        (isAdopted .fieldworkRequest)) =
      (fieldwork.map FieldworkRequestV1.trimmed).filter (·.question ≠ "") := by
  unfold fieldworkCandidates
  split_ifs with hnil
  · rw [hnil, filter_isAdopted_eq_nil fun candidate hcandidate => ?_]
    · rfl
    · rw [List.mem_singleton.mp hcandidate]
      exact .inr rfl
  · clear hnil
    induction fieldwork with
    | nil => rfl
    | cons request fieldwork ih =>
        rw [List.map_cons, List.map_cons]
        by_cases hblank : trim request.question = ""
        · rw [List.filter_cons_of_neg (by simp [isAdopted, hblank]),
            List.filter_cons_of_neg (by simp [FieldworkRequestV1.trimmed, hblank]), ih]
        · rw [List.filter_cons_of_pos (by simp [isAdopted, hblank]),
            List.filter_cons_of_pos (by simp [FieldworkRequestV1.trimmed, hblank]), buildRequests]
          simp only [ih, decide_true, FieldworkRequestV1.trimmed]
          cases request.outcome <;> rfl

theorem understanding_eq (understanding : Option String) :
    (([understandingCandidate (understanding.getD "")].filter
        (isAdopted .understanding)).head?.map fun candidate => trim candidate.value) =
      trimmedText understanding := by
  have hkept : ∀ text, (([understandingCandidate text].filter
      (isAdopted .understanding)).head?.map fun candidate => trim candidate.value) =
        trimmedText (some text) := by
    intro text
    by_cases hblank : trim text = ""
    · rw [List.filter_cons_of_neg (by simp [isAdopted, understandingCandidate, hblank])]
      simp [trimmedText, hblank, Option.filter]
    · rw [List.filter_cons_of_pos (by simp [isAdopted, understandingCandidate, hblank])]
      simp [trimmedText, understandingCandidate, hblank, Option.filter]
  cases understanding with
  | none => exact (hkept "").trans (by decide)
  | some text => exact hkept text

theorem textCandidates_eq (hhandoff : round.handoff = some handoff) :
    textCandidates round =
      understandingCandidate (handoff.understandingDelta.getD "") ::
        (unresolvedCandidates handoff.unresolvedQuestions ++
          fieldworkCandidates handoff.fieldworkRequests) := by
  rw [textCandidates, hhandoff]
  rfl

theorem filter_isAdopted_textCandidates (hhandoff : round.handoff = some handoff)
    (kind : InquiryHandoffTextKind) :
    (textCandidates round).filter (isAdopted kind) =
      match kind with
      | .understanding => [understandingCandidate (handoff.understandingDelta.getD "")].filter
          (isAdopted .understanding)
      | .unresolvedQuestion => (unresolvedCandidates handoff.unresolvedQuestions).filter
          (isAdopted .unresolvedQuestion)
      | .fieldworkRequest => (fieldworkCandidates handoff.fieldworkRequests).filter
          (isAdopted .fieldworkRequest) := by
  have hunderstanding : kind ≠ .understanding →
      [understandingCandidate (handoff.understandingDelta.getD "")].filter (isAdopted kind) = [] := by
    intro hkind
    refine filter_isAdopted_eq_nil fun candidate hcandidate => ?_
    rw [List.mem_singleton.mp hcandidate]
    exact .inl hkind.symm
  have hunresolved : kind ≠ .unresolvedQuestion →
      (unresolvedCandidates handoff.unresolvedQuestions).filter (isAdopted kind) = [] := by
    intro hkind
    refine filter_isAdopted_eq_nil fun candidate hcandidate => .inl ?_
    rw [kind_of_mem_unresolvedCandidates hcandidate]
    exact hkind.symm
  have hfieldwork : kind ≠ .fieldworkRequest →
      (fieldworkCandidates handoff.fieldworkRequests).filter (isAdopted kind) = [] := by
    intro hkind
    refine filter_isAdopted_eq_nil fun candidate hcandidate => .inl ?_
    rw [kind_of_mem_fieldworkCandidates hcandidate]
    exact hkind.symm
  rw [textCandidates_eq hhandoff, ← List.singleton_append, List.filter_append, List.filter_append]
  cases kind with
  | understanding =>
      rw [hunresolved (by decide), hfieldwork (by decide), List.append_nil, List.append_nil]
  | unresolvedQuestion =>
      rw [hunderstanding (by decide), hfieldwork (by decide), List.nil_append, List.append_nil]
  | fieldworkRequest =>
      rw [hunderstanding (by decide), hunresolved (by decide), List.nil_append, List.nil_append]

/-- The texts of a handoff that is built from a review as it is. -/
structure KeepsTexts (before after : RoundHandoffV1) : Prop where
  unresolved : after.unresolvedQuestions = (before.unresolvedQuestions.map trim).filter (· ≠ "")
  fieldwork : after.fieldworkRequests =
    (before.fieldworkRequests.map FieldworkRequestV1.trimmed).filter (·.question ≠ "")
  understanding : after.understandingDelta = trimmedText before.understandingDelta

theorem keepsTexts_buildHandoff (ids : Nat → String) {handoff : RoundHandoffV1}
    (hhandoff : round.handoff = some handoff) :
    KeepsTexts handoff (buildHandoff ids (reviewCandidates bundle round snapshot)) where
  unresolved := by
    rw [buildHandoff, adoptedTexts_reviewCandidates, filter_isAdopted_textCandidates hhandoff]
    exact unresolved_eq handoff.unresolvedQuestions
  fieldwork := by
    simp only [buildHandoff, adoptedTexts_reviewCandidates,
      filter_isAdopted_textCandidates hhandoff]
    exact buildRequests_eq ids 0 handoff.fieldworkRequests
  understanding := by
    simp only [buildHandoff, adoptedTexts_reviewCandidates,
      filter_isAdopted_textCandidates hhandoff]
    exact understanding_eq handoff.understandingDelta

end Texts

/-! ## The ids of candidates -/

section CandidateIds

variable {bundle : InquiryBundleV1} {round : RoundRecordV1} {snapshot : RoundSnapshotV1}

/-- The start of an id, which tells the kinds of candidates apart. -/
def idTag (candidateId : String) : List Char := candidateId.toList.take 3

theorem toString_nat_inj {m n : Nat} (h : toString m = toString n) : m = n := by
  have hdigits : Nat.toDigits 10 m = Nat.toDigits 10 n := by
    have hchars := congrArg String.toList h
    simpa [toString, Nat.repr] using hchars
  have hvalue := congrArg (Nat.ofDigitChars 10 · 0) hdigits
  simpa using hvalue

theorem nodup_unresolvedIds (unresolved : List String) :
    ((unresolvedCandidates unresolved).map InquiryHandoffTextCandidate.candidateId).Nodup := by
  unfold unresolvedCandidates
  split_ifs
  · exact List.nodup_singleton _
  · rw [List.Nodup, List.pairwise_iff_getElem]
    intro i j hi hj hlt heq
    simp only [List.getElem_map, List.getElem_mapIdx, String.append_right_inj] at heq
    exact hlt.ne (toString_nat_inj heq)

theorem nodup_fieldworkIds (hrequests : (fieldwork.map FieldworkRequestV1.requestId).Nodup) :
    ((fieldworkCandidates fieldwork).map InquiryHandoffTextCandidate.candidateId).Nodup := by
  unfold fieldworkCandidates
  split_ifs
  · exact List.nodup_singleton _
  · have hids : (fieldwork.map fun request => "fieldwork:" ++ request.requestId) =
        (fieldwork.map FieldworkRequestV1.requestId).map ("fieldwork:" ++ ·) := by
      rw [List.map_map]
      rfl
    rw [List.map_map]
    exact (congrArg List.Nodup hids).mpr
      (hrequests.map fun _ _ => (String.append_right_inj _).mp)

theorem idTag_understanding (understanding : String) :
    idTag (understandingCandidate understanding).candidateId = ['u', 'n', 'd'] := by
  simp [idTag, understandingCandidate]

variable {candidateId : String}

theorem idTag_of_mem_unresolved (hid : candidateId ∈
      (unresolvedCandidates unresolved).map InquiryHandoffTextCandidate.candidateId) :
    idTag candidateId = ['u', 'n', 'r'] := by
  unfold unresolvedCandidates at hid
  split_ifs at hid
  · rw [List.map_singleton, List.mem_singleton] at hid
    rw [hid]
    rfl
  · obtain ⟨candidate, hcandidate, rfl⟩ := List.mem_map.mp hid
    obtain ⟨index, -, rfl⟩ := List.mem_mapIdx.mp hcandidate
    simp [idTag]

theorem idTag_of_mem_fieldwork (hid : candidateId ∈
      (fieldworkCandidates fieldwork).map InquiryHandoffTextCandidate.candidateId) :
    idTag candidateId = ['f', 'i', 'e'] := by
  unfold fieldworkCandidates at hid
  split_ifs at hid
  · rw [List.map_singleton, List.mem_singleton] at hid
    rw [hid]
    rfl
  · obtain ⟨candidate, hcandidate, rfl⟩ := List.mem_map.mp hid
    obtain ⟨request, -, rfl⟩ := List.mem_map.mp hcandidate
    simp [idTag]

variable {handoff : RoundHandoffV1}

theorem nodup_textIds (hhandoff : round.handoff = some handoff)
    (hrequests : (handoff.fieldworkRequests.map FieldworkRequestV1.requestId).Nodup) :
    ((textCandidates round).map InquiryHandoffTextCandidate.candidateId).Nodup := by
  rw [textCandidates_eq hhandoff, List.map_cons, List.map_append, List.nodup_cons,
    List.nodup_append]
  refine ⟨fun hid => ?_, nodup_unresolvedIds _, nodup_fieldworkIds hrequests, ?_⟩
  · have htag := idTag_understanding (handoff.understandingDelta.getD "")
    rcases List.mem_append.mp hid with hid | hid
    · rw [idTag_of_mem_unresolved hid] at htag
      exact absurd htag (by decide)
    · rw [idTag_of_mem_fieldwork hid] at htag
      exact absurd htag (by decide)
  · rintro id hunresolved _ hfieldwork rfl
    have htags := (idTag_of_mem_unresolved hunresolved).symm.trans (idTag_of_mem_fieldwork hfieldwork)
    exact absurd htags (by decide)

theorem idTag_of_mem_texts
    (hid : candidateId ∈ (textCandidates round).map InquiryHandoffTextCandidate.candidateId) :
    idTag candidateId ≠ ['a', 'r', 't'] := by
  rw [textCandidates, List.map_cons, List.map_append, List.mem_cons, List.mem_append] at hid
  rcases hid with rfl | hid | hid
  · rw [idTag_understanding]
    decide
  · rw [idTag_of_mem_unresolved hid]
    decide
  · rw [idTag_of_mem_fieldwork hid]
    decide

/-- Different references have different ids as candidates. -/
def DistinctIds (refs : List RoundArtifactRefV1) : Prop :=
  ∀ left ∈ refs, ∀ right ∈ refs, artifactCandidateId left = artifactCandidateId right → left = right

theorem nodup_artifactIds (hids : DistinctIds (reviewable round snapshot)) :
    ((reviewedRefs bundle round snapshot).map fun entry => artifactCandidateId entry.1).Nodup := by
  rw [List.Nodup, List.pairwise_map]
  refine (pairwise_reviewedRefs bundle round snapshot).imp_of_mem ?_
  intro earlier later hearlier hlater hkeys hid
  have heq := hids earlier.1 (mem_reviewable_of_mem hearlier) later.1
    (mem_reviewable_of_mem hlater) hid
  exact hkeys (congrArg artifactKey heq).symm

theorem nodup_candidateIds (hhandoff : round.handoff = some handoff)
    (hids : DistinctIds (reviewable round snapshot))
    (hrequests : (handoff.fieldworkRequests.map FieldworkRequestV1.requestId).Nodup) :
    ((reviewCandidates bundle round snapshot).map
      InquiryHandoffReviewCandidate.candidateId).Nodup := by
  rw [reviewCandidates, List.map_append, List.map_map, List.map_map, List.nodup_append]
  refine ⟨nodup_artifactIds hids, nodup_textIds hhandoff hrequests, ?_⟩
  rintro id hartifact _ htext rfl
  obtain ⟨entry, -, rfl⟩ := List.mem_map.mp hartifact
  refine idTag_of_mem_texts htext ?_
  simp [InquiryHandoffReviewCandidate.candidateId, reviewCandidate, artifactCandidate,
    artifactCandidateId, idTag]

end CandidateIds

/-! ## The saved bundle -/

section Saved

variable {dates : DateFormat} {bundle : InquiryBundleV1} {round : RoundRecordV1}
  {snapshot : RoundSnapshotV1} {handoff : RoundHandoffV1} {ref : RoundArtifactRefV1}

/-- What a review can refer to exists. -/
theorem known_of_mem_reviewable (hvalid : Valid dates bundle)
    (hround : round ∈ bundle.journey.roundRecords) (hsnapshot : snapshot ∈ bundle.snapshots)
    (href : ref ∈ reviewable round snapshot) : KnownArtifact bundle ref := by
  have hget : (snapshotsById bundle.snapshots).get? snapshot.snapshotId = some snapshot :=
    (get?_snapshotsById hvalid.snapshotIds _).trans
      (findBy_of_mem RoundSnapshotV1.snapshotId hvalid.snapshotIds hsnapshot)
  have hhandoff := hvalid.handoffs round hround
  rcases List.mem_append.mp href with hartifact | href
  · simp only [snapshotArtifacts, List.map_append, List.map_map, List.mem_append, List.mem_map,
      Function.comp_apply] at hartifact
    rcases hartifact with ((⟨card, hcard, rfl⟩ | ⟨island, hisland, rfl⟩) |
      ⟨narrative, hnarrative, rfl⟩) | ⟨summary, hsummary, rfl⟩
    · exact ⟨snapshot, hget, List.mem_map_of_mem hcard⟩
    · exact ⟨snapshot, hget, List.mem_map_of_mem hisland⟩
    · exact ⟨snapshot, hget, List.mem_map_of_mem hnarrative⟩
    · exact ⟨snapshot, hget, List.mem_map_of_mem hsummary⟩
  · cases hsome : round.handoff with
    | none => simp [carryoverRefs, heldRefs, hsome] at href
    | some handoff =>
        have hrefs : carryoverRefs round ++ heldRefs round =
            handoff.carryoverRefs ++ handoff.heldRefs := by
          rw [carryoverRefs, heldRefs, hsome]
          rfl
        exact ((handoffIssues_eq_nil hsome).mp hhandoff).1 ref (hrefs ▸ href)

def handOffAt (roundId now : String) (unansweredCount : Nat) (next : RoundHandoffV1)
    (round : RoundRecordV1) : RoundRecordV1 :=
  if round.roundId = roundId then round.handOff now unansweredCount next else round

theorem keepsPlace_handOffAt (roundId now : String) (unansweredCount : Nat)
    (next : RoundHandoffV1) : KeepsPlace (handOffAt roundId now unansweredCount next) := by
  constructor <;> intro round <;> unfold handOffAt <;> split <;> rfl

theorem saveInquiryRoundHandoff_eq {ids : Nat → String} {now : String}
    {candidates : List InquiryHandoffReviewCandidate}
    (hnodup : (bundle.journey.roundRecords.map RoundRecordV1.roundId).Nodup)
    (hround : round ∈ bundle.journey.roundRecords)
    (hsaved : Valid dates (updated bundle (handOffAt round.roundId now
      (candidates.countP isUnanswered) (buildHandoff ids candidates)) now)) :
    saveInquiryRoundHandoff dates ids now bundle round.roundId candidates =
      .ok (updated bundle (handOffAt round.roundId now (candidates.countP isUnanswered)
        (buildHandoff ids candidates)) now, candidates.countP isUnanswered) := by
  cases hindex : bundle.journey.roundRecords.findIdx? fun other =>
      other.roundId = round.roundId with
  | none =>
      rw [List.findIdx?_eq_none_iff] at hindex
      simpa using hindex round hround
  | some index =>
      have hmodify := modify_findIdx? RoundRecordV1.roundId hnodup hindex fun other =>
        other.handOff now (candidates.countP isUnanswered) (buildHandoff ids candidates)
      simp only [saveInquiryRoundHandoff, hindex, hmodify]
      exact if_neg (not_not.mpr (validateInquiryBundle_eq_nil.mpr hsaved))

/-- The references of a handoff that is built from a review as it is. -/
structure KeepsRefs (before after : RoundHandoffV1) : Prop where
  held : ∀ ref, ref ∈ after.heldRefs ↔ ref ∈ before.heldRefs
  carryover : ∀ ref, ref ∈ after.carryoverRefs ↔
    ref ∈ before.carryoverRefs ∧ ref ∉ before.heldRefs

theorem keepsRefs_buildHandoff (ids : Nat → String) (hhandoff : round.handoff = some handoff)
    (hkeys : DistinctKeys (reviewable round snapshot)) :
    KeepsRefs handoff (buildHandoff ids (reviewCandidates bundle round snapshot)) := by
  have hheld : heldRefs round = handoff.heldRefs := by
    rw [heldRefs, hhandoff]
    rfl
  have hcarryover : carryoverRefs round = handoff.carryoverRefs := by
    rw [carryoverRefs, hhandoff]
    rfl
  refine ⟨fun ref => ?_, fun ref => ?_⟩
  · rw [← hheld]
    exact mem_held hkeys ref
  · rw [← hheld, ← hcarryover]
    exact mem_carryover hkeys ref

/-- The handoff that is built refers to what exists. -/
theorem handoffIssues_buildHandoff (hvalid : Valid dates bundle)
    (hround : round ∈ bundle.journey.roundRecords) (hsnapshot : snapshot ∈ bundle.snapshots)
    (hhandoff : round.handoff = some handoff) (ids : Nat → String) (now : String)
    (unansweredCount : Nat) :
    handoffIssues bundle (round.handOff now unansweredCount
      (buildHandoff ids (reviewCandidates bundle round snapshot))) = [] := by
  rw [handoffIssues_eq_nil rfl]
  constructor
  · intro ref href
    refine known_of_mem_reviewable hvalid hround hsnapshot ?_
    rcases List.mem_append.mp href with href | href
    · exact mem_reviewable_of_mem_unique href
    · exact mem_reviewable_of_mem_unique href
  · intro request hrequest
    have hkeeps := @keepsTexts_buildHandoff bundle round snapshot ids handoff hhandoff
    rw [hkeeps.fieldwork] at hrequest
    obtain ⟨before, hbefore, rfl⟩ := List.mem_map.mp (List.mem_filter.mp hrequest).1
    exact ((handoffIssues_eq_nil hhandoff).mp (hvalid.handoffs round hround)).2 before hbefore

theorem valid_saved (hvalid : Valid dates bundle) (hround : round ∈ bundle.journey.roundRecords)
    (hsnapshot : snapshot ∈ bundle.snapshots) (houtput : round.output = some snapshot.snapshotId)
    (hhandoff : round.handoff = some handoff) {now : String}
    (hnow : isCanonicalTimestamp dates now) (hlater : ¬ isEarlier dates now round.updatedAt)
    (hjourney : ¬ isEarlier dates now bundle.journey.updatedAt) (ids : Nat → String)
    (unansweredCount : Nat) :
    Valid dates (updated bundle (handOffAt round.roundId now unansweredCount
      (buildHandoff ids (reviewCandidates bundle round snapshot))) now) := by
  refine hvalid.updated (keepsPlace_handOffAt _ _ _ _) ?_ fun other hother => ?_
  · obtain ⟨hcreated, hupdated, hle⟩ := hasValidTimestamps_iff.mp hvalid.timestamps
    exact hasValidTimestamps_iff.mpr ⟨hcreated, hnow, isEarlier_trans hupdated hle hjourney⟩
  · have hother_valid := hvalid.rounds other hother
    by_cases hid : other.roundId = round.roundId
    · obtain rfl : other = round := by
        have hfind := findBy_of_mem RoundRecordV1.roundId hvalid.roundIds hother
        rw [hid, findBy_of_mem RoundRecordV1.roundId hvalid.roundIds hround] at hfind
        exact (Option.some.inj hfind).symm
      obtain ⟨hcreated, hupdated, hle⟩ := hasValidTimestamps_iff.mp hother_valid.timestamps
      constructor
      all_goals rw [handOffAt, if_pos rfl]
      · exact hasValidTimestamps_iff.mpr ⟨hcreated, hnow, isEarlier_trans hupdated hle hlater⟩
      · rw [RoundRecordV1.handOff]
        split <;> simp [roundStatuses]
      · exact .inr (by simp [houtput])
      · exact handoffIssues_buildHandoff hvalid hother hsnapshot hhandoff ids now unansweredCount
    · constructor
      all_goals rw [handOffAt, if_neg hid]
      · exact hother_valid.timestamps
      · exact hother_valid.status
      · exact hother_valid.output
      · exact hvalid.handoffs other hother

/-- A review that is saved as it was built keeps the handoff, and changes only times and the
status of the round: a reference that is carried over and held stays held only, and what is blank
is left out. -/
theorem saveInquiryRoundHandoff_keeps (dates : DateFormat) (ids : Nat → String) (now : String)
    (bundle : InquiryBundleV1) (round : RoundRecordV1) (snapshot : RoundSnapshotV1)
    (handoff : RoundHandoffV1) (hvalid : validateInquiryBundle dates bundle = [])
    (hround : round ∈ bundle.journey.roundRecords) (hsnapshot : snapshot ∈ bundle.snapshots)
    (houtput : round.output = some snapshot.snapshotId) (hhandoff : round.handoff = some handoff)
    (hnow : isCanonicalTimestamp dates now) (hlater : ¬ isEarlier dates now round.updatedAt)
    (hjourney : ¬ isEarlier dates now bundle.journey.updatedAt) :
    ∃ candidates unansweredCount next,
      buildInquiryHandoffReview bundle (some round.roundId) = .ok (round.roundId, candidates) ∧
      saveInquiryRoundHandoff dates ids now bundle round.roundId candidates =
        .ok (updated bundle (handOffAt round.roundId now unansweredCount next) now,
          unansweredCount) ∧
      KeepsTexts handoff next ∧
      (DistinctKeys (reviewable round snapshot) → KeepsRefs handoff next) ∧
      (DistinctIds (reviewable round snapshot) →
        (handoff.fieldworkRequests.map FieldworkRequestV1.requestId).Nodup →
        (candidates.map InquiryHandoffReviewCandidate.candidateId).Nodup) := by
  rw [validateInquiryBundle_eq_nil] at hvalid
  have hfind : findBy RoundRecordV1.roundId round.roundId bundle.journey.roundRecords =
      some round := findBy_of_mem RoundRecordV1.roundId hvalid.roundIds hround
  have hput : (round.outputSnapshotId.bind fun snapshotId =>
      findBy RoundSnapshotV1.snapshotId snapshotId bundle.snapshots) = some snapshot := by
    rw [(output_eq_some.mp houtput).1]
    exact findBy_of_mem RoundSnapshotV1.snapshotId hvalid.snapshotIds hsnapshot
  exact ⟨reviewCandidates bundle round snapshot, _, _, buildInquiryHandoffReview_eq hfind hput,
    saveInquiryRoundHandoff_eq hvalid.roundIds hround
      (valid_saved hvalid hround hsnapshot houtput hhandoff hnow hlater hjourney ids _),
    keepsTexts_buildHandoff ids hhandoff, keepsRefs_buildHandoff ids hhandoff,
    nodup_candidateIds hhandoff⟩

end Saved

/-! ## A round with a handoff -/

namespace Reviewed

open OneDay (dates)

def snapshot (snapshotId : String) : RoundSnapshotV1 := OneDay.snapshot snapshotId ["a", "b"]

def round (handoff : RoundHandoffV1) : RoundRecordV1 :=
  OneDay.round "r1" "r1_problem_setting" [] ["s0"] "s1" (some handoff)

def bundle (handoff : RoundHandoffV1) : InquiryBundleV1 :=
  OneDay.bundle ["s0"] [round handoff] "r1" [snapshot "s0", snapshot "s1"] [] none

def ref (entityId : String) : RoundArtifactRefV1 := ⟨"s1", .card, entityId⟩

/-- A handoff of which everything is kept. -/
def plain : RoundHandoffV1 :=
  ⟨[ref "a"], [ref "b"], ["why?"], [⟨"f1", "ask", none⟩], some "so far"⟩

/-- A handoff that carries over what it holds. -/
def overlapping : RoundHandoffV1 := ⟨[ref "a"], [ref "a"], [], [], none⟩

theorem plain_keeps : ∃ candidates unansweredCount next,
    buildInquiryHandoffReview (bundle plain) (some "r1") = .ok ("r1", candidates) ∧
    saveInquiryRoundHandoff dates (fun _ => "new") "2026-01-01T00:00:00.000Z" (bundle plain) "r1"
        candidates =
      .ok (updated (bundle plain) (handOffAt "r1" "2026-01-01T00:00:00.000Z" unansweredCount next)
        "2026-01-01T00:00:00.000Z", unansweredCount) ∧
    KeepsTexts plain next ∧
    (DistinctKeys (reviewable (round plain) (snapshot "s1")) → KeepsRefs plain next) ∧
    (DistinctIds (reviewable (round plain) (snapshot "s1")) →
      (plain.fieldworkRequests.map FieldworkRequestV1.requestId).Nodup →
      (candidates.map InquiryHandoffReviewCandidate.candidateId).Nodup) :=
  saveInquiryRoundHandoff_keeps dates (fun _ => "new") "2026-01-01T00:00:00.000Z" (bundle plain)
    (round plain) (snapshot "s1") plain (by decide) (by decide) (by decide) (by decide) rfl
    (by decide) (by decide) (by decide)

/-- What is both carried over and held is not carried over after a review. -/
theorem overlapping_not_kept : ¬ ∀ (dates : DateFormat) (ids : Nat → String) (now : String)
    (bundle : InquiryBundleV1) (round : RoundRecordV1) (snapshot : RoundSnapshotV1)
    (handoff : RoundHandoffV1), validateInquiryBundle dates bundle = [] →
    round ∈ bundle.journey.roundRecords → snapshot ∈ bundle.snapshots →
    round.output = some snapshot.snapshotId → round.handoff = some handoff →
    isCanonicalTimestamp dates now → ¬ isEarlier dates now round.updatedAt →
    ¬ isEarlier dates now bundle.journey.updatedAt →
    ∃ candidates unansweredCount saved next,
      buildInquiryHandoffReview bundle (some round.roundId) = .ok (round.roundId, candidates) ∧
      saveInquiryRoundHandoff dates ids now bundle round.roundId candidates =
        .ok (saved, unansweredCount) ∧
      (findBy RoundRecordV1.roundId round.roundId saved.journey.roundRecords).bind
        RoundRecordV1.handoff = some next ∧
      ∀ ref, ref ∈ next.carryoverRefs ↔ ref ∈ handoff.carryoverRefs := by
  intro hall
  obtain ⟨candidates, unansweredCount, saved, next, hbuild, hsave, hnext, hrefs⟩ :=
    hall dates (fun _ => "new") "2026-01-01T00:00:00.000Z" (bundle overlapping) (round overlapping)
      (snapshot "s1") overlapping (by decide) (by decide) (by decide) (by decide) rfl (by decide)
      (by decide) (by decide)
  have hreview : buildInquiryHandoffReview (bundle overlapping) (some "r1") =
      .ok ("r1", reviewCandidates (bundle overlapping) (round overlapping) (snapshot "s1")) :=
    @buildInquiryHandoffReview_eq _ (round overlapping) (snapshot "s1") "r1" (by decide) (by decide)
  obtain rfl := (Prod.mk.inj (Except.ok.inj (hbuild.symm.trans hreview))).2
  have hcarryover : (saveInquiryRoundHandoff dates (fun _ => "new") "2026-01-01T00:00:00.000Z"
      (bundle overlapping) (round overlapping).roundId (reviewCandidates (bundle overlapping)
        (round overlapping) (snapshot "s1"))).toOption.bind (fun saved =>
          ((findBy RoundRecordV1.roundId (round overlapping).roundId
            saved.1.journey.roundRecords).bind RoundRecordV1.handoff).map
              RoundHandoffV1.carryoverRefs) = some [] := by
    decide +kernel
  have hnone : some next.carryoverRefs = some [] := by
    rw [← hcarryover, hsave]
    exact (congrArg (Option.map RoundHandoffV1.carryoverRefs) hnext).symm
  have hmem := (hrefs (ref "a")).mpr (by decide)
  rw [Option.some.inj hnone] at hmem
  exact absurd hmem List.not_mem_nil

end Reviewed

end KjAtlas.Inquiry
