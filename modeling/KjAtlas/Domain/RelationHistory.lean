import KjAtlas.Foundation.BoundedLog
import KjAtlas.Foundation.KeyedStore

/-! # The history of relation summaries

Each change of the text, the reviewed flag or the warnings of a relation summary
is recorded in its history, which keeps the last entries. The entries form a
chain that ends in the current summary.
-/

namespace KjAtlas.RelationHistory

open BoundedLog

/-! ## Summaries and changes -/

/-- A text as its UTF-16 code units, of which the program keeps the first ones;
this may leave half of a surrogate pair. -/
abbrev CodeUnits := List UInt16

inductive ChangeKind where
  | ai
  | manual
  | rollback
  | imported
  | unknown
deriving DecidableEq

/-- `RelationSummaryHistoryEntry`, where `none` in a `from` or `to` field stands
for `null`. -/
structure HistoryEntry where
  id : String
  createdAt : String
  changeKind : ChangeKind
  fromText : Option CodeUnits
  toText : Option CodeUnits
  fromReviewed : Option Bool
  toReviewed : Option Bool
  warningsSnapshot : Option (List String)
  groundingCardIdsSnapshot : Option (List String)
  groundingEdgeIdsSnapshot : Option (List String)
  note : Option String

/-- `RelationSummary`, as the record of its declared fields. -/
structure RelationSummary where
  id : String
  createdAt : String
  islandAId : String
  islandBId : String
  relationType : String
  derived : Bool
  text : CodeUnits
  reviewed : Bool
  groundingCardIds : List String
  groundingEdgeIds : List String
  warnings : Option (List String)
  sourceSignature : String
  history : Option (List HistoryEntry)

/-- `summary.history ?? []`. -/
def RelationSummary.entries (summary : RelationSummary) : List HistoryEntry :=
  summary.history.getD []

/-- A document with its relation summaries; the code copies the `rest`. -/
structure Document (Rest : Type) where
  relationSummaries : Option (List RelationSummary)
  rest : Rest

/-- `document.relationSummaries ?? []`. -/
def Document.summaries {Rest : Type} (document : Document Rest) : List RelationSummary :=
  document.relationSummaries.getD []

structure Patch where
  sourceSignature : String
  islandAId : String
  islandBId : String
  relationType : String
  derived : Bool
  newText : CodeUnits
  newWarnings : Option (List String)
  newGroundingCardIds : List String
  newGroundingEdgeIds : List String
  changeKind : ChangeKind
  note : Option String
  newReviewed : Option Bool

/-- The clock and the ids that `createEntryId` makes for a summary and for a
history entry. -/
structure Env where
  now : String
  summaryId : String
  entryId : String

def relationSummaryHistoryLimit : Nat := 50

def relationSummaryTextMaxLength : Nat := 4000

/-! ## The update -/

def knownEdgeTypes : List String := ["related", "negate", "causal", "mutual", "equivalence"]

def normalizeRelationType (type : String) : String :=
  if type = "unknown" ∨ type ∈ knownEdgeTypes then type else "unknown"

/-- `sameStringList(left, right)`. -/
def sameStringList (left right : Option (List String)) : Bool :=
  decide (left.getD [] = right.getD [])

/-- The reviewed flag after a change. -/
def nextReviewed (patch : Patch) (previous : Option RelationSummary) : Bool :=
  if patch.changeKind = .ai then false
  else match patch.newReviewed with
    | some reviewed => reviewed
    | none =>
        if patch.changeKind = .manual then true
        else (previous.map RelationSummary.reviewed).getD false

/-- The summary after a change, with the history it had before. -/
def nextSummary (env : Env) (patch : Patch) (previous : Option RelationSummary) :
    RelationSummary where
  id := (previous.map RelationSummary.id).getD env.summaryId
  createdAt := (previous.map RelationSummary.createdAt).getD env.now
  islandAId := patch.islandAId
  islandBId := patch.islandBId
  relationType := normalizeRelationType patch.relationType
  derived := patch.derived
  text := patch.newText.take relationSummaryTextMaxLength
  reviewed := nextReviewed patch previous
  groundingCardIds := distinct patch.newGroundingCardIds
  groundingEdgeIds := distinct patch.newGroundingEdgeIds
  warnings := patch.newWarnings.filter fun warnings => decide (0 < warnings.length)
  sourceSignature := patch.sourceSignature
  history := previous.bind RelationSummary.history

def noHistoryChange (previous : Option RelationSummary) (next : RelationSummary) : Bool :=
  previous.any fun previous =>
    decide (previous.text = next.text) && decide (previous.reviewed = next.reviewed) &&
      sameStringList previous.warnings next.warnings

def noSummaryChange (previous : Option RelationSummary) (next : RelationSummary) : Bool :=
  previous.any fun previous =>
    decide (previous.islandAId = next.islandAId) && decide (previous.islandBId = next.islandBId) &&
      decide (previous.relationType = next.relationType) &&
        decide (previous.derived = next.derived) && decide (previous.text = next.text) &&
          decide (previous.reviewed = next.reviewed) &&
            sameStringList previous.warnings next.warnings &&
              decide (previous.groundingCardIds = next.groundingCardIds) &&
                decide (previous.groundingEdgeIds = next.groundingEdgeIds)

def newHistoryEntry (env : Env) (patch : Patch) (previous : Option RelationSummary)
    (next : RelationSummary) : HistoryEntry where
  id := env.entryId
  createdAt := env.now
  changeKind := patch.changeKind
  fromText := previous.map RelationSummary.text
  toText := some next.text
  fromReviewed := previous.map RelationSummary.reviewed
  toReviewed := some next.reviewed
  warningsSnapshot := next.warnings
  groundingCardIdsSnapshot := some next.groundingCardIds
  groundingEdgeIdsSnapshot := some next.groundingEdgeIds
  note := patch.note

/-- The summary that is written, with the new entry in its history. -/
def recordedSummary (env : Env) (patch : Patch) (previous : Option RelationSummary) :
    RelationSummary :=
  let next := nextSummary env patch previous
  if noHistoryChange previous next then next
  else { next with
    history := some (record relationSummaryHistoryLimit
      ((previous.bind RelationSummary.history).getD []) (newHistoryEntry env patch previous next)) }

variable {Rest : Type}

def upsertRelationSummaryWithHistory (env : Env) (document : Document Rest) (patch : Patch) :
    Document Rest :=
  let existing := document.summaries
  let previous := findBy RelationSummary.sourceSignature patch.sourceSignature existing
  let next := nextSummary env patch previous
  if noSummaryChange previous next && noHistoryChange previous next then document
  else { document with
    relationSummaries := some
      (upsertBy RelationSummary.sourceSignature (recordedSummary env patch previous) existing) }

/-- A run of updates, each with what its environment provides. -/
def upsertAll (document : Document Rest) (calls : List (Env × Patch)) : Document Rest :=
  calls.foldl (fun document call => upsertRelationSummaryWithHistory call.1 document call.2) document

/-- An entry starts where the one before it ended. -/
def Linked (entry next : HistoryEntry) : Prop :=
  next.fromText = entry.toText ∧ next.fromReviewed = entry.toReviewed

/-- The history of a summary is a chain that ends in the summary. -/
structure Faithful (summary : RelationSummary) : Prop where
  nonempty : summary.entries ≠ []
  length_le : summary.entries.length ≤ relationSummaryHistoryLimit
  linked : summary.entries.IsChain Linked
  first : summary.entries.length < relationSummaryHistoryLimit →
    ∀ entry ∈ summary.entries.head?, entry.fromText = none ∧ entry.fromReviewed = none
  last : ∀ entry ∈ summary.entries.getLast?,
    entry.toText = some summary.text ∧ entry.toReviewed = some summary.reviewed

/-- What holds after a run: each signature that was used has one summary with a
faithful history, an AI change leaves its summary unreviewed, and a summary
keeps its id and its time of creation. -/
structure FaithfulRun (document : Document Rest) (calls : List (Env × Patch)) : Prop where
  nodup : ((upsertAll document calls).summaries.map RelationSummary.sourceSignature).Nodup
  covered : ∀ signature,
    signature ∈ (upsertAll document calls).summaries.map RelationSummary.sourceSignature ↔
      ∃ call ∈ calls, call.2.sourceSignature = signature
  faithful : ∀ summary ∈ (upsertAll document calls).summaries, Faithful summary
  unreviewed : ∀ before call after, calls = before ++ call :: after → call.2.changeKind = .ai →
    ∀ summary ∈ (upsertAll document (before ++ [call])).summaries,
      summary.sourceSignature = call.2.sourceSignature → summary.reviewed = false
  identity : ∀ before after, calls = before ++ after →
    ∀ summary ∈ (upsertAll document before).summaries,
      ∃ later ∈ (upsertAll document calls).summaries,
        later.sourceSignature = summary.sourceSignature ∧ later.id = summary.id ∧
          later.createdAt = summary.createdAt

/-! ## One update -/

section Update

variable (env : Env) (patch : Patch) {previous : Option RelationSummary}

@[simp] theorem recordedSummary_sourceSignature :
    (recordedSummary env patch previous).sourceSignature = patch.sourceSignature := by
  unfold recordedSummary
  dsimp only
  split <;> rfl

theorem recordedSummary_id :
    (recordedSummary env patch previous).id =
      (previous.map RelationSummary.id).getD env.summaryId := by
  unfold recordedSummary
  dsimp only
  split <;> rfl

theorem recordedSummary_createdAt :
    (recordedSummary env patch previous).createdAt =
      (previous.map RelationSummary.createdAt).getD env.now := by
  unfold recordedSummary
  dsimp only
  split <;> rfl

theorem recordedSummary_reviewed :
    (recordedSummary env patch previous).reviewed = nextReviewed patch previous := by
  unfold recordedSummary
  dsimp only
  split <;> rfl

theorem noHistoryChange_iff {next : RelationSummary} :
    noHistoryChange previous next = true ↔ ∃ summary, previous = some summary ∧
      summary.text = next.text ∧ summary.reviewed = next.reviewed ∧
        sameStringList summary.warnings next.warnings = true := by
  simp only [noHistoryChange, Option.any_eq_true, Bool.and_eq_true, decide_eq_true_eq,
    and_assoc]

theorem faithful_of_first {summary : RelationSummary} {entry : HistoryEntry}
    (hentries : summary.entries = record relationSummaryHistoryLimit [] entry)
    (hfrom : entry.fromText = none ∧ entry.fromReviewed = none)
    (hto : entry.toText = some summary.text ∧ entry.toReviewed = some summary.reviewed) :
    Faithful summary := by
  have hsingle : summary.entries = [entry] := hentries
  refine ⟨?_, ?_, ?_, ?_, ?_⟩
  · rw [hsingle]
    exact List.cons_ne_nil _ _
  · rw [hentries]
    exact length_record_le
  · rw [hsingle]
    exact List.isChain_singleton entry
  · intro _ first hfirst
    rw [hsingle, List.head?_cons, Option.mem_some_iff] at hfirst
    rwa [← hfirst]
  · intro last hlast
    rw [hsingle, List.getLast?_singleton, Option.mem_some_iff] at hlast
    rwa [← hlast]

theorem faithful_of_record {previous summary : RelationSummary} {entry : HistoryEntry}
    (hprevious : Faithful previous)
    (hentries : summary.entries = record relationSummaryHistoryLimit previous.entries entry)
    (hfrom : entry.fromText = some previous.text ∧ entry.fromReviewed = some previous.reviewed)
    (hto : entry.toText = some summary.text ∧ entry.toReviewed = some summary.reviewed) :
    Faithful summary := by
  have hlimit : 0 < relationSummaryHistoryLimit := by decide
  refine ⟨?_, ?_, ?_, ?_, ?_⟩
  · rw [hentries]
    exact record_ne_nil hlimit
  · rw [hentries]
    exact length_record_le
  · rw [hentries]
    apply isChain_record hprevious.linked
    intro last hlast
    obtain ⟨htext, hreviewed⟩ := hprevious.last last hlast
    exact ⟨hfrom.1.trans htext.symm, hfrom.2.trans hreviewed.symm⟩
  · intro hlength first hfirst
    rw [hentries] at hlength hfirst
    have hwhole := record_of_not_full hlength
    rw [hwhole] at hlength hfirst
    rw [List.head?_append_of_ne_nil _ hprevious.nonempty] at hfirst
    rw [List.length_append] at hlength
    exact hprevious.first (Nat.lt_of_le_of_lt (Nat.le_add_right _ _) hlength) first hfirst
  · intro last hlast
    rw [hentries, getLast?_record hlimit, Option.mem_some_iff] at hlast
    rwa [← hlast]

/-- Recording a change keeps the history faithful. -/
theorem faithful_recordedSummary (hprevious : ∀ summary ∈ previous, Faithful summary) :
    Faithful (recordedSummary env patch previous) := by
  unfold recordedSummary
  dsimp only
  split
  next hsame =>
    obtain ⟨summary, rfl, htext, hreviewed, -⟩ := noHistoryChange_iff.mp hsame
    have hfaithful := hprevious summary rfl
    refine ⟨hfaithful.nonempty, hfaithful.length_le, hfaithful.linked, hfaithful.first, ?_⟩
    intro entry hentry
    rw [← htext, ← hreviewed]
    exact hfaithful.last entry hentry
  next =>
    cases previous with
    | none => exact faithful_of_first rfl ⟨rfl, rfl⟩ ⟨rfl, rfl⟩
    | some summary => exact faithful_of_record (hprevious summary rfl) rfl ⟨rfl, rfl⟩ ⟨rfl, rfl⟩

end Update

/-! ## Runs -/

section Run

variable {Rest : Type} (env : Env) (document : Document Rest) (patch : Patch)

/-- An update writes the recorded summary, unless nothing changes. -/
theorem upsert_cases :
    (∃ previous,
      findBy RelationSummary.sourceSignature patch.sourceSignature document.summaries =
        some previous ∧ previous.reviewed = nextReviewed patch (some previous) ∧
          upsertRelationSummaryWithHistory env document patch = document) ∨
      (upsertRelationSummaryWithHistory env document patch).summaries =
        upsertBy RelationSummary.sourceSignature (recordedSummary env patch
          (findBy RelationSummary.sourceSignature patch.sourceSignature document.summaries))
            document.summaries := by
  unfold upsertRelationSummaryWithHistory
  dsimp only
  split
  next hsame =>
    obtain ⟨previous, hprevious, -, hreviewed, -⟩ :=
      noHistoryChange_iff.mp (Bool.and_eq_true_iff.mp hsame).2
    rw [hprevious] at hreviewed
    exact Or.inl ⟨previous, hprevious, hreviewed, rfl⟩
  next => exact Or.inr rfl

/-- What is found under a signature after an update. -/
theorem findBy_upsert (signature : String) :
    ∃ written : RelationSummary,
      findBy RelationSummary.sourceSignature signature
        (upsertRelationSummaryWithHistory env document patch).summaries =
          (if patch.sourceSignature = signature then some written
            else findBy RelationSummary.sourceSignature signature document.summaries) ∧
      (patch.changeKind = .ai → written.reviewed = false) ∧
      ∀ previous, findBy RelationSummary.sourceSignature patch.sourceSignature
          document.summaries = some previous →
        written.id = previous.id ∧ written.createdAt = previous.createdAt := by
  have hunreviewed : ∀ previous, patch.changeKind = .ai → nextReviewed patch previous = false := by
    intro previous hai
    rw [nextReviewed, if_pos hai]
  rcases upsert_cases env document patch with ⟨previous, hfind, hreviewed, hresult⟩ | hresult
  · refine ⟨previous, ?_, fun hai => by rw [hreviewed, hunreviewed _ hai], ?_⟩
    · rw [hresult]
      split
      next hsignature => rw [← hsignature, hfind]
      next => rfl
    · intro other hother
      rw [hfind, Option.some.injEq] at hother
      rw [hother]
      exact ⟨rfl, rfl⟩
  · refine ⟨recordedSummary env patch
      (findBy RelationSummary.sourceSignature patch.sourceSignature document.summaries),
      ?_, fun hai => ?_, ?_⟩
    · rw [hresult, findBy_upsertBy, recordedSummary_sourceSignature]
    · rw [recordedSummary_reviewed, hunreviewed _ hai]
    · intro previous hprevious
      rw [recordedSummary_id, recordedSummary_createdAt, hprevious]
      exact ⟨rfl, rfl⟩

/-- The invariant of a run. -/
structure Consistent (document : Document Rest) : Prop where
  nodup : (document.summaries.map RelationSummary.sourceSignature).Nodup
  faithful : ∀ summary ∈ document.summaries, Faithful summary

variable {document}

theorem Consistent.upsert (hconsistent : Consistent document) :
    Consistent (upsertRelationSummaryWithHistory env document patch) := by
  rcases upsert_cases env document patch with ⟨previous, -, -, hresult⟩ | hresult
  · rwa [hresult]
  · refine ⟨by rw [hresult]; exact nodup_upsertBy _ _ hconsistent.nodup, ?_⟩
    intro summary hsummary
    have hnodup := nodup_upsertBy RelationSummary.sourceSignature
      (recordedSummary env patch (findBy RelationSummary.sourceSignature patch.sourceSignature
        document.summaries)) hconsistent.nodup
    rw [hresult] at hsummary
    have hfind := findBy_of_mem RelationSummary.sourceSignature hnodup hsummary
    rw [findBy_upsertBy] at hfind
    split at hfind
    next =>
      rw [← Option.some.inj hfind]
      apply faithful_recordedSummary
      intro previous hprevious
      exact hconsistent.faithful previous
        (findBy_eq_some RelationSummary.sourceSignature hprevious).1
    next => exact hconsistent.faithful summary (findBy_eq_some _ hfind).1

theorem mem_signatures_upsert (signature : String) :
    signature ∈ (upsertRelationSummaryWithHistory env document patch).summaries.map
        RelationSummary.sourceSignature ↔
      signature = patch.sourceSignature ∨
        signature ∈ document.summaries.map RelationSummary.sourceSignature := by
  rcases upsert_cases env document patch with ⟨previous, hfind, -, hresult⟩ | hresult
  · rw [hresult]
    constructor
    · exact Or.inr
    · rintro (rfl | hmem)
      · obtain ⟨hmem, hsignature⟩ := findBy_eq_some _ hfind
        exact List.mem_map.mpr ⟨previous, hmem, hsignature⟩
      · exact hmem
  · rw [hresult, mem_keys_upsertBy, recordedSummary_sourceSignature]

theorem Consistent.upsertAll (hconsistent : Consistent document) (calls : List (Env × Patch)) :
    Consistent (upsertAll document calls) := by
  induction calls generalizing document with
  | nil => exact hconsistent
  | cons call calls ih => exact ih (hconsistent.upsert call.1 call.2)

theorem mem_signatures_upsertAll (signature : String) (calls : List (Env × Patch)) :
    signature ∈ (RelationHistory.upsertAll document calls).summaries.map
        RelationSummary.sourceSignature ↔
      (∃ call ∈ calls, call.2.sourceSignature = signature) ∨
        signature ∈ document.summaries.map RelationSummary.sourceSignature := by
  induction calls generalizing document with
  | nil => simp [RelationHistory.upsertAll]
  | cons call calls ih =>
      rw [RelationHistory.upsertAll, List.foldl_cons, ← RelationHistory.upsertAll, ih,
        mem_signatures_upsert, List.exists_mem_cons_iff, @eq_comm _ signature, or_left_comm,
        or_assoc]

theorem identity_upsertAll (signature : String) (calls : List (Env × Patch)) :
    ∀ {document : Document Rest} {summary : RelationSummary},
      findBy RelationSummary.sourceSignature signature document.summaries = some summary →
        ∃ later, findBy RelationSummary.sourceSignature signature
            (RelationHistory.upsertAll document calls).summaries = some later ∧
          later.id = summary.id ∧ later.createdAt = summary.createdAt := by
  induction calls with
  | nil => exact fun hfind => ⟨_, hfind, rfl, rfl⟩
  | cons call calls ih =>
      intro document summary hfind
      obtain ⟨written, hwritten, -, hidentity⟩ := findBy_upsert call.1 document call.2 signature
      split at hwritten
      next hsignature =>
        rw [hsignature] at hidentity
        obtain ⟨hid, hcreatedAt⟩ := hidentity summary hfind
        obtain ⟨later, hlater, hlaterId, hlaterCreatedAt⟩ := ih hwritten
        exact ⟨later, hlater, hlaterId.trans hid, hlaterCreatedAt.trans hcreatedAt⟩
      next =>
        rw [hfind] at hwritten
        exact ih hwritten

theorem upsertAll_append (document : Document Rest) (first second : List (Env × Patch)) :
    RelationHistory.upsertAll document (first ++ second) =
      RelationHistory.upsertAll (RelationHistory.upsertAll document first) second :=
  List.foldl_append

/-- Every run from a document without relation summaries keeps faithful
histories. -/
theorem faithfulRun (hempty : document.summaries = []) (calls : List (Env × Patch)) :
    FaithfulRun document calls := by
  have hstart : Consistent document := by
    refine ⟨?_, ?_⟩
    · rw [hempty]
      exact List.nodup_nil
    · rw [hempty]
      exact fun _ hmem => absurd hmem List.not_mem_nil
  refine ⟨(hstart.upsertAll calls).nodup, ?_, (hstart.upsertAll calls).faithful, ?_, ?_⟩
  · intro signature
    rw [mem_signatures_upsertAll, hempty]
    simp
  · rintro before call after - hai summary hsummary hsignature
    obtain ⟨written, hwritten, hreviewed, -⟩ := findBy_upsert call.1
      (RelationHistory.upsertAll document before) call.2 summary.sourceSignature
    have hnodup := (hstart.upsertAll (before ++ [call])).nodup
    rw [upsertAll_append] at hsummary hnodup
    have hfind := findBy_of_mem RelationSummary.sourceSignature hnodup hsummary
    rw [if_pos hsignature.symm] at hwritten
    obtain rfl := Option.some.inj (hwritten.symm.trans hfind)
    exact hreviewed hai
  · rintro before after rfl summary hsummary
    have hfind := findBy_of_mem RelationSummary.sourceSignature (hstart.upsertAll before).nodup
      hsummary
    obtain ⟨later, hlater, hid, hcreatedAt⟩ := identity_upsertAll _ after hfind
    rw [upsertAll_append]
    obtain ⟨hmem, hsignature⟩ := findBy_eq_some _ hlater
    exact ⟨later, hmem, hsignature, hid, hcreatedAt⟩

end Run

/-- A change by hand and a change by AI of one summary. -/
def twoChanges : List (Env × Patch) :=
  [(⟨"2026-01-01T00:00:00.000Z", "summary", "entry-1"⟩,
      ⟨"edge:e", "left", "right", "related", false, [102], none, ["a"], ["e"], .manual, none, none⟩),
    (⟨"2026-01-02T00:00:00.000Z", "unused", "entry-2"⟩,
      ⟨"edge:e", "left", "right", "related", false, [103], none, ["a"], ["e"], .ai, none, none⟩)]

theorem faithfulRun_twoChanges : FaithfulRun (⟨none, ()⟩ : Document Unit) twoChanges :=
  faithfulRun rfl twoChanges

example : (upsertAll (⟨none, ()⟩ : Document Unit) twoChanges).summaries.map
    (fun summary => (summary.reviewed, summary.entries.map HistoryEntry.fromText)) =
      [(false, [none, some [102]])] := by
  decide

end KjAtlas.RelationHistory
