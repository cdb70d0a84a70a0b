import Mathlib.Algebra.Group.Int.Defs
import KjAtlas.Diff.Items

/-! # Merge items group by group

The same items are built group by group, with a poll for cancellation and a
limit on their number after each group. Documents are values: they are the same
before and after the main thread had its turn. A run without truncation builds
the items of the plain difference, and a run that the limit ends builds the
first of them.
-/

namespace KjAtlas

open Js

/-! ## Limits -/

/-- The digits of a number as an integer, with its sign. -/
def Js.Decimal.significand (value : Decimal) : Int :=
  let digits := value.digits.foldl (fun sum digit => 10 * sum + (digit.val : Int)) 0
  if value.negative then -digits else digits

/-- `Math.floor` of a finite number. -/
def Js.Decimal.floor (value : Decimal) : Int :=
  let shift := value.point - value.digits.length
  if 0 ≤ shift then value.significand * 10 ^ shift.toNat
  else value.significand / 10 ^ (-shift).toNat

/-- `Math.max(1, Math.floor(value))`. There is no limit when the result is
`NaN` or infinite, since no number of items is greater. -/
def Js.JsNumber.limit : JsNumber → Option Nat
  | .finite value => some (max 1 value.floor).toNat
  | .nan => none
  | .infinity negative => if negative then some 1 else none

structure Guardrails where
  maxNodes : Option JsNumber
  maxMs : Option JsNumber

/-- `Math.max(1, Math.floor(guardrails.maxNodes ?? 5000))`. -/
def Guardrails.nodeLimit (guardrails : Guardrails) : Option Nat :=
  match guardrails.maxNodes with
  | none => some 5000
  | some maxNodes => maxNodes.limit

/-- `Math.max(1, Math.floor(guardrails.maxMs ?? 2000))`. -/
def Guardrails.timeLimit (guardrails : Guardrails) : Option Nat :=
  match guardrails.maxMs with
  | none => some 2000
  | some maxMs => maxMs.limit

/-! ## Building the items -/

structure ComputeProgress where
  message : String
  completed : Nat
  total : Nat

structure IncrementalOutcome where
  items : List MergeItem
  truncated : Bool
  notes : List String

/-- What happens around a run: the answers to the polls, and the clock at its
start and at its end. -/
structure ComputeTaskContext where
  isCancelled : Nat → Bool
  startedAt : Int
  finishedAt : Int

structure DiffGroup where
  label : String
  items : List MergeItem

def diffGroups (documentDiff : DocumentDiff) : List DiffGroup :=
  [⟨"cards", documentDiff.cards⟩, ⟨"islands", documentDiff.islands⟩,
    ⟨"edges", documentDiff.edges⟩, ⟨"evidenceLinks", documentDiff.evidence⟩]

def nodeLimitNote (count maxNodes : Nat) : String :=
  "Truncated due to node limit (" ++ toString count ++ "/" ++ toString maxNodes ++ ")."

def timeLimitNote (maxMs : Nat) : String :=
  "Truncated due to time limit (" ++ toString maxMs ++ "ms)."

def cancelledOutcome : IncrementalOutcome := ⟨[], true, ["Cancelled"]⟩

def nodeLimitOutcome (baseDoc : DocumentV1) (items : List MergeItem) (maxNodes : Nat) :
    IncrementalOutcome where
  items := finalizeMergeItems baseDoc (items.take maxNodes) []
  truncated := true
  notes := [nodeLimitNote items.length maxNodes]

/-- The loop over the groups, with the reports it makes. It ends with all items
or returns early with an outcome. -/
def collectGroups (baseDoc : DocumentV1) (isCancelled : Nat → Bool) (maxNodes : Option Nat)
    (total : Nat) : Nat → List DiffGroup → List MergeItem →
      List ComputeProgress × Except IncrementalOutcome (List MergeItem)
  | _, [], items => ([], .ok items)
  | index, group :: groups, items =>
      if isCancelled index then ([], .error cancelledOutcome)
      else
        let report : ComputeProgress := ⟨"Computing diff: " ++ group.label, index + 1, total⟩
        let items := items ++ group.items
        match maxNodes.filter fun maxNodes => decide (maxNodes < items.length) with
        | some maxNodes => ([report], .error (nodeLimitOutcome baseDoc items maxNodes))
        | none =>
            let rest := collectGroups baseDoc isCancelled maxNodes total (index + 1) groups items
            (report :: rest.1, rest.2)

def buildMergeItemsIncremental (lc : Collation) (baseDoc incomingDoc : DocumentV1)
    (ctx : ComputeTaskContext) (guardrails : Guardrails) :
    List ComputeProgress × IncrementalOutcome :=
  let groups := diffGroups (computeDocumentDiff lc baseDoc incomingDoc)
  let (progress, collected) := collectGroups baseDoc ctx.isCancelled guardrails.nodeLimit
    (groups.length + 1) 0 groups []
  match collected with
  | .error outcome => (progress, outcome)
  | .ok items =>
      let viewDiff := computeViewDiff lc baseDoc incomingDoc
      let elapsedMs := ctx.finishedAt - ctx.startedAt
      let notes := match guardrails.timeLimit.filter fun maxMs : Nat =>
          decide (maxMs < elapsedMs) with
        | some maxMs => [timeLimitNote maxMs]
        | none => []
      (progress, ⟨finalizeMergeItems baseDoc items viewDiff, decide (0 < notes.length), notes⟩)

def IncrementalOutcome.ByNodeLimit (outcome : IncrementalOutcome) : Prop :=
  ∃ count maxNodes, outcome.notes = [nodeLimitNote count maxNodes]

/-- Items about the content of a document, as opposed to its view. -/
def MergeItem.ofDocument (item : MergeItem) : Bool := decide (item.entityRef.kind ≠ .view)

/-! ## What the loop collects -/

theorem finalizeMergeItems_append (baseDoc : DocumentV1) (documentDiff viewDiff : List MergeItem) :
    finalizeMergeItems baseDoc documentDiff viewDiff =
      finalizeMergeItems baseDoc documentDiff [] ++ attachPrerequisites baseDoc viewDiff := by
  simp only [finalizeMergeItems, attachPrerequisites, List.append_nil, List.map_append]

theorem finalizeMergeItems_take (baseDoc : DocumentV1) (items : List MergeItem) (count : Nat) :
    finalizeMergeItems baseDoc (items.take count) [] =
      (finalizeMergeItems baseDoc items []).take count := by
  simp only [finalizeMergeItems, attachPrerequisites, List.append_nil, List.map_take]

variable {groups : List DiffGroup} {isCancelled : Nat → Bool} {maxNodes : Option Nat}

theorem items_of_collectGroups {baseDoc : DocumentV1} {total : Nat} :
    ∀ {index : Nat} {items collected : List MergeItem},
      (collectGroups baseDoc isCancelled maxNodes total index groups items).2 = .ok collected →
        collected = items ++ groups.flatMap DiffGroup.items := by
  induction groups with
  | nil =>
      intro index items collected hok
      rw [collectGroups, Except.ok.injEq] at hok
      rw [← hok, List.flatMap_nil, List.append_nil]
  | cons group groups ih =>
      intro index items collected hok
      rw [collectGroups] at hok
      split at hok
      next => cases hok
      next =>
        dsimp only at hok
        split at hok
        next => cases hok
        next => rw [ih hok, List.flatMap_cons, List.append_assoc]

/-- A loop that returns early was cancelled, or has collected more items than
the limit allows, which are the first of all items. -/
theorem outcome_of_collectGroups {baseDoc : DocumentV1} {total : Nat} :
    ∀ {index : Nat} {items : List MergeItem} {outcome : IncrementalOutcome},
      (collectGroups baseDoc isCancelled maxNodes total index groups items).2 = .error outcome →
        outcome = cancelledOutcome ∨
          ∃ limit collected, maxNodes = some limit ∧ limit < collected.length ∧
            collected <+: items ++ groups.flatMap DiffGroup.items ∧
              outcome = nodeLimitOutcome baseDoc collected limit := by
  induction groups with
  | nil => exact fun herror => nomatch herror
  | cons group groups ih =>
      intro index items outcome herror
      rw [collectGroups] at herror
      split at herror
      next => exact Or.inl (Except.error.inj herror).symm
      next =>
        dsimp only at herror
        rw [List.flatMap_cons, ← List.append_assoc]
        split at herror
        next limit hlimit =>
          obtain ⟨hmax, hexceeded⟩ := Option.filter_eq_some_iff.mp hlimit
          exact Or.inr ⟨limit, items ++ group.items, hmax, of_decide_eq_true hexceeded,
            List.prefix_append _ _, (Except.error.inj herror).symm⟩
        next => exact ih herror

theorem flatMap_diffGroups (documentDiff : DocumentDiff) :
    (diffGroups documentDiff).flatMap DiffGroup.items = flattenDocumentDiff documentDiff := by
  simp only [diffGroups, flattenDocumentDiff, List.flatMap_cons, List.flatMap_nil,
    List.append_nil, List.append_assoc]

/-! ## Agreement with the plain difference -/

section Agreement

variable (lc : Collation) (baseDoc incomingDoc : DocumentV1)

theorem ofDocument_of_mem_flatten {item : MergeItem}
    (hitem : item ∈ flattenDocumentDiff (computeDocumentDiff lc baseDoc incomingDoc)) :
    item.ofDocument = true := by
  obtain ⟨kind, hitem⟩ := (mem_flattenDocumentDiff lc).mp hitem
  rw [MergeItem.ofDocument, entityRef_of_mem_entityItems lc hitem]
  cases kind <;> rfl

theorem filter_ofDocument_buildMergeItems :
    (buildMergeItems lc baseDoc incomingDoc).filter MergeItem.ofDocument =
      finalizeMergeItems baseDoc
        (flattenDocumentDiff (computeDocumentDiff lc baseDoc incomingDoc)) [] := by
  rw [buildMergeItems, finalizeMergeItems_append, List.filter_append]
  have hdocument : (finalizeMergeItems baseDoc
      (flattenDocumentDiff (computeDocumentDiff lc baseDoc incomingDoc)) []).filter
        MergeItem.ofDocument = finalizeMergeItems baseDoc
          (flattenDocumentDiff (computeDocumentDiff lc baseDoc incomingDoc)) [] := by
    apply List.filter_eq_self.mpr
    intro item hitem
    rw [finalizeMergeItems, List.append_nil] at hitem
    obtain ⟨plain, hplain, rfl⟩ := List.mem_map.mp hitem
    have hdocument := ofDocument_of_mem_flatten lc baseDoc incomingDoc hplain
    exact hdocument
  have hview : (attachPrerequisites baseDoc (computeViewDiff lc baseDoc incomingDoc)).filter
      MergeItem.ofDocument = [] := by
    rw [computeViewDiff]
    split <;> rfl
  rw [hdocument, hview, List.append_nil]

theorem nodeLimit_ne_timeLimit (left right : String) :
    "Truncated due to node limit (" ++ left ≠ "Truncated due to time limit (" ++ right := by
  intro heq
  have hlist := congrArg String.toList heq
  simp [String.toList_append] at hlist

theorem nodeLimit_ne_cancelled (left : String) :
    "Truncated due to node limit (" ++ left ≠ "Cancelled" := by
  intro heq
  have hlist := congrArg String.toList heq
  simp [String.toList_append] at hlist

theorem nodeLimitNote_ne_timeLimitNote (count maxNodes maxMs : Nat) :
    nodeLimitNote count maxNodes ≠ timeLimitNote maxMs := by
  have hne := nodeLimit_ne_timeLimit (toString count ++ "/" ++ toString maxNodes ++ ").")
    (toString maxMs ++ "ms).")
  rwa [← String.append_assoc, ← String.append_assoc, ← String.append_assoc,
    ← String.append_assoc] at hne

theorem nodeLimitNote_ne_cancelled (count maxNodes : Nat) :
    nodeLimitNote count maxNodes ≠ "Cancelled" := by
  have hne := nodeLimit_ne_cancelled (toString count ++ "/" ++ toString maxNodes ++ ").")
  rwa [← String.append_assoc, ← String.append_assoc, ← String.append_assoc] at hne

/-- A run without truncation yields the plain result, and a run that the node
limit ends yields the first document items of it. -/
theorem incremental_agrees (ctx : ComputeTaskContext) (guardrails : Guardrails) :
    ((buildMergeItemsIncremental lc baseDoc incomingDoc ctx guardrails).2.truncated = false →
      (buildMergeItemsIncremental lc baseDoc incomingDoc ctx guardrails).2.items =
        buildMergeItems lc baseDoc incomingDoc) ∧
    ((buildMergeItemsIncremental lc baseDoc incomingDoc ctx guardrails).2.ByNodeLimit →
      ∃ maxNodes, guardrails.nodeLimit = some maxNodes ∧
        (buildMergeItemsIncremental lc baseDoc incomingDoc ctx guardrails).2.items =
          ((buildMergeItems lc baseDoc incomingDoc).filter MergeItem.ofDocument).take maxNodes) := by
  rw [filter_ofDocument_buildMergeItems, buildMergeItemsIncremental]
  dsimp only
  cases hcollected : (collectGroups baseDoc ctx.isCancelled guardrails.nodeLimit
      ((diffGroups (computeDocumentDiff lc baseDoc incomingDoc)).length + 1) 0
      (diffGroups (computeDocumentDiff lc baseDoc incomingDoc)) []).2 with
  | error outcome =>
    dsimp only
    rcases outcome_of_collectGroups hcollected with
      rfl | ⟨limit, collected, hlimit, hlength, hprefix, rfl⟩
    · refine ⟨fun hcomplete => Bool.noConfusion hcomplete, ?_⟩
      rintro ⟨count, maxNodes, hnotes⟩
      exact absurd (List.singleton_inj.mp hnotes).symm (nodeLimitNote_ne_cancelled count maxNodes)
    · refine ⟨fun hcomplete => Bool.noConfusion hcomplete, fun _ => ⟨limit, hlimit, ?_⟩⟩
      rw [List.nil_append, flatMap_diffGroups] at hprefix
      obtain ⟨rest, hrest⟩ := hprefix
      rw [← finalizeMergeItems_take, ← hrest, List.take_append_of_le_length hlength.le]
      rfl
  | ok items =>
    have hitems := items_of_collectGroups hcollected
    rw [List.nil_append, flatMap_diffGroups] at hitems
    refine ⟨fun _ => by rw [hitems]; rfl, ?_⟩
    rintro ⟨count, maxNodes, hnotes⟩
    dsimp only at hnotes
    split at hnotes
    next maxMs _ =>
      exact absurd (List.singleton_inj.mp hnotes).symm
        (nodeLimitNote_ne_timeLimitNote count maxNodes maxMs)
    next => cases hnotes

end Agreement

namespace TwoCards

def baseDoc : DocumentV1 := .smallest [] []

def incomingDoc : DocumentV1 := .smallest [.smallest "a" "text", .smallest "b" "text"] []

def context : ComputeTaskContext := ⟨fun _ => false, 0, 1⟩

def oneNode : Guardrails := ⟨some .one, none⟩

/-- A run to the end, and one that the node limit ends after the first of two cards. -/
theorem incremental_agrees_two_cards :
    (buildMergeItemsIncremental .codeUnit baseDoc incomingDoc context ⟨none, none⟩).2.items =
      buildMergeItems .codeUnit baseDoc incomingDoc ∧
    ∃ maxNodes, oneNode.nodeLimit = some maxNodes ∧
      (buildMergeItemsIncremental .codeUnit baseDoc incomingDoc context oneNode).2.items =
        ((buildMergeItems .codeUnit baseDoc incomingDoc).filter MergeItem.ofDocument).take maxNodes :=
  ⟨(incremental_agrees .codeUnit baseDoc incomingDoc context ⟨none, none⟩).1 (by decide +kernel),
    (incremental_agrees .codeUnit baseDoc incomingDoc context oneNode).2 ⟨2, 1, by decide +kernel⟩⟩

end TwoCards

end KjAtlas
