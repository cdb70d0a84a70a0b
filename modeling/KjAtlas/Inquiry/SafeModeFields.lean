import KjAtlas.Inquiry.SafeModePolicies

/-! # Projections follow their policies

The tables are only checked for their fields by the compiler. Here every projection
is compared with its table, and three fields are found that a table keeps and no
projection does.
-/

namespace KjAtlas.InquirySafeMode

open Js

/-! ## What the tables say -/

def FieldPolicy.Meets (before after : Option JsValue) : FieldPolicy → Prop
  | .preserve => after = before
  | .redact => after = before.map redactValue
  | .omit => after = none
  | .rebuild => True

def Follows (fields : List (String × FieldPolicy)) (source result : JsValue) : Prop :=
  ∀ entry ∈ fields, entry.2.Meets (source.props.get entry.1) (result.props.get entry.1)

/-- A list keeps its length and order, and its records are as they should be. -/
def Each (rel : JsValue → JsValue → Prop) (source result : JsValue) : Prop :=
  ∀ items, source = .array items →
    ∃ results, result = .array results ∧ List.Forall₂ rel items results

/-- The record in a field is as it should be. One that is left out counts as empty. -/
def Nested (source result : JsValue) (key : String) (rel : JsValue → JsValue → Prop) : Prop :=
  ∀ value, source.props.get key = some value →
    rel value ((result.props.get key).getD (.object []))

def Record (fields : List (String × FieldPolicy))
    (nested : List (String × (JsValue → JsValue → Prop))) (source result : JsValue) : Prop :=
  Follows fields source result ∧ ∀ entry ∈ nested, Nested source result entry.1 entry.2

def AddressFollows : JsValue → JsValue → Prop := Record cardAddressFields []

/-- The table of a lineage edge depends on its kind. -/
structure LineageFollows (source result : JsValue) : Prop where
  new : hasText "kind" "new" source = true →
    Record newLineageFields [("to", AddressFollows)] source result
  retired : hasText "kind" "retired" source = true →
    Record retiredLineageFields [("from", AddressFollows)] source result
  derived : hasText "kind" "derived" source = true →
    Record derivedLineageFields [("from", Each AddressFollows), ("to", AddressFollows)]
      source result
  merged : hasText "kind" "merged" source = true →
    Record mergedLineageFields [("from", Each AddressFollows), ("to", AddressFollows)]
      source result
  split : hasText "kind" "split" source = true →
    Record splitLineageFields [("from", AddressFollows), ("to", Each AddressFollows)]
      source result
  oneToOne : hasText "kind" "carried" source = true ∨ hasText "kind" "edited" source = true →
    Record oneToOneLineageFields [("from", AddressFollows), ("to", AddressFollows)] source result

def ArtifactRefFollows : JsValue → JsValue → Prop := Record artifactRefFields []

def OutcomeFollows : JsValue → JsValue → Prop :=
  Record fieldworkOutcomeFields [("responseCardRefs", Each AddressFollows)]

def RequestFollows : JsValue → JsValue → Prop :=
  Record fieldworkRequestFields [("outcome", OutcomeFollows)]

def HandoffFollows : JsValue → JsValue → Prop :=
  Record handoffFields [("carryoverRefs", Each ArtifactRefFollows),
    ("heldRefs", Each ArtifactRefFollows), ("fieldworkRequests", Each RequestFollows)]

def RoundFollows : JsValue → JsValue → Prop := Record roundFields [("handoff", HandoffFollows)]

def JourneyFollows : JsValue → JsValue → Prop :=
  Record journeyFields [("roundRecords", Each RoundFollows)]

def CardFollows : JsValue → JsValue → Prop :=
  Record cardFields [("meta", Record cardMetaFields []), ("ka", Record cardKaFields [])]

structure GeometryFollows (source result : JsValue) : Prop where
  rect : hasText "type" "rect" source = true → Record rectGeometryFields [] source result
  polygon : hasText "type" "polygon" source = true →
    Record polygonGeometryFields [("points", Each fun _ _ => True)] source result

structure ShapeFollows (source result : JsValue) : Prop where
  rect : hasText "kind" "rect" source = true →
    Record rectShapeFields [("generatedFrom", Record shapeGeneratedFromFields [])] source result
  polygon : hasText "kind" "polygon" source = true →
    Record polygonShapeFields [("points", Each fun _ _ => True),
      ("generatedFrom", Record shapeGeneratedFromFields [])] source result

def IslandFollows : JsValue → JsValue → Prop :=
  Record islandFields [("summaryHistory", Each (Record summaryHistoryFields [])),
    ("geometry", GeometryFollows), ("shape", ShapeFollows)]

def IssueFollows : JsValue → JsValue → Prop :=
  Record narrativeIssueFields [("references", Each (Record narrativeReferenceFields []))]

def CheckFollows : JsValue → JsValue → Prop :=
  Record narrativeCheckFields [("issues", Each IssueFollows)]

def NarrativeFollows : JsValue → JsValue → Prop :=
  Record narrativeFields [("checks", Each CheckFollows)]

def RelationSummaryFollows : JsValue → JsValue → Prop :=
  Record relationSummaryFields [("history", Each (Record relationHistoryFields []))]

def PatchLogFollows : JsValue → JsValue → Prop :=
  Record patchLogFields [("stats", Record patchStatsFields []),
    ("conflictMeta", Record patchConflictFields [])]

def documentRecords : List (String × (JsValue → JsValue → Prop)) :=
  [("transform", Record transformFields []), ("cards", Each CardFollows),
    ("edges", Each (Record edgeFields [])), ("islands", Each IslandFollows),
    ("relationSummaries", Each RelationSummaryFollows),
    ("evidenceLinks", Each (Record evidenceFields [])), ("patchApplyLog", Each PatchLogFollows),
    ("critiqueInputs", Each (Record critiqueInputFields [])),
    ("reviewAttribution", Record reviewAttributionFields []),
    ("deterministicTieBreak", Record tieBreakFields []), ("shelf", Each (Record shelfFields []))]

structure DocumentFollows (source result : JsValue) : Prop where
  record : Record documentFields documentRecords source result
  narratives : Nested source result "narratives" (Each NarrativeFollows)
  decisions : Nested source result "mergeSuggestionDecisions" (Each (Record mergeDecisionFields []))
  voids : Nested source result "voids" (Each (Record voidFields []))

def SnapshotFollows : JsValue → JsValue → Prop :=
  Record snapshotFields [("document", DocumentFollows)]

/-- The tables hold throughout a bundle. -/
structure BundleFollows (source result : JsValue) : Prop where
  record : Record bundleFields [("journey", JourneyFollows),
    ("cardLineage", Each LineageFollows)] source result
  snapshots : Nested source result "snapshots" (Each SnapshotFollows)

/-! ## Fields of a projection -/

variable {f : JsValue → JsValue} {key : String}
  {nested : List (String × (JsValue → JsValue → Prop))}

section Fields

variable {actions : List (String × Action)} {entry : String × Action}

@[simp] theorem mem_keep {keys : List String} :
    entry ∈ keep keys ↔ entry.1 ∈ keys ∧ entry.2 = .keep := by
  obtain ⟨key, action⟩ := entry
  simp [keep, eq_comm]

@[simp] theorem mem_redacted {keys : List String} :
    entry ∈ redacted keys ↔ entry.1 ∈ keys ∧ entry.2 = .redacted := by
  obtain ⟨key, action⟩ := entry
  simp [redacted, eq_comm]

@[simp] theorem mem_one :
    entry ∈ one key f ↔ entry = (key, .build fun value => some (f value)) := List.mem_singleton

@[simp] theorem mem_each :
    entry ∈ each key f ↔ entry = (key, .build fun value => some (mapItems f value)) :=
  List.mem_singleton

@[simp] theorem mem_constant {text : String} :
    entry ∈ constant key text ↔ entry = (key, .build fun _ => some (.string text)) :=
  List.mem_singleton

theorem get_record_of_not_mem (hkey : key ∉ actions.map Prod.fst) (source : JsValue) :
    (record actions source).props.get key = none := by
  apply Props.get_eq_none_of_hasOwn
  rw [Props.hasOwn_eq_decide, decide_eq_false_iff_not]
  intro hmem
  obtain ⟨prop, hprop, rfl⟩ := List.mem_map.mp hmem
  obtain ⟨entry, hentry, hvalue⟩ := List.mem_filterMap.mp hprop
  obtain ⟨value, -, rfl⟩ := Option.map_eq_some_iff.mp hvalue
  exact hkey (List.mem_map_of_mem hentry)

theorem get_record (hkeys : (actions.map Prod.fst).Nodup) {action : Action}
    (hmem : (key, action) ∈ actions) (source : JsValue) :
    (record actions source).props.get key = (source.props.get key).bind action.apply := by
  induction actions with
  | nil => exact absurd hmem List.not_mem_nil
  | cons entry actions ih =>
      obtain ⟨hnew, hkeys⟩ := List.nodup_cons.mp hkeys
      have hcons : (record (entry :: actions) source).props.get key =
          (if entry.1 = key then (source.props.get entry.1).bind entry.2.apply else none).or
            ((record actions source).props.get key) := by
        unfold record
        rw [List.filterMap_cons]
        cases hvalue : (source.props.get entry.1).bind entry.2.apply with
        | none => simp
        | some value => exact Props.get_cons _ _ _
      rw [hcons]
      rcases List.mem_cons.mp hmem with rfl | hmem
      · rw [if_pos rfl, get_record_of_not_mem hnew, Option.or_none]
      · have hne : entry.1 ≠ key := fun heq => hnew (heq ▸ List.mem_map_of_mem hmem)
        rw [if_neg hne, Option.none_or, ih hkeys hmem]

end Fields

/-! ## Projections beside tables -/

/-- What a projection does with a field is what the table says. -/
def agrees (actions : List (String × Action)) (entry : String × FieldPolicy) : Bool :=
  match entry.2, (actions.find? fun other => decide (other.1 = entry.1)).map Prod.snd with
  | .preserve, some .keep => true
  | .redact, some .redacted => true
  | .omit, none => true
  | .rebuild, _ => true
  | _, _ => false

/-- A projection does with every field what the table says, but for a special one that is to be
kept. -/
def agreeing (special : Option String) (fields : List (String × FieldPolicy))
    (actions : List (String × Action)) : Bool :=
  decide (actions.map Prod.fst).Nodup &&
    fields.all (fun entry =>
      if some entry.1 = special then decide (entry.2 = .preserve) else agrees actions entry) &&
    special.all fun key => fields.any fun entry => decide (entry.1 = key)

section Projections

variable {special : Option String} {fields : List (String × FieldPolicy)}
  {actions : List (String × Action)}

theorem nodup_of_agreeing (hagreeing : agreeing special fields actions = true) :
    (actions.map Prod.fst).Nodup := by
  rw [agreeing, Bool.and_eq_true, Bool.and_eq_true, decide_eq_true_eq] at hagreeing
  exact hagreeing.1.1

theorem meets_of_agrees (hkeys : (actions.map Prod.fst).Nodup) {entry : String × FieldPolicy}
    (hagrees : agrees actions entry = true) (source : JsValue) :
    entry.2.Meets (source.props.get entry.1) ((record actions source).props.get entry.1) := by
  obtain ⟨key, policy⟩ := entry
  unfold agrees at hagrees
  dsimp only at hagrees
  cases hfind : actions.find? fun other => decide (other.1 = key) with
  | none =>
      rw [hfind] at hagrees
      cases policy with
      | preserve => exact absurd hagrees Bool.false_ne_true
      | redact => exact absurd hagrees Bool.false_ne_true
      | «omit» =>
          apply get_record_of_not_mem
          intro hmem
          obtain ⟨other, hother, hkey⟩ := List.mem_map.mp hmem
          exact List.find?_eq_none.mp hfind other hother (decide_eq_true hkey)
      | rebuild => trivial
  | some other =>
      obtain ⟨key', action⟩ := other
      have hkey := List.find?_some hfind
      obtain rfl : key' = key := of_decide_eq_true hkey
      have hget := get_record hkeys (List.mem_of_find?_eq_some hfind) source
      rw [hfind] at hagrees
      cases policy with
      | preserve =>
          cases action with
          | keep =>
              rw [FieldPolicy.Meets, hget]
              cases source.props.get key' <;> rfl
          | redacted => exact absurd hagrees Bool.false_ne_true
          | build f => exact absurd hagrees Bool.false_ne_true
      | redact =>
          cases action with
          | redacted =>
              rw [FieldPolicy.Meets, hget]
              cases source.props.get key' <;> rfl
          | keep => exact absurd hagrees Bool.false_ne_true
          | build f => exact absurd hagrees Bool.false_ne_true
      | «omit» => cases action <;> exact absurd hagrees Bool.false_ne_true
      | rebuild => trivial

theorem follows_record_iff (hagreeing : agreeing special fields actions = true)
    (source : JsValue) : Follows fields source (record actions source) ↔
      ∀ key ∈ special, (record actions source).props.get key = source.props.get key := by
  have hkeys := nodup_of_agreeing hagreeing
  rw [agreeing, Bool.and_eq_true, Bool.and_eq_true, List.all_eq_true] at hagreeing
  obtain ⟨⟨-, hfields⟩, hspecial⟩ := hagreeing
  have hpreserve : ∀ {entry : String × FieldPolicy}, entry ∈ fields → some entry.1 = special →
      entry.2 = .preserve := by
    intro entry hentry heq
    have hentry := hfields entry hentry
    rw [if_pos heq] at hentry
    exact of_decide_eq_true hentry
  constructor
  · rintro hfollows key rfl
    obtain ⟨entry, hentry, hkey⟩ := List.any_eq_true.mp hspecial
    obtain rfl := of_decide_eq_true hkey
    have hmeets := hfollows entry hentry
    rw [hpreserve hentry rfl] at hmeets
    exact hmeets
  · intro hspecials entry hentry
    by_cases heq : some entry.1 = special
    · rw [hpreserve hentry heq]
      exact hspecials entry.1 heq.symm
    · have hagrees := hfields entry hentry
      rw [if_neg heq] at hagrees
      exact meets_of_agrees hkeys hagrees source

/-- The value in a field is built anew. -/
theorem nested_record_iff (hkeys : (actions.map Prod.fst).Nodup) {key : String}
    {f : JsValue → Option JsValue} (hmem : (key, Action.build f) ∈ actions)
    {rel : JsValue → JsValue → Prop} {source : JsValue} :
    Nested source (record actions source) key rel ↔
      ∀ value, source.props.get key = some value → rel value ((f value).getD (.object [])) := by
  refine forall_congr' fun value => imp_congr_right fun hvalue => ?_
  rw [get_record hkeys hmem, hvalue]
  rfl

/-- The records of a list in a field. -/
def items (source : JsValue) (key : String) : List JsValue :=
  match source.props.get key with
  | some (.array items) => items
  | _ => []

variable {rel : JsValue → JsValue → Prop}

theorem each_mapItems_iff {value : JsValue} : Each rel value (mapItems f value) ↔
      ∀ list, value = .array list → ∀ item ∈ list, rel item (f item) := by
  refine forall_congr' fun list => imp_congr_right fun hlist => ?_
  subst hlist
  simp only [mapItems, JsValue.array.injEq, exists_eq_left', List.forall₂_map_right_iff,
    List.forall₂_same]

theorem nested_each_iff (hkeys : (actions.map Prod.fst).Nodup) {key : String}
    {f : JsValue → JsValue}
    (hmem : (key, Action.build fun value => some (mapItems f value)) ∈ actions)
    {rel : JsValue → JsValue → Prop} {source : JsValue} :
    Nested source (record actions source) key (Each rel) ↔
      ∀ item ∈ items source key, rel item (f item) := by
  rw [nested_record_iff hkeys hmem]
  simp only [Option.getD_some, each_mapItems_iff]
  constructor
  · intro hall item hitem
    rw [items] at hitem
    split at hitem
    next list hget => exact hall _ hget list rfl item hitem
    next => exact absurd hitem List.not_mem_nil
  · rintro hall value hget list rfl item hitem
    apply hall item
    rw [items, hget]
    exact hitem

/-- A field whose value is built as it should be, whatever it is. -/
def Builds (actions : List (String × Action))
    (entry : String × (JsValue → JsValue → Prop)) : Prop :=
  ∃ f, (entry.1, Action.build f) ∈ actions ∧
    ∀ value, entry.2 value ((f value).getD (.object []))

theorem builds_nil : ∀ entry ∈ ([] : List (String × (JsValue → JsValue → Prop))),
    Builds actions entry := fun _ hentry => absurd hentry List.not_mem_nil

theorem builds_one {key : String} {f : JsValue → JsValue}
    (hmem : (key, Action.build fun value => some (f value)) ∈ actions)
    (hrel : ∀ value, rel value (f value)) (htail : ∀ entry ∈ nested, Builds actions entry) :
    ∀ entry ∈ (key, rel) :: nested, Builds actions entry :=
  List.forall_mem_cons.mpr ⟨⟨_, hmem, hrel⟩, htail⟩

theorem builds_each {key : String} {f : JsValue → JsValue} {rel : JsValue → JsValue → Prop}
    (hmem : (key, Action.build fun value => some (mapItems f value)) ∈ actions)
    (hrel : ∀ value, rel value (f value)) (htail : ∀ entry ∈ nested, Builds actions entry) :
    ∀ entry ∈ (key, Each rel) :: nested, Builds actions entry :=
  builds_one hmem (fun _ => each_mapItems_iff.mpr fun _ _ item _ => hrel item) htail

theorem record_follows (hagreeing : agreeing none fields actions = true)
    (hnested : ∀ entry ∈ nested, Builds actions entry) (source : JsValue) :
    Record fields nested source (record actions source) := by
  constructor
  · rw [follows_record_iff hagreeing]
    exact fun key hkey => absurd hkey.symm (Option.some_ne_none key)
  · intro entry hentry
    obtain ⟨f, hmem, hrel⟩ := hnested entry hentry
    exact (nested_record_iff (nodup_of_agreeing hagreeing) hmem).mpr fun value _ => hrel value

/-- The tables of the two lists decide whether a projection follows its table. -/
theorem record_iff {nested : List (String × (JsValue → JsValue → Prop))}
    (hagreeing : agreeing special fields actions = true) (source : JsValue) :
    Record fields nested source (record actions source) ↔
      (∀ key ∈ special, (record actions source).props.get key = source.props.get key) ∧
        ∀ entry ∈ nested, Nested source (record actions source) entry.1 entry.2 := by
  rw [Record, follows_record_iff hagreeing]

end Projections

/-! ## Projections that follow their tables -/

variable {actions : List (String × Action)}

theorem cloneAddress_follows (address : JsValue) : AddressFollows address (cloneAddress address) :=
  record_follows (by decide) builds_nil address

/-- A record has one kind only. -/
theorem hasText_eq {text : String} {value : JsValue} (htext : hasText key text value = true)
    (other : String) : hasText key other value = true ↔ text = other := by
  rw [hasText, decide_eq_true_eq] at htext
  rw [hasText, decide_eq_true_eq, htext, Option.some.injEq, JsValue.string.injEq]

theorem sanitizeLineage_follows (edge : JsValue) : LineageFollows edge (sanitizeLineage edge) := by
  have hone := cloneAddress_follows
  constructor
  · intro hkind
    rw [sanitizeLineage, if_pos hkind]
    exact record_follows (by decide) (builds_one (by simp) hone builds_nil) edge
  · intro hkind
    simp only [sanitizeLineage, hasText_eq hkind, String.reduceEq, if_true, if_false]
    exact record_follows (by decide) (builds_one (by simp) hone builds_nil) edge
  · intro hkind
    simp only [sanitizeLineage, hasText_eq hkind, String.reduceEq, if_true, if_false]
    exact record_follows (by decide) (builds_each (by simp) hone
      (builds_one (by simp) hone builds_nil)) edge
  · intro hkind
    simp only [sanitizeLineage, hasText_eq hkind, String.reduceEq, if_true, if_false]
    exact record_follows (by decide) (builds_each (by simp) hone
      (builds_one (by simp) hone builds_nil)) edge
  · intro hkind
    simp only [sanitizeLineage, hasText_eq hkind, String.reduceEq, if_true, if_false]
    exact record_follows (by decide) (builds_one (by simp) hone
      (builds_each (by simp) hone builds_nil)) edge
  · intro hkind
    have hother : sanitizeLineage edge = record (keep ["lineageId", "kind"] ++
        one "from" cloneAddress ++ one "to" cloneAddress) edge := by
      rcases hkind with hkind | hkind
      · simp only [sanitizeLineage, hasText_eq hkind, String.reduceEq, if_false]
      · simp only [sanitizeLineage, hasText_eq hkind, String.reduceEq, if_false]
    rw [hother]
    exact record_follows (by decide) (builds_one (by simp) hone
      (builds_one (by simp) hone builds_nil)) edge

theorem sanitizeJourney_follows (journey : JsValue) :
    JourneyFollows journey (sanitizeJourney journey) := by
  have haddress := cloneAddress_follows
  have href : ∀ value, ArtifactRefFollows value (cloneArtifactRef value) :=
    record_follows (by decide) builds_nil
  have houtcome : ∀ value, OutcomeFollows value (sanitizeFieldworkOutcome value) :=
    record_follows (by decide) (builds_each (by simp) haddress builds_nil)
  have hrequest : ∀ value, RequestFollows value (sanitizeFieldworkRequest value) :=
    record_follows (by decide) (builds_one (by simp) houtcome builds_nil)
  have hhandoff : ∀ value, HandoffFollows value (sanitizeHandoff value) :=
    record_follows (by decide) (builds_each (by simp) href
      (builds_each (by simp) href
        (builds_each (by simp) hrequest builds_nil)))
  have hround : ∀ value, RoundFollows value (sanitizeRound value) :=
    record_follows (by decide) (builds_one (by simp) hhandoff builds_nil)
  exact record_follows (by decide) (builds_each (by simp) hround builds_nil) journey

theorem sanitizeCard_follows (card : JsValue) : CardFollows card (sanitizeCard false card) := by
  have hka : ∀ value, Record cardKaFields [] value (sanitizeCardKa value) :=
    record_follows (by decide) builds_nil
  refine record_follows (by decide) (List.forall_mem_cons.mpr ⟨?_,
    builds_one (by simp) hka builds_nil⟩) card
  refine ⟨sanitizeCardMeta false, by simp, fun value => ?_⟩
  have hmeta : Record cardMetaFields [] value
      (record (keep ["seq"] ++ keep []) value) := record_follows (by decide) builds_nil value
  have hkept : (sanitizeCardMeta false value).getD (.object []) =
      record (keep ["seq"] ++ keep []) value := by
    by_cases hempty : (record (keep ["seq"] ++ keep []) value).props.isEmpty = true
    · have hnone : sanitizeCardMeta false value = none := if_pos hempty
      rw [hnone, Option.getD_none, ← List.isEmpty_iff.mp hempty]
      rfl
    · have hsome : sanitizeCardMeta false value =
          some (record (keep ["seq"] ++ keep []) value) := if_neg hempty
      rw [hsome, Option.getD_some]
  rw [hkept]
  exact hmeta

/-- A member of a union, with the text that tells it apart written out. -/
theorem record_constant {fields : List (String × FieldPolicy)} {text : String} {source : JsValue}
    (hagreeing : agreeing (some key) fields actions = true)
    (hmem : (key, Action.build fun _ => some (.string text)) ∈ actions)
    (htext : hasText key text source = true) (hnested : ∀ entry ∈ nested, Builds actions entry) :
    Record fields nested source (record actions source) := by
  have hkeys := nodup_of_agreeing hagreeing
  refine (record_iff hagreeing source).mpr ⟨fun other hother => ?_, fun entry hentry => ?_⟩
  · obtain rfl := Option.some.inj hother
    rw [get_record hkeys hmem, of_decide_eq_true htext]
    rfl
  · obtain ⟨f, hmem, hrel⟩ := hnested entry hentry
    exact (nested_record_iff hkeys hmem).mpr fun value _ => hrel value

theorem sanitizeIsland_follows (island : JsValue) : IslandFollows island (sanitizeIsland island) := by
  have hhistory : ∀ value, Record summaryHistoryFields [] value (sanitizeSummaryHistory value) :=
    record_follows (by decide) builds_nil
  have hgenerated : ∀ value,
      Record shapeGeneratedFromFields [] value (sanitizeShapeGeneratedFrom value) :=
    record_follows (by decide) builds_nil
  have hgeometry : ∀ value, GeometryFollows value (cloneGeometry value) := by
    intro value
    constructor
    · intro htype
      simp only [cloneGeometry, hasText_eq htype, String.reduceEq, if_false]
      exact record_constant (by decide) (by simp) htype builds_nil
    · intro htype
      simp only [cloneGeometry, htype]
      exact record_constant (by decide) (by simp) htype
        (builds_each (f := clonePoint) (by simp) (fun _ => trivial) builds_nil)
  have hshape : ∀ value, ShapeFollows value (sanitizeShape value) := by
    intro value
    constructor
    · intro hkind
      simp only [sanitizeShape, hasText_eq hkind, String.reduceEq, if_false]
      exact record_constant (by decide) (by simp) hkind
        (builds_one (by simp) hgenerated builds_nil)
    · intro hkind
      simp only [sanitizeShape, hkind]
      exact record_constant (by decide) (by simp) hkind
        (builds_each (f := clonePoint) (by simp) (fun _ => trivial)
          (builds_one (by simp) hgenerated builds_nil))
  exact record_follows (by decide) (builds_each (by simp) hhistory
    (builds_one (by simp) hgeometry
      (builds_one (by simp) hshape builds_nil))) island

/-! ## Projections that leave a field out -/

/-- A record is as its table says if it has no field that the table keeps and the projection leaves
out. -/
theorem record_without_iff {fields : List (String × FieldPolicy)} {source : JsValue}
    (hagreeing : agreeing (some key) fields actions = true) (hkey : key ∉ actions.map Prod.fst) :
    Record fields nested source (record actions source) ↔ source.props.get key = none ∧
      ∀ entry ∈ nested, Nested source (record actions source) entry.1 entry.2 := by
  rw [record_iff hagreeing]
  apply and_congr_left
  intro _
  constructor
  · intro hall
    rw [← hall key rfl, get_record_of_not_mem hkey]
  · intro hnone other hother
    obtain rfl := Option.some.inj hother
    rw [get_record_of_not_mem hkey, hnone]

theorem sanitizeNarrativeIssue_iff (issue : JsValue) :
    IssueFollows issue (sanitizeNarrativeIssue issue) ↔ issue.props.get "direction" = none := by
  have hreference : ∀ value,
      Record narrativeReferenceFields [] value (cloneNarrativeReference value) :=
    record_follows (by decide) builds_nil
  refine (record_without_iff (by decide) (by decide)).trans (and_iff_left ?_)
  intro entry hentry
  obtain rfl := List.mem_singleton.mp hentry
  exact (nested_each_iff (by decide) (by simp)).mpr fun item _ => hreference item

theorem sanitizeNarrativeCheck_iff (check : JsValue) :
    CheckFollows check (sanitizeNarrativeCheck check) ↔ check.props.get "counts" = none ∧
      ∀ issue ∈ items check "issues", issue.props.get "direction" = none := by
  refine (record_without_iff (by decide) (by decide)).trans (and_congr_right' ?_)
  rw [List.forall_mem_singleton,
    @nested_each_iff _ (by decide) _ sanitizeNarrativeIssue (by simp)]
  exact forall₂_congr fun issue _ => sanitizeNarrativeIssue_iff issue

theorem sanitizeNarrative_iff (narrative : JsValue) :
    NarrativeFollows narrative (sanitizeNarrative narrative) ↔
      ∀ check ∈ items narrative "checks", check.props.get "counts" = none ∧
        ∀ issue ∈ items check "issues", issue.props.get "direction" = none := by
  have hagreeing : agreeing none narrativeFields (keep ["id"] ++ redacted ["title", "text"] ++
      keep ["createdAt", "basedOnReadingOrder", "reviewed"] ++
      each "checks" sanitizeNarrativeCheck) = true := by
    decide
  refine (record_iff hagreeing narrative).trans ((and_iff_right fun key hkey =>
    absurd hkey.symm (Option.some_ne_none key)).trans ?_)
  rw [List.forall_mem_singleton,
    @nested_each_iff _ (by decide) _ sanitizeNarrativeCheck (by simp)]
  exact forall₂_congr fun check _ => sanitizeNarrativeCheck_iff check

theorem sanitizeMergeDecision_iff (entry : JsValue) :
    Record mergeDecisionFields [] entry (sanitizeMergeDecision entry) ↔
      entry.props.get "mergeMethod" = none :=
  (record_without_iff (by decide) (by decide)).trans (and_iff_left (by simp))

theorem sanitizeVoidEntry_follows {entry : JsValue}
    (hresolved : ∀ value, entry.props.get "resolved" = some value → ∃ b, value = .bool b) :
    Record voidFields [] entry (sanitizeVoidEntry entry) := by
  refine (@record_iff (some "resolved") _ _ _ (by decide) entry).mpr ⟨fun key hkey => ?_, by simp⟩
  obtain rfl := Option.some.inj hkey
  rw [get_record (by decide) (show ("resolved",
    Action.build fun value => value.bool?.map .bool) ∈ _ by simp)]
  cases hvalue : entry.props.get "resolved" with
  | none => rfl
  | some value =>
      obtain ⟨b, rfl⟩ := hresolved value hvalue
      rfl

/-- No record of a document has one of the three fields that are left out against the tables. -/
structure KeepsFields (document : JsValue) : Prop where
  counts : ∀ narrative ∈ items document "narratives", ∀ check ∈ items narrative "checks",
    check.props.get "counts" = none
  direction : ∀ narrative ∈ items document "narratives", ∀ check ∈ items narrative "checks",
    ∀ issue ∈ items check "issues", issue.props.get "direction" = none
  mergeMethod : ∀ entry ∈ items document "mergeSuggestionDecisions",
    entry.props.get "mergeMethod" = none

theorem document_record_follows (document : JsValue) :
    Record documentFields documentRecords document
      (deriveDocumentSafeModeProjection false document) := by
  have hhistory : ∀ value, Record relationHistoryFields [] value (sanitizeRelationHistory value) :=
    record_follows (by decide) builds_nil
  have hrelation : ∀ value, RelationSummaryFollows value (sanitizeRelationSummary value) :=
    record_follows (by decide) (builds_each (by simp) hhistory builds_nil)
  have hstats : ∀ value, Record patchStatsFields [] value (clonePatchStats value) :=
    record_follows (by decide) builds_nil
  have hconflict : ∀ value, Record patchConflictFields [] value (clonePatchConflictMeta value) :=
    record_follows (by decide) builds_nil
  have hpatch : ∀ value, PatchLogFollows value (sanitizePatchLog value) :=
    record_follows (by decide) (builds_one (by simp) hstats
      (builds_one (by simp) hconflict builds_nil))
  apply record_follows
  · decide
  have hplain := fun {fields actions} (hagreeing : agreeing none fields actions = true) =>
    record_follows hagreeing builds_nil
  apply builds_one (f := cloneTransform) (by simp) (hplain (by decide))
  apply builds_each (by simp) sanitizeCard_follows
  apply builds_each (f := sanitizeEdge) (by simp) (hplain (by decide))
  apply builds_each (by simp) sanitizeIsland_follows
  apply builds_each (by simp) hrelation
  apply builds_each (f := sanitizeEvidenceLink) (by simp) (hplain (by decide))
  apply builds_each (by simp) hpatch
  apply builds_each (f := sanitizeCritiqueInput) (by simp) (hplain (by decide))
  apply builds_one (f := sanitizeReviewAttribution) (by simp) (hplain (by decide))
  apply builds_one (f := cloneTieBreak) (by simp) (hplain (by decide))
  exact builds_each (f := sanitizeShelfEntry) (by simp) (hplain (by decide)) builds_nil

theorem deriveDocumentSafeModeProjection_iff {document : JsValue}
    (hresolved : ∀ entry ∈ items document "voids", ∀ value,
      entry.props.get "resolved" = some value → ∃ b, value = .bool b) :
    DocumentFollows document (deriveDocumentSafeModeProjection false document) ↔
      KeepsFields document := by
  have hnarratives : Nested document (deriveDocumentSafeModeProjection false document) "narratives"
      (Each NarrativeFollows) ↔ ∀ narrative ∈ items document "narratives",
        NarrativeFollows narrative (sanitizeNarrative narrative) :=
    nested_each_iff (by decide) (by simp)
  have hdecisions : Nested document (deriveDocumentSafeModeProjection false document)
      "mergeSuggestionDecisions" (Each (Record mergeDecisionFields [])) ↔
        ∀ entry ∈ items document "mergeSuggestionDecisions",
          Record mergeDecisionFields [] entry (sanitizeMergeDecision entry) :=
    nested_each_iff (by decide) (by simp)
  have hvoids : Nested document (deriveDocumentSafeModeProjection false document) "voids"
      (Each (Record voidFields [])) ↔ ∀ entry ∈ items document "voids",
        Record voidFields [] entry (sanitizeVoidEntry entry) :=
    nested_each_iff (by decide) (by simp)
  constructor
  · rintro ⟨-, hnarrative, hdecision, -⟩
    have hchecks := fun narrative hmem =>
      (sanitizeNarrative_iff narrative).mp (hnarratives.mp hnarrative narrative hmem)
    exact ⟨fun narrative hmem check hcheck => (hchecks narrative hmem check hcheck).1,
      fun narrative hmem check hcheck => (hchecks narrative hmem check hcheck).2,
      fun entry hentry => (sanitizeMergeDecision_iff entry).mp (hdecisions.mp hdecision entry hentry)⟩
  · intro hkeeps
    refine ⟨document_record_follows document, hnarratives.mpr ?_, hdecisions.mpr ?_,
      hvoids.mpr ?_⟩
    · intro narrative hmem
      exact (sanitizeNarrative_iff narrative).mpr fun check hcheck =>
        ⟨hkeeps.counts narrative hmem check hcheck, hkeeps.direction narrative hmem check hcheck⟩
    · exact fun entry hentry =>
        (sanitizeMergeDecision_iff entry).mpr (hkeeps.mergeMethod entry hentry)
    · exact fun entry hentry => sanitizeVoidEntry_follows (hresolved entry hentry)

/-! ## Bundles -/

/-- The value of a field that a record always has. -/
def part (source : JsValue) (key : String) : JsValue := (source.props.get key).getD (.object [])

/-- A bundle, as far as its type is read: `exportInfo` is an object and `resolved` a truth value
where they are given. -/
structure InquiryBundleV1 where
  value : JsValue
  exportInfo : ∀ info, value.props.get "exportInfo" = some info → info.isRecord = true
  resolved : ∀ snapshot ∈ items value "snapshots", ∀ entry ∈ items (part snapshot "document") "voids",
    ∀ given, entry.props.get "resolved" = some given → ∃ b, given = .bool b

theorem sanitizeSnapshot_iff {snapshot : JsValue}
    (hresolved : ∀ entry ∈ items (part snapshot "document") "voids", ∀ value,
      entry.props.get "resolved" = some value → ∃ b, value = .bool b) :
    SnapshotFollows snapshot (sanitizeSnapshot snapshot) ↔
      KeepsFields (part snapshot "document") := by
  have hagreeing : agreeing none snapshotFields
      (keep ["schemaVersion", "snapshotId", "createdAt", "canonicalDigest"] ++
        one "document" (deriveDocumentSafeModeProjection false)) = true := by
    decide
  have hdocument : Nested snapshot (sanitizeSnapshot snapshot) "document" DocumentFollows ↔
      ∀ value, snapshot.props.get "document" = some value →
        DocumentFollows value (deriveDocumentSafeModeProjection false value) :=
    nested_record_iff (nodup_of_agreeing hagreeing) (List.mem_append_right _ (mem_one.mpr rfl))
  refine (record_iff hagreeing snapshot).trans ((and_iff_right fun key hkey =>
    absurd hkey.symm (Option.some_ne_none key)).trans ?_)
  rw [List.forall_mem_singleton]
  refine hdocument.trans ?_
  unfold part at hresolved ⊢
  cases hget : snapshot.props.get "document" with
  | none =>
      rw [Option.getD_none]
      have hempty : ∀ key, items (.object []) key = [] := fun _ => rfl
      exact iff_of_true (fun value hvalue => absurd hvalue.symm (Option.some_ne_none value))
        ⟨fun _ hmem => absurd (hempty _ ▸ hmem) List.not_mem_nil,
          fun _ hmem => absurd (hempty _ ▸ hmem) List.not_mem_nil,
          fun _ hmem => absurd (hempty _ ▸ hmem) List.not_mem_nil⟩
  | some document =>
      rw [hget, Option.getD_some] at hresolved
      rw [Option.getD_some, ← deriveDocumentSafeModeProjection_iff hresolved]
      exact ⟨fun hall => hall document rfl, fun h value hvalue => Option.some.inj hvalue ▸ h⟩

theorem sanitizeBundleContents_record (bundle : InquiryBundleV1) :
    Record bundleFields [("journey", JourneyFollows), ("cardLineage", Each LineageFollows)]
      bundle.value (sanitizeBundleContents bundle.value) := by
  have hjourney : Nested bundle.value (sanitizeBundleContents bundle.value) "journey"
      JourneyFollows := by
    refine (@nested_record_iff _ (by decide) _ (fun value => some (sanitizeJourney value))
      (by simp) _ _).mpr fun value _ => ?_
    exact sanitizeJourney_follows value
  have hlineage : Nested bundle.value (sanitizeBundleContents bundle.value) "cardLineage"
      (Each LineageFollows) := by
    refine (@nested_each_iff _ (by decide) _ sanitizeLineage (by simp) _ _).mpr fun edge _ => ?_
    exact sanitizeLineage_follows edge
  refine (@record_iff (some "exportInfo") _ _ _ (by decide) bundle.value).mpr
    ⟨fun key hkey => ?_, List.forall_mem_cons.mpr
      ⟨hjourney, List.forall_mem_singleton.mpr hlineage⟩⟩
  obtain rfl := Option.some.inj hkey
  rw [get_record (by decide) (show ("exportInfo",
    Action.build fun value => if truthy value then some value else none) ∈ _ by simp)]
  cases hinfo : bundle.value.props.get "exportInfo" with
  | none => rfl
  | some info =>
      have hrecord := bundle.exportInfo info hinfo
      cases info with
      | array list => rfl
      | object props => rfl
      | null => exact absurd hrecord Bool.false_ne_true
      | bool b => exact absurd hrecord Bool.false_ne_true
      | number n => exact absurd hrecord Bool.false_ne_true
      | string text => exact absurd hrecord Bool.false_ne_true

/-- The projection follows the tables exactly when no snapshot has one of the fields that are left
out against them. -/
theorem tables_are_followed_iff (bundle : InquiryBundleV1) :
    BundleFollows bundle.value (sanitizeBundleContents bundle.value) ↔
      ∀ snapshot ∈ items bundle.value "snapshots", KeepsFields (part snapshot "document") := by
  have hsnapshots : Nested bundle.value (sanitizeBundleContents bundle.value) "snapshots"
      (Each SnapshotFollows) ↔ ∀ snapshot ∈ items bundle.value "snapshots",
        SnapshotFollows snapshot (sanitizeSnapshot snapshot) :=
    nested_each_iff (by decide) (by simp)
  have hsnapshot := forall₂_congr fun snapshot hmem =>
    sanitizeSnapshot_iff (bundle.resolved snapshot hmem)
  rw [← hsnapshot, ← hsnapshots]
  exact ⟨fun hfollows => hfollows.snapshots,
    fun h => ⟨sanitizeBundleContents_record bundle, h⟩⟩

/-! ## A small bundle -/

namespace CountedCheck

def object (props : List (String × JsValue)) : JsValue :=
  .object (props.map fun prop => (prop.1, some prop.2))

def time : JsValue := .string "2026-01-01T00:00:00.000Z"

def document (check : JsValue) : JsValue :=
  object [("version", .number .one), ("id", .string "doc"), ("createdAt", time),
    ("updatedAt", time), ("transform", object [("panX", .number .zero), ("panY", .number .zero),
      ("zoom", .number .one)]), ("cards", .array []), ("edges", .array []),
    ("islands", .array []), ("narratives", .array [object [("id", .string "n"),
      ("title", .string "Plan"), ("text", .string "Text"), ("reviewed", .bool false),
      ("checks", .array [check])]])]

def bundleOf (check : JsValue) : JsValue :=
  object [("schemaVersion", .string "1.0.0"), ("journey", object [
      ("schemaVersion", .string "1.0.0"), ("journeyId", .string "j"), ("title", .string "Journey"),
      ("originSnapshotIds", .array [.string "s"]), ("roundRecords", .array []),
      ("headRoundIds", .array []), ("createdAt", time), ("updatedAt", time)]),
    ("snapshots", .array [object [("schemaVersion", .string "1.0.0"), ("snapshotId", .string "s"),
      ("createdAt", time), ("canonicalDigest", .string "0"), ("document", document check)]]),
    ("cardLineage", .array [])]

def counted : JsValue := object [("id", .string "k"), ("createdAt", time),
  ("kind", .string "consistency"), ("issues", .array []),
  ("counts", object [("bMissingInA", .number .zero), ("aMissingInB", .number .one)])]

def bundle : InquiryBundleV1 where
  value := bundleOf counted
  exportInfo := by
    intro info hinfo
    exact absurd hinfo.symm (Option.some_ne_none info)
  resolved := by
    intro snapshot hsnapshot entry hentry
    obtain rfl := List.mem_singleton.mp hsnapshot
    exact absurd hentry List.not_mem_nil

/-- The counts of the check are kept by the table and left out by the projection. -/
theorem counts_are_left_out :
    ¬ BundleFollows bundle.value (sanitizeBundleContents bundle.value) := by
  intro hfollows
  have hsnapshots : ∀ snapshot ∈ items bundle.value "snapshots",
      SnapshotFollows snapshot (sanitizeSnapshot snapshot) :=
    (@nested_each_iff _ (by decide) _ sanitizeSnapshot (by simp) _ _).mp hfollows.snapshots
  have hkeeps := (sanitizeSnapshot_iff (bundle.resolved _ (.head _))).mp
    (hsnapshots _ (.head _))
  have hcounts := hkeeps.counts _ (.head _) counted (.head _)
  exact Option.some_ne_none _ hcounts

end CountedCheck

end KjAtlas.InquirySafeMode
