import KjAtlas.Diff.Items

/-! # The log of merges

An entry lists the ids of a merge up to a limit and counts those that it leaves out. An entry is
sanitized when it is created and again with the log, from the ids that it still lists.
-/

namespace KjAtlas.MergeAudit

open Js

def mergeAuditLogLimit : Nat := 50

def mergeAuditDetailsLimit : Nat := 200

structure MergeAuditIdList where
  ids : List String
  truncatedCount : Option Nat

inductive SourceKind where
  | zip
  | unknown

def SourceKind.text : SourceKind → String
  | .zip => "zip"
  | .unknown => "unknown"

structure MergeAuditSource where
  kind : SourceKind
  fileName : Option String := none
  packId : Option String := none

/-- An entry; what stands in `summary`, `details` and `entityIds` is a field of its own. -/
structure MergeAuditEntry where
  id : String
  createdAt : String
  source : MergeAuditSource
  totalItems : JsNumber
  byKind : List (String × JsNumber)
  warnings : Option (List String) := none
  itemIds : Option MergeAuditIdList
  cards : Option MergeAuditIdList
  islands : Option MergeAuditIdList
  evidence : Option MergeAuditIdList

/-! ## Entries as values -/

/-- `...(value ? { [name]: value } : {})`. -/
def optional (name : String) (value : Option JsValue) : Props :=
  value.toList.map fun value => (name, some value)

def texts (items : List String) : JsValue := .array (items.map .string)

def MergeAuditIdList.toJs (list : MergeAuditIdList) : JsValue :=
  .object (("ids", some (texts list.ids)) ::
    optional "truncatedCount" (list.truncatedCount.map fun n => .number (.ofNat n)))

def MergeAuditSource.toJs (source : MergeAuditSource) : JsValue :=
  .object (("kind", some (.string source.kind.text)) ::
    (optional "fileName" (source.fileName.map .string) ++
      optional "packId" (source.packId.map .string)))

def counts (byKind : List (String × JsNumber)) : JsValue :=
  .object (byKind.map fun count => (count.1, some (.number count.2)))

namespace MergeAuditEntry

variable (entry : MergeAuditEntry)

def entityIds : Props :=
  optional "cards" (entry.cards.map MergeAuditIdList.toJs) ++
    (optional "islands" (entry.islands.map MergeAuditIdList.toJs) ++
      optional "evidence" (entry.evidence.map MergeAuditIdList.toJs))

def details : Props :=
  optional "itemIds" (entry.itemIds.map MergeAuditIdList.toJs) ++
    optional "entityIds" (if entry.entityIds = [] then none else some (.object entry.entityIds))

def toJs : JsValue := .object [
  ("id", some (.string entry.id)), ("createdAt", some (.string entry.createdAt)),
  ("source", some entry.source.toJs),
  ("summary", some (.object (("totalItems", some (.number entry.totalItems)) ::
    ("byKind", some (counts entry.byKind)) :: optional "warnings" (entry.warnings.map texts)))),
  ("details", some (.object entry.details))]

end MergeAuditEntry

/-! ## Sanitizing -/

/-- `value.toLowerCase().replace(/[^a-z]/g, "")`. Two characters besides the capitals have a lower
case with a Latin letter. -/
def normalizedFieldName (value : String) : List Char :=
  value.toList.filterMap fun c =>
    if c.isLower then some c
    else if c.isUpper then some c.toLower
    else if c.toNat = 0x212A then some 'k'
    else if c.toNat = 0x130 then some 'i'
    else none

def isDisallowedFieldName (value : String) : Bool :=
  ["text", "body", "content", "summarytext"].any fun name =>
    name.toList.isSuffixOf (normalizedFieldName value)

/-- `check(value)`. -/
def hasDisallowedFields : JsValue → Bool := JsValue.fold {
  null := false
  bool _ := false
  number _ := false
  string _ := false
  array items := items.any id
  object props := props.any fun prop => isDisallowedFieldName prop.1 || prop.2.getD false }

def assertNoDisallowedText : JsValue → String → Except String Unit := JsValue.fold {
  null _ := .ok ()
  bool _ _ := .ok ()
  number _ _ := .ok ()
  string _ _ := .ok ()
  array items path := items.zipIdx.forM fun item => item.1 (path ++ "." ++ toString item.2)
  object props path := props.forM fun (name, check) => do
    if isDisallowedFieldName name then
      throw ("merge audit privacy guard rejected \"" ++ path ++ "." ++ name ++ "\"")
    (check.getD fun _ => .ok ()) (path ++ "." ++ name) }

def toLimitedIdList (values : List String) (limit : Nat) : Option MergeAuditIdList :=
  let unique := distinct values
  if unique = [] then none
  else
    let ids := unique.take limit
    let truncatedCount := unique.length - ids.length
    some ⟨ids, if 0 < truncatedCount then some truncatedCount else none⟩

def readStringArray : Option JsValue → List String
  | some (.array items) => items.filterMap JsValue.string?
  | _ => []

/-- Ids stand in an array, or under `ids`. -/
def readIds : Option JsValue → List String
  | some (.array items) => readStringArray (some (.array items))
  | value => readStringArray (value.bind fun value => value.props.get "ids")

def propsAt (props : Props) (name : String) : Props := ((props.get name).map JsValue.props).getD []

def readSource (source : Props) : Option MergeAuditSource :=
  ([.zip, .unknown].find? fun kind => decide (source.get "kind" = some (.string kind.text))).map
    fun kind => {
      kind
      fileName := (source.get "fileName").bind JsValue.string?
      packId := (source.get "packId").bind JsValue.string? }

/-- An assignment to `__proto__` that is no object sets nothing. -/
def readCounts : JsValue → Option (List (String × JsNumber))
  | .object props =>
      (props.mapM fun (prop : String × Option JsValue) =>
        (prop.2.bind JsValue.finite?).map (Prod.mk prop.1)).map
          (List.filter fun count => !decide (count.1 = "__proto__"))
  | _ => none

/-- What is made of a value, before the check of development builds. -/
def readEntry (input : JsValue) (maxIdsPerEntry : Nat) : Option MergeAuditEntry := do
  let candidate := input.props
  let id ← (candidate.get "id").bind JsValue.string?
  let createdAt ← (candidate.get "createdAt").bind JsValue.string?
  let source ← readSource (propsAt candidate "source")
  let summaryInput := propsAt candidate "summary"
  let totalItems ← (summaryInput.get "totalItems").bind JsValue.finite?
  let byKind ← (summaryInput.get "byKind").bind readCounts
  let detailsInput := propsAt candidate "details"
  let entityInput := propsAt detailsInput "entityIds"
  return {
    id, createdAt, source, totalItems, byKind
    warnings := if hasDisallowedFields input then some ["stripped_disallowed_fields"] else none
    itemIds := toLimitedIdList (readIds (detailsInput.get "itemIds")) maxIdsPerEntry
    cards := toLimitedIdList (readIds (entityInput.get "cards")) maxIdsPerEntry
    islands := toLimitedIdList (readIds (entityInput.get "islands")) maxIdsPerEntry
    evidence := toLimitedIdList (readIds (entityInput.get "evidence")) maxIdsPerEntry }

variable (dev : Bool)

def sanitizeEntry (input : JsValue) (maxIdsPerEntry : Nat) :
    Except String (Option MergeAuditEntry) := do
  let sanitized := readEntry input maxIdsPerEntry
  if dev then
    sanitized.forM fun entry => assertNoDisallowedText entry.toJs "mergeAuditEntry"
  return sanitized

structure MergeAuditAppendOptions where
  maxEntries : Nat := mergeAuditLogLimit
  maxIdsPerEntry : Nat := mergeAuditDetailsLimit

/-- `entries.length > maxEntries ? entries.slice(entries.length - maxEntries) : entries`. -/
def newest {α : Type} (maxEntries : Nat) (entries : List α) : List α :=
  if maxEntries < entries.length then entries.drop (entries.length - maxEntries) else entries

def sanitizeMergeAuditLog (options : MergeAuditAppendOptions) :
    JsValue → Except String (List MergeAuditEntry)
  | .array items => do
      let entries ← items.mapM (sanitizeEntry dev · options.maxIdsPerEntry)
      return newest options.maxEntries entries.reduceOption
  | _ => return []

/-- A merge, its time, and what `Math.random` draws for its entry. -/
structure Merge where
  selectedItems : List MergeItem
  source : Option MergeAuditSource
  timestamp : String
  random : String

namespace Merge

variable (merge : Merge)

def itemIds : List String := merge.selectedItems.map MergeItem.id

def entityIds (kind : MergeEntityKind) : List String :=
  (merge.selectedItems.filter fun item => decide (item.entityRef.kind = kind)).map
    fun item => item.entityRef.id

def byKind : InsertionMap String Nat :=
  merge.selectedItems.foldl
    (fun byKind item => byKind.set item.kind.text ((byKind.get? item.kind.text).getD 0 + 1)) .empty

def counted : List (String × JsNumber) :=
  merge.byKind.entries.map fun count => (count.1, .ofNat count.2)

/-- What is sanitized as the entry of a merge, with its details. -/
def value (details : Props) : JsValue := .object [
  ("id", some (.string ("merge-" ++ merge.timestamp ++ "-" ++ merge.random))),
  ("createdAt", some (.string merge.timestamp)),
  ("source", some (merge.source.getD { kind := .unknown }).toJs),
  ("summary", some (.object [
    ("totalItems", some (.number (.ofNat merge.selectedItems.length))),
    ("byKind", some (counts merge.counted))])),
  ("details", some (.object details))]

def createMergeAuditEntry : Except String (Option MergeAuditEntry) :=
  sanitizeEntry dev (merge.value [
    ("itemIds", some (texts merge.itemIds)),
    ("entityIds", some (.object [
      ("cards", some (texts (merge.entityIds .card))),
      ("islands", some (texts (merge.entityIds .island))),
      ("evidence", some (texts (merge.entityIds .evidence)))]))]) mergeAuditDetailsLimit

end Merge

/-- What is written as `mergeAuditLog`; an entry that was refused is `null`. -/
def appendMergeAuditEntry (options : MergeAuditAppendOptions) (log : List MergeAuditEntry)
    (entry : Option MergeAuditEntry) : Except String (List MergeAuditEntry) := do
  let current ← sanitizeMergeAuditLog dev options (.array (log.map MergeAuditEntry.toJs))
  match ← sanitizeEntry dev ((entry.map MergeAuditEntry.toJs).getD .null) options.maxIdsPerEntry with
  | none => return current
  | some safeEntry => return newest options.maxEntries (current ++ [safeEntry])

/-! ## Runs -/

inductive Step where
  | append (merge : Merge)
  | sanitize

def Step.run (options : MergeAuditAppendOptions) (log : List MergeAuditEntry) :
    Step → Except String (List MergeAuditEntry)
  | .append merge => do appendMergeAuditEntry dev options log (← merge.createMergeAuditEntry dev)
  | .sanitize => sanitizeMergeAuditLog dev options (.array (log.map MergeAuditEntry.toJs))

def Step.merge? : Step → Option Merge
  | .append merge => some merge
  | .sanitize => none

/-- The log after steps from an empty log. -/
def logAfter (options : MergeAuditAppendOptions) (steps : List Step) :
    Except String (List MergeAuditEntry) :=
  steps.foldl (fun log step => log.bind fun log => step.run dev options log) (.ok [])

/-- How many ids a list stands for. -/
def total (list : Option MergeAuditIdList) : Nat :=
  list.elim 0 fun list => list.ids.length + list.truncatedCount.getD 0

/-- The entry was created for the merge and stands for all of its ids. -/
structure Records (merge : Merge) (entry : MergeAuditEntry) : Prop where
  created : merge.createMergeAuditEntry dev = .ok (some entry)
  itemIds : total entry.itemIds = (distinct merge.itemIds).length
  cards : total entry.cards = (distinct (merge.entityIds .card)).length
  islands : total entry.islands = (distinct (merge.entityIds .island)).length
  evidence : total entry.evidence = (distinct (merge.entityIds .evidence)).length

/-- The newest merges are recorded, and the log is read back as it is. -/
structure Keeps (options : MergeAuditAppendOptions) (merges : List Merge)
    (log : List MergeAuditEntry) : Prop where
  recorded : List.Forall₂ (Records dev) (newest options.maxEntries merges) log
  stable : sanitizeMergeAuditLog dev options (.array (log.map MergeAuditEntry.toJs)) = .ok log

/-- No list of the merge is longer than the limit. -/
def Merge.Fits (limit : Nat) (merge : Merge) : Prop :=
  ∀ ids ∈ [merge.itemIds, merge.entityIds .card, merge.entityIds .island,
    merge.entityIds .evidence], (distinct ids).length ≤ limit

instance (limit : Nat) (merge : Merge) : Decidable (merge.Fits limit) :=
  inferInstanceAs (Decidable (∀ ids ∈ _, _))

/-! ## Reading lists back -/

section Lists

variable {limit : Nat} {values ids : List String}

/-- A list without a limit. -/
def idList (values : List String) : Option MergeAuditIdList :=
  if distinct values = [] then none else some ⟨distinct values, none⟩

theorem toLimitedIdList_of_le (hsame : distinct ids = distinct values)
    (hle : (distinct values).length ≤ limit) : toLimitedIdList ids limit = idList values := by
  simp [toLimitedIdList, idList, hsame, List.take_of_length_le hle]

@[simp] theorem readIds_texts : readIds (some (texts values)) = values := by
  simp [readIds, readStringArray, texts, List.filterMap_map, Function.comp_def, JsValue.string?]

@[simp] theorem readIds_idList :
    readIds ((idList values).map MergeAuditIdList.toJs) = distinct values := by
  unfold idList
  split
  next hnil => rw [hnil]; rfl
  next => exact readIds_texts

theorem total_idList : total (idList values) = (distinct values).length := by
  unfold idList
  split
  next hnil => rw [hnil]; rfl
  next => rfl

@[simp] theorem distinct_distinct : distinct (distinct values) = distinct values :=
  distinct_of_nodup (nodup_distinct values)

end Lists

@[simp] theorem get_optional (name key : String) (value : Option JsValue) :
    Props.get (optional name value) key = if name = key then value else none := by
  cases value <;> simp [optional, Props.get_cons]

@[simp] theorem any_optional (p : String × Option JsValue → Bool) (name : String)
    (value : Option JsValue) :
    (optional name value).any p = (value.map fun value => p (name, some value)).getD false := by
  cases value <;> simp [optional]

@[simp] theorem readSource_toJs (source : MergeAuditSource) :
    readSource source.toJs.props = some source := by
  obtain ⟨kind, fileName, packId⟩ := source
  cases kind <;> cases fileName <;> cases packId <;> rfl

/-! ## Field names -/

@[simp] theorem hasDisallowedFields_string (s : String) :
    hasDisallowedFields (.string s) = false := rfl

@[simp] theorem hasDisallowedFields_number (n : JsNumber) :
    hasDisallowedFields (.number n) = false := rfl

@[simp] theorem hasDisallowedFields_array (items : List JsValue) :
    hasDisallowedFields (.array items) = items.any hasDisallowedFields := by
  rw [hasDisallowedFields, JsValue.fold_array]
  exact List.any_map

@[simp] theorem hasDisallowedFields_object (props : Props) :
    hasDisallowedFields (.object props) = props.any fun prop =>
      isDisallowedFieldName prop.1 || (prop.2.map hasDisallowedFields).getD false := by
  rw [hasDisallowedFields, JsValue.fold_object]
  exact List.any_map

theorem fields_allowed : ∀ name ∈ ["id", "createdAt", "source", "summary", "details", "kind",
    "fileName", "packId", "totalItems", "byKind", "itemIds", "entityIds", "cards", "islands",
    "evidence", "ids", "truncatedCount"], isDisallowedFieldName name = false := by decide

theorem kind_allowed (kind : MergeItemKind) : isDisallowedFieldName kind.text = false := by
  cases kind <;> decide

theorem forM_eq_ok {α : Type} {check : α → Except String Unit} {items : List α}
    (hitems : ∀ item ∈ items, check item = .ok ()) : items.forM check = .ok () := by
  induction items with
  | nil => rfl
  | cons item items ih =>
      rw [List.forall_mem_cons] at hitems
      rw [List.forM_eq_forM, List.forM_cons, hitems.1]
      exact ih hitems.2

theorem assertNoDisallowedText_ok {value : JsValue} (hclean : hasDisallowedFields value = false)
    (path : String) : assertNoDisallowedText value path = .ok () := by
  induction value using JsValue.induction generalizing path with
  | null => rfl
  | bool b => rfl
  | number n => rfl
  | string s => rfl
  | array items ih =>
      rw [assertNoDisallowedText, JsValue.fold_array]
      apply forM_eq_ok
      rintro ⟨check, index⟩ hcheck
      obtain ⟨item, hitem, rfl⟩ := List.mem_map.mp (List.fst_mem_of_mem_zipIdx hcheck)
      rw [hasDisallowedFields_array, List.any_eq_false] at hclean
      exact ih item hitem (by simpa using hclean item hitem) _
  | object props ih =>
      rw [assertNoDisallowedText, JsValue.fold_object]
      apply forM_eq_ok
      intro field hfield
      obtain ⟨⟨name, value⟩, hprop, rfl⟩ := List.mem_map.mp hfield
      rw [hasDisallowedFields_object, List.any_eq_false] at hclean
      have hname := hclean _ hprop
      cases value with
      | none => simp_all
      | some value =>
          rw [Bool.not_eq_true, Bool.or_eq_false_iff] at hname
          simp only [hname.1]
          exact ih name value hprop hname.2 _

theorem mem_keys_byKind {items : List MergeItem} {start : InsertionMap String Nat} {name : String}
    (hname : name ∈ (items.foldl (fun byKind item =>
      byKind.set item.kind.text ((byKind.get? item.kind.text).getD 0 + 1)) start).keys) :
    name ∈ start.keys ∨ ∃ kind : MergeItemKind, kind.text = name := by
  induction items generalizing start with
  | nil => exact .inl hname
  | cons item items ih =>
      rcases ih hname with hkey | hkind
      · rw [InsertionMap.mem_keys, InsertionMap.get?_set] at hkey
        split at hkey
        next heq => exact .inr ⟨item.kind, heq⟩
        next => exact .inl (InsertionMap.mem_keys.mpr hkey)
      · exact .inr hkind

/-! ## The entry of a merge -/

namespace Merge

variable {dev : Bool} {merge : Merge} {limit : Nat} {details : Props}

theorem exists_kind {count : String × JsNumber} (hcount : count ∈ merge.counted) :
    ∃ kind : MergeItemKind, kind.text = count.1 := by
  obtain ⟨entry, hentry, rfl⟩ := List.mem_map.mp hcount
  have hkey : entry.1 ∈ merge.byKind.keys := List.mem_map_of_mem hentry
  exact (mem_keys_byKind hkey).resolve_left List.not_mem_nil

theorem readCounts_counted : readCounts (counts merge.counted) = some merge.counted := by
  have hread : (merge.counted.map fun count => (count.1, some (JsValue.number count.2))).mapM
      (fun prop : String × Option JsValue =>
        (prop.2.bind JsValue.finite?).map (Prod.mk prop.1)) = some merge.counted := by
    unfold counted
    induction merge.byKind.entries with
    | nil => rfl
    | cons count counts ih =>
        rw [List.map_cons, List.map_cons, List.mapM_cons, ih]
        rfl
  rw [counts, readCounts, hread, Option.map_some, List.filter_eq_self.mpr]
  intro count hcount
  obtain ⟨kind, hkind⟩ := exists_kind hcount
  rw [← hkind]
  cases kind <;> decide

/-- The entry of a merge without limits. -/
def entry (merge : Merge) : MergeAuditEntry where
  id := "merge-" ++ merge.timestamp ++ "-" ++ merge.random
  createdAt := merge.timestamp
  source := merge.source.getD { kind := .unknown }
  totalItems := .ofNat merge.selectedItems.length
  byKind := merge.counted
  itemIds := idList merge.itemIds
  cards := idList (merge.entityIds .card)
  islands := idList (merge.entityIds .island)
  evidence := idList (merge.entityIds .evidence)

@[simp] theorem entry_lists : merge.entry.itemIds = idList merge.itemIds ∧
    merge.entry.cards = idList (merge.entityIds .card) ∧
    merge.entry.islands = idList (merge.entityIds .island) ∧
    merge.entry.evidence = idList (merge.entityIds .evidence) := ⟨rfl, rfl, rfl, rfl⟩

theorem hasDisallowedFields_value :
    hasDisallowedFields (merge.value details) = hasDisallowedFields (.object details) := by
  have hsource : ∀ source : MergeAuditSource, hasDisallowedFields source.toJs = false := by
    rintro ⟨kind, fileName, packId⟩
    cases fileName <;> cases packId <;> simp [MergeAuditSource.toJs, fields_allowed]
  have hcounts : hasDisallowedFields (counts merge.counted) = false := by
    rw [counts, hasDisallowedFields_object, List.any_map, List.any_eq_false]
    intro count hcount
    obtain ⟨kind, hkind⟩ := exists_kind hcount
    rw [Function.comp_apply, ← hkind, kind_allowed]
    exact Bool.false_ne_true
  simp [value, hsource, hcounts, fields_allowed]

theorem clean_details : hasDisallowedFields (.object merge.entry.details) = false := by
  have hlist : ∀ values : List String,
      ((idList values).map fun list => hasDisallowedFields list.toJs).getD false = false := by
    intro values
    unfold idList
    split
    · rfl
    · simp [MergeAuditIdList.toJs, texts, fields_allowed]
  have hids : hasDisallowedFields (.object merge.entry.entityIds) = false := by
    simp [MergeAuditEntry.entityIds, fields_allowed, Function.comp_def, hlist]
  rw [hasDisallowedFields_object, MergeAuditEntry.details, List.any_append]
  split <;> simp [fields_allowed, Function.comp_def, -hasDisallowedFields_object, hids, hlist]

theorem readEntry_value (hclean : hasDisallowedFields (.object details) = false) :
    readEntry (merge.value details) limit = some { merge.entry with
      itemIds := toLimitedIdList (readIds (details.get "itemIds")) limit
      cards := toLimitedIdList (readIds ((propsAt details "entityIds").get "cards")) limit
      islands := toLimitedIdList (readIds ((propsAt details "entityIds").get "islands")) limit
      evidence := toLimitedIdList (readIds ((propsAt details "entityIds").get "evidence")) limit } := by
  have hprops : ∀ props : Props, (JsValue.object props).props = props := fun _ => rfl
  have hnumber : (JsValue.number (.ofNat merge.selectedItems.length)).finite? =
    some (.ofNat merge.selectedItems.length) := rfl
  rw [readEntry, hasDisallowedFields_value, hclean]
  simp [value, propsAt, Props.get_cons, hprops, JsValue.string?, hnumber, readCounts_counted, entry]

/-- What lists the ids of the merge is sanitized to its entry. -/
theorem sanitizeEntry_value (hfits : merge.Fits limit)
    (hclean : hasDisallowedFields (.object details) = false)
    (hitemIds : distinct (readIds (details.get "itemIds")) = distinct merge.itemIds)
    (hcards : distinct (readIds ((propsAt details "entityIds").get "cards")) =
      distinct (merge.entityIds .card))
    (hislands : distinct (readIds ((propsAt details "entityIds").get "islands")) =
      distinct (merge.entityIds .island))
    (hevidence : distinct (readIds ((propsAt details "entityIds").get "evidence")) =
      distinct (merge.entityIds .evidence)) :
    sanitizeEntry dev (merge.value details) limit = .ok (some merge.entry) := by
  simp only [Fits, List.forall_mem_cons] at hfits
  have hread : readEntry (merge.value details) limit = some merge.entry := by
    rw [readEntry_value hclean, toLimitedIdList_of_le hitemIds hfits.1,
      toLimitedIdList_of_le hcards hfits.2.1, toLimitedIdList_of_le hislands hfits.2.2.1,
      toLimitedIdList_of_le hevidence hfits.2.2.2.1]
    rfl
  have hassert : assertNoDisallowedText merge.entry.toJs "mergeAuditEntry" = .ok () :=
    assertNoDisallowedText_ok (hasDisallowedFields_value.trans clean_details) _
  rw [sanitizeEntry, hread]
  cases dev
  · rfl
  · simp [Option.forM, hassert]

theorem sanitizeEntry_toJs (hfits : merge.Fits limit) :
    sanitizeEntry dev merge.entry.toJs limit = .ok (some merge.entry) := by
  have hget : propsAt merge.entry.details "entityIds" = merge.entry.entityIds := by
    rw [propsAt, MergeAuditEntry.details, Props.get_append, get_optional, get_optional]
    by_cases hids : merge.entry.entityIds = []
    · simp [hids]
    · simp [hids, JsValue.props]
  apply @sanitizeEntry_value dev merge limit merge.entry.details hfits clean_details
  · simp [MergeAuditEntry.details, Props.get_append]
  all_goals simp [hget, MergeAuditEntry.entityIds, Props.get_append]

theorem createMergeAuditEntry_of_fits (hfits : merge.Fits mergeAuditDetailsLimit) :
    merge.createMergeAuditEntry dev = .ok (some merge.entry) := by
  apply sanitizeEntry_value hfits
  · simp [texts, fields_allowed]
  · simp [Props.get_cons]
  · simp [Props.get_cons, propsAt, JsValue.props]
  · simp [Props.get_cons, propsAt, JsValue.props]
  · simp [Props.get_cons, propsAt, JsValue.props]

theorem records_entry (hfits : merge.Fits mergeAuditDetailsLimit) :
    Records dev merge merge.entry where
  created := createMergeAuditEntry_of_fits hfits
  itemIds := total_idList
  cards := total_idList
  islands := total_idList
  evidence := total_idList

end Merge

/-! ## The newest entries -/

section Newest

variable {α : Type} {limit : Nat} (items : List α)

theorem newest_eq_drop : newest limit items = items.drop (items.length - limit) := by
  rw [newest]
  split
  next => rfl
  next hle => rw [Nat.sub_eq_zero_of_le (Nat.le_of_not_lt hle), List.drop_zero]

theorem newest_map {β : Type} (f : α → β) :
    newest limit (items.map f) = (newest limit items).map f := by
  rw [newest_eq_drop, newest_eq_drop, List.length_map, List.map_drop]

@[simp] theorem newest_newest : newest limit (newest limit items) = newest limit items := by
  rw [newest_eq_drop, newest_eq_drop, List.drop_drop, List.length_drop]
  congr 1
  omega

theorem newest_snoc (hlimit : 1 ≤ limit) (item : α) :
    newest limit (newest limit items ++ [item]) = newest limit (items ++ [item]) := by
  simp only [newest_eq_drop, List.length_append, List.length_drop, List.length_singleton]
  rw [List.drop_append_of_le_length (by simp; omega), List.drop_append_of_le_length (by omega),
    List.drop_drop]
  congr 2
  omega

variable {items}

theorem mem_of_mem_newest {item : α} (hitem : item ∈ newest limit items) : item ∈ items :=
  List.mem_of_mem_drop (newest_eq_drop items ▸ hitem)

end Newest

/-! ## Whole runs -/

section Runs

variable {dev : Bool} {options : MergeAuditAppendOptions} {merges : List Merge}

def recorded (options : MergeAuditAppendOptions) (merges : List Merge) : List MergeAuditEntry :=
  (newest options.maxEntries merges).map Merge.entry

theorem sanitizeMergeAuditLog_recorded
    (hfits : ∀ merge ∈ merges, merge.Fits options.maxIdsPerEntry) :
    sanitizeMergeAuditLog dev options
        (.array ((recorded options merges).map MergeAuditEntry.toJs)) =
      .ok (recorded options merges) := by
  have hread : ∀ merges : List Merge, (∀ merge ∈ merges, merge.Fits options.maxIdsPerEntry) →
      ((merges.map Merge.entry).map MergeAuditEntry.toJs).mapM
        (sanitizeEntry dev · options.maxIdsPerEntry) = .ok ((merges.map Merge.entry).map some) := by
    intro merges hfits
    induction merges with
    | nil => rfl
    | cons merge merges ih =>
        rw [List.forall_mem_cons] at hfits
        simp only [List.map_cons, List.mapM_cons, Merge.sanitizeEntry_toJs hfits.1, ih hfits.2]
        rfl
  rw [sanitizeMergeAuditLog, recorded,
    hread _ fun merge hmerge => hfits merge (mem_of_mem_newest hmerge)]
  change Except.ok (newest _ ((_ : List (Option MergeAuditEntry)).filterMap id)) = _
  rw [List.filterMap_map, ← newest_map]
  simp

theorem run_append (hentries : 1 ≤ options.maxEntries)
    (hfits : ∀ merge ∈ merges, merge.Fits options.maxIdsPerEntry) {merge : Merge}
    (hdetails : merge.Fits mergeAuditDetailsLimit) (hids : merge.Fits options.maxIdsPerEntry) :
    (Step.append merge).run dev options (recorded options merges) =
      .ok (recorded options (merges ++ [merge])) := by
  have hnext : newest options.maxEntries (recorded options merges ++ [merge.entry]) =
      recorded options (merges ++ [merge]) := by
    rw [recorded, recorded, ← List.map_singleton, ← List.map_append, newest_map,
      newest_snoc _ hentries]
  rw [Step.run, Merge.createMergeAuditEntry_of_fits hdetails]
  change appendMergeAuditEntry dev options (recorded options merges) (some merge.entry) = _
  rw [appendMergeAuditEntry, sanitizeMergeAuditLog_recorded hfits, Option.map_some, Option.getD_some,
    Merge.sanitizeEntry_toJs hids]
  exact congrArg Except.ok hnext

end Runs

/-- When the lists of every merge are within the limits, the log of a run records the newest
merges, and sanitizing it changes nothing. -/
theorem log_keeps {options : MergeAuditAppendOptions} {steps : List Step}
    (hentries : 1 ≤ options.maxEntries)
    (hfits : ∀ merge ∈ steps.filterMap Step.merge?,
      merge.Fits mergeAuditDetailsLimit ∧ merge.Fits options.maxIdsPerEntry) :
    ∃ log, logAfter dev options steps = .ok log ∧
      Keeps dev options (steps.filterMap Step.merge?) log := by
  have hrun : logAfter dev options steps =
      .ok (recorded options (steps.filterMap Step.merge?)) := by
    induction steps using List.reverseRecOn with
    | nil => rfl
    | append_singleton steps step ih =>
        rw [List.filterMap_append, List.forall_mem_append] at hfits
        have hrun := ih hfits.1
        rw [logAfter] at hrun ⊢
        rw [List.foldl_append, hrun, List.filterMap_append]
        have hids := fun merge hmerge => (hfits.1 merge hmerge).2
        cases step with
        | append merge =>
            obtain ⟨hdetails, hids'⟩ := hfits.2 merge (List.mem_singleton_self merge)
            exact run_append hentries hids hdetails hids'
        | sanitize =>
            rw [List.filterMap_cons_none rfl, List.filterMap_nil, List.append_nil]
            exact sanitizeMergeAuditLog_recorded hids
  refine ⟨_, hrun, ?_, sanitizeMergeAuditLog_recorded fun merge hmerge => (hfits merge hmerge).2⟩
  rw [recorded, List.forall₂_map_right_iff, List.forall₂_same]
  exact fun merge hmerge => Merge.records_entry (hfits merge (mem_of_mem_newest hmerge)).1

namespace CutIds

def added (cardId : String) : MergeItem where
  id := "card.add:" ++ cardId
  kind := .cardAdd
  entityRef := ⟨.card, cardId⟩
  prerequisites := []

def merge (cardIds : List String) : Merge where
  selectedItems := cardIds.map added
  source := none
  timestamp := "2026-01-01T00:00:00.000Z"
  random := "5f3a9c1e"

def steps : List Step := [.append (merge ["c1", "c2"]), .sanitize, .append (merge ["c2", "c3"])]

theorem log_keeps_two_merges : ∃ log, logAfter true { maxIdsPerEntry := 2 } steps = .ok log ∧
    Keeps true { maxIdsPerEntry := 2 } [merge ["c1", "c2"], merge ["c2", "c3"]] log :=
  log_keeps true (by decide) (by decide +kernel)

/-- With room for one id, the count of what was left out is gone when the log is read again. -/
theorem count_is_lost : ¬ ∀ dev options steps, 1 ≤ options.maxEntries →
    ∃ log, logAfter dev options steps = .ok log ∧
      Keeps dev options (steps.filterMap Step.merge?) log := by
  intro hkeeps
  obtain ⟨log, hlog, hkept⟩ := hkeeps true { maxIdsPerEntry := 1 }
    [.append (merge ["c1", "c2"]), .sanitize] (by decide)
  have htotals : ((logAfter true { maxIdsPerEntry := 1 }
    [.append (merge ["c1", "c2"]), .sanitize]).toOption.getD []).map
      (fun entry => total entry.itemIds) = [1] := by decide +kernel
  rw [hlog] at htotals
  have hrecorded : List.Forall₂ (Records true) [merge ["c1", "c2"]] log := hkept.recorded
  cases hrecorded with
  | cons hrecords _ =>
      have htotal := hrecords.itemIds
      have hcount : (distinct (merge ["c1", "c2"]).itemIds).length = 2 := by decide
      rw [hcount] at htotal
      simp [Except.toOption, htotal] at htotals

end CutIds

end KjAtlas.MergeAudit
