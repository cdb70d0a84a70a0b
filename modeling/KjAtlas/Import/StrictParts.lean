import KjAtlas.Import.Stable
import KjAtlas.Import.Strict

/-! # The parts that the strict check accepts

What the importer makes of a part of a document has the properties that the
strict check knows, and each of them passes its check. What is asked of a
property is compared with what is read of it.
-/

namespace KjAtlas

open Js

namespace Strict

/-! ## What is asked of a property -/

def Is (shape : Shape) (value : JsValue) : Prop := shape value = true

/-- A value about which nothing is reported. -/
def Clear (validate : JsValue → String → List String) (value : JsValue) : Prop :=
  ∀ path, validate value path = []

def Required (test : JsValue → Prop) (value : Option JsValue) : Prop :=
  ∃ item, value = some item ∧ test item

def Allowed (test : JsValue → Prop) (value : Option JsValue) : Prop :=
  ∀ item, value = some item → test item

/-- What a reader makes of a property has a JSON image that passes a test. -/
def Makes (value : Option JsValue) (reader : Reader) (test : JsValue → Prop) : Prop :=
  ∀ ⦃source result⦄, value = some source → reader source = some result → test (jsonImage result)

/-- What is read of a property has a JSON image that passes a test. -/
def Gives (value : Option JsValue) (property : Property) (test : Option JsValue → Prop) : Prop :=
  ∀ ⦃result⦄, property.read value = some result → test (result.map jsonImage)

/-- Under a name, a rebuilt record has a value that passes a test. -/
def Ensures (props : Props) (properties : List Property) (key : String)
    (test : Option JsValue → Prop) : Prop :=
  ∃ property ∈ properties, property.name = key ∧ Gives (props.get key) property test

def Passes (props : Props) (properties : List Property) (check : Check) : Prop :=
  ∀ ⦃result⦄, Rebuilt properties props result → ∀ path, check path result.json = []

section Properties

variable {test : JsValue → Prop} {reader : Reader} {name : String} {value : Option JsValue}

@[simp] theorem gives_must (hmakes : Makes value reader test) :
    Gives value (.must name reader) (Required test) := by
  intro result hread
  obtain ⟨item, hitem, rfl⟩ := Option.map_eq_some_iff.mp hread
  obtain ⟨_, hsource, hitem⟩ := Option.bind_eq_some_iff.mp hitem
  exact ⟨_, rfl, hmakes hsource hitem⟩

@[simp] theorem gives_orElse {default : JsValue} (hmakes : Makes value reader test)
    (hdefault : test (jsonImage default)) :
    Gives value (.orElse name reader default) (Required test) := by
  intro result hread
  cases hread
  refine ⟨_, rfl, ?_⟩
  cases hitem : value.bind reader with
  | none => exact hdefault
  | some item =>
      obtain ⟨_, hsource, hitem⟩ := Option.bind_eq_some_iff.mp hitem
      exact hmakes hsource hitem

theorem allowed_of_required {value : Option JsValue} (hrequired : Required test value) :
    Allowed test value := by
  obtain ⟨item, rfl, htest⟩ := hrequired
  rintro _ ⟨⟩
  exact htest

section

variable (hmakes : Makes value reader test)
include hmakes

@[simp] theorem gives_must_allowed : Gives value (.must name reader) (Allowed test) :=
  fun _ hread => allowed_of_required (gives_must hmakes hread)

@[simp] theorem gives_orElse_allowed {default : JsValue} (hdefault : test (jsonImage default)) :
    Gives value (.orElse name reader default) (Allowed test) :=
  fun _ hread => allowed_of_required (gives_orElse hmakes hdefault hread)

theorem allowed_bind : Allowed test ((value.bind reader).map jsonImage) := by
  intro image himage
  obtain ⟨item, hitem, rfl⟩ := Option.map_eq_some_iff.mp himage
  obtain ⟨_, hsource, hitem⟩ := Option.bind_eq_some_iff.mp hitem
  exact hmakes hsource hitem

@[simp] theorem gives_may : Gives value (.may name reader) (Allowed test) := by
  intro result hread
  cases hread
  exact allowed_bind hmakes

@[simp] theorem gives_spreading : Gives value (.spreading name reader) (Allowed test) := by
  intro result hread
  cases hread
  exact allowed_bind hmakes

end

@[simp] theorem gives_always {fixed : JsValue} (hfixed : test (jsonImage fixed)) :
    Gives value (.always name (some fixed)) (Allowed test) := by
  intro result hread
  cases hread
  rintro _ ⟨⟩
  exact hfixed

end Properties

variable {checks : List Check} {keys : List String}

section Records

variable {props : Props} {properties : List Property} {key message : String}
  {test : JsValue → Prop} {shape : Shape}

@[simp] theorem ensures_cons {property : Property} {test : Option JsValue → Prop} :
    Ensures props (property :: properties) key test ↔
      (property.name = key ∧ Gives (props.get key) property test) ∨
        Ensures props properties key test := by
  rw [Ensures, List.exists_mem_cons_iff]
  rfl

/-- What a rebuilt record has under a name. -/
theorem Ensures.get {test : Option JsValue → Prop} (hensures : Ensures props properties key test)
    {result : Props} (hrebuilt : Rebuilt properties props result) : test (result.json.get key) := by
  obtain ⟨property, hproperty, rfl, hgives⟩ := hensures
  rw [Props.get_json]
  exact hgives (hrebuilt.read property hproperty)

@[simp] theorem passes_must (hensures : Ensures props properties key (Required (Is shape))) :
    Passes props properties (must key shape message) := by
  intro result hrebuilt path
  obtain ⟨item, hitem, hshape⟩ := hensures.get hrebuilt
  rw [must_eq_nil, hitem]
  exact hshape

@[simp] theorem passes_may (hensures : Ensures props properties key (Allowed (Is shape))) :
    Passes props properties (may key shape message) := by
  intro result hrebuilt path
  have hallowed := hensures.get hrebuilt
  rw [may_eq_nil]
  cases hitem : result.json.get key with
  | none => rfl
  | some item => exact hallowed item hitem

@[simp] theorem passes_mustBeStrings
    (hensures : Ensures props properties key (Required (Is (Shape.array Shape.string)))) :
    Passes props properties (mustBeStrings key) := by
  intro result hrebuilt path
  obtain ⟨item, hitem, hshape⟩ := hensures.get hrebuilt
  rw [mustBeStrings_eq_nil, hitem]
  exact hshape

@[simp] theorem passes_whenProvided {validate : JsValue → String → List String}
    (hensures : Ensures props properties key (Allowed (Clear validate))) :
    Passes props properties (whenProvided key validate) := by
  intro result hrebuilt path
  rw [whenProvided_eq_nil]
  exact fun item hitem => hensures.get hrebuilt item hitem _

@[simp] theorem passes_mayBeStrings
    (hensures : Ensures props properties key (Allowed (Is (Shape.array Shape.string)))) :
    Passes props properties (mayBeStrings key) := by
  intro result hrebuilt path
  have hallowed := hensures.get hrebuilt
  rw [mayBeStrings_eq_nil]
  cases hitem : result.json.get key with
  | none => rfl
  | some item => exact hallowed item hitem

@[simp] theorem passes_mustBeRecord
    (hensures : Ensures props properties key (Required (Clear (validateEntity keys checks)))) :
    Passes props properties (mustBeRecord key keys checks) := by
  intro result hrebuilt path
  obtain ⟨item, hitem, hclear⟩ := hensures.get hrebuilt
  rw [mustBeRecord, hitem]
  exact hclear _

theorem fields_rebuilt {keys : List String} {result : Props}
    (hrebuilt : Rebuilt properties props result)
    (hkeys : ∀ property ∈ properties, property.name ∈ keys) :
    ∀ key ∈ objectKeys (jsonImage (.object result)), key ∈ keys := by
  rw [jsonImage_object]
  intro key hkey
  by_contra hunknown
  refine Props.mem_names_json.mp hkey (hrebuilt.closed key fun hname => hunknown ?_)
  obtain ⟨property, hproperty, rfl⟩ := List.mem_map.mp hname
  exact hkeys property hproperty

theorem clear_rebuilt {result : Props} (hrebuilt : Rebuilt properties props result)
    (hkeys : ∀ property ∈ properties, property.name ∈ keys)
    (hchecks : ∀ check ∈ checks, Passes props properties check) :
    Clear (validateRecord keys checks message) (jsonImage (.object result)) := by
  intro path
  have hfields := fields_rebuilt hrebuilt hkeys
  rw [jsonImage_object] at hfields ⊢
  rw [validateRecord_eq_nil]
  exact ⟨rfl, hfields, fun check hcheck => hchecks check hcheck hrebuilt path⟩

@[simp] theorem makes_record {value : Option JsValue}
    (hnodup : (properties.map Property.name).Nodup)
    (hkeys : ∀ property ∈ properties, property.name ∈ keys)
    (hchecks : ∀ source, value = some source →
      ∀ check ∈ checks, Passes source.props properties check) :
    Makes value (.record properties) (Clear (validateRecord keys checks message)) := by
  intro source result hsource hread
  obtain ⟨-, props, hprops, rfl⟩ := Reader.record_eq_some.mp hread
  exact clear_rebuilt (rebuilt_readProps hnodup hprops) hkeys (hchecks source hsource)

end Records

/-! ## What the readers make -/

section Readers

variable {value : Option JsValue}

theorem makes_ofShape {shape : Shape} {test : JsValue → Prop}
    (htest : ∀ item, shape item = true → test (jsonImage item)) :
    Makes value (.ofShape shape) test := by
  intro source result _ hread
  obtain ⟨hshape, rfl⟩ := Reader.ofShape_eq_some.mp hread
  exact htest source hshape

@[simp] theorem makes_text : Makes value .text (Is Shape.string) := by
  apply makes_ofShape
  intro item hitem
  obtain ⟨text, rfl⟩ := Shape.eq_string hitem
  rfl

theorem makes_text_within {bound : Nat} (hbound : value.all (isWithin bound) = true) :
    Makes value .text (Is (isWithin bound)) := by
  rintro source result rfl hread
  obtain ⟨-, rfl⟩ := Reader.ofShape_eq_some.mp hread
  rw [Is, isWithin, string?_jsonImage]
  exact hbound

@[simp] theorem makes_nonEmptyText : Makes value .nonEmptyText (Is nonEmptyText) := by
  apply makes_ofShape
  intro item hitem
  rw [Is, nonEmptyText, string?_jsonImage]
  exact hitem

@[simp] theorem makes_nonEmptyText_string : Makes value .nonEmptyText (Is Shape.string) := by
  apply makes_ofShape
  intro item hitem
  cases item with
  | string text => rfl
  | _ => contradiction

@[simp] theorem makes_finite : Makes value .finite (Is finite) := by
  apply makes_ofShape
  intro item hitem
  cases item with
  | number n =>
      cases n with
      | finite n => rfl
      | _ => contradiction
  | _ => contradiction

@[simp] theorem makes_boolean : Makes value .boolean (Is Shape.boolean) := by
  apply makes_ofShape
  intro item hitem
  obtain ⟨b, rfl⟩ := Shape.eq_boolean hitem
  rfl

@[simp] theorem makes_literal {texts : List String} :
    Makes value (.literal texts) (Is (Shape.literals texts)) := by
  apply makes_ofShape
  intro item hitem
  obtain ⟨text, -, rfl⟩ := Shape.eq_literal hitem
  exact hitem

theorem array_filterMap {reader : Reader} {shape : Shape}
    (hmakes : ∀ item, Makes (some item) reader (Is shape)) (items : List JsValue) :
    Is (Shape.array shape) (jsonImage (.array (items.filterMap reader))) := by
  rw [jsonImage_array, Is, Shape.array, List.all_map, List.all_eq_true]
  intro item hitem
  obtain ⟨source, -, hread⟩ := List.mem_filterMap.mp hitem
  exact hmakes source rfl hread

@[simp] theorem makes_texts : Makes value .texts (Is (Shape.array Shape.string)) := by
  intro source result _ hread
  obtain ⟨items, -, rfl⟩ := Reader.items_eq_some.mp hread
  exact array_filterMap (fun _ => makes_text) items

@[simp] theorem makes_someTexts : Makes value (.someItems .text) (Is (Shape.array Shape.string)) := by
  intro source result _ hread
  obtain ⟨items, -, -, rfl⟩ := Reader.someItems_eq_some.mp hread
  exact array_filterMap (fun _ => makes_text) items

@[simp] theorem makes_allTexts : Makes value Importer.allTexts (Is (Shape.array Shape.string)) := by
  apply makes_ofShape
  intro item hitem
  obtain ⟨texts, htexts⟩ := Shape.strings?_of_array hitem
  cases item with
  | array items =>
      rw [jsonImage_array, Is, Shape.array, List.all_map]
      refine List.all_eq_true.mpr fun item hmem => ?_
      obtain ⟨text, rfl⟩ := Shape.eq_string (List.all_eq_true.mp hitem item hmem)
      rfl
  | _ => contradiction

theorem makes_someRecord {properties : List Property} {message : String}
    (hnodup : (properties.map Property.name).Nodup)
    (hkeys : ∀ property ∈ properties, property.name ∈ keys)
    (hchecks : ∀ source, value = some source →
      ∀ check ∈ checks, Passes source.props properties check) :
    Makes value (.someRecord properties) (Clear (validateRecord keys checks message)) := by
  intro source result hsource hread
  obtain ⟨record, hrecord, hsome⟩ := Option.bind_eq_some_iff.mp hread
  split at hsome
  · contradiction
  · cases hsome
    exact makes_record hnodup hkeys hchecks hsource hrecord

end Readers

/-! ## Entities -/

section Entities

open Importer

variable {props result : Props} {value : Option JsValue}

@[simp] theorem makes_parseCardMeta : Makes value parseCardMeta (Clear (validateRecord
    ["seq", "source"] [mayBeFinite "seq", mayBeString "source"]
    "must be an object when provided")) :=
  makes_someRecord (by decide) (by decide) (by simp [cardMetaProperties])

@[simp] theorem makes_parseCardKa : Makes value parseCardKa (Clear (validateRecord
    ["voice", "value"] [mayBeString "voice", mayBeString "value"]
    "must be an object when provided")) :=
  makes_someRecord (by decide) (by decide) (by simp [cardKaProperties])

theorem clear_card (hrebuilt : Rebuilt cardProperties props result)
    (htext : (props.get "text").all (isWithin cardTextMaxLength) = true)
    (hcritique : (props.get "critique").all (isWithin critiqueMaxLength) = true) :
    Clear (validateEntity cardKeys cardChecks) (jsonImage (.object result)) := by
  apply clear_rebuilt hrebuilt
  · decide
  · simp [cardChecks, cardProperties, parseClaimType, parseCritiqueTags, makes_text_within htext,
      makes_text_within hcritique]

/-- An end of an edge is a card unless it is an island. -/
theorem gives_kind (name : String) :
    Gives value (.orElse name (.literal ["island"]) (.string "card"))
      (Allowed (Is (Shape.literals ["card", "island"]))) := by
  refine gives_orElse_allowed (makes_ofShape fun item hitem => ?_) rfl
  obtain ⟨text, htext, rfl⟩ := Shape.eq_literal hitem
  rw [List.mem_singleton.mp htext]
  rfl

theorem makes_parseEdge :
    Makes value Importer.parseEdge (Clear (validateEntity edgeKeys edgeChecks)) :=
  makes_record (by decide) (by decide) (by simp [edgeProperties, edgeChecks, gives_kind])

end Entities

/-! ## Geometries and shapes -/

section Outlines

open Importer

variable {platform : Platform}

theorem jsonImage_pointsToJs (points : List Point) :
    jsonImage (pointsToJs points) = pointsToJs points := by
  rw [pointsToJs, jsonImage_array, List.map_map]
  rfl

theorem pointErrors_toJs (point : Point) (path : String) : pointErrors point.toJs path = ([], []) :=
  rfl

variable {points : List Point}

theorem validatePoints_toJs (husable : canUsePolygonPoints platform points = true) (path : String) :
    validatePoints platform (points.map Point.toJs) path = [] := by
  rw [validatePoints, filterMap_readPoint, husable, Bool.or_true, List.append_eq_nil_iff]
  refine ⟨forEach_of_forall fun item hitem index => ?_, rfl⟩
  obtain ⟨point, -, rfl⟩ := List.mem_map.mp hitem
  rw [pointErrors_toJs]
  rfl

theorem length_of_usable (husable : canUsePolygonPoints platform points = true) :
    3 ≤ (points.map Point.toJs).length := by
  rw [canUsePolygonPoints, Bool.and_eq_true, decide_eq_true_eq] at husable
  rw [List.length_map]
  exact husable.1

theorem clear_geometry {geometry : IslandGeometry} (husable : geometry.Usable platform) :
    Clear (validateIslandGeometry platform) (jsonImage geometry.toJs) := by
  intro path
  cases geometry with
  | rect bounds =>
      cases bounds with
      | none => rfl
      | some bounds =>
          obtain ⟨x, y, w, h⟩ := bounds
          cases x <;> cases y <;> cases w <;> cases h <;> rfl
  | polygon points =>
      have himage : jsonImage (IslandGeometry.polygon points).toJs =
          (IslandGeometry.polygon points).toJs := by
        change JsValue.object [("type", _), ("points", some (jsonImage (pointsToJs points)))] = _
        rw [jsonImage_pointsToJs]
        rfl
      rw [himage]
      have hpoints : polygonPoints (IslandGeometry.polygon points).toJs.props =
          some (points.map Point.toJs) := if_pos (length_of_usable husable)
      simp only [validateIslandGeometry, hpoints]
      exact validatePoints_toJs husable _

theorem clear_generatedFrom (generatedFrom : GeneratedFrom) :
    Clear (validateEntity ["cardIds", "versionToken"] generatedFromChecks)
      (jsonImage generatedFrom.toJs) := by
  have himage : jsonImage generatedFrom.toJs = generatedFrom.toJs := by
    change JsValue.object [("cardIds", some (jsonImage (textArray generatedFrom.cardIds))), _] = _
    rw [textArray, jsonImage_array, List.map_map]
    rfl
  have hcardIds : Shape.array Shape.string (textArray generatedFrom.cardIds) = true := by
    rw [textArray, Shape.array, List.all_map, List.all_eq_true]
    exact fun _ _ => rfl
  intro path
  rw [himage, validateEntity, validateRecord_eq_nil]
  refine ⟨rfl, by simp [GeneratedFrom.toJs, objectKeys, Props.names], ?_⟩
  have hget : generatedFrom.toJs.props.get "cardIds" = some (textArray generatedFrom.cardIds) := rfl
  have htoken : generatedFrom.toJs.props.get "versionToken" =
      some (.string generatedFrom.versionToken) := rfl
  simp [generatedFromChecks, hget, htoken, hcardIds, Shape.string]

theorem clear_shape {shape : IslandShape} (husable : shape.outline.Usable platform) :
    Clear (validateIslandShape platform) (jsonImage shape.toJs) := by
  obtain ⟨outline, generatedFrom⟩ := shape
  have hgenerated : ∀ path, whenProvided "generatedFrom"
      (validateEntity ["cardIds", "versionToken"] generatedFromChecks) path
        (Props.json (IslandShape.toJs ⟨outline, generatedFrom⟩).props) = [] := by
    intro path
    rw [whenProvided_eq_nil]
    intro value hvalue
    rw [Props.get_json] at hvalue
    obtain ⟨value, hget, rfl⟩ := Option.map_eq_some_iff.mp hvalue
    have hjoin : (IslandShape.toJs ⟨outline, generatedFrom⟩).props.get "generatedFrom" =
        generatedFrom.join.map GeneratedFrom.toJs := by
      cases outline <;> cases generatedFrom with
      | none => rfl
      | some generatedFrom => cases generatedFrom <;> rfl
    rw [hjoin] at hget
    obtain ⟨generatedFrom, -, rfl⟩ := Option.map_eq_some_iff.mp hget
    exact clear_generatedFrom generatedFrom _
  intro path
  have hkeys : hasOnlyKeys (jsonImage (IslandShape.toJs ⟨outline, generatedFrom⟩))
      ["kind", "points", "generatedFrom"] path = [] := by
    cases outline <;> cases generatedFrom with
    | none => rfl
    | some generatedFrom => cases generatedFrom <;> rfl
  have hkind : (Props.json (IslandShape.toJs ⟨outline, generatedFrom⟩).props).get "kind" =
      outline.toProps.get "kind" := by
    cases outline <;> rfl
  have hpoints : (Props.json (IslandShape.toJs ⟨outline, generatedFrom⟩).props).get "points" =
      outline.toProps.get "points" := by
    rw [Props.get_json]
    cases outline with
    | rect => cases generatedFrom <;> rfl
    | polygon points => exact congrArg some (jsonImage_pointsToJs points)
  have hprops : (jsonImage (IslandShape.toJs ⟨outline, generatedFrom⟩)).props =
      Props.json (IslandShape.toJs ⟨outline, generatedFrom⟩).props := by
    rw [IslandShape.toJs, jsonImage_object]
    rfl
  have hrecord : (jsonImage (IslandShape.toJs ⟨outline, generatedFrom⟩)).isRecord = true := rfl
  rw [validateIslandShape, if_pos hrecord]
  dsimp only
  rw [hkeys, hprops, hkind, hpoints, hgenerated, List.append_nil, List.nil_append]
  cases outline with
  | rect => rfl
  | polygon points =>
      have hpolygon : (Outline.polygon points).toProps.get "kind" = some (.string "polygon") := rfl
      have harray : (Outline.polygon points).toProps.get "points" =
          some (.array (points.map Point.toJs)) := rfl
      have hkinds : isOneOf ["rect", "polygon"] (some (.string "polygon")) = true := rfl
      have hkind : isOneOf ["polygon"] (some (.string "polygon")) = true := rfl
      rw [hpolygon, harray, if_pos hkinds, if_pos hkind]
      dsimp only
      rw [if_pos (length_of_usable husable)]
      exact validatePoints_toJs husable _

end Outlines

section Islands

open Importer

variable {props result : Props} {value : Option JsValue}

theorem makes_parseRepresentativeCue : Makes value parseRepresentativeCue (Clear (validateRecord
    ["kind", "cueId", "altText", "imageRef"] [
      must "kind" (Shape.literals ["hand_drawn", "user_image", "preset_svg", "emoji"])
        "must be 'hand_drawn' | 'user_image' | 'preset_svg' | 'emoji'",
      mustBeString "cueId",
      mustBeString "altText",
      mayBeString "imageRef"] "must be an object when provided")) := by
  intro source result hsource hread
  refine makes_record (nodup_representativeCueProperties (canHaveImageRef source)) ?_ ?_ hsource hread
  · simp [representativeCueProperties]
  · have himageRef : ∀ value canHaveImageRef, Makes value
        (.ofShape fun value => canHaveImageRef && Shape.string value) (Is Shape.string) := by
      intro value canHaveImageRef
      apply makes_ofShape
      intro item hitem
      obtain ⟨text, rfl⟩ := Shape.eq_string (Bool.and_eq_true_iff.mp hitem).2
      rfl
    simp [representativeCueProperties, himageRef]

theorem clear_island {platform : Platform} {outline : IslandGeometry × IslandShape}
    (husable : Usable platform outline) (hrebuilt : Rebuilt (islandProperties outline) props result)
    (htitle : (props.get "title").all (isWithin islandTitleMaxLength) = true)
    (hsummaryText : (props.get "summaryText").all (isWithin islandSummaryMaxLength) = true) :
    Clear (validateEntity islandKeys (islandChecks platform)) (jsonImage (.object result)) := by
  have hcollapsed : ∀ value, Gives value (.orElse "collapsed" .boolean (.bool false))
      (Allowed (Is Shape.boolean)) := fun _ => gives_orElse_allowed makes_boolean rfl
  apply clear_rebuilt hrebuilt
  · simp [islandProperties, islandHeadProperties, islandTailProperties, islandKeys]
  · simp [islandChecks, islandProperties, islandHeadProperties, islandTailProperties,
      parseCritiqueTags, makes_text_within htitle, makes_text_within hsummaryText,
      clear_geometry husable.1, clear_shape husable.2, makes_parseRepresentativeCue, hcollapsed]

end Islands

/-! ## Relation summaries, logs and decisions -/

section Logs

open Importer

variable {value : Option JsValue}

theorem makes_relationType : Makes value relationType
    (Is (Shape.literals (Schema.knownEdgeTypes ++ ["unknown"]))) := by
  intro source result _ hread
  obtain ⟨type, -, rfl⟩ := Option.map_eq_some_iff.mp hread
  rw [jsonImage_string, Is, Shape.literals, List.contains_iff_mem, List.mem_append,
    List.mem_singleton]
  split
  next hknown => simpa using hknown
  next => exact Or.inr rfl

theorem makes_parseRelationSummary : Makes value Importer.parseRelationSummary
    (Clear (validateEntity relationSummaryKeys relationSummaryChecks)) :=
  makes_record (by decide) (by decide)
    (by simp [relationSummaryProperties, relationSummaryChecks, makes_relationType])

theorem makes_finiteProperties {message : String} (hnodup : keys.Nodup) :
    Makes value (.record (finiteProperties keys))
      (Clear (validateRecord keys (keys.map mustBeFinite) message)) := by
  have hnames : (finiteProperties keys).map Property.name = keys := by
    rw [finiteProperties, List.map_map]
    exact List.map_id _
  apply makes_record
  · rwa [hnames]
  · intro property hproperty
    rw [← hnames]
    exact List.mem_map_of_mem hproperty
  · intro source _ check hcheck
    obtain ⟨key, hkey, rfl⟩ := List.mem_map.mp hcheck
    exact passes_must ⟨_, List.mem_map_of_mem hkey, rfl, gives_must makes_finite⟩

theorem makes_parsePatchApplyLogEntry : Makes value parsePatchApplyLogEntry
    (Clear (validateEntity patchApplyLogEntryKeys patchApplyLogEntryChecks)) := by
  have hstats : ∀ value, Makes value parsePatchApplyStats
      (Clear (validateEntity patchApplyStatsKeys (patchApplyStatsKeys.map mustBeFinite))) :=
    fun _ => makes_finiteProperties (by decide)
  have hconflictMeta : ∀ value, Makes value parsePatchConflictMeta
      (Clear (validateRecord patchConflictMetaKeys (patchConflictMetaKeys.map mustBeFinite)
        "must be an object when provided")) :=
    fun _ => makes_finiteProperties (by decide)
  apply makes_record
  · decide
  · decide
  · simp [patchApplyLogEntryProperties, patchApplyLogEntryChecks, hstats, hconflictMeta]

theorem makes_parseMergeSuggestionDecision : Makes value parseMergeSuggestionDecision
    (Clear (validateEntity mergeSuggestionDecisionEntryKeys mergeSuggestionDecisionEntryChecks)) :=
  makes_record (by decide) (by decide)
    (by simp [mergeSuggestionDecisionProperties, mergeSuggestionDecisionEntryChecks,
      mergeSuggestionDecision, decisionLiterals])

theorem makes_parseContradictionSignalDecision : Makes value parseContradictionSignalDecision
    (Clear (validateEntity ["signatureKey", "status", "decidedAt"]
      contradictionSignalDecisionEntryChecks)) :=
  makes_record (by decide) (by decide)
    (by simp [contradictionSignalDecisionProperties, contradictionSignalDecisionEntryChecks])

theorem makes_parseNarrative {item : JsValue}
    (htitle : (item.props.get "title").all (isWithin narrativeTitleMaxLength) = true)
    (htext : (item.props.get "text").all (isWithin narrativeTextMaxLength) = true) :
    Makes (some item) parseNarrative (Clear (validateEntity narrativeKeys narrativeChecks)) := by
  apply makes_record
  · decide
  · decide
  · rintro _ ⟨⟩
    simp [narrativeProperties, narrativeChecks, makes_text_within htitle, makes_text_within htext]

theorem makes_parseOrder : Makes value parseOrder (· = textArray expectedOrder) := by
  intro source result _ hread
  unfold parseOrder at hread
  split at hread
  · split at hread
    · cases hread
      rfl
    · contradiction
  · contradiction

theorem makes_parseDeterministicTieBreak : Makes value parseDeterministicTieBreak
    fun item => validateDeterministicTieBreak item = [] := by
  intro source result hsource hread
  refine makes_record (by decide) (by decide) (fun source _ check hcheck => ?_) hsource hread _
  rcases List.mem_cons.mp hcheck with rfl | hcheck
  · simp [deterministicTieBreakProperties]
  · rw [List.mem_singleton.mp hcheck]
    intro result hrebuilt path
    have horder : Ensures source.props deterministicTieBreakProperties "order"
        (Required (· = textArray expectedOrder)) :=
      ⟨.must "order" parseOrder, by simp [deterministicTieBreakProperties], rfl,
        gives_must makes_parseOrder⟩
    obtain ⟨_, hget, rfl⟩ := horder.get hrebuilt
    dsimp only
    rw [hget]
    rfl

end Logs

end Strict

end KjAtlas
