import KjAtlas.Import.Idempotent
import KjAtlas.Import.StrictParts

/-! # The strict check of imported documents

An imported document passes the strict check, with four exceptions: entries of
`voids`, states of contradicting links, cards with a blank id on the shelf, and
references to providers in the attribution of a review.
-/

namespace KjAtlas

open Js

namespace Strict

/-! ## Lists -/

variable {items : List JsValue} {link : JsValue}

section Lists

variable {reader list : Reader} {validate : JsValue → String → List String}

def Lists (reader list : Reader) : Prop :=
  ∀ ⦃source result⦄, list source = some result →
    ∃ items, source = .array items ∧ result = .array (items.filterMap reader)

theorem lists_items : Lists reader (.items reader) :=
  fun _ _ hread => Reader.items_eq_some.mp hread

theorem lists_someItems : Lists reader (.someItems reader) := by
  intro source result hread
  obtain ⟨items, hsource, -, hresult⟩ := Reader.someItems_eq_some.mp hread
  exact ⟨items, hsource, hresult⟩

theorem forEach_filterMap
    (hmakes : ∀ item ∈ items, Makes (some item) reader (Clear validate)) (path : Nat → String) :
    forEach ((items.filterMap reader).map jsonImage) (fun item index => validate item (path index)) =
      [] := by
  apply forEach_of_forall
  intro image himage index
  obtain ⟨result, hresult, rfl⟩ := List.mem_map.mp himage
  obtain ⟨item, hitem, hread⟩ := List.mem_filterMap.mp hresult
  exact hmakes item hitem rfl hread _

theorem mayBeArray_eq_nil {key path : String} {props : Props}
    {validate : List JsValue → List String} :
    mayBeArray key validate path props = [] ↔
      ∀ value, props.get key = some value → ∃ items, value = .array items ∧ validate items = [] := by
  rw [mayBeArray, whenProvided_eq_nil]
  refine forall₂_congr fun value _ => ?_
  cases value with
  | array items => simp
  | _ => simp

/-- Nothing is reported about a list whose elements are clear. -/
theorem mayBeArray_list {key path : String} {props document : Props} (hlists : Lists reader list)
    (hget : document.get key = (props.get key).bind list)
    (hmakes : ∀ items, props.get key = some (.array items) → ∀ item ∈ items,
      Makes (some item) reader (Clear validate)) (itemPath : Nat → String) :
    mayBeArray key (forEach · fun item index => validate item (itemPath index)) path document.json =
      [] := by
  rw [mayBeArray_eq_nil]
  intro value hvalue
  rw [Props.get_json, hget] at hvalue
  obtain ⟨result, hresult, rfl⟩ := Option.map_eq_some_iff.mp hvalue
  obtain ⟨source, hsource, hresult⟩ := Option.bind_eq_some_iff.mp hresult
  obtain ⟨items, rfl, rfl⟩ := hlists hresult
  exact ⟨_, jsonImage_array _, forEach_filterMap (hmakes items hsource) itemPath⟩

end Lists

/-! ## Records of reviews -/

section Faithful

/-- A shape that the JSON image of a value has when the value has it. -/
def Faithful (shape : Shape) : Prop := ∀ value, shape (jsonImage value) = shape value

variable {shape : Shape} {props : Props} {key : String}

@[simp] theorem any_json (hfaithful : Faithful shape) :
    (props.json.get key).any shape = (props.get key).any shape := by
  rw [Props.get_json]
  cases props.get key with
  | none => rfl
  | some value => exact hfaithful value

@[simp] theorem all_json (hfaithful : Faithful shape) :
    (props.json.get key).all shape = (props.get key).all shape := by
  rw [Props.get_json]
  cases props.get key with
  | none => rfl
  | some value => exact hfaithful value

theorem faithful_of_string? {test : Option String → Bool}
    (hshape : ∀ value, shape value = test value.string?) : Faithful shape := by
  intro value
  rw [hshape, hshape, string?_jsonImage]

@[simp] theorem faithful_string : Faithful Shape.string :=
  @faithful_of_string? _ Option.isSome fun value => by cases value <;> rfl

@[simp] theorem faithful_literals (texts : List String) : Faithful (Shape.literals texts) :=
  @faithful_of_string? _ (Option.any texts.contains) fun value => by cases value <;> rfl

@[simp] theorem faithful_strings : Faithful (Shape.array Shape.string) := by
  intro value
  cases value with
  | number n => cases n <;> rfl
  | array items =>
      rw [jsonImage_array, Shape.array, List.all_map]
      exact congrArg items.all (funext faithful_string)
  | object props => rw [jsonImage_object]; rfl
  | _ => rfl

@[simp] theorem faithful_nonBlank : Faithful nonBlank :=
  faithful_of_string? fun _ => rfl

@[simp] theorem faithful_isoTimestamp (dates : DateFormat) : Faithful (isoTimestamp dates) :=
  faithful_of_string? fun _ => rfl

@[simp] theorem faithful_a1TargetRef : Faithful a1TargetRef :=
  faithful_of_string? fun _ => rfl

@[simp] theorem faithful_opaqueRef : Faithful opaqueRef :=
  faithful_of_string? fun _ => rfl

@[simp] theorem faithful_iteration : Faithful iteration := by
  intro value
  cases value with
  | number n => cases n <;> rfl
  | array items => rw [jsonImage_array]; rfl
  | object props => rw [jsonImage_object]; rfl
  | _ => rfl

end Faithful

section Contracts

variable {dates : DateFormat} {item : JsValue} {value : Option JsValue}

theorem any_nonBlank : value.any nonBlank = isNonEmptyString value := by cases value <;> rfl

theorem any_isoTimestamp : value.any (isoTimestamp dates) = isIsoTimestamp dates value := by
  cases value <;> rfl

theorem any_iteration : value.any iteration = isIteration value := by cases value <;> rfl

theorem any_a1TargetRef : value.any a1TargetRef = isA1TargetRef value := by cases value <;> rfl

theorem all_string : value.all Shape.string = isOptionalString value := by
  cases value with
  | none => rfl
  | some value => cases value <;> rfl

variable {key : String} {props : Props}

theorem isNonEmptyString_json :
    isNonEmptyString (props.json.get key) = isNonEmptyString (props.get key) := by
  rw [← any_nonBlank, ← any_nonBlank, any_json faithful_nonBlank]

variable {texts : List String} {checks : List Check}

theorem isOneOf_json : isOneOf texts (props.json.get key) = isOneOf texts (props.get key) :=
  any_json (faithful_literals texts)

theorem eq_object_of_isOneOf (hone : isOneOf texts (item.props.get key) = true) :
    item = .object item.props := by
  cases item with
  | object props => rfl
  | _ => contradiction

theorem validateRecord_allowed {keys : List String} {message path : String}
    (hobject : item = .object item.props) (hkeys : hasOnlyAllowedKeys item keys = true) :
    validateRecord keys checks message (jsonImage item) path = [] ↔
      ∀ check ∈ checks, check path item.props.json = [] := by
  have himage : jsonImage item = .object item.props.json := by
    rw [← jsonImage_object, ← hobject]
  rw [himage, validateRecord_eq_nil]
  refine ⟨fun hclear => hclear.2.2, fun hchecks => ⟨rfl, fun key hkey => ?_, hchecks⟩⟩
  rw [hobject, hasOnlyAllowedKeys, List.all_eq_true] at hkeys
  have hname : key ∈ Props.names item.props := by
    have hjson : key ∈ Props.names item.props.json := hkey
    rw [Props.names_json] at hjson
    exact (List.filter_sublist.map _).mem hjson
  exact List.contains_iff_mem.mp (hkeys key hname)

theorem clear_allowed {keys : List String} {message : String} (hobject : item = .object item.props)
    (hkeys : hasOnlyAllowedKeys item keys = true)
    (hchecks : ∀ check ∈ checks, ∀ path, check path item.props.json = []) :
    Clear (validateRecord keys checks message) (jsonImage item) :=
  fun path => (validateRecord_allowed hobject hkeys).mpr fun check hcheck => hchecks check hcheck path

theorem clear_critiqueInput (hvalid : validateHilRsCritiqueInput dates item = true) :
    Clear (validateEntity critiqueInputKeys (critiqueInputChecks dates)) (jsonImage item) := by
  simp only [validateHilRsCritiqueInput, Bool.and_eq_true] at hvalid
  obtain ⟨⟨⟨⟨⟨⟨⟨⟨⟨⟨⟨-, hkeys⟩, hversion⟩, hid⟩, htarget⟩, -, hcreatedAt⟩, hiteration⟩, htype⟩,
    hcomment⟩, hhints⟩, -⟩, -⟩ := hvalid
  apply clear_allowed (eq_object_of_isOneOf hversion) hkeys
  rw [isOneOf] at hversion htype
  simp [critiqueInputChecks, any_nonBlank, any_isoTimestamp, any_iteration, any_a1TargetRef,
    all_string, hversion, hid, htarget, hcreatedAt, hiteration, htype, hcomment, hhints]

/-- The JSON image of a payload is a payload, and `null` only for `null`. -/
theorem payload_json
    (hpayload : (decide (props.get key = some .null) || isPlainPayloadObject (props.get key)) =
      true) :
    ∃ image, props.json.get key = some image ∧ payload image = true ∧
      (image = .null ↔ props.get key = some .null) := by
  rw [Bool.or_eq_true, decide_eq_true_eq] at hpayload
  rw [Props.get_json]
  rcases hpayload with hnull | hobject
  · exact ⟨.null, by rw [hnull]; rfl, rfl, by simp [hnull]⟩
  · cases hvalue : props.get key with
    | none => simp [hvalue, isPlainPayloadObject] at hobject
    | some value =>
        cases value with
        | object inner =>
            refine ⟨_, rfl, ?_⟩
            rw [jsonImage_object]
            simp [payload]
        | _ => simp [hvalue, isPlainPayloadObject] at hobject

theorem clear_diffOp (hvalid : validateHilRsDiffOp item = true) :
    Clear validateReproposalDiffOp (jsonImage item) := by
  simp only [validateHilRsDiffOp, Bool.and_eq_true] at hvalid
  obtain ⟨⟨⟨⟨⟨⟨⟨⟨⟨⟨⟨-, hkeys⟩, hid⟩, htype⟩, htarget⟩, -⟩, -⟩, hchange⟩, hbefore⟩, hafter⟩, -⟩,
    hrationale⟩ := hvalid
  obtain ⟨before, hgetBefore, hbefore, hbeforeNull⟩ := payload_json hbefore
  obtain ⟨after, hgetAfter, hafter, hafterNull⟩ := payload_json hafter
  have hnull : ¬before = .null ∨ ¬after = .null := by
    rw [hbeforeNull, hafterNull]
    simpa using hchange
  apply clear_allowed (eq_object_of_isOneOf htype) hkeys
  rw [isOneOf] at htype
  simp [reproposalDiffOpChecks, any_nonBlank, any_a1TargetRef, all_string, hid, htype, htarget,
    hrationale, hgetBefore, hgetAfter, hbefore, hafter, Importer.hasOwn_of_get hgetBefore,
    Importer.hasOwn_of_get hgetAfter, hnull]

theorem clear_reproposalDiff (hvalid : validateHilRsRediffPayload item = true) :
    Clear (validateEntity hilRsRediffAllowedKeys reproposalDiffChecks) (jsonImage item) := by
  simp only [validateHilRsRediffPayload, Bool.and_eq_true] at hvalid
  obtain ⟨⟨⟨⟨⟨⟨⟨-, hkeys⟩, hversion⟩, hid⟩, hiteration⟩, htrace⟩, hrationale⟩, hops⟩ := hvalid
  have hdiffOps : ∀ path, validateDiffOps (item.props.json.get "diffOps") path = [] := by
    intro path
    split at hops
    next ops hget =>
      rw [Bool.and_eq_true, List.all_eq_true] at hops
      rw [Props.get_json, hget, Option.map_some, jsonImage_array]
      cases ops with
      | nil => simp at hops
      | cons op ops =>
          apply forEach_of_forall
          intro image himage index
          rw [← List.map_cons] at himage
          obtain ⟨op, hop, rfl⟩ := List.mem_map.mp himage
          exact clear_diffOp (hops.2 op hop) _
    next => contradiction
  apply clear_allowed (eq_object_of_isOneOf hversion) hkeys
  rw [isOneOf] at hversion
  simp [reproposalDiffChecks, any_nonBlank, any_iteration, all_string, hversion, hid, hiteration,
    htrace, hrationale, hdiffOps]

/-- A reference that names a provider. -/
def HasProviderPrefix (ref : String) : Prop :=
  ∃ start ∈ nonOpaqueRefPrefixes, start.toList <+: ref.toList

/-- A text that shows no person is opaque unless it names a provider. -/
theorem isOpaqueRef_iff {ref : String} (hpii : hasPiiLikeText ref = false) :
    isOpaqueRef ref = true ↔ ¬HasProviderPrefix ref := by
  have hat : ref.toList.contains '@' = false := by
    by_contra hat
    rw [Bool.not_eq_false, List.contains_iff_mem] at hat
    obtain ⟨before, after, hsplit⟩ := List.append_of_mem hat
    rw [hasPiiLikeText, List.any_eq_false] at hpii
    apply hpii ('@' :: after.map Char.toLower)
    · rw [hsplit, List.map_append, List.map_cons, List.mem_tails]
      exact List.suffix_append _ _
    · rfl
  rw [isOpaqueRef, hat, Bool.not_false, Bool.true_and, Bool.not_eq_true', List.any_eq_false]
  simp [HasProviderPrefix]

theorem all_opaqueRef (hpii : (!(props.string? key).any hasPiiLikeText) = true) :
    (props.get key).all opaqueRef = true ↔
      ∀ ref, props.string? key = some ref → ¬HasProviderPrefix ref := by
  rw [Bool.not_eq_true'] at hpii
  have hall : (props.get key).all opaqueRef = (props.string? key).all isOpaqueRef := by
    rw [Props.string?]
    cases props.get key <;> rfl
  rw [hall]
  cases href : props.string? key with
  | none => simp
  | some ref =>
      rw [href] at hpii
      simpa using isOpaqueRef_iff hpii

/-- An attribution that keeps its contract passes unless a reference names a provider. -/
theorem validateReviewAttribution_eq_nil (hvalid : validateHilRsReviewAttribution dates item = true) :
    validateReviewAttribution dates (jsonImage item) = [] ↔
      ∀ key ∈ ["reviewerRef", "ownerRef"], ∀ ref, item.props.string? key = some ref →
        ¬HasProviderPrefix ref := by
  simp only [validateHilRsReviewAttribution, Bool.and_eq_true] at hvalid
  obtain ⟨⟨⟨⟨⟨⟨⟨⟨⟨⟨⟨⟨⟨⟨⟨-, hkeys⟩, hversion⟩, hstate⟩, hreviewer⟩, hreviewerPii⟩, -, hrecordedAt⟩,
    hpolicy⟩, hcontext⟩, howner⟩, hownerPii⟩, hreviewedAt⟩, hreviewedTime⟩, hhuman⟩,
    hunreviewed⟩, -⟩ := hvalid
  rw [validateReviewAttribution, validateEntity,
    validateRecord_allowed (eq_object_of_isOneOf hversion) hkeys]
  rw [isOneOf] at hversion hstate hpolicy
  have htime : isOneOf ["human_reviewed"] (item.props.get "reviewState") = true →
      isIsoTimestamp dates (item.props.get "reviewedAt") = true := by
    intro hreviewed
    rw [hreviewed, Bool.true_and, Bool.not_not] at hhuman
    rcases Bool.or_eq_true_iff.mp hreviewedTime with hnull | htime
    · rw [of_decide_eq_true hnull] at hhuman
      contradiction
    · exact htime
  have hnull : isOneOf ["unreviewed"] (item.props.get "reviewState") = true →
      (item.props.json.get "reviewedAt").any Shape.null = true := by
    intro hstate
    rw [hstate, Bool.true_and, Bool.not_not, decide_eq_true_eq] at hunreviewed
    rw [Props.get_json, hunreviewed]
    rfl
  simp only [List.forall_mem_cons, List.not_mem_nil, false_imp_iff, implies_true, and_true]
  rw [← all_opaqueRef hreviewerPii, ← all_opaqueRef hownerPii]
  simp [reviewAttributionChecks, any_nonBlank, any_isoTimestamp, all_string, hversion, hstate,
    hreviewer, hrecordedAt, hpolicy, hcontext, howner, isNonEmptyString_json, isOneOf_json]
  intro _ _
  exact ⟨htime, hnull⟩

end Contracts

/-! ## Evidence links -/

section Evidence

open Importer

/-- A link that is checked as far as duplicates. -/
structure CheckedLink (link : JsValue) : Prop where
  object : link = .object link.props
  checks : ∀ check ∈ evidenceLinkChecks, ∀ path, check path link.props.json = []

theorem CheckedLink.exists_id (hlink : CheckedLink link) :
    ∃ id, link.props.string? "id" = some id := by
  have hid := hlink.checks (mustBeString "id") (by simp [evidenceLinkChecks]) ""
  rw [must_eq_nil, any_json faithful_string, Option.any_eq_true] at hid
  obtain ⟨value, hget, hvalue⟩ := hid
  obtain ⟨id, rfl⟩ := Shape.eq_string hvalue
  exact ⟨id, by rw [Props.string?, hget]; rfl⟩

theorem duplicateKey_jsonImage (link : JsValue) :
    duplicateKey (jsonImage link) = duplicateKey link := by
  rw [duplicateKey, duplicateKey, props_jsonImage]
  simp only [Props.string?_json]

theorem validateEvidenceLink_checked (hlink : CheckedLink link) (index : Nat) :
    validateEvidenceLink (jsonImage link) index =
      (hasOnlyKeys (jsonImage link) evidenceLinkKeys (elementPath "evidenceLinks" index), true) := by
  have hrecord : (jsonImage link).isRecord = true := by
    rw [hlink.object, jsonImage_object]
    rfl
  have herrors : evidenceLinkChecks.flatMap (fun check =>
      check (elementPath "evidenceLinks" index) (jsonImage link).props) = [] := by
    rw [props_jsonImage, List.flatMap_eq_nil_iff]
    exact fun check hcheck => hlink.checks check hcheck _
  rw [validateEvidenceLink]
  dsimp only
  rw [if_pos hrecord, herrors, List.append_nil, List.isEmpty_nil]

/-- Links with distinct ids and tuples only fail by unknown fields. -/
theorem evidenceLinksErrors_eq_nil {links : List JsValue} (hlinks : ∀ link ∈ links, CheckedLink link)
    (hdistinct : links.Pairwise fun earlier later => sameLink later earlier = false) :
    ∀ {index : Nat} {seenIds seenTuples : List String},
      (∀ link ∈ links, (link.props.string? "id").getD "" ∉ seenIds) →
      (∀ link ∈ links, duplicateKey link ∉ seenTuples) →
        (evidenceLinksErrors index seenIds seenTuples (links.map jsonImage) = [] ↔
          ∀ link ∈ links, ∀ key ∈ objectKeys (jsonImage link), key ∈ evidenceLinkKeys) := by
  induction links with
  | nil => simp [evidenceLinksErrors]
  | cons link links ih =>
      intro index seenIds seenTuples hids htuples
      rw [List.forall_mem_cons] at hlinks hids htuples
      rw [List.pairwise_cons] at hdistinct
      have hid : ((jsonImage link).props.string? "id").getD "" =
          (link.props.string? "id").getD "" := by
        rw [props_jsonImage, Props.string?_json]
      rw [List.map_cons, evidenceLinksErrors, validateEvidenceLink_checked hlinks.1]
      dsimp only
      rw [if_pos rfl, hid, duplicateKey_jsonImage, List.forall_mem_cons,
        List.append_eq_nil_iff, List.append_eq_nil_iff, List.append_eq_nil_iff,
        hasOnlyKeys_eq_nil, report_eq_nil, report_eq_nil, ih hlinks.2 hdistinct.2]
      · simp [hids.1, htuples.1]
      · intro other hother hmem
        rcases List.mem_cons.mp hmem with heq | hseen
        · obtain ⟨id, hlinkId⟩ := hlinks.1.exists_id
          obtain ⟨otherId, hotherId⟩ := (hlinks.2 other hother).exists_id
          have hclash := hdistinct.1 other hother
          rw [hlinkId, hotherId, Option.getD_some, Option.getD_some] at heq
          simp [sameLink, sameText, hlinkId, hotherId, heq] at hclash
        · exact hids.2 other hother hseen
      · intro other hother hmem
        rcases List.mem_cons.mp hmem with heq | hseen
        · have hclash := hdistinct.1 other hother
          simp [sameLink, heq] at hclash
        · exact htuples.2 other hother hseen

theorem get_of_must {properties : List Property} {props result : Props} {name : String}
    {shape : Shape} (hrebuilt : Rebuilt properties props result)
    (hproperty : .must name (.ofShape shape) ∈ properties) :
    ∃ value, props.get name = some value ∧ result.get name = some value ∧ shape value = true := by
  have hread := hrebuilt.read _ hproperty
  obtain ⟨value, hvalue, hresult⟩ := Option.map_eq_some_iff.mp hread
  obtain ⟨source, hsource, hvalue⟩ := Option.bind_eq_some_iff.mp hvalue
  obtain ⟨hshape, rfl⟩ := Reader.ofShape_eq_some.mp hvalue
  exact ⟨source, hsource, hresult.symm, hshape⟩

/-- A link that is read leads from a card to another one. -/
theorem passes_noSelfLink {props : Props} :
    Passes props (evidenceLinkProperties (props.get "fromCardId")) fun path props =>
      report (!strictEquals (props.get "fromCardId") (props.get "toCardId"))
        (path ++ ": self-link is not allowed") := by
  intro result hrebuilt path
  obtain ⟨fromCardId, hsource, hfrom, hfromText⟩ :=
    @get_of_must _ _ _ "fromCardId" Shape.string hrebuilt
      (List.mem_of_getElem? (i := 2) rfl)
  obtain ⟨toCardId, -, hto, htoShape⟩ := @get_of_must _ _ _ "toCardId" _ hrebuilt
    (List.mem_of_getElem? (i := 3) rfl)
  obtain ⟨fromText, rfl⟩ := Shape.eq_string hfromText
  rw [Bool.and_eq_true, hsource, Bool.not_eq_true', decide_eq_false_iff_not] at htoShape
  obtain ⟨toText, rfl⟩ := Shape.eq_string htoShape.1
  rw [report_eq_nil, Props.get_json, Props.get_json, hfrom, hto]
  have hne : fromText ≠ toText := fun heq => htoShape.2 (by rw [heq])
  simp [strictEquals, hne]

variable {item : JsValue}

theorem rebuilt_parseEvidenceLink (hread : Importer.parseEvidenceLink item = some link) :
    ∃ props : Props, link = .object props ∧
      Rebuilt (evidenceLinkProperties (item.props.get "fromCardId")) item.props props := by
  obtain ⟨-, props, hprops, rfl⟩ := Reader.record_eq_some.mp hread
  exact ⟨props, rfl, rebuilt_readProps (nodup_evidenceLinkProperties _) hprops⟩

theorem checked_parseEvidenceLink
    (hnote : (item.props.get "note").all (isWithin evidenceNoteMaxLength) = true)
    (hread : Importer.parseEvidenceLink item = some link) : CheckedLink link := by
  obtain ⟨props, rfl, hrebuilt⟩ := rebuilt_parseEvidenceLink hread
  have hto : ∀ value, Makes value (.ofShape fun value => Shape.string value &&
      !decide (some value = item.props.get "fromCardId")) (Is Shape.string) := by
    intro value
    apply makes_ofShape
    intro toCardId htoCardId
    obtain ⟨text, rfl⟩ := Shape.eq_string (Bool.and_eq_true_iff.mp htoCardId).1
    rfl
  have hpasses : ∀ check ∈ evidenceLinkChecks,
      Passes item.props (evidenceLinkProperties (item.props.get "fromCardId")) check := by
    have hself := @passes_noSelfLink item.props
    simp only [evidenceLinkChecks, List.forall_mem_cons, hself]
    simp [evidenceLinkProperties, makes_text_within hnote, hto]
  exact ⟨rfl, fun check hcheck => hpasses check hcheck hrebuilt⟩

def contradictionStates : List String := ["unconfirmed", "confirmed", "held", "resolved"]

theorem knownFields_parseEvidenceLink (hread : Importer.parseEvidenceLink item = some link) :
    (∀ key ∈ objectKeys (jsonImage link), key ∈ evidenceLinkKeys) ↔
      isOneOf contradictionStates (item.props.get "contradictionState") = false := by
  obtain ⟨props, rfl, hrebuilt⟩ := rebuilt_parseEvidenceLink hread
  have hstate : (item.props.get "contradictionState").bind (Reader.literal contradictionStates) =
      props.get "contradictionState" := by
    have hread := hrebuilt.read (.spreading "contradictionState"
      (.literal contradictionStates)) (List.mem_of_getElem? (i := 6) rfl)
    exact Option.some.inj hread
  have hnone : isOneOf contradictionStates (item.props.get "contradictionState") = false ↔
      props.get "contradictionState" = none := by
    rw [← hstate]
    cases item.props.get "contradictionState" with
    | none => simp [isOneOf]
    | some value => simp [isOneOf, Reader.literal, Reader.ofShape]
  rw [hnone, jsonImage_object]
  constructor
  · intro hknown
    by_contra hget
    exact absurd (hknown _ (Props.mem_names_json.mpr hget)) (by decide)
  · intro hget key hkey
    by_contra hunknown
    refine Props.mem_names_json.mp hkey ?_
    by_cases hname : key ∈ (evidenceLinkProperties (item.props.get "fromCardId")).map Property.name
    · simp only [evidenceLinkProperties, List.map_cons, List.map_nil, Property.name_must,
        Property.name_may, Property.name_spreading, List.mem_cons, List.not_mem_nil, or_false]
        at hname
      simp only [evidenceLinkKeys, List.mem_cons, List.not_mem_nil, or_false] at hunknown
      have hkey : key = "contradictionState" := by tauto
      rw [hkey, hget]
    · exact hrebuilt.closed key hname

end Evidence

/-! ## The shelf -/

variable {shelved : List String}

section Shelf

open Importer

variable {dates : DateFormat}

def elements (props : Props) (key : String) : List JsValue :=
  match props.get key with
  | some (.array items) => items
  | _ => []

theorem elements_eq {props : Props} {key : String} (hget : props.get key = some (.array items)) :
    elements props key = items := by
  rw [elements, hget]

theorem id_shelveCard (shelved : List String) (card : JsValue) :
    (shelveCard shelved card).props.string? "id" = card.props.string? "id" := by
  rw [shelveCard]
  split
  · change Props.string? (Props.put _ _ _) _ = _
    rw [Props.string?_put, if_neg (by decide)]
  · rfl

variable {cards : List JsValue}

/-- A card on the shelf is found, and marked as shelved. -/
theorem exists_cardById {cardId : String} (hknown : cardId ∈ cardIds cards)
    (hshelved : cardId ∈ shelved) :
    ∃ card, (cardById ((cards.map (shelveCard shelved)).map jsonImage)).get? cardId = some card ∧
      card.get "holdState" = some (.string "shelved") := by
  have himage : ∀ card : JsValue, card.props.string? "id" = some cardId →
      jsonImage (shelveCard shelved card) =
        .object (card.props.put "holdState" (some (.string "shelved"))).json := by
    intro card hid
    have hany : (card.props.string? "id").any shelved.contains = true := by
      rw [hid]
      exact List.contains_iff_mem.mpr hshelved
    rw [shelveCard, if_pos hany, jsonImage_object]
  have hentries : ∀ card : Props, (cardId, card) ∈
      ((cards.map (shelveCard shelved)).map jsonImage).filterMap (fun card =>
        if card.isRecord then (card.props.string? "id").map fun id => (id, card.props) else none) ↔
      ∃ source ∈ cards, source.props.string? "id" = some cardId ∧
        card = (source.props.put "holdState" (some (.string "shelved"))).json := by
    intro card
    rw [List.mem_filterMap]
    constructor
    · rintro ⟨image, hmem, hentry⟩
      rw [List.map_map] at hmem
      obtain ⟨source, hsource, rfl⟩ := List.mem_map.mp hmem
      split at hentry
      · obtain ⟨id, hid, heq⟩ := Option.map_eq_some_iff.mp hentry
        rw [Prod.mk.injEq] at heq
        rw [heq.1, Function.comp_apply, props_jsonImage, Props.string?_json, id_shelveCard] at hid
        refine ⟨source, hsource, hid, ?_⟩
        rw [← heq.2, Function.comp_apply, himage source hid]
        rfl
      · contradiction
    · rintro ⟨source, hsource, hid, rfl⟩
      refine ⟨_, List.mem_map_of_mem (List.mem_map_of_mem hsource), ?_⟩
      have hrecord : (jsonImage (shelveCard shelved source)).isRecord = true := by
        rw [himage source hid]
        rfl
      rw [if_pos hrecord, props_jsonImage, Props.string?_json, id_shelveCard, hid, ← props_jsonImage,
        himage source hid]
      rfl
  obtain ⟨source, hsource, hid⟩ := List.mem_filterMap.mp hknown
  obtain ⟨card, hget, hcard⟩ := InsertionMap.exists_get?_ofList
    ⟨_, (hentries _).mpr ⟨source, hsource, hid, rfl⟩⟩
  obtain ⟨source, -, -, rfl⟩ := (hentries card).mp hcard
  refine ⟨_, hget, ?_⟩
  rw [Props.get_json, Props.get_put, if_pos rfl]
  rfl

variable {known : List String}

theorem shelfEntryShape {item entry : JsValue}
    (hread : parseShelfEntry dates known item = some entry) :
    ∃ cardId ∈ known, item.props.get "cardId" = some (.string cardId) ∧
      entry.props.string? "cardId" = some cardId ∧
        (trim cardId ≠ "" → ShelfEntryShape dates (jsonImage entry) cardId) := by
  obtain ⟨-, props, hprops, rfl⟩ := Reader.record_eq_some.mp hread
  have hrebuilt := rebuilt_readProps (nodup_shelfEntryProperties dates known) hprops
  obtain ⟨value, hsource, hcardId, hknown⟩ :=
    @get_of_must _ _ _ "cardId" _ hrebuilt List.mem_cons_self
  obtain ⟨cardId, hmem, rfl⟩ := Shape.eq_literal hknown
  refine ⟨cardId, hmem, hsource, ?_, fun hblank => ?_⟩
  · change Props.string? props _ = _
    rw [Props.string?, hcardId]
    rfl
  · have hshelvedAt : isIsoTimestamp dates (props.json.get "shelvedAt") = true := by
      have hread := hrebuilt.read (.must "shelvedAt" (isoDate dates))
        (List.mem_of_getElem? (i := 1) rfl)
      obtain ⟨date, hdate, hget⟩ := Option.map_eq_some_iff.mp hread
      obtain ⟨source, -, hdate⟩ := Option.bind_eq_some_iff.mp hdate
      obtain ⟨text, -, hdate⟩ := Option.bind_eq_some_iff.mp hdate
      obtain ⟨time, hparse, rfl⟩ := Option.map_eq_some_iff.mp hdate
      rw [Property.name_must] at hget
      rw [Props.get_json, ← hget, Option.map_some, jsonImage_string, isIsoTimestamp,
        Option.bind_some, JsValue.string?, DateFormat.isTimestamp, Option.any_some,
        dates.parse_toISOString hparse]
      rfl
    have hreason : ((props.json.get "reason").all fun reason => reason.string?.isSome) = true := by
      have hread := hrebuilt.read (.whenProvided "reason" .text)
        (List.mem_of_getElem? (i := 2) rfl)
      rw [Property.name_whenProvided] at hread
      rw [Props.get_json]
      cases hsource : item.props.get "reason" with
      | none =>
          rw [hsource] at hread
          rw [← Option.some.inj hread]
          rfl
      | some reason =>
          rw [hsource] at hread
          obtain ⟨text, htext, hget⟩ := Option.map_eq_some_iff.mp hread
          obtain ⟨hstring, rfl⟩ := Reader.ofShape_eq_some.mp htext
          obtain ⟨text, rfl⟩ := Shape.eq_string hstring
          rw [← hget]
          rfl
    have hfields := @fields_rebuilt _ _ ["cardId", "shelvedAt", "reason"] _ hrebuilt
      (by simp [shelfEntryProperties])
    rw [jsonImage_object] at hfields ⊢
    refine ⟨rfl, hfields, ?_, hblank, hshelvedAt, hreason⟩
    change Props.string? props.json _ = _
    rw [Props.string?_json, Props.string?, hcardId]
    rfl

theorem exists_of_forall₂ {α β : Type} {R : α → β → Prop} {items : List α} {others : List β}
    (hitems : List.Forall₂ R items others) {item : α} (hitem : item ∈ items) :
    ∃ other, R item other := by
  induction hitems with
  | nil => exact absurd hitem List.not_mem_nil
  | cons hhead _ ih =>
      rcases List.mem_cons.mp hitem with rfl | htail
      · exact ⟨_, hhead⟩
      · exact ih htail

theorem mem_elements {props : Props} {key : String} {item : JsValue}
    (hitem : item ∈ elements props key) :
    ∃ items, props.get key = some (.array items) ∧ item ∈ items := by
  unfold elements at hitem
  split at hitem
  next items hget => exact ⟨items, hget, hitem⟩
  next => exact absurd hitem List.not_mem_nil

def keptEntries (dates : DateFormat) (known : List String) (items : List JsValue) : List JsValue :=
  keepFirst (sameText "cardId") (items.filterMap (parseShelfEntry dates known))

theorem parseShelf_eq_some {value shelf : JsValue} :
    parseShelf dates known value = some shelf ↔ ∃ items, value = .array items ∧
      keptEntries dates known items ≠ [] ∧ shelf = .array (keptEntries dates known items) :=
  Reader.someDistinctItems_eq_some

theorem forall_keptEntries {p : String → Prop} :
    (∀ entry ∈ keptEntries dates known items, ∀ cardId,
        entry.props.string? "cardId" = some cardId → p cardId) ↔
      ∀ item ∈ items, ∀ entry, parseShelfEntry dates known item = some entry → ∀ cardId,
        item.props.string? "cardId" = some cardId → p cardId := by
  constructor
  · intro hkept item hitem entry hread cardId hcardId
    obtain ⟨kept, hmem, hclash⟩ := @exists_keepFirst _ (sameText "cardId") _ _
      (List.mem_filterMap.mpr ⟨item, hitem, hread⟩)
    obtain ⟨id, -, hid, hentryId, -⟩ := shelfEntryShape hread
    have hown : entry.props.string? "cardId" = some cardId := by
      rw [hentryId, ← hcardId, Props.string?, hid]
      rfl
    rcases hclash with rfl | hclash
    · exact hkept kept hmem cardId hown
    · exact hkept kept hmem cardId ((of_decide_eq_true hclash).symm.trans hown)
  · intro hitems entry hentry cardId hcardId
    obtain ⟨item, hitem, hread⟩ := List.mem_filterMap.mp ((keepFirst_sublist _).mem hentry)
    obtain ⟨id, -, hid, hentryId, -⟩ := shelfEntryShape hread
    refine hitems item hitem entry hread cardId ?_
    rw [← hcardId, hentryId, Props.string?, hid]
    rfl

/-- The shelf of an imported document passes unless it names a blank card. -/
theorem shelfErrors_document {platform : Platform} {value document : Props}
    (hshelf : document.get "shelf" = shelfOf platform value cards) (hcards : document.get "cards" =
      some (.array (cards.map (shelveCard (shelvedCardIds (shelfOf platform value cards)))))) :
    shelfErrors platform.dates document.json = [] ↔
      ∀ item ∈ elements value "shelf", ∀ entry,
        parseShelfEntry platform.dates (cardIds cards) item = some entry → ∀ cardId,
          item.props.string? "cardId" = some cardId → trim cardId ≠ "" := by
  rw [← forall_keptEntries, shelfErrors, Props.get_json, Props.get_json, hshelf, hcards]
  cases hshelfOf : shelfOf platform value cards with
  | none =>
      have hnone : keptEntries platform.dates (cardIds cards) (elements value "shelf") = [] := by
        by_contra hkept
        obtain ⟨entry, hentry⟩ := List.exists_mem_of_ne_nil _ hkept
        obtain ⟨item, hitem, -⟩ := List.mem_filterMap.mp ((keepFirst_sublist _).mem hentry)
        obtain ⟨items, hget, -⟩ := mem_elements hitem
        rw [elements_eq hget] at hkept
        rw [shelfOf, hget, Option.bind_some, parseShelf_eq_some.mpr ⟨items, rfl, hkept, rfl⟩]
          at hshelfOf
        contradiction
      simp [hnone]
  | some shelf =>
      obtain ⟨source, hsource, hread⟩ := Option.bind_eq_some_iff.mp hshelfOf
      obtain ⟨items, rfl, -, rfl⟩ := parseShelf_eq_some.mp hread
      rw [elements_eq hsource, Option.map_some, Option.map_some, jsonImage_array, jsonImage_array]
      dsimp only
      have hentries : ∀ entry ∈ keptEntries platform.dates (cardIds cards) items,
          ∃ cardId ∈ cardIds cards, entry.props.string? "cardId" = some cardId ∧
            (trim cardId ≠ "" → ShelfEntryShape platform.dates (jsonImage entry) cardId) := by
        intro entry hentry
        obtain ⟨item, -, hread⟩ := List.mem_filterMap.mp ((keepFirst_sublist _).mem hentry)
        obtain ⟨cardId, hknown, -, hcardId, hshape⟩ := shelfEntryShape hread
        exact ⟨cardId, hknown, hcardId, hshape⟩
      rw [shelfEntriesErrors_eq_nil]
      constructor
      · rintro ⟨ids, hshapes, -⟩ entry hentry cardId hcardId
        obtain ⟨id, hshape⟩ := exists_of_forall₂ hshapes (List.mem_map_of_mem hentry)
        have hid := hshape.cardId_eq
        rw [props_jsonImage, Props.string?_json, hcardId, Option.some.injEq] at hid
        rw [hid]
        exact hshape.cardId_ne
      · intro hblank
        let cardIdOf (entry : JsValue) := (entry.props.string? "cardId").getD ""
        refine ⟨(keptEntries platform.dates (cardIds cards) items).map cardIdOf, ?_, ?_, ?_, ?_⟩
        · rw [List.forall₂_map_left_iff, List.forall₂_map_right_iff, List.forall₂_same]
          intro entry hentry
          obtain ⟨cardId, -, hcardId, hshape⟩ := hentries entry hentry
          dsimp only [cardIdOf]
          rw [hcardId]
          exact hshape (hblank entry hentry cardId hcardId)
        · rw [List.Nodup, List.pairwise_map]
          refine List.Pairwise.imp_of_mem ?_ (pairwise_keepFirst _)
          intro earlier later hearlier hlater hclash heq
          obtain ⟨cardId, -, hcardId, -⟩ := hentries earlier hearlier
          obtain ⟨other, -, hother, -⟩ := hentries later hlater
          dsimp only [cardIdOf] at heq
          rw [hcardId, hother, Option.getD_some, Option.getD_some] at heq
          rw [sameText, hcardId, hother, heq, decide_eq_false_iff_not] at hclash
          exact hclash rfl
        · exact fun _ _ => List.not_mem_nil
        · intro cardId hmem
          obtain ⟨entry, hentry, rfl⟩ := List.mem_map.mp hmem
          obtain ⟨cardId, hknown, hcardId, -⟩ := hentries entry hentry
          dsimp only [cardIdOf]
          rw [hcardId]
          exact exists_cardById hknown (List.mem_filterMap.mpr ⟨entry, hentry, hcardId⟩)

end Shelf

/-! ## Documents -/

section Documents

open Importer

/-- The texts of a document are within the bounds of the check. -/
structure TextsWithinBounds (value : Props) : Prop where
  title : (value.get "title").all (isWithin documentTitleMaxLength) = true
  cardText : ∀ card ∈ elements value "cards",
    (card.props.get "text").all (isWithin cardTextMaxLength) = true
  cardCritique : ∀ card ∈ elements value "cards",
    (card.props.get "critique").all (isWithin critiqueMaxLength) = true
  islandTitle : ∀ island ∈ elements value "islands",
    (island.props.get "title").all (isWithin islandTitleMaxLength) = true
  islandSummary : ∀ island ∈ elements value "islands",
    (island.props.get "summaryText").all (isWithin islandSummaryMaxLength) = true
  narrativeTitle : ∀ narrative ∈ elements value "narratives",
    (narrative.props.get "title").all (isWithin narrativeTitleMaxLength) = true
  narrativeText : ∀ narrative ∈ elements value "narratives",
    (narrative.props.get "text").all (isWithin narrativeTextMaxLength) = true
  evidenceNote : ∀ link ∈ elements value "evidenceLinks",
    (link.props.get "note").all (isWithin evidenceNoteMaxLength) = true

def keptLinks (items : List JsValue) : List JsValue :=
  keepFirst sameLink (items.filterMap Importer.parseEvidenceLink)

/-- A value that has nothing of what the importer keeps and the check refuses. -/
structure GateReady (platform : Platform) (value : Props) : Prop where
  /-- No entry of `voids` can be read. -/
  voids : ∀ item ∈ elements value "voids", parseVoid platform.dates item = none
  /-- A link with a state is left out as a duplicate of a link before it. -/
  states : ∀ before item after, elements value "evidenceLinks" = before ++ item :: after →
    ∀ link, Importer.parseEvidenceLink item = some link →
      isOneOf contradictionStates (item.props.get "contradictionState") = true →
        (keptLinks before).any (sameLink link) = true
  /-- No entry of the shelf that can be read names a card with a blank id. -/
  shelf : ∀ item ∈ elements value "shelf", ∀ entry,
    parseShelfEntry platform.dates (cardIds (elements value "cards")) item = some entry →
      ∀ cardId, item.props.string? "cardId" = some cardId → trim cardId ≠ ""
  /-- An attribution that keeps its contract names no provider. -/
  attribution : ∀ attribution, value.get "reviewAttribution" = some attribution →
    validateHilRsReviewAttribution platform.dates attribution = true →
      ∀ key ∈ ["reviewerRef", "ownerRef"], ∀ ref, attribution.props.string? key = some ref →
        ¬HasProviderPrefix ref

variable {platform : Platform} {now : String} {value document : Props} {transform : JsValue}
  {cards : List JsValue} {source : JsValue}

theorem cardIds_parseCards (hsource : value.get "cards" = some source)
    (hread : parseCards source = some cards) :
    cardIds (elements value "cards") = cardIds cards := by
  cases source with
  | array items =>
      rw [elements_eq hsource]
      have hids : cards.map (fun card => card.props.string? "id") =
          items.map fun card => card.props.string? "id" := by
        refine map_of_mapM hread fun item card hcard => ?_
        obtain ⟨-, props, hprops, rfl⟩ := Reader.record_eq_some.mp hcard
        obtain ⟨id, hsourceId, hid, -⟩ := @get_of_must _ _ _ "id" Shape.string
          (rebuilt_readProps nodup_cardProperties hprops) List.mem_cons_self
        change Props.string? props "id" = _
        rw [Props.string?, Props.string?, hid, hsourceId]
      have hfilter := congrArg (List.filterMap id) hids
      rw [List.filterMap_map, List.filterMap_map] at hfilter
      exact hfilter.symm
  | _ => contradiction

theorem voids_document (hvoids : document.get "voids" =
    (value.get "voids").bind (parseVoids platform.dates)) :
    document.get "voids" = none ↔
      ∀ item ∈ elements value "voids", parseVoid platform.dates item = none := by
  rw [hvoids]
  constructor
  · intro hnone item hitem
    obtain ⟨items, hget, hmem⟩ := mem_elements hitem
    by_contra hread
    obtain ⟨entry, hentry⟩ := Option.ne_none_iff_exists'.mp hread
    obtain ⟨kept, hkept, -⟩ := @exists_keepFirst _ (sameText "id") _ _
      (List.mem_filterMap.mpr ⟨item, hmem, hentry⟩)
    rw [hget, Option.bind_some, parseVoids,
      Reader.someDistinctItems_eq_some.mpr ⟨items, rfl, List.ne_nil_of_mem hkept, rfl⟩] at hnone
    contradiction
  · intro hall
    by_contra hsome
    obtain ⟨voids, hread⟩ := Option.ne_none_iff_exists'.mp hsome
    obtain ⟨source, hget, hread⟩ := Option.bind_eq_some_iff.mp hread
    obtain ⟨items, rfl, hkept, -⟩ := Reader.someDistinctItems_eq_some.mp hread
    obtain ⟨entry, hentry⟩ := List.exists_mem_of_ne_nil _ hkept
    obtain ⟨item, hitem, hread⟩ := List.mem_filterMap.mp ((keepFirst_sublist _).mem hentry)
    rw [hall item (by rwa [elements_eq hget])] at hread
    contradiction

theorem mem_keptLinks :
    link ∈ keptLinks items ↔ ∃ before item after, items = before ++ item :: after ∧
      Importer.parseEvidenceLink item = some link ∧
        (keptLinks before).any (sameLink link) = false := by
  rw [keptLinks, mem_keepFirst]
  constructor
  · rintro ⟨before, after, hsplit, hnew⟩
    obtain ⟨first, rest, rfl, rfl, hrest⟩ := List.filterMap_eq_append_iff.mp hsplit
    obtain ⟨skipped, item, tail, rfl, hskipped, hread, -⟩ := List.filterMap_eq_cons_iff.mp hrest
    refine ⟨first ++ skipped, item, tail, by simp, hread, ?_⟩
    rwa [keptLinks, List.filterMap_append, List.filterMap_eq_nil_iff.mpr hskipped, List.append_nil]
  · rintro ⟨before, item, after, rfl, hread, hnew⟩
    refine ⟨before.filterMap Importer.parseEvidenceLink,
      after.filterMap Importer.parseEvidenceLink, ?_, hnew⟩
    rw [List.filterMap_append, List.filterMap_cons, hread]

theorem evidenceLinks_document (hnotes : ∀ link ∈ elements value "evidenceLinks",
      (link.props.get "note").all (isWithin evidenceNoteMaxLength) = true)
    (hlinks : document.get "evidenceLinks" =
      some (((value.get "evidenceLinks").bind Importer.parseEvidenceLinks).getD (.array []))) :
    mayBeArray "evidenceLinks" (evidenceLinksErrors 0 [] []) "document" document.json = [] ↔
      ∀ before item after, elements value "evidenceLinks" = before ++ item :: after →
        ∀ link, Importer.parseEvidenceLink item = some link →
          isOneOf contradictionStates (item.props.get "contradictionState") = true →
            (keptLinks before).any (sameLink link) = true := by
  rw [mayBeArray_eq_nil, Props.get_json, hlinks]
  cases hread : (value.get "evidenceLinks").bind Importer.parseEvidenceLinks with
  | none =>
      refine iff_of_true ?_ ?_
      · rintro _ ⟨⟩
        exact ⟨[], rfl, rfl⟩
      · intro before item after hsplit
        obtain ⟨items, hget, -⟩ := @mem_elements value "evidenceLinks" item (by simp [hsplit])
        rw [hget] at hread
        contradiction
  | some links =>
      obtain ⟨source, hget, hread⟩ := Option.bind_eq_some_iff.mp hread
      obtain ⟨items, rfl, rfl⟩ := Reader.distinctItems_eq_some.mp hread
      rw [elements_eq hget] at hnotes ⊢
      have hchecked : ∀ link ∈ keptLinks items, CheckedLink link := by
        intro link hlink
        obtain ⟨item, hitem, hread⟩ := List.mem_filterMap.mp ((keepFirst_sublist _).mem hlink)
        exact checked_parseEvidenceLink (hnotes item hitem) hread
      have hnil : (∀ value, some (jsonImage (.array (keptLinks items))) = some value →
          ∃ items, value = .array items ∧ evidenceLinksErrors 0 [] [] items = []) ↔
          ∀ link ∈ keptLinks items, ∀ key ∈ objectKeys (jsonImage link),
            key ∈ evidenceLinkKeys := by
        rw [← @evidenceLinksErrors_eq_nil _ hchecked (pairwise_keepFirst _) 0 [] []
          (fun _ _ => List.not_mem_nil) (fun _ _ => List.not_mem_nil), jsonImage_array]
        simp
      refine hnil.trans ?_
      constructor
      · intro hknown before item after hsplit link hread hstate
        by_contra hnew
        rw [Bool.not_eq_true] at hnew
        have hkept := mem_keptLinks.mpr ⟨before, item, after, hsplit, hread, hnew⟩
        rw [(knownFields_parseEvidenceLink hread).mp (hknown link hkept)] at hstate
        contradiction
      · intro hdropped link hlink
        obtain ⟨before, item, after, hsplit, hread, hnew⟩ := mem_keptLinks.mp hlink
        rw [knownFields_parseEvidenceLink hread, ← Bool.not_eq_true]
        intro hstate
        rw [hdropped before item after hsplit link hread hstate] at hnew
        contradiction

theorem reviewAttribution_document (hattribution : document.get "reviewAttribution" =
    (value.get "reviewAttribution").bind (parseReviewAttribution platform.dates)) :
    whenProvided "reviewAttribution" (fun value _ => validateReviewAttribution platform.dates value)
        "document" document.json = [] ↔
      ∀ attribution, value.get "reviewAttribution" = some attribution →
        validateHilRsReviewAttribution platform.dates attribution = true →
          ∀ key ∈ ["reviewerRef", "ownerRef"], ∀ ref, attribution.props.string? key = some ref →
            ¬HasProviderPrefix ref := by
  rw [whenProvided_eq_nil, Props.get_json, hattribution]
  cases value.get "reviewAttribution" with
  | none => simp
  | some attribution =>
      rw [Option.bind_some]
      by_cases hvalid : validateHilRsReviewAttribution platform.dates attribution = true
      · rw [parseReviewAttribution, Reader.ofShape_eq_some.mpr ⟨hvalid, rfl⟩]
        constructor
        · rintro hnil _ ⟨⟩ -
          exact (validateReviewAttribution_eq_nil hvalid).mp (hnil _ rfl)
        · rintro hrefs _ ⟨⟩
          exact (validateReviewAttribution_eq_nil hvalid).mpr (hrefs _ rfl hvalid)
      · have hnone : parseReviewAttribution platform.dates attribution = none := if_neg hvalid
        rw [hnone]
        constructor
        · rintro - _ ⟨⟩ hother
          exact absurd hother hvalid
        · intro _ ref href
          cases href

theorem mustBeArray_map {key path : String} {validate : JsValue → Nat → List String}
    (hget : document.get key = some (.array items))
    (hitems : ∀ item ∈ items, ∀ index, validate (jsonImage item) index = []) :
    mustBeArray key validate path document.json = [] := by
  rw [mustBeArray, Props.get_json, hget, Option.map_some, jsonImage_array]
  apply forEach_of_forall
  intro image himage
  obtain ⟨item, hitem, rfl⟩ := List.mem_map.mp himage
  exact hitems item hitem

theorem cards_document (hbounds : TextsWithinBounds value)
    (hsource : value.get "cards" = some source) (hread : parseCards source = some cards)
    (hget : document.get "cards" = some (.array (cards.map (shelveCard shelved)))) :
    mustBeArray "cards" validateCard "document" document.json = [] := by
  cases source with
  | array items =>
      refine mustBeArray_map hget fun marked hmarked => ?_
      obtain ⟨card, hcard, rfl⟩ := List.mem_map.mp hmarked
      revert card
      refine forall_of_mapM hread fun item hitem card hcard _ index => ?_
      obtain ⟨-, props, hprops, rfl⟩ := Reader.record_eq_some.mp hcard
      have hrebuilt := rebuilt_readProps nodup_cardProperties hprops
      have hmem : item ∈ elements value "cards" := by rwa [elements_eq hsource]
      rw [shelveCard]
      split
      · have hput := @Rebuilt.put _ _ _ hrebuilt (.may "holdState"
          (.literal ["held", "pending", "shelved"])) (by simp [cardProperties])
          (some (.string "shelved")) (some (.string "shelved")) rfl
        refine clear_card hput ?_ ?_ _
        · rw [Property.name_may, Props.get_put, if_neg (by decide)]
          exact hbounds.cardText item hmem
        · rw [Property.name_may, Props.get_put, if_neg (by decide)]
          exact hbounds.cardCritique item hmem
      · exact clear_card hrebuilt (hbounds.cardText item hmem) (hbounds.cardCritique item hmem) _
  | _ => contradiction

theorem islands_document (hbounds : TextsWithinBounds value)
    (hsource : value.get "islands" = some (.array items))
    (hget : document.get "islands" = (value.get "islands").bind (parseIslands platform)) :
    mustBeArray "islands" (validateIsland platform) "document" document.json = [] := by
  rw [hsource, Option.bind_some, parseIslands] at hget
  refine mustBeArray_map hget fun resolved hresolved index => ?_
  obtain ⟨island, hisland, rfl⟩ := List.mem_map.mp hresolved
  obtain ⟨item, hitem, hread⟩ := List.mem_filterMap.mp hisland
  obtain ⟨-, props, hprops, rfl⟩ := Reader.record_eq_some.mp hread
  have hnodup : ((islandProperties (outlineOf platform item.props)).map Property.name).Nodup := by
    simp [islandProperties, islandHeadProperties, islandTailProperties]
  have hrebuilt := rebuilt_readProps hnodup hprops
  have husable := usable_outlineOf platform item.props
  have hmem : item ∈ elements value "islands" := by rwa [elements_eq hsource]
  unfold resolveParent
  dsimp only
  split
  · exact clear_island husable hrebuilt (hbounds.islandTitle item hmem)
      (hbounds.islandSummary item hmem) _
  next =>
    generalize resolveParentIslandId _ _ _ = parent
    have hparent : (Property.may "parentIslandId" Reader.text).read (parent.map .string) =
        some (parent.map .string) := by
      cases parent <;> rfl
    have hput := hrebuilt.put (by simp [islandProperties, islandHeadProperties]) hparent
    refine clear_island husable hput ?_ ?_ _
    · rw [Property.name_may, Props.get_put, if_neg (by decide)]
      exact hbounds.islandTitle item hmem
    · rw [Property.name_may, Props.get_put, if_neg (by decide)]
      exact hbounds.islandSummary item hmem

theorem knownFields_document (hother : ∀ key ∉ documentKeys, key ≠ "voids" →
    document.get key = none) :
    (∀ key ∈ objectKeys (.object document.json), key ∈ documentKeys) ↔
      document.get "voids" = none := by
  constructor
  · intro hknown
    by_contra hvoids
    exact absurd (hknown _ (Props.mem_names_json.mpr hvoids)) (by decide)
  · intro hvoids key hkey
    by_contra hunknown
    refine Props.mem_names_json.mp hkey ?_
    by_cases hname : key = "voids"
    · rw [hname, hvoids]
    · exact hother key hunknown hname

theorem optional_document {key : String} {reader list : Reader}
    {validate : JsValue → String → List String}
    (hparts : DocumentParts platform now value transform cards document)
    (hentry : (key, list) ∈ optionalReaders platform) (hlists : Lists reader list)
    (hmakes : ∀ item ∈ elements value key, Makes (some item) reader (Clear validate))
    (itemPath : Nat → String) :
    mayBeArray key (forEach · fun item index => validate item (itemPath index)) "document"
      document.json = [] := by
  apply mayBeArray_list hlists (hparts.optional _ hentry)
  intro items hitems
  rwa [elements_eq hitems] at hmakes

theorem all_of_allowed {shape : Shape} {item : Option JsValue} (hallowed : Allowed (Is shape) item) :
    item.all shape = true := by
  cases item with
  | none => rfl
  | some item => exact hallowed item rfl

theorem exists_parseIsoDate (date : Option JsValue) (fallback : String) :
    ∃ text, some (parseIsoDate platform date fallback) = some (.string text) := by
  rw [parseIsoDate]
  cases hdate : date.bind (isoDate platform.dates) with
  | none => exact ⟨fallback, rfl⟩
  | some result =>
      obtain ⟨_, -, hread⟩ := Option.bind_eq_some_iff.mp hdate
      obtain ⟨_, -, hread⟩ := Option.bind_eq_some_iff.mp hread
      obtain ⟨_, -, rfl⟩ := Option.map_eq_some_iff.mp hread
      exact ⟨_, rfl⟩

theorem mustBeString_document {key path : String} {text : String}
    (hget : document.get key = some (.string text)) : mustBeString key path document.json = [] := by
  rw [must_eq_nil, Props.get_json, hget]
  rfl

/-- Only three checks of an imported document can fail. -/
theorem checks_document (hbounds : TextsWithinBounds value) (hsource : source.props = value)
    (hvalue : Accepted source transform cards)
    (hparts : DocumentParts platform now value transform cards document) :
    (∀ check ∈ documentChecks platform, check "document" document.json = []) ↔
      shelfErrors platform.dates document.json = [] ∧
        mayBeArray "evidenceLinks" (evidenceLinksErrors 0 [] []) "document" document.json = [] ∧
          whenProvided "reviewAttribution"
            (fun value _ => validateReviewAttribution platform.dates value) "document"
              document.json = [] := by
  subst hsource
  obtain ⟨id, hid⟩ := hvalue.id
  obtain ⟨viewSource, -, hview⟩ := Option.bind_eq_some_iff.mp hvalue.transform
  obtain ⟨cardsSource, hcardsSource, hcards⟩ := Option.bind_eq_some_iff.mp hvalue.cards
  obtain ⟨edges, hedges⟩ := hvalue.edges
  obtain ⟨islands, hislands⟩ := hvalue.islands
  have hversion : must "version" (fun value => decide (value = .number .one))
      "must be the number 1 (DocumentV1 only)" "document" document.json = [] := by
    rw [must_eq_nil, Props.get_json, hparts.version]
    rfl
  have htitle : ∀ shape message, Makes (source.props.get "title") .text (Is shape) →
      may "title" shape message "document" document.json = [] := by
    intro shape message hmakes
    rw [may_eq_nil, Props.get_json, hparts.title]
    exact all_of_allowed (allowed_bind hmakes)
  obtain ⟨createdAt, hcreatedAt⟩ : ∃ text, document.get "createdAt" = some (.string text) := by
    rw [hparts.createdAt]
    exact exists_parseIsoDate _ now
  obtain ⟨updatedAt, hupdatedAt⟩ : ∃ text, document.get "updatedAt" = some (.string text) := by
    rw [hparts.updatedAt]
    exact exists_parseIsoDate _ now
  have htransform : mustBeRecord "transform" ["panX", "panY", "zoom"]
      [mustBeFinite "panX", mustBeFinite "panY", mustBeFinite "zoom"] "document" document.json =
        [] := by
    have hmakes : Makes (some viewSource) parseTransform (Clear (validateEntity
        ["panX", "panY", "zoom"] [mustBeFinite "panX", mustBeFinite "panY", mustBeFinite "zoom"])) :=
      makes_record (by decide) (by decide) (by simp [transformProperties])
    rw [mustBeRecord, Props.get_json, hparts.transform]
    exact hmakes rfl hview _
  have hedgesCheck : mustBeArray "edges" validateEdge "document" document.json = [] := by
    have hget := hparts.edges
    rw [hedges, Option.bind_some, parseEdges, Reader.items] at hget
    refine mustBeArray_map hget fun edge hedge index => ?_
    obtain ⟨item, -, hread⟩ := List.mem_filterMap.mp hedge
    exact makes_parseEdge rfl hread _
  have horder : mayBeStrings "readingOrder" "document" document.json = [] := by
    have hallowed : Allowed (Is (Shape.array Shape.string)) (document.json.get "readingOrder") := by
      rw [Props.get_json,
        hparts.optional ("readingOrder", parseReadingOrder) (by simp [optionalReaders])]
      exact allowed_bind makes_someTexts
    rw [mayBeStrings_eq_nil]
    exact all_of_allowed hallowed
  have hsome : ∀ {key : String} {reader : Reader} {validate : JsValue → String → List String},
      (key, .someItems reader) ∈ optionalReaders platform →
      (∀ item ∈ elements source.props key, Makes (some item) reader (Clear validate)) →
        mayBeArray key (forEach · fun item index => validate item (elementPath key index))
          "document" document.json = [] :=
    fun hentry hmakes => optional_document hparts hentry lists_someItems hmakes _
  have hall : ∀ {key : String} {shape : Shape} {validate : JsValue → String → List String},
      (key, .items (.ofShape shape)) ∈ optionalReaders platform →
      (∀ {item}, shape item = true → Clear validate (jsonImage item)) →
        mayBeArray key (forEach · fun item index => validate item (elementPath key index))
          "document" document.json = [] :=
    fun hentry hclear => optional_document hparts hentry lists_items
      (fun _ _ => makes_ofShape fun _ => hclear) _
  have htieBreak : whenProvided "deterministicTieBreak"
      (fun value _ => validateDeterministicTieBreak value) "document" document.json = [] := by
    rw [whenProvided_eq_nil]
    intro item hitem
    rw [Props.get_json, hparts.optional ("deterministicTieBreak", parseDeterministicTieBreak)
      (by simp [optionalReaders])] at hitem
    exact allowed_bind makes_parseDeterministicTieBreak item hitem
  simp only [documentChecks, List.forall_mem_cons]
  constructor
  · rintro ⟨-, -, -, -, -, -, -, -, -, -, -, -, hshelf, -, hlinks, -, -, -, -, -, hattribution, -⟩
    exact ⟨hshelf, hlinks, hattribution⟩
  · rintro ⟨hshelf, hlinks, hattribution⟩
    refine ⟨hversion, mustBeString_document (hparts.id.trans hid), htitle _ _ makes_text,
      htitle _ _ (makes_text_within hbounds.title), mustBeString_document hcreatedAt,
      mustBeString_document hupdatedAt, htransform,
      cards_document hbounds hcardsSource hcards hparts.cards, hedgesCheck,
      islands_document hbounds hislands hparts.islands, horder, ?_, hshelf, ?_, hlinks, ?_, ?_, ?_,
      ?_, ?_, hattribution, htieBreak, fun _ hcheck => absurd hcheck List.not_mem_nil⟩
    · exact hsome (by simp [optionalReaders, parseNarratives]) fun item hitem =>
        makes_parseNarrative (hbounds.narrativeTitle item hitem) (hbounds.narrativeText item hitem)
    · exact hsome (by simp [optionalReaders, parseRelationSummaries]) fun _ _ =>
        makes_parseRelationSummary
    · exact hsome (by simp [optionalReaders, parsePatchApplyLog]) fun _ _ =>
        makes_parsePatchApplyLogEntry
    · exact hsome (by simp [optionalReaders, parseMergeSuggestionDecisions]) fun _ _ =>
        makes_parseMergeSuggestionDecision
    · exact hsome (by simp [optionalReaders, parseContradictionSignalDecisions]) fun _ _ =>
        makes_parseContradictionSignalDecision
    · exact hall (by simp [optionalReaders, parseCritiqueInputs]) clear_critiqueInput
    · exact hall (by simp [optionalReaders, parseReproposalDiffs]) clear_reproposalDiff

variable (platform now)

/-- An imported document whose texts are within the bounds passes the strict
check when it has nothing of what the check refuses, and only then. -/
theorem validateDocumentV1Strict_imported {value document : JsValue}
    (hbounds : TextsWithinBounds value.props)
    (haccepted : validateImportedDocument platform now value = .ok document) :
    validateDocumentV1Strict platform (jsonImage document) = [] ↔
      GateReady platform value.props := by
  obtain ⟨view, cards, hvalue, rfl⟩ := validateImportedDocument_eq_ok.mp haccepted
  obtain ⟨id, hid⟩ := hvalue.id
  obtain ⟨viewSource, -, hview⟩ := Option.bind_eq_some_iff.mp hvalue.transform
  obtain ⟨cardsSource, hcardsSource, hcards⟩ := Option.bind_eq_some_iff.mp hvalue.cards
  obtain ⟨edges, hedges⟩ := hvalue.edges
  obtain ⟨islands, hislands⟩ := hvalue.islands
  have hparts := @documentParts platform now value.props view cards
  have hnames : ∀ key ∉ documentKeys, key ≠ "voids" →
      (literalProps (documentSlots platform now value.props view cards)).get key = none := by
    intro key hunknown hvoids
    apply get_literalProps_of_not_mem
    rw [names_documentSlots]
    simp only [documentKeys, List.mem_cons, List.not_mem_nil, or_false, not_or] at hunknown ⊢
    tauto
  generalize literalProps (documentSlots platform now value.props view cards) = document
    at hparts hnames
  have hreview := hparts.optional ("reviewAttribution", parseReviewAttribution platform.dates)
    (by simp [optionalReaders])
  have hprops : (JsValue.object document.json).props = document.json := rfl
  rw [validateDocumentV1Strict, jsonImage_object, validateRecord_eq_nil, hprops,
    knownFields_document hnames, voids_document hparts.voids, checks_document hbounds rfl hvalue hparts,
    shelfErrors_document hparts.shelf hparts.cards,
    evidenceLinks_document hbounds.evidenceNote hparts.evidenceLinks,
    reviewAttribution_document hreview, ← cardIds_parseCards hcardsSource hcards]
  constructor
  · rintro ⟨-, hvoids, hshelf, hstates, hattribution⟩
    exact ⟨hvoids, hstates, hshelf, hattribution⟩
  · intro hready
    exact ⟨rfl, hready.voids, hready.shelf, hready.states, hready.attribution⟩

end Documents

namespace GateInputs

/-- A document with a card and what stands under another name. -/
def valueWith (key : String) (part : JsValue) : JsValue := .object [
  ("version", some (.number .one)), ("id", some (.string "doc")), ("transform", some originView),
  ("cards", some (.array [.object [("id", some (.string "c1")), ("text", some (.string "one")),
    ("x", some (.number .zero)), ("y", some (.number .zero))]])),
  ("edges", some (.array [])), ("islands", some (.array [])), (key, some part)]

/-- A document with an unspoken island. -/
def voidValue : JsValue := valueWith "voids" (.array [.object [
  ("id", some (.string "v1")), ("kind", some (.string "unspoken_island")),
  ("title", some (.string "Gap")), ("detail", some (.string "Nobody speaks here.")),
  ("createdAt", some (.string "2024-05-01T00:00:00.000Z"))]])

theorem withinBounds_valueWith : TextsWithinBounds voidValue.props := by
  constructor <;> decide

theorem validateDocumentV1Strict_imported_void :
    ∃ document, Importer.validateImportedDocument Importer.ImportInputs.platform "now" voidValue =
        .ok document ∧
      (validateDocumentV1Strict Importer.ImportInputs.platform (jsonImage document) = [] ↔
        GateReady Importer.ImportInputs.platform voidValue.props) :=
  ⟨_, rfl, validateDocumentV1Strict_imported Importer.ImportInputs.platform "now"
    withinBounds_valueWith rfl⟩

/-- A document with an entry of `voids` is imported and then refused. -/
theorem not_forall_validateDocumentV1Strict_imported :
    ¬∀ (platform : Platform) (now : String) (value document : JsValue),
      TextsWithinBounds value.props →
      Importer.validateImportedDocument platform now value = .ok document →
        validateDocumentV1Strict platform (jsonImage document) = [] := by
  intro hall
  have hnil := hall Importer.ImportInputs.platform "now" voidValue _ withinBounds_valueWith rfl
  exact absurd hnil (by decide +kernel)

end GateInputs

end Strict

end KjAtlas
