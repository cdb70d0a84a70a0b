import KjAtlas.Foundation.PrefixCode
import KjAtlas.Import.StrictGate

/-! # Duplicates of evidence links

The importer leaves out, and the strict check reports, a link between the same
cards and of the same type as an earlier one. Both compare a text of the ids of the
cards and the type, which is ambiguous where the ids contain colons.
-/

namespace KjAtlas

open Js

namespace Strict

/-! ## Links -/

/-- A record whose known properties have their types. -/
structure WellFormedLink (item : JsValue) : Prop where
  record : item.isRecord = true
  id : (item.props.get "id").any Shape.string = true
  type : (item.props.get "type").any (Shape.literals ["supports", "contradicts"]) = true
  fromCardId : (item.props.get "fromCardId").any Shape.string = true
  toCardId : (item.props.get "toCardId").any Shape.string = true
  note : (item.props.get "note").all Shape.string = true
  noteLength : (item.props.get "note").all (isWithin evidenceNoteMaxLength) = true
  createdAt : (item.props.get "createdAt").all Shape.string = true

def linkText (item : JsValue) (name : String) : String := (item.props.string? name).getD ""

/-- The endpoints and the type. -/
def linkTuple (item : JsValue) : String × String × String :=
  (linkText item "fromCardId", linkText item "toCardId", linkText item "type")

def isSelfLink (item : JsValue) : Bool :=
  decide (linkText item "fromCardId" = linkText item "toCardId")

theorem exists_text {value : Option JsValue} (htext : value.any Shape.string = true) :
    ∃ text, value = some (.string text) := by
  obtain ⟨value, rfl, hvalue⟩ := (Option.any_eq_true _ _).mp htext
  obtain ⟨text, rfl⟩ := Shape.eq_string hvalue
  exact ⟨text, rfl⟩

variable {item : JsValue} {before : List JsValue}

theorem linkText_of_get {name text : String} (hget : item.props.get name = some (.string text)) :
    linkText item name = text := by
  rw [linkText, Props.string?, hget]
  rfl

theorem WellFormedLink.exists_type (hitem : WellFormedLink item) :
    ∃ type ∈ ["supports", "contradicts"], item.props.get "type" = some (.string type) := by
  obtain ⟨value, hget, hvalue⟩ := (Option.any_eq_true _ _).mp hitem.type
  cases value with
  | string type => exact ⟨type, List.contains_iff_mem.mp hvalue, hget⟩
  | _ => cases hvalue

/-! ## Keys -/

/-- The second link is the first one with another colon between the endpoints. -/
def ConfusedLinks (left right : JsValue) : Prop :=
  linkText left "type" = linkText right "type" ∧
    Shifted ':' (linkText left "fromCardId", linkText left "toCardId")
      (linkText right "fromCardId", linkText right "toCardId")

theorem WellFormedLink.colon_not_mem_type (hitem : WellFormedLink item) :
    ':' ∉ (linkText item "type").toList := by
  obtain ⟨type, htype, hget⟩ := hitem.exists_type
  rw [linkText_of_get hget]
  simp only [List.mem_cons, List.not_mem_nil, or_false] at htype
  rcases htype with rfl | rfl <;> decide

/-- A type without a colon is recovered from what it ends. -/
theorem suffix_inj {left right first second : String} (hleft : ':' ∉ left.toList)
    (hright : ':' ∉ right.toList) (heq : first ++ ":" ++ left = second ++ ":" ++ right) :
    first = second ∧ left = right := by
  have hmem : ∀ middle rest : String, ':' ∈ (middle ++ ":" ++ rest).toList := by
    intro middle rest
    simp
  rcases (@join_eq_iff ':' (first, left) (second, right)).mp heq with
    hsame | ⟨middle, -, hshift⟩ | ⟨middle, -, hshift⟩
  · exact Prod.mk.inj hsame
  · apply absurd _ hleft
    rw [show left = _ from hshift]
    exact hmem middle right
  · apply absurd _ hright
    rw [show right = _ from hshift]
    exact hmem middle left

theorem duplicateKey_eq_iff {left right : JsValue} (hleft : WellFormedLink left)
    (hright : WellFormedLink right) :
    Importer.duplicateKey left = Importer.duplicateKey right ↔
      linkTuple left = linkTuple right ∨ ConfusedLinks left right ∨ ConfusedLinks right left := by
  have hjoin := @join_eq_iff ':' (linkText left "fromCardId", linkText left "toCardId")
    (linkText right "fromCardId", linkText right "toCardId")
  have hkey : ∀ link, Importer.duplicateKey link = linkText link "fromCardId" ++ ":" ++
      linkText link "toCardId" ++ ":" ++ linkText link "type" := fun link => rfl
  rw [hkey, hkey]
  constructor
  · intro heq
    obtain ⟨hends, htype⟩ := suffix_inj hleft.colon_not_mem_type hright.colon_not_mem_type heq
    rcases hjoin.mp hends with hsame | hshifted | hshifted
    · obtain ⟨hfrom, hto⟩ := Prod.mk.inj hsame
      left
      rw [linkTuple, linkTuple, hfrom, hto, htype]
    · exact Or.inr (Or.inl ⟨htype, hshifted⟩)
    · exact Or.inr (Or.inr ⟨htype.symm, hshifted⟩)
  · rintro (hsame | ⟨htype, hshifted⟩ | ⟨htype, hshifted⟩)
    · simp only [linkTuple, Prod.mk.injEq] at hsame
      obtain ⟨hfrom, hto, htype⟩ := hsame
      rw [hfrom, hto, htype]
    · rw [htype]
      exact congrArg (· ++ ":" ++ _) (join_eq_of_shifted hshifted)
    · rw [← htype]
      exact congrArg (· ++ ":" ++ _) (join_eq_of_shifted hshifted).symm

theorem ConfusedLinks.tuple_ne {left right : JsValue} (hconfused : ConfusedLinks left right) :
    linkTuple left ≠ linkTuple right := by
  intro hsame
  simp only [linkTuple, Prod.mk.injEq] at hsame
  exact hconfused.2.ne (Prod.ext hsame.1 hsame.2.1)

/-- A link that is read keeps its texts. -/
theorem get_parseEvidenceLink {link : JsValue}
    (hread : Importer.parseEvidenceLink item = some link) :
    ∀ name ∈ ["id", "type", "fromCardId", "toCardId"],
      link.props.get name = item.props.get name := by
  obtain ⟨props, rfl, hrebuilt⟩ := rebuilt_parseEvidenceLink hread
  obtain ⟨id, hid, hresultId, -⟩ := @get_of_must _ _ _ "id" Shape.string hrebuilt
    (List.mem_of_getElem? (i := 0) rfl)
  obtain ⟨type, htype, hresultType, -⟩ := @get_of_must _ _ _ "type" _ hrebuilt
    (List.mem_of_getElem? (i := 1) rfl)
  obtain ⟨fromCardId, hfrom, hresultFrom, -⟩ := @get_of_must _ _ _ "fromCardId" Shape.string hrebuilt
    (List.mem_of_getElem? (i := 2) rfl)
  obtain ⟨toCardId, hto, hresultTo, -⟩ := @get_of_must _ _ _ "toCardId" _ hrebuilt
    (List.mem_of_getElem? (i := 3) rfl)
  simp only [List.forall_mem_cons, JsValue.props]
  exact ⟨hresultId.trans hid.symm, hresultType.trans htype.symm, hresultFrom.trans hfrom.symm,
    hresultTo.trans hto.symm, fun _ hname => absurd hname List.not_mem_nil⟩

/-- A link that leads from a card to another one is read. -/
theorem exists_parseEvidenceLink (hitem : WellFormedLink item) (hself : isSelfLink item = false) :
    ∃ link, Importer.parseEvidenceLink item = some link := by
  obtain ⟨id, hid⟩ := exists_text hitem.id
  obtain ⟨fromCardId, hfrom⟩ := exists_text hitem.fromCardId
  obtain ⟨toCardId, hto⟩ := exists_text hitem.toCardId
  obtain ⟨type, htype, hget⟩ := hitem.exists_type
  have hne : toCardId ≠ fromCardId := by
    rw [isSelfLink, linkText_of_get hfrom, linkText_of_get hto] at hself
    exact fun heq => of_decide_eq_false hself heq.symm
  have hliteral : Shape.literals ["supports", "contradicts"] (.string type) = true :=
    List.contains_iff_mem.mpr htype
  obtain ⟨props, hprops⟩ := @exists_readProps item.props
    (Importer.evidenceLinkProperties (item.props.get "fromCardId")) (by
      simp [Importer.evidenceLinkProperties, Property.must, Property.may, Property.spreading, hid,
        hfrom, hto, hget, Reader.text, Reader.literal, Reader.ofShape, hliteral, Shape.string, hne])
  exact ⟨_, Reader.record_eq_some.mpr ⟨hitem.record, props, hprops, rfl⟩⟩

/-- A link from a card to itself is not. -/
theorem parseEvidenceLink_of_self (hitem : WellFormedLink item) (hself : isSelfLink item = true) :
    Importer.parseEvidenceLink item = none := by
  cases hread : Importer.parseEvidenceLink item with
  | none => rfl
  | some link =>
      obtain ⟨props, rfl, hrebuilt⟩ := rebuilt_parseEvidenceLink hread
      obtain ⟨_, hto, -, hshape⟩ := @get_of_must _ _ _ "toCardId" _ hrebuilt
        (List.mem_of_getElem? (i := 3) rfl)
      obtain ⟨fromCardId, hfrom⟩ := exists_text hitem.fromCardId
      obtain ⟨toCardId, hget⟩ := exists_text hitem.toCardId
      rw [isSelfLink, linkText_of_get hfrom, linkText_of_get hget, decide_eq_true_eq] at hself
      rw [hget] at hto
      cases hto
      rw [hfrom, hself] at hshape
      simp at hshape

/-! ## Causes -/

variable {items : List JsValue}

/-- Why a link is left out: it leads to its own start, or a link that was kept before has its id
or its endpoints and type. -/
def HasCause (kept : List JsValue) (item : JsValue) : Prop :=
  isSelfLink item = true ∨ (∃ link ∈ kept, linkText link "id" = linkText item "id") ∨
    ∃ link ∈ kept, linkTuple link = linkTuple item

def DropsForCause (items : List JsValue) : Prop :=
  ∀ before item after, items = before ++ item :: after →
    (keptLinks (before ++ [item]) = keptLinks before ↔ HasCause (keptLinks before) item)

def NoLinksConfused (items : List JsValue) : Prop :=
  ∀ left ∈ items, ∀ right ∈ items, isSelfLink left = false → isSelfLink right = false →
    ¬ ConfusedLinks left right

/-- A link that is read of another one. -/
def SameTexts (link item : JsValue) : Prop :=
  ∀ name ∈ ["id", "type", "fromCardId", "toCardId"], link.props.get name = item.props.get name

section

variable {link : JsValue}

theorem SameTexts.text (hsame : SameTexts link item) :
    ∀ name ∈ ["id", "type", "fromCardId", "toCardId"], linkText link name = linkText item name := by
  intro name hname
  rw [linkText, linkText, Props.string?, Props.string?, hsame name hname]

theorem SameTexts.id (hsame : SameTexts link item) :
    linkText link "id" = linkText item "id" := hsame.text "id" (by simp)

theorem SameTexts.tuple (hsame : SameTexts link item) : linkTuple link = linkTuple item := by
  rw [linkTuple, linkTuple, hsame.text "fromCardId" (by simp), hsame.text "toCardId" (by simp),
    hsame.text "type" (by simp)]

theorem duplicateKey_of_tuple {left right : JsValue} (hsame : linkTuple left = linkTuple right) :
    Importer.duplicateKey left = Importer.duplicateKey right := by
  have hkey : ∀ link, Importer.duplicateKey link =
    (linkTuple link).1 ++ ":" ++ (linkTuple link).2.1 ++ ":" ++ (linkTuple link).2.2 := fun _ => rfl
  rw [hkey, hkey, hsame]

/-- Links that are kept are read of links that lead from a card to another one. -/
theorem source_of_keptLinks (hwell : ∀ item ∈ items, WellFormedLink item)
    (hlink : link ∈ keptLinks items) :
    ∃ item ∈ items, isSelfLink item = false ∧ SameTexts link item := by
  obtain ⟨item, hitem, hread⟩ := List.mem_filterMap.mp ((keepFirst_sublist _).mem hlink)
  refine ⟨item, hitem, ?_, get_parseEvidenceLink hread⟩
  cases hself : isSelfLink item with
  | false => rfl
  | true =>
      rw [parseEvidenceLink_of_self (hwell item hitem) hself] at hread
      cases hread

/-- Text ids are compared as they are. -/
theorem sameText_id_iff {left right other : JsValue} (hleft : SameTexts left item)
    (hright : SameTexts right other) (hitem : WellFormedLink item) (hother : WellFormedLink other) :
    Importer.sameText "id" left right = true ↔ linkText right "id" = linkText left "id" := by
  obtain ⟨id, hid⟩ := exists_text hitem.id
  obtain ⟨otherId, hotherId⟩ := exists_text hother.id
  rw [← hleft "id" (by simp)] at hid
  rw [← hright "id" (by simp)] at hotherId
  rw [Importer.sameText, decide_eq_true_eq, linkText_of_get hid, linkText_of_get hotherId,
    Props.string?, Props.string?, hid, hotherId]
  exact ⟨fun heq => (Option.some.inj heq).symm, fun heq => congrArg some heq.symm⟩

theorem duplicateKey_iff_of_noLinksConfused (hwell : ∀ item ∈ items, WellFormedLink item)
    (hnone : NoLinksConfused items) {left right : JsValue} (hleft : left ∈ items)
    (hright : right ∈ items) (hleftSelf : isSelfLink left = false)
    (hrightSelf : isSelfLink right = false) :
    Importer.duplicateKey left = Importer.duplicateKey right ↔ linkTuple left = linkTuple right := by
  rw [duplicateKey_eq_iff (hwell left hleft) (hwell right hright), or_iff_left]
  rintro (hconfused | hconfused)
  · exact hnone left hleft right hright hleftSelf hrightSelf hconfused
  · exact hnone right hright left hleft hrightSelf hleftSelf hconfused

theorem keptLinks_append_of_none (hread : Importer.parseEvidenceLink item = none) :
    keptLinks (before ++ [item]) = keptLinks before := by
  rw [keptLinks, List.filterMap_append, List.filterMap_cons, hread, List.filterMap_nil,
    List.append_nil]
  rfl

theorem keptLinks_append_of_some (hread : Importer.parseEvidenceLink item = some link) :
    keptLinks (before ++ [item]) =
      if (keptLinks before).any (Importer.sameLink link) then keptLinks before
      else keptLinks before ++ [link] := by
  rw [keptLinks, List.filterMap_append, List.filterMap_cons, hread, List.filterMap_nil,
    keepFirst_append_singleton]
  rfl

theorem sameLink_iff (hwell : ∀ item ∈ items, WellFormedLink item) (hnone : NoLinksConfused items)
    {kept source : JsValue} (hitem : item ∈ items) (hsource : source ∈ items)
    (hself : isSelfLink item = false) (hsourceSelf : isSelfLink source = false)
    (hlink : SameTexts link item) (hkept : SameTexts kept source) :
    Importer.sameLink link kept = true ↔
      linkText kept "id" = linkText item "id" ∨ linkTuple kept = linkTuple item := by
  have hkeys := duplicateKey_iff_of_noLinksConfused hwell hnone hsource hitem hsourceSelf hself
  rw [← duplicateKey_of_tuple hlink.tuple, ← duplicateKey_of_tuple hkept.tuple, ← hkept.tuple]
    at hkeys
  rw [Importer.sameLink, Bool.or_eq_true, decide_eq_true_eq]
  apply or_congr
  · rw [sameText_id_iff hlink hkept (hwell item hitem) (hwell source hsource), hlink.id]
  · rw [eq_comm, hkeys]

theorem dropsForCause_of_noLinksConfused (hwell : ∀ item ∈ items, WellFormedLink item)
    (hnone : NoLinksConfused items) : DropsForCause items := by
  intro before item after hitems
  have hitem : item ∈ items := by simp [hitems]
  have hbefore : ∀ other ∈ before, other ∈ items := by
    intro other hother
    simp [hitems, hother]
  cases hself : isSelfLink item with
  | true =>
      rw [keptLinks_append_of_none (parseEvidenceLink_of_self (hwell item hitem) hself)]
      exact iff_of_true rfl (Or.inl hself)
  | false =>
      obtain ⟨link, hread⟩ := exists_parseEvidenceLink (hwell item hitem) hself
      have hclash : (keptLinks before).any (Importer.sameLink link) = true ↔
          HasCause (keptLinks before) item := by
        rw [List.any_eq_true, HasCause, hself, or_iff_right Bool.false_ne_true, ← exists_or]
        apply exists_congr
        intro kept
        rw [← and_or_left]
        apply and_congr_right
        intro hkept
        obtain ⟨source, hsource, hsourceSelf, hkeptSource⟩ :=
          source_of_keptLinks (fun other hother => hwell other (hbefore other hother)) hkept
        exact sameLink_iff hwell hnone hitem (hbefore source hsource) hself hsourceSelf
          (get_parseEvidenceLink hread) hkeptSource
      rw [keptLinks_append_of_some hread, ← hclash]
      split
      next hany => exact iff_of_true rfl hany
      next hany =>
        apply iff_of_false _ hany
        simp

/-! ## The strict check -/

/-- The links that are compared with later ones. -/
def checkedLinks (items : List JsValue) : List JsValue := items.filter fun item => !isSelfLink item

/-- What should be reported about a link that leads from a card to another one. -/
def expectedErrors (before : List JsValue) (item : JsValue) : List String :=
  let path := elementPath "evidenceLinks" before.length
  hasOnlyKeys item evidenceLinkKeys path ++
    report (!(checkedLinks before).any fun link =>
      decide (linkText link "id" = linkText item "id"))
        (path ++ ".id: duplicate id '" ++ linkText item "id" ++ "'") ++
    report (!(checkedLinks before).any fun link => decide (linkTuple link = linkTuple item))
      (path ++ ": duplicate link tuple '" ++ Importer.duplicateKey item ++ "'")

/-- A duplicate is reported exactly for a link with the endpoints and the type of an earlier one. -/
def ReportsTuples (items : List JsValue) : Prop :=
  ∀ before item after, items = before ++ item :: after → isSelfLink item = false →
    evidenceLinksErrors 0 [] [] (before ++ [item]) =
      evidenceLinksErrors 0 [] [] before ++ expectedErrors before item

theorem validateEvidenceLink_of_wellFormed (hitem : WellFormedLink item)
    (index : Nat) : (validateEvidenceLink item index).2 = !isSelfLink item ∧
      (isSelfLink item = false → (validateEvidenceLink item index).1 =
        hasOnlyKeys item evidenceLinkKeys (elementPath "evidenceLinks" index)) := by
  obtain ⟨fromCardId, hfrom⟩ := exists_text hitem.fromCardId
  obtain ⟨toCardId, hto⟩ := exists_text hitem.toCardId
  have hself : strictEquals (item.props.get "fromCardId") (item.props.get "toCardId") =
      isSelfLink item := by
    rw [isSelfLink, linkText_of_get hfrom, linkText_of_get hto, hfrom, hto]
    simp [strictEquals]
  rw [validateEvidenceLink]
  dsimp only
  rw [if_pos hitem.record]
  dsimp only
  cases hvalue : isSelfLink item with
  | false =>
      have hnil : (evidenceLinkChecks.flatMap fun check =>
          check (elementPath "evidenceLinks" index) item.props) = [] := by
        rw [List.flatMap_eq_nil_iff]
        simp [evidenceLinkChecks, hself, hvalue, hitem.id, hitem.type, hitem.fromCardId,
          hitem.toCardId, hitem.note, hitem.noteLength, hitem.createdAt]
      rw [hnil, List.append_nil]
      exact ⟨rfl, fun _ => rfl⟩
  | true =>
      refine ⟨?_, fun h => Bool.noConfusion h⟩
      apply List.isEmpty_eq_false_iff.mpr
      intro hnil
      rw [List.flatMap_eq_nil_iff] at hnil
      have hcheck := hnil _ (List.mem_of_getElem? (i := 4) rfl)
      rw [report_eq_nil, hself, hvalue] at hcheck
      cases hcheck

theorem evidenceLinksErrors_append (hwell : ∀ item ∈ before, WellFormedLink item)
    (items : List JsValue) :
    ∀ (index : Nat) (seenIds seenTuples : List String),
      evidenceLinksErrors index seenIds seenTuples (before ++ items) =
        evidenceLinksErrors index seenIds seenTuples before ++
          evidenceLinksErrors (index + before.length)
            (((checkedLinks before).map (linkText · "id")).reverse ++ seenIds)
            (((checkedLinks before).map Importer.duplicateKey).reverse ++ seenTuples) items := by
  induction before with
  | nil =>
      intro index seenIds seenTuples
      simp [evidenceLinksErrors, checkedLinks]
  | cons head before ih =>
      intro index seenIds seenTuples
      obtain ⟨hhead, hbefore⟩ := List.forall_mem_cons.mp hwell
      obtain ⟨hvalid, -⟩ := validateEvidenceLink_of_wellFormed hhead index
      have hlength : index + (before.length + 1) = index + 1 + before.length := by omega
      rw [List.cons_append, evidenceLinksErrors, evidenceLinksErrors, List.length_cons, hlength]
      generalize validateEvidenceLink head index = checked at hvalid ⊢
      obtain ⟨errors, valid⟩ := checked
      dsimp only at hvalid ⊢
      subst hvalid
      cases hself : isSelfLink head with
      | true =>
          rw [if_neg (by simp), if_neg (by simp), ih hbefore, List.append_assoc]
          simp [checkedLinks, hself]
      | false =>
          rw [if_pos (by simp), if_pos (by simp), ih hbefore]
          simp [checkedLinks, hself, linkText]

theorem errors_of_link (hwell : ∀ other ∈ before, WellFormedLink other)
    (hitem : WellFormedLink item) (hself : isSelfLink item = false) :
    evidenceLinksErrors 0 [] [] (before ++ [item]) =
      evidenceLinksErrors 0 [] [] before ++
        (hasOnlyKeys item evidenceLinkKeys (elementPath "evidenceLinks" before.length) ++
          report (!(checkedLinks before).any fun link =>
            decide (linkText link "id" = linkText item "id"))
              (elementPath "evidenceLinks" before.length ++ ".id: duplicate id '" ++
                linkText item "id" ++ "'") ++
          report (!(checkedLinks before).any fun link =>
            decide (Importer.duplicateKey link = Importer.duplicateKey item))
              (elementPath "evidenceLinks" before.length ++ ": duplicate link tuple '" ++
                Importer.duplicateKey item ++ "'")) := by
  obtain ⟨hvalid, herrors⟩ := validateEvidenceLink_of_wellFormed hitem before.length
  have hcontains : ∀ (f : JsValue → String), ((checkedLinks before).map f).reverse.contains (f item) =
      (checkedLinks before).any fun link => decide (f link = f item) := by
    intro f
    rw [Bool.eq_iff_iff, List.contains_iff_mem, List.mem_reverse, List.mem_map, List.any_eq_true]
    simp only [decide_eq_true_eq]
  have hchecked : validateEvidenceLink item before.length =
      (hasOnlyKeys item evidenceLinkKeys (elementPath "evidenceLinks" before.length), true) :=
    Prod.ext (herrors hself) (hvalid.trans (by rw [hself]; rfl))
  rw [evidenceLinksErrors_append hwell, Nat.zero_add, evidenceLinksErrors, hchecked,
    List.append_nil, List.append_nil]
  dsimp only
  have hids : ((checkedLinks before).map (linkText · "id")).reverse.contains (linkText item "id") =
      (checkedLinks before).any fun link => decide (linkText link "id" = linkText item "id") :=
    hcontains _
  rw [if_pos rfl, hcontains Importer.duplicateKey, evidenceLinksErrors, List.append_nil,
    show (item.props.string? "id").getD "" = linkText item "id" from rfl, hids]

theorem report_inj {left right : Bool} {error : String}
    (heq : report left error = report right error) : left = right := by
  cases left <;> cases right <;> first | rfl | cases heq

/-- A link repeats the key of an earlier one exactly when it repeats the endpoints and the type. -/
def KeysAreTuples (items : List JsValue) : Prop :=
  ∀ before item after, items = before ++ item :: after → isSelfLink item = false →
    ((∃ link ∈ checkedLinks before, Importer.duplicateKey link = Importer.duplicateKey item) ↔
      ∃ link ∈ checkedLinks before, linkTuple link = linkTuple item)

theorem reportsTuples_iff (hwell : ∀ item ∈ items, WellFormedLink item) :
    ReportsTuples items ↔ KeysAreTuples items := by
  apply forall_congr'
  intro before
  apply forall_congr'
  intro item
  apply forall_congr'
  intro after
  apply imp_congr_right
  intro hitems
  apply imp_congr_right
  intro hself
  subst hitems
  rw [errors_of_link (fun other hother => hwell other (by simp [hother])) (hwell item (by simp)) hself,
    expectedErrors, List.append_cancel_left_eq, List.append_cancel_left_eq]
  have hany : ∀ test : JsValue → Prop, ∀ [DecidablePred test],
      ((checkedLinks before).any fun link => decide (test link)) =
        decide (∃ link ∈ checkedLinks before, test link) := by
    intro test _
    rw [Bool.eq_iff_iff, List.any_eq_true]
    simp only [decide_eq_true_eq]
  rw [hany, hany]
  constructor
  · intro heq
    have hsame := report_inj heq
    rw [Bool.not_inj_iff, decide_eq_decide] at hsame
    exact hsame
  · intro hsame
    simp only [hsame]

theorem mem_checkedLinks : link ∈ checkedLinks items ↔ link ∈ items ∧ isSelfLink link = false := by
  rw [checkedLinks, List.mem_filter, Bool.not_eq_true']

theorem tuple_of_keysAreTuples (hkeys : KeysAreTuples items) :
    ∀ left ∈ checkedLinks items, ∀ right ∈ checkedLinks items,
      Importer.duplicateKey left = Importer.duplicateKey right → linkTuple left = linkTuple right := by
  induction items using List.reverseRecOn with
  | nil =>
      intro left hleft
      exact absurd hleft List.not_mem_nil
  | append_singleton items last ih =>
      have hearlier : KeysAreTuples items := by
        intro before item after hitems hself
        exact hkeys before item (after ++ [last]) (by rw [hitems]; simp) hself
      -- a link with the key of the last one has the tuple of some link before it
      have hlast : ∀ link ∈ checkedLinks items, isSelfLink last = false →
          Importer.duplicateKey link = Importer.duplicateKey last →
            linkTuple link = linkTuple last := by
        intro link hlink hself hkey
        obtain ⟨other, hother, htuple⟩ := (hkeys items last [] rfl hself).mp ⟨link, hlink, hkey⟩
        rw [← htuple]
        apply ih hearlier link hlink other hother
        rw [hkey, duplicateKey_of_tuple htuple]
      intro left hleft right hright hkey
      rw [mem_checkedLinks, List.mem_append, List.mem_singleton] at hleft hright
      rcases hleft with ⟨hleft | rfl, hleftSelf⟩
      · have hleft := mem_checkedLinks.mpr ⟨hleft, hleftSelf⟩
        rcases hright with ⟨hright | rfl, hrightSelf⟩
        · exact ih hearlier left hleft right (mem_checkedLinks.mpr ⟨hright, hrightSelf⟩) hkey
        · exact hlast left hleft hrightSelf hkey
      · rcases hright with ⟨hright | rfl, hrightSelf⟩
        · exact (hlast right (mem_checkedLinks.mpr ⟨hright, hrightSelf⟩) hleftSelf hkey.symm).symm
        · rfl

end

theorem keysAreTuples_of_noLinksConfused (hwell : ∀ item ∈ items, WellFormedLink item)
    (hnone : NoLinksConfused items) : KeysAreTuples items := by
  intro before item after hitems hself
  apply exists_congr
  intro link
  apply and_congr_right
  intro hlink
  obtain ⟨hlink, hlinkSelf⟩ := mem_checkedLinks.mp hlink
  exact duplicateKey_iff_of_noLinksConfused hwell hnone (by simp [hitems, hlink]) (by simp [hitems])
    hlinkSelf hself

/-- The import leaves out links for a cause only, and the strict check reports the repeated ones,
exactly when no two links are confused. -/
theorem links_compared_iff (hwell : ∀ item ∈ items, WellFormedLink item) :
    DropsForCause items ∧ ReportsTuples items ↔ NoLinksConfused items := by
  rw [reportsTuples_iff hwell]
  constructor
  · rintro ⟨-, hkeys⟩ left hleft right hright hleftSelf hrightSelf hconfused
    apply hconfused.tuple_ne
    apply tuple_of_keysAreTuples hkeys left (mem_checkedLinks.mpr ⟨hleft, hleftSelf⟩) right
      (mem_checkedLinks.mpr ⟨hright, hrightSelf⟩)
    exact (duplicateKey_eq_iff (hwell left hleft) (hwell right hright)).mpr (Or.inr (Or.inl hconfused))
  · intro hnone
    exact ⟨dropsForCause_of_noLinksConfused hwell hnone,
      keysAreTuples_of_noLinksConfused hwell hnone⟩

namespace LinkInputs

def link (id fromCardId toCardId : String) : JsValue :=
  .object [("id", some (.string id)), ("type", some (.string "supports")),
    ("fromCardId", some (.string fromCardId)), ("toCardId", some (.string toCardId))]

theorem wellFormed_link (id fromCardId toCardId : String) :
    WellFormedLink (link id fromCardId toCardId) := by
  constructor <;> simp [link, JsValue.isRecord, JsValue.props, Props.get_cons, Shape.string, Shape.literals]

/-- A link that repeats another one is left out and reported. -/
theorem links_compared_iff_two : DropsForCause [link "l" "a" "b", link "m" "a" "b"] ∧
    ReportsTuples [link "l" "a" "b", link "m" "a" "b"] := by
  apply (links_compared_iff (by simp [wellFormed_link])).mpr
  have htexts : ∀ item ∈ [link "l" "a" "b", link "m" "a" "b"],
      linkText item "fromCardId" = "a" ∧ linkText item "toCardId" = "b" := by
    simp [link, linkText, JsValue.props, Props.string?, Props.get_cons, JsValue.string?]
  intro left hleft right hright _ _ hconfused
  obtain ⟨hleftFrom, hleftTo⟩ := htexts left hleft
  obtain ⟨hrightFrom, hrightTo⟩ := htexts right hright
  apply hconfused.2.ne
  rw [hleftFrom, hleftTo, hrightFrom, hrightTo]

def links : List JsValue := [link "l" "a" "b:c", link "m" "a:b" "c"]

/-- Links from `a` to `b:c` and from `a:b` to `c` are taken for one link. -/
theorem other_link_is_dropped : ¬ (DropsForCause links ∧ ReportsTuples links) := by
  rintro ⟨hdrops, -⟩
  have hlinks : links = [link "l" "a" "b:c"] ++ link "m" "a:b" "c" :: [] := rfl
  have hcause := (hdrops _ _ _ hlinks).mp (by decide +kernel)
  have hnone : ∀ kept ∈ keptLinks [link "l" "a" "b:c"],
      linkText kept "id" ≠ linkText (link "m" "a:b" "c") "id" ∧
        linkTuple kept ≠ linkTuple (link "m" "a:b" "c") := by decide +kernel
  rcases hcause with hself | ⟨kept, hkept, hid⟩ | ⟨kept, hkept, htuple⟩
  · revert hself
    decide +kernel
  · exact (hnone kept hkept).1 hid
  · exact (hnone kept hkept).2 htuple

end LinkInputs

end Strict

end KjAtlas
