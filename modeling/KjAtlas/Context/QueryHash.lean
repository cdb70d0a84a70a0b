import KjAtlas.Context.Sent

/-! # Hashes of queries on both ends

The two canonical texts of a query have the same values at the same places, and
list the properties of each object in the order of the front end and in the order
of code points. They are equal exactly when the two orders agree on every object.
-/

namespace KjAtlas.Context

open Js Py

variable {F : Type}

/-! ## Orders of properties -/

/-- The collation of the back end. -/
def codePoint : Collation where
  le := codePointLe
  total left right := by
    simp only [codePointLe, decide_eq_true_eq]
    exact le_total left right
  trans a b c hab hbc := by
    simp only [codePointLe, decide_eq_true_eq] at hab hbc ⊢
    exact hab.trans hbc

/-- In every object, the properties in the order of the front end are in the order of code
points. -/
def isAligned (lc : Collation) : JsValue → Bool := JsValue.fold {
  null := true
  bool _ := true
  number _ := true
  string _ := true
  array items := items.all id
  object props := decide (((stableEntries lc props).map Prod.fst).Pairwise
      fun left right => codePointLe left right = true) && props.all fun prop => prop.2.getD true }

section Orders

variable {α β : Type} (lc : Collation)

theorem stableEntries_perm (entries : List (String × α)) :
    (stableEntries lc entries).Perm entries :=
  (sortOn.perm _ _ _).trans (sortOn.perm _ _ _)

theorem stableEntries_map (f : α → β) (entries : List (String × α)) :
    stableEntries lc (entries.map fun entry => (entry.1, f entry.2)) =
      (stableEntries lc entries).map fun entry => (entry.1, f entry.2) := by
  rw [stableEntries, enumerate, Props.sort_map, Props.sort_map]
  rfl

/-- The order of the front end is that of code points exactly when they sort alike. -/
theorem stableEntries_eq_iff {entries : List (String × α)} (hnodup : (entries.map Prod.fst).Nodup) :
    stableEntries lc entries = Props.sort codePointLe entries ↔
      ((stableEntries lc entries).map Prod.fst).Pairwise
        fun left right => codePointLe left right = true := by
  constructor
  · intro heq
    rw [heq, List.pairwise_map]
    exact sortOn.pairwise codePointLe Prod.fst codePoint.total codePoint.trans entries
  · intro hpairwise
    rw [List.pairwise_map] at hpairwise
    have hsorted : Props.sort codePointLe (stableEntries lc entries) = stableEntries lc entries :=
      List.Pairwise.insertionSort_eq hpairwise
    rw [← hsorted]
    refine sortOn.eq_of_perm codePointLe Prod.fst codePoint.total codePoint.trans
      codePointLe_antisymm ?_ (stableEntries_perm lc entries)
    exact ((stableEntries_perm lc entries).map Prod.fst).nodup_iff.mpr hnodup

end Orders

/-! ## Values with ordered properties -/

variable {value : JsValue}

section Values

variable (lc : Collation)

theorem toStableValue_array (items : List JsValue) :
    toStableValue lc (.array items) = .array (items.map (toStableValue lc)) :=
  JsValue.fold_array _ items

theorem toStableValue_object (props : Props) :
    toStableValue lc (.object props) =
      .object ((stableEntries lc props).map fun prop => (prop.1, prop.2.map (toStableValue lc))) :=
  (JsValue.fold_object _ props).trans
    (congrArg JsValue.object (stableEntries_map lc (Option.map (toStableValue lc)) props))

theorem isAligned_array (items : List JsValue) :
    isAligned lc (.array items) = items.all (isAligned lc) :=
  (JsValue.fold_array _ items).trans List.all_map

theorem isAligned_object (props : Props) :
    isAligned lc (.object props) =
      (decide (((stableEntries lc props).map Prod.fst).Pairwise
        fun left right => codePointLe left right = true) &&
        props.all fun prop => (prop.2.map (isAligned lc)).getD true) := by
  have hnames : (stableEntries lc (props.map fun prop => (prop.1, prop.2.map (isAligned lc)))).map
      Prod.fst = (stableEntries lc props).map Prod.fst := by
    rw [stableEntries_map, List.map_map]
    rfl
  have hfold : isAligned lc (.object props) =
      (decide (((stableEntries lc (props.map fun prop =>
          (prop.1, prop.2.map (isAligned lc)))).map Prod.fst).Pairwise
        fun left right => codePointLe left right = true) &&
        (props.map fun prop => (prop.1, prop.2.map (isAligned lc))).all fun prop =>
          prop.2.getD true) :=
    JsValue.fold_object _ props
  rw [hfold, hnames, List.all_map]
  rfl

/-- Two ways to order properties that name them alike list them alike. -/
theorem eq_of_names {α : Type} {left right entries : List (String × α)}
    (hleft : left.Perm entries) (hright : right.Perm entries)
    (hnodup : (entries.map Prod.fst).Nodup) (hnames : left.map Prod.fst = right.map Prod.fst) :
    left = right := by
  have hsort : Props.sort codePointLe left = Props.sort codePointLe right :=
    sortOn.eq_of_perm codePointLe Prod.fst codePoint.total codePoint.trans codePointLe_antisymm
      ((hleft.map Prod.fst).nodup_iff.mpr hnodup) (hleft.trans hright.symm)
  exact sortOn.inj_of_keys codePointLe Prod.fst hnames hsort

/-- A plain value is ordered alike on both ends exactly when it is aligned. -/
theorem toStableValue_eq_iff (hplain : isPlain value = true) :
    toStableValue lc value = sortedForm codePoint value ↔ isAligned lc value = true := by
  induction value using JsValue.induction with
  | null | bool | number | string => exact iff_of_true rfl rfl
  | array items ih =>
      rw [isPlain_array, List.all_eq_true] at hplain
      rw [toStableValue_array, sortedForm_array, isAligned_array, List.all_eq_true,
        JsValue.array.injEq, List.map_inj_left]
      exact forall₂_congr fun item hitem => ih item hitem (hplain item hitem)
  | object props ih =>
      have hprops := plainProps_iff.mp hplain
      have hvalues : (∀ prop ∈ props,
            prop.2.map (toStableValue lc) = prop.2.map (sortedForm codePoint)) ↔
          ∀ prop ∈ props, (prop.2.map (isAligned lc)).getD true = true := by
        refine forall₂_congr ?_
        rintro ⟨key, value⟩ hprop
        obtain ⟨value, rfl, hplain⟩ := hprops.plain _ hprop
        simpa using ih key value hprop hplain
      rw [toStableValue_object, sortedForm_object, isAligned_object, JsValue.object.injEq,
        Bool.and_eq_true, decide_eq_true_eq, List.all_eq_true, ← hvalues,
        ← stableEntries_eq_iff lc hprops.nodup]
      constructor
      · intro heq
        have hnames := congrArg (List.map Prod.fst) heq
        rw [List.map_map, List.map_map] at hnames
        have hentries : stableEntries lc props = Props.sort codePointLe props :=
          eq_of_names (stableEntries_perm lc props) (sortOn.perm _ _ props) hprops.nodup hnames
        refine ⟨hentries, fun prop hprop => ?_⟩
        rw [hentries] at heq
        have hmem := (sortOn.mem codePointLe Prod.fst).mpr hprop
        exact (Prod.mk.inj (List.map_inj_left.mp heq prop hmem)).2
      · rintro ⟨hentries, hsame⟩
        rw [hentries]
        refine List.map_congr_left fun prop hprop => ?_
        rw [hsame prop ((sortOn.mem codePointLe Prod.fst).mp hprop)]

/-- The numbers of a plain value are finite, in whatever order its properties are. -/
theorem finiteOnly_of_plain (hplain : isPlain value = true) :
    finiteOnly (toStableValue lc value) = true ∧
      finiteOnly (sortedForm codePoint value) = true := by
  induction value using JsValue.induction with
  | null | bool | string => exact ⟨rfl, rfl⟩
  | number n =>
      have hfinite : n.isFinite = true := by
        cases n with
        | finite value => rfl
        | nan | infinity => cases hplain
      exact ⟨hfinite, hfinite⟩
  | array items ih =>
      rw [isPlain_array, List.all_eq_true] at hplain
      rw [toStableValue_array, sortedForm_array, finiteOnly_array, finiteOnly_array, List.all_map,
        List.all_map, List.all_eq_true, List.all_eq_true]
      exact ⟨fun item hitem => (ih item hitem (hplain item hitem)).1,
        fun item hitem => (ih item hitem (hplain item hitem)).2⟩
  | object props ih =>
      have hprops := plainProps_iff.mp hplain
      have hvalues : ∀ prop ∈ props,
          (prop.2.map (finiteOnly ∘ toStableValue lc)).getD true = true ∧
            (prop.2.map (finiteOnly ∘ sortedForm codePoint)).getD true = true := by
        rintro ⟨key, value⟩ hprop
        obtain ⟨value, rfl, hplain⟩ := hprops.plain _ hprop
        exact ih key value hprop hplain
      rw [toStableValue_object, sortedForm_object, finiteOnly_object, finiteOnly_object,
        List.all_map, List.all_map, List.all_eq_true, List.all_eq_true]
      constructor
      · intro prop hprop
        have hvalue := (hvalues prop ((stableEntries_perm lc props).mem_iff.mp hprop)).1
        simpa [Option.map_map] using hvalue
      · intro prop hprop
        have hvalue := (hvalues prop ((sortOn.mem codePointLe Prod.fst).mp hprop)).2
        simpa [Option.map_map] using hvalue

/-- The texts of a plain value on both ends are equal exactly when it is aligned. -/
theorem render_toStableValue_eq_iff (hplain : isPlain value = true) :
    render (toStableValue lc value) = stableSerialize codePoint value ↔
      isAligned lc value = true := by
  obtain ⟨hleft, hright⟩ := finiteOnly_of_plain lc hplain
  rw [stableSerialize_eq_render, render_eq_iff, finiteForm_eq_self hleft,
    finiteForm_eq_self hright, toStableValue_eq_iff lc hplain]

end Values

/-! ## The text of the back end -/

section BackEnd

variable (floats : Floats F)

def memberDump (member : String × Json F) : String × Text :=
  (member.1, (dumps floats member.2).getD [])

theorem dumpsItems_of_isSome {items : List (Json F)}
    (hitems : ∀ item ∈ items, ∃ text, dumps floats item = some text) :
    dumpsItems floats items = some (items.map fun item => (dumps floats item).getD []) := by
  induction items with
  | nil => rfl
  | cons item items ih =>
      obtain ⟨text, htext⟩ := hitems item List.mem_cons_self
      simp [dumpsItems, htext, ih fun other hother => hitems other (List.mem_cons_of_mem _ hother)]

variable {members : List (String × Json F)}

theorem dumpsMembers_of_isSome
    (hmembers : ∀ member ∈ members, ∃ text, dumps floats member.2 = some text) :
    dumpsMembers floats members = some (members.map (memberDump floats)) := by
  induction members with
  | nil => rfl
  | cons member members ih =>
      obtain ⟨text, htext⟩ := hmembers member List.mem_cons_self
      simp [dumpsMembers, memberDump, htext,
        ih fun other hother => hmembers other (List.mem_cons_of_mem _ hother)]

theorem stableItems_eq (items : List (Json F)) : stableItems items = items.map stableValue := by
  induction items with
  | nil => rfl
  | cons item items ih => rw [stableItems, ih, List.map_cons]

theorem stableMembers_eq (members : List (String × Json F)) :
    stableMembers members = members.map fun member => (member.1, stableValue member.2) := by
  induction members with
  | nil => rfl
  | cons member members ih => rw [stableMembers, ih, List.map_cons]

theorem dumps_sorted (hmembers : ∀ member ∈ members, ∃ text, dumps floats member.2 = some text) :
    dumps floats (.dict (sortOn codePointLe Prod.fst members)) =
      some ('{' :: (commaJoin ((sortOn codePointLe Prod.fst
        (members.map (memberDump floats))).map Py.memberText) ++ ['}'])) := by
  have hsorted : sortOn codePointLe Prod.fst (sortOn codePointLe Prod.fst
      (members.map (memberDump floats))) = sortOn codePointLe Prod.fst
      (members.map (memberDump floats)) :=
    List.Pairwise.insertionSort_eq
      (sortOn.pairwise codePointLe Prod.fst codePoint.total codePoint.trans _)
  rw [dumps, dumpsMembers_of_isSome floats fun member hmember =>
      hmembers member ((sortOn.mem _ _).mp hmember),
    sortOn.map codePointLe Prod.fst Prod.fst (memberDump floats) fun _ => rfl]
  simp only [Option.bind_eq_bind, Option.bind_some, hsorted]
  rfl

/-- What arrives of the properties, with their values sorted. -/
def stableReceived (props : Props) : List (String × Json F) :=
  (receivedMembers props).map fun member => (member.1, stableValue member.2)

def DumpsAlike (prop : String × Option JsValue) : Prop :=
  ∃ value, prop.2 = some value ∧
    dumps floats (stableValue (received value)) = some (stableSerialize codePoint value)

theorem dumps_stableReceived {props : Props} (hprops : ∀ prop ∈ props, DumpsAlike floats prop) :
    ∀ member ∈ stableReceived props, ∃ text, dumps floats member.2 = some text := by
  intro member hmember
  obtain ⟨_, hreceived, rfl⟩ := List.mem_map.mp hmember
  obtain ⟨⟨key, value⟩, hprop, hsome⟩ := List.mem_filterMap.mp hreceived
  obtain ⟨value, rfl, htext⟩ := hprops _ hprop
  obtain rfl := Option.some.inj hsome
  exact ⟨_, htext⟩

theorem map_memberDump {props : Props} (hprops : ∀ prop ∈ props, DumpsAlike floats prop) :
    (props.map fun prop => (prop.1, prop.2.map (stableSerialize codePoint))) =
      ((stableReceived props).map (memberDump floats)).map fun text => (text.1, some text.2) := by
  induction props with
  | nil => rfl
  | cons prop props ih =>
      obtain ⟨key, value⟩ := prop
      obtain ⟨value, rfl, htext⟩ := hprops _ List.mem_cons_self
      have hrest := ih fun other hother => hprops other (List.mem_cons_of_mem _ hother)
      have hhead : memberDump floats (key, stableValue (received value)) =
          (key, stableSerialize codePoint value) := by rw [memberDump, htext, Option.getD_some]
      rw [List.map_cons, hrest]
      exact congrArg (fun text : String × Text => (text.1, some text.2) :: _) hhead.symm

/-- The back end writes what arrives of a plain value with its keys sorted by code points. -/
theorem dumps_stableValue (hplain : isPlain value = true) :
    dumps floats (stableValue (received value)) = some (stableSerialize codePoint value) := by
  induction value using JsValue.induction with
  | null => rfl
  | bool b => rfl
  | number n => exact congrArg some (intText_toInt hplain)
  | string s => rfl
  | array items ih =>
      rw [isPlain_array, List.all_eq_true] at hplain
      have hitems : ∀ item ∈ items, dumps floats (stableValue (received item)) =
          some (stableSerialize codePoint item) :=
        fun item hitem => ih item hitem (hplain item hitem)
      have htexts : dumpsItems floats ((items.map received).map stableValue) =
          some (items.map (stableSerialize codePoint)) := by
        rw [dumpsItems_of_isSome, List.map_map, List.map_map, Option.some.injEq]
        · refine List.map_congr_left fun item hitem => ?_
          rw [Function.comp_apply, Function.comp_apply, hitems item hitem, Option.getD_some]
        · rw [List.map_map]
          intro other hother
          obtain ⟨item, hitem, rfl⟩ := List.mem_map.mp hother
          exact ⟨_, hitems item hitem⟩
      rw [received_array, stableValue, stableItems_eq, dumps, htexts, stableSerialize,
        JsValue.fold_array]
      rfl
  | object props ih =>
      have hprops := plainProps_iff.mp hplain
      have hvalues : ∀ prop ∈ props, DumpsAlike floats prop := by
        rintro ⟨key, value⟩ hprop
        obtain ⟨value, rfl, hplain⟩ := hprops.plain _ hprop
        exact ⟨value, rfl, ih key value hprop hplain⟩
      have hserialize : stableSerialize codePoint (.object props) =
          '{' :: (commaJoin ((Props.sort codePointLe (props.map fun prop =>
            (prop.1, prop.2.map (stableSerialize codePoint)))).map Js.memberText) ++ ['}']) :=
        JsValue.fold_object _ props
      rw [received_object, stableValue, stableMembers_eq, ← stableReceived,
        dumps_sorted floats (dumps_stableReceived floats hvalues), hserialize,
        map_memberDump floats hvalues, Props.sort_map, List.map_map]
      rfl

end BackEnd

/-! ## Queries -/

section Queries

variable (lc : Collation) {floats : Floats F} {draft : ContextQueryDraft} {query : ContextQuery F}

structure PlainDraft (draft : ContextQueryDraft) : Prop where
  constraints : isPlain (.object draft.constraints) = true
  depth : isSafeInteger draft.depth = true

/-- The names of the fields are compared like texts of code points. -/
def SortsFields (lc : Collation) : Prop :=
  ∀ left ∈ contextQueryV1Keys, ∀ right ∈ contextQueryV1Keys,
    lc.le left right = codePointLe left right

instance (lc : Collation) : Decidable (SortsFields lc) :=
  inferInstanceAs (Decidable (∀ left ∈ contextQueryV1Keys, ∀ right ∈ contextQueryV1Keys, _))

theorem names_toProps (draft : ContextQueryDraft) : draft.toProps.names = contextQueryV1Keys := rfl

theorem PlainDraft.isPlain (hdraft : PlainDraft draft) :
    isPlain (.object draft.toProps) = true := by
  rw [isPlain_object, names_toProps, Bool.and_eq_true]
  refine ⟨by decide, ?_⟩
  have hdepth : Context.isPlain (.number draft.depth) = true := hdraft.depth
  simp only [ContextQueryDraft.toProps, List.all_cons, List.all_nil, Option.map_some,
    Option.getD_some, hdraft.constraints, hdepth]
  rfl

def sentMembers (draft : ContextQueryDraft) : List (String × Json F) :=
  [("queryId", .str draft.queryId), ("goal", .str draft.goal), ("scope", .str draft.scope.text),
    ("depth", .int (toInt draft.depth)), ("constraints", .dict (receivedMembers draft.constraints)),
    ("reviewFilter", .str draft.reviewFilter.text), ("safeModePolicy", .str "strict"),
    ("outputMode", .str draft.outputMode.text), ("previewConfirmed", .bool draft.previewConfirmed)]

theorem receivedMembers_toProps (draft : ContextQueryDraft) :
    receivedMembers draft.toProps = (sentMembers draft : List (String × Json F)) := by
  rw [sentMembers, ← received_object]
  rfl

theorem receive_eq_some (hdraft : PlainDraft draft) (hreceive : receive floats draft = some query) :
    query = ⟨draft.queryId, draft.goal, draft.scope, toInt draft.depth,
      receivedMembers draft.constraints, draft.reviewFilter, draft.outputMode,
      draft.previewConfirmed⟩ := by
  have hscope : Scope.ofText? draft.scope.text = some draft.scope := by cases draft.scope <;> rfl
  have hfilter : ReviewFilter.ofText? draft.reviewFilter.text = some draft.reviewFilter := by
    cases draft.reviewFilter <;> rfl
  have hmode : OutputMode.ofText? draft.outputMode.text = some draft.outputMode := by
    cases draft.outputMode <;> rfl
  rw [receive, loads_render floats hdraft.isPlain, Option.bind_eq_bind, Option.bind_some,
    received_object, receivedMembers_toProps] at hreceive
  have hqueryId : strField? (sentMembers draft : List (String × Json F)) "queryId" =
      some draft.queryId := rfl
  have hgoal : strField? (sentMembers draft : List (String × Json F)) "goal" =
      some draft.goal := rfl
  have hscope' : strField? (sentMembers draft : List (String × Json F)) "scope" =
      some draft.scope.text := rfl
  have hdepth : intField? (sentMembers draft : List (String × Json F)) "depth" =
      some (toInt draft.depth) := rfl
  have hconstraints : dictField? (sentMembers draft : List (String × Json F)) "constraints" =
      some (receivedMembers draft.constraints) := rfl
  have hfilter' : strField? (sentMembers draft : List (String × Json F)) "reviewFilter" =
      some draft.reviewFilter.text := rfl
  have hmode' : strField? (sentMembers draft : List (String × Json F)) "outputMode" =
      some draft.outputMode.text := rfl
  have hconfirmed : boolField? (sentMembers draft : List (String × Json F)) "previewConfirmed" =
      some draft.previewConfirmed := rfl
  simp only [ContextQuery.ofJson?, hqueryId, hgoal, hscope', hdepth, hconstraints, hfilter', hmode',
    hconfirmed, hscope, hfilter, hmode, Option.bind_eq_bind, Option.bind_some,
    Option.bind_eq_some_iff] at hreceive
  obtain ⟨_, -, _, -, _, -, _, -, _, -, _, -, hquery⟩ := hreceive
  exact (Option.some.inj hquery).symm

theorem canonicalText_eq (hdraft : PlainDraft draft)
    (hreceive : receive floats draft = some query) :
    canonicalText floats (canonicalQueryHashPayload query) =
      some (stableSerialize codePoint (.object draft.toProps)) := by
  have hprops := plainProps_iff.mp hdraft.isPlain
  have hvalues : ∀ prop ∈ draft.toProps, DumpsAlike floats prop := by
    intro prop hprop
    obtain ⟨value, hvalue, hplain⟩ := hprops.plain prop hprop
    exact ⟨value, hvalue, dumps_stableValue floats hplain⟩
  have hpayload : canonicalQueryHashPayload query = .dict (stableReceived draft.toProps) := by
    rw [receive_eq_some hdraft hreceive, stableReceived, receivedMembers_toProps]
    rfl
  have hmembers := dumps_stableReceived floats hvalues
  have hsorted := dumps_stableValue floats hdraft.isPlain
  rw [received_object, stableValue, stableMembers_eq, ← stableReceived,
    dumps_sorted floats hmembers] at hsorted
  rw [canonicalText, hpayload, ← hsorted, dumps, dumpsMembers_of_isSome floats hmembers]
  rfl

/-- The fields of a query are ordered alike on both ends. -/
theorem isAligned_draft (hfields : SortsFields lc) (draft : ContextQueryDraft) :
    isAligned lc (.object draft.toProps) = isAligned lc (.object draft.constraints) := by
  have hnone : ∀ key ∈ contextQueryV1Keys, arrayIndex? key = none := by decide
  have hkey : ∀ prop ∈ Props.sort lc.le draft.toProps, prop.1 ∈ contextQueryV1Keys := by
    intro prop hprop
    rw [← names_toProps draft]
    exact List.mem_map_of_mem ((sortOn.mem lc.le Prod.fst).mp hprop)
  have henumerate : stableEntries lc draft.toProps = Props.sort lc.le draft.toProps := by
    refine List.Pairwise.insertionSort_eq (List.pairwise_of_forall_mem_list ?_)
    intro left hleft right hright
    rw [indexLe, hnone _ (hkey left hleft), hnone _ (hkey right hright)]
  have hpairwise : ((stableEntries lc draft.toProps).map Prod.fst).Pairwise
      fun left right => codePointLe left right = true := by
    rw [henumerate, List.pairwise_map]
    refine (sortOn.pairwise lc.le Prod.fst lc.total lc.trans draft.toProps).imp_of_mem ?_
    intro left right hleft hright hle
    rw [← hfields _ (hkey left hleft) _ (hkey right hright)]
    exact hle
  rw [isAligned_object, decide_eq_true hpairwise, Bool.true_and]
  simp only [ContextQueryDraft.toProps, List.all_cons, List.all_nil, Option.map_some,
    Option.getD_some]
  exact Bool.and_true _

theorem canonicalText_eq_iff (hfields : SortsFields lc) (hdraft : PlainDraft draft)
    (hreceive : receive floats draft = some query) :
    canonicalText floats (canonicalQueryHashPayload query) = some (toCanonicalQueryKey lc draft) ↔
      isAligned lc (.object draft.constraints) = true := by
  rw [canonicalText_eq hdraft hreceive, Option.some.injEq, eq_comm, toCanonicalQueryKey,
    render_toStableValue_eq_iff lc hdraft.isPlain, isAligned_draft lc hfields]

/-- A server that answers with the hash of the back end is not taken for nondeterministic. -/
def Accepted (lc : Collation) (floats : Floats F) (draft : ContextQueryDraft)
    (query : ContextQuery F) : Prop :=
  ∀ (sha256 : Sha256) (response : Props),
    response.string? "queryCanonicalHash" =
      sha256Canonical floats sha256 (canonicalQueryHashPayload query) →
    runMockContextIntegration lc sha256 draft response ≠ .nondeterministicBundle

theorem accepted_of_eq (heq : canonicalText floats (canonicalQueryHashPayload query) =
    some (toCanonicalQueryKey lc draft)) : Accepted lc floats draft query := by
  intro sha256 response hhonest
  rw [sha256Canonical, heq] at hhonest
  unfold runMockContextIntegration
  simp only [toCanonicalQueryHash, hhonest, Option.map_some, ne_eq, not_true, if_false]
  split
  · simp
  split
  · split <;> simp
  split <;> simp

/-- Both ends hash one text, and the front end accepts the hash, exactly when the properties of
every object in the constraints are enumerated in the order of code points. -/
theorem canonicalHash_agrees_iff (hfields : SortsFields lc) (hdraft : PlainDraft draft)
    (hreceive : receive floats draft = some query) :
    (canonicalText floats (canonicalQueryHashPayload query) =
        some (toCanonicalQueryKey lc draft) ∧ Accepted lc floats draft query) ↔
      isAligned lc (.object draft.constraints) = true := by
  rw [← canonicalText_eq_iff lc hfields hdraft hreceive]
  exact ⟨And.left, fun heq => ⟨heq, accepted_of_eq lc heq⟩⟩

end Queries

namespace Letters

/-- Texts are compared without the case of their letters first. -/
def letterKey (s : String) : List Nat :=
  s.toList.map (fun c => c.toLower.toNat) ++
    0 :: s.toList.map fun c => if c.isUpper then 1 else 0

/-- The order of `localeCompare` on ASCII letters and digits. -/
def collation : Collation where
  le left right := decide (letterKey left ≤ letterKey right)
  total left right := by
    simp only [decide_eq_true_eq]
    exact le_total _ _
  trans a b c hab hbc := by
    simp only [decide_eq_true_eq] at hab hbc ⊢
    exact hab.trans hbc

/-- Texts without floats. -/
def floats : Floats Unit where
  repr _ := none
  ofText _ := ()

def draft (constraints : Props) : ContextQueryDraft :=
  ⟨"q", "g", .document, .one, constraints, .reviewedOnly, .summary, true⟩

theorem sortsFields : SortsFields collation := by decide +kernel

/-- A query is received from a draft with these constraints, and its texts differ. -/
def Differs (constraints : Props) : Prop :=
  ∃ query, receive floats (draft constraints) = some query ∧ query.previewConfirmed = true ∧
    canonicalText floats (canonicalQueryHashPayload query) ≠
      some (toCanonicalQueryKey collation (draft constraints))

theorem differs_of_not_isAligned {constraints : Props}
    (hplain : isPlain (.object constraints) = true)
    (hnot : isAligned collation (.object constraints) = false)
    (hsome : (receive floats (draft constraints)).isSome = true) : Differs constraints := by
  obtain ⟨query, hquery⟩ := Option.isSome_iff_exists.mp hsome
  have hdraft : PlainDraft (draft constraints) := ⟨hplain, (by decide : isSafeInteger .one = true)⟩
  refine ⟨query, hquery, ?_, ?_⟩
  · rw [receive_eq_some hdraft hquery]
    rfl
  · rw [ne_eq, canonicalText_eq_iff collation sortsFields hdraft hquery]
    exact ne_true_of_eq_false hnot

/-- The texts differ for `{"B":true,"a":true}` and for `{"10":true,"9":true}`. -/
theorem texts_differ : Differs [("B", some (.bool true)), ("a", some (.bool true))] ∧
    Differs [("10", some (.bool true)), ("9", some (.bool true))] :=
  ⟨differs_of_not_isAligned (by decide +kernel) (by decide +kernel) (by decide +kernel),
    differs_of_not_isAligned (by decide +kernel) (by decide +kernel) (by decide +kernel)⟩

/-- The texts are equal for `{"a":{"x":true},"b":true}`. -/
theorem texts_agree : ∃ query, receive floats (draft [("b", some (.bool true)),
      ("a", some (.object [("x", some (.bool true))]))]) = some query ∧
    canonicalText floats (canonicalQueryHashPayload query) =
      some (toCanonicalQueryKey collation (draft [("b", some (.bool true)),
        ("a", some (.object [("x", some (.bool true))]))])) := by
  obtain ⟨query, hquery⟩ := Option.isSome_iff_exists.mp (by decide +kernel :
    (receive floats (draft [("b", some (.bool true)),
      ("a", some (.object [("x", some (.bool true))]))])).isSome = true)
  exact ⟨query, hquery, ((canonicalHash_agrees_iff collation sortsFields
    ⟨by decide +kernel, by decide⟩ hquery).mpr (by decide +kernel)).1⟩

end Letters

end KjAtlas.Context
