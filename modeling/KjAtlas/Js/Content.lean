import KjAtlas.Foundation.KeyedStore
import KjAtlas.Js.Json

/-! # Values up to representation

Two objects with the same properties may list them in different orders, and a
property equal to `undefined` often stands for an absent one. The content of a
value forgets both.
-/

namespace KjAtlas.Js

/-! ## Properties under distinct names -/

variable {props : Props}

namespace Props

def own {α : Type} (entries : List (String × α)) (key : String) : Option α :=
  (findBy Prod.fst key entries).map Prod.snd

variable {α β : Type} {entries : List (String × α)}

theorem own_eq_some (hnodup : (entries.map Prod.fst).Nodup) {key : String} {value : α} :
    own entries key = some value ↔ (key, value) ∈ entries := by
  rw [own, Option.map_eq_some_iff]
  constructor
  · rintro ⟨entry, hfind, rfl⟩
    obtain ⟨hmem, rfl⟩ := findBy_eq_some Prod.fst hfind
    exact hmem
  · exact fun hmem => ⟨(key, value), findBy_of_mem Prod.fst hnodup hmem, rfl⟩

@[simp] theorem own_nil (key : String) : own ([] : List (String × α)) key = none := rfl

theorem own_cons (entry : String × α) (entries : List (String × α)) (key : String) :
    own (entry :: entries) key =
      (if entry.1 = key then some entry.2 else none).or (own entries key) := by
  rw [own, findBy_cons]
  split <;> rfl

theorem own_append (left right : List (String × α)) (key : String) :
    own (left ++ right) key = (own left key).or (own right key) := by
  rw [own, findBy, List.find?_append, Option.map_or]
  rfl

theorem own_map (f : String → α → β) (entries : List (String × α)) (key : String) :
    own (entries.map fun entry => (entry.1, f entry.1 entry.2)) key =
      (own entries key).map (f key) := by
  induction entries with
  | nil => rfl
  | cons entry entries ih =>
      rw [List.map_cons, own_cons, own_cons, ih, Option.map_or]
      by_cases hkey : entry.1 = key
      · simp [hkey]
      · simp [hkey]

theorem own_eq_none {key : String} : own entries key = none ↔ key ∉ entries.map Prod.fst := by
  rw [own, Option.map_eq_none_iff, findBy_eq_none, List.mem_map, not_exists]
  exact forall_congr' fun _ => not_and.symm

theorem hasOwn_eq_isSome (props : Props) (key : String) :
    props.hasOwn key = (own props key).isSome := by
  rw [hasOwn, own, Option.isSome_map, Bool.eq_iff_iff, findBy_isSome]
  simp

theorem forall_own_iff {entries : List (String × α)} (hnodup : (entries.map Prod.fst).Nodup)
    {P : String → α → Prop} :
    (∀ key, ∀ value ∈ own entries key, P key value) ↔ ∀ entry ∈ entries, P entry.1 entry.2 := by
  constructor
  · exact fun hown entry hentry => hown entry.1 entry.2 ((own_eq_some hnodup).mpr hentry)
  · exact fun hentries key value hown => hentries (key, value) ((own_eq_some hnodup).mp hown)

/-- With distinct names, sorting keeps what is found under a name and nothing else. -/
theorem sort_eq_iff {left right : List (String × α)} (hleft : (left.map Prod.fst).Nodup)
    (hright : (right.map Prod.fst).Nodup) :
    Props.sort codeUnitLe left = Props.sort codeUnitLe right ↔
      ∀ key, own left key = own right key := by
  constructor
  · intro heq key
    have hsorted : ∀ entries : List (String × α), ∀ entry,
        entry ∈ Props.sort codeUnitLe entries ↔ entry ∈ entries :=
      fun _ _ => sortOn.mem codeUnitLe Prod.fst
    have hmem : ∀ entry, entry ∈ left ↔ entry ∈ right := by
      intro entry
      rw [← hsorted left, heq, hsorted right]
    ext value
    rw [own_eq_some hleft, own_eq_some hright, hmem]
  · intro hown
    refine Props.sort_eq_of_perm hleft ((List.perm_ext_iff_of_nodup hleft.of_map hright.of_map).mpr
      fun entry => ?_)
    rw [← own_eq_some hleft, ← own_eq_some hright, hown]

def defined (props : Props) : Props := props.filter fun prop => prop.2.isSome

theorem names_defined (hnodup : (names props).Nodup) : (names props.defined).Nodup :=
  hnodup.sublist (List.filter_sublist.map _)

/-- With distinct names, reading a property is reading its entry. -/
theorem get_eq_own (hnodup : (names props).Nodup) (key : String) :
    get props key = (own props key).join := by
  induction props with
  | nil => rfl
  | cons prop props ih =>
      simp only [names, List.map_cons, List.nodup_cons] at hnodup
      rw [get_cons, own, findBy_cons]
      by_cases hkey : prop.1 = key
      · rw [if_pos hkey, if_pos hkey]
        have hrest : get props key = none := by
          rw [ih hnodup.2, own, (findBy_eq_none Prod.fst).mpr]
          · rfl
          · intro entry hentry heq
            exact hnodup.1 (hkey ▸ heq ▸ List.mem_map_of_mem hentry)
        rw [hrest, Option.or_none]
        rfl
      · rw [if_neg hkey, if_neg hkey, Option.none_or]
        exact ih hnodup.2

theorem own_defined (hnodup : (names props).Nodup) (key : String) :
    own props.defined key = (get props key).map some := by
  rw [get_eq_own hnodup, own, defined, findBy_filter Prod.fst key _ hnodup, own]
  cases findBy Prod.fst key props with
  | none => rfl
  | some entry =>
      obtain ⟨name, value⟩ := entry
      cases value <;> rfl

theorem defined_ne_nil_iff : props.defined ≠ [] ↔ ∃ key, (props.get key).isSome = true := by
  constructor
  · intro hne
    obtain ⟨⟨key, value⟩, hprop⟩ := List.exists_mem_of_ne_nil _ hne
    obtain ⟨hmem, hsome⟩ := List.mem_filter.mp hprop
    refine ⟨key, ?_⟩
    rw [Props.get, List.findSome?_isSome_iff]
    exact ⟨_, hmem, by simpa using hsome⟩
  · rintro ⟨key, hsome⟩ hnil
    obtain ⟨value, hget⟩ := Option.isSome_iff_exists.mp hsome
    have hmem : (key, some value) ∈ props.defined := List.mem_filter.mpr ⟨mem_of_get hget, rfl⟩
    rw [hnil] at hmem
    exact List.not_mem_nil hmem

theorem get_defined (props : Props) (key : String) :
    Props.get props.defined key = props.get key := by
  induction props with
  | nil => rfl
  | cons prop props ih =>
      obtain ⟨name, value⟩ := prop
      rw [Props.get_cons, ← ih]
      cases value with
      | none =>
          rw [ite_self, Option.none_or]
          rfl
      | some value => exact Props.get_cons _ _ _

theorem own_of_all_defined (hnodup : (names props).Nodup)
    (hdefined : ∀ prop ∈ props, prop.2.isSome = true) (key : String) :
    own props key = (get props key).map some := by
  rw [← own_defined hnodup, defined, List.filter_eq_self.mpr hdefined]

theorem names_json (props : Props) : names props.json = names props.defined := by
  simp only [names, json, defined, List.filter_map, List.map_map]
  congr 1
  exact List.filter_congr fun prop _ => Option.isSome_map

end Props

/-! ## Content -/

/-- A value up to the order of properties and properties equal to `undefined`. -/
def content : JsValue → JsValue := JsValue.fold {
  null := .null
  bool := .bool
  number := .number
  string := .string
  array := .array
  object := fun props => .object (Props.sort codeUnitLe (Props.defined props)) }

/-- The properties of an object, each up to its content, in no particular order. -/
def contentProps (props : Props) : Props :=
  props.defined.map fun prop => (prop.1, prop.2.map content)

theorem content_array (items : List JsValue) :
    content (.array items) = .array (items.map content) :=
  JsValue.fold_array _ items

theorem content_object (props : Props) :
    content (.object props) = .object (Props.sort codeUnitLe (contentProps props)) := by
  have hdefined : Props.defined (props.map fun prop => (prop.1, prop.2.map content)) =
      contentProps props := by
    rw [Props.defined, List.filter_map, contentProps, Props.defined]
    congr 1
    apply List.filter_congr
    intro prop _
    exact Option.isSome_map
  rw [← hdefined]
  exact JsValue.fold_object _ props

theorem own_contentProps (hnodup : (Props.names props).Nodup) (key : String) :
    Props.own (contentProps props) key = (props.get key).map fun value => some (content value) := by
  rw [contentProps, Props.own_map fun _ => Option.map content, Props.own_defined hnodup,
    Option.map_map]
  rfl

theorem nodup_contentProps (hnodup : (Props.names props).Nodup) :
    ((contentProps props).map Prod.fst).Nodup := by
  rw [contentProps, List.map_map]
  exact Props.names_defined hnodup

theorem content_object_eq_iff {left right : Props} (hleft : (Props.names left).Nodup)
    (hright : (Props.names right).Nodup) :
    content (.object left) = content (.object right) ↔
      ∀ key, (left.get key).map content = (right.get key).map content := by
  rw [content_object, content_object, JsValue.object.injEq,
    Props.sort_eq_iff (nodup_contentProps hleft) (nodup_contentProps hright)]
  refine forall_congr' fun key => ?_
  rw [own_contentProps hleft, own_contentProps hright]
  cases left.get key <;> cases right.get key <;> simp

/-! ## Properties with the same content -/

theorem string?_content (value : JsValue) : (content value).string? = value.string? := by
  cases value with
  | array items => rw [content_array]; rfl
  | object props => rw [content_object]; rfl
  | _ => rfl

/-- Whether two objects have the same properties, each up to its content. -/
def SameProps (left right : Props) : Prop :=
  ∀ key, (left.get key).map content = (right.get key).map content

theorem SameProps.string? {left right : Props} (hsame : SameProps left right) (key : String) :
    left.string? key = right.string? key := by
  have hread : ∀ value : Option JsValue,
      (value.map content).bind JsValue.string? = value.bind JsValue.string? := by
    intro value
    cases value with
    | none => rfl
    | some value => exact string?_content value
  rw [Props.string?, Props.string?, ← hread, hsame key, hread]

theorem string?_eq_of_content {left right : Props} (hleft : (Props.names left).Nodup)
    (hright : (Props.names right).Nodup)
    (hcontent : content (.object left) = content (.object right)) (key : String) :
    left.string? key = right.string? key :=
  SameProps.string? ((content_object_eq_iff hleft hright).mp hcontent) key

theorem finiteOnly_object_iff (hnodup : (Props.names props).Nodup) :
    finiteOnly (.object props) = true ↔
      ∀ key, ∀ value ∈ props.get key, finiteOnly value = true := by
  rw [finiteOnly_object, List.all_eq_true]
  constructor
  · intro hall key value hget
    exact hall _ (Props.mem_of_get hget)
  · rintro hget ⟨key, value⟩ hprop
    cases value with
    | none => rfl
    | some value =>
        have hown : Props.own props key = some (some value) :=
          (Props.own_eq_some hnodup).mpr hprop
        refine hget key value ?_
        rw [Props.get_eq_own hnodup, hown]
        rfl

/-- A JSON round trip keeps the content of a value exactly when all its
numbers are finite. -/
theorem content_jsonImage_iff (value : JsValue) :
    content (jsonImage value) = content value ↔ finiteOnly value = true := by
  induction value using JsValue.induction with
  | null => simp [jsonImage, JsValue.fold, finiteOnly]
  | bool b => simp [jsonImage, JsValue.fold, finiteOnly]
  | number n =>
      have hfinite : finiteOnly (.number n) = n.isFinite := rfl
      rw [hfinite]
      cases n <;> simp [jsonImage, JsValue.fold, content, JsNumber.isFinite]
  | string s => simp [jsonImage, JsValue.fold, finiteOnly]
  | array items ih =>
      rw [jsonImage_array, content_array, content_array, finiteOnly_array, JsValue.array.injEq,
        List.map_map, List.map_inj_left, List.all_eq_true]
      exact forall₂_congr fun item hitem => ih item hitem
  | object props ih =>
      rw [jsonImage_object, content_object, content_object, finiteOnly_object,
        JsValue.object.injEq, List.all_eq_true]
      have hprops : contentProps props.json =
          props.defined.map fun prop => (prop.1, prop.2.map (content ∘ jsonImage)) := by
        rw [contentProps, Props.json, Props.defined, List.filter_filter]
        simp only [Bool.and_self]
        rw [List.filter_map, List.map_map, Props.defined]
        have hfilter : (props.filter ((fun prop : String × Option JsValue => prop.2.isSome) ∘
            fun prop => (prop.1, prop.2.map jsonImage))) =
              props.filter fun prop => prop.2.isSome :=
          List.filter_congr fun prop _ => Option.isSome_map
        rw [hfilter]
        apply List.map_congr_left
        intro prop _
        simp
      have hkeys : (contentProps props.json).map Prod.fst = (contentProps props).map Prod.fst := by
        rw [hprops, contentProps, List.map_map, List.map_map]
        rfl
      constructor
      · intro heq
        have hlists := sortOn.inj_of_keys codeUnitLe Prod.fst hkeys heq
        rw [hprops, contentProps, List.map_inj_left] at hlists
        rintro ⟨key, value⟩ hprop
        cases value with
        | none => rfl
        | some value =>
            have hvalue := hlists (key, some value) (List.mem_filter.mpr ⟨hprop, rfl⟩)
            exact (ih key value hprop).mp (by simpa using hvalue)
      · intro hfinite
        rw [hprops, contentProps]
        congr 1
        apply List.map_congr_left
        rintro ⟨key, value⟩ hprop
        cases value with
        | none => rfl
        | some value =>
            have hmem := (List.mem_filter.mp hprop).1
            simp [(ih key value hmem).mpr (hfinite _ hmem)]

end KjAtlas.Js
