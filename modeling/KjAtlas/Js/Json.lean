import KjAtlas.Js.Order
import KjAtlas.Js.Text

/-! # JSON round trips and stable serialization

`JSON.parse(JSON.stringify(value))` forgets the properties equal to `undefined`
and turns numbers that are not finite into `null`. `stableSerialize` writes a
value with the properties of every object sorted by name. It still writes the
properties equal to `undefined`.
-/

namespace KjAtlas.Js

/-! ## The JSON image of a value -/

/-- `JSON.parse(JSON.stringify(value))`. -/
def jsonImage : JsValue → JsValue := JsValue.fold {
  null := .null
  bool := .bool
  number n := if n.isFinite then .number n else .null
  string := .string
  array := .array
  object props := .object (props.filter fun prop => prop.2.isSome) }

def Props.json (props : Props) : Props :=
  (props.map fun prop => (prop.1, prop.2.map jsonImage)).filter fun prop => prop.2.isSome

/-- Whether no property, at any depth, is present and equal to `undefined`. -/
def definedOnly : JsValue → Bool := JsValue.fold {
  null := true
  bool _ := true
  number _ := true
  string _ := true
  array items := items.all id
  object props := props.all fun prop => prop.2.getD false }

/-- Whether every number, at any depth, is finite. -/
def finiteOnly : JsValue → Bool := JsValue.fold {
  null := true
  bool _ := true
  number := JsNumber.isFinite
  string _ := true
  array items := items.all id
  object props := props.all fun prop => prop.2.getD true }

@[simp] theorem jsonImage_string (s : String) : jsonImage (.string s) = .string s := rfl

theorem jsonImage_array (items : List JsValue) :
    jsonImage (.array items) = .array (items.map jsonImage) :=
  JsValue.fold_array _ items

theorem jsonImage_object (props : Props) : jsonImage (.object props) = .object props.json :=
  JsValue.fold_object _ props

theorem definedOnly_array (items : List JsValue) :
    definedOnly (.array items) = items.all definedOnly :=
  (JsValue.fold_array _ items).trans List.all_map

theorem definedOnly_object (props : Props) :
    definedOnly (.object props) =
      props.all fun prop => (prop.2.map definedOnly).getD false :=
  (JsValue.fold_object _ props).trans List.all_map

theorem finiteOnly_array (items : List JsValue) :
    finiteOnly (.array items) = items.all finiteOnly :=
  (JsValue.fold_array _ items).trans List.all_map

theorem finiteOnly_object (props : Props) :
    finiteOnly (.object props) = props.all fun prop => (prop.2.map finiteOnly).getD true :=
  (JsValue.fold_object _ props).trans List.all_map

namespace Props

theorem json_cons (prop : String × Option JsValue) (props : Props) :
    json (prop :: props) =
      (prop.2.map fun value => (prop.1, some (jsonImage value))).toList ++ json props := by
  obtain ⟨key, value⟩ := prop
  cases value <;> simp [json]

theorem get_json (props : Props) (key : String) :
    get props.json key = (get props key).map jsonImage := by
  induction props with
  | nil => rfl
  | cons prop props ih =>
      rw [json_cons, get_cons, Option.map_or, ← ih]
      obtain ⟨name, value⟩ := prop
      cases value with
      | none => simp
      | some value =>
          simp only [Option.map_some, Option.toList_some, List.singleton_append, get_cons]
          split <;> rfl

theorem mem_names_json {props : Props} {key : String} :
    key ∈ names props.json ↔ get props key ≠ none := by
  induction props with
  | nil => simp [json, names]
  | cons prop props ih =>
      obtain ⟨name, value⟩ := prop
      rw [json_cons, get_cons, names, List.map_append, List.mem_append]
      cases value with
      | none => simpa [names] using ih
      | some value =>
          by_cases hkey : name = key
          · simp [hkey]
          · simpa [hkey, Ne.symm hkey, names] using ih

end Props

theorem props_jsonImage (value : JsValue) : (jsonImage value).props = value.props.json := by
  cases value with
  | number n => cases n <;> rfl
  | array items => rw [jsonImage_array]; rfl
  | object props => rw [jsonImage_object]; rfl
  | _ => rfl

@[simp] theorem string?_jsonImage (value : JsValue) : (jsonImage value).string? = value.string? := by
  cases value with
  | number n => cases n <;> rfl
  | array items => rw [jsonImage_array]; rfl
  | object props => rw [jsonImage_object]; rfl
  | _ => rfl

@[simp] theorem Props.string?_json (props : Props) (key : String) :
    string? props.json key = string? props key := by
  rw [string?, string?, get_json]
  cases get props key with
  | none => rfl
  | some value => exact string?_jsonImage value

theorem strings?_jsonImage (value : JsValue) : (jsonImage value).strings? = value.strings? := by
  cases value with
  | number n => cases n <;> rfl
  | array items =>
      rw [jsonImage_array]
      simp only [JsValue.strings?]
      induction items with
      | nil => rfl
      | cons item items ih => simp [List.mapM_cons, ih]
  | object props => rw [jsonImage_object]; rfl
  | _ => rfl

@[simp] theorem Props.strings?_json (props : Props) (key : String) :
    strings? props.json key = strings? props key := by
  rw [strings?, strings?, get_json]
  cases get props key with
  | none => rfl
  | some value => exact strings?_jsonImage value

theorem finiteForm_eq_self {value : JsValue} (hfinite : finiteOnly value = true) :
    finiteForm value = value := by
  induction value using JsValue.induction with
  | null => rfl
  | bool b => rfl
  | number n =>
      have hn : n.isFinite = true := hfinite
      simp [finiteForm, JsValue.fold, hn]
  | string s => rfl
  | array items ih =>
      rw [finiteOnly_array, List.all_eq_true] at hfinite
      rw [finiteForm_array, List.map_congr_left fun item hitem =>
        ih item hitem (hfinite item hitem), List.map_id']
  | object props ih =>
      rw [finiteOnly_object, List.all_eq_true] at hfinite
      have hprops : ∀ prop ∈ props, propForm prop = prop := by
        rintro ⟨key, value⟩ hprop
        cases value with
        | none => rfl
        | some value => simp [propForm, ih key value hprop (hfinite _ hprop)]
      rw [finiteForm_object, List.map_congr_left hprops, List.map_id']

/-! ## Stable serialization -/

section Stable

variable (lc : Collation)

/-- `stableSerialize(value)`: properties in the order of `localeCompare`. -/
def stableSerialize : JsValue → Text := JsValue.fold {
  renderAlgebra with
  object := fun members =>
    '{' :: (commaJoin ((Props.sort lc.le members).map memberText) ++ ['}']) }

/-- The value with the properties of every object sorted by name. -/
def sortedForm : JsValue → JsValue := JsValue.fold {
  null := .null
  bool := .bool
  number := .number
  string := .string
  array := .array
  object := fun props => .object (Props.sort lc.le props) }

theorem sortedForm_array (items : List JsValue) :
    sortedForm lc (.array items) = .array (items.map (sortedForm lc)) :=
  JsValue.fold_array _ items

theorem sortedForm_object (props : Props) :
    sortedForm lc (.object props) =
      .object ((Props.sort lc.le props).map fun prop => (prop.1, prop.2.map (sortedForm lc))) :=
  (JsValue.fold_object _ props).trans
    (congrArg JsValue.object (Props.sort_map lc.le (Option.map (sortedForm lc)) props))

theorem stableSerialize_eq_render (value : JsValue) :
    stableSerialize lc value = render (sortedForm lc value) := by
  induction value using JsValue.induction with
  | null => rfl
  | bool b => rfl
  | number n => rfl
  | string s => rfl
  | array items ih =>
      rw [sortedForm_array, render_array, List.map_map, stableSerialize, JsValue.fold_array]
      have hitems : ∀ item ∈ items, stableSerialize lc item = (render ∘ sortedForm lc) item := ih
      rw [← List.map_congr_left hitems]
      rfl
  | object props ih =>
      rw [sortedForm_object, render_object, List.map_map, stableSerialize, JsValue.fold_object]
      simp only [renderAlgebra, Props.sort_map, List.map_map]
      have hprops : ∀ prop ∈ Props.sort lc.le props,
          (propText ∘ fun prop : String × Option JsValue => (prop.1, prop.2.map (sortedForm lc)))
            prop = memberText (prop.1, prop.2.map (stableSerialize lc)) := by
        rintro ⟨key, value⟩ hprop
        cases value with
        | none => rfl
        | some value =>
            have hmem := (sortOn.mem lc.le Prod.fst).mp hprop
            simp [propText, ih key value hmem]
      rw [List.map_congr_left hprops]
      rfl

/-- Values with one stable serialization agree up to the order of properties
and numbers that are not finite. -/
theorem stableSerialize_eq_iff {v w : JsValue} :
    stableSerialize lc v = stableSerialize lc w ↔
      finiteForm (sortedForm lc v) = finiteForm (sortedForm lc w) := by
  rw [stableSerialize_eq_render, stableSerialize_eq_render, render_eq_iff]

/-- `isEqual(left, right)`. -/
def isEqual (left right : JsValue) : Bool :=
  decide (stableSerialize lc left = stableSerialize lc right)

@[simp] theorem isEqual_iff {left right : JsValue} :
    isEqual lc left right = true ↔ stableSerialize lc left = stableSerialize lc right := by
  simp [isEqual]

theorem stableSerialize_object_ne_null (props : Props) :
    stableSerialize lc (.object props) ≠ stableSerialize lc .null := by
  rw [stableSerialize_eq_render, sortedForm_object, render_object]
  simp [stableSerialize, JsValue.fold, renderAlgebra]

end Stable

end KjAtlas.Js
