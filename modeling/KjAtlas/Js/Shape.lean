import KjAtlas.Js.Content

/-! # Shapes of values

A shape is a test on values, as a structural type describes it. An object has
the shape of a record when all its properties are declared and of their
declared shapes; an optional property may be absent or equal to `undefined`.
-/

namespace KjAtlas.Js

/-- A test on values. -/
abbrev Shape := JsValue → Bool

/-- A declared property of a record. -/
structure Field where
  name : String
  optional : Bool
  shape : Shape

/-- A required property. -/
def has (name : String) (shape : Shape) : Field := ⟨name, false, shape⟩

/-- A property declared with a question mark. -/
def mayHave (name : String) (shape : Shape) : Field := ⟨name, true, shape⟩

variable {key : String} {value : JsValue}

namespace Shape

def string : Shape
  | .string _ => true
  | _ => false

def number : Shape
  | .number _ => true
  | _ => false

def boolean : Shape
  | .bool _ => true
  | _ => false

def literals (texts : List String) : Shape
  | .string s => texts.contains s
  | _ => false

def array (item : Shape) : Shape
  | .array items => items.all item
  | _ => false

/-- A union of two types. -/
def either (left right : Shape) : Shape := fun value => left value || right value

def null : Shape
  | .null => true
  | _ => false

def declares (fields : List Field) (prop : String × Option JsValue) : Bool :=
  fields.any fun field => decide (field.name = prop.1) &&
    match prop.2 with
    | none => field.optional
    | some value => field.shape value

def record (fields : List Field) : Shape
  | .object props =>
      decide (Props.names props).Nodup && props.all (declares fields) &&
        fields.all fun field => field.optional || (Props.get props field.name).isSome
  | _ => false

section Record

variable {fields : List Field} {props : Props}

theorem record_nodup (hrecord : record fields (.object props) = true) :
    (Props.names props).Nodup := by
  simp only [record, Bool.and_eq_true, decide_eq_true_eq] at hrecord
  exact hrecord.1.1

theorem record_get (hrecord : record fields (.object props) = true)
    (hget : props.get key = some value) :
    ∃ field ∈ fields, field.name = key ∧ field.shape value = true := by
  simp only [record, Bool.and_eq_true, List.all_eq_true] at hrecord
  have hdeclared := hrecord.1.2 _ (Props.mem_of_get hget)
  simpa [declares] using hdeclared

theorem record_own (hrecord : record fields (.object props) = true)
    (hkey : ∀ field ∈ fields, field.name ≠ key) : Props.own props key = none := by
  rw [Props.own_eq_none]
  intro hmem
  obtain ⟨prop, hprop, rfl⟩ := List.mem_map.mp hmem
  simp only [record, Bool.and_eq_true, List.all_eq_true] at hrecord
  have hdeclared := hrecord.1.2 prop hprop
  simp only [declares, List.any_eq_true, Bool.and_eq_true, decide_eq_true_eq] at hdeclared
  obtain ⟨field, hfield, hname, -⟩ := hdeclared
  exact hkey field hfield hname

theorem record_required (hrecord : record fields (.object props) = true) {field : Field}
    (hfield : field ∈ fields) (hrequired : field.optional = false) :
    ∃ value, props.get field.name = some value := by
  simp only [record, Bool.and_eq_true, List.all_eq_true, Bool.or_eq_true] at hrecord
  rcases hrecord.2 field hfield with hoptional | hsome
  · rw [hrequired] at hoptional
    contradiction
  · exact Option.isSome_iff_exists.mp hsome

theorem hasOwn_of_has (hrecord : record fields (.object props) = true) {key : String}
    {shape : Shape} (hfield : has key shape ∈ fields) : props.hasOwn key = true := by
  obtain ⟨value, hget⟩ := record_required hrecord hfield rfl
  exact List.any_eq_true.mpr ⟨_, Props.mem_of_get hget, by simp [has]⟩

/-- The shape of a defined property whose declaration is known. -/
theorem record_shape (hrecord : record fields (.object props) = true) {shape : Shape}
    (hfield : ∀ field ∈ fields, field.name = key → field.shape = shape)
    (hget : props.get key = some value) : shape value = true := by
  obtain ⟨field, hmem, hname, hshape⟩ := record_get hrecord hget
  rw [← hfield field hmem hname]
  exact hshape

/-- A required property is defined and of its declared shape. -/
theorem record_has (hrecord : record fields (.object props) = true) {shape : Shape}
    (hfield : has key shape ∈ fields)
    (hunique : ∀ field ∈ fields, field.name = key → field.shape = shape) :
    ∃ value, props.get key = some value ∧ shape value = true := by
  obtain ⟨value, hget⟩ := record_required hrecord hfield rfl
  exact ⟨value, hget, record_shape hrecord hunique hget⟩

theorem isObject_of_record (hrecord : record fields value = true) :
    ∃ props, value = .object props := by
  cases value with
  | object props => exact ⟨props, rfl⟩
  | _ => simp [record] at hrecord

/-- Records whose declared properties hold no numbers. -/
theorem finiteOnly_of_record
    (hfields : ∀ field ∈ fields, ∀ value, field.shape value = true → finiteOnly value = true)
    (hrecord : record fields value = true) : finiteOnly value = true := by
  obtain ⟨props, rfl⟩ := isObject_of_record hrecord
  rw [finiteOnly_object_iff (record_nodup hrecord)]
  intro key value hget
  obtain ⟨field, hfield, -, hshape⟩ := record_get hrecord hget
  exact hfields field hfield value hshape

end Record

theorem eq_string (hvalue : string value = true) : ∃ s, value = .string s := by
  cases value with
  | string s => exact ⟨s, rfl⟩
  | _ => simp [string] at hvalue

theorem eq_number (hvalue : number value = true) : ∃ n, value = .number n := by
  cases value with
  | number n => exact ⟨n, rfl⟩
  | _ => simp [number] at hvalue

theorem eq_boolean (hvalue : boolean value = true) : ∃ b, value = .bool b := by
  cases value with
  | bool b => exact ⟨b, rfl⟩
  | _ => simp [boolean] at hvalue

theorem eq_literal {texts : List String} (hvalue : literals texts value = true) :
    ∃ s ∈ texts, value = .string s := by
  cases value with
  | string s => exact ⟨s, by simpa [literals] using hvalue, rfl⟩
  | _ => simp [literals] at hvalue

theorem strings?_of_array (hvalue : array string value = true) :
    ∃ texts, value.strings? = some texts := by
  cases value with
  | array items =>
      simp only [array, List.all_eq_true] at hvalue
      simp only [JsValue.strings?]
      induction items with
      | nil => exact ⟨[], rfl⟩
      | cons item items ih =>
          rw [List.forall_mem_cons] at hvalue
          obtain ⟨s, rfl⟩ := eq_string hvalue.1
          obtain ⟨texts, htexts⟩ := ih hvalue.2
          exact ⟨s :: texts, by simp [List.mapM_cons, JsValue.string?, htexts]⟩
  | _ => simp [array] at hvalue

end Shape

/-! ## Names that assignment does not define -/

/-- Whether no object, at any depth, has a property named `__proto__`, which
`result[key] = value` takes for the prototype. -/
def plainNames : JsValue → Bool := JsValue.fold {
  null := true
  bool _ := true
  number _ := true
  string _ := true
  array items := items.all id
  object props := props.all fun prop => decide (prop.1 ≠ "__proto__") && prop.2.getD true }

theorem plainNames_array (items : List JsValue) :
    plainNames (.array items) = items.all plainNames :=
  (JsValue.fold_array _ items).trans List.all_map

theorem plainNames_object (props : Props) :
    plainNames (.object props) =
      props.all fun prop => decide (prop.1 ≠ "__proto__") && (prop.2.map plainNames).getD true :=
  (JsValue.fold_object _ props).trans List.all_map

/-- No property itself has that name. -/
def plainProps (props : Props) : Prop := "__proto__" ∉ props.names

theorem plainProps_of_plainNames {props : Props} (hplain : plainNames (.object props) = true) :
    plainProps props := by
  intro hmem
  obtain ⟨prop, hprop, hname⟩ := List.mem_map.mp hmem
  rw [plainNames_object, List.all_eq_true] at hplain
  have hne := (Bool.and_eq_true_iff.mp (hplain prop hprop)).1
  exact of_decide_eq_true hne hname

/-! ## Values read from JSON -/

/-- A value as `JSON.parse` returns it: no property is `undefined` and every
number is finite. Objects that name a property `__proto__` are left out. -/
def jsonValue : JsValue → Bool := JsValue.fold {
  null := true
  bool _ := true
  number := JsNumber.isFinite
  string _ := true
  array items := items.all id
  object props := decide (props.map Prod.fst).Nodup &&
    props.all fun prop => decide (prop.1 ≠ "__proto__") && prop.2.getD false }

theorem jsonValue_array (items : List JsValue) : jsonValue (.array items) = items.all jsonValue :=
  (JsValue.fold_array _ items).trans List.all_map

theorem jsonValue_object (props : Props) :
    jsonValue (.object props) = (decide (Props.names props).Nodup &&
      props.all fun prop => decide (prop.1 ≠ "__proto__") &&
        (prop.2.map jsonValue).getD false) := by
  refine (JsValue.fold_object _ props).trans ?_
  simp only [List.map_map, List.all_map]
  rfl

/-- The properties of an object read from JSON. -/
structure JsonProps (props : Props) : Prop where
  nodup : (Props.names props).Nodup
  plain : plainProps props
  values : ∀ prop ∈ props, ∃ value, prop.2 = some value ∧ jsonValue value = true

theorem jsonValue_object_iff {props : Props} :
    jsonValue (.object props) = true ↔ JsonProps props := by
  rw [jsonValue_object]
  simp only [Bool.and_eq_true, decide_eq_true_eq, List.all_eq_true]
  constructor
  · rintro ⟨hnodup, hprops⟩
    refine ⟨hnodup, ?_, fun prop hprop => ?_⟩
    · intro hmem
      obtain ⟨prop, hprop, hname⟩ := List.mem_map.mp hmem
      exact (hprops prop hprop).1 hname
    · have hvalue := (hprops prop hprop).2
      cases hslot : prop.2 with
      | none => simp [hslot] at hvalue
      | some value => exact ⟨value, rfl, by simpa [hslot] using hvalue⟩
  · rintro ⟨hnodup, hplain, hvalues⟩
    refine ⟨hnodup, fun prop hprop => ⟨?_, ?_⟩⟩
    · intro hname
      exact hplain (hname ▸ List.mem_map_of_mem hprop)
    · obtain ⟨value, hslot, hvalue⟩ := hvalues prop hprop
      simpa [hslot] using hvalue

theorem jsonProps_props (hvalue : jsonValue value = true) : JsonProps value.props := by
  cases value with
  | object props => exact jsonValue_object_iff.mp hvalue
  | _ => exact ⟨List.nodup_nil, List.not_mem_nil, by simp [JsValue.props]⟩

theorem JsonProps.get {props : Props} (hprops : JsonProps props)
    (hget : props.get key = some value) : jsonValue value = true := by
  obtain ⟨_, ⟨⟩, hvalue⟩ := hprops.values _ (Props.mem_of_get hget)
  exact hvalue

theorem JsonProps.filter {props : Props} (hprops : JsonProps props)
    (keep : String × Option JsValue → Bool) : JsonProps (props.filter keep) where
  nodup := hprops.nodup.sublist (List.filter_sublist.map _)
  plain hmem := hprops.plain ((List.filter_sublist.map _).mem hmem)
  values prop hprop := hprops.values prop (List.mem_filter.mp hprop).1

namespace Shape

def Plain (shape : Shape) : Prop := ∀ value, shape value = true → plainNames value = true

@[simp] theorem plain_string : Plain string := by
  intro value hvalue
  cases value with
  | string s => rfl
  | _ => simp [string] at hvalue

@[simp] theorem plain_number : Plain number := by
  intro value hvalue
  cases value with
  | number n => rfl
  | _ => simp [number] at hvalue

@[simp] theorem plain_boolean : Plain boolean := by
  intro value hvalue
  cases value with
  | bool b => rfl
  | _ => simp [boolean] at hvalue

@[simp] theorem plain_null : Plain null := by
  intro value hvalue
  cases value with
  | null => rfl
  | _ => simp [null] at hvalue

@[simp] theorem plain_literals (texts : List String) : Plain (literals texts) := by
  intro value hvalue
  cases value with
  | string s => rfl
  | _ => simp [literals] at hvalue

@[simp] theorem plain_array {item : Shape} (hitem : Plain item) : Plain (array item) := by
  intro value hvalue
  cases value with
  | array items =>
      simp only [array, List.all_eq_true] at hvalue
      rw [plainNames_array, List.all_eq_true]
      exact fun value hmem => hitem value (hvalue value hmem)
  | _ => simp [array] at hvalue

@[simp] theorem plain_either {left right : Shape} (hleft : Plain left) (hright : Plain right) :
    Plain (either left right) := by
  intro value hvalue
  rcases Bool.or_eq_true_iff.mp hvalue with h | h
  · exact hleft value h
  · exact hright value h

theorem plain_record {fields : List Field}
    (hfields : ∀ field ∈ fields, field.name ≠ "__proto__" ∧ Plain field.shape) :
    Plain (record fields) := by
  intro value hvalue
  obtain ⟨props, rfl⟩ := isObject_of_record hvalue
  simp only [record, Bool.and_eq_true, List.all_eq_true] at hvalue
  rw [plainNames_object, List.all_eq_true]
  rintro ⟨key, value⟩ hprop
  have hdeclared := hvalue.1.2 _ hprop
  simp only [declares, List.any_eq_true, Bool.and_eq_true, decide_eq_true_eq] at hdeclared
  obtain ⟨field, hfield, rfl, hshape⟩ := hdeclared
  obtain ⟨hname, hplain⟩ := hfields field hfield
  cases value with
  | none => simp [hname]
  | some value => simp [hname, hplain value hshape]

end Shape

end KjAtlas.Js
