import KjAtlas.Js.Number

/-! # Plain data values

Values as programs build them from object and array literals and as
`JSON.parse` returns them. A property of an object may be present and equal to
`undefined`; an element of an array never is. The order of the properties is
the order in which they are enumerated.
-/

namespace KjAtlas.Js

/-- A plain data value. In an object, `none` stands for an own property equal
to `undefined`. -/
inductive JsValue where
  | null
  | bool (b : Bool)
  | number (n : JsNumber)
  | string (s : String)
  | array (items : List JsValue)
  | object (props : List (String × Option JsValue))

/-- The own properties of an object, in enumeration order. -/
abbrev Props := List (String × Option JsValue)

namespace JsValue

mutual

def decEq : (left right : JsValue) → Decidable (left = right)
  | .null, .null => isTrue rfl
  | .bool b, .bool c => decidable_of_iff (b = c) (by simp)
  | .number n, .number m => decidable_of_iff (n = m) (by simp)
  | .string s, .string t => decidable_of_iff (s = t) (by simp)
  | .array xs, .array ys =>
      match decEqItems xs ys with
      | isTrue h => isTrue (by rw [h])
      | isFalse h => isFalse (by simpa using h)
  | .object ps, .object qs =>
      match decEqProps ps qs with
      | isTrue h => isTrue (by rw [h])
      | isFalse h => isFalse (by simpa using h)
  | .null, .bool _ | .null, .number _ | .null, .string _ | .null, .array _ | .null, .object _
  | .bool _, .null | .bool _, .number _ | .bool _, .string _ | .bool _, .array _
  | .bool _, .object _
  | .number _, .null | .number _, .bool _ | .number _, .string _ | .number _, .array _
  | .number _, .object _
  | .string _, .null | .string _, .bool _ | .string _, .number _ | .string _, .array _
  | .string _, .object _
  | .array _, .null | .array _, .bool _ | .array _, .number _ | .array _, .string _
  | .array _, .object _
  | .object _, .null | .object _, .bool _ | .object _, .number _ | .object _, .string _
  | .object _, .array _ => isFalse (by simp)

def decEqItems : (left right : List JsValue) → Decidable (left = right)
  | [], [] => isTrue rfl
  | x :: xs, y :: ys =>
      match decEq x y, decEqItems xs ys with
      | isTrue h, isTrue h' => isTrue (by rw [h, h'])
      | isFalse h, _ => isFalse (by simp [h])
      | _, isFalse h => isFalse (by simp [h])
  | [], _ :: _ | _ :: _, [] => isFalse (by simp)

def decEqProps : (left right : List (String × Option JsValue)) → Decidable (left = right)
  | [], [] => isTrue rfl
  | (k, some v) :: ps, (l, some w) :: qs =>
      match decEq v w, decEqProps ps qs with
      | isTrue h, isTrue h' => decidable_of_iff (k = l) (by simp [h, h'])
      | isFalse h, _ => isFalse (by simp [h])
      | _, isFalse h => isFalse (by simp [h])
  | (k, none) :: ps, (l, none) :: qs =>
      match decEqProps ps qs with
      | isTrue h => decidable_of_iff (k = l) (by simp [h])
      | isFalse h => isFalse (by simp [h])
  | (_, none) :: _, (_, some _) :: _ | (_, some _) :: _, (_, none) :: _ => isFalse (by simp)
  | [], _ :: _ | _ :: _, [] => isFalse (by simp)

end

instance : DecidableEq JsValue := decEq

/-! ## Folding a value -/

/-- What a traversal computes at each kind of value. -/
structure Algebra (α : Type) where
  null : α
  bool : Bool → α
  number : JsNumber → α
  string : String → α
  array : List α → α
  object : List (String × Option α) → α

variable {α : Type} (algebra : Algebra α)

mutual

def fold : JsValue → α
  | .null => algebra.null
  | .bool b => algebra.bool b
  | .number n => algebra.number n
  | .string s => algebra.string s
  | .array items => algebra.array (foldItems items)
  | .object props => algebra.object (foldProps props)

def foldItems : List JsValue → List α
  | [] => []
  | item :: items => fold item :: foldItems items

def foldProps : List (String × Option JsValue) → List (String × Option α)
  | [] => []
  | (key, none) :: props => (key, none) :: foldProps props
  | (key, some value) :: props => (key, some (fold value)) :: foldProps props

end

theorem foldItems_eq (items : List JsValue) : foldItems algebra items = items.map (fold algebra) := by
  induction items with
  | nil => rfl
  | cons item items ih => rw [foldItems, ih, List.map_cons]

theorem foldProps_eq (props : Props) :
    foldProps algebra props = props.map fun prop => (prop.1, prop.2.map (fold algebra)) := by
  induction props with
  | nil => rfl
  | cons prop props ih =>
      obtain ⟨key, value⟩ := prop
      cases value <;> simp [foldProps, ih]

theorem fold_array (items : List JsValue) :
    fold algebra (.array items) = algebra.array (items.map (fold algebra)) := by
  rw [fold, foldItems_eq]

theorem fold_object (props : Props) :
    fold algebra (.object props) =
      algebra.object (props.map fun prop => (prop.1, prop.2.map (fold algebra))) := by
  rw [fold, foldProps_eq]

@[elab_as_elim]
theorem induction {motive : JsValue → Prop} (null : motive .null) (bool : ∀ b, motive (.bool b))
    (number : ∀ n, motive (.number n)) (string : ∀ s, motive (.string s))
    (array : ∀ items, (∀ item ∈ items, motive item) → motive (.array items))
    (object : ∀ props : Props, (∀ key value, (key, some value) ∈ props → motive value) →
      motive (.object props)) (value : JsValue) : motive value :=
  @JsValue.rec motive
    (fun items => ∀ item ∈ items, motive item)
    (fun props => ∀ prop ∈ props, ∀ value, prop.2 = some value → motive value)
    (fun prop => ∀ value, prop.2 = some value → motive value)
    (fun field => ∀ value, field = some value → motive value)
    null bool number string array
    (fun props ih => object props fun _ value hmem => ih _ hmem value rfl)
    (by simp) (fun _ _ hhead htail => List.forall_mem_cons.mpr ⟨hhead, htail⟩)
    (by simp) (fun _ _ hhead htail => List.forall_mem_cons.mpr ⟨hhead, htail⟩)
    (fun _ _ ih => ih)
    (by simp) (fun _ ih _ heq => Option.some.inj heq ▸ ih)
    value

/-! ## Reading properties -/

def props : JsValue → Props
  | .object props => props
  | _ => []

/-- `typeof value === "string"`. -/
def string? : JsValue → Option String
  | .string s => some s
  | _ => none

def strings? : JsValue → Option (List String)
  | .array items => items.mapM string?
  | _ => none

def finite? : JsValue → Option JsNumber
  | .number n => if n.isFinite then some n else none
  | _ => none

/-- `typeof value === "boolean"`. -/
def bool? : JsValue → Option Bool
  | .bool b => some b
  | _ => none

/-- `typeof value === "object" && value !== null`. -/
def isRecord : JsValue → Bool
  | .array _ | .object _ => true
  | _ => false

end JsValue

namespace Props

/-- The value of a property, `none` when it is absent or `undefined`. -/
def get (props : Props) (key : String) : Option JsValue :=
  props.findSome? fun prop => if prop.1 = key then prop.2 else none

/-- Whether an object has an own property. -/
def hasOwn (props : Props) (key : String) : Bool :=
  props.any fun prop => prop.1 = key

/-- `{ ...props, [key]: value }`. -/
def assign (props : Props) (key : String) (value : JsValue) : Props :=
  if props.hasOwn key then
    props.map fun prop => if prop.1 = key then (key, some value) else prop
  else props ++ [(key, some value)]

/-- `{ ...props, [key]: value }`, where the value may be `undefined`. -/
def put (props : Props) (key : String) (value : Option JsValue) : Props :=
  if props.hasOwn key then
    props.map fun prop => if prop.1 = key then (key, value) else prop
  else props ++ [(key, value)]

def names (props : Props) : List String := props.map Prod.fst

@[simp] theorem get_nil (key : String) : get [] key = none := rfl

theorem get_cons (prop : String × Option JsValue) (props : Props) (key : String) :
    get (prop :: props) key = (if prop.1 = key then prop.2 else none).or (get props key) := by
  rw [get, List.findSome?_cons]
  cases (if prop.1 = key then prop.2 else none) <;> rfl

theorem get_append (left right : Props) (key : String) :
    get (left ++ right) key = (get left key).or (get right key) := by
  induction left with
  | nil => simp
  | cons prop left ih => rw [List.cons_append, get_cons, ih, get_cons, Option.or_assoc]

theorem get_map (f : JsValue → JsValue) (props : Props) (key : String) :
    get (props.map fun prop => (prop.1, prop.2.map f)) key = (get props key).map f := by
  induction props with
  | nil => rfl
  | cons prop props ih =>
      rw [List.map_cons, get_cons, get_cons, ih, Option.map_or]
      by_cases hkey : prop.1 = key
      · rw [if_pos hkey, if_pos hkey]
      · rw [if_neg hkey, if_neg hkey, Option.map_none]

theorem hasOwn_eq_decide (props : Props) (key : String) :
    hasOwn props key = decide (key ∈ props.map Prod.fst) := by
  rw [Bool.eq_iff_iff, hasOwn, List.any_eq_true, decide_eq_true_eq, List.mem_map]
  simp only [decide_eq_true_eq]

/-- Without an own property of the name, there is no value under it. -/
theorem get_eq_none_of_hasOwn {props : Props} {key : String} (hown : hasOwn props key = false) :
    get props key = none := by
  rw [hasOwn, List.any_eq_false] at hown
  rw [get, List.findSome?_eq_none_iff]
  intro prop hprop
  rw [if_neg]
  exact fun hkey => hown prop hprop (decide_eq_true hkey)

theorem hasOwn_cons (prop : String × Option JsValue) (props : Props) (key : String) :
    hasOwn (prop :: props) key = (decide (prop.1 = key) || hasOwn props key) :=
  List.any_cons

theorem get_map_put (props : Props) (key key' : String) (value : Option JsValue) :
    get (props.map fun prop => if prop.1 = key then (key, value) else prop) key' =
      if key' = key then (if hasOwn props key then value else none) else get props key' := by
  induction props with
  | nil => simp [hasOwn]
  | cons prop props ih =>
      rw [List.map_cons, get_cons, ih, get_cons, hasOwn_cons]
      by_cases hkey : key' = key
      · subst hkey
        by_cases hprop : prop.1 = key'
        · cases value <;> simp [hprop]
        · simp [hprop]
      · by_cases hprop : prop.1 = key
        · have hne : key ≠ key' := Ne.symm hkey
          simp [hprop, hkey, hne]
        · simp [hprop, hkey]

theorem names_put (props : Props) (key : String) (value : Option JsValue) :
    names (put props key value) =
      if hasOwn props key then names props else names props ++ [key] := by
  rw [put]
  split
  · rw [names, names, List.map_map]
    apply List.map_congr_left
    intro prop _
    by_cases hkey : prop.1 = key
    · simp [hkey]
    · simp [hkey]
  · simp [names]

theorem nodup_names_put {props : Props} (hnodup : (names props).Nodup) (key : String)
    (value : Option JsValue) : (names (put props key value)).Nodup := by
  rw [names_put]
  split
  · exact hnodup
  next hown =>
    rw [hasOwn_eq_decide, decide_eq_true_eq] at hown
    refine List.nodup_append.mpr ⟨hnodup, List.nodup_cons.mpr ⟨List.not_mem_nil, List.nodup_nil⟩,
      fun name hname other hother => ?_⟩
    rw [List.mem_singleton.mp hother]
    exact fun heq => hown (heq ▸ hname)

/-- Writing a property leaves the others. -/
theorem get_put (props : Props) (key key' : String) (value : Option JsValue) :
    get (put props key value) key' = if key' = key then value else get props key' := by
  rw [put]
  split
  next hown => rw [get_map_put, hown, if_pos rfl]
  next hown =>
    rw [Bool.not_eq_true] at hown
    rw [get_append, get_cons, get_nil, Option.or_none]
    by_cases hkey : key' = key
    · subst hkey
      rw [get_eq_none_of_hasOwn hown, Option.none_or, if_pos rfl]
    · rw [if_neg (Ne.symm hkey), Option.or_none, if_neg hkey]

/-- Removing the properties of one name leaves the others. -/
theorem get_filter_ne (props : Props) (key key' : String) :
    get (props.filter fun prop => !decide (prop.1 = key)) key' =
      if key' = key then none else get props key' := by
  induction props with
  | nil => simp
  | cons prop props ih =>
      rw [List.filter_cons]
      by_cases hprop : prop.1 = key
      · subst hprop
        simp only [decide_true, Bool.not_true, Bool.false_eq_true, if_false, get_cons, ih]
        by_cases hkey : key' = prop.1
        · rw [if_pos hkey, if_pos hkey]
        · rw [if_neg hkey, if_neg hkey, if_neg (Ne.symm hkey), Option.none_or]
      · simp only [hprop, decide_false, Bool.not_false, if_true, get_cons, ih]
        by_cases hkey : key' = key
        · rw [if_pos hkey, if_pos hkey, if_neg fun heq => hprop (heq.trans hkey), Option.none_or]
        · rw [if_neg hkey, if_neg hkey]

theorem mem_of_get {props : Props} {key : String} {value : JsValue}
    (hget : get props key = some value) : (key, some value) ∈ props := by
  induction props with
  | nil => simp at hget
  | cons prop props ih =>
      rw [get_cons] at hget
      by_cases hkey : prop.1 = key
      · rw [if_pos hkey] at hget
        cases hvalue : prop.2 with
        | none =>
            rw [hvalue, Option.none_or] at hget
            exact List.mem_cons_of_mem _ (ih hget)
        | some head =>
            rw [hvalue, Option.some_or] at hget
            rw [← hget, ← hkey, ← hvalue]
            exact List.mem_cons_self
      · rw [if_neg hkey, Option.none_or] at hget
        exact List.mem_cons_of_mem _ (ih hget)

def string? (props : Props) (key : String) : Option String := (get props key).bind JsValue.string?

def strings? (props : Props) (key : String) : Option (List String) :=
  (get props key).bind JsValue.strings?

theorem string?_put (props : Props) (key key' : String) (value : Option JsValue) :
    string? (put props key value) key' =
      if key' = key then value.bind JsValue.string? else string? props key' := by
  rw [string?, get_put]
  split <;> rfl

theorem strings?_put (props : Props) (key key' : String) (value : Option JsValue) :
    strings? (put props key value) key' =
      if key' = key then value.bind JsValue.strings? else strings? props key' := by
  rw [strings?, get_put]
  split <;> rfl

end Props

def textArray (texts : List String) : JsValue := .array (texts.map .string)

@[simp] theorem strings?_textArray (texts : List String) : (textArray texts).strings? = some texts := by
  rw [textArray, JsValue.strings?]
  induction texts with
  | nil => rfl
  | cons text texts ih => rw [List.map_cons, List.mapM_cons, ih]; rfl

end KjAtlas.Js
