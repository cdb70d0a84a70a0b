import KjAtlas.Foundation.Traverse
import KjAtlas.Js.Shape

/-! # Reading values of unknown shape

A reader makes a value of a value, or refuses it. Records are rebuilt property
by property: a property that is read decides whether the record is refused, and
what stands under its name. Lists keep what their reader makes of their
elements. A reader is stable when it takes what it returns as it is.
-/

namespace KjAtlas.Js

/-- What is made of a value; nothing when the value is refused. -/
abbrev Reader := JsValue → Option JsValue

/-- A property of a rebuilt record. What is read is nothing when the record is
refused, and otherwise the value of the property. With `spread`, a property
that is `undefined` is left out. -/
structure Property where
  name : String
  spread : Bool
  read : Option JsValue → Option (Option JsValue)

namespace Property

/-- The record is refused unless the value is read. -/
def must (name : String) (reader : Reader) : Property where
  name
  spread := false
  read value := (value.bind reader).map some

/-- `{ [name]: ok ? value : undefined }`. -/
def may (name : String) (reader : Reader) : Property where
  name
  spread := false
  read value := some (value.bind reader)

/-- `{ ...(ok ? { [name]: value } : {}) }`. -/
def spreading (name : String) (reader : Reader) : Property where
  name
  spread := true
  read value := some (value.bind reader)

/-- The record is refused when the value is provided and not read. -/
def whenProvided (name : String) (reader : Reader) : Property where
  name
  spread := true
  read
    | none => some none
    | some value => (reader value).map some

/-- `{ [name]: ok ? value : default }`. -/
def orElse (name : String) (reader : Reader) (default : JsValue) : Property where
  name
  spread := false
  read value := some (some ((value.bind reader).getD default))

/-- `{ [name]: value }`, whatever was there. -/
def always (name : String) (value : Option JsValue) : Property where
  name
  spread := false
  read _ := some value

section Names

variable {name : String} {reader : Reader}

@[simp] theorem name_must : (must name reader).name = name := rfl

@[simp] theorem name_may : (may name reader).name = name := rfl

@[simp] theorem name_spreading : (spreading name reader).name = name := rfl

@[simp] theorem name_whenProvided : (whenProvided name reader).name = name := rfl

@[simp] theorem name_orElse {default : JsValue} : (orElse name reader default).name = name := rfl

@[simp] theorem name_always {value : Option JsValue} : (always name value).name = name := rfl

end Names

/-- What is read is read again as it is. -/
def Stable (property : Property) : Prop :=
  ∀ ⦃value result⦄, property.read value = some result → property.read result = some result

end Property

/-- A property of an object literal: `[name]: value`, or with `spread` the
property that is left out when it is `undefined`. -/
structure Slot where
  name : String
  spread : Bool
  value : Option JsValue

def literalProps : List Slot → Props
  | [] => []
  | slot :: slots =>
      if slot.spread && slot.value.isNone then literalProps slots
      else (slot.name, slot.value) :: literalProps slots

def Property.slot (props : Props) (property : Property) : Option Slot :=
  (property.read (props.get property.name)).map (Slot.mk property.name property.spread)

def readProps (props : Props) (properties : List Property) : Option Props :=
  (properties.mapM (Property.slot props)).map literalProps

def keepFirst {α : Type} (clash : α → α → Bool) (items : List α) : List α :=
  items.foldl (fun kept item => if kept.any (clash item) then kept else kept ++ [item]) []

namespace Reader

def ofShape (shape : Shape) : Reader := fun value => if shape value then some value else none

/-- A string. -/
def text : Reader := ofShape Shape.string

/-- `typeof value === "string" && value.length > 0`. -/
def nonEmptyText : Reader := ofShape fun value => value.string?.any fun text => decide (text ≠ "")

/-- `toNumber(value)`. -/
def finite : Reader := ofShape fun value => value.finite?.isSome

def boolean : Reader := ofShape Shape.boolean

def literal (texts : List String) : Reader := ofShape (Shape.literals texts)

/-- `Array.isArray(value) ? value.map(read).filter(read) : undefined`. -/
def items (reader : Reader) : Reader
  | .array values => some (.array (values.filterMap reader))
  | _ => none

/-- A list of which something is left. -/
def someItems (reader : Reader) : Reader
  | .array values =>
      let kept := values.filterMap reader
      if kept = [] then none else some (.array kept)
  | _ => none

/-- A list without the items that clash with one that is kept before them. -/
def distinctItems (clash : JsValue → JsValue → Bool) (reader : Reader) : Reader
  | .array values => some (.array (keepFirst clash (values.filterMap reader)))
  | _ => none

/-- Such a list, of which something is left. -/
def someDistinctItems (clash : JsValue → JsValue → Bool) (reader : Reader) : Reader
  | .array values =>
      let kept := keepFirst clash (values.filterMap reader)
      if kept = [] then none else some (.array kept)
  | _ => none

/-- `Array.isArray(value) ? value.filter((item) => typeof item === "string") : undefined`. -/
def texts : Reader := items text

def record (properties : List Property) : Reader := fun value =>
  if value.isRecord then (readProps value.props properties).map .object else none

/-- A record, or nothing when all its properties are `undefined`. -/
def someRecord (properties : List Property) : Reader := fun value =>
  (record properties value).bind fun result =>
    if result.props.all fun prop => prop.2.isNone then none else some result

def Stable (reader : Reader) : Prop :=
  ∀ ⦃value result⦄, reader value = some result → reader result = some result

end Reader

section Literals

variable {slots : List Slot}

theorem names_literalProps (slots : List Slot) :
    (Props.names (literalProps slots)).Sublist (slots.map Slot.name) := by
  induction slots with
  | nil => exact List.Sublist.refl _
  | cons slot slots ih =>
      rw [literalProps, List.map_cons]
      split
      · exact ih.cons _
      · exact ih.cons_cons _

theorem get_literalProps_of_not_mem {key : String} (hkey : key ∉ slots.map Slot.name) :
    (literalProps slots).get key = none := by
  cases hget : (literalProps slots).get key with
  | none => rfl
  | some value =>
      have hmem : key ∈ Props.names (literalProps slots) :=
        List.mem_map_of_mem (Props.mem_of_get hget)
      exact absurd ((names_literalProps slots).mem hmem) hkey

theorem get_literalProps (hnodup : (slots.map Slot.name).Nodup) {slot : Slot}
    (hslot : slot ∈ slots) : (literalProps slots).get slot.name = slot.value := by
  induction slots with
  | nil => exact absurd hslot List.not_mem_nil
  | cons head slots ih =>
      rw [List.map_cons, List.nodup_cons] at hnodup
      have hfresh : (literalProps slots).get head.name = none :=
        get_literalProps_of_not_mem hnodup.1
      rw [literalProps]
      rcases List.mem_cons.mp hslot with rfl | htail
      · split
        next hspread =>
          rw [Bool.and_eq_true, Option.isNone_iff_eq_none] at hspread
          rw [hfresh, hspread.2]
        next => rw [Props.get_cons, if_pos rfl, hfresh, Option.or_none]
      · have hne : head.name ≠ slot.name := fun hname =>
          hnodup.1 (hname ▸ List.mem_map_of_mem htail)
        split
        · exact ih hnodup.2 htail
        · rw [Props.get_cons, if_neg hne, Option.none_or]
          exact ih hnodup.2 htail

theorem content_literalProps {slots' : List Slot} (hnodup : (slots.map Slot.name).Nodup)
    (hslots : slots.map (fun slot => (slot.name, slot.value.map content)) =
      slots'.map fun slot => (slot.name, slot.value.map content)) :
    content (.object (literalProps slots)) = content (.object (literalProps slots')) := by
  have hnames : slots.map Slot.name = slots'.map Slot.name := by
    have hfst := congrArg (List.map Prod.fst) hslots
    rwa [List.map_map, List.map_map] at hfst
  have hnodup' : (slots'.map Slot.name).Nodup := hnames ▸ hnodup
  rw [content_object_eq_iff (hnodup.sublist (names_literalProps slots))
    (hnodup'.sublist (names_literalProps slots'))]
  intro key
  by_cases hkey : key ∈ slots.map Slot.name
  · obtain ⟨slot, hslot, rfl⟩ := List.mem_map.mp hkey
    have hmem := List.mem_map_of_mem (f := fun slot : Slot => (slot.name, slot.value.map content))
      hslot
    rw [hslots] at hmem
    obtain ⟨slot', hslot', heq⟩ := List.mem_map.mp hmem
    rw [Prod.mk.injEq] at heq
    rw [get_literalProps hnodup hslot, ← heq.2, ← heq.1, get_literalProps hnodup' hslot']
  · rw [get_literalProps_of_not_mem hkey, get_literalProps_of_not_mem (hnames ▸ hkey)]

end Literals

/-! ## What stands in a rebuilt record -/

section ReadProps

variable {props result : Props} {properties : List Property} {property : Property}

theorem slot_eq_some {slot : Slot} :
    property.slot props = some slot ↔
      property.read (props.get property.name) = some slot.value ∧
        slot.name = property.name ∧ slot.spread = property.spread := by
  rw [Property.slot, Option.map_eq_some_iff]
  constructor
  · rintro ⟨value, hvalue, rfl⟩
    exact ⟨hvalue, rfl, rfl⟩
  · rintro ⟨hvalue, hname, hspread⟩
    exact ⟨slot.value, hvalue, by rw [← hname, ← hspread]⟩

theorem names_of_slots {slots : List Slot}
    (hslots : properties.mapM (Property.slot props) = some slots) :
    slots.map Slot.name = properties.map Property.name :=
  map_of_mapM hslots fun _ _ hslot => (slot_eq_some.mp hslot).2.1

theorem names_readProps (hread : readProps props properties = some result) :
    (Props.names result).Sublist (properties.map Property.name) := by
  obtain ⟨slots, hslots, rfl⟩ := Option.map_eq_some_iff.mp hread
  rw [← names_of_slots hslots]
  exact names_literalProps slots

theorem get_readProps_of_not_mem (hread : readProps props properties = some result)
    {key : String} (hkey : key ∉ properties.map Property.name) : result.get key = none := by
  obtain ⟨slots, hslots, rfl⟩ := Option.map_eq_some_iff.mp hread
  exact get_literalProps_of_not_mem (names_of_slots hslots ▸ hkey)

theorem get_readProps (hnodup : (properties.map Property.name).Nodup)
    (hread : readProps props properties = some result) (hproperty : property ∈ properties) :
    property.read (props.get property.name) = some (result.get property.name) := by
  obtain ⟨slots, hslots, rfl⟩ := Option.map_eq_some_iff.mp hread
  obtain ⟨slot, hslot, hread⟩ := exists_of_mapM hslots property hproperty
  obtain ⟨hvalue, hname, -⟩ := slot_eq_some.mp hread
  rw [hvalue, ← hname, get_literalProps (names_of_slots hslots ▸ hnodup) hslot]

/-- A record is rebuilt when none of its properties refuses. -/
theorem exists_readProps (hall : ∀ property ∈ properties,
    ∃ value, property.read (props.get property.name) = some value) :
    ∃ result, readProps props properties = some result := by
  obtain ⟨slots, hslots, -⟩ :=
    (@exists_mapM_iff _ _ Unit (Property.slot props) (fun _ => ()) (fun _ => ()) properties).mpr
      fun property hproperty => by
        obtain ⟨value, hvalue⟩ := hall property hproperty
        exact ⟨⟨property.name, property.spread, value⟩, slot_eq_some.mpr ⟨hvalue, rfl, rfl⟩, rfl⟩
  exact ⟨literalProps slots, Option.map_eq_some_iff.mpr ⟨slots, hslots, rfl⟩⟩

/-- A record that reads what another one reads is rebuilt in the same way. -/
theorem readProps_congr {props' : Props} (hall : ∀ property ∈ properties,
    property.read (props'.get property.name) = property.read (props.get property.name)) :
    readProps props' properties = readProps props properties := by
  have hslots : properties.mapM (Property.slot props') =
      properties.mapM (Property.slot props) := by
    induction properties with
    | nil => rfl
    | cons property properties ih =>
        rw [List.forall_mem_cons] at hall
        rw [List.mapM_cons, List.mapM_cons, ih hall.2, Property.slot, hall.1]
        rfl
  rw [readProps, hslots, readProps]

theorem readProps_stable (hnodup : (properties.map Property.name).Nodup)
    (hstable : ∀ property ∈ properties, property.Stable)
    (hread : readProps props properties = some result) :
    readProps result properties = some result := by
  rw [← hread]
  apply readProps_congr
  intro property hproperty
  have hvalue := get_readProps hnodup hread hproperty
  rw [hvalue]
  exact hstable property hproperty hvalue

theorem exists_record {ideal : Props} (hnodup : (properties.map Property.name).Nodup)
    (hall : ∀ property ∈ properties, ∃ value, property.read (props.get property.name) = some value ∧
      value.map content = (ideal.get property.name).map content)
    (hrest : ∀ key ∉ properties.map Property.name, ideal.get key = none) :
    ∃ result, readProps props properties = some result ∧ (Props.names result).Nodup ∧
      SameProps result ideal := by
  obtain ⟨result, hread⟩ := exists_readProps fun property hproperty =>
    (hall property hproperty).imp fun _ hvalue => hvalue.1
  refine ⟨result, hread, hnodup.sublist (names_readProps hread), fun key => ?_⟩
  by_cases hkey : key ∈ properties.map Property.name
  · obtain ⟨property, hproperty, rfl⟩ := List.mem_map.mp hkey
    obtain ⟨value, hvalue, hcontent⟩ := hall property hproperty
    rw [get_readProps hnodup hread hproperty, Option.some.injEq] at hvalue
    rw [hvalue, hcontent]
  · rw [get_readProps_of_not_mem hread hkey, hrest key hkey]

/-- A record with what is read of another one. -/
structure Rebuilt (properties : List Property) (props result : Props) : Prop where
  nodup : (properties.map Property.name).Nodup
  read : ∀ property ∈ properties,
    property.read (props.get property.name) = some (result.get property.name)
  closed : ∀ key ∉ properties.map Property.name, result.get key = none

theorem rebuilt_readProps (hnodup : (properties.map Property.name).Nodup)
    (hread : readProps props properties = some result) : Rebuilt properties props result where
  nodup := hnodup
  read _ hproperty := get_readProps hnodup hread hproperty
  closed _ hkey := get_readProps_of_not_mem hread hkey

/-- A property may be replaced by what is read of another one. -/
theorem Rebuilt.put (hrebuilt : Rebuilt properties props result) {property : Property}
    (hproperty : property ∈ properties) {source value : Option JsValue}
    (hread : property.read source = some value) :
    Rebuilt properties (Props.put props property.name source)
      (Props.put result property.name value) where
  nodup := hrebuilt.nodup
  read other hother := by
    rw [Props.get_put, Props.get_put]
    by_cases hname : other.name = property.name
    · rw [if_pos hname, if_pos hname, List.inj_on_of_nodup_map hrebuilt.nodup hother hproperty hname,
        hread]
    · rw [if_neg hname, if_neg hname, hrebuilt.read other hother]
  closed key hkey := by
    have hne : key ≠ property.name := fun heq => hkey (heq ▸ List.mem_map_of_mem hproperty)
    rw [Props.get_put, if_neg hne, hrebuilt.closed key hkey]

/-- A record of which nothing is read differently. -/
structure Settled (properties : List Property) (props : Props) : Prop where
  nodup : (Props.names props).Nodup
  fixed : ∀ property ∈ properties,
    property.read (props.get property.name) = some (props.get property.name)
  closed : ∀ key ∉ properties.map Property.name, props.get key = none

theorem settled_readProps (hnodup : (properties.map Property.name).Nodup)
    (hstable : ∀ property ∈ properties, property.Stable)
    (hread : readProps props properties = some result) : Settled properties result where
  nodup := hnodup.sublist (names_readProps hread)
  fixed property hproperty :=
    hstable property hproperty (get_readProps hnodup hread hproperty)
  closed _ hkey := get_readProps_of_not_mem hread hkey

theorem Settled.put (hnodup : (properties.map Property.name).Nodup)
    (hsettled : Settled properties props) {property : Property} (hproperty : property ∈ properties)
    {value : Option JsValue} (hvalue : property.read value = some value) :
    Settled properties (Props.put props property.name value) where
  nodup := Props.nodup_names_put hsettled.nodup _ value
  fixed other hother := by
    rw [Props.get_put]
    split
    next hname => rwa [List.inj_on_of_nodup_map hnodup hother hproperty hname]
    next => exact hsettled.fixed other hother
  closed key hkey := by
    have hne : key ≠ property.name := fun heq => hkey (heq ▸ List.mem_map_of_mem hproperty)
    rw [Props.get_put, if_neg hne, hsettled.closed key hkey]

/-- A settled record is rebuilt with the same content. -/
theorem Settled.exists_readProps (hnodup : (properties.map Property.name).Nodup)
    (hsettled : Settled properties props) :
    ∃ result, readProps props properties = some result ∧ (Props.names result).Nodup ∧
      SameProps result props :=
  exists_record hnodup (fun property hproperty => ⟨_, hsettled.fixed property hproperty, rfl⟩)
    hsettled.closed

end ReadProps

/-! ## Lists without clashes -/

section KeepFirst

variable {α : Type} {clash : α → α → Bool}

theorem keepFirst_append_singleton (items : List α) (item : α) :
    keepFirst clash (items ++ [item]) =
      if (keepFirst clash items).any (clash item) then keepFirst clash items
      else keepFirst clash items ++ [item] := by
  rw [keepFirst, List.foldl_append]
  rfl

theorem keepFirst_sublist (items : List α) : (keepFirst clash items).Sublist items := by
  induction items using List.reverseRecOn with
  | nil => exact List.Sublist.refl _
  | append_singleton items item ih =>
      rw [keepFirst_append_singleton]
      split
      · exact ih.trans (List.sublist_append_left _ _)
      · exact ih.append (List.Sublist.refl _)

theorem pairwise_keepFirst (items : List α) :
    (keepFirst clash items).Pairwise fun earlier later => clash later earlier = false := by
  induction items using List.reverseRecOn with
  | nil => exact List.Pairwise.nil
  | append_singleton items item ih =>
      rw [keepFirst_append_singleton]
      split
      · exact ih
      next hclash =>
        rw [Bool.not_eq_true, List.any_eq_false] at hclash
        refine List.pairwise_append.mpr ⟨ih, List.pairwise_singleton _ _, ?_⟩
        rintro earlier hearlier _ hlater
        rw [List.mem_singleton.mp hlater]
        exact Bool.eq_false_iff.mpr (hclash earlier hearlier)

theorem exists_keepFirst {items : List α} {item : α} (hitem : item ∈ items) :
    ∃ kept ∈ keepFirst clash items, kept = item ∨ clash item kept = true := by
  induction items using List.reverseRecOn with
  | nil => exact absurd hitem List.not_mem_nil
  | append_singleton items last ih =>
      rw [keepFirst_append_singleton]
      rcases mem_snoc.mp hitem with hitem | hlast
      · obtain ⟨kept, hkept, hclash⟩ := ih hitem
        refine ⟨kept, ?_, hclash⟩
        split
        · exact hkept
        · exact List.mem_append_left _ hkept
      · rw [hlast]
        split
        next hclash =>
          obtain ⟨kept, hkept, hclash⟩ := List.any_eq_true.mp hclash
          exact ⟨kept, hkept, Or.inr hclash⟩
        next => exact ⟨last, List.mem_append_right _ (List.mem_singleton_self last), Or.inl rfl⟩

/-- An item is kept when it clashes with none of those kept before it. -/
theorem mem_keepFirst {items : List α} {item : α} :
    item ∈ keepFirst clash items ↔ ∃ before after, items = before ++ item :: after ∧
      (keepFirst clash before).any (clash item) = false := by
  induction items using List.reverseRecOn with
  | nil => simp [keepFirst]
  | append_singleton items last ih =>
      have hkept : item ∈ keepFirst clash (items ++ [last]) ↔
          item ∈ keepFirst clash items ∨
            (keepFirst clash items).any (clash last) = false ∧ item = last := by
        rw [keepFirst_append_singleton]
        split
        next hclash => simp [hclash]
        next hclash => simp [hclash]
      rw [hkept, ih]
      constructor
      · rintro (⟨before, after, rfl, hnone⟩ | ⟨hnone, rfl⟩)
        · exact ⟨before, after ++ [last], by simp, hnone⟩
        · exact ⟨items, [], rfl, hnone⟩
      · rintro ⟨before, after, hsplit, hnone⟩
        rcases List.eq_nil_or_concat after with rfl | ⟨after, other, rfl⟩
        · obtain ⟨rfl, hlast⟩ := List.append_inj' hsplit rfl
          obtain rfl := List.singleton_inj.mp hlast
          exact Or.inr ⟨hnone, rfl⟩
        · rw [List.concat_eq_append, ← List.cons_append, ← List.append_assoc] at hsplit
          obtain ⟨rfl, -⟩ := List.append_inj' hsplit rfl
          exact Or.inl ⟨before, after, rfl, hnone⟩

theorem keepFirst_eq_self {items : List α}
    (hitems : items.Pairwise fun earlier later => clash later earlier = false) :
    keepFirst clash items = items := by
  induction items using List.reverseRecOn with
  | nil => rfl
  | append_singleton items item ih =>
      obtain ⟨hbefore, -, hclash⟩ := List.pairwise_append.mp hitems
      rw [keepFirst_append_singleton, ih hbefore, if_neg]
      rw [Bool.not_eq_true, List.any_eq_false]
      intro earlier hearlier
      rw [hclash earlier hearlier item (List.mem_singleton_self item)]
      exact Bool.false_ne_true

end KeepFirst

/-! ## Stable readers -/

namespace Property

variable {name : String} {reader : Reader}

section

variable (hreader : reader.Stable)
include hreader

@[simp] theorem stable_must : (must name reader).Stable := by
  intro value result hread
  obtain ⟨value, hvalue, rfl⟩ := Option.map_eq_some_iff.mp hread
  obtain ⟨_, rfl, hvalue⟩ := Option.bind_eq_some_iff.mp hvalue
  exact congrArg (Option.map some) (hreader hvalue)

theorem bind_stable (value : Option JsValue) :
    (value.bind reader).bind reader = value.bind reader := by
  cases hvalue : value.bind reader with
  | none => rfl
  | some result =>
      obtain ⟨_, rfl, hresult⟩ := Option.bind_eq_some_iff.mp hvalue
      exact hreader hresult

@[simp] theorem stable_may : (may name reader).Stable := by
  intro value result hread
  cases hread
  exact congrArg some (bind_stable hreader value)

@[simp] theorem stable_spreading : (spreading name reader).Stable := by
  intro value result hread
  cases hread
  exact congrArg some (bind_stable hreader value)

@[simp] theorem stable_whenProvided : (whenProvided name reader).Stable := by
  intro value result hread
  cases value with
  | none =>
      cases hread
      rfl
  | some value =>
      obtain ⟨result, hresult, rfl⟩ := Option.map_eq_some_iff.mp hread
      exact congrArg (Option.map some) (hreader hresult)

@[simp] theorem stable_orElse {default : JsValue}
    (hdefault : (reader default).getD default = default) : (orElse name reader default).Stable := by
  intro value result hread
  cases hread
  have hagain : (reader ((value.bind reader).getD default)).getD default =
      (value.bind reader).getD default := by
    cases hvalue : value.bind reader with
    | none => exact hdefault
    | some result =>
        obtain ⟨_, rfl, hresult⟩ := Option.bind_eq_some_iff.mp hvalue
        rw [Option.getD_some, hreader hresult, Option.getD_some]
  exact congrArg (fun value => some (some value)) hagain

end

@[simp] theorem stable_always (name : String) (value : Option JsValue) : (always name value).Stable :=
  fun _ _ hread => hread

end Property

namespace Reader

variable {result : JsValue}

theorem ofShape_eq_some {shape : Shape} {value : JsValue} :
    ofShape shape value = some result ↔ shape value = true ∧ value = result := by
  unfold ofShape
  by_cases hshape : shape value = true <;> simp [hshape]

@[simp] theorem stable_ofShape (shape : Shape) : (ofShape shape).Stable := by
  intro value result hread
  obtain ⟨hshape, rfl⟩ := ofShape_eq_some.mp hread
  exact hread

@[simp] theorem stable_text : text.Stable := stable_ofShape _

@[simp] theorem stable_nonEmptyText : nonEmptyText.Stable := stable_ofShape _

@[simp] theorem stable_finite : finite.Stable := stable_ofShape _

@[simp] theorem stable_boolean : boolean.Stable := stable_ofShape _

@[simp] theorem stable_literal (texts : List String) : (literal texts).Stable := stable_ofShape _

variable {reader : Reader} {clash : JsValue → JsValue → Bool} {properties : List Property}

/-- Items that a stable reader has made are made again. -/
theorem filterMap_eq_self (hreader : reader.Stable) {values kept : List JsValue}
    (hkept : kept.Sublist (values.filterMap reader)) : kept.filterMap reader = kept := by
  rw [List.filterMap_congr (g := some), List.filterMap_some]
  intro item hitem
  obtain ⟨value, -, hvalue⟩ := List.mem_filterMap.mp (hkept.mem hitem)
  exact hreader hvalue

theorem items_eq_some {value : JsValue} :
    items reader value = some result ↔
      ∃ values, value = .array values ∧ result = .array (values.filterMap reader) := by
  cases value <;> simp [items, eq_comm]

@[simp] theorem stable_items (hreader : reader.Stable) : (items reader).Stable := by
  intro value result hread
  obtain ⟨values, rfl, rfl⟩ := items_eq_some.mp hread
  rw [items, filterMap_eq_self hreader (List.Sublist.refl _)]

theorem someItems_eq_some {value : JsValue} :
    someItems reader value = some result ↔
      ∃ values, value = .array values ∧ values.filterMap reader ≠ [] ∧
        result = .array (values.filterMap reader) := by
  cases value <;> simp [someItems, @eq_comm _ _ result]

@[simp] theorem stable_someItems (hreader : reader.Stable) : (someItems reader).Stable := by
  intro value result hread
  obtain ⟨values, rfl, hne, rfl⟩ := someItems_eq_some.mp hread
  rw [someItems_eq_some]
  have hagain := filterMap_eq_self hreader (List.Sublist.refl (values.filterMap reader))
  exact ⟨_, rfl, by rwa [hagain], by rw [hagain]⟩

theorem keepFirst_filterMap (hreader : reader.Stable) (clash : JsValue → JsValue → Bool)
    (values : List JsValue) :
    keepFirst clash ((keepFirst clash (values.filterMap reader)).filterMap reader) =
      keepFirst clash (values.filterMap reader) := by
  rw [filterMap_eq_self hreader (keepFirst_sublist _), keepFirst_eq_self (pairwise_keepFirst _)]

theorem distinctItems_eq_some {value : JsValue} :
    distinctItems clash reader value = some result ↔
      ∃ values, value = .array values ∧
        result = .array (keepFirst clash (values.filterMap reader)) := by
  cases value <;> simp [distinctItems, eq_comm]

@[simp] theorem stable_distinctItems (hreader : reader.Stable) :
    (distinctItems clash reader).Stable := by
  intro value result hread
  obtain ⟨values, rfl, rfl⟩ := distinctItems_eq_some.mp hread
  rw [distinctItems, keepFirst_filterMap hreader]

theorem someDistinctItems_eq_some {value : JsValue} :
    someDistinctItems clash reader value = some result ↔
      ∃ values, value = .array values ∧ keepFirst clash (values.filterMap reader) ≠ [] ∧
        result = .array (keepFirst clash (values.filterMap reader)) := by
  cases value <;> simp [someDistinctItems, @eq_comm _ _ result]

@[simp] theorem stable_someDistinctItems (hreader : reader.Stable) :
    (someDistinctItems clash reader).Stable := by
  intro value result hread
  obtain ⟨values, rfl, hne, rfl⟩ := someDistinctItems_eq_some.mp hread
  rw [someDistinctItems_eq_some]
  exact ⟨_, rfl, by rwa [keepFirst_filterMap hreader], by rw [keepFirst_filterMap hreader]⟩

@[simp] theorem stable_texts : texts.Stable := stable_items stable_text

theorem record_eq_some {value : JsValue} :
    record properties value = some result ↔
      value.isRecord = true ∧
        ∃ props, readProps value.props properties = some props ∧ result = .object props := by
  rw [record]
  by_cases hrecord : value.isRecord = true
  · simp [hrecord, eq_comm]
  · simp [hrecord]

theorem stable_record (hnodup : (properties.map Property.name).Nodup)
    (hstable : ∀ property ∈ properties, property.Stable) : (record properties).Stable := by
  intro value result hread
  obtain ⟨-, props, hprops, rfl⟩ := record_eq_some.mp hread
  exact record_eq_some.mpr ⟨rfl, props, readProps_stable hnodup hstable hprops, rfl⟩

theorem stable_someRecord (hnodup : (properties.map Property.name).Nodup)
    (hstable : ∀ property ∈ properties, property.Stable) : (someRecord properties).Stable := by
  intro value result hread
  obtain ⟨props, hprops, hsome⟩ := Option.bind_eq_some_iff.mp hread
  split at hsome
  · contradiction
  next hdefined =>
    cases hsome
    rw [someRecord, stable_record hnodup hstable hprops, Option.bind_some, if_neg hdefined]

end Reader

end KjAtlas.Js
