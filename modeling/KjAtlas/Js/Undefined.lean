import KjAtlas.Js.Json

/-! # Properties equal to `undefined`

A JSON round trip removes the properties equal to `undefined`, at any depth. What
is left of a value is its content.
-/

namespace KjAtlas.Js

variable (lc : Collation)

/-- A value with its properties sorted, and with `null` for numbers that are not finite. -/
def stableForm (value : JsValue) : JsValue := finiteForm (sortedForm lc value)

/-- The values are the same apart from the order of properties. -/
def SameValue (v w : JsValue) : Prop := stableForm lc v = stableForm lc w

/-- The values are the same apart from properties equal to `undefined`. -/
def SameContent (v w : JsValue) : Prop := SameValue lc (jsonImage v) (jsonImage w)

/-- The second value is the first one without its properties equal to `undefined`. -/
def Stripped (v w : JsValue) : Prop := SameContent lc v w ∧ definedOnly w = true

theorem stableForm_array (items : List JsValue) :
    stableForm lc (.array items) = .array (items.map (stableForm lc)) := by
  rw [stableForm, sortedForm_array, finiteForm_array, List.map_map]
  rfl

theorem stableForm_object (props : Props) :
    stableForm lc (.object props) =
      .object ((Props.sort lc.le props).map fun prop => (prop.1, prop.2.map (stableForm lc))) := by
  rw [stableForm, sortedForm_object, finiteForm_object, List.map_map]
  refine congrArg JsValue.object (List.map_congr_left fun prop _ => ?_)
  rw [Function.comp_apply, propForm, Option.map_map]
  rfl

theorem definedOnly_stableForm (value : JsValue) :
    definedOnly (stableForm lc value) = definedOnly value := by
  induction value using JsValue.induction with
  | number n => cases n <;> rfl
  | array items ih =>
      rw [stableForm_array, definedOnly_array, definedOnly_array, List.all_map, Bool.eq_iff_iff,
        List.all_eq_true, List.all_eq_true]
      exact forall₂_congr fun item hitem => by rw [Function.comp_apply, ih item hitem]
  | object props ih =>
      rw [stableForm_object, definedOnly_object, definedOnly_object, List.all_map, Props.sort,
        (sortOn.perm lc.le Prod.fst props).all_eq, Bool.eq_iff_iff, List.all_eq_true,
        List.all_eq_true]
      refine forall₂_congr ?_
      rintro ⟨key, _ | value⟩ hprop
      · rfl
      · simp [ih key value hprop]
  | _ => rfl

theorem definedOnly_jsonImage (value : JsValue) : definedOnly (jsonImage value) = true := by
  induction value using JsValue.induction with
  | number n => cases n <;> rfl
  | array items ih =>
      rw [jsonImage_array, definedOnly_array, List.all_map]
      exact List.all_eq_true.mpr ih
  | object props ih =>
      rw [jsonImage_object, definedOnly_object, Props.json, List.all_eq_true]
      intro prop hprop
      obtain ⟨hprop, hsome⟩ := List.mem_filter.mp hprop
      obtain ⟨⟨key, _ | value⟩, hsource, rfl⟩ := List.mem_map.mp hprop
      · cases hsome
      · exact ih key value hsource
  | _ => rfl

/-- A value without properties equal to `undefined` is its own content. -/
theorem sameValue_jsonImage {value : JsValue} (hdefined : definedOnly value = true) :
    SameValue lc (jsonImage value) value := by
  unfold SameValue
  induction value using JsValue.induction with
  | number n => cases n <;> rfl
  | array items ih =>
      rw [definedOnly_array, List.all_eq_true] at hdefined
      rw [jsonImage_array, stableForm_array, stableForm_array, List.map_map]
      exact congrArg JsValue.array
        (List.map_congr_left fun item hitem => ih item hitem (hdefined item hitem))
  | object props ih =>
      rw [definedOnly_object, List.all_eq_true] at hdefined
      have hjson : props.json = props.map fun prop => (prop.1, prop.2.map jsonImage) := by
        refine List.filter_eq_self.mpr fun prop hprop => ?_
        obtain ⟨⟨key, _ | value⟩, hsource, rfl⟩ := List.mem_map.mp hprop
        · exact absurd (hdefined _ hsource) Bool.false_ne_true
        · rfl
      rw [jsonImage_object, stableForm_object, stableForm_object, hjson, Props.sort_map,
        List.map_map]
      refine congrArg JsValue.object (List.map_congr_left ?_)
      rintro ⟨key, _ | value⟩ hprop
      · rfl
      · have hmem := (sortOn.mem lc.le Prod.fst).mp hprop
        simp [ih key value hmem (hdefined _ hmem)]
  | _ => rfl

/-- A round trip leaves a value as it is stripped. -/
theorem sameValue_jsonImage_iff {v w : JsValue} :
    SameValue lc (jsonImage v) w ↔ Stripped lc v w := by
  constructor
  · intro hsame
    have hdefined : definedOnly w = true := by
      rw [← definedOnly_stableForm lc, ← hsame, definedOnly_stableForm, definedOnly_jsonImage]
    exact ⟨hsame.trans (sameValue_jsonImage lc hdefined).symm, hdefined⟩
  · exact fun hstripped => hstripped.1.trans (sameValue_jsonImage lc hstripped.2)

end KjAtlas.Js
