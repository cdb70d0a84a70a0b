import KjAtlas.Patch.Parse

/-! # Fingerprints of patches

The fingerprint of a patch is a hash of its canonical text: operations sorted by
id, properties sorted by name, and `null` for whatever JSON cannot hold. It does
not depend on the order in which the operations run.
-/

namespace KjAtlas

open Js

/-! ## Canonical texts -/

/-- The property that `normalizeForFingerprint` makes of a property with a
normalized value. -/
def normalizedMember (member : String × Option JsValue) : String × Option JsValue :=
  (member.1, some (member.2.getD .null))

/-- `normalizeForFingerprint(value, path)` for paths other than `["ops"]`.
Assigning to `result["__proto__"]` creates no property. -/
def normalizeValue : JsValue → JsValue := JsValue.fold {
  null := .null
  bool := .bool
  number n := if n.isFinite then .number n else .null
  string := .string
  array := .array
  object members := .object
    (((Props.sort codeUnitLe members).filter fun member => decide (member.1 ≠ "__proto__")).map
      normalizedMember) }

def opSortKey (op : JsValue) : String := (op.props.string? "id").getD ""

/-- An array in the order in which it is normalized at the path `["ops"]`. -/
def sortOps : JsValue → JsValue
  | .array items => .array (sortOn codeUnitLe opSortKey items)
  | value => value

/-- `normalizeForFingerprint(value, [])`. -/
def normalizeForFingerprint : JsValue → JsValue
  | .object props => normalizeValue (.object (props.map fun prop =>
      (prop.1, if prop.1 = "ops" then prop.2.map sortOps else prop.2)))
  | value => normalizeValue value

/-- The same traversal as `stableSerialize`, in the order of code units. -/
def toCanonicalJson : JsValue → Text := stableSerialize .codeUnit

def canonicalizeJson (value : JsValue) : Text := toCanonicalJson (normalizeForFingerprint value)

/-! ## Normalized values -/

theorem normalizeValue_array (items : List JsValue) :
    normalizeValue (.array items) = .array (items.map normalizeValue) :=
  JsValue.fold_array _ items

theorem normalizeValue_object (props : Props) :
    normalizeValue (.object props) = .object
      (((Props.sort codeUnitLe (props.map fun prop => (prop.1, prop.2.map normalizeValue))).filter
        fun member => decide (member.1 ≠ "__proto__")).map normalizedMember) :=
  JsValue.fold_object _ props

/-- What a property that is equal to its value, or to `undefined`, becomes. -/
def normalizedSlot (value : Option JsValue) : JsValue := (value.map normalizeValue).getD .null

theorem normalizeValue_object_of_plain {props : Props} (hplain : plainProps props) :
    normalizeValue (.object props) = .object (Props.sort codeUnitLe
      (props.map fun prop => (prop.1, some (normalizedSlot prop.2)))) := by
  rw [normalizeValue_object, List.filter_eq_self.mpr, Props.sort_map, List.map_map,
    Props.sort_map codeUnitLe fun value => some (normalizedSlot value)]
  · rfl
  · intro member hmember
    rw [decide_eq_true_eq]
    rintro hname
    apply hplain
    rw [← hname, Props.names]
    have hmem := (sortOn.mem codeUnitLe Prod.fst).mp hmember
    obtain ⟨prop, hprop, rfl⟩ := List.mem_map.mp hmem
    exact List.mem_map.mpr ⟨prop, hprop, rfl⟩

theorem normalizeValue_object_eq_iff {left right : Props} (hleft : (Props.names left).Nodup)
    (hright : (Props.names right).Nodup) (hplainLeft : plainProps left)
    (hplainRight : plainProps right) :
    normalizeValue (.object left) = normalizeValue (.object right) ↔
      ∀ key, (Props.own left key).map normalizedSlot = (Props.own right key).map normalizedSlot := by
  have hnames : ∀ props : Props, (props.map fun prop =>
      (prop.1, some (normalizedSlot prop.2))).map Prod.fst = props.names := by
    intro props
    rw [List.map_map]
    rfl
  rw [normalizeValue_object_of_plain hplainLeft, normalizeValue_object_of_plain hplainRight,
    JsValue.object.injEq, Props.sort_eq_iff (hnames left ▸ hleft) (hnames right ▸ hright)]
  refine forall_congr' fun key => ?_
  rw [Props.own_map fun _ value => some (normalizedSlot value),
    Props.own_map fun _ value => some (normalizedSlot value)]
  cases Props.own left key <;> cases Props.own right key <;> simp

theorem finiteForm_normalizeValue (value : JsValue) :
    finiteForm (sortedForm .codeUnit (normalizeValue value)) = normalizeValue value := by
  induction value using JsValue.induction with
  | null => rfl
  | bool b => rfl
  | number n => cases n <;> rfl
  | string s => rfl
  | array items ih =>
      rw [normalizeValue_array, sortedForm_array, finiteForm_array, List.map_map, List.map_map]
      congr 1
      exact List.map_congr_left ih
  | object props ih =>
      rw [normalizeValue_object]
      generalize hmembers : List.map normalizedMember _ = members
      have hsorted : Props.sort codeUnitLe members = members := by
        refine List.Pairwise.insertionSort_eq ?_
        rw [← hmembers, List.pairwise_map]
        exact (sortOn.pairwise codeUnitLe Prod.fst codeUnitLe_total codeUnitLe_trans _).filter _
      have hfixed : ∀ member ∈ members,
          propForm (member.1, member.2.map (sortedForm .codeUnit)) = member := by
        intro member hmember
        rw [← hmembers, List.mem_map] at hmember
        obtain ⟨_, hfiltered, rfl⟩ := hmember
        have hmem := (sortOn.mem codeUnitLe Prod.fst).mp (List.mem_filter.mp hfiltered).1
        obtain ⟨⟨key, value⟩, hprop, rfl⟩ := List.mem_map.mp hmem
        cases value with
        | none => rfl
        | some value => simp [normalizedMember, propForm, ih key value hprop]
      have hsort : Props.sort (Collation.codeUnit).le members = members := hsorted
      rw [sortedForm_object, finiteForm_object, hsort, List.map_map]
      exact congrArg JsValue.object ((List.map_congr_left hfixed).trans (List.map_id' members))

theorem toCanonicalJson_normalizeValue_iff {left right : JsValue} :
    toCanonicalJson (normalizeValue left) = toCanonicalJson (normalizeValue right) ↔
      normalizeValue left = normalizeValue right := by
  rw [toCanonicalJson, stableSerialize_eq_iff, finiteForm_normalizeValue,
    finiteForm_normalizeValue]

/-! ## The canonical text of a patch -/

/-- `{ ...rest, patchFingerprint: null }` -/
def PatchV1.fingerprintPayload (patch : PatchV1) : Props :=
  ({ patch with patchFingerprint := none } : PatchV1).toProps ++ [("patchFingerprint", some .null)]

theorem opSortKey_toJs (op : PatchOp) : opSortKey op.toJs = op.id := by
  simp [opSortKey, PatchOp.toJs, JsValue.props, Props.string?, Props.get_cons, JsValue.string?]

def PatchV1.canonicalOps (patch : PatchV1) : List JsValue :=
  (sortOn codeUnitLe PatchOp.id patch.ops).map fun op => normalizeValue op.toJs

theorem PatchOp.plain_toJs (op : PatchOp) : plainProps [("id", some (.string op.id)),
    ("kind", some (.string op.kind.text)), (op.payload.1, some op.payload.2)] := by
  obtain ⟨id, change⟩ := op
  cases change <;> simp [plainProps, Props.names, payload]

theorem PatchOp.normalizeValue_toJs_iff {op op' : PatchOp} :
    normalizeValue op.toJs = normalizeValue op'.toJs ↔
      op.id = op'.id ∧ op.kind = op'.kind ∧
        normalizeValue op.payload.2 = normalizeValue op'.payload.2 := by
  have hown : ∀ op : PatchOp, Props.own [("id", some (.string op.id)),
      ("kind", some (.string op.kind.text)), (op.payload.1, some op.payload.2)] op.payload.1 =
        some (some op.payload.2) := by
    rintro ⟨id, change⟩
    cases change <;> rfl
  have hname : op.kind = op'.kind → op.payload.1 = op'.payload.1 := by
    obtain ⟨id, change⟩ := op
    obtain ⟨id', change'⟩ := op'
    cases change <;> cases change' <;> simp [kind, payload]
  rw [toJs, toJs, normalizeValue_object_eq_iff op.nodup_toJs op'.nodup_toJs op.plain_toJs
    op'.plain_toJs]
  constructor
  · intro hslots
    have hid := hslots "id"
    have hkind := hslots "kind"
    simp only [Props.own_cons, Props.own_nil] at hid hkind
    have hkind' := PatchOpKind.text_injective (JsValue.string.inj (Option.some.inj hkind))
    have hpayload := hslots op.payload.1
    rw [hown, hname hkind', hown] at hpayload
    exact ⟨JsValue.string.inj (Option.some.inj hid), hkind', Option.some.inj hpayload⟩
  · rintro ⟨hid, hkind, hpayload⟩ key
    rw [hid, hkind, hname hkind]
    simp only [Props.own_cons, Props.own_nil, Option.or_none, Option.map_or]
    split <;> split <;> split <;> simp [hpayload, normalizedSlot]

theorem OptionalText.own_toProps (name : String) (field : OptionalText) (key : String) :
    Props.own (field.toProps name) key =
      if name = key then field.map (Option.map .string) else none := by
  cases field with
  | none => exact (ite_self _).symm
  | some text => exact (Props.own_cons _ _ _).trans Option.or_none

theorem PatchV1.nodup_payload (patch : PatchV1) : (Props.names patch.fingerprintPayload).Nodup := by
  rw [fingerprintPayload, Props.names, List.map_append, List.nodup_append]
  refine ⟨nodup_names _, by simp, ?_⟩
  rintro name hname _ hfingerprint rfl
  rw [List.map_singleton, List.mem_singleton] at hfingerprint
  subst hfingerprint
  refine absurd hname (Props.own_eq_none.mp ?_)
  simp [toProps, Props.own_append, Props.own_cons, OptionalText.own_toProps]

theorem PatchV1.plain_payload (patch : PatchV1) : plainProps patch.fingerprintPayload := by
  refine Props.own_eq_none.mp ?_
  simp [fingerprintPayload, toProps, Props.own_append, Props.own_cons, OptionalText.own_toProps]

theorem PatchV1.own_payload_ops (patch : PatchV1) :
    Props.own patch.fingerprintPayload "ops" =
      some (some (.array (patch.ops.map PatchOp.toJs))) := by
  simp [fingerprintPayload, toProps, Props.own_append, Props.own_cons, OptionalText.own_toProps]

/-- Patches have one canonical text when they agree on the envelope and on the
operations in the order of their ids. -/
theorem canonicalizeJson_payload_iff {left right : PatchV1} :
    canonicalizeJson (.object left.fingerprintPayload) =
        canonicalizeJson (.object right.fingerprintPayload) ↔
      (∀ key, key ≠ "ops" → (Props.own left.fingerprintPayload key).map normalizedSlot =
        (Props.own right.fingerprintPayload key).map normalizedSlot) ∧
          left.canonicalOps = right.canonicalOps := by
  let prepared := fun (key : String) (value : Option JsValue) =>
    if key = "ops" then value.map sortOps else value
  let preparedProps := fun props : Props => props.map fun prop => (prop.1, prepared prop.1 prop.2)
  have hnames : ∀ props : Props, Props.names (preparedProps props) = props.names := by
    intro props
    rw [Props.names, List.map_map]
    rfl
  have hops : ∀ patch : PatchV1, normalizedSlot (prepared "ops"
      (some (.array (patch.ops.map PatchOp.toJs)))) = .array patch.canonicalOps := by
    intro patch
    have hsort := sortOn.map codeUnitLe PatchOp.id opSortKey PatchOp.toJs opSortKey_toJs patch.ops
    simp only [prepared, if_true, Option.map_some, sortOps, normalizedSlot, Option.getD_some,
      normalizeValue_array, ← hsort, List.map_map]
    rfl
  have hplain : ∀ patch : PatchV1, plainProps (preparedProps patch.fingerprintPayload) := by
    intro patch
    rw [plainProps, hnames]
    exact patch.plain_payload
  rw [canonicalizeJson, canonicalizeJson, normalizeForFingerprint, normalizeForFingerprint,
    toCanonicalJson_normalizeValue_iff]
  refine (normalizeValue_object_eq_iff ((hnames _).symm ▸ left.nodup_payload)
    ((hnames _).symm ▸ right.nodup_payload) (hplain left) (hplain right)).trans ?_
  have hown : ∀ (props : Props) key,
      Props.own (preparedProps props) key = (Props.own props key).map (prepared key) :=
    Props.own_map prepared
  simp only [preparedProps] at hown
  constructor
  · intro hslots
    refine ⟨fun key hkey => ?_, ?_⟩
    · have hslot := hslots key
      rw [hown, hown] at hslot
      simpa [prepared, hkey] using hslot
    · have hslot := hslots "ops"
      rw [hown, hown, left.own_payload_ops, right.own_payload_ops, Option.map_some,
        Option.map_some, Option.map_some, Option.map_some, hops, hops] at hslot
      exact JsValue.array.inj (Option.some.inj hslot)
  · rintro ⟨henvelope, heq⟩ key
    rw [hown, hown]
    by_cases hkey : key = "ops"
    · rw [hkey, left.own_payload_ops, right.own_payload_ops, Option.map_some, Option.map_some,
        Option.map_some, Option.map_some, hops, hops, heq]
    · simpa [prepared, hkey] using henvelope key hkey

theorem PatchV1.canonicalOps_eq_iff {left right : PatchV1}
    (hids : left.ops.map PatchOp.id = right.ops.map PatchOp.id) :
    left.canonicalOps = right.canonicalOps ↔
      left.ops.map (fun op => normalizeValue op.toJs) =
        right.ops.map fun op => normalizeValue op.toJs :=
  sortOn.map_inj_of_keys codeUnitLe PatchOp.id _ hids

/-- A hash of texts, as hexadecimal digits, under which different texts have
different hashes. -/
structure HashFunction where
  hex : Text → String
  injective : Function.Injective hex
  nonempty : ∀ text, hex text ≠ ""

def computePatchFingerprint (hash : HashFunction) (patch : PatchV1) : String :=
  hash.hex (canonicalizeJson (.object patch.fingerprintPayload))

/-- `verifyPatchFingerprint(patch).ok`. -/
def verifyPatchFingerprint (hash : HashFunction) (patch : PatchV1) : Bool :=
  match patch.patchFingerprint.join with
  | none => false
  | some fingerprint =>
      decide (fingerprint ≠ "") && decide (computePatchFingerprint hash patch = fingerprint)

end KjAtlas
