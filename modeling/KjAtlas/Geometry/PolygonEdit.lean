import Mathlib.Data.Rat.Floor
import Mathlib.Data.Real.Basic
import KjAtlas.Foundation.Segments

/-! # Editing a polygon

The vertices of a polygon are moved, added and removed. With exact arithmetic, a
result is refused exactly when two sides without a common vertex share a point,
as the tolerance is less than what coordinates can differ by.
-/

namespace KjAtlas.Geometry

/-- A point, with exact coordinates. The doubles of the program hold integers exactly, but not
hundredths. -/
structure Point where
  x : ℚ
  y : ℚ
deriving DecidableEq

def epsilon : ℚ := 1 / 10 ^ 9

def orientation (a b c : Point) : ℤ :=
  let cross := (b.x - a.x) * (c.y - a.y) - (b.y - a.y) * (c.x - a.x)
  if |cross| ≤ epsilon then 0 else if 0 < cross then 1 else -1

def onSegment (a b p : Point) : Bool :=
  decide (min a.x b.x - epsilon ≤ p.x) && decide (p.x ≤ max a.x b.x + epsilon) &&
    decide (min a.y b.y - epsilon ≤ p.y) && decide (p.y ≤ max a.y b.y + epsilon)

def segmentsIntersect (a₁ a₂ b₁ b₂ : Point) : Bool :=
  let o₁ := orientation a₁ a₂ b₁
  let o₂ := orientation a₁ a₂ b₂
  let o₃ := orientation b₁ b₂ a₁
  let o₄ := orientation b₁ b₂ a₂
  (decide (o₁ ≠ o₂) && decide (o₃ ≠ o₄)) ||
    (decide (o₁ = 0) && onSegment a₁ a₂ b₁) || (decide (o₂ = 0) && onSegment a₁ a₂ b₂) ||
    (decide (o₃ = 0) && onSegment b₁ b₂ a₁) || (decide (o₄ = 0) && onSegment b₁ b₂ a₂)

def sidesIntersect (points : List Point) (i j : ℕ) : Bool :=
  match points[i]?, points[(i + 1) % points.length]?, points[j]?,
    points[(j + 1) % points.length]? with
  | some a₁, some a₂, some b₁, some b₂ => segmentsIntersect a₁ a₂ b₁ b₂
  | _, _, _, _ => false

def isSelfIntersectingPolygon (points : List Point) : Bool :=
  let count := points.length
  decide (4 ≤ count) &&
    (List.range count).any fun i => (List.range count).any fun j =>
      let sharesVertex := decide (i = j) || decide ((i + 1) % count = j) ||
        decide (i = (j + 1) % count)
      decide (i < j) && !sharesVertex && sidesIntersect points i j

/-! ## Edits -/

inductive PolygonEditError where
  | vertexOutOfRange
  | minVertexCount
  | selfIntersection
deriving DecidableEq

abbrev PolygonEditResult : Type := Except PolygonEditError (List Point)

def minPolygonVertexCount : ℕ := 3

def coordinatePrecisionFactor : ℚ := 100

/-- `Math.round` goes up from a half. -/
def roundCoordinate (value : ℚ) : ℚ :=
  ⌊value * coordinatePrecisionFactor + 1 / 2⌋ / coordinatePrecisionFactor

def roundPoint (point : Point) : Point := ⟨roundCoordinate point.x, roundCoordinate point.y⟩

def validatePolygonPoints (points : List Point) : PolygonEditResult :=
  if points.length < minPolygonVertexCount then .error .minVertexCount
  else if isSelfIntersectingPolygon points then .error .selfIntersection
  else .ok points

/-- An index is a number, which need not be whole. -/
def movePolygonVertex (points : List Point) (vertexIndex : ℚ) (point : Point) : PolygonEditResult :=
  if vertexIndex < 0 ∨ points.length ≤ vertexIndex then .error .vertexOutOfRange
  else validatePolygonPoints (points.mapIdx fun index target =>
    if (index : ℚ) = vertexIndex then roundPoint point else roundPoint target)

/-- `splice` cuts the fraction of an index off. -/
def addPolygonVertex (points : List Point) (segmentStartIndex : ℚ) (point : Point) :
    PolygonEditResult :=
  if segmentStartIndex < 0 ∨ points.length ≤ segmentStartIndex then .error .vertexOutOfRange
  else validatePolygonPoints
    ((points.map roundPoint).insertIdx ⌊segmentStartIndex + 1⌋.toNat (roundPoint point))

def removePolygonVertex (points : List Point) (vertexIndex : ℚ) : PolygonEditResult :=
  if vertexIndex < 0 ∨ points.length ≤ vertexIndex then .error .vertexOutOfRange
  else if points.length ≤ minPolygonVertexCount then .error .minVertexCount
  else validatePolygonPoints
    ((points.map roundPoint).zipIdx.filterMap fun entry =>
      if (entry.2 : ℚ) = vertexIndex then none else some entry.1)

inductive PolygonEdit where
  | move (vertexIndex : ℚ) (point : Point)
  | add (segmentStartIndex : ℚ) (point : Point)
  | remove (vertexIndex : ℚ)

def PolygonEdit.apply (points : List Point) : PolygonEdit → PolygonEditResult
  | .move vertexIndex point => movePolygonVertex points vertexIndex point
  | .add segmentStartIndex point => addPolygonVertex points segmentStartIndex point
  | .remove vertexIndex => removePolygonVertex points vertexIndex

def editResults (points : List Point) : List PolygonEdit → List PolygonEditResult
  | [] => []
  | edit :: edits =>
      let result := edit.apply points
      result :: editResults (result.toOption.getD points) edits

/-! ## Polygons that intersect themselves -/

noncomputable def Point.toReal (p : Point) : ℝ × ℝ := (p.x, p.y)

def IsInteger (p : Point) : Prop := ∃ m n : ℤ, p = ⟨m, n⟩

def SidesMeet (points : List Point) (i j : ℕ) : Prop :=
  ∃ a₁ a₂ b₁ b₂, points[i]? = some a₁ ∧ points[(i + 1) % points.length]? = some a₂ ∧
    points[j]? = some b₁ ∧ points[(j + 1) % points.length]? = some b₂ ∧
      (segment ℝ a₁.toReal a₂.toReal ∩ segment ℝ b₁.toReal b₂.toReal).Nonempty

/-- Two sides with no vertex number in common share a point. -/
def SelfIntersects (points : List Point) : Prop :=
  ∃ i < points.length, ∃ j < points.length,
    [i, (i + 1) % points.length].Disjoint [j, (j + 1) % points.length] ∧ SidesMeet points i j

/-- A hundredth, as are integers and what is rounded. -/
def OnGrid (value : ℚ) : Prop := ∃ n : ℤ, value = n / 100

def Point.OnGrid (p : Point) : Prop := Geometry.OnGrid p.x ∧ Geometry.OnGrid p.y

theorem IsInteger.onGrid {p : Point} (hp : IsInteger p) : p.OnGrid := by
  obtain ⟨m, n, rfl⟩ := hp
  exact ⟨⟨100 * m, by push_cast; ring⟩, ⟨100 * n, by push_cast; ring⟩⟩

theorem onGrid_roundPoint (p : Point) : (roundPoint p).OnGrid := ⟨⟨_, rfl⟩, ⟨_, rfl⟩⟩

/-- Hundredths differ by more than the tolerance, or not at all. -/
theorem sub_epsilon_le_iff {u v : ℚ} (hu : OnGrid u) (hv : OnGrid v) : u - epsilon ≤ v ↔ u ≤ v := by
  obtain ⟨m, rfl⟩ := hu
  obtain ⟨n, rfl⟩ := hv
  constructor
  · intro hle
    by_contra hless
    have hlt : n < m := by
      rw [not_le, div_lt_div_iff_of_pos_right (by norm_num)] at hless
      exact_mod_cast hless
    have hone : (n : ℚ) + 1 ≤ m := by exact_mod_cast hlt
    norm_num [epsilon] at hle
    linarith
  · intro hle
    norm_num [epsilon]
    linarith

theorem between_iff {u v w : ℚ} (hu : OnGrid u) (hv : OnGrid v) (hw : OnGrid w) :
    min u v - epsilon ≤ w ∧ w ≤ max u v + epsilon ↔ (w : ℝ) ∈ Set.uIcc (u : ℝ) v := by
  have hmin : OnGrid (min u v) := by rcases min_choice u v with h | h <;> rwa [h]
  have hmax : OnGrid (max u v) := by rcases max_choice u v with h | h <;> rwa [h]
  rw [sub_epsilon_le_iff hmin hw, ← sub_le_iff_le_add, sub_epsilon_le_iff hw hmax, Set.uIcc,
    Set.mem_Icc, ← Rat.cast_min, ← Rat.cast_max, Rat.cast_le, Rat.cast_le]

theorem onSegment_iff {a b p : Point} (ha : a.OnGrid) (hb : b.OnGrid) (hp : p.OnGrid) :
    onSegment a b p = true ↔ InBox a.toReal b.toReal p.toReal := by
  simp only [onSegment, Bool.and_eq_true, decide_eq_true_eq, InBox, Point.toReal,
    ← between_iff ha.1 hb.1 hp.1, ← between_iff ha.2 hb.2 hp.2, and_assoc]

theorem orientation_eq {a b p : Point} (ha : a.OnGrid) (hb : b.OnGrid) (hp : p.OnGrid) :
    orientation a b p = (SignType.sign (turn a.toReal b.toReal p.toReal) : ℤ) := by
  have hturn : turn a.toReal b.toReal p.toReal =
      (((b.x - a.x) * (p.y - a.y) - (b.y - a.y) * (p.x - a.x) : ℚ) : ℝ) := by
    simp [turn, Point.toReal]
  obtain ⟨k, hk⟩ : ∃ k : ℤ,
      (b.x - a.x) * (p.y - a.y) - (b.y - a.y) * (p.x - a.x) = k / 10000 := by
    obtain ⟨⟨am, ham⟩, an, han⟩ := ha
    obtain ⟨⟨bm, hbm⟩, bn, hbn⟩ := hb
    obtain ⟨⟨pm, hpm⟩, pn, hpn⟩ := hp
    refine ⟨(bm - am) * (pn - an) - (bn - an) * (pm - am), ?_⟩
    rw [ham, han, hbm, hbn, hpm, hpn]
    push_cast
    ring
  rw [hturn, orientation, hk]
  split_ifs with hsmall hpos
  · have hzero : k = 0 := by
      rw [abs_le] at hsmall
      norm_num [epsilon] at hsmall
      have hlow : (-1 : ℚ) < k := by linarith [hsmall.1]
      have hhigh : (k : ℚ) < 1 := by linarith [hsmall.2]
      have hlow : -1 < k := by exact_mod_cast hlow
      have hhigh : k < 1 := by exact_mod_cast hhigh
      omega
    simp [hzero]
  · rw [sign_pos (by exact_mod_cast hpos)]
    rfl
  · have hneg : (k : ℚ) / 10000 < 0 := by
      refine lt_of_le_of_ne (not_lt.mp hpos) fun hzero => hsmall ?_
      rw [hzero, abs_zero]
      norm_num [epsilon]
    rw [sign_neg (by exact_mod_cast hneg)]
    rfl

theorem segmentsIntersect_iff {a₁ a₂ b₁ b₂ : Point} (ha₁ : a₁.OnGrid) (ha₂ : a₂.OnGrid)
    (hb₁ : b₁.OnGrid) (hb₂ : b₂.OnGrid) :
    segmentsIntersect a₁ a₂ b₁ b₂ = true ↔
      (segment ℝ a₁.toReal a₂.toReal ∩ segment ℝ b₁.toReal b₂.toReal).Nonempty := by
  have hzero : ∀ sign : SignType, (sign : ℤ) = 0 ↔ sign = 0 := by decide
  have hinj : ∀ first second : SignType, (first : ℤ) = second ↔ first = second := by decide
  rw [segments_meet_iff]
  simp only [segmentsIntersect, orientation_eq ha₁ ha₂ hb₁, orientation_eq ha₁ ha₂ hb₂,
    orientation_eq hb₁ hb₂ ha₁, orientation_eq hb₁ hb₂ ha₂, Bool.or_eq_true, Bool.and_eq_true,
    decide_eq_true_eq, onSegment_iff ha₁ ha₂ hb₁, onSegment_iff ha₁ ha₂ hb₂,
    onSegment_iff hb₁ hb₂ ha₁, onSegment_iff hb₁ hb₂ ha₂, mem_segment_iff_turn, hzero, hinj, ne_eq,
    sign_eq_zero_iff, or_assoc]

/-! ## Sides -/

theorem succ_mod {i n : ℕ} (hi : i < n) : (i + 1) % n = if i + 1 = n then 0 else i + 1 := by
  split
  next heq => rw [heq, Nat.mod_self]
  next hne => exact Nat.mod_eq_of_lt (by omega)

theorem disjoint_sides_iff {i j n : ℕ} (hi : i < n) (hj : j < n) :
    [i, (i + 1) % n].Disjoint [j, (j + 1) % n] ↔
      ¬ (i = j ∨ (i + 1) % n = j ∨ i = (j + 1) % n) := by
  simp only [List.disjoint_cons_left, List.mem_cons, List.not_mem_nil, or_false,
    List.disjoint_nil_left, and_true]
  rw [succ_mod hi, succ_mod hj]
  split_ifs <;> grind

section Sides

variable {points : List Point}

theorem SidesMeet.symm {i j : ℕ} (hmeet : SidesMeet points i j) : SidesMeet points j i := by
  obtain ⟨a₁, a₂, b₁, b₂, ha₁, ha₂, hb₁, hb₂, hshared⟩ := hmeet
  exact ⟨b₁, b₂, a₁, a₂, hb₁, hb₂, ha₁, ha₂, Set.inter_comm _ _ ▸ hshared⟩

theorem sidesIntersect_iff (hgrid : ∀ p ∈ points, p.OnGrid) {i j : ℕ} :
    sidesIntersect points i j = true ↔ SidesMeet points i j := by
  unfold sidesIntersect SidesMeet
  split
  next a₁ a₂ b₁ b₂ ha₁ ha₂ hb₁ hb₂ =>
    rw [segmentsIntersect_iff (hgrid a₁ (List.mem_of_getElem? ha₁))
      (hgrid a₂ (List.mem_of_getElem? ha₂)) (hgrid b₁ (List.mem_of_getElem? hb₁))
      (hgrid b₂ (List.mem_of_getElem? hb₂))]
    simp [ha₁, ha₂, hb₁, hb₂]
  next hnone =>
    simp only [Bool.false_eq_true, false_iff]
    rintro ⟨a₁, a₂, b₁, b₂, ha₁, ha₂, hb₁, hb₂, -⟩
    exact hnone a₁ a₂ b₁ b₂ ha₁ ha₂ hb₁ hb₂

theorem isSelfIntersectingPolygon_iff (hgrid : ∀ p ∈ points, p.OnGrid)
    (hcount : 4 ≤ points.length) :
    isSelfIntersectingPolygon points = true ↔ SelfIntersects points := by
  simp only [isSelfIntersectingPolygon, Bool.and_eq_true, decide_eq_true_eq, List.any_eq_true,
    List.mem_range, Bool.not_eq_true', Bool.or_eq_false_iff, decide_eq_false_iff_not,
    sidesIntersect_iff hgrid]
  constructor
  · rintro ⟨-, i, hi, j, hj, ⟨-, ⟨hne, hnext⟩, hlast⟩, hmeet⟩
    exact ⟨i, hi, j, hj, (disjoint_sides_iff hi hj).mpr (by tauto), hmeet⟩
  · rintro ⟨i, hi, j, hj, hdisjoint, hmeet⟩
    have hshares := (disjoint_sides_iff hi hj).mp hdisjoint
    refine ⟨hcount, ?_⟩
    rcases lt_trichotomy i j with hless | rfl | hless
    · exact ⟨i, hi, j, hj, ⟨hless, by tauto⟩, hmeet⟩
    · exact absurd (.inl rfl) hshares
    · exact ⟨j, hj, i, hi, ⟨hless, by grind⟩, hmeet.symm⟩

/-- Of three sides any two share a vertex. -/
theorem not_selfIntersects_of_triangle (hcount : points.length = 3) : ¬ SelfIntersects points := by
  rintro ⟨i, hi, j, hj, hdisjoint, -⟩
  rw [disjoint_sides_iff hi hj, hcount] at hdisjoint
  omega

/-! ## Runs of edits -/

/-- What edits may lead to. -/
def IsValidPolygon (points : List Point) : Prop :=
  minPolygonVertexCount ≤ points.length ∧ ¬ SelfIntersects points

theorem isValid_of_validatePolygonPoints (hgrid : ∀ p ∈ points, p.OnGrid) {next : List Point}
    (hvalid : validatePolygonPoints points = .ok next) : IsValidPolygon next := by
  unfold validatePolygonPoints at hvalid
  split at hvalid
  next => cases hvalid
  next hcount =>
    split at hvalid
    next => cases hvalid
    next hsimple =>
      obtain rfl := Except.ok.inj hvalid
      refine ⟨not_lt.mp hcount, fun hself => ?_⟩
      by_cases hmany : 4 ≤ points.length
      · exact hsimple ((isSelfIntersectingPolygon_iff hgrid hmany).mpr hself)
      · unfold minPolygonVertexCount at hcount
        exact not_selfIntersects_of_triangle (by omega) hself

end Sides

theorem isValid_of_apply {points next : List Point} {edit : PolygonEdit}
    (hedit : edit.apply points = .ok next) : IsValidPolygon next := by
  have hrounded : ∀ p ∈ points.map roundPoint, p.OnGrid := by
    intro p hp
    obtain ⟨q, -, rfl⟩ := List.mem_map.mp hp
    exact onGrid_roundPoint q
  cases edit with
  | move vertexIndex point =>
      simp only [PolygonEdit.apply, movePolygonVertex] at hedit
      split at hedit
      · cases hedit
      · refine isValid_of_validatePolygonPoints (fun p hp => ?_) hedit
        obtain ⟨index, hindex, rfl⟩ := List.mem_mapIdx.mp hp
        split
        · exact onGrid_roundPoint point
        · exact onGrid_roundPoint _
  | add segmentStartIndex point =>
      simp only [PolygonEdit.apply, addPolygonVertex] at hedit
      split at hedit
      · cases hedit
      · refine isValid_of_validatePolygonPoints (fun p hp => ?_) hedit
        rcases List.eq_or_mem_of_mem_insertIdx hp with rfl | hp
        · exact onGrid_roundPoint point
        · exact hrounded p hp
  | remove vertexIndex =>
      simp only [PolygonEdit.apply, removePolygonVertex] at hedit
      split at hedit
      · cases hedit
      split at hedit
      · cases hedit
      · refine isValid_of_validatePolygonPoints (fun p hp => ?_) hedit
        obtain ⟨entry, hentry, hp⟩ := List.mem_filterMap.mp hp
        split at hp
        · cases hp
        · obtain rfl := Option.some.inj hp
          exact hrounded _ (List.fst_mem_of_mem_zipIdx hentry)

theorem isValid_of_mem_editResults {next : List Point} (edits : List PolygonEdit)
    {points : List Point} (hnext : .ok next ∈ editResults points edits) : IsValidPolygon next := by
  induction edits generalizing points with
  | nil => cases hnext
  | cons edit edits ih =>
      rcases List.mem_cons.mp hnext with hedit | hrest
      · exact isValid_of_apply hedit.symm
      · exact ih hrest

/-- A polygon with integer coordinates is found to intersect itself exactly when two sides with no
vertex in common share a point, and no run of edits leads to such a polygon in exact arithmetic,
which the doubles of the program are not for hundredths. -/
theorem self_intersection_is_detected :
    (∀ points, (∀ p ∈ points, IsInteger p) → 4 ≤ points.length →
      (isSelfIntersectingPolygon points = true ↔ SelfIntersects points)) ∧
    ∀ points edits next, .ok next ∈ editResults points edits → IsValidPolygon next := by
  constructor
  · intro points hinteger hcount
    exact isSelfIntersectingPolygon_iff (fun p hp => (hinteger p hp).onGrid) hcount
  · intro points edits next hnext
    exact isValid_of_mem_editResults edits hnext

namespace BowTie

def corners : List Point := [⟨0, 0⟩, ⟨8, 8⟩, ⟨8, 0⟩, ⟨0, 8⟩]

theorem self_intersection_is_detected_corners :
    SelfIntersects corners ∧ IsValidPolygon [⟨0, 0⟩, ⟨8, 8⟩, ⟨4, 8⟩, ⟨0, 8⟩] := by
  have hinteger : ∀ p ∈ corners, IsInteger p := by
    simp only [corners, List.forall_mem_cons, List.not_mem_nil, false_imp_iff, implies_true,
      and_true]
    exact ⟨⟨0, 0, by simp⟩, ⟨8, 8, by simp⟩, ⟨8, 0, by simp⟩, ⟨0, 8, by simp⟩⟩
  constructor
  · exact (self_intersection_is_detected.1 corners hinteger (by decide)).mp (by decide +kernel)
  · exact self_intersection_is_detected.2 corners [.move 2 ⟨4, 8⟩] _ (by decide +kernel)

end BowTie

end KjAtlas.Geometry
