import Mathlib.Algebra.Group.Nat.Defs
import Mathlib.Data.Int.ConditionallyCompleteOrder
import Mathlib.Order.ConditionallyCompleteLattice.Indexed
import KjAtlas.Js.Order

/-! # Deterministic tie-breaks

Candidates are compared by their metrics in an order of priority, and by their
ids where all metrics agree. The winner is found by comparing one candidate after
another.
-/

namespace KjAtlas.Js

/-! ## Arithmetic of doubles -/

/-- The natural number nearest to a quotient; of two, the even one. -/
def roundHalfEven (num den : Nat) : Nat :=
  let quotient := num / den
  let rest := num % den
  if 2 * rest < den ∨ 2 * rest = den ∧ quotient % 2 = 0 then quotient else quotient + 1

/-- A double. A finite one is a whole number of the smallest positive double, `2 ^ -1074`;
zero and negative zero are equal. -/
inductive Double where
  | finite (units : Int)
  | infinity (negative : Bool)
  | nan
deriving DecidableEq

namespace Double

/-- The double nearest to a number of units; of two, the even one. -/
def round (units : Int) : Double :=
  let exponent := Nat.log2 units.natAbs - 52
  let rounded := roundHalfEven units.natAbs (2 ^ exponent) * 2 ^ exponent
  if 2 ^ (1024 + 1074) ≤ rounded then .infinity (decide (units < 0))
  else .finite (units.sign * rounded)

/-- `x - y`. -/
def sub : Double → Double → Double
  | .finite x, .finite y => round (x - y)
  | .finite _, .infinity negative => .infinity (!negative)
  | .infinity negative, .finite _ => .infinity negative
  | .infinity x, .infinity y => if x = y then .nan else .infinity x
  | .nan, _ | _, .nan => .nan

/-- `x === y`. -/
def strictEq (x y : Double) : Bool := decide (x ≠ .nan ∧ x = y)

/-- `x < 0`. -/
def isNegative : Double → Bool
  | .finite units => decide (units < 0)
  | .infinity negative => negative
  | .nan => false

/-- Where a double stands among the numbers; this says nothing about `NaN`. -/
def value : Double → WithBot (WithTop Int)
  | .finite units => ((units : WithTop Int) : WithBot (WithTop Int))
  | .infinity false => ((⊤ : WithTop Int) : WithBot (WithTop Int))
  | .infinity true | .nan => ⊥

theorem roundHalfEven_pos {num den : Nat} (hden : 0 < den) (hle : den ≤ num) :
    0 < roundHalfEven num den := by
  have hquotient : 0 < num / den := Nat.div_pos hle hden
  unfold roundHalfEven
  dsimp only
  split
  next => exact hquotient
  next => exact Nat.succ_pos _

/-- Rounding a number other than zero keeps its sign and does not make it zero. -/
theorem round_sign {units : Int} (hne : units ≠ 0) :
    (round units).isNegative = decide (units < 0) ∧ round units ≠ .finite 0 := by
  have hlog : 2 ^ (Nat.log2 units.natAbs - 52) ≤ units.natAbs :=
    (Nat.pow_le_pow_right (by decide) (Nat.sub_le _ _)).trans
      (Nat.log2_self_le (Int.natAbs_ne_zero.mpr hne))
  have hrounded := roundHalfEven_pos (Nat.two_pow_pos _) hlog
  have hpos := Nat.mul_pos hrounded (Nat.two_pow_pos (Nat.log2 units.natAbs - 52))
  unfold round
  dsimp only
  generalize roundHalfEven units.natAbs (2 ^ (Nat.log2 units.natAbs - 52)) *
    2 ^ (Nat.log2 units.natAbs - 52) = rounded at hpos ⊢
  split
  next => exact ⟨rfl, Double.noConfusion⟩
  next =>
    constructor
    · apply decide_eq_decide.mpr
      constructor
      · intro hneg
        by_contra hnot
        have hsign : 0 ≤ units.sign := Int.sign_nonneg_iff.mpr (not_lt.mp hnot)
        exact absurd hneg (not_lt.mpr (Int.mul_nonneg hsign (by omega)))
      · intro hneg
        rw [Int.sign_eq_neg_one_of_neg hneg]
        omega
    · intro hzero
      rcases Int.mul_eq_zero.mp (finite.inj hzero) with hsign | hrounded
      · exact hne (Int.sign_eq_zero_iff_zero.mp hsign)
      · omega

theorem value_inj {x y : Double} (hx : x ≠ .nan) (hy : y ≠ .nan) : x.value = y.value ↔ x = y := by
  cases x with
  | finite units =>
      cases y with
      | finite other => simp [value]
      | infinity negative => cases negative <;> simp [value]
      | nan => exact absurd rfl hy
  | infinity negative =>
      cases y with
      | finite other => cases negative <;> simp [value]
      | infinity other => cases negative <;> cases other <;> simp [value]
      | nan => exact absurd rfl hy
  | nan => exact absurd rfl hx

/-- The sign of a difference is that of the exact difference, and only equal numbers have none. -/
theorem sub_sign {x y : Double} (hx : x ≠ .nan) (hy : y ≠ .nan) (hne : x ≠ y) :
    (x.sub y).strictEq (.finite 0) = false ∧
      ((x.sub y).isNegative = true ↔ x.value < y.value) := by
  cases x with
  | finite units =>
      cases y with
      | finite other =>
          have hdifferent : units - other ≠ 0 := by
            intro hzero
            exact hne (congrArg finite (Int.sub_eq_zero.mp hzero))
          obtain ⟨hsign, hnonzero⟩ := round_sign hdifferent
          constructor
          · exact decide_eq_false fun h => hnonzero h.2
          · rw [sub, hsign, decide_eq_true_eq, value, value, WithBot.coe_lt_coe, WithTop.coe_lt_coe]
            omega
      | infinity negative =>
          cases negative with
          | true => simp [sub, strictEq, isNegative, value]
          | false => exact ⟨rfl, iff_of_true rfl (WithBot.coe_lt_coe.mpr (WithTop.coe_lt_top units))⟩
      | nan => exact absurd rfl hy
  | infinity negative =>
      cases y with
      | finite other => cases negative <;> simp [sub, strictEq, isNegative, value]
      | infinity other =>
          cases negative <;> cases other <;> simp [sub, strictEq, isNegative, value] at hne ⊢
      | nan => exact absurd rfl hy
  | nan => exact absurd rfl hx

end Double

end KjAtlas.Js

namespace KjAtlas

open Js

/-! ## Candidates -/

inductive TieBreakKey where
  | padding
  | selfIntersection
  | areaDelta
  | vertexCount
deriving DecidableEq

def TieBreakKey.text : TieBreakKey → String
  | .padding => "padding"
  | .selfIntersection => "self_intersection"
  | .areaDelta => "area_delta"
  | .vertexCount => "vertex_count"

/-- `DETERMINISTIC_TIE_BREAK_ORDER`. -/
def deterministicTieBreakOrder : List TieBreakKey :=
  [.padding, .selfIntersection, .areaDelta, .vertexCount]

structure TieBreakCandidate where
  candidateId : String
  outputPolygonHash : String
  paddingViolationCount : Double
  metrics : TieBreakKey → Double

structure TieBreakAuditEntry where
  step : Nat
  key : TieBreakKey
  winnerMetric : Double
  loserMetric : Double
  winnerId : String
  loserId : String

structure TieBreakResult where
  winner : TieBreakCandidate
  appliedTieBreakOrder : String
  auditTrail : List TieBreakAuditEntry

def asOrder (order : List TieBreakKey) : String := ">".intercalate (order.map TieBreakKey.text)

/-! ## Comparing one after another -/

def compareByKey (left right : TieBreakCandidate) (key : TieBreakKey) : Double :=
  let leftMetric := left.metrics key
  let rightMetric := right.metrics key
  if leftMetric.strictEq rightMetric = false then leftMetric.sub rightMetric else .finite 0

/-- The result of one comparison. -/
structure TieBreakComparison where
  winner : TieBreakCandidate
  loser : TieBreakCandidate
  auditTrail : List TieBreakAuditEntry

/-- A comparison that a metric or, after all of them, the ids decide. -/
def TieBreakComparison.decided (winner loser : TieBreakCandidate) (step : Nat)
    (key : TieBreakKey) : TieBreakComparison where
  winner
  loser
  auditTrail := [{
    step
    key
    winnerMetric := winner.metrics key
    loserMetric := loser.metrics key
    winnerId := winner.candidateId
    loserId := loser.candidateId }]

section Compare

variable (lc : Collation)

/-- The loop over the keys that follow the first `index` of them. -/
def compareFrom (left right : TieBreakCandidate) (index : Nat) :
    List TieBreakKey → TieBreakComparison
  | key :: order =>
      let delta := compareByKey left right key
      if delta.strictEq (.finite 0) = false then
        if delta.isNegative then .decided left right (index + 1) key
        else .decided right left (index + 1) key
      else compareFrom left right (index + 1) order
  | [] =>
      if lc.le left.candidateId right.candidateId then .decided left right (index + 1) .vertexCount
      else .decided right left (index + 1) .vertexCount

def compareWithAudit (left right : TieBreakCandidate) (order : List TieBreakKey) :
    TieBreakComparison :=
  compareFrom lc left right 0 order

/-- One turn of the loop over the candidates. -/
def tieBreakStep (order : List TieBreakKey)
    (current : TieBreakCandidate × List TieBreakAuditEntry) (candidate : TieBreakCandidate) :
    TieBreakCandidate × List TieBreakAuditEntry :=
  let compared := compareWithAudit lc current.1 candidate order
  (compared.winner, current.2 ++ compared.auditTrail)

def pickDeterministicTieBreakWinner (candidates : List TieBreakCandidate)
    (order : List TieBreakKey) : Except String TieBreakResult :=
  match candidates with
  | [] => .error "pickDeterministicTieBreakWinner requires at least one candidate"
  | first :: rest =>
      let compared := rest.foldl (tieBreakStep lc order) (first, [])
      .ok {
        winner := compared.1
        appliedTieBreakOrder := asOrder order
        auditTrail := compared.2 }

end Compare

/-! ## The order of candidates -/

/-- All metrics are numbers. -/
def TieBreakCandidate.Numeric (candidate : TieBreakCandidate) : Prop :=
  ∀ key, candidate.metrics key ≠ .nan

/-- The metrics by priority. -/
def TieBreakCandidate.values (candidate : TieBreakCandidate) (order : List TieBreakKey) :
    List (WithBot (WithTop Int)) :=
  order.map fun key => (candidate.metrics key).value

/-- The metrics are smaller in the lexicographic order, or equal with an id that comes first. -/
def Precedes (lc : Collation) (order : List TieBreakKey) (left right : TieBreakCandidate) : Prop :=
  left.values order < right.values order ∨
    left.values order = right.values order ∧ lc.le left.candidateId right.candidateId = true

variable {lc : Collation} {order : List TieBreakKey}

theorem precedes_total (left right : TieBreakCandidate) :
    Precedes lc order left right ∨ Precedes lc order right left := by
  rcases lt_trichotomy (left.values order) (right.values order) with hless | heq | hgreater
  · exact Or.inl (Or.inl hless)
  · rcases lc.total left.candidateId right.candidateId with hle | hge
    · exact Or.inl (Or.inr ⟨heq, hle⟩)
    · exact Or.inr (Or.inr ⟨heq.symm, hge⟩)
  · exact Or.inr (Or.inl hgreater)

theorem precedes_refl (candidate : TieBreakCandidate) : Precedes lc order candidate candidate :=
  (precedes_total candidate candidate).elim id id

theorem precedes_trans {a b c : TieBreakCandidate} (hab : Precedes lc order a b)
    (hbc : Precedes lc order b c) : Precedes lc order a c := by
  rcases hab with hab | ⟨hab, hleft⟩
  · rcases hbc with hbc | ⟨hbc, -⟩
    · exact Or.inl (hab.trans hbc)
    · exact Or.inl (hbc ▸ hab)
  · rcases hbc with hbc | ⟨hbc, hright⟩
    · exact Or.inl (hab ▸ hbc)
    · exact Or.inr ⟨hab.trans hbc, lc.trans _ _ _ hleft hright⟩

section

variable {left right : TieBreakCandidate}

/-- Two candidates that precede each other agree in all metrics, and their ids compare as equal. -/
theorem precedes_antisymm (hle : Precedes lc order left right)
    (hge : Precedes lc order right left) :
    lc.le left.candidateId right.candidateId = true ∧
      lc.le right.candidateId left.candidateId = true := by
  rcases hle with hless | ⟨heq, hleft⟩
  · rcases hge with hgreater | ⟨heq, -⟩
    · exact absurd hgreater hless.asymm
    · exact absurd heq.symm hless.ne
  · rcases hge with hgreater | ⟨-, hright⟩
    · exact absurd heq.symm hgreater.ne
    · exact ⟨hleft, hright⟩

theorem precedes_cons {key : TieBreakKey} :
    Precedes lc (key :: order) left right ↔
      (left.metrics key).value < (right.metrics key).value ∨
        (left.metrics key).value = (right.metrics key).value ∧ Precedes lc order left right := by
  simp only [Precedes, TieBreakCandidate.values, List.map_cons, List.cons_lt_cons_iff,
    List.cons.injEq, and_assoc, ← and_or_left, or_assoc]

/-- Equal metrics decide nothing. -/
theorem compareByKey_of_eq {key : TieBreakKey}
    (hleft : left.Numeric) (heq : left.metrics key = right.metrics key) :
    (compareByKey left right key).strictEq (.finite 0) = true := by
  have hsame : (left.metrics key).strictEq (right.metrics key) = true :=
    decide_eq_true ⟨hleft key, heq⟩
  rw [compareByKey, hsame, if_neg (by simp)]
  rfl

/-- Of different metrics the smaller one wins. -/
theorem compareByKey_of_ne {key : TieBreakKey}
    (hleft : left.Numeric) (hright : right.Numeric) (hne : left.metrics key ≠ right.metrics key) :
    (compareByKey left right key).strictEq (.finite 0) = false ∧
      ((compareByKey left right key).isNegative = true ↔
        (left.metrics key).value < (right.metrics key).value) := by
  have hdifferent : (left.metrics key).strictEq (right.metrics key) = false :=
    decide_eq_false fun h => hne h.2
  rw [compareByKey, if_pos hdifferent]
  exact Double.sub_sign (hleft key) (hright key) hne

theorem winner_compareFrom (hleft : left.Numeric) (hright : right.Numeric) (index : Nat) :
    Precedes lc order left right ∧ (compareFrom lc left right index order).winner = left ∨
      ¬ Precedes lc order left right ∧
        (compareFrom lc left right index order).winner = right := by
  induction order generalizing index with
  | nil =>
      have hids : Precedes lc [] left right ↔
          lc.le left.candidateId right.candidateId = true := by
        simp [Precedes, TieBreakCandidate.values]
      rw [hids, compareFrom]
      split
      next hle => exact Or.inl ⟨hle, rfl⟩
      next hnot => exact Or.inr ⟨hnot, rfl⟩
  | cons key order ih =>
      rw [precedes_cons, compareFrom]
      by_cases heq : left.metrics key = right.metrics key
      · rw [compareByKey_of_eq hleft heq, if_neg (by simp), heq, lt_self_iff_false, false_or,
          and_iff_right rfl]
        exact ih (index + 1)
      · obtain ⟨hdelta, hsign⟩ := compareByKey_of_ne hleft hright heq
        have hvalue : (left.metrics key).value ≠ (right.metrics key).value := by
          intro hvalue
          exact heq ((Double.value_inj (hleft key) (hright key)).mp hvalue)
        have hfirst : ¬ ((left.metrics key).value = (right.metrics key).value ∧
            Precedes lc order left right) := fun h => hvalue h.1
        rw [if_pos hdelta, ← hsign, or_iff_left hfirst]
        split
        next hnegative => exact Or.inl ⟨hnegative, rfl⟩
        next hnot => exact Or.inr ⟨hnot, rfl⟩

end

/-! ## The winner -/

theorem winner_foldl {rest : List TieBreakCandidate} {first : TieBreakCandidate}
    (hfirst : first.Numeric) (hrest : ∀ candidate ∈ rest, candidate.Numeric)
    (auditTrail : List TieBreakAuditEntry) {winner : TieBreakCandidate}
    (hwinner : (rest.foldl (tieBreakStep lc order) (first, auditTrail)).1 = winner) :
    (winner = first ∨ winner ∈ rest) ∧ Precedes lc order winner first ∧
      ∀ other ∈ rest, Precedes lc order winner other := by
  induction rest generalizing first auditTrail with
  | nil =>
      rw [List.foldl_nil] at hwinner
      subst hwinner
      exact ⟨Or.inl rfl, precedes_refl first, fun _ hother => absurd hother List.not_mem_nil⟩
  | cons second rest ih =>
      obtain ⟨hsecond, hrest⟩ := List.forall_mem_cons.mp hrest
      rw [List.foldl_cons, tieBreakStep, compareWithAudit] at hwinner
      rw [List.mem_cons]
      rcases @winner_compareFrom lc order first second hfirst hsecond 0 with
        ⟨hprecedes, hleft⟩ | ⟨hnot, hright⟩
      · -- the first candidate stays, and it precedes the second one
        rw [hleft] at hwinner
        obtain ⟨hmem, hleast, hothers⟩ := ih hfirst hrest _ hwinner
        exact ⟨hmem.imp_right Or.inr, hleast,
          List.forall_mem_cons.mpr ⟨precedes_trans hleast hprecedes, hothers⟩⟩
      · -- the second candidate takes its place
        have hprecedes := (precedes_total first second).resolve_left hnot
        rw [hright] at hwinner
        obtain ⟨hmem, hleast, hothers⟩ := ih hsecond hrest _ hwinner
        exact ⟨Or.inr hmem, precedes_trans hleast hprecedes,
          List.forall_mem_cons.mpr ⟨hleast, hothers⟩⟩

theorem winner_of_pick {candidates : List TieBreakCandidate} (hne : candidates ≠ [])
    (hnumeric : ∀ candidate ∈ candidates, candidate.Numeric) :
    ∃ result, pickDeterministicTieBreakWinner lc candidates order = .ok result ∧
      result.appliedTieBreakOrder = asOrder order ∧ result.winner ∈ candidates ∧
        ∀ other ∈ candidates, Precedes lc order result.winner other := by
  cases candidates with
  | nil => exact absurd rfl hne
  | cons first rest =>
      obtain ⟨hfirst, hrest⟩ := List.forall_mem_cons.mp hnumeric
      obtain ⟨hmem, hleast, hothers⟩ := winner_foldl hfirst hrest [] rfl
      exact ⟨_, rfl, rfl, List.mem_cons.mpr hmem, List.forall_mem_cons.mpr ⟨hleast, hothers⟩⟩

section Permutations

variable {candidates permuted : List TieBreakCandidate}

variable (lc) in
def IdsCompare (candidates : List TieBreakCandidate) : Prop :=
  ∀ left ∈ candidates, ∀ right ∈ candidates,
    lc.le left.candidateId right.candidateId = true →
      lc.le right.candidateId left.candidateId = true → left.candidateId = right.candidateId

theorem eq_of_least (hids : (candidates.map TieBreakCandidate.candidateId).Nodup)
    (hcompare : IdsCompare lc candidates) {first second : TieBreakCandidate}
    (hfirst : first ∈ candidates) (hfirstLeast : ∀ other ∈ candidates, Precedes lc order first other)
    (hsecond : second ∈ candidates)
    (hsecondLeast : ∀ other ∈ candidates, Precedes lc order second other) : first = second := by
  obtain ⟨hle, hge⟩ := precedes_antisymm (hfirstLeast _ hsecond) (hsecondLeast _ hfirst)
  exact List.inj_on_of_nodup_map hids hfirst hsecond (hcompare _ hfirst _ hsecond hle hge)

theorem pick_of_perm (hne : candidates ≠ [])
    (hids : (candidates.map TieBreakCandidate.candidateId).Nodup)
    (hnumeric : ∀ candidate ∈ candidates, candidate.Numeric) (hcompare : IdsCompare lc candidates)
    (hperm : permuted.Perm candidates) {result : TieBreakResult}
    (hresult : pickDeterministicTieBreakWinner lc candidates order = .ok result) :
    ∃ other, pickDeterministicTieBreakWinner lc permuted order = .ok other ∧
      other.winner = result.winner ∧
        other.appliedTieBreakOrder = result.appliedTieBreakOrder := by
  have hpermuted : permuted ≠ [] := by
    rintro rfl
    exact hne hperm.nil_eq.symm
  obtain ⟨_, hpick, horder, hmem, hleast⟩ := @winner_of_pick lc order _ hne hnumeric
  rw [hresult] at hpick
  cases hpick
  obtain ⟨other, hother, hotherOrder, hotherMem, hotherLeast⟩ := @winner_of_pick lc order _ hpermuted
    fun candidate hcandidate => hnumeric candidate (hperm.mem_iff.mp hcandidate)
  refine ⟨other, hother, ?_, hotherOrder.trans horder.symm⟩
  apply eq_of_least hids hcompare (hperm.mem_iff.mp hotherMem) _ hmem hleast
  intro candidate hcandidate
  exact hotherLeast candidate (hperm.mem_iff.mpr hcandidate)

end Permutations

/-- Whatever the order of the candidates and the priority of the keys, the winner is the smallest
candidate by its metrics and, among equal ones, by its id. -/
theorem tie_break_winner (lc : Collation) (order : List TieBreakKey)
    {candidates permuted : List TieBreakCandidate} (hne : candidates ≠ [])
    (hids : (candidates.map TieBreakCandidate.candidateId).Nodup)
    (hnumeric : ∀ candidate ∈ candidates, candidate.Numeric) (hcompare : IdsCompare lc candidates)
    (hperm : permuted.Perm candidates) :
    ∃ winner ∈ candidates, (∀ other ∈ candidates, Precedes lc order winner other) ∧
      (pickDeterministicTieBreakWinner lc candidates order).map TieBreakResult.winner =
        .ok winner ∧
      (pickDeterministicTieBreakWinner lc permuted order).map TieBreakResult.winner =
        .ok winner := by
  obtain ⟨result, hresult, -, hmem, hleast⟩ := @winner_of_pick lc order _ hne hnumeric
  obtain ⟨other, hother, hwinner, -⟩ := pick_of_perm hne hids hnumeric hcompare hperm hresult
  refine ⟨result.winner, hmem, hleast, ?_, ?_⟩
  · rw [hresult]
    rfl
  · rw [hother, ← hwinner]
    rfl

namespace TieBreakInputs

/-- A candidate with one finite metric. -/
def candidate (candidateId : String) (area : Int) : TieBreakCandidate where
  candidateId
  outputPolygonHash := "hash-" ++ candidateId
  paddingViolationCount := .finite 0
  metrics key := if key = .areaDelta then .finite area else .infinity false

theorem numeric_candidate (candidateId : String) (area : Int) :
    (candidate candidateId area).Numeric := by
  intro key
  cases key with
  | areaDelta => exact Double.noConfusion
  | _ => exact Double.noConfusion

/-- Two of three candidates tie in all metrics. -/
theorem tie_break_winner_three :
    ∃ winner, Precedes .codeUnit deterministicTieBreakOrder winner (candidate "c" 1) ∧
      (pickDeterministicTieBreakWinner .codeUnit [candidate "a" 2, candidate "b" 1, candidate "c" 1]
        deterministicTieBreakOrder).map TieBreakResult.winner = .ok winner := by
  have hwinner := @tie_break_winner .codeUnit deterministicTieBreakOrder
    [candidate "b" 1, candidate "c" 1, candidate "a" 2]
    [candidate "a" 2, candidate "b" 1, candidate "c" 1] (by simp) (by decide)
    (by simp [numeric_candidate]) (fun left _ right _ => codeUnitLe_antisymm _ _)
    (@List.perm_append_comm _ [candidate "a" 2] _)
  obtain ⟨winner, -, hleast, -, hpick⟩ := hwinner
  exact ⟨winner, hleast _ (by simp), hpick⟩

end TieBreakInputs

end KjAtlas
