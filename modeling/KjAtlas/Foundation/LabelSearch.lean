import Mathlib.Algebra.Order.BigOperators.Group.List
import Mathlib.Algebra.Order.Ring.Nat
import KjAtlas.Foundation.Loops

/-! # Label-correcting search

A search along the edges of a graph, from a set of roots. Every entry of the
stack carries a label: the weight of the path that it was found on. An entry is
dropped if its vertex has a label that is as small; a vertex is kept, and its
neighbours are pushed, when its label is within a limit. In the end the vertices
are kept that a path within the limit leads to.
-/

namespace KjAtlas

variable {α ε : Type} [DecidableEq α]

/-- The state of a search; the top of the stack comes first. -/
structure LabelSearch (α : Type) where
  pending : List (α × Nat)
  best : α → Option Nat
  retained : List α

namespace LabelSearch

def relabel (best : α → Option Nat) (vertex : α) (label : Nat) : α → Option Nat :=
  fun other => if other = vertex then some label else best other

/-- One round. The neighbours of a vertex may be missing. -/
def round (neighbours : α → Except ε (List α)) (weight : α → Nat) (limit : Nat)
    (state : LabelSearch α) : Option (Except ε (LabelSearch α)) :=
  match state.pending with
  | [] => none
  | (vertex, label) :: pending => some <|
      if (state.best vertex).any fun previous => previous ≤ label then
        .ok { state with pending := pending }
      else
        let best := relabel state.best vertex label
        if limit < label then
          .ok { state with pending := pending, best := best }
        else
          (neighbours vertex).map fun found => {
            pending := (found.map fun next => (next, label + weight next)).reverse ++ pending
            best := best
            retained := vertex :: state.retained }

def start (weight : α → Nat) (roots : List α) : LabelSearch α where
  pending := (roots.map fun root => (root, weight root)).reverse
  best _ := none
  retained := []

/-- The vertices within the limit. -/
def search (neighbours : α → Except ε (List α)) (weight : α → Nat) (limit fuel : Nat)
    (roots : List α) : Except ε (List α) :=
  (repeatLoop (round neighbours weight limit) fuel (start weight roots)).map retained

/-! ## Paths -/

/-- A path from a root leads to a vertex, with a weight that counts both ends. -/
inductive Carries (roots : List α) (edges : α → List α) (weight : α → Nat) : α → Nat → Prop
  | root {root : α} (hroot : root ∈ roots) : Carries roots edges weight root (weight root)
  | edge {vertex next : α} {label : Nat} (hpath : Carries roots edges weight vertex label)
      (hedge : next ∈ edges vertex) : Carries roots edges weight next (label + weight next)

variable (roots : List α) (edges : α → List α) (weight : α → Nat) (limit : Nat)

/-- A vertex has a label, or is about to get one, that is as small as a given one. -/
def Covers (state : LabelSearch α) (vertex : α) (label : Nat) : Prop :=
  ∃ other ≤ label, state.best vertex = some other ∨ (vertex, other) ∈ state.pending

/-- What a search keeps. -/
structure Searching (vertices : List α) (state : LabelSearch α) : Prop where
  known : ∀ entry ∈ state.pending, entry.1 ∈ vertices ∧ entry.2 ≤ limit + 1
  carries : ∀ entry ∈ state.pending, Carries roots edges weight entry.1 entry.2
  within : ∀ vertex ∈ state.retained, ∃ label ≤ limit, Carries roots edges weight vertex label
  rooted : ∀ root ∈ roots, Covers state root (weight root)
  expanded : ∀ vertex label, state.best vertex = some label → label ≤ limit →
    vertex ∈ state.retained ∧ ∀ next ∈ edges vertex, Covers state next (label + weight next)

/-- How often a vertex can still get a smaller label. -/
def room (label : Option Nat) : Nat := label.getD (limit + 2)

def roundsLeft (vertices : List α) (state : LabelSearch α) : Nat :=
  (vertices.map fun vertex => (edges vertex).length * room limit (state.best vertex)).sum +
    state.pending.length

variable {roots edges weight limit} {state : LabelSearch α} {retained' : List α}
  {neighbours : α → Except ε (List α)}

omit [DecidableEq α] in
theorem Searching.retained_iff {vertices : List α}
    (hstate : Searching roots edges weight limit vertices state) (hdone : state.pending = [])
    {vertex : α} :
    vertex ∈ state.retained ↔ ∃ label ≤ limit, Carries roots edges weight vertex label := by
  have hbest : ∀ {vertex label}, Covers state vertex label →
      ∃ other ≤ label, state.best vertex = some other := by
    rintro vertex label ⟨other, hless, hbest | hpending⟩
    · exact ⟨other, hless, hbest⟩
    · rw [hdone] at hpending
      nomatch hpending
  refine ⟨hstate.within vertex, ?_⟩
  rintro ⟨label, hlabel, hcarries⟩
  suffices hlabelled : ∃ other ≤ label, state.best vertex = some other by
    obtain ⟨other, hother, hbest⟩ := hlabelled
    exact (hstate.expanded vertex other hbest (hother.trans hlabel)).1
  induction hcarries with
  | root hroot => exact hbest (hstate.rooted _ hroot)
  | edge hpath hedge ih =>
      obtain ⟨other, hother, hbestOther⟩ := ih (by omega)
      have hcovers := (hstate.expanded _ other hbestOther (by omega)).2 _ hedge
      obtain ⟨least, hleast, hfound⟩ := hbest hcovers
      exact ⟨least, by omega, hfound⟩

omit [DecidableEq α] in
/-- A sum whose terms do not grow, and one of which shrinks. -/
theorem sum_map_add_le {f g : α → Nat} {items : List α} (hle : ∀ item ∈ items, f item ≤ g item)
    {shrunk : α} (hmem : shrunk ∈ items) {amount : Nat} (hshrunk : f shrunk + amount ≤ g shrunk) :
    (items.map f).sum + amount ≤ (items.map g).sum := by
  induction items with
  | nil => nomatch hmem
  | cons first rest ih =>
      rw [List.forall_mem_cons] at hle
      rw [List.map_cons, List.map_cons, List.sum_cons, List.sum_cons]
      rcases List.mem_cons.mp hmem with rfl | hmem
      · have hrest := List.sum_le_sum (l := rest) hle.2
        omega
      · have hrest := ih hle.2 hmem
        have hfirst := hle.1
        omega

variable {vertices : List α} {vertex : α} {label : Nat} {pending : List (α × Nat)}
  {best : α → Option Nat} {retained : List α}

section

variable (hsmaller : ∀ previous, best vertex = some previous → label < previous)
include hsmaller

theorem Covers.relabel (more : List (α × Nat)) {other : α} {amount : Nat}
    (hcovers : Covers ⟨(vertex, label) :: pending, best, retained⟩ other amount) :
    Covers ⟨more ++ pending, LabelSearch.relabel best vertex label, retained'⟩ other amount := by
  obtain ⟨least, hleast, hbest | hmem⟩ := hcovers
  · by_cases hsame : other = vertex
    · subst hsame
      have hless := hsmaller least hbest
      exact ⟨label, by omega, Or.inl (if_pos rfl)⟩
    · exact ⟨least, hleast, Or.inl ((if_neg hsame).trans hbest)⟩
  · rcases List.mem_cons.mp hmem with hsame | hmem
    · cases hsame
      exact ⟨label, hleast, Or.inl (if_pos rfl)⟩
    · exact ⟨least, hleast, Or.inr (List.mem_append_right _ hmem)⟩

/-- A smaller label leaves less room. -/
theorem roundsLeft_relabel (more : List (α × Nat)) (hvertex : vertex ∈ vertices)
    (hlabel : label ≤ limit + 1) (hmore : more.length ≤ (edges vertex).length) :
    roundsLeft edges limit vertices
        ⟨more ++ pending, LabelSearch.relabel best vertex label, retained'⟩ <
      roundsLeft edges limit vertices ⟨(vertex, label) :: pending, best, retained⟩ := by
  have hroom : room limit (some label) + 1 ≤ room limit (best vertex) := by
    cases hbest : best vertex with
    | none =>
        simp only [room, Option.getD_some, Option.getD_none]
        omega
    | some previous =>
        have hless := hsmaller previous hbest
        simp only [room, Option.getD_some]
        omega
  have hself : LabelSearch.relabel best vertex label vertex = some label := if_pos rfl
  have hshrinks : (vertices.map fun other => (edges other).length *
        room limit (LabelSearch.relabel best vertex label other)).sum + (edges vertex).length ≤
      (vertices.map fun other => (edges other).length * room limit (best other)).sum := by
    apply sum_map_add_le _ hvertex
    · rw [hself, ← Nat.mul_succ]
      exact Nat.mul_le_mul_left _ hroom
    · intro other _
      apply Nat.mul_le_mul_left
      unfold LabelSearch.relabel
      split
      next hsame =>
        rw [hsame]
        omega
      next => exact le_refl _
  unfold roundsLeft
  simp only [List.length_append, List.length_cons]
  omega

variable (hstate : Searching roots edges weight limit vertices ⟨(vertex, label) :: pending, best, retained⟩)
include hstate

theorem Searching.beyond (hbeyond : limit < label) :
    Searching roots edges weight limit vertices
      ⟨pending, LabelSearch.relabel best vertex label, retained⟩ := by
  have hcovers : ∀ {other amount}, Covers ⟨(vertex, label) :: pending, best, retained⟩ other amount →
      Covers ⟨pending, LabelSearch.relabel best vertex label, retained⟩ other amount :=
    fun hcovers => hcovers.relabel hsmaller []
  refine ⟨fun entry hentry => hstate.known entry (List.mem_cons_of_mem _ hentry),
    fun entry hentry => hstate.carries entry (List.mem_cons_of_mem _ hentry), hstate.within,
    fun root hroot => hcovers (hstate.rooted root hroot), fun other amount hbest hamount => ?_⟩
  by_cases hsame : other = vertex
  · have hlabel : label = amount := Option.some.inj ((if_pos hsame).symm.trans hbest)
    omega
  · obtain ⟨hretained, hnext⟩ :=
      hstate.expanded other amount ((if_neg hsame).symm.trans hbest) hamount
    exact ⟨hretained, fun next hedge => hcovers (hnext next hedge)⟩

/-- A vertex within the limit is kept, and its neighbours are pushed. -/
theorem Searching.expand (hclosed : ∀ vertex ∈ vertices, ∀ next ∈ edges vertex, next ∈ vertices)
    (hweight : ∀ vertex, weight vertex ≤ 1) (hlimit : label ≤ limit) :
    Searching roots edges weight limit vertices
      ⟨((edges vertex).map fun next => (next, label + weight next)).reverse ++ pending,
        LabelSearch.relabel best vertex label, vertex :: retained⟩ := by
  have hvertex : vertex ∈ vertices := (hstate.known _ List.mem_cons_self).1
  have hpath : Carries roots edges weight vertex label := hstate.carries _ List.mem_cons_self
  have hpushed : ∀ entry ∈ ((edges vertex).map fun next => (next, label + weight next)).reverse,
      entry.1 ∈ edges vertex ∧ entry.2 = label + weight entry.1 := by
    intro entry hentry
    obtain ⟨next, hnext, rfl⟩ := List.mem_map.mp (List.mem_reverse.mp hentry)
    exact ⟨hnext, rfl⟩
  refine ⟨?_, ?_, ?_, fun root hroot => (hstate.rooted root hroot).relabel hsmaller _, ?_⟩
  · intro entry hentry
    rcases List.mem_append.mp hentry with hnew | hold
    · obtain ⟨hnext, hlabel⟩ := hpushed entry hnew
      have hone := hweight entry.1
      exact ⟨hclosed vertex hvertex entry.1 hnext, by omega⟩
    · exact hstate.known entry (List.mem_cons_of_mem _ hold)
  · intro entry hentry
    rcases List.mem_append.mp hentry with hnew | hold
    · obtain ⟨hnext, hlabel⟩ := hpushed entry hnew
      rw [hlabel]
      exact hpath.edge hnext
    · exact hstate.carries entry (List.mem_cons_of_mem _ hold)
  · intro other hother
    rcases List.mem_cons.mp hother with rfl | hother
    · exact ⟨label, hlimit, hpath⟩
    · exact hstate.within other hother
  · intro other amount hbest hamount
    by_cases hsame : other = vertex
    · have hlabel : label = amount := Option.some.inj ((if_pos hsame).symm.trans hbest)
      subst hsame hlabel
      refine ⟨List.mem_cons_self, fun next hnext => ⟨_, le_refl _, Or.inr ?_⟩⟩
      apply List.mem_append_left
      rw [List.mem_reverse]
      exact List.mem_map_of_mem hnext
    · obtain ⟨hretained, hnext⟩ :=
        hstate.expanded other amount ((if_neg hsame).symm.trans hbest) hamount
      exact ⟨List.mem_cons_of_mem _ hretained, fun next hedge => (hnext next hedge).relabel hsmaller _⟩

omit [DecidableEq α] hsmaller in
theorem Searching.drop {previous : Nat} (hprevious : best vertex = some previous) (hless : previous ≤ label) :
    Searching roots edges weight limit vertices ⟨pending, best, retained⟩ := by
  have hcovers : ∀ {other amount}, Covers ⟨(vertex, label) :: pending, best, retained⟩ other amount →
      Covers ⟨pending, best, retained⟩ other amount := by
    rintro other amount ⟨least, hleast, hbest | hmem⟩
    · exact ⟨least, hleast, Or.inl hbest⟩
    · rcases List.mem_cons.mp hmem with hsame | hmem
      · cases hsame
        exact ⟨previous, hless.trans hleast, Or.inl hprevious⟩
      · exact ⟨least, hleast, Or.inr hmem⟩
  refine ⟨fun entry hentry => hstate.known entry (List.mem_cons_of_mem _ hentry),
    fun entry hentry => hstate.carries entry (List.mem_cons_of_mem _ hentry), hstate.within,
    fun root hroot => hcovers (hstate.rooted root hroot), fun other amount hbest hamount => ?_⟩
  obtain ⟨hretained, hnext⟩ := hstate.expanded other amount hbest hamount
  exact ⟨hretained, fun next hedge => hcovers (hnext next hedge)⟩

end

theorem Searching.round (hfetch : ∀ vertex ∈ vertices, neighbours vertex = .ok (edges vertex))
    (hclosed : ∀ vertex ∈ vertices, ∀ next ∈ edges vertex, next ∈ vertices)
    (hweight : ∀ vertex, weight vertex ≤ 1)
    (hstate : Searching roots edges weight limit vertices state) :
    LabelSearch.round neighbours weight limit state = none ∨ ∃ next,
      LabelSearch.round neighbours weight limit state = some (.ok next) ∧
        Searching roots edges weight limit vertices next ∧
        roundsLeft edges limit vertices next < roundsLeft edges limit vertices state := by
  obtain ⟨pending, best, retained⟩ := state
  cases pending with
  | nil => exact Or.inl rfl
  | cons entry pending =>
      right
      obtain ⟨vertex, label⟩ := entry
      obtain ⟨hvertex, hlabel⟩ := hstate.known _ List.mem_cons_self
      by_cases hdrop : (best vertex).any fun previous => previous ≤ label
      · cases hbest : best vertex with
        | none =>
            rw [hbest] at hdrop
            nomatch hdrop
        | some previous =>
            have hless : previous ≤ label := by
              rw [hbest, Option.any_some, decide_eq_true_eq] at hdrop
              exact hdrop
            refine ⟨_, ?_, hstate.drop hbest hless, ?_⟩
            · simp only [LabelSearch.round]
              rw [if_pos hdrop]
            · simp [roundsLeft]
      · have hsmaller : ∀ previous, best vertex = some previous → label < previous := by
          intro previous hprevious
          by_contra hless
          apply hdrop
          rw [hprevious, Option.any_some, decide_eq_true_eq]
          omega
        by_cases hbeyond : limit < label
        · refine ⟨_, ?_, hstate.beyond hsmaller hbeyond, ?_⟩
          · simp only [LabelSearch.round]
            rw [if_neg hdrop, if_pos hbeyond]
          · exact roundsLeft_relabel hsmaller [] hvertex hlabel (Nat.zero_le _)
        · refine ⟨_, ?_, hstate.expand hsmaller hclosed hweight (by omega), ?_⟩
          · simp only [LabelSearch.round]
            rw [if_neg hdrop, if_neg hbeyond, hfetch vertex hvertex]
            rfl
          · exact roundsLeft_relabel hsmaller _ hvertex hlabel (by simp)

variable (vertices) in
/-- A search ends with the vertices that a path within the limit leads to. -/
theorem search_eq_ok (hroots : ∀ root ∈ roots, root ∈ vertices)
    (hfetch : ∀ vertex ∈ vertices, neighbours vertex = .ok (edges vertex))
    (hclosed : ∀ vertex ∈ vertices, ∀ next ∈ edges vertex, next ∈ vertices)
    (hweight : ∀ vertex, weight vertex ≤ 1) {fuel : Nat}
    (hfuel : roundsLeft edges limit vertices (start weight roots) ≤ fuel) :
    ∃ found, search neighbours weight limit fuel roots = .ok found ∧
      ∀ vertex, vertex ∈ found ↔ ∃ label ≤ limit, Carries roots edges weight vertex label := by
  have hentry : ∀ entry ∈ (start weight roots).pending,
      entry.1 ∈ roots ∧ entry.2 = weight entry.1 := by
    intro entry hentry
    obtain ⟨root, hroot, rfl⟩ := List.mem_map.mp (List.mem_reverse.mp hentry)
    exact ⟨hroot, rfl⟩
  have hstart : Searching roots edges weight limit vertices (start weight roots) := by
    refine ⟨fun entry hmem => ?_, fun entry hmem => ?_, nofun, fun root hroot => ?_, nofun⟩
    · obtain ⟨hroot, hlabel⟩ := hentry entry hmem
      have hone := hweight entry.1
      exact ⟨hroots _ hroot, by omega⟩
    · obtain ⟨hroot, hlabel⟩ := hentry entry hmem
      rw [hlabel]
      exact .root hroot
    · exact ⟨_, le_refl _, Or.inr (List.mem_reverse.mpr (List.mem_map_of_mem hroot))⟩
  obtain ⟨final, hloop, hfinal, hdone⟩ :=
    repeatLoop_total (I := Searching roots edges weight limit vertices)
      (m := roundsLeft edges limit vertices)
      (fun state hstate => hstate.round hfetch hclosed hweight) hstart hfuel
  refine ⟨final.retained, by rw [search, hloop]; rfl, fun vertex => hfinal.retained_iff ?_⟩
  obtain ⟨pending, best, retained⟩ := final
  cases pending with
  | nil => rfl
  | cons entry pending => nomatch hdone

def searchFuel (edges : α → List α) (limit : Nat) (vertices roots : List α) : Nat :=
  (vertices.map fun vertex => (edges vertex).length * (limit + 2)).sum + roots.length

omit [DecidableEq α] in
theorem roundsLeft_start (vertices : List α) :
    roundsLeft edges limit vertices (start weight roots) = searchFuel edges limit vertices roots := by
  simp [roundsLeft, start, room, searchFuel]

end LabelSearch

end KjAtlas
