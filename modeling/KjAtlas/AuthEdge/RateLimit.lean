import Mathlib.Data.List.TakeWhile
import Mathlib.Tactic.Linarith
import KjAtlas.Foundation.KeyedStore

/-! # The rate limiter

Requests of a client are counted in windows. A window begins with a request, and
the first request that comes a window later begins the next one. The clock is
read before the lock is taken, so that a request may bring a time that is less
than one that was counted before it.
-/

namespace KjAtlas.RateLimit

/-! ## The limiter -/

structure FixedWindow where
  start : ℚ
  count : Nat

structure InMemoryRateLimiter where
  windowSeconds : ℚ
  maxRequests : Nat
  windows : InsertionMap String FixedWindow

/-- The window that a request is counted in, before it is counted. -/
def windowAt (windowSeconds : ℚ) (current : Option FixedWindow) (now : ℚ) : FixedWindow :=
  match current with
  | none => ⟨now, 0⟩
  | some window => if windowSeconds ≤ now - window.start then ⟨now, 0⟩ else window

def allow (limiter : InMemoryRateLimiter) (key : String) (now : ℚ) : Bool × InMemoryRateLimiter :=
  let found := windowAt limiter.windowSeconds (limiter.windows.get? key) now
  let window := { found with count := found.count + 1 }
  (decide (window.count ≤ limiter.maxRequests),
    { limiter with windows := limiter.windows.set key window })

def InMemoryRateLimiter.init (windowSeconds : ℚ) (maxRequests : Nat) : InMemoryRateLimiter :=
  ⟨windowSeconds, maxRequests, .empty⟩

/-- A call of `allow`, with the time that was read for it. -/
structure Call where
  key : String
  now : ℚ

def answers : InMemoryRateLimiter → List Call → List (Call × Bool)
  | _, [] => []
  | limiter, call :: calls =>
      let (allowed, next) := allow limiter call.key call.now
      (call, allowed) :: answers next calls

def answersOf (key : String) (answered : List (Call × Bool)) : List (ℚ × Bool) :=
  (answered.filter fun entry => decide (entry.1.key = key)).map fun entry =>
    (entry.1.now, entry.2)

def timesOf (key : String) (calls : List Call) : List ℚ :=
  (calls.filter fun call => decide (call.key = key)).map Call.now

/-- The calls of one key, with the window that it has. -/
def serve (windowSeconds : ℚ) (maxRequests : Nat) :
    Option FixedWindow → List ℚ → List (ℚ × Bool)
  | _, [] => []
  | current, now :: nows =>
      let found := windowAt windowSeconds current now
      let window := { found with count := found.count + 1 }
      (now, decide (window.count ≤ maxRequests)) ::
        serve windowSeconds maxRequests (some window) nows

theorem answersOf_eq (limiter : InMemoryRateLimiter) (calls : List Call) (key : String) :
    answersOf key (answers limiter calls) = serve limiter.windowSeconds limiter.maxRequests
      (limiter.windows.get? key) (timesOf key calls) := by
  induction calls generalizing limiter with
  | nil => rfl
  | cons call calls ih =>
      unfold answers
      by_cases hkey : call.key = key
      · subst hkey
        simpa [answersOf, timesOf, serve, allow] using ih (allow limiter call.key call.now).2
      · have hother : ¬ key = call.key := fun heq => hkey heq.symm
        simpa [answersOf, timesOf, allow, hkey, hother] using
          ih (allow limiter call.key call.now).2

/-! ## Windows -/

/-- The times of one key in windows: a window begins with a time, and the next one begins with the
first time after it that is a window later. -/
def fixedWindows (windowSeconds : ℚ) : List ℚ → List (List ℚ)
  | [] => []
  | start :: nows =>
      (start :: nows.takeWhile fun now => decide (now - start < windowSeconds)) ::
        fixedWindows windowSeconds (nows.dropWhile fun now => decide (now - start < windowSeconds))
termination_by nows => nows.length
decreasing_by exact Nat.lt_succ_of_le (List.dropWhile_suffix _).length_le

def answerWindow (maxRequests : Nat) (window : List ℚ) : List (ℚ × Bool) :=
  window.mapIdx fun index now => (now, decide (index < maxRequests))

section Serve

variable {windowSeconds : ℚ} {maxRequests : Nat}

theorem serve_some (start : ℚ) (count : Nat) (nows : List ℚ) :
    serve windowSeconds maxRequests (some ⟨start, count⟩) nows =
      (nows.takeWhile fun now => decide (now - start < windowSeconds)).mapIdx
        (fun index now => (now, decide (count + index < maxRequests))) ++
      serve windowSeconds maxRequests none
        (nows.dropWhile fun now => decide (now - start < windowSeconds)) := by
  induction nows generalizing count with
  | nil => rfl
  | cons now nows ih =>
      by_cases hover : windowSeconds ≤ now - start
      · have hnot : ¬ now - start < windowSeconds := not_lt.mpr hover
        simp [serve, windowAt, hover, hnot]
      · have hwithin : now - start < windowSeconds := not_le.mp hover
        have hinside : decide (now - start < windowSeconds) = true := decide_eq_true hwithin
        have hfound : windowAt windowSeconds (some ⟨start, count⟩) now = ⟨start, count⟩ :=
          if_neg hover
        have hshift : (fun index (now : ℚ) => (now, decide (count + (index + 1) < maxRequests))) =
            fun index now => (now, decide (count + 1 + index < maxRequests)) := by
          funext index now
          rw [Nat.add_right_comm, Nat.add_assoc]
        rw [serve, hfound, List.takeWhile_cons, List.dropWhile_cons, hinside, if_pos rfl,
          if_pos rfl, List.mapIdx_cons, List.cons_append, hshift, ih (count + 1)]
        rfl

theorem serve_eq (nows : List ℚ) :
    serve windowSeconds maxRequests none nows =
      ((fixedWindows windowSeconds nows).map (answerWindow maxRequests)).flatten := by
  induction nows using fixedWindows.induct windowSeconds with
  | case1 => simp [serve, fixedWindows]
  | case2 start nows ih =>
      rw [fixedWindows, List.map_cons, List.flatten_cons, ← ih, serve, serve_some]
      simp [windowAt, answerWindow, List.mapIdx_cons, Nat.add_comm 1, Nat.succ_le_iff]
      rfl

/-- Of a window no more requests are allowed than the maximum. -/
theorem countP_mapIdx_le (count : Nat) (window : List ℚ) :
    (window.mapIdx fun index now => (now, decide (count + index < maxRequests))).countP
      (fun entry => entry.2) ≤ maxRequests - count := by
  induction window generalizing count with
  | nil => simp
  | cons now window ih =>
      have hrest := ih (count + 1)
      simp only [Nat.add_right_comm count 1] at hrest
      rw [List.mapIdx_cons, List.countP_cons]
      simp only [Nat.add_zero, decide_eq_true_eq, ← Nat.add_assoc]
      split <;> omega

theorem countP_answerWindow_le (window : List ℚ) :
    (answerWindow maxRequests window).countP (fun entry => entry.2) ≤ maxRequests := by
  simpa [answerWindow] using countP_mapIdx_le 0 window

theorem map_fst_serve (current : Option FixedWindow) (nows : List ℚ) :
    (serve windowSeconds maxRequests current nows).map Prod.fst = nows := by
  induction nows generalizing current with
  | nil => rfl
  | cons now nows ih => rw [serve, List.map_cons, ih]

end Serve

/-! ## Intervals -/

/-- No time is more than `lag` below a time that was counted before it. -/
def LagsAtMost (lag : ℚ) (nows : List ℚ) : Prop :=
  nows.Pairwise fun earlier later => earlier ≤ later + lag

/-- The number of calls that were allowed within an interval. -/
def allowedWithin (first last : ℚ) (answered : List (ℚ × Bool)) : Nat :=
  answered.countP fun entry => entry.2 && decide (first ≤ entry.1 ∧ entry.1 ≤ last)

section Intervals

variable {windowSeconds lag first last : ℚ} {maxRequests : Nat}

theorem allowedWithin_le (answered : List (ℚ × Bool)) :
    allowedWithin first last answered ≤ answered.countP fun entry => entry.2 :=
  List.countP_mono_left fun _ _ hboth => (Bool.and_eq_true_iff.mp hboth).1

theorem allowedWithin_eq_zero {answered : List (ℚ × Bool)}
    (houtside : ∀ now ∈ answered.map Prod.fst, ¬ (first ≤ now ∧ now ≤ last)) :
    allowedWithin first last answered = 0 := by
  rw [allowedWithin, List.countP_eq_zero]
  intro entry hentry hboth
  rw [Bool.and_eq_true, decide_eq_true_eq] at hboth
  exact houtside entry.1 (List.mem_map_of_mem hentry) hboth.2

theorem map_fst_answerWindow (window : List ℚ) :
    (answerWindow maxRequests window).map Prod.fst = window := by
  apply List.ext_getElem
  · simp [answerWindow]
  · intro index _ _
    simp [answerWindow]

variable {nows : List ℚ}

/-- The times of a window are before its end. -/
theorem lt_of_mem_window {start now : ℚ} (hpositive : 0 < windowSeconds)
    (hmem : now ∈ start :: nows.takeWhile fun other => decide (other - start < windowSeconds)) :
    now < start + windowSeconds := by
  rcases List.mem_cons.mp hmem with rfl | hwithin
  · linarith
  · have hlt := List.mem_takeWhile_imp hwithin
    rw [decide_eq_true_eq] at hlt
    linarith

theorem le_of_dropWhile_eq_cons {start next : ℚ} {rest : List ℚ}
    (hlater : (nows.dropWhile fun now => decide (now - start < windowSeconds)) = next :: rest) :
    start + windowSeconds ≤ next := by
  have hhead := List.head?_dropWhile_not (fun now => decide (now - start < windowSeconds)) nows
  rw [hlater] at hhead
  have hnext : windowSeconds ≤ next - start := not_lt.mp (of_decide_eq_false hhead)
  linarith

theorem LagsAtMost.dropWhile {start : ℚ} (hlags : LagsAtMost lag (start :: nows)) (p : ℚ → Bool) :
    LagsAtMost lag (nows.dropWhile p) :=
  (List.pairwise_cons.mp hlags).2.sublist (List.dropWhile_suffix p).sublist

/-- What follows a window is after its end, up to the lag. -/
theorem le_of_mem_later {start now : ℚ} (hlag : 0 ≤ lag) (hlags : LagsAtMost lag (start :: nows))
    (hmem : now ∈ nows.dropWhile fun other => decide (other - start < windowSeconds)) :
    start + windowSeconds ≤ now + lag := by
  have hrest := hlags.dropWhile fun other => decide (other - start < windowSeconds)
  cases hlater : nows.dropWhile fun other => decide (other - start < windowSeconds) with
  | nil =>
      rw [hlater] at hmem
      cases hmem
  | cons next rest =>
      rw [hlater] at hmem hrest
      have hnext := le_of_dropWhile_eq_cons hlater
      rcases List.mem_cons.mp hmem with rfl | hmem
      · linarith
      · have hle := (List.pairwise_cons.mp hrest).1 now hmem
        linarith

theorem allowedWithin_append (left right : List (ℚ × Bool)) :
    allowedWithin first last (left ++ right) =
      allowedWithin first last left + allowedWithin first last right := List.countP_append

theorem allowedWithin_window_le (window : List ℚ) :
    allowedWithin first last (answerWindow maxRequests window) ≤ maxRequests :=
  (allowedWithin_le _).trans (countP_answerWindow_le window)

theorem allowedWithin_serve_le (hlag : 0 ≤ lag) (hshort : last - first + lag < windowSeconds)
    (hlags : LagsAtMost lag nows) :
    allowedWithin first last (serve windowSeconds maxRequests none nows) ≤ 2 * maxRequests := by
  rw [serve_eq]
  induction nows using fixedWindows.induct windowSeconds with
  | case1 => simp [fixedWindows, allowedWithin]
  | case2 start nows ih =>
      have hrest := hlags.dropWhile fun now => decide (now - start < windowSeconds)
      rw [fixedWindows, List.map_cons, List.flatten_cons, allowedWithin_append]
      by_cases hreaches : ∃ now ∈ start :: nows.takeWhile (fun now =>
          decide (now - start < windowSeconds)), first ≤ now ∧ now ≤ last
      · obtain ⟨now, hmem, hfirst, hlast⟩ := hreaches
        have hend := lt_of_mem_window (by linarith) hmem
        have hwindow := @allowedWithin_window_le first last maxRequests
          (start :: nows.takeWhile fun now => decide (now - start < windowSeconds))
        cases hnext : nows.dropWhile fun now => decide (now - start < windowSeconds) with
        | nil =>
            have hnone : allowedWithin first last
                ((fixedWindows windowSeconds []).map (answerWindow maxRequests)).flatten = 0 := by
              simp [fixedWindows, allowedWithin]
            omega
        | cons next rest =>
            rw [hnext] at hrest
            have hbegin := le_of_dropWhile_eq_cons hnext
            have hsecond := @allowedWithin_window_le first last maxRequests
              (next :: rest.takeWhile fun now => decide (now - next < windowSeconds))
            -- the window after the next one begins when the interval is over
            have hthird : allowedWithin first last ((fixedWindows windowSeconds (rest.dropWhile
                fun now => decide (now - next < windowSeconds))).map
                  (answerWindow maxRequests)).flatten = 0 := by
              rw [← serve_eq]
              apply allowedWithin_eq_zero
              intro later hlater hwithin
              rw [map_fst_serve] at hlater
              have hle := le_of_mem_later hlag hrest hlater
              linarith [hwithin.2]
            rw [fixedWindows, List.map_cons, List.flatten_cons, allowedWithin_append, hthird]
            omega
      · rw [allowedWithin_eq_zero, Nat.zero_add]
        · exact ih hrest
        · rw [map_fst_answerWindow]
          exact fun now hmem hwithin => hreaches ⟨now, hmem, hwithin⟩

end Intervals

/-! ## The bounds -/

/-- What holds for the calls of a key: the answers are those for its calls alone, in windows of
which each has no more allowed requests than the maximum. Two windows are all that matters for an
interval that is shorter than a window by more than the lag of the clock. When a window is over,
the next call begins a new one and is allowed. -/
structure Bounded (limiter : InMemoryRateLimiter) (calls : List Call) (key : String) : Prop where
  windows : answersOf key (answers limiter calls) =
    ((fixedWindows limiter.windowSeconds (timesOf key calls)).map
      (answerWindow limiter.maxRequests)).flatten
  perWindow : ∀ window ∈ fixedWindows limiter.windowSeconds (timesOf key calls),
    (answerWindow limiter.maxRequests window).countP (fun entry => entry.2) ≤ limiter.maxRequests
  alone : ∀ others, timesOf key others = timesOf key calls →
    answersOf key (answers limiter others) = answersOf key (answers limiter calls)
  intervals : ∀ lag first last, 0 ≤ lag → LagsAtMost lag (timesOf key calls) →
    last - first + lag < limiter.windowSeconds →
      allowedWithin first last (answersOf key (answers limiter calls)) ≤ 2 * limiter.maxRequests
  again : ∀ reached window now, reached.windowSeconds = limiter.windowSeconds →
    reached.maxRequests = limiter.maxRequests → reached.windows.get? key = some window →
      limiter.windowSeconds ≤ now - window.start →
        (allow reached key now).1 = decide (1 ≤ limiter.maxRequests)

theorem requests_are_bounded (windowSeconds : ℚ) (maxRequests : Nat) (calls : List Call)
    (key : String) : Bounded (.init windowSeconds maxRequests) calls key where
  windows := by
    rw [answersOf_eq]
    exact serve_eq (timesOf key calls)
  perWindow window _ := countP_answerWindow_le window
  alone others hsame := by
    rw [answersOf_eq, answersOf_eq, hsame]
  intervals lag first last hlag hlags hshort := by
    rw [answersOf_eq]
    exact allowedWithin_serve_le hlag hshort hlags
  again reached window now hseconds hmax hwindow hover := by
    rw [← hseconds] at hover
    simp [allow, windowAt, hwindow, hover, hmax]

namespace LateReading

def call (now : ℚ) : Call := ⟨"client", now⟩

/-- Three windows, of which the third one has times of the second one. -/
def calls : List Call := [0, 59, 59, 60, 60, 60, 120, 118, 118].map call

/-- Seven requests are allowed within 59 seconds, where six is twice the maximum. -/
theorem three_windows_in_an_interval :
    2 * 3 < allowedWithin 59 118 (answersOf "client" (answers (.init 60 3) calls)) ∧
      (118 : ℚ) - 59 < 60 ∧ LagsAtMost 2 (timesOf "client" calls) := by
  refine ⟨by decide +kernel, by norm_num, ?_⟩
  unfold LagsAtMost
  decide +kernel

end LateReading

end KjAtlas.RateLimit
