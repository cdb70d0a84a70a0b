import KjAtlas.RequestBody.Scanned

/-! # What the nesting guard lets through

However a body is split, the loop ends as the whole body would have it. The guard is
exact on bodies in UTF-8; bodies in UTF-16 and UTF-32 are scanned as if each byte were
a character.
-/

namespace KjAtlas.RequestBody

open Js (Text)
open Py (Bytes IsJsonText textNesting detectEncoding jsonText)
open JsonNestingScanner (codes)

/-! ## The messages -/

/-- What arrives until the body is complete or the client is gone. -/
inductive Arrival where
  | pending
  | disconnected
  | complete (messages : List Message) (body : Bytes)

def Arrival.after (message : Message) : Arrival → Arrival
  | .pending => .pending
  | .disconnected => .disconnected
  | .complete messages body => .complete (message :: messages) (message.body ++ body)

def arrival : List Message → Arrival
  | [] => .pending
  | .disconnect :: _ => .disconnected
  | .other type :: incoming => (arrival incoming).after (.other type)
  | .request body moreBody :: incoming =>
      let message := Message.request body moreBody
      if message.moreBody then (arrival incoming).after message
      else .complete [message] message.body

def EndsAs (state : LoopState) : Arrival → Received → Prop
  | .pending, received => received = .waiting
  | .disconnected, received => received = .disconnected
  | .complete messages body, received =>
      if state.nestingTooDeep = false ∧
          state.scanner.deepest (codes body) ≤ maxJsonBodyNestingDepth then
        received = .ended false (state.replayMessages ++ messages)
      else ∃ replayMessages, received = .ended true replayMessages

/-- The scanner of a body that is not too deep so far. -/
def LoopState.Sound (state : LoopState) : Prop :=
  state.nestingTooDeep = false → state.scanner.depth ≤ maxJsonBodyNestingDepth

variable {state : LoopState}

/-- The three ways of an `http.request` through the loop. -/
theorem request_cases (hsound : state.Sound) (message : Message) :
    (state.nestingTooDeep = true ∧ state.request message = state) ∨
      (state.nestingTooDeep = false ∧
        state.scanner.deepest (codes message.body) ≤ maxJsonBodyNestingDepth ∧
        state.request message =
          { state.keep message with scanner := state.scanner.run (codes message.body) }) ∨
      (state.nestingTooDeep = false ∧
        maxJsonBodyNestingDepth < state.scanner.deepest (codes message.body) ∧
        (state.request message).nestingTooDeep = true) := by
  rw [LoopState.request]
  cases hdeep : state.nestingTooDeep with
  | true => exact .inl ⟨rfl, rfl⟩
  | false =>
      obtain ⟨hpasses, hrun⟩ := JsonNestingScanner.feed_eq (hsound hdeep) message.body
      cases hfed : (state.scanner.feed message.body).1 with
      | true =>
          refine .inr (.inl ⟨rfl, hpasses.mp hfed, ?_⟩)
          simp only [hfed, Bool.false_eq_true, if_false, if_true, hrun hfed]
      | false =>
          refine .inr (.inr ⟨rfl, ?_, ?_⟩)
          · rw [← not_le, ← hpasses, hfed]
            exact Bool.false_ne_true
          · simp only [hfed, Bool.false_eq_true, if_false]

theorem LoopState.Sound.request (hsound : state.Sound) (message : Message) :
    (state.request message).Sound := by
  intro hshallow
  rcases request_cases hsound message with ⟨-, hsame⟩ | ⟨-, hle, hsame⟩ | ⟨-, -, hdeep⟩
  · rw [hsame] at hshallow ⊢
    exact hsound hshallow
  · rw [hsame]
    exact (JsonNestingScanner.depth_run_le _ _).trans hle
  · rw [hdeep] at hshallow
    cases hshallow

variable {received : Received} {messages : List Message}

theorem EndsAs.request (hsound : state.Sound) {message : Message} {arrived : Arrival}
    (hends : EndsAs (state.request message) arrived received) :
    EndsAs state (arrived.after message) received := by
  cases arrived with
  | pending => exact hends
  | disconnected => exact hends
  | complete messages body =>
      rw [Arrival.after]
      rw [EndsAs] at hends ⊢
      have hdeepest : state.scanner.deepest (codes (message.body ++ body)) =
          max (state.scanner.deepest (codes message.body))
            ((state.scanner.run (codes message.body)).deepest (codes body)) := by
        rw [codes, List.map_append]
        exact JsonNestingScanner.deepest_append _ _ _
      simp only [hdeepest, max_le_iff]
      rcases request_cases hsound message with ⟨hdeep, hsame⟩ | ⟨hdeep, hle, hsame⟩ |
        ⟨-, hlt, hdeep⟩
      · rw [hsame, hdeep, if_neg (by simp)] at hends
        rw [hdeep, if_neg (by simp)]
        exact hends
      · rw [hsame] at hends
        simp only [LoopState.keep, hdeep, true_and, List.append_assoc] at hends
        simp only [hdeep, hle, true_and]
        exact hends
      · rw [hdeep, if_neg (by simp)] at hends
        rw [if_neg (fun h => absurd h.2.1 (not_le.mpr hlt))]
        exact hends

theorem EndsAs.keep {type : String} {arrived : Arrival}
    (hends : EndsAs (state.keep (.other type)) arrived received) :
    EndsAs state (arrived.after (.other type)) received := by
  cases arrived with
  | pending => exact hends
  | disconnected => exact hends
  | complete messages body =>
      rw [EndsAs] at hends
      simp only [LoopState.keep, List.append_assoc] at hends
      exact hends

theorem receiveLoop_ends (hsound : state.Sound) (incoming : List Message) :
    EndsAs state (arrival incoming) (receiveLoop state incoming) := by
  induction incoming generalizing state with
  | nil => rfl
  | cons message incoming ih =>
      cases message with
      | disconnect => rfl
      | other type => exact (@ih (state.keep (.other type)) hsound).keep
      | request body moreBody =>
          rw [arrival, receiveLoop]
          have hsound' := hsound.request (.request body moreBody)
          split
          · exact (ih hsound').request hsound
          · have hlast : EndsAs (state.request (.request body moreBody)) (.complete [] [])
                (.ended (state.request (.request body moreBody)).nestingTooDeep
                  (state.request (.request body moreBody)).replayMessages) := by
              rw [EndsAs]
              cases hdeep : (state.request (.request body moreBody)).nestingTooDeep with
              | true => exact ⟨_, rfl⟩
              | false =>
                  rw [if_pos ⟨rfl, hsound' hdeep⟩, List.append_nil]
            have hends := hlast.request hsound
            rwa [Arrival.after, List.append_nil] at hends

/-! ## The guard -/

def AppCalled (effects : List Effect) : Prop := ∃ receive, Effect.callApp receive ∈ effects

/-- What the guard does with a complete body. -/
structure Guarded (messages : List Message) (body : Bytes) (effects : List Effect) : Prop where
  /-- A JSON text in UTF-8 that is not too deep reaches the application. -/
  calls : ∀ text, body = Py.utf8 text → IsJsonText text →
    textNesting text ≤ maxJsonBodyNestingDepth → AppCalled effects
  /-- What `json.loads` reads of a body that reaches the application is not too deep. -/
  shallow : AppCalled effects → ∀ text, jsonText body = some text →
    textNesting text ≤ maxJsonBodyNestingDepth
  /-- The application receives the messages in their order, or there is one answer. -/
  answers : (∃ receive, effects = [.callApp receive] ∧
      ∀ index (hindex : index < messages.length), receive index = some messages[index]) ∨
    effects = [.respond nestingTooDeep]

def Meets (effects : Option (List Effect)) : Arrival → Prop
  | .pending => effects = none
  | .disconnected => effects = some []
  | .complete messages body => ∃ done, effects = some done ∧ Guarded messages body done

/-- A body in UTF-16 or UTF-32 nests at most as deep as the limit, or its bytes taken for
characters nest deeper. -/
def ScannedRight : Arrival → Prop
  | .pending | .disconnected => True
  | .complete _ body => (detectEncoding body).isWide = true →
      (∀ text, jsonText body = some text → textNesting text ≤ maxJsonBodyNestingDepth) ∨
        maxJsonBodyNestingDepth < byteNesting body

theorem replayReceive_eq (messages : List Message) (index : Nat)
    (hindex : index < messages.length) : replayReceive messages index = some messages[index] := by
  rw [replayReceive, List.getElem?_eq_getElem hindex, Option.getD_some]

/-- A body that is handed over is guarded unless it nests too deep. -/
theorem guarded_call_iff {body : Bytes} :
    Guarded messages body [.callApp (replayReceive messages)] ↔
      ∀ text, jsonText body = some text → textNesting text ≤ maxJsonBodyNestingDepth := by
  have hcalled : AppCalled [.callApp (replayReceive messages)] := ⟨_, List.mem_singleton_self _⟩
  constructor
  · intro hguarded
    exact hguarded.shallow hcalled
  · intro hshallow
    refine ⟨fun _ _ _ _ => hcalled, fun _ => hshallow, .inl ⟨_, rfl, ?_⟩⟩
    exact replayReceive_eq messages

/-- A body that is refused is never a JSON text in UTF-8 within the limit. -/
theorem guarded_of_refused {body : Bytes} (hrefused : maxJsonBodyNestingDepth < byteNesting body) :
    Guarded messages body [.respond nestingTooDeep] := by
  refine ⟨fun text hbody htext hle => ?_, fun hcalled => ?_, .inr rfl⟩
  · rw [hbody, byteNesting_utf8 htext] at hrefused
    exact absurd hle (not_le.mpr hrefused)
  · obtain ⟨receive, hmem⟩ := hcalled
    cases List.mem_singleton.mp hmem

/-- The guard does what it should exactly when the body is in UTF-8, or the bytes of its
other encoding do not mislead the scanner. -/
theorem body_guarded_iff {scope : Scope} (htype : scope.type = "http")
    (hjson : isJsonContentType scope = true) (incoming : List Message) :
    Meets (call scope incoming) (arrival incoming) ↔ ScannedRight (arrival incoming) := by
  have hguards : (scope.type ≠ "http" || !isJsonContentType scope) = false := by
    simp [htype, hjson]
  have hends : EndsAs {} (arrival incoming) (receiveLoop {} incoming) :=
    receiveLoop_ends (fun _ => Nat.zero_le _) incoming
  rw [call, hguards, if_neg Bool.false_ne_true]
  cases harrival : arrival incoming with
  | pending =>
      rw [harrival, EndsAs] at hends
      rw [hends]
      exact ⟨fun _ => trivial, fun _ => rfl⟩
  | disconnected =>
      rw [harrival, EndsAs] at hends
      rw [hends]
      exact ⟨fun _ => trivial, fun _ => rfl⟩
  | complete messages body =>
      rw [harrival, EndsAs, ← byteNesting_eq] at hends
      rw [Meets, ScannedRight]
      by_cases hle : byteNesting body ≤ maxJsonBodyNestingDepth
      · rw [if_pos ⟨rfl, hle⟩] at hends
        rw [hends]
        constructor
        · rintro ⟨done, hdone, hguarded⟩ -
          cases hdone
          exact .inl (guarded_call_iff.mp hguarded)
        · intro hright
          refine ⟨_, rfl, guarded_call_iff.mpr fun text htext => ?_⟩
          cases hwide : (detectEncoding body).isWide with
          | false => exact (textNesting_le hwide htext).trans hle
          | true =>
              rcases hright hwide with hshallow | hlt
              · exact hshallow text htext
              · exact absurd hle (not_le.mpr hlt)
      · rw [if_neg fun h => hle h.2] at hends
        obtain ⟨replay, hends⟩ := hends
        rw [hends]
        refine ⟨fun _ _ => .inr (not_le.mp hle), fun _ => ⟨_, rfl, ?_⟩⟩
        exact guarded_of_refused (not_le.mp hle)

/-! ## A body in UTF-16 -/

namespace Utf16

def scope : Scope :=
  { type := "http", headers := [(ascii "Content-Type", ascii "application/json")] }

/-- `text.encode("utf-16-le")` of a text in ASCII. -/
def encode (text : String) : Bytes := (Py.utf8 text.toList).flatMap fun byte => [byte, 0]

/-- A list within the limit. -/
def shallow : Bytes := encode "[[1], \"a\"]"

theorem shallow_guarded : Meets (call scope [.request (some shallow) none])
    (arrival [.request (some shallow) none]) := by
  apply (body_guarded_iff rfl (by decide +kernel) _).mpr
  intro _
  left
  have htext : jsonText shallow = some "[[1], \"a\"]".toList := by decide +kernel
  intro text hread
  obtain rfl : "[[1], \"a\"]".toList = text := Option.some.inj (htext.symm.trans hread)
  decide +kernel

/-- Behind an escaped quotation mark seventy lists are opened. -/
def text : Text := "[\"\\\"\",".toList ++ List.replicate 70 '[' ++ List.replicate 70 ']' ++ [']']

def body : Bytes := encode (.ofList text)

def incoming : List Message := [.request (some body) none]

/-- The zero byte behind the backslash ends the escape: the scanner stays in the string. -/
theorem body_passes : (JsonNestingScanner.feed {} body).1 = true := by decide +kernel

theorem seventy_lists_pass : ¬ Meets (call scope incoming) (arrival incoming) := by
  have hread : jsonText body = some text := by decide +kernel
  have hdeep : ¬ textNesting text ≤ maxJsonBodyNestingDepth := by decide +kernel
  have hcall : call scope incoming = some [.callApp (replayReceive incoming)] := by
    have hjson : isJsonContentType scope = true := by decide +kernel
    have htype : scope.type = "http" := rfl
    rw [call, if_neg (by simp [htype, hjson])]
    simp [incoming, receiveLoop, LoopState.request, LoopState.keep, Message.body,
      Message.moreBody, body_passes]
  have harrival : arrival incoming = .complete incoming body := by
    simp [incoming, arrival, Message.body, Message.moreBody]
  rw [hcall, harrival]
  rintro ⟨done, hdone, hguarded⟩
  cases hdone
  exact hdeep (hguarded.shallow ⟨_, List.mem_singleton_self _⟩ text hread)

end Utf16

end KjAtlas.RequestBody
