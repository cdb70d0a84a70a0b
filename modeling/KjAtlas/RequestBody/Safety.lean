import KjAtlas.Py.Encodings

/-! # The nesting guard of JSON request bodies

The middleware reads the whole body, counts brackets outside strings byte by byte
and refuses a body that opens more than 64 of them. It then replays the messages
to the application.
-/

namespace KjAtlas.RequestBody

open Py (Bytes)

def maxJsonBodyNestingDepth : Nat := 64

structure JsonNestingScanner where
  depth : Nat := 0
  inString : Bool := false
  escaped : Bool := false
  deriving DecidableEq

/-- `byte == ord(c)`. -/
def isOrd (byte : UInt8) (c : Char) : Bool := byte.toNat = c.toNat

/-- `_JsonNestingScanner.feed`: the answer and the scanner after it. -/
def JsonNestingScanner.feed (scanner : JsonNestingScanner) : Bytes → Bool × JsonNestingScanner
  | [] => (true, scanner)
  | byte :: chunk =>
      if scanner.inString then
        if scanner.escaped then feed { scanner with escaped := false } chunk
        else if isOrd byte '\\' then feed { scanner with escaped := true } chunk
        else if isOrd byte '"' then feed { scanner with inString := false } chunk
        else feed scanner chunk
      else if isOrd byte '"' then feed { scanner with inString := true } chunk
      else if isOrd byte '{' || isOrd byte '[' then
        if scanner.depth + 1 > maxJsonBodyNestingDepth then
          (false, { scanner with depth := scanner.depth + 1 })
        else feed { scanner with depth := scanner.depth + 1 } chunk
      else if isOrd byte '}' || isOrd byte ']' then
        feed { scanner with depth := scanner.depth - 1 } chunk
      else feed scanner chunk

/-! ## The middleware -/

/-- A header name or value as its bytes. -/
abbrev Header := Bytes × Bytes

structure Scope where
  type : String
  headers : List Header := []

inductive Message where
  | request (body : Option Bytes) (moreBody : Option Bool)
  | disconnect
  /-- A message of another type. -/
  | other (type : String)
  deriving DecidableEq

/-- `message.get("body", b"")`. -/
def Message.body : Message → Bytes
  | .request body _ => body.getD []
  | .disconnect | .other _ => []

/-- `message.get("more_body", False)`. -/
def Message.moreBody : Message → Bool
  | .request _ moreBody => moreBody.getD false
  | .disconnect | .other _ => false

/-- `bytes.lower()`. -/
def lower (bytes : Bytes) : Bytes :=
  bytes.map fun byte => if 0x41 ≤ byte ∧ byte ≤ 0x5A then byte + 0x20 else byte

def isByteSpace (byte : UInt8) : Bool := byte = 0x20 || (0x09 ≤ byte && byte ≤ 0x0D)

/-- `bytes.strip()`. -/
def stripBytes (bytes : Bytes) : Bytes :=
  ((bytes.dropWhile isByteSpace).reverse.dropWhile isByteSpace).reverse

def ascii (text : String) : Bytes := Py.utf8 text.toList

/-- `_is_json_content_type`: the first header of the name decides. -/
def isJsonContentType (scope : Scope) : Bool :=
  match scope.headers.find? fun header => lower header.1 = ascii "content-type" with
  | none => false
  | some (_, value) =>
      let mediaType := lower (stripBytes (value.takeWhile fun byte => !isOrd byte ';'))
      mediaType = ascii "application/json" || (ascii "+json").isSuffixOf mediaType

/-- A response of `JSONResponse`. -/
structure Response where
  statusCode : Nat
  code : String
  deriving DecidableEq

def nestingTooDeep : Response := ⟨400, "json_nesting_too_deep"⟩

/-- What the middleware does: it answers, or hands over to the application, whose call of
`receive` with a number gives the message of that place. -/
inductive Effect where
  | respond (response : Response)
  | callApp (receive : Nat → Option Message)

/-- The end of the loop over the messages. -/
inductive Received where
  /-- The next message has not arrived yet. -/
  | waiting
  | disconnected
  | ended (nestingTooDeep : Bool) (replayMessages : List Message)

/-- The variables of `__call__` that its loop changes. -/
structure LoopState where
  scanner : JsonNestingScanner := {}
  nestingTooDeep : Bool := false
  replayMessages : List Message := []

def LoopState.keep (state : LoopState) (message : Message) : LoopState :=
  { state with replayMessages := state.replayMessages ++ [message] }

/-- The loop on an `http.request`. Once the body is too deep nothing is scanned any more. -/
def LoopState.request (state : LoopState) (message : Message) : LoopState :=
  if state.nestingTooDeep then state
  else
    let (fed, scanner) := state.scanner.feed message.body
    if fed then { state.keep message with scanner := scanner }
    else { scanner := scanner, nestingTooDeep := true, replayMessages := [] }

/-- The loop of `__call__` over the messages that arrive. -/
def receiveLoop (state : LoopState) : List Message → Received
  | [] => .waiting
  | .disconnect :: _ => .disconnected
  | .other type :: incoming => receiveLoop (state.keep (.other type)) incoming
  | .request body moreBody :: incoming =>
      let message := Message.request body moreBody
      let state := state.request message
      if message.moreBody then receiveLoop state incoming
      else .ended state.nestingTooDeep state.replayMessages

/-- `replay_receive`. -/
def replayReceive (replayMessages : List Message) (index : Nat) : Option Message :=
  some (replayMessages[index]?.getD (.request (some []) (some false)))

/-- `JsonRequestBodySafetyMiddleware.__call__`: what it does, once it is not waiting for a
message any more. -/
def call (scope : Scope) (incoming : List Message) : Option (List Effect) :=
  if scope.type ≠ "http" || !isJsonContentType scope then
    some [.callApp fun index => incoming[index]?]
  else match receiveLoop {} incoming with
    | .waiting => none
    | .disconnected => some []
    | .ended true _ => some [.respond nestingTooDeep]
    | .ended false replayMessages => some [.callApp (replayReceive replayMessages)]

end KjAtlas.RequestBody
