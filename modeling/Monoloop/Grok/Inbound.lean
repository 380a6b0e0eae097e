import Monoloop.Grok.JsonRpc
import Monoloop.Lib.HashMap
import Monoloop.Lib.Utf8

/-!
# Inbound messages of the Grok server

`handle_inbound` routes a message of the server: a response to the call that waits for
it, a request of the agent to `answer_client_request`, a notification to the session it
names. A panic here would end the one task that reads for all sessions, so slicing and
index arithmetic are partial (`Panic`).

The file system and the JSON reader are the host's. `overflowChecks` is the setting of
the build profile: with it an overflowing addition panics, without it the sum wraps.
-/

namespace Monoloop.Grok

open Connector (ConnectorError)
open Interpreter (Json)

/-- Where the task stops. -/
inductive Panic where
  | addOverflow
  | sliceRange
  | charBoundary
deriving DecidableEq, Repr

/-- The calls of `tokio::fs`; a failure comes with its message. -/
structure FileSystem where
  read : String → Except String (List UInt8)
  createParent : String → Except String Unit
  write : String → String → Except String Unit

structure Host where
  serde : Interpreter.SerdeJson
  mismatch : Json → String
  fs : FileSystem
  overflowChecks : Bool

/-! ## Partial operations -/

/-- Addition of two `usize`. -/
def usizeAdd (overflowChecks : Bool) (a b : Nat) : Except Panic Nat :=
  if a + b < 2 ^ 64 then .ok (a + b)
  else if overflowChecks then .error .addOverflow
  else .ok ((a + b) % 2 ^ 64)

/-- `&xs[start..end]`. -/
def slice {α : Type} (xs : List α) (start stop : Nat) : Except Panic (List α) :=
  if start ≤ stop ∧ stop ≤ xs.length then .ok ((xs.take stop).drop start)
  else .error .sliceRange

def truncateSafe (s : String) (max : Nat) : Except Panic String :=
  if s.utf8ByteSize ≤ max then .ok s
  else
    match Utf8.splitAt s.toList max with
    | some (kept, _) => .ok (String.ofList kept ++ "…")
    | none => .error .charBoundary

/-! ## Client methods -/

/-- The pieces of a text that end with a newline or with the text. -/
def splitInclusive : List Char → List (List Char)
  | [] => []
  | c :: rest =>
      if c = '\n' then [c] :: splitInclusive rest
      else
        match splitInclusive rest with
        | [] => [[c]]
        | line :: lines => (c :: line) :: lines

/-- Without its newline and the carriage return before it. -/
def stripLineEnd (line : List Char) : List Char :=
  if line.getLast? = some '\n' then
    if line.dropLast.getLast? = some '\r' then line.dropLast.dropLast else line.dropLast
  else line

/-- `str::lines`. -/
def lines (text : List Char) : List (List Char) := (splitInclusive text).map stripLineEnd

/-- Max bytes returned for a single `fs/read_text_file`. -/
def maxClientFsReadBytes : Nat := 1024 * 1024

/-- The code and message of a failed client method. -/
abbrev MethodError := Int × String

def validateClientFsPath (path : String) : Except MethodError Unit :=
  if path.isEmpty || path.toList.contains (Char.ofNat 0) then .error (-32602, "invalid path")
  else if path.toList.head? = some '/' then .ok ()
  else .error (-32602, "path must be absolute")

/-- The line window of a text: lines from `line` on (1-based), at most `limit`. -/
def lineWindow (overflowChecks : Bool) (text : List Char) (line : Nat) (limit : Option Nat) :
    Except Panic (List Char) :=
  if 1 < line ∨ limit.isSome then
    let lines := lines text
    let start := min (line - 1) lines.length
    let stop :=
      match limit with
      | some n => (usizeAdd overflowChecks start n).map (min · lines.length)
      | none => .ok lines.length
    (stop.bind (slice lines start)).map (List.intercalate ['\n'])
  else .ok text

/-- The file a read request names, if it can be read. -/
def clientFsData (host : Host) (params : Json) : Except MethodError (List UInt8) :=
  match params.str? "path" with
  | none => .error (-32602, "fs/read_text_file missing path")
  | some path =>
      match validateClientFsPath path with
      | .error e => .error e
      | .ok () =>
          match host.fs.read path with
          | .error e => .error (-32000, "read failed: " ++ e)
          | .ok data =>
              if maxClientFsReadBytes < data.length then
                .error (-32000, "file exceeds max read size (" ++ toString maxClientFsReadBytes ++
                  " bytes)")
              else .ok data

def lineParam (params : Json) : Nat := ((params.get? "line").bind Json.asU64).getD 1

def limitParam (params : Json) : Option Nat := (params.get? "limit").bind Json.asU64

def clientFsRead (host : Host) (params : Json) : Except Panic (Except MethodError String) :=
  match clientFsData host params with
  | .error e => .ok (.error e)
  | .ok data =>
      (lineWindow host.overflowChecks (Utf8.fromUtf8Lossy data) (lineParam params)
        (limitParam params)).map (fun text => .ok (String.ofList text))

def clientFsWrite (host : Host) (params : Json) : Except MethodError Unit :=
  match params.str? "path" with
  | none => .error (-32602, "fs/write_text_file missing path")
  | some path =>
      match validateClientFsPath path with
      | .error e => .error e
      | .ok () =>
          match ((params.get? "content").or (params.get? "text")).bind Json.asStr with
          | none => .error (-32602, "fs/write_text_file missing content")
          | some content =>
              if maxClientFsReadBytes < content.utf8ByteSize then
                .error (-32000, "content exceeds max write size")
              else
                match host.fs.createParent path with
                | .error e => .error (-32000, "create parent dirs: " ++ e)
                | .ok () =>
                    match host.fs.write path content with
                    | .error e => .error (-32000, "write failed: " ++ e)
                    | .ok () => .ok ()

/-- The response to a client method. -/
def clientReply (host : Host) (id : RpcId) (method : String) (params : Json) :
    Except Panic Json :=
  if method = "fs/read_text_file" then
    (clientFsRead host params).map fun
      | .ok content => jsonRpcResult id (.object [("content", .string content)])
      | .error (code, message) => jsonRpcError id code message
  else if method = "fs/write_text_file" then
    match clientFsWrite host params with
    | .ok () => .ok (jsonRpcResult id (.object []))
    | .error (code, message) => .ok (jsonRpcError id code message)
  else
    .ok (jsonRpcError id (-32601)
      ("method not implemented by monoloop-connector-grok: " ++ method))

/-! ## The server -/

structure GrokConnectorLimits where
  maxMessageBytes : Nat
  maxPendingRpc : Nat
  maxSessions : Nat
deriving DecidableEq, Repr

/-- A session attachment, as far as the reader task touches it. `queue` is what was
sent on its output channel, `receiverGone` that nobody will read it. -/
structure SessionInner where
  detached : Bool
  receiverGone : Bool
  updatesReceived : Nat
  queue : List (List UInt8)
deriving DecidableEq, Repr

/-- Internal server state shared by sessions and reader. A pending call is the number
of the call that waits, a route the number of the attachment it leads to; `replies` is
what was sent to waiting calls, `written` the commands to the writer. -/
structure ServerInner where
  limits : GrokConnectorLimits
  pending : HashMap Nat Nat
  sessions : HashMap String Nat
  attachments : List SessionInner
  replies : List (Nat × Except ConnectorError Json)
  writeOpen : Bool
  written : List Json

namespace ServerInner

/-- The messages the writer puts on the wire: it drops what is too long. -/
def wire (s : ServerInner) (serde : Interpreter.SerdeJson) : List Json :=
  s.written.filter fun v => (serde.toString v).utf8ByteSize ≤ s.limits.maxMessageBytes

end ServerInner

/-- What the handler returns, or where it panicked. -/
abbrev Handled := Except Panic (ServerInner × Except ConnectorError Unit)

/-- What a waiting call is told. -/
def replyOf (msg : JsonRpcMessage) : Except Panic (Except ConnectorError Json) :=
  match msg.error with
  | some err =>
      (truncateSafe err.message 200).map fun text =>
        .error (.protocol ("rpc error " ++ toString err.code ++ ": " ++ text))
  | none => .ok (.ok (msg.result.getD .null))

/-- `str::parse::<u64>`: digits after an optional plus sign. -/
def parseU64 (s : String) : Option Nat :=
  let digits := if s.toList.head? = some '+' then s.toList.tail else s.toList
  if digits ≠ [] ∧ digits.all Char.isDigit then
    let n := digits.foldl (fun n c => 10 * n + (c.toNat - '0'.toNat)) 0
    if n < 2 ^ 64 then some n else none
  else none

def responseId : RpcId → Except ConnectorError Nat
  | .number n => .ok n
  | .string s =>
      match parseU64 s with
      | some n => .ok n
      | none => .error (.protocol "string rpc id not numeric")

def handleResponse (s : ServerInner) (msg : JsonRpcMessage) : Handled :=
  match msg.id with
  | none => .ok (s, .error (.protocol "response missing id"))
  | some id =>
      match responseId id with
      | .error e => .ok (s, .error e)
      | .ok idNum =>
          match s.pending.lookup idNum with
          | none => .ok (s, .error (.protocol "response for unknown rpc id"))
          | some waiter =>
              (replyOf msg).map fun reply =>
                ({ s with
                  pending := s.pending.erase idNum
                  replies := s.replies ++ [(waiter, reply)] }, .ok ())

def answerClientRequest (host : Host) (s : ServerInner) (msg : JsonRpcMessage) : Handled :=
  match msg.id with
  | none => .ok (s, .error (.protocol "client request missing id"))
  | some id =>
      (clientReply host id (msg.method.getD "") (msg.params.getD .null)).map fun reply =>
        if s.limits.maxMessageBytes < (host.serde.toString reply).utf8ByteSize then
          (s, .error (.resource "client response exceeds max_message_bytes"))
        else if s.writeOpen then ({ s with written := s.written ++ [reply] }, .ok ())
        else (s, .error (.connectionFailed "write path closed"))

/-- `push_inbound`; the wait for a free place is over. -/
def SessionInner.pushInbound (session : SessionInner) (bytes : List UInt8) :
    SessionInner × Except ConnectorError Unit :=
  if session.detached then (session, .error (.sessionFailed "session detached"))
  else
    let session := { session with updatesReceived := session.updatesReceived + 1 }
    if session.receiverGone then
      (session, .error (.resource "session inbound queue full or closed"))
    else ({ session with queue := session.queue ++ [bytes] }, .ok ())

def handleNotification (s : ServerInner) (msg : JsonRpcMessage) (bytes : List UInt8) :
    ServerInner × Except ConnectorError Unit :=
  match sessionIdFromParams msg.params with
  | none => (s, .ok ())
  | some sid =>
      match s.sessions.lookup sid with
      | none => (s, .error (.protocol "notification for unknown sessionId"))
      | some n =>
          match s.attachments[n]? with
          | none => (s, .error (.protocol "notification for unknown sessionId"))
          | some session =>
              let (session, result) := session.pushInbound bytes
              ({ s with attachments := s.attachments.set n session }, result)

/-- One message of the server, already bounded by the reader. -/
def handleInbound (host : Host) (s : ServerInner) (bytes : List UInt8) : Handled :=
  match JsonRpcMessage.parse host.serde host.mismatch bytes with
  | .error e => .ok (s, .error e)
  | .ok msg =>
      if msg.isResponse then handleResponse s msg
      else if msg.isNotificationOrRequest then
        if msg.id.isSome && msg.method.isSome then answerClientRequest host s msg
        else .ok (handleNotification s msg bytes)
      else .ok (s, .error (.protocol "unrecognized json-rpc message"))

end Monoloop.Grok
