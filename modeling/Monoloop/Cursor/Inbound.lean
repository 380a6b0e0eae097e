import Monoloop.Grok.Answers

/-!
# Inbound lines of the Cursor agent

`handle_inbound_line` looks at a line in a fixed order: a response to a call of this
side, then a request, then a notification. A request is answered in two of the branches,
chosen by the method's name.

The last theorem is about both connectors: which requests of the agent are answered.
-/

namespace Monoloop.Cursor

open Connector (ConnectorErrorKind)
open Grok (IsRequest IsResponseTo Host hostOf)
open Interpreter (Json)

/-- Cursor connector failure. -/
structure CursorConnectorError where
  kind : ConnectorErrorKind
  message : String
deriving DecidableEq, Repr

/-- The process as the reader sees it. A pending call is the number of the call that
waits, `replies` is what such calls were sent; `updates` is what went to the interpreter
and `written` what went to the agent's standard input. -/
structure ProcessInner where
  autoAllowPermissions : Bool
  pending : HashMap Nat Nat
  replies : List (Nat × Except CursorConnectorError Json)
  updateOpen : Bool
  updates : List String
  stdinOpen : Bool
  written : List Json

namespace ProcessInner

/-- `write_value`; the caller drops its result. -/
def writeValue (p : ProcessInner) (v : Json) : ProcessInner :=
  if p.stdinOpen then { p with written := p.written ++ [v] } else p

/-- What a waiting call is told. -/
def replyOf (value : Json) : Except CursorConnectorError Json :=
  match value.get? "error" with
  | some err => .error ⟨.protocolFailed, (err.str? "message").getD "rpc error"⟩
  | none => .ok ((value.get? "result").getD .null)

def handleResponse (p : ProcessInner) (id : Nat) (value : Json) : ProcessInner :=
  match p.pending.lookup id with
  | none => p
  | some waiter =>
      { p with pending := p.pending.erase id, replies := p.replies ++ [(waiter, replyOf value)] }

def allowOnce (id : Json) : Json :=
  .object [("jsonrpc", .string "2.0"), ("id", id), ("result", .object [("outcome",
    .object [("outcome", .string "selected"), ("optionId", .string "allow-once")])])]

def notHandled (id : Json) (method : String) : Json :=
  .object [("jsonrpc", .string "2.0"), ("id", id), ("error",
    .object [("code", .number (.negInt (-32601))),
      ("message", .string ("method not handled by monoloop connector: " ++ method))])]

/-- `starts_with` -/
def startsWith (s start : String) : Bool := start.toList.isPrefixOf s.toList

/-- Only session updates are passed on. -/
def forward (p : ProcessInner) (method line : String) : ProcessInner :=
  if method = "session/update" ∧ p.updateOpen then
    { p with updates := p.updates ++ [line ++ "\n"] }
  else p

/-- A message that is no response. -/
def handleMethod (p : ProcessInner) (value : Json) (line : String) : ProcessInner :=
  match value.str? "method" with
  | none => p
  | some method =>
      match value.get? "id" with
      | some id =>
          if method = "session/request_permission" ∧ p.autoAllowPermissions then
            p.writeValue (allowOnce id)
          else if startsWith method "cursor/" || startsWith method "session/" then
            p.writeValue (notHandled id method)
          else p.forward method line
      | none => p.forward method line

/-- A response carries a number that fits `u64` and a result or an error. -/
def responseId (value : Json) : Option Nat :=
  match (value.get? "id").bind Json.asU64 with
  | some id =>
      if (value.get? "result").isSome || (value.get? "error").isSome then some id else none
  | none => none

def handleInboundLine (p : ProcessInner) (serde : Interpreter.SerdeJson) (line : String) : ProcessInner :=
  match serde.fromStr line with
  | none => p
  | some value =>
      match responseId value with
      | some id => p.handleResponse id value
      | none => p.handleMethod value line

end ProcessInner

open ProcessInner

/-- Handling the line writes exactly one message, a response with this id. -/
def AnswersOnce (serde : Interpreter.SerdeJson) (p : ProcessInner) (line : String) (id : Json) : Prop :=
  ∃ reply, (p.handleInboundLine serde line).written = p.written ++ [reply] ∧ IsResponseTo reply id

/-- **What a request must be like.** Its method is one of the two families, and it does
not look like a response. -/
structure Answerable (v id : Json) (method : String) : Prop where
  method : startsWith method "cursor/" = true ∨ startsWith method "session/" = true
  request : id.asU64 ≠ none → v.get? "result" = none ∧ v.get? "error" = none

section Requests

variable {serde : Interpreter.SerdeJson} {p : ProcessInner} {line : String} {v id : Json} {method : String}

theorem allowOnce_isResponse (id : Json) : IsResponseTo (allowOnce id) id := by
  constructor <;> simp [allowOnce, Json.get?, Json.lookup]

theorem notHandled_isResponse (id : Json) (method : String) :
    IsResponseTo (notHandled id method) id := by
  constructor <;> simp [notHandled, Json.get?, Json.lookup]

theorem handleResponse_written (p : ProcessInner) (id : Nat) (value : Json) :
    (p.handleResponse id value).written = p.written := by
  unfold handleResponse
  split <;> rfl

theorem forward_written (p : ProcessInner) (method line : String) :
    (p.forward method line).written = p.written := by
  unfold forward
  split <;> rfl

/-- The permission request is a method of its family. -/
theorem startsWith_permission : startsWith "session/request_permission" "session/" = true := by
  decide +kernel

theorem handleMethod_request (hreq : IsRequest v id method) (hopen : p.stdinOpen = true) :
    (startsWith method "cursor/" = true ∨ startsWith method "session/" = true) ∧
        (∃ reply, (p.handleMethod v line).written = p.written ++ [reply] ∧ IsResponseTo reply id) ∨
      ¬ (startsWith method "cursor/" = true ∨ startsWith method "session/" = true) ∧
        (p.handleMethod v line).written = p.written := by
  obtain ⟨fields, rfl, -, hid, hmethod⟩ := hreq
  have hget : Json.get? "id" (.object fields) = some id := hid
  have hstr : Json.str? "method" (.object fields) = some method := by
    simp [Json.str?, Json.get?, hmethod, Json.asStr]
  simp only [handleMethod, hget, hstr]
  by_cases hallow : method = "session/request_permission" ∧ p.autoAllowPermissions = true
  · refine .inl ⟨.inr (hallow.1 ▸ startsWith_permission), allowOnce id, ?_, allowOnce_isResponse id⟩
    simp only [if_pos hallow, writeValue, hopen, if_true]
  · rw [if_neg hallow]
    by_cases hfamily : startsWith method "cursor/" = true ∨ startsWith method "session/" = true
    · refine .inl ⟨hfamily, notHandled id method, ?_, notHandled_isResponse id method⟩
      rw [if_pos (by simpa using hfamily)]
      simp only [writeValue, hopen, if_true]
    · refine .inr ⟨hfamily, ?_⟩
      rw [if_neg (by simpa using hfamily)]
      exact forward_written p method line

/-- **The Cursor connector answers exactly the answerable requests.** -/
theorem answersOnce_iff (hreq : IsRequest v id method) (hread : serde.fromStr line = some v)
    (hopen : p.stdinOpen = true) :
    AnswersOnce serde p line id ↔ Answerable v id method := by
  have hget : v.get? "id" = some id := by
    obtain ⟨fields, rfl, -, hid, -⟩ := hreq
    exact hid
  have hsame : ∀ {q : ProcessInner}, q.written = p.written →
      ¬ ∃ reply, q.written = p.written ++ [reply] ∧ IsResponseTo reply id := by
    rintro q hq ⟨reply, hreply, -⟩
    rw [hq] at hreply
    exact absurd hreply (by simp)
  unfold AnswersOnce handleInboundLine
  simp only [hread]
  cases hresponse : responseId v with
  | some n =>
      -- taken for a response, it is consumed without an answer
      have hno : ¬ Answerable v id method := by
        intro h
        unfold responseId at hresponse
        rw [hget] at hresponse
        cases hnum : id.asU64 with
        | none => simp [hnum] at hresponse
        | some m =>
            obtain ⟨hresult, herror⟩ := h.request (by simp [hnum])
            simp [hnum, hresult, herror] at hresponse
      exact iff_of_false (hsame (handleResponse_written p n v)) hno
  | none =>
      have hrequest : id.asU64 ≠ none → v.get? "result" = none ∧ v.get? "error" = none := by
        intro hnum
        obtain ⟨m, hm⟩ := Option.ne_none_iff_exists'.mp hnum
        simpa [responseId, hget, hm] using hresponse
      rcases @handleMethod_request p line v id method hreq hopen with
        ⟨hfamily, hreply⟩ | ⟨hno, hwritten⟩
      · exact iff_of_true hreply ⟨hfamily, hrequest⟩
      · exact iff_of_false (hsame hwritten) (fun h => hno h.method)

/-- **Which requests are answered**, by the Grok connector and by the Cursor connector,
for every message with a method and an id. -/
theorem requests_answered_iff {host : Host} {s : Grok.ServerInner} {bytes : List UInt8}
    (hreq : IsRequest v id method) (hbytes : host.serde.fromSlice bytes = .ok v)
    (hline : host.serde.fromStr line = some v) (hwrite : s.writeOpen = true)
    (hstdin : p.stdinOpen = true) :
    (Grok.AnswersOnce host s bytes id ↔ Grok.Answerable host s.limits v id method) ∧
      (AnswersOnce host.serde p line id ↔ Answerable v id method) :=
  ⟨Grok.answersOnce_iff hreq hbytes hwrite, answersOnce_iff hreq hline hstdin⟩

end Requests

section Samples

def requestOf (id : Json) (method : String) : Json := .object [("id", id), ("method", .string method)]

theorem requestOf_isRequest (id : Json) (method : String) :
    IsRequest (requestOf id method) id method := by
  refine ⟨_, rfl, ?_, rfl, rfl⟩
  show ["id", "method"].Nodup
  decide

def openProcess : ProcessInner where
  autoAllowPermissions := false
  pending := ∅
  replies := []
  updateOpen := true
  updates := []
  stdinOpen := true
  written := []

def pingText : String := "\x7b\"id\":1,\"method\":\"session/ping\"\x7d"

def pingReplyText : String :=
  "\x7b\"error\":\x7b\"code\":-32601,\"message\":\"method not implemented by " ++
    "monoloop-connector-grok: session/ping\"\x7d,\"id\":1,\"jsonrpc\":\"2.0\"\x7d"

/-- The reader of one request, and the writer of the answer to it. -/
def pingHost : Host :=
  let host := hostOf pingText (requestOf (.number (.posInt 1)) "session/ping") []
  { host with serde := { host.serde with toString := fun _ => pingReplyText } }

/-- A request that both connectors answer. -/
theorem ping_answered :
    Grok.AnswersOnce pingHost Grok.waitingServer (Utf8.bytes pingText.toList) (.number (.posInt 1)) ∧
      AnswersOnce pingHost.serde openProcess pingText (.number (.posInt 1)) := by
  have hbytes : pingHost.serde.fromSlice (Utf8.bytes pingText.toList) =
      .ok (requestOf (.number (.posInt 1)) "session/ping") := by
    simp [pingHost, hostOf]
  have hline : pingHost.serde.fromStr pingText =
      some (requestOf (.number (.posInt 1)) "session/ping") := by
    simp [pingHost, hostOf]
  obtain ⟨hgrok, hcursor⟩ := requests_answered_iff (p := openProcess) (s := Grok.waitingServer)
    (requestOf_isRequest (.number (.posInt 1)) "session/ping") hbytes hline rfl rfl
  refine ⟨hgrok.mpr ?_, hcursor.mpr ?_⟩
  · constructor
    · simp [Grok.RpcId.ofJson, Json.asU64]
    · simp [requestOf, Json.get?, Json.lookup, Grok.optional]
    · simp [requestOf, Json.get?, Json.lookup, Grok.optional]
    · simp
    · intro rpcId hid reply hreply
      show pingReplyText.utf8ByteSize ≤ 4194304
      decide +kernel
  · exact ⟨by decide +kernel, fun _ => ⟨rfl, rfl⟩⟩

def negativeText : String := "\x7b\"id\":-1,\"method\":\"session/ping\"\x7d"

def readText : String := "\x7b\"id\":1,\"method\":\"fs/read_text_file\"\x7d"

/-- **Requests that are consumed without an answer**: a negative id at the Grok
connector, a method of neither family at the Cursor connector. -/
theorem requests_unanswered :
    ¬ Grok.AnswersOnce (hostOf negativeText (requestOf (.number (.negInt (-1))) "session/ping") [])
        Grok.waitingServer (Utf8.bytes negativeText.toList) (.number (.negInt (-1))) ∧
      ¬ AnswersOnce (hostOf readText (requestOf (.number (.posInt 1)) "fs/read_text_file") []).serde
        openProcess readText (.number (.posInt 1)) := by
  constructor
  · intro h
    have hreq := requestOf_isRequest (.number (.negInt (-1))) "session/ping"
    exact ((Grok.answersOnce_iff hreq (by simp [hostOf]) rfl).mp h).id rfl
  · intro h
    have hreq := requestOf_isRequest (.number (.posInt 1)) "fs/read_text_file"
    have hanswerable := (answersOnce_iff hreq (by simp [hostOf]) rfl).mp h
    exact absurd hanswerable.method (by decide +kernel)

end Samples

end Monoloop.Cursor
