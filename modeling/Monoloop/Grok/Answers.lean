import Monoloop.Grok.Panics

/-!
# Requests of the agent, answered

`answer_client_request` writes one response for a request it gets to see. A request does
not get there when the message does not parse, which includes every id that is neither a
string nor a `u64`, and a response that is too long is an error instead.
-/

namespace Monoloop.Grok

open Connector (ConnectorError)
open Interpreter (Json)

/-- Handling the message writes exactly one message, a response with this id. -/
def AnswersOnce (host : Host) (s : ServerInner) (bytes : List UInt8) (id : Json) : Prop :=
  ∃ s' result, handleInbound host s bytes = .ok (s', result) ∧
    ∃ reply, s'.wire host.serde = s.wire host.serde ++ [reply] ∧ IsResponseTo reply id

/-- The parameters a client method gets. -/
def paramsOf (v : Json) : Json := (v.get? "params").getD .null

/-- **What a request must be like.** Its id and the other known fields have their types,
the window of a read request can be computed, and the answer is not too long. -/
structure Answerable (host : Host) (limits : GrokConnectorLimits) (v requestId : Json)
    (method : String) : Prop where
  id : RpcId.ofJson requestId ≠ none
  jsonrpc : optional Json.asStr (v.get? "jsonrpc") ≠ none
  error : optional JsonRpcErrorObject.ofJson (v.get? "error") ≠ none
  window : method = "fs/read_text_file" → ∀ data, clientFsData host (paramsOf v) = .ok data →
    ∀ limit ∈ limitParam (paramsOf v),
      WindowFits (Utf8.fromUtf8Lossy data) (lineParam (paramsOf v)) limit
  size : ∀ rpcId ∈ RpcId.ofJson requestId, ∀ reply,
    clientReply host rpcId method (paramsOf v) = .ok reply →
      (host.serde.toString reply).utf8ByteSize ≤ limits.maxMessageBytes

section Requests

variable {host : Host} {s : ServerInner} {bytes : List UInt8} {v id : Json} {method : String}

/-- Every client method is answered with the id of its request. -/
theorem clientReply_isResponse {rpcId : RpcId} {params reply : Json}
    (h : clientReply host rpcId method params = .ok reply) : IsResponseTo reply rpcId.toJson := by
  unfold clientReply at h
  split at h
  · cases hread : clientFsRead host params with
    | error p =>
        rw [hread] at h
        cases h
    | ok result =>
        rw [hread] at h
        cases h
        cases result with
        | ok content => exact jsonRpcResult_isResponse _ _
        | error e => exact jsonRpcError_isResponse _ _ _
  · split at h
    · cases hwrite : clientFsWrite host params with
      | ok u =>
          rw [hwrite] at h
          cases h
          exact jsonRpcResult_isResponse _ _
      | error e =>
          rw [hwrite] at h
          cases h
          exact jsonRpcError_isResponse _ _ _
    · cases h
      exact jsonRpcError_isResponse _ _ _

/-- A request parses exactly when its known fields have their types. -/
theorem ofJson_request (hreq : IsRequest v id method) :
    JsonRpcMessage.ofJson v =
      (optional Json.asStr (v.get? "jsonrpc")).bind fun jsonrpc =>
      (optional RpcId.ofJson (some id)).bind fun rpcId =>
      (optional some (v.get? "params")).bind fun params =>
      (optional some (v.get? "result")).bind fun result =>
      (optional JsonRpcErrorObject.ofJson (v.get? "error")).bind fun error =>
        some ⟨jsonrpc, rpcId, some method, params, result, error⟩ := by
  obtain ⟨fields, rfl, hnodup, hid, hmethod⟩ := hreq
  have hcolumn : ∀ n i key, column n i key (.object fields) = some (Json.lookup key fields) :=
    fun n i key => field_eq_lookup hnodup key
  simp only [JsonRpcMessage.ofJson, hcolumn, hid, hmethod, Option.bind_eq_bind, Option.bind_some,
    Json.get?, Option.pure_def]
  rfl

theorem optional_some (o : Option Json) :
    ∃ w, optional some o = some w ∧ w.getD .null = o.getD .null := by
  cases o with
  | none => exact ⟨none, rfl, rfl⟩
  | some v => cases v <;> exact ⟨_, rfl, rfl⟩

/-- A present id is either read or, as null, passed over. -/
theorem optional_id (id : Json) :
    (RpcId.ofJson id = none ∧ ∀ o ∈ optional RpcId.ofJson (some id), o = none) ∨
      ∃ rpcId, RpcId.ofJson id = some rpcId ∧
        optional RpcId.ofJson (some id) = some (some rpcId) := by
  cases h : RpcId.ofJson id with
  | none =>
      refine .inl ⟨rfl, ?_⟩
      intro o ho
      cases id with
      | null =>
          cases ho
          rfl
      | bool b | number n | string s | array items | object fields => simp [optional, h] at ho
  | some rpcId =>
      refine .inr ⟨rpcId, rfl, ?_⟩
      cases id with
      | null => cases h
      | bool b | number n | string s | array items | object fields => simp [optional, h]

/-- What a request is read as. -/
theorem request_message (hreq : IsRequest v id method) {msg : JsonRpcMessage}
    (h : JsonRpcMessage.ofJson v = some msg) :
    optional Json.asStr (v.get? "jsonrpc") ≠ none ∧
      optional JsonRpcErrorObject.ofJson (v.get? "error") ≠ none ∧
      optional RpcId.ofJson (some id) = some msg.id ∧ msg.method = some method ∧
      msg.params.getD .null = paramsOf v := by
  rw [ofJson_request hreq] at h
  obtain ⟨jsonrpc, hjsonrpc, h⟩ := Option.bind_eq_some_iff.mp h
  obtain ⟨rpcId, hid, h⟩ := Option.bind_eq_some_iff.mp h
  obtain ⟨params, hparams, h⟩ := Option.bind_eq_some_iff.mp h
  obtain ⟨result, -, h⟩ := Option.bind_eq_some_iff.mp h
  obtain ⟨error, herror, h⟩ := Option.bind_eq_some_iff.mp h
  obtain ⟨w, hw, hnull⟩ := optional_some (v.get? "params")
  obtain rfl : params = w := Option.some.inj (hparams.symm.trans hw)
  cases h
  exact ⟨by simp [hjsonrpc], by simp [herror], hid, rfl, hnull⟩

theorem request_of_fields (hreq : IsRequest v id method) {rpcId : RpcId}
    (hid : RpcId.ofJson id = some rpcId) (hjsonrpc : optional Json.asStr (v.get? "jsonrpc") ≠ none)
    (herror : optional JsonRpcErrorObject.ofJson (v.get? "error") ≠ none) :
    ∃ msg, JsonRpcMessage.ofJson v = some msg ∧ msg.id = some rpcId := by
  obtain ⟨jsonrpc, hjsonrpc⟩ := Option.ne_none_iff_exists'.mp hjsonrpc
  obtain ⟨error, herror⟩ := Option.ne_none_iff_exists'.mp herror
  obtain ⟨params, hparams, -⟩ := optional_some (v.get? "params")
  obtain ⟨result, hresult, -⟩ := optional_some (v.get? "result")
  have hsome : optional RpcId.ofJson (some id) = some (some rpcId) := by
    rcases optional_id id with ⟨hnone, -⟩ | ⟨rpcId', hid', hsome⟩
    · cases hnone.symm.trans hid
    · obtain rfl : rpcId' = rpcId := Option.some.inj (hid'.symm.trans hid)
      exact hsome
  refine ⟨⟨jsonrpc, some rpcId, some method, params, result, error⟩, ?_, rfl⟩
  rw [ofJson_request hreq]
  simp only [hjsonrpc, hsome, hparams, hresult, herror, Option.bind_some]

theorem handleNotification_wire (s : ServerInner) (msg : JsonRpcMessage) (bytes : List UInt8)
    (serde : Interpreter.SerdeJson) : (handleNotification s msg bytes).1.wire serde = s.wire serde := by
  unfold handleNotification
  split
  · rfl
  · split
    · rfl
    · split <;> rfl

/-- A list is not itself with one more element. -/
theorem not_answersOnce {s' : ServerInner} {result : Except ConnectorError Unit}
    (h : handleInbound host s bytes = .ok (s', result))
    (hwire : s'.wire host.serde = s.wire host.serde) : ¬ AnswersOnce host s bytes id := by
  rintro ⟨s'', result', h', reply, hreply, -⟩
  obtain ⟨rfl, rfl⟩ := Prod.mk.inj (Except.ok.inj (h.symm.trans h'))
  rw [hwire] at hreply
  exact absurd hreply (by simp)

theorem handleInbound_request {msg : JsonRpcMessage} {rpcId : RpcId}
    (hparse : JsonRpcMessage.parse host.serde host.mismatch bytes = .ok msg)
    (hid : msg.id = some rpcId) (hmethod : msg.method = some method) :
    handleInbound host s bytes = answerClientRequest host s msg := by
  unfold handleInbound
  simp [hparse, JsonRpcMessage.isResponse, JsonRpcMessage.isNotificationOrRequest, hid, hmethod]

/-- A request that was read is answered exactly when its answer can be computed and sent. -/
theorem answers_iff_reply {msg : JsonRpcMessage} {rpcId : RpcId} (hopen : s.writeOpen = true)
    (hparse : JsonRpcMessage.parse host.serde host.mismatch bytes = .ok msg)
    (hid : msg.id = some rpcId) (hmethod : msg.method = some method) :
    AnswersOnce host s bytes rpcId.toJson ↔
      ∃ reply, clientReply host rpcId method (msg.params.getD .null) = .ok reply ∧
        (host.serde.toString reply).utf8ByteSize ≤ s.limits.maxMessageBytes := by
  have hhandle : handleInbound host s bytes =
      (clientReply host rpcId method (msg.params.getD .null)).map fun reply =>
        if s.limits.maxMessageBytes < (host.serde.toString reply).utf8ByteSize then
          (s, .error (.resource "client response exceeds max_message_bytes"))
        else ({ s with written := s.written ++ [reply] }, .ok ()) := by
    rw [handleInbound_request hparse hid hmethod]
    simp [answerClientRequest, hid, hmethod, hopen]
  cases hreply : clientReply host rpcId method (msg.params.getD .null) with
  | error p =>
      constructor
      · rintro ⟨s', result, h, -⟩
        rw [hhandle, hreply] at h
        cases h
      · rintro ⟨reply, h, -⟩
        cases h
  | ok reply =>
      rw [hreply] at hhandle
      by_cases hsize : (host.serde.toString reply).utf8ByteSize ≤ s.limits.maxMessageBytes
      · simp only [Except.map, if_neg (Nat.not_lt.mpr hsize)] at hhandle
        refine ⟨fun _ => ⟨reply, rfl, hsize⟩, fun _ => ⟨_, _, hhandle, reply, ?_, ?_⟩⟩
        · simp [ServerInner.wire, hsize]
        · exact clientReply_isResponse hreply
      · simp only [Except.map, if_pos (Nat.lt_of_not_le hsize)] at hhandle
        constructor
        · intro hanswers
          exact absurd hanswers (not_answersOnce hhandle rfl)
        · rintro ⟨reply', h, hsize'⟩
          cases h
          exact absurd hsize' hsize

/-- **The Grok connector answers exactly the answerable requests.** -/
theorem answersOnce_iff (hreq : IsRequest v id method) (hread : host.serde.fromSlice bytes = .ok v)
    (hopen : s.writeOpen = true) :
    AnswersOnce host s bytes id ↔ Answerable host s.limits v id method := by
  have hparse : ∀ msg, JsonRpcMessage.ofJson v = some msg →
      JsonRpcMessage.parse host.serde host.mismatch bytes = .ok msg := by
    intro msg hmsg
    simp [JsonRpcMessage.parse, hread, hmsg]
  constructor
  · intro hanswers
    cases hmsg : JsonRpcMessage.ofJson v with
    | none =>
        have hhandle : handleInbound host s bytes =
            .ok (s, .error (.protocol ("invalid json-rpc frame: " ++ host.mismatch v))) := by
          simp [handleInbound, JsonRpcMessage.parse, hread, hmsg]
        exact absurd hanswers (not_answersOnce hhandle rfl)
    | some msg =>
        obtain ⟨hjsonrpc, herror, hoptional, hmethod, hparams⟩ := request_message hreq hmsg
        rcases optional_id id with ⟨-, hnone⟩ | ⟨rpcId, hid, hsome⟩
        · -- an id that is null makes a notification of the request
          have hno : msg.id = none := hnone _ hoptional
          have hhandle : handleInbound host s bytes = .ok (handleNotification s msg bytes) := by
            simp [handleInbound, hparse msg hmsg, JsonRpcMessage.isResponse,
              JsonRpcMessage.isNotificationOrRequest, hno, hmethod]
          exact absurd hanswers (not_answersOnce hhandle (handleNotification_wire s msg bytes _))
        · have hmsgId : msg.id = some rpcId := Option.some.inj (hoptional.symm.trans hsome)
          obtain rfl := RpcId.toJson_of_ofJson hid
          obtain ⟨reply, hreply, hsize⟩ :=
            (answers_iff_reply hopen (hparse msg hmsg) hmsgId hmethod).mp hanswers
          rw [hparams] at hreply
          refine ⟨by simp [hid], hjsonrpc, herror, ?_, ?_⟩
          · intro hmethodRead
            have hreturns := (clientReply_returns_iff host rpcId method (paramsOf v)).mp ⟨_, hreply⟩
            exact (clientFsRead_returns_iff host _).mp (hreturns hmethodRead)
          · intro rpcId' hid' reply' hreply'
            obtain rfl : rpcId = rpcId' := Option.some.inj (hid.symm.trans hid')
            obtain rfl : reply = reply' := Except.ok.inj (hreply.symm.trans hreply')
            exact hsize
  · intro h
    obtain ⟨rpcId, hid⟩ := Option.ne_none_iff_exists'.mp h.id
    obtain ⟨msg, hmsg, hmsgId⟩ := request_of_fields hreq hid h.jsonrpc h.error
    obtain ⟨-, -, -, hmethod, hparams⟩ := request_message hreq hmsg
    obtain rfl := RpcId.toJson_of_ofJson hid
    obtain ⟨reply, hreply⟩ := (clientReply_returns_iff host rpcId method (paramsOf v)).mpr
      (fun hmethodRead => (clientFsRead_returns_iff host _).mpr (h.window hmethodRead))
    apply (answers_iff_reply hopen (hparse msg hmsg) hmsgId hmethod).mpr
    exact ⟨reply, hparams ▸ hreply, h.size rpcId hid reply hreply⟩

end Requests

end Monoloop.Grok
