import Monoloop.Grok.Inbound

/-!
# When the inbound handler panics

Two places of `handle_inbound` depend on numbers and texts of the peer without a check:
`truncate_safe` cuts an error text at a byte offset, and the line window of
`client_fs_read` adds a limit to an index. `Safe` says what keeps both in bounds.
-/

namespace Monoloop.Grok

open Interpreter (Json)

/-- The byte offset lies between two characters, or at an end, of the text. -/
def CharBoundary (s : String) (n : Nat) : Prop :=
  ∃ p q, s.toList = p ++ q ∧ (Utf8.bytes p).length = n

/-- A window whose end can be computed. -/
def WindowFits (text : List Char) (line limit : Nat) : Prop :=
  min (line - 1) (lines text).length + limit < 2 ^ 64

/-- **What a message must not do.** A response to a waiting call has no long error text
with a character across byte 200, and a read request of a file that can be read has no
limit that runs past the largest index. -/
structure Safe (host : Host) (s : ServerInner) (msg : JsonRpcMessage) : Prop where
  text : msg.method = none → ∀ id ∈ msg.id, ∀ idNum, responseId id = .ok idNum →
    s.pending.lookup idNum ≠ none → ∀ err ∈ msg.error,
      200 < err.message.utf8ByteSize → CharBoundary err.message 200
  window : msg.method = some "fs/read_text_file" → msg.id ≠ none → ∀ data,
    clientFsData host (msg.params.getD .null) = .ok data →
      ∀ limit ∈ limitParam (msg.params.getD .null),
        WindowFits (Utf8.fromUtf8Lossy data) (lineParam (msg.params.getD .null)) limit

/-- The computation ended. -/
def Returns {α : Type} (x : Except Panic α) : Prop := ∃ a, x = .ok a

section Returns

variable {α β : Type} {x : Except Panic α}

@[simp] theorem returns_ok (a : α) : Returns (.ok a : Except Panic α) := ⟨a, rfl⟩

@[simp] theorem not_returns_error (p : Panic) : ¬ Returns (.error p : Except Panic α) := by
  rintro ⟨a, h⟩
  cases h

@[simp] theorem returns_map (f : α → β) : Returns (x.map f) ↔ Returns x := by
  cases x with
  | ok a => simp [Except.map]
  | error p => simp [Except.map]

end Returns

theorem charBoundary_iff (s : String) (n : Nat) :
    CharBoundary s n ↔ Utf8.splitAt s.toList n ≠ none := by
  constructor
  · rintro ⟨p, q, h⟩
    rw [Utf8.splitAt_eq_some.mpr h]
    simp
  · intro h
    obtain ⟨⟨p, q⟩, hsplit⟩ := Option.ne_none_iff_exists'.mp h
    exact ⟨p, q, Utf8.splitAt_eq_some.mp hsplit⟩

theorem truncateSafe_returns_iff (s : String) (max : Nat) :
    Returns (truncateSafe s max) ↔ (max < s.utf8ByteSize → CharBoundary s max) := by
  unfold truncateSafe
  by_cases hle : s.utf8ByteSize ≤ max
  · simp only [hle, if_true, returns_ok, true_iff]
    omega
  · rw [if_neg hle, charBoundary_iff]
    cases hsplit : Utf8.splitAt s.toList max with
    | none => simp [Nat.lt_of_not_le hle]
    | some parts => simp

theorem usizeAdd_of_fits {checks : Bool} {a b : Nat} (h : a + b < 2 ^ 64) :
    usizeAdd checks a b = .ok (a + b) := if_pos h

theorem usizeAdd_checked {a b : Nat} (h : ¬ a + b < 2 ^ 64) :
    usizeAdd true a b = .error .addOverflow := by
  unfold usizeAdd
  rw [if_neg h]
  rfl

theorem usizeAdd_wrapped {a b : Nat} (h : ¬ a + b < 2 ^ 64) :
    usizeAdd false a b = .ok ((a + b) % 2 ^ 64) := by
  unfold usizeAdd
  rw [if_neg h]
  rfl

/-- Without the checks a sum that wraps is smaller than its summands, so the slice would
end before it starts. -/
theorem slice_of_wrapped {α : Type} (xs : List α) {start limit : Nat} (hstart : start < 2 ^ 64)
    (hlimit : limit < 2 ^ 64) (hover : ¬ start + limit < 2 ^ 64) :
    slice xs start (min ((start + limit) % 2 ^ 64) xs.length) = .error .sliceRange := by
  have hwrap : (start + limit) % 2 ^ 64 < start := by omega
  apply if_neg
  rintro ⟨hle, -⟩
  omega

theorem slice_of_le {α : Type} {xs : List α} {start stop : Nat} (h : start ≤ stop)
    (hstop : stop ≤ xs.length) : slice xs start stop = .ok ((xs.take stop).drop start) :=
  if_pos ⟨h, hstop⟩

/-- **The line window, for both build profiles.** -/
theorem lineWindow_returns_iff (checks : Bool) (text : List Char) {line : Nat}
    {limit : Option Nat} (hline : line < 2 ^ 64) (hlimit : ∀ n ∈ limit, n < 2 ^ 64) :
    Returns (lineWindow checks text line limit) ↔ ∀ n ∈ limit, WindowFits text line n := by
  have hle : min (line - 1) (lines text).length ≤ (lines text).length := Nat.min_le_right _ _
  cases limit with
  | none =>
      unfold lineWindow
      by_cases hl : 1 < line
      · simp [hl, Except.bind, slice_of_le]
      · simp [hl]
  | some n =>
      have hn := hlimit n rfl
      simp only [lineWindow, Option.isSome_some, or_true, if_true, Option.mem_def,
        Option.some.injEq, forall_eq']
      by_cases hfits : WindowFits text line n
      · have hsum : min (line - 1) (lines text).length + n < 2 ^ 64 := hfits
        rw [usizeAdd_of_fits hsum]
        simp only [Except.map, Except.bind]
        rw [slice_of_le (by omega) (Nat.min_le_right _ _)]
        simp [hfits]
      · have hsum : ¬ min (line - 1) (lines text).length + n < 2 ^ 64 := hfits
        cases checks with
        | true =>
            rw [usizeAdd_checked hsum]
            simp [Except.map, Except.bind, hfits]
        | false =>
            have hstart : min (line - 1) (lines text).length < 2 ^ 64 := by omega
            rw [usizeAdd_wrapped hsum]
            simp only [Except.map, Except.bind]
            rw [slice_of_wrapped _ hstart hn hsum]
            simp [hfits]

theorem asU64_lt {v : Json} {n : Nat} (h : v.asU64 = some n) : n < 2 ^ 64 := by
  cases v with
  | number m =>
      cases m with
      | posInt m =>
          by_cases hm : m < 2 ^ 64
          · simp only [Json.asU64, if_pos hm] at h
            cases h
            exact hm
          · simp only [Json.asU64, if_neg hm] at h
            cases h
      | negInt i | float text => cases h
  | null | bool b | string s | array items | object fields => cases h

theorem lineParam_lt (params : Json) : lineParam params < 2 ^ 64 := by
  unfold lineParam
  cases h : (params.get? "line").bind Json.asU64 with
  | none => decide
  | some n =>
      obtain ⟨v, -, hv⟩ := Option.bind_eq_some_iff.mp h
      exact asU64_lt hv

theorem limitParam_lt (params : Json) : ∀ n ∈ limitParam params, n < 2 ^ 64 := by
  intro n hn
  obtain ⟨v, -, hv⟩ := Option.bind_eq_some_iff.mp hn
  exact asU64_lt hv

theorem clientFsRead_returns_iff (host : Host) (params : Json) :
    Returns (clientFsRead host params) ↔ ∀ data, clientFsData host params = .ok data →
      ∀ limit ∈ limitParam params,
        WindowFits (Utf8.fromUtf8Lossy data) (lineParam params) limit := by
  unfold clientFsRead
  cases hdata : clientFsData host params with
  | error e => simp
  | ok data =>
      simp only [returns_map, Except.ok.injEq, forall_eq']
      exact lineWindow_returns_iff _ _ (lineParam_lt params) (limitParam_lt params)

theorem clientReply_returns_iff (host : Host) (id : RpcId) (method : String) (params : Json) :
    Returns (clientReply host id method params) ↔
      (method = "fs/read_text_file" → Returns (clientFsRead host params)) := by
  unfold clientReply
  by_cases hread : method = "fs/read_text_file"
  · simp [hread]
  · rw [if_neg hread]
    simp only [hread, false_implies, iff_true]
    by_cases hwrite : method = "fs/write_text_file"
    · rw [if_pos hwrite]
      cases clientFsWrite host params <;> simp
    · rw [if_neg hwrite]
      simp

theorem replyOf_returns_iff (msg : JsonRpcMessage) :
    Returns (replyOf msg) ↔ ∀ err ∈ msg.error,
      200 < err.message.utf8ByteSize → CharBoundary err.message 200 := by
  unfold replyOf
  cases msg.error with
  | none => simp
  | some err => simp [truncateSafe_returns_iff]

theorem handleResponse_returns_iff (s : ServerInner) (msg : JsonRpcMessage) :
    Returns (handleResponse s msg) ↔ ∀ id ∈ msg.id, ∀ idNum, responseId id = .ok idNum →
      s.pending.lookup idNum ≠ none → Returns (replyOf msg) := by
  unfold handleResponse
  cases msg.id with
  | none => simp
  | some id =>
      cases hid : responseId id with
      | error e => simp [hid]
      | ok idNum => cases hwaiter : s.pending.lookup idNum <;> simp [hid, hwaiter]

/-- **The handler returns exactly when the message is safe.** -/
theorem handleInbound_returns_iff (host : Host) (s : ServerInner) (bytes : List UInt8) :
    (∃ result, handleInbound host s bytes = .ok result) ↔
      ∀ msg, JsonRpcMessage.parse host.serde host.mismatch bytes = .ok msg → Safe host s msg := by
  show Returns _ ↔ _
  unfold handleInbound
  cases hparse : JsonRpcMessage.parse host.serde host.mismatch bytes with
  | error e => simp
  | ok msg =>
      simp only [Except.ok.injEq, forall_eq']
      cases hmethod : msg.method with
      | none =>
          -- without a method only a response is looked into
          have hsafe : Safe host s msg ↔ Returns (handleResponse s msg) := by
            rw [handleResponse_returns_iff]
            constructor
            · intro hs id hid idNum hnum hwaiter
              exact (replyOf_returns_iff msg).mpr (hs.text hmethod id hid idNum hnum hwaiter)
            · intro h
              refine ⟨fun _ id hid idNum hnum hwaiter =>
                (replyOf_returns_iff msg).mp (h id hid idNum hnum hwaiter), ?_⟩
              intro hread
              cases hmethod.symm.trans hread
          rw [hsafe]
          simp only [JsonRpcMessage.isResponse, JsonRpcMessage.isNotificationOrRequest, hmethod,
            Option.isNone_none, Bool.and_true, Option.isSome_none, Bool.false_eq_true, if_false]
          cases hid : msg.id with
          | none => simp [handleResponse, hid]
          | some id => simp
      | some method =>
          have hsafe : Safe host s msg ↔ (msg.id ≠ none → method = "fs/read_text_file" →
              Returns (clientFsRead host (msg.params.getD .null))) := by
            constructor
            · intro hs hid hread
              exact (clientFsRead_returns_iff host _).mpr (hs.window (hread ▸ hmethod) hid)
            · intro h
              refine ⟨?_, ?_⟩
              · intro hnone
                cases hmethod.symm.trans hnone
              · intro hread hid
                exact (clientFsRead_returns_iff host _).mp
                  (h hid (Option.some.inj (hmethod.symm.trans hread)))
          rw [hsafe]
          simp only [JsonRpcMessage.isResponse, JsonRpcMessage.isNotificationOrRequest, hmethod,
            Option.isNone_some, Bool.and_false, Option.isSome_some, Bool.and_true, if_true,
            Bool.false_eq_true, if_false]
          cases hid : msg.id with
          | none => simp
          | some id =>
              simp [answerClientRequest, hid, hmethod, clientReply_returns_iff]

section Samples

/-- A host that reads one text as JSON and every file with the same content. -/
def hostOf (text : String) (value : Json) (data : List UInt8) : Host where
  serde :=
    { fromSlice := fun slice =>
        if slice = Utf8.bytes text.toList then .ok value else .error "expected value"
      fromStr := fun s => if s = text then some value else none
      toString := fun _ => "null" }
  mismatch _ := "invalid type"
  fs := ⟨fun _ => .ok data, fun _ => .ok (), fun _ _ => .ok ()⟩
  overflowChecks := true

theorem parse_hostOf (text : String) (value : Json) (data : List UInt8) {msg : JsonRpcMessage}
    (h : JsonRpcMessage.ofJson value = some msg) :
    JsonRpcMessage.parse (hostOf text value data).serde (hostOf text value data).mismatch
      (Utf8.bytes text.toList) = .ok msg := by
  simp [JsonRpcMessage.parse, hostOf, h]

/-- One call waits for the response 1. -/
def waitingServer : ServerInner where
  limits := ⟨4194304, 256, 128⟩
  pending := AList.insert 1 0 ∅
  sessions := ∅
  attachments := []
  replies := []
  writeOpen := true
  written := []

/-- 67 characters of three bytes each. -/
def euroText : String := String.ofList (List.replicate 67 '€')

def errorResponse : Json :=
  .object [("id", .number (.posInt 1)),
    ("error", .object [("code", .number (.posInt 0)), ("message", .string euroText)])]

def errorResponseText : String :=
  "\x7b\"id\":1,\"error\":\x7b\"code\":0,\"message\":\"" ++ euroText ++ "\"\x7d\x7d"

/-- The second line on, and as many lines as a `u64` can say. -/
def readParams : Json :=
  .object [("path", .string "/f"), ("line", .number (.posInt 2)),
    ("limit", .number (.posInt 18446744073709551615))]

def readRequest : Json :=
  .object [("id", .number (.posInt 1)), ("method", .string "fs/read_text_file"),
    ("params", readParams)]

def readRequestText : String :=
  "\x7b\"id\":1,\"method\":\"fs/read_text_file\",\"params\":" ++
    "\x7b\"path\":\"/f\",\"line\":2,\"limit\":18446744073709551615\x7d\x7d"

/-- An error text that cannot be cut, sent to a waiting call. -/
theorem response_panics {host : Host} {s : ServerInner} {bytes : List UInt8} {idNum waiter : Nat}
    {err : JsonRpcErrorObject} {p : Panic}
    (hparse : JsonRpcMessage.parse host.serde host.mismatch bytes =
      .ok ⟨none, some (.number idNum), none, none, none, some err⟩)
    (hwaiter : s.pending.lookup idNum = some waiter)
    (htext : truncateSafe err.message 200 = .error p) :
    handleInbound host s bytes = .error p := by
  unfold handleInbound
  rw [hparse]
  simp only [JsonRpcMessage.isResponse, Option.isSome_some, Option.isNone_none, Bool.and_self,
    if_true, handleResponse, responseId, hwaiter, replyOf, htext, Except.map]

/-- A read request whose window cannot be computed. -/
theorem request_panics {host : Host} {s : ServerInner} {bytes : List UInt8} {id : RpcId}
    {params : Json} {p : Panic}
    (hparse : JsonRpcMessage.parse host.serde host.mismatch bytes =
      .ok ⟨none, some id, some "fs/read_text_file", some params, none, none⟩)
    (hread : clientFsRead host params = .error p) : handleInbound host s bytes = .error p := by
  have hreply : clientReply host id "fs/read_text_file" params = .error p := by
    unfold clientReply
    rw [if_pos rfl, hread]
    rfl
  unfold handleInbound
  rw [hparse]
  simp only [JsonRpcMessage.isResponse, JsonRpcMessage.isNotificationOrRequest,
    Option.isSome_some, Option.isNone_some, Bool.and_false, Bool.and_self, if_true,
    Bool.false_eq_true, if_false, answerClientRequest, Option.getD_some, hreply, Except.map]

/-- **Both panics**: an error text with a character across byte 200, and the largest
limit from the second line of a file on. -/
theorem inbound_panics :
    handleInbound (hostOf errorResponseText errorResponse []) waitingServer
        (Utf8.bytes errorResponseText.toList) = .error .charBoundary ∧
      handleInbound (hostOf readRequestText readRequest [0x61]) waitingServer
        (Utf8.bytes readRequestText.toList) = .error .addOverflow := by
  constructor
  · have hlong : ¬ euroText.utf8ByteSize ≤ 200 := by decide +kernel
    have htext : euroText.toList = List.replicate 67 '€' := String.toList_ofList
    have hcut : Utf8.splitAt (List.replicate 67 '€') 200 = none := by decide +kernel
    refine response_panics (parse_hostOf errorResponseText errorResponse [] rfl) rfl ?_
    simp only [truncateSafe, if_neg hlong, htext, hcut]
  · exact request_panics (parse_hostOf readRequestText readRequest [0x61] rfl) rfl

end Samples

end Monoloop.Grok
