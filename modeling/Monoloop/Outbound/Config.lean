import Monoloop.Lib.OrderedMap
import Monoloop.Contracts.InputRules
import Monoloop.Coordinator.Continuation
import Mathlib.Data.String.Basic

/-!
# The effective configuration

`config.rs`: what a transaction is sent with. Channel defaults lie at the bottom, the
session's extensions over them, the invocation on top; each layer is checked against the
channel's policy, and the extensions once more after they are put together.

Temperatures stay abstract: `F32` is `f32`, and `Temperature` is what is used of it.
-/

namespace Monoloop.Outbound

open Interpreter (Json)
open Coordinator (ContinuationPolicy)

/-! ## Equal values -/

mutual

/-- `==` of values. -/
def same : Json → Json → Bool
  | .null, .null => true
  | .bool a, .bool b => a == b
  | .number m, .number n => decide (m = n)
  | .string s, .string t => decide (s = t)
  | .array xs, .array ys => sameItems xs ys
  | .object xs, .object ys => sameFields xs ys
  | _, _ => false

def sameItems : List Json → List Json → Bool
  | [], [] => true
  | x :: xs, y :: ys => same x y && sameItems xs ys
  | _, _ => false

def sameFields : List (String × Json) → List (String × Json) → Bool
  | [], [] => true
  | (k, x) :: xs, (l, y) :: ys => decide (k = l) && same x y && sameFields xs ys
  | _, _ => false

end

mutual

theorem same_iff {x y : Json} : same x y = true ↔ x = y := by
  cases x with
  | null => cases y <;> simp [same]
  | bool a => cases y <;> simp [same]
  | number m => cases y <;> simp [same]
  | string s => cases y <;> simp [same]
  | array xs =>
      cases y with
      | array ys => simp only [same, Json.array.injEq, sameItems_iff]
      | _ => simp [same]
  | object xs =>
      cases y with
      | object ys => simp only [same, Json.object.injEq, sameFields_iff]
      | _ => simp [same]

theorem sameItems_iff {xs ys : List Json} : sameItems xs ys = true ↔ xs = ys := by
  cases xs with
  | nil => cases ys <;> simp [sameItems]
  | cons x xs =>
      cases ys with
      | nil => simp [sameItems]
      | cons y ys => simp only [sameItems, Bool.and_eq_true, same_iff, sameItems_iff, List.cons.injEq]

theorem sameFields_iff {xs ys : List (String × Json)} : sameFields xs ys = true ↔ xs = ys := by
  cases xs with
  | nil => cases ys <;> simp [sameFields]
  | cons x xs =>
      obtain ⟨k, v⟩ := x
      cases ys with
      | nil => simp [sameFields]
      | cons y ys =>
          obtain ⟨l, w⟩ := y
          simp only [sameFields, Bool.and_eq_true, decide_eq_true_eq, same_iff, sameFields_iff,
            List.cons.injEq, Prod.mk.injEq]

end

/-! ## Options -/

inductive ReasoningEffort where
  | low
  | medium
  | high
deriving DecidableEq, Repr

inductive ResponseFormat where
  | text
  | jsonObject
deriving DecidableEq, Repr

/-- A namespaced key, such as `openai.seed`. -/
abbrev ExtensionKey := String

structure VersionedExtension where
  version : Nat
  value : Json

def VersionedExtension.same (a b : VersionedExtension) : Bool :=
  decide (a.version = b.version) && Outbound.same a.value b.value

/-- A `BTreeMap`. -/
abbrev Extensions := OrderedMap ExtensionKey VersionedExtension

/-- `f32`: the range check of `apply_invocation` and the number in a body. -/
structure Temperature (F32 : Type) where
  /-- `(0.0..=2.0).contains`. -/
  inRange : F32 → Bool
  /-- `json!(t)`. -/
  json : F32 → Json

variable {F32 : Type}

structure InvocationConfig (F32 : Type) where
  model : Option String := none
  temperature : Option F32 := none
  reasoningEffort : Option ReasoningEffort := none
  maxOutputTokens : Option Nat := none
  stop : List String := []
  responseFormat : Option ResponseFormat := none
  continuationPolicy : ContinuationPolicy := .callerControlled
  deadline : Option Nat := none
  extensions : Extensions := ∅

structure SessionConfig where
  specialistProfile : Option String := none
  mode : Option String := none
  permissionProfile : Option String := none
  extensions : Extensions := ∅
  /-- Read by the connector alone. -/
  connectorRef : Option String := none

structure ChannelDefaults (F32 : Type) where
  model : Option String := none
  temperature : Option F32 := none
  reasoningEffort : Option ReasoningEffort := none
  maxOutputTokens : Option Nat := none
  stop : List String := []
  responseFormat : Option ResponseFormat := none
  continuationPolicy : ContinuationPolicy := .callerControlled
  extensions : Extensions := ∅

inductive ConfigOption where
  | model
  | temperature
  | reasoningEffort
  | maxOutputTokens
  | stop
  | responseFormat
  | continuationPolicy
  | deadline
  | extensions
deriving DecidableEq, Repr

structure OptionPolicy where
  supportedInvocation : List ConfigOption
  allowedExtensionKeys : List ExtensionKey

@[ext]
structure EffectiveConfig (F32 : Type) where
  model : Option String
  temperature : Option F32
  reasoningEffort : Option ReasoningEffort
  maxOutputTokens : Option Nat
  stop : List String
  responseFormat : Option ResponseFormat
  continuationPolicy : ContinuationPolicy
  deadline : Option Nat
  extensions : Extensions
  session : SessionConfig

structure ExtensionLimits where
  maxKeys : Nat
  maxKeyBytes : Nat
  maxValueDepth : Nat
  maxSerializedBytes : Nat

def ExtensionLimits.default : ExtensionLimits where
  maxKeys := 32
  maxKeyBytes := 64
  maxValueDepth := 8
  maxSerializedBytes := 16 * 1024

inductive ConfigError where
  | extensionKeyTooLong (bytes max : Nat)
  | tooManyExtensions (count max : Nat)
  | extensionTooDeep (depth max : Nat)
  | extensionsTooLarge (bytes max : Nat)
  | unknownExtension (key : String)
  | extensionEncodeFailed
  | unsupportedOption (option : ConfigOption)
  | invalidNumeric (field : String)
  | invalidModel
  | invalidStop
  | invalidSessionLabel
  | immutableSessionMismatch (field : String)
deriving DecidableEq, Repr

/-! ## The checks -/

section Checks

variable (serde : SerdeJson Json) (limits : ExtensionLimits) (policy : OptionPolicy)

/-- The entries one after the other; the total grows by what each takes. -/
def validateEntries : List (ExtensionKey × VersionedExtension) → Nat → Except ConfigError Nat
  | [], total => .ok total
  | (k, v) :: rest, total =>
      if limits.maxKeyBytes < k.utf8ByteSize then
        .error (.extensionKeyTooLong k.utf8ByteSize limits.maxKeyBytes)
      else if k ∉ policy.allowedExtensionKeys then .error (.unknownExtension k)
      else if limits.maxValueDepth < jsonDepth v.value then
        .error (.extensionTooDeep (jsonDepth v.value) limits.maxValueDepth)
      else
        match serde.render v.value with
        | none => .error .extensionEncodeFailed
        | some encoded =>
            validateEntries rest (satAdd (satAdd total encoded.utf8ByteSize) k.utf8ByteSize)

def validateExtensions (map : Extensions) : Except ConfigError Unit := do
  if limits.maxKeys < map.size then throw (.tooManyExtensions map.size limits.maxKeys)
  if !map.isEmpty && policy.allowedExtensionKeys.isEmpty then
    throw (.unknownExtension (map.keys.head?.getD ""))
  let total ← validateEntries serde limits policy map.entries 0
  if limits.maxSerializedBytes < total then
    throw (.extensionsTooLarge total limits.maxSerializedBytes)

/-- Empty, too long or with a control character. -/
def badString (maxBytes : Nat) (s : String) : Bool :=
  s.isEmpty || maxBytes < s.utf8ByteSize || s.toList.any isControl

def validateSessionLabels (session : SessionConfig) : Except ConfigError Unit :=
  if ([session.specialistProfile, session.mode, session.permissionProfile].filterMap id).any
      (badString 128) then
    .error .invalidSessionLabel
  else .ok ()

def validateInvocationStrings (invocation : InvocationConfig F32) : Except ConfigError Unit :=
  if invocation.model.any (badString 256) then .error .invalidModel
  else if invocation.stop.any (badString 64) then .error .invalidStop
  else .ok ()

def requireSupported (option : ConfigOption) : Except ConfigError Unit :=
  if option ∈ policy.supportedInvocation then .ok () else .error (.unsupportedOption option)

/-- A key that both sides have, with different values. -/
def extensionMismatch (requested attached : Extensions) : Bool :=
  requested.entries.any fun e => (attached.lookup e.1).any fun existing => !existing.same e.2

def checkSessionMatch (requested attached : SessionConfig) :
    Except ConfigError Unit :=
  if requested.specialistProfile ≠ attached.specialistProfile ∧
      (requested.specialistProfile.isSome ∨ attached.specialistProfile.isSome) then
    .error (.immutableSessionMismatch "specialist_profile")
  else if requested.mode ≠ attached.mode ∧ (requested.mode.isSome ∨ attached.mode.isSome) then
    .error (.immutableSessionMismatch "mode")
  else if requested.permissionProfile ≠ attached.permissionProfile ∧
      (requested.permissionProfile.isSome ∨ attached.permissionProfile.isSome) then
    .error (.immutableSessionMismatch "permission_profile")
  else if extensionMismatch requested.extensions attached.extensions then
    .error (.immutableSessionMismatch "extension")
  else .ok ()

/-! ## Putting the layers together -/

/-- A set option replaces the layer below, when the channel supports it. -/
def applyOption {α : Type} (option : ConfigOption) (set : Option α) (below : Option α) :
    Except ConfigError (Option α) :=
  match set with
  | none => .ok below
  | some a => do
      requireSupported policy option
      return some a

/-- What is set by being non-empty. -/
def requireIf (set : Bool) (option : ConfigOption) : Except ConfigError Unit :=
  if set then requireSupported policy option else .ok ()

variable (temperature : Temperature F32)

def checkTemperature (invocation : InvocationConfig F32) : Except ConfigError Unit :=
  if invocation.temperature.any fun t => !temperature.inRange t then
    .error (.invalidNumeric "temperature")
  else .ok ()

def applyInvocation (effective : EffectiveConfig F32) (invocation : InvocationConfig F32) :
    Except ConfigError (EffectiveConfig F32) := do
  let model ← applyOption policy .model invocation.model effective.model
  let temp ← applyOption policy .temperature invocation.temperature effective.temperature
  checkTemperature temperature invocation
  let effort ← applyOption policy .reasoningEffort invocation.reasoningEffort
    effective.reasoningEffort
  let tokens ← applyOption policy .maxOutputTokens invocation.maxOutputTokens
    effective.maxOutputTokens
  requireIf policy (!invocation.stop.isEmpty) .stop
  let format ← applyOption policy .responseFormat invocation.responseFormat
    effective.responseFormat
  -- an invocation always has a continuation policy
  requireSupported policy .continuationPolicy
  let deadline ← applyOption policy .deadline invocation.deadline effective.deadline
  requireIf policy (!invocation.extensions.isEmpty) .extensions
  return { effective with
    model := model
    temperature := temp
    reasoningEffort := effort
    maxOutputTokens := tokens
    stop := if invocation.stop.isEmpty then effective.stop else invocation.stop
    responseFormat := format
    continuationPolicy := invocation.continuationPolicy
    deadline := deadline
    extensions := effective.extensions.extend invocation.extensions.entries }

/-- The checks of a session's configuration. -/
def validateSession (session : SessionConfig) : Except ConfigError Unit := do
  validateSessionLabels session
  validateExtensions serde limits policy session.extensions

/-- Defaults and session, before the invocation. -/
def baseConfig (defaults : ChannelDefaults F32) (session : Option SessionConfig) :
    EffectiveConfig F32 where
  model := defaults.model
  temperature := defaults.temperature
  reasoningEffort := defaults.reasoningEffort
  maxOutputTokens := defaults.maxOutputTokens
  stop := defaults.stop
  responseFormat := defaults.responseFormat
  continuationPolicy := defaults.continuationPolicy
  deadline := none
  extensions := defaults.extensions.extend ((session.map (·.extensions.entries)).getD [])
  session := session.getD {}

/-- A requested session must match the attached one, when there are both. -/
def checkSessions : Option SessionConfig → Option SessionConfig → Except ConfigError Unit
  | some requested, some attached => checkSessionMatch requested attached
  | _, _ => .ok ()

def mergeEffectiveConfig (defaults : ChannelDefaults F32)
    (session attachedSession : Option SessionConfig) (invocation : InvocationConfig F32) :
    Except ConfigError (EffectiveConfig F32) := do
  validateExtensions serde limits policy defaults.extensions
  session.forM (validateSession serde limits policy)
  attachedSession.forM (validateSession serde limits policy)
  validateExtensions serde limits policy invocation.extensions
  validateInvocationStrings invocation
  checkSessions session attachedSession
  let effective ← applyInvocation policy temperature (baseConfig defaults session) invocation
  -- checked again after the merge
  validateExtensions serde limits policy effective.extensions
  return effective

end Checks

/-! ## What is accepted -/

/-- The bytes an extension counts for. -/
def extensionBytes (serde : SerdeJson Json) (e : ExtensionKey × VersionedExtension) : Nat :=
  ((serde.render e.2.value).map (·.utf8ByteSize)).getD 0 + e.1.utf8ByteSize

/-- Extensions that a channel permits, within the limits. -/
structure ExtensionsValid (serde : SerdeJson Json) (limits : ExtensionLimits)
    (policy : OptionPolicy) (map : Extensions) : Prop where
  count : map.size ≤ limits.maxKeys
  short : ∀ e ∈ map.entries, e.1.utf8ByteSize ≤ limits.maxKeyBytes
  allowed : ∀ e ∈ map.entries, e.1 ∈ policy.allowedExtensionKeys
  shallow : ∀ e ∈ map.entries, jsonDepth e.2.value ≤ limits.maxValueDepth
  written : ∀ e ∈ map.entries, ∃ text, serde.render e.2.value = some text
  bytes : min (map.entries.map (extensionBytes serde)).sum usizeMax ≤ limits.maxSerializedBytes

/-- Session labels that may be shown. -/
def LabelsValid (session : SessionConfig) : Prop :=
  ∀ label, some label ∈ [session.specialistProfile, session.mode, session.permissionProfile] →
    Shaped 128 label

/-- Two sessions that agree where both say something. -/
structure SessionsMatch (requested attached : SessionConfig) : Prop where
  specialist : requested.specialistProfile = attached.specialistProfile
  mode : requested.mode = attached.mode
  permission : requested.permissionProfile = attached.permissionProfile
  extensions : ∀ k e e', requested.extensions.lookup k = some e →
    attached.extensions.lookup k = some e' → e' = e

/-- The options an invocation sets; it always has a continuation policy. -/
def InvocationConfig.sets (invocation : InvocationConfig F32) : ConfigOption → Bool
  | .model => invocation.model.isSome
  | .temperature => invocation.temperature.isSome
  | .reasoningEffort => invocation.reasoningEffort.isSome
  | .maxOutputTokens => invocation.maxOutputTokens.isSome
  | .stop => !invocation.stop.isEmpty
  | .responseFormat => invocation.responseFormat.isSome
  | .continuationPolicy => true
  | .deadline => invocation.deadline.isSome
  | .extensions => !invocation.extensions.isEmpty

/-- **The layers of a configuration**: the invocation where it says something, else the
session, else the channel. -/
structure Layered (defaults : ChannelDefaults F32) (session : Option SessionConfig)
    (invocation : InvocationConfig F32) (effective : EffectiveConfig F32) : Prop where
  model : effective.model = invocation.model.or defaults.model
  temperature : effective.temperature = invocation.temperature.or defaults.temperature
  reasoningEffort :
    effective.reasoningEffort = invocation.reasoningEffort.or defaults.reasoningEffort
  maxOutputTokens :
    effective.maxOutputTokens = invocation.maxOutputTokens.or defaults.maxOutputTokens
  stop : effective.stop = if invocation.stop = [] then defaults.stop else invocation.stop
  responseFormat :
    effective.responseFormat = invocation.responseFormat.or defaults.responseFormat
  continuationPolicy : effective.continuationPolicy = invocation.continuationPolicy
  deadline : effective.deadline = invocation.deadline
  extensions : ∀ k, effective.extensions.lookup k =
    (invocation.extensions.lookup k).or
      ((session.bind (·.extensions.lookup k)).or (defaults.extensions.lookup k))
  session : effective.session = session.getD {}

/-- What a channel asks of the layers. -/
structure Admissible (serde : SerdeJson Json) (limits : ExtensionLimits) (policy : OptionPolicy)
    (temperature : Temperature F32) (defaults : ChannelDefaults F32)
    (session attachedSession : Option SessionConfig) (invocation : InvocationConfig F32) :
    Prop where
  below : ExtensionsValid serde limits policy defaults.extensions
  sessions : ∀ s, s ∈ session ∨ s ∈ attachedSession →
    LabelsValid s ∧ ExtensionsValid serde limits policy s.extensions
  matching : ∀ requested ∈ session, ∀ attached ∈ attachedSession, SessionsMatch requested attached
  asked : ExtensionsValid serde limits policy invocation.extensions
  model : ∀ m ∈ invocation.model, Shaped 256 m
  stop : ∀ s ∈ invocation.stop, Shaped 64 s
  ranged : ∀ t ∈ invocation.temperature, temperature.inRange t = true
  supported : ∀ option, invocation.sets option = true → option ∈ policy.supportedInvocation

/-! ## The checks, one by one -/

section Accepted

variable {serde : SerdeJson Json} {limits : ExtensionLimits} {policy : OptionPolicy}
  {temperature : Temperature F32}

theorem validateEntries_ok {entries : List (ExtensionKey × VersionedExtension)} {total total' : Nat}
    (htotal : total ≤ usizeMax) :
    validateEntries serde limits policy entries total = .ok total' ↔
      (∀ e ∈ entries, e.1.utf8ByteSize ≤ limits.maxKeyBytes ∧ e.1 ∈ policy.allowedExtensionKeys ∧
        jsonDepth e.2.value ≤ limits.maxValueDepth ∧ ∃ text, serde.render e.2.value = some text) ∧
      total' = min (total + (entries.map (extensionBytes serde)).sum) usizeMax := by
  induction entries generalizing total with
  | nil =>
      simp only [validateEntries, List.not_mem_nil, false_imp_iff, implies_true, true_and,
        List.map_nil, List.sum_nil, Nat.add_zero, Nat.min_eq_left htotal, Except.ok.injEq]
      exact eq_comm
  | cons e rest ih =>
      obtain ⟨k, v⟩ := e
      rw [validateEntries, List.forall_mem_cons, List.map_cons, List.sum_cons]
      by_cases hlong : limits.maxKeyBytes < k.utf8ByteSize
      · rw [if_pos hlong]
        simp only [reduceCtorEq, false_iff, not_and]
        intro h
        exact absurd h.1.1 (Nat.not_le.mpr hlong)
      by_cases hallowed : k ∉ policy.allowedExtensionKeys
      · rw [if_neg hlong, if_pos hallowed]
        simp only [reduceCtorEq, false_iff, not_and]
        intro h
        exact absurd h.1.2.1 hallowed
      by_cases hdeep : limits.maxValueDepth < jsonDepth v.value
      · rw [if_neg hlong, if_neg hallowed, if_pos hdeep]
        simp only [reduceCtorEq, false_iff, not_and]
        intro h
        exact absurd h.1.2.2.1 (Nat.not_le.mpr hdeep)
      rw [if_neg hlong, if_neg hallowed, if_neg hdeep]
      cases hrender : serde.render v.value with
      | none =>
          simp only [reduceCtorEq, false_iff, not_and]
          rintro ⟨⟨-, -, -, text, htext⟩, -⟩
          cases htext
      | some text =>
          have hstep : satAdd (satAdd total text.utf8ByteSize) k.utf8ByteSize ≤ usizeMax :=
            min_le_right _ _
          have hbytes : extensionBytes serde (k, v) = text.utf8ByteSize + k.utf8ByteSize := by
            simp only [extensionBytes, hrender, Option.map_some, Option.getD_some]
          simp only [ih hstep, hbytes]
          have htotals : min (satAdd (satAdd total text.utf8ByteSize) k.utf8ByteSize +
              (rest.map (extensionBytes serde)).sum) usizeMax =
              min (total + (text.utf8ByteSize + k.utf8ByteSize +
                (rest.map (extensionBytes serde)).sum)) usizeMax := by
            unfold satAdd
            omega
          rw [htotals]
          constructor
          · rintro ⟨hrest, rfl⟩
            exact ⟨⟨⟨Nat.not_lt.mp hlong, not_not.mp hallowed, Nat.not_lt.mp hdeep, text, rfl⟩,
              hrest⟩, rfl⟩
          · rintro ⟨⟨-, hrest⟩, rfl⟩
            exact ⟨hrest, rfl⟩

/-- **Extensions are accepted exactly when they are valid.** -/
theorem validateExtensions_ok {map : Extensions} :
    validateExtensions serde limits policy map = .ok () ↔ ExtensionsValid serde limits policy map := by
  unfold validateExtensions
  by_cases hcount : limits.maxKeys < map.size
  · simp only [if_pos hcount]
    refine iff_of_false (fun h => by cases h) fun h => absurd h.count (Nat.not_le.mpr hcount)
  simp only [if_neg hcount]
  by_cases hnone : (!map.isEmpty && policy.allowedExtensionKeys.isEmpty) = true
  · simp only [if_pos hnone]
    refine iff_of_false (fun h => by cases h) fun h => ?_
    rw [Bool.and_eq_true, Bool.not_eq_true', List.isEmpty_iff] at hnone
    obtain ⟨e, he⟩ := List.exists_mem_of_ne_nil map.entries (fun hnil => by
      rw [OrderedMap.isEmpty, hnil] at hnone
      cases hnone.1)
    have hmem := h.allowed e he
    rw [hnone.2] at hmem
    cases hmem
  simp only [if_neg hnone]
  constructor
  · intro h
    obtain ⟨total, htotal, h⟩ := Except.bind_eq_ok.mp h
    obtain ⟨hentries, rfl⟩ := (validateEntries_ok (Nat.zero_le _)).mp htotal
    split at h
    · cases h
    · rename_i hbytes
      rw [Nat.zero_add] at hbytes
      exact ⟨Nat.not_lt.mp hcount, fun e he => (hentries e he).1, fun e he => (hentries e he).2.1,
        fun e he => (hentries e he).2.2.1, fun e he => (hentries e he).2.2.2, Nat.not_lt.mp hbytes⟩
  · intro h
    have hentries := (validateEntries_ok (Nat.zero_le usizeMax)).mpr
      (And.intro (fun e he => ⟨h.short e he, h.allowed e he, h.shallow e he, h.written e he⟩) rfl)
    refine Except.bind_eq_ok.mpr ⟨_, hentries, ?_⟩
    rw [Nat.zero_add, if_neg (Nat.not_lt.mpr h.bytes)]
    rfl

theorem badString_eq_false {maxBytes : Nat} {s : String} :
    badString maxBytes s = false ↔ Shaped maxBytes s := by
  unfold badString Shaped
  simp only [Bool.or_eq_false_iff, decide_eq_false_iff_not, Nat.not_lt, List.any_eq_false,
    Bool.not_eq_true, and_assoc]
  rw [← Bool.not_eq_true, String.isEmpty_iff]

theorem validateSessionLabels_ok {session : SessionConfig} :
    validateSessionLabels session = .ok () ↔ LabelsValid session := by
  unfold validateSessionLabels LabelsValid
  split
  · rename_i hbad
    refine iff_of_false (fun h => by cases h) fun h => ?_
    obtain ⟨label, hlabel, hbad⟩ := List.any_eq_true.mp hbad
    obtain ⟨some', hmem, rfl⟩ := List.mem_filterMap.mp hlabel
    rw [badString_eq_false.mpr (h label hmem)] at hbad
    cases hbad
  · rename_i hgood
    refine iff_of_true rfl fun label hlabel => ?_
    rw [← badString_eq_false, ← Bool.not_eq_true]
    intro hbad
    exact hgood (List.any_eq_true.mpr ⟨label, List.mem_filterMap.mpr ⟨_, hlabel, rfl⟩, hbad⟩)

theorem validateSession_ok {session : SessionConfig} :
    validateSession serde limits policy session = .ok () ↔
      LabelsValid session ∧ ExtensionsValid serde limits policy session.extensions := by
  rw [← validateSessionLabels_ok, ← validateExtensions_ok, validateSession, Except.bind_eq_ok]
  exact ⟨fun ⟨_, hlabels, hextensions⟩ => ⟨hlabels, hextensions⟩,
    fun ⟨hlabels, hextensions⟩ => ⟨(), hlabels, hextensions⟩⟩

theorem validateInvocationStrings_ok {invocation : InvocationConfig F32} :
    validateInvocationStrings invocation = .ok () ↔
      (∀ m ∈ invocation.model, Shaped 256 m) ∧ ∀ s ∈ invocation.stop, Shaped 64 s := by
  have hmodel : invocation.model.any (badString 256) = true ↔
      ¬ ∀ m ∈ invocation.model, Shaped 256 m := by
    cases invocation.model with
    | none => simp
    | some m => simp [← badString_eq_false]
  have hstop : invocation.stop.any (badString 64) = true ↔
      ¬ ∀ s ∈ invocation.stop, Shaped 64 s := by
    simp [← badString_eq_false]
  unfold validateInvocationStrings
  split
  · rename_i hbad
    exact iff_of_false (fun h => by cases h) fun h => hmodel.mp hbad h.1
  · rename_i hgood
    split
    · rename_i hbad
      exact iff_of_false (fun h => by cases h) fun h => hstop.mp hbad h.2
    · rename_i hgood'
      exact iff_of_true rfl ⟨not_not.mp (hmodel.not.mp hgood), not_not.mp (hstop.not.mp hgood')⟩

theorem requireSupported_ok {option : ConfigOption} :
    requireSupported policy option = .ok () ↔ option ∈ policy.supportedInvocation := by
  unfold requireSupported
  split <;> simp [*]

theorem applyOption_ok {α : Type} {option : ConfigOption} {set below result : Option α} :
    applyOption policy option set below = .ok result ↔
      (set.isSome = true → option ∈ policy.supportedInvocation) ∧ result = set.or below := by
  cases set with
  | none =>
      simp only [applyOption, Except.ok.injEq, Option.isSome_none, Bool.false_eq_true,
        false_imp_iff, true_and, Option.none_or]
      exact eq_comm
  | some a =>
      simp only [applyOption, Except.bind_eq_ok, Option.isSome_some, true_imp_iff, Option.some_or]
      constructor
      · rintro ⟨_, hsupported, hresult⟩
        cases hresult
        exact ⟨requireSupported_ok.mp hsupported, rfl⟩
      · rintro ⟨hsupported, rfl⟩
        exact ⟨(), requireSupported_ok.mpr hsupported, rfl⟩

theorem checkSessionMatch_ok {requested attached : SessionConfig} :
    checkSessionMatch requested attached = .ok () ↔ SessionsMatch requested attached := by
  have hlabel : ∀ a b : Option String, (a ≠ b ∧ (a.isSome = true ∨ b.isSome = true)) ↔ a ≠ b := by
    intro a b
    refine ⟨fun h => h.1, fun h => ⟨h, ?_⟩⟩
    cases a with
    | some a => exact .inl rfl
    | none =>
        cases b with
        | some b => exact .inr rfl
        | none => exact absurd rfl h
  have hext : extensionMismatch requested.extensions attached.extensions = true ↔
      ¬ ∀ k e e', requested.extensions.lookup k = some e →
        attached.extensions.lookup k = some e' → e' = e := by
    have hsame : ∀ a b : VersionedExtension, a.same b = true ↔ a = b := by
      intro a b
      cases a
      cases b
      simp [VersionedExtension.same, same_iff]
    unfold extensionMismatch
    constructor
    · intro h hall
      obtain ⟨e, he, h⟩ := List.any_eq_true.mp h
      obtain ⟨existing, hexisting, h⟩ := (Option.any_eq_true ..).mp h
      have heq := hall e.1 e.2 existing (OrderedMap.lookup_eq_some.mpr he) hexisting
      rw [(hsame existing e.2).mpr heq] at h
      cases h
    · intro h
      simp only [not_forall] at h
      obtain ⟨k, e, e', hrequested, hattached, hne⟩ := h
      refine List.any_eq_true.mpr ⟨(k, e), OrderedMap.lookup_eq_some.mp hrequested, ?_⟩
      refine (Option.any_eq_true ..).mpr ⟨e', hattached, ?_⟩
      rw [Bool.not_eq_true', ← Bool.not_eq_true, hsame]
      exact hne
  unfold checkSessionMatch
  simp only [hlabel]
  split
  · rename_i h
    exact iff_of_false (fun h' => by cases h') fun h' => h h'.specialist
  · rename_i hspecialist
    split
    · rename_i h
      exact iff_of_false (fun h' => by cases h') fun h' => h h'.mode
    · rename_i hmode
      split
      · rename_i h
        exact iff_of_false (fun h' => by cases h') fun h' => h h'.permission
      · rename_i hpermission
        split
        · rename_i h
          exact iff_of_false (fun h' => by cases h') fun h' => hext.mp h h'.extensions
        · rename_i h
          exact iff_of_true rfl ⟨not_not.mp hspecialist, not_not.mp hmode, not_not.mp hpermission,
            not_not.mp (hext.not.mp h)⟩

/-- An invocation put over a configuration. -/
def overlaid (effective : EffectiveConfig F32) (invocation : InvocationConfig F32) :
    EffectiveConfig F32 where
  model := invocation.model.or effective.model
  temperature := invocation.temperature.or effective.temperature
  reasoningEffort := invocation.reasoningEffort.or effective.reasoningEffort
  maxOutputTokens := invocation.maxOutputTokens.or effective.maxOutputTokens
  stop := if invocation.stop.isEmpty then effective.stop else invocation.stop
  responseFormat := invocation.responseFormat.or effective.responseFormat
  continuationPolicy := invocation.continuationPolicy
  deadline := invocation.deadline.or effective.deadline
  extensions := effective.extensions.extend invocation.extensions.entries
  session := effective.session

theorem checkTemperature_ok {invocation : InvocationConfig F32} :
    checkTemperature temperature invocation = .ok () ↔
      ∀ t ∈ invocation.temperature, temperature.inRange t = true := by
  unfold checkTemperature
  cases invocation.temperature with
  | none => exact iff_of_true rfl fun _ h => by cases h
  | some t => cases ht : temperature.inRange t <;> simp [ht]

theorem requireIf_ok {set : Bool} {option : ConfigOption} :
    requireIf policy set option = .ok () ↔ (set = true → option ∈ policy.supportedInvocation) := by
  cases set with
  | false => exact iff_of_true rfl fun h => by cases h
  | true =>
      rw [requireIf, if_pos rfl, requireSupported_ok]
      exact ⟨fun hmem _ => hmem, fun himp => himp rfl⟩

theorem checkSessions_ok {session attachedSession : Option SessionConfig} :
    checkSessions session attachedSession = .ok () ↔
      ∀ requested ∈ session, ∀ attached ∈ attachedSession, SessionsMatch requested attached := by
  cases session with
  | none => exact iff_of_true rfl fun _ h => by cases h
  | some requested =>
      cases attachedSession with
      | none => exact iff_of_true rfl fun _ _ _ h => by cases h
      | some attached => simp [checkSessions, checkSessionMatch_ok]

/-- **An invocation is applied** exactly when the channel supports each option it sets and
its temperature is in range. -/
theorem applyInvocation_ok {effective result : EffectiveConfig F32}
    {invocation : InvocationConfig F32} :
    applyInvocation policy temperature effective invocation = .ok result ↔
      (∀ option, invocation.sets option = true → option ∈ policy.supportedInvocation) ∧
      (∀ t ∈ invocation.temperature, temperature.inRange t = true) ∧
      result = overlaid effective invocation := by
  unfold applyInvocation
  constructor
  · intro h
    obtain ⟨model, hmodel, h⟩ := Except.bind_eq_ok.mp h
    obtain ⟨temp, htemp, h⟩ := Except.bind_eq_ok.mp h
    obtain ⟨_, hranged, h⟩ := Except.bind_eq_ok.mp h
    obtain ⟨effort, heffort, h⟩ := Except.bind_eq_ok.mp h
    obtain ⟨tokens, htokens, h⟩ := Except.bind_eq_ok.mp h
    obtain ⟨_, hstop, h⟩ := Except.bind_eq_ok.mp h
    obtain ⟨format, hformat, h⟩ := Except.bind_eq_ok.mp h
    obtain ⟨_, hpolicy, h⟩ := Except.bind_eq_ok.mp h
    obtain ⟨deadline, hdeadline, h⟩ := Except.bind_eq_ok.mp h
    obtain ⟨_, hextensions, h⟩ := Except.bind_eq_ok.mp h
    cases h
    rw [applyOption_ok] at hmodel htemp heffort htokens hformat hdeadline
    rw [requireSupported_ok] at hpolicy
    rw [requireIf_ok] at hstop hextensions
    refine ⟨fun option hset => ?_, checkTemperature_ok.mp hranged, ?_⟩
    · cases option with
      | model => exact hmodel.1 hset
      | temperature => exact htemp.1 hset
      | reasoningEffort => exact heffort.1 hset
      | maxOutputTokens => exact htokens.1 hset
      | stop => exact hstop hset
      | responseFormat => exact hformat.1 hset
      | continuationPolicy => exact hpolicy
      | deadline => exact hdeadline.1 hset
      | extensions => exact hextensions hset
    · rw [hmodel.2, htemp.2, heffort.2, htokens.2, hformat.2, hdeadline.2]
      rfl
  · rintro ⟨hsupported, hranged, rfl⟩
    refine Except.bind_eq_ok.mpr ⟨_, applyOption_ok.mpr ⟨hsupported .model, rfl⟩, ?_⟩
    refine Except.bind_eq_ok.mpr ⟨_, applyOption_ok.mpr ⟨hsupported .temperature, rfl⟩, ?_⟩
    refine Except.bind_eq_ok.mpr ⟨(), checkTemperature_ok.mpr hranged, ?_⟩
    refine Except.bind_eq_ok.mpr ⟨_, applyOption_ok.mpr ⟨hsupported .reasoningEffort, rfl⟩, ?_⟩
    refine Except.bind_eq_ok.mpr ⟨_, applyOption_ok.mpr ⟨hsupported .maxOutputTokens, rfl⟩, ?_⟩
    refine Except.bind_eq_ok.mpr ⟨(), requireIf_ok.mpr (hsupported .stop), ?_⟩
    refine Except.bind_eq_ok.mpr ⟨_, applyOption_ok.mpr ⟨hsupported .responseFormat, rfl⟩, ?_⟩
    refine Except.bind_eq_ok.mpr
      ⟨(), requireSupported_ok.mpr (hsupported .continuationPolicy rfl), ?_⟩
    refine Except.bind_eq_ok.mpr ⟨_, applyOption_ok.mpr ⟨hsupported .deadline, rfl⟩, ?_⟩
    refine Except.bind_eq_ok.mpr ⟨(), requireIf_ok.mpr (hsupported .extensions), ?_⟩
    rfl

/-- The layers put together are the configuration they describe. -/
theorem layered_iff {defaults : ChannelDefaults F32} {session : Option SessionConfig}
    {invocation : InvocationConfig F32} {effective : EffectiveConfig F32} :
    Layered defaults session invocation effective ↔
      effective = overlaid (baseConfig defaults session) invocation := by
  have hext : ∀ k, ((baseConfig defaults session).extensions.extend
      invocation.extensions.entries).lookup k =
        (invocation.extensions.lookup k).or
          ((session.bind (·.extensions.lookup k)).or (defaults.extensions.lookup k)) := by
    intro k
    rw [OrderedMap.lookup_extend]
    congr 1
    cases session with
    | none => rfl
    | some s => exact OrderedMap.lookup_extend defaults.extensions s.extensions k
  have hstops : (overlaid (baseConfig defaults session) invocation).stop =
      if invocation.stop = [] then defaults.stop else invocation.stop := by
    simp [overlaid, baseConfig]
  constructor
  · intro h
    have hextensions : effective.extensions =
        (baseConfig defaults session).extensions.extend invocation.extensions.entries :=
      OrderedMap.ext_lookup fun k => (h.extensions k).trans (hext k).symm
    exact EffectiveConfig.ext h.model h.temperature h.reasoningEffort h.maxOutputTokens
      (h.stop.trans hstops.symm) h.responseFormat h.continuationPolicy
      (h.deadline.trans Option.or_none.symm) hextensions h.session
  · intro h
    subst h
    exact ⟨rfl, rfl, rfl, rfl, hstops, rfl, rfl, Option.or_none, hext, rfl⟩

theorem forM_ok {check : SessionConfig → Except ConfigError Unit} {session : Option SessionConfig} :
    session.forM check = .ok () ↔ ∀ s ∈ session, check s = .ok () := by
  cases session with
  | none => exact iff_of_true rfl fun _ h => by cases h
  | some s => simp [Option.forM]

/-- **The effective configuration.** The layers of a transaction are put together exactly
when the channel admits each of them and what they come to; the result is the layers: the
invocation where it says something, else the session, else the channel. -/
theorem mergeEffectiveConfig_iff (serde : SerdeJson Json) (limits : ExtensionLimits)
    (policy : OptionPolicy) (temperature : Temperature F32) (defaults : ChannelDefaults F32)
    (session attachedSession : Option SessionConfig) (invocation : InvocationConfig F32)
    (effective : EffectiveConfig F32) :
    mergeEffectiveConfig serde limits policy temperature defaults session attachedSession
        invocation = .ok effective ↔
      Admissible serde limits policy temperature defaults session attachedSession invocation ∧
      Layered defaults session invocation effective ∧
      ExtensionsValid serde limits policy effective.extensions := by
  rw [layered_iff]
  unfold mergeEffectiveConfig
  constructor
  · intro h
    obtain ⟨_, hbelow, h⟩ := Except.bind_eq_ok.mp h
    obtain ⟨_, hsession, h⟩ := Except.bind_eq_ok.mp h
    obtain ⟨_, hattached, h⟩ := Except.bind_eq_ok.mp h
    obtain ⟨_, hasked, h⟩ := Except.bind_eq_ok.mp h
    obtain ⟨_, hstrings, h⟩ := Except.bind_eq_ok.mp h
    obtain ⟨_, hmatching, h⟩ := Except.bind_eq_ok.mp h
    obtain ⟨merged, hmerged, h⟩ := Except.bind_eq_ok.mp h
    obtain ⟨_, hvalid, h⟩ := Except.bind_eq_ok.mp h
    cases h
    obtain ⟨hsupported, hranged, hresult⟩ := applyInvocation_ok.mp hmerged
    obtain ⟨hmodel, hstop⟩ := validateInvocationStrings_ok.mp hstrings
    refine ⟨⟨validateExtensions_ok.mp hbelow, ?_, checkSessions_ok.mp hmatching,
      validateExtensions_ok.mp hasked, hmodel, hstop, hranged, hsupported⟩, hresult,
      validateExtensions_ok.mp hvalid⟩
    rintro s (hs | hs)
    · exact validateSession_ok.mp (forM_ok.mp hsession s hs)
    · exact validateSession_ok.mp (forM_ok.mp hattached s hs)
  · rintro ⟨hadmissible, hresult, hvalid⟩
    obtain ⟨hbelow, hsessions, hmatching, hasked, hmodel, hstop, hranged, hsupported⟩ := hadmissible
    refine Except.bind_eq_ok.mpr ⟨(), validateExtensions_ok.mpr hbelow, ?_⟩
    refine Except.bind_eq_ok.mpr
      ⟨(), forM_ok.mpr fun s hs => validateSession_ok.mpr (hsessions s (.inl hs)), ?_⟩
    refine Except.bind_eq_ok.mpr
      ⟨(), forM_ok.mpr fun s hs => validateSession_ok.mpr (hsessions s (.inr hs)), ?_⟩
    refine Except.bind_eq_ok.mpr ⟨(), validateExtensions_ok.mpr hasked, ?_⟩
    refine Except.bind_eq_ok.mpr ⟨(), validateInvocationStrings_ok.mpr ⟨hmodel, hstop⟩, ?_⟩
    refine Except.bind_eq_ok.mpr ⟨(), checkSessions_ok.mpr hmatching, ?_⟩
    refine Except.bind_eq_ok.mpr
      ⟨effective, applyInvocation_ok.mpr ⟨hsupported, hranged, hresult⟩, ?_⟩
    exact Except.bind_eq_ok.mpr ⟨(), validateExtensions_ok.mpr hvalid, rfl⟩

end Accepted

end Monoloop.Outbound
