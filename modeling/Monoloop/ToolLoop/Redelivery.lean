import Monoloop.ToolLoop.Dispatch
import Std.Data.String.ToNat

/-!
# Redelivered and stale events

Two runs of the Loop are compared: one over a sequence of events, one over the
same sequence with an event that was already delivered inserted again. The runs
are alike when their outputs agree up to generated ids and their owners up to the
sequence position and the delivered and duplicate counters.
-/

namespace Monoloop.ToolLoop

open LoopOwner

variable {env env' : LoopEnvironment} {o o' : LoopOwner}

/-! ## What is compared -/

/-- A result without its generated ids. -/
def anonymousResult (r : OutboundToolResult) : OutboundToolResult :=
  { r with
    outboundResultId := ""
    toolExecutionId := r.toolExecutionId.map fun _ => ⟨""⟩ }

/-- A report without the delivered and duplicate counters. -/
def uncountedReport (r : LoopEnd) : LoopEnd :=
  { r with deliveryEventsReceived := 0, duplicateEvents := 0 }

/-- An output event without generated ids and those counters. -/
def anonymous : LoopOutputEvent → LoopOutputEvent
  | .outboundToolResult r => .outboundToolResult (anonymousResult r)
  | .loopEnded r => .loopEnded (uncountedReport r)
  | event => event

/-- A reply without the ids generated for it. -/
def DispatchReply.anonymous (reply : DispatchReply) : DispatchReply :=
  { reply with outboundResultId := "", executionId := ⟨""⟩ }

def LoopEnvironment.anonymous (env : LoopEnvironment) : LoopEnvironment :=
  { env with reply := fun n => (env.reply n).anonymous }

/-- The owner without its place in the sequence, those counters and its report. -/
def LoopOwner.uncounted (o : LoopOwner) : LoopOwner :=
  { o with lastSeq := 0, deliveryEvents := 0, duplicates := 0, ended := none }

/-- Two handlers' results that differ only in what is not compared. -/
structure Alike (t t' : Turn) : Prop where
  owner : t.owner.uncounted = t'.owner.uncounted
  emitted : t.emitted.map anonymous = t'.emitted.map anonymous
  result : t.result = t'.result

/-! ## Handlers do not read what is not compared -/

theorem Alike.silent {result : Except LoopEndKind Unit} (h : o.uncounted = o'.uncounted) :
    Alike ⟨o, [], result⟩ ⟨o', [], result⟩ := ⟨h, rfl, rfl⟩

theorem diag_uncounted (o : LoopOwner) (message : String) :
    (o.diag message).uncounted = (o.uncounted.diag message).uncounted := by
  unfold LoopOwner.diag LoopOwner.uncounted
  dsimp only
  split <;> rfl

theorem trackWaiting_uncounted (o : LoopOwner) (key : String) (snap : CanonicalUnitSnapshot)
    (tool : ToolActionEvent) : (o.trackWaiting key snap tool).uncounted =
      (o.uncounted.trackWaiting key snap tool).uncounted := by
  unfold LoopOwner.trackWaiting
  rw [show o.uncounted.entry key snap tool .observedWaiting =
    o.entry key snap tool .observedWaiting from rfl]
  dsimp only
  split
  · rfl
  · split <;> rfl

theorem markIncomplete_uncounted (o : LoopOwner) (key : String) (snap : CanonicalUnitSnapshot)
    (tool : ToolActionEvent) : (o.markIncomplete key snap tool).uncounted =
      (o.uncounted.markIncomplete key snap tool).uncounted := by
  unfold LoopOwner.markIncomplete
  rw [show o.uncounted.entry key snap tool .incomplete =
    o.entry key snap tool .incomplete from rfl]
  dsimp only
  split <;> rfl

/-- The ids generated for a dispatch reach only the ids of its result. -/
theorem dispatch_alike (reply : DispatchReply) (o : LoopOwner) (key : String)
    (snap : CanonicalUnitSnapshot) (tool : ToolActionEvent) (record : ActionRecord) :
    Alike (dispatch reply o key snap tool record)
      (dispatch reply.anonymous o.uncounted key snap tool record) := by
  unfold dispatch DispatchReply.anonymous
  dsimp only
  split
  · exact ⟨rfl, rfl, rfl⟩
  · split
    · exact ⟨rfl, rfl, rfl⟩
    · split
      · exact ⟨rfl, rfl, rfl⟩
      · split
        · exact ⟨rfl, rfl, rfl⟩
        · exact ⟨rfl, rfl, rfl⟩
    · split
      · split
        · exact ⟨diag_uncounted _ _, rfl, rfl⟩
        · unfold LoopOwner.diag LoopOwner.uncounted LoopOwner.setAction
          dsimp only
          split <;> exact ⟨rfl, rfl, rfl⟩
      · split
        · exact ⟨rfl, rfl, rfl⟩
        · exact ⟨rfl, rfl, rfl⟩

theorem onRequestReady_alike (env : LoopEnvironment) (o : LoopOwner) (key : String)
    (snap : CanonicalUnitSnapshot) (tool : ToolActionEvent) :
    Alike (o.onRequestReady env key snap tool)
      (o.uncounted.onRequestReady env.anonymous key snap tool) := by
  unfold LoopOwner.onRequestReady
  rw [show o.uncounted.entry key snap tool .requestReady =
    o.entry key snap tool .requestReady from rfl]
  generalize o.entry key snap tool .requestReady = record
  rw [show o.uncounted.limits = o.limits from rfl, show o.uncounted.actions = o.actions from rfl]
  dsimp only
  split
  · exact .silent rfl
  · split
    · exact .silent rfl
    · split
      · exact .silent rfl
      · split
        · exact .silent (diag_uncounted _ _)
        · split
          · exact .silent (diag_uncounted _ _)
          · exact dispatch_alike _ _ _ _ _ _

/-- **The unit handler sees neither counters nor generated ids.** -/
theorem onUnit_alike (env : LoopEnvironment) (o : LoopOwner) (event : CanonicalUnitEvent) :
    Alike (o.onUnit env event) (o.uncounted.onUnit env.anonymous event) := by
  unfold LoopOwner.onUnit
  dsimp only
  rw [show o.uncounted.inScope event.snapshot = o.inScope event.snapshot from rfl,
    show o.uncounted.limits = o.limits from rfl, show o.uncounted.dedup = o.dedup from rfl]
  split
  · exact .silent rfl
  · split
    · split
      · exact .silent rfl
      · split
        · exact .silent rfl
        · split
          · exact .silent (trackWaiting_uncounted _ _ _ _)
          · exact onRequestReady_alike _ _ _ _ _
          · exact .silent (markIncomplete_uncounted _ _ _ _)
          · exact .silent (markIncomplete_uncounted _ _ _ _)
    · exact .silent rfl

theorem Alike.trans {t t' t'' : Turn} (h : Alike t t') (h' : Alike t' t'') : Alike t t'' :=
  ⟨h.owner.trans h'.owner, h.emitted.trans h'.emitted, h.result.trans h'.result⟩

theorem Alike.symm {t t' : Turn} (h : Alike t t') : Alike t' t :=
  ⟨h.owner.symm, h.emitted.symm, h.result.symm⟩

theorem onUnit_alike_of (event : CanonicalUnitEvent) (henv : env.anonymous = env'.anonymous)
    (howner : o.uncounted = o'.uncounted) : Alike (o.onUnit env event) (o'.onUnit env' event) := by
  have hleft := onUnit_alike env o event
  rw [henv, howner] at hleft
  exact hleft.trans (onUnit_alike env' o' event).symm

/-! ## What a delivered unit leaves behind -/

theorem colon_not_digit (n : Nat) : ':' ∉ n.repr.toList := by
  rw [Nat.toList_repr]
  intro hmem
  have hdigit := Nat.isDigit_of_mem_toDigits (by decide) (by decide) hmem
  exact absurd hdigit (by decide)

/-- Lists split at the first occurrence of `a` in only one way. -/
theorem split_at_first {α : Type} [DecidableEq α] {a : α} {x x' z z' : List α} (hx : a ∉ x)
    (hx' : a ∉ x') (h : x ++ a :: z = x' ++ a :: z') : x = x' ∧ z = z' := by
  have htake : ∀ {y w : List α}, a ∉ y → (y ++ a :: w).takeWhile (· ≠ a) = y := by
    intro y w hy
    rw [List.takeWhile_append_of_pos]
    · simp
    · intro b hb
      have hne : b ≠ a := fun heq => hy (heq ▸ hb)
      simpa using hne
  have hfirst : x = x' := by
    rw [← htake hx (w := z), ← htake hx' (w := z'), h]
  subst hfirst
  have hrest := List.append_cancel_left h
  exact ⟨rfl, (List.cons.inj hrest).2⟩

/-- A generation has no colon, so the last colon of the key separates it. -/
theorem digKey_inj {key key' : String} {n n' : Nat} (h : digKey key n = digKey key' n') :
    key = key' ∧ n = n' := by
  have hlist : n.repr.toList.reverse ++ ':' :: key.toList.reverse =
      n'.repr.toList.reverse ++ ':' :: key'.toList.reverse := by
    have := congrArg (fun s : String => s.toList.reverse) h
    simpa [digKey] using this
  have hfree : ∀ m : Nat, ':' ∉ m.repr.toList.reverse := by
    intro m hmem
    exact colon_not_digit m (List.mem_reverse.mp hmem)
  obtain ⟨hdigits, hkeys⟩ := split_at_first (hfree n) (hfree n') hlist
  exact ⟨String.toList_inj.mp (List.reverse_injective hkeys),
    Nat.repr_injective (String.toList_inj.mp (List.reverse_injective hdigits))⟩

/-- The deduplication table knows keys of recorded actions only, and the record
has reached every generation noted for it. -/
def Known (o : LoopOwner) : Prop :=
  ∀ dig generation, o.dedup.lookup dig = some generation →
    ∃ key, dig = digKey key generation ∧ generation ≤ o.lastGeneration key

/-- What a unit handled without error leaves of table and records. -/
structure TurnNotes (o : LoopOwner) (snap : CanonicalUnitSnapshot) (t : Turn) : Prop where
  scope : t.owner.scope = o.scope
  sequence : t.owner.lastSeq = o.lastSeq
  raised : ∀ key, o.lastGeneration key ≤ t.owner.lastGeneration key
  noted : ∀ tool, ToolInScope o snap tool →
    t.owner.dedup.lookup (digKey (actionKey snap tool) snap.unitGeneration) =
      some snap.unitGeneration ∧
    snap.unitGeneration ≤ t.owner.lastGeneration (actionKey snap tool)
  lookup : ∀ dig, t.owner.dedup.lookup dig = o.dedup.lookup dig ∨
    ∃ tool, ToolInScope o snap tool ∧ dig = digKey (actionKey snap tool) snap.unitGeneration

theorem noted_lookup (o : LoopOwner) (snap : CanonicalUnitSnapshot) (tool : ToolActionEvent)
    (dig : String) : (o.noted snap tool).dedup.lookup dig =
      if dig = digKey (actionKey snap tool) snap.unitGeneration then some snap.unitGeneration
      else o.dedup.lookup dig :=
  HashMap.lookup_insert_ite _ _ _ _

theorem toolInScope_unique {snap : CanonicalUnitSnapshot} {tool tool' : ToolActionEvent}
    (h : ToolInScope o snap tool) (h' : ToolInScope o snap tool') : tool = tool' := by
  have heq := h.unit.symm.trans h'.unit
  exact CanonicalUnit.tool.inj heq

/-- A unit whose entry is in the table afterwards, its record at least as far. -/
theorem TurnNotes.of_noted {snap : CanonicalUnitSnapshot} {tool : ToolActionEvent} {t : Turn}
    (h : ToolInScope o snap tool) (hscope : t.owner.scope = o.scope)
    (hsequence : t.owner.lastSeq = o.lastSeq)
    (hdedup : t.owner.dedup = (o.noted snap tool).dedup)
    (hraised : ∀ key, o.lastGeneration key ≤ t.owner.lastGeneration key)
    (hreached : snap.unitGeneration ≤ t.owner.lastGeneration (actionKey snap tool)) :
    TurnNotes o snap t where
  scope := hscope
  sequence := hsequence
  raised := hraised
  noted tool' h' := by
    cases toolInScope_unique h h'
    refine ⟨?_, hreached⟩
    rw [hdedup, noted_lookup, if_pos rfl]
  lookup dig := by
    rw [hdedup, noted_lookup]
    split
    · rename_i hdig
      exact .inr ⟨tool, h, hdig⟩
    · exact .inl rfl

theorem onUnit_notes (env : LoopEnvironment) (event : CanonicalUnitEvent) (hknown : Known o)
    (hok : (o.onUnit env event).result = .ok ()) :
    TurnNotes o event.snapshot (o.onUnit env event) := by
  have hturn := onUnit_turn env o event
  generalize o.onUnit env event = t at hturn hok
  generalize event.snapshot = snap at hturn
  cases hturn with
  | observed hnone =>
      refine ⟨rfl, rfl, fun _ => Nat.le_refl _, ?_, fun _ => .inl rfl⟩
      intro tool h
      exact absurd h (hnone tool)
  | duplicate tool h hseen =>
      refine ⟨rfl, rfl, fun _ => Nat.le_refl _, ?_, fun _ => .inl rfl⟩
      intro tool' h'
      cases toolInScope_unique h h'
      refine ⟨hseen, ?_⟩
      obtain ⟨key, hkey, hle⟩ := hknown _ _ hseen
      obtain ⟨rfl, -⟩ := digKey_inj hkey
      exact hle
  | refused tool o' h => cases hok
  | recorded tool o' h hrecorded =>
      refine .of_noted h hrecorded.scope hrecorded.sequence hrecorded.dedup ?_ ?_
      · intro key
        rw [hrecorded.lastGeneration]
        split
        · rename_i hkey
          subst hkey
          exact Nat.le_max_left _ _
        · exact Nat.le_refl _
      · rw [hrecorded.lastGeneration, if_pos rfl]
        exact Nat.le_max_right _ _
  | dispatched tool record h hfresh hlast hrecord hready =>
      have hleaves := dispatch_leaves (env.reply o.dispatches)
        ((o.noted snap tool).setAction (actionKey snap tool) record) (actionKey snap tool) snap tool
        record
      refine .of_noted h hleaves.scope hleaves.sequence hleaves.dedup ?_ ?_
      · intro key
        rw [hleaves.lastGeneration]
        split
        · rename_i hkey
          subst hkey
          rw [hrecord]
          exact hlast
        · rename_i hkey
          rw [setAction_lastGeneration, if_neg hkey]
          exact Nat.le_refl _
      · rw [hleaves.lastGeneration, if_pos rfl, hrecord]

theorem Known.turn {snap : CanonicalUnitSnapshot} {t : Turn} (hknown : Known o)
    (hnotes : TurnNotes o snap t) : Known t.owner := by
  intro dig generation hlookup
  rcases hnotes.lookup dig with hsame | ⟨tool, h, hdig⟩
  · rw [hsame] at hlookup
    obtain ⟨key, hkey, hle⟩ := hknown dig generation hlookup
    exact ⟨key, hkey, Nat.le_trans hle (hnotes.raised key)⟩
  · obtain ⟨hnoted, hreached⟩ := hnotes.noted tool h
    rw [hdig, hnoted] at hlookup
    cases hlookup
    exact ⟨_, hdig, hreached⟩

/-- An entry of the table stays. -/
theorem TurnNotes.keeps {snap : CanonicalUnitSnapshot} {t : Turn} {dig : String} {generation : Nat}
    (hnotes : TurnNotes o snap t) (hknown : Known o) (h : o.dedup.lookup dig = some generation) :
    t.owner.dedup.lookup dig = some generation := by
  rcases hnotes.lookup dig with hsame | ⟨tool, hin, hdig⟩
  · rw [hsame, h]
  · obtain ⟨key, hkey, -⟩ := hknown dig generation h
    obtain ⟨-, rfl⟩ := digKey_inj (hkey.symm.trans hdig)
    rw [hdig]
    exact (hnotes.noted tool hin).1

/-- What a turn of a Loop that goes on keeps. -/
structure Keeps (o o' : LoopOwner) : Prop where
  known : Known o'
  scope : o'.scope = o.scope
  entries : ∀ dig generation, o.dedup.lookup dig = some generation →
    o'.dedup.lookup dig = some generation
  raised : ∀ key, o.lastGeneration key ≤ o'.lastGeneration key

theorem Keeps.same (hknown : Known o) (hdedup : o'.dedup = o.dedup) (hactions : o'.actions = o.actions)
    (hscope : o'.scope = o.scope) : Keeps o o' where
  known dig generation h := by
    rw [hdedup] at h
    unfold LoopOwner.lastGeneration
    rw [hactions]
    exact hknown dig generation h
  scope := hscope
  entries dig generation h := by
    rw [hdedup]
    exact h
  raised key := by
    unfold LoopOwner.lastGeneration
    rw [hactions]

theorem Keeps.trans {o'' : LoopOwner} (h : Keeps o o') (h' : Keeps o' o'') : Keeps o o'' where
  known := h'.known
  scope := h'.scope.trans h.scope
  entries dig generation hlookup := h'.entries dig generation (h.entries dig generation hlookup)
  raised key := Nat.le_trans (h.raised key) (h'.raised key)

/-- The owner with one more delivery counted. -/
def LoopOwner.counted (o : LoopOwner) (sequence : Nat) : LoopOwner :=
  { o with lastSeq := sequence, deliveryEvents := o.deliveryEvents + 1 }

/-- The handler of a delivered event. -/
def LoopOwner.handle (env : LoopEnvironment) (o : LoopOwner) : InterpreterOutputEvent → Turn
  | .unit event => o.onUnit env event
  | .ended _ => ⟨o, [], .ok ()⟩

/-- A delivery, when the sequence does not break. -/
theorem step_delivered {sequence : Nat} {event : InterpreterOutputEvent} (hlive : o.ended = none)
    (hseq : o.lastSeq = 0 ∨ sequence = o.lastSeq + 1) :
    o.step env (.delivered ⟨sequence, event⟩) =
      close env ((o.counted sequence).handle env event) := by
  have hgap : (decide (0 < o.lastSeq) && decide (sequence ≠ o.lastSeq + 1)) = false := by
    rcases hseq with hzero | hnext
    · simp [hzero]
    · simp [hnext]
  unfold LoopOwner.step LoopOwner.onDelivered
  rw [if_neg (by simp [hlive])]
  dsimp only
  rw [if_neg (by simpa using hgap)]
  cases event <;> rfl

/-- A delivery that breaks the sequence ends the Loop before its handler runs. -/
theorem step_break {sequence : Nat} {event : InterpreterOutputEvent} (hlive : o.ended = none)
    (hseq : ¬ (o.lastSeq = 0 ∨ sequence = o.lastSeq + 1)) :
    o.step env (.delivered ⟨sequence, event⟩) =
      (o.diag s!"delivery gap: expected {o.lastSeq + 1}, got {sequence}").finish env
        .subscriptionLost := by
  have hgap : (decide (0 < o.lastSeq) && decide (sequence ≠ o.lastSeq + 1)) = true := by
    simp only [not_or] at hseq
    simp only [Bool.and_eq_true, decide_eq_true_eq]
    exact ⟨Nat.pos_of_ne_zero hseq.1, hseq.2⟩
  unfold LoopOwner.step LoopOwner.onDelivered
  rw [if_neg (by simp [hlive])]
  dsimp only
  rw [if_pos hgap]
  rfl

theorem step_gap {sequence : Nat} {event : InterpreterOutputEvent} (hlive : o.ended = none)
    (hseq : ¬ (o.lastSeq = 0 ∨ sequence = o.lastSeq + 1)) :
    (o.step env (.delivered ⟨sequence, event⟩)).1.ended.isSome := by
  rw [step_break hlive hseq]
  rfl

/-- A unit that was handled and did not end the Loop is noted. -/
theorem step_noted {sequence : Nat} (env : LoopEnvironment) (event : CanonicalUnitEvent)
    (hlive : o.ended = none) (hknown : Known o) :
    (o.step env (.delivered ⟨sequence, .unit event⟩)).1.ended.isSome ∨
    (Keeps o (o.step env (.delivered ⟨sequence, .unit event⟩)).1 ∧
      ∀ tool, ToolInScope o event.snapshot tool →
        (o.step env (.delivered ⟨sequence, .unit event⟩)).1.dedup.lookup
            (digKey (actionKey event.snapshot tool) event.snapshot.unitGeneration) =
          some event.snapshot.unitGeneration ∧
        event.snapshot.unitGeneration ≤
          (o.step env (.delivered ⟨sequence, .unit event⟩)).1.lastGeneration
            (actionKey event.snapshot tool)) := by
  by_cases hseq : o.lastSeq = 0 ∨ sequence = o.lastSeq + 1
  · rw [step_delivered hlive hseq]
    have hcounted : Known (o.counted sequence) := hknown
    have hnotes := onUnit_notes env event hcounted
    rw [LoopOwner.handle]
    generalize (o.counted sequence).onUnit env event = t at hnotes
    unfold close
    split
    · rename_i hok
      right
      have hnotes := hnotes hok
      refine ⟨⟨hcounted.turn hnotes, hnotes.scope, ?_, hnotes.raised⟩, ?_⟩
      · intro dig generation h
        exact hnotes.keeps hcounted h
      · intro tool h
        exact hnotes.noted tool ⟨h.unit, h.scope⟩
    · exact .inl rfl
  · exact .inl (step_gap hlive hseq)

/-- Any turn: the Loop ends, or keeps what it knows. -/
theorem step_keeps (env : LoopEnvironment) (input : LoopInput) (hlive : o.ended = none)
    (hknown : Known o) :
    (o.step env input).1.ended.isSome ∨ Keeps o (o.step env input).1 := by
  cases input with
  | cancelled => exact .inl (by simp [LoopOwner.step, hlive, LoopOwner.finish])
  | closed => exact .inl (by simp [LoopOwner.step, hlive, LoopOwner.finish])
  | status status =>
      cases status with
      | gap expected observed => exact .inl (by simp [LoopOwner.step, hlive, LoopOwner.finish])
      | lost => exact .inl (by simp [LoopOwner.step, hlive, LoopOwner.finish])
      | opened =>
          right
          rw [show o.step env (.status .opened) = (o, []) by simp [LoopOwner.step, hlive]]
          exact .same hknown rfl rfl rfl
      | closing =>
          right
          rw [show o.step env (.status .closing) = (o, []) by simp [LoopOwner.step, hlive]]
          exact .same hknown rfl rfl rfl
  | delivered delivered =>
      obtain ⟨sequence, event⟩ := delivered
      cases event with
      | unit event =>
          rcases step_noted env event hlive hknown with hended | ⟨hkeeps, -⟩
          · exact .inl hended
          · exact .inr hkeeps
      | ended kind =>
          by_cases hseq : o.lastSeq = 0 ∨ sequence = o.lastSeq + 1
          · right
            rw [step_delivered hlive hseq]
            exact .same hknown rfl rfl rfl
          · exact .inl (step_gap hlive hseq)

theorem run_keeps (env : LoopEnvironment) {o : LoopOwner} (inputs : List LoopInput)
    (hlive : o.ended = none) (hknown : Known o) :
    (o.run env inputs).ended.isSome ∨ Keeps o (o.run env inputs) := by
  induction inputs generalizing o with
  | nil => exact .inr (.same hknown rfl rfl rfl)
  | cons input rest ih =>
      cases hnow : (o.step env input).1.ended with
      | some report =>
          left
          rw [LoopOwner.run, (trace_ended env rest (by simp [hnow])).2.2, hnow]
          rfl
      | none =>
          rcases step_keeps env input hlive hknown with h | hkeeps
          · rw [hnow] at h
            cases h
          · rcases ih hnow hkeeps.known with h | hrest
            · exact .inl h
            · exact .inr (hkeeps.trans hrest)

/-- **What was delivered stays noted**: after a run in which a tool unit in scope
was delivered the Loop has ended, or its entry and its generation are on record. -/
theorem delivered_noted (env : LoopEnvironment) {inputs : List LoopInput} {sequence : Nat} {event : CanonicalUnitEvent}
    {tool : ToolActionEvent} (hlive : o.ended = none) (hknown : Known o)
    (hmem : .delivered ⟨sequence, .unit event⟩ ∈ inputs)
    (hin : ToolInScope o event.snapshot tool) :
    (o.run env inputs).ended.isSome ∨
    (Known (o.run env inputs) ∧
      (o.run env inputs).dedup.lookup
          (digKey (actionKey event.snapshot tool) event.snapshot.unitGeneration) =
        some event.snapshot.unitGeneration ∧
      event.snapshot.unitGeneration ≤
        (o.run env inputs).lastGeneration (actionKey event.snapshot tool)) := by
  induction inputs generalizing o with
  | nil => cases hmem
  | cons input rest ih =>
      have hended : (o.step env input).1.ended.isSome → (o.run env (input :: rest)).ended.isSome := by
        intro h
        rw [LoopOwner.run, (trace_ended env rest h).2.2]
        exact h
      cases hnow : (o.step env input).1.ended with
      | some report => exact .inl (hended (by simp [hnow]))
      | none =>
          rcases List.mem_cons.mp hmem with rfl | hrest
          · rcases step_noted env event hlive hknown with h | ⟨hkeeps, hnoted⟩
            · exact .inl (hended h)
            · obtain ⟨hlookup, hreached⟩ := hnoted tool hin
              rcases run_keeps env rest hnow hkeeps.known with h | hrun
              · exact .inl h
              · exact .inr ⟨hrun.known, hrun.entries _ _ hlookup,
                  Nat.le_trans hreached (hrun.raised _)⟩
          · rcases step_keeps env input hlive hknown with h | hkeeps
            · exact .inl (hended h)
            · exact ih hnow hkeeps.known hrest ⟨hin.unit, by
                have hscope := hin.scope
                unfold LoopOwner.inScope at hscope ⊢
                rw [hkeeps.scope]
                exact hscope⟩

/-! ## Two runs -/

/-- An input before it is numbered. -/
inductive LoopSource where
  | cancelled
  | closed
  | status (status : SubscriptionStatus)
  | event (event : InterpreterOutputEvent)
deriving DecidableEq

namespace LoopSource

/-- The input, with the number it is delivered under. -/
def input (n : Nat) : LoopSource → LoopInput
  | .cancelled => .cancelled
  | .closed => .closed
  | .status s => .status s
  | .event e => .delivered ⟨n, e⟩

/-- The number of the delivery after it. -/
def next (n : Nat) : LoopSource → Nat
  | .event _ => n + 1
  | _ => n

end LoopSource

/-- Deliveries numbered contiguously, as `SubscriptionPublisher` does. -/
def number (n : Nat) : List LoopSource → List LoopInput
  | [] => []
  | source :: rest => source.input n :: number (source.next n) rest

/-- The two owners agree up to what is not compared, and both expect the number
their next delivery has. -/
structure Matched (o o' : LoopOwner) (n n' : Nat) : Prop where
  owner : o.uncounted = o'.uncounted
  ended : o.ended.map uncountedReport = o'.ended.map uncountedReport
  aligned : o.ended = none → o.lastSeq = 0 ∨ n = o.lastSeq + 1
  aligned' : o'.ended = none → o'.lastSeq = 0 ∨ n' = o'.lastSeq + 1

theorem Matched.both_ended {n n' : Nat} (h : Matched o o' n n') :
    o.ended.isSome = o'.ended.isSome := by
  have := congrArg Option.isSome h.ended
  simpa using this

theorem report_uncounted (h : o.uncounted = o'.uncounted) (kind : LoopEndKind) :
    uncountedReport (o.report kind) = uncountedReport (o'.report kind) := by
  show uncountedReport (o.uncounted.report kind) = uncountedReport (o'.uncounted.report kind)
  rw [h]

theorem finish_matched (kind : LoopEndKind) (n n' : Nat) (henv : env.anonymous = env'.anonymous)
    (h : o.uncounted = o'.uncounted) :
    Matched (o.finish env kind).1 (o'.finish env' kind).1 n n' ∧
      (o.finish env kind).2.map anonymous = (o'.finish env' kind).2.map anonymous := by
  have hreport := report_uncounted h kind
  have haccepted : env.endAccepted = env'.endAccepted := by
    show env.anonymous.endAccepted = env'.anonymous.endAccepted
    rw [henv]
  refine ⟨⟨h, ?_, ?_, ?_⟩, ?_⟩
  · show some (uncountedReport (o.report kind)) = some (uncountedReport (o'.report kind))
    rw [hreport]
  · intro hnone
    cases hnone
  · intro hnone
    cases hnone
  · unfold LoopOwner.finish
    rw [haccepted]
    split
    · show [LoopOutputEvent.loopEnded _] = [LoopOutputEvent.loopEnded _]
      rw [hreport]
    · rfl

/-- The end of a turn, from handlers' results that are alike. -/
theorem close_matched {t t' : Turn} {n n' : Nat} (henv : env.anonymous = env'.anonymous)
    (h : Alike t t') (hlive : t.result = .ok () → t.owner.ended = none ∧ t'.owner.ended = none)
    (haligned : t.result = .ok () → n = t.owner.lastSeq + 1 ∧ n' = t'.owner.lastSeq + 1) :
    Matched (close env t).1 (close env' t').1 n n' ∧
      (close env t).2.map anonymous = (close env' t').2.map anonymous := by
  cases hresult : t.result with
  | ok value =>
      have hok : t.result = .ok () := hresult
      obtain ⟨hended, hended'⟩ := hlive hok
      obtain ⟨hn, hn'⟩ := haligned hok
      have hok' : t'.result = .ok () := h.result ▸ hok
      simp only [close, hok, hok']
      exact ⟨⟨h.owner, by rw [hended, hended'], fun _ => .inr hn, fun _ => .inr hn'⟩, h.emitted⟩
  | error kind =>
      have herror' : t'.result = .error kind := h.result ▸ hresult
      obtain ⟨hmatched, hlast⟩ := finish_matched kind n n' henv h.owner
      simp only [close, hresult, herror', List.map_append, h.emitted, hlast]
      exact ⟨hmatched, trivial⟩

theorem handle_alike (event : InterpreterOutputEvent) (henv : env.anonymous = env'.anonymous)
    (h : o.uncounted = o'.uncounted) : Alike (o.handle env event) (o'.handle env' event) := by
  cases event with
  | unit event => exact onUnit_alike_of event henv h
  | ended kind => exact .silent h

/-- A handler that succeeds neither ends the Loop nor moves the sequence. -/
theorem handle_ok (env : LoopEnvironment) {event : InterpreterOutputEvent} (hknown : Known o)
    (hok : (o.handle env event).result = .ok ()) :
    (o.handle env event).owner.ended = o.ended ∧ (o.handle env event).owner.lastSeq = o.lastSeq := by
  cases event with
  | unit event => exact ⟨(onUnit_facts env o event).ended hok, (onUnit_notes env event hknown hok).sequence⟩
  | ended kind => exact ⟨rfl, rfl⟩

/-- **One turn of both runs** over the same source. -/
theorem step_matched {n n' : Nat} (source : LoopSource) (henv : env.anonymous = env'.anonymous)
    (hknown : o.ended = none → Known o) (hknown' : o'.ended = none → Known o')
    (h : Matched o o' n n') : Matched (o.step env (source.input n)).1 (o'.step env' (source.input n')).1 (source.next n)
        (source.next n') ∧
      (o.step env (source.input n)).2.map anonymous =
        (o'.step env' (source.input n')).2.map anonymous := by
  cases hended : o.ended with
  | some report =>
      have hsome : o.ended.isSome := by simp [hended]
      have hsome' : o'.ended.isSome := h.both_ended ▸ hsome
      rw [step_ended env _ hsome, step_ended env' _ hsome']
      refine ⟨⟨h.owner, h.ended, ?_, ?_⟩, rfl⟩
      · intro hnone
        rw [hnone] at hsome
        cases hsome
      · intro hnone
        rw [hnone] at hsome'
        cases hsome'
  | none =>
      have hended' : o'.ended = none := by
        have := h.both_ended
        simpa [hended] using this.symm
      cases source with
      | cancelled => simpa [LoopSource.input, LoopSource.next, LoopOwner.step, hended, hended'] using
          finish_matched .cancelled n n' henv h.owner
      | closed => simpa [LoopSource.input, LoopSource.next, LoopOwner.step, hended, hended'] using
          finish_matched .drained n n' henv h.owner
      | status status =>
          cases status with
          | gap expected observed =>
              simpa [LoopSource.input, LoopSource.next, LoopOwner.step, hended, hended'] using
                finish_matched .subscriptionLost n n' henv h.owner
          | lost =>
              simpa [LoopSource.input, LoopSource.next, LoopOwner.step, hended, hended'] using
                finish_matched .subscriptionLost n n' henv h.owner
          | opened =>
              simpa [LoopSource.input, LoopSource.next, LoopOwner.step, hended, hended'] using h
          | closing =>
              simpa [LoopSource.input, LoopSource.next, LoopOwner.step, hended, hended'] using h
      | event event =>
          have hcounted : (o.counted n).uncounted = (o'.counted n').uncounted := h.owner
          have hturn := handle_alike event henv hcounted
          rw [LoopSource.input, LoopSource.input, step_delivered hended (h.aligned hended),
            step_delivered hended' (h.aligned' hended')]
          have hcountedKnown : Known (o.counted n) := hknown hended
          have hcountedKnown' : Known (o'.counted n') := hknown' hended'
          refine close_matched henv hturn ?_ ?_
          · intro hok
            have hok' := hturn.result ▸ hok
            exact ⟨(handle_ok env hcountedKnown hok).1.trans hended,
              (handle_ok env' hcountedKnown' hok').1.trans hended'⟩
          · intro hok
            have hok' := hturn.result ▸ hok
            rw [(handle_ok env hcountedKnown hok).2, (handle_ok env' hcountedKnown' hok').2]
            exact ⟨rfl, rfl⟩

/-- The number after all of `sources`. -/
def numberAfter (n : Nat) : List LoopSource → Nat
  | [] => n
  | source :: rest => numberAfter (source.next n) rest

theorem number_append (n : Nat) (before after : List LoopSource) :
    number n (before ++ after) = number n before ++ number (numberAfter n before) after := by
  induction before generalizing n with
  | nil => rfl
  | cons source rest ih =>
      simp only [List.cons_append, number, numberAfter]
      rw [ih]

theorem run_append (env : LoopEnvironment) (inputs inputs' : List LoopInput) (o : LoopOwner) :
    o.run env (inputs ++ inputs') = (o.run env inputs).run env inputs' := by
  induction inputs generalizing o with
  | nil => rfl
  | cons input rest ih => exact ih _

theorem output_append (env : LoopEnvironment) (inputs inputs' : List LoopInput) (o : LoopOwner) :
    o.output env (inputs ++ inputs') = o.output env inputs ++ (o.run env inputs).output env inputs' := by
  induction inputs generalizing o with
  | nil => rfl
  | cons input rest ih =>
      rw [List.cons_append, output_cons, ih, output_cons, List.append_assoc]
      rfl

theorem known_step (env : LoopEnvironment) (input : LoopInput) (h : o.ended = none → Known o) :
    (o.step env input).1.ended = none → Known (o.step env input).1 := by
  intro hnow
  cases hended : o.ended with
  | some report =>
      rw [step_ended env input (by simp [hended]), hended] at hnow
      cases hnow
  | none =>
      rcases step_keeps env input hended (h hended) with hsome | hkeeps
      · rw [hnow] at hsome
        cases hsome
      · exact hkeeps.known

/-- **Both runs** over the same sources. -/
theorem run_matched (sources : List LoopSource) {n n' : Nat}
    (henv : env.anonymous = env'.anonymous) (hknown : o.ended = none → Known o)
    (hknown' : o'.ended = none → Known o') (h : Matched o o' n n') :
    Matched (o.run env (number n sources)) (o'.run env' (number n' sources))
        (numberAfter n sources) (numberAfter n' sources) ∧
      (o.output env (number n sources)).map anonymous =
        (o'.output env' (number n' sources)).map anonymous := by
  induction sources generalizing o o' n n' with
  | nil => exact ⟨h, rfl⟩
  | cons source rest ih =>
      obtain ⟨hstep, hemitted⟩ := step_matched source henv hknown hknown' h
      obtain ⟨hrun, houtput⟩ := ih (known_step env _ hknown) (known_step env' _ hknown') hstep
      refine ⟨hrun, ?_⟩
      simp only [number, output_cons, List.map_append]
      rw [hemitted, houtput]

/-- A unit whose entry is already in the table changes counters only. -/
theorem redelivered_step {n : Nat} (env : LoopEnvironment) (event : CanonicalUnitEvent) (hlive : o.ended = none)
    (hseq : o.lastSeq = 0 ∨ n = o.lastSeq + 1)
    (hseen : ∀ tool, ToolInScope o event.snapshot tool → o.dedup.lookup
      (digKey (actionKey event.snapshot tool) event.snapshot.unitGeneration) =
        some event.snapshot.unitGeneration) :
    (o.step env (.delivered ⟨n, .unit event⟩)).2 = [] ∧
      (o.step env (.delivered ⟨n, .unit event⟩)).1.uncounted = o.uncounted ∧
      (o.step env (.delivered ⟨n, .unit event⟩)).1.ended = none ∧
      (o.step env (.delivered ⟨n, .unit event⟩)).1.lastSeq = n := by
  rw [step_delivered hlive hseq]
  unfold LoopOwner.handle LoopOwner.onUnit
  dsimp only
  split
  · exact ⟨rfl, rfl, hlive, rfl⟩
  · rename_i hscope
    split
    · rename_i tool hunit
      have hin : ToolInScope (o.counted n) event.snapshot tool := ⟨hunit, by simpa using hscope⟩
      have hlookup : (o.counted n).dedup.lookup (digKey (actionKey event.snapshot tool)
          event.snapshot.unitGeneration) = some event.snapshot.unitGeneration :=
        hseen tool ⟨hin.unit, hin.scope⟩
      rw [if_pos hlookup]
      exact ⟨rfl, rfl, hlive, rfl⟩
    · exact ⟨rfl, rfl, hlive, rfl⟩

theorem new_known (run : MonoloopRunId) (loop : LoopId) (scope : LoopScope) (limits : LoopLimits) :
    Known (LoopOwner.new run loop scope limits) := by
  intro dig generation h
  cases h

/-- A source that was delivered is among the numbered inputs. -/
theorem mem_number {event : CanonicalUnitEvent} {sources : List LoopSource} (n : Nat)
    (h : .event (.unit event) ∈ sources) :
    ∃ sequence, .delivered ⟨sequence, .unit event⟩ ∈ number n sources := by
  induction sources generalizing n with
  | nil => cases h
  | cons source rest ih =>
      rcases List.mem_cons.mp h with rfl | hrest
      · exact ⟨n, List.mem_cons_self⟩
      · obtain ⟨sequence, hmem⟩ := ih (source.next n) hrest
        exact ⟨sequence, List.mem_cons_of_mem _ hmem⟩

/-- The owner's scope never changes, so neither does what is in scope. -/
theorem toolInScope_run {inputs : List LoopInput} {snap : CanonicalUnitSnapshot}
    {tool : ToolActionEvent} (hkeeps : Keeps o (o.run env inputs))
    (h : ToolInScope (o.run env inputs) snap tool) : ToolInScope o snap tool := by
  refine ⟨h.unit, ?_⟩
  have hscope := h.scope
  unfold LoopOwner.inScope at hscope ⊢
  rw [hkeeps.scope] at hscope
  exact hscope

/-- The insertion point: the redelivered unit leaves the second owner matched. -/
theorem matched_redelivered {before : List LoopSource} {event : CanonicalUnitEvent} {n : Nat}
    {o₁ : LoopOwner} (hlive : o.ended = none) (hknown : Known o)
    (hmem : .event (.unit event) ∈ before)
    (h : Matched o₁ (o.run env (number n before)) (numberAfter n before) (numberAfter n before)) :
    let input := LoopInput.delivered ⟨numberAfter n before, .unit event⟩
    Matched o₁ ((o.run env (number n before)).step env input).1 (numberAfter n before)
        (numberAfter n before + 1) ∧
      ((o.run env (number n before)).step env input).2 = [] := by
  intro input
  obtain ⟨sequence, hdelivered⟩ := mem_number n hmem
  cases hended : (o.run env (number n before)).ended with
  | some report =>
      have hsome : (o.run env (number n before)).ended.isSome := by simp [hended]
      rw [step_ended env input hsome]
      refine ⟨⟨h.owner, h.ended, h.aligned, ?_⟩, rfl⟩
      intro hnone
      rw [hnone] at hsome
      cases hsome
  | none =>
      have hkeeps : Keeps o (o.run env (number n before)) := by
        rcases run_keeps env (number n before) hlive hknown with hsome | hkeeps
        · rw [hended] at hsome
          cases hsome
        · exact hkeeps
      obtain ⟨hsilent, hsame, hstill, hseq⟩ := redelivered_step env event hended
        (h.aligned' hended) (by
          intro tool hin
          rcases delivered_noted env hlive hknown hdelivered (toolInScope_run hkeeps hin) with
            hsome | ⟨-, hlookup, -⟩
          · rw [hended] at hsome
            cases hsome
          · exact hlookup)
      refine ⟨⟨h.owner.trans hsame.symm, ?_, h.aligned, ?_⟩, hsilent⟩
      · rw [hstill, h.ended, hended]
      · intro _
        exact .inr (by rw [hseq])

theorem known_run (env : LoopEnvironment) (inputs : List LoopInput) (hlive : o.ended = none)
    (hknown : Known o) : (o.run env inputs).ended = none → Known (o.run env inputs) := by
  intro hnow
  rcases run_keeps env inputs hlive hknown with hsome | hkeeps
  · rw [hnow] at hsome
    cases hsome
  · exact hkeeps.known

/-- A unit older than the record of its action requests nothing. -/
theorem stale_step {n : Nat} {stale : CanonicalUnitEvent} {tool : ToolActionEvent}
    (env : LoopEnvironment) (hunit : stale.snapshot.unit = .tool tool)
    (hstale : stale.snapshot.unitGeneration < o.lastGeneration (actionKey stale.snapshot tool))
    (a : ToolActionId) : dispatchesIn a (o.step env (.delivered ⟨n, .unit stale⟩)).2 = [] := by
  cases hended : o.ended with
  | some report =>
      rw [step_ended env _ (by simp [hended])]
      rfl
  | none =>
      have hsilent : dispatchesIn a (onUnit env (o.counted n) stale).emitted = [] := by
        have hturn := onUnit_turn env (o.counted n) stale
        generalize onUnit env (o.counted n) stale = t at hturn
        cases hturn with
        | observed _ => rfl
        | duplicate _ _ _ => rfl
        | refused _ _ _ => rfl
        | recorded _ _ _ _ => rfl
        | dispatched tool' record hin _ hlast _ _ =>
            have htool : tool' = tool := CanonicalUnit.tool.inj (hin.unit.symm.trans hunit)
            subst htool
            have hlast : o.lastGeneration (actionKey stale.snapshot tool') ≤
                stale.snapshot.unitGeneration := hlast
            omega
      have hclose : ∀ t : Turn, dispatchesIn a t.emitted = [] →
          dispatchesIn a (close env t).2 = [] := by
        intro t h
        unfold close
        split
        · exact h
        · rw [dispatchesIn_append, h, (finish_emits env _ _).1]
          rfl
      have hstep : o.step env (.delivered ⟨n, .unit stale⟩) =
          close env (o.onDelivered env ⟨n, .unit stale⟩) := by
        simp [LoopOwner.step, hended]
      rw [hstep]
      apply hclose
      unfold LoopOwner.onDelivered
      split
      · rfl
      · exact hsilent

/-- **Redelivery is unobservable and stale generations never dispatch.** An event
already delivered may be inserted at any later place of a contiguously numbered
sequence: the outputs stay the same up to generated ids, the report up to the
delivered and duplicate counters. And once a generation of an action was delivered
in scope, no older generation of it causes a dispatch. -/
theorem redelivery_unobservable (run : MonoloopRunId) (loop : LoopId) (scope : LoopScope)
    (limits : LoopLimits) :
    let o := LoopOwner.new run loop scope limits
    (∀ (env env' : LoopEnvironment) (start : Nat) (before after : List LoopSource)
        (event : CanonicalUnitEvent), env.anonymous = env'.anonymous →
        .event (.unit event) ∈ before →
      (o.output env (number start (before ++ after))).map anonymous =
          (o.output env' (number start (before ++ .event (.unit event) :: after))).map anonymous ∧
        (o.run env (number start (before ++ after))).ended.map uncountedReport =
          (o.run env' (number start (before ++ .event (.unit event) :: after))).ended.map
            uncountedReport) ∧
    ∀ (env : LoopEnvironment) (inputs : List LoopInput) (sequence sequence' : Nat)
        (earlier stale : CanonicalUnitEvent) (tool tool' : ToolActionEvent),
      .delivered ⟨sequence, .unit earlier⟩ ∈ inputs → ToolInScope o earlier.snapshot tool →
      stale.snapshot.unit = .tool tool' →
      stale.snapshot.interpretationId = earlier.snapshot.interpretationId →
      tool'.toolActionId = tool.toolActionId →
      stale.snapshot.unitGeneration < earlier.snapshot.unitGeneration →
      ∀ a, dispatchesIn a
        ((o.run env inputs).step env (.delivered ⟨sequence', .unit stale⟩)).2 = [] := by
  intro o
  have hknown : Known o := new_known run loop scope limits
  constructor
  · intro env env' start before after event henv hmem
    have hfresh : Matched o o start start :=
      ⟨rfl, rfl, fun _ => .inl rfl, fun _ => .inl rfl⟩
    obtain ⟨hbefore, houtput⟩ :=
      run_matched before henv (fun _ => hknown) (fun _ => hknown) hfresh
    obtain ⟨hinserted, hsilent⟩ := matched_redelivered rfl hknown hmem hbefore
    have hknownBefore := known_run env (number start before) rfl hknown
    have hknownBefore' := known_run env' (number start before) rfl hknown
    obtain ⟨hafter, houtput'⟩ :=
      run_matched after henv hknownBefore (known_step env' _ hknownBefore') hinserted
    have hnumber : number start (before ++ .event (.unit event) :: after) =
        number start before ++ .delivered ⟨numberAfter start before, .unit event⟩ ::
          number (numberAfter start before + 1) after := number_append _ _ _
    refine ⟨?_, ?_⟩
    · rw [number_append, hnumber, output_append, output_append, List.map_append, List.map_append,
        houtput, output_cons, hsilent, List.nil_append, houtput']
    · rw [number_append, hnumber, run_append, run_append]
      exact hafter.ended
  · intro env inputs sequence sequence' earlier stale tool tool' hmem hin hunit hinterpretation
      haction hstale a
    have hkey : actionKey stale.snapshot tool' = actionKey earlier.snapshot tool := by
      unfold actionKey
      rw [hinterpretation, haction]
    rcases delivered_noted env rfl hknown hmem hin with hsome | ⟨-, -, hreached⟩
    · rw [step_ended env _ hsome]
      rfl
    · exact stale_step env hunit (by rw [hkey]; omega) a

/-- The sample request delivered once and delivered twice before the close: both
runs emit the request, its result and the report. -/
theorem sample_redelivered :
    (sampleLoop.output sampleEnvironment
        (number 1 ([.event (.unit (sampleUnit 1))] ++ [.closed]))).map anonymous =
      (sampleLoop.output sampleEnvironment (number 1 ([.event (.unit (sampleUnit 1))] ++
        .event (.unit (sampleUnit 1)) :: [.closed]))).map anonymous ∧
    (sampleLoop.output sampleEnvironment
      (number 1 ([.event (.unit (sampleUnit 1))] ++ [.closed]))).length = 3 := by
  constructor
  · exact ((redelivery_unobservable sampleRun ⟨"loop"⟩ ⟨[], [], [], true⟩ ⟨8, 8⟩).1
      sampleEnvironment sampleEnvironment 1 [.event (.unit (sampleUnit 1))] [.closed] (sampleUnit 1)
      rfl List.mem_cons_self).1
  · decide +kernel

end Monoloop.ToolLoop
