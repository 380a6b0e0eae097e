import Monoloop.ToolLoop.Redelivery

/-!
# Which requests of an exchange are answered

A Loop that accepts everything and is fed a list of units answers a ready request
exactly when it is newer than every unit of its action before it and no request
of its action was answered yet. `answeredUnits` is that rule as a function of the
units alone, and a Loop that drains has sent its results for those units, in order.
-/

namespace Monoloop.ToolLoop

open LoopOwner

variable {env : LoopEnvironment} {o : LoopOwner}

/-- A tool unit as the Loop reads it. -/
structure ToolUnit where
  key : String
  generation : Nat
  tool : ToolActionEvent
deriving DecidableEq

def toolUnit (event : CanonicalUnitEvent) : Option ToolUnit :=
  match event.snapshot.unit with
  | .tool tool => some ⟨actionKey event.snapshot tool, event.snapshot.unitGeneration, tool⟩
  | _ => none

/-- The request is answered after `seen`, of which `answered` were answered. -/
def Current (seen answered : List ToolUnit) (v : ToolUnit) : Prop :=
  v.tool.Dispatchable ∧ (∀ u ∈ seen, u.key = v.key → u.generation < v.generation) ∧
    ∀ u ∈ answered, u.key ≠ v.key

instance (seen answered : List ToolUnit) (v : ToolUnit) : Decidable (Current seen answered v) :=
  inferInstanceAs (Decidable (_ ∧ _ ∧ _))

/-- The units of a list that are answered, after `seen` and `answered`. -/
def answeredUnits : (seen answered rest : List ToolUnit) → List ToolUnit
  | _, _, [] => []
  | seen, answered, v :: rest =>
      if Current seen answered v then v :: answeredUnits (seen ++ [v]) (answered ++ [v]) rest
      else answeredUnits (seen ++ [v]) answered rest

/-- What the owner remembers of the units it has seen. -/
structure History (o : LoopOwner) (seen answered : List ToolUnit) : Prop where
  all : o.scope.acceptAllInRun = true
  noted : ∀ key generation, o.dedup.lookup (digKey key generation) = some generation ↔
    ∃ u ∈ seen, u.key = key ∧ u.generation = generation
  newest : ∀ u ∈ seen, u.generation ≤ o.lastGeneration u.key
  reached : ∀ key, o.lastGeneration key = 0 ∨
    ∃ u ∈ seen, u.key = key ∧ u.generation = o.lastGeneration key
  dispatched : ∀ key, o.dispatched key = true ↔ ∃ u ∈ answered, u.key = key

theorem History.new (run : MonoloopRunId) (loop : LoopId) (scope : LoopScope) (limits : LoopLimits)
    (hall : scope.acceptAllInRun = true) : History (.new run loop scope limits) [] [] where
  all := hall
  noted key generation := by
    show (∅ : HashMap String Nat).lookup (digKey key generation) = some generation ↔ _
    simp
  newest u hu := by cases hu
  reached key := .inl rfl
  dispatched key := by
    show (false = true) ↔ _
    simp

variable {seen answered : List ToolUnit} {snap : CanonicalUnitSnapshot} {tool : ToolActionEvent}

theorem History.inScope (h : History o seen answered) (snap : CanonicalUnitSnapshot) :
    o.inScope snap = true := by
  unfold LoopOwner.inScope
  rw [h.all]
  rfl

/-- Nothing else of the owner is remembered. -/
theorem History.same {o' : LoopOwner} (h : History o seen answered) (hscope : o'.scope = o.scope)
    (hdedup : o'.dedup = o.dedup) (hactions : o'.actions = o.actions) :
    History o' seen answered := by
  have hlast : ∀ key, o'.lastGeneration key = o.lastGeneration key := by
    intro key
    unfold LoopOwner.lastGeneration
    rw [hactions]
  have hdispatched : ∀ key, o'.dispatched key = o.dispatched key := by
    intro key
    unfold LoopOwner.dispatched
    rw [hactions]
  refine ⟨by rw [hscope, h.all], ?_, ?_, ?_, ?_⟩
  · intro key generation
    rw [hdedup]
    exact h.noted key generation
  · intro u hu
    rw [hlast]
    exact h.newest u hu
  · intro key
    rw [hlast]
    exact h.reached key
  · intro key
    rw [hdispatched]
    exact h.dispatched key

/-- What the Loop remembers decides whether a request is answered. -/
theorem History.current_iff (h : History o seen answered) (v : ToolUnit) :
    Current seen answered v ↔ v.tool.Dispatchable ∧
      o.dedup.lookup (digKey v.key v.generation) ≠ some v.generation ∧
      ¬ PassedOver o v.key v.generation := by
  have hnewer : (∀ u ∈ seen, u.key = v.key → u.generation < v.generation) ↔
      o.dedup.lookup (digKey v.key v.generation) ≠ some v.generation ∧
        o.lastGeneration v.key ≤ v.generation := by
    rw [ne_eq, h.noted]
    constructor
    · intro hall
      refine ⟨?_, ?_⟩
      · rintro ⟨u, hu, hkey, hgeneration⟩
        have := hall u hu hkey
        omega
      · rcases h.reached v.key with hzero | ⟨u, hu, hkey, hlast⟩
        · omega
        · have := hall u hu hkey
          omega
    · rintro ⟨hunseen, hlast⟩ u hu hkey
      have hle := h.newest u hu
      rw [hkey] at hle
      have hne : u.generation ≠ v.generation := fun heq => hunseen ⟨u, hu, hkey, heq⟩
      omega
  have hfirst : (∀ u ∈ answered, u.key ≠ v.key) ↔ ¬ o.dispatched v.key = true := by
    rw [h.dispatched]
    simp
  unfold Current PassedOver
  rw [hnewer, hfirst]
  constructor
  · rintro ⟨hready, ⟨hunseen, hlast⟩, hfresh⟩
    refine ⟨hready, hunseen, ?_⟩
    rintro (hmarked | hstale)
    · exact hfresh hmarked
    · omega
  · rintro ⟨hready, hunseen, hpassed⟩
    refine ⟨hready, ⟨hunseen, ?_⟩, fun hmarked => hpassed (.inl hmarked)⟩
    exact Nat.le_of_not_lt fun hstale => hpassed (.inr hstale)

/-- A unit whose entry is noted, its record raised to its generation. -/
theorem History.raise {o' : LoopOwner} {v : ToolUnit} {answered' : List ToolUnit}
    (h : History o seen answered) (hscope : o'.scope = o.scope)
    (hdedup : ∀ dig, o'.dedup.lookup dig =
      if dig = digKey v.key v.generation then some v.generation else o.dedup.lookup dig)
    (hlast : ∀ key, o'.lastGeneration key =
      if key = v.key then max (o.lastGeneration v.key) v.generation else o.lastGeneration key)
    (hdispatched : ∀ key, o'.dispatched key = true ↔ ∃ u ∈ answered', u.key = key) :
    History o' (seen ++ [v]) answered' where
  all := by rw [hscope, h.all]
  noted key generation := by
    rw [hdedup]
    split
    · rename_i hdig
      obtain ⟨rfl, rfl⟩ := digKey_inj hdig
      simp only [true_iff]
      exact ⟨v, by simp, rfl, rfl⟩
    · rename_i hdig
      rw [h.noted]
      constructor
      · rintro ⟨u, hu, hkey⟩
        exact ⟨u, List.mem_append_left _ hu, hkey⟩
      · rintro ⟨u, hu, rfl, rfl⟩
        rcases List.mem_append.mp hu with hu | hu
        · exact ⟨u, hu, rfl, rfl⟩
        · rw [List.mem_singleton.mp hu] at hdig
          exact absurd rfl hdig
  newest u hu := by
    rw [hlast]
    rcases List.mem_append.mp hu with hu | hu
    · have hle := h.newest u hu
      split
      · rename_i hkey
        rw [hkey] at hle
        omega
      · exact hle
    · rw [List.mem_singleton.mp hu, if_pos rfl]
      omega
  reached key := by
    rw [hlast]
    split
    · rename_i hkey
      by_cases hle : o.lastGeneration v.key ≤ v.generation
      · rw [max_eq_right hle]
        exact .inr ⟨v, by simp, hkey.symm, rfl⟩
      · rw [max_eq_left (by omega)]
        rcases h.reached v.key with hzero | ⟨u, hu, hukey, hu'⟩
        · exact .inl hzero
        · exact .inr ⟨u, List.mem_append_left _ hu, hukey.trans hkey.symm, hu'⟩
    · rcases h.reached key with hzero | ⟨u, hu, hukey⟩
      · exact .inl hzero
      · exact .inr ⟨u, List.mem_append_left _ hu, hukey⟩
  dispatched := hdispatched

/-- A unit that was noted before changes nothing that is remembered. -/
theorem History.again {v : ToolUnit} (h : History o seen answered)
    (hseen : o.dedup.lookup (digKey v.key v.generation) = some v.generation) :
    History o (seen ++ [v]) answered := by
  obtain ⟨u, hu, hkey, hgeneration⟩ := (h.noted _ _).mp hseen
  have hlast := h.newest u hu
  rw [hkey, hgeneration] at hlast
  refine h.raise rfl ?_ ?_ h.dispatched
  · intro dig
    split
    · rename_i hdig
      rw [hdig, hseen]
    · rfl
  · intro key
    split
    · rename_i hk
      rw [hk]
      omega
    · rfl

/-- The results among the events of a turn or a run. -/
def resultsOf (emitted : List LoopOutputEvent) : List OutboundToolResult :=
  emitted.filterMap fun
    | .outboundToolResult r => some r
    | _ => none

theorem resultsOf_append (l l' : List LoopOutputEvent) :
    resultsOf (l ++ l') = resultsOf l ++ resultsOf l' := by
  unfold resultsOf
  exact List.filterMap_append

theorem resultsOf_dispatch {base : LoopOwner} {t : Turn} (hok : t.result = .ok ())
    (h : DispatchEmits base snap tool t) :
    ∃ r, resultsOf t.emitted = [r] ∧ r.toolActionId = tool.toolActionId := by
  cases h with
  | answered r _ _ haction _ _ _ hemitted => exact ⟨r, by rw [hemitted]; rfl, haction⟩
  | unavailable r reason _ _ haction _ _ _ hemitted => exact ⟨r, by rw [hemitted]; rfl, haction⟩
  | failed kind hresult _ _ =>
      rw [hresult] at hok
      cases hok

/-- What one unit adds to the history. -/
inductive HistoryTurn (seen answered : List ToolUnit) (event : CanonicalUnitEvent) (t : Turn) :
    Prop where
  | other (hunit : toolUnit event = none) (hsilent : resultsOf t.emitted = [])
      (h : History t.owner seen answered)
  | answered (v : ToolUnit) (hunit : toolUnit event = some v) (hcurrent : Current seen answered v)
      (r : OutboundToolResult) (hresult : resultsOf t.emitted = [r])
      (haction : r.toolActionId = v.tool.toolActionId)
      (h : History t.owner (seen ++ [v]) (answered ++ [v]))
  | passed (v : ToolUnit) (hunit : toolUnit event = some v) (hcurrent : ¬ Current seen answered v)
      (hsilent : resultsOf t.emitted = []) (h : History t.owner (seen ++ [v]) answered)

theorem toolUnit_of_scope {event : CanonicalUnitEvent} (h : ToolInScope o event.snapshot tool) :
    toolUnit event =
      some ⟨actionKey event.snapshot tool, event.snapshot.unitGeneration, tool⟩ := by
  unfold toolUnit
  rw [h.unit]

theorem onUnit_history (env : LoopEnvironment) (event : CanonicalUnitEvent)
    (h : History o seen answered) (hok : (o.onUnit env event).result = .ok ()) :
    HistoryTurn seen answered event (o.onUnit env event) := by
  have hturn := onUnit_turn env o event
  have htool : ∀ tool, ToolInScope o event.snapshot tool → toolUnit event =
      some ⟨actionKey event.snapshot tool, event.snapshot.unitGeneration, tool⟩ :=
    fun tool => toolUnit_of_scope
  have hnone : (∀ tool, ¬ ToolInScope o event.snapshot tool) → toolUnit event = none := by
    intro hother
    unfold toolUnit
    split
    · rename_i tool hunit
      exact absurd ⟨hunit, h.inScope _⟩ (hother tool)
    · rfl
  generalize o.onUnit env event = t at hturn hok
  generalize event.snapshot = snap at hturn htool hnone
  cases hturn with
  | observed hother => exact .other (hnone hother) rfl h
  | duplicate tool hin hseen =>
      have hagain : History o (seen ++ [⟨actionKey snap tool, snap.unitGeneration, tool⟩]) answered :=
        h.again hseen
      refine .passed _ (htool tool hin) ?_ rfl (hagain.same rfl rfl rfl)
      intro hcurrent
      exact ((h.current_iff _).mp hcurrent).2.1 hseen
  | refused tool o' hin => cases hok
  | recorded tool o' hin hrecorded hunseen hpassed =>
      refine .passed _ (htool tool hin) ?_ rfl (h.raise hrecorded.scope ?_ ?_ ?_)
      · intro hcurrent
        obtain ⟨hready, -, hnot⟩ := (h.current_iff _).mp hcurrent
        exact hnot (hpassed hready)
      · intro dig
        rw [hrecorded.dedup]
        exact noted_lookup o snap tool dig
      · exact hrecorded.lastGeneration
      · intro key
        rw [hrecorded.dispatched]
        exact h.dispatched key
  | dispatched tool record hin hfresh hlast hrecord hready hunseen =>
      have hleaves := dispatch_leaves (env.reply o.dispatches)
        ((o.noted snap tool).setAction (actionKey snap tool) record) (actionKey snap tool) snap tool
        record
      obtain ⟨r, hresult, haction⟩ := resultsOf_dispatch hok (dispatch_emits (env.reply o.dispatches)
        ((o.noted snap tool).setAction (actionKey snap tool) record) (actionKey snap tool) snap tool
        record)
      refine .answered _ (htool tool hin) ?_ r hresult haction
        (h.raise hleaves.scope ?_ ?_ ?_)
      · refine (h.current_iff _).mpr ⟨hready, hunseen, ?_⟩
        rintro (hmarked | hstale)
        · rw [hfresh] at hmarked
          cases hmarked
        · dsimp only at hstale
          omega
      · intro dig
        rw [hleaves.dedup]
        exact noted_lookup o snap tool dig
      · intro key
        rw [hleaves.lastGeneration, hrecord, setAction_lastGeneration]
        split
        · rw [max_eq_right hlast]
        · rfl
      · intro key
        rw [hleaves.dispatched, setAction_dispatched]
        split
        · rename_i hkey
          simp only [true_iff]
          exact ⟨_, List.mem_append_right _ (List.mem_singleton.mpr rfl), hkey.symm⟩
        · rename_i hkey
          show o.dispatched key = true ↔ _
          rw [h.dispatched]
          constructor
          · rintro ⟨u, hu, hukey⟩
            exact ⟨u, List.mem_append_left _ hu, hukey⟩
          · rintro ⟨u, hu, hukey⟩
            rcases List.mem_append.mp hu with hu | hu
            · exact ⟨u, hu, hukey⟩
            · rw [List.mem_singleton.mp hu] at hukey
              exact absurd hukey.symm hkey

/-! ## Whole runs -/

/-- The units of one exchange, delivered in order before the subscription closes. -/
def feed (units : List CanonicalUnitEvent) : List LoopSource :=
  units.map (fun unit => .event (.unit unit)) ++ [.closed]

/-- **A Loop that drains answered the current requests**, in order. -/
theorem drained_answers {units : List CanonicalUnitEvent} {n : Nat} {r : LoopEnd}
    (h : History o seen answered) (hknown : Known o) (hlive : o.ended = none)
    (hseq : o.lastSeq = 0 ∨ n = o.lastSeq + 1)
    (hend : (o.run env (number n (feed units))).ended = some r) (hkind : r.kind = .drained) :
    (resultsOf (o.output env (number n (feed units)))).map (·.toolActionId) =
      (answeredUnits seen answered (units.filterMap toolUnit)).map (·.tool.toolActionId) := by
  induction units generalizing o n seen answered with
  | nil =>
      have hstep : o.step env .closed = o.finish env .drained := by simp [LoopOwner.step, hlive]
      show (resultsOf ((o.step env .closed).2 ++ [])).map (·.toolActionId) = []
      rw [hstep, List.append_nil]
      unfold LoopOwner.finish
      dsimp only
      split <;> rfl
  | cons unit rest ih =>
      rw [show number n (feed (unit :: rest)) =
        .delivered ⟨n, .unit unit⟩ :: number (n + 1) (feed rest) from rfl] at hend ⊢
      rw [output_cons, resultsOf_append, List.map_append]
      rw [LoopOwner.run] at hend
      rw [step_delivered hlive hseq] at hend ⊢
      have hcounted : History (o.counted n) seen answered := h.same rfl rfl rfl
      have hknown' : Known (o.counted n) := hknown
      rw [LoopOwner.handle] at hend ⊢
      have hfacts := onUnit_facts env (o.counted n) unit
      have hnotes := onUnit_notes env unit hknown'
      have hturn := onUnit_history env unit hcounted
      generalize (o.counted n).onUnit env unit = t at hend hfacts hnotes hturn ⊢
      unfold close at hend ⊢
      split at hend
      · rename_i hok
        dsimp only
        have hnotes := hnotes hok
        have hnext : t.owner.lastSeq = 0 ∨ n + 1 = t.owner.lastSeq + 1 := by
          rw [hnotes.sequence]
          exact .inr rfl
        have hrest := fun {seen' answered'} (h' : History t.owner seen' answered') =>
          ih h' (hknown'.turn hnotes) ((hfacts.ended hok).trans hlive) hnext hend
        cases hturn hok with
        | other hunit hsilent h' =>
            rw [hsilent, hrest h', List.filterMap_cons_none hunit]
            rfl
        | answered v hunit hcurrent r hresult haction h' =>
            rw [hresult, hrest h', List.filterMap_cons_some hunit, answeredUnits, if_pos hcurrent,
              List.map_cons, List.map_cons, haction]
            rfl
        | passed v hunit hcurrent hsilent h' =>
            rw [hsilent, hrest h', List.filterMap_cons_some hunit, answeredUnits, if_neg hcurrent]
            rfl
      · -- a handler's error ends the Loop with another report
        rename_i kind herror
        have hdone := (trace_ended env (number (n + 1) (feed rest))
          (finish_ended env t.owner kind)).2.2
        rw [hdone] at hend
        cases hend
        exact absurd hkind (hfacts.failure kind herror).1

/-! ## The end report comes last -/

def LoopOutputEvent.isEnd : LoopOutputEvent → Bool
  | .loopEnded _ => true
  | _ => false

/-- No end report, or one at the end. -/
def EndsLast (emitted : List LoopOutputEvent) : Prop :=
  ∃ body last, emitted = body ++ last ∧ (∀ e ∈ body, LoopOutputEvent.isEnd e = false) ∧
    (last = [] ∨ ∃ r, last = [.loopEnded r])

theorem EndsLast.ordinary {emitted : List LoopOutputEvent}
    (h : ∀ e ∈ emitted, LoopOutputEvent.isEnd e = false) : EndsLast emitted :=
  ⟨emitted, [], (List.append_nil _).symm, h, .inl rfl⟩

theorem endsLast_finish (env : LoopEnvironment) (o : LoopOwner) (kind : LoopEndKind)
    {emitted : List LoopOutputEvent} (h : ∀ e ∈ emitted, LoopOutputEvent.isEnd e = false) :
    EndsLast (emitted ++ (o.finish env kind).2) := by
  refine ⟨emitted, _, rfl, h, ?_⟩
  unfold LoopOwner.finish
  dsimp only
  split
  · exact .inr ⟨_, rfl⟩
  · exact .inl rfl

theorem onUnit_open (env : LoopEnvironment) (o : LoopOwner) (event : CanonicalUnitEvent) :
    ∀ e ∈ (o.onUnit env event).emitted, LoopOutputEvent.isEnd e = false := by
  have hturn := onUnit_turn env o event
  generalize o.onUnit env event = t at hturn
  cases hturn with
  | observed _ => simp
  | duplicate tool _ _ => simp
  | refused tool o' _ => simp
  | recorded tool o' _ _ _ _ => simp
  | dispatched tool record _ _ _ _ _ _ =>
      have hemits := dispatch_emits (env.reply o.dispatches)
        ((o.noted event.snapshot tool).setAction (actionKey event.snapshot tool) record)
        (actionKey event.snapshot tool) event.snapshot tool record
      cases hemits with
      | answered r _ _ _ _ _ _ hemitted => simp [hemitted, LoopOutputEvent.isEnd]
      | unavailable r reason _ _ _ _ _ _ hemitted => simp [hemitted, LoopOutputEvent.isEnd]
      | failed kind _ _ hemitted =>
          rcases hemitted with hnone | hone | ⟨reason, htwo⟩
          · simp [hnone]
          · simp [hone, LoopOutputEvent.isEnd]
          · simp [htwo, LoopOutputEvent.isEnd]

/-- One turn: nothing but ordinary events, or the Loop has ended. -/
theorem step_endsLast (env : LoopEnvironment) (input : LoopInput) (hlive : o.ended = none) :
    (∀ e ∈ (o.step env input).2, LoopOutputEvent.isEnd e = false) ∨
      ((o.step env input).1.ended.isSome ∧ EndsLast (o.step env input).2) := by
  have hfinish : ∀ kind, o.step env input = o.finish env kind →
      (o.step env input).1.ended.isSome ∧ EndsLast (o.step env input).2 := by
    intro kind hstep
    have hlast := endsLast_finish env o kind
      (List.forall_mem_nil fun e => LoopOutputEvent.isEnd e = false)
    rw [hstep]
    exact ⟨rfl, hlast⟩
  have hclose : ∀ t : Turn, (∀ e ∈ t.emitted, LoopOutputEvent.isEnd e = false) →
      (∀ e ∈ (close env t).2, LoopOutputEvent.isEnd e = false) ∨
        ((close env t).1.ended.isSome ∧ EndsLast (close env t).2) := by
    intro t hopen
    unfold close
    split
    · exact .inl hopen
    · exact .inr ⟨rfl, endsLast_finish env t.owner _ hopen⟩
  cases input with
  | cancelled => exact .inr (hfinish .cancelled (by simp [LoopOwner.step, hlive]))
  | closed => exact .inr (hfinish .drained (by simp [LoopOwner.step, hlive]))
  | status status =>
      cases status with
      | opened | closing => simp [LoopOwner.step, hlive]
      | gap _ _ | lost => exact .inr (hfinish .subscriptionLost (by simp [LoopOwner.step, hlive]))
  | delivered delivered =>
      rw [show o.step env (.delivered delivered) = close env (o.onDelivered env delivered) by
        simp [LoopOwner.step, hlive]]
      apply hclose
      unfold LoopOwner.onDelivered
      split
      · simp
      · dsimp only
        split
        · exact onUnit_open _ _ _
        · simp

theorem output_endsLast (env : LoopEnvironment) (inputs : List LoopInput) (o : LoopOwner) :
    EndsLast (o.output env inputs) := by
  induction inputs generalizing o with
  | nil => exact .ordinary (by simp [LoopOwner.output, LoopOwner.trace])
  | cons input rest ih =>
      cases hended : o.ended with
      | some r =>
          rw [(trace_ended env (input :: rest) (by simp [hended])).2.1]
          exact .ordinary (by simp)
      | none =>
          rw [output_cons]
          rcases step_endsLast env input hended with hopen | ⟨hnow, hlast⟩
          · obtain ⟨body, last, heq, hbody, hlast⟩ := ih (o.step env input).1
            refine ⟨(o.step env input).2 ++ body, last, ?_, ?_, hlast⟩
            · rw [heq, List.append_assoc]
            · intro e he
              rcases List.mem_append.mp he with he | he
              · exact hopen e he
              · exact hbody e he
          · rw [(trace_ended env rest hnow).2.1, List.append_nil]
            exact hlast

/-! ## When every ready request is answered -/

theorem answeredUnits_sublist (seen answered units : List ToolUnit) :
    (answeredUnits seen answered units).Sublist
      (units.filter fun v => v.tool.requestState = .ready) := by
  induction units generalizing seen answered with
  | nil => exact List.Sublist.refl _
  | cons v rest ih =>
      rw [answeredUnits]
      split
      · rename_i hcurrent
        rw [List.filter_cons_of_pos (by simpa using hcurrent.1.1)]
        exact (ih _ _).cons_cons v
      · by_cases hready : v.tool.requestState = .ready
        · rw [List.filter_cons_of_pos (by simpa using hready)]
          exact (ih _ _).cons v
        · rw [List.filter_cons_of_neg (by simpa using hready)]
          exact ih _ _

/-- A ready unit comes first of the ready units of its action and is newer than
every unit of its action before it. -/
def Supersedes (u v : ToolUnit) : Prop :=
  v.tool.requestState = .ready → u.key = v.key →
    u.generation < v.generation ∧ u.tool.requestState ≠ .ready

instance (u v : ToolUnit) : Decidable (Supersedes u v) :=
  inferInstanceAs (Decidable (_ → _ → _ ∧ _))

/-- Every ready request is answered iff each supersedes what precedes it. The
units before are split into those seen and, among them, those answered. -/
theorem answeredUnits_eq_iff {seen answered units : List ToolUnit}
    (hanswered : answered = seen.filter fun v => v.tool.requestState = .ready)
    (hfull : ∀ v ∈ units, v.tool.requestState = .ready → v.tool.Dispatchable) :
    answeredUnits seen answered units = units.filter (fun v => v.tool.requestState = .ready) ↔
      (∀ u ∈ seen, ∀ v ∈ units, Supersedes u v) ∧ units.Pairwise Supersedes := by
  induction units generalizing seen answered with
  | nil => simp [answeredUnits]
  | cons v rest ih =>
      have hrest : ∀ w ∈ rest, w.tool.requestState = .ready → w.tool.Dispatchable :=
        fun w hw => hfull w (List.mem_cons_of_mem _ hw)
      -- being current is superseding everything seen
      have hcurrent : v.tool.requestState = .ready →
          (Current seen answered v ↔ ∀ u ∈ seen, Supersedes u v) := by
        intro hready
        subst hanswered
        constructor
        · intro hnow u hu _ hkey
          refine ⟨hnow.2.1 u hu hkey, ?_⟩
          intro hready'
          exact hnow.2.2 u (List.mem_filter.mpr ⟨hu, by simpa using hready'⟩) hkey
        · intro hall
          refine ⟨hfull v (List.mem_cons_self ..) hready, ?_, ?_⟩
          · intro u hu hkey
            exact (hall u hu hready hkey).1
          · intro u hu hkey
            obtain ⟨hu, hready'⟩ := List.mem_filter.mp hu
            exact (hall u hu hready hkey).2 (by simpa using hready')
      have hsplit : (∀ u ∈ seen, ∀ w ∈ v :: rest, Supersedes u w) ∧
          (v :: rest).Pairwise Supersedes ↔
          (∀ u ∈ seen, Supersedes u v) ∧
            (∀ u ∈ seen ++ [v], ∀ w ∈ rest, Supersedes u w) ∧ rest.Pairwise Supersedes := by
        rw [List.pairwise_cons]
        simp only [List.mem_cons, List.mem_append, List.not_mem_nil, or_false, or_imp,
          forall_and, forall_eq]
        tauto
      rw [hsplit]
      by_cases hready : v.tool.requestState = .ready
      · rw [List.filter_cons_of_pos (by simpa using hready), answeredUnits]
        split
        · rename_i hnow
          have hnext : answered ++ [v] =
              (seen ++ [v]).filter fun v => v.tool.requestState = .ready := by
            rw [List.filter_append, hanswered]
            simp [hready]
          rw [List.cons_inj_right, ih hnext hrest]
          exact (and_iff_right ((hcurrent hready).mp hnow)).symm
        · rename_i hnow
          constructor
          · intro heq
            have hlength := (answeredUnits_sublist (seen ++ [v]) answered rest).length_le
            rw [heq, List.length_cons] at hlength
            omega
          · intro hall
            exact absurd ((hcurrent hready).mpr hall.1) hnow
      · have hnow : ¬ Current seen answered v := fun h => hready h.1.1
        have hnext : answered = (seen ++ [v]).filter fun v => v.tool.requestState = .ready := by
          rw [List.filter_append, hanswered]
          simp [hready]
        rw [List.filter_cons_of_neg (by simpa using hready), answeredUnits, if_neg hnow,
          ih hnext hrest]
        refine (and_iff_right ?_).symm
        intro u _ hready'
        exact absurd hready' hready

end Monoloop.ToolLoop
