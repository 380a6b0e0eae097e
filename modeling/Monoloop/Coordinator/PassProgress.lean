import Monoloop.Lib.Counting
import Monoloop.Coordinator.PassRefinement

/-!
# The supervised pass is never wedged

The pass reads nothing of what the Loop sends before all units are published, and the
Loop takes nothing while it waits to send: were the output queue full, both would wait
for each other until the deadline. A Loop sends three events for an action at most, and
its end (`output_length_le`), so that the queue cannot fill up as long as the actions are
few enough; then every step brings the pass nearer to its return
(`supervisedPass_returns`).
-/

namespace Monoloop.Coordinator

open ToolLoop Transition

/-! ## How much a Loop sends -/

/-- The key of a ready request. -/
def readyKey (unit : CanonicalUnitEvent) : Option String :=
  match unit.snapshot.unit with
  | .tool tool => if tool.Dispatchable then some (actionKey unit.snapshot tool) else none
  | _ => none

/-- The actions with a ready request. -/
def readyKeys (units : List CanonicalUnitEvent) : List String :=
  (units.filterMap readyKey).dedup

section Loop

variable {env : LoopEnvironment} {o : LoopOwner}

theorem readyKey_of_inScope {unit : CanonicalUnitEvent} {tool : ToolActionEvent}
    (h : ToolInScope o unit.snapshot tool) (hready : tool.Dispatchable) :
    readyKey unit = some (actionKey unit.snapshot tool) := by
  unfold readyKey
  rw [h.unit]
  exact if_pos hready

/-- What a turn of the Loop sends: nothing but the end, or what it says of one action that
was not dispatched before. -/
inductive Sends (o : LoopOwner) (input : LoopInput) (o' : LoopOwner)
    (sent : List LoopOutputEvent) : Prop where
  | silent (hsent : sent.length ≤ o'.ended.isSome.toNat)
      (hkept : o'.ended = none → ∀ k, o'.dispatched k = o.dispatched k)
  | dispatches (n : Nat) (unit : CanonicalUnitEvent) (key : String)
      (hinput : input = .delivered ⟨n, .unit unit⟩) (hkey : readyKey unit = some key)
      (hfresh : o.dispatched key = false)
      (hsent : sent.length ≤ 3 + o'.ended.isSome.toNat)
      (hmarked : ∀ k, o'.dispatched k = if k = key then true else o.dispatched k)

theorem finish_length (env : LoopEnvironment) (o : LoopOwner) (kind : LoopEndKind) :
    (o.finish env kind).2.length ≤ 1 := by
  unfold LoopOwner.finish
  dsimp only
  split
  · exact Nat.le_refl 1
  · exact Nat.zero_le 1

theorem close_length (env : LoopEnvironment) (t : Turn) :
    (LoopOwner.close env t).2.length ≤
        t.emitted.length + (LoopOwner.close env t).1.ended.isSome.toNat ∧
      ∀ k, (LoopOwner.close env t).1.dispatched k = t.owner.dispatched k := by
  unfold LoopOwner.close
  split
  · exact ⟨Nat.le_add_right _ _, fun _ => rfl⟩
  · rename_i kind _
    refine ⟨?_, fun _ => rfl⟩
    rw [List.length_append]
    exact Nat.add_le_add_left (finish_length env t.owner kind) _

theorem dispatch_length (reply : DispatchReply) (o : LoopOwner) (key : String)
    (snap : CanonicalUnitSnapshot) (tool : ToolActionEvent) (record : ActionRecord) :
    (LoopOwner.dispatch reply o key snap tool record).emitted.length ≤ 3 := by
  cases dispatch_emits reply o key snap tool record with
  | answered r _ _ _ _ _ _ hemitted => rw [hemitted]; exact Nat.le_succ 2
  | unavailable r reason _ _ _ _ _ _ hemitted => rw [hemitted]; exact Nat.le_refl 3
  | failed kind _ _ hemitted =>
      rcases hemitted with hnone | hone | ⟨reason, htwo⟩
      · rw [hnone]; exact Nat.zero_le 3
      · rw [hone]; exact Nat.le_add_left 1 2
      · rw [htwo]; exact Nat.le_succ 2

/-- A unit in a turn of its own. -/
theorem unit_sends {unit : CanonicalUnitEvent} {n : Nat} {base : LoopOwner}
    (hbase : base.actions = o.actions) :
    Sends o (.delivered ⟨n, .unit unit⟩) (LoopOwner.close env (base.onUnit env unit)).1
      (LoopOwner.close env (base.onUnit env unit)).2 := by
  have hdispatched : ∀ k, base.dispatched k = o.dispatched k := by
    intro k
    unfold LoopOwner.dispatched
    rw [hbase]
  have hturn := onUnit_turn env base unit
  generalize base.onUnit env unit = t at hturn
  obtain ⟨hlength, hclosed⟩ := close_length env t
  -- a turn that says nothing
  have hsilent : t.emitted = [] →
      ((LoopOwner.close env t).1.ended = none → ∀ k, t.owner.dispatched k = o.dispatched k) →
      Sends o (.delivered ⟨n, .unit unit⟩) (LoopOwner.close env t).1
        (LoopOwner.close env t).2 := by
    intro hnone hkept
    rw [hnone, List.length_nil, Nat.zero_add] at hlength
    exact .silent hlength fun hlive k => (hclosed k).trans (hkept hlive k)
  cases hturn with
  | observed _ => exact hsilent rfl fun _ => hdispatched
  | duplicate tool _ _ => exact hsilent rfl fun _ => hdispatched
  | refused tool o' _ => exact hsilent rfl fun hlive => by cases hlive
  | recorded tool o' _ hrecorded _ _ =>
      exact hsilent rfl fun _ k => (hrecorded.dispatched k).trans (hdispatched k)
  | dispatched tool record hin hfresh _ _ hready _ =>
      have hleaves := dispatch_leaves (env.reply base.dispatches)
        ((base.noted unit.snapshot tool).setAction (actionKey unit.snapshot tool) record)
        (actionKey unit.snapshot tool) unit.snapshot tool record
      refine .dispatches n unit (actionKey unit.snapshot tool) rfl
        (readyKey_of_inScope hin hready) ((hdispatched _).symm.trans hfresh) ?_ ?_
      · exact hlength.trans (Nat.add_le_add_right (dispatch_length _ _ _ _ _ _) _)
      · intro k
        rw [hclosed, hleaves.dispatched, setAction_dispatched]
        split
        · rfl
        · exact hdispatched k

theorem step_sends (env : LoopEnvironment) (input : LoopInput) (hlive : o.ended = none) :
    Sends o input (o.step env input).1 (o.step env input).2 := by
  have hfinish : ∀ kind, o.step env input = o.finish env kind →
      Sends o input (o.step env input).1 (o.step env input).2 := by
    intro kind hstep
    rw [hstep]
    exact .silent (finish_length env o kind) fun hended => by cases hended
  cases input with
  | cancelled => exact hfinish .cancelled (step_cancelled hlive)
  | closed => exact hfinish .drained (step_closed hlive)
  | status status =>
      cases status with
      | opened | closing =>
          simp only [LoopOwner.step, hlive, Option.isSome_none, Bool.false_eq_true, if_false]
          exact .silent (Nat.zero_le _) fun _ _ => rfl
      | gap _ _ | lost => exact hfinish .subscriptionLost (by simp [LoopOwner.step, hlive])
  | delivered delivered =>
      rw [show o.step env (.delivered delivered) =
        LoopOwner.close env (o.onDelivered env delivered) by simp [LoopOwner.step, hlive]]
      obtain ⟨n, event⟩ := delivered
      unfold LoopOwner.onDelivered
      split
      · exact .silent (finish_length env _ _) fun hended => by cases hended
      · cases event with
        | ended kind => exact .silent (Nat.zero_le _) fun _ _ => rfl
        | unit unit => exact unit_sends rfl

/-- The actions that may still be dispatched. -/
def undispatched (keys : List String) (o : LoopOwner) : Nat := keys.countP fun k => !o.dispatched k

/-- The actions of the deliveries are among `keys`. -/
def WithinKeys (keys : List String) (inputs : List LoopInput) : Prop :=
  ∀ n unit key, .delivered ⟨n, .unit unit⟩ ∈ inputs → readyKey unit = some key → key ∈ keys

theorem undispatched_lt {o' : LoopOwner} {keys : List String} {key : String}
    (hfresh : o.dispatched key = false)
    (hmarked : ∀ k, o'.dispatched k = if k = key then true else o.dispatched k)
    (hmem : key ∈ keys) : undispatched keys o' < undispatched keys o := by
  refine Counting.countP_lt_countP ?_ hmem ?_ ?_
  · intro k _ hk
    rw [hmarked] at hk
    split at hk
    · cases hk
    · exact hk
  · rw [hmarked, if_pos rfl]
    rfl
  · rw [hfresh]
    rfl

/-- **A Loop sends three events for an action at most**, and its end. -/
theorem output_length_le {keys : List String} (inputs : List LoopInput)
    (hkeys : WithinKeys keys inputs) (hlive : o.ended = none) :
    (o.output env inputs).length ≤ 3 * undispatched keys o + 1 := by
  induction inputs generalizing o with
  | nil => exact Nat.zero_le _
  | cons input rest ih =>
      have hsends := step_sends env input hlive
      rw [output_cons, List.length_append]
      cases hended : (o.step env input).1.ended with
      | some report =>
          have hdone : (o.step env input).1.ended.isSome = true := by rw [hended]; rfl
          rw [(trace_ended env rest hdone).2.1, List.length_nil, Nat.add_zero]
          cases hsends with
          | silent hsent _ =>
              rw [hdone, Bool.toNat_true] at hsent
              omega
          | dispatches n unit key hinput hkey hfresh hsent hmarked =>
              have hless := undispatched_lt hfresh hmarked
                (hkeys n unit key (hinput ▸ List.mem_cons_self) hkey)
              rw [hdone, Bool.toNat_true] at hsent
              omega
      | none =>
          have hrest := ih (fun n unit key hmem => hkeys n unit key
            (List.mem_cons_of_mem _ hmem)) hended
          cases hsends with
          | silent hsent hkept =>
              have hsame : undispatched keys (o.step env input).1 = undispatched keys o := by
                unfold undispatched
                exact List.countP_congr fun k _ => by rw [hkept hended k]
              rw [hended, Option.isSome_none, Bool.toNat_false] at hsent
              omega
          | dispatches n unit key hinput hkey hfresh hsent hmarked =>
              have hless := undispatched_lt hfresh hmarked
                (hkeys n unit key (hinput ▸ List.mem_cons_self) hkey)
              rw [hended, Option.isSome_none, Bool.toNat_false] at hsent
              omega

end Loop

/-! ## What is left to do -/

variable {Json : Type} {p : PassParams Json} {s s' : SupervisedPass Json} {a : PassAction}

def PassPhase.weight : PassPhase Json → Nat
  | .feeding _ _ => 7
  | .driving _ => 6
  | .fed => 5
  | .publishing => 5
  | .receiving => 4
  | .joining => 3
  | .stopping _ => 1
  | .returned _ => 0

/-- The deliveries that are not in the queue yet. -/
def PassPhase.ahead : PassPhase Json → Nat
  | .feeding rest offered => 13 * rest.length + 12 * offered.toList.length
  | _ => 0

/-- The end of the Loop, and the look at its flag before the next turn. -/
def SupervisedPass.loopAhead (s : SupervisedPass Json) : Nat :=
  if s.owner.ended.isNone then if s.waiting then 4 else 5 else 0

/-- A bound on the steps that are left. A delivery costs its turn and three events, an
event its sending, receiving and publishing. -/
def SupervisedPass.stepsLeft (s : SupervisedPass Json) : Nat :=
  s.phase.weight + s.phase.ahead + (if s.control then 0 else 1) + 11 * s.subscription.length +
    s.loopAhead + 3 * s.unsent.length + 2 * s.output.length

theorem sends_le {o o' : LoopOwner} {input : LoopInput} {sent : List LoopOutputEvent}
    (h : Sends o input o' sent) : sent.length ≤ 3 + o'.ended.isSome.toNat := by
  cases h with
  | silent hsent _ => omega
  | dispatches _ _ _ _ _ _ hsent _ => exact hsent

theorem control_le {b b' : Bool} (h : b = true → b' = true) :
    (if b' then 0 else 1) ≤ if b then 0 else (1 : Nat) := by
  cases b with
  | false => split <;> decide
  | true => rw [h rfl]

/-- A step that leaves the Loop and its deliveries alone. -/
theorem stepsLeft_lt (hsubscription : s'.subscription = s.subscription)
    (howner : s'.owner = s.owner) (hwaiting : s'.waiting = s.waiting)
    (hunsent : s'.unsent = s.unsent) (hcontrol : s.control = true → s'.control = true)
    (hphase : s'.phase.weight + s'.phase.ahead + 2 * s'.output.length <
      s.phase.weight + s.phase.ahead + 2 * s.output.length) : s'.stepsLeft < s.stepsLeft := by
  have hle := control_le hcontrol
  have hloop : s'.loopAhead = s.loopAhead := by
    unfold SupervisedPass.loopAhead
    rw [howner, hwaiting]
  unfold SupervisedPass.stepsLeft
  rw [hsubscription, hloop, hunsent]
  omega

theorem midway_weight (h : s.phase.midway = true) : 1 < s.phase.weight := by
  cases hphase : s.phase with
  | driving _ => exact (by decide : 1 < 6)
  | fed => exact (by decide : 1 < 5)
  | receiving => exact (by decide : 1 < 4)
  | publishing => exact (by decide : 1 < 5)
  | joining => exact (by decide : 1 < 3)
  | feeding _ _ | stopping _ | returned _ =>
      rw [hphase] at h
      cases h

/-- The Loop's promises in front of a turn. -/
theorem loopAhead_listening (h : s.listening = true) :
    s.loopAhead = (if s.waiting then 4 else 5) ∧ s.unsent.length = 0 := by
  obtain ⟨hlive, hunsent⟩ := SupervisedPass.listening_iff.mp h
  unfold SupervisedPass.loopAhead
  rw [hlive, hunsent]
  exact ⟨rfl, rfl⟩

/-- A turn that ends the Loop. -/
theorem stepsLeft_ending {kind : LoopEndKind} {input : LoopInput} (hlistening : s.listening = true)
    (hstep : s.owner.step p.environment input = s.owner.finish p.environment kind) :
    (s.turn p input).stepsLeft < s.stepsLeft := by
  obtain ⟨hahead, hunsent⟩ := loopAhead_listening hlistening
  have hpromised : 4 ≤ s.loopAhead := by
    rw [hahead]
    split <;> decide
  have hlength := finish_length p.environment s.owner kind
  have hnone : (s.turn p input).loopAhead = 0 := by
    unfold SupervisedPass.loopAhead SupervisedPass.turn
    dsimp only
    rw [hstep]
    rfl
  have hsent : (s.turn p input).unsent.length ≤ 1 := by
    show (s.owner.step p.environment input).2.length ≤ 1
    rw [hstep]
    exact hlength
  unfold SupervisedPass.stepsLeft
  rw [hnone, hunsent]
  show s.phase.weight + s.phase.ahead + (if s.control then 0 else 1) + 11 * s.subscription.length +
    0 + 3 * (s.turn p input).unsent.length + 2 * s.output.length < _
  omega

/-- A turn on a delivery. -/
theorem stepsLeft_delivered {delivered : DeliveredEvent} {rest : List DeliveredEvent}
    (hlistening : s.listening = true) (hwaiting : s.waiting = true)
    (hsubscription : s.subscription = delivered :: rest) :
    ({ s with subscription := rest }.turn p (.delivered delivered)).stepsLeft < s.stepsLeft := by
  obtain ⟨hahead, hunsent⟩ := loopAhead_listening hlistening
  rw [if_pos hwaiting] at hahead
  have hsends := sends_le (step_sends p.environment (.delivered delivered)
    (SupervisedPass.listening_iff.mp hlistening).1)
  have hnext : ({ s with subscription := rest }.turn p (.delivered delivered)).loopAhead +
      5 * (s.owner.step p.environment (.delivered delivered)).1.ended.isSome.toNat = 5 := by
    unfold SupervisedPass.loopAhead SupervisedPass.turn
    dsimp only
    cases (s.owner.step p.environment (.delivered delivered)).1.ended <;> rfl
  have hone : (s.owner.step p.environment (.delivered delivered)).1.ended.isSome.toNat ≤ 1 :=
    Bool.toNat_le _
  unfold SupervisedPass.stepsLeft
  rw [hsubscription, List.length_cons, hahead, hunsent]
  show s.phase.weight + s.phase.ahead + (if s.control then 0 else 1) + 11 * rest.length +
    ({ s with subscription := rest }.turn p (.delivered delivered)).loopAhead +
    3 * (s.owner.step p.environment (.delivered delivered)).2.length + 2 * s.output.length < _
  omega

theorem feedFails_kept (p : PassParams Json) (s : SupervisedPass Json)
    (error : LoopDispatchError) : (s.feedFails p error).waiting = s.waiting ∧
      (s.control = true → (s.feedFails p error).control = true) ∧
      (s.feedFails p error).phase.weight ≤ 6 ∧ (s.feedFails p error).phase.ahead = 0 := by
  unfold SupervisedPass.feedFails
  split
  · exact ⟨rfl, id, Nat.le_refl 6, rfl⟩
  · exact ⟨rfl, fun _ => rfl, (by decide : 1 ≤ 6), rfl⟩

/-- **Every step of the pass or its Loop is one step less.** -/
theorem stepsLeft_step (hstep : PassStep p s a s') :
    s'.stepsLeft + a.internal.toNat ≤ s.stepsLeft := by
  cases hstep with
  | cancel _ => exact Nat.le_refl _
  | deadline _ => exact Nat.le_refl _
  | waits hlistening hwaiting =>
      obtain ⟨hahead, -⟩ := loopAhead_listening hlistening
      rw [if_neg (by rw [hwaiting]; decide)] at hahead
      have hnext : SupervisedPass.loopAhead { s with waiting := true } = 4 := by
        obtain ⟨hlive, -⟩ := SupervisedPass.listening_iff.mp hlistening
        unfold SupervisedPass.loopAhead
        dsimp only
        rw [hlive]
        rfl
      unfold SupervisedPass.stepsLeft
      rw [hnext, hahead]
      show _ + 1 ≤ _
      dsimp only
      omega
  | takes delivered rest hlistening hwaiting hsubscription =>
      exact stepsLeft_delivered hlistening hwaiting hsubscription
  | drains hlistening _ _ _ =>
      exact stepsLeft_ending hlistening
        (step_closed (SupervisedPass.listening_iff.mp hlistening).1)
  | halts _ ha hlistening _ =>
      rw [ha]
      exact stepsLeft_ending hlistening
        (step_cancelled (SupervisedPass.listening_iff.mp hlistening).1)
  | sends event rest hunsent =>
      unfold SupervisedPass.stepsLeft
      rw [hunsent, List.length_cons]
      show s.phase.weight + s.phase.ahead + (if s.control then 0 else 1) +
        11 * s.subscription.length + s.loopAhead + 3 * rest.length +
        2 * (s.output ++ [event]).length + 1 ≤ _
      rw [List.length_append, List.length_singleton]
      omega
  | offers unit rest hphase =>
      refine stepsLeft_lt rfl rfl rfl rfl id ?_
      rw [hphase]
      simp only [PassPhase.weight, PassPhase.ahead, Option.toList_none, Option.toList_some,
        List.length_nil, List.length_cons]
      omega
  | pushes rest delivered hphase =>
      unfold SupervisedPass.stepsLeft
      rw [hphase]
      show 7 + (13 * rest.length + 12 * 0) + (if s.control then 0 else 1) +
        11 * (s.subscription ++ [delivered]).length + s.loopAhead + 3 * s.unsent.length +
        2 * s.output.length + 1 ≤ 7 + (13 * rest.length + 12 * 1) + _ + _ + _ + _ + _
      rw [List.length_append, List.length_singleton]
      omega
  | feeds hphase =>
      refine stepsLeft_lt rfl rfl rfl rfl id ?_
      rw [hphase]
      dsimp only
      split
      · exact Nat.add_lt_add_right (by decide : 6 < 7) _
      · exact Nat.add_lt_add_right (by decide : 5 < 7) _
  | feedFails _ ha rest offered error hphase _ =>
      obtain ⟨howner, -, hunsent, houtput, -, hsubscription, -⟩ :=
        feedFails_fields (p := p) (s := s) error
      obtain ⟨hwaiting, hcontrol, hweight, hahead⟩ := feedFails_kept p s error
      rw [ha]
      refine stepsLeft_lt hsubscription howner hwaiting hunsent hcontrol ?_
      rw [houtput, hahead, hphase]
      show _ < 7 + _ + _
      omega
  | notices hcontrol _ =>
      unfold SupervisedPass.stepsLeft
      rw [hcontrol]
      show s.phase.weight + s.phase.ahead + 0 + 11 * s.subscription.length + s.loopAhead +
        3 * s.unsent.length + 2 * s.output.length + 1 ≤ s.phase.weight + s.phase.ahead + 1 + _ + _ +
          _ + _
      omega
  | abandons rest offered hphase _ =>
      refine stepsLeft_lt rfl rfl rfl rfl (fun _ => rfl) ?_
      rw [hphase]
      show 1 + 0 + 2 * s.output.length < 7 + _ + _
      omega
  | drives hphase =>
      refine stepsLeft_lt rfl rfl rfl rfl id ?_
      rw [hphase]
      exact Nat.add_lt_add_right (by decide : 5 < 6) _
  | stops _ ha error hphase _ =>
      rw [ha]
      refine stepsLeft_lt rfl rfl rfl rfl (fun _ => rfl) ?_
      have hweight := midway_weight hphase
      show 1 + 0 + 2 * s.output.length < _
      omega
  | opens hphase =>
      refine stepsLeft_lt rfl rfl rfl rfl id ?_
      rw [hphase]
      exact Nat.add_lt_add_right (by decide : 4 < 5) _
  | result r rest hphase houtput =>
      refine stepsLeft_lt rfl rfl rfl rfl id ?_
      rw [hphase, houtput, List.length_cons]
      show 5 + 0 + 2 * rest.length < 4 + 0 + 2 * (rest.length + 1)
      omega
  | ended report rest hphase houtput =>
      refine stepsLeft_lt rfl rfl rfl rfl id ?_
      rw [hphase, houtput, List.length_cons]
      show 3 + 0 + 2 * rest.length < 4 + 0 + 2 * (rest.length + 1)
      omega
  | skips event rest hphase houtput _ _ =>
      refine stepsLeft_lt rfl rfl rfl rfl id ?_
      rw [houtput, List.length_cons]
      dsimp only
      omega
  | emptied hphase _ _ =>
      refine stepsLeft_lt rfl rfl rfl rfl id ?_
      rw [hphase]
      exact Nat.add_lt_add_right (by decide : 3 < 4) _
  | published hphase =>
      refine stepsLeft_lt rfl rfl rfl rfl id ?_
      rw [hphase]
      exact Nat.add_lt_add_right (by decide : 4 < 5) _
  | refuses hphase =>
      refine stepsLeft_lt rfl rfl rfl rfl (fun _ => rfl) ?_
      rw [hphase]
      exact Nat.add_lt_add_right (by decide : 1 < 5) _
  | joins hphase _ =>
      refine stepsLeft_lt rfl rfl rfl rfl id ?_
      rw [hphase]
      exact Nat.add_lt_add_right (by decide : 0 < 3) _
  | leaves error hphase _ =>
      refine stepsLeft_lt rfl rfl rfl rfl id ?_
      rw [hphase]
      exact Nat.add_lt_add_right (by decide : 0 < 1) _

/-! ## A next step -/

/-- Only a pass that drives the Loop itself waits for its future. -/
def DrivesItself (p : PassParams Json) (s : SupervisedPass Json) : Prop :=
  ∀ fed, s.phase = .driving fed → p.driven = true

theorem DrivesItself.step (h : DrivesItself p s) (hstep : PassStep p s a s') :
    DrivesItself p s' := by
  intro fed hfed
  cases hstep with
  | cancel _ => exact h fed hfed
  | deadline _ => exact h fed hfed
  | waits _ _ => exact h fed hfed
  | takes _ _ _ _ _ => exact h fed hfed
  | drains _ _ _ _ => exact h fed hfed
  | halts _ _ _ _ => exact h fed hfed
  | sends _ _ _ => exact h fed hfed
  | feeds _ =>
      dsimp only at hfed
      split at hfed
      · assumption
      · cases hfed
  | feedFails _ _ _ _ error _ _ =>
      unfold SupervisedPass.feedFails at hfed
      split at hfed
      · assumption
      · cases hfed
  | notices _ _ => exact h fed hfed
  | skips _ _ _ _ _ _ => exact h fed hfed
  | offers _ _ _ | pushes _ _ _ | abandons _ _ _ _ | drives _ | stops _ _ _ _ _ | opens _
  | result _ _ _ _ | ended _ _ _ _ | emptied _ _ _ | published _ | refuses _ | joins _ _
  | leaves _ _ _ => cases hfed

theorem readyKey_mem {units : List CanonicalUnitEvent} {unit : CanonicalUnitEvent} {key : String}
    (hmem : unit ∈ units) (hkey : readyKey unit = some key) : key ∈ readyKeys units :=
  List.mem_dedup.mpr (List.mem_filterMap.mpr ⟨unit, hmem, hkey⟩)

theorem mem_deliveries {n m : Nat} {unit : CanonicalUnitEvent} {units : List CanonicalUnitEvent}
    (h : ⟨m, .unit unit⟩ ∈ deliveries n units) : unit ∈ units := by
  induction units generalizing n with
  | nil => cases h
  | cons first rest ih =>
      rcases List.mem_cons.mp h with heq | hrest
      · cases heq
        exact List.mem_cons_self
      · exact List.mem_cons_of_mem _ (ih hrest)

/-- The actions that the Loop has seen are actions of the pass. -/
theorem within_inputs {taken lost : List DeliveredEvent} {ends : List LoopInput}
    (hfed : Fed p s taken ends lost) : WithinKeys (readyKeys p.scoped) s.inputs := by
  intro n unit key hmem hkey
  rw [hfed.inputs, List.mem_append] at hmem
  have htaken : ⟨n, .unit unit⟩ ∈ taken := by
    rcases hmem with hmem | hmem
    · obtain ⟨delivered, hdelivered, heq⟩ := List.mem_map.mp hmem
      cases heq
      exact hdelivered
    · cases hfed.ends with
      | going => cases hmem
      | closed _ _ _ => cases List.mem_singleton.mp hmem
      | cancelled _ _ => cases List.mem_singleton.mp hmem
  have hmem : ⟨n, .unit unit⟩ ∈ deliveries 1 p.scoped := by
    rw [← hfed.stream]
    simp [htaken]
  exact readyKey_mem (mem_deliveries hmem) hkey

/-- **Room.** The Loop never waits to send. -/
theorem room_of_passing (h : Passing p s)
    (hroom : 3 * (readyKeys p.scoped).length + 1 ≤ outputCapacity) (hunsent : s.unsent ≠ []) :
    s.output.length < outputCapacity := by
  obtain ⟨⟨received, hreplayed⟩, ⟨taken, ends, lost, hfed⟩, -⟩ := h
  have hlength : (p.owner.output p.environment s.inputs).length ≤
      3 * undispatched (readyKeys p.scoped) p.owner + 1 :=
    output_length_le s.inputs (within_inputs hfed) rfl
  have hle : undispatched (readyKeys p.scoped) p.owner ≤ (readyKeys p.scoped).length :=
    List.countP_le_length
  rw [← hreplayed.sent, List.length_append, List.length_append] at hlength
  have hpos := List.length_pos_iff.mpr hunsent
  omega

/-- A step of the pass or its Loop is enabled. -/
def CanStep (p : PassParams Json) (s : SupervisedPass Json) : Prop :=
  ∃ a s', PassAction.internal a = true ∧ s.step p a = some s'

theorem canStep_of_isSome (ha : a.internal = true) (h : (s.step p a).isSome = true) :
    CanStep p s := by
  obtain ⟨s', hstep⟩ := Option.isSome_iff_exists.mp h
  exact ⟨a, s', ha, hstep⟩

theorem feed_enabled {rest : List CanonicalUnitEvent} {offered : Option DeliveredEvent}
    (hphase : s.phase = .feeding rest offered)
    (hready : s.loopDone = true ∨ s.subscription.length < subscriptionCapacity) :
    CanStep p s := by
  refine canStep_of_isSome (a := .feed) rfl ?_
  simp only [SupervisedPass.step, SupervisedPass.feed, hphase]
  cases offered with
  | none => cases rest <;> rfl
  | some delivered =>
      rcases hready with hdone | hshort
      · simp only [hdone, if_true, Option.isSome_some]
      · simp only [hshort, if_true]
        split <;> rfl

/-- A pass whose Loop has ended goes on. -/
theorem canStep_of_done (hdrives : DrivesItself p s) (hdone : s.loopDone = true) :
    (∃ result, s.phase = .returned result) ∨ CanStep p s := by
  cases hphase : s.phase with
  | returned result => exact .inl ⟨result, rfl⟩
  | feeding rest offered => exact .inr (feed_enabled hphase (.inl hdone))
  | driving fed =>
      refine .inr (canStep_of_isSome (a := .driven) rfl ?_)
      simp only [SupervisedPass.step, SupervisedPass.driven, hphase, hdone, hdrives fed hphase,
        Bool.and_self, if_true]
      split
      · rfl
      · cases fed <;> rfl
  | fed =>
      refine .inr (canStep_of_isSome (a := .check) rfl ?_)
      simp only [SupervisedPass.step, SupervisedPass.check, hphase, Option.isSome_some]
  | receiving =>
      refine .inr (canStep_of_isSome (a := .receive) rfl ?_)
      simp only [SupervisedPass.step, SupervisedPass.receive, hphase, hdone, if_true]
      split <;> rfl
  | publishing =>
      refine .inr (canStep_of_isSome (a := .published true) rfl ?_)
      simp only [SupervisedPass.step, SupervisedPass.published, hphase, Option.isSome_some]
  | joining =>
      refine .inr (canStep_of_isSome (a := .join) rfl ?_)
      simp only [SupervisedPass.step, SupervisedPass.join, hphase, hdone, if_true,
        Option.isSome_some]
  | stopping error =>
      refine .inr (canStep_of_isSome (a := .leave) rfl ?_)
      simp only [SupervisedPass.step, SupervisedPass.leave, hphase, hdone, if_true,
        Option.isSome_some]

/-- A Loop between two turns has its next turn, or the pass still feeds it. -/
theorem canStep_of_listening (hlistening : s.listening = true) : CanStep p s := by
  cases hwaiting : s.waiting with
  | false =>
      refine canStep_of_isSome (a := .look) rfl ?_
      simp only [SupervisedPass.step, SupervisedPass.look, hlistening, hwaiting, Bool.not_false,
        Bool.and_self, if_true, Option.isSome_some]
  | true =>
      cases hsubscription : s.subscription with
      | cons delivered rest =>
          refine canStep_of_isSome (a := .take) rfl ?_
          simp only [SupervisedPass.step, SupervisedPass.take, hlistening, hwaiting, hsubscription,
            Bool.and_self, if_true, Option.isSome_some]
      | nil =>
          cases hclosed : s.closed with
          | true =>
              refine canStep_of_isSome (a := .take) rfl ?_
              simp only [SupervisedPass.step, SupervisedPass.take, hlistening, hwaiting,
                hsubscription, hclosed, Bool.and_self, if_true, Option.isSome_some]
          | false =>
              unfold SupervisedPass.closed at hclosed
              split at hclosed
              · rename_i rest offered hphase
                refine feed_enabled hphase (.inr ?_)
                rw [hsubscription]
                decide
              · cases hclosed

/-- **There is a next step** until the pass has returned. -/
theorem canStep_of_passing (h : Passing p s) (hdrives : DrivesItself p s)
    (hroom : 3 * (readyKeys p.scoped).length + 1 ≤ outputCapacity) :
    (∃ result, s.phase = .returned result) ∨ CanStep p s := by
  cases hunsent : s.unsent with
  | cons event rest =>
      have hspace := room_of_passing h hroom (by rw [hunsent]; exact List.cons_ne_nil _ _)
      refine .inr (canStep_of_isSome (a := .send) rfl ?_)
      simp only [SupervisedPass.step, SupervisedPass.send, hunsent, hspace, if_true,
        Option.isSome_some]
  | nil =>
      cases hended : s.owner.ended with
      | some report =>
          have hisSome : s.owner.ended.isSome = true := by rw [hended]; rfl
          exact canStep_of_done hdrives (SupervisedPass.loopDone_iff.mpr ⟨hisSome, hunsent⟩)
      | none =>
          exact .inr (canStep_of_listening (SupervisedPass.listening_iff.mpr ⟨hended, hunsent⟩))

theorem drivesItself_of_reach (h : (supervisedPass p).Reach always s) : DrivesItself p s := by
  refine h.invariant (fun s hs => ?_) fun s a s' _ hs _ hstep => hs.step (passStep_of_step hstep)
  rw [hs]
  intro fed hfed
  cases hfed

/-- **The pass returns.** While three events for each of its actions and the end fit into
the output queue, a pass that has not returned has a next step, of its own or of its Loop,
whatever has happened outside; and no run has more than 13 for each unit and 13. -/
theorem supervisedPass_returns (p : PassParams Json) (as : List PassAction)
    (s : SupervisedPass Json) (hroom : 3 * (readyKeys p.scoped).length + 1 ≤ outputCapacity)
    (hrun : (supervisedPass p).run as (.start p) = some s) :
    ((∃ result, s.phase = .returned result) ∨ CanStep p s) ∧
      as.countP PassAction.internal ≤ 13 * p.units.length + 13 := by
  have hreach : (supervisedPass p).Reach always s := System.run_reach (.init rfl) hrun
  refine ⟨canStep_of_passing (passing_of_reach hreach) (drivesItself_of_reach hreach) hroom, ?_⟩
  have hcount : as.countP PassAction.internal + s.stepsLeft ≤ (SupervisedPass.start p).stepsLeft :=
    System.run_countP_le (fun s a s' hstep => stepsLeft_step (passStep_of_step hstep)) hrun
  have hstart : (SupervisedPass.start p).stepsLeft = 13 * p.units.length + 13 := by
    have hlength : p.scoped.length = p.units.length := List.length_map _
    show 7 + (13 * p.scoped.length + 12 * 0) + 1 + 11 * 0 + 5 + 3 * 0 + 2 * 0 = _
    omega
  omega

theorem oneCallPass_returns : ∃ s, (supervisedPass oneCallPass).run oneCallRun (.start oneCallPass) =
      some s ∧ ((∃ result, s.phase = .returned result) ∨ CanStep oneCallPass s) := by
  obtain ⟨s, hrun⟩ := Option.isSome_iff_exists.mp
    (show ((supervisedPass oneCallPass).run oneCallRun (.start oneCallPass)).isSome = true by
      decide +kernel)
  exact ⟨s, hrun, (supervisedPass_returns oneCallPass oneCallRun s (by decide +kernel) hrun).1⟩

end Monoloop.Coordinator
