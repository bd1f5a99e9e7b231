import ConstantReply.Lifecycle.Shutdown
import ConstantReply.Proofs.Runs
import Mathlib.Data.List.Induction

/-!
# Operations on channels

Everything that can be done with channels, handles, receivers and tasks is one operation, and the
operations can follow one another in any order.  What they do is seen from outside as happenings:
triggers, subscriptions, what receivers are told, and the completion of events.
-/

namespace ConstantReply
namespace Signalling

/-!
## Operations and happenings
-/

inductive Operation where
  | create
  | share (handle : Nat)
  | dropHandle (handle : Nat)
  | trigger (handle : Nat)
  | subscribe (handle : Nat)
  | dropReceiver (rx : Nat)
  | receive (rx : Nat)
  | triggerWhen (handle : Nat)
  | complete (event : Nat) (output : String)
  | abort (event : Nat)
  | proceed (event : Nat)
  | join (event : Nat)
  deriving DecidableEq, Repr

def step? (s : Signalling) : Operation -> Option Signalling
  | .create => some s.create
  | .share handle => s.share? handle
  | .dropHandle handle => s.dropHandle? handle
  | .trigger handle => s.trigger? handle
  | .subscribe handle => s.subscribe? handle
  | .dropReceiver rx => s.dropReceiver? rx
  | .receive rx => (s.receive? rx).map Prod.snd
  | .triggerWhen handle => s.triggerWhen? handle
  | .complete event output => (s.completeEvent? event output).map Prod.snd
  | .abort event => s.abort? event
  | .proceed event => some (s.runTask event)
  | .join event => (s.join? event).map Prod.snd

inductive Happening where
  | triggered (channel : Nat) (task : Option Nat)
  | subscribed (rx : Nat) (channel : Nat)
  | received (rx : Nat) (reception : Reception)
  | completed (event : Nat) (output : String)
  | aborted (event : Nat)
  deriving DecidableEq, Repr

namespace Happening

def receiver? : Happening -> Option Nat
  | .subscribed rx _ => some rx
  | .received rx _ => some rx
  | _ => none

def task? : Happening -> Option Nat
  | .completed event _ => some event
  | .triggered _ task => task
  | _ => none

end Happening

def triggersOf (s : Signalling) (event : Nat) : List Happening :=
  match s.tasks[event]? with
  | none => []
  | some t =>
      List.replicate ((s.runTask event).sentOn t.channel - s.sentOn t.channel)
        (.triggered t.channel (some event))

def happenings (s : Signalling) : Operation -> List Happening
  | .trigger handle => ((s.channelOf? handle).map fun channel => .triggered channel none).toList
  | .subscribe handle => ((s.channelOf? handle).map (.subscribed s.receivers.length)).toList
  | .receive rx => ((s.receive? rx).map fun r => .received rx r.1).toList
  | .complete event output => [.completed event output]
  | .abort event => [.aborted event]
  | .proceed event => s.triggersOf event
  | _ => []

def run? (s : Signalling) : List Operation -> Option (Signalling × List Happening)
  | [] => some (s, [])
  | operation :: rest => do
      let next <- s.step? operation
      let (last, more) <- run? next rest
      some (last, s.happenings operation ++ more)

theorem run?_cons (s : Signalling) (operation : Operation) (rest : List Operation) :
    s.run? (operation :: rest) = (s.step? operation).bind fun t =>
      (t.run? rest).map fun v => (v.1, s.happenings operation ++ v.2) := by
  rw [run?]
  cases s.step? operation with
  | none => rfl
  | some t =>
      cases h : t.run? rest <;> simp [h]

theorem run?_concat {s u : Signalling} {operations : List Operation} {operation : Operation}
    {shown : List Happening} (h : s.run? (operations ++ [operation]) = some (u, shown)) :
    exists t front, s.run? operations = some (t, front) ∧ t.step? operation = some u ∧
      shown = front ++ t.happenings operation :=
  run_concat_of_steps step? (fun s operation _ => s.happenings operation) (fun _ => rfl) run?_cons h

/-!
## Channels that exist

Handles, receivers and tasks belong to channels that exist, and no receiver is ahead of its channel.
-/

structure Sound (s : Signalling) : Prop where
  handles : forall channel, some channel ∈ s.handles -> channel < s.sent.length
  receivers : forall rx r, s.receiver? rx = some r ->
    r.channel < s.sent.length ∧ r.seen ≤ s.sentOn r.channel
  tasks : forall (event : Nat) (t : TriggerTask), s.tasks[event]? = some t ->
    t.channel < s.sent.length

theorem sound_empty : Sound {} where
  handles := by simp
  receivers := by simp [receiver?]
  tasks := by simp

section

variable {s : Signalling} {channel handle : Nat}

theorem mem_handles_of_channelOf? (h : s.channelOf? handle = some channel) :
    some channel ∈ s.handles :=
  List.mem_of_getElem? (Option.join_eq_some_iff.mp h)

theorem sentOn_send (h : channel < s.sent.length) (c : Nat) :
    (s.send channel).sentOn c = s.sentOn c + if channel = c then 1 else 0 := by
  unfold send sentOn
  rw [List.getElem?_modify]
  by_cases hc : channel = c
  · subst hc
    simp [h]
  · simp [hc]

theorem sentOn_create (s : Signalling) (c : Nat) : s.create.sentOn c = s.sentOn c := by
  unfold create sentOn
  by_cases hc : c < s.sent.length
  · rw [List.getElem?_append_left hc]
  · have hle := Nat.le_of_not_lt hc
    rw [List.getElem?_append_right hle, List.getElem?_eq_none hle, List.getElem?_singleton]
    split <;> rfl

end

/-!
## What an operation does
-/

/-- What becomes of a task that does not trigger, and what that shows. -/
inductive Stage (event : Nat) (t : TriggerTask) : List Happening -> TriggerTask -> Prop where
  | completed {output : String} :
      t.event = .open ->
      Stage event t [.completed event output] { t with event := .completed output }
  | stopping : t.isLive = true -> Stage event t [.aborted event] { t with status := .stopping }
  | cancelled : t.status = .stopping -> Stage event t [] { t with status := .cancelled }
  | joined : t.isLive = false -> Stage event t [] { t with joined := true }
  | unaffected : t.isLive = false -> Stage event t [.aborted event] t

/-- What an operation shows and what it leaves behind. -/
inductive Effect (s : Signalling) : List Happening -> Signalling -> Prop where
  | created : Effect s [] s.create
  | held {handles : List (Option Nat)} :
      (forall channel, some channel ∈ handles -> some channel ∈ s.handles) ->
      Effect s [] { s with handles := handles }
  | triggered {channel : Nat} :
      channel < s.sent.length -> Effect s [.triggered channel none] (s.send channel)
  | subscribed {channel : Nat} :
      channel < s.sent.length ->
      Effect s [.subscribed s.receivers.length channel]
        { s with receivers := s.receivers ++ [some ⟨channel, s.sentOn channel⟩] }
  | unsubscribed (rx : Nat) : Effect s [] { s with receivers := s.receivers.set rx none }
  | received {rx : Nat} {r : Receiver} :
      s.receiver? rx = some r ->
      Effect s [.received rx (s.reception r).1]
        { s with receivers := s.receivers.set rx (some (s.reception r).2) }
  | begun {channel : Nat} :
      channel < s.sent.length ->
      Effect s [] { s with tasks := s.tasks ++ [⟨channel, .open, .waiting, false⟩] }
  | staged {event : Nat} {t t' : TriggerTask} {shown : List Happening} :
      s.tasks[event]? = some t -> Stage event t shown t' ->
      Effect s shown { s with tasks := s.tasks.set event t' }
  | fired {event : Nat} {t : TriggerTask} {output : String} :
      s.tasks[event]? = some t -> t.channel < s.sent.length -> t.status = .waiting ->
      t.event = .completed output ->
      Effect s [.triggered t.channel (some event)]
        { s.send t.channel with tasks := s.tasks.set event { t with status := .finished output } }

section

variable {s u : Signalling} {event : Nat} {t : TriggerTask}

theorem effect_idle : Effect s [] s := Effect.held (fun _ h => h)

theorem effect_of_unaffected (h : s.tasks[event]? = some t) (hlive : t.isLive = false) :
    Effect s [.aborted event] s := by
  have heffect : Effect s [.aborted event] { s with tasks := s.tasks.set event t } :=
    Effect.staged h (Stage.unaffected hlive)
  rcases List.getElem?_eq_some_iff.mp h with ⟨hevent, rfl⟩
  rw [List.set_getElem_self] at heffect
  exact heffect

theorem effect_of_channel {handle : Nat} {f : Nat -> Signalling} {shown : List Happening}
    (h : (s.channelOf? handle).map f = some u)
    (heffect : forall channel, s.channelOf? handle = some channel -> Effect s shown (f channel)) :
    Effect s shown u := by
  rcases Option.map_eq_some_iff.mp h with ⟨channel, hchannel, rfl⟩
  exact heffect channel hchannel

theorem triggersOf_of_task (h : s.tasks[event]? = some t) :
    s.triggersOf event = List.replicate ((s.runTask event).sentOn t.channel - s.sentOn t.channel)
      (.triggered t.channel (some event)) := by
  simp only [triggersOf, h]

theorem triggersOf_of_same (h : (s.runTask event).sent = s.sent) : s.triggersOf event = [] := by
  unfold triggersOf
  split
  · rfl
  · rw [sentOn, h, sentOn, Nat.sub_self, List.replicate_zero]

theorem runTask_of_completed {output : String} (ht : s.tasks[event]? = some t)
    (hstatus : t.status = .waiting) (hevent : t.event = .completed output) :
    s.runTask event = { s.send t.channel with
      tasks := s.tasks.set event { t with status := .finished output } } := by
  simp only [runTask, ht, hstatus, hevent]

theorem triggersOf_of_completed {output : String} (ht : s.tasks[event]? = some t)
    (hchannel : t.channel < s.sent.length) (hstatus : t.status = .waiting)
    (hevent : t.event = .completed output) :
    s.triggersOf event = [.triggered t.channel (some event)] := by
  have hsent : (s.runTask event).sentOn t.channel = s.sentOn t.channel + 1 := by
    have hsend := sentOn_send hchannel t.channel
    rw [if_pos rfl] at hsend
    rw [runTask_of_completed ht hstatus hevent]
    exact hsend
  rw [triggersOf_of_task ht, hsent, Nat.add_sub_cancel_left, List.replicate_one]

theorem effect_runTask (hs : s.Sound) : Effect s (s.triggersOf event) (s.runTask event) := by
  have hidle (hrun : s.runTask event = s) :
      Effect s (s.triggersOf event) (s.runTask event) := by
    rw [triggersOf_of_same (congrArg Signalling.sent hrun), hrun]
    exact effect_idle
  cases ht : s.tasks[event]? with
  | none => exact hidle (by simp only [runTask, ht])
  | some t =>
      have hchannel := hs.tasks event t ht
      cases hstatus : t.status with
      | finished output => exact hidle (by simp only [runTask, ht, hstatus])
      | cancelled => exact hidle (by simp only [runTask, ht, hstatus])
      | stopping =>
          have hrun : s.runTask event =
              { s with tasks := s.tasks.set event { t with status := .cancelled } } := by
            simp only [runTask, ht, hstatus]
          have hsent : (s.runTask event).sent = s.sent := by rw [hrun]
          rw [triggersOf_of_same hsent, hrun]
          exact Effect.staged ht (Stage.cancelled hstatus)
      | waiting =>
          cases hevent : t.event with
          | «open» => exact hidle (by simp only [runTask, ht, hstatus, hevent])
          | completed output =>
              rw [triggersOf_of_completed ht hchannel hstatus hevent,
                runTask_of_completed ht hstatus hevent]
              exact Effect.fired ht hchannel hstatus hevent

theorem effect_of_step (hs : s.Sound) {operation : Operation}
    (h : s.step? operation = some u) : Effect s (s.happenings operation) u := by
  have hexists {handle channel : Nat} (hchannel : s.channelOf? handle = some channel) :
      channel < s.sent.length := hs.handles channel (mem_handles_of_channelOf? hchannel)
  cases operation with
  | create =>
      cases h
      exact Effect.created
  | share handle =>
      apply effect_of_channel h
      intro channel hchannel
      apply Effect.held
      intro c hc
      rcases List.mem_append.mp hc with hold | hnew
      · exact hold
      · rw [List.mem_singleton.mp hnew]
        exact mem_handles_of_channelOf? hchannel
  | dropHandle handle =>
      apply effect_of_channel h
      intro channel hchannel
      apply Effect.held
      intro c hc
      rcases List.mem_or_eq_of_mem_set hc with hold | hnew
      · exact hold
      · cases hnew
  | trigger handle =>
      apply effect_of_channel h
      intro channel hchannel
      simp only [happenings, hchannel]
      exact Effect.triggered (hexists hchannel)
  | subscribe handle =>
      apply effect_of_channel h
      intro channel hchannel
      simp only [happenings, hchannel]
      exact Effect.subscribed (hexists hchannel)
  | dropReceiver rx =>
      rcases Option.map_eq_some_iff.mp h with ⟨r, _, rfl⟩
      exact Effect.unsubscribed rx
  | receive rx =>
      rcases Option.map_eq_some_iff.mp h with ⟨told, htold, rfl⟩
      rcases Option.map_eq_some_iff.mp htold with ⟨r, hr, rfl⟩
      simp only [happenings, receive?, hr]
      exact Effect.received hr
  | triggerWhen handle =>
      apply effect_of_channel h
      intro channel hchannel
      exact Effect.begun (hexists hchannel)
  | complete event output =>
      rcases Option.map_eq_some_iff.mp h with ⟨answer, hanswer, rfl⟩
      rcases Option.map_eq_some_iff.mp hanswer with ⟨t, ht, rfl⟩
      rcases Option.filter_eq_some_iff.mp ht with ⟨ht, hopen⟩
      exact Effect.staged ht (Stage.completed (of_decide_eq_true hopen))
  | abort event =>
      rcases Option.map_eq_some_iff.mp h with ⟨t, ht, rfl⟩
      rcases Option.filter_eq_some_iff.mp ht with ⟨ht, _⟩
      by_cases hlive : t.isLive = true
      · rw [if_pos hlive]
        exact Effect.staged ht (Stage.stopping hlive)
      · rw [if_neg hlive]
        exact effect_of_unaffected ht (Bool.not_eq_true _ ▸ hlive)
  | proceed event =>
      cases h
      exact effect_runTask hs
  | join event =>
      rcases Option.map_eq_some_iff.mp h with ⟨answer, hanswer, rfl⟩
      rcases Option.map_eq_some_iff.mp hanswer with ⟨t, ht, rfl⟩
      rcases Option.filter_eq_some_iff.mp ht with ⟨ht, _⟩
      by_cases hlive : t.isLive = true
      · rw [if_pos hlive]
        exact effect_idle
      · rw [if_neg hlive]
        exact Effect.staged ht (Stage.joined (Bool.not_eq_true _ ▸ hlive))

end

/-!
## Channels go on existing
-/

section

variable {s u : Signalling} {shown : List Happening}

def triggersOn (channel : Nat) (shown : List Happening) : Nat :=
  shown.countP fun happening =>
    match happening with
    | .triggered c _ => c == channel
    | _ => false

theorem triggersOn_append (channel : Nat) (front back : List Happening) :
    triggersOn channel (front ++ back) = triggersOn channel front + triggersOn channel back :=
  List.countP_append

theorem triggersOn_triggered (channel c : Nat) (task : Option Nat) :
    triggersOn c [.triggered channel task] = if channel = c then 1 else 0 := by
  by_cases hc : channel = c <;> simp [triggersOn, hc]

theorem sentOn_of_effect (h : Effect s shown u) (channel : Nat) :
    u.sentOn channel = s.sentOn channel + triggersOn channel shown := by
  cases h with
  | created => exact sentOn_create s channel
  | triggered hchannel =>
      rw [triggersOn_triggered]
      exact sentOn_send hchannel channel
  | fired _ hchannel _ _ =>
      rw [triggersOn_triggered]
      exact sentOn_send hchannel channel
  | staged _ hstage =>
      cases hstage <;> rfl
  | _ => rfl

theorem length_sent_of_effect (h : Effect s shown u) : s.sent.length ≤ u.sent.length := by
  cases h with
  | created => simp [create]
  | triggered _ => simp [send]
  | fired _ _ _ _ => simp [send]
  | _ => exact Nat.le_refl _

/-!
## What receivers and tasks come to
-/

/-- Where a receiver comes from. -/
inductive Hears (s : Signalling) (rx : Nat) (shown : List Happening) (r : Receiver) : Prop where
  | subscribed :
      rx = s.receivers.length -> shown = [.subscribed rx r.channel] ->
      r.channel < s.sent.length -> r.seen = s.sentOn r.channel -> Hears s rx shown r
  | received (old : Receiver) :
      s.receiver? rx = some old -> shown = [.received rx (s.reception old).1] ->
      r = (s.reception old).2 -> Hears s rx shown r
  | nothing :
      s.receiver? rx = some r ->
      (forall happening, happening ∈ shown -> happening.receiver? ≠ some rx) ->
      Hears s rx shown r

theorem hears_of_effect (h : Effect s shown u) {rx : Nat} {r : Receiver}
    (hr : u.receiver? rx = some r) : Hears s rx shown r := by
  cases h with
  | @subscribed channel hchannel =>
      unfold receiver? at hr
      by_cases hrx : rx < s.receivers.length
      · rw [List.getElem?_append_left hrx] at hr
        apply Hears.nothing hr
        simp [Happening.receiver?, Nat.ne_of_gt hrx]
      · rw [List.getElem?_append_right (Nat.le_of_not_lt hrx), List.getElem?_singleton] at hr
        split at hr
        · cases hr
          have hlast : rx = s.receivers.length := by omega
          subst hlast
          exact Hears.subscribed rfl rfl hchannel rfl
        · cases hr
  | unsubscribed gone =>
      unfold receiver? at hr
      rw [List.getElem?_set] at hr
      split at hr
      · split at hr <;> cases hr
      · exact Hears.nothing hr (by simp)
  | @received told old hold =>
      unfold receiver? at hr
      rw [List.getElem?_set] at hr
      split at hr
      · rename_i hrx
        subst hrx
        split at hr
        · cases hr
          exact Hears.received old hold rfl rfl
        · cases hr
      · rename_i hrx
        apply Hears.nothing hr
        simpa [Happening.receiver?] using hrx
  | staged _ hstage =>
      have hold : s.receiver? rx = some r := hr
      apply Hears.nothing hold
      cases hstage <;> simp [Happening.receiver?]
  | _ =>
      have hold : s.receiver? rx = some r := hr
      exact Hears.nothing hold (by simp [Happening.receiver?])

/-- Where a task comes from. -/
inductive Develops (s : Signalling) (event : Nat) (shown : List Happening) (t : TriggerTask) :
    Prop where
  | begun :
      event = s.tasks.length -> shown = [] -> t.channel < s.sent.length ->
      t = { channel := t.channel } -> Develops s event shown t
  | staged (old : TriggerTask) :
      s.tasks[event]? = some old -> Stage event old shown t -> Develops s event shown t
  | fired (old : TriggerTask) (output : String) :
      s.tasks[event]? = some old -> old.status = .waiting -> old.event = .completed output ->
      shown = [.triggered old.channel (some event)] ->
      t = { old with status := .finished output } -> Develops s event shown t
  | nothing :
      s.tasks[event]? = some t ->
      (forall happening, happening ∈ shown -> happening.task? ≠ some event) ->
      Develops s event shown t

theorem develops_of_effect (h : Effect s shown u) {event : Nat} {t : TriggerTask}
    (ht : u.tasks[event]? = some t) : Develops s event shown t := by
  cases h with
  | @begun channel hchannel =>
      by_cases hevent : event < s.tasks.length
      · rw [List.getElem?_append_left hevent] at ht
        exact Develops.nothing ht (by simp)
      · rw [List.getElem?_append_right (Nat.le_of_not_lt hevent), List.getElem?_singleton] at ht
        split at ht
        · cases ht
          exact Develops.begun (by omega) rfl hchannel rfl
        · cases ht
  | @staged other old t' _ hold hstage =>
      rw [List.getElem?_set] at ht
      split at ht
      · rename_i hevent
        subst hevent
        split at ht
        · cases ht
          exact Develops.staged old hold hstage
        · cases ht
      · rename_i hevent
        apply Develops.nothing ht
        cases hstage <;> simp [Happening.task?, hevent]
  | @fired other old output hold hchannel hstatus hevent =>
      rw [List.getElem?_set] at ht
      split at ht
      · rename_i hother
        subst hother
        split at ht
        · cases ht
          exact Develops.fired old output hold hstatus hevent rfl rfl
        · cases ht
      · rename_i hother
        apply Develops.nothing ht
        simpa [Happening.task?] using hother
  | _ => exact Develops.nothing ht (by simp [Happening.task?])

theorem seen_reception {r : Receiver} (h : r.seen ≤ s.sentOn r.channel) :
    (s.reception r).2.channel = r.channel ∧ (s.reception r).2.seen ≤ s.sentOn r.channel := by
  unfold reception
  dsimp only
  split
  · exact ⟨rfl, h⟩
  · split
    · exact ⟨rfl, Nat.le_refl _⟩
    · exact ⟨rfl, Nat.sub_le _ _⟩

theorem sound_of_effect (hs : s.Sound) (h : Effect s shown u) : u.Sound where
  handles := by
    intro channel hchannel
    have hlength := length_sent_of_effect h
    cases h with
    | created =>
        rcases List.mem_append.mp hchannel with hold | hnew
        · exact Nat.lt_of_lt_of_le (hs.handles channel hold) hlength
        · cases List.mem_singleton.mp hnew
          simp [create]
    | held hhandles => exact hs.handles channel (hhandles channel hchannel)
    | _ => exact Nat.lt_of_lt_of_le (hs.handles channel hchannel) hlength
  receivers := by
    intro rx r hr
    have hlength := length_sent_of_effect h
    have hsent := sentOn_of_effect h r.channel
    cases hears_of_effect h hr with
    | subscribed _ _ hchannel hseen => exact ⟨by omega, by omega⟩
    | nothing hold _ =>
        have := hs.receivers rx r hold
        exact ⟨by omega, by omega⟩
    | received old hold _ hreception =>
        have hbounds := hs.receivers rx old hold
        have hseen := seen_reception hbounds.right
        rw [← hreception] at hseen
        rw [hseen.left] at hsent ⊢
        exact ⟨by omega, by omega⟩
  tasks := by
    intro event t ht
    apply Nat.lt_of_lt_of_le _ (length_sent_of_effect h)
    cases develops_of_effect h ht with
    | begun _ _ hchannel _ => exact hchannel
    | staged old hold hstage =>
        have hchannel := hs.tasks event old hold
        cases hstage <;> exact hchannel
    | fired old output hold _ _ _ heq =>
        rw [heq]
        exact hs.tasks event old hold
    | nothing hold _ => exact hs.tasks event t hold

end

end Signalling
end ConstantReply
