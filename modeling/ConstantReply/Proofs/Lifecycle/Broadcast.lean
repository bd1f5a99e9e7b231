import ConstantReply.Proofs.Lifecycle.Operations
import Mathlib.Algebra.GroupWithZero.Nat

/-!
# Nothing is lost on a channel

What a receiver has heard, what it was told it had missed, and what it has yet to be told of make
up the triggers on its channel since it subscribed, whatever the order of the operations.  A task
triggers its channel once, after its event.
-/

namespace ConstantReply

def Reception.missed : Reception -> Nat
  | .lagged n => n
  | _ => 0

namespace Signalling

/-!
## What receivers are told
-/

def receptions (rx : Nat) (shown : List Happening) : List Reception :=
  shown.filterMap fun happening =>
    match happening with
    | .received r reception => if r = rx then some reception else none
    | _ => none

def accounted (told : List Reception) : Nat :=
  told.count .fired + (told.map Reception.missed).sum

def Since (rx channel : Nat) (shown since : List Happening) : Prop :=
  exists before, shown = before ++ .subscribed rx channel :: since ∧
    forall happening, happening ∈ before -> happening.receiver? ≠ some rx

section

variable {rx channel : Nat} {shown more since : List Happening}

theorem receptions_append (rx : Nat) (shown more : List Happening) :
    receptions rx (shown ++ more) = receptions rx shown ++ receptions rx more :=
  List.filterMap_append

theorem receptions_eq_nil
    (h : forall happening, happening ∈ shown -> happening.receiver? ≠ some rx) :
    receptions rx shown = [] := by
  unfold receptions
  rw [List.filterMap_eq_nil_iff]
  intro happening hmem
  have hrx := h happening hmem
  cases happening with
  | received r reception =>
      have hr : r ≠ rx := fun hr => hrx (congrArg some hr)
      exact if_neg hr
  | _ => rfl

theorem receptions_received (rx : Nat) (reception : Reception) :
    receptions rx [.received rx reception] = [reception] := by
  simp [receptions]

theorem accounted_append (told more : List Reception) :
    accounted (told ++ more) = accounted told + accounted more := by
  unfold accounted
  rw [List.count_append, List.map_append, List.sum_append]
  omega

theorem Since.append (h : Since rx channel shown since) (more : List Happening) :
    Since rx channel (shown ++ more) (since ++ more) := by
  rcases h with ⟨before, rfl, hbefore⟩
  exact ⟨before, by simp, hbefore⟩

end

section

variable {s : Signalling} {r : Receiver}

theorem seen_add_accounted (h : r.seen ≤ s.sentOn r.channel) :
    (s.reception r).2.seen = r.seen + accounted [(s.reception r).1] := by
  unfold reception
  dsimp only
  split
  · cases s.hasSender r.channel <;> rfl
  · split
    · show s.sentOn r.channel = r.seen + 1
      omega
    · show s.sentOn r.channel - 1 = r.seen + (0 + (s.sentOn r.channel - r.seen - 1 + 0))
      omega

end

/-!
## What tasks do
-/

def about (event : Nat) (shown : List Happening) : List Happening :=
  shown.filter fun happening => happening.task? = some event

def story (event : Nat) (t : TriggerTask) : List Happening :=
  (match t.event with
    | .open => []
    | .completed output => [.completed event output]) ++
  (match t.status with
    | .finished _ => [.triggered t.channel (some event)]
    | _ => [])

structure Chronicle (shown : List Happening) (event : Nat) (t : TriggerTask) : Prop where
  told : about event shown = story event t
  produced : forall output, t.status = .finished output -> t.event = .completed output
  ended : t.joined = true -> t.isLive = false
  going : .aborted event ∉ shown ->
    t.status = .waiting ∨ exists output, t.status = .finished output

section

variable {shown more : List Happening} {event : Nat} {t : TriggerTask}

theorem about_append (event : Nat) (shown more : List Happening) :
    about event (shown ++ more) = about event shown ++ about event more :=
  List.filter_append shown more

theorem about_eq_nil (h : forall happening, happening ∈ shown -> happening.task? ≠ some event) :
    about event shown = [] := by
  unfold about
  rw [List.filter_eq_nil_iff]
  intro happening hmem
  simpa using h happening hmem

theorem Chronicle.append_nothing (h : Chronicle shown event t)
    (hmore : forall happening, happening ∈ more -> happening.task? ≠ some event) :
    Chronicle (shown ++ more) event t where
  told := by rw [about_append, about_eq_nil hmore, List.append_nil, h.told]
  produced := h.produced
  ended := h.ended
  going := fun hnot => h.going fun hmem => hnot (List.mem_append_left _ hmem)

theorem chronicle_begun {channel : Nat}
    (h : forall happening, happening ∈ shown -> happening.task? ≠ some event) :
    Chronicle shown event { channel := channel } where
  told := about_eq_nil h
  produced := fun _ hstatus => by cases hstatus
  ended := fun hjoined => by cases hjoined
  going := fun _ => Or.inl rfl

theorem Chronicle.append_stage {t' : TriggerTask} (h : Chronicle shown event t)
    (hstage : Stage event t more t') : Chronicle (shown ++ more) event t' := by
  have hbefore {happening : Happening} (hnot : happening ∉ shown ++ more) : happening ∉ shown :=
    fun hmem => hnot (List.mem_append_left _ hmem)
  have htold := h.told
  cases hstage with
  | completed hopen =>
      have hunfinished (output : String) : t.status ≠ .finished output := by
        intro hstatus
        rw [h.produced output hstatus] at hopen
        cases hopen
      refine ⟨?_, fun output hstatus => absurd hstatus (hunfinished output), h.ended,
        fun hnot => h.going (hbefore hnot)⟩
      rw [about_append, htold]
      unfold story
      rw [hopen]
      cases hstatus : t.status with
      | finished output => exact absurd hstatus (hunfinished output)
      | _ => simp [about, Happening.task?]
  | stopping hlive =>
      refine ⟨?_, fun _ hstatus => (by cases hstatus), fun hjoined => ?_,
        fun hnot => absurd (List.mem_append_right _ List.mem_cons_self) hnot⟩
      · rw [about_append, htold]
        unfold story
        cases hstatus : t.status with
        | finished output => simp [TriggerTask.isLive, hstatus] at hlive
        | _ => simp [about, Happening.task?]
      · rw [h.ended hjoined] at hlive
        cases hlive
  | cancelled hstopping =>
      refine ⟨?_, fun _ hstatus => (by cases hstatus), fun _ => rfl, fun hnot => ?_⟩
      · rw [List.append_nil, htold]
        unfold story
        rw [hstopping]
      · rcases h.going (hbefore hnot) with hstatus | ⟨output, hstatus⟩
        · rw [hstopping] at hstatus
          cases hstatus
        · rw [hstopping] at hstatus
          cases hstatus
  | joined hended =>
      refine ⟨?_, h.produced, fun _ => hended, fun hnot => h.going (hbefore hnot)⟩
      rw [List.append_nil]
      exact htold
  | unaffected hended =>
      exact h.append_nothing (by simp [Happening.task?])

theorem Chronicle.append_fired {output : String} (h : Chronicle shown event t)
    (hstatus : t.status = .waiting) (hevent : t.event = .completed output) :
    Chronicle (shown ++ [.triggered t.channel (some event)]) event
      { t with status := .finished output } where
  told := by
    rw [about_append, h.told]
    unfold story
    rw [hevent, hstatus]
    simp [about, Happening.task?]
  produced := by
    intro other hother
    cases hother
    exact hevent
  ended := fun _ => rfl
  going := fun _ => Or.inr ⟨output, rfl⟩

end

/-!
## Histories
-/

def Balanced (s : Signalling) (shown : List Happening) (rx : Nat) (r : Receiver) : Prop :=
  exists since, Since rx r.channel shown since ∧
    accounted (receptions rx shown) + (s.sentOn r.channel - r.seen) = triggersOn r.channel since

structure History (shown : List Happening) (s : Signalling) : Prop where
  sound : s.Sound
  noReceiver : forall rx, s.receivers.length ≤ rx ->
    forall happening, happening ∈ shown -> happening.receiver? ≠ some rx
  receivers : forall rx r, s.receiver? rx = some r -> s.Balanced shown rx r
  noTask : forall event, s.tasks.length ≤ event ->
    forall happening, happening ∈ shown -> happening.task? ≠ some event
  tasks : forall (event : Nat) (t : TriggerTask), s.tasks[event]? = some t ->
    Chronicle shown event t

theorem history_empty : History [] {} where
  sound := sound_empty
  noReceiver := by simp
  receivers := by simp [receiver?]
  noTask := by simp
  tasks := by simp

section

variable {s u : Signalling} {shown more : List Happening} {rx : Nat} {r : Receiver}

theorem lt_of_receiver? (h : s.receiver? rx = some r) : rx < s.receivers.length :=
  (List.getElem?_eq_some_iff.mp (Option.join_eq_some_iff.mp h)).1

theorem receiver_lt_of_effect (h : Effect s more u) :
    s.receivers.length ≤ u.receivers.length ∧
      forall happening, happening ∈ more -> forall rx, happening.receiver? = some rx ->
        rx < u.receivers.length := by
  cases h with
  | subscribed hchannel => simp [Happening.receiver?]
  | @received told old hold =>
      have htold := lt_of_receiver? hold
      simpa [Happening.receiver?] using htold
  | unsubscribed => simp
  | staged _ hstage => cases hstage <;> simp [Happening.receiver?]
  | _ => simp [Happening.receiver?, create, send]

theorem task_lt_of_effect (h : Effect s more u) :
    s.tasks.length ≤ u.tasks.length ∧
      forall happening, happening ∈ more -> forall event, happening.task? = some event ->
        event < u.tasks.length := by
  cases h with
  | staged hold hstage =>
      have hevent := (List.getElem?_eq_some_iff.mp hold).1
      cases hstage <;> simp [Happening.task?, hevent]
  | fired hold _ _ _ =>
      have hevent := (List.getElem?_eq_some_iff.mp hold).1
      simpa [Happening.task?] using hevent
  | _ => simp [Happening.task?, create, send]

theorem balanced_of_effect (hs : History shown s) (h : Effect s more u)
    (hr : u.receiver? rx = some r) : u.Balanced (shown ++ more) rx r := by
  have hsent := sentOn_of_effect h r.channel
  cases hears_of_effect h hr with
  | subscribed hrx hmore _ hseen =>
      have hnone := hs.noReceiver rx (Nat.le_of_eq hrx.symm)
      refine ⟨[], ⟨shown, by rw [hmore], hnone⟩, ?_⟩
      have htold : receptions rx (shown ++ more) = [] := by
        rw [receptions_append, receptions_eq_nil hnone, hmore]
        rfl
      have hquiet : triggersOn r.channel more = 0 := by rw [hmore]; rfl
      rw [htold, hsent, hquiet, hseen, Nat.add_zero, Nat.sub_self]
      rfl
  | nothing hold hmore =>
      rcases hs.receivers rx r hold with ⟨since, hsince, hbalance⟩
      have hseen := (hs.sound.receivers rx r hold).right
      refine ⟨since ++ more, hsince.append more, ?_⟩
      rw [receptions_append, receptions_eq_nil hmore, List.append_nil, triggersOn_append, hsent]
      omega
  | received old hold hmore heq =>
      rcases hs.receivers rx old hold with ⟨since, hsince, hbalance⟩
      have hbound := (hs.sound.receivers rx old hold).right
      have hchannel : old.channel = r.channel := by rw [heq, (seen_reception hbound).left]
      have hseen : r.seen = old.seen + accounted [(s.reception old).1] := by
        rw [heq, seen_add_accounted hbound]
      have hle : r.seen ≤ s.sentOn old.channel := by
        rw [heq]
        exact (seen_reception hbound).right
      have hquiet : triggersOn r.channel more = 0 := by rw [hmore]; rfl
      rw [hchannel] at hsince hbalance hle hbound
      refine ⟨since ++ more, hsince.append more, ?_⟩
      have htold : receptions rx (shown ++ more) =
          receptions rx shown ++ [(s.reception old).1] := by
        rw [hmore, receptions_append, receptions_received]
      rw [htold, accounted_append, triggersOn_append, hsent, hquiet]
      omega

theorem chronicle_of_effect (hs : History shown s) (h : Effect s more u) {event : Nat}
    {t : TriggerTask} (ht : u.tasks[event]? = some t) : Chronicle (shown ++ more) event t := by
  cases develops_of_effect h ht with
  | begun hevent hmore _ heq =>
      rw [hmore, List.append_nil, heq]
      exact chronicle_begun (hs.noTask event (Nat.le_of_eq hevent.symm))
  | staged old hold hstage => exact (hs.tasks event old hold).append_stage hstage
  | fired old output hold hstatus hevent hmore heq =>
      rw [hmore, heq]
      exact (hs.tasks event old hold).append_fired hstatus hevent
  | nothing hold hmore => exact (hs.tasks event t hold).append_nothing hmore

theorem history_of_effect (hs : History shown s) (h : Effect s more u) :
    History (shown ++ more) u where
  sound := sound_of_effect hs.sound h
  noReceiver := by
    intro rx hrx happening hmem hreceiver
    rcases receiver_lt_of_effect h with ⟨hlength, hmore⟩
    rcases List.mem_append.mp hmem with hmem | hmem
    · exact hs.noReceiver rx (Nat.le_trans hlength hrx) happening hmem hreceiver
    · exact Nat.not_lt.mpr hrx (hmore happening hmem rx hreceiver)
  receivers := fun rx r hr => balanced_of_effect hs h hr
  noTask := by
    intro event hevent happening hmem htask
    rcases task_lt_of_effect h with ⟨hlength, hmore⟩
    rcases List.mem_append.mp hmem with hmem | hmem
    · exact hs.noTask event (Nat.le_trans hlength hevent) happening hmem htask
    · exact Nat.not_lt.mpr hevent (hmore happening hmem event htask)
  tasks := fun event t ht => chronicle_of_effect hs h ht

end

theorem history_of_run {operations : List Operation} {s : Signalling} {shown : List Happening}
    (h : run? {} operations = some (s, shown)) : History shown s := by
  induction operations using List.reverseRecOn generalizing s shown with
  | nil =>
      cases h
      exact history_empty
  | append_singleton operations operation ih =>
      rcases run?_concat h with ⟨t, front, hfront, hstep, rfl⟩
      have hs := ih hfront
      exact history_of_effect hs (effect_of_step hs.sound hstep)

/-!
## What comes next
-/

def Attached (s : Signalling) (channel : Nat) : Prop :=
  (exists handle, s.channelOf? handle = some channel) ∨
    exists (event : Nat) (t : TriggerTask), s.tasks[event]? = some t ∧ t.channel = channel ∧
      t.isLive = true

structure Expects (s : Signalling) (rx channel unaccounted : Nat) : Prop where
  told : ((exists t, s.receive? rx = some (.fired, t)) ∨
      exists missed t, s.receive? rx = some (.lagged missed, t)) <-> 0 < unaccounted
  lagged : forall missed t, s.receive? rx = some (.lagged missed, t) ->
    0 < missed ∧ missed + 1 = unaccounted
  heard : 0 < unaccounted -> (exists t, s.receive? rx = some (.fired, t)) ∨
    exists missed t u, s.receive? rx = some (.lagged missed, t) ∧
      t.receive? rx = some (.fired, u)
  closed : (exists t, s.receive? rx = some (.closed, t)) <->
    unaccounted = 0 ∧ ¬ s.Attached channel

section

variable {s : Signalling} {rx channel : Nat} {r : Receiver}

theorem hasSender_eq_true_iff : s.hasSender channel = true <-> s.Attached channel := by
  unfold hasSender Attached
  rw [Bool.or_eq_true, List.any_eq_true, List.contains_iff_mem]
  apply or_congr
  · rw [List.mem_iff_getElem?]
    simp only [channelOf?, Option.join_eq_some_iff]
  · constructor
    · intro h
      rcases h with ⟨t, ht, hlive⟩
      rcases List.mem_iff_getElem?.mp ht with ⟨event, hevent⟩
      rw [Bool.and_eq_true, beq_iff_eq] at hlive
      exact ⟨event, t, hevent, hlive⟩
    · intro h
      rcases h with ⟨event, t, hevent, hchannel, hlive⟩
      exact ⟨t, List.mem_of_getElem? hevent, by simp [hchannel, hlive]⟩

theorem exists_receive? (h : s.receiver? rx = some r) :
    exists t, s.receive? rx = some ((s.reception r).1, t) ∧
      t.receiver? rx = some (s.reception r).2 ∧ forall r', t.reception r' = s.reception r' := by
  refine ⟨{ s with receivers := s.receivers.set rx (some (s.reception r).2) }, ?_, ?_,
    fun _ => rfl⟩
  · rw [receive?, h]
    rfl
  · unfold receiver?
    rw [List.getElem?_set_self (lt_of_receiver? h)]
    rfl

theorem exists_receive?_iff (h : s.receiver? rx = some r) (reception : Reception) :
    (exists t, s.receive? rx = some (reception, t)) <-> (s.reception r).1 = reception := by
  rcases exists_receive? h with ⟨t, ht, _⟩
  rw [ht]
  constructor
  · intro hgiven
    rcases hgiven with ⟨u, hu⟩
    cases hu
    rfl
  · rintro rfl
    exact ⟨t, rfl⟩

theorem reception_of_none (h : s.sentOn r.channel - r.seen = 0) :
    (s.reception r).1 = if s.hasSender r.channel then .nothing else .closed := by
  simp only [reception, h, if_true]

theorem reception_of_one (h : s.sentOn r.channel - r.seen = 1) :
    (s.reception r).1 = .fired := by
  simp only [reception, h, if_true]
  rfl

theorem reception_of_more {n : Nat} (h : s.sentOn r.channel - r.seen = n + 2) :
    s.reception r = (.lagged (n + 1), { r with seen := s.sentOn r.channel - 1 }) := by
  simp only [reception, h]
  rfl

theorem expects_of_receiver (h : s.receiver? rx = some r) :
    Expects s rx r.channel (s.sentOn r.channel - r.seen) := by
  rcases hunread : s.sentOn r.channel - r.seen with _ | _ | n
  · have hnone := reception_of_none hunread
    constructor
    · simp only [exists_receive?_iff h, hnone]
      cases s.hasSender r.channel <;> simp
    · intro missed t ht
      have hlagged := (exists_receive?_iff h _).mp ⟨t, ht⟩
      rw [hnone] at hlagged
      cases hsender : s.hasSender r.channel <;> simp [hsender] at hlagged
    · intro hpos
      cases hpos
    · rw [exists_receive?_iff h, hnone, ← hasSender_eq_true_iff]
      cases s.hasSender r.channel <;> simp
  · have hone := reception_of_one hunread
    constructor
    · simp [exists_receive?_iff h, hone]
    · intro missed t ht
      have hlagged := (exists_receive?_iff h _).mp ⟨t, ht⟩
      rw [hone] at hlagged
      cases hlagged
    · intro _
      exact Or.inl ((exists_receive?_iff h _).mpr hone)
    · simp [exists_receive?_iff h, hone]
  · have hmore := reception_of_more hunread
    have hfirst := congrArg Prod.fst hmore
    constructor
    · simp [exists_receive?_iff h, hfirst]
    · intro missed t ht
      have hlagged := (exists_receive?_iff h _).mp ⟨t, ht⟩
      rw [hfirst] at hlagged
      cases hlagged
      exact ⟨Nat.succ_pos n, rfl⟩
    · intro _
      rcases exists_receive? h with ⟨t, ht, hnext, hsame⟩
      rw [hmore] at ht hnext
      have hone : s.sentOn r.channel - (s.sentOn r.channel - 1) = 1 := by omega
      have hfired : (t.reception { r with seen := s.sentOn r.channel - 1 }).1 = .fired := by
        rw [hsame]
        exact reception_of_one hone
      rcases (exists_receive?_iff hnext _).mpr hfired with ⟨u, hu⟩
      exact Or.inr ⟨n + 1, t, u, ht, hu⟩
    · simp [exists_receive?_iff h, hfirst]

end

structure Errand (shown : List Happening) (s : Signalling) (event : Nat) (t : TriggerTask) :
    Prop where
  stages : about event shown = [] ∨ exists output,
    about event shown = [.completed event output] ∨
      about event shown = [.completed event output, .triggered t.channel (some event)]
  triggers : .aborted event ∉ shown -> forall output,
    about event shown = [.completed event output] ->
      s.happenings (.proceed event) = [.triggered t.channel (some event)] ∧
        exists u, (s.runTask event).join? event = some (.finished output, u)
  yields : forall output, (exists u, s.join? event = some (.finished output, u)) <->
    t.joined = false ∧
      about event shown = [.completed event output, .triggered t.channel (some event)]

section

variable {s : Signalling} {shown : List Happening} {event : Nat} {t : TriggerTask}

theorem exists_join?_iff (h : s.tasks[event]? = some t) (status : TaskStatus) :
    (exists u, s.join? event = some (status, u)) <-> t.joined = false ∧ t.status = status := by
  unfold join? task?
  rw [h]
  cases hjoined : t.joined with
  | true => simp [hjoined]
  | false =>
      cases hlive : t.isLive <;> simp [hjoined, hlive]

theorem story_cases
    (h : forall output, t.status = .finished output -> t.event = .completed output) :
    (t.event = .open ∧ story event t = []) ∨
      exists output, t.event = .completed output ∧
        ((story event t = [.completed event output] ∧ forall other, t.status ≠ .finished other) ∨
          (story event t = [.completed event output, .triggered t.channel (some event)] ∧
            t.status = .finished output)) := by
  unfold story
  cases hevent : t.event with
  | «open» =>
      refine Or.inl ⟨rfl, ?_⟩
      cases hstatus : t.status with
      | finished output =>
          rw [h output hstatus] at hevent
          cases hevent
      | _ => rfl
  | completed output =>
      refine Or.inr ⟨output, rfl, ?_⟩
      cases hstatus : t.status with
      | finished other =>
          rw [h other hstatus] at hevent
          cases hevent
          exact Or.inr ⟨rfl, rfl⟩
      | _ => exact Or.inl ⟨rfl, by simp⟩

theorem errand_of_chronicle (h : Chronicle shown event t) (ht : s.tasks[event]? = some t)
    (hs : s.Sound) : Errand shown s event t where
  stages := by
    rw [h.told]
    rcases story_cases h.produced with ⟨_, hstory⟩ | ⟨output, _, ⟨hstory, _⟩ | ⟨hstory, _⟩⟩
    · exact Or.inl hstory
    · exact Or.inr ⟨output, Or.inl hstory⟩
    · exact Or.inr ⟨output, Or.inr hstory⟩
  triggers := by
    intro hgoing output htold
    rw [h.told] at htold
    rcases story_cases h.produced with
      ⟨_, hstory⟩ | ⟨made, hevent, ⟨hstory, hrunning⟩ | ⟨hstory, _⟩⟩
    · rw [hstory] at htold
      cases htold
    · rw [hstory] at htold
      cases htold
      have hstatus : t.status = .waiting := by
        rcases h.going hgoing with hwaiting | ⟨other, hfinished⟩
        · exact hwaiting
        · exact absurd hfinished (hrunning other)
      have hjoined : t.joined = false := by
        cases hjoined : t.joined with
        | false => rfl
        | true =>
            have hended := h.ended hjoined
            simp [TriggerTask.isLive, hstatus] at hended
      refine ⟨triggersOf_of_completed ht (hs.tasks event t ht) hstatus hevent, ?_⟩
      have hdone : (s.runTask event).tasks[event]? =
          some { t with status := .finished output } := by
        rw [runTask_of_completed ht hstatus hevent]
        exact List.getElem?_set_self (List.getElem?_eq_some_iff.mp ht).1
      exact (exists_join?_iff hdone _).mpr ⟨hjoined, rfl⟩
    · rw [hstory] at htold
      cases htold
  yields := by
    intro output
    rw [exists_join?_iff ht, h.told]
    apply and_congr_right
    intro _
    rcases story_cases h.produced with
      ⟨hevent, hstory⟩ | ⟨made, _, ⟨hstory, hrunning⟩ | ⟨hstory, hstatus⟩⟩
    · rw [hstory]
      constructor
      · intro hfinished
        rw [h.produced output hfinished] at hevent
        cases hevent
      · intro hnil
        cases hnil
    · rw [hstory]
      constructor
      · intro hfinished
        exact absurd hfinished (hrunning output)
      · intro hlonger
        cases hlonger
    · rw [hstory, hstatus]
      simp

/-- What holds after any operations. -/
structure Broadcasts (shown : List Happening) (s : Signalling) : Prop where
  receivers : forall rx r, s.receiver? rx = some r -> exists since unaccounted,
    Since rx r.channel shown since ∧
      (receptions rx shown).count .fired + ((receptions rx shown).map Reception.missed).sum +
        unaccounted = triggersOn r.channel since ∧
      Expects s rx r.channel unaccounted
  tasks : forall (event : Nat) (t : TriggerTask), s.tasks[event]? = some t ->
    Errand shown s event t

/-- Whatever is done with channels in whatever order, every receiver can account for every trigger
since it subscribed, and every task runs its errand once. -/
theorem broadcasts_of_run {operations : List Operation}
    (h : run? {} operations = some (s, shown)) : Broadcasts shown s := by
  have hhistory := history_of_run h
  constructor
  · intro rx r hr
    rcases hhistory.receivers rx r hr with ⟨since, hsince, hbalance⟩
    exact ⟨since, _, hsince, hbalance, expects_of_receiver hr⟩
  · intro event t ht
    exact errand_of_chronicle (hhistory.tasks event t ht) ht hhistory.sound

theorem broadcasts_of_two_receivers :
    let operations : List Operation := [.create, .subscribe 0, .trigger 0, .trigger 0,
      .triggerWhen 0, .subscribe 0, .receive 0, .receive 0, .dropHandle 0,
      .complete 0 "SIGTERM", .receive 1, .proceed 0, .receive 1, .receive 1]
    let shown : List Happening := [.subscribed 0 0, .triggered 0 none, .triggered 0 none,
      .subscribed 1 0, .received 0 (.lagged 1), .received 0 .fired, .completed 0 "SIGTERM",
      .received 1 .nothing, .triggered 0 (some 0), .received 1 .fired, .received 1 .closed]
    let s : Signalling := {
      sent := [3]
      handles := [none]
      receivers := [some ⟨0, 2⟩, some ⟨0, 3⟩]
      tasks := [⟨0, .completed "SIGTERM", .finished "SIGTERM", false⟩] }
    run? {} operations = some (s, shown) ∧ Broadcasts shown s := by
  intro operations shown s
  have hrun : run? {} operations = some (s, shown) := rfl
  exact ⟨hrun, broadcasts_of_run hrun⟩

end

end Signalling
end ConstantReply
