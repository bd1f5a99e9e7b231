import ConstantReply.Lifecycle.Run
import ConstantReply.Proofs.Server.Loop

/-!
# The way of a signal

From the handlers a signal goes to the task, from the task to the channel, and from the channel to
the accept loop, whatever the start and the loop do meanwhile.  Until the loop is left the word to
end is in one of these places, and nothing but a signal sets it on its way.
-/

namespace ConstantReply

/-!
## Handlers
-/

namespace Mailbox

variable {m : Mailbox} {delivered : List Signal}

def Keeps (m : Mailbox) (delivered : List Signal) : Prop :=
  forall signal, m.holds signal = true ↔ signal ∈ delivered

theorem keeps_empty : empty.Keeps [] := by
  intro signal
  cases signal <;> simp [empty, holds]

theorem Keeps.post (h : m.Keeps delivered) (signal : Signal) :
    (m.post signal).Keeps (delivered ++ [signal]) := by
  intro other
  have hother := h other
  rw [List.mem_append, List.mem_singleton, ← hother]
  cases signal <;> cases other <;> simp [Mailbox.post, holds]

end Mailbox

/-!
## Handlers, task and channel together
-/

namespace Signalling

def listening (sent seen : Nat) (tasks : List TriggerTask) : Signalling where
  sent := [sent]
  handles := [some 0]
  receivers := [some ⟨0, seen⟩]
  tasks := tasks

end Signalling

namespace TriggerTask

def waiting : TriggerTask := { channel := 0 }

def holding (signal : Signal) : TriggerTask :=
  { channel := 0, event := .completed signal.display }

def done (signal : Signal) : TriggerTask :=
  { channel := 0, event := .completed signal.display, status := .finished signal.display }

end TriggerTask

namespace Watch

open Signalling

def installed (m : Mailbox) : Watch := ⟨⟨[some m]⟩, {}⟩

def subscribed (m : Mailbox) : Watch := ⟨⟨[some m]⟩, listening 0 0 []⟩

def waiting (m : Mailbox) : Watch := ⟨⟨[some m]⟩, listening 0 0 [.waiting]⟩

def taken (signal : Signal) : Watch := ⟨⟨[none]⟩, listening 0 0 [.holding signal]⟩

def triggered (signal : Signal) : Watch := ⟨⟨[none]⟩, listening 1 0 [.done signal]⟩

def heard (signal : Signal) : Watch := ⟨⟨[none]⟩, listening 1 1 [.done signal]⟩

variable {m : Mailbox} {signal : Signal} {w : Watch}

/-!
Each operation, in each of the forms that a watch comes to.
-/

theorem take?_installed : (installed m).take? signal = none := by
  simp [take?, installed, handlersId, Handlers.mailbox?, Handlers.uninstall?, completeEvent?,
    openTask?]

theorem take?_subscribed : (subscribed m).take? signal = none := by
  simp [take?, subscribed, listening, handlersId, Handlers.mailbox?, Handlers.uninstall?,
    completeEvent?, openTask?]

theorem take?_waiting : (waiting m).take? signal =
    if m.holds signal = true then some (taken signal) else none := rfl

theorem take?_taken {other : Signal} : (taken other).take? signal = none := rfl

theorem take?_triggered {other : Signal} : (triggered other).take? signal = none := rfl

theorem take?_heard {other : Signal} : (heard other).take? signal = none := rfl

theorem trigger?_installed : (installed m).trigger? = none := rfl

theorem trigger?_subscribed : (subscribed m).trigger? = none := rfl

theorem trigger?_waiting : (waiting m).trigger? = none := rfl

theorem trigger?_taken : (taken signal).trigger? = some (1, triggered signal) := rfl

theorem trigger?_triggered : (triggered signal).trigger? = none := rfl

theorem trigger?_heard : (heard signal).trigger? = none := rfl

theorem hear?_waiting : (waiting m).hear? = none := rfl

theorem hear?_taken : (taken signal).hear? = none := rfl

theorem hear?_triggered : (triggered signal).hear? = some (heard signal) := rfl

end Watch

/-!
## Runs
-/

/-- How much of a watch there is. -/
inductive Setup where
  | handlers
  | channel
  | task
  | nothing
  deriving DecidableEq, Repr

def Progress.setup : Progress -> Setup
  | .installed => .handlers
  | .bound => .handlers
  | .addressed => .handlers
  | .subscribed => .channel
  | .watching => .task
  | .announced => .task
  | .serving => .task
  | .failed => .nothing

namespace Run

variable {r s : Run}

/-- The ways in which the start, the watch and the loop go together. -/
inductive Stands (r : Run) : Prop where
  | early (m : Mailbox) (setup : r.progress.setup = .handlers)
      (watch : r.watch = .installed m) (keeps : m.Keeps r.delivered)
      (loop : r.server.goesOn = true)
  | subscribed (m : Mailbox) (setup : r.progress.setup = .channel)
      (watch : r.watch = .subscribed m) (keeps : m.Keeps r.delivered)
      (loop : r.server.goesOn = true)
  | waiting (m : Mailbox) (setup : r.progress.setup = .task)
      (watch : r.watch = .waiting m) (keeps : m.Keeps r.delivered)
      (loop : r.server.goesOn = true)
  | taken (signal : Signal) (setup : r.progress.setup = .task)
      (watch : r.watch = .taken signal) (delivered : signal ∈ r.delivered)
      (loop : r.server.goesOn = true)
  | triggered (signal : Signal) (setup : r.progress.setup = .task)
      (watch : r.watch = .triggered signal) (delivered : signal ∈ r.delivered)
      (loop : r.server.goesOn = true)
  | heard (signal : Signal) (progress : r.progress = .serving)
      (watch : r.watch = .heard signal) (delivered : signal ∈ r.delivered)
      (loop : r.server.goesOn = false)
  | failed (progress : r.progress = .failed) (loop : r.server.goesOn = true)

theorem stands_start (keepAlive : Bool) (limit : Nat) :
    Stands { keepAlive := keepAlive, limit := limit } :=
  .early .empty rfl rfl Mailbox.keeps_empty rfl

/-!
### Signals
-/

theorem stands_deliver (h : r.Stands) (signal : Signal) :
    Stands { r with watch := r.watch.deliver signal, delivered := r.delivered ++ [signal] } := by
  cases h with
  | early m setup watch keeps loop =>
      exact .early (m.post signal) setup (by rw [watch]; rfl) (keeps.post signal) loop
  | subscribed m setup watch keeps loop =>
      exact .subscribed (m.post signal) setup (by rw [watch]; rfl) (keeps.post signal) loop
  | waiting m setup watch keeps loop =>
      exact .waiting (m.post signal) setup (by rw [watch]; rfl) (keeps.post signal) loop
  | taken first setup watch delivered loop =>
      exact .taken first setup (by rw [watch]; rfl) (List.mem_append_left _ delivered) loop
  | triggered first setup watch delivered loop =>
      exact .triggered first setup (by rw [watch]; rfl) (List.mem_append_left _ delivered) loop
  | heard first progress watch delivered loop =>
      exact .heard first progress (by rw [watch]; rfl) (List.mem_append_left _ delivered) loop
  | failed progress loop => exact .failed progress loop

theorem stands_take {signal : Signal} {w : Watch} (h : r.Stands)
    (taken : r.watch.take? signal = some w) : Stands { r with watch := w } := by
  cases h with
  | early m _ watch _ _ =>
      rw [watch, Watch.take?_installed] at taken
      cases taken
  | subscribed m _ watch _ _ =>
      rw [watch, Watch.take?_subscribed] at taken
      cases taken
  | waiting m setup watch keeps loop =>
      rw [watch, Watch.take?_waiting] at taken
      split at taken
      next holds =>
        cases taken
        exact .taken signal setup rfl ((keeps signal).mp holds) loop
      · cases taken
  | taken first _ watch _ _ =>
      rw [watch, Watch.take?_taken] at taken
      cases taken
  | triggered first _ watch _ _ =>
      rw [watch, Watch.take?_triggered] at taken
      cases taken
  | heard first _ watch _ _ =>
      rw [watch, Watch.take?_heard] at taken
      cases taken
  | failed progress loop => exact .failed progress loop

theorem stands_trigger {receivers : Nat} {w : Watch} (h : r.Stands)
    (taken : r.watch.trigger? = some (receivers, w)) : Stands { r with watch := w } := by
  cases h with
  | early m _ watch _ _ =>
      rw [watch, Watch.trigger?_installed] at taken
      cases taken
  | subscribed m _ watch _ _ =>
      rw [watch, Watch.trigger?_subscribed] at taken
      cases taken
  | waiting m _ watch _ _ =>
      rw [watch, Watch.trigger?_waiting] at taken
      cases taken
  | taken signal setup watch delivered loop =>
      rw [watch, Watch.trigger?_taken] at taken
      cases taken
      exact .triggered signal setup rfl delivered loop
  | triggered signal _ watch _ _ =>
      rw [watch, Watch.trigger?_triggered] at taken
      cases taken
  | heard signal _ watch _ _ =>
      rw [watch, Watch.trigger?_heard] at taken
      cases taken
  | failed progress loop => exact .failed progress loop

/-!
### The start
-/

theorem goOn?_eq_some {turn : Progress} {succeeds : Bool} {next : Run}
    (h : r.goOn? turn succeeds next = some s) :
    r.progress = turn ∧ (s = next ∨ s = { r with progress := .failed }) := by
  unfold goOn? at h
  split at h
  next progress =>
    refine ⟨progress, ?_⟩
    cases succeeds
    · exact Or.inr (Option.some.inj h).symm
    · exact Or.inl (Option.some.inj h).symm
  · cases h

theorem loop_of_progress (h : r.Stands) (progress : r.progress ≠ .serving) :
    r.server.goesOn = true := by
  cases h with
  | heard signal serving _ _ _ => exact absurd serving progress
  | early m _ _ _ loop => exact loop
  | subscribed m _ _ _ loop => exact loop
  | waiting m _ _ _ loop => exact loop
  | taken signal _ _ _ loop => exact loop
  | triggered signal _ _ _ loop => exact loop
  | failed _ loop => exact loop

theorem stands_fail (h : r.Stands) (progress : r.progress ≠ .serving) :
    Stands { r with progress := .failed } := by
  have loop := loop_of_progress h progress
  exact .failed rfl loop

theorem stands_goOn {next : Progress} (h : r.Stands) (progress : r.progress ≠ .serving)
    (setup : next.setup = r.progress.setup) (well : next ≠ .failed) :
    Stands { r with progress := next } := by
  cases h with
  | early m same watch keeps loop => exact .early m (setup.trans same) watch keeps loop
  | subscribed m same watch keeps loop => exact .subscribed m (setup.trans same) watch keeps loop
  | waiting m same watch keeps loop => exact .waiting m (setup.trans same) watch keeps loop
  | taken signal same watch delivered loop =>
      exact .taken signal (setup.trans same) watch delivered loop
  | triggered signal same watch delivered loop =>
      exact .triggered signal (setup.trans same) watch delivered loop
  | heard signal serving _ _ _ => exact absurd serving progress
  | failed failed loop =>
      rw [failed] at setup
      cases next with
      | failed => exact absurd rfl well
      | _ => cases setup

theorem stands_subscribe (h : r.Stands) (progress : r.progress = .addressed) :
    Stands { r with progress := .subscribed, watch := r.watch.subscribe } := by
  have handlers : r.progress.setup = .handlers := by
    rw [progress]
    rfl
  cases h with
  | early m _ watch keeps loop => exact .subscribed m rfl (by rw [watch]; rfl) keeps loop
  | subscribed m setup _ _ _ => cases handlers.symm.trans setup
  | waiting m setup _ _ _ => cases handlers.symm.trans setup
  | taken signal setup _ _ _ => cases handlers.symm.trans setup
  | triggered signal setup _ _ _ => cases handlers.symm.trans setup
  | heard signal serving _ _ _ => cases progress.symm.trans serving
  | failed failed _ => cases progress.symm.trans failed

theorem stands_begin (h : r.Stands) (progress : r.progress = .subscribed) :
    Stands { r with progress := .watching, watch := r.watch.begin } := by
  have channel : r.progress.setup = .channel := by
    rw [progress]
    rfl
  cases h with
  | early m setup _ _ _ => cases channel.symm.trans setup
  | subscribed m _ watch keeps loop => exact .waiting m rfl (by rw [watch]; rfl) keeps loop
  | waiting m setup _ _ _ => cases channel.symm.trans setup
  | taken signal setup _ _ _ => cases channel.symm.trans setup
  | triggered signal setup _ _ _ => cases channel.symm.trans setup
  | heard signal serving _ _ _ => cases progress.symm.trans serving
  | failed failed _ => cases progress.symm.trans failed

/-!
### The server
-/

theorem progressWith_of_sound {server : Server} (h : server.Sound) :
    progressWith server = .serving := by
  unfold progressWith
  split
  next error failed =>
    unfold Server.result? at failed
    split at failed
    · cases failed
    next other stage => exact absurd stage (h.goesWell other)
    · cases failed
  · rfl

theorem serverStep?_eq_some {event : Server.Event} (h : r.serverStep? event = some s) :
    exists server effects watch, r.server.step? event = some (server, effects) ∧
      r.progress = .serving ∧
      ((event = .heed ∧ r.watch.hear? = some watch) ∨ (event ≠ .heed ∧ watch = r.watch)) ∧
      s = { r with server := server, progress := progressWith server, watch := watch } := by
  unfold serverStep? at h
  rcases Option.bind_eq_some_iff.mp h with ⟨⟨server, effects⟩, step, h⟩
  dsimp only at h
  split at h
  · cases h
  next serving =>
    split at h
    next heed =>
      rcases Option.bind_eq_some_iff.mp h with ⟨watch, hear, h⟩
      cases h
      exact ⟨server, effects, watch, step, not_not.mp serving, Or.inl ⟨heed, hear⟩, rfl⟩
    next other =>
      cases h
      exact ⟨server, effects, r.watch, step, not_not.mp serving, Or.inr ⟨other, rfl⟩, rfl⟩

theorem stands_server {event : Server.Event} (h : r.Stands) (sound : r.server.Sound)
    (taken : r.serverStep? event = some s) : s.Stands := by
  rcases serverStep?_eq_some taken with ⟨server, effects, watch, step, serving, hears, rfl⟩
  have next := progressWith_of_sound (Server.sound_step sound step)
  have goes : event ≠ .heed -> r.server.goesOn = true -> server.goesOn = true :=
    fun other loop => Server.goesOn_step sound loop step other
  have task : r.progress.setup = .task := by
    rw [serving]
    rfl
  cases h with
  | early m setup _ _ _ => cases task.symm.trans setup
  | subscribed m setup _ _ _ => cases task.symm.trans setup
  | waiting m _ same keeps loop =>
      rcases hears with ⟨_, hear⟩ | ⟨other, rfl⟩
      · rw [same, Watch.hear?_waiting] at hear
        cases hear
      · exact .waiting m (by rw [next]; rfl) same keeps (goes other loop)
  | taken signal _ same delivered loop =>
      rcases hears with ⟨_, hear⟩ | ⟨other, rfl⟩
      · rw [same, Watch.hear?_taken] at hear
        cases hear
      · exact .taken signal (by rw [next]; rfl) same delivered (goes other loop)
  | triggered signal _ same delivered loop =>
      rcases hears with ⟨rfl, hear⟩ | ⟨other, rfl⟩
      · rw [same, Watch.hear?_triggered] at hear
        cases hear
        rcases Server.heed?_eq_some step with ⟨a, acceptor, _, _, rfl, _⟩
        exact .heard signal next rfl delivered rfl
      · exact .triggered signal (by rw [next]; rfl) same delivered (goes other loop)
  | heard signal _ same delivered loop =>
      have left := (Server.after_leaving sound loop step).left
      rcases hears with ⟨rfl, _⟩ | ⟨_, rfl⟩
      · rcases Server.heed?_eq_some step with ⟨a, acceptor, stage, _⟩
        simp [Server.goesOn, stage] at loop
      · exact .heard signal next same delivered left
  | failed failed _ => cases serving.symm.trans failed

/-!
### Every state
-/

theorem stands_step {event : Event} (h : r.Stands) (sound : r.server.Sound)
    (taken : r.step? event = some s) : s.Stands := by
  cases event with
  | deliver signal => exact Option.some.inj taken ▸ stands_deliver h signal
  | bind succeeds =>
      rcases goOn?_eq_some taken with ⟨progress, rfl | rfl⟩
      · exact stands_goOn h (by simp [progress]) (by rw [progress]; rfl) (by simp)
      · exact stands_fail h (by simp [progress])
  | readAddress succeeds =>
      rcases goOn?_eq_some taken with ⟨progress, rfl | rfl⟩
      · exact stands_goOn h (by simp [progress]) (by rw [progress]; rfl) (by simp)
      · exact stands_fail h (by simp [progress])
  | subscribe =>
      rcases goOn?_eq_some taken with ⟨progress, rfl | rfl⟩
      · exact stands_subscribe h progress
      · exact stands_fail h (by simp [progress])
  | begin =>
      rcases goOn?_eq_some taken with ⟨progress, rfl | rfl⟩
      · exact stands_begin h progress
      · exact stands_fail h (by simp [progress])
  | announce =>
      rcases goOn?_eq_some taken with ⟨progress, rfl | rfl⟩
      · exact stands_goOn h (by simp [progress]) (by rw [progress]; rfl) (by simp)
      · exact stands_fail h (by simp [progress])
  | serve succeeds =>
      rcases goOn?_eq_some taken with ⟨progress, rfl | rfl⟩
      · exact stands_goOn h (by simp [progress]) (by rw [progress]; rfl) (by simp)
      · exact stands_fail h (by simp [progress])
  | take signal =>
      rcases Option.map_eq_some_iff.mp taken with ⟨w, took, rfl⟩
      exact stands_take h took
  | trigger =>
      rcases Option.map_eq_some_iff.mp taken with ⟨⟨receivers, w⟩, triggers, rfl⟩
      exact stands_trigger h triggers
  | server event => exact stands_server h sound taken

theorem server_step {event : Event} (taken : r.step? event = some s) :
    s.server = r.server ∨ exists own effects, r.server.step? own = some (s.server, effects) := by
  cases event with
  | deliver signal =>
      cases taken
      exact Or.inl rfl
  | take signal =>
      rcases Option.map_eq_some_iff.mp taken with ⟨w, _, rfl⟩
      exact Or.inl rfl
  | trigger =>
      rcases Option.map_eq_some_iff.mp taken with ⟨⟨receivers, w⟩, _, rfl⟩
      exact Or.inl rfl
  | server own =>
      rcases serverStep?_eq_some taken with ⟨server, effects, w, step, _, _, rfl⟩
      exact Or.inr ⟨own, effects, step⟩
  | _ =>
      rcases goOn?_eq_some taken with ⟨_, rfl | rfl⟩ <;> exact Or.inl rfl

theorem sound_step {event : Event} (sound : r.server.Sound) (taken : r.step? event = some s) :
    s.server.Sound := by
  rcases server_step taken with same | ⟨own, effects, step⟩
  · exact same ▸ sound
  · exact Server.sound_step sound step

theorem reachable_of_steps {keepAlive : Bool} {limit : Nat} {events : List Event}
    (h : Reachable keepAlive limit r) (taken : events.foldlM step? r = some s) :
    Reachable keepAlive limit s := by
  induction events generalizing r with
  | nil => exact Option.some.inj taken ▸ h
  | cons event rest ih =>
      rw [List.foldlM_cons] at taken
      rcases Option.bind_eq_some_iff.mp taken with ⟨next, step, more⟩
      exact ih (.step h step) more

theorem stands_of_reachable {keepAlive : Bool} {limit : Nat} (h : Reachable keepAlive limit r) :
    r.Stands ∧ r.server.Sound := by
  induction h with
  | start => exact ⟨stands_start keepAlive limit, Server.sound_create keepAlive limit⟩
  | step _ taken ih => exact ⟨stands_step ih.left ih.right taken, sound_step ih.right taken⟩

/-!
## Where the word to end is
-/

/-- Where the word to end is, once a signal has been delivered. -/
inductive Whereabouts (r : Run) : Prop where
  | pending (m : Mailbox) (mailbox : r.watch.handlers.mailbox? Watch.handlersId = some m)
      (keeps : m.Keeps r.delivered)
      (ready : r.progress.setup = .task -> forall signal, signal ∈ r.delivered ->
        (r.step? (.take signal)).isSome)
  | taken (signal : Signal) (t : TriggerTask) (delivered : signal ∈ r.delivered)
      (task : r.watch.signalling.task? Watch.task = some t)
      (holds : t.event = .completed signal.display) (status : t.status = .waiting)
      (ready : (r.step? .trigger).isSome)
  | unread (rx : Receiver) (receiver : r.watch.signalling.receiver? Watch.receiver = some rx)
      (unread : rx.seen < r.watch.signalling.sentOn rx.channel)
      (ready : (r.watch.signalling.reception rx).1 = .fired)
  | left (left : r.hasLeft = true)

/-- Whatever the order of the steps, no signal is lost and none is invented. -/
structure Attended (r : Run) : Prop where
  notLost : r.delivered ≠ [] -> r.progress ≠ .failed -> Whereabouts r
  notInvented : r.hasLeft = true -> r.delivered ≠ []

theorem whereabouts_of_stands (h : r.Stands) (well : r.progress ≠ .failed) : Whereabouts r := by
  cases h with
  | early m setup watch keeps _ =>
      exact .pending m (by rw [watch]; rfl) keeps fun task => by cases setup.symm.trans task
  | subscribed m setup watch keeps _ =>
      exact .pending m (by rw [watch]; rfl) keeps fun task => by cases setup.symm.trans task
  | waiting m _ watch keeps _ =>
      refine .pending m (by rw [watch]; rfl) keeps ?_
      intro _ signal delivered
      have holds := (keeps signal).mpr delivered
      rw [step?, watch, Watch.take?_waiting, if_pos holds]
      rfl
  | taken signal _ watch delivered _ =>
      refine .taken signal (.holding signal) delivered (by rw [watch]; rfl) rfl rfl ?_
      rw [step?, watch, Watch.trigger?_taken]
      rfl
  | triggered signal _ watch _ _ =>
      exact .unread ⟨0, 0⟩ (by rw [watch]; rfl) (by rw [watch]; exact Nat.zero_lt_one)
        (by rw [watch]; rfl)
  | heard signal _ _ _ loop =>
      refine .left ?_
      rw [hasLeft, loop]
      rfl
  | failed failed _ => exact absurd failed well

theorem delivered_of_left (h : r.Stands) (left : r.hasLeft = true) : r.delivered ≠ [] := by
  have loop : r.server.goesOn = false := by
    simpa [hasLeft] using left
  cases h with
  | heard signal _ _ delivered _ => exact List.ne_nil_of_mem delivered
  | early m _ _ _ goes => cases goes.symm.trans loop
  | subscribed m _ _ _ goes => cases goes.symm.trans loop
  | waiting m _ _ _ goes => cases goes.symm.trans loop
  | taken signal _ _ _ goes => cases goes.symm.trans loop
  | triggered signal _ _ _ goes => cases goes.symm.trans loop
  | failed _ goes => cases goes.symm.trans loop

/-- A signal that was delivered is in the handlers, with the task or in the channel until the loop
is left, and the loop is not left without one. -/
theorem attended_of_reachable {keepAlive : Bool} {limit : Nat}
    (h : Reachable keepAlive limit r) : r.Attended := by
  have stands := (stands_of_reachable h).left
  exact ⟨fun _ => whereabouts_of_stands stands, delivered_of_left stands⟩

theorem attended_of_two_signals :
    exists r, Reachable true 1 r ∧ r.delivered = [.terminate, .interrupt] ∧
      r.server.stage = .backingOff ∧ r.hasLeft = false ∧ r.Attended := by
  have reached : exists r, List.foldlM step? { keepAlive := true, limit := 1 }
        [.deliver .terminate, .bind true, .readAddress true, .subscribe, .begin, .announce,
          .serve true, .server (.acceptFails SystemError.tooManyOpenFiles), .take .terminate,
          .deliver .interrupt, .trigger] = some r ∧
      r.delivered = [.terminate, .interrupt] ∧ r.server.stage = .backingOff ∧
      r.hasLeft = false :=
    ⟨_, rfl, rfl, rfl, rfl⟩
  rcases reached with ⟨r, taken, delivered, stage, loop⟩
  have reachable := reachable_of_steps .start taken
  exact ⟨r, reachable, delivered, stage, loop, attended_of_reachable reachable⟩

end Run
end ConstantReply
