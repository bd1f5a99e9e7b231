import ConstantReply.Proofs.Runs
import ConstantReply.Server
import Mathlib.Data.List.Induction

/-!
# The steps of a server

What each step needs and what comes of it, and how runs are cut into steps.
-/

namespace ConstantReply
namespace Server

variable {s t : Server} {effects : List Effect} {client : Nat}

/-!
## Accepting
-/

theorem accept?_eq_some (h : s.accept? = some (t, effects)) :
    exists a client v acceptor tracking,
      s.stage = .accepting a ∧ s.acceptor.queue.head? = some client ∧
        s.visitor? client = some v ∧ s.acceptor.complete? a = some acceptor ∧
        s.tracking.track? tracker = some tracking ∧
        t = (s.serve v s.acceptor.nextPermit tracking).1.acceptNext acceptor ∧
        effects = .logged (Log.connectionAccepted v.peer acceptor.availablePermits) ::
          (s.serve v s.acceptor.nextPermit tracking).2 := by
  unfold accept? at h
  split at h
  next a hstage =>
    rcases Option.bind_eq_some_iff.mp h with ⟨client, hhead, h⟩
    rcases Option.bind_eq_some_iff.mp h with ⟨v, hvisitor, h⟩
    rcases Option.bind_eq_some_iff.mp h with ⟨acceptor, hcomplete, h⟩
    rcases Option.bind_eq_some_iff.mp h with ⟨tracking, htrack, h⟩
    cases h
    exact ⟨a, client, v, acceptor, tracking, hstage, hhead, hvisitor, hcomplete, htrack, rfl, rfl⟩
  · cases h

theorem accept?_of_queue {a client : Nat} {v : Visitor} {acceptor : Acceptor}
    {tracking : Tracking} (hstage : s.stage = .accepting a)
    (hhead : s.acceptor.queue.head? = some client) (hvisitor : s.visitor? client = some v)
    (hcomplete : s.acceptor.complete? a = some acceptor)
    (htrack : s.tracking.track? tracker = some tracking) :
    s.accept? = some ((s.serve v s.acceptor.nextPermit tracking).1.acceptNext acceptor,
      .logged (Log.connectionAccepted v.peer acceptor.availablePermits) ::
        (s.serve v s.acceptor.nextPermit tracking).2) := by
  simp only [accept?, hstage, hhead, hvisitor, hcomplete, htrack, Option.bind_eq_bind,
    Option.bind_some]

theorem acceptFails?_eq_some {error : SystemError}
    (h : s.acceptFails? error = some (t, effects)) :
    exists a acceptor, s.stage = .accepting a ∧ s.acceptor.fail? a = some acceptor ∧
      ((error.concernsOneClient = true ∧ t = s.acceptNext acceptor ∧
          effects = [.logged (Log.clientWentAway error)]) ∨
        (error.concernsOneClient = false ∧
          t = { s with acceptor := acceptor, stage := .backingOff } ∧
          effects = [.logged (Log.acceptFailed error)])) := by
  unfold acceptFails? at h
  split at h
  next a hstage =>
    rcases Option.bind_eq_some_iff.mp h with ⟨acceptor, hfail, h⟩
    refine ⟨a, acceptor, hstage, hfail, ?_⟩
    split at h
    next hone =>
      cases h
      exact Or.inl ⟨hone, rfl, rfl⟩
    next hone =>
      cases h
      exact Or.inr ⟨Bool.eq_false_iff.mpr hone, rfl, rfl⟩
  · cases h

theorem acceptIsRefused?_eq_some (h : s.acceptIsRefused? = some (t, effects)) :
    exists a acceptor, s.stage = .accepting a ∧ s.acceptor.refuse? a = some acceptor := by
  unfold acceptIsRefused? at h
  split at h
  next a hstage =>
    rcases Option.bind_eq_some_iff.mp h with ⟨acceptor, hrefuse, _⟩
    exact ⟨a, acceptor, hstage, hrefuse⟩
  · cases h

theorem backOffEnds?_eq_some (h : s.backOffEnds? = some (t, effects)) :
    s.stage = .backingOff ∧ t = s.acceptNext s.acceptor ∧ effects = [] := by
  unfold backOffEnds? at h
  split at h
  next hstage =>
    cases h
    exact ⟨hstage, rfl, rfl⟩
  · cases h

/-!
## Clients
-/

theorem arrive?_eq_some {peer : SocketAddress} (h : s.arrive? client peer = some (t, effects)) :
    s.isListening = true ∧ s.isKnown client = false ∧
      t = { s with
        acceptor := s.acceptor.arrive client
        visitors := s.visitors ++ [{ client := client, peer := peer }] } ∧
      effects = [] := by
  unfold arrive? at h
  split at h
  · cases h
  next hcan =>
    cases h
    rw [not_or] at hcan
    exact ⟨Bool.not_eq_false _ ▸ hcan.left, Bool.eq_false_iff.mpr hcan.right, rfl, rfl⟩

theorem arrive?_of_unknown {peer : SocketAddress} (hlistening : s.isListening = true)
    (hunknown : s.isKnown client = false) :
    s.arrive? client peer = some ({ s with
        acceptor := s.acceptor.arrive client
        visitors := s.visitors ++ [{ client := client, peer := peer }] }, []) := by
  simp only [arrive?, hlistening, hunknown, Bool.true_eq_false, Bool.false_eq_true, or_self,
    if_false]

theorem input?_eq_some {inputs : List Http.Input}
    (h : s.input? client inputs = some (t, effects)) :
    (exists c, s.serving? client = some c ∧ t = (s.advance c inputs).1 ∧
        effects = (s.advance c inputs).2) ∨
      (s.serving? client = none ∧ (exists v, s.visitor? client = some v) ∧
        t = { s with
          visitors := s.visitors.map fun v =>
            if v.client = client then { v with inbox := v.inbox ++ inputs.filter doneByClient }
            else v } ∧
        effects = []) := by
  unfold input? at h
  split at h
  next c hserving =>
    cases h
    exact Or.inl ⟨c, hserving, rfl, rfl⟩
  next hserving =>
    split at h
    · cases h
    next v hvisitor =>
      cases h
      exact Or.inr ⟨hserving, ⟨v, hvisitor⟩, rfl, rfl⟩

theorem input?_of_served {c : Serving} {inputs : List Http.Input}
    (hserving : s.serving? client = some c) : s.input? client inputs = some (s.advance c inputs) := by
  simp only [input?, hserving]

theorem input?_of_waiting {v : Visitor} {inputs : List Http.Input}
    (hserving : s.serving? client = none) (hvisitor : s.visitor? client = some v) :
    s.input? client inputs = some ({ s with
        visitors := s.visitors.map fun v =>
          if v.client = client then { v with inbox := v.inbox ++ inputs.filter doneByClient }
          else v }, []) := by
  simp only [input?, hserving, hvisitor]

theorem conclude?_eq_some (h : s.conclude? client = some (t, effects)) :
    exists c acceptor tracking, s.serving? client = some c ∧ c.session.isClosed = true ∧
      s.acceptor.release? c.permit = some acceptor ∧
      s.tracking.release? c.guard = some tracking ∧
      t = { s with
        acceptor := acceptor
        tracking := tracking
        watched := s.watched.erase client
        serving := s.serving.filter fun d => d.client != client } ∧
      effects = [.logged (Log.connectionClosed (s.idOf c.guard))] := by
  unfold conclude? at h
  rcases Option.bind_eq_some_iff.mp h with ⟨c, hserving, h⟩
  split at h
  next hclosed =>
    rcases Option.bind_eq_some_iff.mp h with ⟨acceptor, hrelease, h⟩
    rcases Option.bind_eq_some_iff.mp h with ⟨tracking, hguard, h⟩
    cases h
    exact ⟨c, acceptor, tracking, hserving, hclosed, hrelease, hguard, rfl, rfl⟩
  · cases h

theorem conclude?_of_closed {c : Serving} {acceptor : Acceptor} {tracking : Tracking}
    (hserving : s.serving? client = some c) (hclosed : c.session.isClosed = true)
    (hrelease : s.acceptor.release? c.permit = some acceptor)
    (hguard : s.tracking.release? c.guard = some tracking) :
    s.conclude? client = some ({ s with
        acceptor := acceptor
        tracking := tracking
        watched := s.watched.erase client
        serving := s.serving.filter fun d => d.client != client },
      [.logged (Log.connectionClosed (s.idOf c.guard))]) := by
  simp only [conclude?, hserving, hclosed, hrelease, hguard, Option.bind_eq_bind,
    Option.bind_some, if_true]

/-!
## Ending
-/

theorem heed?_eq_some (h : s.heed? = some (t, effects)) :
    exists a acceptor, s.stage = .accepting a ∧ s.acceptor.cancel? a = some acceptor ∧
      t = { s with acceptor := acceptor, stage := .leaving } ∧
      effects = [.logged Log.noLongerAccepting] := by
  unfold heed? at h
  split at h
  next a hstage =>
    rcases Option.bind_eq_some_iff.mp h with ⟨acceptor, hcancel, h⟩
    cases h
    exact ⟨a, acceptor, hstage, hcancel, rfl, rfl⟩
  · cases h

theorem unbind?_eq_some (h : s.unbind? = some (t, effects)) :
    s.stage = .leaving ∧
      t = { s with
        acceptor := { s.acceptor with queue := [] }
        visitors := []
        stage := .unbound } ∧
      effects = .unbound :: s.visitors.map fun v => .closed v.client := by
  unfold unbind? at h
  split at h
  next hstage =>
    cases h
    exact ⟨hstage, rfl, rfl⟩
  · cases h

theorem drain?_eq_some (h : s.drain? = some (t, effects)) :
    s.stage = .unbound ∧ t = ({ s with stage := .draining }.tellAll).1 ∧
      effects = .logged (Log.draining s.activeCount) ::
        ({ s with stage := .draining }.tellAll).2 := by
  unfold drain? at h
  split at h
  next hstage =>
    cases h
    exact ⟨hstage, rfl, rfl⟩
  · cases h

theorem finish?_eq_some (h : s.finish? = some (t, effects)) :
    s.stage = .draining ∧ s.watched = [] ∧ t = { s with stage := .stopped true } ∧
      effects = [.logged Log.allClosed, .logged Log.serverStopped] := by
  unfold finish? at h
  split at h
  next hdone =>
    cases h
    exact ⟨hdone.left, hdone.right, rfl, rfl⟩
  · cases h

theorem abandon?_eq_some (h : s.abandon? = some (t, effects)) :
    s.stage = .draining ∧ t = { s with stage := .stopped false } ∧
      effects = [.logged (Log.drainTimedOut s.activeCount), .logged Log.serverStopped] := by
  unfold abandon? at h
  split at h
  next hstage =>
    cases h
    exact ⟨hstage, rfl, rfl⟩
  · cases h

/-!
## Runs
-/

theorem run?_cons (s : Server) (event : Event) (rest : List Event) :
    s.run? (event :: rest) =
      (s.step? event).bind fun u => (u.1.run? rest).map fun v => (v.1, u.2 ++ v.2) := by
  rw [run?]
  cases s.step? event with
  | none => rfl
  | some u =>
      cases h : u.1.run? rest <;> simp [h]

theorem run?_append (s : Server) (front back : List Event) :
    s.run? (front ++ back) =
      (s.run? front).bind fun u => (u.1.run? back).map fun v => (v.1, u.2 ++ v.2) :=
  run_append_of_steps step? (fun _ => rfl) run?_cons s front back

theorem run?_append_eq_some {front back : List Event}
    (h : s.run? (front ++ back) = some (t, effects)) :
    exists u before after, s.run? front = some (u, before) ∧ u.run? back = some (t, after) ∧
      effects = before ++ after := by
  rw [run?_append] at h
  rcases Option.bind_eq_some_iff.mp h with ⟨⟨u, before⟩, hfront, hback⟩
  rcases Option.map_eq_some_iff.mp hback with ⟨⟨v, after⟩, hlast, heq⟩
  cases heq
  exact ⟨u, before, after, hfront, hlast, rfl⟩

theorem run?_cons_eq_some {event : Event} {rest : List Event}
    (h : s.run? (event :: rest) = some (t, effects)) :
    exists u told more, s.step? event = some (u, told) ∧ u.run? rest = some (t, more) ∧
      effects = told ++ more := by
  rw [run?_cons] at h
  rcases Option.bind_eq_some_iff.mp h with ⟨⟨u, told⟩, hstep, hrest⟩
  rcases Option.map_eq_some_iff.mp hrest with ⟨⟨v, more⟩, hlast, heq⟩
  cases heq
  exact ⟨u, told, more, hstep, hlast, rfl⟩

theorem run?_cons_of_step {u : Server} {event : Event} {rest : List Event}
    {told more : List Effect} (hstep : s.step? event = some (u, told))
    (hrest : u.run? rest = some (t, more)) :
    s.run? (event :: rest) = some (t, told ++ more) := by
  rw [run?_cons, hstep, Option.bind_some, hrest]
  rfl

theorem run?_concat_eq_some {events : List Event} {event : Event}
    (h : s.run? (events ++ [event]) = some (t, effects)) :
    exists u before told, s.run? events = some (u, before) ∧ u.step? event = some (t, told) ∧
      effects = before ++ told := by
  rcases run?_append_eq_some h with ⟨u, before, after, hfront, hback, rfl⟩
  rcases run?_cons_eq_some hback with ⟨v, told, more, hstep, hnil, rfl⟩
  cases hnil
  exact ⟨u, before, told, hfront, hstep, by rw [List.append_nil]⟩

theorem run?_invariant {P : Server -> Prop} (hs : P s)
    (hstep : forall u v event told, P u -> u.step? event = some (v, told) -> P v)
    {events : List Event} (h : s.run? events = some (t, effects)) : P t := by
  induction events generalizing s effects with
  | nil =>
      cases h
      exact hs
  | cons event rest ih =>
      rcases run?_cons_eq_some h with ⟨u, told, more, htaken, hrest, _⟩
      exact ih (hstep _ _ _ _ hs htaken) hrest

end Server
end ConstantReply
