import ConstantReply.Proofs.Http.Exchange
import ConstantReply.Proofs.Server.Loop
import ConstantReply.Session.Transcript

/-!
# What one client sees

Where a client stands with a server is what it has done while it waits, or how far its session is.
A step that is about the client changes that, and shows the client something, in a way that depends
on nothing else; every other step of the loop passes it by.
-/

namespace ConstantReply

/-!
## Sessions that are read in parts
-/

namespace Http2
namespace Connection

theorem step_of_closed {c : Connection} (hclosed : c.phase = .closed) (i : Http.Input) :
    c.step i = (c, []) := by
  have hclose : c.close = c := by
    unfold close
    rw [← hclosed]
  cases i with
  | byte b => simp [step, readByte, hclosed]
  | pause => simp [step, settle, hclosed]
  | finish => simp [step, settle, hclosed, hclose]
  | headTimeout => rfl
  | shutdown => simp [step, announceEnd, hclosed, hclose]

end Connection
end Http2

namespace Session

variable {s : Session} {keepAlive : Bool}

theorem step_of_isClosed (h : s.isClosed = true) (i : Http.Input) :
    s.step keepAlive i = (s, []) := by
  cases s with
  | undecided due => cases h
  | text c =>
      have hrun := Http.Connection.run_of_closed keepAlive (beq_iff_eq.mp h) [i]
      rw [Http.Connection.run_cons, Http.Connection.run_nil, List.append_nil] at hrun
      have hstep : (Session.text c).step keepAlive i = ofText (c.step keepAlive i) := by
        cases i <;> rfl
      rw [hstep]
      exact congrArg ofText hrun
  | framed c =>
      have hstep : (Session.framed c).step keepAlive i = ofFramed (c.step i) := by
        cases i <;> rfl
      rw [hstep, Http2.Connection.step_of_closed (beq_iff_eq.mp h)]
      rfl
  | closed => cases i <;> rfl

theorem run_of_isClosed (h : s.isClosed = true) (inputs : List Http.Input) :
    s.run keepAlive inputs = (s, []) := by
  induction inputs with
  | nil => rfl
  | cons i rest ih =>
      rw [run_cons, step_of_isClosed h, ih]
      rfl

def IsSettled (keepAlive : Bool) (s : Session) : Prop := s.step keepAlive .pause = (s, [])

theorem isSettled_of_awaitsHead (h : s.awaitsHead = true) : s.IsSettled keepAlive := by
  cases s with
  | text c =>
      have hphase : exists reader, c.phase = .head reader := by
        simp only [awaitsHead, Http.Connection.awaitsHead] at h
        split at h
        next reader hphase => exact ⟨reader, hphase⟩
        · cases h
      rcases hphase with ⟨reader, hphase⟩
      simp [IsSettled, step, Http.Connection.step, Http.Connection.settle, hphase, ofText]
  | _ => cases h

theorem run_segments_of_settled {parts : List (List UInt8)} (hparts : parts ≠ [])
    (hsettled : forall front back, parts = front ++ back -> front ≠ [] -> back ≠ [] ->
      (s.run keepAlive (front.flatten.map .byte)).1.IsSettled keepAlive) :
    s.run keepAlive (Http.Input.segments parts) =
      s.run keepAlive (Http.Input.segment parts.flatten) := by
  induction parts generalizing s with
  | nil => exact absurd rfl hparts
  | cons part rest ih =>
      cases rest with
      | nil => rw [Http.Input.segments, List.flatMap_singleton, List.flatten_singleton]
      | cons second more =>
          have hhere : (s.run keepAlive (part.map .byte)).1.IsSettled keepAlive := by
            have hfirst := hsettled [part] (second :: more) rfl (by simp) (by simp)
            rwa [List.flatten_singleton] at hfirst
          have hlater := ih (s := (s.run keepAlive (part.map .byte)).1) (by simp) (by
            intro front back heq _ hback
            have hboth := hsettled (part :: front) back (by rw [heq]; rfl) (by simp) hback
            rwa [List.flatten_cons, List.map_append, run_append] at hboth)
          have hsegments : Http.Input.segments (part :: second :: more) =
              part.map .byte ++ .pause :: Http.Input.segments (second :: more) := by
            simp [Http.Input.segments, Http.Input.segment]
          have hsegment : Http.Input.segment (part :: second :: more).flatten =
              part.map .byte ++ Http.Input.segment (second :: more).flatten := by
            simp [Http.Input.segment]
          rw [hsegments, hsegment, run_append, run_append, run_cons, hhere, hlater]
          rfl

/-- Whether a new session comes to the same if it reads these parts at once as if it reads them one
by one.  It may not, since it gives up what is left of a body when a part is at its end. -/
def ReadsAlike (keepAlive : Bool) (parts : List (List Http.Input)) : Prop :=
  start.run keepAlive (parts.flatten.filter Server.doneByClient ++ [.pause]) =
    start.run keepAlive parts.flatten

theorem filter_segments (parts : List (List UInt8)) :
    (Http.Input.segments parts).filter Server.doneByClient = parts.flatten.map .byte := by
  induction parts with
  | nil => rfl
  | cons part rest ih =>
      have hbytes : forall i, i ∈ part.map Http.Input.byte -> Server.doneByClient i = true := by
        intro i hi
        rcases List.mem_map.mp hi with ⟨b, _, rfl⟩
        rfl
      have hpause : [Http.Input.pause].filter Server.doneByClient = [] := rfl
      rw [Http.Input.segments] at ih ⊢
      rw [List.flatMap_cons, List.filter_append, ih, Http.Input.segment, List.filter_append,
        List.filter_eq_self.mpr hbytes, hpause, List.append_nil, List.flatten_cons,
        List.map_append]

theorem readsAlike_of_settled {parts : List (List UInt8)} (hparts : parts ≠ [])
    (hsettled : forall front back, parts = front ++ back -> front ≠ [] -> back ≠ [] ->
      (start.run keepAlive (front.flatten.map .byte)).1.IsSettled keepAlive) :
    ReadsAlike keepAlive (parts.map Http.Input.segment) := by
  have hflatten : (parts.map Http.Input.segment).flatten = Http.Input.segments parts :=
    List.flatMap_def.symm
  rw [ReadsAlike, hflatten, filter_segments, run_segments_of_settled hparts hsettled]
  rfl

end Session

namespace Server

variable {s t : Server} {effects : List Effect} {client : Nat}

theorem sessionEffects_append (client : Nat) (keepAlive : Bool) (session : Session)
    (front back : List Http.Input) :
    sessionEffects client session (session.run keepAlive (front ++ back)).1
        (session.run keepAlive (front ++ back)).2 =
      sessionEffects client session (session.run keepAlive front).1
          (session.run keepAlive front).2 ++
        sessionEffects client (session.run keepAlive front).1
          ((session.run keepAlive front).1.run keepAlive back).1
          ((session.run keepAlive front).1.run keepAlive back).2 := by
  rw [Session.run_append]
  dsimp only
  cases hmiddle : (session.run keepAlive front).1.isClosed with
  | true =>
      rw [Session.run_of_isClosed hmiddle]
      simp [sessionEffects]
  | false =>
      have hopen : session.isClosed = false := by
        cases hclosed : session.isClosed with
        | false => rfl
        | true =>
            rw [Session.run_of_isClosed hclosed, hclosed] at hmiddle
            cases hmiddle
      simp [sessionEffects, hmiddle, hopen]

/-!
## What a client sees and does
-/

def seenBy (client : Nat) (effects : List Effect) : List Effect :=
  effects.filter fun
    | .sent c _ => c == client
    | .closed c => c == client
    | _ => false

def received (client : Nat) (date : String) (effects : List Effect) : List UInt8 :=
  (Outgoing.writeAll {} date ((seenBy client effects).filterMap fun
    | .sent _ outgoing => some outgoing
    | _ => none)).1

def script (client : Nat) (events : List Event) : List Event :=
  events.filter fun
    | .arrive c _ => c == client
    | .input c _ => c == client
    | _ => false

def concerns (s : Server) (client : Nat) : Event -> Bool
  | .arrive c _ => c == client
  | .accept => s.acceptor.queue.head? == some client
  | .input c _ => c == client
  | .conclude c => c == client
  | _ => false

def alone (s : Server) (client : Nat) (events : List Event) : List Event :=
  s.collect (fun u event => if u.concerns client event then [event] else []) events

@[simp] theorem seenBy_append (client : Nat) (front back : List Effect) :
    seenBy client (front ++ back) = seenBy client front ++ seenBy client back :=
  List.filter_append ..

@[simp] theorem seenBy_nil (client : Nat) : seenBy client [] = [] := rfl

@[simp] theorem seenBy_logged (client : Nat) (event : Log.Event) (rest : List Effect) :
    seenBy client (.logged event :: rest) = seenBy client rest := rfl

theorem seenBy_sessionEffects {other : Nat} (h : other ≠ client) (before after : Session)
    (sent : List Outgoing) : seenBy client (sessionEffects other before after sent) = [] := by
  unfold seenBy
  rw [List.filter_eq_nil_iff]
  intro effect heffect
  rcases List.mem_append.mp heffect with heffect | heffect
  · rcases List.mem_flatMap.mp heffect with ⟨o, _, ho⟩
    rcases List.mem_append.mp ho with ho | ho
    · rcases List.mem_map.mp ho with ⟨event, _, rfl⟩
      simp
    · cases List.mem_singleton.mp ho
      simpa using h
  · split at heffect
    · cases List.mem_singleton.mp heffect
      simpa using h
    · cases heffect

/-!
## Where a client is
-/

section Keys

variable {α : Type} (key : α -> Nat) {k other : Nat}

theorem find?_map_of_key {f : α -> α} (hf : forall a, key (f a) = key a) (l : List α) (k : Nat) :
    (l.map f).find? (fun a => key a == k) = (l.find? fun a => key a == k).map f := by
  have hsame : (fun a => key a == k) ∘ f = fun a => key a == k := by
    funext a
    simp [hf a]
  rw [List.find?_map, hsame]

theorem find?_filter_of_ne (h : k ≠ other) (l : List α) :
    (l.filter fun a => key a != other).find? (fun a => key a == k) =
      l.find? fun a => key a == k := by
  rw [List.find?_filter]
  congr 1
  funext a
  by_cases ha : key a = k <;> simp [ha, h]

theorem find?_append_of_ne {a : α} (h : key a ≠ k) (l : List α) :
    (l ++ [a]).find? (fun a => key a == k) = l.find? fun a => key a == k := by
  have hnone : [a].find? (fun a => key a == k) = none := by
    simpa using h
  rw [List.find?_append, hnone, Option.or_none]

end Keys

/-!
## Standing
-/

/-- Where a client stands: what it has done while it waits, and how far its session is. -/
structure Standing where
  waiting : Option Visitor
  session : Option Session
  deriving DecidableEq, Repr

def standing (s : Server) (client : Nat) : Standing :=
  ⟨s.visitor? client, (s.serving? client).map Serving.session⟩

namespace Standing

def Allows (client : Nat) (p : Standing) : Event -> Prop
  | .arrive c _ => c = client ∧ p.waiting = none ∧ p.session = none
  | .accept => p.waiting.isSome
  | .input c _ => c = client ∧ (p.waiting.isSome ∨ p.session.isSome)
  | .conclude c => c = client ∧ p.session.any Session.isClosed
  | _ => False

def follow (keepAlive : Bool) (client : Nat) (p : Standing) : Event -> Standing × List Effect
  | .arrive _ peer => ({ p with waiting := some { client := client, peer := peer } }, [])
  | .accept =>
      match p.waiting with
      | none => (p, [])
      | some v =>
          let begun := Session.start.run keepAlive (v.inbox ++ [.pause])
          (⟨none, some begun.1⟩, seenBy client (sessionEffects client .start begun.1 begun.2))
  | .input _ inputs =>
      match p.session with
      | some session =>
          let next := session.run keepAlive inputs
          ({ p with session := some next.1 },
            seenBy client (sessionEffects client session next.1 next.2))
      | none =>
          ({ p with waiting := p.waiting.map fun v =>
            { v with inbox := v.inbox ++ inputs.filter doneByClient } }, [])
  | .conclude _ => ({ p with session := none }, [])
  | _ => (p, [])

def Admits (keepAlive : Bool) (client : Nat) : Standing -> List Event -> Prop
  | _, [] => True
  | p, event :: rest =>
      p.Allows client event ∧ Admits keepAlive client (p.follow keepAlive client event).1 rest

def watch (keepAlive : Bool) (client : Nat) : Standing -> List Event -> Standing × List Effect
  | p, [] => (p, [])
  | p, event :: rest =>
      let next := p.follow keepAlive client event
      let last := watch keepAlive client next.1 rest
      (last.1, next.2 ++ last.2)

variable {keepAlive : Bool} {p : Standing} {v : Visitor} {session : Session}

theorem watch_append (front back : List Event) :
    p.watch keepAlive client (front ++ back) =
      (((p.watch keepAlive client front).1.watch keepAlive client back).1,
        (p.watch keepAlive client front).2 ++
          ((p.watch keepAlive client front).1.watch keepAlive client back).2) := by
  induction front generalizing p with
  | nil => rfl
  | cons event rest ih =>
      rw [List.cons_append, watch, watch, ih]
      simp

theorem admits_append (front back : List Event) :
    p.Admits keepAlive client (front ++ back) ↔
      p.Admits keepAlive client front ∧
        (p.watch keepAlive client front).1.Admits keepAlive client back := by
  induction front generalizing p with
  | nil => simp [Admits, watch]
  | cons event rest ih =>
      rw [List.cons_append, Admits, Admits, ih, watch, and_assoc]

/-!
### When a client is accepted
-/

theorem watch_waiting (parts : List (List Http.Input)) :
    watch keepAlive client ⟨some v, none⟩ (parts.map (.input client)) =
      (⟨some { v with inbox := v.inbox ++ parts.flatten.filter doneByClient }, none⟩, []) := by
  induction parts generalizing v with
  | nil => simp [watch]
  | cons inputs rest ih =>
      rw [List.map_cons, watch]
      simp only [follow, Option.map_some, ih]
      simp

theorem watch_served (parts : List (List Http.Input)) :
    watch keepAlive client ⟨none, some session⟩ (parts.map (.input client)) =
      (⟨none, some (session.run keepAlive parts.flatten).1⟩,
        seenBy client (sessionEffects client session (session.run keepAlive parts.flatten).1
          (session.run keepAlive parts.flatten).2)) := by
  induction parts generalizing session with
  | nil => cases h : session.isClosed <;> simp [watch, sessionEffects, h]
  | cons inputs rest ih =>
      rw [List.map_cons, watch]
      simp only [follow, ih, List.flatten_cons, sessionEffects_append, seenBy_append]
      rw [Session.run_append]

theorem admits_inputs (h : p.waiting.isSome ∨ p.session.isSome)
    (parts : List (List Http.Input)) :
    p.Admits keepAlive client (parts.map (.input client)) := by
  induction parts generalizing p with
  | nil => trivial
  | cons inputs rest ih =>
      refine ⟨⟨rfl, h⟩, ih ?_⟩
      cases hsession : p.session with
      | none => simpa [follow, hsession] using h
      | some session => simp [follow, hsession]

theorem follow_accept_of_empty (hinbox : v.inbox = []) :
    follow keepAlive client ⟨some v, none⟩ .accept = (⟨none, some .start⟩, []) := by
  simp only [follow, hinbox]
  rfl

section Sooner

variable {parts : List (List Http.Input)} {rest : List Event}
    (halike : Session.ReadsAlike keepAlive parts)

include halike

theorem watch_sooner (hinbox : v.inbox = []) :
    watch keepAlive client ⟨some v, none⟩ (.accept :: (parts.map (.input client) ++ rest)) =
      watch keepAlive client ⟨some v, none⟩ (parts.map (.input client) ++ .accept :: rest) := by
  unfold Session.ReadsAlike at halike
  rw [watch, follow_accept_of_empty hinbox, watch_append, watch_append, watch_served,
    watch_waiting, watch]
  simp only [follow, hinbox, List.nil_append, halike]

theorem admits_sooner (hinbox : v.inbox = [])
    (h : Admits keepAlive client ⟨some v, none⟩ (parts.map (.input client) ++ .accept :: rest)) :
    Admits keepAlive client ⟨some v, none⟩ (.accept :: (parts.map (.input client) ++ rest)) := by
  unfold Session.ReadsAlike at halike
  have hlater := ((admits_append _ _).mp h).right.right
  rw [watch_waiting] at hlater
  simp only [follow, hinbox, List.nil_append, halike] at hlater
  refine ⟨rfl, ?_⟩
  rw [follow_accept_of_empty hinbox]
  refine (admits_append _ _).mpr ⟨admits_inputs (Or.inr rfl) parts, ?_⟩
  rw [watch_served]
  exact hlater

end Sooner

end Standing

theorem serving?_advance (s : Server) (c : Serving) (inputs : List Http.Input) (client : Nat) :
    (s.advance c inputs).1.serving? client = (s.serving? client).map fun d =>
      if d.client = c.client then { d with session := (c.session.run s.keepAlive inputs).1 }
      else d := by
  refine find?_map_of_key Serving.client ?_ s.serving client
  intro d
  by_cases hd : d.client = c.client <;> simp [hd]

theorem keep_client (other : Nat) (inputs : List Http.Input) (v : Visitor) :
    (if v.client = other then { v with inbox := v.inbox ++ inputs.filter doneByClient }
      else v).client = v.client := by
  split <;> rfl

theorem standing_eq {waiting : Option Visitor} {session : Option Session}
    (hwaiting : s.visitor? client = waiting)
    (hsession : (s.serving? client).map Serving.session = session) :
    s.standing client = ⟨waiting, session⟩ := by
  rw [standing, hwaiting, hsession]

/-!
## Steps that are about a client
-/

theorem standing_arrive {peer : SocketAddress} (hs : s.Sound)
    (h : s.arrive? client peer = some (t, effects)) :
    (t.standing client, seenBy client effects) =
      (s.standing client).follow s.keepAlive client (.arrive client peer) := by
  have ht := sound_arrive hs h
  rcases arrive?_eq_some h with ⟨_, _, rfl, rfl⟩
  have hmem : { client := client, peer := peer } ∈
      s.visitors ++ [{ client := client, peer := peer }] := by
    simp
  have hwaiting := visitor?_of_mem ht hmem
  rw [standing_eq hwaiting rfl]
  rfl

theorem standing_accept (hs : s.Sound) (h : s.accept? = some (t, effects))
    (hfirst : s.acceptor.queue.head? = some client) :
    (t.standing client, seenBy client effects) =
      (s.standing client).follow s.keepAlive client .accept := by
  have ht := sound_accept hs h
  rcases accept_cases hs h with ⟨a, v, rest, acceptor, tracking, _, hvisitors, _, _, heq, rfl⟩
  rcases visitor?_of_cons hs hvisitors with ⟨hwaiting, hhead, _⟩
  cases hhead.symm.trans hfirst
  have hbegun : s.begun v ∈ t.serving := by
    simp [heq]
  have hgone : t.visitor? v.client = none := not_waiting_of_served ht hbegun
  have hserved : t.serving? v.client = some (s.begun v) := serving?_of_mem ht hbegun
  rw [standing_eq hgone (congrArg (Option.map Serving.session) hserved),
    standing_eq hwaiting rfl]
  rfl

theorem standing_input {inputs : List Http.Input}
    (h : s.input? client inputs = some (t, effects)) :
    (t.standing client, seenBy client effects) =
      (s.standing client).follow s.keepAlive client (.input client inputs) := by
  rcases input?_eq_some h with ⟨c, hserving, rfl, rfl⟩ | ⟨hserving, ⟨v, hwaiting⟩, heq, rfl⟩
  · have hclient := (mem_of_serving? hserving).right
    have hserved := serving?_advance s c inputs client
    rw [hserving, Option.map_some, if_pos rfl] at hserved
    rw [standing_eq rfl (congrArg (Option.map Serving.session) hserved),
      standing_eq rfl (congrArg (Option.map Serving.session) hserving)]
    simp only [Standing.follow, advance, hclient, Option.map_some]
    rfl
  · have hkept : t.visitor? client =
        some { v with inbox := v.inbox ++ inputs.filter doneByClient } := by
      rw [heq]
      refine (find?_map_of_key Visitor.client (keep_client client inputs) s.visitors client).trans ?_
      rw [show s.visitors.find? _ = some v from hwaiting, Option.map_some,
        if_pos (mem_of_visitor? hwaiting).right]
    have hserving' : t.serving? client = none := by
      rw [heq]
      exact hserving
    rw [standing_eq hkept (congrArg (Option.map Serving.session) hserving'),
      standing_eq hwaiting (congrArg (Option.map Serving.session) hserving)]
    rfl

theorem standing_conclude (h : s.conclude? client = some (t, effects)) :
    (t.standing client, seenBy client effects) =
      (s.standing client).follow s.keepAlive client (.conclude client) := by
  rcases conclude?_eq_some h with ⟨c, acceptor, tracking, _, _, _, _, heq, rfl⟩
  have hsame : t.visitor? client = s.visitor? client := by
    rw [heq]
    rfl
  have hgone : t.serving? client = none := by
    rw [heq]
    refine (List.find?_filter).trans ?_
    simp
  rw [standing_eq hsame (congrArg (Option.map Serving.session) hgone)]
  rfl

theorem standing_step {event : Event} (hs : s.Sound) (h : s.step? event = some (t, effects))
    (hconcerns : s.concerns client event = true) :
    (t.standing client, seenBy client effects) =
      (s.standing client).follow s.keepAlive client event := by
  cases event with
  | arrive other peer =>
      cases beq_iff_eq.mp hconcerns
      exact standing_arrive hs h
  | accept => exact standing_accept hs h (beq_iff_eq.mp hconcerns)
  | input other inputs =>
      cases beq_iff_eq.mp hconcerns
      exact standing_input h
  | conclude other =>
      cases beq_iff_eq.mp hconcerns
      exact standing_conclude h
  | _ => cases hconcerns

/-!
## Steps that are about others
-/

theorem standing_input_other {other : Nat} {inputs : List Http.Input} (hne : other ≠ client)
    (h : s.input? other inputs = some (t, effects)) :
    t.standing client = s.standing client ∧ seenBy client effects = [] := by
  rcases input?_eq_some h with ⟨c, hserving, rfl, rfl⟩ | ⟨_, _, heq, rfl⟩
  · have hclient := (mem_of_serving? hserving).right
    refine ⟨?_, seenBy_sessionEffects (hclient ▸ hne) ..⟩
    refine standing_eq rfl ?_
    rw [serving?_advance]
    cases hfound : s.serving? client with
    | none => rfl
    | some d =>
        have hd : d.client ≠ c.client := by
          rw [(mem_of_serving? hfound).right, hclient]
          exact hne.symm
        rw [Option.map_some, if_neg hd]
  · refine ⟨?_, rfl⟩
    have hsame : t.visitor? client = s.visitor? client := by
      rw [heq]
      refine (find?_map_of_key Visitor.client (keep_client other inputs) s.visitors client).trans ?_
      cases hfound : s.visitor? client with
      | none =>
          rw [show s.visitors.find? _ = none from hfound]
          rfl
      | some v =>
          have hv : v.client ≠ other := by
            rw [(mem_of_visitor? hfound).right]
            exact hne.symm
          rw [show s.visitors.find? _ = some v from hfound, Option.map_some, if_neg hv]
    refine standing_eq hsame ?_
    rw [heq]
    rfl

theorem standing_step_other {event : Event} (hs : s.Sound) (hgoes : s.goesOn = true)
    (h : s.step? event = some (t, effects)) (hconcerns : s.concerns client event = false) :
    t.standing client = s.standing client ∧ seenBy client effects = [] := by
  cases event with
  | arrive other peer =>
      have hne : other ≠ client := by
        simpa [concerns] using hconcerns
      rcases arrive?_eq_some h with ⟨_, _, heq, rfl⟩
      have hsame : t.visitor? client = s.visitor? client := by
        rw [heq]
        exact find?_append_of_ne Visitor.client hne s.visitors
      refine ⟨standing_eq hsame ?_, rfl⟩
      rw [heq]
      rfl
  | accept =>
      rcases accept_cases hs h with ⟨a, v, rest, acceptor, tracking, _, hvisitors, _, _, heq, rfl⟩
      rcases visitor?_of_cons hs hvisitors with ⟨_, hhead, _⟩
      have hne : v.client ≠ client := by
        simpa [concerns, hhead] using hconcerns
      have hsame : t.visitor? client = s.visitor? client := by
        rw [heq, visitor?, visitor?, hvisitors, List.find?_cons_of_neg (by simpa using hne)]
      have hserving : t.serving? client = s.serving? client := by
        rw [heq]
        exact find?_append_of_ne Serving.client hne s.serving
      refine ⟨standing_eq hsame (congrArg (Option.map Serving.session) hserving), ?_⟩
      simp only [seenBy_logged, serve]
      exact seenBy_sessionEffects hne ..
  | acceptFails error =>
      rcases acceptFails?_eq_some h with ⟨a, acceptor, _, _, hcases⟩
      rcases hcases with ⟨_, rfl, rfl⟩ | ⟨_, rfl, rfl⟩ <;> exact ⟨rfl, rfl⟩
  | acceptIsRefused =>
      have hnone := acceptIsRefused?_eq_none hs
      exact absurd (hnone.symm.trans h) (by simp)
  | backOffEnds =>
      rcases backOffEnds?_eq_some h with ⟨_, rfl, rfl⟩
      exact ⟨rfl, rfl⟩
  | input other inputs => exact standing_input_other (by simpa [concerns] using hconcerns) h
  | conclude other =>
      have hne : other ≠ client := by
        simpa [concerns] using hconcerns
      rcases conclude?_eq_some h with ⟨c, acceptor, tracking, _, _, _, _, heq, rfl⟩
      have hserving : t.serving? client = s.serving? client := by
        rw [heq]
        exact find?_filter_of_ne Serving.client hne.symm s.serving
      refine ⟨standing_eq ?_ (congrArg (Option.map Serving.session) hserving), rfl⟩
      rw [heq]
      rfl
  | heed =>
      rcases heed?_eq_some h with ⟨a, acceptor, _, _, rfl, rfl⟩
      exact ⟨rfl, rfl⟩
  | unbind =>
      rcases unbind?_eq_some h with ⟨hstage, _⟩
      simp [goesOn, hstage] at hgoes
  | drain =>
      rcases drain?_eq_some h with ⟨hstage, _⟩
      simp [goesOn, hstage] at hgoes
  | finish =>
      rcases finish?_eq_some h with ⟨_, _, rfl, rfl⟩
      exact ⟨rfl, rfl⟩
  | abandon =>
      rcases abandon?_eq_some h with ⟨_, rfl, rfl⟩
      exact ⟨rfl, rfl⟩

end Server
end ConstantReply
