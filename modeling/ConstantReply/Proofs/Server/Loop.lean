import ConstantReply.Proofs.Server.Soundness

/-!
# The accept loop

The loop is left through the word to end only, whatever accepts fail.  Every stream that an accept
has returned belongs to one connection, which is watched, and holds the permit of the stream until
it has ended.  Once the loop is left nothing more is taken; the listener is dropped before the
connections are told, and the server stops when none of them is left or the time is over.
-/

namespace ConstantReply
namespace Server

variable {s t : Server} {effects : List Effect}

/-!
## What a run has taken and ended
-/

def collect {α : Type} (part : Server -> Event -> List α) : Server -> List Event -> List α
  | _, [] => []
  | s, event :: rest =>
      match s.step? event with
      | none => []
      | some (next, _) => part s event ++ next.collect part rest

def taken (s : Server) : Event -> List (Nat × Nat)
  | .accept => s.acceptor.queue.head?.toList.map fun client => (s.acceptor.nextPermit, client)
  | _ => []

def finished (s : Server) : Event -> List Serving
  | .conclude client => (s.serving? client).toList
  | _ => []

def streams (s : Server) (events : List Event) : List (Nat × Nat) := s.collect taken events

def ended (s : Server) (events : List Event) : List Serving := s.collect finished events

theorem collect_concat {α : Type} (part : Server -> Event -> List α) {events : List Event}
    {event : Event} {u : Server} {before : List Effect} (h : s.run? events = some (u, before))
    (hstep : (u.step? event).isSome) :
    s.collect part (events ++ [event]) = s.collect part events ++ part u event := by
  induction events generalizing s before with
  | nil =>
      cases h
      rcases Option.isSome_iff_exists.mp hstep with ⟨next, hnext⟩
      simp [collect, hnext]
  | cons first rest ih =>
      rcases run?_cons_eq_some h with ⟨v, told, more, hfirst, hrest, _⟩
      simp only [List.cons_append, collect, hfirst, ih hrest, List.append_assoc]

/-!
## Permits are numbered in order
-/

theorem taken_cases (s : Server) (event : Event) :
    s.taken event = [] ∨ exists client, s.taken event = [(s.acceptor.nextPermit, client)] := by
  cases event with
  | accept =>
      cases hqueue : s.acceptor.queue with
      | nil => exact Or.inl (by simp [taken, hqueue])
      | cons client rest => exact Or.inr ⟨client, by simp [taken, hqueue]⟩
  | _ => exact Or.inl rfl

theorem numbers_step {event : Event} (hs : s.Sound) (h : s.step? event = some (t, effects)) :
    t.keepAlive = s.keepAlive ∧ t.acceptor.limit = s.acceptor.limit ∧
      t.acceptor.nextPermit = s.acceptor.nextPermit + (s.taken event).length := by
  have hstart : forall acceptor : Acceptor, acceptor.start.limit = acceptor.limit :=
    fun acceptor => Acceptor.limit_step (s := acceptor) .start rfl
  cases event with
  | arrive client peer =>
      rcases arrive?_eq_some h with ⟨_, _, rfl, _⟩
      exact ⟨rfl, rfl, rfl⟩
  | accept =>
      rcases accept_cases hs h with
        ⟨a, v, rest, acceptor, tracking, _, _, hcomplete, _, rfl, _⟩
      have hslots := Acceptor.sound_complete hs.slots hcomplete
      have hlimit := Acceptor.limit_step (.complete a) hcomplete
      rcases Acceptor.complete?_eq_some hcomplete with ⟨client, more, hqueue, _, heq⟩
      have hlength : (s.taken .accept).length = 1 := by
        simp [taken, hqueue]
      refine ⟨rfl, (hstart acceptor).trans hlimit, ?_⟩
      show acceptor.start.nextPermit = _
      rw [(Acceptor.start_same hslots.toOrderly).right.left, hlength, heq]
  | acceptFails error =>
      rcases acceptFails?_eq_some h with ⟨a, acceptor, _, hfail, hcases⟩
      have hslots := Acceptor.sound_fail hs.slots hfail
      have hlimit := Acceptor.limit_step (.fail a error) hfail
      have hnext : acceptor.nextPermit = s.acceptor.nextPermit := by
        rcases Acceptor.fail?_eq_some hfail with ⟨_, rfl⟩
        exact Acceptor.nextPermit_putBack
      rcases hcases with ⟨_, rfl, _⟩ | ⟨_, rfl, _⟩
      · exact ⟨rfl, (hstart acceptor).trans hlimit,
          (Acceptor.start_same hslots.toOrderly).right.left.trans hnext⟩
      · exact ⟨rfl, hlimit, hnext⟩
  | acceptIsRefused =>
      have hnone := acceptIsRefused?_eq_none hs
      exact absurd (hnone.symm.trans h) (by simp)
  | backOffEnds =>
      rcases backOffEnds?_eq_some h with ⟨_, rfl, _⟩
      exact ⟨rfl, hstart s.acceptor, (Acceptor.start_same hs.slots.toOrderly).right.left⟩
  | input client inputs =>
      rcases input?_eq_some h with ⟨c, _, rfl, _⟩ | ⟨_, _, rfl, _⟩ <;> exact ⟨rfl, rfl, rfl⟩
  | conclude client =>
      rcases conclude?_eq_some h with ⟨c, acceptor, tracking, _, _, hrelease, _, rfl, _⟩
      have hlimit := Acceptor.limit_step (.release c.permit) hrelease
      rcases Acceptor.release?_eq_some hrelease with ⟨_, rfl⟩
      exact ⟨rfl, hlimit, Acceptor.nextPermit_putBack⟩
  | heed =>
      rcases heed?_eq_some h with ⟨a, acceptor, _, hcancel, rfl, _⟩
      have hlimit := Acceptor.limit_step (.cancel a) hcancel
      rcases Acceptor.cancel?_eq_some hcancel with ⟨_, rfl⟩ | ⟨_, _, rfl⟩
      · exact ⟨rfl, hlimit, Acceptor.nextPermit_putBack⟩
      · exact ⟨rfl, hlimit, rfl⟩
  | unbind =>
      rcases unbind?_eq_some h with ⟨_, rfl, _⟩
      exact ⟨rfl, rfl, rfl⟩
  | drain =>
      rcases drain?_eq_some h with ⟨_, rfl, _⟩
      rw [(alike_tellAll { s with stage := .draining }).rest]
      exact ⟨rfl, rfl, rfl⟩
  | finish =>
      rcases finish?_eq_some h with ⟨_, _, rfl, _⟩
      exact ⟨rfl, rfl, rfl⟩
  | abandon =>
      rcases abandon?_eq_some h with ⟨_, rfl, _⟩
      exact ⟨rfl, rfl, rfl⟩

/-!
## Where a stream is
-/

theorem serving_step {event : Event} (hs : s.Sound) (h : s.step? event = some (t, effects)) :
    t.serving.map Serving.stream =
      (s.serving.filter fun c => c ∉ s.finished event).map Serving.stream ++ s.taken event := by
  have hkept : t.serving.map Serving.stream = s.serving.map Serving.stream ->
      s.finished event = [] -> s.taken event = [] ->
      t.serving.map Serving.stream =
        (s.serving.filter fun c => c ∉ s.finished event).map Serving.stream ++ s.taken event := by
    intro hserving hfinished htaken
    simp [hserving, hfinished, htaken]
  cases event with
  | arrive client peer =>
      rcases arrive?_eq_some h with ⟨_, _, rfl, _⟩
      exact hkept rfl rfl rfl
  | accept =>
      rcases accept_cases hs h with
        ⟨a, v, rest, acceptor, tracking, _, hvisitors, hcomplete, _, rfl, _⟩
      rcases visitor?_of_cons hs hvisitors with ⟨_, hhead, _⟩
      have htaken : s.taken .accept = [(s.begun v).stream] := by
        simp [taken, hhead, begun, Serving.stream]
      simp [finished, htaken]
  | acceptFails error =>
      rcases acceptFails?_eq_some h with ⟨a, acceptor, _, _, hcases⟩
      rcases hcases with ⟨_, rfl, _⟩ | ⟨_, rfl, _⟩ <;> exact hkept rfl rfl rfl
  | acceptIsRefused =>
      have hnone := acceptIsRefused?_eq_none hs
      exact absurd (hnone.symm.trans h) (by simp)
  | backOffEnds =>
      rcases backOffEnds?_eq_some h with ⟨_, rfl, _⟩
      exact hkept rfl rfl rfl
  | input client inputs =>
      rcases input?_eq_some h with ⟨c, _, rfl, _⟩ | ⟨_, _, rfl, _⟩
      · exact hkept ((alike_advance s c inputs).map_eq fun _ => rfl) rfl rfl
      · exact hkept rfl rfl rfl
  | conclude client =>
      rcases conclude?_eq_some h with ⟨c, acceptor, tracking, hserving, _, _, _, rfl, _⟩
      rcases mem_of_serving? hserving with ⟨hc, rfl⟩
      have hsame : (s.serving.filter fun d => d.client != c.client) =
          s.serving.filter fun d => d ∉ s.finished (.conclude c.client) := by
        apply List.filter_congr
        intro d hd
        have hclient : d.client = c.client ↔ d = c :=
          ⟨List.inj_on_of_nodup_map (nodup_serving hs) hd hc, congrArg Serving.client⟩
        simp [finished, hserving, bne, beq_eq_decide, ← hclient]
      simp [hsame, taken]
  | heed =>
      rcases heed?_eq_some h with ⟨a, acceptor, _, _, rfl, _⟩
      exact hkept rfl rfl rfl
  | unbind =>
      rcases unbind?_eq_some h with ⟨_, rfl, _⟩
      exact hkept rfl rfl rfl
  | drain =>
      rcases drain?_eq_some h with ⟨_, rfl, _⟩
      exact hkept ((alike_tellAll { s with stage := .draining }).map_eq fun _ => rfl) rfl rfl
  | finish =>
      rcases finish?_eq_some h with ⟨_, _, rfl, _⟩
      exact hkept rfl rfl rfl
  | abandon =>
      rcases abandon?_eq_some h with ⟨_, rfl, _⟩
      exact hkept rfl rfl rfl

theorem perm_finished (hs : s.Sound) (event : Event) :
    s.serving.Perm (s.finished event ++ s.serving.filter fun c => c ∉ s.finished event) := by
  have hnone : s.finished event = [] ->
      s.serving.Perm (s.finished event ++ s.serving.filter fun c => c ∉ s.finished event) := by
    intro hfinished
    simp [hfinished]
  cases event with
  | conclude client =>
      cases hserving : s.serving? client with
      | none => exact hnone (by simp [finished, hserving])
      | some c =>
          have hfinished : s.finished (.conclude client) = [c] := by
            simp [finished, hserving]
          have hnodup : s.serving.Nodup := (nodup_serving hs).of_map
          have herase : (s.serving.filter fun d => d ∉ s.finished (.conclude client)) =
              s.serving.erase c := by
            rw [hnodup.erase_eq_filter, hfinished]
            simp [bne, beq_eq_decide]
          rw [herase, hfinished]
          exact List.perm_cons_erase (mem_of_serving? hserving).left
  | _ => exact hnone rfl

theorem streams_step {event : Event} (hs : s.Sound) (h : s.step? event = some (t, effects)) :
    (s.taken event ++ s.serving.map Serving.stream).Perm
      ((s.finished event).map Serving.stream ++ t.serving.map Serving.stream) := by
  have hperm := (perm_finished hs event).map Serving.stream
  rw [List.map_append] at hperm
  rw [serving_step hs h, ← List.append_assoc]
  exact List.perm_append_comm.trans (hperm.append_right _)

theorem isClosed_of_finished {event : Event} {c : Serving}
    (h : s.step? event = some (t, effects)) (hc : c ∈ s.finished event) :
    c.session.isClosed = true := by
  cases event with
  | conclude client =>
      rcases conclude?_eq_some h with ⟨d, acceptor, tracking, hserving, hclosed, _⟩
      have hsame : c = d := by simpa [finished, hserving] using hc
      rw [hsame]
      exact hclosed
  | _ => cases hc

/-!
## How far the server has come
-/

/-- The stage before a step, the step, and the stage after it. -/
inductive Moves : Stage -> Event -> Stage -> Prop where
  | arrive (stage : Stage) (client : Nat) (peer : SocketAddress) :
      Moves stage (.arrive client peer) stage
  | input (stage : Stage) (client : Nat) (inputs : List Http.Input) :
      Moves stage (.input client inputs) stage
  | conclude (stage : Stage) (client : Nat) : Moves stage (.conclude client) stage
  | accept (a b : Nat) : Moves (.accepting a) .accept (.accepting b)
  | skip (a b : Nat) (error : SystemError) :
      Moves (.accepting a) (.acceptFails error) (.accepting b)
  | backOff (a : Nat) (error : SystemError) : Moves (.accepting a) (.acceptFails error) .backingOff
  | goOn (b : Nat) : Moves .backingOff .backOffEnds (.accepting b)
  | heed (a : Nat) : Moves (.accepting a) .heed .leaving
  | unbind : Moves .leaving .unbind .unbound
  | drain : Moves .unbound .drain .draining
  | finish : Moves .draining .finish (.stopped true)
  | abandon : Moves .draining .abandon (.stopped false)

theorem moves_of_step {event : Event} (hs : s.Sound) (h : s.step? event = some (t, effects)) :
    Moves s.stage event t.stage := by
  cases event with
  | arrive client peer =>
      rcases arrive?_eq_some h with ⟨_, _, rfl, _⟩
      exact .arrive _ _ _
  | accept =>
      rcases accept_cases hs h with ⟨a, v, rest, acceptor, tracking, hstage, _, _, _, rfl, _⟩
      exact hstage ▸ .accept _ _
  | acceptFails error =>
      rcases acceptFails?_eq_some h with ⟨a, acceptor, hstage, _, hcases⟩
      rcases hcases with ⟨_, rfl, _⟩ | ⟨_, rfl, _⟩
      · exact hstage ▸ .skip _ _ _
      · exact hstage ▸ .backOff _ _
  | acceptIsRefused =>
      have hnone := acceptIsRefused?_eq_none hs
      exact absurd (hnone.symm.trans h) (by simp)
  | backOffEnds =>
      rcases backOffEnds?_eq_some h with ⟨hstage, rfl, _⟩
      exact hstage ▸ .goOn _
  | input client inputs =>
      rcases input?_eq_some h with ⟨c, _, rfl, _⟩ | ⟨_, _, rfl, _⟩ <;> exact .input _ _ _
  | conclude client =>
      rcases conclude?_eq_some h with ⟨c, acceptor, tracking, _, _, _, _, rfl, _⟩
      exact .conclude _ _
  | heed =>
      rcases heed?_eq_some h with ⟨a, acceptor, hstage, _, rfl, _⟩
      exact hstage ▸ .heed _
  | unbind =>
      rcases unbind?_eq_some h with ⟨hstage, rfl, _⟩
      exact hstage ▸ .unbind
  | drain =>
      rcases drain?_eq_some h with ⟨hstage, rfl, _⟩
      rw [(alike_tellAll { s with stage := .draining }).rest, hstage]
      exact .drain
  | finish =>
      rcases finish?_eq_some h with ⟨hstage, _, rfl, _⟩
      exact hstage ▸ .finish
  | abandon =>
      rcases abandon?_eq_some h with ⟨hstage, rfl, _⟩
      exact hstage ▸ .abandon

def Passed (events : List Event) : Stage -> Prop
  | .accepting _ => True
  | .backingOff => True
  | .leaving => .heed ∈ events
  | .unbound => .heed ∈ events ∧ .unbind ∈ events
  | .draining => .heed ∈ events ∧ .unbind ∈ events ∧ .drain ∈ events
  | .stopped drained =>
      (.heed ∈ events ∧ .unbind ∈ events ∧ .drain ∈ events) ∧ (drained = true ∨ .abandon ∈ events)
  | .failed _ => False

theorem Passed.append {events : List Event} {stage : Stage} (h : Passed events stage)
    (more : List Event) : Passed (events ++ more) stage := by
  have hmem : forall {event : Event}, event ∈ events -> event ∈ events ++ more :=
    fun hevent => List.mem_append_left more hevent
  cases stage with
  | accepting a => trivial
  | backingOff => trivial
  | leaving => exact hmem h
  | unbound => exact ⟨hmem h.left, hmem h.right⟩
  | draining => exact ⟨hmem h.left, hmem h.right.left, hmem h.right.right⟩
  | stopped drained =>
      rcases h with ⟨⟨hheed, hunbind, hdrain⟩, hend⟩
      exact ⟨⟨hmem hheed, hmem hunbind, hmem hdrain⟩, hend.imp_right hmem⟩
  | failed error => exact h

theorem goesOn_of_passed {events : List Event} (h : Passed events s.stage)
    (hheed : .heed ∉ events) : s.goesOn = true := by
  cases hstage : s.stage <;> rw [hstage] at h
  case accepting a => simp [goesOn, hstage]
  case backingOff => simp [goesOn, hstage]
  case leaving => exact absurd h hheed
  case unbound => exact absurd h.left hheed
  case draining => exact absurd h.left hheed
  case stopped drained => exact absurd h.left.left hheed
  case failed error => exact h.elim

theorem passed_of_goesOn (h : s.goesOn = true) : Passed [] s.stage := by
  unfold goesOn at h
  split at h
  next a hstage => rw [hstage]; trivial
  next hstage => rw [hstage]; trivial
  · cases h

theorem result?_of_goesOn (h : s.goesOn = true) : s.result? = none := by
  unfold goesOn at h
  split at h
  next a hstage => simp [result?, hstage]
  next hstage => simp [result?, hstage]
  · cases h

theorem Passed.concat {events : List Event} {event : Event} {before after : Stage}
    (h : Passed events before) (hmoves : Moves before event after) :
    Passed (events ++ [event]) after := by
  have hlast : event ∈ events ++ [event] := by
    simp
  have hsooner : forall {other : Event}, other ∈ events -> other ∈ events ++ [event] :=
    fun hmem => List.mem_append_left _ hmem
  cases hmoves with
  | arrive => exact h.append _
  | input => exact h.append _
  | conclude => exact h.append _
  | accept => trivial
  | skip => trivial
  | backOff => trivial
  | goOn => trivial
  | heed => exact hlast
  | unbind => exact ⟨hsooner h, hlast⟩
  | drain => exact ⟨hsooner h.left, hsooner h.right, hlast⟩
  | finish =>
      exact ⟨⟨hsooner h.left, hsooner h.right.left, hsooner h.right.right⟩, Or.inl rfl⟩
  | abandon =>
      exact ⟨⟨hsooner h.left, hsooner h.right.left, hsooner h.right.right⟩, Or.inr hlast⟩

theorem goesOn_step {event : Event} (hs : s.Sound) (hgoes : s.goesOn = true)
    (h : s.step? event = some (t, effects)) (hevent : event ≠ .heed) : t.goesOn = true :=
  goesOn_of_passed ((passed_of_goesOn hgoes).concat (moves_of_step hs h))
    (by simpa using hevent.symm)

/-!
## After the loop
-/

theorem after_leaving {event : Event} (hs : s.Sound) (hgone : s.goesOn = false)
    (h : s.step? event = some (t, effects)) :
    t.goesOn = false ∧ s.taken event = [] ∧
      (t.serving.map Serving.stream).Sublist (s.serving.map Serving.stream) := by
  have hstages : t.goesOn = false ∧ s.taken event = [] := by
    have hmoves := moves_of_step hs h
    revert hgone hmoves
    rw [goesOn, goesOn]
    generalize s.stage = before
    generalize t.stage = after
    intro hgone hmoves
    cases hmoves with
    | arrive => exact ⟨hgone, rfl⟩
    | input => exact ⟨hgone, rfl⟩
    | conclude => exact ⟨hgone, rfl⟩
    | unbind => exact ⟨rfl, rfl⟩
    | drain => exact ⟨rfl, rfl⟩
    | finish => exact ⟨rfl, rfl⟩
    | abandon => exact ⟨rfl, rfl⟩
    | _ => cases hgone
  refine ⟨hstages.left, hstages.right, ?_⟩
  rw [serving_step hs h, hstages.right, List.append_nil]
  exact List.filter_sublist.map _

theorem run_after_leaving {events : List Event} (hs : s.Sound) (hgone : s.goesOn = false)
    (h : s.run? events = some (t, effects)) :
    t.goesOn = false ∧ s.streams events = [] ∧
      (t.serving.map Serving.stream).Sublist (s.serving.map Serving.stream) := by
  induction events generalizing s effects with
  | nil =>
      cases h
      exact ⟨hgone, rfl, List.Sublist.refl _⟩
  | cons event rest ih =>
      rcases run?_cons_eq_some h with ⟨u, told, more, hstep, hrest, _⟩
      rcases after_leaving hs hgone hstep with ⟨hleft, hnone, hsub⟩
      rcases ih (sound_step hs hstep) hleft hrest with ⟨hlast, hnothing, hmore⟩
      refine ⟨hlast, ?_, hmore.trans hsub⟩
      simp only [streams, collect, hstep, hnone] at hnothing ⊢
      exact hnothing

theorem after_unbinding {event : Event} (hs : s.Sound) (hgone : s.isListening = false)
    (h : s.step? event = some (t, effects)) :
    t.isListening = false ∧ forall client peer, event ≠ .arrive client peer := by
  constructor
  · have hmoves := moves_of_step hs h
    revert hgone hmoves
    simp only [isListening, goesOn]
    generalize s.stage = before
    generalize t.stage = after
    intro hgone hmoves
    cases hmoves with
    | arrive => exact hgone
    | input => exact hgone
    | conclude => exact hgone
    | drain => rfl
    | finish => rfl
    | abandon => rfl
    | _ => cases hgone
  · intro client peer hevent
    subst hevent
    rcases arrive?_eq_some h with ⟨hlistening, _⟩
    rw [hgone] at hlistening
    cases hlistening

theorem run_after_unbinding {events : List Event} (hs : s.Sound) (hgone : s.isListening = false)
    (h : s.run? events = some (t, effects)) (client : Nat) (peer : SocketAddress) :
    .arrive client peer ∉ events := by
  induction events generalizing s effects with
  | nil => simp
  | cons event rest ih =>
      rcases run?_cons_eq_some h with ⟨u, told, more, hstep, hrest, _⟩
      rcases after_unbinding hs hgone hstep with ⟨hstill, hevent⟩
      intro hmem
      rcases List.mem_cons.mp hmem with heq | hmem
      · exact hevent client peer heq.symm
      · exact ih (sound_step hs hstep) hstill hrest hmem

theorem drained_step {event : Event} (hs : s.Sound)
    (hdrained : s.stage = .stopped true -> s.serving = [])
    (h : s.step? event = some (t, effects)) (hstage : t.stage = .stopped true) :
    t.serving = [] := by
  have hkept : s.stage = .stopped true -> t.serving = [] := by
    intro hstopped
    have hsub := (after_leaving hs (by simp [goesOn, hstopped]) h).right.right
    rw [hdrained hstopped] at hsub
    exact List.map_eq_nil_iff.mp (List.sublist_nil.mp hsub)
  have hmoves := moves_of_step hs h
  rw [hstage] at hmoves
  generalize hbefore : s.stage = before at hmoves
  cases hmoves with
  | arrive => exact hkept hbefore
  | input => exact hkept hbefore
  | conclude => exact hkept hbefore
  | finish =>
      rcases finish?_eq_some h with ⟨_, hwatched, rfl, _⟩
      exact List.map_eq_nil_iff.mp (hs.watched.symm.trans hwatched)

theorem exists_end (hs : s.Sound) (hgone : s.goesOn = false) (hopen : s.result? = none) :
    exists rest t told, rest.Sublist [.unbind, .drain, .abandon] ∧
      s.run? rest = some (t, told) ∧ t.result? = some (.ok ()) := by
  have hdraining : forall u : Server, u.stage = .draining -> exists t told,
      u.run? [.abandon] = some (t, told) ∧ t.result? = some (.ok ()) := by
    intro u hstage
    have hstep : u.step? .abandon = some ({ u with stage := .stopped false }, _) :=
      if_pos hstage
    exact ⟨_, _, run?_cons_of_step hstep rfl, rfl⟩
  have hunbound : forall u : Server, u.stage = .unbound -> exists t told,
      u.run? [.drain, .abandon] = some (t, told) ∧ t.result? = some (.ok ()) := by
    intro u hstage
    have hstep : u.step? .drain = some (({ u with stage := .draining }.tellAll).1, _) :=
      if_pos hstage
    have htold : ({ u with stage := .draining }.tellAll).1.stage = .draining := by
      rw [(alike_tellAll { u with stage := .draining }).rest]
    rcases hdraining _ htold with ⟨t, told, hrun, hresult⟩
    exact ⟨t, _, run?_cons_of_step hstep hrun, hresult⟩
  cases hstage : s.stage with
  | accepting a => simp [goesOn, hstage] at hgone
  | backingOff => simp [goesOn, hstage] at hgone
  | leaving =>
      have hstep : s.step? .unbind = some { s with stage := .unbound }.letGo := if_pos hstage
      rcases hunbound { s with stage := .unbound }.letGo.1 rfl with ⟨t, told, hrun, hresult⟩
      exact ⟨_, t, _, List.Sublist.refl _, run?_cons_of_step hstep hrun, hresult⟩
  | unbound =>
      rcases hunbound s hstage with ⟨t, told, hrun, hresult⟩
      exact ⟨_, t, told, List.sublist_cons_self _ _, hrun, hresult⟩
  | draining =>
      rcases hdraining s hstage with ⟨t, told, hrun, hresult⟩
      exact ⟨_, t, told, by simp, hrun, hresult⟩
  | stopped drained => simp [result?, hstage] at hopen
  | failed error => exact absurd hstage (hs.goesWell error)

/-!
## The conduct of the loop
-/

/-- What holds of a server with a limit after these steps. -/
structure Conduct (limit : Nat) (start : Server) (events : List Event) (s : Server) : Prop where
  staysInLoop : .heed ∉ events -> s.goesOn = true ∧ s.result? = none
  comesBack : s.stage = .backingOff -> exists t a,
    s.step? .backOffEnds = some (t, []) ∧ t.stage = .accepting a
  comesToEnd : s.goesOn = false -> s.result? = none -> exists rest t told,
    rest.Sublist [.unbind, .drain, .abandon] ∧ s.run? rest = some (t, told) ∧
      t.result? = some (.ok ())
  result : forall r, s.result? = some r -> r = .ok () ∧ .heed ∈ events
  handed : (start.streams events).Perm ((start.ended events ++ s.serving).map Serving.stream)
  handedOnce : ((start.streams events).map Prod.fst).Nodup
  endedItself : forall c, c ∈ start.ended events -> c.session.isClosed = true
  permits : s.acceptor.permits = s.serving.map Serving.stream
  watched : s.watched = s.serving.map Serving.client
  bounded : s.serving.length ≤ limit
  nothingTaken : forall front back, events = front ++ .heed :: back -> exists u before,
    start.run? (front ++ [.heed]) = some (u, before) ∧ u.streams back = [] ∧
      (s.serving.map Serving.stream).Sublist (u.serving.map Serving.stream)
  unboundBeforeDrain : forall front back, events = front ++ .drain :: back -> .unbind ∈ front
  nobodyComes : forall front back, events = front ++ .unbind :: back ->
    forall client peer, .arrive client peer ∉ back
  allEnded : s.result?.isSome -> (s.watched = [] ∧ s.serving = []) ∨ .abandon ∈ events

section Runs

variable {keepAlive : Bool} {limit : Nat} {events : List Event}

theorem streams_of_run (h : (create keepAlive limit).run? events = some (s, effects)) :
    ((create keepAlive limit).streams events).Perm
        (((create keepAlive limit).ended events ++ s.serving).map Serving.stream) ∧
      ((create keepAlive limit).streams events).map Prod.fst = List.range s.acceptor.nextPermit ∧
      forall c, c ∈ (create keepAlive limit).ended events -> c.session.isClosed = true := by
  induction events using List.reverseRecOn generalizing s effects with
  | nil =>
      cases h
      refine ⟨List.Perm.refl _, ?_, by simp [ended, collect]⟩
      rw [create, (Acceptor.start_same (Acceptor.sound_create limit).toOrderly).right.left]
      rfl
  | append_singleton events event ih =>
      rcases run?_concat_eq_some h with ⟨u, before, told, hfront, hstep, _⟩
      have hu := sound_of_run hfront
      have hsome : (u.step? event).isSome := by
        rw [hstep]
        rfl
      rcases ih hfront with ⟨hperm, hpermits, hclosed⟩
      have hmoved := streams_step hu hstep
      have hstreams : (create keepAlive limit).streams (events ++ [event]) =
          (create keepAlive limit).streams events ++ u.taken event :=
        collect_concat taken hfront hsome
      have hended : (create keepAlive limit).ended (events ++ [event]) =
          (create keepAlive limit).ended events ++ u.finished event :=
        collect_concat finished hfront hsome
      rw [hstreams, hended]
      refine ⟨?_, ?_, ?_⟩
      · rw [List.map_append] at hperm
        simp only [List.map_append, List.append_assoc]
        refine (hperm.append_right _).trans ?_
        rw [List.append_assoc]
        exact (List.perm_append_comm.trans hmoved).append_left _
      · rw [List.map_append, hpermits, (numbers_step hu hstep).right.right]
        rcases taken_cases u event with hnone | ⟨client, htaken⟩
        · simp [hnone]
        · simp [htaken, List.range_succ]
      · intro c hc
        rcases List.mem_append.mp hc with hc | hc
        · exact hclosed c hc
        · exact isClosed_of_finished hstep hc

theorem stage_of_run (h : (create keepAlive limit).run? events = some (s, effects)) :
    Passed events s.stage ∧ (s.stage = .stopped true -> s.serving = []) := by
  induction events using List.reverseRecOn generalizing s effects with
  | nil =>
      cases h
      exact ⟨trivial, by intro hstage; cases hstage⟩
  | append_singleton events event ih =>
      rcases run?_concat_eq_some h with ⟨u, before, told, hfront, hstep, _⟩
      have hu := sound_of_run hfront
      rcases ih hfront with ⟨hpassed, hdrained⟩
      exact ⟨hpassed.concat (moves_of_step hu hstep), drained_step hu hdrained hstep⟩

theorem limit_of_run (h : (create keepAlive limit).run? events = some (s, effects)) :
    s.acceptor.limit = limit := by
  have hboth : s.Sound ∧ s.acceptor.limit = limit := by
    refine run?_invariant (P := fun u => u.Sound ∧ u.acceptor.limit = limit)
      ⟨sound_create keepAlive limit, ?_⟩ ?_ h
    · exact Acceptor.limit_step (s := Acceptor.create limit) .start rfl
    · intro u v event told hu hstep
      exact ⟨sound_step hu.left hstep, (numbers_step hu.left hstep).right.left.trans hu.right⟩
  exact hboth.right

theorem length_serving_le (h : (create keepAlive limit).run? events = some (s, effects)) :
    s.serving.length ≤ limit := by
  rw [← limit_of_run h]
  exact length_serving_le_limit (sound_of_run h)

theorem left_of_heed {front back : List Event}
    (h : (create keepAlive limit).run? (front ++ .heed :: back) = some (s, effects)) :
    exists u before, (create keepAlive limit).run? (front ++ [.heed]) = some (u, before) ∧
      u.streams back = [] ∧ (s.serving.map Serving.stream).Sublist (u.serving.map Serving.stream) := by
  rw [List.append_cons] at h
  rcases run?_append_eq_some h with ⟨u, before, after, hfront, hback, _⟩
  have hu := sound_of_run hfront
  rcases run?_concat_eq_some hfront with ⟨v, _, told, _, hstep, _⟩
  rcases heed?_eq_some hstep with ⟨a, acceptor, _, _, rfl, _⟩
  exact ⟨_, before, hfront, (run_after_leaving hu rfl hback).right⟩

theorem unbind_mem_of_drain {front back : List Event}
    (h : (create keepAlive limit).run? (front ++ .drain :: back) = some (s, effects)) :
    .unbind ∈ front := by
  rcases run?_append_eq_some h with ⟨u, before, after, hfront, hback, _⟩
  rcases run?_cons_eq_some hback with ⟨v, told, more, hstep, _⟩
  rcases drain?_eq_some hstep with ⟨hstage, _⟩
  have hpassed := (stage_of_run hfront).left
  rw [hstage] at hpassed
  exact hpassed.right

theorem nobody_of_unbind {front back : List Event}
    (h : (create keepAlive limit).run? (front ++ .unbind :: back) = some (s, effects)) (client : Nat)
    (peer : SocketAddress) : .arrive client peer ∉ back := by
  rcases run?_append_eq_some h with ⟨u, before, after, hfront, hback, _⟩
  rcases run?_cons_eq_some hback with ⟨v, told, more, hstep, hrest, _⟩
  have hv := sound_step (sound_of_run hfront) hstep
  rcases unbind?_eq_some hstep with ⟨_, rfl, _⟩
  exact run_after_unbinding hv rfl hrest client peer

theorem result_of_run {r : Except ServeError Unit}
    (h : (create keepAlive limit).run? events = some (s, effects)) (hr : s.result? = some r) :
    (r = .ok () ∧ .heed ∈ events) ∧ ((s.watched = [] ∧ s.serving = []) ∨ .abandon ∈ events) := by
  have hs := sound_of_run h
  rcases stage_of_run h with ⟨hpassed, hdrained⟩
  unfold result? at hr
  split at hr
  next drained hstage =>
    cases hr
    rw [hstage] at hpassed hdrained
    rcases hpassed with ⟨⟨hheed, _⟩, hend⟩
    refine ⟨⟨rfl, hheed⟩, hend.imp_left ?_⟩
    intro hall
    have hnone := hdrained (by rw [hall])
    exact ⟨by rw [hs.watched, hnone]; rfl, hnone⟩
  next error hstage => exact absurd hstage (hs.goesWell error)
  · cases hr

/-- Whatever accepts fail, the loop is left through the word to end only; no stream that an accept
returns is without a watched connection that holds its permit; nothing is taken after the loop, and
the server stops when all connections have ended or the time is over. -/
theorem conduct_of_run (h : (create keepAlive limit).run? events = some (s, effects)) :
    Conduct limit (create keepAlive limit) events s := by
  have hs := sound_of_run h
  rcases streams_of_run h with ⟨hhanded, hnumbered, hclosed⟩
  have hpassed := (stage_of_run h).left
  constructor
  · intro hheed
    have hgoes := goesOn_of_passed hpassed hheed
    exact ⟨hgoes, result?_of_goesOn hgoes⟩
  · intro hstage
    exact ⟨s.acceptNext s.acceptor, _, by simp [step?, backOffEnds?, hstage], rfl⟩
  · exact exists_end hs
  · exact fun r hr => (result_of_run h hr).left
  · exact hhanded
  · rw [hnumbered]
    exact List.nodup_range
  · exact hclosed
  · exact hs.permits
  · exact hs.watched
  · exact length_serving_le h
  · intro front back heq
    subst heq
    exact left_of_heed h
  · intro front back heq
    subst heq
    exact unbind_mem_of_drain h
  · intro front back heq
    subst heq
    exact nobody_of_unbind h
  · intro hsome
    rcases Option.isSome_iff_exists.mp hsome with ⟨r, hr⟩
    exact (result_of_run h hr).right

theorem conduct_of_two_clients :
    exists s effects,
      let peer : SocketAddress := ⟨.v4 ⟨127, 0, 0, 1⟩, 5000⟩
      let events : List Event := [.arrive 0 peer, .arrive 1 peer,
        .acceptFails SystemError.tooManyOpenFiles, .backOffEnds, .accept, .input 0 [.finish],
        .conclude 0, .accept, .heed, .unbind, .drain, .abandon]
      (create true 1).run? events = some (s, effects) ∧ s.result? = some (.ok ()) ∧
        Conduct 1 (create true 1) events s :=
  ⟨_, _, rfl, rfl, conduct_of_run rfl⟩

end Runs

end Server
end ConstantReply
