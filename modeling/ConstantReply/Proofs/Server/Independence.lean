import ConstantReply.Proofs.Server.View

/-!
# Clients do not disturb each other

Of the steps of a server with any number of clients, those that are about one client are a run of a
fresh server that has no other client, and the client sees the same of both.  The rest of the server
is not there for it, apart from the slots, of which it may have to wait for one.
-/

namespace ConstantReply
namespace Server

variable {s t u : Server} {effects told : List Effect} {client : Nat}

/-!
## Slots
-/

theorem mem_granted_of_room {a : Nat} (hs : s.Sound) (hstage : s.stage = .accepting a)
    (hroom : s.serving.length < s.acceptor.limit) : a ∈ s.acceptor.granted := by
  have hunfinished := hs.unfinished
  rw [hstage] at hunfinished
  have hheld := hs.slots.conserved
  rw [Acceptor.held, length_permits hs] at hheld
  cases hgranted : s.acceptor.granted with
  | nil =>
      have hwaiting : s.acceptor.waiting = [a] := by
        rwa [hgranted] at hunfinished
      have hfree := hs.slots.noneFree (by simp [hwaiting])
      rw [hgranted, List.length_nil] at hheld
      omega
  | cons b more =>
      rw [hgranted, List.cons_append] at hunfinished
      exact (List.cons.inj hunfinished).left ▸ List.mem_cons_self

theorem exists_accept {a : Nat} {v : Visitor} {rest : List Visitor} (hs : s.Sound)
    (hstage : s.stage = .accepting a) (hvisitors : s.visitors = v :: rest)
    (hroom : s.serving.length < s.acceptor.limit) :
    exists t effects, s.accept? = some (t, effects) := by
  rcases visitor?_of_cons hs hvisitors with ⟨hvisitor, hhead, _⟩
  rcases Tracking.exists_track? hs.counts with ⟨tracking, htrack⟩
  have hqueue := hs.queue
  rw [hvisitors, List.map_cons] at hqueue
  have hgranted := mem_granted_of_room hs hstage hroom
  have hcomplete : exists acceptor, s.acceptor.complete? a = some acceptor := by
    simp [Acceptor.complete?, hqueue, hgranted]
  rcases hcomplete with ⟨acceptor, hcomplete⟩
  exact ⟨_, _, accept?_of_queue hstage hhead hvisitor hcomplete htrack⟩

theorem accept?_of_full (hs : s.Sound) (hfull : s.serving.length = s.acceptor.limit) :
    s.accept? = none := by
  cases haccept : s.accept? with
  | none => rfl
  | some next =>
      rcases accept?_eq_some haccept with ⟨a, _, _, acceptor, _, _, _, _, hcomplete, _⟩
      rcases Acceptor.complete?_eq_some hcomplete with ⟨_, _, _, hgranted, _⟩
      have hheld := hs.slots.conserved
      have hpos := List.length_pos_of_mem hgranted
      rw [Acceptor.held, length_permits hs] at hheld
      omega

theorem serving_lt_of_accept (hs : s.Sound) (h : s.accept? = some (t, effects)) :
    s.serving.length < s.acceptor.limit := by
  refine Nat.lt_of_le_of_ne (length_serving_le_limit hs) ?_
  intro hfull
  rw [accept?_of_full hs hfull] at h
  cases h

theorem exists_conclude {c : Serving} (hs : s.Sound) (hserving : s.serving? client = some c)
    (hclosed : c.session.isClosed = true) :
    exists t effects, s.conclude? client = some (t, effects) := by
  have hc := (mem_of_serving? hserving).left
  have hpermit : c.stream ∈ s.acceptor.permits := by
    rw [hs.permits]
    exact List.mem_map_of_mem hc
  have hrelease : exists acceptor, s.acceptor.release? c.permit = some acceptor := by
    have hany : s.acceptor.permits.any (fun p => p.1 = c.permit) = true :=
      List.any_eq_true.mpr ⟨c.stream, hpermit, by simp [Serving.stream]⟩
    exact ⟨_, if_pos hany⟩
  rcases hrelease with ⟨acceptor, hrelease⟩
  rcases Tracking.exists_release? (hs.tracked c.guard (List.mem_map_of_mem hc)) with
    ⟨tracking, htracking⟩
  exact ⟨_, _, conclude?_of_closed hserving hclosed hrelease htracking⟩

/-!
## A server with one client
-/

theorem allows_of_step {event : Event} (hs : s.Sound) (h : s.step? event = some (t, effects))
    (hconcerns : s.concerns client event = true) : (s.standing client).Allows client event := by
  cases event with
  | arrive other peer =>
      cases beq_iff_eq.mp hconcerns
      rcases arrive?_eq_some h with ⟨_, hunknown, _⟩
      rcases isKnown_eq_false_iff.mp hunknown with ⟨hvisitors, hserving⟩
      refine ⟨rfl, visitor?_eq_none_iff.mpr hvisitors, ?_⟩
      exact congrArg (Option.map Serving.session) (serving?_eq_none_iff.mpr hserving)
  | accept =>
      rcases accept_cases hs h with ⟨a, v, rest, _, _, _, hvisitors, _⟩
      rcases visitor?_of_cons hs hvisitors with ⟨hwaiting, hhead, _⟩
      cases hhead.symm.trans (beq_iff_eq.mp hconcerns)
      exact Option.isSome_of_eq_some hwaiting
  | input other inputs =>
      cases beq_iff_eq.mp hconcerns
      refine ⟨rfl, ?_⟩
      rcases input?_eq_some h with ⟨c, hserving, _⟩ | ⟨_, ⟨v, hwaiting⟩, _⟩
      · exact Or.inr (by simp [standing, hserving])
      · exact Or.inl (Option.isSome_of_eq_some hwaiting)
  | conclude other =>
      cases beq_iff_eq.mp hconcerns
      rcases conclude?_eq_some h with ⟨c, _, _, hserving, hclosed, _⟩
      exact ⟨rfl, by simp [standing, hserving, hclosed]⟩
  | _ => cases hconcerns

/-- A server that takes connections and knows one client at most. -/
structure Solitary (client : Nat) (t : Server) : Prop where
  sound : t.Sound
  accepting : exists a, t.stage = .accepting a
  visitors : forall v, v ∈ t.visitors -> v.client = client
  serving : forall c, c ∈ t.serving -> c.client = client

theorem solitary_create (client : Nat) (keepAlive : Bool) (limit : Nat) :
    Solitary client (create keepAlive limit) where
  sound := sound_create keepAlive limit
  accepting := ⟨0, rfl⟩
  visitors := by simp [create]
  serving := by simp [create]

namespace Solitary

variable (h : Solitary client t)

include h

theorem waits (hwaiting : (t.standing client).waiting.isSome) :
    exists v rest, t.visitors = v :: rest ∧ v.client = client ∧ t.serving = [] := by
  rcases Option.isSome_iff_exists.mp hwaiting with ⟨w, hw⟩
  have hserving : t.serving = [] := by
    apply List.eq_nil_iff_forall_not_mem.mpr
    intro c hc
    have hnone := not_waiting_of_served h.sound hc
    rw [h.serving c hc] at hnone
    cases hnone.symm.trans hw
  cases hvisitors : t.visitors with
  | nil =>
      have hmem := (mem_of_visitor? hw).left
      rw [hvisitors] at hmem
      cases hmem
  | cons v rest => exact ⟨v, rest, rfl, h.visitors v (hvisitors ▸ List.mem_cons_self), hserving⟩

theorem exists_step {event : Event} (hroom : event = .accept -> 0 < t.acceptor.limit)
    (hallows : (t.standing client).Allows client event) :
    t.concerns client event = true ∧ exists u told, t.step? event = some (u, told) := by
  rcases h.accepting with ⟨a, haccepting⟩
  cases event with
  | arrive other peer =>
      rcases hallows with ⟨rfl, hwaiting, hsession⟩
      have hlistening : t.isListening = true := by
        simp [isListening, goesOn, haccepting]
      have hunknown : t.isKnown other = false :=
        isKnown_eq_false_iff.mpr ⟨visitor?_eq_none_iff.mp hwaiting,
          serving?_eq_none_iff.mp (Option.map_eq_none_iff.mp hsession)⟩
      exact ⟨beq_self_eq_true _, _, _, arrive?_of_unknown hlistening hunknown⟩
  | accept =>
      rcases h.waits hallows with ⟨v, rest, hvisitors, hclient, hnobody⟩
      refine ⟨?_, exists_accept h.sound haccepting hvisitors ?_⟩
      · rw [concerns, (visitor?_of_cons h.sound hvisitors).right.left, hclient]
        exact beq_self_eq_true _
      · rw [hnobody]
        exact hroom rfl
  | input other inputs =>
      rcases hallows with ⟨rfl, hknown⟩
      refine ⟨beq_self_eq_true _, ?_⟩
      cases hserving : t.serving? other with
      | some c => exact ⟨_, _, input?_of_served hserving⟩
      | none =>
          have hwaiting : (t.visitor? other).isSome := by
            simpa [standing, hserving] using hknown
          rcases Option.isSome_iff_exists.mp hwaiting with ⟨v, hv⟩
          exact ⟨_, _, input?_of_waiting hserving hv⟩
  | conclude other =>
      rcases hallows with ⟨rfl, hclosed⟩
      refine ⟨beq_self_eq_true _, ?_⟩
      cases hserving : t.serving? other with
      | none => simp [standing, hserving] at hclosed
      | some c =>
          exact exists_conclude h.sound hserving (by simpa [standing, hserving] using hclosed)
  | _ => exact hallows.elim

theorem step {event : Event} (hstep : t.step? event = some (u, told))
    (hconcerns : t.concerns client event = true) : Solitary client u := by
  have hu := sound_step h.sound hstep
  cases event with
  | arrive other peer =>
      cases beq_iff_eq.mp hconcerns
      rcases arrive?_eq_some hstep with ⟨_, _, rfl, _⟩
      refine ⟨hu, h.accepting, ?_, h.serving⟩
      intro v hv
      rcases List.mem_append.mp hv with hv | hv
      · exact h.visitors v hv
      · rw [List.mem_singleton.mp hv]
  | accept =>
      rcases accept_cases h.sound hstep with
        ⟨a, v, rest, acceptor, tracking, _, hfirst, _, _, rfl, _⟩
      refine ⟨hu, ⟨_, rfl⟩, ?_, ?_⟩
      · exact fun w hw => h.visitors w (hfirst ▸ List.mem_cons_of_mem v hw)
      · intro c hc
        rcases List.mem_append.mp hc with hc | hc
        · exact h.serving c hc
        · rw [List.mem_singleton.mp hc]
          exact h.visitors v (hfirst ▸ List.mem_cons_self)
  | input other inputs =>
      rcases input?_eq_some hstep with ⟨c, _, rfl, _⟩ | ⟨_, _, rfl, _⟩
      · have hsame := (alike_advance t c inputs).map_eq (f := Serving.client) fun _ => rfl
        refine ⟨hu, h.accepting, h.visitors, ?_⟩
        intro d hd
        rcases List.mem_map.mp (hsame ▸ List.mem_map_of_mem hd) with ⟨e, he, heq⟩
        exact heq ▸ h.serving e he
      · refine ⟨hu, h.accepting, ?_, h.serving⟩
        intro v hv
        rcases List.mem_map.mp hv with ⟨w, hw, rfl⟩
        rw [keep_client]
        exact h.visitors w hw
  | conclude other =>
      rcases conclude?_eq_some hstep with ⟨c, acceptor, tracking, _, _, _, _, rfl, _⟩
      exact ⟨hu, h.accepting, h.visitors, fun d hd => h.serving d (List.mem_of_mem_filter hd)⟩
  | _ => cases hconcerns

end Solitary

theorem Solitary.exists_run {events : List Event} (h : Solitary client t)
    (hroom : .accept ∈ events -> 0 < t.acceptor.limit)
    (hadmits : (t.standing client).Admits t.keepAlive client events) :
    exists u told, t.run? events = some (u, told) ∧
      seenBy client told = ((t.standing client).watch t.keepAlive client events).2 := by
  induction events generalizing t with
  | nil => exact ⟨t, [], rfl, rfl⟩
  | cons event rest ih =>
      rcases h.exists_step (fun heq => hroom (heq ▸ List.mem_cons_self)) hadmits.left with
        ⟨hconcerns, v, first, hstep⟩
      have hfollow := standing_step h.sound hstep hconcerns
      rcases numbers_step h.sound hstep with ⟨hkeep, hlimit, _⟩
      have hlater := hadmits.right
      rw [← hfollow, ← hkeep] at hlater
      rcases ih (h.step hstep hconcerns)
        (fun hmem => hlimit.symm ▸ hroom (List.mem_cons_of_mem _ hmem)) hlater with
        ⟨u, more, hrun, hseen⟩
      refine ⟨u, first ++ more, run?_cons_of_step hstep hrun, ?_⟩
      rw [seenBy_append, hseen, hkeep, Standing.watch, ← hfollow]

/-!
## The steps about one client
-/

theorem view_of_run {events : List Event} (hs : s.Sound) (hgoes : s.goesOn = true)
    (h : s.run? events = some (t, effects)) (hheed : .heed ∉ events) :
    (s.standing client).Admits s.keepAlive client (s.alone client events) ∧
      seenBy client effects =
        ((s.standing client).watch s.keepAlive client (s.alone client events)).2 ∧
      (.accept ∈ s.alone client events -> 0 < s.acceptor.limit) := by
  induction events generalizing s effects with
  | nil =>
      cases h
      exact ⟨trivial, rfl, by simp [alone, collect]⟩
  | cons event rest ih =>
      rcases run?_cons_eq_some h with ⟨v, first, more, hstep, hrest, rfl⟩
      rcases not_or.mp (List.mem_cons.not.mp hheed) with ⟨hevent, hlater⟩
      rcases ih (sound_step hs hstep) (goesOn_step hs hgoes hstep (Ne.symm hevent)) hrest hlater
        with ⟨hadmits, hseen, hroom⟩
      rcases numbers_step hs hstep with ⟨hkeep, hlimit, _⟩
      rw [hkeep] at hadmits hseen
      rw [hlimit] at hroom
      cases hconcerns : s.concerns client event with
      | true =>
          have halone : s.alone client (event :: rest) = event :: v.alone client rest := by
            simp [alone, collect, hstep, hconcerns]
          have hfollow := standing_step hs hstep hconcerns
          rw [halone, Standing.Admits, Standing.watch, ← hfollow]
          refine ⟨⟨allows_of_step hs hstep hconcerns, hadmits⟩, ?_, ?_⟩
          · rw [seenBy_append, hseen]
          · intro hmem
            rcases List.mem_cons.mp hmem with rfl | hmem
            · exact Nat.zero_lt_of_lt (serving_lt_of_accept hs hstep)
            · exact hroom hmem
      | false =>
          have halone : s.alone client (event :: rest) = v.alone client rest := by
            simp [alone, collect, hstep, hconcerns]
          rcases standing_step_other hs hgoes hstep hconcerns with ⟨hstanding, hnone⟩
          rw [hstanding] at hadmits hseen
          rw [halone, seenBy_append, hnone]
          exact ⟨hadmits, hseen, hroom⟩

theorem script_alone {s' : Server} {events : List Event}
    (h : s.run? events = some (s', effects)) (client : Nat) :
    script client (s.alone client events) = script client events := by
  induction events generalizing s effects with
  | nil => rfl
  | cons event rest ih =>
      rcases run?_cons_eq_some h with ⟨v, first, more, hstep, hrest, _⟩
      have hlater := ih hrest
      have hone : script client (if s.concerns client event then [event] else []) =
          script client [event] := by
        cases event with
        | arrive other peer => by_cases hother : other = client <;> simp [script, concerns, hother]
        | input other inputs => by_cases hother : other = client <;> simp [script, concerns, hother]
        | _ => split <;> rfl
      simp only [alone, collect, hstep]
      rw [script, List.filter_append, ← script, ← script, hone]
      exact (congrArg (script client [event] ++ ·) hlater).trans
        (List.filter_append (p := _) [event] rest).symm

theorem arrive_of_alone {events : List Event} {client other : Nat} {peer : SocketAddress}
    (h : .arrive other peer ∈ s.alone client events) : other = client := by
  induction events generalizing s with
  | nil => cases h
  | cons event rest ih =>
      simp only [alone, collect] at h
      split at h
      · cases h
      next next told hstep =>
        rcases List.mem_append.mp h with h | h
        · split at h
          next hconcerns =>
            cases List.mem_singleton.mp h
            exact beq_iff_eq.mp hconcerns
          · cases h
        · exact ih h

/-!
## When all slots are in use
-/

theorem full_step {event : Event} (hs : s.Sound) (hgoes : s.goesOn = true)
    (hfull : s.serving.length = s.acceptor.limit) (h : s.step? event = some (t, effects))
    (hconclude : forall client, event ≠ .conclude client) :
    t.serving.map Serving.client = s.serving.map Serving.client ∧
      forall client, client ∉ s.serving.map Serving.client -> seenBy client effects = [] := by
  cases event with
  | arrive client peer =>
      rcases arrive?_eq_some h with ⟨_, _, rfl, rfl⟩
      exact ⟨rfl, fun _ _ => rfl⟩
  | accept => cases (accept?_of_full hs hfull).symm.trans h
  | acceptFails error =>
      rcases acceptFails?_eq_some h with ⟨a, acceptor, _, _, hcases⟩
      rcases hcases with ⟨_, rfl, rfl⟩ | ⟨_, rfl, rfl⟩ <;> exact ⟨rfl, fun _ _ => rfl⟩
  | acceptIsRefused => cases (acceptIsRefused?_eq_none hs).symm.trans h
  | backOffEnds =>
      rcases backOffEnds?_eq_some h with ⟨_, rfl, rfl⟩
      exact ⟨rfl, fun _ _ => rfl⟩
  | input client inputs =>
      rcases input?_eq_some h with ⟨c, hserving, rfl, rfl⟩ | ⟨_, _, rfl, rfl⟩
      · refine ⟨(alike_advance s c inputs).map_eq fun _ => rfl, ?_⟩
        intro other hother
        have hc := List.mem_map_of_mem (f := Serving.client) (mem_of_serving? hserving).left
        have hne : c.client ≠ other := fun heq => hother (heq ▸ hc)
        exact seenBy_sessionEffects hne ..
      · exact ⟨rfl, fun _ _ => rfl⟩
  | conclude client => exact absurd rfl (hconclude client)
  | heed =>
      rcases heed?_eq_some h with ⟨a, acceptor, _, _, rfl, rfl⟩
      exact ⟨rfl, fun _ _ => rfl⟩
  | unbind =>
      rcases unbind?_eq_some h with ⟨hstage, _⟩
      simp [goesOn, hstage] at hgoes
  | drain =>
      rcases drain?_eq_some h with ⟨hstage, _⟩
      simp [goesOn, hstage] at hgoes
  | finish =>
      rcases finish?_eq_some h with ⟨_, _, rfl, rfl⟩
      exact ⟨rfl, fun _ _ => rfl⟩
  | abandon =>
      rcases abandon?_eq_some h with ⟨_, rfl, rfl⟩
      exact ⟨rfl, fun _ _ => rfl⟩

theorem full_run {events : List Event} (hs : s.Sound) (hgoes : s.goesOn = true)
    (hfull : s.serving.length = s.acceptor.limit) (h : s.run? events = some (t, effects))
    (hheed : .heed ∉ events) (hconclude : forall client, .conclude client ∉ events) :
    t.serving.map Serving.client = s.serving.map Serving.client ∧
      forall client, client ∉ s.serving.map Serving.client -> seenBy client effects = [] := by
  induction events generalizing s effects with
  | nil =>
      cases h
      exact ⟨rfl, fun _ _ => rfl⟩
  | cons event rest ih =>
      rcases run?_cons_eq_some h with ⟨v, first, more, hstep, hrest, rfl⟩
      rcases not_or.mp (List.mem_cons.not.mp hheed) with ⟨hevent, hlater⟩
      rcases full_step hs hgoes hfull hstep
        (fun client heq => hconclude client (heq ▸ List.mem_cons_self)) with ⟨hsame, hnone⟩
      have hlength : v.serving.length = v.acceptor.limit := by
        rw [(numbers_step hs hstep).right.left, ← hfull]
        simpa using congrArg List.length hsame
      rcases ih (sound_step hs hstep) (goesOn_step hs hgoes hstep (Ne.symm hevent)) hlength hrest
        hlater (fun client hmem => hconclude client (List.mem_cons_of_mem _ hmem)) with
        ⟨hstill, hnothing⟩
      refine ⟨hstill.trans hsame, ?_⟩
      intro client hclient
      rw [seenBy_append, hnone client hclient, hnothing client (hsame.symm ▸ hclient)]
      rfl

/-!
## Independence
-/

/-- What holds of a server with a limit that was not told to end.  Alone on a fresh server, each
client sees the same if it is accepted after the same part of its script.  What it has sent until
then is there at once, so accepted sooner it may see something else, unless that is read alike. -/
structure Independent (limit : Nat) (start : Server) (events : List Event) (effects : List Effect)
    (s : Server) : Prop where
  alone : forall client, exists t told, start.run? (start.alone client events) = some (t, told) ∧
    seenBy client told = seenBy client effects ∧
    forall date, received client date told = received client date effects
  ownScript : forall client, script client (start.alone client events) = script client events
  noCompany : forall client other peer,
    .arrive other peer ∈ start.alone client events -> other = client
  servedSooner : forall client peer (parts : List (List Http.Input)) rest,
    start.alone client events =
      .arrive client peer :: (parts.map (.input client) ++ .accept :: rest) ->
    Session.ReadsAlike start.keepAlive parts ->
    exists t told,
      start.run? (.arrive client peer :: .accept :: (parts.map (.input client) ++ rest)) =
        some (t, told) ∧ seenBy client told = seenBy client effects
  readAlike : forall parts : List (List UInt8), parts ≠ [] ->
    (forall front back, parts = front ++ back -> front ≠ [] -> back ≠ [] ->
      (Session.start.run start.keepAlive (front.flatten.map .byte)).1.awaitsHead = true) ->
    Session.ReadsAlike start.keepAlive (parts.map Http.Input.segment)
  room : forall a, s.stage = .accepting a -> s.visitors ≠ [] -> s.serving.length < limit ->
    exists t told, s.step? .accept = some (t, told)
  full : s.serving.length = limit -> forall more t told, s.run? more = some (t, told) ->
    .heed ∉ more -> (forall client, .conclude client ∉ more) ->
    t.serving.map Serving.client = s.serving.map Serving.client ∧
      forall client, client ∉ s.serving.map Serving.client -> seenBy client told = []

theorem exists_served_sooner {keepAlive : Bool} {limit : Nat} {peer : SocketAddress}
    {parts : List (List Http.Input)} {rest : List Event}
    (hadmits : Standing.Admits keepAlive client ⟨none, none⟩
      (.arrive client peer :: (parts.map (.input client) ++ .accept :: rest)))
    (hroom : 0 < (create keepAlive limit).acceptor.limit)
    (halike : Session.ReadsAlike keepAlive parts) :
    exists t told,
      (create keepAlive limit).run?
          (.arrive client peer :: .accept :: (parts.map (.input client) ++ rest)) =
        some (t, told) ∧
      seenBy client told = (Standing.watch keepAlive client ⟨none, none⟩
        (.arrive client peer :: (parts.map (.input client) ++ .accept :: rest))).2 := by
  have hsooner : Standing.Admits keepAlive client ⟨none, none⟩
      (.arrive client peer :: .accept :: (parts.map (.input client) ++ rest)) :=
    ⟨hadmits.left, Standing.admits_sooner halike rfl hadmits.right⟩
  rcases (solitary_create client keepAlive limit).exists_run (fun _ => hroom) hsooner with
    ⟨t, told, hrun, hseen⟩
  refine ⟨t, told, hrun, hseen.trans ?_⟩
  exact congrArg Prod.snd (Standing.watch_sooner halike rfl)

end Server
end ConstantReply
