import ConstantReply.Proofs.Listener.Slots
import ConstantReply.Proofs.Server.Steps
import Mathlib.Data.List.Nodup

/-!
# What every step of a server keeps

The permits that are alive, the connections that are watched and the connections that are served
are the same ones, in the same order; the queue of the listener is the clients that wait; the loop
has one unfinished accept exactly when it waits for it.
-/

namespace ConstantReply

namespace Tracking

variable {s t : Tracking} {guard other tracker : Nat}

theorem lt_of_guard? (h : (s.guard? guard).isSome) : guard < s.guards.length := by
  by_contra hge
  simp [guard?, List.getElem?_eq_none (Nat.le_of_not_lt hge)] at h

theorem track?_eq_some (h : s.track? tracker = some t) :
    (forall x, t.familyOf? x = s.familyOf? x) ∧ (t.guard? s.guards.length).isSome ∧
      forall i, (s.guard? i).isSome -> (t.guard? i).isSome := by
  rcases Option.map_eq_some_iff.mp h with ⟨family, _, rfl⟩
  refine ⟨fun _ => rfl, ?_, ?_⟩
  · simp [guard?]
  · intro i hi
    have hlt := lt_of_guard? hi
    simpa [guard?, List.getElem?_append_left hlt] using hi

theorem release?_eq_some (h : s.release? guard = some t) :
    (forall x, t.familyOf? x = s.familyOf? x) ∧
      forall i, i ≠ guard -> t.guard? i = s.guard? i := by
  rcases Option.map_eq_some_iff.mp h with ⟨g, _, rfl⟩
  refine ⟨fun _ => rfl, ?_⟩
  intro i hi
  simp only [guard?, List.getElem?_set_ne hi.symm]

theorem exists_track? (h : (s.familyOf? tracker).isSome) :
    exists next, s.track? tracker = some next := by
  rcases Option.isSome_iff_exists.mp h with ⟨family, hfamily⟩
  exact ⟨_, by rw [track?, hfamily]; rfl⟩

theorem exists_release? (h : (s.guard? guard).isSome) :
    exists next, s.release? guard = some next := by
  rcases Option.isSome_iff_exists.mp h with ⟨g, hg⟩
  exact ⟨_, by rw [release?, hg]; rfl⟩

end Tracking

def Stage.accepts : Stage -> List Nat
  | .accepting a => [a]
  | _ => []

namespace Serving

def stream (c : Serving) : Nat × Nat := (c.permit, c.client)

def fixed (c : Serving) : Serving := { c with session := .closed }

end Serving

namespace Server

variable {s t : Server} {effects : List Effect} {client : Nat}

/-!
## Look-up
-/

theorem mem_of_serving? {c : Serving} (h : s.serving? client = some c) :
    c ∈ s.serving ∧ c.client = client :=
  ⟨List.mem_of_find?_eq_some h, by simpa using List.find?_some h⟩

theorem mem_of_visitor? {v : Visitor} (h : s.visitor? client = some v) :
    v ∈ s.visitors ∧ v.client = client :=
  ⟨List.mem_of_find?_eq_some h, by simpa using List.find?_some h⟩

theorem serving?_eq_none_iff :
    s.serving? client = none ↔ client ∉ s.serving.map Serving.client := by
  simp only [serving?, List.find?_eq_none, List.mem_map, beq_iff_eq, not_exists, not_and]

theorem visitor?_eq_none_iff :
    s.visitor? client = none ↔ client ∉ s.visitors.map Visitor.client := by
  simp only [visitor?, List.find?_eq_none, List.mem_map, beq_iff_eq, not_exists, not_and]

theorem isKnown_eq_false_iff :
    s.isKnown client = false ↔
      client ∉ s.visitors.map Visitor.client ∧ client ∉ s.serving.map Serving.client := by
  rw [isKnown, Bool.or_eq_false_iff, Option.isSome_eq_false_iff, Option.isNone_iff_eq_none,
    visitor?_eq_none_iff, Option.isSome_eq_false_iff, Option.isNone_iff_eq_none,
    serving?_eq_none_iff]

/-!
## Invariant
-/

structure Sound (s : Server) : Prop where
  slots : s.acceptor.Sound
  unfinished : s.acceptor.granted ++ s.acceptor.waiting = s.stage.accepts
  queue : s.acceptor.queue = s.visitors.map Visitor.client
  permits : s.acceptor.permits = s.serving.map Serving.stream
  watched : s.watched = s.serving.map Serving.client
  clients : (s.visitors.map Visitor.client ++ s.serving.map Serving.client).Nodup
  guards : (s.serving.map Serving.guard).Nodup
  tracked : forall g, g ∈ s.serving.map Serving.guard -> (s.tracking.guard? g).isSome
  counts : (s.tracking.familyOf? tracker).isSome
  turnedAway : s.isListening = false -> s.visitors = []
  goesWell : forall error, s.stage ≠ .failed error

theorem sound_create (keepAlive : Bool) (limit : Nat) : (create keepAlive limit).Sound where
  slots := Acceptor.sound_start (Acceptor.sound_create limit)
  unfinished := Acceptor.unfinished_start (Acceptor.sound_create limit).toOrderly rfl
  queue := (Acceptor.start_same (Acceptor.sound_create limit).toOrderly).right.right
  permits := (Acceptor.start_same (Acceptor.sound_create limit).toOrderly).left
  watched := rfl
  clients := List.nodup_nil
  guards := List.nodup_nil
  tracked := by simp [create]
  counts := rfl
  turnedAway := fun _ => rfl
  goesWell := by simp [create]

section Sound

variable (hs : s.Sound)

include hs

theorem nodup_visitors : (s.visitors.map Visitor.client).Nodup := hs.clients.of_append_left

theorem nodup_serving : (s.serving.map Serving.client).Nodup := hs.clients.of_append_right

theorem serving?_of_mem {c : Serving} (hc : c ∈ s.serving) :
    s.serving? c.client = some c := by
  cases hfound : s.serving? c.client with
  | none => exact absurd (List.mem_map_of_mem hc) (serving?_eq_none_iff.mp hfound)
  | some d =>
      rcases mem_of_serving? hfound with ⟨hd, hclient⟩
      rw [List.inj_on_of_nodup_map (nodup_serving hs) hd hc hclient]

theorem visitor?_of_mem {v : Visitor} (hv : v ∈ s.visitors) :
    s.visitor? v.client = some v := by
  cases hfound : s.visitor? v.client with
  | none => exact absurd (List.mem_map_of_mem hv) (visitor?_eq_none_iff.mp hfound)
  | some w =>
      rcases mem_of_visitor? hfound with ⟨hw, hclient⟩
      rw [List.inj_on_of_nodup_map (nodup_visitors hs) hw hv hclient]

theorem not_waiting_of_served {c : Serving} (hc : c ∈ s.serving) :
    s.visitor? c.client = none := by
  rw [visitor?_eq_none_iff]
  intro hmem
  exact List.disjoint_of_nodup_append hs.clients hmem (List.mem_map_of_mem hc)

theorem length_permits : s.acceptor.permits.length = s.serving.length := by
  rw [hs.permits, List.length_map]

theorem length_serving_le_limit : s.serving.length ≤ s.acceptor.limit := by
  have hheld := hs.slots.conserved
  rw [Acceptor.held, length_permits hs] at hheld
  omega

theorem visitor?_of_cons {v : Visitor} {rest : List Visitor} (h : s.visitors = v :: rest) :
    s.visitor? v.client = some v ∧ s.acceptor.queue.head? = some v.client ∧
      (s.visitors.filter fun w => w.client != v.client) = rest := by
  refine ⟨?_, ?_, ?_⟩
  · simp [visitor?, h]
  · rw [hs.queue, h]
    rfl
  · have hnodup := nodup_visitors hs
    rw [h, List.map_cons, List.nodup_cons] at hnodup
    rw [h, List.filter_cons_of_neg (by simp)]
    apply List.filter_eq_self.mpr
    intro w hw
    have hne : w.client ≠ v.client := fun heq => hnodup.left (heq ▸ List.mem_map_of_mem hw)
    simpa using hne

end Sound

/-!
## Taking a connection
-/

def begun (s : Server) (v : Visitor) : Serving :=
  ⟨v.client, v.peer, s.acceptor.nextPermit, s.tracking.guards.length,
    (Session.start.run s.keepAlive (v.inbox ++ [.pause])).1⟩

theorem accept_cases (hs : s.Sound) (h : s.accept? = some (t, effects)) :
    exists a v rest acceptor tracking,
      s.stage = .accepting a ∧ s.visitors = v :: rest ∧
        s.acceptor.complete? a = some acceptor ∧
        s.tracking.track? tracker = some tracking ∧
        t = { s with
          acceptor := acceptor.start
          tracking := tracking
          visitors := rest
          serving := s.serving ++ [s.begun v]
          watched := s.watched ++ [v.client]
          stage := .accepting acceptor.nextAccept } ∧
        effects = .logged (Log.connectionAccepted v.peer acceptor.availablePermits) ::
          (s.serve v s.acceptor.nextPermit tracking).2 := by
  rcases accept?_eq_some h with
    ⟨a, client, v, acceptor, tracking, hstage, hhead, hvisitor, hcomplete, htrack, rfl, rfl⟩
  rw [hs.queue] at hhead
  cases hvisitors : s.visitors with
  | nil =>
      rw [hvisitors] at hhead
      cases hhead
  | cons w rest =>
      rw [hvisitors] at hhead
      cases hhead
      rcases visitor?_of_cons hs hvisitors with ⟨hfirst, _, hrest⟩
      cases hfirst.symm.trans hvisitor
      refine ⟨a, _, rest, acceptor, tracking, hstage, rfl, hcomplete, htrack, ?_, rfl⟩
      simp only [serve, acceptNext, hrest, begun]

theorem sound_accept (hs : s.Sound) (h : s.accept? = some (t, effects)) : t.Sound := by
  rcases accept_cases hs h with
    ⟨a, v, rest, acceptor, tracking, hstage, hvisitors, hcomplete, htrack, rfl, _⟩
  have hunfinished := hs.unfinished
  rw [hstage] at hunfinished
  have hslots := Acceptor.sound_complete hs.slots hcomplete
  have hnone := Acceptor.unfinished_complete hunfinished hcomplete
  rcases Acceptor.start_same hslots.toOrderly with ⟨hpermits, _, hqueue⟩
  rcases Acceptor.complete?_eq_some hcomplete with ⟨client, more, hfront, _, hacceptor⟩
  have hmap := hs.queue
  rw [hvisitors, hfront, List.map_cons, List.cons.injEq] at hmap
  rcases hmap with ⟨rfl, hmore⟩
  rcases Tracking.track?_eq_some htrack with ⟨hfamily, hguard, hkept⟩
  have hclients := hs.clients
  rw [hvisitors, List.map_cons, List.cons_append] at hclients
  constructor
  · exact Acceptor.sound_start hslots
  · exact Acceptor.unfinished_start hslots.toOrderly hnone
  · show acceptor.start.queue = rest.map Visitor.client
    rw [hqueue, hacceptor, ← hmore]
  · show acceptor.start.permits = (s.serving ++ [s.begun v]).map Serving.stream
    rw [hpermits, hacceptor, List.map_append, ← hs.permits]
    rfl
  · show s.watched ++ [v.client] = (s.serving ++ [s.begun v]).map Serving.client
    rw [List.map_append, ← hs.watched]
    rfl
  · show (rest.map Visitor.client ++ (s.serving ++ [s.begun v]).map Serving.client).Nodup
    rw [List.map_append, ← List.append_assoc]
    exact (List.perm_append_singleton v.client _).symm.nodup hclients
  · show ((s.serving ++ [s.begun v]).map Serving.guard).Nodup
    rw [List.map_append]
    refine List.nodup_append'.mpr ⟨hs.guards, List.nodup_singleton _, ?_⟩
    intro g hg hnew
    have hlt := Tracking.lt_of_guard? (hs.tracked g hg)
    rw [List.mem_singleton.mp hnew] at hlt
    exact Nat.lt_irrefl _ hlt
  · intro g hg
    change g ∈ (s.serving ++ [s.begun v]).map Serving.guard at hg
    rw [List.map_append] at hg
    rcases List.mem_append.mp hg with hg | hg
    · exact hkept g (hs.tracked g hg)
    · rw [List.mem_singleton.mp hg]
      exact hguard
  · exact (hfamily tracker).symm ▸ hs.counts
  · intro hnot
    cases hnot
  · simp

/-!
## Other steps of the loop
-/

theorem sound_acceptNext {acceptor : Acceptor} (hs : s.Sound) (hslots : acceptor.Sound)
    (hnone : acceptor.granted ++ acceptor.waiting = []) (hqueue : acceptor.queue = s.acceptor.queue)
    (hpermits : acceptor.permits = s.acceptor.permits) : (s.acceptNext acceptor).Sound := by
  rcases Acceptor.start_same hslots.toOrderly with ⟨hsame, _, hwaits⟩
  exact {
    slots := Acceptor.sound_start hslots
    unfinished := Acceptor.unfinished_start hslots.toOrderly hnone
    queue := (hwaits.trans hqueue).trans hs.queue
    permits := (hsame.trans hpermits).trans hs.permits
    watched := hs.watched
    clients := hs.clients
    guards := hs.guards
    tracked := hs.tracked
    counts := hs.counts
    turnedAway := by
      intro hnot
      cases hnot
    goesWell := by simp [acceptNext] }

theorem sound_pause {acceptor : Acceptor} {stage : Stage} (hs : s.Sound)
    (hslots : acceptor.Sound) (hnone : acceptor.granted ++ acceptor.waiting = [])
    (hqueue : acceptor.queue = s.acceptor.queue)
    (hpermits : acceptor.permits = s.acceptor.permits) (haccepts : stage.accepts = [])
    (haway : { s with stage := stage }.isListening = false -> s.visitors = [])
    (hwell : forall error, stage ≠ .failed error) :
    { s with acceptor := acceptor, stage := stage }.Sound where
  slots := hslots
  unfinished := hnone.trans haccepts.symm
  queue := hqueue.trans hs.queue
  permits := hpermits.trans hs.permits
  watched := hs.watched
  clients := hs.clients
  guards := hs.guards
  tracked := hs.tracked
  counts := hs.counts
  turnedAway := haway
  goesWell := hwell

theorem fail_same {acceptor next : Acceptor} {a : Nat} (h : acceptor.fail? a = some next) :
    next.queue = acceptor.queue ∧ next.permits = acceptor.permits := by
  rcases Acceptor.fail?_eq_some h with ⟨_, rfl⟩
  exact ⟨Acceptor.queue_putBack, Acceptor.permits_putBack⟩

theorem cancel_same {acceptor next : Acceptor} {a : Nat} (h : acceptor.cancel? a = some next) :
    next.queue = acceptor.queue ∧ next.permits = acceptor.permits := by
  rcases Acceptor.cancel?_eq_some h with ⟨_, rfl⟩ | ⟨_, _, rfl⟩
  · exact ⟨Acceptor.queue_putBack, Acceptor.permits_putBack⟩
  · exact ⟨rfl, rfl⟩

theorem sound_acceptFails {error : SystemError} (hs : s.Sound)
    (h : s.acceptFails? error = some (t, effects)) : t.Sound := by
  rcases acceptFails?_eq_some h with ⟨a, acceptor, hstage, hfail, hcases⟩
  have hunfinished := hs.unfinished
  rw [hstage] at hunfinished
  have hslots := Acceptor.sound_fail hs.slots hfail
  have hnone := Acceptor.unfinished_fail hunfinished hfail
  rcases fail_same hfail with ⟨hqueue, hpermits⟩
  rcases hcases with ⟨_, rfl, _⟩ | ⟨_, rfl, _⟩
  · exact sound_acceptNext hs hslots hnone hqueue hpermits
  · exact sound_pause hs hslots hnone hqueue hpermits rfl (by intro hnot; cases hnot) (by simp)

theorem acceptIsRefused?_eq_none (hs : s.Sound) : s.acceptIsRefused? = none := by
  cases h : s.acceptIsRefused? with
  | none => rfl
  | some next =>
      rcases acceptIsRefused?_eq_some h with ⟨a, acceptor, _, hrefuse⟩
      have hnone := Acceptor.refuse?_eq_none (a := a) hs.slots.toOrderly
      rw [hnone] at hrefuse
      cases hrefuse

theorem sound_backOffEnds (hs : s.Sound) (h : s.backOffEnds? = some (t, effects)) :
    t.Sound := by
  rcases backOffEnds?_eq_some h with ⟨hstage, rfl, _⟩
  have hunfinished := hs.unfinished
  rw [hstage] at hunfinished
  exact sound_acceptNext hs hs.slots hunfinished rfl rfl

/-!
## Clients
-/

theorem sound_arrive {peer : SocketAddress} (hs : s.Sound)
    (h : s.arrive? client peer = some (t, effects)) : t.Sound := by
  rcases arrive?_eq_some h with ⟨hlistening, hunknown, rfl, _⟩
  rcases isKnown_eq_false_iff.mp hunknown with ⟨hvisitors, hserving⟩
  exact {
    slots := Acceptor.sound_arrive hs.slots client
    unfinished := hs.unfinished
    queue := by
      show s.acceptor.queue ++ [client] = _
      rw [List.map_append, ← hs.queue]
      rfl
    permits := hs.permits
    watched := hs.watched
    clients := by
      rw [List.map_append, List.append_assoc]
      refine (List.perm_middle (a := client)).symm.nodup (List.nodup_cons.mpr ⟨?_, hs.clients⟩)
      intro hmem
      rcases List.mem_append.mp hmem with hmem | hmem
      · exact hvisitors hmem
      · exact hserving hmem
    guards := hs.guards
    tracked := hs.tracked
    counts := hs.counts
    turnedAway := fun hnot => absurd (hlistening.symm.trans hnot) (by simp)
    goesWell := hs.goesWell }

structure Alike (s t : Server) : Prop where
  rest : t = { s with serving := t.serving }
  serving : t.serving.map Serving.fixed = s.serving.map Serving.fixed

theorem alike_refl (s : Server) : Alike s s := ⟨rfl, rfl⟩

theorem Alike.trans {u : Server} (h : Alike s t) (k : Alike t u) : Alike s u := by
  refine ⟨?_, k.serving.trans h.serving⟩
  rw [k.rest, h.rest]

theorem Alike.map_eq {α : Type} {f : Serving -> α} (h : Alike s t)
    (hf : forall c, f c = f c.fixed) : t.serving.map f = s.serving.map f := by
  have hcomp : f = f ∘ Serving.fixed := funext hf
  rw [hcomp, ← List.map_map, h.serving, List.map_map]

theorem sound_of_alike (hs : s.Sound) (h : Alike s t) : t.Sound := by
  have hclients := h.map_eq (f := Serving.client) fun _ => rfl
  have hguards := h.map_eq (f := Serving.guard) fun _ => rfl
  have hstreams := h.map_eq (f := Serving.stream) fun _ => rfl
  rw [h.rest]
  exact {
    slots := hs.slots
    unfinished := hs.unfinished
    queue := hs.queue
    permits := hs.permits.trans hstreams.symm
    watched := hs.watched.trans hclients.symm
    clients := hclients.symm ▸ hs.clients
    guards := hguards.symm ▸ hs.guards
    tracked := hguards.symm ▸ hs.tracked
    counts := hs.counts
    turnedAway := hs.turnedAway
    goesWell := hs.goesWell }

theorem alike_advance (s : Server) (c : Serving) (inputs : List Http.Input) :
    Alike s (s.advance c inputs).1 := by
  refine ⟨rfl, ?_⟩
  rw [advance, List.map_map]
  apply List.map_congr_left
  intro d _
  by_cases hd : d.client = c.client <;> simp [hd, Serving.fixed]

theorem sound_input {inputs : List Http.Input} (hs : s.Sound)
    (h : s.input? client inputs = some (t, effects)) : t.Sound := by
  rcases input?_eq_some h with ⟨c, _, rfl, _⟩ | ⟨_, _, rfl, _⟩
  · exact sound_of_alike hs (alike_advance s c inputs)
  · have hsame : (s.visitors.map fun v =>
        if v.client = client then { v with inbox := v.inbox ++ inputs.filter doneByClient }
        else v).map Visitor.client = s.visitors.map Visitor.client := by
      rw [List.map_map]
      apply List.map_congr_left
      intro v _
      by_cases hv : v.client = client <;> simp [hv]
    exact { hs with
      queue := hs.queue.trans hsame.symm
      clients := hsame.symm ▸ hs.clients
      turnedAway := fun hnot => by simp [hs.turnedAway hnot] }

theorem filter_stream {c : Serving} (hs : s.Sound) (hc : c ∈ s.serving) :
    (s.serving.map Serving.stream).filter (fun q => q.1 ≠ c.permit) =
      (s.serving.filter fun d => d.client != c.client).map Serving.stream := by
  have hpermits := hs.slots.permits
  rw [hs.permits, List.map_map] at hpermits
  rw [List.filter_map]
  congr 1
  apply List.filter_congr
  intro d hd
  by_cases hsame : d = c
  · simp [hsame, Serving.stream]
  · have hpermit : d.permit ≠ c.permit :=
      fun heq => hsame (List.inj_on_of_nodup_map hpermits hd hc heq)
    have hclient : d.client ≠ c.client :=
      fun heq => hsame (List.inj_on_of_nodup_map (nodup_serving hs) hd hc heq)
    simp [hpermit, hclient, Serving.stream]

theorem sound_conclude (hs : s.Sound) (h : s.conclude? client = some (t, effects)) :
    t.Sound := by
  rcases conclude?_eq_some h with
    ⟨c, acceptor, tracking, hserving, _, hrelease, hguard, rfl, _⟩
  rcases mem_of_serving? hserving with ⟨hc, rfl⟩
  have hslots := Acceptor.sound_release hs.slots hrelease
  rcases Acceptor.release?_eq_some hrelease with ⟨_, rfl⟩
  rcases Tracking.release?_eq_some hguard with ⟨hfamily, hothers⟩
  have hsub : (s.serving.filter fun d => d.client != c.client).Sublist s.serving :=
    List.filter_sublist
  constructor
  · exact hslots
  · exact Acceptor.unfinished_putBack.trans hs.unfinished
  · exact Acceptor.queue_putBack.trans hs.queue
  · rw [Acceptor.permits_putBack, hs.permits]
    exact filter_stream hs hc
  · show s.watched.erase c.client = _
    rw [hs.watched, (nodup_serving hs).erase_eq_filter, List.filter_map]
    rfl
  · exact hs.clients.sublist (List.Sublist.append_left (hsub.map _) _)
  · exact hs.guards.sublist (hsub.map _)
  · intro g hg
    rcases List.mem_map.mp hg with ⟨d, hd, rfl⟩
    rcases List.mem_filter.mp hd with ⟨hmem, hother⟩
    have hne : d.guard ≠ c.guard := by
      intro heq
      rw [List.inj_on_of_nodup_map hs.guards hmem hc heq] at hother
      simp at hother
    show (tracking.guard? d.guard).isSome
    rw [hothers _ hne]
    exact hs.tracked _ (List.mem_map_of_mem hmem)
  · exact (hfamily tracker).symm ▸ hs.counts
  · exact hs.turnedAway
  · exact hs.goesWell

/-!
## Ending
-/

theorem sound_heed (hs : s.Sound) (h : s.heed? = some (t, effects)) : t.Sound := by
  rcases heed?_eq_some h with ⟨a, acceptor, hstage, hcancel, rfl, _⟩
  have hunfinished := hs.unfinished
  rw [hstage] at hunfinished
  rcases cancel_same hcancel with ⟨hqueue, hpermits⟩
  exact sound_pause hs (Acceptor.sound_cancel hs.slots hcancel)
    (Acceptor.unfinished_cancel hunfinished hcancel) hqueue hpermits rfl
    (by intro hnot; cases hnot) (by simp)

theorem sound_unbind (hs : s.Sound) (h : s.unbind? = some (t, effects)) : t.Sound := by
  rcases unbind?_eq_some h with ⟨hstage, rfl, _⟩
  have hunfinished := hs.unfinished
  rw [hstage] at hunfinished
  exact {
    slots := Acceptor.sound_queue hs.slots []
    unfinished := hunfinished
    queue := rfl
    permits := hs.permits
    watched := hs.watched
    clients := hs.clients.of_append_right
    guards := hs.guards
    tracked := hs.tracked
    counts := hs.counts
    turnedAway := fun _ => rfl
    goesWell := by simp }

theorem alike_tell (s : Server) (client : Nat) : Alike s (s.tell client).1 := by
  unfold tell
  split
  · exact alike_refl s
  next c _ => exact alike_advance s c [.shutdown]

theorem alike_tellAll (s : Server) : Alike s s.tellAll.1 := by
  have hfold : forall (clients : List Nat) (r : Server × List Effect), Alike s r.1 ->
      Alike s (clients.foldl
        (fun r client => ((r.1.tell client).1, r.2 ++ (r.1.tell client).2)) r).1 := by
    intro clients
    induction clients with
    | nil => exact fun _ h => h
    | cons client rest ih => exact fun r h => ih _ (h.trans (alike_tell r.1 client))
  exact hfold s.watched (s, []) (alike_refl s)

theorem sound_drain (hs : s.Sound) (h : s.drain? = some (t, effects)) : t.Sound := by
  rcases drain?_eq_some h with ⟨hstage, rfl, _⟩
  have hunfinished := hs.unfinished
  rw [hstage] at hunfinished
  have haway := hs.turnedAway (by simp [isListening, goesOn, hstage])
  exact sound_of_alike
    (sound_pause hs hs.slots hunfinished rfl rfl rfl (fun _ => haway)
      (by simp))
    (alike_tellAll _)

theorem sound_stop {drained : Bool} (hs : s.Sound) (hstage : s.stage = .draining) :
    { s with stage := .stopped drained }.Sound := by
  have hunfinished := hs.unfinished
  rw [hstage] at hunfinished
  have haway := hs.turnedAway (by simp [isListening, goesOn, hstage])
  exact sound_pause hs hs.slots hunfinished rfl rfl rfl (fun _ => haway)
    (by simp)

theorem sound_step {event : Event} (hs : s.Sound) (h : s.step? event = some (t, effects)) :
    t.Sound := by
  cases event with
  | arrive client peer => exact sound_arrive hs h
  | accept => exact sound_accept hs h
  | acceptFails error => exact sound_acceptFails hs h
  | acceptIsRefused =>
      have hnone := acceptIsRefused?_eq_none hs
      exact absurd (hnone.symm.trans h) (by simp)
  | backOffEnds => exact sound_backOffEnds hs h
  | input client inputs => exact sound_input hs h
  | conclude client => exact sound_conclude hs h
  | heed => exact sound_heed hs h
  | unbind => exact sound_unbind hs h
  | drain => exact sound_drain hs h
  | finish =>
      rcases finish?_eq_some h with ⟨hstage, _, rfl, _⟩
      exact sound_stop hs hstage
  | abandon =>
      rcases abandon?_eq_some h with ⟨hstage, rfl, _⟩
      exact sound_stop hs hstage

theorem sound_of_run {keepAlive : Bool} {limit : Nat} {events : List Event}
    (h : (create keepAlive limit).run? events = some (t, effects)) : t.Sound :=
  run?_invariant (sound_create keepAlive limit)
    (fun _ _ _ _ hu htaken => sound_step hu htaken) h

end Server
end ConstantReply
