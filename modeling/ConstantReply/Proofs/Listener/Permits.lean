import ConstantReply.Proofs.Listener.Slots
import ConstantReply.Proofs.Runs
import Mathlib.Data.List.Induction

/-!
# The permits of a listener

What has become of a permit is told by the steps so far: it is alive from the accept that returned
it to the one step that drops it.  Whatever the order of the steps, the permits that are alive, the
accepts that hold a slot and the free slots make up the limit.
-/

namespace ConstantReply
namespace Acceptor

variable {s t : Acceptor} {a p : Nat}

/-!
## Runs
-/

def returned (answers : List Answer) : List (Nat × Nat) :=
  answers.filterMap fun answer => answer.result.toOption

@[simp] theorem returned_append (front back : List Answer) :
    returned (front ++ back) = returned front ++ returned back :=
  List.filterMap_append

theorem run?_cons (s : Acceptor) (event : Event) (rest : List Event) :
    s.run? (event :: rest) = (s.step? event).bind fun t =>
      (t.run? rest).map fun v => (v.1, s.answers event ++ v.2) := by
  rw [run?]
  cases s.step? event with
  | none => rfl
  | some t =>
      cases h : t.run? rest <;> simp [h]

theorem run?_concat {events : List Event} {event : Event} {answers : List Answer}
    (h : s.run? (events ++ [event]) = some (t, answers)) :
    exists u front, s.run? events = some (u, front) ∧ u.step? event = some t ∧
      answers = front ++ u.answers event :=
  run_concat_of_steps step? (fun s event _ => s.answers event) (fun _ => rfl) run?_cons h

structure History (limit : Nat) (events : List Event) (answers : List Answer) (s : Acceptor) :
    Prop where
  sound : s.Sound
  limit : s.limit = limit
  alive : s.permits = (returned answers).filter fun q => .release q.1 ∉ events
  dropped : forall q, .release q ∈ events -> q < s.nextPermit
  once : forall q, events.count (.release q) ≤ 1
  opened : forall answer, answer ∈ answers -> answer.result ≠ .error .closed

theorem history_create (limit : Nat) : History limit [] [] (create limit) where
  sound := sound_create limit
  limit := rfl
  alive := rfl
  dropped := by simp
  once := by simp
  opened := by simp

section Histories

variable {limit : Nat} {events : List Event} {answers : List Answer}

theorem History.concat_of_same {event : Event} (h : History limit events answers s)
    (taken : s.step? event = some t) (hpermits : t.permits = s.permits)
    (hnext : t.nextPermit = s.nextPermit) (hevent : forall q, event ≠ .release q)
    (hnone : returned (s.answers event) = [])
    (hopened : forall answer, answer ∈ s.answers event -> answer.result ≠ .error .closed) :
    History limit (events ++ [event]) (answers ++ s.answers event) t := by
  have hmem : forall q, (.release q ∈ events ++ [event]) ↔ .release q ∈ events := by
    intro q
    have hne := (hevent q).symm
    simp [hne]
  constructor
  · exact sound_step h.sound taken
  · exact (limit_step _ taken).trans h.limit
  · rw [hpermits, h.alive, returned_append, hnone, List.append_nil]
    simp only [hmem]
  · intro q hq
    rw [hnext]
    exact h.dropped q ((hmem q).mp hq)
  · intro q
    rw [List.count_append, List.count_singleton, if_neg (by simpa using hevent q)]
    exact h.once q
  · intro answer hanswer
    rcases List.mem_append.mp hanswer with hanswer | hanswer
    · exact h.opened answer hanswer
    · exact hopened answer hanswer

theorem History.concat_complete (h : History limit events answers s)
    (taken : s.complete? a = some t) :
    History limit (events ++ [.complete a]) (answers ++ s.answers (.complete a)) t := by
  have hsound := sound_complete h.sound taken
  have hlimit := limit_step (.complete a) taken
  rcases complete?_eq_some taken with ⟨client, rest, hqueue, _, rfl⟩
  have hanswers : s.answers (.complete a) = [⟨a, .ok (s.nextPermit, client)⟩] := by
    simp [Acceptor.answers, hqueue]
  have hmem : forall q, (.release q ∈ events ++ [.complete a]) ↔ .release q ∈ events := by
    intro q
    simp
  have hfresh : .release s.nextPermit ∉ events :=
    fun hq => Nat.lt_irrefl _ (h.dropped _ hq)
  constructor
  · exact hsound
  · exact hlimit.trans h.limit
  · have hlast : returned [⟨a, .ok (s.nextPermit, client)⟩] = [(s.nextPermit, client)] := rfl
    rw [hanswers, returned_append, hlast]
    simp only [hmem, List.filter_append, h.alive]
    simp [hfresh]
  · intro q hq
    exact Nat.lt_succ_of_lt (h.dropped q ((hmem q).mp hq))
  · intro q
    rw [List.count_append]
    simpa using h.once q
  · intro answer hanswer
    rw [hanswers] at hanswer
    rcases List.mem_append.mp hanswer with hanswer | hanswer
    · exact h.opened answer hanswer
    · rw [List.mem_singleton.mp hanswer]
      simp

theorem History.concat_release (h : History limit events answers s)
    (taken : s.release? p = some t) :
    History limit (events ++ [.release p]) (answers ++ s.answers (.release p)) t := by
  have hsound := sound_release h.sound taken
  have hlimit := limit_step (.release p) taken
  rcases release?_eq_some taken with ⟨⟨client, hmem⟩, rfl⟩
  have hfirst : .release p ∉ events := by
    have halive := hmem
    rw [h.alive] at halive
    simpa using (List.mem_filter.mp halive).right
  constructor
  · exact hsound
  · exact hlimit.trans h.limit
  · simp only [permits_putBack, h.alive, List.filter_filter, Acceptor.answers, List.append_nil]
    apply List.filter_congr
    intro q _
    by_cases hq : q.1 = p <;> simp [hq]
  · intro q hq
    rw [nextPermit_putBack]
    rcases List.mem_append.mp hq with hq | hq
    · exact h.dropped q hq
    · cases List.mem_singleton.mp hq
      exact h.sound.issued _ hmem
  · intro q
    rw [List.count_append]
    by_cases hq : p = q
    · subst hq
      rw [List.count_eq_zero_of_not_mem hfirst]
      simp
    · have hne : (Event.release p == .release q) = false := by simpa using hq
      rw [List.count_singleton, hne]
      exact h.once q
  · intro answer hanswer
    have hnone : s.answers (.release p) = [] := rfl
    rw [hnone, List.append_nil] at hanswer
    exact h.opened answer hanswer

theorem history_step {event : Event} (h : History limit events answers s)
    (taken : s.step? event = some t) :
    History limit (events ++ [event]) (answers ++ s.answers event) t := by
  cases event with
  | start =>
      rcases start_same h.sound.toOrderly with ⟨hpermits, hnext, _⟩
      have heq := Option.some.inj taken
      exact h.concat_of_same taken (heq ▸ hpermits) (heq ▸ hnext) (by simp) rfl
        (by simp [Acceptor.answers])
  | arrive client =>
      have heq := Option.some.inj taken
      exact h.concat_of_same taken (heq ▸ rfl) (heq ▸ rfl) (by simp) rfl
        (by simp [Acceptor.answers])
  | complete accept => exact h.concat_complete taken
  | fail accept error =>
      rcases fail?_eq_some taken with ⟨_, heq⟩
      exact h.concat_of_same taken (heq ▸ permits_putBack) (heq ▸ nextPermit_putBack) (by simp)
        rfl (by simp [Acceptor.answers])
  | refuse accept =>
      have hnone := refuse?_eq_none (a := accept) h.sound.toOrderly
      exact absurd (hnone.symm.trans taken) (by simp)
  | cancel accept =>
      rcases cancel?_eq_some taken with ⟨_, heq⟩ | ⟨_, _, heq⟩
      · exact h.concat_of_same taken (heq ▸ permits_putBack) (heq ▸ nextPermit_putBack) (by simp)
          rfl (by simp [Acceptor.answers])
      · exact h.concat_of_same taken (heq ▸ rfl) (heq ▸ rfl) (by simp) rfl
          (by simp [Acceptor.answers])
  | release permit => exact h.concat_release taken

theorem history_of_run (h : (create limit).run? events = some (s, answers)) :
    History limit events answers s := by
  induction events using List.reverseRecOn generalizing s answers with
  | nil =>
      cases h
      exact history_create limit
  | append_singleton events event ih =>
      rcases run?_concat h with ⟨u, front, hfront, hstep, rfl⟩
      exact history_step (ih hfront) hstep

/-!
## The account of a listener
-/

/-- What holds of a listener with a limit after these steps, with which accepts have returned
this. -/
structure Accounted (limit : Nat) (events : List Event) (answers : List Answer) (s : Acceptor) :
    Prop where
  conserved : s.availablePermits + s.permits.length + s.granted.length = limit
  alive : s.permits = (returned answers).filter fun q => .release q.1 ∉ events
  bounded : s.permits.length ≤ limit
  droppedOnce : forall q, events.count (.release q) ≤ 1
  neverClosed : forall answer, answer ∈ answers -> answer.result ≠ .error .closed
  neverRefused : forall b, s.refuse? b = none
  afterFailure : forall b t, s.fail? b = some t ->
    CameBack s t (s.granted.erase b) ∧ t.permits = s.permits
  afterCancel : forall b t, s.cancel? b = some t -> t.permits = s.permits ∧
    (b ∈ s.granted -> CameBack s t (s.granted.erase b)) ∧
    (b ∉ s.granted -> t.granted = s.granted ∧ t.availablePermits = s.availablePermits)
  afterDrop : forall q t, s.release? q = some t ->
    CameBack s t s.granted ∧ t.permits = s.permits.filter fun r => r.1 ≠ q
  blocked : forall b, b ∈ s.granted ++ s.waiting -> s.queue ≠ [] -> s.complete? b = none ->
    b ∈ s.waiting ∧ s.availablePermits = 0
  idle : s.permits = [] -> s.granted = [] -> s.waiting = [] -> s.availablePermits = limit

theorem mem_waiting_of_blocked (hmem : a ∈ s.granted ++ s.waiting) (hqueue : s.queue ≠ [])
    (hblocked : s.complete? a = none) : a ∈ s.waiting := by
  rcases List.mem_append.mp hmem with hgranted | hwaiting
  · cases hclients : s.queue with
    | nil => exact absurd hclients hqueue
    | cons client rest => simp [complete?, hclients, hgranted] at hblocked
  · exact hwaiting

/-- Whatever the order in which accepts are started, complete, fail and are given up, clients
connect and permits are dropped, every slot of a listener is accounted for. -/
theorem accounted_of_run (h : (create limit).run? events = some (s, answers)) :
    Accounted limit events answers s := by
  have hhistory := history_of_run h
  have hconserved : s.availablePermits + s.permits.length + s.granted.length = limit :=
    hhistory.sound.conserved.trans hhistory.limit
  constructor
  · exact hconserved
  · exact hhistory.alive
  · omega
  · exact hhistory.once
  · exact hhistory.opened
  · exact fun b => refuse?_eq_none hhistory.sound.toOrderly
  · intro b t taken
    rcases fail?_eq_some taken with ⟨_, rfl⟩
    exact ⟨cameBack_putBack rfl rfl, permits_putBack⟩
  · intro b t taken
    rcases cancel?_eq_some taken with ⟨hgranted, rfl⟩ | ⟨hgranted, _, rfl⟩
    · exact ⟨permits_putBack, fun _ => cameBack_putBack rfl rfl,
        fun hnot => absurd hgranted hnot⟩
    · exact ⟨rfl, fun hmem => absurd hmem hgranted, fun _ => ⟨rfl, rfl⟩⟩
  · intro q t taken
    rcases release?_eq_some taken with ⟨_, rfl⟩
    exact ⟨cameBack_putBack rfl rfl, permits_putBack⟩
  · intro b hmem hqueue hblocked
    have hwaiting := mem_waiting_of_blocked hmem hqueue hblocked
    exact ⟨hwaiting, hhistory.sound.noneFree (List.ne_nil_of_mem hwaiting)⟩
  · intro hpermits hgranted _
    simpa [hpermits, hgranted] using hconserved

theorem accounted_of_one_slot :
    exists s answers,
      let events : List Event := [.start, .start, .arrive 7, .complete 0, .arrive 8, .release 0,
        .fail 1 SystemError.tooManyOpenFiles]
      (create 1).run? events = some (s, answers) ∧ s.availablePermits = 1 ∧
        Accounted 1 events answers s :=
  ⟨_, _, rfl, rfl, accounted_of_run rfl⟩

end Histories

end Acceptor
end ConstantReply
