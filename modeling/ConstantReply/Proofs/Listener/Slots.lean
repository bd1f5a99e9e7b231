import ConstantReply.Listener.Acceptor
import Mathlib.Data.List.Nodup

/-!
# The slots of a listener

Every slot is in one of three hands: in the pool, with an accept that waits for a connection, or
with a connection as its permit.  Each step moves one slot at most, and none is lost or made on the
way.
-/

namespace ConstantReply
namespace Acceptor

variable {s t : Acceptor} {a p : Nat}

/-!
## Invariant
-/

structure Orderly (s : Acceptor) : Prop where
  handsOut : s.closed = false
  noneFree : s.waiting ≠ [] -> s.free = 0
  accepts : (s.granted ++ s.waiting).Nodup
  started : forall b, b ∈ s.granted ++ s.waiting -> b < s.nextAccept
  permits : (s.permits.map Prod.fst).Nodup
  issued : forall q, q ∈ s.permits -> q.1 < s.nextPermit

def held (s : Acceptor) : Nat := s.free + s.permits.length + s.granted.length

/-- Every slot is in somebody's hands. -/
structure Sound (s : Acceptor) : Prop extends Orderly s where
  conserved : s.held = s.limit

theorem sound_create (limit : Nat) : (create limit).Sound := by
  constructor
  · constructor <;> simp [create]
  · rfl

theorem nextAccept_not_mem (h : s.Orderly) : s.nextAccept ∉ s.granted ++ s.waiting :=
  fun hmem => Nat.lt_irrefl _ (h.started _ hmem)

/-!
## A slot that comes back
-/

theorem putBack_of_nil (h : s.waiting = []) : s.putBack = { s with free := s.free + 1 } := by
  simp only [putBack, h]

theorem putBack_of_cons {rest : List Nat} (h : s.waiting = a :: rest) :
    s.putBack = { s with waiting := rest, granted := s.granted ++ [a] } := by
  simp only [putBack, h]

@[simp] theorem limit_putBack : s.putBack.limit = s.limit := by
  cases h : s.waiting with
  | nil => rw [putBack_of_nil h]
  | cons a rest => rw [putBack_of_cons h]

@[simp] theorem permits_putBack : s.putBack.permits = s.permits := by
  cases h : s.waiting with
  | nil => rw [putBack_of_nil h]
  | cons a rest => rw [putBack_of_cons h]

@[simp] theorem queue_putBack : s.putBack.queue = s.queue := by
  cases h : s.waiting with
  | nil => rw [putBack_of_nil h]
  | cons a rest => rw [putBack_of_cons h]

@[simp] theorem nextPermit_putBack : s.putBack.nextPermit = s.nextPermit := by
  cases h : s.waiting with
  | nil => rw [putBack_of_nil h]
  | cons a rest => rw [putBack_of_cons h]

@[simp] theorem held_putBack : s.putBack.held = s.held + 1 := by
  cases h : s.waiting with
  | nil =>
      rw [putBack_of_nil h]
      simp only [held]
      omega
  | cons a rest =>
      rw [putBack_of_cons h]
      simp only [held, List.length_append, List.length_singleton]
      omega

theorem orderly_putBack (h : s.Orderly) : s.putBack.Orderly := by
  cases hwaiting : s.waiting with
  | nil =>
      rw [putBack_of_nil hwaiting]
      exact { h with noneFree := fun hne => absurd hwaiting hne }
  | cons b rest =>
      rw [putBack_of_cons hwaiting]
      have hsame : s.granted ++ [b] ++ rest = s.granted ++ s.waiting := by
        simp [hwaiting]
      exact {
        handsOut := h.handsOut
        noneFree := fun _ => h.noneFree (by simp [hwaiting])
        accepts := hsame ▸ h.accepts
        started := hsame ▸ h.started
        permits := h.permits
        issued := h.issued }

/-- Where a slot has gone that came back: into the pool, or to the accept that has waited longest.
Beside it, these accepts hold a slot. -/
inductive CameBack (s t : Acceptor) (granted : List Nat) : Prop where
  | toPool : s.waiting = [] -> t.waiting = [] -> t.granted = granted ->
      t.availablePermits = s.availablePermits + 1 -> CameBack s t granted
  | toNext (next : Nat) (rest : List Nat) : s.waiting = next :: rest -> t.waiting = rest ->
      t.granted = granted ++ [next] -> t.availablePermits = s.availablePermits ->
      CameBack s t granted

theorem cameBack_putBack {r : Acceptor} (hwaiting : r.waiting = s.waiting)
    (hfree : r.free = s.free) : CameBack s r.putBack r.granted := by
  cases h : r.waiting with
  | nil =>
      rw [putBack_of_nil h]
      exact CameBack.toPool (hwaiting ▸ h) h rfl (congrArg (· + 1) hfree)
  | cons next rest =>
      rw [putBack_of_cons h]
      exact CameBack.toNext next rest (hwaiting ▸ h) rfl rfl hfree

/-!
## What a step can be
-/

theorem start_of_free (hopen : s.closed = false) (hfree : 0 < s.free) (hnone : s.waiting = []) :
    s.start =
      { s with
        nextAccept := s.nextAccept + 1
        free := s.free - 1
        granted := s.granted ++ [s.nextAccept] } := by
  simp only [start, hopen, hfree, hnone, and_self, if_true]

theorem start_of_none (h : s.free = 0) :
    s.start =
      { s with nextAccept := s.nextAccept + 1, waiting := s.waiting ++ [s.nextAccept] } := by
  simp only [start, h, Nat.lt_irrefl, false_and, and_false, if_false]

theorem free_cases (h : s.Orderly) : s.free = 0 ∨ 0 < s.free ∧ s.waiting = [] := by
  by_cases hnone : s.waiting = []
  · rcases Nat.eq_zero_or_pos s.free with hfree | hfree
    · exact Or.inl hfree
    · exact Or.inr ⟨hfree, hnone⟩
  · exact Or.inl (h.noneFree hnone)

theorem complete?_eq_some (h : s.complete? a = some t) :
    exists client rest, s.queue = client :: rest ∧ a ∈ s.granted ∧
      t = { s with
        granted := s.granted.erase a
        queue := rest
        permits := s.permits ++ [(s.nextPermit, client)]
        nextPermit := s.nextPermit + 1 } := by
  unfold complete? at h
  split at h
  · cases h
  next client rest hqueue =>
    split at h
    next hgranted => exact ⟨client, rest, hqueue, hgranted, (Option.some.inj h).symm⟩
    · cases h

theorem fail?_eq_some (h : s.fail? a = some t) :
    a ∈ s.granted ∧ t = { s with granted := s.granted.erase a }.putBack := by
  unfold fail? at h
  split at h
  next hgranted => exact ⟨hgranted, (Option.some.inj h).symm⟩
  · cases h

theorem refuse?_eq_none (h : s.Orderly) : s.refuse? a = none := by
  simp [refuse?, h.handsOut]

theorem cancel?_eq_some (h : s.cancel? a = some t) :
    (a ∈ s.granted ∧ t = { s with granted := s.granted.erase a }.putBack) ∨
      (a ∉ s.granted ∧ a ∈ s.waiting ∧ t = { s with waiting := s.waiting.erase a }) := by
  unfold cancel? at h
  split at h
  next hgranted => exact Or.inl ⟨hgranted, (Option.some.inj h).symm⟩
  next hgranted =>
    split at h
    next hwaiting => exact Or.inr ⟨hgranted, hwaiting, (Option.some.inj h).symm⟩
    · cases h

theorem release?_eq_some (h : s.release? p = some t) :
    (exists client, (p, client) ∈ s.permits) ∧
      t = { s with permits := s.permits.filter fun q => q.1 ≠ p }.putBack := by
  unfold release? at h
  split at h
  next hany =>
    rcases List.any_eq_true.mp hany with ⟨q, hq, hp⟩
    have hfst : q.1 = p := of_decide_eq_true hp
    exact ⟨⟨q.2, hfst ▸ hq⟩, (Option.some.inj h).symm⟩
  · cases h

/-!
## Unfinished accepts
-/

theorem unfinished_putBack :
    s.putBack.granted ++ s.putBack.waiting = s.granted ++ s.waiting := by
  cases h : s.waiting with
  | nil =>
      rw [putBack_of_nil h]
      simp [h]
  | cons b rest =>
      rw [putBack_of_cons h]
      simp

theorem eq_of_granted (hone : s.granted ++ s.waiting = [a]) (hmem : p ∈ s.granted) :
    s.granted = [a] ∧ s.waiting = [] ∧ p = a := by
  cases hgranted : s.granted with
  | nil =>
      rw [hgranted] at hmem
      cases hmem
  | cons b rest =>
      rw [hgranted, List.cons_append, List.cons.injEq] at hone
      rcases hone with ⟨rfl, hnil⟩
      rcases List.append_eq_nil_iff.mp hnil with ⟨rfl, hwaiting⟩
      rw [hgranted] at hmem
      exact ⟨rfl, hwaiting, List.mem_singleton.mp hmem⟩

theorem unfinished_start (h : s.Orderly) (hnone : s.granted ++ s.waiting = []) :
    s.start.granted ++ s.start.waiting = [s.nextAccept] := by
  rcases List.append_eq_nil_iff.mp hnone with ⟨hgranted, hwaiting⟩
  rcases free_cases h with hfree | ⟨hfree, _⟩
  · rw [start_of_none hfree]
    simp [hgranted, hwaiting]
  · rw [start_of_free h.handsOut hfree hwaiting]
    simp [hgranted, hwaiting]

theorem unfinished_complete (hone : s.granted ++ s.waiting = [a])
    (taken : s.complete? p = some t) : t.granted ++ t.waiting = [] := by
  rcases complete?_eq_some taken with ⟨client, rest, _, hgranted, rfl⟩
  rcases eq_of_granted hone hgranted with ⟨hsingle, hwaiting, rfl⟩
  simp [hsingle, hwaiting]

theorem unfinished_fail (hone : s.granted ++ s.waiting = [a]) (taken : s.fail? p = some t) :
    t.granted ++ t.waiting = [] := by
  rcases fail?_eq_some taken with ⟨hgranted, rfl⟩
  rcases eq_of_granted hone hgranted with ⟨hsingle, hwaiting, rfl⟩
  rw [unfinished_putBack]
  simp [hsingle, hwaiting]

theorem unfinished_cancel (hone : s.granted ++ s.waiting = [a])
    (taken : s.cancel? p = some t) : t.granted ++ t.waiting = [] := by
  rcases cancel?_eq_some taken with ⟨hgranted, rfl⟩ | ⟨hgranted, hwaiting, rfl⟩
  · rcases eq_of_granted hone hgranted with ⟨hsingle, hnone, rfl⟩
    rw [unfinished_putBack]
    simp [hsingle, hnone]
  · rcases List.append_eq_cons_iff.mp hone with ⟨hnone, hsingle⟩ | ⟨more, hsome, hnil⟩
    · have hp : p = a := by
        simpa [hsingle] using hwaiting
      simp [hnone, hsingle, hp]
    · rw [(List.append_eq_nil_iff.mp hnil.symm).right] at hwaiting
      cases hwaiting

theorem start_same (h : s.Orderly) :
    s.start.permits = s.permits ∧ s.start.nextPermit = s.nextPermit ∧
      s.start.queue = s.queue := by
  rcases free_cases h with hfree | ⟨hfree, hnone⟩
  · rw [start_of_none hfree]
    exact ⟨rfl, rfl, rfl⟩
  · rw [start_of_free h.handsOut hfree hnone]
    exact ⟨rfl, rfl, rfl⟩

/-!
## Every step keeps the slots
-/

theorem orderly_erase_granted (h : s.Orderly) (a : Nat) :
    { s with granted := s.granted.erase a }.Orderly where
  handsOut := h.handsOut
  noneFree := h.noneFree
  accepts := h.accepts.sublist (List.Sublist.append_right List.erase_sublist _)
  started := fun b hb =>
    h.started b ((List.Sublist.append_right List.erase_sublist s.waiting).subset hb)
  permits := h.permits
  issued := h.issued

theorem length_erase_granted (h : a ∈ s.granted) :
    (s.granted.erase a).length + 1 = s.granted.length := by
  rw [List.length_erase_of_mem h]
  exact Nat.succ_pred_eq_of_pos (List.length_pos_of_mem h)

theorem length_filter_permits {permits : List (Nat × Nat)} {client : Nat}
    (hnodup : (permits.map Prod.fst).Nodup) (hmem : (p, client) ∈ permits) :
    (permits.filter fun q => q.1 ≠ p).length + 1 = permits.length := by
  have hone : permits.countP (fun q => q.1 = p) = 1 := by
    have hcount := List.count_eq_one_of_mem hnodup (List.mem_map_of_mem (f := Prod.fst) hmem)
    rw [List.count, List.countP_map] at hcount
    rw [← hcount]
    apply List.countP_congr
    intro q _
    simp
  have hall := List.length_eq_countP_add_countP (fun q : Nat × Nat => decide (q.1 = p))
    (l := permits)
  rw [hone] at hall
  rw [hall, Nat.add_comm, ← List.countP_eq_length_filter]
  congr 1
  apply List.countP_congr
  intro q _
  simp

theorem sound_start (h : s.Sound) : s.start.Sound := by
  have hnew := nextAccept_not_mem h.toOrderly
  have hlater : forall b, b ∈ s.granted ++ s.waiting ++ [s.nextAccept] -> b < s.nextAccept + 1 := by
    intro b hb
    rcases List.mem_append.mp hb with hb | hb
    · exact Nat.lt_succ_of_lt (h.started b hb)
    · rw [List.mem_singleton.mp hb]
      exact Nat.lt_succ_self _
  have hnodup : (s.granted ++ s.waiting ++ [s.nextAccept]).Nodup :=
    List.nodup_append'.mpr ⟨h.accepts, List.nodup_singleton _, by simpa using hnew⟩
  have hconserved := h.conserved
  rcases free_cases h.toOrderly with hfree | ⟨hfree, hnone⟩
  · rw [start_of_none hfree]
    rw [List.append_assoc] at hnodup hlater
    exact {
      handsOut := h.handsOut
      noneFree := fun _ => hfree
      accepts := hnodup
      started := hlater
      permits := h.permits
      issued := h.issued
      conserved := hconserved }
  · rw [start_of_free h.handsOut hfree hnone]
    rw [hnone, List.append_nil] at hnodup hlater
    exact {
      handsOut := h.handsOut
      noneFree := fun hne => absurd hnone hne
      accepts := by simpa [hnone] using hnodup
      started := by simpa [hnone] using hlater
      permits := h.permits
      issued := h.issued
      conserved := by
        simp only [held, List.length_append, List.length_singleton] at hconserved ⊢
        omega }

theorem sound_arrive (h : s.Sound) (client : Nat) : (s.arrive client).Sound :=
  ⟨⟨h.handsOut, h.noneFree, h.accepts, h.started, h.permits, h.issued⟩, h.conserved⟩

theorem sound_queue (h : s.Sound) (queue : List Nat) : { s with queue := queue }.Sound :=
  ⟨⟨h.handsOut, h.noneFree, h.accepts, h.started, h.permits, h.issued⟩, h.conserved⟩

theorem sound_complete (h : s.Sound) (taken : s.complete? a = some t) : t.Sound := by
  rcases complete?_eq_some taken with ⟨client, rest, _, hgranted, rfl⟩
  have herased := orderly_erase_granted h.toOrderly a
  have hfresh : s.nextPermit ∉ s.permits.map Prod.fst := by
    intro hmem
    rcases List.mem_map.mp hmem with ⟨q, hq, heq⟩
    exact absurd (h.issued q hq) (by rw [heq]; exact Nat.lt_irrefl _)
  exact {
    handsOut := h.handsOut
    noneFree := h.noneFree
    accepts := herased.accepts
    started := herased.started
    permits := by
      rw [List.map_append, List.map_cons, List.map_nil]
      exact List.nodup_append'.mpr ⟨h.permits, List.nodup_singleton _, by simpa using hfresh⟩
    issued := by
      intro q hq
      rcases List.mem_append.mp hq with hq | hq
      · exact Nat.lt_succ_of_lt (h.issued q hq)
      · rw [List.mem_singleton.mp hq]
        exact Nat.lt_succ_self _
    conserved := by
      have hconserved := h.conserved
      have hlength := length_erase_granted hgranted
      simp only [held, List.length_append, List.length_singleton] at hconserved ⊢
      omega }

theorem sound_giveUp (h : s.Sound) (hgranted : a ∈ s.granted) :
    { s with granted := s.granted.erase a }.putBack.Sound := by
  refine ⟨orderly_putBack (orderly_erase_granted h.toOrderly a), ?_⟩
  have hconserved := h.conserved
  have hlength := length_erase_granted hgranted
  rw [held_putBack, limit_putBack]
  simp only [held] at hconserved ⊢
  omega

theorem sound_fail (h : s.Sound) (taken : s.fail? a = some t) : t.Sound := by
  rcases fail?_eq_some taken with ⟨hgranted, rfl⟩
  exact sound_giveUp h hgranted

theorem sound_cancel (h : s.Sound) (taken : s.cancel? a = some t) : t.Sound := by
  rcases cancel?_eq_some taken with ⟨hgranted, rfl⟩ | ⟨_, _, rfl⟩
  · exact sound_giveUp h hgranted
  · have hsub : (s.granted ++ s.waiting.erase a).Sublist (s.granted ++ s.waiting) :=
      List.Sublist.append_left List.erase_sublist _
    exact {
      handsOut := h.handsOut
      noneFree := fun hne => h.noneFree fun hnone => hne (by simp [hnone])
      accepts := h.accepts.sublist hsub
      started := fun b hb => h.started b (hsub.subset hb)
      permits := h.permits
      issued := h.issued
      conserved := h.conserved }

theorem sound_release (h : s.Sound) (taken : s.release? p = some t) : t.Sound := by
  rcases release?_eq_some taken with ⟨⟨client, hmem⟩, rfl⟩
  refine ⟨orderly_putBack ?_, ?_⟩
  · have hsub : (s.permits.filter fun q => q.1 ≠ p).Sublist s.permits := List.filter_sublist
    exact {
      handsOut := h.handsOut
      noneFree := h.noneFree
      accepts := h.accepts
      started := h.started
      permits := h.permits.sublist (hsub.map Prod.fst)
      issued := fun q hq => h.issued q (hsub.subset hq) }
  · have hconserved := h.conserved
    have hlength := length_filter_permits h.permits hmem
    rw [held_putBack, limit_putBack]
    simp only [held] at hconserved ⊢
    omega

theorem sound_step {event : Event} (h : s.Sound) (taken : s.step? event = some t) : t.Sound := by
  cases event with
  | start => exact Option.some.inj taken ▸ sound_start h
  | arrive client => exact Option.some.inj taken ▸ sound_arrive h client
  | complete accept => exact sound_complete h taken
  | fail accept error => exact sound_fail h taken
  | refuse accept =>
      have hnone := refuse?_eq_none (a := accept) h.toOrderly
      exact absurd (hnone.symm.trans taken) (by simp)
  | cancel accept => exact sound_cancel h taken
  | release permit => exact sound_release h taken

theorem limit_step (event : Event) (taken : s.step? event = some t) : t.limit = s.limit := by
  cases event with
  | start =>
      cases Option.some.inj taken
      unfold start
      dsimp only
      split <;> rfl
  | arrive client =>
      cases Option.some.inj taken
      rfl
  | complete accept =>
      rcases complete?_eq_some taken with ⟨client, rest, _, _, rfl⟩
      rfl
  | fail accept error =>
      rcases fail?_eq_some taken with ⟨_, rfl⟩
      exact limit_putBack
  | refuse accept =>
      change s.refuse? accept = some t at taken
      unfold refuse? at taken
      split at taken
      · cases taken
        rfl
      · cases taken
  | cancel accept =>
      rcases cancel?_eq_some taken with ⟨_, rfl⟩ | ⟨_, _, rfl⟩
      · exact limit_putBack
      · rfl
  | release permit =>
      rcases release?_eq_some taken with ⟨_, rfl⟩
      exact limit_putBack

end Acceptor
end ConstantReply
