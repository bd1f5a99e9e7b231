import ConstantReply.Settings.Validation

/-!
# The conditions on settings

Six fields have a condition each.  The faults of settings are the violated conditions in their
order, and no condition looks at a field other than its own.
-/

namespace ConstantReply

/-- A field with a condition on it. -/
inductive Condition where
  | host
  | backlog
  | maxConnections
  | workers
  | headTimeout
  | logLevel
  deriving DecidableEq

namespace Condition

def all : List Condition := [.host, .backlog, .maxConnections, .workers, .headTimeout, .logLevel]

def Holds (s : Settings) : Condition -> Prop
  | .host => exists c, c ∈ s.endpoint.host.toList ∧ Blank.isWhiteSpace c = false
  | .backlog => 1 ≤ s.endpoint.backlog.toNat
  | .maxConnections =>
      1 ≤ s.endpoint.maxConnections.toNat ∧ s.endpoint.maxConnections.toNat ≤ 2305843009213693951
  | .workers => s.workers ≠ some 0
  | .headTimeout => 1 ≤ s.headTimeoutMs.toNat
  | .logLevel =>
      exists level, level ∈ ["trace", "debug", "info", "warn", "error", "off"] ∧
        Ascii.SameUpToCase s.logLevel level

instance (s : Settings) : (c : Condition) -> Decidable (c.Holds s)
  | .host => inferInstanceAs (Decidable (exists c, c ∈ s.endpoint.host.toList ∧ _))
  | .backlog => inferInstanceAs (Decidable (_ ≤ _))
  | .maxConnections => inferInstanceAs (Decidable (_ ≤ _ ∧ _ ≤ _))
  | .workers => inferInstanceAs (Decidable (_ ≠ _))
  | .headTimeout => inferInstanceAs (Decidable (_ ≤ _))
  | .logLevel => inferInstanceAs (Decidable (exists level : String, level ∈ _ ∧ _))

def fault (s : Settings) : Condition -> SettingsFault
  | .host => .emptyHost
  | .backlog => .zeroBacklog
  | .maxConnections =>
      if s.endpoint.maxConnections = 0 then .zeroMaxConnections
      else .maxConnectionsTooLarge s.endpoint.maxConnections.toNat 2305843009213693951
  | .workers => .zeroWorkers
  | .headTimeout => .zeroHeadTimeout
  | .logLevel => .unknownLogLevel s.logLevel

def entry (s : Settings) (c : Condition) : List SettingsFault :=
  if c.Holds s then [] else [c.fault s]

def violated (s : Settings) : List Condition := all.filter fun c => ¬ c.Holds s

end Condition

namespace Settings

/-- A field of the settings and a value for it. -/
inductive Edit where
  | host (value : String)
  | port (value : UInt16)
  | backlog (value : UInt32)
  | maxConnections (value : UInt64)
  | keepAlive (value : Bool)
  | headTimeout (value : UInt64)
  | workers (value : Option UInt64)
  | drain (value : UInt64)
  | logLevel (value : String)
  | logFormat (value : LogFormat)

namespace Edit

def apply (s : Settings) : Edit -> Settings
  | .host v => { s with endpoint := { s.endpoint with host := v } }
  | .port v => { s with endpoint := { s.endpoint with port := v } }
  | .backlog v => { s with endpoint := { s.endpoint with backlog := v } }
  | .maxConnections v => { s with endpoint := { s.endpoint with maxConnections := v } }
  | .keepAlive v => { s with keepAlive := v }
  | .headTimeout v => { s with headTimeoutMs := v }
  | .workers v => { s with workers := v }
  | .drain v => { s with drainSeconds := v }
  | .logLevel v => { s with logLevel := v }
  | .logFormat v => { s with logFormat := v }

def condition? : Edit -> Option Condition
  | .host _ => some .host
  | .backlog _ => some .backlog
  | .maxConnections _ => some .maxConnections
  | .headTimeout _ => some .headTimeout
  | .workers _ => some .workers
  | .logLevel _ => some .logLevel
  | _ => none

end Edit

/-!
# Checks and conditions
-/

theorem Condition.entry_of_iff (s : Settings) (c : Condition) {p : Prop} [Decidable p]
    (h : p <-> ¬ c.Holds s) : (if p then [c.fault s] else []) = c.entry s := by
  unfold Condition.entry
  by_cases hholds : c.Holds s
  · rw [if_pos hholds, if_neg fun hp => h.mp hp hholds]
  · rw [if_neg hholds, if_pos (h.mpr hholds)]

section

variable (s : Settings)

theorem hostFaults_eq : hostFaults s.endpoint.host = Condition.host.entry s := by
  apply Condition.entry_of_iff s .host
  rw [Condition.Holds, ← Blank.isBlank_eq_false_iff, Bool.not_eq_false]

theorem backlogFaults_eq : backlogFaults s.endpoint.backlog = Condition.backlog.entry s := by
  apply Condition.entry_of_iff s .backlog
  rw [Condition.Holds, ← UInt32.toNat_inj, Nat.not_le, Nat.lt_one_iff]
  rfl

theorem maxConnectionsFaults_eq :
    maxConnectionsFaults s.endpoint.maxConnections = Condition.maxConnections.entry s := by
  unfold maxConnectionsFaults
  have hzero : s.endpoint.maxConnections = 0 <-> s.endpoint.maxConnections.toNat = 0 := by
    rw [← UInt64.toNat_inj]
    rfl
  by_cases hnone : s.endpoint.maxConnections = 0
  · have hnot : ¬ Condition.maxConnections.Holds s := by
      intro hholds
      have hpos : 1 ≤ s.endpoint.maxConnections.toNat := hholds.left
      rw [hzero.mp hnone] at hpos
      cases hpos
    rw [if_pos hnone, Condition.entry, if_neg hnot, Condition.fault, if_pos hnone]
  · rw [if_neg hnone]
    have hfault : Condition.maxConnections.fault s =
        .maxConnectionsTooLarge s.endpoint.maxConnections.toNat maxSlots := if_neg hnone
    rw [← hfault]
    apply Condition.entry_of_iff s .maxConnections
    have hpos := Nat.pos_of_ne_zero (mt hzero.mpr hnone)
    have hslots : maxSlots = 2305843009213693951 := rfl
    rw [Condition.Holds, hslots, not_and, Nat.not_le]
    exact ⟨fun hgreater _ => hgreater, fun h => h hpos⟩

theorem workersFaults_eq : workersFaults s.workers = Condition.workers.entry s := by
  apply Condition.entry_of_iff s .workers
  rw [Condition.Holds, Classical.not_not]

theorem headTimeoutFaults_eq :
    headTimeoutFaults s.headTimeoutMs = Condition.headTimeout.entry s := by
  apply Condition.entry_of_iff s .headTimeout
  rw [Condition.Holds, ← UInt64.toNat_inj, Nat.not_le, Nat.lt_one_iff]
  rfl

theorem lower_mem_logLevels_iff (level : String) :
    Ascii.lower level ∈ logLevels <->
      exists known, known ∈ logLevels ∧ Ascii.SameUpToCase level known := by
  have hlower : forall known, known ∈ logLevels -> Ascii.lower known = known := by decide
  constructor
  · intro h
    refine ⟨Ascii.lower level, h, ?_⟩
    rw [← Ascii.lower_eq_lower_iff, hlower _ h]
  · rintro ⟨known, hknown, hsame⟩
    rw [(Ascii.lower_eq_lower_iff _ _).mpr hsame, hlower known hknown]
    exact hknown

theorem logLevelFaults_eq : logLevelFaults s.logLevel = Condition.logLevel.entry s := by
  unfold logLevelFaults
  rw [← ite_not]
  apply Condition.entry_of_iff s .logLevel
  exact not_congr (lower_mem_logLevels_iff s.logLevel)

theorem faults_eq_flatMap : s.faults = Condition.all.flatMap fun c => c.entry s := by
  unfold faults
  rw [hostFaults_eq, backlogFaults_eq, maxConnectionsFaults_eq, workersFaults_eq,
    headTimeoutFaults_eq, logLevelFaults_eq]
  simp [Condition.all]

theorem flatMap_entry (conditions : List Condition) :
    (conditions.flatMap fun c => c.entry s) =
      (conditions.filter fun c => ¬ c.Holds s).map fun c => c.fault s := by
  induction conditions with
  | nil => rfl
  | cons c rest ih =>
      rw [List.flatMap_cons, ih, List.filter_cons]
      by_cases hholds : c.Holds s
      · simp [Condition.entry, hholds]
      · simp [Condition.entry, hholds]

theorem faults_eq_map_violated :
    s.faults = (Condition.violated s).map fun c => c.fault s := by
  rw [faults_eq_flatMap, flatMap_entry]
  rfl

theorem faults_eq_nil_iff : s.faults = [] <-> forall c : Condition, c.Holds s := by
  rw [faults_eq_map_violated, List.map_eq_nil_iff, Condition.violated, List.filter_eq_nil_iff]
  constructor
  · intro h c
    have hc := h c (by cases c <;> decide)
    simpa using hc
  · intro h c _
    simpa using h c

end

/-!
# One field at a time
-/

section

variable {s : Settings} {e : Edit}

theorem entry_apply_of_ne {c : Condition} (h : e.condition? ≠ some c) :
    c.entry (e.apply s) = c.entry s := by
  cases e <;> cases c <;> first | exact absurd rfl h | rfl

theorem flatMap_entry_apply {conditions : List Condition}
    (h : forall c, c ∈ conditions -> e.condition? ≠ some c) :
    (conditions.flatMap fun c => c.entry (e.apply s)) =
      conditions.flatMap fun c => c.entry s := by
  induction conditions with
  | nil => rfl
  | cons c rest ih =>
      rw [List.flatMap_cons, List.flatMap_cons, entry_apply_of_ne (h c List.mem_cons_self),
        ih fun other hother => h other (List.mem_cons_of_mem c hother)]

theorem faults_apply_of_none (h : e.condition? = none) : (e.apply s).faults = s.faults := by
  rw [faults_eq_flatMap, faults_eq_flatMap]
  apply flatMap_entry_apply
  intro c _ hc
  rw [h] at hc
  cases hc

theorem exists_faults_apply {c : Condition} (h : e.condition? = some c) :
    exists front back, s.faults = front ++ c.entry s ++ back ∧
      (e.apply s).faults = front ++ c.entry (e.apply s) ++ back := by
  have hcut : exists front back, Condition.all = front ++ c :: back ∧ c ∉ front ++ back := by
    cases c with
    | host => exact ⟨[], _, rfl, by decide⟩
    | backlog => exact ⟨[_], _, rfl, by decide⟩
    | maxConnections => exact ⟨[_, _], _, rfl, by decide⟩
    | workers => exact ⟨[_, _, _], _, rfl, by decide⟩
    | headTimeout => exact ⟨[_, _, _, _], _, rfl, by decide⟩
    | logLevel => exact ⟨[_, _, _, _, _], _, rfl, by decide⟩
  rcases hcut with ⟨front, back, hall, hc⟩
  have hothers (other : Condition) (hother : other ∈ front ++ back) :
      e.condition? ≠ some other := by
    rintro hsome
    rw [h, Option.some.injEq] at hsome
    exact hc (hsome ▸ hother)
  have hfront := flatMap_entry_apply (s := s) fun other hother =>
    hothers other (List.mem_append_left _ hother)
  have hback := flatMap_entry_apply (s := s) fun other hother =>
    hothers other (List.mem_append_right _ hother)
  refine ⟨front.flatMap fun c => c.entry s, back.flatMap fun c => c.entry s, ?_, ?_⟩
  · rw [faults_eq_flatMap, hall, List.flatMap_append, List.flatMap_cons, List.append_assoc]
  · rw [faults_eq_flatMap, hall, List.flatMap_append, List.flatMap_cons, hfront, hback,
      List.append_assoc]

end

end Settings
end ConstantReply
