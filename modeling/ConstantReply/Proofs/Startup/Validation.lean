import ConstantReply.Proofs.Settings.Conditions
import ConstantReply.Proofs.Startup.FailFast

/-!
# Settings at a start

A start refuses settings that have faults, and names all of them.  Settings without faults keep the
calls that cannot report a failure, for threads and for slots, within what these take, so that no
start halts.
-/

namespace ConstantReply

def StartOutcome.finish (served : Except ServeError Unit) : StartOutcome -> StartOutcome
  | .listening settings listener address =>
      (StartOutcome.listening settings listener address).afterServing served
  | outcome => outcome

/-- The settings are not to blame for this end, and nothing has halted. -/
inductive StartOutcome.Regular : StartOutcome -> Prop where
  | logging (conflict : LogConflict) : Regular (.failed (@StartError.logging conflict))
  | runtime (cause : SystemError) : Regular (.failed (.runtime cause))
  | signals (cause : SystemError) : Regular (.failed (.signals cause))
  | listen (error : ListenError) : Regular (.failed (.listen error))
  | serve (error : ServeError) : Regular (.failed (.serve error))
  | listening (settings : Settings) (listener : Listener) (address : SocketAddress) :
      Regular (.listening settings listener address)

theorem StartOutcome.regular_finish {outcome : StartOutcome} (h : outcome.Regular)
    (served : Except ServeError Unit) : (outcome.finish served).Regular := by
  cases h with
  | listening settings listener address =>
      cases served with
      | ok u => exact Regular.listening settings listener address
      | error error => exact Regular.serve error
  | logging conflict => exact Regular.logging conflict
  | runtime cause => exact Regular.runtime cause
  | signals cause => exact Regular.signals cause
  | listen error => exact Regular.listen error
  | serve error => exact Regular.serve error

namespace Start

/-!
# Settings without faults

Every stage after the check of the settings fails for a reason of its own or leads to the next.
-/

section

variable {settings : Settings} {system : System} {record : StartRecord}

theorem bind_ne_tooManySlots (h : settings.faults = []) (sockets : SocketOutcomes)
    (table : SocketTable) :
    ((Listener.bind sockets.calls settings.endpoint).run table).1 ≠ .tooManySlots := by
  have hbinds : Listener.Binds sockets settings.endpoint
      ((Listener.bind sockets.calls settings.endpoint).run table) := Listener.binds_bind table
  intro houtcome
  cases hbind : (Listener.bind sockets.calls settings.endpoint).run table with
  | mk outcome after =>
      rw [hbind] at hbinds houtcome
      cases houtcome
      cases hbinds with
      | tooManySlots _ hslots =>
          exact absurd (maxConnections_le_of_faults h) (Nat.not_le.mpr hslots)

theorem exists_workers (h : settings.faults = []) : exists n, workers settings = .ok n := by
  unfold workers
  split
  · exact ⟨none, rfl⟩
  · rename_i n hsome
    have hne : n ≠ 0 := by
      rintro rfl
      exact workers_ne_zero_of_faults h hsome
    exact ⟨some n.toNat, if_neg hne⟩

theorem regular_announceAddress (listener : Listener) :
    ((announceAddress (StartRecord.host system.outcomes) settings listener).run
      record).1.Regular := by
  unfold announceAddress
  rw [run_bind_of_run (StartRecord.run_tell _ _ _),
    run_bind_of_run (StartRecord.run_localAddress _ _ _)]
  cases system.outcomes.localAddress listener.address with
  | error e => exact StartOutcome.Regular.serve _
  | ok address =>
      rw [run_bind_of_run (StartRecord.run_announce _ _ _)]
      exact StartOutcome.Regular.listening _ _ _

theorem regular_bindListener (h : settings.faults = []) :
    ((bindListener (StartRecord.host system.outcomes) settings).run record).1.Regular := by
  have hslots : system.outcomes.bind settings.endpoint ≠ .tooManySlots :=
    bind_ne_tooManySlots h system.sockets system.table
  unfold bindListener
  rw [run_bind_of_run (StartRecord.run_bind _ _ _)]
  cases hbind : system.outcomes.bind settings.endpoint with
  | failed e => exact StartOutcome.Regular.listen e
  | tooManySlots => exact absurd hbind hslots
  | bound listener => exact regular_announceAddress listener

theorem regular_takeSignals (h : settings.faults = []) :
    ((takeSignals (StartRecord.host system.outcomes) settings).run record).1.Regular := by
  unfold takeSignals
  rw [run_bind_of_run (StartRecord.run_installSignals _ _)]
  cases system.outcomes.signals with
  | error e => exact StartOutcome.Regular.signals e
  | ok u => exact regular_bindListener h

theorem regular_makeThreads (h : settings.faults = []) :
    ((makeThreads (StartRecord.host system.outcomes) settings).run record).1.Regular := by
  rcases exists_workers h with ⟨n, hn⟩
  unfold makeThreads
  simp only [hn]
  rw [run_bind_of_run (StartRecord.run_buildRuntime _ _ _)]
  cases system.outcomes.runtime with
  | error e => exact StartOutcome.Regular.runtime e
  | ok u => exact regular_takeSignals h

theorem regular_ofSettings (h : settings.faults = []) (system : System) (record : StartRecord) :
    ((ofSettings (StartRecord.host system.outcomes) settings).run record).1.Regular := by
  unfold ofSettings
  simp only [h]
  rw [run_bind_of_run (StartRecord.run_setUpLog _ _ _)]
  cases system.outcomes.setUpLog with
  | error conflict => exact StartOutcome.Regular.logging conflict
  | ok u =>
      simp only
      rw [run_bind_of_run (StartRecord.run_tell _ _ _)]
      exact regular_makeThreads h

end

theorem ofSettings_of_faults {settings : Settings} (h : settings.faults ≠ []) (system : System)
    (record : StartRecord) :
    (ofSettings (StartRecord.host system.outcomes) settings).run record =
      (.failed (.settings settings.faults), record) := by
  unfold ofSettings
  cases hfaults : settings.faults with
  | nil => exact absurd hfaults h
  | cons fault more => rfl

theorem joined_faults (settings : Settings) :
    StartError.joined settings.faults =
      String.intercalate ", "
        ((Condition.violated settings).map fun c => (c.fault settings).message) := by
  rw [settings.faults_eq_map_violated, StartError.joined, List.map_map]
  rfl

/-- What the checks of settings say and what they are for. -/
structure Validated (settings : Settings) : Prop where
  accepted : settings.faults = [] <-> forall c : Condition, c.Holds settings
  reported : settings.faults = (Condition.violated settings).map fun c => c.fault settings
  independent : forall (e : Settings.Edit) (c : Condition), e.condition? = some c ->
    exists front back, settings.faults = front ++ c.entry settings ++ back ∧
      (e.apply settings).faults = front ++ c.entry (e.apply settings) ++ back
  unchecked : forall e : Settings.Edit, e.condition? = none ->
    (e.apply settings).faults = settings.faults
  refused : forall (system : System) (record : StartRecord) (served : Except ServeError Unit),
    let r := (ofSettings (StartRecord.host system.outcomes) settings).run record
    ((exists faults, r.1.finish served = .failed (.settings faults)) <->
      settings.faults ≠ []) ∧
    (settings.faults ≠ [] -> r.1.finish served = .failed (.settings settings.faults))
  text : (StartError.settings settings.faults).display =
    "invalid configuration: " ++
      String.intercalate ", "
        ((Condition.violated settings).map fun c => (c.fault settings).message)
  threads : settings.faults = [] -> exists n, workers settings = .ok n
  slots : settings.faults = [] -> forall (sockets : SocketOutcomes) (table : SocketTable),
    ((Listener.bind sockets.calls settings.endpoint).run table).1 ≠ .tooManySlots
  neverHalts : forall (system : System) (record : StartRecord) (served : Except ServeError Unit)
    (halt : Halt),
    (((ofSettings (StartRecord.host system.outcomes) settings).run record).1.finish served) ≠
      .halted halt

/-- Settings are checked exactly and field by field, a start fails for exactly the conditions that
do not hold, and it never halts. -/
theorem validated_ofSettings (settings : Settings) : Validated settings where
  accepted := settings.faults_eq_nil_iff
  reported := settings.faults_eq_map_violated
  independent := fun _ _ => Settings.exists_faults_apply
  unchecked := fun _ => Settings.faults_apply_of_none
  refused := by
    intro system record served r
    by_cases hfaults : settings.faults = []
    · have hregular := StartOutcome.regular_finish (regular_ofSettings hfaults system record) served
      refine ⟨⟨?_, fun hsome => absurd hfaults hsome⟩, fun hsome => absurd hfaults hsome⟩
      rintro ⟨faults, houtcome⟩
      rw [houtcome] at hregular
      cases hregular
    · have hr : r.1.finish served = .failed (.settings settings.faults) := by
        rw [show r = _ from ofSettings_of_faults hfaults system record]
        rfl
      exact ⟨⟨fun _ => hfaults, fun _ => ⟨_, hr⟩⟩, fun _ => hr⟩
  text := by
    rw [← joined_faults]
    rfl
  threads := exists_workers
  slots := bind_ne_tooManySlots
  neverHalts := by
    intro system record served halt houtcome
    by_cases hfaults : settings.faults = []
    · have hregular := StartOutcome.regular_finish (regular_ofSettings hfaults system record) served
      rw [houtcome] at hregular
      cases hregular
    · rw [ofSettings_of_faults hfaults] at houtcome
      cases houtcome

end Start
end ConstantReply
