import ConstantReply.Proofs.CommandLine.Halting
import ConstantReply.Proofs.Listener.Binding
import ConstantReply.Proofs.Server.Loop
import ConstantReply.Startup

/-!
# Starts that fail fast

A start takes its steps in their order up to the first that fails, and ends with the error of this
one.  If none fails, the address of the listener is announced, and the program ends well with its
server.  The one thing that can halt a start is the reading of the command line.
-/

namespace ConstantReply

/-- How a system answers a start; its sockets answer the calls that a listener makes. -/
structure System where
  log : Except LogConflict Unit
  runtime : Except SystemError Unit
  signals : Except SystemError Unit
  sockets : SocketOutcomes
  table : SocketTable
  localAddress : SocketAddress -> Except SystemError SocketAddress

namespace System

def listen (system : System) (settings : Settings) : BindOutcome × SocketTable :=
  (Listener.bind system.sockets.calls settings.endpoint).run system.table

def outcomes (system : System) : StartOutcomes where
  logging := system.log ≠ .error .dispatcher
  logger := system.log ≠ .error .logger
  runtime := system.runtime
  signals := system.signals
  bind endpoint := ((Listener.bind system.sockets.calls endpoint).run system.table).1
  localAddress := system.localAddress

theorem setUpLog_outcomes (system : System) : system.outcomes.setUpLog = system.log := by
  cases hlog : system.log with
  | ok u => simp [StartOutcomes.setUpLog, outcomes, hlog]
  | error conflict => cases conflict <;> simp [StartOutcomes.setUpLog, outcomes, hlog]

end System

namespace Start

/-- The stages of a start that has settings. -/
inductive Stage where
  | settings
  | logging
  | runtime
  | signals
  | bind
  | localAddress
  deriving DecidableEq

namespace Stage

def all : List Stage := [.settings, .logging, .runtime, .signals, .bind, .localAddress]

def step? : Stage -> Option StartStep
  | .settings => none
  | .logging => some .logging
  | .runtime => some .runtime
  | .signals => some .signals
  | .bind => some .bind
  | .localAddress => some .localAddress

def error? (system : System) (settings : Settings) : Stage -> Option StartError
  | .settings => if settings.faults = [] then none else some (.settings settings.faults)
  | .logging =>
      match system.log with
      | .ok () => none
      | .error conflict => some (@StartError.logging conflict)
  | .runtime =>
      match system.runtime with
      | .ok () => none
      | .error e => some (.runtime e)
  | .signals =>
      match system.signals with
      | .ok () => none
      | .error e => some (.signals e)
  | .bind =>
      match (system.listen settings).1 with
      | .failed e => some (.listen e)
      | _ => none
  | .localAddress =>
      match (system.listen settings).1 with
      | .bound listener =>
          match system.localAddress listener.address with
          | .ok _ => none
          | .error e => some (.serve (.localAddress e))
      | _ => none

def told (system : System) (settings : Settings) : Stage -> List Log.Event
  | .logging => [Log.starting settings]
  | .bind =>
      match (system.listen settings).1 with
      | .bound listener => [Log.listenerBound listener.address settings.endpoint]
      | _ => []
  | _ => []

end Stage

/-- What was done by a start that came to its end in this stage, after these others. -/
structure Took (system : System) (settings : Settings) (before : List Stage) (stage : Stage)
    (record : StartRecord) : Prop where
  steps : record.steps = (before ++ [stage]).filterMap Stage.step?
  told : record.events = before.flatMap (Stage.told system settings)
  printed : record.printed = ""

/-- How a start ends, and what was done until then. -/
inductive Ends (system : System) (arguments : List Utf8.RawText)
    (environment : CommandLine.Environment) : StartOutcome -> StartRecord -> Prop where
  | misused {failure : CommandLine.Failure} :
      CommandLine.parse arguments environment = .error failure -> failure.halt? = none ->
      Ends system arguments environment (.misused failure) {}
  | halted {failure : CommandLine.Failure} {halt : Halt} :
      CommandLine.parse arguments environment = .error failure -> failure.halt? = some halt ->
      Ends system arguments environment (.halted halt) {}
  | failed {settings : Settings} {before after : List Stage} {stage : Stage} {error : StartError}
      {record : StartRecord} :
      CommandLine.parse arguments environment = .ok settings ->
      Stage.all = before ++ stage :: after ->
      (forall earlier, earlier ∈ before -> earlier.error? system settings = none) ->
      stage.error? system settings = some error -> Took system settings before stage record ->
      Ends system arguments environment (.failed error) record
  | listening {settings : Settings} {listener : Listener} {after : SocketTable}
      {bound address : SocketAddress} :
      CommandLine.parse arguments environment = .ok settings ->
      (forall stage, Stage.error? system settings stage = none) ->
      system.listen settings = (.bound listener, after) ->
      after.addressOf? listener.socket = some bound ->
      system.sockets.localAddress bound = .ok listener.address ->
      system.localAddress listener.address = .ok address ->
      Ends system arguments environment (.listening settings listener address) {
        steps := Stage.all.filterMap Stage.step? ++ [.announce]
        printed := announcement address
        events := Stage.all.flatMap (Stage.told system settings) }

end Start

/-!
# What the system is asked

Each question is recorded and answered.
-/

namespace StartRecord

variable (outcomes : StartOutcomes) (record : StartRecord)

theorem run_setUpLog (settings : Settings) :
    ((host outcomes).setUpLog settings).run record =
      (outcomes.setUpLog, { record with steps := record.steps ++ [.logging] }) := rfl

theorem run_buildRuntime (workers : Option Nat) :
    ((host outcomes).buildRuntime workers).run record =
      (outcomes.runtime, { record with steps := record.steps ++ [.runtime] }) := rfl

theorem run_installSignals :
    (host outcomes).installSignals.run record =
      (outcomes.signals, { record with steps := record.steps ++ [.signals] }) := rfl

theorem run_bind (endpoint : Endpoint) :
    ((host outcomes).bind endpoint).run record =
      (outcomes.bind endpoint, { record with steps := record.steps ++ [.bind] }) := rfl

theorem run_localAddress (listener : Listener) :
    ((host outcomes).localAddress listener).run record =
      (outcomes.localAddress listener.address,
        { record with steps := record.steps ++ [.localAddress] }) := rfl

theorem run_announce (address : SocketAddress) :
    ((host outcomes).announce address).run record =
      ((), { record with
        steps := record.steps ++ [.announce]
        printed := record.printed ++ announcement address }) := rfl

theorem run_tell (event : Log.Event) :
    ((host outcomes).tell event).run record =
      ((), { record with events := record.events ++ [event] }) := rfl

end StartRecord

/-!
# Stages

Each stage either fails, and is the last, or leads to the next one.
-/

namespace Start

variable {system : System} {arguments : List Utf8.RawText}
  {environment : CommandLine.Environment} {settings : Settings}

theorem maxConnections_le_of_faults (h : settings.faults = []) :
    settings.endpoint.maxConnections.toNat ≤ maxSlots := by
  simp only [Settings.faults, List.append_eq_nil_iff] at h
  have hslots := h.left.left.left.right
  unfold Settings.maxConnectionsFaults at hslots
  split at hslots
  · cases hslots
  split at hslots
  · cases hslots
  · omega

theorem workers_ne_zero_of_faults (h : settings.faults = []) : settings.workers ≠ some 0 := by
  simp only [Settings.faults, List.append_eq_nil_iff] at h
  have hworkers := h.left.left.right
  unfold Settings.workersFaults at hworkers
  split at hworkers
  · cases hworkers
  · assumption

def Ended (system : System) (arguments : List Utf8.RawText)
    (environment : CommandLine.Environment) (r : StartOutcome × StartRecord) : Prop :=
  Ends system arguments environment r.1 r.2

theorem ended_announceAddress (hparse : CommandLine.parse arguments environment = .ok settings)
    (hbefore : forall earlier, earlier ∈ [Stage.settings, .logging, .runtime, .signals, .bind] ->
      earlier.error? system settings = none)
    {listener : Listener} {after : SocketTable}
    (hlisten : system.listen settings = (.bound listener, after)) :
    Ended system arguments environment
      ((announceAddress (StartRecord.host system.outcomes) settings listener).run
        ⟨[.logging, .runtime, .signals, .bind], "", [Log.starting settings]⟩) := by
  unfold announceAddress
  rw [run_bind_of_run (StartRecord.run_tell _ _ _),
    run_bind_of_run (StartRecord.run_localAddress _ _ _)]
  cases haddress : system.localAddress listener.address with
  | error e =>
      have herror : Stage.error? system settings .localAddress =
          some (.serve (.localAddress e)) := by
        simp [Stage.error?, hlisten, haddress]
      have htold : [Stage.settings, .logging, .runtime, .signals, .bind].flatMap
          (Stage.told system settings) =
            [Log.starting settings, Log.listenerBound listener.address settings.endpoint] := by
        simp [Stage.told, hlisten]
      simp only [System.outcomes, haddress]
      apply Ends.failed hparse rfl hbefore herror
      exact ⟨rfl, htold.symm, rfl⟩
  | ok address =>
      have hnone (stage : Stage) : stage.error? system settings = none := by
        cases stage with
        | localAddress => simp [Stage.error?, hlisten, haddress]
        | _ => exact hbefore _ (by simp)
      have hbinds : Listener.Binds system.sockets settings.endpoint (system.listen settings) :=
        Listener.binds_bind system.table
      rw [hlisten] at hbinds
      have htold : Stage.all.flatMap (Stage.told system settings) =
          [Log.starting settings, Log.listenerBound listener.address settings.endpoint] := by
        simp [Stage.all, Stage.told, hlisten]
      simp only [System.outcomes, haddress]
      rw [run_bind_of_run (StartRecord.run_announce _ _ _), String.empty_append]
      cases hbinds with
      | bound hbound hgot =>
          have hends := Ends.listening hparse hnone hlisten hbound hgot haddress
          rw [htold] at hends
          exact hends

theorem ended_bindListener (hparse : CommandLine.parse arguments environment = .ok settings)
    (hfaults : settings.faults = [])
    (hbefore : forall earlier, earlier ∈ [Stage.settings, .logging, .runtime, .signals] ->
      earlier.error? system settings = none) :
    Ended system arguments environment
      ((bindListener (StartRecord.host system.outcomes) settings).run
        ⟨[.logging, .runtime, .signals], "", [Log.starting settings]⟩) := by
  unfold bindListener
  rw [run_bind_of_run (StartRecord.run_bind _ _ _)]
  have hbinds : Listener.Binds system.sockets settings.endpoint (system.listen settings) :=
    Listener.binds_bind system.table
  have houtcome : system.outcomes.bind settings.endpoint = (system.listen settings).1 := rfl
  rw [houtcome]
  generalize hlisten : system.listen settings = r at hbinds
  cases hbinds with
  | failed error after =>
      have herror : Stage.error? system settings .bind = some (.listen error) := by
        simp [Stage.error?, hlisten]
      apply Ends.failed hparse rfl hbefore herror
      exact ⟨rfl, rfl, rfl⟩
  | tooManySlots after hslots =>
      have hle := maxConnections_le_of_faults hfaults
      omega
  | bound _ _ =>
      apply ended_announceAddress hparse _ hlisten
      intro earlier hearlier
      cases earlier with
      | bind => simp [Stage.error?, hlisten]
      | localAddress => simp at hearlier
      | _ => exact hbefore _ (by simp)

theorem ended_takeSignals (hparse : CommandLine.parse arguments environment = .ok settings)
    (hfaults : settings.faults = [])
    (hbefore : forall earlier, earlier ∈ [Stage.settings, .logging, .runtime] ->
      earlier.error? system settings = none) :
    Ended system arguments environment
      ((takeSignals (StartRecord.host system.outcomes) settings).run
        ⟨[.logging, .runtime], "", [Log.starting settings]⟩) := by
  unfold takeSignals
  rw [run_bind_of_run (StartRecord.run_installSignals _ _)]
  cases hsignals : system.signals with
  | error e =>
      have herror : Stage.error? system settings .signals = some (.signals e) := by
        simp [Stage.error?, hsignals]
      simp only [System.outcomes, hsignals]
      apply Ends.failed hparse rfl hbefore herror
      exact ⟨rfl, rfl, rfl⟩
  | ok u =>
      simp only [System.outcomes, hsignals]
      apply ended_bindListener hparse hfaults
      intro earlier hearlier
      cases earlier with
      | signals => simp [Stage.error?, hsignals]
      | bind => simp at hearlier
      | localAddress => simp at hearlier
      | _ => exact hbefore _ (by simp)

theorem ended_makeThreads (hparse : CommandLine.parse arguments environment = .ok settings)
    (hfaults : settings.faults = [])
    (hbefore : forall earlier, earlier ∈ [Stage.settings, .logging] ->
      earlier.error? system settings = none) :
    Ended system arguments environment
      ((makeThreads (StartRecord.host system.outcomes) settings).run
        ⟨[.logging], "", [Log.starting settings]⟩) := by
  have hworkers : exists n, workers settings = .ok n := by
    unfold workers
    split
    · exact ⟨none, rfl⟩
    · rename_i n hsome
      have hne : n ≠ 0 := by
        intro hzero
        exact workers_ne_zero_of_faults hfaults (hzero ▸ hsome)
      exact ⟨some n.toNat, if_neg hne⟩
  rcases hworkers with ⟨n, hn⟩
  unfold makeThreads
  rw [hn]
  simp only
  rw [run_bind_of_run (StartRecord.run_buildRuntime _ _ _)]
  cases hruntime : system.runtime with
  | error e =>
      have herror : Stage.error? system settings .runtime = some (.runtime e) := by
        simp [Stage.error?, hruntime]
      simp only [System.outcomes, hruntime]
      apply Ends.failed hparse rfl hbefore herror
      exact ⟨rfl, rfl, rfl⟩
  | ok u =>
      simp only [System.outcomes, hruntime]
      apply ended_takeSignals hparse hfaults
      intro earlier hearlier
      simp only [List.mem_cons, List.not_mem_nil, or_false] at hearlier
      rcases hearlier with rfl | rfl | rfl
      · exact hbefore _ (by simp)
      · exact hbefore _ (by simp)
      · simp [Stage.error?, hruntime]

theorem ended_ofSettings (hparse : CommandLine.parse arguments environment = .ok settings) :
    Ended system arguments environment
      ((ofSettings (StartRecord.host system.outcomes) settings).run {}) := by
  unfold ofSettings
  cases hfaults : settings.faults with
  | cons fault more =>
      have herror : Stage.error? system settings .settings =
          some (.settings (fault :: more)) := by
        simp [Stage.error?, hfaults]
      have hall : Stage.all = [] ++ .settings :: Stage.all.tail := rfl
      apply Ends.failed hparse hall (by simp) herror
      exact ⟨rfl, rfl, rfl⟩
  | nil =>
      simp only
      rw [run_bind_of_run (StartRecord.run_setUpLog _ _ _)]
      have hsettings : Stage.error? system settings .settings = none := by
        simp [Stage.error?, hfaults]
      rw [system.setUpLog_outcomes]
      cases hlog : system.log with
      | error conflict =>
          have herror : Stage.error? system settings .logging =
              some (@StartError.logging conflict) := by
            simp [Stage.error?, hlog]
          simp only
          have hall : Stage.all = [.settings] ++ .logging :: Stage.all.tail.tail := rfl
          apply Ends.failed hparse hall (by simp [hsettings]) herror
          exact ⟨rfl, rfl, rfl⟩
      | ok u =>
          have hlogging : Stage.error? system settings .logging = none := by
            simp [Stage.error?, hlog]
          simp only
          rw [run_bind_of_run (StartRecord.run_tell _ _ _)]
          exact ended_makeThreads hparse hfaults (by simp [hsettings, hlogging])

theorem ended_ofCommandLine (system : System) (arguments : List Utf8.RawText)
    (environment : CommandLine.Environment) :
    Ended system arguments environment
      ((ofCommandLine (StartRecord.host system.outcomes) arguments environment).run {}) := by
  unfold ofCommandLine
  cases hparse : CommandLine.parse arguments environment with
  | error failure =>
      cases hhalt : failure.halt? with
      | none =>
          simp only [withoutSettings, hhalt]
          exact Ends.misused hparse hhalt
      | some halt =>
          simp only [withoutSettings, hhalt]
          exact Ends.halted hparse hhalt
  | ok settings => exact ended_ofSettings hparse

/-!
# What is shown
-/

/-- A command line error or the first error of a stage ends a start, which takes no step after it
and announces nothing; a program that announces its address ends well with its server. -/
structure FailsFast (system : System) (arguments : List Utf8.RawText)
    (environment : CommandLine.Environment) (outcome : StartOutcome) (record : StartRecord) :
    Prop where
  ends : Ends system arguments environment outcome record
  helped : forall full, CommandLine.parse arguments environment = .error (.help full) ->
    outcome.exitCode = 0 ∧
      record.output arguments environment outcome =
        CommandLine.Failure.message arguments environment (.help full) ∧
      outcome.report arguments environment = ""
  misused : forall failure, CommandLine.parse arguments environment = .error failure ->
    failure.halt? = none -> (forall full, failure ≠ .help full) ->
    outcome.exitCode = 2 ∧ record.output arguments environment outcome = "" ∧
      outcome.report arguments environment = failure.message arguments environment
  halted : forall halt, outcome = .halted halt ->
    CommandLine.Breaks arguments.tail ∧ outcome.exitCode = 101 ∧
      record.output arguments environment outcome = "" ∧
      outcome.report arguments environment = halt.message ++ "\n"
  failed : forall error, outcome = .failed error ->
    outcome.exitCode = 1 ∧ record.output arguments environment outcome = "" ∧
      outcome.report arguments environment = "ok-server: " ++ error.display ++ "\n"
  announced : forall settings listener address,
    outcome = .listening settings listener address ->
    record.output arguments environment outcome =
      "Listening on http://" ++ address.display ++ "\n"
  served : forall settings listener address, outcome = .listening settings listener address ->
    forall events server effects result,
      (Server.create settings.keepAlive listener.maxConnections).run? events =
        some (server, effects) ->
      server.result? = some result ->
      .heed ∈ events ∧ (outcome.afterServing result).exitCode = 0 ∧
        (outcome.afterServing result).report arguments environment = ""
  unserved : forall error,
    (outcome.afterServing (.error error)).exitCode = 1 ∧
      (outcome.afterServing (.error error)).report arguments environment =
        "ok-server: " ++ error.display ++ "\n"

variable {outcome : StartOutcome} {record : StartRecord}

theorem outcome_of_misused {failure : CommandLine.Failure}
    (h : Ends system arguments environment outcome record)
    (hparse : CommandLine.parse arguments environment = .error failure)
    (hhalt : failure.halt? = none) : outcome = .misused failure ∧ record = {} := by
  cases h with
  | misused hfailure =>
      rw [hparse] at hfailure
      cases hfailure
      exact ⟨rfl, rfl⟩
  | halted hfailure hsome =>
      rw [hparse] at hfailure
      cases hfailure
      cases hhalt.symm.trans hsome
  | failed hsettings =>
      rw [hparse] at hsettings
      cases hsettings
  | listening hsettings =>
      rw [hparse] at hsettings
      cases hsettings

theorem breaks_of_halted {halt : Halt}
    (h : Ends system arguments environment (.halted halt) record) :
    CommandLine.Breaks arguments.tail ∧ record = {} := by
  cases h with
  | halted hfailure hhalt => exact ⟨CommandLine.breaks_of_halt hfailure hhalt, rfl⟩

theorem printed_of_failed {error : StartError}
    (h : Ends system arguments environment (.failed error) record) : record.printed = "" := by
  cases h with
  | failed _ _ _ _ htook => exact htook.printed

theorem printed_of_listening {listener : Listener} {address : SocketAddress}
    (h : Ends system arguments environment (.listening settings listener address) record) :
    record.printed = announcement address := by
  cases h with
  | listening => rfl

/-- A start takes its steps in their order and ends at the first that fails, whatever the command
line and the environment are and however the system answers. -/
theorem failsFast_ofCommandLine (system : System) (arguments : List Utf8.RawText)
    (environment : CommandLine.Environment) :
    let r := (ofCommandLine (StartRecord.host system.outcomes) arguments environment).run {}
    FailsFast system arguments environment r.1 r.2 := by
  intro r
  have hends : Ends system arguments environment r.1 r.2 :=
    ended_ofCommandLine system arguments environment
  refine ⟨hends, ?_, ?_, ?_, ?_, ?_, ?_, fun error => ⟨rfl, rfl⟩⟩
  · intro full hparse
    rcases outcome_of_misused hends hparse rfl with ⟨houtcome, hrecord⟩
    rw [houtcome, hrecord]
    exact ⟨rfl, String.empty_append, rfl⟩
  · intro failure hparse hhalt hhelp
    rcases outcome_of_misused hends hparse hhalt with ⟨houtcome, hrecord⟩
    rw [houtcome, hrecord]
    cases failure with
    | help full => exact absurd rfl (hhelp full)
    | undecodable => cases hhalt
    | _ => exact ⟨rfl, rfl, rfl⟩
  · intro halt houtcome
    rw [houtcome] at hends ⊢
    rcases breaks_of_halted hends with ⟨hbreaks, hrecord⟩
    rw [hrecord]
    exact ⟨hbreaks, rfl, rfl, rfl⟩
  · intro error houtcome
    rw [houtcome] at hends ⊢
    have hprinted := printed_of_failed hends
    refine ⟨rfl, ?_, rfl⟩
    rw [StartRecord.output, hprinted]
    rfl
  · intro settings listener address houtcome
    rw [houtcome] at hends ⊢
    have hprinted := printed_of_listening hends
    rw [StartRecord.output, hprinted]
    exact String.append_empty
  · intro settings listener address houtcome events server effects result hrun hresult
    rcases (Server.result_of_run hrun hresult).left with ⟨hok, hheed⟩
    rw [hok, houtcome]
    exact ⟨hheed, rfl, rfl⟩

end Start
end ConstantReply
