import ConstantReply.Address.Printer
import ConstantReply.Settings.Validation
import ConstantReply.SystemError

/-!
# Failures and their causes

Three layers of failure: of the listener, of serving, and of starting.  Each kind of failure has its
text and at most one cause right below it.  A layer that only carries a failure of the layer below
shows its text and hands on its cause.  What cannot be reported as a failure at all halts the
program.
-/

namespace ConstantReply

/-- Why a listener could not be bound or could not accept. -/
inductive ListenError where
  | invalidAddress (address : String) (cause : SystemError)
  | addressInUse (address : SocketAddress)
  | permissionDenied (address : SocketAddress)
  | bind (address : SocketAddress) (cause : SystemError)
  | socket (cause : SystemError)
  | accept (cause : SystemError)
  | closed
  deriving DecidableEq, Repr

/-- Why serving ended early. -/
inductive ServeError where
  | listen (error : ListenError)
  | localAddress (cause : SystemError)
  deriving DecidableEq, Repr

/-- What has been set up by someone else before the log. -/
inductive LogConflict where
  | dispatcher
  | logger
  deriving DecidableEq, Repr

/-- Why the server did not come to listen, or did not end well. -/
inductive StartError where
  | settings (faults : List SettingsFault)
  | logging {conflict : LogConflict}
  | runtime (cause : SystemError)
  | signals (cause : SystemError)
  | listen (error : ListenError)
  | serve (error : ServeError)
  deriving DecidableEq, Repr

/-- Anything that has gone wrong: a failure of one of the layers, or what lies below them all. -/
inductive Cause where
  | system (error : SystemError)
  | logTaken (conflict : LogConflict)
  | listen (error : ListenError)
  | serve (error : ServeError)
  | start (error : StartError)
  deriving DecidableEq, Repr

/-!
## Failures of the listener
-/

namespace ListenError

def display : ListenError -> String
  | .invalidAddress address cause =>
      "invalid listen address " ++ address ++ ": " ++ cause.display
  | .addressInUse address =>
      "failed to bind " ++ address.display ++ ": address already in use"
  | .permissionDenied address =>
      "failed to bind " ++ address.display ++ ": permission denied"
  | .bind address cause =>
      "failed to bind " ++ address.display ++ ": " ++ cause.display
  | .socket cause => "failed to create socket: " ++ cause.display
  | .accept cause => "failed to accept: " ++ cause.display
  | .closed => "connection limit closed"

def cause? : ListenError -> Option Cause
  | .invalidAddress _ cause => some (.system cause)
  | .addressInUse _ => none
  | .permissionDenied _ => none
  | .bind _ cause => some (.system cause)
  | .socket cause => some (.system cause)
  | .accept cause => some (.system cause)
  | .closed => none

/-- The failure to bind an address, told apart by the kind of its cause.  Two kinds say all there
is to say, so their cause is not kept. -/
def ofBind (address : SocketAddress) (cause : SystemError) : ListenError :=
  match cause.kind with
  | .addressInUse => .addressInUse address
  | .permissionDenied => .permissionDenied address
  | _ => .bind address cause

end ListenError

/-!
## The outer layers
-/

def LogConflict.display : LogConflict -> String
  | .dispatcher => "a global default trace dispatcher has already been set"
  | .logger => "attempted to set a logger after the logging system was already initialized"

namespace ServeError

def display : ServeError -> String
  | .listen error => error.display
  | .localAddress cause => "listener address unavailable: " ++ cause.display

/-- The cause right below.  A failure that is only carried hands on its own. -/
def cause? : ServeError -> Option Cause
  | .listen error => error.cause?
  | .localAddress cause => some (.system cause)

end ServeError

namespace StartError

def joined (faults : List SettingsFault) : String :=
  String.intercalate ", " (faults.map SettingsFault.message)

def display : StartError -> String
  | .settings faults => "invalid configuration: " ++ joined faults
  | @logging conflict => "failed to initialize logging: " ++ conflict.display
  | .runtime cause => "failed to build runtime: " ++ cause.display
  | .signals cause => "failed to install signal handlers: " ++ cause.display
  | .listen error => error.display
  | .serve error => error.display

def cause? : StartError -> Option Cause
  | .settings _ => none
  | @logging conflict => some (.logTaken conflict)
  | .runtime cause => some (.system cause)
  | .signals cause => some (.system cause)
  | .listen error => error.cause?
  | .serve error => error.cause?

end StartError

/-!
## From cause to cause
-/

namespace Cause

def display : Cause -> String
  | .system error => error.display
  | .logTaken conflict => conflict.display
  | .listen error => error.display
  | .serve error => error.display
  | .start error => error.display

/-- The cause right below.  Nothing lies below an error of the system. -/
def cause? : Cause -> Option Cause
  | .system _ => none
  | .logTaken _ => none
  | .listen error => error.cause?
  | .serve error => error.cause?
  | .start error => error.cause?

/-- How many layers there are below.  A cause lies below what it causes, so following causes comes to
an end. -/
def height : Cause -> Nat
  | .system _ => 0
  | .logTaken _ => 0
  | .listen _ => 1
  | .serve _ => 2
  | .start _ => 3

theorem height_lt_of_listen {error : ListenError} {below : Cause}
    (h : error.cause? = some below) : below.height < 1 := by
  cases error <;> cases h <;> exact Nat.zero_lt_one

theorem height_lt_of_serve {error : ServeError} {below : Cause}
    (h : error.cause? = some below) : below.height < 2 := by
  cases error with
  | listen error => exact Nat.lt_succ_of_lt (height_lt_of_listen h)
  | localAddress cause =>
      cases h
      exact Nat.zero_lt_two

theorem height_lt_of_start {error : StartError} {below : Cause}
    (h : error.cause? = some below) : below.height < 3 := by
  cases error with
  | listen error => exact Nat.lt_trans (height_lt_of_listen h) (by decide)
  | serve error => exact Nat.lt_succ_of_lt (height_lt_of_serve h)
  | settings faults => cases h
  | _ =>
      cases h
      exact Nat.zero_lt_succ 2

theorem height_lt_of_cause? {c below : Cause} (h : c.cause? = some below) :
    below.height < c.height := by
  cases c with
  | system error => cases h
  | logTaken conflict => cases h
  | listen error => exact height_lt_of_listen h
  | serve error => exact height_lt_of_serve h
  | start error => exact height_lt_of_start h

def causes (c : Cause) : List Cause :=
  match _ : c.cause? with
  | none => []
  | some below => below :: below.causes
termination_by c.height
decreasing_by exact height_lt_of_cause? ‹_›

theorem causes_of_none {c : Cause} (h : c.cause? = none) : c.causes = [] := by
  rw [causes]
  split
  · rfl
  · rename_i hsome
    rw [h] at hsome
    cases hsome

theorem causes_of_some {c below : Cause} (h : c.cause? = some below) :
    c.causes = below :: below.causes := by
  rw [causes]
  split
  · rename_i hnone
    rw [h] at hnone
    cases hnone
  · rename_i hsome
    rw [h] at hsome
    cases hsome
    rfl

end Cause

def ListenError.causes (error : ListenError) : List Cause := (Cause.listen error).causes

def ServeError.causes (error : ServeError) : List Cause := (Cause.serve error).causes

def StartError.causes (error : StartError) : List Cause := (Cause.start error).causes

/-!
## Halts
-/

/-- What the program cannot go on from, nor report as a failure. -/
inductive Halt where
  | undecodable
  | noWorkers
  | tooManySlots
  deriving DecidableEq, Repr

namespace Halt

def message : Halt -> String
  | .undecodable => "unexpected invalid UTF-8 code point"
  | .noWorkers => "Worker threads cannot be set to 0"
  | .tooManySlots =>
      "a semaphore may not have more than MAX_PERMITS permits (" ++ toString maxSlots ++ ")"

def exitCode : Nat := 101

end Halt
end ConstantReply
