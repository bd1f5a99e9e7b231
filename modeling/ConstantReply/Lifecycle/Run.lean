import ConstantReply.Lifecycle.Watch
import ConstantReply.Server

/-!
# A run from the installed handlers to the end

The steps of a start, the task that waits for a signal, the signals themselves and the server all go
on side by side.  The server hears the word to end only through the channel.
-/

namespace ConstantReply

/-- How far a start has come, once signal handlers are installed. -/
inductive Progress where
  | installed
  | bound
  | addressed
  | subscribed
  | watching
  | announced
  | serving
  | failed
  deriving DecidableEq, Repr

structure Run where
  keepAlive : Bool
  limit : Nat
  progress : Progress := .installed
  watch : Watch := ({} : Watch).install
  delivered : List Signal := []
  server : Server := Server.create keepAlive limit
  deriving DecidableEq, Repr

namespace Run

inductive Event where
  | deliver (signal : Signal)
  | bind (succeeds : Bool)
  | readAddress (succeeds : Bool)
  | subscribe
  | begin
  | announce
  | serve (succeeds : Bool)
  | take (signal : Signal)
  | trigger
  | server (event : Server.Event)
  deriving DecidableEq, Repr

def goOn? (r : Run) (turn : Progress) (succeeds : Bool) (next : Run) : Option Run :=
  if r.progress = turn then some (if succeeds then next else { r with progress := .failed })
  else none

def progressWith (server : Server) : Progress :=
  match server.result? with
  | some (.error _) => .failed
  | _ => .serving

/-- A step of the server.  It heeds the word to end when the channel has something to tell. -/
def serverStep? (r : Run) (event : Server.Event) : Option Run := do
  let (server, _) <- r.server.step? event
  let served := { r with server := server, progress := progressWith server }
  if r.progress ≠ .serving then none
  else if event = .heed then
    let watch <- r.watch.hear?
    some { served with watch := watch }
  else some served

def step? (r : Run) : Event -> Option Run
  | .deliver signal =>
      some { r with watch := r.watch.deliver signal, delivered := r.delivered ++ [signal] }
  | .bind succeeds => r.goOn? .installed succeeds { r with progress := .bound }
  | .readAddress succeeds => r.goOn? .bound succeeds { r with progress := .addressed }
  | .subscribe =>
      r.goOn? .addressed true { r with progress := .subscribed, watch := r.watch.subscribe }
  | .begin => r.goOn? .subscribed true { r with progress := .watching, watch := r.watch.begin }
  | .announce => r.goOn? .watching true { r with progress := .announced }
  | .serve succeeds => r.goOn? .announced succeeds { r with progress := .serving }
  | .take signal => (r.watch.take? signal).map fun watch => { r with watch := watch }
  | .trigger => r.watch.trigger?.map fun (_, watch) => { r with watch := watch }
  | .server event => r.serverStep? event

/-- The states that a run can come to. -/
inductive Reachable (keepAlive : Bool) (limit : Nat) : Run -> Prop where
  | start : Reachable keepAlive limit { keepAlive := keepAlive, limit := limit }
  | step {r s : Run} {event : Event} (h : Reachable keepAlive limit r)
      (taken : r.step? event = some s) : Reachable keepAlive limit s

def hasLeft (r : Run) : Bool := !r.server.goesOn

end Run
end ConstantReply
