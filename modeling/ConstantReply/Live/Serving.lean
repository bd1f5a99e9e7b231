import ConstantReply.Lifecycle.Watch
import ConstantReply.Live.Surroundings
import ConstantReply.Server.Clock
import ConstantReply.Session.Transcript
import Std.Async.Timer
import Std.Data.HashMap
import Std.Sync.Channel

/-!
# Serving clients of the system

Everything that happens outside comes in through one channel.  Each happening moves the server and
its deadlines on, and what the server does in return is done to the sockets and the log.
-/

namespace ConstantReply
namespace Live

open Std.Async

/-- What can happen to a program that serves. -/
inductive Happening where
  | connected (result : Except IO.Error TCP.Socket.Client)
  | received (client : Nat) (result : Except IO.Error (Option ByteArray))
  | signalled (signal : Signal)
  | alarm (due : Nat)

instance : Inhabited Happening := ⟨.alarm 0⟩

def await (happenings : Std.Channel Happening) (task : Async α)
    (happening : Except IO.Error α -> Happening) : IO Unit := do
  let running <- task.toIO
  discard <| IO.mapTask (fun result => do discard <| happenings.send (happening result)) running

/-- The connection of a client, and what the server remembers of the frames that it wrote. -/
structure Connection where
  socket : TCP.Socket.Client
  writer : Http2.Writer := {}

/-- A program that serves. -/
structure Service where
  happenings : Std.Channel Happening
  journal : IO.Ref (Option Log.Journal)
  listener : Option TCP.Socket.Server
  clock : Clock
  began : Nat
  watch : Watch := Watch.ready
  connections : Std.HashMap Nat Connection := {}
  nextClient : Nat := 0
  accepting : Bool := false
  alarm : Option Nat := none

namespace Service

/-!
## What the server does
-/

def readSize : UInt64 := 65536

def receive (s : Service) (client : Nat) (c : Connection) : IO Unit :=
  await s.happenings (c.socket.recv? readSize) (.received client)

def close (c : Connection) : IO Unit := do
  let closing <- c.socket.shutdown.toIO
  discard <| IO.mapTask (fun _ => c.socket.native.cancelRecv) closing

def apply (s : Service) : Effect -> IO Service
  | .logged event => do
      writeEvent s.journal event
      return s
  | .sent client outgoing => do
      match s.connections[client]? with
      | none => return s
      | some c =>
          let (bytes, writer) := outgoing.write c.writer (<- readTime).httpDate
          discard <| (c.socket.send ⟨bytes.toArray⟩).toIO
          return { s with connections := s.connections.insert client { c with writer := writer } }
  | .closed client => do
      match s.connections[client]? with
      | none => return s
      | some c =>
          close c
          return { s with connections := s.connections.erase client }
  | .unbound => do
      match s.listener with
      | none => return s
      | some listener =>
          if s.accepting then listener.native.cancelAccept
          return { s with listener := none }

def follow (s : Service) (r : Clock × List Effect) : IO Service :=
  r.2.foldlM apply { s with clock := r.1 }

def perform (s : Service) (event : Server.Event) : IO Service := s.follow (s.clock.perform event)

/-!
## What happens
-/

def welcome (s : Service) (socket : TCP.Socket.Client) : IO Service := do
  match <- attempt socket.getPeerName with
  | .error _ => s.perform (.acceptFails (.plain .connectionAborted))
  | .ok peer =>
      let id := s.nextClient
      let c : Connection := { socket := socket }
      let s := { s with nextClient := id + 1, connections := s.connections.insert id c }
      s.receive id c
      s.perform (.arrive id (ofAddress peer))

def read (s : Service) (client : Nat) (result : Except IO.Error (Option ByteArray)) :
    IO Service := do
  match s.connections[client]?, result with
  | some c, .ok (some bytes) =>
      s.receive client c
      s.perform (.input client (Http.Input.segment bytes.toList))
  | some _, _ => s.perform (.input client [.finish])
  | none, _ => return s

def heed (s : Service) (signal : Signal) : IO Service := do
  match s.watch.relay? signal with
  | none => return s
  | some (relayed, watch) =>
      (Log.signalEvents relayed.signal relayed.receivers).forM (writeEvent s.journal)
      let s := { s with watch := watch }
      if relayed.heard then s.follow s.clock.tell else return s

def handle (s : Service) : Happening -> IO Service
  | .connected result => do
      let s := { s with accepting := false }
      match s.listener, result with
      | none, _ => return s
      | some _, .ok socket => s.welcome socket
      | some _, .error e => s.perform (.acceptFails (systemError e))
  | .received client result => s.read client result
  | .signalled signal => s.heed signal
  | .alarm due => return { s with alarm := if s.alarm = some due then none else s.alarm }

/-!
## What is waited for
-/

def wantsConnection (s : Service) : Bool :=
  match s.clock.server.stage with
  | .accepting accept => s.clock.server.acceptor.granted.contains accept
  | _ => false

def accept (s : Service) : IO Service := do
  match s.listener with
  | none => return s
  | some listener =>
      if s.accepting = false ∧ s.wantsConnection = true then
        await s.happenings listener.accept .connected
        return { s with accepting := true }
      else return s

def elapsed (s : Service) : IO Nat := return (<- IO.monoMsNow) - s.began

def setAlarm (s : Service) : IO Service := do
  match s.clock.next? with
  | none => return s
  | some (due, _) =>
      if s.alarm.any (· ≤ due) then return s
      else
        let pause := due - (<- s.elapsed)
        await s.happenings (sleep (.ofNat pause)) fun _ => .alarm due
        return { s with alarm := some due }

def catchUp (s : Service) : IO Service := do s.follow (s.clock.advance (<- s.elapsed))

partial def run (s : Service) : IO (Except ServeError Unit) := do
  let s <- (<- s.accept).setAlarm
  match s.clock.server.result? with
  | some result => return result
  | none =>
      let happening <- IO.wait (<- s.happenings.recv)
      run (<- (<- s.catchUp).handle happening)

end Service
end Live
end ConstantReply
