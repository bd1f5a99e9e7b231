import ConstantReply.Address.Printer
import ConstantReply.Lifecycle.Signals
import ConstantReply.Lifecycle.Tracker
import ConstantReply.Log.Event
import ConstantReply.Settings
import ConstantReply.SystemError

/-!
# The events of the program

Every event that is told, by the part of the program that tells it.
-/

namespace ConstantReply
namespace Log

/-!
## Origins
-/

def startup : String := "ok_server::lifecycle::startup"

def listener : String := "ok_server::net::listener"

def server : String := "ok_server::http::server"

def signals : String := "ok_server::lifecycle::signals"

def shutdown : String := "ok_server::lifecycle::shutdown"

def connection : String := "ok_server::net::connection"

def requestStart : String := "tower_http::trace::on_request"

def requestEnd : String := "tower_http::trace::on_response"

/-!
## Starting and ending
-/

def programVersion : String := "0.1.0"

def shownWorkers : Option UInt64 -> String
  | none => "None"
  | some n => "Some(" ++ toString n.toNat ++ ")"

def starting (settings : Settings) : Event where
  level := .info
  origin := startup
  message := "ok-server starting"
  fields := [("version", .quoted programVersion), ("address", .shown settings.endpoint.address),
    ("worker_threads", .shown (shownWorkers settings.workers)),
    ("keep_alive", .flag settings.keepAlive)]

def listenerBound (address : SocketAddress) (endpoint : Endpoint) : Event where
  level := .info
  origin := listener
  message := "Listener bound"
  fields := [("address", .shown address.display), ("backlog", .number endpoint.backlog.toNat),
    ("max_connections", .number endpoint.maxConnections.toNat)]

def serverStarting (address : SocketAddress) (limit : Nat) (keepAlive : Bool) : Event where
  level := .info
  origin := server
  message := "HTTP server starting"
  fields := [("address", .shown address.display), ("max_connections", .number limit),
    ("keep_alive", .flag keepAlive)]

def signalReceived (signal : Signal) : Event where
  level := .info
  origin := signals
  message := "Shutdown signal received"
  fields := [("signal", .shown signal.display)]

def shutdownTriggered (receivers : Nat) : Event where
  level := .debug
  origin := shutdown
  message := "Shutdown triggered"
  fields := [("receivers", .number receivers)]

def signalEvents (signal : Signal) (receivers : Nat) : List Event :=
  [signalReceived signal, shutdownTriggered receivers]

def shutdownComplete : Event where
  level := .info
  origin := startup
  message := "Shutdown complete"

/-!
## Serving
-/

def clientWentAway (error : SystemError) : Event where
  level := .debug
  origin := server
  message := "Client went away before accept"
  fields := [("error", .shown error.display)]

def acceptFailed (error : SystemError) : Event where
  level := .error
  origin := server
  message := "Accept failed"
  fields := [("error", .shown error.display)]

def noLongerAccepting : Event where
  level := .info
  origin := server
  message := "Shutdown signal received, no longer accepting connections"

def draining (active : Nat) : Event where
  level := .info
  origin := server
  message := "Draining connections"
  fields := [("active_connections", .number active)]

def allClosed : Event where
  level := .info
  origin := server
  message := "All connections closed"

def drainTimedOut (remaining : Nat) : Event where
  level := .warn
  origin := server
  message := "Drain timed out, abandoning remaining connections"
  fields := [("remaining", .number remaining)]

def serverStopped : Event where
  level := .info
  origin := server
  message := "HTTP server stopped"

/-!
## Connections and requests
-/

def connectionAccepted (peer : SocketAddress) (available : Nat) : Event where
  level := .trace
  origin := listener
  message := "Connection accepted"
  fields := [("peer_addr", .shown peer.display), ("available_permits", .number available)]

def servingConnection (id : ConnectionId) (peer : SocketAddress) : Event where
  level := .trace
  origin := server
  message := "Serving connection"
  fields := [("connection_id", .shown id.display), ("peer_addr", .shown peer.display)]

def connectionClosed (id : ConnectionId) : Event where
  level := .trace
  origin := connection
  message := "Connection closed"
  fields := [("connection_id", .shown id.display)]

def requestStarted (span : RequestSpan) : Event where
  level := .debug
  origin := requestStart
  message := "started processing request"
  span := some span

def requestFinished (span : RequestSpan) (status : Nat) : Event where
  level := .debug
  origin := requestEnd
  message := "finished processing request"
  fields := [("latency", .shown "0 ms"), ("status", .number status)]
  span := some span

end Log
end ConstantReply
