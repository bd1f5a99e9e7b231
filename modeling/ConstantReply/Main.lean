import ConstantReply.Live.Serving

/-!
# The program

It starts with its command line and the variables around it, serves until a signal ends it, and
reports how that went.
-/

namespace ConstantReply

def serve (happenings : Std.Channel Live.Happening) (journal : IO.Ref (Option Log.Journal))
    (sockets : IO.Ref Live.Sockets) (settings : Settings) (listener : Listener)
    (address : SocketAddress) : IO (Except ServeError Unit) := do
  Live.writeEvent journal
    (Log.serverStarting address listener.maxConnections settings.keepAlive)
  let socket := (<- sockets.get).get? listener.socket
  sockets.set {}
  let result <- Live.Service.run {
    happenings := happenings
    journal := journal
    listener := socket
    clock := Clock.create settings listener.maxConnections
    began := <- IO.monoMsNow }
  match result with
  | .ok () => Live.writeEvent journal Log.shutdownComplete
  | .error _ => pure ()
  return result

def runProgram (following : List String) : IO UInt32 := do
  let arguments := ((<- Live.readPath) :: following).map Utf8.ofString
  let environment <- Live.readEnvironment
  let happenings : Std.Channel Live.Happening <- Std.Channel.new
  let journal <- IO.mkRef none
  let sockets <- IO.mkRef {}
  let host := Live.host environment journal sockets fun signal => do
    discard <| happenings.send (.signalled signal)
  let outcome <-
    match <- Start.ofCommandLine host arguments environment with
    | .listening settings listener address =>
        let result <- serve happenings journal sockets settings listener address
        pure ((StartOutcome.listening settings listener address).afterServing result)
    | other => pure other
  Live.put (<- IO.getStdout) (outcome.help arguments environment)
  Live.put (<- IO.getStderr) (outcome.report arguments environment)
  return UInt32.ofNat outcome.exitCode

end ConstantReply

def main (arguments : List String) : IO UInt32 := ConstantReply.runProgram arguments
