import ConstantReply.Http2.Client
import ConstantReply.Simulation

/-!
# Requests in frames

A client makes several requests on one connection, one after the other.
-/

namespace ConstantReply
namespace Simulation

def authority : String := "localhost"

def ask (s : Simulation) (id : Nat) (c : Http2.FrameClient) (r : Http2.ClientRequest) :
    Option Http2.ClientAnswer × Http2.FrameClient × Simulation :=
  let (bytes, stream, c) := c.request authority r
  match (s.send id bytes).readAll id patience with
  | none => (none, c, s)
  | some (data, _, s) =>
      let (answer, c) := c.answer stream data
      (answer, c, s)

def askAll (s : Simulation) (id : Nat) (c : Http2.FrameClient) :
    List Http2.ClientRequest -> List (Option Http2.ClientAnswer)
  | [] => []
  | r :: rest =>
      let (answer, c, s) := s.ask id c r
      answer :: askAll s id c rest

def converse (s : Simulation) (requests : List Http2.ClientRequest) :
    Except SystemError (List (Option Http2.ClientAnswer)) :=
  let id := s.clients.length
  match s.connect with
  | (.error e, _) => .error e
  | (.ok (), s) => .ok ((s.send id Http2.FrameClient.opening).askAll id {} requests)

end Simulation
end ConstantReply
