import ConstantReply.Lifecycle.Run
import ConstantReply.Main
import ConstantReply.Proofs.CommandLine.Blame
import ConstantReply.Proofs.Lifecycle.Operations
import ConstantReply.Proofs.Lifecycle.Counting
import ConstantReply.Proofs.Lifecycle.Relay
import ConstantReply.Proofs.Listener.Permits
import ConstantReply.Proofs.Server.Independence
import ConstantReply.Proofs.Session.Constancy
import ConstantReply.Proofs.Session.Payloads
import ConstantReply.Proofs.Session.Pipelining
import ConstantReply.Proofs.Session.Safety
import ConstantReply.Proofs.Session.Speech
import ConstantReply.Proofs.Session.Streams
import ConstantReply.Proofs.Startup.FailFast
import ConstantReply.Simulation.Listeners
import ConstantReply.Simulation.Process
import ConstantReply.Simulation.Requests
import ConstantReply.Proofs.Lifecycle.Broadcast
import ConstantReply.Proofs.Http.Persistence
import ConstantReply.Proofs.Session.Persistence
import ConstantReply.Proofs.CommandLine.Finality
import ConstantReply.Proofs.CommandLine.Halting
import ConstantReply.Proofs.Settings.Conditions
import ConstantReply.Proofs.Startup.Validation
import ConstantReply.Proofs.Listener.Classification
import ConstantReply.Proofs.Log.Directives
import ConstantReply.Proofs.Address.RoundTrip
import ConstantReply.Proofs.Settings.LiteralHost
import ConstantReply.Proofs.Failure.Layers
