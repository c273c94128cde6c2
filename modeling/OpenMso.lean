import OpenMso.Foundation.Leb128
import OpenMso.Foundation.RunLength
import OpenMso.Encoding.Transition
import OpenMso.Encoding.TransitionFormat
import OpenMso.Encoding.TransitionRoundtrip
import OpenMso.Cpp.Encoding
import OpenMso.Cpp.EncodingAgreement
import OpenMso.Encoding.PayloadSize
import OpenMso.Server.Events
import OpenMso.Server.Streaming
import OpenMso.Server.Threads
import OpenMso.Cpp.Drain
import OpenMso.Foundation.Runs
import OpenMso.Foundation.Transcripts
import OpenMso.Server.ControlLoop
import OpenMso.Server.Stages
import OpenMso.Server.Interleaving
import OpenMso.Server.Exchanges
import OpenMso.Server.Orderly
import OpenMso.Server.Discipline
import OpenMso.Server.Linearizable
import OpenMso.Server.InStep
import OpenMso.Server.Running
import OpenMso.Server.Captures
import OpenMso.Client
import OpenMso.Cpp.Client
import OpenMso.Session.Conversation
import OpenMso.Session.CppClient
import OpenMso.Session.RustClient
import OpenMso.Session.Agreement
import OpenMso.Session.Interchange
import OpenMso.Session.KnownCaptures
import OpenMso.Encoding.EncodedLength
import OpenMso.Encoding.Refusal
import OpenMso.Cpp.Failures
import OpenMso.Foundation.Preference
import OpenMso.Encoding.Negotiation
import OpenMso.Server.Accepted
import OpenMso.Encoding.Expansion
import OpenMso.Server.ChunkSize
import OpenMso.Server.EncodingChoice
import OpenMso.Server.PanicFree
import OpenMso.Foundation.Text
import OpenMso.Server.Args
import OpenMso.Foundation.Lease
import OpenMso.Foundation.Leaseholders
import OpenMso.Transport.Endpoints
import OpenMso.Cpp.Endpoints
import OpenMso.Transport.Leftovers
import OpenMso.Transport.Frontends
import OpenMso.Cpp.Plugins.Kernel
import OpenMso.Cpp.Plugins.Owns
import OpenMso.Cpp.Plugins.Socket
import OpenMso.Cpp.Plugins.Spawn
import OpenMso.Cpp.Plugins.CaptureClient
import OpenMso.Cpp.Plugins.Calls
import OpenMso.Cpp.Plugins.Lifetime
import OpenMso.Cpp.Plugins.Launch
import OpenMso.Cpp.Plugins.Frontend
import OpenMso.Cpp.Plugins.Release
import OpenMso.Cpp.Plugins.Inheritance
import OpenMso.Cpp.Plugins.Lifeline
import OpenMso.Foundation.Waiting
import OpenMso.Cpp.Plugins.Orphans
import OpenMso.CommandLine
import OpenMso.Manifest
import OpenMso.Cpp.Manifest
import OpenMso.Foundation.Custody
import OpenMso.Frontend.Kernel
import OpenMso.Frontend.CaptureClient
import OpenMso.Frontend.Scopes
import OpenMso.Frontend.Lifetime
