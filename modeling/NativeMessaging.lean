import NativeMessaging.CommandLine.Execution
import NativeMessaging.Frame.Reader
import NativeMessaging.Host.Session
import NativeMessaging.Main
import NativeMessaging.Message.Chunker
import NativeMessaging.Message.Decode
import NativeMessaging.Message.Reassembly
import NativeMessaging.Plugin.Configured
import NativeMessaging.Rehearsal.Stage
import NativeMessaging.Rehearsal.Trial
import NativeMessaging.Settings.Load
import NativeMessaging.Subprocess.Installed
import NativeMessaging.Proofs.Json.RoundTrip
import NativeMessaging.Proofs.Json.Size
import NativeMessaging.Proofs.Json.Skip
import NativeMessaging.Proofs.Json.Value
import NativeMessaging.Proofs.Message.History
import NativeMessaging.Proofs.Message.Chunker
import NativeMessaging.Proofs.Message.Delivery
import NativeMessaging.Proofs.Message.Cutting
import NativeMessaging.Proofs.Message.Size
import NativeMessaging.Proofs.Message.Grammar
import NativeMessaging.Proofs.Message.Fault
import NativeMessaging.Proofs.Message.Settled
import NativeMessaging.Proofs.Message.Pending
import NativeMessaging.Proofs.Message.Family
import NativeMessaging.Proofs.Frame.Stream
import NativeMessaging.Proofs.Frame.Reading
import NativeMessaging.Proofs.Frame.Cut
import NativeMessaging.Proofs.Host.Bridge
import NativeMessaging.Proofs.Host.Loop
import NativeMessaging.Proofs.Host.Course
import NativeMessaging.Proofs.Host.Sink
import NativeMessaging.Proofs.Message.Ack
import NativeMessaging.Proofs.Host.Receiver
import NativeMessaging.Proofs.Host.Inbound
import NativeMessaging.Proofs.Host.Family
import NativeMessaging.Proofs.Host.Deed
import NativeMessaging.Proofs.Host.Machine
import NativeMessaging.Proofs.Host.Calm
import NativeMessaging.Proofs.Host.Writing
import NativeMessaging.Proofs.Host.Moment
import NativeMessaging.Proofs.Host.Fairness
import NativeMessaging.Proofs.Host.Exit
import NativeMessaging.Proofs.Frame.Decoder
import NativeMessaging.Proofs.Host.Pump
import NativeMessaging.Proofs.Host.Watch
import NativeMessaging.Proofs.Host.Ledger
import NativeMessaging.Proofs.Host.Lifecycle
import NativeMessaging.Proofs.Host.Heedless
import NativeMessaging.Proofs.Json.Record
import NativeMessaging.Proofs.Message.Wire
import NativeMessaging.Proofs.Plugin.Call
import NativeMessaging.Proofs.Plugin.Line
import NativeMessaging.Proofs.Plugin.Lines
import NativeMessaging.Proofs.Plugin.Relay
import NativeMessaging.Proofs.Host.Release
import NativeMessaging.Proofs.Plugin.Registry
import NativeMessaging.Proofs.CommandLine.Placement
import NativeMessaging.Proofs.CommandLine.Verbatim
import NativeMessaging.Proofs.Files.Tree
import NativeMessaging.Proofs.Files.Retention
import NativeMessaging.Proofs.Files.Foreign
import NativeMessaging.Proofs.Toml.Parser
import NativeMessaging.Proofs.Toml.Shape
import NativeMessaging.Proofs.Settings.Defaults
import NativeMessaging.Proofs.Settings.Rules
