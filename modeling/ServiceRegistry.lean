import ServiceRegistry.Registry.Activity
import ServiceRegistry.Cache
import ServiceRegistry.Client
import ServiceRegistry.Config
import ServiceRegistry.Config.Environment
import ServiceRegistry.Dialing
import ServiceRegistry.Duration
import ServiceRegistry.Endpoint
import ServiceRegistry.Error
import ServiceRegistry.Key.Descriptor
import ServiceRegistry.Key.Endpoint
import ServiceRegistry.Key.Service
import ServiceRegistry.Store.Lease
import ServiceRegistry.Lock
import ServiceRegistry.Probe
import ServiceRegistry.Proofs.Cache.Views
import ServiceRegistry.Proofs.Client.Answers
import ServiceRegistry.Proofs.Registry.Asking
import ServiceRegistry.Proofs.Registry.Coherence
import ServiceRegistry.Proofs.Registry.Debts
import ServiceRegistry.Proofs.Registry.Effect
import ServiceRegistry.Proofs.Registry.Frame
import ServiceRegistry.Proofs.Registry.Gate
import ServiceRegistry.Proofs.Registry.Generation
import ServiceRegistry.Proofs.Registry.Held
import ServiceRegistry.Proofs.Registry.History
import ServiceRegistry.Proofs.Registry.Moves
import ServiceRegistry.Proofs.Registry.Opening
import ServiceRegistry.Proofs.Registry.Provenance
import ServiceRegistry.Proofs.Registry.Turn
import ServiceRegistry.Proofs.Registry.Watcher
import ServiceRegistry.Proofs.Store.Evolution
import ServiceRegistry.Proofs.Store.Instances
import ServiceRegistry.Proofs.Store.Addresses
import ServiceRegistry.Proofs.Store.Integrity
import ServiceRegistry.Proofs.Store.Replay
import ServiceRegistry.Proofs.Store.Silence
import ServiceRegistry.Registration
import ServiceRegistry.Registry.Basic
import ServiceRegistry.Registry.Fleet
import ServiceRegistry.Registry.Run
import ServiceRegistry.Registry.Step
import ServiceRegistry.Scenario.Command
import ServiceRegistry.Scenario.Perform
import ServiceRegistry.Scenario.Play
import ServiceRegistry.Scenario.World
import ServiceRegistry.Store.Basic
import ServiceRegistry.Store.Feed
import ServiceRegistry.Store.Keyspace
import ServiceRegistry.Store.Operation
import ServiceRegistry.Store.Request
import ServiceRegistry.Stream
import ServiceRegistry.Text.Parts
import ServiceRegistry.Text.Number
import ServiceRegistry.Text.JsonString
import ServiceRegistry.Text.Quoted
import ServiceRegistry.Uri.Authority
import ServiceRegistry.Uri.Basic
import ServiceRegistry.Proofs.Registry.Calls
import ServiceRegistry.Proofs.Registry.Recency
import ServiceRegistry.Proofs.Registry.Deed
import ServiceRegistry.Proofs.Registry.Line
import ServiceRegistry.Proofs.Registry.Standing
import ServiceRegistry.Proofs.Registry.Possession
import ServiceRegistry.Proofs.Registry.Closing
import ServiceRegistry.Proofs.Registry.Draining
import ServiceRegistry.Proofs.Registry.Shutdown
import ServiceRegistry.Proofs.Registry.Attachment
import ServiceRegistry.Proofs.Registry.Contest
import ServiceRegistry.Proofs.Registry.Removal
import ServiceRegistry.Proofs.Registry.Fleet
import ServiceRegistry.Proofs.Registry.Ownership
import ServiceRegistry.Proofs.Registry.Reception
import ServiceRegistry.Proofs.Registry.Attendance
import ServiceRegistry.Proofs.Registry.Presence
import ServiceRegistry.Proofs.Registry.Discovery
import ServiceRegistry.Proofs.Registry.Loss
import ServiceRegistry.Registry.Guard
import ServiceRegistry.Proofs.Registry.Passage
import ServiceRegistry.Proofs.Registry.Guard
import ServiceRegistry.Proofs.Registry.Deadlock
import ServiceRegistry.Proofs.Registry.Dials
import ServiceRegistry.Proofs.Registry.Renewal
import ServiceRegistry.Proofs.Registry.Sharing
import ServiceRegistry.Proofs.Registry.SingleFlight
import ServiceRegistry.Proofs.Registry.Idleness
import ServiceRegistry.Proofs.Key.Layout
import ServiceRegistry.Probe.Run
import ServiceRegistry.Proofs.Probe.Turn
import ServiceRegistry.Proofs.Probe.Root
import ServiceRegistry.Proofs.Text.Bytes
import ServiceRegistry.Proofs.Store.Prefixes
import ServiceRegistry.Proofs.Registry.Agreement
import ServiceRegistry.Proofs.Registry.Locating
import ServiceRegistry.Proofs.Registry.Health
import ServiceRegistry.Proofs.Registry.Rollback
import ServiceRegistry.Proofs.Key.Distinct
import ServiceRegistry.Proofs.Text.Pieces
import ServiceRegistry.Proofs.Config.NormalForm
import ServiceRegistry.Proofs.Probe.Limit
import ServiceRegistry.Store.Heartbeat
import ServiceRegistry.Proofs.Store.Heartbeat
import ServiceRegistry.Text.Json
import ServiceRegistry.Config.LeaseTime
import ServiceRegistry.Proofs.Registry.Requests
import ServiceRegistry.Proofs.Key.Descriptor
import ServiceRegistry.Proofs.Store.Attribution
import ServiceRegistry.Proofs.Config.LeaseTime
import ServiceRegistry.Proofs.Registry.Strays
