import OrderingService.Main
import OrderingService.Merkle.Dump
import OrderingService.Merkle.Tamper
import OrderingService.Merkle.WitnessJson
import OrderingService.Metrics.Exposition
import OrderingService.Service.Session
import OrderingService.Proofs.Hashing.Outcome
import OrderingService.Proofs.Sequencer.Steps
import OrderingService.Proofs.Sequencer.DenseOrder
import OrderingService.Proofs.Hashing.Messages
import OrderingService.Proofs.Merkle.Digests
import OrderingService.Proofs.Merkle.Arena
import OrderingService.Proofs.Merkle.Verification
import OrderingService.Proofs.Merkle.Commitment
import OrderingService.Proofs.Sequencer.Atomicity
import OrderingService.Proofs.Merkle.LeafDigests
import OrderingService.Proofs.Hashing.Refusals
import OrderingService.Proofs.Sequencer.Certificates
import OrderingService.Proofs.Sequencer.Advance
import OrderingService.Proofs.Service.Run
import OrderingService.Proofs.Service.Tickets
import OrderingService.Proofs.Stream.Answers
import OrderingService.Proofs.Stream.Delivery
import OrderingService.Proofs.Hashing.Acceptance
import OrderingService.Proofs.Sequencer.BatchSizes
import OrderingService.Proofs.Stream.BroadcastHandler
import OrderingService.Proofs.Service.Submissions
import OrderingService.Proofs.Stream.Requests
import OrderingService.Proofs.Stream.Signatures
import OrderingService.Proofs.Stream.Truthfulness
import OrderingService.Proofs.Service.Clients
import OrderingService.Proofs.Service.Linearisation
import OrderingService.Proofs.Config.Validation
import OrderingService.Proofs.Stream.Places
import OrderingService.Proofs.Stream.CatchingUp
import OrderingService.Proofs.Stream.KeepingUp
import OrderingService.Proofs.Merkle.Shape
import OrderingService.Proofs.Service.Counters
import OrderingService.Proofs.Service.OpenStreams
import OrderingService.Proofs.Sequencer.Segments
import OrderingService.Proofs.Sequencer.Standing
import OrderingService.Proofs.Sequencer.Draining
import OrderingService.Proofs.Sequencer.Segmentation
import OrderingService.Proofs.Config.Reading
import OrderingService.Proofs.Config.Settings
import OrderingService.Proofs.Config.Layers
import OrderingService.Proofs.Merkle.Tampering
import OrderingService.Proofs.Sequencer.Deadline
import OrderingService.Proofs.Service.Shutdown
import OrderingService.Proofs.Stream.Exchanges
import OrderingService.Proofs.Stream.Completion
import OrderingService.Proofs.Hashing.Calls
import OrderingService.Proofs.Merkle.Construction
import OrderingService.Proofs.Merkle.Perfect
import OrderingService.Proofs.Merkle.Queries
import OrderingService.Proofs.Merkle.SiblingRoots
import OrderingService.Proofs.Merkle.LastLeaf
import OrderingService.Proofs.Wire.Fields
import OrderingService.Proofs.Wire.RoundTrip
import OrderingService.Proofs.Startup.Stages
import OrderingService.Proofs.Startup.FirstFailure
import OrderingService.Proofs.Startup.Capacity
import OrderingService.Proofs.Text.Numerals
import OrderingService.Proofs.Merkle.Picture
import OrderingService.Proofs.Json.Grammar
import OrderingService.Proofs.Merkle.WitnessText
import OrderingService.Proofs.Toml.Integers
import OrderingService.Proofs.Toml.Strings
import OrderingService.Proofs.Toml.Documents
import OrderingService.Proofs.Config.Documents
