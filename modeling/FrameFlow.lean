import FrameFlow.Foreign.Accessors
import FrameFlow.Foreign.Calls
import FrameFlow.Proofs.Pipeline.Agreement
import FrameFlow.Proofs.Pipeline.Logs
import FrameFlow.Proofs.Pipeline.Transactions
import FrameFlow.Script.Session
import FrameFlow.Proofs.Pipeline.Acceptance
import FrameFlow.Proofs.Pipeline.Interleaving
import FrameFlow.Proofs.Pipeline.RoundTrip
import FrameFlow.Proofs.Pipeline.Batching
import FrameFlow.Proofs.Pipeline.Anchored
import FrameFlow.Proofs.Registry.Runs
import FrameFlow.Proofs.Registry.Handles
import FrameFlow.Proofs.Pipeline.Identifiers
import FrameFlow.Proofs.Octets
import FrameFlow.Proofs.Pipeline.Texts
import FrameFlow.Proofs.Registry.Keeping
import FrameFlow.Proofs.Foreign.Runs
import FrameFlow.Proofs.Host.Runs
import FrameFlow.Proofs.Host.Steps
import FrameFlow.Proofs.Host.Shifts
import FrameFlow.Proofs.Host.Texts
import FrameFlow.Proofs.Host.Unpacking
import FrameFlow.Proofs.Foreign.Answers
import FrameFlow.Proofs.Foreign.Failures
import FrameFlow.Proofs.Pipeline.Commuting
import FrameFlow.Proofs.Pipeline.Contents
import FrameFlow.Proofs.Pipeline.Names
import FrameFlow.Proofs.Pipeline.DeadEnds
import FrameFlow.Proofs.Registry.Outline
import FrameFlow.Proofs.Host.Asks
import FrameFlow.Proofs.Host.Locality
import FrameFlow.Proofs.Host.Addressing
import FrameFlow.Proofs.Host.Apart
import FrameFlow.Proofs.Host.Sessions
import FrameFlow.Proofs.Json.Faithful
import FrameFlow.Proofs.Pipeline.Deleting
import FrameFlow.Proofs.Pipeline.Moving
import FrameFlow.Proofs.Json.Records
import FrameFlow.Proofs.Json.Variants
import FrameFlow.Proofs.Json.Frames
import FrameFlow.Proofs.Json.Updates
import FrameFlow.Proofs.Pipeline.Packing
import FrameFlow.Proofs.Pipeline.Setters
import FrameFlow.Proofs.Frame.Distinct
import FrameFlow.Proofs.Frame.Locality
import FrameFlow.Proofs.Frame.Parts
import FrameFlow.Proofs.Frame.Independence
import FrameFlow.Proofs.Queue.TotalMap
import FrameFlow.Proofs.Attributes.Map
import FrameFlow.Proofs.Foreign.Vectors
import FrameFlow.Proofs.Attributes.Written
import FrameFlow.Proofs.Pipeline.Configured
import FrameFlow.Proofs.Host.Admission
import FrameFlow.Proofs.Json.Image
import FrameFlow.Proofs.Json.Refusals
import FrameFlow.Proofs.Frame.Likeness
import FrameFlow.Proofs.Json.Rewriting
import FrameFlow.Proofs.Registry.Occupancy
import FrameFlow.Proofs.Host.SetUp
