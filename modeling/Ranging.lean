import Ranging.CommandLine.FileTree
import Ranging.Main
import Ranging.Proofs.ClockOrigin
import Ranging.Proofs.DistanceDifference
import Ranging.Proofs.Reference
import Ranging.Proofs.SameBroadcast
import Ranging.Simulation.Document
import Ranging.Proofs.Pairing
import Ranging.Proofs.Emission
import Ranging.Proofs.Dated
import Ranging.Proofs.LeastRecent
import Ranging.Proofs.Provenance
import Ranging.Proofs.TableHistory
import Ranging.Proofs.Youngest
import Ranging.Proofs.Rotation
import Ranging.Proofs.Exclusion
import Ranging.Proofs.TimedTable
import Ranging.Proofs.Active
import Ranging.Proofs.Isolation
import Ranging.Proofs.Strategies
import Ranging.Proofs.Capacity
import Ranging.Proofs.Checked
import Ranging.Proofs.Safety
import Ranging.Proofs.Intervals
import Ranging.Proofs.Calls
import Ranging.Proofs.Uses
import Ranging.Proofs.Frame
import Ranging.Proofs.Funnel
import Ranging.Proofs.Decisions
import Ranging.Proofs.Rounding
import Ranging.Proofs.ShortestDecimal
import Ranging.Proofs.FloatParts
import Ranging.Proofs.NumberText
import Ranging.Proofs.StringText
import Ranging.Proofs.ValueText
import Ranging.Proofs.RecordText
import Ranging.Proofs.RecordForms
import Ranging.Proofs.SettingsDocument
import Ranging.Proofs.PartialSettings
import Ranging.Proofs.FilterRun
import Ranging.Proofs.Bucket
import Ranging.Proofs.Tracking
import Ranging.Proofs.Bystander
import Ranging.Proofs.Path
import Ranging.Proofs.Reacquisition
import Ranging.Proofs.PhysicalBounds
import Ranging.Proofs.NonnegativeRatio
import Ranging.Proofs.RepeatedPacket
import Ranging.Proofs.Walls
import Ranging.Proofs.Expiry
import Ranging.Proofs.Replacement
import Ranging.Proofs.WatchedPair
import Ranging.Proofs.CounterReading
import Ranging.Proofs.RoundingOrder
import Ranging.Proofs.Bookkeeping
import Ranging.Proofs.RoundRobin
import Ranging.Proofs.Lossless
import Ranging.Proofs.SequenceNumbers
import Ranging.Proofs.FreshPositions
import Ranging.Proofs.RunUntil
import Ranging.Proofs.FirstWrap
import Ranging.Proofs.Verdict
import Ranging.Proofs.Listing
