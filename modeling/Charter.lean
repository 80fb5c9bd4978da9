import Charter.Calendar.Date
import Charter.Calendar.Format
import Charter.Calendar.Instant
import Charter.Check
import Charter.Constitution.Basic
import Charter.Constitution.Document
import Charter.Decimal.Scaled
import Charter.Decimal.Shortest
import Charter.Digest.Basic
import Charter.Digest.Square
import Charter.Docket.Action
import Charter.Docket.Basic
import Charter.Docket.InPlace
import Charter.Docket.PhaseChange
import Charter.Docket.Restore
import Charter.Event
import Charter.Event.Document
import Charter.Fault
import Charter.Json.Basic
import Charter.Json.Number
import Charter.Json.Printer
import Charter.Json.Quoted
import Charter.Json.Reader
import Charter.Json.Shape
import Charter.Json.Token
import Charter.Panel
import Charter.Proposal.Attempt
import Charter.Proposal.Basic
import Charter.Proposal.Delay
import Charter.Proposal.Document
import Charter.Proposal.Ending
import Charter.Proposal.InPlace
import Charter.Proposal.Operation
import Charter.Proposal.Voting
import Charter.Provision
import Charter.Record.Basic
import Charter.Record.Document
import Charter.Record.Load
import Charter.Round
import Charter.Round.Document
import Charter.Status
import Charter.Table
import Charter.Text.Blank
import Charter.Text.Hex
import Charter.Proofs.Proposal.Step
import Charter.Proofs.Docket.Run
import Charter.Proofs.Proposal.Fits
import Charter.Proofs.Panel
import Charter.Proofs.Round
import Charter.Proofs.Proposal.Frame
import Charter.Proofs.Proposal.Evidence
import Charter.Proofs.Docket.Protection
import Charter.Proofs.Proposal.Seats
import Charter.Proofs.Record.Load
import Charter.Proofs.Record.Kept
import Charter.Proofs.Docket.Reload
import Charter.Proofs.Proposal.Story
import Charter.Proofs.Docket.Log
import Charter.Proofs.Docket.Opened
import Charter.Proofs.Docket.History
import Charter.Proofs.Proposal.Delays
import Charter.Proofs.Docket.Delays
import Charter.Proofs.Proposal.InPlace
import Charter.Proofs.Proposal.Atomicity
import Charter.Proofs.Docket.Atomicity
import Charter.Proofs.Status
import Charter.Proofs.Docket.Lifecycle
import Charter.Proofs.Proposal.Ballots
import Charter.Proofs.Docket.Ballots
import Charter.Proofs.Docket.Diversity
import Charter.Proofs.Docket.Condition
import Charter.Proofs.Docket.PhaseChange
import Charter.Proofs.Docket.Interference
import Charter.Proofs.Docket.RunningVote
import Charter.Proofs.Docket.Constitution
import Charter.Proofs.Docket.Identity
import Charter.Proofs.Record.Canonical
import Charter.Proofs.Roster
import Charter.Proofs.Proposal.WayOut
import Charter.Proofs.Docket.WayOut
import Charter.Proofs.Selection
import Charter.Proofs.Walk
import Charter.Proofs.Relevance
import Charter.Proofs.Docket.Restore
import Charter.Proofs.Calendar
import Charter.Proofs.Json.Token
import Charter.Proofs.Json.Reader
import Charter.Proofs.Json.Shape
import Charter.Proofs.Constitution.Document
import Charter.Proofs.Record.Document
import Charter.Proofs.Refusal
import Charter.Proofs.Proposal.Application
import Charter.Proofs.Decision
import Charter.Proofs.Proposal.Closing
import Charter.Proofs.Docket.Closing
import Charter.Proofs.Proposal.BallotOrder
import Charter.Proofs.Docket.BallotOrder
import Charter.Proofs.Docket.Names
import Charter.Proofs.Words
import Charter.Proofs.Docket.Words
