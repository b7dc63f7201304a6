import CompileWatch.Arith.Compiler
import CompileWatch.Arith.Eval
import CompileWatch.Arith.Expr
import CompileWatch.Arith.Parser
import CompileWatch.Artifact
import CompileWatch.Attempt.Basic
import CompileWatch.Attempt.Solo
import CompileWatch.Bus.Basic
import CompileWatch.Bus.Switchboard
import CompileWatch.Compiler.Job
import CompileWatch.Compiler.Outcome
import CompileWatch.Compiler.Script
import CompileWatch.Config
import CompileWatch.Diagnostic
import CompileWatch.Event.Basic
import CompileWatch.Event.LogLine
import CompileWatch.Limit
import CompileWatch.Line
import CompileWatch.Live.Text
import CompileWatch.Message.Log
import CompileWatch.Message.Shared
import CompileWatch.Message.Sink
import CompileWatch.Proofs.Accounting
import CompileWatch.Proofs.Batches
import CompileWatch.Proofs.Biography
import CompileWatch.Proofs.Cascade
import CompileWatch.Proofs.Changes
import CompileWatch.Proofs.Chronicle
import CompileWatch.Proofs.Conservation
import CompileWatch.Proofs.Crowds
import CompileWatch.Proofs.Deliveries
import CompileWatch.Proofs.Drains
import CompileWatch.Proofs.Evaluation
import CompileWatch.Proofs.Grammar
import CompileWatch.Proofs.Handles
import CompileWatch.Proofs.Histories
import CompileWatch.Proofs.LastRounds
import CompileWatch.Proofs.Leaving
import CompileWatch.Proofs.Lifecycle
import CompileWatch.Proofs.Looks
import CompileWatch.Proofs.Lookup
import CompileWatch.Proofs.Messages
import CompileWatch.Proofs.Moves
import CompileWatch.Proofs.Newest
import CompileWatch.Proofs.Numbering
import CompileWatch.Proofs.Overlaps
import CompileWatch.Proofs.Provenance
import CompileWatch.Proofs.PublicationOrder
import CompileWatch.Proofs.Readers
import CompileWatch.Proofs.Records
import CompileWatch.Proofs.Relay
import CompileWatch.Proofs.RetrievalTime
import CompileWatch.Proofs.Retrievals
import CompileWatch.Proofs.Rounds
import CompileWatch.Proofs.Senders
import CompileWatch.Proofs.Sight
import CompileWatch.Proofs.SlotHistory
import CompileWatch.Proofs.SlotOrder
import CompileWatch.Proofs.Snapshots
import CompileWatch.Proofs.Solo
import CompileWatch.Proofs.Stopping
import CompileWatch.Proofs.Turns
import CompileWatch.Proofs.Wakeups
import CompileWatch.Proofs.Withdrawals
import CompileWatch.Queue
import CompileWatch.Retrieval.Basic
import CompileWatch.Retrieval.Board
import CompileWatch.Retrieval.Failure
import CompileWatch.Run.Basic
import CompileWatch.Run.StopError
import CompileWatch.Service.Basic
import CompileWatch.Service.History
import CompileWatch.Service.Step
import CompileWatch.Simulation.Account
import CompileWatch.Simulation.Basic
import CompileWatch.Simulation.CrewSession
import CompileWatch.Simulation.Phase
import CompileWatch.Simulation.Request
import CompileWatch.Simulation.Schedule
import CompileWatch.Simulation.Turn
import CompileWatch.Slot
import CompileWatch.Steps
import CompileWatch.Subscriber.Basic
import CompileWatch.Subscriber.Crew
import CompileWatch.Subscriber.Delivery
import CompileWatch.Text.Blank
import CompileWatch.Text.GraphemeExtend
import CompileWatch.Text.Ignorable
import CompileWatch.Text.Quoted
import CompileWatch.Text.Unprintable
import CompileWatch.Time.Span
import CompileWatch.Proofs.LastRounds
