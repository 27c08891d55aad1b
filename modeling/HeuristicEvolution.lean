import HeuristicEvolution.Evolution.Scripted
import HeuristicEvolution.Main
import HeuristicEvolution.Proofs.Ledger.Growth
import HeuristicEvolution.Proofs.Ledger.History
import HeuristicEvolution.Proofs.Evolution.Slots
import HeuristicEvolution.Proofs.Evolution.Attempts
import HeuristicEvolution.Proofs.Evolution.Records
import HeuristicEvolution.Proofs.Evolution.Lineage
import HeuristicEvolution.Proofs.Evolution.Course
import HeuristicEvolution.Proofs.Ledger.Untimed
import HeuristicEvolution.Proofs.Evolution.Resumption
import HeuristicEvolution.Proofs.Evolution.SlotOrder
import HeuristicEvolution.Proofs.Evolution.Interruption
import HeuristicEvolution.Proofs.Evolution.Repetition
import HeuristicEvolution.Proofs.Evolution.Journal
import HeuristicEvolution.Proofs.Evolution.Measurement
import HeuristicEvolution.Proofs.Evolution.Generations
import HeuristicEvolution.Proofs.Reply.Parting
import HeuristicEvolution.Proofs.Chat.History
import HeuristicEvolution.Proofs.Evolution.Plan
import HeuristicEvolution.Proofs.Evolution.SideBySide
import HeuristicEvolution.Proofs.Reply.CommentTokens
import HeuristicEvolution.Proofs.Ledger.Renaming
import HeuristicEvolution.Proofs.Evolution.Isolation
import HeuristicEvolution.Proofs.Json.Stored
import HeuristicEvolution.Proofs.Candidate.Encoding
import HeuristicEvolution.Proofs.Ledger.Reading
import HeuristicEvolution.Proofs.Ledger.Overview
import HeuristicEvolution.Proofs.Evolution.Agreement
import HeuristicEvolution.Proofs.Task.Commands
import HeuristicEvolution.Proofs.Task.Release
import HeuristicEvolution.Proofs.Evolution.RepairCourse
import HeuristicEvolution.Proofs.Task.Procedure
import HeuristicEvolution.Proofs.Task.Setting
import HeuristicEvolution.Proofs.Task.Timeouts
import HeuristicEvolution.Proofs.Decimal.Finite
import HeuristicEvolution.Proofs.Json.Finite
import HeuristicEvolution.Proofs.Task.Scores
import HeuristicEvolution.Proofs.World.Opening
import HeuristicEvolution.Proofs.CommandLine.ExitCode
import HeuristicEvolution.Proofs.Path.Resolution
import HeuristicEvolution.Proofs.Ledger.Selection
import HeuristicEvolution.Proofs.Evolution.Elitism
import HeuristicEvolution.Proofs.Evolution.Tally
import HeuristicEvolution.Proofs.Reply.Writing
import HeuristicEvolution.Proofs.Prompt.Versions
import HeuristicEvolution.Proofs.Evolution.Retries
import HeuristicEvolution.Proofs.Json.Reread
import HeuristicEvolution.Proofs.Ledger.Keeping
import HeuristicEvolution.Proofs.Reply.CommentRemoval
import HeuristicEvolution.Proofs.Reply.Pairing
import HeuristicEvolution.Proofs.Task.CacheRows
import HeuristicEvolution.Proofs.Task.ArrivalOrder
import HeuristicEvolution.Proofs.World.FilePlace
import HeuristicEvolution.Proofs.Task.FreshLog
import HeuristicEvolution.Proofs.Evolution.OpenedRun
import HeuristicEvolution.Proofs.Config.Layers
import HeuristicEvolution.Proofs.Decimal.Numerals
import HeuristicEvolution.Proofs.Task.LinkReport
import HeuristicEvolution.Proofs.Candidate.Export
