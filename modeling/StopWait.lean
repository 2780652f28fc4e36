import StopWait.Main
import StopWait.Shell.FileTree
import StopWait.Proofs.Drafts
import StopWait.Proofs.Operations
import StopWait.Proofs.Conservation
import StopWait.Proofs.ReadBack
import StopWait.Proofs.Free
import StopWait.Proofs.Stage
import StopWait.Proofs.Turns
import StopWait.Proofs.Run
import StopWait.Proofs.Ledger
import StopWait.Proofs.Codec
import StopWait.Proofs.Exchange
import StopWait.Proofs.Outcome
import StopWait.Proofs.Passage
import StopWait.Proofs.Trail
import StopWait.Proofs.Party
import StopWait.Proofs.Flow
import StopWait.Proofs.Moves
import StopWait.Proofs.Handover
import StopWait.Proofs.Books
import StopWait.Proofs.Delivery
import StopWait.Proofs.Figures
import StopWait.Proofs.Opening
import StopWait.Proofs.Phases
import StopWait.Proofs.Answers
import StopWait.Proofs.Steady
import StopWait.Proofs.Scripts
import StopWait.Proofs.Transfer
import StopWait.Proofs.Completion
import StopWait.Proofs.Contract
import StopWait.Proofs.StopAndWait
import StopWait.Proofs.Acknowledged
import StopWait.Proofs.Notices
import StopWait.Proofs.Dialogue
import StopWait.Proofs.Journal
import StopWait.Proofs.Terminal
import StopWait.Proofs.Records
import StopWait.Proofs.Arrivals
import StopWait.Proofs.Indifference
import StopWait.Proofs.Solvency
import StopWait.Proofs.Refusals
import StopWait.Proofs.Credit
import StopWait.Proofs.Datagrams
import StopWait.Proofs.Mismatches
import StopWait.Proofs.FailingSink
import StopWait.Proofs.Replies
import StopWait.Proofs.Dropped
import StopWait.Proofs.Reruns
import StopWait.Proofs.WindowHistory
import StopWait.Proofs.Lifetimes
import StopWait.Proofs.Interleavings
import StopWait.Proofs.Building
import StopWait.Proofs.Crossings
import StopWait.Proofs.Readiness
import StopWait.Proofs.Trust
import StopWait.Proofs.Rounds
import StopWait.Proofs.Cycles
import StopWait.Proofs.Upkeep
import StopWait.Proofs.Uploads
import StopWait.Proofs.Lulls
import StopWait.Proofs.Drives
import StopWait.Proofs.Halting
import StopWait.Proofs.Simulations
