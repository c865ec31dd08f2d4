import ObjectPool.Census
import ObjectPool.Census.Json
import ObjectPool.Config
import ObjectPool.Config.Json
import ObjectPool.Exposition
import ObjectPool.Exposition.Json
import ObjectPool.Exposition.Reader
import ObjectPool.Pool.Step
import ObjectPool.Scenario.Play
import ObjectPool.World
import ObjectPool.Proofs.Ledger
import ObjectPool.Proofs.Position
import ObjectPool.Proofs.Books
import ObjectPool.Proofs.Sound
import ObjectPool.Proofs.Moves
import ObjectPool.Proofs.Contents
import ObjectPool.Proofs.Stretch.Disposal
import ObjectPool.Proofs.Stretch.Sweep
import ObjectPool.Proofs.Stretch.Lend
import ObjectPool.Proofs.Stretch.Stock
import ObjectPool.Proofs.Stretch.TakeBack
import ObjectPool.Proofs.Stretch.Upkeep
import ObjectPool.Proofs.Stretch.Close
import ObjectPool.Proofs.Step
import ObjectPool.Proofs.Views
import ObjectPool.Proofs.Effect
import ObjectPool.Proofs.Run
import ObjectPool.Proofs.World
import ObjectPool.Proofs.Handles
import ObjectPool.Proofs.Invariant
import ObjectPool.Proofs.Agreement
import ObjectPool.Proofs.Roster
import ObjectPool.Proofs.Ownership
import ObjectPool.Proofs.WakeUp
import ObjectPool.Proofs.Identity
import ObjectPool.Proofs.Conservation
import ObjectPool.Proofs.Protocol.Career
import ObjectPool.Proofs.Stretch.Turn
import ObjectPool.Proofs.Frame
import ObjectPool.Proofs.Protocol.Requests
import ObjectPool.Proofs.Protocol.Obedience
import ObjectPool.Proofs.Protocol.Signals
import ObjectPool.Proofs.Protocol.History
import ObjectPool.Proofs.Population
import ObjectPool.Proofs.Precedence
import ObjectPool.Proofs.Stretch.Trials
import ObjectPool.Proofs.IdleQueue
import ObjectPool.Proofs.Ceiling
import ObjectPool.Proofs.Ordering
import ObjectPool.Proofs.Stretch.Changes
import ObjectPool.Proofs.Stretch.Reach
import ObjectPool.Proofs.Stretch.Walks
import ObjectPool.Proofs.Stretch.Capture
import ObjectPool.Proofs.Stretch.Counts
import ObjectPool.Proofs.Loans
import ObjectPool.Proofs.Abandonment
import ObjectPool.Proofs.Calls
import ObjectPool.Proofs.Stretch.Dismissal
import ObjectPool.Proofs.Stretch.Rounds
import ObjectPool.Proofs.Stretch.Outlook
import ObjectPool.Proofs.Shutdown
import ObjectPool.Proofs.Draining
import ObjectPool.Proofs.LateBorrows
import ObjectPool.Proofs.LifeCycle
import ObjectPool.Proofs.Origins
import ObjectPool.Proofs.Accounts
import ObjectPool.Proofs.LateSweeps
import ObjectPool.Proofs.Onward
import ObjectPool.Proofs.Bystanders
import ObjectPool.Proofs.Stretch.Homecoming
import ObjectPool.Proofs.Returns
import ObjectPool.Proofs.Stretch.Reports
import ObjectPool.Proofs.Stretch.Seizure
import ObjectPool.Proofs.Funerals
import ObjectPool.Proofs.Seizures
import ObjectPool.Proofs.Stretch.Quests
import ObjectPool.Proofs.Stretch.Hauls
import ObjectPool.Proofs.Borrowing
import ObjectPool.Proofs.Leftovers
import ObjectPool.Proofs.Stretch.Supplies
import ObjectPool.Proofs.Stretch.Carries
import ObjectPool.Proofs.Refunds
import ObjectPool.Proofs.Reserve
import ObjectPool.Proofs.Stretch.Weeding
import ObjectPool.Proofs.Stretch.Sifting
import ObjectPool.Proofs.IdleSweeps
import ObjectPool.Proofs.Relief
import ObjectPool.Proofs.Stretch.Disregards
import ObjectPool.Proofs.Retelling
import ObjectPool.Proofs.LockStep
import ObjectPool.Proofs.StrayReturns
import ObjectPool.Proofs.Stretch.Glances
import ObjectPool.Proofs.Slots
import ObjectPool.Proofs.Deadlines
import ObjectPool.Proofs.Stretch.Refilling
import ObjectPool.Proofs.Stretch.Tidying
import ObjectPool.Proofs.Stretch.Restocking
import ObjectPool.Proofs.Replenishment
import ObjectPool.Proofs.Preparation
import ObjectPool.Proofs.ReadBack
import ObjectPool.Proofs.Stretch.Verdicts
import ObjectPool.Proofs.Verdicts
import ObjectPool.Proofs.Stretch.Dossiers
import ObjectPool.Proofs.Dossiers
import ObjectPool.Proofs.Records
import ObjectPool.Proofs.Beginnings
import ObjectPool.Proofs.Chronicle
import ObjectPool.Proofs.Captives
import ObjectPool.Proofs.Reported
