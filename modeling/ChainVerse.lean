import ChainVerse.Escrow.Solvency
import ChainVerse.Escrow.Conservation
import ChainVerse.Escrow.Lifecycle
import ChainVerse.Slots.BookingOrder
import ChainVerse.Signing.Preimages
import ChainVerse.Outbox.Authority
import ChainVerse.Outbox.History
import ChainVerse.Outbox.Alerts
import ChainVerse.Availability.Exactness
import ChainVerse.Availability.Schedules
import ChainVerse.Availability.Normalization
import ChainVerse.Royalty.Reconciliation
import ChainVerse.Availability.Coverage
import ChainVerse.Slots.SearchAgrees
import ChainVerse.Awards.Reservations
import ChainVerse.Awards.Lifecycle
import ChainVerse.Migration.Rehearsal
import ChainVerse.Migration.Retries
import ChainVerse.Migration.Records
import ChainVerse.Deposits.Solvency
import ChainVerse.Fines.Balances
import ChainVerse.Fines.Debts
import ChainVerse.Applications.Drafts
import ChainVerse.Applications.Queues
import ChainVerse.Applications.Answers
import ChainVerse.Decisions.Attempts
import ChainVerse.Decisions.Retries
import ChainVerse.Vesting.Payouts
import ChainVerse.Debts.Conservation
import ChainVerse.Vaults.Releases
import ChainVerse.Chv.Supply
import ChainVerse.Keys.Records
import ChainVerse.Limits.Usage
import ChainVerse.Scheduling.Replays
import ChainVerse.Milestones.Dates
import ChainVerse.Budgets.Outcomes
import ChainVerse.Budgets.Removals
import ChainVerse.Capacity.Reservations
import ChainVerse.Matching.Lapses
import ChainVerse.Matching.Capacity
import ChainVerse.Rematch.Continuity
import ChainVerse.Rematch.Moves
import ChainVerse.Disbursements.Challenges
import ChainVerse.Programs.Inventory
import ChainVerse.Reviews.Aggregates
import ChainVerse.Reviews.Accuracy
import ChainVerse.Agreements.Acceptances
import ChainVerse.Intake.Workload
import ChainVerse.Intake.Erasure
import ChainVerse.Intake.Selection
import ChainVerse.Calendar.Syncs
import ChainVerse.Calendar.Imports
import ChainVerse.Mentorships.Lifecycle
import ChainVerse.Anomalies.Blocks
import ChainVerse.Library.Timelocks
import ChainVerse.Library.Settings
import ChainVerse.Library.Freezes
import ChainVerse.Library.Forest
import ChainVerse.Library.ModelCheck
import ChainVerse.Library.Reserves
import ChainVerse.Library.Checkouts
import ChainVerse.Core.Payouts
import ChainVerse.Token.Approvals
import ChainVerse.Escrow.Deposits
import ChainVerse.Slots.Cancellations
import ChainVerse.Outbox.Events
import ChainVerse.Reward.Payouts
import ChainVerse.Licensing.Revocations
import ChainVerse.Audit.Trail
import ChainVerse.Audit.Exports
import ChainVerse.Conduct.Gate
import ChainVerse.Payments.Earnings
import ChainVerse.Admin.Settings
import ChainVerse.Core.Queries
import ChainVerse.Reviews.Ranking
import ChainVerse.Licensing.Uses
