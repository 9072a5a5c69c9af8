import LeaseQueue.Handler.Script
import LeaseQueue.Main
import LeaseQueue.Proofs.Handler.FanOut
import LeaseQueue.Proofs.Scheduler.KeptLease
import LeaseQueue.Proofs.Scheduler.KnownType
import LeaseQueue.Proofs.Scheduler.Places
import LeaseQueue.Proofs.Scheduler.Renewals
import LeaseQueue.Proofs.Scheduler.Rescan
import LeaseQueue.Proofs.Scheduler.Retry
import LeaseQueue.Proofs.Scheduler.Shutdown
import LeaseQueue.Proofs.Scheduler.WakeUp
import LeaseQueue.Proofs.Scheduler.WorkableLease
import LeaseQueue.Proofs.Settings.ConnectionUrl
import LeaseQueue.Proofs.Settings.LastChoice
import LeaseQueue.Proofs.Store.Attendance
import LeaseQueue.Proofs.Store.Batch
import LeaseQueue.Proofs.Store.ClaimedRow
import LeaseQueue.Proofs.Store.FinishedRow
import LeaseQueue.Proofs.Store.Idle
import LeaseQueue.Proofs.Store.ParentLinks
import LeaseQueue.Proofs.Store.Readable
import LeaseQueue.Proofs.Store.RowShape
import LeaseQueue.Proofs.Store.Timeline
import LeaseQueue.Proofs.Store.TwoTrees
import LeaseQueue.Proofs.Store.Upgrade
import LeaseQueue.Proofs.Task.Reported
import LeaseQueue.Scheduler.Heartbeat
import LeaseQueue.Scheduler.Simulation
