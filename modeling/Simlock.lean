import Simlock.Alerts.Queue
import Simlock.Worker.Records
import Simlock.Worker.Conservation
import Simlock.Worker.Budget
import Simlock.Leasing.Idempotency
import Simlock.Gateway.OneAttempt
import Simlock.Leasing.Maintenance
import Simlock.Worker.InstallCalls
import Simlock.Worker.BaselineDrops
import Simlock.Leasing.Overtaking
import Simlock.Worker.QuarantineProgress
import Simlock.Gateway.IndexConsistency
import Simlock.Gateway.Reconciliation
import Simlock.Link.Ring
import Simlock.Tunnels.Slots
import Simlock.Gateway.Serviceability
import Simlock.Ports.OneWorker
import Simlock.Gateway.CurrentLink
import Simlock.Gateway.RelayEnds
import Simlock.Core.MalformedVersions
import Simlock.Core.VersionOrder
import Simlock.Gateway.Retention
import Simlock.WarmPool.BootCap
import Simlock.WarmPool.Slots
import Simlock.WarmPool.Refills
import Simlock.Core.RequestBounds
import Simlock.Drivers.Passthrough
import Simlock.History.PrunedReads
import Simlock.History.EventPages
import Simlock.Link.Credit
import Simlock.Leasing.HealthCauses
import Simlock.Leasing.FreshMisses
import Simlock.Leasing.Evictions
import Simlock.WarmPool.LearnedPeak
import Simlock.HostLoad.PressureSteps
import Simlock.LeasePolicy.RenewalSteps
import Simlock.Updater.Rollback
import Simlock.WarmPool.Triggers
import Simlock.Drivers.ScreenStream
