import Kakoi.Linux.CopyReproduction
import Kakoi.Linux.LaunchStages
import Kakoi.Linux.ScanWalk
import Kakoi.Linux.Seccomp
import Kakoi.Net.AdmissionAgreement
import Kakoi.Net.AdoptionAccounting
import Kakoi.Net.FrontFraming
import Kakoi.Net.KeptAddresses
import Kakoi.Net.LeaseMeaning
import Kakoi.Net.NotificationHistory
import Kakoi.Net.OwnReplies
import Kakoi.Net.RecoveryHistory
import Kakoi.Net.RunOutcome
import Kakoi.Net.SessionClosure
import Kakoi.Net.UpstreamBudget
import Kakoi.Net.WatchdogLease
import Kakoi.Plan.CompleteLookups
import Kakoi.Plan.EnvironmentRule
import Kakoi.Plan.GuardConsistency
import Kakoi.Plan.ListedPlaces
import Kakoi.Plan.MountList
import Kakoi.Plan.ProtectedWalks
import Kakoi.Plan.WrittenConflicts
import Kakoi.Policy.AddressSets
import Kakoi.Policy.DnsNames
import Kakoi.Policy.Guard
import Kakoi.Policy.Publications
import Kakoi.Runtime.EventAccounting
import Kakoi.Runtime.MainProcess
