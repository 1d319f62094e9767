import ClusterBackup.Go
import ClusterBackup.Sort
import ClusterBackup.Api
import ClusterBackup.Store
import ClusterBackup.Schedule.Status
import ClusterBackup.Schedule.Collision
import ClusterBackup.Schedule.Reconcile
import ClusterBackup.Schedule.Run
import ClusterBackup.Schedule.Converge
import ClusterBackup.Schedule.Prepare
import ClusterBackup.Schedule.SecretLoops
import ClusterBackup.Schedule.SecretLabels
import ClusterBackup.Restore.Select
import ClusterBackup.Restore.Reconcile
import ClusterBackup.Restore.Run
