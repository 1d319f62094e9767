import ClusterBackup.Go

/-!
# The API objects

The objects both controllers read and write: the backup categories, velero's `Schedule`,
`Backup` and `Restore`, and the operator's own `BackupSchedule` and `Restore`. Each record keeps
exactly the fields some modelled function reads or writes; the others are listed in
`MODEL_MAP.json`.

## Phases are strings where velero writes them

A velero object's `Status.Phase` is written by velero, which the controllers treat as an opaque
collaborator that may set any value. Those phases are therefore `String`, with velero's constants
as named strings. The operator's own `BackupSchedule` phase is only ever written by the schedule
controller, with the constants of `v1beta1`, so it is an inductive type whose `empty` constructor is
the zero value `""` of a freshly created resource.

## The category tables

`schedule_controller.go` declares `resourceTypes`, the map from category to velero schedule name.
The restore controller and `schedule.go` read a map `veleroScheduleNames` that is not under src;
the spec describes it as the same category → schedule-name map, and it is modelled so.
-/

namespace ClusterBackup

/-! ## Categories -/

/-- `ResourceType`: the three backup categories. -/
inductive ResourceType
  | managedClusters
  | credentials
  | resources
deriving DecidableEq, Repr

/-- `resourceTypes`: the velero schedule name of each category. -/
def resourceTypes : ResourceType → String
  | .managedClusters => "acm-managed-clusters-schedule"
  | .credentials => "acm-credentials-schedule"
  | .resources => "acm-resources-schedule"

/-- Modelled from the spec: `veleroScheduleNames` is not under src. The spec's category →
schedule-name map is the one `schedule_controller.go` declares as `resourceTypes`. -/
def veleroScheduleNames : ResourceType → String := resourceTypes

/-- The keys of either map in declaration order. Go's `range` visits them in an order of its own
choosing; every such order is a permutation of this list. -/
def resourceTypeKeys : List ResourceType := [.managedClusters, .credentials, .resources]

theorem mem_resourceTypeKeys (key : ResourceType) : key ∈ resourceTypeKeys := by
  cases key <;> decide

theorem resourceTypeKeys_nodup : resourceTypeKeys.Nodup := by decide

theorem resourceTypes_injective : Function.Injective resourceTypes := by
  intro a b h
  cases a <;> cases b <;> first | rfl | exact absurd h (by decide)

/-! ## Velero objects -/

namespace Velero

/-- `veleroapi.Schedule`. -/
structure Schedule where
  name : String
  labels : Labels
  /-- `Spec.Schedule`, the cron expression. -/
  schedule : String
  /-- `Spec.Template.TTL`. -/
  ttl : Duration
  /-- `Status.Phase`, written by velero. -/
  phase : String
deriving DecidableEq, Repr

/-- `veleroapi.SchedulePhaseNew`. -/
def schedulePhaseNew : String := "New"

/-- `veleroapi.SchedulePhaseEnabled`. -/
def schedulePhaseEnabled : String := "Enabled"

/-- `veleroapi.SchedulePhaseFailedValidation`. -/
def schedulePhaseFailedValidation : String := "FailedValidation"

/-- `veleroapi.Backup`. -/
structure Backup where
  name : String
  labels : Labels
  /-- `Status.Phase`. -/
  phase : String
  /-- `Status.Errors`. -/
  errors : Int
  /-- `Status.StartTimestamp`, a pointer. -/
  startTimestamp : Option Time
deriving DecidableEq, Repr

/-- `veleroapi.BackupPhaseDeleting`. -/
def backupPhaseDeleting : String := "Deleting"

/-- `veleroapi.Restore`. -/
structure Restore where
  name : String
  /-- `Spec.BackupName`. -/
  backupName : String
  /-- `Status.Phase`, written by velero. -/
  phase : String
deriving DecidableEq, Repr

/-- `veleroapi.RestorePhaseNew`. -/
def restorePhaseNew : String := "New"

/-- `veleroapi.RestorePhaseInProgress`. -/
def restorePhaseInProgress : String := "InProgress"

/-- `veleroapi.RestorePhaseCompleted`. -/
def restorePhaseCompleted : String := "Completed"

end Velero

/-- Modelled from the spec: `filterBackups` is not under src. The spec calls it the generic
artifact filter: the backups the predicate accepts, in their order. -/
def filterBackups (backups : List Velero.Backup) (p : Velero.Backup → Bool) :
    List Velero.Backup :=
  backups.filter p

/-! ## The BackupSchedule -/

/-- `v1beta1.SchedulePhase`; `empty` is the zero value `""`. -/
inductive SchedulePhase
  | empty
  | new
  | enabled
  | unknown
  | failedValidation
  | failed
  | backupCollision
deriving DecidableEq, Repr

/-- `v1beta1.BackupScheduleSpec`. -/
structure BackupScheduleSpec where
  /-- `VeleroSchedule`, the cron expression. -/
  veleroSchedule : String
  /-- `VeleroTTL`. -/
  veleroTTL : Duration
deriving DecidableEq, Repr

/-- `v1beta1.BackupScheduleStatus`. -/
structure BackupScheduleStatus where
  phase : SchedulePhase := .empty
  lastMessage : String := ""
  veleroScheduleManagedClusters : Option Velero.Schedule := none
  veleroScheduleCredentials : Option Velero.Schedule := none
  veleroScheduleResources : Option Velero.Schedule := none
deriving DecidableEq, Repr

/-- `v1beta1.BackupSchedule`. -/
structure BackupSchedule where
  /-- `Namespace`. -/
  namespaceName : String
  name : String
  spec : BackupScheduleSpec
  status : BackupScheduleStatus := {}
deriving DecidableEq, Repr

/-- `backupSchedule.Status.Phase = phase; backupSchedule.Status.LastMessage = message`. -/
def BackupSchedule.setPhase (bs : BackupSchedule) (phase : SchedulePhase) (message : String) :
    BackupSchedule :=
  { bs with status := { bs.status with phase := phase, lastMessage := message } }

@[simp] theorem BackupSchedule.setPhase_phase (bs : BackupSchedule) (p : SchedulePhase)
    (m : String) :
    (bs.setPhase p m).status.phase = p := rfl

@[simp] theorem BackupSchedule.setPhase_lastMessage (bs : BackupSchedule) (p : SchedulePhase)
    (m : String) : (bs.setPhase p m).status.lastMessage = m := rfl

@[simp] theorem BackupSchedule.setPhase_spec (bs : BackupSchedule) (p : SchedulePhase)
    (m : String) :
    (bs.setPhase p m).spec = bs.spec := rfl

/-! ## The Restore and its conditions -/

/-- `v1beta1.RestoreSpec`. -/
structure RestoreSpec where
  veleroManagedClustersBackupName : Option String := none
  veleroCredentialsBackupName : Option String := none
  veleroResourcesBackupName : Option String := none
deriving DecidableEq, Repr

/-- `metav1.ConditionStatus`. -/
inductive ConditionStatus
  | conditionTrue
  | conditionFalse
  | conditionUnknown
deriving DecidableEq, Repr

/-- `metav1.Condition`, without `LastTransitionTime`, which is stamped from the wall clock. -/
structure Condition where
  type : String
  status : ConditionStatus
  reason : String
  message : String
deriving DecidableEq, Repr

/-- `v1beta1.RestoreStatus`. -/
structure RestoreStatus where
  veleroManagedClustersRestoreName : String := ""
  veleroCredentialsRestoreName : String := ""
  veleroResourcesRestoreName : String := ""
  conditions : List Condition := []
deriving DecidableEq, Repr

/-- `v1beta1.Restore`. -/
structure Restore where
  /-- `Namespace`. -/
  namespaceName : String
  name : String
  spec : RestoreSpec
  status : RestoreStatus := {}
deriving DecidableEq, Repr

/-- The v1beta1 package is not under src: the condition types and reasons the controller sets,
under the names the spec gives them. -/
def restoreStarted : String := "Started"

/-- See `restoreStarted`. -/
def restoreComplete : String := "Complete"

/-- See `restoreStarted`. -/
def restoreReasonStarted : String := "RestoreStarted"

/-- See `restoreStarted`. -/
def restoreReasonRunning : String := "RestoreRunning"

/-- See `restoreStarted`. -/
def restoreReasonFinished : String := "RestoreFinished"

/-- `meta.FindStatusCondition`: the first condition of the type. -/
def findStatusCondition (conditions : List Condition) (type : String) : Option Condition :=
  conditions.find? (·.type == type)

/-- `meta.SetStatusCondition`: the first condition of the new one's type takes its status, reason
and message; with none, the new condition is appended. -/
def setStatusCondition : List Condition → Condition → List Condition
  | [], c => [c]
  | e :: es, c => if e.type = c.type then c :: es else e :: setStatusCondition es c

@[simp] theorem findStatusCondition_setStatusCondition_self (cs : List Condition) (c : Condition) :
    findStatusCondition (setStatusCondition cs c) c.type = some c := by
  induction cs with
  | nil => simp [setStatusCondition, findStatusCondition]
  | cons e es ih =>
    unfold setStatusCondition
    split
    · simp [findStatusCondition]
    · simp_all [findStatusCondition]

theorem findStatusCondition_setStatusCondition_of_ne (cs : List Condition) (c : Condition)
    {type : String} (h : c.type ≠ type) :
    findStatusCondition (setStatusCondition cs c) type = findStatusCondition cs type := by
  induction cs with
  | nil => simp [setStatusCondition, findStatusCondition, h]
  | cons e es ih =>
    unfold setStatusCondition
    split
    · rename_i he
      simp [findStatusCondition, h, he]
    · simp only [findStatusCondition] at ih ⊢
      simp [List.find?_cons, ih]

end ClusterBackup
