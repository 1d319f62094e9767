import ClusterBackup.Api
import Mathlib.Data.List.Perm.Basic

/-!
# The BackupSchedule status helpers of `schedule.go`

`setSchedulePhase` turns the phases velero reports on the owned schedules into the
BackupSchedule's phase, `isScheduleSpecUpdated` decides whether the owned schedules drifted from
the spec, and `parseCronSchedule` validates the cron expression.

## A scan, not a priority

`setSchedulePhase` returns from inside its loop at the first schedule whose phase is empty, `New`
or `FailedValidation`. The phase it reports is therefore the one of the *first* such schedule in
the order the API server listed them: `setSchedulePhase_firstMatch` states this with
`List.findSome?`. Only the coarser question "are all schedules enabled?" is independent of the
order.

## What the controller takes from outside src

The cron parser, the name of the validation-only velero schedule that the drift check skips, and
the label key naming the hub a backup comes from are declared outside src. They are gathered in
`ScheduleContext` and every result holds for every choice of them.
-/

namespace ClusterBackup

open scoped List

/-- What the schedule controller takes from outside src. -/
structure ScheduleContext where
  /-- `cron.ParseStandard` of `robfig/cron`: the error it returns, or the panic
  `parseCronSchedule` recovers, for a cron expression; `none` when the expression parses. -/
  parseStandard : String → Option String
  /-- `veleroScheduleNames[ValidationSchedule]`, the velero schedule whose TTL follows its cron
  interval and is not compared by the drift check. -/
  validationScheduleName : String
  /-- `BackupScheduleClusterLabel`, the label key naming the hub a backup comes from. -/
  backupScheduleClusterLabel : String

/-! ## Messages -/

/-- `FailedPhaseMsg`. -/
def failedPhaseMsg : String := "Velero schedules initialization failed"

/-- `NewPhaseMsg`. -/
def newPhaseMsg : String := "Velero schedules are initialized"

/-- `EnabledPhaseMsg`. -/
def enabledPhaseMsg : String := "Velero schedules are enabled"

/-- `UnknownPhaseMsg`. -/
def unknownPhaseMsg : String :=
  "Some Velero schedules are not enabled. " ++
    "If the status doesn't change check the velero pod is running and " ++
    "that you have created a Velero resource as documented in the install guide."

/-! ## Copies of the owned schedules in the status -/

/-- `setVeleroScheduleInStatus`: store a copy of the velero schedule in the status field of its
category. -/
def setVeleroScheduleInStatus (resourceType : ResourceType) (vs : Velero.Schedule)
    (bs : BackupSchedule) : BackupSchedule :=
  match resourceType with
  | .managedClusters => { bs with status := { bs.status with veleroScheduleManagedClusters := vs } }
  | .credentials => { bs with status := { bs.status with veleroScheduleCredentials := vs } }
  | .resources => { bs with status := { bs.status with veleroScheduleResources := vs } }

@[simp] theorem setVeleroScheduleInStatus_spec (key : ResourceType) (vs : Velero.Schedule)
    (bs : BackupSchedule) : (setVeleroScheduleInStatus key vs bs).spec = bs.spec := by
  cases key <;> rfl

@[simp] theorem setVeleroScheduleInStatus_phase (key : ResourceType) (vs : Velero.Schedule)
    (bs : BackupSchedule) :
    (setVeleroScheduleInStatus key vs bs).status.phase = bs.status.phase := by
  cases key <;> rfl

/-- The status field holding the copy of a category's velero schedule. -/
def BackupScheduleStatus.veleroScheduleOf (status : BackupScheduleStatus) :
    ResourceType → Option Velero.Schedule
  | .managedClusters => status.veleroScheduleManagedClusters
  | .credentials => status.veleroScheduleCredentials
  | .resources => status.veleroScheduleResources

@[simp] theorem setVeleroScheduleInStatus_veleroScheduleOf (key c : ResourceType)
    (vs : Velero.Schedule) (bs : BackupSchedule) :
    (setVeleroScheduleInStatus key vs bs).status.veleroScheduleOf c =
      if key = c then some vs else bs.status.veleroScheduleOf c := by
  cases key <;> cases c <;> rfl

@[simp] theorem BackupSchedule.setPhase_veleroScheduleOf (bs : BackupSchedule) (p : SchedulePhase)
    (m : String) (c : ResourceType) :
    (bs.setPhase p m).status.veleroScheduleOf c = bs.status.veleroScheduleOf c := by
  cases c <;> rfl

/-- `updateScheduleStatus`: copy the velero schedule into the status field of the category whose
schedule name it carries. The names are distinct, so at most one key matches and the order in
which Go visits the map does not matter. -/
def updateScheduleStatus (vs : Velero.Schedule) (bs : BackupSchedule) : BackupSchedule :=
  resourceTypeKeys.foldl
    (fun b key ↦
      if vs.name = veleroScheduleNames key then setVeleroScheduleInStatus key vs b else b)
    bs

@[simp] theorem updateScheduleStatus_spec (vs : Velero.Schedule) (bs : BackupSchedule) :
    (updateScheduleStatus vs bs).spec = bs.spec := by
  simp only [updateScheduleStatus, resourceTypeKeys, List.foldl_cons, List.foldl_nil]
  split_ifs <;> simp

@[simp] theorem updateScheduleStatus_phase (vs : Velero.Schedule) (bs : BackupSchedule) :
    (updateScheduleStatus vs bs).status.phase = bs.status.phase := by
  simp only [updateScheduleStatus, resourceTypeKeys, List.foldl_cons, List.foldl_nil]
  split_ifs <;> simp

/-! ## The cumulative phase -/

/-- The loop of `setSchedulePhase`: the first schedule whose phase is empty, `New` or
`FailedValidation` decides; when there is none, all schedules are enabled. -/
def setSchedulePhaseLoop : List Velero.Schedule → SchedulePhase × String
  | [] => (.enabled, enabledPhaseMsg)
  | vs :: rest =>
    if vs.phase = "" then (.unknown, unknownPhaseMsg)
    else if vs.phase = Velero.schedulePhaseNew then (.new, newPhaseMsg)
    else if vs.phase = Velero.schedulePhaseFailedValidation then (.failedValidation, failedPhaseMsg)
    else setSchedulePhaseLoop rest

/-- `setSchedulePhase`: the cumulative status of the owned schedules. A `BackupCollision` phase
is left as it is. -/
def setSchedulePhase (schedules : List Velero.Schedule) (bs : BackupSchedule) : BackupSchedule :=
  if bs.status.phase = .backupCollision then bs
  else if schedules = [] then bs.setPhase .new newPhaseMsg
  else bs.setPhase (setSchedulePhaseLoop schedules).1 (setSchedulePhaseLoop schedules).2

/-- The phase and message one velero schedule's phase stops the scan with, `none` for a schedule
the scan passes over. -/
def childPhase (phase : String) : Option (SchedulePhase × String) :=
  if phase = "" then some (.unknown, unknownPhaseMsg)
  else if phase = Velero.schedulePhaseNew then some (.new, newPhaseMsg)
  else if phase = Velero.schedulePhaseFailedValidation then some (.failedValidation, failedPhaseMsg)
  else none

theorem setSchedulePhaseLoop_cons (vs : Velero.Schedule) (rest : List Velero.Schedule) :
    setSchedulePhaseLoop (vs :: rest) = (childPhase vs.phase).getD (setSchedulePhaseLoop rest) := by
  simp only [setSchedulePhaseLoop, childPhase]
  split_ifs <;> rfl

theorem setSchedulePhaseLoop_eq_findSome (schedules : List Velero.Schedule) :
    setSchedulePhaseLoop schedules =
      (schedules.findSome? fun vs ↦ childPhase vs.phase).getD (.enabled, enabledPhaseMsg) := by
  induction schedules with
  | nil => rfl
  | cons vs rest ih =>
    rw [setSchedulePhaseLoop_cons, List.findSome?_cons, ih]
    cases childPhase vs.phase <;> rfl

/-- The scan ends in `Enabled` exactly when no schedule stops it. -/
theorem setSchedulePhaseLoop_fst_eq_enabled (schedules : List Velero.Schedule) :
    (setSchedulePhaseLoop schedules).1 = .enabled ↔
      ∀ vs ∈ schedules, childPhase vs.phase = none := by
  rw [setSchedulePhaseLoop_eq_findSome, ← List.findSome?_eq_none_iff]
  cases h : schedules.findSome? fun vs ↦ childPhase vs.phase with
  | none => simp
  | some r =>
    obtain ⟨vs, -, hvs⟩ := List.exists_of_findSome?_eq_some h
    simp only [Option.getD_some, reduceCtorEq, iff_false]
    unfold childPhase at hvs
    split_ifs at hvs <;> cases hvs <;> decide

/-- **The phase `setSchedulePhase` sets is a first match.** A `BackupCollision` phase stays, an
empty list gives `New`, and otherwise the first schedule in list order whose phase is empty,
`New` or `FailedValidation` decides; `Enabled` when there is none. Whether the result is `Enabled`
is the same for every ordering of the list. -/
theorem setSchedulePhase_firstMatch (schedules : List Velero.Schedule) (bs : BackupSchedule) :
    setSchedulePhase schedules bs =
      (if bs.status.phase = .backupCollision then bs
       else if schedules = [] then bs.setPhase .new newPhaseMsg
       else match schedules.findSome? fun vs ↦ childPhase vs.phase with
         | some r => bs.setPhase r.1 r.2
         | none => bs.setPhase .enabled enabledPhaseMsg) ∧
    ∀ schedules', schedules ~ schedules' →
      ((setSchedulePhase schedules bs).status.phase = .enabled ↔
        (setSchedulePhase schedules' bs).status.phase = .enabled) := by
  refine ⟨?_, fun schedules' hp ↦ ?_⟩
  · unfold setSchedulePhase
    rw [setSchedulePhaseLoop_eq_findSome]
    split_ifs <;> cases schedules.findSome? fun vs ↦ childPhase vs.phase <;> rfl
  · have hnil : schedules = [] ↔ schedules' = [] := by
      constructor <;> rintro rfl <;> simp_all
    unfold setSchedulePhase
    split_ifs <;> simp_all [setSchedulePhaseLoop_fst_eq_enabled, hp.mem_iff]

/-- The scan is not a priority: with one schedule velero has not processed yet (empty phase) and
one still `New`, the phase is `New` or `Unknown` by which comes first. -/
theorem setSchedulePhase_depends_on_order :
    let bs : BackupSchedule := ⟨"open-cluster-management-backup", "schedule-acm",
      ⟨"0 * * * *", .zero⟩, {}⟩
    let unprocessed : Velero.Schedule :=
      ⟨"acm-credentials-schedule", [], "0 * * * *", .zero, ""⟩
    let pending : Velero.Schedule := ⟨"acm-resources-schedule", [], "0 * * * *", .zero, "New"⟩
    (setSchedulePhase [pending, unprocessed] bs).status.phase = .new ∧
      (setSchedulePhase [unprocessed, pending] bs).status.phase = .unknown := by
  decide

/-! ## Drift and validation -/

/-- `isScheduleSpecUpdated`: some owned schedule has a cron expression other than the spec's, or
a TTL other than the spec's while it is not the validation schedule. -/
def isScheduleSpecUpdated (ctx : ScheduleContext) (schedules : List Velero.Schedule)
    (bs : BackupSchedule) : Bool :=
  schedules.any fun vs ↦
    (vs.name ≠ ctx.validationScheduleName && vs.ttl ≠ bs.spec.veleroTTL) ||
      vs.schedule ≠ bs.spec.veleroSchedule

/-- `parseCronSchedule`: the validation errors of the cron expression, none when it parses. -/
def parseCronSchedule (ctx : ScheduleContext) (bs : BackupSchedule) : List String :=
  if bs.spec.veleroSchedule.length = 0 then ["Schedule must be a non-empty valid Cron expression"]
  else match ctx.parseStandard bs.spec.veleroSchedule with
    | some err => ["invalid schedule: " ++ err]
    | none => []

/-- An expression passes `parseCronSchedule` iff it is non-empty and the cron parser accepts it. -/
theorem parseCronSchedule_eq_nil_iff (ctx : ScheduleContext) (bs : BackupSchedule) :
    parseCronSchedule ctx bs = [] ↔
      bs.spec.veleroSchedule.length ≠ 0 ∧ ctx.parseStandard bs.spec.veleroSchedule = none := by
  unfold parseCronSchedule
  split_ifs with h
  · simp [h]
  · cases ctx.parseStandard bs.spec.veleroSchedule <;> simp [h]

end ClusterBackup
