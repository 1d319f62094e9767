import ClusterBackup.Schedule.Reconcile
import ClusterBackup.Schedule.Collision
import Mathlib.Data.List.Nodup

/-!
# Runs of the BackupSchedule controller

The system around one BackupSchedule: reconciles with any outcome of their API calls, any visit
order of the categories and a current listing of the owned schedules in any order, velero setting
the phases of the owned schedules, operators editing the spec, and the collision check the spec
describes. `ScheduleReachable` is every world such a
run reaches from a BackupSchedule that owns no velero schedule yet.

## What every run keeps

The one invariant every run keeps is the spec's data-model invariant: the BackupSchedule owns at
most one velero schedule per category (`ownsAtMostOnePerCategory_of_reachable`). Creation happens
only when nothing is owned and visits each category once; deletion only removes.

## Partial loops and overwritten phases

Both loops of `Reconcile` stop at the first failed call and the next reconcile only asks whether
the owned list is empty. A `Create` failing after the first category was created therefore leaves
one schedule for good, and the aggregation branch then reports `Enabled` on it
(`reachable_enabled_with_one_schedule`). And only the aggregation branch spares a
`BackupCollision` phase: validation, creation and deletion overwrite it
(`reachable_collision_overwritten`).
-/

namespace ClusterBackup

open scoped List

/-- `BackupCollisionPhaseMsg` with its three `%s` filled: the backup, the hub it comes from, and
this hub. -/
def backupCollisionPhaseMsg (backup clusterId current : String) : String :=
  "Backup " ++ backup ++ ", from cluster with id [" ++ clusterId ++
    "] is using the same storage location." ++
    " This is a backup collision with current cluster [" ++ current ++ "] backup." ++
    " Review and resolve the collision then create a new BackupSchedule resource to " ++
    " resume backups from this cluster."

variable (ctx : ScheduleContext)
  (sort : (Velero.Backup → Velero.Backup → Bool) → List Velero.Backup → List Velero.Backup)

/-- Modelled from the spec: the caller of `scheduleOwnsLatestStorageBackups` is not under src.
The spec's collision detection: when the latest resources backup at the storage location comes
from another hub than an owned velero schedule, the phase becomes `BackupCollision`, with
`BackupCollisionPhaseMsg` naming the backup and both hubs. -/
def detectBackupCollision (backups : List Velero.Backup) (vs : Velero.Schedule)
    (w : ScheduleWorld) : ScheduleWorld :=
  match scheduleOwnsLatestStorageBackups sort ctx (.ok backups) vs with
  | (false, some b) =>
    let msg := backupCollisionPhaseMsg b.name (labelValue b.labels ctx.backupScheduleClusterLabel)
      (labelValue vs.labels ctx.backupScheduleClusterLabel)
    { w with backupSchedule := w.backupSchedule.setPhase .backupCollision msg }
  | _ => w

@[simp] theorem detectBackupCollision_owned (backups : List Velero.Backup) (vs : Velero.Schedule)
    (w : ScheduleWorld) : (detectBackupCollision ctx sort backups vs w).owned = w.owned := by
  unfold detectBackupCollision
  split <;> rfl

/-- One step of the system around one BackupSchedule. -/
inductive ScheduleStep : ScheduleWorld → ScheduleWorld → Prop
  /-- A `Reconcile`, whatever its API calls return and in whichever order Go visits the
  categories. -/
  | reconcile (calls : ScheduleCalls) (w : ScheduleWorld)
      (horder : calls.order ~ resourceTypeKeys) :
      ScheduleStep w (reconcileSchedule ctx calls w).1
  /-- Velero sets the phase of an owned schedule to anything. -/
  | engine (w : ScheduleWorld) (pre post : List Velero.Schedule) (vs : Velero.Schedule)
      (phase : String) (h : w.owned = pre ++ vs :: post) :
      ScheduleStep w { w with owned := pre ++ { vs with phase := phase } :: post }
  /-- An operator edits the spec. -/
  | edit (w : ScheduleWorld) (spec : BackupScheduleSpec) :
      ScheduleStep w { w with backupSchedule := { w.backupSchedule with spec := spec } }
  /-- The collision check runs on an owned schedule against the listed resources backups. -/
  | collision (w : ScheduleWorld) (backups : List Velero.Backup) (vs : Velero.Schedule)
      (hvs : vs ∈ w.owned) : ScheduleStep w (detectBackupCollision ctx sort backups vs w)

/-- The worlds reachable from a BackupSchedule that owns no velero schedule. -/
inductive ScheduleReachable : ScheduleWorld → Prop
  | init (bs : BackupSchedule) : ScheduleReachable ⟨bs, []⟩
  | step {w w' : ScheduleWorld} : ScheduleReachable w → ScheduleStep ctx sort w w' →
      ScheduleReachable w'

/-! ## At most one velero schedule per category -/

/-- Every owned velero schedule is the schedule of a category, and no two share a name, so no
category has two. -/
def OwnsAtMostOnePerCategory (w : ScheduleWorld) : Prop :=
  (w.owned.map (·.name)).Nodup ∧ ∀ vs ∈ w.owned, ∃ key, vs.name = resourceTypes key

theorem ownsAtMostOnePerCategory_of_subperm {w w' : ScheduleWorld} (h : w'.owned <+~ w.owned)
    (hw : OwnsAtMostOnePerCategory w) : OwnsAtMostOnePerCategory w' :=
  let ⟨_, hperm, hsub⟩ := h
  ⟨(hperm.map _).nodup_iff.1 (hw.1.sublist (hsub.map _)), fun vs hvs ↦ hw.2 vs (h.subset hvs)⟩

/-- The schedules of one creating reconcile have distinct category names. -/
theorem ownsAtMostOnePerCategory_of_init {w : ScheduleWorld} {create : String → Option String}
    {order : List ResourceType} (horder : order ~ resourceTypeKeys) {bs : BackupSchedule}
    (h : w.owned = (initVeleroSchedules create order bs).1) : OwnsAtMostOnePerCategory w := by
  have hsub := initVeleroSchedules_owned_sublist create order bs
  have hnodup : (order.map resourceTypes).Nodup :=
    (horder.map resourceTypes).nodup_iff.2
      (List.Nodup.map resourceTypes_injective resourceTypeKeys_nodup)
  refine ⟨h ▸ hnodup.sublist hsub, fun vs hvs ↦ ?_⟩
  obtain ⟨key, -, hkey⟩ :=
    List.mem_map.1 (hsub.subset (List.mem_map_of_mem (·.name) (h ▸ hvs)))
  exact ⟨key, hkey.symm⟩

theorem ownsAtMostOnePerCategory_reconcile {calls : ScheduleCalls} {w : ScheduleWorld}
    (horder : calls.order ~ resourceTypeKeys) (hw : OwnsAtMostOnePerCategory w) :
    OwnsAtMostOnePerCategory (reconcileSchedule ctx calls w).1 := by
  have keep : ∀ {w'}, w'.owned = w.owned → OwnsAtMostOnePerCategory w' := fun h ↦
    ownsAtMostOnePerCategory_of_subperm (h ▸ List.Subperm.refl _) hw
  have drop : ∀ {w'},
      w'.owned = (deleteVeleroSchedules calls.delete w.backupSchedule (calls.listing w.owned)).1 →
        OwnsAtMostOnePerCategory w' := fun h ↦
    ownsAtMostOnePerCategory_of_subperm
      (h ▸ (deleteVeleroSchedules_sublist _ _ _).subperm.trans (calls.listing_perm _).subperm) hw
  rcases reconcileSchedule_world ctx calls w with
    h | ⟨-, h⟩ | ⟨-, -, h⟩ | ⟨-, -, -, h | ⟨-, h⟩⟩ | ⟨-, -, -, h⟩ <;> rw [h]
  · exact hw
  · exact keep (by simp)
  · exact ownsAtMostOnePerCategory_of_init horder
      (show _ = (initVeleroSchedules calls.create calls.order w.backupSchedule).1 by simp)
  · exact drop rfl
  · exact drop (by simp)
  · exact keep (by simp)

theorem ownsAtMostOnePerCategory_step {w w' : ScheduleWorld} (h : ScheduleStep ctx sort w w')
    (hw : OwnsAtMostOnePerCategory w) : OwnsAtMostOnePerCategory w' := by
  cases h with
  | reconcile calls _ horder => exact ownsAtMostOnePerCategory_reconcile ctx horder hw
  | engine _ pre post vs phase h =>
    rw [OwnsAtMostOnePerCategory, h] at hw
    refine ⟨by simpa using hw.1, fun vs' hvs' ↦ ?_⟩
    simp only [List.mem_append, List.mem_cons] at hvs'
    rcases hvs' with hvs' | rfl | hvs'
    · exact hw.2 vs' (by simp [hvs'])
    · exact hw.2 vs (by simp)
    · exact hw.2 vs' (by simp [hvs'])
  | edit => exact hw
  | collision _ backups vs _ => exact ⟨by simpa using hw.1, by simpa using hw.2⟩

/-- **At most one velero schedule per category**, in every reachable world: whatever the API
calls return, whatever order Go visits the categories in and the current listing lists the owned
schedules in, whatever velero reports and however the spec is edited. -/
theorem ownsAtMostOnePerCategory_of_reachable {w : ScheduleWorld}
    (h : ScheduleReachable ctx sort w) : OwnsAtMostOnePerCategory w := by
  induction h with
  | init => exact ⟨List.nodup_nil, fun _ h ↦ absurd h (List.not_mem_nil _)⟩
  | step _ hs ih => exact ownsAtMostOnePerCategory_step ctx sort hs ih

/-- The invariant in a world two steps into a run: a creating reconcile, then velero enabling a
schedule. -/
theorem ownsAtMostOnePerCategory_hourly :
    let ctx : ScheduleContext := ⟨fun _ ↦ none, "acm-validation-policy-schedule",
      "cluster.open-cluster-management.io/backup-cluster"⟩
    let w := (reconcileSchedule ctx .ok ⟨⟨"open-cluster-management-backup", "schedule-acm",
      ⟨"0 * * * *", .zero⟩, {}⟩, []⟩).1
    ScheduleReachable ctx insertionSort w ∧ OwnsAtMostOnePerCategory w :=
  ⟨.step (.init _) (.reconcile _ _ (List.Perm.refl _)),
    ownsAtMostOnePerCategory_of_reachable _ insertionSort
      (.step (.init _) (.reconcile _ _ (List.Perm.refl _)))⟩

/-! ## A stopped creation, and phases the aggregation does not own -/

/-- A BackupSchedule in the namespace the operator uses, with an hourly cron and no TTL. -/
def hourlyBackupSchedule : BackupSchedule :=
  ⟨"open-cluster-management-backup", "schedule-acm", ⟨"0 * * * *", .zero⟩, {}⟩

/-- The calls of a creating reconcile in which the `Create` of the credentials schedule times
out. -/
def credentialsCreateFails : ScheduleCalls :=
  { ScheduleCalls.ok with
    create := fun n ↦ if n = resourceTypes .credentials then some "etcdserver: request timed out"
      else none }

theorem parseCronSchedule_hourly (hcron : ctx.parseStandard "0 * * * *" = none) :
    parseCronSchedule ctx hourlyBackupSchedule = [] := by
  simp only [parseCronSchedule, hourlyBackupSchedule, hcron]
  decide

/-- **`Enabled` with one velero schedule.** The first reconcile creates the managed-clusters
schedule and fails on the credentials one; velero enables the schedule that exists; the next
reconcile finds a non-empty owned list with no drift and aggregates it to `Enabled`. -/
theorem reachable_enabled_with_one_schedule (hcron : ctx.parseStandard "0 * * * *" = none) :
    ∃ w, ScheduleReachable ctx sort w ∧ w.backupSchedule.status.phase = .enabled ∧
      w.owned.map (·.name) = [resourceTypes .managedClusters] := by
  have hp := parseCronSchedule_hourly ctx hcron
  set w₁ := (reconcileSchedule ctx credentialsCreateFails ⟨hourlyBackupSchedule, []⟩).1
  have h₁ : w₁.owned =
      [] ++ veleroScheduleFor hourlyBackupSchedule.spec .managedClusters :: [] := by
    rw [reconcileSchedule_owned_of_create hp rfl rfl]
    simp [initVeleroSchedules, credentialsCreateFails, ScheduleCalls.ok, resourceTypeKeys,
      resourceTypes]
  have hphase₁ : w₁.backupSchedule.status.phase = .failed := by
    simp [w₁, reconcileSchedule, hp, credentialsCreateFails, ScheduleCalls.ok, resourceTypeKeys,
      initVeleroSchedules, createdStatus, ScheduleWorld.persist, resourceTypes]
  have r₂ : ScheduleReachable ctx sort { w₁ with owned := [] ++
      { veleroScheduleFor hourlyBackupSchedule.spec .managedClusters with
        phase := Velero.schedulePhaseEnabled } :: [] } :=
    .step (.step (.init _) (.reconcile _ _ (List.Perm.refl _))) (.engine w₁ [] [] _ _ h₁)
  refine ⟨_, .step r₂ (.reconcile .ok _ (List.Perm.refl _)), ?_⟩
  have hspec : w₁.backupSchedule.spec = hourlyBackupSchedule.spec := reconcileSchedule_spec ..
  have hp₁ : parseCronSchedule ctx w₁.backupSchedule = [] :=
    (parseCronSchedule_congr ctx hspec).trans hp
  simp [reconcileSchedule, hp₁, hspec, hphase₁, ScheduleCalls.ok, isScheduleSpecUpdated,
    veleroScheduleFor, hourlyBackupSchedule, ScheduleWorld.persist, aggregatedStatus,
    setSchedulePhase, setSchedulePhaseLoop, Velero.schedulePhaseEnabled, Velero.schedulePhaseNew,
    Velero.schedulePhaseFailedValidation]

/-- A full set of schedules made under one TTL drifts from a spec with another, whatever the
validation schedule is called. -/
theorem isScheduleSpecUpdated_of_ttl_ne {order : List ResourceType}
    (horder : order ~ resourceTypeKeys) (spec : BackupScheduleSpec) (bs : BackupSchedule)
    (h : (veleroScheduleFor spec .managedClusters).ttl ≠ bs.spec.veleroTTL) :
    isScheduleSpecUpdated ctx (order.map (veleroScheduleFor spec)) bs = true := by
  obtain ⟨key, hkey, hne⟩ := exists_resourceType_ne horder ctx.validationScheduleName
  refine List.any_eq_true.2 ⟨_, List.mem_map_of_mem _ hkey, ?_⟩
  simp only [veleroScheduleFor_name, ne_eq, hne, not_false_eq_true, decide_True, Bool.true_and,
    Bool.or_eq_true, decide_eq_true_eq]
  exact Or.inl h

/-- **`BackupCollision` is overwritten and schedules come back.** After the collision check
flags another hub's backup, an operator edits the TTL; the drift branch deletes every schedule
but its status `Update` fails, so the stored phase stays `BackupCollision` with nothing owned. The
next reconcile then creates all three schedules and stores `New`. -/
theorem reachable_collision_overwritten (hcron : ctx.parseStandard "0 * * * *" = none)
    (hsort : SortContract sort) :
    ∃ w, ScheduleReachable ctx sort w ∧ w.backupSchedule.status.phase = .backupCollision ∧
      w.owned = [] ∧ ScheduleStep ctx sort w (reconcileSchedule ctx .ok w).1 ∧
      (reconcileSchedule ctx .ok w).1.backupSchedule.status.phase = .new ∧
      (reconcileSchedule ctx .ok w).1.owned.length = 3 := by
  have hp := parseCronSchedule_hourly ctx hcron
  set w₁ := (reconcileSchedule ctx .ok ⟨hourlyBackupSchedule, []⟩).1
  have h₁ : w₁.owned = resourceTypeKeys.map (veleroScheduleFor hourlyBackupSchedule.spec) := by
    rw [reconcileSchedule_owned_of_create hp rfl rfl]
    exact (initVeleroSchedules_of_ok _ (fun _ ↦ rfl) _ _).1
  have r₁ : ScheduleReachable ctx sort w₁ := .step (.init _) (.reconcile _ _ (List.Perm.refl _))
  -- another hub started the latest resources backup
  set vs := veleroScheduleFor hourlyBackupSchedule.spec .resources
  set theirs : Velero.Backup := ⟨"acm-resources-schedule-20210910191336",
    [(ctx.backupScheduleClusterLabel, "hub-b")], "Completed", 0, some (Time.ofSeconds 1631301216)⟩
  have hc : scheduleOwnsLatestStorageBackups sort ctx (.ok [theirs]) vs = (false, some theirs) := by
    have hs := List.perm_singleton.1 (hsort.perm (fun a b ↦ decide (startUnix a < startUnix b))
      [theirs])
    simp [scheduleOwnsLatestStorageBackups, filterBackups, theirs, Velero.backupPhaseDeleting, hs,
      labelValue, vs, veleroScheduleFor]
  set w₂ := detectBackupCollision ctx sort [theirs] vs w₁
  have r₂ : ScheduleReachable ctx sort w₂ :=
    .step r₁ (.collision w₁ [theirs] vs (by simp [h₁, vs, resourceTypeKeys]))
  have hphase₂ : w₂.backupSchedule.status.phase = .backupCollision := by
    simp [w₂, detectBackupCollision, hc]
  -- an operator sets a TTL of one hour
  set w₃ : ScheduleWorld :=
    { w₂ with
      backupSchedule :=
        { w₂.backupSchedule with spec := ⟨"0 * * * *", ⟨3600000000000⟩⟩ } }
  have r₃ : ScheduleReachable ctx sort w₃ := .step r₂ (.edit w₂ _)
  have hp₃ : parseCronSchedule ctx w₃.backupSchedule = [] := by
    simp only [parseCronSchedule, w₃, hcron]
    decide
  have howned₃ :
      w₃.owned = resourceTypeKeys.map (veleroScheduleFor hourlyBackupSchedule.spec) := by
    simp [w₃, w₂, h₁]
  have hdrift : isScheduleSpecUpdated ctx w₃.owned w₃.backupSchedule = true := by
    rw [howned₃]
    exact isScheduleSpecUpdated_of_ttl_ne ctx (List.Perm.refl _) _ _
      (by simp [w₃, veleroScheduleFor, hourlyBackupSchedule, Duration.zero])
  -- the drift branch deletes everything, and its status update fails
  set calls₄ : ScheduleCalls := { ScheduleCalls.ok with update := some "conflict" }
  have hw₄ : (reconcileSchedule ctx calls₄ w₃).1 = { w₃ with owned := [] } := by
    have hdel :=
      deleteVeleroSchedules_of_ok (fun _ ↦ none) (fun _ ↦ rfl) w₃.backupSchedule w₃.owned
    have hne : w₃.owned ≠ [] := by rw [howned₃]; simp [resourceTypeKeys]
    simp [reconcileSchedule, hp₃, calls₄, ScheduleCalls.ok, hne, hdrift, hdel.1, hdel.2,
      ScheduleWorld.persist]
  have r₄ : ScheduleReachable ctx sort { w₃ with owned := [] } :=
    hw₄ ▸ .step r₃ (.reconcile calls₄ w₃ (List.Perm.refl _))
  refine ⟨_, r₄, hphase₂, rfl, .reconcile _ _ (List.Perm.refl _), ?_, ?_⟩
  · simp [reconcileSchedule, hp₃, ScheduleCalls.ok, createdStatus, ScheduleWorld.persist,
      (initVeleroSchedules_of_ok (fun _ ↦ none) (fun _ ↦ rfl) _ _).2]
  · rw [reconcileSchedule_owned_of_create (w := { w₃ with owned := [] }) hp₃ rfl rfl,
      (initVeleroSchedules_of_ok ScheduleCalls.ok.create (fun _ ↦ rfl) _ _).1]
    rfl

/-- The two failing runs under a cron parser that accepts the hourly expression, with the collision
check sorting by Go's insertion sort. -/
theorem reachable_enabled_with_one_schedule_acceptAll :
    let ctx : ScheduleContext := ⟨fun _ ↦ none, "acm-validation-policy-schedule",
      "cluster.open-cluster-management.io/backup-cluster"⟩
    ctx.parseStandard "0 * * * *" = none ∧
      ∃ w, ScheduleReachable ctx insertionSort w ∧ w.backupSchedule.status.phase = .enabled ∧
        w.owned.map (·.name) = [resourceTypes .managedClusters] :=
  ⟨rfl, reachable_enabled_with_one_schedule _ _ rfl⟩

/-- See `reachable_enabled_with_one_schedule_acceptAll`. -/
theorem reachable_collision_overwritten_acceptAll :
    let ctx : ScheduleContext := ⟨fun _ ↦ none, "acm-validation-policy-schedule",
      "cluster.open-cluster-management.io/backup-cluster"⟩
    ctx.parseStandard "0 * * * *" = none ∧ SortContract (insertionSort (α := Velero.Backup)) ∧
      ∃ w, ScheduleReachable ctx insertionSort w ∧
        w.backupSchedule.status.phase = .backupCollision ∧ w.owned = [] ∧
        ScheduleStep ctx insertionSort w (reconcileSchedule ctx .ok w).1 ∧
        (reconcileSchedule ctx .ok w).1.backupSchedule.status.phase = .new ∧
        (reconcileSchedule ctx .ok w).1.owned.length = 3 :=
  ⟨rfl, insertionSort_sortContract,
    reachable_collision_overwritten _ _ rfl insertionSort_sortContract⟩

end ClusterBackup
