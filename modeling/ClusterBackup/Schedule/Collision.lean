import ClusterBackup.Schedule.Status
import ClusterBackup.Sort

/-!
# Storage-location collision detection

`scheduleOwnsLatestStorageBackups` decides whether this hub produced the latest backups at the
storage location: among the listed resources backups that are not being deleted it takes the one
`sort.Slice` puts last by start time, and compares its hub label with the velero schedule's.

The sort key is an integer, the start time in whole seconds with the epoch for a backup that has
not started, so the comparator is a strict weak ordering whatever the backups are
(`strictWeakOrder_key`). The sort contract then makes the last element a backup of maximal key,
and which one among equal keys the unstable sort happens to put last is irrelevant to the
statement: `scheduleOwnsLatestStorageBackups_spec` quantifies over every maximal backup.
-/

namespace ClusterBackup

open scoped List

/-- The key `scheduleOwnsLatestStorageBackups` sorts by: the start time in whole seconds, and the
epoch for a backup without a start timestamp. -/
def startUnix (b : Velero.Backup) : Int :=
  match b.startTimestamp with
  | some t => t.unix
  | none => 0

/-- `b` is a latest backup that is not being deleted: no backup of the list outside the
`Deleting` phase started in a later second, a backup without a start timestamp counting as
started at the epoch. -/
def IsLatest (backups : List Velero.Backup) (b : Velero.Backup) : Prop :=
  b ∈ backups ∧ b.phase ≠ Velero.backupPhaseDeleting ∧
    ∀ b' ∈ backups, b'.phase ≠ Velero.backupPhaseDeleting →
      (b'.startTimestamp.map Time.unix).getD 0 ≤ (b.startTimestamp.map Time.unix).getD 0

theorem startUnix_eq (b : Velero.Backup) :
    startUnix b = (b.startTimestamp.map Time.unix).getD 0 := by
  cases h : b.startTimestamp <;> simp [startUnix, h]

variable
  (sort : (Velero.Backup → Velero.Backup → Bool) → List Velero.Backup → List Velero.Backup)

/-- `scheduleOwnsLatestStorageBackups`: `(true, none)` when this hub produced the latest
resources backup at the storage location, or when listing fails; otherwise `(false, b)` with the
latest backup `b`. -/
def scheduleOwnsLatestStorageBackups (ctx : ScheduleContext)
    (listed : Except String (List Velero.Backup)) (vs : Velero.Schedule) :
    Bool × Option Velero.Backup :=
  match listed with
  | .error _ => (true, none)
  | .ok backups =>
    let sliceBackups := sort (fun a b ↦ decide (startUnix a < startUnix b))
      (filterBackups backups fun b ↦ b.phase != Velero.backupPhaseDeleting)
    match sliceBackups.getLast? with
    | none => (true, none)
    | some lastBackup =>
      if labelValue lastBackup.labels ctx.backupScheduleClusterLabel ≠
          labelValue vs.labels ctx.backupScheduleClusterLabel then (false, some lastBackup)
      else (true, none)

variable {sort}

/-- The last element of a sorted list is a latest backup. -/
theorem isLatest_of_getLast? (hsort : SortContract sort) {backups : List Velero.Backup}
    {last : Velero.Backup}
    (h : (sort (fun a b ↦ decide (startUnix a < startUnix b))
      (filterBackups backups fun b ↦ b.phase != Velero.backupPhaseDeleting)).getLast? =
        some last) :
    IsLatest backups last := by
  set filtered := filterBackups backups fun b ↦ b.phase != Velero.backupPhaseDeleting
  have hperm := hsort.perm (fun a b ↦ decide (startUnix a < startUnix b)) filtered
  have hsorted := hsort.sorted _ filtered (strictWeakOrder_key startUnix filtered)
  have hmem :
      ∀ {b}, b ∈ filtered ↔ b ∈ backups ∧ b.phase ≠ Velero.backupPhaseDeleting := by
    simp [filtered, filterBackups]
  obtain ⟨ys, hys⟩ := List.getLast?_eq_some_iff.1 h
  rw [hys, List.pairwise_append] at hsorted
  have hlast := hmem.1 (hperm.mem_iff.1 (List.mem_of_getLast?_eq_some h))
  refine ⟨hlast.1, hlast.2, fun b' hb' hd ↦ ?_⟩
  rw [← startUnix_eq, ← startUnix_eq]
  have hb'mem := hperm.mem_iff.2 (hmem.2 ⟨hb', hd⟩)
  rw [hys, List.mem_append, List.mem_singleton] at hb'mem
  rcases hb'mem with hb' | rfl
  · exact Int.not_lt.1 (by simpa using hsorted.2.2 b' hb' last (List.mem_singleton_self _))
  · exact Int.le_refl _

/-- With no backup outside the `Deleting` phase, the sorted slice is empty. -/
theorem exists_not_deleting_of_getLast? (hsort : SortContract sort) {backups : List Velero.Backup}
    (h : (sort (fun a b ↦ decide (startUnix a < startUnix b))
      (filterBackups backups fun b ↦ b.phase != Velero.backupPhaseDeleting)).getLast? = none) :
    ∀ b ∈ backups, b.phase = Velero.backupPhaseDeleting := by
  intro b hb
  by_contra hd
  have hmem : b ∈ filterBackups backups fun b ↦ b.phase != Velero.backupPhaseDeleting := by
    simp [filterBackups, hb, hd]
  have := (hsort.perm (fun a b ↦ decide (startUnix a < startUnix b)) _).mem_iff.2 hmem
  rw [List.getLast?_eq_none_iff.1 h] at this
  exact List.not_mem_nil b this

/-- The verdict `r` the collision check is to give on `backups` for the schedule `vs`:
`(true, none)` or `(false, b)` with `b` a latest backup whose hub label differs from the
schedule's; `(true, none)` when every latest backup carries the schedule's label (in particular
when there is none); and `false` when some backup is not being deleted and every latest one
carries another label. -/
def OwnershipVerdict (ctx : ScheduleContext) (backups : List Velero.Backup) (vs : Velero.Schedule)
    (r : Bool × Option Velero.Backup) : Prop :=
  let label := fun b : Velero.Backup ↦ labelValue b.labels ctx.backupScheduleClusterLabel
  let ours := labelValue vs.labels ctx.backupScheduleClusterLabel
  (r = (true, none) ∨ ∃ b, r = (false, some b) ∧ IsLatest backups b ∧ label b ≠ ours) ∧
    ((∀ b, IsLatest backups b → label b = ours) → r = (true, none)) ∧
    ((∃ b ∈ backups, b.phase ≠ Velero.backupPhaseDeleting) →
      (∀ b, IsLatest backups b → label b ≠ ours) → r.1 = false)

/-- **Collision detection judges by a latest backup.** For every listed set of resources backups
and every sort meeting Go's contract, the verdict of `scheduleOwnsLatestStorageBackups` is the one
`OwnershipVerdict` describes. -/
theorem scheduleOwnsLatestStorageBackups_spec (hsort : SortContract sort) (ctx : ScheduleContext)
    (backups : List Velero.Backup) (vs : Velero.Schedule) :
    OwnershipVerdict ctx backups vs
      (scheduleOwnsLatestStorageBackups sort ctx (.ok backups) vs) := by
  dsimp only [scheduleOwnsLatestStorageBackups, OwnershipVerdict]
  split
  · rename_i hnone
    have hdel := exists_not_deleting_of_getLast? hsort hnone
    exact ⟨.inl rfl, fun _ ↦ rfl, fun ⟨b, hb, hd⟩ ↦ absurd (hdel b hb) hd⟩
  · rename_i last hlast
    have hl := isLatest_of_getLast? hsort hlast
    split_ifs with hne
    · exact ⟨.inr ⟨last, rfl, hl, hne⟩, fun hall ↦ absurd (hall last hl) hne,
        fun _ _ ↦ rfl⟩
    · exact ⟨.inl rfl, fun _ ↦ rfl, fun _ hall ↦ absurd (hall last hl) hne⟩

/-- The theorem at the insertion sort Go runs on short slices: two resources backups of two hubs,
the other hub's started an hour later. -/
theorem scheduleOwnsLatestStorageBackups_twoHubs :
    let ctx : ScheduleContext := ⟨fun _ ↦ none, "acm-validation-policy-schedule",
      "cluster.open-cluster-management.io/backup-cluster"⟩
    let ours : Velero.Backup := ⟨"acm-resources-schedule-20210910181336",
      [("cluster.open-cluster-management.io/backup-cluster", "hub-a")], "Completed", 0,
      some (Time.ofSeconds 1631297616)⟩
    let theirs : Velero.Backup := ⟨"acm-resources-schedule-20210910191336",
      [("cluster.open-cluster-management.io/backup-cluster", "hub-b")], "Completed", 0,
      some (Time.ofSeconds 1631301216)⟩
    let vs : Velero.Schedule := ⟨"acm-resources-schedule",
      [("cluster.open-cluster-management.io/backup-cluster", "hub-a")], "0 * * * *", .zero,
      "Enabled"⟩
    SortContract (insertionSort (α := Velero.Backup)) ∧
      OwnershipVerdict ctx [ours, theirs] vs
        (scheduleOwnsLatestStorageBackups insertionSort ctx (.ok [ours, theirs]) vs) :=
  ⟨insertionSort_sortContract,
    scheduleOwnsLatestStorageBackups_spec insertionSort_sortContract _ _ _⟩

end ClusterBackup
