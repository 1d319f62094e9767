import ClusterBackup.Restore.Reconcile

/-!
# Runs of the Restore controller

The system around one Restore: reconciles with any outcome of their calls (any `List`, `Create`,
status `Update` and velero-backup call may fail, every answer about the backups lists them in an
order of its own, and the categories are visited in any order), and velero setting the phases of
the owned velero restores. Two further behaviours of the environment are switched by the
parameters of `RestoreStep`: `stale` lets a reconcile list an earlier view of the owned velero
restores (the controller lists them from a cache), and `backupsChange` lets velero add backups,
update their status and delete them between reconciles.

## One velero restore per category, with current listings

`initVeleroRestores` runs only on an empty listing of the owned velero restores. When every such
listing is current, creation happens only while nothing is owned, and a creating reconcile visits
each category once, whatever velero does to the backups and in whatever order each call lists them
(`one_velero_restore_per_category`).

## Lagging listings

A listing that lags lets a later reconcile create again, and what it creates is named after the
backup selected at that moment. The selection changes when velero adds a newer backup; it also
changes with the backups fixed, when the cache lists them in another order and an unstarted backup
voids the sort's contract (`reachable_two_restores_of_category`). With the backups fixed, every
related backup started and backups alike in error count and start time sharing a name, the
selection does not depend on the order, and a lagging listing is harmless
(`one_velero_restore_per_category_of_started`).

## A failed creation is never resumed

The first failed `Create` ends `Reconcile` before the status is stored, and later reconciles see a
non-empty listing and only run the status loop: the categories after the failure are never
restored, and the names of those before it never recorded
(`reachable_restore_missing_categories`).

## Categories read from names

The status loop takes a velero restore whose name contains the managed-clusters schedule name for a
managed-clusters one. A Restore whose own name contains it never gets `Complete` from a finished
credentials restore, and a Restore naming a managed-clusters backup whose name lacks it gets
`Complete` from its managed-clusters restore alone (`restore_category_misread`).

## What the status says stays true

The status is written only from what the reconcile did. A category's status field is set after the
`Create` of its velero restore succeeded, and velero restores are never deleted or renamed, so along
every run each field either holds what it held at the start or names an owned velero restore of
its category (`veleroRestoreName_owned_along_run`). The status loop only ever sets `Complete` to
true and `initVeleroRestores` only sets `Started`, so a `Complete` condition that is true stays
true (`restoreComplete_never_withdrawn`).
-/

namespace ClusterBackup

open scoped List

variable
  (sort : (Velero.Backup → Velero.Backup → Bool) → List Velero.Backup → List Velero.Backup)

/-- One step of the system around one Restore. -/
inductive RestoreStep (stale backupsChange : Bool) : RestoreWorld → RestoreWorld → Prop
  /-- A `Reconcile` whose listing shows every owned velero restore as it is. -/
  | reconcile (calls : RestoreCalls) (w : RestoreWorld) (horder : calls.order ~ resourceTypeKeys)
      (hlisted : calls.listed = w.owned.map Prod.snd) :
      RestoreStep stale backupsChange w (reconcileRestore sort calls w).1
  /-- A `Reconcile` whose listing is an earlier view: the velero restores created first, in
  whatever phases the cache holds. -/
  | reconcileStale (calls : RestoreCalls) (w : RestoreWorld) (k : Nat) (hstale : stale = true)
      (horder : calls.order ~ resourceTypeKeys)
      (hlisted : calls.listed.map (·.name) = (w.owned.take k).map (·.2.name)) :
      RestoreStep stale backupsChange w (reconcileRestore sort calls w).1
  /-- Velero sets the phase of an owned velero restore to anything. -/
  | engine (w : RestoreWorld) (pre post : List (ResourceType × Velero.Restore))
      (p : ResourceType × Velero.Restore) (phase : String) (h : w.owned = pre ++ p :: post) :
      RestoreStep stale backupsChange w
        { w with owned := pre ++ (p.1, { p.2 with phase := phase }) :: post }
  /-- Velero adds a backup. -/
  | backup (w : RestoreWorld) (b : Velero.Backup) (hchange : backupsChange = true) :
      RestoreStep stale backupsChange w { w with backups := w.backups ++ [b] }
  /-- Velero updates a backup: its phase, error count, start time or labels. -/
  | updateBackup (w : RestoreWorld) (pre post : List Velero.Backup) (b b' : Velero.Backup)
      (h : w.backups = pre ++ b :: post) (hname : b'.name = b.name)
      (hchange : backupsChange = true) :
      RestoreStep stale backupsChange w { w with backups := pre ++ b' :: post }
  /-- Velero deletes a backup, once it expired. -/
  | deleteBackup (w : RestoreWorld) (pre post : List Velero.Backup) (b : Velero.Backup)
      (h : w.backups = pre ++ b :: post) (hchange : backupsChange = true) :
      RestoreStep stale backupsChange w { w with backups := pre ++ post }

/-- The worlds reachable from a Restore that owns no velero restore. -/
inductive RestoreReachable (stale backupsChange : Bool) : RestoreWorld → Prop
  | init (restore : Restore) (backups : List Velero.Backup) :
      RestoreReachable stale backupsChange ⟨restore, [], backups⟩
  | step {w w' : RestoreWorld} : RestoreReachable stale backupsChange w →
      RestoreStep sort stale backupsChange w w' → RestoreReachable stale backupsChange w'

/-- The category and name of each owned velero restore: what the status can refer to. -/
def RestoreWorld.ownedNames (w : RestoreWorld) : List (ResourceType × String) :=
  w.owned.map fun p ↦ (p.1, p.2.name)

/-! ## Velero's phase changes -/

section Engine

variable {pre post : List (ResourceType × Velero.Restore)} {p : ResourceType × Velero.Restore}
  {phase : String}

theorem map_name_setPhase :
    (pre ++ (p.1, { p.2 with phase := phase }) :: post).map (·.2.name) =
      (pre ++ p :: post).map (·.2.name) := by
  simp

theorem map_fst_setPhase :
    (pre ++ (p.1, { p.2 with phase := phase }) :: post).map Prod.fst =
      (pre ++ p :: post).map Prod.fst := by
  simp

/-- A phase change keeps every property of an owned velero restore that ignores its phase. -/
theorem forall_mem_setPhase {P : ResourceType × Velero.Restore → Prop}
    (hP : P (p.1, { p.2 with phase := phase }) ↔ P p) (h : ∀ q ∈ pre ++ p :: post, P q) :
    ∀ q ∈ pre ++ (p.1, { p.2 with phase := phase }) :: post, P q := by
  intro q hq
  simp only [List.mem_append, List.mem_cons] at hq
  rcases hq with hq | rfl | hq
  · exact h q (by simp [hq])
  · exact hP.2 (h p (by simp))
  · exact h q (by simp [hq])

end Engine

/-! ## Current listings: creation only from nothing -/

/-- One creating reconcile from nothing makes at most one velero restore per category. -/
theorem map_fst_nodup_reconcile {calls : RestoreCalls} {w : RestoreWorld}
    (horder : calls.order ~ resourceTypeKeys) (hlisted : calls.listed = w.owned.map Prod.snd)
    (hw : (w.owned.map Prod.fst).Nodup) :
    ((reconcileRestore sort calls w).1.owned.map Prod.fst).Nodup := by
  rw [reconcileRestore_owned]
  split_ifs with hl
  · have hnil : w.owned = [] := List.map_eq_nil_iff.1 (hlisted ▸ hl.2)
    obtain ⟨created, h, hsub, -⟩ := initVeleroRestores_spec sort calls.create
      (calls.listBackups w.backups) calls.order w.owned w.restore
    rw [h, hnil, List.nil_append]
    exact (horder.nodup_iff.2 resourceTypeKeys_nodup).sublist hsub
  · exact hw

theorem map_fst_nodup_step {backupsChange : Bool} {w w' : RestoreWorld}
    (h : RestoreStep sort false backupsChange w w') (hw : (w.owned.map Prod.fst).Nodup) :
    (w'.owned.map Prod.fst).Nodup := by
  cases h with
  | reconcile calls _ horder hlisted => exact map_fst_nodup_reconcile sort horder hlisted hw
  | reconcileStale _ _ _ hstale => cases hstale
  | engine _ pre post p phase h => rw [h] at hw; exact map_fst_setPhase ▸ hw
  | backup | updateBackup | deleteBackup => exact hw

/-- **One velero restore per category, with current listings.** In every world a run reaches in
which every listing of the owned velero restores is current, whatever velero does to the backups,
whatever each velero-backup call answers and in whatever order it lists them, no two owned velero
restores are of the same category. -/
theorem one_velero_restore_per_category {w : RestoreWorld}
    (hrun : RestoreReachable sort false true w) : (w.owned.map Prod.fst).Nodup := by
  induction hrun with
  | init => exact List.nodup_nil
  | step _ hs ih => exact map_fst_nodup_step sort hs ih

/-- The world of a run's first reconcile, one step in. -/
theorem one_velero_restore_per_category_hourly :
    let w := (reconcileRestore insertionSort RestoreCalls.ok ⟨restoreAcm, [], hourlyBackups⟩).1
    RestoreReachable insertionSort false true w ∧ (w.owned.map Prod.fst).Nodup :=
  have hrun := RestoreReachable.step (.init restoreAcm hourlyBackups)
    (.reconcile RestoreCalls.ok _ (List.Perm.refl _) rfl)
  ⟨hrun, one_velero_restore_per_category insertionSort hrun⟩

/-! ## Lagging listings -/

/-- The calls of `RestoreCalls.ok`, with every velero-backup call listing the backups in
reverse. -/
def RestoreCalls.reversed : RestoreCalls :=
  { RestoreCalls.ok with
    listBackups := fun backups _ ↦ .ok backups.reverse
    listBackups_perm := fun _ _ _ h ↦ Except.ok.inj h ▸ List.reverse_perm _ }

/-- **A lagging listing gives a category two velero restores.** Two runs of the first reconcile
and a reconcile whose listing predates its creations. In one, velero takes a newer
managed-clusters backup in between, which the second reconcile selects and restores before the
credentials `Create` fails on the existing name. In the other the backups stay fixed: three
resources backups, the middle one not started, listed in creation order and then in reverse, and
the two sorts pick different backups. -/
theorem reachable_two_restores_of_category :
    (∃ w, RestoreReachable insertionSort true true w ∧
      w.ownedNames =
        [(.managedClusters, "restore-acm-acm-managed-clusters-schedule-20210910181336"),
          (.credentials, "restore-acm-acm-credentials-schedule-20210910181336"),
          (.resources, "restore-acm-acm-resources-schedule-20210910181336"),
          (.managedClusters, "restore-acm-acm-managed-clusters-schedule-20210910191336")]) ∧
      ∃ w, RestoreReachable insertionSort true false w ∧
        w.ownedNames =
          [(.resources, "restore-acm-acm-resources-schedule-20210910181336"),
            (.resources, "restore-acm-acm-resources-schedule-20210910191336")] := by
  let newer : Velero.Backup :=
    ⟨"acm-managed-clusters-schedule-20210910191336", [], "Completed", 0,
      some (Time.ofSeconds 1631301216)⟩
  let w₁ := (reconcileRestore insertionSort RestoreCalls.ok ⟨restoreAcm, [], hourlyBackups⟩).1
  have r₁ : RestoreReachable insertionSort true true w₁ :=
    .step (.init _ _) (.reconcile _ _ (List.Perm.refl _) rfl)
  have r₂ :
      RestoreReachable insertionSort true true { w₁ with backups := w₁.backups ++ [newer] } :=
    .step r₁ (.backup _ newer rfl)
  let resources : List Velero.Backup :=
    [⟨"acm-resources-schedule-20210910181336", [], "Completed", 0,
        some (Time.ofSeconds 1631297616)⟩,
      ⟨"acm-resources-schedule-20210910184336", [], "New", 0, none⟩,
      ⟨"acm-resources-schedule-20210910191336", [], "Completed", 0,
        some (Time.ofSeconds 1631301216)⟩]
  have s₁ : RestoreReachable insertionSort true false
      (reconcileRestore insertionSort RestoreCalls.ok ⟨restoreAcm, [], resources⟩).1 :=
    .step (.init _ _) (.reconcile _ _ (List.Perm.refl _) rfl)
  exact ⟨⟨_, .step r₂ (.reconcileStale RestoreCalls.ok _ 0 rfl (List.Perm.refl _) rfl),
    by decide⟩, ⟨_, .step s₁ (.reconcileStale RestoreCalls.reversed _ 0 rfl (List.Perm.refl _) rfl),
    by decide⟩⟩

/-! ## Fixed started backups: a lagging listing is harmless -/

/-- The backups over which the selection ignores the listing's order: for every category, every
related backup has started, and related backups alike in error count and start time share a
name. -/
def SelectionIgnoresOrder (backups : List Velero.Backup) : Prop :=
  ∀ c, (∀ b ∈ relatedBackups backups c, b.startTimestamp.isSome) ∧
    ∀ b ∈ relatedBackups backups c, ∀ b' ∈ relatedBackups backups c,
      b.errors = b'.errors → b.startTimestamp = b'.startTimestamp → b.name = b'.name

/-- Every owned velero restore is the velero restore of its category over the backups there are,
and no two share a name. -/
def NamedAfterSelection (w : RestoreWorld) : Prop :=
  (w.owned.map (·.2.name)).Nodup ∧
    ∀ p ∈ w.owned, IsVeleroRestoreFor sort w.restore (fun _ ↦ .ok w.backups) p

section Started

variable {sort} (hsort : SortContract sort)
include hsort

/-- Over such backups, a velero restore selected on any answer of a reconcile's calls is the one
selected over the backups as they are. -/
theorem isVeleroRestoreFor_of_ignoresOrder {w : RestoreWorld}
    (hstable : SelectionIgnoresOrder w.backups) (calls : RestoreCalls) {restore : Restore}
    {p : ResourceType × Velero.Restore}
    (h : IsVeleroRestoreFor sort restore (calls.listBackups w.backups) p) :
    IsVeleroRestoreFor sort restore (fun _ ↦ .ok w.backups) p := by
  obtain ⟨l, hl, hsel⟩ := getVeleroBackupNameCall_eq_ok sort h.1
  exact ⟨(getVeleroBackupName_congr_perm hsort restore (calls.listBackups_perm _ _ _ hl)
    (hstable p.1).1 (hstable p.1).2).symm.trans hsel, h.2⟩

/-- Over such backups, whatever it lists, a reconcile keeps every owned velero restore named after
its category's selection. -/
theorem namedAfterSelection_reconcile {w : RestoreWorld} (hstable : SelectionIgnoresOrder w.backups)
    (calls : RestoreCalls) (hw : NamedAfterSelection sort w) :
    NamedAfterSelection sort (reconcileRestore sort calls w).1 := by
  obtain ⟨hspec, hname⟩ := reconcileRestore_restore sort calls w
  have hfor : ∀ p, IsVeleroRestoreFor sort w.restore (fun _ ↦ .ok w.backups) p →
      IsVeleroRestoreFor sort (reconcileRestore sort calls w).1.restore
        (fun _ ↦ .ok (reconcileRestore sort calls w).1.backups) p := fun p ⟨h₁, h₂⟩ ↦
    ⟨by rw [reconcileRestore_backups, getVeleroBackupNameCall_congr hspec]; exact h₁,
      hname ▸ h₂⟩
  rw [NamedAfterSelection, reconcileRestore_owned]
  split_ifs
  · obtain ⟨created, h, -, hcreated, hnodup, -⟩ := initVeleroRestores_spec sort calls.create
      (calls.listBackups w.backups) calls.order w.owned w.restore
    rw [h]
    refine ⟨hnodup hw.1, fun p hp ↦ hfor p ?_⟩
    rcases List.mem_append.1 hp with hp | hp
    · exact hw.2 p hp
    · exact isVeleroRestoreFor_of_ignoresOrder hsort hstable calls (hcreated p hp)
  · exact ⟨hw.1, fun p hp ↦ hfor p (hw.2 p hp)⟩

omit hsort in
theorem restoreStep_backups {stale : Bool} {w w' : RestoreWorld}
    (h : RestoreStep sort stale false w w') : w'.backups = w.backups := by
  cases h with
  | reconcile calls => exact reconcileRestore_backups sort calls w
  | reconcileStale calls => exact reconcileRestore_backups sort calls w
  | engine => rfl
  | backup | updateBackup | deleteBackup => contradiction

theorem namedAfterSelection_step {stale : Bool} {w w' : RestoreWorld}
    (h : RestoreStep sort stale false w w') (hstable : SelectionIgnoresOrder w.backups)
    (hw : NamedAfterSelection sort w) : NamedAfterSelection sort w' := by
  cases h with
  | reconcile calls => exact namedAfterSelection_reconcile hsort hstable calls hw
  | reconcileStale calls => exact namedAfterSelection_reconcile hsort hstable calls hw
  | engine _ pre post p phase h =>
    rw [NamedAfterSelection, h] at hw
    exact ⟨map_name_setPhase ▸ hw.1, forall_mem_setPhase Iff.rfl hw.2⟩
  | backup | updateBackup | deleteBackup => contradiction

end Started

/-- Velero restores named after their categories' selections, no two alike, are of distinct
categories: the name is a function of the category. -/
theorem map_fst_nodup_of_namedAfterSelection {w : RestoreWorld}
    (hw : NamedAfterSelection sort w) : (w.owned.map Prod.fst).Nodup := by
  let nameFor : ResourceType → String := fun c ↦
    w.restore.name ++ "-" ++ ((getVeleroBackupName sort w.restore w.backups c).toOption.getD "")
  have hmap : w.owned.map (·.2.name) = (w.owned.map Prod.fst).map nameFor := by
    rw [List.map_map]
    refine List.map_congr_left fun p hp ↦ ?_
    obtain ⟨hsel, hname⟩ := hw.2 p hp
    simp only [getVeleroBackupNameCall_ok] at hsel
    simp [nameFor, hsel, hname, Except.toOption]
  exact List.Nodup.of_map nameFor (hmap ▸ hw.1)

/-- **Over fixed backups that have all started, a lagging listing is harmless.** For every sort
meeting Go's contract, in every world a run reaches in which listings of the owned velero restores
may lag but the backups stay as they are, when every related backup of every category has started
and related backups alike in error count and start time share a name, no two owned velero restores
are of the same category, whatever each velero-backup call answers and in whatever order it lists
the backups. -/
theorem one_velero_restore_per_category_of_started (hsort : SortContract sort) {w : RestoreWorld}
    (hrun : RestoreReachable sort true false w) (hstable : SelectionIgnoresOrder w.backups) :
    (w.owned.map Prod.fst).Nodup := by
  apply map_fst_nodup_of_namedAfterSelection sort
  induction hrun with
  | init => exact ⟨List.nodup_nil, fun _ h ↦ absurd h (List.not_mem_nil _)⟩
  | step _ hs ih =>
    have hb := restoreStep_backups hs
    exact namedAfterSelection_step hsort hs (hb ▸ hstable) (ih (hb ▸ hstable))

/-- The theorem over the first reconcile and a reconcile whose listing predates it and whose calls
list the backups in reverse. -/
theorem one_velero_restore_per_category_of_started_reversed :
    let w₁ := (reconcileRestore insertionSort RestoreCalls.ok ⟨restoreAcm, [], hourlyBackups⟩).1
    let w := (reconcileRestore insertionSort RestoreCalls.reversed w₁).1
    SortContract (insertionSort (α := Velero.Backup)) ∧
      RestoreReachable insertionSort true false w ∧ SelectionIgnoresOrder w.backups ∧
      (w.owned.map Prod.fst).Nodup :=
  have hrun : RestoreReachable insertionSort true false _ :=
    .step (.step (.init restoreAcm hourlyBackups) (.reconcile RestoreCalls.ok _ (List.Perm.refl _)
      rfl)) (.reconcileStale RestoreCalls.reversed _ 0 rfl (List.Perm.refl _) rfl)
  have hstable : SelectionIgnoresOrder hourlyBackups := fun c ↦ by cases c <;> decide
  ⟨insertionSort_sortContract, hrun, hstable,
    one_velero_restore_per_category_of_started insertionSort insertionSort_sortContract hrun
      hstable⟩

/-! ## A failed creation is never resumed -/

/-- **A failed creation leaves categories unrestored for good.** With the backups fixed and every
listing current, the first reconcile creates the managed-clusters velero restore and then fails on
the credentials `Create`: the Restore owns one velero restore, the credentials backup is still
selectable, the status names none, and every later reconcile with a current listing keeps it
so. -/
theorem reachable_restore_missing_categories :
    ∃ w, RestoreReachable insertionSort false false w ∧
      w.owned.map (fun p ↦ (p.1, p.2.name)) =
        [(.managedClusters, "restore-acm-acm-managed-clusters-schedule-20210910181336")] ∧
      getVeleroBackupName insertionSort w.restore w.backups .credentials =
        .ok "acm-credentials-schedule-20210910181336" ∧
      w.restore.status.veleroRestoreName .managedClusters = "" ∧
      ∀ calls : RestoreCalls, calls.listed = w.owned.map Prod.snd →
        (reconcileRestore insertionSort calls w).1.owned = w.owned := by
  let calls : RestoreCalls := { RestoreCalls.ok with
    create := fun c ↦ if c = .credentials then some "etcdserver: request timed out" else none }
  refine ⟨_, .step (.init restoreAcm hourlyBackups) (.reconcile calls _ (List.Perm.refl _) rfl),
    by decide, by decide, by decide, fun calls' h ↦ ?_⟩
  rw [reconcileRestore_owned, if_neg fun hc ↦ absurd (h ▸ hc.2) (by decide)]

/-! ## Categories read from names -/

/-- **The category read from a name is wrong both ways.** A Restore named
`restore-acm-managed-clusters-schedule`, over one completed credentials backup: once velero has
finished its one velero restore, a credentials one, no reconcile with a current listing sets
`Complete`. A Restore naming the managed-clusters backup `hub-a-managed-clusters`, over that
backup alone: once velero has finished its one velero restore, a managed-clusters one, a reconcile
sets `Complete`. -/
theorem restore_category_misread :
    (∃ w, RestoreReachable insertionSort false false w ∧
      w.owned.map (fun p ↦ (p.1, p.2.phase)) = [(.credentials, Velero.restorePhaseCompleted)] ∧
      ∀ calls : RestoreCalls, calls.listed = w.owned.map Prod.snd →
        conditionStatus (reconcileRestore insertionSort calls w).1.restore.status.conditions
          restoreComplete = none) ∧
      ∃ w, RestoreReachable insertionSort false false w ∧
        w.owned.map (fun p ↦ (p.1, p.2.phase)) =
          [(.managedClusters, Velero.restorePhaseCompleted)] ∧
        conditionStatus w.restore.status.conditions restoreComplete = some .conditionTrue := by
  let misnamed : Restore :=
    ⟨"open-cluster-management-backup", "restore-acm-managed-clusters-schedule", {}, {}⟩
  let credentials : Velero.Backup := ⟨"acm-credentials-schedule-20210910181336", [], "Completed",
    0, some (Time.ofSeconds 1631297616)⟩
  let explicit : Restore := ⟨"open-cluster-management-backup", "restore-acm",
    { veleroManagedClustersBackupName := some "hub-a-managed-clusters" }, {}⟩
  let named : Velero.Backup :=
    ⟨"hub-a-managed-clusters", [], "Completed", 0, some (Time.ofSeconds 1631297616)⟩
  -- each Restore's first reconcile creates one velero restore, which velero then finishes
  have h₁ : (reconcileRestore insertionSort RestoreCalls.ok ⟨misnamed, [], [credentials]⟩).1.owned =
      [] ++ (.credentials, ⟨misnamed.name ++ "-" ++ credentials.name, credentials.name, ""⟩) ::
        [] := by
    decide
  have h₂ : (reconcileRestore insertionSort RestoreCalls.ok ⟨explicit, [], [named]⟩).1.owned =
      [] ++ (.managedClusters, ⟨explicit.name ++ "-" ++ named.name, named.name, ""⟩) :: [] :=
    by decide
  have r₁ : RestoreReachable insertionSort false false _ :=
    .step (.step (.init _ _) (.reconcile RestoreCalls.ok _ (List.Perm.refl _) rfl))
      (.engine _ [] [] _ Velero.restorePhaseCompleted h₁)
  have r₂ : RestoreReachable insertionSort false false _ :=
    .step (.step (.init _ _) (.reconcile RestoreCalls.ok _ (List.Perm.refl _) rfl))
      (.engine _ [] [] _ Velero.restorePhaseCompleted h₂)
  refine ⟨⟨_, r₁, by decide, fun calls hl ↦ ?_⟩, _,
    .step r₂ (.reconcile { RestoreCalls.ok with listed := _ } _ (List.Perm.refl _) rfl),
    by decide, by decide⟩
  -- the status loop passes over the finished credentials restore
  rcases reconcileRestore_world insertionSort calls _ with h | ⟨-, hnil, -⟩ | ⟨-, -, h⟩
  · rw [h]
    decide
  · exact absurd (hl.symm.trans hnil) (by decide)
  · rw [h]
    cases calls.update <;>
      simp only [RestoreWorld.persist, Restore.withConditions, restoreConditionsLoop_complete, hl]
    all_goals decide

/-! ## The status names only owned velero restores -/

/-- A property of the velero restores and the Restore that every creation keeps holds of what
`initVeleroRestores` leaves: a skipped category and a failed `Create` leave both as they were. -/
theorem initVeleroRestores_induction
    (P : List (ResourceType × Velero.Restore) → Restore → Prop)
    (create : ResourceType → Option String)
    (answer : ResourceType → Except String (List Velero.Backup))
    (hcreate : ∀ owned restore key b, P owned restore →
      P (owned ++ [(key, ⟨restore.name ++ "-" ++ b, b, ""⟩)])
        (recordVeleroRestore restore key (restore.name ++ "-" ++ b)))
    (order : List ResourceType) :
    ∀ owned restore, P owned restore →
      P (initVeleroRestores sort create answer order owned restore).1
        (initVeleroRestores sort create answer order owned restore).2.1 := by
  induction order with
  | nil => exact fun _ _ h ↦ h
  | cons key keys ih =>
    intro owned restore h
    cases hsel : getVeleroBackupNameCall sort restore (answer key) key with
    | error e => simpa only [initVeleroRestores, hsel] using ih owned restore h
    | ok b =>
      cases hc : createError owned (create key) (restore.name ++ "-" ++ b) with
      | some err => simpa only [initVeleroRestores, hsel, hc] using h
      | none =>
        simpa only [initVeleroRestores, hsel, hc] using ih _ _ (hcreate owned restore key b h)

/-- Each status field `initVeleroRestores` leaves holds what it held, or the name of a velero
restore of its category that the loop leaves. -/
theorem initVeleroRestores_veleroRestoreName (create : ResourceType → Option String)
    (answer : ResourceType → Except String (List Velero.Backup)) (order : List ResourceType)
    (owned : List (ResourceType × Velero.Restore)) (restore : Restore) (c : ResourceType) :
    (initVeleroRestores sort create answer order owned restore).2.1.status.veleroRestoreName c =
        restore.status.veleroRestoreName c ∨
      (c, (initVeleroRestores sort create answer order owned restore).2.1.status.veleroRestoreName
        c) ∈ (initVeleroRestores sort create answer order owned restore).1.map
          fun p ↦ (p.1, p.2.name) := by
  refine initVeleroRestores_induction sort (fun owned' restore' ↦ ∀ c,
    restore'.status.veleroRestoreName c = restore.status.veleroRestoreName c ∨
      (c, restore'.status.veleroRestoreName c) ∈ owned'.map fun p ↦ (p.1, p.2.name))
    create answer ?_ order owned restore (fun _ ↦ .inl rfl) c
  intro owned' restore' key b h c
  rw [recordVeleroRestore_veleroRestoreName]
  split_ifs with hk
  · exact .inr (by simp [hk])
  · exact (h c).imp_right fun h ↦ by simp only [List.map_append, List.mem_append]; exact .inl h

/-- `initVeleroRestores` sets no condition but `Started`. -/
theorem initVeleroRestores_complete (create : ResourceType → Option String)
    (answer : ResourceType → Except String (List Velero.Backup)) (order : List ResourceType)
    (owned : List (ResourceType × Velero.Restore)) (restore : Restore) :
    conditionStatus
        (initVeleroRestores sort create answer order owned restore).2.1.status.conditions
        restoreComplete =
      conditionStatus restore.status.conditions restoreComplete :=
  initVeleroRestores_induction sort
    (fun _ restore' ↦ conditionStatus restore'.status.conditions restoreComplete =
      conditionStatus restore.status.conditions restoreComplete)
    create answer (fun _ _ _ _ h ↦ by
      simpa [recordVeleroRestore, conditionStatus_setStatusCondition, restoreStarted,
        restoreComplete] using h)
    order owned restore rfl

/-- A reconcile keeps every owned velero restore as it was named, and adds new ones after them. -/
theorem ownedNames_prefix_reconcile (calls : RestoreCalls) (w : RestoreWorld) :
    w.ownedNames <+: (reconcileRestore sort calls w).1.ownedNames := by
  rw [RestoreWorld.ownedNames, RestoreWorld.ownedNames, reconcileRestore_owned]
  split_ifs
  · obtain ⟨created, h, -⟩ := initVeleroRestores_spec sort calls.create
      (calls.listBackups w.backups) calls.order w.owned w.restore
    rw [h, List.map_append]
    exact List.prefix_append _ _
  · exact List.prefix_refl _

/-- A reconcile leaves each status field as it was, or naming an owned velero restore of its
category. -/
theorem reconcileRestore_veleroRestoreName (calls : RestoreCalls) (w : RestoreWorld)
    (c : ResourceType) :
    (reconcileRestore sort calls w).1.restore.status.veleroRestoreName c =
        w.restore.status.veleroRestoreName c ∨
      (c, (reconcileRestore sort calls w).1.restore.status.veleroRestoreName c) ∈
        (reconcileRestore sort calls w).1.ownedNames := by
  rcases reconcileRestore_world sort calls w with h | ⟨-, -, h | ⟨-, h⟩⟩ | ⟨-, -, h⟩ <;> rw [h]
  · exact .inl rfl
  · exact .inl rfl
  · cases calls.update
    · exact initVeleroRestores_veleroRestoreName sort _ _ _ _ _ c
    · exact .inl rfl
  · cases calls.update <;> exact .inl rfl

/-- A reconcile leaves `Complete` as it was, or sets it true. -/
theorem reconcileRestore_complete (calls : RestoreCalls) (w : RestoreWorld) :
    conditionStatus (reconcileRestore sort calls w).1.restore.status.conditions restoreComplete =
        conditionStatus w.restore.status.conditions restoreComplete ∨
      conditionStatus (reconcileRestore sort calls w).1.restore.status.conditions restoreComplete =
        some .conditionTrue := by
  rcases reconcileRestore_world sort calls w with h | ⟨-, -, h | ⟨-, h⟩⟩ | ⟨-, -, h⟩ <;> rw [h]
  · exact .inl rfl
  · exact .inl rfl
  · cases calls.update
    · exact .inl (initVeleroRestores_complete sort _ _ _ _ _)
    · exact .inl rfl
  · cases calls.update
    · -- the status loop sets `Complete` to true or leaves it
      simp only [RestoreWorld.persist, Restore.withConditions, restoreConditionsLoop_complete]
      split_ifs
      · exact .inr rfl
      · exact .inl rfl
    · exact .inl rfl

section Step

variable {stale backupsChange : Bool} {w w' : RestoreWorld}

theorem restoreStep_ownedNames (h : RestoreStep sort stale backupsChange w w') :
    w.ownedNames <+: w'.ownedNames := by
  cases h with
  | reconcile calls => exact ownedNames_prefix_reconcile sort calls w
  | reconcileStale calls => exact ownedNames_prefix_reconcile sort calls w
  | engine _ pre post p phase h => simp [RestoreWorld.ownedNames, h]
  | backup | updateBackup | deleteBackup => exact List.prefix_refl _

theorem restoreStep_veleroRestoreName (h : RestoreStep sort stale backupsChange w w')
    (c : ResourceType) :
    w'.restore.status.veleroRestoreName c = w.restore.status.veleroRestoreName c ∨
      (c, w'.restore.status.veleroRestoreName c) ∈ w'.ownedNames := by
  cases h with
  | reconcile calls => exact reconcileRestore_veleroRestoreName sort calls w c
  | reconcileStale calls => exact reconcileRestore_veleroRestoreName sort calls w c
  | engine => exact .inl rfl
  | backup | updateBackup | deleteBackup => exact .inl rfl

theorem restoreStep_complete (h : RestoreStep sort stale backupsChange w w') :
    conditionStatus w'.restore.status.conditions restoreComplete =
        conditionStatus w.restore.status.conditions restoreComplete ∨
      conditionStatus w'.restore.status.conditions restoreComplete = some .conditionTrue := by
  cases h with
  | reconcile calls => exact reconcileRestore_complete sort calls w
  | reconcileStale calls => exact reconcileRestore_complete sort calls w
  | engine => exact .inl rfl
  | backup | updateBackup | deleteBackup => exact .inl rfl

end Step

/-- **The status names only velero restores the Restore owns.** Along every run, with any failed
`Create` and status `Update`, any visit orders, lagging listings, new backups and velero phase
changes, no owned velero restore is removed or renamed, and each status field for a category's
velero restore holds what it held when the run started or names an owned velero restore of that
category. -/
theorem veleroRestoreName_owned_along_run {stale backupsChange : Bool} {w₀ w : RestoreWorld}
    (hrun : Relation.ReflTransGen (RestoreStep sort stale backupsChange) w₀ w) :
    w₀.ownedNames <+: w.ownedNames ∧ ∀ c,
      w.restore.status.veleroRestoreName c = w₀.restore.status.veleroRestoreName c ∨
        (c, w.restore.status.veleroRestoreName c) ∈ w.ownedNames := by
  induction hrun with
  | refl => exact ⟨List.prefix_refl _, fun _ ↦ .inl rfl⟩
  | tail _ hs ih =>
    have hpre := restoreStep_ownedNames sort hs
    refine ⟨ih.1.trans hpre, fun c ↦ ?_⟩
    rcases restoreStep_veleroRestoreName sort hs c with h | h
    · rw [h]
      exact (ih.2 c).imp_right fun h' ↦ hpre.subset h'
    · exact .inr h

/-- The theorem over a run's first reconcile. -/
theorem veleroRestoreName_owned_along_run_hourly :
    let w₀ : RestoreWorld := ⟨restoreAcm, [], hourlyBackups⟩
    let w := (reconcileRestore insertionSort RestoreCalls.ok w₀).1
    Relation.ReflTransGen (RestoreStep insertionSort false false) w₀ w ∧
      w₀.ownedNames <+: w.ownedNames ∧ ∀ c,
        w.restore.status.veleroRestoreName c = w₀.restore.status.veleroRestoreName c ∨
          (c, w.restore.status.veleroRestoreName c) ∈ w.ownedNames :=
  have hrun : Relation.ReflTransGen (RestoreStep insertionSort false false)
      ⟨restoreAcm, [], hourlyBackups⟩
      (reconcileRestore insertionSort RestoreCalls.ok ⟨restoreAcm, [], hourlyBackups⟩).1 :=
    .single (.reconcile RestoreCalls.ok _ (List.Perm.refl _) rfl)
  ⟨hrun, veleroRestoreName_owned_along_run insertionSort hrun⟩

/-! ## `Complete` is never withdrawn -/

/-- **`Complete` is never withdrawn.** Along every run, with any failed `Create` and status
`Update`, any visit orders, lagging listings, new backups and velero phase changes, the Restore's
`Complete` condition has the status it had when the run started, or is true: no reconcile sets it
false or unknown or removes it, so once true it stays true. -/
theorem restoreComplete_never_withdrawn {stale backupsChange : Bool} {w₀ w : RestoreWorld}
    (hrun : Relation.ReflTransGen (RestoreStep sort stale backupsChange) w₀ w) :
    conditionStatus w.restore.status.conditions restoreComplete =
        conditionStatus w₀.restore.status.conditions restoreComplete ∨
      conditionStatus w.restore.status.conditions restoreComplete = some .conditionTrue := by
  induction hrun with
  | refl => exact .inl rfl
  | tail _ hs ih =>
    rcases restoreStep_complete sort hs with h | h
    · rw [h]
      exact ih
    · exact .inr h

/-- The theorem over a run's first reconcile. -/
theorem restoreComplete_never_withdrawn_hourly :
    let w₀ : RestoreWorld := ⟨restoreAcm, [], hourlyBackups⟩
    let w := (reconcileRestore insertionSort RestoreCalls.ok w₀).1
    Relation.ReflTransGen (RestoreStep insertionSort false false) w₀ w ∧
      (conditionStatus w.restore.status.conditions restoreComplete =
          conditionStatus w₀.restore.status.conditions restoreComplete ∨
        conditionStatus w.restore.status.conditions restoreComplete = some .conditionTrue) :=
  have hrun : Relation.ReflTransGen (RestoreStep insertionSort false false)
      ⟨restoreAcm, [], hourlyBackups⟩
      (reconcileRestore insertionSort RestoreCalls.ok ⟨restoreAcm, [], hourlyBackups⟩).1 :=
    .single (.reconcile RestoreCalls.ok _ (List.Perm.refl _) rfl)
  ⟨hrun, restoreComplete_never_withdrawn insertionSort hrun⟩

/-! ## With current listings the velero restores are made once -/

/-- A reconcile whose listing is current leaves the velero restores of a Restore that owns some as
they are. -/
theorem reconcileRestore_owned_of_current {calls : RestoreCalls} {w : RestoreWorld}
    (hlisted : calls.listed = w.owned.map Prod.snd) (hw : w.owned ≠ []) :
    (reconcileRestore sort calls w).1.owned = w.owned := by
  rw [reconcileRestore_owned, if_neg fun hc ↦ hw (by simpa [hlisted] using hc.2)]

theorem restoreStep_ownedNames_of_current {backupsChange : Bool} {w w' : RestoreWorld}
    (h : RestoreStep sort false backupsChange w w') (hw : w.owned ≠ []) :
    w'.ownedNames = w.ownedNames ∧ w'.owned ≠ [] := by
  cases h with
  | reconcile calls _ _ hlisted =>
    rw [RestoreWorld.ownedNames, RestoreWorld.ownedNames,
      reconcileRestore_owned_of_current sort hlisted hw]
    exact ⟨rfl, hw⟩
  | reconcileStale _ _ _ hstale => cases hstale
  | engine _ pre post p phase h => exact ⟨by simp [RestoreWorld.ownedNames, h], by simp⟩
  | backup | updateBackup | deleteBackup => exact ⟨rfl, hw⟩

/-- **With current listings a Restore's velero restores are made once.** Along every run in which
every listing is current, with any failed `Create` and status `Update`, any visit orders, new
backups and velero phase changes, a Restore that owns a velero restore never gains, loses or
renames one: the first reconcile that creates one is the last that creates any. -/
theorem ownedNames_fixed_of_current {backupsChange : Bool} {w₀ w : RestoreWorld}
    (hrun : Relation.ReflTransGen (RestoreStep sort false backupsChange) w₀ w)
    (hw₀ : w₀.owned ≠ []) :
    w.ownedNames = w₀.ownedNames := by
  suffices w.ownedNames = w₀.ownedNames ∧ w.owned ≠ [] from this.1
  induction hrun with
  | refl => exact ⟨rfl, hw₀⟩
  | tail _ hs ih =>
    obtain ⟨hnames, hne⟩ := restoreStep_ownedNames_of_current sort hs ih.2
    exact ⟨hnames.trans ih.1, hne⟩

/-- The theorem after a run's first reconcile, over a newer backup and a second reconcile. -/
theorem ownedNames_fixed_of_current_newerBackup :
    let w₀ := (reconcileRestore insertionSort RestoreCalls.ok ⟨restoreAcm, [], hourlyBackups⟩).1
    let newer : Velero.Backup := ⟨"acm-managed-clusters-schedule-20210910191336", [], "Completed",
      0, some (Time.ofSeconds 1631301216)⟩
    let w₁ : RestoreWorld := { w₀ with backups := w₀.backups ++ [newer] }
    let w := (reconcileRestore insertionSort
      { RestoreCalls.ok with listed := w₁.owned.map Prod.snd } w₁).1
    Relation.ReflTransGen (RestoreStep insertionSort false true) w₀ w ∧ w₀.owned ≠ [] ∧
      w.ownedNames = w₀.ownedNames :=
  have hrun : Relation.ReflTransGen (RestoreStep insertionSort false true) _ _ :=
    .tail (.single (.backup _ _ rfl)) (.reconcile _ _ (List.Perm.refl _) rfl)
  have hw₀ :
      (reconcileRestore insertionSort RestoreCalls.ok ⟨restoreAcm, [], hourlyBackups⟩).1.owned ≠
        [] := by decide
  ⟨hrun, hw₀, ownedNames_fixed_of_current insertionSort hrun hw₀⟩

end ClusterBackup
