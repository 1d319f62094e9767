import ClusterBackup.Restore.Select
import Mathlib.Data.List.Nodup

/-!
# The Restore reconciler

`RestoreReconciler.Reconcile` as a function of the world it acts on: the stored Restore, the velero
restores it owns and the velero backups of its namespace. As for the schedule controller, what
the API server answers is an input, `RestoreCalls`: the listing of the owned velero restores, the
answer to each category's `Get` or `List` of the velero backups, the outcome of each `Create` and
of the status `Update`, and the order Go's `range` visits the categories in.

## Listings come from a cache

The controller's client reads from an informer cache. Its listing of the owned velero restores may
lag behind creations, and the run model says when it may. Its answers about the velero backups are
taken to be current, but each call lists them in an order of its own, which need not be the order
they were created in, or fails: `RestoreCalls.listBackups` gives each category's answer, and its
field `listBackups_perm` is what an answer promises, every backup there is, once.

## Two branches

When the listing is empty, `initVeleroRestores` creates a velero restore for each category whose
backup `getVeleroBackupName` finds, named `Restore.Name + "-" + backup`, and records it in the
status; its first failed `Create` ends the reconcile before the status is stored. A category
whose selection fails, for want of a backup or because its call failed, is skipped. Otherwise the
status loop classifies every listed velero restore and sets the `Started` and `Complete`
conditions.

## The status loop is a last write

Each iteration overwrites the condition of its type, so the loop leaves on `Complete` the value
`True` as soon as one listed restore is finished and not a managed-clusters one, and on `Started`
the value of the *last* listed restore that is not finished: `True` if it is running, `False` if
velero has not picked it up yet (`restoreConditionsLoop_status`). The first is independent of the
listing's order, the second is not (`restoreConditionsLoop_depends_on_order`).

## Categories are decoded from names

The status loop recognises a managed-clusters restore by the managed-clusters schedule name
occurring in its name, which is the Restore's name followed by the backup's. An automatically
selected managed-clusters backup always carries that name, so its restore is recognised
(`initVeleroRestores_managedClusters_recognised`); a Restore whose own name carries it makes every
restore look like one, and an explicitly named backup need not carry it; the runs of
`restore_category_misread` show what each does to `Complete`.
-/

namespace ClusterBackup

open scoped List

/-! ## Velero restore phases -/

/-- Modelled from the spec and `restore_test.go`: `isVeleroRestoreFinished` is not under src. A
velero restore is finished once velero has moved it past `New` and `InProgress`; a nil one is
not. -/
def isVeleroRestoreFinished : Option Velero.Restore → Bool
  | none => false
  | some r => !(r.phase == "" || r.phase == Velero.restorePhaseNew ||
      r.phase == Velero.restorePhaseInProgress)

/-- Modelled from the spec and `restore_test.go`: `isVeleroRestoreRunning` is not under src. A
velero restore is running in `New` and `InProgress`; a nil one is not. -/
def isVeleroRestoreRunning : Option Velero.Restore → Bool
  | none => false
  | some r => r.phase == Velero.restorePhaseNew || r.phase == Velero.restorePhaseInProgress

/-- A running restore is not finished: the two cases of the status loop never overlap. -/
theorem not_finished_of_running {r : Option Velero.Restore} (h : isVeleroRestoreRunning r = true) :
    isVeleroRestoreFinished r = false := by
  cases r with
  | none => rfl
  | some r =>
    simp only [isVeleroRestoreRunning, Bool.or_eq_true, beq_iff_eq] at h
    rcases h with h | h <;> simp [isVeleroRestoreFinished, h]

example :
    isVeleroRestoreFinished none = false ∧
      isVeleroRestoreFinished (some ⟨"", "", Velero.restorePhaseCompleted⟩) = true ∧
      isVeleroRestoreFinished (some ⟨"", "", Velero.restorePhaseInProgress⟩) = false ∧
      isVeleroRestoreRunning none = false ∧
      isVeleroRestoreRunning (some ⟨"", "", Velero.restorePhaseNew⟩) = true ∧
      isVeleroRestoreRunning (some ⟨"", "", "Failed"⟩) = false := by
  decide

/-! ## The status of a Restore -/

/-- The status field naming the velero restore of a category. -/
def RestoreStatus.veleroRestoreName (status : RestoreStatus) : ResourceType → String
  | .managedClusters => status.veleroManagedClustersRestoreName
  | .credentials => status.veleroCredentialsRestoreName
  | .resources => status.veleroResourcesRestoreName

/-- The `switch key` of `initVeleroRestores`: set the status field of a category. -/
def RestoreStatus.setVeleroRestoreName (status : RestoreStatus) (key : ResourceType)
    (name : String) : RestoreStatus :=
  match key with
  | .managedClusters => { status with veleroManagedClustersRestoreName := name }
  | .credentials => { status with veleroCredentialsRestoreName := name }
  | .resources => { status with veleroResourcesRestoreName := name }

@[simp] theorem RestoreStatus.veleroRestoreName_setVeleroRestoreName (status : RestoreStatus)
    (key key' : ResourceType) (name : String) :
    (status.setVeleroRestoreName key name).veleroRestoreName key' =
      if key = key' then name else status.veleroRestoreName key' := by
  cases key <;> cases key' <;> rfl

@[simp] theorem RestoreStatus.setVeleroRestoreName_conditions (status : RestoreStatus)
    (key : ResourceType) (name : String) :
    (status.setVeleroRestoreName key name).conditions = status.conditions := by
  cases key <;> rfl

/-- The status of the condition of a type, if the list has one. -/
def conditionStatus (conditions : List Condition) (type : String) : Option ConditionStatus :=
  (findStatusCondition conditions type).map (·.status)

theorem conditionStatus_setStatusCondition (cs : List Condition) (c : Condition) (type : String) :
    conditionStatus (setStatusCondition cs c) type =
      if c.type = type then some c.status else conditionStatus cs type := by
  split_ifs with h
  · subst h
    simp [conditionStatus]
  · simp [conditionStatus, findStatusCondition_setStatusCondition_of_ne cs c h]

/-! ## The status loop -/

/-- The status loop's test for a managed-clusters restore: its name contains the managed-clusters
schedule name. -/
def isManagedClustersRestore (name : String) : Bool :=
  stringsContains name (veleroScheduleNames .managedClusters)

/-- One iteration of the status loop of `Reconcile`: a finished restore sets `Complete` unless it
is a managed-clusters one, a running one sets `Started` to true, and any other sets it to
false. -/
def updateRestoreConditions (conditions : List Condition) (veleroRestore : Velero.Restore) :
    List Condition :=
  if isVeleroRestoreFinished (some veleroRestore) then
    if !isManagedClustersRestore veleroRestore.name then
      setStatusCondition conditions ⟨restoreComplete, .conditionTrue, restoreReasonFinished,
        "Restore Complete " ++ veleroRestore.name⟩
    else conditions
  else if isVeleroRestoreRunning (some veleroRestore) then
    setStatusCondition conditions ⟨restoreStarted, .conditionTrue, restoreReasonRunning,
      "Velero Restore " ++ veleroRestore.name ++ " is running"⟩
  else
    setStatusCondition conditions ⟨restoreStarted, .conditionFalse, restoreReasonRunning,
      "Velero Restore " ++ veleroRestore.name ++ " is running"⟩

/-- The status loop over the listed velero restores, in the listing's order. -/
def restoreConditionsLoop (conditions : List Condition) (listed : List Velero.Restore) :
    List Condition :=
  listed.foldl updateRestoreConditions conditions

/-- A finished restore that is not a managed-clusters one: the restores that set `Complete`. -/
def completesRestore (veleroRestore : Velero.Restore) : Bool :=
  isVeleroRestoreFinished (some veleroRestore) && !isManagedClustersRestore veleroRestore.name

/-- The `Started` status a restore that is not finished sets. -/
def startedStatus (veleroRestore : Velero.Restore) : ConditionStatus :=
  if isVeleroRestoreRunning (some veleroRestore) then .conditionTrue else .conditionFalse

theorem updateRestoreConditions_complete (cs : List Condition) (vr : Velero.Restore) :
    conditionStatus (updateRestoreConditions cs vr) restoreComplete =
      if completesRestore vr then some .conditionTrue else conditionStatus cs restoreComplete := by
  unfold updateRestoreConditions completesRestore
  split_ifs <;> simp_all [conditionStatus_setStatusCondition, restoreStarted, restoreComplete]

theorem updateRestoreConditions_started (cs : List Condition) (vr : Velero.Restore) :
    conditionStatus (updateRestoreConditions cs vr) restoreStarted =
      if isVeleroRestoreFinished (some vr) then conditionStatus cs restoreStarted
      else some (startedStatus vr) := by
  unfold updateRestoreConditions startedStatus
  split_ifs <;> simp_all [conditionStatus_setStatusCondition, restoreStarted, restoreComplete]

/-- The loop leaves `Complete` true once some restore completes, and as it was otherwise. -/
theorem restoreConditionsLoop_complete (cs : List Condition) (listed : List Velero.Restore) :
    conditionStatus (restoreConditionsLoop cs listed) restoreComplete =
      if listed.any completesRestore then some .conditionTrue
      else conditionStatus cs restoreComplete := by
  induction listed using List.reverseRecOn with
  | nil => rfl
  | append_singleton l vr ih =>
    rw [restoreConditionsLoop, List.foldl_append, List.foldl_cons, List.foldl_nil,
      updateRestoreConditions_complete, ← restoreConditionsLoop, ih]
    by_cases hvr : completesRestore vr <;> simp [hvr]

/-- The loop leaves on `Started` the status of the last restore that is not finished, and the
status as it was when every restore is finished. -/
theorem restoreConditionsLoop_started (cs : List Condition) (listed : List Velero.Restore) :
    conditionStatus (restoreConditionsLoop cs listed) restoreStarted =
      ((listed.filter fun vr ↦ !isVeleroRestoreFinished (some vr)).getLast?.map startedStatus).or
        (conditionStatus cs restoreStarted) := by
  induction listed using List.reverseRecOn with
  | nil => rfl
  | append_singleton l vr ih =>
    rw [restoreConditionsLoop, List.foldl_append, List.foldl_cons, List.foldl_nil,
      updateRestoreConditions_started, ← restoreConditionsLoop, ih]
    by_cases hvr : isVeleroRestoreFinished (some vr) <;> simp [hvr]

/-- **What the status loop leaves on the two conditions.** For every listing and every prior
status: `Complete` is true when some listed restore is finished and not a managed-clusters one,
and as before otherwise, which does not depend on the listing's order; `Started` is the status of
the last listed restore that is not finished (true when running), and as before when there is
none. -/
theorem restoreConditionsLoop_status (cs : List Condition) (listed : List Velero.Restore) :
    conditionStatus (restoreConditionsLoop cs listed) restoreComplete =
        (if listed.any completesRestore then some .conditionTrue
          else conditionStatus cs restoreComplete) ∧
      (∀ listed', listed' ~ listed →
        conditionStatus (restoreConditionsLoop cs listed') restoreComplete =
          conditionStatus (restoreConditionsLoop cs listed) restoreComplete) ∧
      conditionStatus (restoreConditionsLoop cs listed) restoreStarted =
        ((listed.filter fun vr ↦ !isVeleroRestoreFinished (some vr)).getLast?.map
          startedStatus).or (conditionStatus cs restoreStarted) := by
  refine ⟨restoreConditionsLoop_complete cs listed, fun listed' hperm ↦ ?_,
    restoreConditionsLoop_started cs listed⟩
  have hany : listed'.any completesRestore = listed.any completesRestore :=
    Bool.eq_iff_iff.2 (by simp only [List.any_eq_true, hperm.mem_iff])
  rw [restoreConditionsLoop_complete, restoreConditionsLoop_complete, hany]

/-- **`Started` depends on the listing's order.** Two velero restores, one that velero is running
and one it has not picked up yet: listed one way the loop leaves `Started` false, listed the other
way true. -/
theorem restoreConditionsLoop_depends_on_order :
    let running : Velero.Restore := ⟨"restore-acm-acm-resources-schedule-20210910181336",
      "acm-resources-schedule-20210910181336", Velero.restorePhaseInProgress⟩
    let pending : Velero.Restore := ⟨"restore-acm-acm-credentials-schedule-20210910181336",
      "acm-credentials-schedule-20210910181336", ""⟩
    conditionStatus (restoreConditionsLoop [] [running, pending]) restoreStarted =
        some .conditionFalse ∧
      conditionStatus (restoreConditionsLoop [] [pending, running]) restoreStarted =
        some .conditionTrue := by
  decide

/-! ## Creating the velero restores -/

/-- The outcome of every API call one reconcile makes. -/
structure RestoreCalls where
  /-- The order in which `range veleroScheduleNames` visits the categories. -/
  order : List ResourceType
  /-- The error of `r.List` of the owned velero restores, if any. -/
  list : Option String
  /-- What a successful `r.List` of the owned velero restores returns: the cache's view of
  them. -/
  listed : List Velero.Restore
  /-- What the velero-backup call of each category's `getVeleroBackupName` answers, given the
  backups there are: an error, or the backups in the order the cache lists them for that call. -/
  listBackups : List Velero.Backup → ResourceType → Except String (List Velero.Backup)
  /-- An answer lists every backup there is, once. -/
  listBackups_perm : ∀ backups c l, listBackups backups c = .ok l → l ~ backups
  /-- The error of `r.Create` for the velero restore of each category, when its name is free. -/
  create : ResourceType → Option String
  /-- The error of `r.Client.Status().Update`, if any. -/
  update : Option String

/-- The calls of a reconcile in which nothing fails, the categories are visited in declaration
order, the listing of owned velero restores is empty and the backups are listed as they are. -/
def RestoreCalls.ok : RestoreCalls where
  order := resourceTypeKeys
  list := none
  listed := []
  listBackups backups _ := .ok backups
  listBackups_perm _ _ _ h := Except.ok.inj h ▸ List.Perm.refl _
  create _ := none
  update := none

/-- The text of the API server's `AlreadyExists` error for a velero restore. -/
def restoreAlreadyExists (name : String) : String :=
  "restores.velero.io \"" ++ name ++ "\" already exists"

/-- The API server's answer to `r.Create` of a velero restore: `AlreadyExists` when a velero
restore of that name exists, and otherwise what the environment decides. -/
def createError (existing : List (ResourceType × Velero.Restore)) (fault : Option String)
    (name : String) : Option String :=
  if existing.any (·.2.name == name) then some (restoreAlreadyExists name) else fault

/-- What `initVeleroRestores` records once a velero restore is created: its name in the
category's status field, and a `Started` condition. -/
def recordVeleroRestore (restore : Restore) (key : ResourceType) (name : String) : Restore :=
  { restore with
    status := { restore.status.setVeleroRestoreName key name with
      conditions := setStatusCondition restore.status.conditions
        ⟨restoreStarted, .conditionTrue, restoreReasonStarted,
          "Velero restore " ++ name ++ " started"⟩ } }

@[simp] theorem recordVeleroRestore_spec (restore : Restore) (key : ResourceType) (name : String) :
    (recordVeleroRestore restore key name).spec = restore.spec := rfl

@[simp] theorem recordVeleroRestore_name (restore : Restore) (key : ResourceType) (name : String) :
    (recordVeleroRestore restore key name).name = restore.name := rfl

@[simp] theorem recordVeleroRestore_namespaceName (restore : Restore) (key : ResourceType)
    (name : String) :
    (recordVeleroRestore restore key name).namespaceName = restore.namespaceName := rfl

@[simp] theorem recordVeleroRestore_veleroRestoreName (restore : Restore) (key c : ResourceType)
    (name : String) : (recordVeleroRestore restore key name).status.veleroRestoreName c =
      if key = c then name else restore.status.veleroRestoreName c := by
  cases key <;> cases c <;> rfl

/-- The backup a category restores is chosen from the Restore's spec alone. -/
theorem getVeleroBackupNameCall_congr
    {sort :
      (Velero.Backup → Velero.Backup → Bool) → List Velero.Backup → List Velero.Backup}
    {restore restore' : Restore} (h : restore'.spec = restore.spec)
    (answer : Except String (List Velero.Backup)) (key : ResourceType) :
    getVeleroBackupNameCall sort restore' answer key =
      getVeleroBackupNameCall sort restore answer key := by
  simp only [getVeleroBackupNameCall, getVeleroBackupName, h]

variable
  (sort : (Velero.Backup → Velero.Backup → Bool) → List Velero.Backup → List Velero.Backup)

/-- `initVeleroRestores`: for each category in the order given whose backup is found, create the
velero restore `Restore.Name + "-" + backup` and record it; the first failed `Create` ends the
loop with its error. `answer` is what each category's velero-backup call answers. Threads the
velero restores that exist, each with the category whose iteration created it, and returns them
with the Restore as the loop left it and the error. -/
def initVeleroRestores (create : ResourceType → Option String)
    (answer : ResourceType → Except String (List Velero.Backup)) :
    List ResourceType → List (ResourceType × Velero.Restore) → Restore →
      List (ResourceType × Velero.Restore) × Restore × Option String
  | [], owned, restore => (owned, restore, none)
  | key :: keys, owned, restore =>
    match getVeleroBackupNameCall sort restore (answer key) key with
    | .error _ => initVeleroRestores create answer keys owned restore
    | .ok veleroBackupName =>
      let veleroRestore : Velero.Restore :=
        ⟨restore.name ++ "-" ++ veleroBackupName, veleroBackupName, ""⟩
      match createError owned (create key) veleroRestore.name with
      | some err => (owned, restore, some err)
      | none => initVeleroRestores create answer keys (owned ++ [(key, veleroRestore)])
          (recordVeleroRestore restore key veleroRestore.name)

/-- What one Restore's reconciler acts on. -/
structure RestoreWorld where
  /-- The Restore as stored. -/
  restore : Restore
  /-- The velero restores whose controller the Restore is, each with the category whose loop
  iteration created it. The category is stored nowhere; it is kept for the statements. -/
  owned : List (ResourceType × Velero.Restore)
  /-- The velero backups of the Restore's namespace. -/
  backups : List Velero.Backup
deriving DecidableEq, Repr

/-- `r.Client.Status().Update(ctx, restore)`: a successful update stores the status of
`restore`; a failed one leaves the stored object as it was. -/
def RestoreWorld.persist (w : RestoreWorld) (restore : Restore) (update : Option String) :
    RestoreWorld :=
  match update with
  | none => { w with restore := restore }
  | some _ => w

@[simp] theorem RestoreWorld.persist_owned (w : RestoreWorld) (restore : Restore)
    (u : Option String) : (w.persist restore u).owned = w.owned := by
  cases u <;> rfl

@[simp] theorem RestoreWorld.persist_backups (w : RestoreWorld) (restore : Restore)
    (u : Option String) : (w.persist restore u).backups = w.backups := by
  cases u <;> rfl

/-- The Restore with the status loop run over a listing. -/
def Restore.withConditions (restore : Restore) (conditions : List Condition) : Restore :=
  { restore with status := { restore.status with conditions := conditions } }

/-- `RestoreReconciler.Reconcile`: the world after the call and the error it returns. The
`ctrl.Result` it returns is always empty. -/
def reconcileRestore (calls : RestoreCalls) (w : RestoreWorld) : RestoreWorld × Option String :=
  match calls.list with
  | some err => (w, some err)
  | none =>
    if calls.listed = [] then
      let r := initVeleroRestores sort calls.create (calls.listBackups w.backups) calls.order
        w.owned w.restore
      match r.2.2 with
      | some err => ({ w with owned := r.1 }, some err)
      | none => (({ w with owned := r.1 } : RestoreWorld).persist r.2.1 calls.update,
          errorsWrap calls.update ("could not update status for restore " ++
            r.2.1.namespaceName ++ "/" ++ r.2.1.name))
    else
      let restore := w.restore.withConditions
        (restoreConditionsLoop w.restore.status.conditions calls.listed)
      (w.persist restore calls.update, errorsWrap calls.update
        ("could not update status for restore " ++ restore.namespaceName ++ "/" ++ restore.name))

/-! ## What `initVeleroRestores` creates -/

/-- The velero restore of a category: named after the backup selected for it on the answer of its
call, and restoring that backup. -/
def IsVeleroRestoreFor (restore : Restore)
    (answer : ResourceType → Except String (List Velero.Backup))
    (p : ResourceType × Velero.Restore) : Prop :=
  getVeleroBackupNameCall sort restore (answer p.1) p.1 = .ok p.2.backupName ∧
    p.2.name = restore.name ++ "-" ++ p.2.backupName

/-- **The spec of `initVeleroRestores`.** It appends to the velero restores that exist, for
categories taken in the loop's order, each the velero restore of its category under a name no
other velero restore has; and it changes nothing of the Restore but its status. -/
theorem initVeleroRestores_spec (create : ResourceType → Option String)
    (answer : ResourceType → Except String (List Velero.Backup)) (order : List ResourceType)
    (owned : List (ResourceType × Velero.Restore)) (restore : Restore) :
    ∃ created,
      (initVeleroRestores sort create answer order owned restore).1 = owned ++ created ∧
      created.map Prod.fst <+ order ∧
      (∀ p ∈ created, IsVeleroRestoreFor sort restore answer p) ∧
      ((owned.map (·.2.name)).Nodup →
        ((owned ++ created).map (·.2.name)).Nodup) ∧
      (initVeleroRestores sort create answer order owned restore).2.1.spec = restore.spec ∧
      (initVeleroRestores sort create answer order owned restore).2.1.name = restore.name := by
  induction order generalizing owned restore with
  | nil => exact ⟨[], by simp [initVeleroRestores]⟩
  | cons key keys ih =>
    simp only [initVeleroRestores]
    split
    · obtain ⟨created, h, hsub, hfor, hnodup, hspec, hname⟩ := ih owned restore
      exact ⟨created, h, hsub.cons key, hfor, hnodup, hspec, hname⟩
    · rename_i b hb
      split
      · exact ⟨[], by simp⟩
      · rename_i hcreate
        obtain ⟨created, h, hsub, hfor, hnodup, hspec, hname⟩ :=
          ih (owned ++ [(key, ⟨restore.name ++ "-" ++ b, b, ""⟩)])
            (recordVeleroRestore restore key (restore.name ++ "-" ++ b))
        refine ⟨(key, ⟨restore.name ++ "-" ++ b, b, ""⟩) :: created, by simp [h],
          hsub.cons₂ key, ?_, fun hn ↦ ?_, by simpa using hspec, by simpa using hname⟩
        · intro p hp
          rcases List.mem_cons.1 hp with rfl | hp
          · exact ⟨hb, rfl⟩
          · obtain ⟨hp₁, hp₂⟩ := hfor p hp
            exact ⟨(getVeleroBackupNameCall_congr (by simp) _ _).symm.trans hp₁,
              by simpa using hp₂⟩
        · have hfree : restore.name ++ "-" ++ b ∉ owned.map (·.2.name) := by
            simp only [createError, List.any_eq_true, beq_iff_eq] at hcreate
            split_ifs at hcreate with hex
            simpa using hex
          rw [List.append_cons]
          refine hnodup ?_
          rw [List.map_append, List.map_singleton]
          exact hn.append (List.nodup_singleton _) (List.disjoint_singleton.2 hfree)

/-- The velero restore `initVeleroRestores` makes for a category whose backup is found. -/
def selectedVeleroRestore (restore : Restore)
    (answer : ResourceType → Except String (List Velero.Backup)) (key : ResourceType) :
    Option (ResourceType × Velero.Restore) :=
  match getVeleroBackupNameCall sort restore (answer key) key with
  | .ok b => some (key, ⟨restore.name ++ "-" ++ b, b, ""⟩)
  | .error _ => none

section Selected

variable {answer : ResourceType → Except String (List Velero.Backup)}

theorem selectedVeleroRestore_fst {restore : Restore} {key : ResourceType}
    {p : ResourceType × Velero.Restore}
    (h : selectedVeleroRestore sort restore answer key = some p) : p.1 = key := by
  unfold selectedVeleroRestore at h
  split at h <;> cases h
  rfl

/-- The selection reads only the Restore's spec and name. -/
theorem selectedVeleroRestore_congr {restore restore' : Restore}
    (hspec : restore'.spec = restore.spec) (hname : restore'.name = restore.name) :
    selectedVeleroRestore sort restore' answer = selectedVeleroRestore sort restore answer := by
  funext key
  simp only [selectedVeleroRestore, getVeleroBackupNameCall_congr hspec, hname]

theorem selectedVeleroRestore_eq_some {restore : Restore} {key : ResourceType}
    {p : ResourceType × Velero.Restore} :
    selectedVeleroRestore sort restore answer key = some p ↔
      ∃ b, getVeleroBackupNameCall sort restore (answer key) key = .ok b ∧
        p = (key, ⟨restore.name ++ "-" ++ b, b, ""⟩) := by
  unfold selectedVeleroRestore
  split <;> simp_all [eq_comm]

/-- A velero restore selected along a visit order is its category's selected velero restore. -/
theorem mem_filterMap_selectedVeleroRestore {restore : Restore} {order : List ResourceType}
    {p : ResourceType × Velero.Restore}
    (hp : p ∈ order.filterMap (selectedVeleroRestore sort restore answer)) :
    ∃ b, getVeleroBackupNameCall sort restore (answer p.1) p.1 = .ok b ∧
      p = (p.1, ⟨restore.name ++ "-" ++ b, b, ""⟩) := by
  obtain ⟨k, -, hk⟩ := List.mem_filterMap.1 hp
  obtain ⟨b, hb, rfl⟩ := (selectedVeleroRestore_eq_some sort).1 hk
  exact ⟨b, hb, rfl⟩

/-- When distinct categories select distinct backups, the velero restores selected along a visit
order without repeats differ in category and in name. -/
theorem filterMap_selectedVeleroRestore_nodup {restore : Restore} {order : List ResourceType}
    (horder : order.Nodup)
    (hdistinct : ∀ c c' b, getVeleroBackupNameCall sort restore (answer c) c = .ok b →
      getVeleroBackupNameCall sort restore (answer c') c' = .ok b → c = c') :
    ((order.filterMap (selectedVeleroRestore sort restore answer)).map Prod.fst).Nodup ∧
      ((order.filterMap (selectedVeleroRestore sort restore answer)).map (·.2.name)).Nodup := by
  set created := order.filterMap (selectedVeleroRestore sort restore answer)
  -- two selected velero restores restoring one backup are the same
  have hinj : ∀ p ∈ created, ∀ q ∈ created, p.2.backupName = q.2.backupName → p = q := by
    intro p hp q hq hb
    obtain ⟨b, hpb, hp'⟩ := mem_filterMap_selectedVeleroRestore sort hp
    obtain ⟨b', hqb, hq'⟩ := mem_filterMap_selectedVeleroRestore sort hq
    have hbb : b = b' := by rw [hp', hq'] at hb; exact hb
    subst hbb
    rw [hp', hq', hdistinct _ _ _ hpb hqb]
  have hnodup : created.Nodup := horder.filterMap fun a a' p ha ha' ↦
    (selectedVeleroRestore_fst sort (Option.mem_def.1 ha)).symm.trans
      (selectedVeleroRestore_fst sort (Option.mem_def.1 ha'))
  refine ⟨hnodup.map_on fun p hp q hq h ↦ hinj p hp q hq ?_,
    hnodup.map_on fun p hp q hq h ↦ hinj p hp q hq ?_⟩
  · obtain ⟨b, hpb, hp'⟩ := mem_filterMap_selectedVeleroRestore sort hp
    obtain ⟨b', hqb, hq'⟩ := mem_filterMap_selectedVeleroRestore sort hq
    rw [h, hqb] at hpb
    cases hpb
    rw [hp', hq']
  · obtain ⟨b, -, hp'⟩ := mem_filterMap_selectedVeleroRestore sort hp
    obtain ⟨b', -, hq'⟩ := mem_filterMap_selectedVeleroRestore sort hq
    rw [hp', hq'] at h ⊢
    exact String.ext (List.append_cancel_left (congrArg String.data h :
      (restore.name ++ "-").data ++ b.data = (restore.name ++ "-").data ++ b'.data))

/-- **`initVeleroRestores` without failures.** When no `Create` fails and the names of the
velero restores it selects are distinct and free, the loop creates the velero restore of every
category it visits whose backup is found, records each name in its category's status field, and
leaves the other fields as they were. -/
theorem initVeleroRestores_of_ok {create : ResourceType → Option String}
    (hc : ∀ c, create c = none) (order : List ResourceType) :
    ∀ (owned : List (ResourceType × Velero.Restore)) (restore : Restore),
      ((owned ++ order.filterMap (selectedVeleroRestore sort restore answer)).map
        (·.2.name)).Nodup →
      (initVeleroRestores sort create answer order owned restore).1 =
          owned ++ order.filterMap (selectedVeleroRestore sort restore answer) ∧
        (initVeleroRestores sort create answer order owned restore).2.2 = none ∧
        (∀ p ∈ order.filterMap (selectedVeleroRestore sort restore answer),
          (initVeleroRestores sort create answer order owned restore).2.1.status.veleroRestoreName
            p.1 = p.2.name) ∧
        ∀ c ∉ (order.filterMap (selectedVeleroRestore sort restore answer)).map Prod.fst,
          (initVeleroRestores sort create answer order owned restore).2.1.status.veleroRestoreName
            c = restore.status.veleroRestoreName c := by
  induction order with
  | nil => intro owned restore _; simp [initVeleroRestores]
  | cons key keys ih =>
    intro owned restore hnodup
    cases hsel : getVeleroBackupNameCall sort restore (answer key) key with
    | error e =>
      have hs : selectedVeleroRestore sort restore answer key = none := by
        simp [selectedVeleroRestore, hsel]
      simp only [List.filterMap_cons, hs] at hnodup ⊢
      simp only [initVeleroRestores, hsel]
      exact ih owned restore hnodup
    | ok b =>
      have hs : selectedVeleroRestore sort restore answer key =
          some (key, ⟨restore.name ++ "-" ++ b, b, ""⟩) := by
        simp [selectedVeleroRestore, hsel]
      have hsel' : selectedVeleroRestore sort
          (recordVeleroRestore restore key (restore.name ++ "-" ++ b)) answer =
            selectedVeleroRestore sort restore answer :=
        selectedVeleroRestore_congr sort
          (recordVeleroRestore_spec restore key (restore.name ++ "-" ++ b))
          (recordVeleroRestore_name restore key (restore.name ++ "-" ++ b))
      simp only [List.filterMap_cons, hs] at hnodup ⊢
      set vr : Velero.Restore := ⟨restore.name ++ "-" ++ b, b, ""⟩
      set created := keys.filterMap (selectedVeleroRestore sort restore answer)
      have hn := hnodup
      rw [List.map_append, List.map_cons, List.nodup_append, List.nodup_cons] at hn
      obtain ⟨-, ⟨hnotin, -⟩, hdisj⟩ := hn
      have hfree : createError owned (create key) vr.name = none := by
        rw [createError, hc, if_neg]
        simp only [List.any_eq_true, beq_iff_eq, not_exists, not_and]
        intro p hp heq
        exact hdisj (List.mem_map_of_mem _ hp) (heq ▸ List.mem_cons_self _ _)
      have hkey : key ∉ created.map Prod.fst := by
        intro hk
        obtain ⟨p, hp, hpk⟩ := List.mem_map.1 hk
        obtain ⟨k, -, hk'⟩ := List.mem_filterMap.1 hp
        have hkk : k = key := (selectedVeleroRestore_fst sort hk').symm.trans hpk
        rw [hkk, hs] at hk'
        cases hk'
        exact hnotin (List.mem_map_of_mem _ hp)
      obtain ⟨h1, h2, h3, h4⟩ :=
        ih (owned ++ [(key, vr)]) (recordVeleroRestore restore key vr.name)
        (by rw [hsel', List.append_assoc, List.singleton_append]; exact hnodup)
      rw [hsel'] at h1 h3 h4
      simp only [initVeleroRestores, hsel, hfree]
      refine ⟨by simpa using h1, h2, ?_, ?_⟩
      · intro p hp
        rcases List.mem_cons.1 hp with rfl | hp
        · rw [h4 _ hkey]
          simp
        · exact h3 p hp
      · intro c hc'
        simp only [List.map_cons, List.mem_cons, not_or] at hc'
        rw [h4 c hc'.2]
        simp [Ne.symm hc'.1]

end Selected

/-- **What a reconcile can do to the world.** After a failed `List` nothing; with an empty
listing it keeps what `initVeleroRestores` created and stores the Restore it left unless a
`Create` failed; otherwise it stores the Restore with the status loop run over the listing. -/
theorem reconcileRestore_world (calls : RestoreCalls) (w : RestoreWorld) :
    let w' := (reconcileRestore sort calls w).1
    let r := initVeleroRestores sort calls.create (calls.listBackups w.backups) calls.order w.owned
      w.restore
    w' = w ∨
      (calls.list = none ∧ calls.listed = [] ∧ (w' = { w with owned := r.1 } ∨
        r.2.2 = none ∧ w' = RestoreWorld.persist { w with owned := r.1 } r.2.1 calls.update)) ∨
      (calls.list = none ∧ calls.listed ≠ [] ∧ w' = w.persist (w.restore.withConditions
        (restoreConditionsLoop w.restore.status.conditions calls.listed)) calls.update) := by
  intro w' r
  cases hlist : calls.list with
  | some err => exact .inl (by simp [w', reconcileRestore, hlist])
  | none =>
    by_cases hl : calls.listed = []
    · refine .inr (.inl ⟨rfl, hl, ?_⟩)
      cases hr : (initVeleroRestores sort calls.create (calls.listBackups w.backups) calls.order
          w.owned w.restore).2.2 with
      | some err => exact .inl (by simp [w', reconcileRestore, hlist, hl, r, hr])
      | none => exact .inr ⟨rfl, by simp [w', reconcileRestore, hlist, hl, r, hr]⟩
    · exact .inr (.inr ⟨rfl, hl, by simp [w', reconcileRestore, hlist, hl]⟩)

/-- The velero restores a reconcile leaves: those `initVeleroRestores` left when the listing
succeeded and is empty, and the ones there were otherwise. -/
theorem reconcileRestore_owned (calls : RestoreCalls) (w : RestoreWorld) :
    (reconcileRestore sort calls w).1.owned =
      if calls.list = none ∧ calls.listed = [] then
        (initVeleroRestores sort calls.create (calls.listBackups w.backups) calls.order w.owned
          w.restore).1
      else w.owned := by
  cases hlist : calls.list with
  | some err => simp [reconcileRestore, hlist]
  | none =>
    by_cases hl : calls.listed = []
    · cases hr : (initVeleroRestores sort calls.create (calls.listBackups w.backups) calls.order
          w.owned w.restore).2.2 <;> simp [reconcileRestore, hlist, hl, hr]
    · simp [reconcileRestore, hlist, hl]

@[simp] theorem reconcileRestore_backups (calls : RestoreCalls) (w : RestoreWorld) :
    (reconcileRestore sort calls w).1.backups = w.backups := by
  rcases reconcileRestore_world sort calls w with h | ⟨-, -, h | ⟨-, h⟩⟩ | ⟨-, -, h⟩ <;> simp [h]

/-- A reconcile stores nothing of the Restore but its status. -/
theorem reconcileRestore_restore (calls : RestoreCalls) (w : RestoreWorld) :
    (reconcileRestore sort calls w).1.restore.spec = w.restore.spec ∧
      (reconcileRestore sort calls w).1.restore.name = w.restore.name := by
  obtain ⟨-, -, -, -, -, hspec, hname⟩ := initVeleroRestores_spec sort calls.create
    (calls.listBackups w.backups) calls.order w.owned w.restore
  rcases reconcileRestore_world sort calls w with h | ⟨-, -, h | ⟨-, h⟩⟩ | ⟨-, -, h⟩ <;> rw [h]
  · exact ⟨rfl, rfl⟩
  · exact ⟨rfl, rfl⟩
  · cases calls.update <;> simp [RestoreWorld.persist, hspec, hname]
  · cases calls.update <;> exact ⟨rfl, rfl⟩

/-- **A fault-free creating reconcile restores every category it can.** For a Restore owning no
velero restore, a reconcile whose listing succeeds and is empty and whose `Create` and status
`Update` calls succeed, whatever each category's velero-backup call answers, when distinct
categories select distinct backups on those answers: it reports no error, and owns afterwards
exactly one velero restore for each category whose selection succeeds, that category's velero
restore, with its name in the category's status field. -/
theorem reconcileRestore_restores_selected {calls : RestoreCalls} {w : RestoreWorld}
    (horder : calls.order ~ resourceTypeKeys) (hlist : calls.list = none)
    (hlisted : calls.listed = []) (howned : w.owned = []) (hcreate : ∀ c, calls.create c = none)
    (hupdate : calls.update = none)
    (hdistinct : ∀ c c' b,
      getVeleroBackupNameCall sort w.restore (calls.listBackups w.backups c) c = .ok b →
      getVeleroBackupNameCall sort w.restore (calls.listBackups w.backups c') c' = .ok b →
        c = c') :
    (reconcileRestore sort calls w).2 = none ∧
      ((reconcileRestore sort calls w).1.owned.map Prod.fst).Nodup ∧
      (∀ c, (∃ p ∈ (reconcileRestore sort calls w).1.owned, p.1 = c) ↔
        ∃ b, getVeleroBackupNameCall sort w.restore (calls.listBackups w.backups c) c = .ok b) ∧
      ∀ p ∈ (reconcileRestore sort calls w).1.owned,
        IsVeleroRestoreFor sort w.restore (calls.listBackups w.backups) p ∧
          (reconcileRestore sort calls w).1.restore.status.veleroRestoreName p.1 = p.2.name := by
  set answer := calls.listBackups w.backups
  obtain ⟨hfst, hnames⟩ := filterMap_selectedVeleroRestore_nodup sort
    (horder.nodup_iff.2 resourceTypeKeys_nodup) hdistinct
  obtain ⟨h1, h2, h3, -⟩ :=
    initVeleroRestores_of_ok sort hcreate calls.order [] w.restore hnames
  have hw : (reconcileRestore sort calls w).1 = ⟨(initVeleroRestores sort calls.create answer
      calls.order [] w.restore).2.1,
        calls.order.filterMap (selectedVeleroRestore sort w.restore answer), w.backups⟩ ∧
      (reconcileRestore sort calls w).2 = none := by
    simp [reconcileRestore, hlist, hlisted, howned, answer, h1, h2, hupdate,
      RestoreWorld.persist]
  rw [hw.1]
  refine ⟨hw.2, hfst, fun c ↦ ⟨?_, ?_⟩, fun p hp ↦ ⟨?_, h3 p hp⟩⟩
  · rintro ⟨p, hp, rfl⟩
    obtain ⟨b, hb, -⟩ := mem_filterMap_selectedVeleroRestore sort hp
    exact ⟨b, hb⟩
  · rintro ⟨b, hb⟩
    exact ⟨_, List.mem_filterMap.2 ⟨c, horder.mem_iff.2 (mem_resourceTypeKeys c),
      (selectedVeleroRestore_eq_some sort).2 ⟨b, hb, rfl⟩⟩, rfl⟩
  · obtain ⟨b, hb, hp'⟩ := mem_filterMap_selectedVeleroRestore sort hp
    rw [hp']
    exact ⟨hb, rfl⟩

/-- A Restore in the namespace the operator uses, naming no backup. -/
def restoreAcm : Restore := ⟨"open-cluster-management-backup", "restore-acm", {}, {}⟩

/-- One completed backup of each category, taken at the same time. -/
def hourlyBackups : List Velero.Backup :=
  [⟨"acm-managed-clusters-schedule-20210910181336", [], "Completed", 0,
      some (Time.ofSeconds 1631297616)⟩,
    ⟨"acm-credentials-schedule-20210910181336", [], "Completed", 0,
      some (Time.ofSeconds 1631297616)⟩,
    ⟨"acm-resources-schedule-20210910181336", [], "Completed", 0,
      some (Time.ofSeconds 1631297616)⟩]

/-- The theorem on one completed backup of each category, listed as they are, under Go's
insertion sort. -/
theorem reconcileRestore_restores_selected_hourly :
    let w : RestoreWorld := ⟨restoreAcm, [], hourlyBackups⟩
    let answer := RestoreCalls.ok.listBackups w.backups
    (∀ c c' b, getVeleroBackupNameCall insertionSort w.restore (answer c) c = .ok b →
        getVeleroBackupNameCall insertionSort w.restore (answer c') c' = .ok b → c = c') ∧
      (reconcileRestore insertionSort RestoreCalls.ok w).2 = none ∧
      ((reconcileRestore insertionSort RestoreCalls.ok w).1.owned.map Prod.fst).Nodup ∧
      (∀ c, (∃ p ∈ (reconcileRestore insertionSort RestoreCalls.ok w).1.owned, p.1 = c) ↔
        ∃ b, getVeleroBackupNameCall insertionSort w.restore (answer c) c = .ok b) ∧
      ∀ p ∈ (reconcileRestore insertionSort RestoreCalls.ok w).1.owned,
        IsVeleroRestoreFor insertionSort w.restore answer p ∧
          (reconcileRestore insertionSort RestoreCalls.ok w).1.restore.status.veleroRestoreName
            p.1 = p.2.name := by
  intro w answer
  have hsel : ∀ c, getVeleroBackupNameCall insertionSort w.restore (answer c) c =
      .ok (resourceTypes c ++ "-20210910181336") := by
    intro c
    cases c <;> decide
  have hdistinct : ∀ c c' b, getVeleroBackupNameCall insertionSort w.restore (answer c) c = .ok b →
      getVeleroBackupNameCall insertionSort w.restore (answer c') c' = .ok b → c = c' := by
    intro c c' b hc hc'
    rw [hsel] at hc hc'
    have h := Except.ok.inj (hc.trans hc'.symm)
    cases c <;> cases c' <;> first | rfl | exact absurd h (by decide)
  exact ⟨hdistinct, reconcileRestore_restores_selected insertionSort (List.Perm.refl _) rfl rfl rfl
    (fun _ ↦ rfl) rfl hdistinct⟩

/-! ## Recognising managed-clusters restores -/

variable {sort}

/-- **An automatically selected managed-clusters restore is recognised.** For every sort meeting
Go's contract, every Restore that names no managed-clusters backup and whatever the velero-backup
calls answer, `initVeleroRestores` keeps every velero restore of the managed-clusters category one
that the status loop treats as a managed-clusters restore. -/
theorem initVeleroRestores_managedClusters_recognised (hsort : SortContract sort)
    (create : ResourceType → Option String)
    (answer : ResourceType → Except String (List Velero.Backup))
    (order : List ResourceType) {owned : List (ResourceType × Velero.Restore)} {restore : Restore}
    (hauto : (restore.spec.backupNameFor .managedClusters).getD "" = "")
    (howned : ∀ p ∈ owned,
      p.1 = .managedClusters → isManagedClustersRestore p.2.name = true) :
    ∀ p ∈ (initVeleroRestores sort create answer order owned restore).1,
      p.1 = .managedClusters → isManagedClustersRestore p.2.name = true := by
  obtain ⟨created, h, -, hfor, -⟩ :=
    initVeleroRestores_spec sort create answer order owned restore
  rw [h]
  intro p hp hmc
  rcases List.mem_append.1 hp with hp | hp
  · exact howned p hp hmc
  obtain ⟨hsel, hname⟩ := hfor p hp
  obtain ⟨backups, -, hsel⟩ := getVeleroBackupNameCall_eq_ok sort hsel
  rw [hmc, getVeleroBackupName_of_auto hauto] at hsel
  obtain ⟨b, hb, hbname⟩ := findVeleroBackupName_related hsort hsel
  rw [hname, ← hbname]
  exact stringsContains_append_right (List.mem_filter.1 hb).2

/-- The theorem on the first reconcile's creations for `restore-acm` over one backup of each
category, where a managed-clusters velero restore is made. -/
theorem initVeleroRestores_managedClusters_recognised_hourly :
    (restoreAcm.spec.backupNameFor .managedClusters).getD "" = "" ∧
      (∃ p ∈ (initVeleroRestores insertionSort (fun _ ↦ none) (fun _ ↦ .ok hourlyBackups)
        resourceTypeKeys [] restoreAcm).1, p.1 = .managedClusters) ∧
      ∀ p ∈ (initVeleroRestores insertionSort (fun _ ↦ none) (fun _ ↦ .ok hourlyBackups)
        resourceTypeKeys [] restoreAcm).1,
        p.1 = .managedClusters → isManagedClustersRestore p.2.name = true :=
  ⟨rfl, by decide, initVeleroRestores_managedClusters_recognised insertionSort_sortContract _ _ _
    (by rfl) (fun _ h ↦ absurd h (List.not_mem_nil _))⟩

end ClusterBackup
