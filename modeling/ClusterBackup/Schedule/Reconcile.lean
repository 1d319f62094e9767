import ClusterBackup.Schedule.Status

/-!
# The BackupSchedule reconciler

`BackupScheduleReconciler.Reconcile` as a function of the world it acts on: the stored
BackupSchedule and the velero schedules it owns. What the API server answers is an input,
`ScheduleCalls`: each `List`, `Create`, `Delete` and status `Update` may fail with an error of the
server's choosing, the `List` returns the owned schedules in an order of its own, and Go's `range`
over the category map visits the keys in an order of its own. A reconcile is then a total
function, and a run is a sequence of them.

## The listing comes from a cache

`r.List` reads the owned velero schedules from the informer cache through the owner index. The
model takes that listing to be current: it holds every owned schedule, once, and nothing else.
Its order is the cache's, not the order the schedules were created in, so it is an input,
`ScheduleCalls.listing`, whose field `listing_perm` is what the current listing promises. The drift
check, the deletion loop and the aggregation all run over this listing; a listing that lags
behind creations and deletions is not modelled.

## The branches

After validation, `Reconcile` takes exactly one of three branches: create when the owned list is
empty, delete when `isScheduleSpecUpdated` sees drift, and aggregate the phases otherwise. Both
the create and the delete loop stop at the first failed call, so either can leave a strict part of
the work done; `initVeleroSchedules_owned_sublist` and `deleteVeleroSchedules_sublist` say what is
left in either case, and the run invariants of `ClusterBackup.Schedule.Run` rest on them.

## Drift after creation

The created schedule copies the spec's TTL only when it truncates to a nonzero number of seconds,
while the drift check compares the untruncated TTL. `reconcileSchedule_created_drifts_iff` shows
that the two agree exactly when the TTL is zero or at least a second in size.
-/

namespace ClusterBackup

open scoped List

/-- The outcome of every API call one reconcile makes. -/
structure ScheduleCalls where
  /-- The order in which `range resourceTypes` visits the categories. -/
  order : List ResourceType
  /-- The error of `r.List` on the owned velero schedules, if any. -/
  list : Option String
  /-- What a successful `r.List` returns, given the owned velero schedules: them, in the cache's
  order. -/
  listing : List Velero.Schedule → List Velero.Schedule
  /-- The listing holds every owned schedule, once. -/
  listing_perm : ∀ schedules, listing schedules ~ schedules
  /-- The error of `r.Create` for the velero schedule of each name, if any. -/
  create : String → Option String
  /-- The error of `r.Delete` for the velero schedule of each name, if any. -/
  delete : String → Option String
  /-- The error of `r.Client.Status().Update`, if any. -/
  update : Option String

/-- The calls of a reconcile in which nothing fails, the owned schedules are listed in the order
they are held and the categories are visited in declaration order. -/
def ScheduleCalls.ok : ScheduleCalls where
  order := resourceTypeKeys
  list := none
  listing := id
  listing_perm := List.Perm.refl
  create _ := none
  delete _ := none
  update := none

@[simp] theorem ScheduleCalls.listing_nil (calls : ScheduleCalls) : calls.listing [] = [] :=
  (calls.listing_perm []).eq_nil

theorem ScheduleCalls.listing_eq_nil (calls : ScheduleCalls) {schedules : List Velero.Schedule} :
    calls.listing schedules = [] ↔ schedules = [] :=
  ⟨fun h ↦ (h ▸ calls.listing_perm schedules).symm.eq_nil, fun h ↦ h ▸ calls.listing_nil⟩

/-- The drift check asks whether some schedule differs from the spec, in whatever order they are
listed. -/
theorem isScheduleSpecUpdated_perm (ctx : ScheduleContext)
    {schedules schedules' : List Velero.Schedule} (h : schedules' ~ schedules) (bs : BackupSchedule) :
    isScheduleSpecUpdated ctx schedules' bs = isScheduleSpecUpdated ctx schedules bs :=
  Bool.eq_iff_iff.2 (by simp only [isScheduleSpecUpdated, List.any_eq_true, h.mem_iff])

/-- What one BackupSchedule's reconciler acts on: the BackupSchedule as stored, and the velero
schedules whose controller it is. -/
structure ScheduleWorld where
  backupSchedule : BackupSchedule
  owned : List Velero.Schedule
deriving DecidableEq, Repr

/-- `r.Client.Status().Update(ctx, bs)`: a successful update stores the status of `bs`; a failed
one leaves the stored object as it was. -/
def ScheduleWorld.persist (w : ScheduleWorld) (bs : BackupSchedule) (update : Option String) :
    ScheduleWorld :=
  match update with
  | none => { w with backupSchedule := bs }
  | some _ => w

@[simp] theorem ScheduleWorld.persist_owned (w : ScheduleWorld) (bs : BackupSchedule)
    (u : Option String) : (w.persist bs u).owned = w.owned := by
  cases u <;> rfl

/-- `deleteBackupRequeueInterval`: sixty minutes. -/
def deleteBackupRequeueInterval : Duration := ⟨60 * Duration.minute.ns⟩

/-! ## Creating and deleting the velero schedules -/

/-- The velero schedule `initVeleroSchedules` creates for a category: the category's schedule
name, the spec's cron expression, and the spec's TTL unless it truncates to zero seconds. -/
def veleroScheduleFor (spec : BackupScheduleSpec) (key : ResourceType) : Velero.Schedule where
  name := resourceTypes key
  labels := []
  schedule := spec.veleroSchedule
  ttl := if spec.veleroTTL.truncate .second ≠ .zero then spec.veleroTTL else .zero
  phase := ""

@[simp] theorem veleroScheduleFor_name (spec : BackupScheduleSpec) (key : ResourceType) :
    (veleroScheduleFor spec key).name = resourceTypes key := rfl

/-- `initVeleroSchedules`: for each category in the order given, create its velero schedule and
copy it into the status; the first failed `Create` ends the loop with its error. Returns the
schedules created, the BackupSchedule as the loop left it, and the error. -/
def initVeleroSchedules (create : String → Option String) :
    List ResourceType → BackupSchedule → List Velero.Schedule × BackupSchedule × Option String
  | [], bs => ([], bs, none)
  | key :: keys, bs =>
    match create (veleroScheduleFor bs.spec key).name with
    | some err => ([], bs, some err)
    | none =>
      let r := initVeleroSchedules create keys
        (setVeleroScheduleInStatus key (veleroScheduleFor bs.spec key) bs)
      (veleroScheduleFor bs.spec key :: r.1, r.2)

/-- The loop of `deleteVeleroSchedules`: delete in list order; the first failed `Delete` stops it
and leaves that schedule and the ones after it. -/
def deleteVeleroSchedulesLoop (delete : String → Option String) :
    List Velero.Schedule → List Velero.Schedule × Option String
  | [] => ([], none)
  | vs :: rest =>
    match delete vs.name with
    | some err => (vs :: rest, some err)
    | none => deleteVeleroSchedulesLoop delete rest

/-- `deleteVeleroSchedules`: delete the listed schedules, and once all are gone reset the phase to
`New` and clear the status copies. Returns the schedules left, the BackupSchedule, and the
error. -/
def deleteVeleroSchedules (delete : String → Option String) (bs : BackupSchedule)
    (schedules : List Velero.Schedule) : List Velero.Schedule × BackupSchedule × Option String :=
  if schedules = [] then ([], bs, none)
  else
    match deleteVeleroSchedulesLoop delete schedules with
    | (rest, some err) => (rest, bs, some err)
    | (_, none) =>
      ([], { bs with
        status := { bs.status with
          phase := .new
          lastMessage := newPhaseMsg
          veleroScheduleCredentials := none
          veleroScheduleManagedClusters := none
          veleroScheduleResources := none } }, none)

/-! ## Reconcile -/

/-- The status the create branch stores: `Failed` with the error of the failed `Create`, or `New`
when every schedule was created. -/
def createdStatus (bs : BackupSchedule) : Option String → BackupSchedule
  | some e => bs.setPhase .failed (failedPhaseMsg ++ ": " ++ e)
  | none => bs.setPhase .new newPhaseMsg

/-- The status the aggregation branch stores: a copy of every owned schedule, then the cumulative
phase. -/
def aggregatedStatus (schedules : List Velero.Schedule) (bs : BackupSchedule) : BackupSchedule :=
  setSchedulePhase schedules (schedules.foldl (fun b vs ↦ updateScheduleStatus vs b) bs)

/-- `BackupScheduleReconciler.Reconcile`: the world after the call, the result and the error. -/
def reconcileSchedule (ctx : ScheduleContext) (calls : ScheduleCalls) (w : ScheduleWorld) :
    ScheduleWorld × Result × Option String :=
  let bs := w.backupSchedule
  if parseCronSchedule ctx bs ≠ [] then
    (w.persist (bs.setPhase .failedValidation (stringsJoin (parseCronSchedule ctx bs) ","))
      calls.update, {}, errorsWrap calls.update "could not update status")
  else
    match calls.list with
    | some err => (w, {}, some err)
    | none =>
      let veleroScheduleList := calls.listing w.owned
      if veleroScheduleList = [] then
        let r := initVeleroSchedules calls.create calls.order bs
        (ScheduleWorld.persist { w with owned := r.1 } (createdStatus r.2.1 r.2.2) calls.update,
          ⟨deleteBackupRequeueInterval⟩, errorsWrap calls.update "could not update status")
      else if isScheduleSpecUpdated ctx veleroScheduleList bs then
        let r := deleteVeleroSchedules calls.delete bs veleroScheduleList
        match r.2.2 with
        | some err => ({ w with owned := r.1 }, {}, some err)
        | none =>
          (ScheduleWorld.persist { w with owned := r.1 } r.2.1 calls.update,
            ⟨deleteBackupRequeueInterval⟩, errorsWrap calls.update "could not update status")
      else
        (w.persist (aggregatedStatus veleroScheduleList bs) calls.update,
          ⟨deleteBackupRequeueInterval⟩, errorsWrap calls.update
            ("could not update status for schedule " ++ bs.namespaceName ++ "/" ++ bs.name))

/-! ## What each loop leaves -/

@[simp] theorem initVeleroSchedules_spec (create : String → Option String) :
    ∀ (keys : List ResourceType) (bs : BackupSchedule),
      (initVeleroSchedules create keys bs).2.1.spec = bs.spec
  | [], _ => rfl
  | key :: keys, bs => by
    unfold initVeleroSchedules
    split
    · rfl
    · simp [initVeleroSchedules_spec create keys]

/-- The schedules the create loop made are those of a prefix of the visit order. -/
theorem initVeleroSchedules_owned_sublist (create : String → Option String) :
    ∀ (keys : List ResourceType) (bs : BackupSchedule),
      ((initVeleroSchedules create keys bs).1.map (·.name)) <+ keys.map resourceTypes
  | [], _ => List.Sublist.slnil
  | key :: keys, bs => by
    unfold initVeleroSchedules
    split
    · exact List.nil_sublist _
    · exact (initVeleroSchedules_owned_sublist create keys _).cons₂ _

/-- With no failed `Create`, the loop makes the velero schedule of every category it visits. -/
theorem initVeleroSchedules_of_ok (create : String → Option String)
    (hc : ∀ n, create n = none) :
    ∀ (keys : List ResourceType) (bs : BackupSchedule),
      (initVeleroSchedules create keys bs).1 = keys.map (veleroScheduleFor bs.spec) ∧
        (initVeleroSchedules create keys bs).2.2 = none
  | [], _ => ⟨rfl, rfl⟩
  | key :: keys, bs => by
    have ih := initVeleroSchedules_of_ok create hc keys
      (setVeleroScheduleInStatus key (veleroScheduleFor bs.spec key) bs)
    simp only [setVeleroScheduleInStatus_spec] at ih
    simp [initVeleroSchedules, hc, ih]

/-- With no failed `Create`, the loop copies the velero schedule of every category it visits into
the status. -/
theorem initVeleroSchedules_status_of_ok (create : String → Option String)
    (hc : ∀ n, create n = none) :
    ∀ (keys : List ResourceType) (bs : BackupSchedule) (c : ResourceType),
      (initVeleroSchedules create keys bs).2.1.status.veleroScheduleOf c =
        if c ∈ keys then some (veleroScheduleFor bs.spec c) else bs.status.veleroScheduleOf c
  | [], _, _ => by simp [initVeleroSchedules]
  | key :: keys, bs, c => by
    have ih := initVeleroSchedules_status_of_ok create hc keys
      (setVeleroScheduleInStatus key (veleroScheduleFor bs.spec key) bs) c
    simp only [setVeleroScheduleInStatus_spec, setVeleroScheduleInStatus_veleroScheduleOf] at ih
    simp only [initVeleroSchedules, hc, ih, List.mem_cons]
    by_cases hk : key = c
    · subst hk
      simp
    · simp [hk, Ne.symm hk]

theorem deleteVeleroSchedulesLoop_sublist (delete : String → Option String) :
    ∀ schedules : List Velero.Schedule,
      (deleteVeleroSchedulesLoop delete schedules).1 <+ schedules
  | [] => List.Sublist.slnil
  | vs :: rest => by
    unfold deleteVeleroSchedulesLoop
    split
    · exact List.Sublist.refl _
    · exact (deleteVeleroSchedulesLoop_sublist delete rest).cons _

/-- The delete loop leaves the schedules from the first failed `Delete` on. -/
theorem deleteVeleroSchedules_sublist (delete : String → Option String) (bs : BackupSchedule)
    (schedules : List Velero.Schedule) :
    (deleteVeleroSchedules delete bs schedules).1 <+ schedules := by
  unfold deleteVeleroSchedules
  split
  · exact List.nil_sublist _
  · split
    · rename_i h
      have := deleteVeleroSchedulesLoop_sublist delete schedules
      rwa [h] at this
    · exact List.nil_sublist _

/-- With no failed `Delete`, every schedule is gone and no error is reported. -/
theorem deleteVeleroSchedules_of_ok (delete : String → Option String)
    (hd : ∀ n, delete n = none) (bs : BackupSchedule) (schedules : List Velero.Schedule) :
    (deleteVeleroSchedules delete bs schedules).1 = [] ∧
      (deleteVeleroSchedules delete bs schedules).2.2 = none := by
  have hloop : ∀ l : List Velero.Schedule, (deleteVeleroSchedulesLoop delete l).2 = none := by
    intro l
    induction l with
    | nil => rfl
    | cons vs rest ih => simpa [deleteVeleroSchedulesLoop, hd] using ih
  unfold deleteVeleroSchedules
  split
  · exact ⟨rfl, rfl⟩
  · split
    · rename_i h
      simpa [h] using hloop schedules
    · exact ⟨rfl, rfl⟩

@[simp] theorem deleteVeleroSchedules_spec (delete : String → Option String) (bs : BackupSchedule)
    (schedules : List Velero.Schedule) :
    (deleteVeleroSchedules delete bs schedules).2.1.spec = bs.spec := by
  unfold deleteVeleroSchedules
  split
  · rfl
  · split <;> rfl

@[simp] theorem createdStatus_spec (bs : BackupSchedule) (err : Option String) :
    (createdStatus bs err).spec = bs.spec := by
  cases err <;> rfl

@[simp] theorem aggregatedStatus_spec (schedules : List Velero.Schedule) (bs : BackupSchedule) :
    (aggregatedStatus schedules bs).spec = bs.spec := by
  have hfold : ∀ (l : List Velero.Schedule) (b : BackupSchedule),
      (l.foldl (fun b vs ↦ updateScheduleStatus vs b) b).spec = b.spec := by
    intro l
    induction l with
    | nil => intro b; rfl
    | cons vs rest ih => intro b; simp [ih]
  unfold aggregatedStatus setSchedulePhase
  split_ifs <;> simp [hfold]

/-! ## The branches of a reconcile -/

/-- **What a reconcile can do to the world**, branch by branch: nothing (a failed `List`), store
`FailedValidation`, create schedules when there are none, delete the schedules on drift (storing
the reset status only when every `Delete` succeeded), or store the aggregated status. -/
theorem reconcileSchedule_world (ctx : ScheduleContext) (calls : ScheduleCalls)
    (w : ScheduleWorld) :
    let w' := (reconcileSchedule ctx calls w).1
    let bs := w.backupSchedule
    w' = w ∨
      (parseCronSchedule ctx bs ≠ [] ∧ w' = w.persist
        (bs.setPhase .failedValidation (stringsJoin (parseCronSchedule ctx bs) ","))
        calls.update) ∨
      (parseCronSchedule ctx bs = [] ∧ w.owned = [] ∧
        let r := initVeleroSchedules calls.create calls.order bs
        w' = ScheduleWorld.persist { w with owned := r.1 } (createdStatus r.2.1 r.2.2)
          calls.update) ∨
      (parseCronSchedule ctx bs = [] ∧ w.owned ≠ [] ∧
        isScheduleSpecUpdated ctx w.owned bs = true ∧
        let r := deleteVeleroSchedules calls.delete bs (calls.listing w.owned)
        (w' = { w with owned := r.1 } ∨
          r.2.2 = none ∧
            w' = ScheduleWorld.persist { w with owned := r.1 } r.2.1 calls.update)) ∨
      (parseCronSchedule ctx bs = [] ∧ w.owned ≠ [] ∧
        isScheduleSpecUpdated ctx w.owned bs = false ∧
        w' = w.persist (aggregatedStatus (calls.listing w.owned) bs) calls.update) := by
  intro w' bs
  by_cases hv : parseCronSchedule ctx bs = []
  · cases hl : calls.list with
    | some err => exact .inl (by simp [w', reconcileSchedule, bs, hv, hl])
    | none =>
      by_cases he : w.owned = []
      · exact .inr (.inr (.inl ⟨hv, he, by simp [w', reconcileSchedule, bs, hv, hl, he]⟩))
      have he' : calls.listing w.owned ≠ [] := fun h ↦ he (calls.listing_eq_nil.1 h)
      have hperm := isScheduleSpecUpdated_perm ctx (calls.listing_perm w.owned) bs
      cases hd : isScheduleSpecUpdated ctx w.owned bs
      · exact .inr (.inr (.inr (.inr ⟨hv, he, rfl, by
          simp [w', reconcileSchedule, bs, hv, hl, he', hperm, hd]⟩)))
      · refine .inr (.inr (.inr (.inl ⟨hv, he, rfl, ?_⟩)))
        cases hr : (deleteVeleroSchedules calls.delete bs (calls.listing w.owned)).2.2 with
        | some err => exact .inl (by simp [w', reconcileSchedule, bs, hv, hl, he', hperm, hd, hr])
        | none => exact .inr ⟨hr, by simp [w', reconcileSchedule, bs, hv, hl, he', hperm, hd, hr]⟩
  · exact .inr (.inl ⟨hv, by simp [w', reconcileSchedule, bs, hv]⟩)

/-- A reconcile keeps the spec; only status `Update`s write the stored BackupSchedule. -/
@[simp] theorem reconcileSchedule_spec (ctx : ScheduleContext) (calls : ScheduleCalls)
    (w : ScheduleWorld) :
    (reconcileSchedule ctx calls w).1.backupSchedule.spec = w.backupSchedule.spec := by
  have persist_spec : ∀ (w₀ : ScheduleWorld) (bs : BackupSchedule) (u : Option String),
      bs.spec = w₀.backupSchedule.spec →
        (w₀.persist bs u).backupSchedule.spec = w₀.backupSchedule.spec := by
    intro w₀ bs u h; cases u <;> simp [ScheduleWorld.persist, h]
  rcases reconcileSchedule_world ctx calls w with
    h | ⟨-, h⟩ | ⟨-, -, h⟩ | ⟨-, -, -, h | ⟨-, h⟩⟩ | ⟨-, -, -, h⟩ <;> rw [h]
  all_goals first | rfl | exact persist_spec _ _ _ (by simp)

theorem reconcileSchedule_owned_of_create {ctx : ScheduleContext} {calls : ScheduleCalls}
    {w : ScheduleWorld} (hv : parseCronSchedule ctx w.backupSchedule = [])
    (hl : calls.list = none) (he : w.owned = []) :
    (reconcileSchedule ctx calls w).1.owned =
      (initVeleroSchedules calls.create calls.order w.backupSchedule).1 := by
  simp [reconcileSchedule, hv, hl, he]

theorem reconcileSchedule_owned_of_drift {ctx : ScheduleContext} {calls : ScheduleCalls}
    {w : ScheduleWorld} (hv : parseCronSchedule ctx w.backupSchedule = [])
    (hl : calls.list = none) (he : w.owned ≠ [])
    (hd : isScheduleSpecUpdated ctx w.owned w.backupSchedule = true) :
    (reconcileSchedule ctx calls w).1.owned =
      (deleteVeleroSchedules calls.delete w.backupSchedule (calls.listing w.owned)).1 := by
  have he' : calls.listing w.owned ≠ [] := fun h ↦ he (calls.listing_eq_nil.1 h)
  have hd' : isScheduleSpecUpdated ctx (calls.listing w.owned) w.backupSchedule = true :=
    (isScheduleSpecUpdated_perm ctx (calls.listing_perm w.owned) _).trans hd
  cases hr : (deleteVeleroSchedules calls.delete w.backupSchedule (calls.listing w.owned)).2.2 <;>
    simp [reconcileSchedule, hv, hl, he', hd', hr]

/-- **A fault-free creating reconcile sets up every category.** On a BackupSchedule with a valid
cron expression and no velero schedule, a reconcile whose calls all succeed, in any category visit
order, returns no error and a sixty-minute requeue, and owns afterwards one velero schedule named
after each category. Each has the spec's cron expression, and its TTL is the spec's unless that
truncates to zero seconds, in which case it is zero. Each category's status field holds a copy of
its schedule, and the phase is `New` with `NewPhaseMsg`. -/
theorem reconcileSchedule_creates_all {ctx : ScheduleContext} {calls : ScheduleCalls}
    {w : ScheduleWorld} (hvalid : parseCronSchedule ctx w.backupSchedule = [])
    (hlist : calls.list = none) (hempty : w.owned = []) (horder : calls.order ~ resourceTypeKeys)
    (hcreate : ∀ name, calls.create name = none) (hupdate : calls.update = none) :
    let w' := (reconcileSchedule ctx calls w).1
    let spec := w.backupSchedule.spec
    (reconcileSchedule ctx calls w).2 = (⟨deleteBackupRequeueInterval⟩, none) ∧
      w'.owned.map (·.name) ~ resourceTypeKeys.map resourceTypes ∧
      (∀ vs ∈ w'.owned, vs.schedule = spec.veleroSchedule ∧
        (spec.veleroTTL.truncate .second ≠ .zero → vs.ttl = spec.veleroTTL) ∧
        (spec.veleroTTL.truncate .second = .zero → vs.ttl = .zero)) ∧
      (∀ key, ∃ vs ∈ w'.owned, vs.name = resourceTypes key ∧
        w'.backupSchedule.status.veleroScheduleOf key = some vs) ∧
      w'.backupSchedule.status.phase = .new ∧
      w'.backupSchedule.status.lastMessage = newPhaseMsg := by
  intro w' spec
  obtain ⟨howned, herr⟩ :=
    initVeleroSchedules_of_ok calls.create hcreate calls.order w.backupSchedule
  have hw' : w'.owned = calls.order.map (veleroScheduleFor spec) := by
    rw [reconcileSchedule_owned_of_create hvalid hlist hempty, howned]
  have hbs : w'.backupSchedule =
      (initVeleroSchedules calls.create calls.order w.backupSchedule).2.1.setPhase .new
        newPhaseMsg := by
    simp [w', reconcileSchedule, hvalid, hlist, hempty, hupdate, herr, createdStatus,
      ScheduleWorld.persist]
  refine ⟨by simp [reconcileSchedule, hvalid, hlist, hempty, hupdate], ?_, ?_, fun key ↦ ?_,
    by rw [hbs]; rfl, by rw [hbs]; rfl⟩
  · rw [hw', List.map_map]
    exact horder.map _
  · -- each schedule is its category's, made from the spec
    rw [hw']
    rintro vs hvs
    obtain ⟨key, -, rfl⟩ := List.mem_map.1 hvs
    exact ⟨rfl, fun h ↦ if_pos h, fun h ↦ if_neg (· h)⟩
  · refine ⟨veleroScheduleFor spec key, hw' ▸ List.mem_map_of_mem _
      (horder.mem_iff.2 (mem_resourceTypeKeys key)), rfl, ?_⟩
    rw [hbs, BackupSchedule.setPhase_veleroScheduleOf,
      initVeleroSchedules_status_of_ok calls.create hcreate,
      if_pos (horder.mem_iff.2 (mem_resourceTypeKeys key))]

/-- The theorem on an hourly BackupSchedule, under a parser accepting its cron expression. -/
theorem reconcileSchedule_creates_all_hourly :
    let ctx : ScheduleContext := ⟨fun _ ↦ none, "acm-validation-policy-schedule",
      "cluster.open-cluster-management.io/backup-cluster"⟩
    let w : ScheduleWorld := ⟨⟨"open-cluster-management-backup", "schedule-acm",
      ⟨"0 * * * *", .zero⟩, {}⟩, []⟩
    let w' := (reconcileSchedule ctx .ok w).1
    let spec := w.backupSchedule.spec
    parseCronSchedule ctx w.backupSchedule = [] ∧
      (reconcileSchedule ctx .ok w).2 = (⟨deleteBackupRequeueInterval⟩, none) ∧
      w'.owned.map (·.name) ~ resourceTypeKeys.map resourceTypes ∧
      (∀ vs ∈ w'.owned, vs.schedule = spec.veleroSchedule ∧
        (spec.veleroTTL.truncate .second ≠ .zero → vs.ttl = spec.veleroTTL) ∧
        (spec.veleroTTL.truncate .second = .zero → vs.ttl = .zero)) ∧
      (∀ key, ∃ vs ∈ w'.owned, vs.name = resourceTypes key ∧
        w'.backupSchedule.status.veleroScheduleOf key = some vs) ∧
      w'.backupSchedule.status.phase = .new ∧
      w'.backupSchedule.status.lastMessage = newPhaseMsg :=
  ⟨by decide, reconcileSchedule_creates_all (by decide) rfl rfl (List.Perm.refl _) (fun _ ↦ rfl)
    rfl⟩

/-! ## Drift right after creation -/

theorem isScheduleSpecUpdated_congr (ctx : ScheduleContext) (schedules : List Velero.Schedule)
    {bs bs' : BackupSchedule} (h : bs.spec = bs'.spec) :
    isScheduleSpecUpdated ctx schedules bs = isScheduleSpecUpdated ctx schedules bs' := by
  simp [isScheduleSpecUpdated, h]

theorem parseCronSchedule_congr (ctx : ScheduleContext) {bs bs' : BackupSchedule}
    (h : bs.spec = bs'.spec) : parseCronSchedule ctx bs = parseCronSchedule ctx bs' := by
  simp [parseCronSchedule, h]

/-- The drift check on freshly made schedules sees exactly the TTL the creation dropped: a
nonzero TTL that truncates to zero seconds, on a schedule other than the validation one. -/
theorem isScheduleSpecUpdated_veleroScheduleFor (ctx : ScheduleContext) (keys : List ResourceType)
    (bs : BackupSchedule) :
    isScheduleSpecUpdated ctx (keys.map (veleroScheduleFor bs.spec)) bs = true ↔
      (∃ key ∈ keys, resourceTypes key ≠ ctx.validationScheduleName) ∧
        bs.spec.veleroTTL ≠ .zero ∧ bs.spec.veleroTTL.truncate .second = .zero := by
  simp [isScheduleSpecUpdated, veleroScheduleFor]
  constructor
  · rintro ⟨key, hkey, hname, htr, hz⟩
    exact ⟨⟨key, hkey, hname⟩, Ne.symm hz, htr⟩
  · rintro ⟨⟨key, hkey, hname⟩, hz, htr⟩
    exact ⟨key, hkey, hname, htr, Ne.symm hz⟩

/-- Every visit order has a category whose schedule is not the validation schedule, whatever
that schedule's name: two of the three names differ from it. -/
theorem exists_resourceType_ne {keys : List ResourceType} (h : keys ~ resourceTypeKeys)
    (name : String) : ∃ key ∈ keys, resourceTypes key ≠ name := by
  by_cases hv : resourceTypes .managedClusters = name
  · exact ⟨.credentials, h.mem_iff.2 (mem_resourceTypeKeys _), by rw [← hv]; decide⟩
  · exact ⟨.managedClusters, h.mem_iff.2 (mem_resourceTypeKeys _), hv⟩

/-- **A fault-free creation is judged drifted exactly for a sub-second TTL.** After a reconcile
that finds no velero schedule and creates all of them with no failed call, the drift check on the
created schedules against the stored BackupSchedule reports an update iff the spec's TTL is
nonzero and truncates to zero seconds; the next fault-free reconcile then deletes every one of
them. -/
theorem reconcileSchedule_created_drifts_iff (ctx : ScheduleContext) (calls : ScheduleCalls)
    (w : ScheduleWorld) (hvalid : parseCronSchedule ctx w.backupSchedule = [])
    (hempty : w.owned = []) (horder : calls.order ~ resourceTypeKeys) (hlist : calls.list = none)
    (hcreate : ∀ name, calls.create name = none) :
    (isScheduleSpecUpdated ctx (reconcileSchedule ctx calls w).1.owned
        (reconcileSchedule ctx calls w).1.backupSchedule = true ↔
      w.backupSchedule.spec.veleroTTL ≠ .zero ∧
        w.backupSchedule.spec.veleroTTL.truncate .second = .zero) ∧
    (isScheduleSpecUpdated ctx (reconcileSchedule ctx calls w).1.owned
        (reconcileSchedule ctx calls w).1.backupSchedule = true →
      (reconcileSchedule ctx .ok (reconcileSchedule ctx calls w).1).1.owned = []) := by
  have hspec := reconcileSchedule_spec ctx calls w
  have howned : (reconcileSchedule ctx calls w).1.owned =
      calls.order.map (veleroScheduleFor w.backupSchedule.spec) := by
    rw [reconcileSchedule_owned_of_create hvalid hlist hempty,
      (initVeleroSchedules_of_ok _ hcreate _ _).1]
  have hdrift : isScheduleSpecUpdated ctx (reconcileSchedule ctx calls w).1.owned
      (reconcileSchedule ctx calls w).1.backupSchedule = true ↔
      w.backupSchedule.spec.veleroTTL ≠ .zero ∧
        w.backupSchedule.spec.veleroTTL.truncate .second = .zero := by
    rw [isScheduleSpecUpdated_congr ctx _ hspec, howned, isScheduleSpecUpdated_veleroScheduleFor]
    exact and_iff_right (exists_resourceType_ne horder _)
  refine ⟨hdrift, fun hd ↦ ?_⟩
  have hne : (reconcileSchedule ctx calls w).1.owned ≠ [] := by
    rw [howned, Ne, List.map_eq_nil_iff]
    intro h
    rw [h] at horder
    exact absurd horder.length_eq (by decide)
  rw [reconcileSchedule_owned_of_drift ((parseCronSchedule_congr ctx hspec).trans hvalid) rfl hne
    hd]
  exact (deleteVeleroSchedules_of_ok _ (fun _ ↦ rfl) _ _).1

/-- The theorem at a half-second TTL: the schedules made in one fault-free reconcile are judged
drifted and deleted by the next. -/
theorem reconcileSchedule_created_drifts_halfSecond :
    let ctx : ScheduleContext := ⟨fun _ ↦ none, "acm-validation-policy-schedule",
      "cluster.open-cluster-management.io/backup-cluster"⟩
    let w : ScheduleWorld := ⟨⟨"open-cluster-management-backup", "schedule-acm",
      ⟨"0 */6 * * *", ⟨500000000⟩⟩, {}⟩, []⟩
    isScheduleSpecUpdated ctx (reconcileSchedule ctx .ok w).1.owned
        (reconcileSchedule ctx .ok w).1.backupSchedule = true ∧
      (reconcileSchedule ctx .ok (reconcileSchedule ctx .ok w).1).1.owned = [] := by
  intro ctx w
  have h := reconcileSchedule_created_drifts_iff ctx .ok w (by decide) rfl (List.Perm.refl _) rfl
    (fun _ ↦ rfl)
  have hd := h.1.2 ⟨by decide, by decide⟩
  exact ⟨hd, h.2 hd⟩

end ClusterBackup
