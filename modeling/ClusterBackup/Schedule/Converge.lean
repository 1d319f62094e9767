import ClusterBackup.Schedule.Run

/-!
# The BackupSchedule controller converges to the spec

Velero does not watch its schedules for changes, so the controller applies a spec edit itself: a
reconcile that finds owned schedules differing from the spec deletes them all, and the next one
recreates them from the spec. This module shows that the loop closes, and what it leaves.

## One spec per generation

`initVeleroSchedules` makes every schedule of one reconcile from the BackupSchedule's spec as it
is then, and every other step only removes schedules or lets velero set their phases. In every
reachable world the owned schedules were therefore all made from one spec: the three categories
are backed up on one cron expression and their backups kept for one TTL
(`schedulesFromOneSpec_of_reachable`).

## Two fault-free reconciles apply an edit

From any world, two reconciles in which no call fails leave velero schedules carrying the spec's
cron expression and TTL (`reconcileSchedule_twice_applies_spec`): the first creates them, deletes
drifted ones, or finds them applied, and the second creates them after a deletion. Two hypotheses
are needed and stated. The cron expression must be valid, or the controller stops at validation.
The TTL must be zero or at least a second: the create loop drops a shorter one, and the drift
check then finds every new schedule drifted.

## Schedules that reconciles leave alone stay

Once the owned schedules apply the spec (`ScheduleWorld.Applied`), no reconcile touches them,
whatever its calls return, and neither velero's phase reports nor the collision check changes the
drift check's verdict. Along every run that does not edit the spec they stay as they are, up to
the phases velero reports (`applied_stable`), and a fault-free first reconcile therefore sets up
the three schedules for as long as the spec stays (`faultFree_setup_stays`). The same holds while
the cron expression is invalid, since every reconcile stops at validation: schedules made from an
earlier valid spec keep running on their old cron expression (`invalid_cron_freezes_schedules`).
All three follow from one run lemma, `map_withoutPhase_of_run`.
-/

namespace ClusterBackup

open scoped List

/-! ## Schedules up to their phases -/

/-- A velero schedule as the controller writes it: everything but the phase velero reports. -/
def Velero.Schedule.withoutPhase (vs : Velero.Schedule) : Velero.Schedule :=
  { vs with phase := "" }

@[simp] theorem Velero.Schedule.withoutPhase_setPhase (vs : Velero.Schedule) (phase : String) :
    ({ vs with phase := phase } : Velero.Schedule).withoutPhase = vs.withoutPhase := rfl

@[simp] theorem withoutPhase_veleroScheduleFor (spec : BackupScheduleSpec) (key : ResourceType) :
    (veleroScheduleFor spec key).withoutPhase = veleroScheduleFor spec key := rfl

/-- The drift check does not read the phases velero reports. -/
theorem isScheduleSpecUpdated_withoutPhase (ctx : ScheduleContext)
    (schedules : List Velero.Schedule) (bs : BackupSchedule) :
    isScheduleSpecUpdated ctx (schedules.map Velero.Schedule.withoutPhase) bs =
      isScheduleSpecUpdated ctx schedules bs := by
  simp [isScheduleSpecUpdated, List.any_map, Function.comp_def, Velero.Schedule.withoutPhase]

theorem isScheduleSpecUpdated_congr_withoutPhase (ctx : ScheduleContext)
    {schedules schedules' : List Velero.Schedule} {bs bs' : BackupSchedule}
    (h : schedules'.map Velero.Schedule.withoutPhase = schedules.map Velero.Schedule.withoutPhase)
    (hspec : bs'.spec = bs.spec) :
    isScheduleSpecUpdated ctx schedules' bs' = isScheduleSpecUpdated ctx schedules bs := by
  rw [← isScheduleSpecUpdated_withoutPhase, h, isScheduleSpecUpdated_withoutPhase,
    isScheduleSpecUpdated_congr ctx _ hspec]

variable (ctx : ScheduleContext)
  (sort : (Velero.Backup → Velero.Backup → Bool) → List Velero.Backup → List Velero.Backup)

/-- A step is a reconcile, or leaves the owned schedules as they are but for their phases. -/
theorem scheduleStep_reconcile_or_map_withoutPhase {w w' : ScheduleWorld}
    (h : ScheduleStep ctx sort w w') :
    (∃ calls, w' = (reconcileSchedule ctx calls w).1) ∨
      w'.owned.map Velero.Schedule.withoutPhase = w.owned.map Velero.Schedule.withoutPhase := by
  cases h with
  | reconcile calls => exact .inl ⟨calls, rfl⟩
  | engine _ pre post vs phase h => exact .inr (by rw [h]; simp)
  | edit => exact .inr rfl
  | collision => exact .inr (by simp)

/-! ## One spec per generation -/

/-- Every velero schedule the create loop makes is its category's schedule for the spec. -/
theorem mem_initVeleroSchedules (create : String → Option String) :
    ∀ (keys : List ResourceType) (bs : BackupSchedule) {vs : Velero.Schedule},
      vs ∈ (initVeleroSchedules create keys bs).1 → ∃ key, vs = veleroScheduleFor bs.spec key
  | [], _, _, h => absurd h (List.not_mem_nil _)
  | key :: keys, bs, vs, h => by
    cases hc : create (veleroScheduleFor bs.spec key).name with
    | some err => simp only [initVeleroSchedules, hc, List.not_mem_nil] at h
    | none =>
      simp only [initVeleroSchedules, hc, List.mem_cons] at h
      rcases h with rfl | h
      · exact ⟨key, rfl⟩
      · simpa using mem_initVeleroSchedules create keys _ h

/-- Every owned velero schedule is, but for its phase, the schedule of a category made from one
spec. -/
def SchedulesFromOneSpec (w : ScheduleWorld) : Prop :=
  ∃ spec, ∀ vs ∈ w.owned, ∃ key, vs.withoutPhase = veleroScheduleFor spec key

theorem schedulesFromOneSpec_of_subset {w w' : ScheduleWorld}
    (h : ∀ vs ∈ w'.owned, vs ∈ w.owned) (hw : SchedulesFromOneSpec w) :
    SchedulesFromOneSpec w' :=
  let ⟨spec, hspec⟩ := hw
  ⟨spec, fun vs hvs ↦ hspec vs (h vs hvs)⟩

theorem schedulesFromOneSpec_of_map_withoutPhase {w w' : ScheduleWorld}
    (h : w'.owned.map Velero.Schedule.withoutPhase = w.owned.map Velero.Schedule.withoutPhase)
    (hw : SchedulesFromOneSpec w) : SchedulesFromOneSpec w' := by
  obtain ⟨spec, hspec⟩ := hw
  refine ⟨spec, fun vs hvs ↦ ?_⟩
  obtain ⟨vs', hvs', heq⟩ := List.mem_map.1 (h ▸ List.mem_map_of_mem _ hvs)
  exact heq ▸ hspec vs' hvs'

theorem schedulesFromOneSpec_reconcile (calls : ScheduleCalls) {w : ScheduleWorld}
    (hw : SchedulesFromOneSpec w) : SchedulesFromOneSpec (reconcileSchedule ctx calls w).1 := by
  have keep : ∀ {w'}, w'.owned = w.owned → SchedulesFromOneSpec w' := fun h ↦
    schedulesFromOneSpec_of_subset (fun _ hvs ↦ h ▸ hvs) hw
  have drop : ∀ {w'},
      w'.owned = (deleteVeleroSchedules calls.delete w.backupSchedule (calls.listing w.owned)).1 →
        SchedulesFromOneSpec w' := fun h ↦
    schedulesFromOneSpec_of_subset (fun _ hvs ↦ (calls.listing_perm _).subset
      ((deleteVeleroSchedules_sublist _ _ _).subset (h ▸ hvs))) hw
  rcases reconcileSchedule_world ctx calls w with
    h | ⟨-, h⟩ | ⟨-, -, h⟩ | ⟨-, -, -, h | ⟨-, h⟩⟩ | ⟨-, -, -, h⟩ <;> rw [h]
  · exact hw
  · exact keep (by simp)
  · -- the create branch: every schedule is made from the current spec
    refine ⟨w.backupSchedule.spec, fun vs hvs ↦ ?_⟩
    obtain ⟨key, rfl⟩ :=
      mem_initVeleroSchedules calls.create calls.order w.backupSchedule (by simpa using hvs)
    exact ⟨key, rfl⟩
  · exact drop rfl
  · exact drop (by simp)
  · exact keep (by simp)

theorem schedulesFromOneSpec_step {w w' : ScheduleWorld} (h : ScheduleStep ctx sort w w')
    (hw : SchedulesFromOneSpec w) : SchedulesFromOneSpec w' := by
  rcases scheduleStep_reconcile_or_map_withoutPhase ctx sort h with ⟨calls, rfl⟩ | hmap
  · exact schedulesFromOneSpec_reconcile ctx calls hw
  · exact schedulesFromOneSpec_of_map_withoutPhase hmap hw

/-- **One spec per generation.** In every reachable world, whatever the API calls returned, the
category visit orders, velero's phase reports, the spec edits and the collision checks, the owned
velero schedules were all made from one spec: each is, but for its phase, its category's schedule
for that spec. The categories are backed up on one cron expression and kept for one TTL. -/
theorem schedulesFromOneSpec_of_reachable {w : ScheduleWorld} (h : ScheduleReachable ctx sort w) :
    SchedulesFromOneSpec w := by
  induction h with
  | init => exact ⟨⟨"", .zero⟩, fun _ h ↦ absurd h (List.not_mem_nil _)⟩
  | step _ hs ih => exact schedulesFromOneSpec_step ctx sort hs ih

/-- The invariant after a creating reconcile and an edit of the spec that leaves the schedules
drifted. -/
theorem schedulesFromOneSpec_edited :
    let ctx : ScheduleContext := ⟨fun _ ↦ none, "acm-validation-policy-schedule",
      "cluster.open-cluster-management.io/backup-cluster"⟩
    let w₁ := (reconcileSchedule ctx .ok ⟨⟨"open-cluster-management-backup", "schedule-acm",
      ⟨"0 * * * *", .zero⟩, {}⟩, []⟩).1
    let w₂ : ScheduleWorld :=
      { w₁ with
        backupSchedule := { w₁.backupSchedule with spec := ⟨"0 */6 * * *", .zero⟩ } }
    ScheduleReachable ctx insertionSort w₂ ∧ SchedulesFromOneSpec w₂ :=
  have hrun := ScheduleReachable.step (.step (.init _) (.reconcile .ok _ (List.Perm.refl _)))
    (.edit _ ⟨"0 */6 * * *", .zero⟩)
  ⟨hrun, schedulesFromOneSpec_of_reachable _ insertionSort hrun⟩

/-! ## Two fault-free reconciles apply an edit -/

/-- A reconcile in which no call fails, visiting the categories and listing the owned schedules
in any order. -/
structure ScheduleCalls.FaultFree (calls : ScheduleCalls) : Prop where
  order : calls.order ~ resourceTypeKeys
  list : calls.list = none
  create : ∀ name, calls.create name = none
  delete : ∀ name, calls.delete name = none
  update : calls.update = none

theorem ScheduleCalls.faultFree_ok : ScheduleCalls.ok.FaultFree :=
  ⟨List.Perm.refl _, rfl, fun _ ↦ rfl, fun _ ↦ rfl, rfl⟩

/-- The owned velero schedules apply the spec: there are some, and the drift check finds none that
differs from it. -/
def ScheduleWorld.Applied (w : ScheduleWorld) : Prop :=
  w.owned ≠ [] ∧ isScheduleSpecUpdated ctx w.owned w.backupSchedule = false

instance (w : ScheduleWorld) : Decidable (w.Applied ctx) :=
  inferInstanceAs (Decidable (_ ∧ _))

/-- Applying the spec, schedule by schedule: each has the spec's cron expression, and the spec's
TTL unless it is the validation schedule. -/
theorem ScheduleWorld.applied_iff (w : ScheduleWorld) :
    w.Applied ctx ↔ w.owned ≠ [] ∧ ∀ vs ∈ w.owned,
      vs.schedule = w.backupSchedule.spec.veleroSchedule ∧
        (vs.name ≠ ctx.validationScheduleName → vs.ttl = w.backupSchedule.spec.veleroTTL) := by
  simp only [ScheduleWorld.Applied, isScheduleSpecUpdated, List.any_eq_false, Bool.or_eq_true,
    Bool.and_eq_true, decide_eq_true_eq, not_or, not_and, not_not]
  exact and_congr_right fun _ ↦ forall₂_congr fun _ _ ↦ and_comm

/-- **Applied schedules are left alone.** A reconcile keeps owned schedules that apply the spec,
whatever its calls return. -/
theorem reconcileSchedule_owned_of_applied (calls : ScheduleCalls) {w : ScheduleWorld}
    (hw : w.Applied ctx) : (reconcileSchedule ctx calls w).1.owned = w.owned := by
  rcases reconcileSchedule_world ctx calls w with
    h | ⟨-, h⟩ | ⟨-, he, -⟩ | ⟨-, -, hd, -⟩ | ⟨-, -, -, h⟩
  · rw [h]
  · rw [h]; simp
  · exact absurd he hw.1
  · exact absurd hd (by simp [hw.2])
  · rw [h]; simp

theorem applied_reconcile (calls : ScheduleCalls) {w : ScheduleWorld} (hw : w.Applied ctx) :
    (reconcileSchedule ctx calls w).1.Applied ctx := by
  rw [ScheduleWorld.Applied, reconcileSchedule_owned_of_applied ctx calls hw,
    isScheduleSpecUpdated_congr ctx _ (reconcileSchedule_spec ctx calls w)]
  exact hw

/-- What a fault-free reconcile leaves on a valid spec: the schedules of every category when there
were none, none when they drifted, and the ones there were otherwise. -/
theorem reconcileSchedule_owned_of_faultFree {calls : ScheduleCalls} (hc : calls.FaultFree)
    {w : ScheduleWorld} (hvalid : parseCronSchedule ctx w.backupSchedule = []) :
    (reconcileSchedule ctx calls w).1.owned =
      if w.owned = [] then calls.order.map (veleroScheduleFor w.backupSchedule.spec)
      else if isScheduleSpecUpdated ctx w.owned w.backupSchedule then [] else w.owned := by
  split_ifs with he hd
  · rw [reconcileSchedule_owned_of_create hvalid hc.list he,
      (initVeleroSchedules_of_ok _ hc.create _ _).1]
  · rw [reconcileSchedule_owned_of_drift hvalid hc.list he hd,
      (deleteVeleroSchedules_of_ok _ hc.delete _ _).1]
  · exact reconcileSchedule_owned_of_applied ctx calls ⟨he, by simpa using hd⟩

/-- The schedules of a complete creation apply the spec they were made from when the create loop
keeps its TTL: zero, or at least a second. -/
theorem isScheduleSpecUpdated_created {keys : List ResourceType} (bs : BackupSchedule)
    (httl : bs.spec.veleroTTL = .zero ∨ bs.spec.veleroTTL.truncate .second ≠ .zero) :
    isScheduleSpecUpdated ctx (keys.map (veleroScheduleFor bs.spec)) bs = false := by
  rw [Bool.eq_false_iff, Ne, isScheduleSpecUpdated_veleroScheduleFor]
  rintro ⟨-, hz, htr⟩
  exact httl.elim hz (· htr)

/-- A fault-free reconcile that finds no schedule, on a valid cron expression and a TTL the create
loop keeps, creates the schedule of each category, and they apply the spec. -/
theorem applied_of_faultFree_create {calls : ScheduleCalls} (hc : calls.FaultFree)
    {w : ScheduleWorld} (hvalid : parseCronSchedule ctx w.backupSchedule = [])
    (httl : w.backupSchedule.spec.veleroTTL = .zero ∨
      w.backupSchedule.spec.veleroTTL.truncate .second ≠ .zero) (he : w.owned = []) :
    (reconcileSchedule ctx calls w).1.owned =
        calls.order.map (veleroScheduleFor w.backupSchedule.spec) ∧
      (reconcileSchedule ctx calls w).1.Applied ctx := by
  have howned := reconcileSchedule_owned_of_faultFree ctx hc hvalid (w := w)
  rw [if_pos he] at howned
  refine ⟨howned, fun h ↦ ?_, ?_⟩
  · have := hc.order.length_eq
    rw [List.map_eq_nil_iff.1 (howned.symm.trans h)] at this
    exact absurd this (by decide)
  · rw [howned, isScheduleSpecUpdated_congr ctx _ (reconcileSchedule_spec ctx calls w)]
    exact isScheduleSpecUpdated_created ctx _ httl

/-- **Two fault-free reconciles apply the spec.** From any world whose BackupSchedule has a valid
cron expression and a TTL that is zero or at least a second, two reconciles in which no call
fails, in any category visit orders, leave velero schedules, each with the spec's cron expression
and, unless it is the validation schedule, the spec's TTL. -/
theorem reconcileSchedule_twice_applies_spec {calls₁ calls₂ : ScheduleCalls} {w : ScheduleWorld}
    (hvalid : parseCronSchedule ctx w.backupSchedule = [])
    (httl : w.backupSchedule.spec.veleroTTL = .zero ∨
      w.backupSchedule.spec.veleroTTL.truncate .second ≠ .zero)
    (h₁ : calls₁.FaultFree) (h₂ : calls₂.FaultFree) :
    let w₂ := (reconcileSchedule ctx calls₂ (reconcileSchedule ctx calls₁ w).1).1
    w₂.owned ≠ [] ∧ ∀ vs ∈ w₂.owned,
      vs.schedule = w.backupSchedule.spec.veleroSchedule ∧
        (vs.name ≠ ctx.validationScheduleName → vs.ttl = w.backupSchedule.spec.veleroTTL) := by
  -- a fault-free reconcile that finds nothing creates schedules applying the spec
  have create : ∀ {calls : ScheduleCalls} {v : ScheduleWorld}, calls.FaultFree →
      v.backupSchedule.spec = w.backupSchedule.spec → v.owned = [] →
        (reconcileSchedule ctx calls v).1.Applied ctx := fun hc hspec he ↦
    (applied_of_faultFree_create ctx hc ((parseCronSchedule_congr ctx hspec).trans hvalid)
      (hspec ▸ httl) he).2
  have happlied :
      (reconcileSchedule ctx calls₂ (reconcileSchedule ctx calls₁ w).1).1.Applied ctx := by
    by_cases he : w.owned = []
    · exact applied_reconcile ctx calls₂ (create h₁ rfl he)
    by_cases hd : isScheduleSpecUpdated ctx w.owned w.backupSchedule
    · refine create h₂ (reconcileSchedule_spec ctx calls₁ w) ?_
      rw [reconcileSchedule_owned_of_faultFree ctx h₁ hvalid, if_neg he, if_pos hd]
    · exact applied_reconcile ctx calls₂
        (applied_reconcile ctx calls₁ ⟨he, by simpa using hd⟩)
  simpa only [reconcileSchedule_spec] using (ScheduleWorld.applied_iff ctx _).1 happlied

/-- The theorem after an edit of the TTL from zero to an hour: the first reconcile deletes the
three schedules, the second recreates them. -/
theorem reconcileSchedule_twice_applies_spec_ttlEdited :
    let ctx : ScheduleContext := ⟨fun _ ↦ none, "acm-validation-policy-schedule",
      "cluster.open-cluster-management.io/backup-cluster"⟩
    let w : ScheduleWorld := ⟨⟨"open-cluster-management-backup", "schedule-acm",
      ⟨"0 * * * *", ⟨3600000000000⟩⟩, {}⟩,
      resourceTypeKeys.map (veleroScheduleFor ⟨"0 * * * *", .zero⟩)⟩
    let w₂ := (reconcileSchedule ctx .ok (reconcileSchedule ctx .ok w).1).1
    parseCronSchedule ctx w.backupSchedule = [] ∧
      (w.backupSchedule.spec.veleroTTL = .zero ∨
        w.backupSchedule.spec.veleroTTL.truncate .second ≠ .zero) ∧
      w₂.owned ≠ [] ∧ ∀ vs ∈ w₂.owned,
        vs.schedule = w.backupSchedule.spec.veleroSchedule ∧
          (vs.name ≠ ctx.validationScheduleName → vs.ttl = w.backupSchedule.spec.veleroTTL) :=
  ⟨by decide, .inr (by decide),
    reconcileSchedule_twice_applies_spec _ (by decide) (.inr (by decide))
      ScheduleCalls.faultFree_ok ScheduleCalls.faultFree_ok⟩

/-! ## Schedules that reconciles leave alone stay -/

/-- A step of the system that leaves the spec as it was: any step but an edit that changes it. -/
def ScheduleStepKeepingSpec (w w' : ScheduleWorld) : Prop :=
  ScheduleStep ctx sort w w' ∧ w'.backupSchedule.spec = w.backupSchedule.spec

/-- **The run lemma for runs that keep the spec.** A property of the spec and of the owned
schedules up to their phases, under which every reconcile keeps the owned schedules, holds along
every run that keeps the spec, and the owned schedules stay as they are but for their phases. -/
theorem map_withoutPhase_of_run {Q : ScheduleWorld → Prop}
    (hQ : ∀ {w w' : ScheduleWorld},
      w'.owned.map Velero.Schedule.withoutPhase = w.owned.map Velero.Schedule.withoutPhase →
        w'.backupSchedule.spec = w.backupSchedule.spec → Q w → Q w')
    (hkeep : ∀ (calls : ScheduleCalls) {w : ScheduleWorld}, Q w →
      (reconcileSchedule ctx calls w).1.owned = w.owned)
    {w w' : ScheduleWorld} (hrun : Relation.ReflTransGen (ScheduleStepKeepingSpec ctx sort) w w')
    (hw : Q w) :
    Q w' ∧
      w'.owned.map Velero.Schedule.withoutPhase = w.owned.map Velero.Schedule.withoutPhase := by
  induction hrun with
  | refl => exact ⟨hw, rfl⟩
  | @tail u v _ hs ih =>
    have hmap : v.owned.map Velero.Schedule.withoutPhase =
        u.owned.map Velero.Schedule.withoutPhase := by
      rcases scheduleStep_reconcile_or_map_withoutPhase ctx sort hs.1 with ⟨calls, rfl⟩ | hmap
      · rw [hkeep calls ih.1]
      · exact hmap
    exact ⟨hQ hmap hs.2 ih.1, hmap.trans ih.2⟩

theorem applied_of_map_withoutPhase {w w' : ScheduleWorld}
    (h : w'.owned.map Velero.Schedule.withoutPhase = w.owned.map Velero.Schedule.withoutPhase)
    (hspec : w'.backupSchedule.spec = w.backupSchedule.spec) (hw : w.Applied ctx) :
    w'.Applied ctx :=
  ⟨fun he ↦ hw.1 (List.map_eq_nil_iff.1 (h ▸ (List.map_eq_nil_iff.2 he))),
    (isScheduleSpecUpdated_congr_withoutPhase ctx h hspec).trans hw.2⟩

/-- **Applied schedules stay.** Along every run that does not edit the spec, made of reconciles
whatever their calls return, velero's phase reports and collision checks, schedules that apply
the spec keep applying it and stay as they are but for the phases velero reports: no schedule is
created, deleted or rewritten. -/
theorem applied_stable {w w' : ScheduleWorld}
    (hrun : Relation.ReflTransGen (ScheduleStepKeepingSpec ctx sort) w w') (hw : w.Applied ctx) :
    w'.Applied ctx ∧
      w'.owned.map Velero.Schedule.withoutPhase = w.owned.map Velero.Schedule.withoutPhase :=
  map_withoutPhase_of_run ctx sort (applied_of_map_withoutPhase ctx)
    (reconcileSchedule_owned_of_applied ctx) hrun hw

/-- The theorem after a fault-free creation, over a further reconcile. -/
theorem applied_stable_hourly :
    let ctx : ScheduleContext := ⟨fun _ ↦ none, "acm-validation-policy-schedule",
      "cluster.open-cluster-management.io/backup-cluster"⟩
    let w := (reconcileSchedule ctx .ok ⟨⟨"open-cluster-management-backup", "schedule-acm",
      ⟨"0 * * * *", .zero⟩, {}⟩, []⟩).1
    let w' := (reconcileSchedule ctx .ok w).1
    Relation.ReflTransGen (ScheduleStepKeepingSpec ctx insertionSort) w w' ∧ w.Applied ctx ∧
      w'.Applied ctx ∧
        w'.owned.map Velero.Schedule.withoutPhase = w.owned.map Velero.Schedule.withoutPhase :=
  have hrun := Relation.ReflTransGen.single
    ⟨ScheduleStep.reconcile .ok _ (List.Perm.refl _), reconcileSchedule_spec _ .ok _⟩
  have hw : ScheduleWorld.Applied _ _ := by decide
  ⟨hrun, hw, applied_stable _ insertionSort hrun hw⟩

/-- **A fault-free setup lasts until the spec changes.** On a BackupSchedule that owns no velero
schedule, with a valid cron expression and a TTL that is zero or at least a second, a reconcile in
which no call fails creates the schedule of each category; every run after it that keeps the spec,
made of reconciles whatever their calls return, velero's phase reports and collision checks, then
leaves exactly these three schedules, one per category, but for their phases. -/
theorem faultFree_setup_stays {calls : ScheduleCalls} (hc : calls.FaultFree)
    {bs : BackupSchedule} (hvalid : parseCronSchedule ctx bs = [])
    (httl : bs.spec.veleroTTL = .zero ∨ bs.spec.veleroTTL.truncate .second ≠ .zero)
    {w : ScheduleWorld}
    (hrun : Relation.ReflTransGen (ScheduleStepKeepingSpec ctx sort)
      (reconcileSchedule ctx calls ⟨bs, []⟩).1 w) :
    w.owned.map Velero.Schedule.withoutPhase ~
      resourceTypeKeys.map (veleroScheduleFor bs.spec) := by
  obtain ⟨howned, happlied⟩ := applied_of_faultFree_create ctx hc hvalid httl (w := ⟨bs, []⟩) rfl
  rw [(map_withoutPhase_of_run ctx sort (applied_of_map_withoutPhase ctx)
    (reconcileSchedule_owned_of_applied ctx) hrun happlied).2, howned, List.map_map]
  exact hc.order.map _

/-- The theorem on an hourly BackupSchedule, over a later reconcile. -/
theorem faultFree_setup_stays_hourly :
    let ctx : ScheduleContext := ⟨fun _ ↦ none, "acm-validation-policy-schedule",
      "cluster.open-cluster-management.io/backup-cluster"⟩
    let bs : BackupSchedule := ⟨"open-cluster-management-backup", "schedule-acm",
      ⟨"0 * * * *", .zero⟩, {}⟩
    let w₁ := (reconcileSchedule ctx .ok ⟨bs, []⟩).1
    parseCronSchedule ctx bs = [] ∧
      (bs.spec.veleroTTL = .zero ∨ bs.spec.veleroTTL.truncate .second ≠ .zero) ∧
      Relation.ReflTransGen (ScheduleStepKeepingSpec ctx insertionSort) w₁
        (reconcileSchedule ctx .ok w₁).1 ∧
      (reconcileSchedule ctx .ok w₁).1.owned.map Velero.Schedule.withoutPhase ~
        resourceTypeKeys.map (veleroScheduleFor bs.spec) :=
  have hrun := Relation.ReflTransGen.single
    ⟨ScheduleStep.reconcile .ok _ (List.Perm.refl _), reconcileSchedule_spec _ .ok _⟩
  ⟨by decide, .inl rfl, hrun,
    faultFree_setup_stays _ insertionSort ScheduleCalls.faultFree_ok (by decide) (.inl rfl) hrun⟩

/-- A reconcile on an invalid cron expression stops at validation and keeps the owned
schedules. -/
theorem reconcileSchedule_owned_of_invalid (calls : ScheduleCalls) {w : ScheduleWorld}
    (hinvalid : parseCronSchedule ctx w.backupSchedule ≠ []) :
    (reconcileSchedule ctx calls w).1.owned = w.owned := by
  simp [reconcileSchedule, hinvalid]

/-- **An invalid cron expression freezes the schedules.** Along every run that keeps a spec whose
cron expression fails validation, made of reconciles whatever their calls return, velero's phase
reports and collision checks, no velero schedule is created, deleted or rewritten: schedules made
from an earlier valid spec keep running on their old cron expression and TTL. -/
theorem invalid_cron_freezes_schedules {w w' : ScheduleWorld}
    (hrun : Relation.ReflTransGen (ScheduleStepKeepingSpec ctx sort) w w')
    (hinvalid : parseCronSchedule ctx w.backupSchedule ≠ []) :
    w'.owned.map Velero.Schedule.withoutPhase = w.owned.map Velero.Schedule.withoutPhase :=
  (map_withoutPhase_of_run ctx sort
    (fun _ hspec h ↦ (parseCronSchedule_congr ctx hspec).trans_ne h)
    (reconcileSchedule_owned_of_invalid ctx) hrun hinvalid).2

/-- The theorem after the cron expression of an hourly BackupSchedule was emptied. -/
theorem invalid_cron_freezes_schedules_emptied :
    let ctx : ScheduleContext := ⟨fun _ ↦ none, "acm-validation-policy-schedule",
      "cluster.open-cluster-management.io/backup-cluster"⟩
    let w : ScheduleWorld :=
      ⟨⟨"open-cluster-management-backup", "schedule-acm", ⟨"", .zero⟩, {}⟩,
        resourceTypeKeys.map (veleroScheduleFor ⟨"0 * * * *", .zero⟩)⟩
    let w' := (reconcileSchedule ctx .ok w).1
    Relation.ReflTransGen (ScheduleStepKeepingSpec ctx insertionSort) w w' ∧
      parseCronSchedule ctx w.backupSchedule ≠ [] ∧
      w'.owned.map Velero.Schedule.withoutPhase = w.owned.map Velero.Schedule.withoutPhase :=
  have hrun := Relation.ReflTransGen.single
    ⟨ScheduleStep.reconcile .ok _ (List.Perm.refl _), reconcileSchedule_spec _ .ok _⟩
  have hinvalid : parseCronSchedule _ _ ≠ [] := by decide
  ⟨hrun, hinvalid, invalid_cron_freezes_schedules _ insertionSort hrun hinvalid⟩

end ClusterBackup
