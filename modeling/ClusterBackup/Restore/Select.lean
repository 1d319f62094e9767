import ClusterBackup.Api
import ClusterBackup.Sort

/-!
# Choosing the backup to restore

`getVeleroBackupName` returns, for one category, the backup named in the Restore's spec when it
exists, and otherwise sorts the backups whose name contains the category's schedule name with
`mostRecentWithLessErrors` and takes the first.

## When the order is not an order

`mostRecentWithLessErrors.Less` compares error counts, then start times with
`(*metav1.Time).Before`, which is false whenever either start time is missing. A backup that has
not started is then "equal" to every backup of its error count, and equality stops being
transitive: with `a` started at `t₁ < t₂`, `n` not started and `b` started at `t₂`, both
`a ~ n` and `n ~ b` while `b` must come before `a`. Go's sort contract no longer applies, and the
insertion sort Go runs on three elements leaves `[a, n, b]` as it is
(`getVeleroBackupName_unstarted_between`).

When every related backup has a start time, `Less` is a strict weak ordering, and any sort meeting
the contract puts a backup with the fewest errors and, among those, the latest start first
(`getVeleroBackupName_best_of_started`). A best backup is then one up to its name as long as
backups alike in error count and start time share a name, so the unstable sort cannot let the
order the API server lists the backups in decide the choice (`getVeleroBackupName_perm`).

## One call per category

Each category's selection makes its own API call, a `Get` of the named backup or a `List` of the
namespace's backups, and the cache answers each in its own order, or fails.
`getVeleroBackupNameCall` is the selection given that answer; the reconciler's model takes the
answers as inputs.
-/

namespace ClusterBackup

open scoped List

/-- `mostRecentWithLessErrors.Less`: fewer errors first, and among equal error counts the later
start first. -/
def mostRecentWithLessErrors (a b : Velero.Backup) : Bool :=
  if a.errors < b.errors then true
  else if a.errors > b.errors then false
  else metaTimeBefore b.startTimestamp a.startTimestamp

/-- The backup name a Restore's spec gives for a category. -/
def RestoreSpec.backupNameFor (spec : RestoreSpec) : ResourceType → Option String
  | .managedClusters => spec.veleroManagedClustersBackupName
  | .credentials => spec.veleroCredentialsBackupName
  | .resources => spec.veleroResourcesBackupName

/-- The text of the API server's `NotFound` error for a velero backup. -/
def backupNotFound (name : String) : String :=
  "backups.velero.io \"" ++ name ++ "\" not found"

/-- The backups whose name contains the category's schedule name. -/
def relatedBackups (backups : List Velero.Backup) (resourceType : ResourceType) :
    List Velero.Backup :=
  filterBackups backups fun b ↦ stringsContains b.name (veleroScheduleNames resourceType)

variable
  (sort : (Velero.Backup → Velero.Backup → Bool) → List Velero.Backup → List Velero.Backup)

/-- The second half of `getVeleroBackupName`, after "backup name not available, find a proper
backup": the first of the related backups once sorted. -/
def findVeleroBackupName (backups : List Velero.Backup) (resourceType : ResourceType) :
    Except String String :=
  if backups = [] then .error "no backups found"
  else
    match sort mostRecentWithLessErrors (relatedBackups backups resourceType) with
    | [] => .error "no backups found"
    | b :: _ => .ok b.name

/-- `getVeleroBackupName`: the backup to restore for a category, among the velero backups of the
Restore's namespace. -/
def getVeleroBackupName (restore : Restore) (backups : List Velero.Backup)
    (resourceType : ResourceType) : Except String String :=
  match restore.spec.backupNameFor resourceType with
  | some name =>
    if 0 < name.length then
      if backups.any (·.name == name) then .ok name
      else .error ("cannot find " ++ name ++ " Velero Backup: " ++ backupNotFound name)
    else findVeleroBackupName sort backups resourceType
  | none => findVeleroBackupName sort backups resourceType

/-- `getVeleroBackupName` as a reconcile runs it, given what its one API call answers: the `r.Get`
of the named backup or the `r.Client.List` of the namespace's backups fails with an error, or
answers with the backups as the cache lists them, and the selection is then made over that
answer. -/
def getVeleroBackupNameCall (restore : Restore) (answer : Except String (List Velero.Backup))
    (resourceType : ResourceType) : Except String String :=
  match answer with
  | .ok backups => getVeleroBackupName sort restore backups resourceType
  | .error err =>
    match restore.spec.backupNameFor resourceType with
    | some name =>
      if 0 < name.length then .error ("cannot find " ++ name ++ " Velero Backup: " ++ err)
      else .error ("unable to list velero backups: " ++ err)
    | none => .error ("unable to list velero backups: " ++ err)

@[simp] theorem getVeleroBackupNameCall_ok (restore : Restore) (backups : List Velero.Backup)
    (c : ResourceType) :
    getVeleroBackupNameCall sort restore (.ok backups) c =
      getVeleroBackupName sort restore backups c :=
  rfl

/-- A selection succeeds only on an answer, and is then the selection over it. -/
theorem getVeleroBackupNameCall_eq_ok {restore : Restore}
    {answer : Except String (List Velero.Backup)} {c : ResourceType} {b : String}
    (h : getVeleroBackupNameCall sort restore answer c = .ok b) :
    ∃ backups, answer = .ok backups ∧ getVeleroBackupName sort restore backups c = .ok b := by
  cases answer with
  | ok backups => exact ⟨backups, rfl, h⟩
  | error err =>
    simp only [getVeleroBackupNameCall] at h
    split at h
    · split_ifs at h
    · cases h

/-! ## The comparator -/

/-- A backup's start time in nanoseconds, zero when it has not started; read only where every
compared backup has started. -/
def startNs (b : Velero.Backup) : Int := (b.startTimestamp.map Time.ns).getD 0

/-- `Less(b, a)` is false exactly when `a` has at most `b`'s errors and, with as many, did not
start before `b`. -/
theorem mostRecentWithLessErrors_eq_false_iff (b a : Velero.Backup) :
    mostRecentWithLessErrors b a = false ↔ a.errors ≤ b.errors ∧
      (b.errors = a.errors → metaTimeBefore a.startTimestamp b.startTimestamp = false) := by
  rcases Int.lt_trichotomy b.errors a.errors with h | h | h
  · simp [mostRecentWithLessErrors, h, Int.not_le.2 h]
  · simp [mostRecentWithLessErrors, h]
  · simp [mostRecentWithLessErrors, h, Int.not_lt.2 (Int.le_of_lt h), Int.ne_of_gt h,
      Int.le_of_lt h]

/-- On started backups `Less` is lexicographic: fewer errors, then the later start. -/
theorem mostRecentWithLessErrors_of_started {a b : Velero.Backup} (ha : a.startTimestamp.isSome)
    (hb : b.startTimestamp.isSome) : mostRecentWithLessErrors a b =
      decide (a.errors < b.errors ∨ a.errors = b.errors ∧ startNs b < startNs a) := by
  obtain ⟨ta, hta⟩ := Option.isSome_iff_exists.1 ha
  obtain ⟨tb, htb⟩ := Option.isSome_iff_exists.1 hb
  rcases Int.lt_trichotomy a.errors b.errors with h | h | h
  · simp [mostRecentWithLessErrors, h]
  · simp [mostRecentWithLessErrors, h, startNs, hta, htb, Time.before]
  · simp [mostRecentWithLessErrors, h, Int.not_lt.2 (Int.le_of_lt h), Int.ne_of_gt h]

/-- Once every backup compared has started, `Less` is a strict weak ordering, and the sort
contract applies. -/
theorem mostRecentWithLessErrors_strictWeakOrder {s : List Velero.Backup}
    (hs : ∀ b ∈ s, b.startTimestamp.isSome) : StrictWeakOrder mostRecentWithLessErrors s where
  irrefl a ha := by simp [mostRecentWithLessErrors_of_started (hs a ha) (hs a ha)]
  trans a ha b hb c hc := by
    simp only [mostRecentWithLessErrors_of_started (hs _ ha) (hs _ hb),
      mostRecentWithLessErrors_of_started (hs _ hb) (hs _ hc),
      mostRecentWithLessErrors_of_started (hs _ ha) (hs _ hc), decide_eq_true_eq]
    omega
  neg_trans a ha b hb c hc := by
    simp only [mostRecentWithLessErrors_of_started (hs _ ha) (hs _ hb),
      mostRecentWithLessErrors_of_started (hs _ hb) (hs _ hc),
      mostRecentWithLessErrors_of_started (hs _ ha) (hs _ hc), decide_eq_false_iff_not]
    omega

/-! ## The selection -/

/-- `b` is a best backup of `backups`: it has the fewest errors, and no backup with as few
started strictly later, where both start times are set. -/
def IsBestBackup (backups : List Velero.Backup) (b : Velero.Backup) : Prop :=
  b ∈ backups ∧ ∀ b' ∈ backups, b.errors ≤ b'.errors ∧
    (b'.errors = b.errors → metaTimeBefore b.startTimestamp b'.startTimestamp = false)

variable {sort}

/-- With no backup named (a nil or empty name), `getVeleroBackupName` is the automatic
selection. -/
theorem getVeleroBackupName_of_auto {restore : Restore} {c : ResourceType}
    (hauto : (restore.spec.backupNameFor c).getD "" = "") (backups : List Velero.Backup) :
    getVeleroBackupName sort restore backups c = findVeleroBackupName sort backups c := by
  unfold getVeleroBackupName
  cases h : restore.spec.backupNameFor c <;> simp_all

/-- The automatic selection fails exactly when no backup is related, and otherwise names the
first related backup in the sorted order. -/
theorem findVeleroBackupName_spec (hsort : SortContract sort) (backups : List Velero.Backup)
    (c : ResourceType) :
    relatedBackups backups c = [] ∧
        findVeleroBackupName sort backups c = .error "no backups found" ∨
      ∃ b rest, sort mostRecentWithLessErrors (relatedBackups backups c) = b :: rest ∧
        findVeleroBackupName sort backups c = .ok b.name := by
  unfold findVeleroBackupName
  by_cases hb : backups = []
  · subst hb
    exact .inl ⟨rfl, rfl⟩
  rw [if_neg hb]
  have hperm := hsort.perm mostRecentWithLessErrors (relatedBackups backups c)
  cases hs : sort mostRecentWithLessErrors (relatedBackups backups c) with
  | nil => exact .inl ⟨(hs ▸ hperm).symm.eq_nil, rfl⟩
  | cons b rest => exact .inr ⟨b, rest, rfl, rfl⟩

/-- A backup the automatic selection returns is a related one. -/
theorem findVeleroBackupName_related (hsort : SortContract sort) {backups : List Velero.Backup}
    {c : ResourceType} {name : String} (h : findVeleroBackupName sort backups c = .ok name) :
    ∃ b ∈ relatedBackups backups c, b.name = name := by
  rcases findVeleroBackupName_spec hsort backups c with ⟨-, he⟩ | ⟨b, rest, hs, hr⟩
  · rw [he] at h
    cases h
  · rw [hr] at h
    cases h
    exact ⟨b, (hsort.perm _ _).subset (hs ▸ List.mem_cons_self b rest), rfl⟩

/-- **Automatic selection fails only when nothing is related.** For every sort meeting Go's
contract, with no backup named for the category, `getVeleroBackupName` fails with "no backups
found" iff no backup's name contains the category's schedule name, and otherwise returns the name
of such a backup. -/
theorem getVeleroBackupName_auto_related (hsort : SortContract sort) {restore : Restore}
    {c : ResourceType} (hauto : (restore.spec.backupNameFor c).getD "" = "")
    (backups : List Velero.Backup) :
    relatedBackups backups c = [] ∧
        getVeleroBackupName sort restore backups c = .error "no backups found" ∨
      ∃ b ∈ relatedBackups backups c,
        getVeleroBackupName sort restore backups c = .ok b.name := by
  rw [getVeleroBackupName_of_auto hauto]
  rcases findVeleroBackupName_spec hsort backups c with h | ⟨b, rest, -, hr⟩
  · exact .inl h
  · obtain ⟨b', hb', hname⟩ := findVeleroBackupName_related hsort hr
    exact .inr ⟨b', hb', hname ▸ hr⟩

/-- The theorem at Go's insertion sort, on the three resources backups of
`getVeleroBackupName_unstarted_between`: a related backup is chosen. -/
theorem getVeleroBackupName_auto_related_unstarted :
    let restore : Restore := ⟨"open-cluster-management-backup", "restore-acm", {}, {}⟩
    let backups : List Velero.Backup :=
      [⟨"acm-resources-schedule-20210910181336", [], "Completed", 0,
          some (Time.ofSeconds 1631297616)⟩,
        ⟨"acm-resources-schedule-20210910184336", [], "New", 0, none⟩,
        ⟨"acm-resources-schedule-20210910191336", [], "Completed", 0,
          some (Time.ofSeconds 1631301216)⟩]
    SortContract (insertionSort (α := Velero.Backup)) ∧
      (restore.spec.backupNameFor .resources).getD "" = "" ∧
      (relatedBackups backups .resources = [] ∧
          getVeleroBackupName insertionSort restore backups .resources =
            .error "no backups found" ∨
        ∃ b ∈ relatedBackups backups .resources,
          getVeleroBackupName insertionSort restore backups .resources = .ok b.name) :=
  ⟨insertionSort_sortContract, rfl,
    getVeleroBackupName_auto_related insertionSort_sortContract (by rfl) _⟩

/-- With every related backup started, the automatic selection names a best related backup, or
fails because none is related. -/
theorem findVeleroBackupName_best (hsort : SortContract sort) (backups : List Velero.Backup)
    {c : ResourceType} (hstarted : ∀ b ∈ relatedBackups backups c, b.startTimestamp.isSome) :
    relatedBackups backups c = [] ∧
        findVeleroBackupName sort backups c = .error "no backups found" ∨
      ∃ b, IsBestBackup (relatedBackups backups c) b ∧
        findVeleroBackupName sort backups c = .ok b.name := by
  rcases findVeleroBackupName_spec hsort backups c with h | ⟨b, rest, hs, hr⟩
  · exact .inl h
  have hswo := mostRecentWithLessErrors_strictWeakOrder hstarted
  have hperm := hsort.perm mostRecentWithLessErrors (relatedBackups backups c)
  have hsorted := hsort.sorted _ _ hswo
  rw [hs] at hperm hsorted
  have hmem : b ∈ relatedBackups backups c := hperm.subset (List.mem_cons_self b rest)
  refine .inr ⟨b, ⟨hmem, fun b' hb' ↦ (mostRecentWithLessErrors_eq_false_iff b' b).1 ?_⟩,
    hr⟩
  rcases List.mem_cons.1 (hperm.mem_iff.2 hb') with rfl | hb'
  · exact hswo.irrefl b' hmem
  · exact List.rel_of_pairwise_cons hsorted hb'

/-- **With every related backup started, the choice is a best one.** For every sort meeting Go's
contract, when every related backup has a start time the automatic selection returns a backup
with the fewest errors and, among those, no earlier start than any other. -/
theorem getVeleroBackupName_best_of_started (hsort : SortContract sort) {restore : Restore}
    {c : ResourceType} (hauto : (restore.spec.backupNameFor c).getD "" = "")
    (backups : List Velero.Backup)
    (hstarted : ∀ b ∈ relatedBackups backups c, b.startTimestamp.isSome) :
    relatedBackups backups c = [] ∧
        getVeleroBackupName sort restore backups c = .error "no backups found" ∨
      ∃ b, IsBestBackup (relatedBackups backups c) b ∧
        getVeleroBackupName sort restore backups c = .ok b.name := by
  rw [getVeleroBackupName_of_auto hauto]
  exact findVeleroBackupName_best hsort backups hstarted

/-- The theorem at Go's insertion sort, on three started resources backups with no errors: the
one started last is chosen. -/
theorem getVeleroBackupName_best_of_started_threeHourly :
    let restore : Restore := ⟨"open-cluster-management-backup", "restore-acm", {}, {}⟩
    let backups : List Velero.Backup :=
      [⟨"acm-resources-schedule-20210910181336", [], "Completed", 0,
          some (Time.ofSeconds 1631297616)⟩,
        ⟨"acm-resources-schedule-20210910184336", [], "Completed", 0,
          some (Time.ofSeconds 1631299416)⟩,
        ⟨"acm-resources-schedule-20210910191336", [], "Completed", 0,
          some (Time.ofSeconds 1631301216)⟩]
    (restore.spec.backupNameFor .resources).getD "" = "" ∧
      (∀ b ∈ relatedBackups backups .resources, b.startTimestamp.isSome) ∧
      (relatedBackups backups .resources = [] ∧
          getVeleroBackupName insertionSort restore backups .resources =
            .error "no backups found" ∨
        ∃ b, IsBestBackup (relatedBackups backups .resources) b ∧
          getVeleroBackupName insertionSort restore backups .resources = .ok b.name) :=
  ⟨rfl, by decide,
    getVeleroBackupName_best_of_started insertionSort_sortContract (by rfl) _ (by decide)⟩

/-! ## The listing's order, once every backup started -/

theorem relatedBackups_perm {backups backups' : List Velero.Backup} (h : backups' ~ backups)
    (c : ResourceType) : relatedBackups backups' c ~ relatedBackups backups c :=
  h.filter _

theorem IsBestBackup.of_perm {s s' : List Velero.Backup} (h : s' ~ s) {b : Velero.Backup}
    (hb : IsBestBackup s b) : IsBestBackup s' b :=
  ⟨h.mem_iff.2 hb.1, fun b' hb' ↦ hb.2 b' (h.mem_iff.1 hb')⟩

/-- Among started backups, two best ones have one error count and one start time, so they have one
name when backups alike in both have one name. -/
theorem IsBestBackup.name_eq {s : List Velero.Backup}
    (hstarted : ∀ b ∈ s, b.startTimestamp.isSome)
    (hdistinct : ∀ b ∈ s, ∀ b' ∈ s, b.errors = b'.errors →
      b.startTimestamp = b'.startTimestamp → b.name = b'.name)
    {b b' : Velero.Backup} (hb : IsBestBackup s b) (hb' : IsBestBackup s b') :
    b.name = b'.name := by
  have herr : b.errors = b'.errors := Int.le_antisymm (hb.2 b' hb'.1).1 (hb'.2 b hb.1).1
  have hlt := (hb.2 b' hb'.1).2 herr.symm
  have hgt := (hb'.2 b hb.1).2 herr
  refine hdistinct b hb.1 b' hb'.1 herr ?_
  obtain ⟨⟨t⟩, ht⟩ := Option.isSome_iff_exists.1 (hstarted b hb.1)
  obtain ⟨⟨t'⟩, ht'⟩ := Option.isSome_iff_exists.1 (hstarted b' hb'.1)
  rw [ht, ht'] at hlt hgt ⊢
  simp only [metaTimeBefore_some, Time.before, decide_eq_false_iff_not] at hlt hgt
  rw [Option.some.injEq, Time.mk.injEq]
  omega

/-- With nothing related, the automatic selection fails. -/
theorem findVeleroBackupName_of_related_nil (hsort : SortContract sort)
    {backups : List Velero.Backup} {c : ResourceType} (h : relatedBackups backups c = []) :
    findVeleroBackupName sort backups c = .error "no backups found" := by
  rcases findVeleroBackupName_spec hsort backups c with ⟨-, he⟩ | ⟨b, rest, hs, -⟩
  · exact he
  · have hperm := hsort.perm mostRecentWithLessErrors (relatedBackups backups c)
    rw [hs, h] at hperm
    exact absurd hperm.eq_nil (List.cons_ne_nil _ _)

/-- Once every related backup started, and related backups alike in error count and start time
share a name, the automatic selection is the same over every listing order. -/
theorem findVeleroBackupName_perm (hsort : SortContract sort) {c : ResourceType}
    {backups backups' : List Velero.Backup} (hperm : backups' ~ backups)
    (hstarted : ∀ b ∈ relatedBackups backups c, b.startTimestamp.isSome)
    (hdistinct : ∀ b ∈ relatedBackups backups c, ∀ b' ∈ relatedBackups backups c,
      b.errors = b'.errors → b.startTimestamp = b'.startTimestamp → b.name = b'.name) :
    findVeleroBackupName sort backups' c = findVeleroBackupName sort backups c := by
  have hrel := relatedBackups_perm hperm c
  rcases findVeleroBackupName_best hsort backups hstarted with ⟨hnil, he⟩ | ⟨b, hb, he⟩
  · -- nothing is related in either listing
    rw [hnil] at hrel
    rw [he, findVeleroBackupName_of_related_nil hsort hrel.eq_nil]
  · -- both listings have best backups, and they share a name
    rcases findVeleroBackupName_best hsort backups' (fun b hb ↦ hstarted b (hrel.subset hb)) with
      ⟨hnil', -⟩ | ⟨b', hb', he'⟩
    · exact absurd (hnil' ▸ hrel.mem_iff.2 hb.1) (List.not_mem_nil _)
    · rw [he, he', (hb'.of_perm hrel.symm).name_eq hstarted hdistinct hb]

/-- **Once every related backup has started, the listing's order does not matter.** For every sort
meeting Go's contract and every Restore naming no backup for a category: when every related
backup has a start time, and related backups alike in error count and start time have one name,
`getVeleroBackupName` chooses the same backup in whatever order the backups are listed. -/
theorem getVeleroBackupName_perm (hsort : SortContract sort) {restore : Restore}
    {c : ResourceType} (hauto : (restore.spec.backupNameFor c).getD "" = "")
    {backups backups' : List Velero.Backup} (hperm : backups' ~ backups)
    (hstarted : ∀ b ∈ relatedBackups backups c, b.startTimestamp.isSome)
    (hdistinct : ∀ b ∈ relatedBackups backups c, ∀ b' ∈ relatedBackups backups c,
      b.errors = b'.errors → b.startTimestamp = b'.startTimestamp → b.name = b'.name) :
    getVeleroBackupName sort restore backups' c = getVeleroBackupName sort restore backups c := by
  rw [getVeleroBackupName_of_auto hauto, getVeleroBackupName_of_auto hauto]
  exact findVeleroBackupName_perm hsort hperm hstarted hdistinct

/-- The same for a Restore that names a backup: whether the named backup exists does not depend on
the listing's order either. -/
theorem getVeleroBackupName_congr_perm (hsort : SortContract sort) (restore : Restore)
    {c : ResourceType} {backups backups' : List Velero.Backup} (hperm : backups' ~ backups)
    (hstarted : ∀ b ∈ relatedBackups backups c, b.startTimestamp.isSome)
    (hdistinct : ∀ b ∈ relatedBackups backups c, ∀ b' ∈ relatedBackups backups c,
      b.errors = b'.errors → b.startTimestamp = b'.startTimestamp → b.name = b'.name) :
    getVeleroBackupName sort restore backups' c = getVeleroBackupName sort restore backups c := by
  have hany : ∀ name, backups'.any (·.name == name) = backups.any (·.name == name) := fun _ ↦
    Bool.eq_iff_iff.2 (by simp only [List.any_eq_true, hperm.mem_iff])
  simp only [getVeleroBackupName, findVeleroBackupName_perm hsort hperm hstarted hdistinct, hany]

/-- The theorem at Go's insertion sort on two started resources backups listed both ways. -/
theorem getVeleroBackupName_perm_swapped :
    let restore : Restore := ⟨"open-cluster-management-backup", "restore-acm", {}, {}⟩
    let early : Velero.Backup := ⟨"acm-resources-schedule-20210910181336", [], "Completed", 0,
      some (Time.ofSeconds 1631297616)⟩
    let late : Velero.Backup := ⟨"acm-resources-schedule-20210910191336", [], "Completed", 0,
      some (Time.ofSeconds 1631301216)⟩
    (restore.spec.backupNameFor .resources).getD "" = "" ∧ [late, early] ~ [early, late] ∧
      (∀ b ∈ relatedBackups [early, late] .resources, b.startTimestamp.isSome) ∧
      (∀ b ∈ relatedBackups [early, late] .resources,
        ∀ b' ∈ relatedBackups [early, late] .resources,
          b.errors = b'.errors → b.startTimestamp = b'.startTimestamp → b.name = b'.name) ∧
      getVeleroBackupName insertionSort restore [late, early] .resources =
        getVeleroBackupName insertionSort restore [early, late] .resources :=
  ⟨rfl, List.Perm.swap _ _ _, by decide, by decide,
    getVeleroBackupName_perm insertionSort_sortContract (by rfl) (List.Perm.swap _ _ _)
      (by decide) (by decide)⟩

/-- **A started backup is passed over.** Three resources backups with no errors, the middle one
not started yet: the insertion sort Go runs on them compares no pair as `Less`, and the earliest
backup is chosen although the last one has the same error count and started an hour later. -/
theorem getVeleroBackupName_unstarted_between :
    let restore : Restore := ⟨"open-cluster-management-backup", "restore-acm", {}, {}⟩
    let early : Velero.Backup := ⟨"acm-resources-schedule-20210910181336", [], "Completed", 0,
      some (Time.ofSeconds 1631297616)⟩
    let pending : Velero.Backup := ⟨"acm-resources-schedule-20210910184336", [], "New", 0, none⟩
    let late : Velero.Backup := ⟨"acm-resources-schedule-20210910191336", [], "Completed", 0,
      some (Time.ofSeconds 1631301216)⟩
    getVeleroBackupName insertionSort restore [early, pending, late] .resources = .ok early.name ∧
      early.errors = late.errors ∧
      metaTimeBefore early.startTimestamp late.startTimestamp = true := by
  decide

end ClusterBackup
