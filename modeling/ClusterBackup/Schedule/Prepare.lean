import ClusterBackup.Go
import ClusterBackup.Store

/-!
# Labelling secrets before a backup

`prepareForBackup` (schedule.go) marks the hub objects a backup has to carry. Secrets of the
cluster deployments claimed from a cluster pool, and of the pools themselves, get the cluster
backup label `clusterpool`; secrets watched by the agent installer get `agent-install`, and
bare-metal secrets outside `openshift-machine-api` get `baremetal`. A secret that already has one
of the three backup labels is left alone, and the import secret `<namespace>-import` of a pool
cluster loses a `clusterpool` label that an earlier version set. Every claimed cluster deployment
gets the label that turns hive's creation webhook off when it is restored.

## The model

Each loop body of the source is modelled by the object it passes to `Update`, if any
(`updateSecret`, `updateSecretsLabelsWrite`, `agentInstallWrite`, `baremetalWrite`), and each
loop by `updateEach` over the store. `prepareForBackup` runs the source's four sections in turn.
`PrepareCalls` gives the outcome of every API call, so a run covers every pattern of failures.
-/

namespace ClusterBackup

/-! ## Secrets, cluster deployments and cluster pools -/

/-- A `corev1.Secret`: what the labelling reads of it. -/
structure Secret where
  name : String
  /-- `Namespace`. -/
  namespaceName : String
  labels : Labels := []
deriving DecidableEq, Repr

/-- The API server's identity of a namespaced object. -/
def Secret.key (secret : Secret) : String × String := (secret.namespaceName, secret.name)

/-- `secret.GetLabels()[key]`. -/
def Secret.label (secret : Secret) (key : String) : String := labelValue secret.labels key

@[simp] theorem Secret.label_mk (name namespaceName : String) (labels : Labels) (key : String) :
    (Secret.mk name namespaceName labels).label key = labelValue labels key := rfl

/-- The import secret of a cluster, `<namespace>-import`, which a backup must not carry. -/
def Secret.IsImport (secret : Secret) : Prop := secret.name = secret.namespaceName ++ "-import"

instance : DecidablePred Secret.IsImport := fun secret ↦
  inferInstanceAs (Decidable (secret.name = secret.namespaceName ++ "-import"))

/-- A `hivev1.ClusterDeployment`; `clusterPoolRef` says whether `Spec.ClusterPoolRef` is set. -/
structure ClusterDeployment where
  name : String
  /-- `Namespace`. -/
  namespaceName : String
  labels : Labels := []
  clusterPoolRef : Bool
deriving DecidableEq, Repr

/-- The API server's identity of a namespaced object. -/
def ClusterDeployment.key (cd : ClusterDeployment) : String × String := (cd.namespaceName, cd.name)

/-- A `hivev1.ClusterPool`. -/
structure ClusterPool where
  name : String
  /-- `Namespace`. -/
  namespaceName : String
deriving DecidableEq, Repr

/-- The keys of `backupCredsHiveLabel`, `backupCredsUserLabel` and `backupCredsClusterLabel`,
which are declared outside src. -/
structure CredsLabels where
  hive : String
  user : String
  cluster : String
deriving DecidableEq, Repr

/-- The secret has one of the three backup labels. -/
def CredsLabels.HasBackupLabel (keys : CredsLabels) (secret : Secret) : Prop :=
  secret.label keys.hive ≠ "" ∨ secret.label keys.user ≠ "" ∨
    secret.label keys.cluster ≠ ""

instance (keys : CredsLabels) : DecidablePred keys.HasBackupLabel := fun _ ↦
  inferInstanceAs (Decidable (_ ∨ _))

/-! ## What the loops update -/

section Labelling

variable (keys : CredsLabels)

/-- `updateSecret`, as the secret it passes to `c.Update`: a secret with none of the three backup
labels gets `labelName: labelValue`, and one with any of them is not updated. Go's replacement of
a nil label map by an empty one changes no lookup. -/
def updateSecret (secret : Secret) (labelName labelValue : String) : Option Secret :=
  if secret.label keys.hive = "" ∧ secret.label keys.user = "" ∧
      secret.label keys.cluster = "" then
    some { secret with labels := labelsSet secret.labels labelName labelValue }
  else none

/-- The body of `updateSecretsLabels`' loop, as the secret it passes to `c.Update`: an import
secret loses a `labelName: labelValue` label, and a secret whose name starts with `ownerName` (the
source's `prefix`) and that is not a bootstrap secret goes through `updateSecret`. -/
def updateSecretsLabelsWrite (ownerName labelName labelValue : String) (secret : Secret) :
    Option Secret :=
  if secret.name = secret.namespaceName ++ "-import" then
    if secret.label labelName = labelValue then
      some { secret with labels := labelsDelete secret.labels labelName }
    else none
  else if stringsHasPrefix secret.name ownerName && !stringsContains secret.name "-bootstrap-" then
    updateSecret keys secret labelName labelValue
  else none

/-- `updateSecretsLabels`: the loop over the listed `secrets`, calling `update` for each secret
the body changes. -/
def updateSecretsLabels (update : Secret → Option String) (secrets : List Secret)
    (ownerName labelName labelValue : String) (stored : List Secret) : List Secret :=
  updateEach Secret.key update (updateSecretsLabelsWrite keys ownerName labelName labelValue)
    secrets stored

/-- The body of the loop over the secrets the agent installer watches. -/
def agentInstallWrite (secret : Secret) : Option Secret :=
  updateSecret keys secret keys.cluster "agent-install"

/-- The body of the loop over bare-metal secrets, which skips those of `openshift-machine-api`:
their hosts are not backed up. -/
def baremetalWrite (secret : Secret) : Option Secret :=
  if secret.namespaceName = "openshift-machine-api" then none
  else updateSecret keys secret keys.cluster "baremetal"

theorem updateSecret_eq_some {secret secret' : Secret} {labelName labelValue : String} :
    updateSecret keys secret labelName labelValue = some secret' ↔
      ¬ keys.HasBackupLabel secret ∧
        secret' = { secret with labels := labelsSet secret.labels labelName labelValue } := by
  unfold updateSecret CredsLabels.HasBackupLabel
  split_ifs with h
  · simp only [Option.some.injEq, h, ne_eq, not_true_eq_false, or_self, not_false_eq_true,
      true_and]
    exact eq_comm
  · simp only [ne_eq, false_iff, not_and, not_or, not_not]
    exact fun h' ↦ absurd h' h

theorem updateSecret_eq_none_of_hasBackupLabel {secret : Secret} (h : keys.HasBackupLabel secret)
    (labelName labelValue : String) : updateSecret keys secret labelName labelValue = none := by
  cases hu : updateSecret keys secret labelName labelValue
  · rfl
  · exact absurd h ((updateSecret_eq_some keys).1 hu).1

/-- A secret that gets a non-empty cluster label has a backup label. -/
theorem hasBackupLabel_of_updateSecret {secret secret' : Secret} {labelValue : String}
    (h : updateSecret keys secret keys.cluster labelValue = some secret')
    (hv : labelValue ≠ "") : keys.HasBackupLabel secret' := by
  obtain ⟨-, rfl⟩ := (updateSecret_eq_some keys).1 h
  simp [CredsLabels.HasBackupLabel, hv]

theorem updateSecret_eq_none_iff {secret : Secret} {labelName labelValue : String} :
    updateSecret keys secret labelName labelValue = none ↔ keys.HasBackupLabel secret := by
  unfold updateSecret CredsLabels.HasBackupLabel
  split_ifs with h <;> simp_all only [ne_eq, not_true_eq_false, or_self, reduceCtorEq]
  tauto

/-- What `updateSecretsLabels` for the owner `ownerName` leaves nothing to do for: an import
secret without a `clusterpool` label, and any other secret with a backup label or that the owner
does not own (its name does not start with `ownerName`, or it is a bootstrap secret). -/
def CredsLabels.OwnerLabelled (ownerName : String) (secret : Secret) : Prop :=
  (secret.IsImport → secret.label keys.cluster ≠ "clusterpool") ∧
    (¬ secret.IsImport → stringsHasPrefix secret.name ownerName = true →
      stringsContains secret.name "-bootstrap-" = false → keys.HasBackupLabel secret)

theorem updateSecretsLabelsWrite_eq_none_iff {ownerName : String} {secret : Secret} :
    updateSecretsLabelsWrite keys ownerName keys.cluster "clusterpool" secret = none ↔
      keys.OwnerLabelled ownerName secret := by
  unfold updateSecretsLabelsWrite CredsLabels.OwnerLabelled Secret.IsImport
  split_ifs with h₁ h₂ h₃ <;> simp_all [updateSecret_eq_none_iff]

end Labelling

/-! ## A run of `prepareForBackup` -/

/-- Which loop of `prepareForBackup` makes a call: the one for a cluster deployment or a cluster
pool (by namespace and name), or the loop over agent-install or bare-metal secrets. -/
inductive SecretPass
  | clusterDeployment (namespaceName name : String)
  | clusterPool (namespaceName name : String)
  | agentInstall
  | baremetal
deriving DecidableEq, Repr

/-- The outcomes of `prepareForBackup`'s API calls, each an error or none: the `List`s of cluster
deployments and cluster pools, the `List` of secrets of each loop, and every `Update`. -/
structure PrepareCalls where
  listClusterDeployments : Option String
  listClusterPools : Option String
  listSecrets : SecretPass → Option String
  updateSecret : SecretPass → Secret → Option String
  updateClusterDeployment : ClusterDeployment → Option String

/-- Every call succeeds. -/
def PrepareCalls.ok : PrepareCalls :=
  ⟨none, none, fun _ ↦ none, fun _ _ ↦ none, fun _ ↦ none⟩

/-- The hub objects `prepareForBackup` reads and writes. -/
@[ext] structure HubWorld where
  secrets : List Secret
  clusterDeployments : List ClusterDeployment
  clusterPools : List ClusterPool
deriving DecidableEq, Repr

/-- The API server holds one secret and one cluster deployment per namespace and name. -/
def HubWorld.KeysUnique (w : HubWorld) : Prop :=
  (w.secrets.map Secret.key).Nodup ∧ (w.clusterDeployments.map ClusterDeployment.key).Nodup

instance : DecidablePred HubWorld.KeysUnique := fun _ ↦ inferInstanceAs (Decidable (_ ∧ _))

section Run

variable (keys : CredsLabels) (calls : PrepareCalls)

/-- The cluster deployment a claimed one is updated to: hive's creation webhook, which would
refuse to restore it, is turned off. -/
def disableCreationWebhook (cd : ClusterDeployment) : ClusterDeployment :=
  { cd with
    labels := labelsSet cd.labels "hive.openshift.io/disable-creation-webhook-for-dr" "true" }

/-- One iteration of `prepareForBackup`'s loop over the cluster deployments: one claimed from a
pool has the secrets of its namespace labelled and the creation webhook turned off. -/
def prepareClusterDeployment (w : HubWorld) (cd : ClusterDeployment) : HubWorld :=
  if cd.clusterPoolRef then
    let pass := SecretPass.clusterDeployment cd.namespaceName cd.name
    let secrets := match calls.listSecrets pass with
      | none => updateSecretsLabels keys (calls.updateSecret pass)
          (w.secrets.filter (·.namespaceName == cd.namespaceName)) cd.name keys.cluster
          "clusterpool" w.secrets
      | some _ => w.secrets
    { w with
      secrets := secrets
      clusterDeployments := updateObject ClusterDeployment.key calls.updateClusterDeployment
        (some (disableCreationWebhook cd)) w.clusterDeployments }
  else w

/-- One iteration of the loop over the cluster pools. -/
def prepareClusterPool (w : HubWorld) (pool : ClusterPool) : HubWorld :=
  let pass := SecretPass.clusterPool pool.namespaceName pool.name
  match calls.listSecrets pass with
  | none =>
    let secrets := w.secrets.filter (·.namespaceName == pool.namespaceName)
    { w with
      secrets := updateSecretsLabels keys (calls.updateSecret pass) secrets pool.name
        keys.cluster "clusterpool" w.secrets }
  | some _ => w

/-- The first section of `prepareForBackup`: the cluster deployments claimed from a pool. -/
def prepareClusterDeployments (w : HubWorld) : HubWorld :=
  match calls.listClusterDeployments with
  | none => w.clusterDeployments.foldl (prepareClusterDeployment keys calls) w
  | some _ => w

/-- The second section: the cluster pools. -/
def prepareClusterPools (w : HubWorld) : HubWorld :=
  match calls.listClusterPools with
  | none => w.clusterPools.foldl (prepareClusterPool keys calls) w
  | some _ => w

/-- The third section: the secrets the agent installer watches, listed by the label requirement
`agent-install.openshift.io/watch in (true)`. -/
def prepareAgentInstallSecrets (w : HubWorld) : HubWorld :=
  match calls.listSecrets .agentInstall with
  | none =>
    let aiSecrets := w.secrets.filter (·.label "agent-install.openshift.io/watch" == "true")
    { w with
      secrets := updateEach Secret.key (calls.updateSecret .agentInstall)
        (agentInstallWrite keys) aiSecrets w.secrets }
  | some _ => w

/-- The last section: bare-metal secrets, listed by `environment.metal3.io in (baremetal)`. -/
def prepareBaremetalSecrets (w : HubWorld) : HubWorld :=
  match calls.listSecrets .baremetal with
  | none =>
    let metalSecrets := w.secrets.filter (·.label "environment.metal3.io" == "baremetal")
    { w with
      secrets := updateEach Secret.key (calls.updateSecret .baremetal) (baremetalWrite keys)
        metalSecrets w.secrets }
  | some _ => w

/-- `prepareForBackup`, section after section. The label requirements it builds with
`labels.NewRequirement` are valid, so their error branches are never taken. -/
def prepareForBackup (w : HubWorld) : HubWorld :=
  prepareBaremetalSecrets keys calls <| prepareAgentInstallSecrets keys calls <|
    prepareClusterPools keys calls <| prepareClusterDeployments keys calls w

end Run

end ClusterBackup
