import ClusterBackup.Schedule.SecretLoops

/-!
# What `prepareForBackup` guarantees

Every result here is about the faithful `prepareForBackup`, through its secret-by-secret form.
Under any API failures a run only writes the cluster label, and never overwrites a backup label.
After a run without failures no loop has anything left to do: each loop settles the secrets it
lists, and every later loop keeps them settled (`SecretLoop.settled_applyAll_ok`).

## Main results

* `prepareForBackup_keeps_backup_labels`: under any API failures, every label but the cluster
  label is kept, and a secret with a backup label is kept unchanged unless it is an import secret
  labelled `clusterpool`.
* `prepareForBackup_labels`: after a run without failures, the secrets each loop owns carry a
  backup label, import secrets of pool namespaces carry no `clusterpool` label, and claimed
  cluster deployments have hive's creation webhook turned off.
* `prepareForBackup_idempotent`: a second run without failures changes nothing.
-/

namespace ClusterBackup

/-! ## Safety under any failures -/

section Safety

variable (keys : CredsLabels) (calls : PrepareCalls)

/-- **What a run can do to a secret.** Under any API failures, every stored secret keeps its
namespace, its name and every label but the cluster label; and a secret that has a backup label
is kept as it was, unless it is an import secret labelled `clusterpool`. -/
theorem prepareForBackup_keeps_backup_labels (w : HubWorld)
    (hn : (w.secrets.map Secret.key).Nodup) :
    List.Forall₂ (fun s s' ↦ s'.key = s.key ∧
        (∀ k ≠ keys.cluster, s'.label k = s.label k) ∧
        (keys.HasBackupLabel s → ¬ (s.IsImport ∧ s.label keys.cluster = "clusterpool") →
          s' = s))
      w.secrets (prepareForBackup keys calls w).secrets := by
  rw [prepareForBackup_secrets keys calls w hn, List.forall₂_map_right_iff, List.forall₂_same]
  intro s _
  have h := SecretLoop.applyAll_cases calls
    (prepareLoops keys calls w.clusterDeployments w.clusterPools) s
  exact ⟨LabelWrite.key_eq_of_reflTransGen h, fun _ ↦ LabelWrite.label_eq_of_reflTransGen h,
    LabelWrite.eq_of_reflTransGen h⟩

/-- A claimed cluster whose import secret's Update fails. -/
theorem prepareForBackup_keeps_backup_labels_importConflict :
    let keys : CredsLabels := ⟨"hive.openshift.io/secret-type",
      "cluster.open-cluster-management.io/type", "cluster.open-cluster-management.io/backup"⟩
    let calls : PrepareCalls := { PrepareCalls.ok with
      updateSecret := fun _ s ↦ if s.name = "hub-a-import" then some "conflict" else none }
    let w : HubWorld := ⟨[⟨"hub-a-admin-kubeconfig", "hub-a", []⟩,
      ⟨"hub-a-import", "hub-a",
        [("cluster.open-cluster-management.io/backup", "clusterpool")]⟩],
      [⟨"hub-a", "hub-a", [], true⟩], []⟩
    (w.secrets.map Secret.key).Nodup ∧
      List.Forall₂ (fun s s' ↦ s'.key = s.key ∧
          (∀ k ≠ keys.cluster, s'.label k = s.label k) ∧
          (keys.HasBackupLabel s → ¬ (s.IsImport ∧ s.label keys.cluster = "clusterpool") →
            s' = s))
        w.secrets (prepareForBackup keys calls w).secrets :=
  ⟨by decide, prepareForBackup_keeps_backup_labels _ _ _ (by decide)⟩

end Safety

/-! ## Runs without failures -/

section Settled

variable (keys : CredsLabels)

theorem ownerLoop_settled_iff {pass : SecretPass} {namespaceName ownerName : String}
    {secret : Secret} : (ownerLoop keys pass namespaceName ownerName).Settled secret ↔
      (secret.namespaceName = namespaceName → keys.OwnerLabelled ownerName secret) := by
  simp [SecretLoop.Settled, ownerLoop, updateSecretsLabelsWrite_eq_none_iff]

theorem agentInstallLoop_settled_iff {secret : Secret} :
    (agentInstallLoop keys).Settled secret ↔
      (secret.label "agent-install.openshift.io/watch" = "true" →
        keys.HasBackupLabel secret) := by
  simp [SecretLoop.Settled, agentInstallLoop, agentInstallWrite, updateSecret_eq_none_iff]

theorem baremetalLoop_settled_iff {secret : Secret} :
    (baremetalLoop keys).Settled secret ↔
      (secret.label "environment.metal3.io" = "baremetal" →
        secret.namespaceName ≠ "openshift-machine-api" → keys.HasBackupLabel secret) := by
  simp only [SecretLoop.Settled, baremetalLoop, baremetalWrite, beq_iff_eq]
  split_ifs with h <;> simp [h, updateSecret_eq_none_iff]

/-- An owner loop stays settled whatever runs after it: every Update leaves it nothing to do. -/
theorem ownerLoop_keepsSettled (pass : SecretPass) (namespaceName ownerName : String)
    (later : SecretLoop keys) :
    (ownerLoop keys pass namespaceName ownerName).KeepsSettled later := by
  intro s hs
  rcases later.apply_cases PrepareCalls.ok s with h | h
  · rwa [h]
  · exact fun _ ↦ h.updateSecretsLabelsWrite_eq_none ownerName

/-- The bare-metal loop only adds backup labels, so it keeps the agent-install loop settled. -/
theorem agentInstallLoop_keepsSettled :
    (agentInstallLoop keys).KeepsSettled (baremetalLoop keys) := by
  intro s hs
  unfold SecretLoop.apply
  split
  · rcases hw : (baremetalLoop keys).write s with _ | s'
    · exact hs
    · simp only [PrepareCalls.ok, storedAfter_ok, hw, Option.getD_some]
      exact fun _ ↦ updateSecret_eq_none_of_hasBackupLabel keys
        (hasBackupLabel_of_baremetalWrite keys hw) _ _
  · exact hs

theorem exists_ownerLoop_of_mem {calls : PrepareCalls} {cds : List ClusterDeployment}
    {pools : List ClusterPool} {loop : SecretLoop keys}
    (h : loop ∈ cds.flatMap (claimedLoops keys calls) ++ pools.flatMap (poolLoops keys calls)) :
    ∃ pass namespaceName ownerName, loop = ownerLoop keys pass namespaceName ownerName := by
  simp only [List.mem_append, List.mem_flatMap, claimedLoops, poolLoops] at h
  rcases h with ⟨cd, -, h⟩ | ⟨pool, -, h⟩
  · split at h
    · split at h
      · exact ⟨_, _, _, List.mem_singleton.1 h⟩
      · cases h
    · cases h
  · split at h
    · exact ⟨_, _, _, List.mem_singleton.1 h⟩
    · cases h

theorem prepareLoops_ok (cds : List ClusterDeployment) (pools : List ClusterPool) :
    prepareLoops keys PrepareCalls.ok cds pools =
      (cds.flatMap (claimedLoops keys PrepareCalls.ok) ++
        pools.flatMap (poolLoops keys PrepareCalls.ok)) ++
      [agentInstallLoop keys, baremetalLoop keys] := by
  simp [prepareLoops, clusterDeploymentsLoops, clusterPoolsLoops, agentInstallLoops,
    baremetalLoops, PrepareCalls.ok]

/-- In a run without failures every loop keeps the earlier ones settled. -/
theorem prepareLoops_ok_pairwise (cds : List ClusterDeployment) (pools : List ClusterPool) :
    (prepareLoops keys PrepareCalls.ok cds pools).Pairwise SecretLoop.KeepsSettled := by
  rw [prepareLoops_ok, List.pairwise_append]
  have howner : ∀ loop ∈ cds.flatMap (claimedLoops keys PrepareCalls.ok) ++
      pools.flatMap (poolLoops keys PrepareCalls.ok), ∀ later, loop.KeepsSettled later := by
    intro loop h later
    obtain ⟨_, _, _, rfl⟩ := exists_ownerLoop_of_mem keys h
    exact ownerLoop_keepsSettled keys _ _ _ later
  refine ⟨List.pairwise_of_forall_mem_list fun a ha b _ ↦ howner a ha b, ?_,
    fun a ha b _ ↦ howner a ha b⟩
  simpa using agentInstallLoop_keepsSettled keys

/-- After a run without failures no loop of the run has anything left to update. -/
theorem preparedSecret_ok_settled (cds : List ClusterDeployment) (pools : List ClusterPool)
    (secret : Secret) : ∀ loop ∈ prepareLoops keys PrepareCalls.ok cds pools,
      loop.Settled (preparedSecret keys PrepareCalls.ok cds pools secret) :=
  SecretLoop.settled_applyAll_ok (prepareLoops_ok_pairwise keys cds pools) secret

theorem preparedSecret_ok_idem (cds : List ClusterDeployment) (pools : List ClusterPool)
    (secret : Secret) :
    preparedSecret keys PrepareCalls.ok cds pools
        (preparedSecret keys PrepareCalls.ok cds pools secret) =
      preparedSecret keys PrepareCalls.ok cds pools secret :=
  SecretLoop.applyAll_of_settled _ (preparedSecret_ok_settled keys cds pools secret)

theorem preparedClusterDeployment_ok (cd : ClusterDeployment) :
    preparedClusterDeployment PrepareCalls.ok cd =
      if cd.clusterPoolRef then disableCreationWebhook cd else cd := by
  simp [preparedClusterDeployment, PrepareCalls.ok]

/-- A run reads the cluster deployments it updated as it read them before. -/
theorem preparedSecret_ok_map_preparedClusterDeployment (cds : List ClusterDeployment)
    (pools : List ClusterPool) :
    preparedSecret keys PrepareCalls.ok (cds.map (preparedClusterDeployment PrepareCalls.ok))
      pools = preparedSecret keys PrepareCalls.ok cds pools := by
  have h : ∀ cd, claimedLoops keys PrepareCalls.ok
      (preparedClusterDeployment PrepareCalls.ok cd) = claimedLoops keys PrepareCalls.ok cd :=
    fun cd ↦ by
    rw [preparedClusterDeployment_ok]; split <;> rfl
  funext secret
  rw [preparedSecret, preparedSecret, prepareLoops_ok, prepareLoops_ok, List.flatMap_map,
    List.flatMap_congr fun cd _ ↦ h cd]

theorem claimedLoops_ok {cd : ClusterDeployment} (hp : cd.clusterPoolRef = true) :
    claimedLoops keys PrepareCalls.ok cd =
      [ownerLoop keys (.clusterDeployment cd.namespaceName cd.name) cd.namespaceName cd.name] := by
  simp [claimedLoops, hp, PrepareCalls.ok]

/-- **What a run without failures leaves labelled.** On a store with one object per namespace
and name, after `prepareForBackup` without failures: in the namespace of every cluster deployment
claimed from a pool, and of every cluster pool, the import secret has no `clusterpool` label and
every other secret of the owner has a backup label; every secret the agent installer watches has
a backup label, and so has every bare-metal secret outside `openshift-machine-api`; and every
claimed cluster deployment has hive's creation webhook turned off. -/
theorem prepareForBackup_labels (w : HubWorld) (hw : w.KeysUnique) :
    (∀ s ∈ (prepareForBackup keys PrepareCalls.ok w).secrets,
      (∀ cd ∈ w.clusterDeployments, cd.clusterPoolRef = true →
        s.namespaceName = cd.namespaceName → keys.OwnerLabelled cd.name s) ∧
      (∀ pool ∈ w.clusterPools, s.namespaceName = pool.namespaceName →
        keys.OwnerLabelled pool.name s) ∧
      (s.label "agent-install.openshift.io/watch" = "true" → keys.HasBackupLabel s) ∧
      (s.label "environment.metal3.io" = "baremetal" →
        s.namespaceName ≠ "openshift-machine-api" → keys.HasBackupLabel s)) ∧
    ∀ cd ∈ (prepareForBackup keys PrepareCalls.ok w).clusterDeployments,
      cd.clusterPoolRef = true →
        labelValue cd.labels "hive.openshift.io/disable-creation-webhook-for-dr" = "true" := by
  refine ⟨fun s hs ↦ ?_, fun cd hcd hp ↦ ?_⟩
  · rw [prepareForBackup_secrets keys _ w hw.1] at hs
    obtain ⟨s₀, -, rfl⟩ := List.mem_map.1 hs
    have hset := preparedSecret_ok_settled keys w.clusterDeployments w.clusterPools s₀
    rw [prepareLoops_ok] at hset
    refine ⟨fun cd hcd hp ↦ ?_, fun pool hpool ↦ ?_, ?_, ?_⟩
    · refine (ownerLoop_settled_iff keys).1 (hset (ownerLoop keys
        (.clusterDeployment cd.namespaceName cd.name) cd.namespaceName cd.name) ?_)
      simp only [List.mem_append, List.mem_flatMap]
      exact .inl (.inl ⟨cd, hcd, by
        rw [claimedLoops_ok keys hp]; exact List.mem_singleton_self _⟩)
    · refine (ownerLoop_settled_iff keys).1 (hset (ownerLoop keys
        (.clusterPool pool.namespaceName pool.name) pool.namespaceName pool.name) ?_)
      simp only [List.mem_append, List.mem_flatMap]
      exact .inl (.inr ⟨pool, hpool, by simp [poolLoops, PrepareCalls.ok]⟩)
    · exact (agentInstallLoop_settled_iff keys).1 (hset _ (by simp))
    · exact (baremetalLoop_settled_iff keys).1 (hset _ (by simp))
  · rw [prepareForBackup_clusterDeployments keys _ w hw.2] at hcd
    obtain ⟨cd₀, -, rfl⟩ := List.mem_map.1 hcd
    by_cases h₀ : cd₀.clusterPoolRef
    · simp [preparedClusterDeployment_ok, h₀, disableCreationWebhook]
    · simp [preparedClusterDeployment_ok, h₀] at hp

theorem prepareForBackup_labels_claimed :
    let keys : CredsLabels := ⟨"hive.openshift.io/secret-type",
      "cluster.open-cluster-management.io/type", "cluster.open-cluster-management.io/backup"⟩
    let w : HubWorld := ⟨[⟨"hub-a-admin-kubeconfig", "hub-a", []⟩,
      ⟨"hub-a-import", "hub-a",
        [("cluster.open-cluster-management.io/backup", "clusterpool")]⟩],
      [⟨"hub-a", "hub-a", [], true⟩], []⟩
    w.KeysUnique ∧
      (∀ s ∈ (prepareForBackup keys PrepareCalls.ok w).secrets,
        (∀ cd ∈ w.clusterDeployments, cd.clusterPoolRef = true →
          s.namespaceName = cd.namespaceName → keys.OwnerLabelled cd.name s) ∧
        (∀ pool ∈ w.clusterPools, s.namespaceName = pool.namespaceName →
          keys.OwnerLabelled pool.name s) ∧
        (s.label "agent-install.openshift.io/watch" = "true" → keys.HasBackupLabel s) ∧
        (s.label "environment.metal3.io" = "baremetal" →
          s.namespaceName ≠ "openshift-machine-api" → keys.HasBackupLabel s)) ∧
      ∀ cd ∈ (prepareForBackup keys PrepareCalls.ok w).clusterDeployments,
        cd.clusterPoolRef = true →
          labelValue cd.labels "hive.openshift.io/disable-creation-webhook-for-dr" = "true" :=
  ⟨by decide, prepareForBackup_labels _ _ (by decide)⟩

/-- A claimed cluster's kubeconfig secret gets the `clusterpool` label and its import secret
loses it. -/
example :
    let keys : CredsLabels := ⟨"hive.openshift.io/secret-type",
      "cluster.open-cluster-management.io/type", "cluster.open-cluster-management.io/backup"⟩
    (prepareForBackup keys PrepareCalls.ok
        ⟨[⟨"hub-a-admin-kubeconfig", "hub-a", []⟩,
          ⟨"hub-a-import", "hub-a",
            [("cluster.open-cluster-management.io/backup", "clusterpool")]⟩],
          [⟨"hub-a", "hub-a", [], true⟩], []⟩).secrets =
      [⟨"hub-a-admin-kubeconfig", "hub-a",
          [("cluster.open-cluster-management.io/backup", "clusterpool")]⟩,
        ⟨"hub-a-import", "hub-a", []⟩] := by
  decide

/-- **A second run changes nothing.** On a store with one object per namespace and name,
running `prepareForBackup` again after a run without failures, and without failures itself,
leaves every secret, cluster deployment and cluster pool as the first run left it. -/
theorem prepareForBackup_idempotent (w : HubWorld) (hw : w.KeysUnique) :
    prepareForBackup keys PrepareCalls.ok (prepareForBackup keys PrepareCalls.ok w) =
      prepareForBackup keys PrepareCalls.ok w := by
  have hw' := prepareForBackup_keysUnique keys PrepareCalls.ok hw
  have hcd := prepareForBackup_clusterDeployments keys PrepareCalls.ok w hw.2
  refine HubWorld.ext ?_ ?_ ?_
  · rw [prepareForBackup_secrets keys _ _ hw'.1, prepareForBackup_clusterPools, hcd,
      preparedSecret_ok_map_preparedClusterDeployment, prepareForBackup_secrets keys _ _ hw.1,
      List.map_map]
    exact List.map_congr_left fun s _ ↦ preparedSecret_ok_idem keys _ _ s
  · rw [prepareForBackup_clusterDeployments keys _ _ hw'.2, hcd, List.map_map]
    refine List.map_congr_left fun cd _ ↦ ?_
    simp only [Function.comp_apply, preparedClusterDeployment_ok]
    split <;> simp_all [disableCreationWebhook]
  · simp

theorem prepareForBackup_idempotent_claimed :
    let keys : CredsLabels := ⟨"hive.openshift.io/secret-type",
      "cluster.open-cluster-management.io/type", "cluster.open-cluster-management.io/backup"⟩
    let w : HubWorld := ⟨[⟨"hub-a-admin-kubeconfig", "hub-a", []⟩,
      ⟨"hub-a-import", "hub-a",
        [("cluster.open-cluster-management.io/backup", "clusterpool")]⟩],
      [⟨"hub-a", "hub-a", [], true⟩], []⟩
    w.KeysUnique ∧
      prepareForBackup keys PrepareCalls.ok (prepareForBackup keys PrepareCalls.ok w) =
        prepareForBackup keys PrepareCalls.ok w :=
  ⟨by decide, prepareForBackup_idempotent _ _ (by decide)⟩

end Settled

end ClusterBackup
