import Mathlib.Logic.Relation
import ClusterBackup.Schedule.Prepare

/-!
# `prepareForBackup`, secret by secret

On a store with one object per namespace and name, each loop of `prepareForBackup` acts secret by
secret, so the run maps every stored secret through one function, `preparedSecret`: the fold of
the `SecretLoop`s the run makes. A `SecretLoop` carries what its Updates can do: each is a
`LabelWrite`, and the loop's body has nothing to update for a secret it wrote.

## Main results

* `prepareForBackup_secrets`: the run stores `preparedSecret` in place of every secret.
* `prepareForBackup_clusterDeployments`: and `preparedClusterDeployment` in place of every
  cluster deployment.
* `SecretLoop.applyAll_cases`: the loops change a secret by a sequence of `LabelWrite`s.
-/

namespace ClusterBackup

/-! ## The Updates the loops can make -/

/-- An Update `prepareForBackup` can make: the cluster label set to one of its three values on a
secret without a backup label (`clusterpool` only on a secret that is not an import secret), or a
`clusterpool` cluster label removed from an import secret. -/
inductive LabelWrite (keys : CredsLabels) : Secret → Secret → Prop
  | set (secret : Secret) (value : String) : ¬ keys.HasBackupLabel secret →
      value ∈ ["clusterpool", "agent-install", "baremetal"] →
      (value = "clusterpool" → ¬ secret.IsImport) →
      LabelWrite keys secret { secret with labels := labelsSet secret.labels keys.cluster value }
  | delete (secret : Secret) : secret.IsImport → secret.label keys.cluster = "clusterpool" →
      LabelWrite keys secret { secret with labels := labelsDelete secret.labels keys.cluster }

namespace LabelWrite

variable {keys : CredsLabels} {secret secret' : Secret}

theorem key_eq (h : LabelWrite keys secret secret') : secret'.key = secret.key := by
  cases h <;> rfl

/-- Only the cluster label is written. -/
theorem label_eq (h : LabelWrite keys secret secret') {k : String} (hk : k ≠ keys.cluster) :
    secret'.label k = secret.label k := by
  cases h <;> simp [Secret.label, hk]

/-- A backup label is never overwritten, and only a `clusterpool` label of an import secret is
removed. -/
theorem not_of_hasBackupLabel (hb : keys.HasBackupLabel secret)
    (hi : ¬ (secret.IsImport ∧ secret.label keys.cluster = "clusterpool")) :
    ¬ LabelWrite keys secret secret' := by
  rintro (⟨_, hn, -, -⟩ | ⟨himp, hc⟩)
  · exact hn hb
  · exact hi ⟨himp, hc⟩

/-- After any Update, `updateSecretsLabels` has nothing left to do for the secret. -/
theorem updateSecretsLabelsWrite_eq_none (h : LabelWrite keys secret secret')
    (ownerName : String) :
    updateSecretsLabelsWrite keys ownerName keys.cluster "clusterpool" secret' = none := by
  rw [updateSecretsLabelsWrite_eq_none_iff]
  cases h with
  | set value _ hv himp =>
    have hne : value ≠ "" := by rintro rfl; simp at hv
    refine ⟨fun hi hc ↦ himp ?_ hi, fun _ _ _ ↦ ?_⟩ <;>
      simp_all [CredsLabels.HasBackupLabel]
  | delete himp _ => exact ⟨fun _ ↦ by simp, fun h ↦ absurd himp h⟩

theorem key_eq_of_reflTransGen (h : Relation.ReflTransGen (LabelWrite keys) secret secret') :
    secret'.key = secret.key := by
  induction h with
  | refl => rfl
  | tail _ h ih => rw [h.key_eq, ih]

theorem label_eq_of_reflTransGen (h : Relation.ReflTransGen (LabelWrite keys) secret secret')
    {k : String} (hk : k ≠ keys.cluster) : secret'.label k = secret.label k := by
  induction h with
  | refl => rfl
  | tail _ h ih => rw [h.label_eq hk, ih]

/-- A secret with a backup label, unless an import secret labelled `clusterpool`, admits no
Update at all. -/
theorem eq_of_reflTransGen (h : Relation.ReflTransGen (LabelWrite keys) secret secret')
    (hb : keys.HasBackupLabel secret)
    (hi : ¬ (secret.IsImport ∧ secret.label keys.cluster = "clusterpool")) :
    secret' = secret := by
  rcases Relation.ReflTransGen.cases_head h with rfl | ⟨_, h, -⟩
  · rfl
  · exact absurd h (not_of_hasBackupLabel hb hi)

end LabelWrite

section Labelling

variable (keys : CredsLabels)

theorem labelWrite_of_updateSecretsLabelsWrite {ownerName : String} {secret secret' : Secret}
    (h : updateSecretsLabelsWrite keys ownerName keys.cluster "clusterpool" secret =
      some secret') : LabelWrite keys secret secret' := by
  unfold updateSecretsLabelsWrite at h
  split_ifs at h with h₁ h₂
  · cases h; exact .delete secret h₁ h₂
  · obtain ⟨hn, rfl⟩ := (updateSecret_eq_some keys).1 h
    exact .set secret _ hn (by simp) fun _ ↦ h₁

theorem labelWrite_of_updateSecret {secret secret' : Secret} {value : String}
    (h : updateSecret keys secret keys.cluster value = some secret')
    (hv : value ∈ ["agent-install", "baremetal"]) : LabelWrite keys secret secret' := by
  obtain ⟨hn, rfl⟩ := (updateSecret_eq_some keys).1 h
  refine .set secret value hn (by simp at hv ⊢; tauto) fun hc ↦ ?_
  subst hc; simp at hv

theorem baremetalWrite_eq_none_of_hasBackupLabel {secret : Secret}
    (h : keys.HasBackupLabel secret) : baremetalWrite keys secret = none := by
  unfold baremetalWrite
  split
  · rfl
  · exact updateSecret_eq_none_of_hasBackupLabel keys h _ _

theorem labelWrite_of_baremetalWrite {secret secret' : Secret}
    (h : baremetalWrite keys secret = some secret') : LabelWrite keys secret secret' := by
  unfold baremetalWrite at h
  split at h
  · cases h
  · exact labelWrite_of_updateSecret keys h (by simp)

theorem hasBackupLabel_of_baremetalWrite {secret secret' : Secret}
    (h : baremetalWrite keys secret = some secret') : keys.HasBackupLabel secret' := by
  unfold baremetalWrite at h
  split at h
  · cases h
  · exact hasBackupLabel_of_updateSecret keys h (by decide)

end Labelling

/-! ## The run secret by secret -/

/-- One of `prepareForBackup`'s loops over secrets, as it acts on a stored secret: whether its
listing returns the secret, and the Update its body computes for it. Every such Update is a
`LabelWrite`, and the body has nothing to update for a secret it wrote. -/
structure SecretLoop (keys : CredsLabels) where
  pass : SecretPass
  lists : Secret → Bool
  write : Secret → Option Secret
  write_labelWrite : ∀ s s', write s = some s' → LabelWrite keys s s'
  write_once : ∀ s s', write s = some s' → write s' = none

namespace SecretLoop

variable {keys : CredsLabels} (calls : PrepareCalls)

/-- What the loop leaves stored in place of `secret`. -/
def apply (loop : SecretLoop keys) (secret : Secret) : Secret :=
  if loop.lists secret then storedAfter (calls.updateSecret loop.pass) (loop.write secret) secret
  else secret

/-- What a sequence of loops leaves stored in place of `secret`. -/
def applyAll (loops : List (SecretLoop keys)) (secret : Secret) : Secret :=
  loops.foldl (fun secret loop ↦ loop.apply calls secret) secret

@[simp] theorem applyAll_nil : applyAll calls ([] : List (SecretLoop keys)) = id := rfl

@[simp] theorem applyAll_cons (loop : SecretLoop keys) (loops : List (SecretLoop keys))
    (secret : Secret) :
    applyAll calls (loop :: loops) secret = applyAll calls loops (loop.apply calls secret) := rfl

@[simp] theorem applyAll_singleton (loop : SecretLoop keys) :
    applyAll calls [loop] = loop.apply calls := rfl

@[simp] theorem applyAll_append (loops loops' : List (SecretLoop keys)) (secret : Secret) :
    applyAll calls (loops ++ loops') secret = applyAll calls loops' (applyAll calls loops secret) :=
  List.foldl_append _ _ _ _

/-- A loop leaves a secret as it was or makes a `LabelWrite`. -/
theorem apply_cases (loop : SecretLoop keys) (secret : Secret) :
    loop.apply calls secret = secret ∨ LabelWrite keys secret (loop.apply calls secret) := by
  unfold apply
  split
  · rcases storedAfter_cases (calls.updateSecret loop.pass) (loop.write secret) secret with h | h
    · exact .inl h
    · exact .inr (loop.write_labelWrite _ _ h)
  · exact .inl rfl

/-- **The source's loop, secret by secret.** On a store with one secret per namespace and name,
the loop over the secrets its listing returns stores `apply` of each. -/
theorem updateEach_eq_map (loop : SecretLoop keys) {secrets : List Secret}
    (hn : (secrets.map Secret.key).Nodup) :
    updateEach Secret.key (calls.updateSecret loop.pass) loop.write (secrets.filter loop.lists)
      secrets = secrets.map (loop.apply calls) :=
  updateEach_filter _ (fun s s' h ↦ (loop.write_labelWrite s s' h).key_eq) loop.lists hn

theorem applyAll_cases (loops : List (SecretLoop keys)) (secret : Secret) :
    Relation.ReflTransGen (LabelWrite keys) secret (applyAll calls loops secret) := by
  induction loops generalizing secret with
  | nil => exact .refl
  | cons loop loops ih =>
    rcases apply_cases calls loop secret with h | h
    · simpa [h] using ih secret
    · exact .head h (ih _)

theorem key_applyAll (loops : List (SecretLoop keys)) (secret : Secret) :
    (applyAll calls loops secret).key = secret.key :=
  LabelWrite.key_eq_of_reflTransGen (applyAll_cases calls loops secret)

@[simp] theorem map_key_map_applyAll (loops : List (SecretLoop keys)) (secrets : List Secret) :
    (secrets.map (applyAll calls loops)).map Secret.key = secrets.map Secret.key := by
  simp only [List.map_map]
  exact List.map_congr_left fun s _ ↦ key_applyAll calls loops s

/-- A store mapped through loops keeps one secret per namespace and name. -/
theorem nodup_of_eq_map_applyAll {loops : List (SecretLoop keys)} {secrets secrets' : List Secret}
    (h : secrets' = secrets.map (applyAll calls loops)) (hn : (secrets.map Secret.key).Nodup) :
    (secrets'.map Secret.key).Nodup := by
  rwa [h, map_key_map_applyAll]

/-- The loop has nothing to update for `secret`. -/
def Settled (loop : SecretLoop keys) (secret : Secret) : Prop :=
  loop.lists secret = true → loop.write secret = none

theorem apply_of_settled {loop : SecretLoop keys} {secret : Secret} (h : loop.Settled secret) :
    loop.apply calls secret = secret := by
  unfold apply
  split
  · rw [h ‹_›]; rfl
  · rfl

theorem applyAll_of_settled {loops : List (SecretLoop keys)} {secret : Secret}
    (h : ∀ loop ∈ loops, loop.Settled secret) : applyAll calls loops secret = secret := by
  induction loops with
  | nil => rfl
  | cons loop loops ih =>
    rw [applyAll_cons, apply_of_settled calls (h loop (List.mem_cons_self _ _))]
    exact ih fun l hl ↦ h l (List.mem_cons_of_mem _ hl)

/-- Without failures a loop leaves nothing to update for the secret it stored. -/
theorem settled_apply_ok (loop : SecretLoop keys) (secret : Secret) :
    loop.Settled (loop.apply PrepareCalls.ok secret) := by
  unfold apply
  split
  · rcases hw : loop.write secret with _ | secret'
    · exact fun _ ↦ hw
    · simp only [PrepareCalls.ok, storedAfter_ok, hw, Option.getD_some]
      exact fun _ ↦ loop.write_once _ _ hw
  · intro h; simp_all

/-- Running `later` without failures keeps `loop` settled. -/
def KeepsSettled (loop later : SecretLoop keys) : Prop :=
  ∀ secret, loop.Settled secret → loop.Settled (later.apply PrepareCalls.ok secret)

theorem settled_applyAll_of_keepsSettled {loop : SecretLoop keys} {loops : List (SecretLoop keys)}
    (h : ∀ later ∈ loops, loop.KeepsSettled later) {secret : Secret}
    (hs : loop.Settled secret) :
    loop.Settled (applyAll PrepareCalls.ok loops secret) := by
  induction loops generalizing secret with
  | nil => exact hs
  | cons later loops ih =>
    exact ih (fun l hl ↦ h l (List.mem_cons_of_mem _ hl)) (h later (List.mem_cons_self _ _) _ hs)

/-- **Loops that keep each other settled settle every secret.** If each loop keeps every earlier
one settled, a run without failures leaves every loop settled. -/
theorem settled_applyAll_ok {loops : List (SecretLoop keys)} (h : loops.Pairwise KeepsSettled)
    (secret : Secret) :
    ∀ loop ∈ loops, loop.Settled (applyAll PrepareCalls.ok loops secret) := by
  induction loops generalizing secret with
  | nil => simp
  | cons loop loops ih =>
    obtain ⟨hkeep, h⟩ := List.pairwise_cons.1 h
    rintro l (_ | ⟨_, hl⟩)
    · exact settled_applyAll_of_keepsSettled hkeep (settled_apply_ok loop secret)
    · exact ih h _ l hl

end SecretLoop

/-! ## The loops of a run -/

section Loops

variable (keys : CredsLabels)

/-- The loop of `updateSecretsLabels` over the secrets of `namespaceName`, for the owner
`ownerName`. -/
def ownerLoop (pass : SecretPass) (namespaceName ownerName : String) : SecretLoop keys where
  pass := pass
  lists := (·.namespaceName == namespaceName)
  write := updateSecretsLabelsWrite keys ownerName keys.cluster "clusterpool"
  write_labelWrite _ _ := labelWrite_of_updateSecretsLabelsWrite keys
  write_once _ _ h :=
    (labelWrite_of_updateSecretsLabelsWrite keys h).updateSecretsLabelsWrite_eq_none ownerName

/-- The loop over the secrets the agent installer watches. -/
def agentInstallLoop : SecretLoop keys where
  pass := .agentInstall
  lists := (·.label "agent-install.openshift.io/watch" == "true")
  write := agentInstallWrite keys
  write_labelWrite _ _ h := labelWrite_of_updateSecret keys h (by simp)
  write_once _ _ h := updateSecret_eq_none_of_hasBackupLabel keys
    (hasBackupLabel_of_updateSecret keys h (by decide)) _ _

/-- The loop over bare-metal secrets. -/
def baremetalLoop : SecretLoop keys where
  pass := .baremetal
  lists := (·.label "environment.metal3.io" == "baremetal")
  write := baremetalWrite keys
  write_labelWrite _ _ := labelWrite_of_baremetalWrite keys
  write_once _ _ h :=
    baremetalWrite_eq_none_of_hasBackupLabel keys (hasBackupLabel_of_baremetalWrite keys h)

variable (calls : PrepareCalls)

/-- The loop over secrets that the iteration for cluster deployment `cd` makes: one if `cd` is
claimed from a pool and its namespace was listed. -/
def claimedLoops (cd : ClusterDeployment) : List (SecretLoop keys) :=
  if cd.clusterPoolRef then
    let pass := SecretPass.clusterDeployment cd.namespaceName cd.name
    match calls.listSecrets pass with
    | none => [ownerLoop keys pass cd.namespaceName cd.name]
    | some _ => []
  else []

/-- The loop over secrets that the iteration for cluster pool `pool` makes. -/
def poolLoops (pool : ClusterPool) : List (SecretLoop keys) :=
  let pass := SecretPass.clusterPool pool.namespaceName pool.name
  match calls.listSecrets pass with
  | none => [ownerLoop keys pass pool.namespaceName pool.name]
  | some _ => []

/-- The loops over secrets of the first section, over the cluster deployments `cds`. -/
def clusterDeploymentsLoops (cds : List ClusterDeployment) : List (SecretLoop keys) :=
  match calls.listClusterDeployments with
  | none => cds.flatMap (claimedLoops keys calls)
  | some _ => []

/-- The loops over secrets of the second section, over the cluster pools `pools`. -/
def clusterPoolsLoops (pools : List ClusterPool) : List (SecretLoop keys) :=
  match calls.listClusterPools with
  | none => pools.flatMap (poolLoops keys calls)
  | some _ => []

/-- The loop of the third section, if its listing succeeds. -/
def agentInstallLoops : List (SecretLoop keys) :=
  match calls.listSecrets .agentInstall with
  | none => [agentInstallLoop keys]
  | some _ => []

/-- The loop of the last section, if its listing succeeds. -/
def baremetalLoops : List (SecretLoop keys) :=
  match calls.listSecrets .baremetal with
  | none => [baremetalLoop keys]
  | some _ => []

/-- The loops over secrets a run makes, in order, when the cluster deployments `cds` and the
cluster pools `pools` are listed. -/
def prepareLoops (cds : List ClusterDeployment) (pools : List ClusterPool) :
    List (SecretLoop keys) :=
  clusterDeploymentsLoops keys calls cds ++ clusterPoolsLoops keys calls pools ++
    agentInstallLoops keys calls ++ baremetalLoops keys calls

/-- What a run leaves stored in place of one secret. -/
def preparedSecret (cds : List ClusterDeployment) (pools : List ClusterPool) (secret : Secret) :
    Secret :=
  SecretLoop.applyAll calls (prepareLoops keys calls cds pools) secret

/-- What a run leaves stored in place of one cluster deployment. -/
def preparedClusterDeployment (cd : ClusterDeployment) : ClusterDeployment :=
  match calls.listClusterDeployments with
  | none =>
    if cd.clusterPoolRef then
      storedAfter calls.updateClusterDeployment (some (disableCreationWebhook cd)) cd
    else cd
  | some _ => cd

end Loops

/-! ## The run refines the secret-by-secret model -/

section Refinement

variable (keys : CredsLabels) (calls : PrepareCalls)

theorem prepareClusterDeployment_secrets (w : HubWorld) (cd : ClusterDeployment)
    (hn : (w.secrets.map Secret.key).Nodup) :
    (prepareClusterDeployment keys calls w cd).secrets =
      w.secrets.map (SecretLoop.applyAll calls (claimedLoops keys calls cd)) := by
  by_cases hp : cd.clusterPoolRef
  · cases hl : calls.listSecrets (.clusterDeployment cd.namespaceName cd.name)
    · simp only [prepareClusterDeployment, claimedLoops, hp, hl, if_true,
        SecretLoop.applyAll_singleton]
      exact (ownerLoop keys _ _ _).updateEach_eq_map calls hn
    · simp [prepareClusterDeployment, claimedLoops, hp, hl]
  · simp [prepareClusterDeployment, claimedLoops, hp]

theorem prepareClusterDeployment_clusterDeployments (w : HubWorld) (cd : ClusterDeployment) :
    (prepareClusterDeployment keys calls w cd).clusterDeployments =
      updateObject ClusterDeployment.key calls.updateClusterDeployment
        (if cd.clusterPoolRef then some (disableCreationWebhook cd) else none)
        w.clusterDeployments := by
  unfold prepareClusterDeployment; split <;> rfl

@[simp] theorem prepareClusterDeployment_clusterPools (w : HubWorld) (cd : ClusterDeployment) :
    (prepareClusterDeployment keys calls w cd).clusterPools = w.clusterPools := by
  unfold prepareClusterDeployment; split <;> rfl

theorem foldl_prepareClusterDeployment_secrets (cds : List ClusterDeployment) (w : HubWorld)
    (hn : (w.secrets.map Secret.key).Nodup) :
    (cds.foldl (prepareClusterDeployment keys calls) w).secrets =
      w.secrets.map (SecretLoop.applyAll calls (cds.flatMap (claimedLoops keys calls))) := by
  induction cds generalizing w with
  | nil => simp
  | cons cd cds ih =>
    have h := prepareClusterDeployment_secrets keys calls w cd hn
    rw [List.foldl_cons, ih _ (SecretLoop.nodup_of_eq_map_applyAll calls h hn), h, List.map_map,
      List.flatMap_cons]
    exact List.map_congr_left fun s _ ↦ (SecretLoop.applyAll_append calls _ _ s).symm

theorem foldl_prepareClusterDeployment_clusterDeployments (cds : List ClusterDeployment)
    (w : HubWorld) :
    (cds.foldl (prepareClusterDeployment keys calls) w).clusterDeployments =
      updateEach ClusterDeployment.key calls.updateClusterDeployment
        (fun cd ↦ if cd.clusterPoolRef then some (disableCreationWebhook cd) else none) cds
        w.clusterDeployments := by
  induction cds generalizing w with
  | nil => rfl
  | cons cd cds ih =>
    rw [List.foldl_cons, ih, prepareClusterDeployment_clusterDeployments]; rfl

@[simp] theorem foldl_prepareClusterDeployment_clusterPools (cds : List ClusterDeployment)
    (w : HubWorld) : (cds.foldl (prepareClusterDeployment keys calls) w).clusterPools =
      w.clusterPools := by
  induction cds generalizing w with
  | nil => rfl
  | cons cd cds ih => rw [List.foldl_cons, ih, prepareClusterDeployment_clusterPools]

theorem prepareClusterPool_secrets (w : HubWorld) (pool : ClusterPool)
    (hn : (w.secrets.map Secret.key).Nodup) :
    (prepareClusterPool keys calls w pool).secrets =
      w.secrets.map (SecretLoop.applyAll calls (poolLoops keys calls pool)) := by
  cases hl : calls.listSecrets (.clusterPool pool.namespaceName pool.name)
  · simp only [prepareClusterPool, poolLoops, hl, SecretLoop.applyAll_singleton]
    exact (ownerLoop keys _ _ _).updateEach_eq_map calls hn
  · simp [prepareClusterPool, poolLoops, hl]

@[simp] theorem prepareClusterPool_clusterDeployments (w : HubWorld) (pool : ClusterPool) :
    (prepareClusterPool keys calls w pool).clusterDeployments = w.clusterDeployments := by
  unfold prepareClusterPool; dsimp only; split <;> rfl

@[simp] theorem prepareClusterPool_clusterPools (w : HubWorld) (pool : ClusterPool) :
    (prepareClusterPool keys calls w pool).clusterPools = w.clusterPools := by
  unfold prepareClusterPool; dsimp only; split <;> rfl

theorem foldl_prepareClusterPool_secrets (pools : List ClusterPool) (w : HubWorld)
    (hn : (w.secrets.map Secret.key).Nodup) :
    (pools.foldl (prepareClusterPool keys calls) w).secrets =
      w.secrets.map (SecretLoop.applyAll calls (pools.flatMap (poolLoops keys calls))) := by
  induction pools generalizing w with
  | nil => simp
  | cons pool pools ih =>
    have h := prepareClusterPool_secrets keys calls w pool hn
    rw [List.foldl_cons, ih _ (SecretLoop.nodup_of_eq_map_applyAll calls h hn), h, List.map_map,
      List.flatMap_cons]
    exact List.map_congr_left fun s _ ↦ (SecretLoop.applyAll_append calls _ _ s).symm

@[simp] theorem foldl_prepareClusterPool_clusterDeployments (pools : List ClusterPool)
    (w : HubWorld) : (pools.foldl (prepareClusterPool keys calls) w).clusterDeployments =
      w.clusterDeployments := by
  induction pools generalizing w with
  | nil => rfl
  | cons pool pools ih => rw [List.foldl_cons, ih, prepareClusterPool_clusterDeployments]

@[simp] theorem foldl_prepareClusterPool_clusterPools (pools : List ClusterPool)
    (w : HubWorld) : (pools.foldl (prepareClusterPool keys calls) w).clusterPools =
      w.clusterPools := by
  induction pools generalizing w with
  | nil => rfl
  | cons pool pools ih => rw [List.foldl_cons, ih, prepareClusterPool_clusterPools]

/-! ### Section by section -/

theorem prepareClusterDeployments_secrets (w : HubWorld) (hn : (w.secrets.map Secret.key).Nodup) :
    (prepareClusterDeployments keys calls w).secrets =
      w.secrets.map (SecretLoop.applyAll calls
        (clusterDeploymentsLoops keys calls w.clusterDeployments)) := by
  cases h : calls.listClusterDeployments
  · simp only [prepareClusterDeployments, clusterDeploymentsLoops, h]
    exact foldl_prepareClusterDeployment_secrets keys calls _ w hn
  · simp [prepareClusterDeployments, clusterDeploymentsLoops, h]

theorem prepareClusterDeployments_clusterDeployments (w : HubWorld)
    (hn : (w.clusterDeployments.map ClusterDeployment.key).Nodup) :
    (prepareClusterDeployments keys calls w).clusterDeployments =
      w.clusterDeployments.map (preparedClusterDeployment calls) := by
  cases h : calls.listClusterDeployments
  · simp only [prepareClusterDeployments, h]
    rw [foldl_prepareClusterDeployment_clusterDeployments,
      updateEach_self _ (fun cd _ h ↦ by split at h <;> cases h; rfl) hn]
    exact List.map_congr_left fun cd _ ↦ by
      simp only [preparedClusterDeployment, h]; split <;> rfl
  · simp only [prepareClusterDeployments, h]
    conv_lhs => rw [← List.map_id w.clusterDeployments]
    exact List.map_congr_left fun cd _ ↦ by simp [preparedClusterDeployment, h]

@[simp] theorem prepareClusterDeployments_clusterPools (w : HubWorld) :
    (prepareClusterDeployments keys calls w).clusterPools = w.clusterPools := by
  cases h : calls.listClusterDeployments <;> simp [prepareClusterDeployments, h]

theorem prepareClusterPools_secrets (w : HubWorld) (hn : (w.secrets.map Secret.key).Nodup) :
    (prepareClusterPools keys calls w).secrets =
      w.secrets.map (SecretLoop.applyAll calls (clusterPoolsLoops keys calls w.clusterPools)) := by
  cases h : calls.listClusterPools
  · simp only [prepareClusterPools, clusterPoolsLoops, h]
    exact foldl_prepareClusterPool_secrets keys calls _ w hn
  · simp [prepareClusterPools, clusterPoolsLoops, h]

@[simp] theorem prepareClusterPools_clusterDeployments (w : HubWorld) :
    (prepareClusterPools keys calls w).clusterDeployments = w.clusterDeployments := by
  cases h : calls.listClusterPools <;> simp [prepareClusterPools, h]

@[simp] theorem prepareClusterPools_clusterPools (w : HubWorld) :
    (prepareClusterPools keys calls w).clusterPools = w.clusterPools := by
  cases h : calls.listClusterPools <;> simp [prepareClusterPools, h]

theorem prepareAgentInstallSecrets_secrets (w : HubWorld)
    (hn : (w.secrets.map Secret.key).Nodup) :
    (prepareAgentInstallSecrets keys calls w).secrets =
      w.secrets.map (SecretLoop.applyAll calls (agentInstallLoops keys calls)) := by
  cases h : calls.listSecrets .agentInstall
  · simp only [prepareAgentInstallSecrets, agentInstallLoops, h]
    exact (agentInstallLoop keys).updateEach_eq_map calls hn
  · simp [prepareAgentInstallSecrets, agentInstallLoops, h]

@[simp] theorem prepareAgentInstallSecrets_clusterDeployments (w : HubWorld) :
    (prepareAgentInstallSecrets keys calls w).clusterDeployments = w.clusterDeployments := by
  unfold prepareAgentInstallSecrets; split <;> rfl

@[simp] theorem prepareAgentInstallSecrets_clusterPools (w : HubWorld) :
    (prepareAgentInstallSecrets keys calls w).clusterPools = w.clusterPools := by
  unfold prepareAgentInstallSecrets; split <;> rfl

theorem prepareBaremetalSecrets_secrets (w : HubWorld) (hn : (w.secrets.map Secret.key).Nodup) :
    (prepareBaremetalSecrets keys calls w).secrets =
      w.secrets.map (SecretLoop.applyAll calls (baremetalLoops keys calls)) := by
  cases h : calls.listSecrets .baremetal
  · simp only [prepareBaremetalSecrets, baremetalLoops, h]
    exact (baremetalLoop keys).updateEach_eq_map calls hn
  · simp [prepareBaremetalSecrets, baremetalLoops, h]

@[simp] theorem prepareBaremetalSecrets_clusterDeployments (w : HubWorld) :
    (prepareBaremetalSecrets keys calls w).clusterDeployments = w.clusterDeployments := by
  unfold prepareBaremetalSecrets; split <;> rfl

@[simp] theorem prepareBaremetalSecrets_clusterPools (w : HubWorld) :
    (prepareBaremetalSecrets keys calls w).clusterPools = w.clusterPools := by
  unfold prepareBaremetalSecrets; split <;> rfl

/-! ### The whole run -/

/-- **The run, secret by secret.** On a store with one secret per namespace and name,
`prepareForBackup` stores in place of each secret what its loops, applied in turn, make of it. -/
theorem prepareForBackup_secrets (w : HubWorld) (hn : (w.secrets.map Secret.key).Nodup) :
    (prepareForBackup keys calls w).secrets =
      w.secrets.map (preparedSecret keys calls w.clusterDeployments w.clusterPools) := by
  have h₁ := prepareClusterDeployments_secrets keys calls w hn
  have hn₁ := SecretLoop.nodup_of_eq_map_applyAll calls h₁ hn
  have h₂ := prepareClusterPools_secrets keys calls _ hn₁
  have hn₂ := SecretLoop.nodup_of_eq_map_applyAll calls h₂ hn₁
  have h₃ := prepareAgentInstallSecrets_secrets keys calls _ hn₂
  rw [prepareForBackup, prepareBaremetalSecrets_secrets keys calls _
    (SecretLoop.nodup_of_eq_map_applyAll calls h₃ hn₂), h₃, h₂, h₁]
  simp only [List.map_map, prepareClusterDeployments_clusterPools]
  exact List.map_congr_left fun s _ ↦ by simp [preparedSecret, prepareLoops]

/-- **The run, cluster deployment by cluster deployment.** -/
theorem prepareForBackup_clusterDeployments (w : HubWorld)
    (hn : (w.clusterDeployments.map ClusterDeployment.key).Nodup) :
    (prepareForBackup keys calls w).clusterDeployments =
      w.clusterDeployments.map (preparedClusterDeployment calls) := by
  simp [prepareForBackup, prepareClusterDeployments_clusterDeployments keys calls w hn]

@[simp] theorem prepareForBackup_clusterPools (w : HubWorld) :
    (prepareForBackup keys calls w).clusterPools = w.clusterPools := by
  simp [prepareForBackup]

theorem key_preparedClusterDeployment (cd : ClusterDeployment) :
    (preparedClusterDeployment calls cd).key = cd.key := by
  unfold preparedClusterDeployment
  split
  · split
    · rcases storedAfter_cases calls.updateClusterDeployment (some (disableCreationWebhook cd)) cd
        with h | h
      · rw [h]
      · rw [← Option.some.inj h]; rfl
    · rfl
  · rfl

theorem prepareForBackup_keysUnique {w : HubWorld} (hw : w.KeysUnique) :
    (prepareForBackup keys calls w).KeysUnique := by
  refine ⟨?_, ?_⟩
  · rw [prepareForBackup_secrets keys calls w hw.1]
    exact (SecretLoop.map_key_map_applyAll calls _ _).symm ▸ hw.1
  · rw [prepareForBackup_clusterDeployments keys calls w hw.2, List.map_map]
    exact (List.map_congr_left fun cd _ ↦ key_preparedClusterDeployment calls cd).symm ▸ hw.2

end Refinement

end ClusterBackup
