import Mathlib.Data.List.Nodup

/-!
# A store of namespaced objects

The API server keeps one object per namespace and name. The loops of `prepareForBackup` all have
one shape: list objects, compute from each listed object the object to `Update`, if any, and call
`Update`, whose error is only logged. `updateEach` is that loop; `putObject` is a successful
`Update` and `updateObject` one that may fail.

## Main results

* `updateEach_eq_map`: on a store with one object per key, a loop over a listing of the store
  acts object by object: each listed object is replaced by what `storedAfter` makes of it.
* `updateEach_filter`: the same for the listing a filter returns.
-/

namespace ClusterBackup

section Store

variable {α : Type} (key : α → String × String)

/-- `c.Update(ctx, obj)` that succeeds: the stored object of `obj`'s namespace and name becomes
`obj`. -/
def putObject (obj : α) (objects : List α) : List α :=
  objects.map fun o ↦ if key o = key obj then obj else o

/-- `if err := c.Update(ctx, obj); err != nil { log }`, for the object a loop body computed, if
any: the error is logged and changes nothing. -/
def updateObject (update : α → Option String) : Option α → List α → List α
  | some obj, objects =>
    match update obj with
    | none => putObject key obj objects
    | some _ => objects
  | none, objects => objects

/-- A loop over `listed`, a listing of the store, that calls `Update` on what `write` computes
from each listed object. -/
def updateEach (update : α → Option String) (write : α → Option α)
    (listed objects : List α) : List α :=
  listed.foldl (fun objects obj ↦ updateObject key update (write obj) objects) objects

/-- What `updateObject` leaves in place of the stored `obj` when `write` is computed from it. -/
def storedAfter (update : α → Option String) : Option α → α → α
  | some obj', obj =>
    match update obj' with
    | none => obj'
    | some _ => obj
  | none, obj => obj

@[simp] theorem storedAfter_none (update : α → Option String) (obj : α) :
    storedAfter update none obj = obj := rfl

/-- Without failures, the write is what is stored. -/
@[simp] theorem storedAfter_ok (write : Option α) (obj : α) :
    storedAfter (fun _ ↦ none) write obj = write.getD obj := by
  cases write <;> rfl

theorem storedAfter_cases (update : α → Option String) (write : Option α) (obj : α) :
    storedAfter update write obj = obj ∨ write = some (storedAfter update write obj) := by
  rcases write with _ | obj'
  · exact .inl rfl
  · simp only [storedAfter]; split <;> simp

@[simp] theorem map_key_putObject (obj : α) (objects : List α) :
    (putObject key obj objects).map key = objects.map key := by
  simp only [putObject, List.map_map]
  exact List.map_congr_left fun o _ ↦ by by_cases h : key o = key obj <;> simp [h]

@[simp] theorem map_key_updateObject (update : α → Option String) (write : Option α)
    (objects : List α) : (updateObject key update write objects).map key = objects.map key := by
  rcases write with _ | obj
  · rfl
  · simp only [updateObject]; split <;> simp

@[simp] theorem map_key_updateEach (update : α → Option String) (write : α → Option α)
    (listed objects : List α) :
    (updateEach key update write listed objects).map key = objects.map key := by
  induction listed generalizing objects with
  | nil => rfl
  | cons obj listed ih =>
    show (updateEach key update write listed _).map key = _
    rw [ih, map_key_updateObject]

/-- Writing back a stored object changes nothing. -/
theorem putObject_self {obj : α} {objects : List α} (h : obj ∈ objects)
    (hn : (objects.map key).Nodup) : putObject key obj objects = objects := by
  conv_rhs => rw [← List.map_id objects]
  refine List.map_congr_left fun o ho ↦ ?_
  split_ifs with hk
  · exact (List.inj_on_of_nodup_map hn ho h hk).symm
  · rfl

variable {key}

theorem updateObject_eq_putObject (update : α → Option String) {write : Option α} {obj : α}
    {objects : List α} (hw : ∀ obj', write = some obj' → key obj' = key obj)
    (h : obj ∈ objects) (hn : (objects.map key).Nodup) :
    updateObject key update write objects =
      putObject key (storedAfter update write obj) objects := by
  rcases write with _ | obj'
  · exact (putObject_self key h hn).symm
  · simp only [updateObject, storedAfter]
    split
    · rfl
    · exact (putObject_self key h hn).symm

/-- **A loop acts object by object.** On a store with one object per key, a loop over a listing
of the store updates each listed object from its own stored copy. -/
theorem updateEach_eq_map (update : α → Option String) {write : α → Option α}
    (hw : ∀ obj obj', write obj = some obj' → key obj' = key obj) :
    ∀ (listed objects : List α), (∀ o ∈ listed, o ∈ objects) → (listed.map key).Nodup →
      (objects.map key).Nodup → updateEach key update write listed objects =
        objects.map fun o ↦ if key o ∈ listed.map key then storedAfter update (write o) o else o
  | [], objects, _, _, _ => by simp [updateEach]
  | obj :: listed, objects, hsub, hl, hn => by
    have hobj : obj ∈ objects := hsub obj (List.mem_cons_self _ _)
    obtain ⟨hnotin, hl⟩ := List.nodup_cons.1 hl
    have hkey : key (storedAfter update (write obj) obj) = key obj := by
      rcases storedAfter_cases update (write obj) obj with h | h
      · rw [h]
      · exact hw _ _ h
    have hsub' :
        ∀ o ∈ listed, o ∈ putObject key (storedAfter update (write obj) obj) objects :=
      fun o ho ↦ List.mem_map.2 ⟨o, hsub o (List.mem_cons_of_mem _ ho), by
        rw [if_neg (by rw [hkey]; exact fun h ↦ hnotin (h ▸ List.mem_map_of_mem key ho))]⟩
    show updateEach key update write listed (updateObject key update (write obj) objects) = _
    rw [updateObject_eq_putObject update (hw obj) hobj hn,
      updateEach_eq_map update hw listed _ hsub' hl (by rwa [map_key_putObject]), putObject,
      List.map_map]
    refine List.map_congr_left fun o ho ↦ ?_
    by_cases hk : key o = key obj
    · obtain rfl := List.inj_on_of_nodup_map hn ho hobj hk
      simp only [Function.comp_apply, if_pos rfl, hkey, if_neg hnotin, List.map_cons,
        List.mem_cons_self, if_true]
    · simp only [Function.comp_apply, hkey, hk, if_false, List.map_cons, List.mem_cons, false_or]

/-- A loop over the objects a filter lists. -/
theorem updateEach_filter (update : α → Option String) {write : α → Option α}
    (hw : ∀ obj obj', write obj = some obj' → key obj' = key obj) (p : α → Bool)
    {objects : List α} (hn : (objects.map key).Nodup) :
    updateEach key update write (objects.filter p) objects =
      objects.map fun o ↦ if p o then storedAfter update (write o) o else o := by
  rw [updateEach_eq_map update hw _ _ (fun o h ↦ (List.mem_filter.1 h).1)
    (((List.filter_sublist objects).map key).nodup hn) hn]
  refine List.map_congr_left fun o ho ↦ ?_
  have : key o ∈ (objects.filter p).map key ↔ p o := by
    refine ⟨fun h ↦ ?_, fun h ↦ List.mem_map_of_mem _ (List.mem_filter.2 ⟨ho, h⟩)⟩
    obtain ⟨o', ho', hk⟩ := List.mem_map.1 h
    obtain ⟨ho'', hp⟩ := List.mem_filter.1 ho'
    rwa [← List.inj_on_of_nodup_map hn ho'' ho hk]
  simp only [this]

/-- A loop over the whole store. -/
theorem updateEach_self (update : α → Option String)
    {write : α → Option α} (hw : ∀ obj obj', write obj = some obj' → key obj' = key obj)
    {objects : List α} (hn : (objects.map key).Nodup) :
    updateEach key update write objects objects =
      objects.map fun o ↦ storedAfter update (write o) o := by
  simpa using updateEach_filter update hw (fun _ ↦ true) hn

end Store

end ClusterBackup
