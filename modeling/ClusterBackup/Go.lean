import Mathlib.Data.List.Infix

/-!
# The Go values the controllers compute with

Both reconcilers read and write a handful of values of the Go standard library and of
`apimachinery`: `time.Duration`, `metav1.Time`, label maps, `strings.Contains`, `strings.Join`
and `errors.Wrap`. Each is modelled by what it computes, not by how it is stored.

A duration is a signed count of nanoseconds and a time is a count of nanoseconds since the Unix
epoch, both in `ℤ`. Go's `int64` is a subrange of that, and none of the operations used here
(truncation, comparison, the division behind `Unix`) overflows, so every statement over `ℤ`
covers every `int64` input.

`metav1.Time` fields are pointers, and a nil pointer is `none`. `(*metav1.Time).Before` is false
as soon as either side is nil, which is what makes the restore controller's sort order
non-transitive (see `ClusterBackup.Restore.Select`).
-/

namespace ClusterBackup

/-! ## Durations -/

/-- A Go `time.Duration`: a signed count of nanoseconds. -/
structure Duration where
  /-- The nanoseconds. -/
  ns : Int
deriving DecidableEq, Repr

namespace Duration

/-- `time.Second`. -/
def second : Duration := ⟨1000000000⟩

/-- `time.Minute`. -/
def minute : Duration := ⟨60000000000⟩

/-- The zero duration, which is also the zero value of a `metav1.Duration`. -/
def zero : Duration := ⟨0⟩

/-- `time.Duration.Truncate`: `d` rounded toward zero to a multiple of `m`, and `d` itself when
`m ≤ 0`. Go's `%` truncates toward zero, as `Int.tmod` does. -/
def truncate (d m : Duration) : Duration :=
  if m.ns ≤ 0 then d else ⟨d.ns - d.ns.tmod m.ns⟩

/-- Truncation to a positive unit loses exactly the part below one unit, so a duration truncates
to zero iff it is shorter than one unit in either direction. -/
theorem truncate_eq_zero_iff (d m : Duration) (hm : 0 < m.ns) :
    d.truncate m = zero ↔ -m.ns < d.ns ∧ d.ns < m.ns := by
  have hsub : d.ns - d.ns.tmod m.ns = m.ns * d.ns.tdiv m.ns := by
    rw [Int.tmod_def, Int.sub_sub_self]
  simp only [truncate, show ¬m.ns ≤ 0 by omega, if_false, zero, Duration.mk.injEq, hsub,
    Int.mul_eq_zero, show m.ns ≠ 0 by omega, false_or]
  by_cases hd : d.ns < 0
  · have hn : d.ns = -(-d.ns) := (Int.neg_neg _).symm
    rw [hn, Int.neg_tdiv, Int.tdiv_eq_ediv (by omega) (Int.le_of_lt hm), Int.neg_eq_zero]
    constructor
    · intro h; have := Int.lt_ediv_add_one_mul_self (-d.ns) hm; simp only [h] at this; omega
    · intro h; exact Int.ediv_eq_zero_of_lt (by omega) (by omega)
  · rw [Int.tdiv_eq_ediv (by omega) (Int.le_of_lt hm)]
    constructor
    · intro h; have := Int.lt_ediv_add_one_mul_self d.ns hm; simp only [h] at this; omega
    · intro h; exact Int.ediv_eq_zero_of_lt (by omega) h.2

/-- The case the schedule controller uses: `d.Truncate(time.Second) == 0` iff `|d| < 1s`. -/
theorem truncate_second_eq_zero_iff (d : Duration) :
    d.truncate second = zero ↔ -1000000000 < d.ns ∧ d.ns < 1000000000 :=
  truncate_eq_zero_iff d second (by decide)

end Duration

/-! ## Times -/

/-- A Go `time.Time` as the API server hands it out: nanoseconds since the Unix epoch. The
location and the monotonic reading play no part in what the controllers compute. -/
structure Time where
  /-- Nanoseconds since 1970-01-01T00:00:00Z. -/
  ns : Int
deriving DecidableEq, Repr

namespace Time

/-- `time.Time.Unix`: whole seconds since the epoch, rounded down. -/
def unix (t : Time) : Int := t.ns / 1000000000

/-- `time.Time.Before`. -/
def before (t u : Time) : Bool := decide (t.ns < u.ns)

/-- A time `s` whole seconds after the epoch. -/
def ofSeconds (s : Int) : Time := ⟨s * 1000000000⟩

@[simp] theorem before_iff (t u : Time) : t.before u = true ↔ t.ns < u.ns := by
  simp [before]

end Time

/-- `(*metav1.Time).Before`: false unless both pointers are set. -/
def metaTimeBefore : Option Time → Option Time → Bool
  | some t, some u => t.before u
  | _, _ => false

@[simp] theorem metaTimeBefore_none_left (u : Option Time) : metaTimeBefore none u = false := rfl

@[simp] theorem metaTimeBefore_none_right (t : Option Time) : metaTimeBefore t none = false := by
  cases t <;> rfl

@[simp] theorem metaTimeBefore_some (t u : Time) :
    metaTimeBefore (some t) (some u) = t.before u := rfl

/-! ## Labels, strings and errors -/

/-- A Kubernetes label map. -/
abbrev Labels := List (String × String)

/-- Go's `labels[key]`: the value under `key`, or the zero value `""` when there is none. -/
def labelValue (labels : Labels) (key : String) : String := (labels.lookup key).getD ""

/-- Go's `labels[key] = value`: the map keeps one value per key. -/
def labelsSet (labels : Labels) (key value : String) : Labels :=
  (key, value) :: labels.filter (·.1 != key)

/-- Go's `delete(labels, key)`. -/
def labelsDelete (labels : Labels) (key : String) : Labels := labels.filter (·.1 != key)

theorem lookup_filter_ne (labels : Labels) (key key' : String) :
    (labels.filter (·.1 != key)).lookup key' =
      if key' = key then none else labels.lookup key' := by
  induction labels with
  | nil => split <;> rfl
  | cons p labels ih =>
    obtain ⟨k, v⟩ := p
    by_cases hk : k = key
    · subst hk
      by_cases h : key' = k
      · subst h; simpa [List.filter_cons] using ih
      · simp [List.filter_cons, List.lookup_cons, h, ih, beq_false_of_ne h]
    · simp only [List.filter_cons, bne_iff_ne, ne_eq, hk, not_false_eq_true, if_true,
        List.lookup_cons, ih]
      split <;> simp_all

@[simp] theorem labelValue_labelsSet (labels : Labels) (key value key' : String) :
    labelValue (labelsSet labels key value) key' =
      if key' = key then value else labelValue labels key' := by
  by_cases h : key' = key
  · subst h; simp [labelValue, labelsSet, List.lookup_cons]
  · simp [labelValue, labelsSet, List.lookup_cons, beq_false_of_ne h, lookup_filter_ne, h]

@[simp] theorem labelValue_labelsDelete (labels : Labels) (key key' : String) :
    labelValue (labelsDelete labels key) key' =
      if key' = key then "" else labelValue labels key' := by
  unfold labelValue labelsDelete; rw [lookup_filter_ne]; split <;> rfl

/-- Setting a label twice is setting it once. -/
@[simp] theorem labelsSet_labelsSet (labels : Labels) (key value : String) :
    labelsSet (labelsSet labels key value) key value = labelsSet labels key value := by
  simp [labelsSet, List.filter_cons, List.filter_filter]

/-- Go's `strings.HasPrefix(s, prefix)`. -/
def stringsHasPrefix (s pre : String) : Bool := decide (pre.data <+: s.data)

/-- Go's `strings.Contains(s, substr)`. -/
def stringsContains (s substr : String) : Bool := decide (substr.data <:+: s.data)

theorem stringsContains_iff (s substr : String) :
    stringsContains s substr = true ↔ substr.data <:+: s.data := by
  simp [stringsContains]

/-- A string contains every string that a part of it contains. -/
theorem stringsContains_append_right {a b substr : String} (h : stringsContains b substr = true) :
    stringsContains (a ++ b) substr = true := by
  rw [stringsContains_iff, String.data_append] at *
  exact h.trans (List.suffix_append _ _).isInfix

/-- Go's `strings.Join(elems, sep)`. -/
def stringsJoin (elems : List String) (sep : String) : String := sep.intercalate elems

/-- `errors.Wrap(err, message)` of `github.com/pkg/errors`: nil stays nil, and an error gains the
message in front of its own. -/
def errorsWrap (err : Option String) (message : String) : Option String :=
  err.map fun e ↦ message ++ ": " ++ e

@[simp] theorem errorsWrap_none (message : String) : errorsWrap none message = none := rfl

/-- A fallible Go call's `(value, err)` is an `Except`; comparing two lets the model be run. -/
instance exceptDecidableEq {ε α : Type} [DecidableEq ε] [DecidableEq α] :
    DecidableEq (Except ε α)
  | .ok a, .ok b => decidable_of_iff (a = b) ⟨congrArg _, Except.ok.inj⟩
  | .error a, .error b => decidable_of_iff (a = b) ⟨congrArg _, Except.error.inj⟩
  | .ok _, .error _ => isFalse fun h ↦ Except.noConfusion h
  | .error _, .ok _ => isFalse fun h ↦ Except.noConfusion h

/-- `ctrl.Result`: when to reconcile again. The controllers only ever set `RequeueAfter`. -/
structure Result where
  /-- `RequeueAfter`; zero means no timed requeue. -/
  requeueAfter : Duration := Duration.zero
deriving DecidableEq, Repr

end ClusterBackup
