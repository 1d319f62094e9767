import Mathlib.Data.List.Perm.Basic
import Mathlib.Data.List.Pairwise

/-!
# Go's `sort` package

Both controllers sort velero backups, the restore controller with `sort.Sort` and the collision
check with `sort.Slice`. Neither sort is stable, and which permutation they return on a
comparator that is not a strict weak ordering is not promised by Go. The development therefore
keeps the sort abstract and assumes only what the package documents, `SortContract`: the result is
a permutation of the input, and it is sorted whenever `Less` is a strict weak ordering of the
slice's elements.

One concrete sort is modelled exactly: `insertionSort`, the loop both `sort.Sort` and `sort.Slice`
run on slices of at most twelve elements (since Go 1.19 directly; before, after a gap-6 pass that
does nothing on six elements or fewer). It meets the contract, which is what makes every theorem
assuming the contract applicable, and it is the sort every run on concrete backups here uses.

## Strict weak orderings

Go's `sort.Interface` asks of `Less` that it be a transitive ordering: `Less(i, j)` and
`Less(j, k)` both true force `Less(i, k)` true, and both false force it false. Together with
irreflexivity this is a strict weak ordering, stated here on the elements of one list only, since
`Less` is never called on anything else.
-/

namespace ClusterBackup

open scoped List

variable {α : Type}

/-- `less` is a strict weak ordering of the elements of `s`, in the form Go's documentation gives:
irreflexive, transitive, and with transitive negation. -/
structure StrictWeakOrder (less : α → α → Bool) (s : List α) : Prop where
  irrefl : ∀ a ∈ s, less a a = false
  trans : ∀ a ∈ s, ∀ b ∈ s, ∀ c ∈ s,
    less a b = true → less b c = true → less a c = true
  neg_trans : ∀ a ∈ s, ∀ b ∈ s, ∀ c ∈ s,
    less a b = false → less b c = false → less a c = false

namespace StrictWeakOrder

variable {less : α → α → Bool} {s : List α}

theorem asymm (h : StrictWeakOrder less s) {a b : α} (ha : a ∈ s) (hb : b ∈ s)
    (hab : less a b = true) : less b a = false := by
  cases hba : less b a
  · rfl
  · simpa [h.irrefl a ha] using h.trans a ha b hb a ha hab hba

theorem mono (h : StrictWeakOrder less s) {t : List α} (hts : ∀ x ∈ t, x ∈ s) :
    StrictWeakOrder less t where
  irrefl a ha := h.irrefl a (hts a ha)
  trans a ha b hb c hc := h.trans a (hts a ha) b (hts b hb) c (hts c hc)
  neg_trans a ha b hb c hc := h.neg_trans a (hts a ha) b (hts b hb) c (hts c hc)

end StrictWeakOrder

/-- Comparing by an integer key is a strict weak ordering of any list. -/
theorem strictWeakOrder_key (key : α → Int) (s : List α) :
    StrictWeakOrder (fun a b ↦ decide (key a < key b)) s where
  irrefl a _ := by simp
  trans a _ b _ c _ := by simp only [decide_eq_true_eq]; omega
  neg_trans a _ b _ c _ := by simp only [decide_eq_false_iff_not]; omega

/-- What Go's `sort.Sort` and `sort.Slice` promise: a permutation of the input, sorted (no element
is `less` than one before it) whenever `less` is a strict weak ordering of the input. -/
structure SortContract (sort : (α → α → Bool) → List α → List α) : Prop where
  perm : ∀ less l, sort less l ~ l
  sorted : ∀ less l, StrictWeakOrder less l →
    (sort less l).Pairwise fun a b ↦ less b a = false

/-! ## Go's insertion sort -/

/-- The inner loop of Go's `insertionSort`, on the sorted prefix kept in reverse (its last element
first): the new element is swapped left past every neighbour it is `less` than. -/
def insertRev (less : α → α → Bool) (x : α) : List α → List α
  | [] => [x]
  | y :: ys => if less x y then y :: insertRev less x ys else x :: y :: ys

/-- Go's `insertionSort(data, 0, n)`: for `i = 1, …, n-1`, swap `data[j]` and `data[j-1]` for
`j = i, i-1, …` while `Less(j, j-1)`. This is what `sort.Sort` and `sort.Slice` run on a slice of
at most twelve elements. -/
def insertionSort (less : α → α → Bool) (l : List α) : List α :=
  (l.foldl (fun acc x ↦ insertRev less x acc) []).reverse

theorem insertRev_perm (less : α → α → Bool) (x : α) (l : List α) :
    insertRev less x l ~ x :: l := by
  induction l with
  | nil => rfl
  | cons y ys ih =>
    unfold insertRev
    split
    · exact (ih.cons y).trans (List.Perm.swap x y ys)
    · rfl

theorem mem_insertRev {less : α → α → Bool} {x z : α} {l : List α} :
    z ∈ insertRev less x l ↔ z = x ∨ z ∈ l := by
  rw [(insertRev_perm less x l).mem_iff, List.mem_cons]

theorem foldl_insertRev_perm (less : α → α → Bool) (l : List α) :
    ∀ acc : List α, l.foldl (fun acc x ↦ insertRev less x acc) acc ~ l.reverse ++ acc := by
  induction l with
  | nil => intro acc; rfl
  | cons x xs ih =>
    intro acc
    rw [List.foldl_cons, List.reverse_cons, List.append_assoc, List.singleton_append]
    exact (ih _).trans ((insertRev_perm less x acc).append_left _)

theorem insertionSort_perm (less : α → α → Bool) (l : List α) :
    insertionSort less l ~ l := by
  refine (List.reverse_perm _).trans ((foldl_insertRev_perm less l []).trans ?_)
  rw [List.append_nil]
  exact List.reverse_perm l

/-- One insertion keeps the reversed prefix sorted. -/
theorem insertRev_pairwise {less : α → α → Bool} {s : List α} (h : StrictWeakOrder less s)
    {x : α} (hx : x ∈ s) :
    ∀ {l : List α}, (∀ y ∈ l, y ∈ s) → l.Pairwise (fun a b ↦ less a b = false) →
      (insertRev less x l).Pairwise (fun a b ↦ less a b = false)
  | [], _, _ => List.pairwise_singleton _ _
  | y :: ys, hl, hp => by
    have hy := hl y (List.mem_cons_self y ys)
    rw [List.pairwise_cons] at hp
    unfold insertRev
    split
    · rename_i hxy
      refine List.pairwise_cons.2 ⟨fun z hz ↦ ?_, insertRev_pairwise h hx
        (fun z hz ↦ hl z (List.mem_cons_of_mem y hz)) hp.2⟩
      rcases mem_insertRev.1 hz with rfl | hz
      · exact h.asymm hx hy hxy
      · exact hp.1 z hz
    · rename_i hxy
      refine List.pairwise_cons.2 ⟨fun z hz ↦ ?_, List.pairwise_cons.2 hp⟩
      rcases List.mem_cons.1 hz with rfl | hz
      · simpa using hxy
      · exact h.neg_trans x hx y hy z (hl z (List.mem_cons_of_mem y hz)) (by simpa using hxy)
          (hp.1 z hz)

theorem foldl_insertRev_pairwise {less : α → α → Bool} {s : List α}
    (h : StrictWeakOrder less s) :
    ∀ {l acc : List α}, (∀ y ∈ l, y ∈ s) → (∀ y ∈ acc, y ∈ s) →
      acc.Pairwise (fun a b ↦ less a b = false) →
      (l.foldl (fun acc x ↦ insertRev less x acc) acc).Pairwise (fun a b ↦ less a b = false)
  | [], _, _, _, hp => hp
  | x :: xs, acc, hl, hacc, hp => by
    have hx := hl x (List.mem_cons_self x xs)
    rw [List.foldl_cons]
    refine foldl_insertRev_pairwise h (fun y hy ↦ hl y (List.mem_cons_of_mem x hy))
      (fun y hy ↦ ?_) (insertRev_pairwise h hx hacc hp)
    rcases mem_insertRev.1 hy with rfl | hy
    exacts [hx, hacc y hy]

/-- **Go's insertion sort meets the sort contract.** -/
theorem insertionSort_sortContract : SortContract (insertionSort (α := α)) where
  perm := insertionSort_perm
  sorted less l h := by
    rw [insertionSort, List.pairwise_reverse]
    exact foldl_insertRev_pairwise h (fun _ hy ↦ hy) (by simp) List.Pairwise.nil

end ClusterBackup
