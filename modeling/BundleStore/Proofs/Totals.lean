import Mathlib.Algebra.BigOperators.Group.List.Basic
import Mathlib.Algebra.GroupWithZero.Nat
import Mathlib.Algebra.Order.BigOperators.Group.List
import Mathlib.Algebra.Order.Group.Nat
import Mathlib.Data.List.Perm.Subperm

set_option autoImplicit false

/-! Sums over parts of lists, and lists cut down from the front until they are not too much. -/

namespace BundleStore

variable {α β : Type}

theorem foldr_eq_sum_map (measure : α → Nat) (list : List α) :
    list.foldr (fun element sum => measure element + sum) 0 = (list.map measure).sum := by
  rw [List.sum_eq_foldr, List.foldr_map]

theorem sum_map_le_of_sublist (measure : α → Nat) {list other : List α}
    (fewer : list.Sublist other) : (list.map measure).sum ≤ (other.map measure).sum :=
  (fewer.map measure).sum_le_sum (fun _value _member => Nat.zero_le _)

/-- Distinct elements of a list weigh no more than the list. -/
theorem sum_map_le_of_subset (measure : α → Nat) {list other : List α} (distinct : list.Nodup)
    (within : list ⊆ other) : (list.map measure).sum ≤ (other.map measure).sum := by
  obtain ⟨middle, same, fewer⟩ := distinct.subperm within
  rw [← (same.map measure).sum_nat]
  exact sum_map_le_of_sublist measure fewer

/-- What is spread over numbered heaps weighs what the heaps weigh together. -/
theorem sum_map_spread (measure : α → Nat) (heap : α → Nat) (count : Nat) (list : List α) :
    ((List.range count).map (fun index =>
      ((list.filter (heap · = index)).map measure).sum)).sum =
      ((list.filter (heap · < count)).map measure).sum := by
  induction count with
  | zero =>
      have none : list.filter (heap · < 0) = [] :=
        List.filter_eq_nil_iff.mpr (fun element _member => by simp)
      rw [none]
      rfl
  | succ count ih =>
      have split := List.sum_map_filter_add_sum_map_filter_not (heap · < count) measure
        (list.filter (heap · < count + 1))
      have below : (list.filter (heap · < count + 1)).filter (heap · < count) =
          list.filter (heap · < count) := by
        rw [List.filter_filter]
        congr 1
        funext element
        simp only [Bool.and_eq_left_iff_imp, decide_eq_true_eq]
        omega
      have last : (list.filter (heap · < count + 1)).filter (fun element => ¬ heap element < count) =
          list.filter (heap · = count) := by
        rw [List.filter_filter]
        congr 1
        funext element
        rw [Bool.eq_iff_iff]
        simp only [Bool.and_eq_true, decide_eq_true_eq]
        omega
      rw [below, last] at split
      rw [List.range_succ, List.map_append, List.sum_append, ih, List.map_singleton,
        List.sum_singleton]
      exact split

/-- Takes the first element away as long as the rest with it is too much. -/
def trim (tooMuch : List α → Bool) : List α → List α
  | [] => []
  | first :: rest => if tooMuch (first :: rest) then trim tooMuch rest else first :: rest

theorem trim_suffix (tooMuch : List α → Bool) (list : List α) : trim tooMuch list <:+ list := by
  induction list with
  | nil => exact List.suffix_rfl
  | cons first rest ih =>
      rw [trim]
      split
      · exact ih.trans (List.suffix_cons first rest)
      · exact List.suffix_rfl

theorem trim_eq_self {tooMuch : List α → Bool} {list : List α} (fits : tooMuch list = false) :
    trim tooMuch list = list := by
  cases list with
  | nil => rfl
  | cons first rest =>
      rw [trim, fits]
      exact if_neg Bool.false_ne_true

theorem trim_fits (tooMuch : List α → Bool) (list : List α) (nothing : tooMuch [] = false) :
    tooMuch (trim tooMuch list) = false := by
  induction list with
  | nil => exact nothing
  | cons first rest ih =>
      rw [trim]
      split
      · exact ih
      · rename_i fits
        exact Bool.eq_false_iff.mpr fits

/-- The last element stays if it is not too much alone. -/
theorem mem_trim_last {tooMuch : List α → Bool} (list : List α) {last : α}
    (alone : tooMuch [last] = false) : last ∈ trim tooMuch (list ++ [last]) := by
  induction list with
  | nil =>
      rw [List.nil_append, trim_eq_self alone]
      exact List.mem_singleton_self last
  | cons first rest ih =>
      rw [List.cons_append, trim]
      split
      · exact ih
      · exact List.mem_cons_of_mem _ (List.mem_append_right _ (List.mem_singleton_self last))

theorem trim_congr {tooMuch other : List α → Bool} {list : List α}
    (agree : ∀ rest, rest <:+ list → tooMuch rest = other rest) :
    trim tooMuch list = trim other list := by
  induction list with
  | nil => rfl
  | cons first rest ih =>
      rw [trim, trim, agree _ List.suffix_rfl,
        ih (fun later suffix => agree later (suffix.trans (List.suffix_cons first rest)))]

theorem trim_map {tooMuch : List β → Bool} (change : α → β) (list : List α) :
    trim tooMuch (list.map change) =
      (trim (fun rest => tooMuch (rest.map change)) list).map change := by
  induction list with
  | nil => rfl
  | cons first rest ih =>
      rw [List.map_cons, trim, trim, ih, List.map_cons]
      split <;> rfl

end BundleStore
