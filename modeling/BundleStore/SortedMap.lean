set_option autoImplicit false

/-! Finite maps and sets kept as a list in strictly increasing order of the keys. Two maps with
the same answers are therefore the same list, and the order in which entries are listed is part
of the value. The lemmas say what each operation does to `find?`. -/

namespace BundleStore

structure SortedMap (κ α : Type) [Ord κ] where
  entries : List (κ × α)
  increasing : entries.Pairwise (fun left right => compare left.1 right.1 = .lt)
deriving DecidableEq

namespace SortedMap

variable {κ α β : Type} [Ord κ]

def empty : SortedMap κ α := ⟨[], .nil⟩

instance : EmptyCollection (SortedMap κ α) := ⟨empty⟩

instance : Inhabited (SortedMap κ α) := ⟨empty⟩

def lookup (key : κ) : List (κ × α) → Option α
  | [] => none
  | (present, value) :: rest =>
      if compare key present = .eq then some value else lookup key rest

def find? (map : SortedMap κ α) (key : κ) : Option α := lookup key map.entries

def contains (map : SortedMap κ α) (key : κ) : Bool := (map.find? key).isSome

def size (map : SortedMap κ α) : Nat := map.entries.length

def isEmpty (map : SortedMap κ α) : Bool := map.entries.isEmpty

def keys (map : SortedMap κ α) : List κ := map.entries.map (·.1)

def values (map : SortedMap κ α) : List α := map.entries.map (·.2)

/-- An equal key gives way to the new entry. -/
def place (key : κ) (value : α) : List (κ × α) → List (κ × α)
  | [] => [(key, value)]
  | (present, old) :: rest =>
      match compare key present with
      | .lt => (key, value) :: (present, old) :: rest
      | .eq => (key, value) :: rest
      | .gt => (present, old) :: place key value rest

theorem mem_place {key : κ} {value : α} {list : List (κ × α)} {entry : κ × α}
    (member : entry ∈ place key value list) : entry = (key, value) ∨ entry ∈ list := by
  induction list with
  | nil => exact Or.inl (List.mem_singleton.mp member)
  | cons head rest ih =>
      obtain ⟨present, old⟩ := head
      rw [place] at member
      split at member
      · exact (List.mem_cons.mp member)
      · rcases List.mem_cons.mp member with same | later
        · exact Or.inl same
        · exact Or.inr (List.mem_cons_of_mem _ later)
      · rcases List.mem_cons.mp member with same | later
        · exact Or.inr (same ▸ List.mem_cons_self)
        · exact (ih later).imp id (List.mem_cons_of_mem _)

theorem place_increasing [Std.TransOrd κ] (key : κ) (value : α) {list : List (κ × α)}
    (increasing : list.Pairwise (fun left right => compare left.1 right.1 = .lt)) :
    (place key value list).Pairwise (fun left right => compare left.1 right.1 = .lt) := by
  induction list with
  | nil => exact List.pairwise_singleton _ _
  | cons head rest ih =>
      obtain ⟨present, old⟩ := head
      obtain ⟨first, later⟩ := List.pairwise_cons.mp increasing
      rw [place]
      split
      · rename_i before
        refine List.pairwise_cons.mpr ⟨fun entry member => ?_, increasing⟩
        rcases List.mem_cons.mp member with same | inRest
        · exact same ▸ before
        · exact Std.TransCmp.lt_trans before (first entry inRest)
      · rename_i same
        exact List.pairwise_cons.mpr
          ⟨fun entry member => Std.TransCmp.lt_of_eq_of_lt same (first entry member), later⟩
      · rename_i after
        refine List.pairwise_cons.mpr ⟨fun entry member => ?_, ih later⟩
        rcases mem_place member with same | inRest
        · exact same ▸ Std.OrientedCmp.gt_iff_lt.mp after
        · exact first entry inRest

def insert [Std.TransOrd κ] (map : SortedMap κ α) (key : κ) (value : α) : SortedMap κ α :=
  ⟨place key value map.entries, place_increasing key value map.increasing⟩

def erase (map : SortedMap κ α) (key : κ) : SortedMap κ α :=
  ⟨map.entries.filter (fun entry => compare key entry.1 != .eq), map.increasing.filter _⟩

def filter (map : SortedMap κ α) (keep : κ → α → Bool) : SortedMap κ α :=
  ⟨map.entries.filter (fun entry => keep entry.1 entry.2), map.increasing.filter _⟩

/-- Entries may come in any order; of a repeated key the last one stays. -/
def ofList [Std.TransOrd κ] (list : List (κ × α)) : SortedMap κ α :=
  list.foldl (fun map entry => map.insert entry.1 entry.2) empty

theorem lookup_place [Std.TransOrd κ] (key wanted : κ) (value : α) (list : List (κ × α)) :
    lookup wanted (place key value list) =
      if compare wanted key = .eq then some value else lookup wanted list := by
  induction list with
  | nil => rfl
  | cons head rest ih =>
      obtain ⟨present, old⟩ := head
      rw [place]
      split
      · rfl
      · rename_i same
        have alike : compare wanted key = compare wanted present :=
          Std.TransCmp.congr_right same
        simp only [lookup, alike]
        split <;> rfl
      · rename_i after
        by_cases found : compare wanted key = .eq
        · have differs : compare wanted present = .gt :=
            (Std.TransCmp.congr_left found).trans after
          simp [lookup, found, differs, ih]
        · simp only [lookup, ih, if_neg found]

@[simp]
theorem find?_empty (key : κ) : (empty : SortedMap κ α).find? key = none := rfl

theorem find?_insert [Std.TransOrd κ] (map : SortedMap κ α) (key wanted : κ) (value : α) :
    (map.insert key value).find? wanted =
      if compare wanted key = .eq then some value else map.find? wanted :=
  lookup_place key wanted value map.entries

theorem lookup_filter_ne [Std.TransOrd κ] (key wanted : κ) (list : List (κ × α)) :
    lookup wanted (list.filter (fun entry => compare key entry.1 != .eq)) =
      if compare key wanted = .eq then none else lookup wanted list := by
  induction list with
  | nil => simp [lookup]
  | cons head rest ih =>
      obtain ⟨present, old⟩ := head
      by_cases dropped : compare key present = .eq
      · rw [List.filter_cons_of_neg (by simp [dropped]), ih]
        by_cases same : compare key wanted = .eq
        · simp [same]
        · have differs : compare wanted present ≠ .eq := fun found =>
            same (Std.TransCmp.eq_trans dropped (Std.OrientedCmp.eq_symm found))
          simp [lookup, same, differs]
      · rw [List.filter_cons_of_pos (by simp [dropped])]
        by_cases same : compare key wanted = .eq
        · have differs : compare wanted present ≠ .eq := fun found =>
            dropped (Std.TransCmp.eq_trans same found)
          simp only [lookup, if_neg differs, ih]
        · simp only [lookup, ih, if_neg same]

theorem find?_erase [Std.TransOrd κ] (map : SortedMap κ α) (key wanted : κ) :
    (map.erase key).find? wanted =
      if compare key wanted = .eq then none else map.find? wanted :=
  lookup_filter_ne key wanted map.entries

end SortedMap

/-- A set is a map whose values say nothing. -/
abbrev SortedSet (κ : Type) [Ord κ] := SortedMap κ Unit

namespace SortedSet

variable {κ : Type} [Ord κ]

def elements (set : SortedSet κ) : List κ := SortedMap.keys set

def add [Std.TransOrd κ] (set : SortedSet κ) (key : κ) : SortedSet κ := SortedMap.insert set key ()

def ofElements [Std.TransOrd κ] (list : List κ) : SortedSet κ := list.foldl add SortedMap.empty

end SortedSet

end BundleStore
