import BundleStore.SortedMap

set_option autoImplicit false

/-! Sorted maps whose keys are ordered so that only equal keys compare as equal. -/

namespace BundleStore.SortedMap

variable {κ α : Type} [Ord κ]

theorem lookup_none {key : κ} {list : List (κ × α)} (absent : lookup key list = none) :
    ∀ entry ∈ list, compare key entry.1 ≠ .eq := by
  induction list with
  | nil =>
      intro entry member
      cases member
  | cons head rest ih =>
      obtain ⟨present, old⟩ := head
      rw [lookup] at absent
      split at absent
      · cases absent
      · rename_i differs
        intro entry member
        rcases List.mem_cons.mp member with same | later
        · rw [same]
          exact differs
        · exact ih absent entry later

theorem erase_of_absent {map : SortedMap κ α} {key : κ} (absent : map.find? key = none) :
    map.erase key = map := by
  have kept : map.entries.filter (fun entry => compare key entry.1 != .eq) = map.entries := by
    apply List.filter_eq_self.mpr
    intro entry member
    exact bne_iff_ne.mpr (lookup_none absent entry member)
  cases map
  exact (mk.injEq ..).mpr kept

theorem ne_of_lt [Std.ReflOrd κ] {left right : κ} (before : compare left right = .lt) :
    left ≠ right := by
  rintro rfl
  exact absurd (Std.ReflCmp.compare_self.symm.trans before) (by decide)

theorem entries_nodup [Std.ReflOrd κ] (map : SortedMap κ α) : map.entries.Nodup :=
  map.increasing.imp (fun before same => ne_of_lt before (congrArg Prod.fst same))

theorem sorted_mergeSort [Std.TransOrd κ] (list : List κ) :
    (list.mergeSort (fun left right => compare left right != .gt)).Pairwise
      (fun left right => (compare left right).isLE = true) := by
  have within (left right : κ) : (compare left right != .gt) = (compare left right).isLE := by
    cases compare left right <;> rfl
  simp only [within]
  refine List.pairwise_mergeSort (fun _left _middle _right => Std.TransCmp.isLE_trans) ?_ list
  intro left right
  have swapped : compare right left = (compare left right).swap := Std.OrientedCmp.eq_swap
  rw [swapped]
  cases compare left right <;> rfl

variable [Std.LawfulEqOrd κ]

/-- An entry that a test on the keys drops is dropped wherever it is placed. -/
theorem filter_place (keep : κ → Bool) {key : κ} (dropped : keep key = false) (value : α)
    (list : List (κ × α)) : (place key value list).filter (fun entry => keep entry.1) =
      list.filter (fun entry => keep entry.1) := by
  have gone {rest : List (κ × α)} (old : α) :
      ((key, old) :: rest).filter (fun entry => keep entry.1) =
        rest.filter (fun entry => keep entry.1) :=
    List.filter_cons_of_neg (by simp [dropped])
  induction list with
  | nil => exact gone value
  | cons head rest ih =>
      obtain ⟨present, old⟩ := head
      rw [place]
      split
      · exact gone value
      · rename_i same
        obtain rfl : key = present := Std.LawfulEqCmp.compare_eq_iff_eq.mp same
        rw [gone, gone]
      · rw [List.filter_cons, List.filter_cons, ih]

theorem lookup_eq_some {key : κ} {value : α} {list : List (κ × α)}
    (increasing : list.Pairwise (fun left right => compare left.1 right.1 = .lt)) :
    lookup key list = some value ↔ (key, value) ∈ list := by
  induction list with
  | nil => simp [lookup]
  | cons head rest ih =>
      obtain ⟨present, old⟩ := head
      obtain ⟨first, later⟩ := List.pairwise_cons.mp increasing
      rw [lookup, List.mem_cons, ← ih later]
      by_cases same : compare key present = .eq
      · have equal : key = present := Std.LawfulEqCmp.compare_eq_iff_eq.mp same
        have absent : lookup key rest ≠ some value := by
          rw [ne_eq, ih later]
          intro member
          have before : compare present key = .lt := first _ member
          have self : compare key key = .eq := Std.ReflCmp.compare_self
          rw [← equal, self] at before
          cases before
        simp [equal, equal ▸ absent, eq_comm]
      · have differs : key ≠ present := fun equal =>
          same (Std.LawfulEqCmp.compare_eq_iff_eq.mpr equal)
        simp [same, differs]

theorem find?_eq_some {map : SortedMap κ α} {key : κ} {value : α} :
    map.find? key = some value ↔ (key, value) ∈ map.entries := lookup_eq_some map.increasing

theorem mem_values {map : SortedMap κ α} {value : α} :
    value ∈ map.values ↔ ∃ key, map.find? key = some value := by
  rw [values, List.mem_map]
  constructor
  · intro given
    obtain ⟨⟨key, held⟩, member, rfl⟩ := given
    exact ⟨key, find?_eq_some.mpr member⟩
  · intro given
    obtain ⟨key, found⟩ := given
    exact ⟨(key, value), find?_eq_some.mp found, rfl⟩

theorem mem_keys {map : SortedMap κ α} {key : κ} :
    key ∈ map.keys ↔ map.contains key = true := by
  rw [keys, List.mem_map, contains, Option.isSome_iff_exists]
  constructor
  · intro given
    obtain ⟨⟨present, value⟩, member, rfl⟩ := given
    exact ⟨value, find?_eq_some.mpr member⟩
  · intro given
    obtain ⟨value, found⟩ := given
    exact ⟨(key, value), find?_eq_some.mp found, rfl⟩

variable [Std.TransOrd κ]

/-- Two maps with the same answers are the same. -/
theorem ext_find? {left right : SortedMap κ α} (same : left.find? = right.find?) :
    left = right := by
  have perm : left.entries.Perm right.entries := by
    refine (List.perm_ext_iff_of_nodup left.entries_nodup right.entries_nodup).mpr (fun entry => ?_)
    obtain ⟨key, value⟩ := entry
    rw [← find?_eq_some, ← find?_eq_some, same]
  have entries : left.entries = right.entries := by
    refine List.Perm.eq_of_pairwise ?_ left.increasing right.increasing perm
    intro _first _second _member _other before after
    exact absurd before (Std.OrientedCmp.not_lt_of_lt after)
  cases left
  exact (mk.injEq ..).mpr entries

theorem find?_insert_self (map : SortedMap κ α) (key : κ) (value : α) :
    (map.insert key value).find? key = some value := by
  rw [find?_insert, if_pos Std.ReflCmp.compare_self]

theorem find?_insert_of_ne (map : SortedMap κ α) {key wanted : κ} (differs : wanted ≠ key)
    (value : α) : (map.insert key value).find? wanted = map.find? wanted := by
  rw [find?_insert, if_neg (fun same => differs (Std.LawfulEqCmp.compare_eq_iff_eq.mp same))]

theorem find?_erase_self (map : SortedMap κ α) (key : κ) : (map.erase key).find? key = none := by
  rw [find?_erase, if_pos Std.ReflCmp.compare_self]

theorem find?_erase_of_ne (map : SortedMap κ α) {key wanted : κ} (differs : wanted ≠ key) :
    (map.erase key).find? wanted = map.find? wanted := by
  rw [find?_erase, if_neg (fun same => differs (Std.LawfulEqCmp.compare_eq_iff_eq.mp same).symm)]

theorem contains_insert (map : SortedMap κ α) (key wanted : κ) (value : α) :
    (map.insert key value).contains wanted = true ↔
      wanted = key ∨ map.contains wanted = true := by
  rw [contains, contains]
  by_cases same : wanted = key
  · rw [same, find?_insert_self]
    exact ⟨fun _ => Or.inl rfl, fun _ => rfl⟩
  · rw [find?_insert_of_ne _ same]
    exact ⟨Or.inr, fun either => either.resolve_left same⟩

theorem contains_ofElements (list : List κ) (key : κ) :
    SortedMap.contains (SortedSet.ofElements list) key = true ↔ key ∈ list := by
  have grown (set : SortedSet κ) :
      SortedMap.contains (list.foldl SortedSet.add set) key = true ↔
        key ∈ list ∨ SortedMap.contains set key = true := by
    induction list generalizing set with
    | nil => simp
    | cons head rest ih =>
        rw [List.foldl_cons, ih, SortedSet.add, contains_insert, List.mem_cons]
        constructor
        · intro either
          rcases either with later | same | before
          · exact Or.inl (Or.inr later)
          · exact Or.inl (Or.inl same)
          · exact Or.inr before
        · intro either
          rcases either with (same | later) | before
          · exact Or.inr (Or.inl same)
          · exact Or.inl later
          · exact Or.inr (Or.inr before)
  rw [SortedSet.ofElements, grown]
  exact or_iff_left Bool.false_ne_true

/-- The elements of an increasing list, sorted, are that list. -/
theorem mergeSort_of_increasing {list increasing : List κ}
    (sorted : increasing.Pairwise (fun left right => compare left right = .lt))
    (same : list.Perm increasing) :
    list.mergeSort (fun left right => compare left right != .gt) = increasing := by
  refine List.Perm.eq_of_pairwise ?_ (sorted_mergeSort list) ?_
    ((List.mergeSort_perm list _).trans same)
  · intro left right _member _other atMost atLeast
    exact Std.LawfulEqCmp.compare_eq_iff_eq.mp (Std.OrientedCmp.isLE_antisymm atMost atLeast)
  · exact sorted.imp Ordering.isLE_of_eq_lt

/-! ### Other values under the same keys -/

section

variable {α β κ : Type} [Ord κ]

def mapValues (change : α → β) (map : SortedMap κ α) : SortedMap κ β :=
  ⟨map.entries.map (fun entry => (entry.1, change entry.2)), List.pairwise_map.mpr map.increasing⟩

theorem values_mapValues (change : α → β) (map : SortedMap κ α) :
    (map.mapValues change).values = map.values.map change := by
  rw [values, values, mapValues, List.map_map, List.map_map]
  rfl

theorem find?_mapValues (change : α → β) (map : SortedMap κ α) (key : κ) :
    (map.mapValues change).find? key = (map.find? key).map change := by
  change lookup key (map.entries.map fun entry => (entry.1, change entry.2)) = _
  rw [find?]
  induction map.entries with
  | nil => rfl
  | cons head rest ih =>
      rw [List.map_cons, lookup, lookup, ih]
      split <;> rfl

theorem contains_mapValues (change : α → β) (map : SortedMap κ α) (key : κ) :
    (map.mapValues change).contains key = map.contains key := by
  rw [contains, contains, find?_mapValues, Option.isSome_map]

/-- The keys of a map are told by what it contains. -/
theorem keys_congr [Std.LawfulEqOrd κ] [Std.TransOrd κ] {left : SortedMap κ α}
    {right : SortedMap κ β} (same : left.contains = right.contains) : left.keys = right.keys := by
  have keys {γ : Type} (map : SortedMap κ γ) : (map.mapValues (fun _value => ())).keys = map.keys := by
    rw [SortedMap.keys, SortedMap.keys, mapValues, List.map_map]
    rfl
  rw [← keys left, ← keys right]
  refine congrArg SortedMap.keys (ext_find? (funext fun key => ?_))
  have held := congrFun same key
  rw [contains, contains] at held
  rw [find?_mapValues, find?_mapValues]
  cases there : left.find? key <;> cases here : right.find? key <;> simp_all

theorem mapValues_insert [Std.TransOrd κ] (change : α → β) (map : SortedMap κ α) (key : κ)
    (value : α) : (map.insert key value).mapValues change =
      (map.mapValues change).insert key (change value) := by
  have placed (list : List (κ × α)) :
      (place key value list).map (fun entry => (entry.1, change entry.2)) =
        place key (change value) (list.map (fun entry => (entry.1, change entry.2))) := by
    induction list with
    | nil => rfl
    | cons head rest ih =>
        rw [List.map_cons, place, place]
        split
        · rfl
        · rfl
        · rw [List.map_cons, ih]
  rw [mapValues, insert, mk.injEq]
  exact placed map.entries

end

end BundleStore.SortedMap
