import BundleStore.Proofs.Index.Interners
import Mathlib.Data.List.Nodup
import Mathlib.Data.List.Perm.Basic

set_option autoImplicit false

/-! An interner rebuilt from numbered strings. It is sorted by number and then taken string by string,
and it is accepted exactly if no string comes twice and the numbers are those of their places, in
whatever order the pairs were given. What is accepted has these pairs as its entries and no others.
If the strings are distinct, the refusal names the first place in the sorted order that is not taken
by its own number. -/

namespace BundleStore.Interner

variable {interner front : Interner} {pairs list : List (String × Nat)} {text : String} {number : Nat}

theorem mem_entries : (text, number) ∈ interner.entries ↔ interner.string? number = some text :=
  List.mem_zipIdx_iff_getElem?

theorem entries_keys : interner.entries.map Prod.fst = interner.byIndex := by
  rw [entries, List.zipIdx_map_fst]

theorem entries_numbers :
    interner.entries.map Prod.snd = List.range interner.entries.length := by
  rw [entries, List.zipIdx_map_snd, List.length_zipIdx, List.range_eq_range']

/-! ### String by string -/

/-- Strings are accepted if they come with the numbers that they would be given. -/
theorem extend_eq_ok (agrees : front.Agrees) : extend front list = .ok interner ↔
    interner.Agrees ∧ interner.byIndex = front.byIndex ++ list.map Prod.fst ∧
      list.map Prod.snd = List.range' front.size list.length := by
  induction list generalizing front with
  | nil =>
      simp only [extend, Except.ok.injEq, List.map_nil, List.append_nil, List.length_nil,
        List.range'_zero, and_true]
      constructor
      · rintro rfl
        exact ⟨agrees, rfl⟩
      · rintro ⟨also, same⟩
        exact agrees.eq_of_byIndex also same.symm
  | cons pair rest ih =>
      obtain ⟨text, number⟩ := pair
      have numbers : ((text, number) :: rest).map Prod.snd =
          List.range' front.size ((text, number) :: rest).length ↔
            number = front.size ∧ rest.map Prod.snd = List.range' (front.size + 1) rest.length := by
        rw [List.map_cons, List.length_cons, List.range'_succ, List.cons.injEq]
      rw [numbers, extend]
      by_cases placed : number = front.size
      · rw [if_neg (not_not_intro placed)]
        by_cases known : (front.number? text).isSome
        · have refused : front.byString.contains text = true := known
          rw [if_pos refused]
          refine iff_of_false (fun impossible => by cases impossible) (fun given => ?_)
          have distinct := given.1.distinct
          rw [given.2.1, List.map_cons, List.nodup_append] at distinct
          exact distinct.2.2 text (agrees.isSome_number?.mp known) text List.mem_cons_self rfl
        · have taken : ¬ front.byString.contains text = true := known
          rw [if_neg taken, ih (agrees.push (Option.not_isSome_iff_eq_none.mp known)), size_push,
            byIndex_push, List.append_assoc]
          exact and_congr_right (fun _also =>
            and_congr_right (fun _same => (and_iff_right placed).symm))
      · rw [if_pos placed]
        exact iff_of_false (fun refused => by cases refused) (fun given => placed given.2.2.1)

/-- The numbers keep to their places up to this one, where another number stands. -/
structure Breaks (numbers : List Nat) (start place number : Nat) : Prop where
  here : numbers[place]? = some number
  other : number ≠ start + place
  before : ∀ earlier, earlier < place → numbers[earlier]? = some (start + earlier)

/-- Strings that are distinct are refused at the first number out of its place. -/
theorem extend_breaks (agrees : front.Agrees) (distinct : (front.byIndex ++ list.map Prod.fst).Nodup)
    (uneven : list.map Prod.snd ≠ List.range' front.size list.length) :
    ∃ place number, Breaks (list.map Prod.snd) front.size place number ∧
      extend front list = .error (.outOfSequence number (front.size + place)) := by
  induction list generalizing front with
  | nil => exact absurd rfl uneven
  | cons pair rest ih =>
      obtain ⟨text, number⟩ := pair
      rw [List.map_cons] at distinct
      by_cases placed : number = front.size
      · subst placed
        have unknown : ¬ (front.number? text).isSome := by
          rw [agrees.isSome_number?]
          exact fun known =>
            (List.nodup_append.mp distinct).2.2 text known text List.mem_cons_self rfl
        have taken : ¬ front.byString.contains text = true := unknown
        have later : rest.map Prod.snd ≠
            List.range' (front.push text).2.size rest.length := by
          intro even
          apply uneven
          rw [List.map_cons, List.length_cons, List.range'_succ, even, size_push]
        have apart : ((front.push text).2.byIndex ++ rest.map Prod.fst).Nodup := by
          rw [byIndex_push, ← List.append_cons]
          exact distinct
        obtain ⟨place, number, breaks, refused⟩ :=
          ih (agrees.push (Option.not_isSome_iff_eq_none.mp unknown)) apart later
        have shifted : front.size + 1 + place = front.size + (place + 1) := by omega
        rw [size_push, shifted] at refused
        refine ⟨place + 1, number, ⟨breaks.here, ?_, fun earlier before => ?_⟩, ?_⟩
        · have other := breaks.other
          rw [size_push] at other
          omega
        · cases earlier with
          | zero => rfl
          | succ earlier =>
              have there := breaks.before earlier (by omega)
              rw [size_push] at there
              rw [List.map_cons, List.getElem?_cons_succ, there]
              congr 1
              omega
        · rw [extend, if_neg (not_not_intro rfl), if_neg taken]
          exact refused
      · refine ⟨0, number, ⟨rfl, placed, fun earlier before => absurd before (Nat.not_lt_zero _)⟩, ?_⟩
        rw [extend, if_pos placed]
        rfl

/-! ### In the order of the numbers -/

/-- The numbers of the pairs are those of the places of the list, each in one pair. -/
def Dense (pairs : List (String × Nat)) : Prop :=
  (pairs.map Prod.snd).Perm (List.range pairs.length)

instance (pairs : List (String × Nat)) : Decidable (Dense pairs) :=
  inferInstanceAs (Decidable (List.Perm _ _))

/-- The pairs by number. -/
def sorted (pairs : List (String × Nat)) : List (String × Nat) :=
  pairs.mergeSort (fun left right => left.2 ≤ right.2)

theorem sorted_perm (pairs : List (String × Nat)) : (sorted pairs).Perm pairs :=
  List.mergeSort_perm ..

theorem sorted_numbers (pairs : List (String × Nat)) :
    (sorted pairs).map Prod.snd = (pairs.map Prod.snd).mergeSort :=
  List.map_mergeSort (fun _left _leftMember _right _rightMember => rfl)

theorem dense_iff : Dense pairs ↔ (pairs.map Prod.snd).mergeSort = List.range pairs.length := by
  have same : (pairs.map Prod.snd).mergeSort.Perm (pairs.map Prod.snd) := List.mergeSort_perm ..
  have rising : (pairs.map Prod.snd).mergeSort.Pairwise (· ≤ ·) := by
    have ordered := @List.pairwise_mergeSort Nat (fun left right => decide (left ≤ right))
      (by simp only [decide_eq_true_eq]; omega)
      (by simp only [Bool.or_eq_true, decide_eq_true_eq]; omega) (pairs.map Prod.snd)
    exact ordered.imp of_decide_eq_true
  constructor
  · intro dense
    exact (same.trans dense).eq_of_pairwise (fun _left _right _ _ => Nat.le_antisymm) rising
      (List.pairwise_lt_range.imp Nat.le_of_lt)
  · intro even
    rw [Dense, ← even]
    exact same.symm

/-- Pairs with the numbers of their places are determined by their strings. -/
theorem eq_of_columns {left right : List (String × Nat)}
    (strings : left.map Prod.fst = right.map Prod.fst)
    (numbers : left.map Prod.snd = right.map Prod.snd) : left = right :=
  (List.zip_of_prod strings numbers).trans (List.zip_of_prod rfl rfl).symm

theorem rising_of_even {count : Nat} (even : list.map Prod.snd = List.range count) :
    list.Pairwise (fun left right => left.2 < right.2) := by
  apply List.pairwise_map.mp
  rw [even]
  exact List.pairwise_lt_range

theorem dense_of_perm (same : interner.entries.Perm pairs) : Dense pairs := by
  rw [Dense, ← same.length_eq, ← entries_numbers]
  exact (same.map Prod.snd).symm

/-- What is rebuilt has the pairs as its entries, in both tables. -/
theorem ofPairs_eq_ok :
    ofPairs pairs = .ok interner ↔ interner.Agrees ∧ interner.entries.Perm pairs := by
  have opened : ofPairs pairs = empty.extend (sorted pairs) := rfl
  have size : empty.size = 0 := rfl
  have length : (sorted pairs).length = pairs.length := (sorted_perm pairs).length_eq
  rw [opened, extend_eq_ok empty_agrees, size, ← List.range_eq_range', length]
  refine and_congr_right (fun _agrees => ⟨?_, fun same => ?_⟩)
  · rintro ⟨strings, even⟩
    have count : interner.entries.length = pairs.length := by
      rw [← length, ← List.length_map Prod.fst, entries_keys, strings]
      exact List.length_map _
    have listed : interner.entries = sorted pairs := by
      refine eq_of_columns (entries_keys.trans strings) ?_
      rw [entries_numbers, count, even]
    rw [listed]
    exact sorted_perm pairs
  · have even : (sorted pairs).map Prod.snd = List.range pairs.length :=
      (sorted_numbers pairs).trans (dense_iff.mp (dense_of_perm same))
    have listed : interner.entries = sorted pairs :=
      (same.trans (sorted_perm pairs).symm).eq_of_pairwise
        (fun _left _right _ _ less more => absurd less (Nat.lt_asymm more))
        (rising_of_even entries_numbers) (rising_of_even even)
    refine ⟨?_, even⟩
    rw [← entries_keys, listed]
    rfl

theorem dense_of_rebuilt (rebuilt : ofPairs pairs = .ok interner) :
    (pairs.map Prod.fst).Nodup ∧ Dense pairs := by
  obtain ⟨agrees, same⟩ := ofPairs_eq_ok.mp rebuilt
  refine ⟨?_, dense_of_perm same⟩
  rw [← (same.map Prod.fst).nodup_iff, entries_keys]
  exact agrees.distinct

theorem rebuilt_of_dense (distinct : (pairs.map Prod.fst).Nodup) (dense : Dense pairs) :
    ∃ interner, ofPairs pairs = .ok interner := by
  have apart : ((sorted pairs).map Prod.fst).Nodup :=
    ((sorted_perm pairs).map Prod.fst).nodup_iff.mpr distinct
  obtain ⟨interner, agrees, strings⟩ := exists_agrees apart
  refine ⟨interner, ofPairs_eq_ok.mpr ⟨agrees, ?_⟩⟩
  have listed : interner.entries = sorted pairs := by
    refine eq_of_columns (entries_keys.trans strings) ?_
    rw [entries_numbers, sorted_numbers, dense_iff.mp dense, entries, List.length_zipIdx, strings,
      List.length_map, (sorted_perm pairs).length_eq]
  rw [listed]
  exact sorted_perm pairs

theorem refused_of_uneven (distinct : (pairs.map Prod.fst).Nodup) (uneven : ¬ Dense pairs) :
    ∃ place number, Breaks (pairs.map Prod.snd).mergeSort 0 place number ∧
      ofPairs pairs = .error (.outOfSequence number place) := by
  have apart : (empty.byIndex ++ (sorted pairs).map Prod.fst).Nodup :=
    ((sorted_perm pairs).map Prod.fst).nodup_iff.mpr distinct
  obtain ⟨place, number, breaks, refused⟩ := extend_breaks empty_agrees apart
    (fun even => uneven (by
      rw [dense_iff, ← sorted_numbers, even, (sorted_perm pairs).length_eq, List.range_eq_range']
      rfl))
  rw [sorted_numbers] at breaks
  have start : empty.size + place = place := Nat.zero_add place
  rw [start] at refused
  exact ⟨place, number, breaks, refused⟩

/-- Pairs in any order are accepted if and only if no string comes twice and the numbers are those of
the places. What is rebuilt gives exactly these pairs in both directions, each from its own table, and
the entries of an interner that has come about by pushing, taking back and rebuilding, in any order,
give it back with both tables. Where only the numbers are wrong, the refusal names the first place in
sorted order that another number has taken. -/
theorem ofPairs_exact (pairs : List (String × Nat)) :
    ((∃ interner, ofPairs pairs = .ok interner) ↔
        (pairs.map Prod.fst).Nodup ∧ Dense pairs) ∧
      (∀ interner, ofPairs pairs = .ok interner → interner.entries.Perm pairs ∧
        ∀ text number,
          (interner.number? text = some number ↔ (text, number) ∈ pairs) ∧
          (interner.string? number = some text ↔ (text, number) ∈ pairs)) ∧
      (∀ interner : Interner, interner.Reached → interner.entries.Perm pairs →
        ofPairs pairs = .ok interner) ∧
      ((pairs.map Prod.fst).Nodup → ¬ Dense pairs →
        ∃ place number, Breaks (pairs.map Prod.snd).mergeSort 0 place number ∧
          ofPairs pairs = .error (.outOfSequence number place)) := by
  refine ⟨⟨?_, ?_⟩, fun interner rebuilt => ?_,
    fun interner reached same => ofPairs_eq_ok.mpr ⟨reached.agrees, same⟩, refused_of_uneven⟩
  · rintro ⟨interner, rebuilt⟩
    exact dense_of_rebuilt rebuilt
  · rintro ⟨distinct, dense⟩
    exact rebuilt_of_dense distinct dense
  · obtain ⟨agrees, same⟩ := ofPairs_eq_ok.mp rebuilt
    refine ⟨same, fun text number => ?_⟩
    rw [← same.mem_iff, mem_entries]
    exact ⟨agrees text number, Iff.rfl⟩

/-- Two titles are taken in either order, whatever was pushed and taken back between them; a gap is
refused where it is. -/
theorem titles_rebuilt :
    (∃ interner, ofPairs [("body", 1), ("title", 0)] = .ok interner) ∧
      ofPairs [("body", 1), ("title", 0)] =
        .ok (((empty.push "title").2.push "note").2.pop.push "body").2 ∧
      ofPairs [("body", 2), ("title", 0)] = .error (.outOfSequence 2 1) := by
  refine ⟨?_, ?_, ?_⟩
  · exact (ofPairs_exact _).1.mpr ⟨by decide, by decide⟩
  · have title : Reached (empty.push "title").2 := .push .empty rfl
    have taken : Reached ((empty.push "title").2.push "note").2.pop := .pop (.push title (by decide))
    exact (ofPairs_exact _).2.2.1 _ (.push taken (by decide)) (by decide)
  · obtain ⟨place, number, breaks, refused⟩ :=
      (ofPairs_exact [("body", 2), ("title", 0)]).2.2.2 (by decide) (by decide)
    have sorted : ([("body", 2), ("title", 0)].map Prod.snd).mergeSort = [0, 2] := by
      simp [List.mergeSort]
    have here := breaks.here
    have other := breaks.other
    rw [sorted] at here
    match place with
    | 0 =>
        cases here
        exact absurd rfl other
    | 1 =>
        cases here
        exact refused
    | _later + 2 => cases here

end BundleStore.Interner
