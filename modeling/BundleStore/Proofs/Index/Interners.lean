import BundleStore.Index.Interner
import BundleStore.Proofs.SortedMap
import Mathlib.Data.List.Induction
import Mathlib.Data.List.Nodup

set_option autoImplicit false

/-! The two tables of an interner agree: a string has a number if and only if the number has the
string. Numbering a new string keeps them in step, and so does taking the last one back, which leaves
exactly what was there before. -/

namespace BundleStore

theorem SortedMap.erase_insert {κ α : Type} [Ord κ] [Std.TransOrd κ] [Std.LawfulEqOrd κ]
    {map : SortedMap κ α} {key : κ} (absent : map.find? key = none) (value : α) :
    (map.insert key value).erase key = map := by
  refine ext_find? (funext fun wanted => ?_)
  by_cases same : wanted = key
  · rw [same, find?_erase_self, absent]
  · rw [find?_erase_of_ne _ same, find?_insert_of_ne _ same]

namespace Interner

variable {interner after : Interner} {text other : String} {number : Nat}

/-- The two tables say the same. -/
def Agrees (interner : Interner) : Prop :=
  ∀ text number, interner.number? text = some number ↔ interner.string? number = some text

@[simp]
theorem byIndex_push : (interner.push text).2.byIndex = interner.byIndex ++ [text] := rfl

@[simp]
theorem size_push : (interner.push text).2.size = interner.size + 1 := List.length_append

theorem number?_push : (interner.push text).2.number? text = some interner.size :=
  SortedMap.find?_insert_self ..

theorem number?_push_of_ne (differs : other ≠ text) :
    (interner.push text).2.number? other = interner.number? other :=
  SortedMap.find?_insert_of_ne _ differs _

/-- Whether or not the tables agree, taking back a string that is new undoes both writes. -/
theorem pop_push (absent : interner.number? text = none) :
    (interner.push text).2.pop = interner := by
  rw [pop, byIndex_push, List.getLast?_concat, List.dropLast_concat]
  exact congrArg (fun byString => Interner.mk byString interner.byIndex)
    (SortedMap.erase_insert absent _)

/-! ### Numbers that stay -/

/-- Every string that has a number keeps it. -/
def Extends (after before : Interner) : Prop :=
  ∀ text number, before.number? text = some number → after.number? text = some number

theorem Extends.refl (interner : Interner) : interner.Extends interner :=
  fun _text _number known => known

theorem push_extends (absent : interner.number? text = none) :
    (interner.push text).2.Extends interner := by
  intro other number known
  rw [number?_push_of_ne (fun same => ?_), known]
  rw [same, absent] at known
  cases known

/-! ### Tables in step -/

theorem empty_agrees : Agrees empty := fun _text _number => by simp [number?, string?, empty]

theorem Agrees.push (agrees : interner.Agrees) (absent : interner.number? text = none) :
    (interner.push text).2.Agrees := by
  intro other number
  rw [string?, byIndex_push, List.getElem?_append, apply_ite (· = some other)]
  by_cases same : other = text
  · rw [same, number?_push, Option.some.injEq]
    constructor
    · rintro rfl
      rw [size, if_neg (Nat.lt_irrefl _), Nat.sub_self]
      rfl
    · intro there
      split at there
      · have known := (agrees text number).mpr there
        rw [absent] at known
        cases known
      · have inside := (List.getElem?_eq_some_iff.mp there).1
        rw [List.length_singleton] at inside
        unfold size
        omega
  · rw [number?_push_of_ne same, agrees, string?]
    split
    · rfl
    · rename_i beyond
      refine iff_of_false (fun there => beyond (List.getElem?_eq_some_iff.mp there).1) (fun there => ?_)
      obtain ⟨inside, last⟩ := List.getElem?_eq_some_iff.mp there
      exact same (List.mem_singleton.mp (last ▸ List.getElem_mem inside))

theorem Agrees.pop (agrees : interner.Agrees) : interner.pop.Agrees := by
  rcases interner.byIndex.eq_nil_or_concat with none | ⟨front, last, shape⟩
  · rwa [Interner.pop, none]
  · rw [List.concat_eq_append] at shape
    have popped : interner.pop = ⟨interner.byString.erase last, front⟩ := by
      rw [Interner.pop, shape, List.getLast?_concat, List.dropLast_concat]
    have numbered : interner.number? last = some front.length := by
      rw [agrees, string?, shape]
      exact List.getElem?_concat_length
    intro text number
    rw [popped]
    have still : front[number]? = some text ↔
        number < front.length ∧ interner.string? number = some text := by
      rw [string?, shape, List.getElem?_append]
      split
      · rename_i inside
        exact (and_iff_right inside).symm
      · rename_i beyond
        exact iff_of_false (fun there => beyond (List.getElem?_eq_some_iff.mp there).1)
          (fun both => beyond both.1)
    change (interner.byString.erase last).find? text = _ ↔ front[number]? = _
    rw [still, ← agrees]
    by_cases same : text = last
    · rw [same, SortedMap.find?_erase_self, numbered]
      exact iff_of_false (fun impossible => by cases impossible)
        (fun both => Nat.lt_irrefl number (Option.some.inj both.2 ▸ both.1))
    · rw [SortedMap.find?_erase_of_ne _ same]
      refine ⟨fun known => ⟨?_, known⟩, fun both => both.2⟩
      have inside := (List.getElem?_eq_some_iff.mp ((agrees text number).mp known)).1
      rw [shape, List.length_append, List.length_singleton] at inside
      rcases Nat.lt_succ_iff_lt_or_eq.mp inside with before | final
      · exact before
      · subst final
        exact absurd (Option.some.inj (((agrees text _).mp known).symm.trans
          ((agrees last _).mp numbered))) same

theorem Agrees.intern (agrees : interner.Agrees) (text : String) :
    (interner.intern text).2.Agrees := by
  rw [Interner.intern]
  split
  · exact agrees
  · rename_i absent
    exact agrees.push absent

theorem Agrees.extend (agrees : interner.Agrees) {list : List (String × Nat)}
    (taken : interner.extend list = .ok after) : after.Agrees := by
  induction list generalizing interner with
  | nil =>
      cases taken
      exact agrees
  | cons pair rest ih =>
      obtain ⟨text, number⟩ := pair
      rw [Interner.extend] at taken
      split at taken
      · cases taken
      · split at taken
        · cases taken
        · rename_i unknown
          exact ih (agrees.push (Option.not_isSome_iff_eq_none.mp unknown)) taken

theorem ofPairs_agrees {pairs : List (String × Nat)} (rebuilt : ofPairs pairs = .ok interner) :
    interner.Agrees := empty_agrees.extend rebuilt

theorem namespaces_agrees : namespaces.Agrees := by
  have interned (entries : List (String × String)) {interner : Interner} (agrees : interner.Agrees) :
      (entries.foldl (fun interner entry => (interner.intern entry.2).2) interner).Agrees := by
    induction entries generalizing interner with
    | nil => exact agrees
    | cons entry rest ih => exact ih (agrees.intern entry.2)
  exact interned _ empty_agrees

/-- The interners that there can be: strings are only pushed while they have no number. -/
inductive Reached : Interner → Prop where
  | empty : Reached empty
  | push {interner : Interner} {text : String} (reached : Reached interner)
      (absent : interner.number? text = none) : Reached (interner.push text).2
  | pop {interner : Interner} (reached : Reached interner) : Reached interner.pop
  | rebuilt {pairs : List (String × Nat)} {interner : Interner}
      (taken : ofPairs pairs = .ok interner) : Reached interner

theorem Reached.agrees (reached : Reached interner) : interner.Agrees := by
  induction reached with
  | empty => exact empty_agrees
  | push _reached absent agrees => exact agrees.push absent
  | pop _reached agrees => exact agrees.pop
  | rebuilt taken => exact ofPairs_agrees taken

/-! ### What agreeing tables tell -/

theorem Agrees.injective (agrees : interner.Agrees) (left : interner.number? text = some number)
    (right : interner.number? other = some number) : text = other := by
  rw [agrees] at left right
  exact Option.some.inj (left.symm.trans right)

/-- No string has two places. -/
theorem Agrees.distinct (agrees : interner.Agrees) : interner.byIndex.Nodup := by
  rw [List.nodup_iff_injective_getElem]
  intro left right same
  have first := (agrees _ left).mpr (List.getElem?_eq_getElem left.isLt)
  have second := (agrees _ right).mpr (List.getElem?_eq_getElem right.isLt)
  rw [show interner.byIndex[left.val] = interner.byIndex[right.val] from same] at first
  exact Fin.ext (Option.some.inj (first.symm.trans second))

theorem Agrees.isSome_number? (agrees : interner.Agrees) :
    (interner.number? text).isSome ↔ text ∈ interner.byIndex := by
  rw [Option.isSome_iff_exists, List.mem_iff_getElem?]
  exact exists_congr (agrees text)

/-- Either table determines the other one. -/
theorem Agrees.eq_of_byIndex (agrees : interner.Agrees) (also : after.Agrees)
    (same : interner.byIndex = after.byIndex) : interner = after := by
  have numbers : interner.byString = after.byString := by
    refine SortedMap.ext_find? (funext fun text => Option.ext fun number => ?_)
    refine (agrees text number).trans (Iff.trans ?_ (also text number).symm)
    rw [string?, string?, same]
  cases interner
  cases after
  exact (mk.injEq ..).mpr ⟨numbers, same⟩

theorem exists_agrees {list : List String} (distinct : list.Nodup) :
    ∃ interner : Interner, interner.Agrees ∧ interner.byIndex = list := by
  induction list using List.reverseRecOn with
  | nil => exact ⟨empty, empty_agrees, rfl⟩
  | append_singleton front last ih =>
      obtain ⟨apart, _single, fresh⟩ := List.nodup_append.mp distinct
      obtain ⟨interner, agrees, rfl⟩ := ih apart
      have absent : interner.number? last = none := by
        rw [← Option.not_isSome_iff_eq_none, agrees.isSome_number?]
        exact fun known => fresh last known last (List.mem_singleton_self _) rfl
      exact ⟨(interner.push last).2, agrees.push absent, rfl⟩

end Interner

end BundleStore
