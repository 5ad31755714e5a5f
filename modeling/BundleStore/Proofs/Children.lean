import BundleStore.Item
import Mathlib.Algebra.Group.Nat.Defs
import Mathlib.Data.List.Induction

set_option autoImplicit false

/-! The numbers of same-name siblings. A node that gets or loses one child entry keeps its entries
numbered by rank, and so does any run of such edits while the ranks fit their word. What is numbered by
rank can be looked up by name and rank, and a removal takes nothing below one. -/

namespace BundleStore

/-! ### Ranks -/

namespace Child

/-- Each entry's index is its rank among the entries of its name, counted from one. -/
def Ranked (children : List Child) : Prop :=
  ∀ (place : Nat) (child : Child), children[place]? = some child →
    child.index.toNat = (children.take place).countP (·.name = child.name) + 1

/-- What an entry is about, whatever its rank. -/
def label (child : Child) : Name × NodeId := (child.name, child.id)

theorem ranked_nil : Ranked [] := by
  intro place child found
  cases found

theorem ranked_concat {children : List Child} {last : Child} :
    Ranked (children ++ [last]) ↔
      Ranked children ∧ last.index.toNat = children.countP (·.name = last.name) + 1 := by
  constructor
  · intro ranked
    constructor
    · intro place child found
      have inside := (List.getElem?_eq_some_iff.mp found).1
      have here := ranked place child (by rw [List.getElem?_append_left inside, found])
      rwa [List.take_append_of_le_length (Nat.le_of_lt inside)] at here
    · have here := ranked children.length last (by simp)
      rwa [List.take_left] at here
  · rintro ⟨ranked, counted⟩ place child found
    by_cases inside : place < children.length
    · rw [List.getElem?_append_left inside] at found
      rw [List.take_append_of_le_length (Nat.le_of_lt inside)]
      exact ranked place child found
    · rw [List.getElem?_append_right (Nat.le_of_not_lt inside), List.getElem?_singleton] at found
      split at found
      · rename_i first
        obtain rfl : place = children.length := by omega
        cases found
        rw [List.take_left]
        exact counted
      · cases found

variable {children : List Child}

theorem Ranked.index_le (ranked : Ranked children) {child : Child} (member : child ∈ children) :
    child.index.toNat ≤ children.countP (·.name = child.name) := by
  induction children using List.reverseRecOn with
  | nil => cases member
  | append_singleton children last ih =>
      obtain ⟨before, counted⟩ := ranked_concat.mp ranked
      rw [List.countP_append]
      rcases List.mem_append.mp member with early | late
      · exact Nat.le_trans (ih before early) (Nat.le_add_right _ _)
      · rw [List.mem_singleton.mp late, counted]
        simp

/-- Of two entries of one name the later one has the higher number. -/
theorem Ranked.increasing (ranked : Ranked children) : children.Pairwise (fun early late =>
    early.name = late.name → early.index.toNat < late.index.toNat) := by
  induction children using List.reverseRecOn with
  | nil => exact List.Pairwise.nil
  | append_singleton children last ih =>
      obtain ⟨before, counted⟩ := ranked_concat.mp ranked
      refine List.pairwise_append.mpr ⟨ih before, List.pairwise_singleton _ _, ?_⟩
      intro child member other only same
      obtain rfl := List.mem_singleton.mp only
      have most := before.index_le member
      rw [same] at most
      omega

theorem Ranked.index_pos (ranked : Ranked children) {child : Child} (member : child ∈ children) :
    0 < child.index.toNat := by
  obtain ⟨place, found⟩ := List.mem_iff_getElem?.mp member
  rw [ranked place child found]
  exact Nat.succ_pos _

theorem Ranked.nodup (ranked : Ranked children) :
    (children.map (fun child => (child.name, child.index))).Nodup := by
  rw [List.Nodup, List.pairwise_map]
  refine ranked.increasing.imp (fun {early late} before same => ?_)
  obtain ⟨name, index⟩ := Prod.mk.inj same
  have less := before name
  rw [index] at less
  exact absurd less (Nat.lt_irrefl _)

/-- The entry of a rank is the one that is numbered so. -/
theorem Ranked.find? (ranked : Ranked children) (name : Name) (index : UInt32) :
    children.find? (fun child => child.name = name ∧ child.index = index) =
      if index = 0 then none else (children.filter (·.name = name))[index.toNat - 1]? := by
  induction children using List.reverseRecOn with
  | nil => simp
  | append_singleton children last ih =>
      obtain ⟨before, counted⟩ := ranked_concat.mp ranked
      rw [List.find?_append, List.filter_append, ih before]
      by_cases same : last.name = name
      · have length : (children.filter (·.name = name)).length + 1 = last.index.toNat := by
          rw [counted, same, List.countP_eq_length_filter]
        have here : last.index = index ↔ last.index.toNat = index.toNat := UInt32.toNat_inj.symm
        have zero : index = 0 ↔ index.toNat = 0 := UInt32.toNat_inj.symm
        simp only [List.find?_singleton, List.filter_cons, List.filter_nil, same, here, zero,
          ← length, true_and, decide_true, if_true, decide_eq_true_eq]
        by_cases none : index.toNat = 0
        · rw [if_pos none, if_pos none, if_neg (by omega), Option.or_none]
        · rw [if_neg none, if_neg none]
          by_cases early : index.toNat - 1 < (children.filter (·.name = name)).length
          · rw [List.getElem?_append_left early, if_neg (by omega), Option.or_none]
          · have past := Nat.le_of_not_lt early
            rw [List.getElem?_append_right past, List.getElem?_eq_none past, Option.none_or,
              List.getElem?_singleton]
            exact if_congr (by omega) rfl rfl
      · simp [same]

end Child

namespace Node

open Child (Ranked ranked_nil ranked_concat)

theorem ranked_addChild {node : Node} (ranked : Ranked node.children) {name : Name}
    (room : node.children.countP (·.name = name) + 1 < 2 ^ 32) (id : NodeId) :
    Ranked (node.addChild name id).children := by
  refine ranked_concat.mpr ⟨ranked, ?_⟩
  rw [nextIndex, UInt32.toNat_add, UInt32.toNat_ofNat', UInt32.toNat_one]
  dsimp only
  omega

theorem removeChild_some {id : NodeId} {children kept : List Child} {removed : Child}
    (done : removeChild id children = some (removed, kept)) :
    ∃ early late, children = early ++ removed :: late ∧ removed.id = id ∧
      (∀ child ∈ early, child.id ≠ id) ∧ kept = early ++ late.map (lowerRank removed.name) := by
  induction children generalizing kept with
  | nil => cases done
  | cons child rest ih =>
      rw [removeChild] at done
      split at done
      · rename_i here
        cases done
        exact ⟨[], rest, rfl, here, by simp, rfl⟩
      · rename_i other
        obtain ⟨⟨found, others⟩, further, same⟩ := Option.map_eq_some_iff.mp done
        cases same
        obtain ⟨early, late, rfl, named, before, rfl⟩ := ih further
        exact ⟨child :: early, late, rfl, named, List.forall_mem_cons.mpr ⟨other, before⟩, rfl⟩

theorem removeChild_none {id : NodeId} {children : List Child}
    (absent : removeChild id children = none) : ∀ child ∈ children, child.id ≠ id := by
  induction children with
  | nil => simp
  | cons child rest ih =>
      rw [removeChild] at absent
      split at absent
      · cases absent
      · rename_i other
        exact List.forall_mem_cons.mpr ⟨other, ih (Option.map_eq_none_iff.mp absent)⟩

@[simp]
theorem lowerRank_name (name : Name) (child : Child) : (lowerRank name child).name = child.name := by
  rw [lowerRank]
  split <;> rfl

theorem label_lowerRank (name : Name) (child : Child) :
    (lowerRank name child).label = child.label := by
  rw [lowerRank]
  split <;> rfl

/-- The entries after one that goes move up. -/
theorem ranked_lower {early late : List Child} {removed : Child}
    (ranked : Ranked (early ++ removed :: late)) :
    Ranked (early ++ late.map (lowerRank removed.name)) := by
  induction late using List.reverseRecOn with
  | nil =>
      rw [List.map_nil, List.append_nil]
      exact (ranked_concat.mp ranked).1
  | append_singleton late last ih =>
      rw [← List.cons_append, ← List.append_assoc] at ranked
      obtain ⟨before, counted⟩ := ranked_concat.mp ranked
      rw [List.map_append, List.map_singleton, ← List.append_assoc]
      refine ranked_concat.mpr ⟨ih before, ?_⟩
      simp only [lowerRank_name, List.countP_append, List.countP_map, List.countP_cons,
        Function.comp_def] at counted ⊢
      rw [lowerRank]
      split
      · rename_i same
        have once : (1 : UInt32) ≤ last.index := by
          rw [UInt32.le_iff_toNat_le, counted]
          exact Nat.le_add_left 1 _
        rw [UInt32.toNat_sub_of_le _ _ once, counted]
        simp only [same, decide_true, if_true, UInt32.toNat_one]
        omega
      · rename_i differs
        have other : ¬ removed.name = last.name := fun same => differs same.symm
        rw [counted]
        simp only [other, decide_false, Bool.false_eq_true, if_false, Nat.add_zero]

theorem ranked_removeChild {id : NodeId} {children kept : List Child} {removed : Child}
    (ranked : Ranked children) (done : removeChild id children = some (removed, kept)) :
    Ranked kept := by
  obtain ⟨early, late, rfl, _named, _before, rfl⟩ := removeChild_some done
  exact ranked_lower ranked

/-! ### Edits -/

inductive ChildEdit where
  | add (name : Name) (id : NodeId)
  | remove (id : NodeId)

/-- To remove what is not there changes nothing. -/
def edit (node : Node) : ChildEdit → Node
  | .add name id => node.addChild name id
  | .remove id =>
      match removeChild id node.children with
      | some (_removed, kept) => { node with children := kept }
      | none => node

def editAll (node : Node) (edits : List ChildEdit) : Node := edits.foldl edit node

theorem editAll_concat (node : Node) (edits : List ChildEdit) (last : ChildEdit) :
    node.editAll (edits ++ [last]) = (node.editAll edits).edit last := by
  rw [editAll, List.foldl_append]
  rfl

theorem ranked_edit {node : Node} (ranked : Ranked node.children) (change : ChildEdit)
    (room : (node.edit change).children.length < 2 ^ 32) :
    Ranked (node.edit change).children := by
  cases change with
  | add name id =>
      refine ranked_addChild ranked ?_ id
      have most := List.countP_le_length (p := fun child : Child => child.name = name)
        (l := node.children)
      have longer : (node.edit (.add name id)).children.length = node.children.length + 1 :=
        List.length_append
      omega
  | remove id =>
      rw [edit]
      cases done : removeChild id node.children with
      | none => exact ranked
      | some both => exact ranked_removeChild ranked done

/-- No run of edits ever fills the numbers. -/
def HasRoom (node : Node) (edits : List ChildEdit) : Prop :=
  ∀ done, done <+: edits → (node.editAll done).children.length < 2 ^ 32

theorem ranked_editAll {start : Node} {edits : List ChildEdit} (bare : start.children = [])
    (room : start.HasRoom edits) : Ranked (start.editAll edits).children := by
  induction edits using List.reverseRecOn with
  | nil =>
      rw [editAll, List.foldl_nil, bare]
      exact ranked_nil
  | append_singleton edits last ih =>
      rw [editAll_concat]
      refine ranked_edit (ih fun done front => ?_) last ?_
      · exact room done (front.trans (List.prefix_append ..))
      · rw [← editAll_concat]
        exact room _ (List.prefix_refl _)

theorem length_edit_le (node : Node) (change : ChildEdit) :
    (node.edit change).children.length ≤ node.children.length + 1 := by
  cases change with
  | add name id => exact Nat.le_of_eq List.length_append
  | remove id =>
      rw [edit]
      cases done : removeChild id node.children with
      | none => exact Nat.le_succ _
      | some both =>
          obtain ⟨removed, kept⟩ := both
          obtain ⟨early, late, whole, _named, _before, rfl⟩ := removeChild_some done
          simp only [whole, List.length_append, List.length_map, List.length_cons]
          omega

theorem length_editAll_le (node : Node) (edits : List ChildEdit) :
    (node.editAll edits).children.length ≤ node.children.length + edits.length := by
  induction edits using List.reverseRecOn with
  | nil => exact Nat.le_refl _
  | append_singleton edits last ih =>
      rw [editAll_concat, List.length_append]
      exact Nat.le_trans (length_edit_le _ last) (Nat.succ_le_succ ih)

/-- A short run has room. -/
theorem hasRoom_of_short {start : Node} {edits : List ChildEdit} (bare : start.children = [])
    (short : edits.length < 2 ^ 32) : start.HasRoom edits := by
  intro done front
  have most := start.length_editAll_le done
  have fewer := front.length_le
  rw [bare, List.length_nil] at most
  omega

/-- The entries are numbered by rank, no two of a name alike, and found by their numbers. -/
structure Numbered (node : Node) : Prop where
  ranked : Ranked node.children
  distinct : (node.children.map (fun child => (child.name, child.index))).Nodup
  found : ∀ name index, node.child? name index =
    if index = 0 then none else (node.children.filter (·.name = name))[index.toNat - 1]?

theorem numbered_of_ranked {node : Node} (ranked : Ranked node.children) : node.Numbered :=
  ⟨ranked, ranked.nodup, ranked.find?⟩

/-- The first entry for the identifier goes. The others stay in their order and are ranked again,
and none that moves up was the first of its name. -/
inductive Removes (id : NodeId) : List Child → Option (Child × List Child) → Prop where
  | nothing {children : List Child} (absent : ∀ child ∈ children, child.id ≠ id) :
      Removes id children none
  | first {early late kept : List Child} {removed : Child} (named : removed.id = id)
      (before : ∀ child ∈ early, child.id ≠ id)
      (above : ∀ child ∈ late, child.name = removed.name → 1 < child.index.toNat)
      (others : kept.map Child.label = (early ++ late).map Child.label) (ranked : Ranked kept) :
      Removes id (early ++ removed :: late) (some (removed, kept))

theorem removes_of_ranked {children : List Child} (ranked : Ranked children) (id : NodeId) :
    Removes id children (removeChild id children) := by
  cases done : removeChild id children with
  | none => exact .nothing (removeChild_none done)
  | some both =>
      obtain ⟨removed, kept⟩ := both
      have still := ranked_removeChild ranked done
      obtain ⟨early, late, rfl, named, before, rfl⟩ := removeChild_some done
      refine .first named before (fun child member same => ?_) ?_ still
      · have increasing := (List.pairwise_append.mp ranked.increasing).2.1
        have less := List.rel_of_pairwise_cons increasing member same.symm
        have positive := ranked.index_pos (List.mem_append_right early List.mem_cons_self)
        omega
      · rw [List.map_append, List.map_append, List.map_map]
        congr 1
        exact List.map_congr_left (fun child _member => label_lowerRank removed.name child)

/-- However entries are added to a node that had none, and removed, they are numbered by rank, and
so are those that a further removal leaves. -/
theorem numbered_after_edits {start : Node} {edits : List ChildEdit} (bare : start.children = [])
    (room : start.HasRoom edits) :
    (start.editAll edits).Numbered ∧ ∀ id, Removes id (start.editAll edits).children
      (removeChild id (start.editAll edits).children) := by
  have ranked := ranked_editAll bare room
  exact ⟨numbered_of_ranked ranked, removes_of_ranked ranked⟩

/-! ### Plates of an atlas -/

namespace Atlas

def first : NodeId := ⟨List.replicate 15 0 ++ [4], rfl⟩

def second : NodeId := ⟨List.replicate 15 0 ++ [5], rfl⟩

def plate : Name := ⟨"", "plate"⟩

def cover : Name := ⟨"", "cover"⟩

def empty : Node := fresh NodeId.zero Name.unstructured none

/-- The first plate is put in twice and taken out once. -/
def edits : List ChildEdit :=
  [.add plate first, .add cover second, .add plate first, .add plate second, .remove first]

theorem plates_numbered :
    empty.children = [] ∧ empty.HasRoom edits ∧
      (empty.editAll edits).children = [⟨cover, second, 1⟩, ⟨plate, first, 1⟩, ⟨plate, second, 2⟩] ∧
      (empty.editAll edits).Numbered ∧ ∀ id, Removes id (empty.editAll edits).children
        (removeChild id (empty.editAll edits).children) := by
  have bare : empty.children = [] := rfl
  have room : empty.HasRoom edits := hasRoom_of_short bare (by decide)
  exact ⟨bare, room, by decide, numbered_after_edits bare room⟩

end Atlas

end Node

end BundleStore
