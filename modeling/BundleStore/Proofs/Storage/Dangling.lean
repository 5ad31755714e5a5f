import BundleStore.Storage.Consistency

set_option autoImplicit false

/-! What has come of a bundle whose entries have been gone through. Entries are dropped from the copy
one node at a time, so that a node named by several entries takes them all with it at the first; what
is left are the entries that lead somewhere, and the copy is taken to differ if and only if there was
one that leads nowhere. -/

namespace BundleStore.Pass

variable {stored : NodeId → Bool} {recursive : Bool} {id : NodeId}

/-- The nodes that the entries bring onto the stack. -/
def further (stored : NodeId → Bool) (recursive : Bool) (children : List Child) : List NodeId :=
  if recursive then ((children.filter (fun child => stored child.id)).map (·.id)).reverse else []

/-- What is said of the entries. -/
def lines (stored : NodeId → Bool) (id : NodeId) (children : List Child) : List Problem :=
  (children.filter (fun child => !stored child.id)).map (fun child => .child id child.name child.id)

theorem further_cons (first : Child) (rest : List Child) :
    further stored recursive (first :: rest) = further stored recursive rest ++
      if stored first.id && recursive then [first.id] else [] := by
  cases there : stored first.id <;> cases recursive <;> simp [further, there]

theorem lines_cons (first : Child) (rest : List Child) :
    lines stored id (first :: rest) =
      (if stored first.id then [] else [.child id first.name first.id]) ++ lines stored id rest := by
  cases there : stored first.id <;> simp [lines, there]

/-- What is left once the entries that lead nowhere among those gone through have been dropped, each
with all others for its node. -/
def staying (stored : NodeId → Bool) (gone children : List Child) : List Child :=
  children.filter (fun child => gone.all (fun lost => stored lost.id || child.id != lost.id))

theorem staying_nil (children : List Child) : staying stored [] children = children := by
  simp [staying]

theorem staying_cons (first : Child) (rest children : List Child) :
    staying stored (first :: rest) children = staying stored rest
      (if stored first.id then children else children.filter (fun child => child.id ≠ first.id)) := by
  cases there : stored first.id with
  | true => simp [staying, there]
  | false =>
      rw [if_neg Bool.false_ne_true, staying, staying, List.filter_filter]
      refine List.filter_congr (fun child _member => ?_)
      rw [List.all_cons, there, Bool.false_or, Bool.and_comm, Bool.eq_iff_iff]
      simp only [Bool.and_eq_true, bne_iff_ne, decide_eq_true_eq]

theorem length_staying_le (stored : NodeId → Bool) (gone children : List Child) :
    (staying stored gone children).length ≤ children.length := List.length_filter_le ..

/-- All entries of a bundle gone through leave those that lead somewhere. -/
theorem staying_self (children : List Child) :
    staying stored children children = children.filter (fun child => stored child.id) := by
  refine List.filter_congr (fun child member => ?_)
  rw [Bool.eq_iff_iff, List.all_eq_true]
  constructor
  · intro stays
    simpa using stays child member
  · intro there lost _among
    by_cases same : child.id = lost.id
    · simp [← same, there]
    · simp [same]

/-- A check that mends nothing leaves the copy alone. -/
theorem foldl_plain (children : List Child) (pass : Pass) :
    children.foldl (entry stored recursive false id) pass =
      { pass with
        pending := further stored recursive children ++ pass.pending
        problems := pass.problems ++ lines stored id children } := by
  induction children generalizing pass with
  | nil => simp [further, lines]
  | cons first rest ih =>
      rw [List.foldl_cons, ih, further_cons, lines_cons, entry]
      cases stored first.id <;> cases recursive <;> simp

/-- The copy has lost what it was to lose so far, and differs if its entries have become fewer. -/
theorem foldl_mend (children : List Child) (pass : Pass) :
    children.foldl (entry stored recursive true id) pass =
      { repaired := { pass.repaired with
          children := staying stored children pass.repaired.children }
        dirty := pass.dirty ||
          (staying stored children pass.repaired.children).length != pass.repaired.children.length
        pending := further stored recursive children ++ pass.pending
        problems := pass.problems ++ lines stored id children } := by
  induction children generalizing pass with
  | nil => simp [further, lines, staying_nil]
  | cons first rest ih =>
      rw [List.foldl_cons, ih, further_cons, lines_cons, staying_cons, entry]
      cases there : stored first.id with
      | true => cases recursive <;> simp
      | false =>
          have fewer := length_staying_le stored rest
            (pass.repaired.children.filter (fun child => child.id ≠ first.id))
          have less := List.length_filter_le (fun child => decide (child.id ≠ first.id))
            pass.repaired.children
          have differs (dirty : Bool) {last middle whole : Nat} (down : last ≤ middle)
              (below : middle ≤ whole) :
              ((dirty || middle != whole) || last != middle) = (dirty || last != whole) := by
            rw [Bool.or_assoc]
            congr 1
            rw [Bool.eq_iff_iff]
            simp only [Bool.or_eq_true, bne_iff_ne]
            omega
          simp only [if_neg Bool.false_ne_true, if_true, Bundle.dropChildren,
            differs pass.dirty fewer less, Bool.false_and, List.append_nil, List.append_assoc]

/-- A mending check leaves of a bundle the entries that lead somewhere, and takes it to differ if
there are fewer of these. -/
theorem entries_eq (mend : Bool) (bundle : Bundle) (pending : List NodeId) (problems : List Problem) :
    entries stored recursive mend id bundle pending problems =
      let kept := bundle.children.filter (fun child => stored child.id)
      { repaired := if mend then { bundle with children := kept } else bundle
        dirty := mend && kept.length != bundle.children.length
        pending := further stored recursive bundle.children ++ pending
        problems := problems ++ lines stored id bundle.children } := by
  cases mend with
  | false => exact foldl_plain ..
  | true =>
      rw [entries, foldl_mend, staying_self]
      rfl

end BundleStore.Pass
