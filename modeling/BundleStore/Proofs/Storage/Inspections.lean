import BundleStore.Proofs.SortedMap
import BundleStore.Proofs.Storage.Dangling
import Mathlib.Data.List.Nodup

set_option autoImplicit false

/-! What a consistency check comes to, in a storage of any kind. It visits the nodes it was asked for
and, if it is to, all that are reached from these through entries for stored nodes, each node once.
It says of each what was so before the check began, and a mending check leaves of each record the
entries that lead somewhere. The checks differ in what they make of a bundle that cannot be read and
in whether they look for blobs; what is said here is shown of each from its own iterations. -/

namespace BundleStore

/-- What a check looks at and does in the storage whose states are σ. -/
structure Inspection (σ : Type) where
  load : σ → NodeId → Except StorageError (Option Bundle)
  stored : σ → NodeId → Bool
  /-- Whether a bundle that cannot be read is a finding; it ends the check otherwise. -/
  tolerant : Bool
  blobFault? : σ → String → Option StorageError
  store : σ → Bundle → Except StorageError Unit × σ

namespace Inspection

variable {σ : Type} {inspection : Inspection σ} {start now after : σ} {id : NodeId} {bundle : Bundle}
  {recursive mend : Bool} {asked order : List NodeId}

def blobProblems (inspection : Inspection σ) (state : σ) (id : NodeId) (bundle : Bundle) :
    List Problem :=
  bundle.blobs.filterMap (fun blob => (inspection.blobFault? state blob).map (Problem.blob id blob))

/-- What has come of the entries of a bundle: the copy, the nodes that they bring, what is said. -/
def pass (inspection : Inspection σ) (recursive mend : Bool) (state : σ) (id : NodeId)
    (bundle : Bundle) : Pass :=
  Pass.entries (inspection.stored state) recursive mend id bundle [] []

/-- Only a copy that differs is written. -/
def writeBack (inspection : Inspection σ) (state : σ) (pass : Pass) : Except StorageError Unit × σ :=
  if pass.dirty then inspection.store state pass.repaired else (.ok (), state)

/-! ### What a bundle comes to -/

def problemsOf (inspection : Inspection σ) (state : σ) (id : NodeId) (bundle : Bundle) :
    List Problem :=
  let dangling := bundle.children.filter (fun child => !inspection.stored state child.id)
  dangling.map (fun child => .child id child.name child.id) ++
    inspection.blobProblems state id bundle

def storedChildren (inspection : Inspection σ) (state : σ) (bundle : Bundle) : List Child :=
  bundle.children.filter (fun child => inspection.stored state child.id)

/-- The bundle without the entries that lead nowhere is stored, if there are any. A check does not
work like this: it drops the entries one by one, and this is what that comes to. -/
def storePruned (inspection : Inspection σ) (state : σ) (bundle : Bundle) :
    Except StorageError Unit × σ :=
  let kept := inspection.storedChildren state bundle
  if kept.length = bundle.children.length then (.ok (), state)
  else inspection.store state { bundle with children := kept }

/-- The nodes that a visit to the bundle adds to those pending. -/
def onward (inspection : Inspection σ) (recursive : Bool) (state : σ) (bundle : Bundle) :
    List NodeId :=
  if recursive then ((inspection.storedChildren state bundle).map (·.id)).reverse else []

theorem pass_pending :
    (inspection.pass recursive mend now id bundle).pending =
      inspection.onward recursive now bundle := by
  rw [pass, Pass.entries_eq]
  exact List.append_nil _

theorem pass_problems :
    (inspection.pass recursive mend now id bundle).problems ++
        inspection.blobProblems now id bundle =
      inspection.problemsOf now id bundle := by
  rw [pass, Pass.entries_eq]
  rfl

/-- What is written back after the entries have been dropped one by one from a copy is the bundle with
those that lead somewhere. -/
theorem writeBack_pass :
    inspection.writeBack now (inspection.pass recursive mend now id bundle) =
      if mend then inspection.storePruned now bundle else (.ok (), now) := by
  rw [pass, Pass.entries_eq, writeBack]
  cases mend with
  | false => rfl
  | true =>
      simp only [Bool.true_and, bne_iff_ne, ite_not, if_true]
      rfl

theorem entries_eq_pass (pending : List NodeId) (problems : List Problem) :
    Pass.entries (inspection.stored now) recursive mend id bundle pending problems =
      let pass := inspection.pass recursive mend now id bundle
      { pass with pending := pass.pending ++ pending, problems := problems ++ pass.problems } := by
  rw [pass, Pass.entries_eq, Pass.entries_eq]
  simp

/-- What there is to say of a node. -/
def findings (inspection : Inspection σ) (state : σ) (id : NodeId) : List Problem :=
  match inspection.load state id with
  | .ok none => [.missing id]
  | .ok (some bundle) => inspection.problemsOf state id bundle
  | .error cause => [.unreadable id cause]

theorem findings_missing (absent : inspection.load now id = .ok none) :
    inspection.findings now id = [.missing id] := by
  rw [findings, absent]

theorem findings_unreadable {cause : StorageError}
    (failed : inspection.load now id = .error cause) :
    inspection.findings now id = [.unreadable id cause] := by
  rw [findings, failed]

theorem findings_present (loaded : inspection.load now id = .ok (some bundle)) :
    inspection.findings now id = inspection.problemsOf now id bundle := by
  rw [findings, loaded]

/-- The bundle without the entries that lead nowhere. -/
def pruned (inspection : Inspection σ) (state : σ) (bundle : Bundle) : Bundle :=
  { bundle with children := inspection.storedChildren state bundle }

/-- The nodes that a check comes to. -/
inductive Visits (inspection : Inspection σ) (state : σ) (recursive : Bool) (asked : List NodeId) :
    NodeId → Prop where
  | asked {id : NodeId} (member : id ∈ asked) : Visits inspection state recursive asked id
  | child {parent : NodeId} {bundle : Bundle} {child : Child}
      (visits : Visits inspection state recursive asked parent) (further : recursive = true)
      (loaded : inspection.load state parent = .ok (some bundle))
      (member : child ∈ inspection.storedChildren state bundle) :
      Visits inspection state recursive asked child.id

/-- The records of these nodes have been pruned, and all else that a check looks at is as it was. -/
structure Pruned (inspection : Inspection σ) (nodes : List NodeId) (before after : σ) : Prop where
  stored : inspection.stored after = inspection.stored before
  faults : inspection.blobFault? after = inspection.blobFault? before
  load : ∀ id, inspection.load after id =
    if id ∈ nodes then (inspection.load before id).map (Option.map (inspection.pruned before))
    else inspection.load before id

theorem Pruned.refl (inspection : Inspection σ) (state : σ) : inspection.Pruned [] state state :=
  ⟨rfl, rfl, fun id => by rw [if_neg (List.not_mem_nil)]⟩

theorem pruned_congr (stored : inspection.stored now = inspection.stored start) (bundle : Bundle) :
    inspection.pruned now bundle = inspection.pruned start bundle := by
  rw [pruned, pruned, storedChildren, storedChildren, stored]

theorem Pruned.trans {nodes : List NodeId} (early : inspection.Pruned nodes start now)
    (new : id ∉ nodes) (late : inspection.Pruned [id] now after) :
    inspection.Pruned (nodes ++ [id]) start after := by
  refine ⟨late.stored.trans early.stored, late.faults.trans early.faults, fun other => ?_⟩
  rw [late.load, early.load]
  by_cases same : other = id
  · rw [if_pos (List.mem_singleton.mpr same), if_neg (same ▸ new),
      if_pos (List.mem_append_right _ (List.mem_singleton.mpr same)),
      funext (pruned_congr early.stored)]
  · have either : other ∈ nodes ++ [id] ↔ other ∈ nodes := by simp [same]
    rw [if_neg (fun member => same (List.mem_singleton.mp member)), if_congr either rfl rfl]

/-- There is nothing to prune where no record can be read. -/
theorem Pruned.of_unread (unread : ∀ bundle, inspection.load now id ≠ .ok (some bundle)) :
    inspection.Pruned [id] now now := by
  refine ⟨rfl, rfl, fun other => ?_⟩
  split
  · rename_i asked
    rw [List.mem_singleton.mp asked]
    rcases loaded : inspection.load now id with cause | none | bundle
    · rfl
    · rfl
    · exact absurd loaded (unread bundle)
  · rfl

theorem mem_onward : id ∈ inspection.onward recursive now bundle ↔
    recursive = true ∧ ∃ child ∈ inspection.storedChildren now bundle, child.id = id := by
  cases recursive <;> simp [onward]

theorem length_onward_le (inspection : Inspection σ) (recursive : Bool) (state : σ)
    (bundle : Bundle) :
    (inspection.onward recursive state bundle).length ≤ bundle.children.length := by
  rw [onward]
  split
  · rw [List.length_reverse, List.length_map]
    exact List.length_filter_le ..
  · exact Nat.zero_le _

/-! ### The loop of a check -/

/-- What a check does with a node that it comes to for the first time: the nodes that it adds to
those pending, what it reports, and the state that it leaves. -/
inductive Inspects (inspection : Inspection σ) (recursive mend : Bool) (now : σ) (id : NodeId) :
    List NodeId → List Problem → σ → Prop where
  | missing (absent : inspection.load now id = .ok none) :
      Inspects inspection recursive mend now id [] [.missing id] now
  | unreadable {cause : StorageError} (failed : inspection.load now id = .error cause)
      (bearable : inspection.tolerant = true) :
      Inspects inspection recursive mend now id [] [.unreadable id cause] now
  | present {bundle : Bundle} {later : σ} (loaded : inspection.load now id = .ok (some bundle))
      (written : inspection.writeBack now (inspection.pass recursive mend now id bundle) =
        (.ok (), later)) :
      Inspects inspection recursive mend now id
        (inspection.pass recursive mend now id bundle).pending
        ((inspection.pass recursive mend now id bundle).problems ++
          inspection.blobProblems now id bundle) later

/-- The loop of a check from here to its end, for as many steps as it takes: these are the nodes
that it inspects, in this order, what it has reported at its end, and the state that it leaves. -/
inductive Loop (inspection : Inspection σ) (recursive mend : Bool) :
    Visit → σ → List NodeId → List Problem → σ → Prop where
  | done {seen : SortedSet NodeId} {problems : List Problem} {now : σ} :
      Loop inspection recursive mend ⟨[], seen, problems⟩ now [] problems now
  | again {id : NodeId} {pending order : List NodeId} {seen : SortedSet NodeId}
      {problems reported : List Problem} {now after : σ}
      (visited : SortedMap.contains seen id = true)
      (rest : Loop inspection recursive mend ⟨pending, seen, problems⟩ now order reported after) :
      Loop inspection recursive mend ⟨id :: pending, seen, problems⟩ now order reported after
  | first {id : NodeId} {pending further order : List NodeId} {seen : SortedSet NodeId}
      {problems found reported : List Problem} {now later after : σ}
      (unseen : SortedMap.contains seen id = false)
      (inspects : inspection.Inspects recursive mend now id further found later)
      (rest : Loop inspection recursive mend
        ⟨further ++ pending, SortedSet.add seen id, problems ++ found⟩ later order reported after) :
      Loop inspection recursive mend ⟨id :: pending, seen, problems⟩ now (id :: order) reported after

theorem Inspects.mends {later : σ} (loaded : inspection.load now id = .ok (some bundle))
    (mended : (if mend then inspection.storePruned now bundle else (.ok (), now)) = (.ok (), later)) :
    inspection.Inspects recursive mend now id (inspection.onward recursive now bundle)
      (inspection.problemsOf now id bundle) later := by
  have written : inspection.writeBack now (inspection.pass recursive mend now id bundle) =
      (.ok (), later) := writeBack_pass.trans mended
  have inspects := Inspects.present loaded written
  rwa [pass_pending, pass_problems] at inspects

/-- A check that inspects nodes in this way: what its iterations do, as far as they go on. -/
structure Follows (inspection : Inspection σ) (recursive mend : Bool)
    (run : Nat → Visit → σ → Except StorageError (List Problem) × σ) : Prop where
  done : ∀ bound seen problems now, run (bound + 1) ⟨[], seen, problems⟩ now = (.ok problems, now)
  again : ∀ bound {id} pending {seen} problems now, SortedMap.contains seen id = true →
    run (bound + 1) ⟨id :: pending, seen, problems⟩ now = run bound ⟨pending, seen, problems⟩ now
  first : ∀ bound {id} pending {seen} problems {now further found later},
    SortedMap.contains seen id = false →
    inspection.Inspects recursive mend now id further found later →
    run (bound + 1) ⟨id :: pending, seen, problems⟩ now =
      run bound ⟨further ++ pending, SortedSet.add seen id, problems ++ found⟩ later

/-- What a check does with a node is settled by the state in which it comes to it. -/
theorem Inspects.unique {further others : List NodeId} {found told : List Problem} {later last : σ}
    (inspects : inspection.Inspects recursive mend now id further found later)
    (also : inspection.Inspects recursive mend now id others told last) :
    others = further ∧ told = found ∧ last = later := by
  cases inspects with
  | missing absent =>
      cases also with
      | missing => exact ⟨rfl, rfl, rfl⟩
      | unreadable failed => simp [absent] at failed
      | present loaded => simp [absent] at loaded
  | unreadable failed =>
      cases also with
      | missing absent => simp [failed] at absent
      | unreadable other =>
          cases failed.symm.trans other
          exact ⟨rfl, rfl, rfl⟩
      | present loaded => simp [failed] at loaded
  | present loaded written =>
      cases also with
      | missing absent => simp [loaded] at absent
      | unreadable failed => simp [loaded] at failed
      | present other kept =>
          cases loaded.symm.trans other
          cases written.symm.trans kept
          exact ⟨rfl, rfl, rfl⟩

theorem Loop.unique {visit : Visit} {others : List NodeId} {reported told : List Problem} {last : σ}
    (loop : inspection.Loop recursive mend visit now order reported after)
    (also : inspection.Loop recursive mend visit now others told last) :
    others = order ∧ told = reported ∧ last = after := by
  induction loop generalizing others with
  | done =>
      cases also with
      | done => exact ⟨rfl, rfl, rfl⟩
  | again visited _rest ih =>
      cases also with
      | again _visited rest => exact ih rest
      | first unseen => simp [visited] at unseen
  | first unseen inspects _rest ih =>
      cases also with
      | again visited => simp [unseen] at visited
      | first _unseen other rest =>
          obtain ⟨rfl, rfl, rfl⟩ := inspects.unique other
          obtain ⟨rfl, same, left⟩ := ih rest
          exact ⟨rfl, same, left⟩

/-! ### Storage that a check can rely on -/

/-- Storage has come to hold this bundle for its node, in the place of another one. -/
structure Replaced (inspection : Inspection σ) (bundle : Bundle) (before after : σ) : Prop where
  stored : inspection.stored after = inspection.stored before
  faults : inspection.blobFault? after = inspection.blobFault? before
  load : ∀ id, inspection.load after id =
    if id = bundle.id then .ok (some bundle) else inspection.load before id

/-- In good states a record is the one of its node, it can be replaced by one with fewer entries,
and no record that cannot be read ends a check. What is still to be visited has a weight, to which
each record that is not visited yet adds at least its entries. -/
structure Lawful (inspection : Inspection σ) (good : σ → Prop)
    (weight : σ → SortedSet NodeId → Nat) : Prop where
  named : ∀ {state id bundle}, good state → inspection.load state id = .ok (some bundle) →
    bundle.id = id
  bearable : ∀ {state id cause}, good state → inspection.load state id = .error cause →
    inspection.tolerant = true
  replaces : ∀ {state bundle children}, good state →
    inspection.load state bundle.id = .ok (some bundle) → children.Sublist bundle.children →
    ∃ after, inspection.store state { bundle with children } = (.ok (), after) ∧ good after ∧
      inspection.Replaced { bundle with children } state after ∧
      ∀ seen, SortedMap.contains seen bundle.id = true → weight after seen ≤ weight state seen
  lighter : ∀ state seen id, weight state (SortedSet.add seen id) ≤ weight state seen
  weighed : ∀ {state seen id bundle}, good state → inspection.load state id = .ok (some bundle) →
    SortedMap.contains seen id = false →
    bundle.children.length + weight state (SortedSet.add seen id) ≤ weight state seen

/-- What is still to be visited has a weight, and each record that is not visited yet adds at least
its entries. -/
structure Weighed (inspection : Inspection σ) (good : σ → Prop)
    (weight : σ → SortedSet NodeId → Nat) : Prop where
  lighter : ∀ state seen id, weight state (SortedSet.add seen id) ≤ weight state seen
  weighed : ∀ {state seen id bundle}, good state → inspection.load state id = .ok (some bundle) →
    SortedMap.contains seen id = false →
    bundle.children.length + weight state (SortedSet.add seen id) ≤ weight state seen

/-- In good states no record that cannot be read ends a check. With the weight, that is all a check
needs which mends nothing. -/
structure Bounded (inspection : Inspection σ) (good : σ → Prop)
    (weight : σ → SortedSet NodeId → Nat) : Prop extends Weighed inspection good weight where
  bearable : ∀ {state id cause}, good state → inspection.load state id = .error cause →
    inspection.tolerant = true

/-- In good states mending a record prunes it, and adds nothing to what is still to be visited. -/
def Mendable (inspection : Inspection σ) (good : σ → Prop)
    (weight : σ → SortedSet NodeId → Nat) : Prop :=
  ∀ {now id bundle}, good now → inspection.load now id = .ok (some bundle) →
    ∃ after, inspection.storePruned now bundle = (.ok (), after) ∧ good after ∧
      inspection.Pruned [id] now after ∧
      ∀ seen, SortedMap.contains seen id = true → weight after seen ≤ weight now seen

variable {good : σ → Prop} {weight : σ → SortedSet NodeId → Nat}

theorem Lawful.bounded (lawful : inspection.Lawful good weight) : inspection.Bounded good weight :=
  ⟨⟨lawful.lighter, lawful.weighed⟩, lawful.bearable⟩

theorem Lawful.mendable (lawful : inspection.Lawful good weight) :
    inspection.Mendable good weight := by
  intro now id bundle fine loaded
  obtain rfl := lawful.named fine loaded
  have fewer : (inspection.storedChildren now bundle).Sublist bundle.children :=
    List.filter_sublist
  rw [Inspection.storePruned]
  split
  · rename_i whole
    have same : inspection.pruned now bundle = bundle := by
      rw [pruned, fewer.eq_of_length whole]
    refine ⟨now, rfl, fine, ⟨rfl, rfl, fun other => ?_⟩, fun _seen _visited => Nat.le_refl _⟩
    split
    · rename_i asked
      rw [List.mem_singleton.mp asked, loaded]
      simp only [Except.map, Option.map_some, same]
    · rfl
  · obtain ⟨after, stores, still, replaced, lighter⟩ := lawful.replaces fine loaded fewer
    refine ⟨after, stores, still, ⟨replaced.stored, replaced.faults, fun other => ?_⟩, lighter⟩
    rw [replaced.load, if_congr List.mem_singleton rfl rfl]
    split
    · rename_i asked
      rw [asked, loaded]
      rfl
    · rfl

/-! ### How far a check has come -/

/-- These nodes have been visited, in this order; what they lead to is pending or visited too. -/
structure Progress (inspection : Inspection σ) (recursive mend : Bool) (asked : List NodeId)
    (start now : σ) (visit : Visit) (order : List NodeId) : Prop where
  distinct : order.Nodup
  seen : ∀ id, SortedMap.contains visit.seen id = true ↔ id ∈ order
  reached : ∀ id ∈ visit.pending ++ order, inspection.Visits start recursive asked id
  begun : ∀ id ∈ asked, id ∈ visit.pending ++ order
  closed : recursive = true → ∀ parent ∈ order, ∀ bundle,
    inspection.load start parent = .ok (some bundle) →
    ∀ child ∈ inspection.storedChildren start bundle, child.id ∈ visit.pending ++ order
  problems : visit.problems = order.flatMap (inspection.findings start)
  mended : inspection.Pruned (if mend then order else []) start now
  kept : mend = false → now = start

theorem Progress.begin (inspection : Inspection σ) (recursive mend : Bool) (asked : List NodeId)
    (state : σ) :
    inspection.Progress recursive mend asked state state ⟨asked.reverse, SortedMap.empty, []⟩ [] := by
  refine ⟨.nil, fun id => ?_, fun id member => ?_, fun id member => ?_, fun _ parent member => ?_,
    rfl, ?_, fun _ => rfl⟩
  · exact iff_of_false (by rw [SortedMap.contains]; exact Bool.false_ne_true) List.not_mem_nil
  · rw [List.append_nil] at member
    exact .asked (List.mem_reverse.mp member)
  · rw [List.append_nil]
    exact List.mem_reverse.mpr member
  · cases member
  · rw [ite_self]
    exact Pruned.refl inspection state

variable {pending : List NodeId} {seen : SortedSet NodeId} {problems : List Problem}

/-- A node that was visited before is passed over. -/
theorem Progress.pass
    (progress : inspection.Progress recursive mend asked start now ⟨id :: pending, seen, problems⟩
      order) (visited : SortedMap.contains seen id = true) :
    inspection.Progress recursive mend asked start now ⟨pending, seen, problems⟩ order := by
  have known : id ∈ order := (progress.seen id).mp visited
  have stays : ∀ other ∈ (id :: pending) ++ order, other ∈ pending ++ order := by
    intro other member
    rcases List.mem_cons.mp member with rfl | rest
    · exact List.mem_append_right _ known
    · exact rest
  exact
    { progress with
      reached := fun other member => progress.reached other (List.mem_cons_of_mem id member)
      begun := fun other member => stays other (progress.begun other member)
      closed := fun on parent member bundle loaded child there =>
        stays _ (progress.closed on parent member bundle loaded child there) }

/-- The records that are still to be visited are as they were at first. -/
theorem Progress.load_of_unseen {visit : Visit}
    (progress : inspection.Progress recursive mend asked start now visit order)
    (unseen : SortedMap.contains visit.seen id = false) :
    inspection.load now id = inspection.load start id := by
  rw [progress.mended.load]
  have new : id ∉ order := fun member => by
    rw [(progress.seen id).mpr member] at unseen
    cases unseen
  cases mend with
  | false => rw [if_neg Bool.false_ne_true, if_neg List.not_mem_nil]
  | true => rw [if_pos rfl, if_neg new]

theorem Progress.problemsOf {visit : Visit}
    (progress : inspection.Progress recursive mend asked start now visit order) (id : NodeId)
    (bundle : Bundle) :
    inspection.problemsOf now id bundle = inspection.problemsOf start id bundle := by
  rw [Inspection.problemsOf, Inspection.problemsOf, blobProblems, blobProblems,
    progress.mended.stored, progress.mended.faults]

theorem Progress.findings {visit : Visit}
    (progress : inspection.Progress recursive mend asked start now visit order)
    (unseen : SortedMap.contains visit.seen id = false) :
    inspection.findings now id = inspection.findings start id := by
  rw [Inspection.findings, Inspection.findings, progress.load_of_unseen unseen]
  simp only [progress.problemsOf]

theorem Progress.storedChildren {visit : Visit}
    (progress : inspection.Progress recursive mend asked start now visit order) (bundle : Bundle) :
    inspection.storedChildren now bundle = inspection.storedChildren start bundle :=
  congrArg Bundle.children (pruned_congr progress.mended.stored bundle)

/-- A check that mends nothing does the same with a node that is still to be visited, and reports
the same. -/
theorem Progress.at_first {visit : Visit} {further : List NodeId} {found : List Problem} {later : σ}
    (progress : inspection.Progress recursive mend asked start now visit order)
    (unseen : SortedMap.contains visit.seen id = false)
    (inspects : inspection.Inspects recursive mend now id further found later) :
    inspection.Inspects recursive false start id further found start := by
  have same := progress.load_of_unseen unseen
  cases inspects with
  | missing absent => exact .missing (same.symm.trans absent)
  | unreadable failed bearable => exact .unreadable (same.symm.trans failed) bearable
  | @present bundle _ loaded _ =>
      rw [pass_pending, pass_problems, onward, progress.storedChildren, progress.problemsOf]
      exact .mends (same.symm.trans loaded) (if_neg Bool.false_ne_true)

/-- What a node that is pending leads to is what it led to at first. -/
theorem Progress.leads
    (progress : inspection.Progress recursive mend asked start now ⟨id :: pending, seen, problems⟩
      order) (at_first : inspection.load start id = .ok (some bundle)) :
    (∀ other ∈ inspection.onward recursive now bundle,
      inspection.Visits start recursive asked other) ∧
    (recursive = true → ∀ found, inspection.load start id = .ok (some found) →
      ∀ child ∈ inspection.storedChildren start found,
        child.id ∈ inspection.onward recursive now bundle) := by
  have children := progress.storedChildren bundle
  constructor
  · intro other member
    obtain ⟨on, child, there, rfl⟩ := mem_onward.mp member
    exact .child (progress.reached id List.mem_cons_self) on at_first (children ▸ there)
  · intro on found loaded child member
    rw [at_first] at loaded
    cases loaded
    exact mem_onward.mpr ⟨on, child, children ▸ member, rfl⟩

/-- A node is visited: what it leads to is pending from now on. -/
theorem Progress.visited (further : List NodeId) {later : σ}
    (progress : inspection.Progress recursive mend asked start now ⟨id :: pending, seen, problems⟩
      order)
    (unseen : SortedMap.contains seen id = false)
    (sound : ∀ other ∈ further, inspection.Visits start recursive asked other)
    (complete : recursive = true → ∀ bundle, inspection.load start id = .ok (some bundle) →
      ∀ child ∈ inspection.storedChildren start bundle, child.id ∈ further)
    (mended : if mend then inspection.Pruned [id] now later else later = now) :
    inspection.Progress recursive mend asked start later
      ⟨further ++ pending, SortedSet.add seen id, problems ++ inspection.findings now id⟩
      (order ++ [id]) := by
  have new : id ∉ order := fun member => by
    rw [(progress.seen id).mpr member] at unseen
    cases unseen
  have stays : ∀ other ∈ (id :: pending) ++ order,
      other ∈ (further ++ pending) ++ (order ++ [id]) := by
    intro other member
    rcases List.mem_append.mp member with front | visited
    · rcases List.mem_cons.mp front with rfl | rest
      · simp
      · simp [rest]
    · simp [visited]
  refine ⟨?_, fun other => ?_, fun other member => ?_, fun other member => ?_, ?_, ?_, ?_, ?_⟩
  · exact List.nodup_append.mpr ⟨progress.distinct, List.nodup_singleton id, fun other member last
      same equal => new ((List.mem_singleton.mp same) ▸ equal ▸ member)⟩
  · rw [List.mem_append, List.mem_singleton, ← progress.seen other, or_comm]
    exact SortedMap.contains_insert seen id other ()
  · rcases List.mem_append.mp member with front | visited
    · rcases List.mem_append.mp front with new | rest
      · exact sound other new
      · exact progress.reached other (List.mem_append_left _ (List.mem_cons_of_mem id rest))
    · rcases List.mem_append.mp visited with old | last
      · exact progress.reached other (List.mem_append_right _ old)
      · rw [List.mem_singleton.mp last]
        exact progress.reached id List.mem_cons_self
  · exact stays other (progress.begun other member)
  · intro on parent member bundle loaded child there
    rcases List.mem_append.mp member with old | last
    · exact stays _ (progress.closed on parent old bundle loaded child there)
    · rw [List.mem_singleton.mp last] at loaded
      exact List.mem_append_left _ (List.mem_append_left _ (complete on bundle loaded child there))
  · rw [List.flatMap_append, ← progress.problems, List.flatMap_singleton,
      progress.findings unseen]
  · cases mend with
    | false =>
        obtain rfl := mended
        exact progress.mended
    | true => exact progress.mended.trans new mended
  · intro still
    subst still
    exact (show later = now from mended).trans (progress.kept rfl)

/-- A node without a record that can be read leads nowhere, and is not mended. -/
theorem Progress.alone
    (progress : inspection.Progress recursive mend asked start now ⟨id :: pending, seen, problems⟩
      order) (unseen : SortedMap.contains seen id = false)
    (unread : ∀ bundle, inspection.load now id ≠ .ok (some bundle)) :
    inspection.Progress recursive mend asked start now
      ⟨[] ++ pending, SortedSet.add seen id, problems ++ inspection.findings now id⟩
      (order ++ [id]) := by
  have at_first := progress.load_of_unseen unseen
  refine progress.visited [] unseen (fun _other impossible => by cases impossible)
    (fun _on bundle loaded => absurd (at_first.trans loaded) (unread bundle)) ?_
  split
  · exact Pruned.of_unread unread
  · rfl

/-- What becomes of a check that comes for the first time to a node whose record can be read. What the
node adds to the nodes pending has its place in the weight of what was to be visited. -/
theorem Weighed.step (weighs : inspection.Weighed good weight)
    (mends : mend = true → inspection.Mendable good weight) (fine : good now)
    (progress : inspection.Progress recursive mend asked start now ⟨id :: pending, seen, problems⟩
      order) (unseen : SortedMap.contains seen id = false) {found : Option Bundle}
    (loaded : inspection.load now id = .ok found) :
    ∃ further later,
      inspection.Inspects recursive mend now id further (inspection.findings now id) later ∧
      good later ∧
      inspection.Progress recursive mend asked start later
        ⟨further ++ pending, SortedSet.add seen id, problems ++ inspection.findings now id⟩
        (order ++ [id]) ∧
      further.length + weight later (SortedSet.add seen id) ≤ weight now seen := by
  have at_first := progress.load_of_unseen unseen
  cases found with
  | none =>
      have lighter := weighs.lighter now seen id
      refine ⟨[], now, ?_, fine, progress.alone unseen (by simp [loaded]), by simpa using lighter⟩
      rw [findings_missing loaded]
      exact .missing loaded
  | some bundle =>
      obtain ⟨sound, complete⟩ := progress.leads (at_first ▸ loaded)
      have fewer := inspection.length_onward_le recursive now bundle
      have weighed := weighs.weighed fine loaded unseen
      have marked : SortedMap.contains (SortedSet.add seen id) id = true :=
        (SortedMap.contains_insert seen id id ()).mpr (Or.inl rfl)
      cases mend with
      | false =>
          refine ⟨inspection.onward recursive now bundle, now, ?_, fine,
            progress.visited _ unseen sound complete rfl, by omega⟩
          rw [findings_present loaded]
          exact .mends loaded (if_neg Bool.false_ne_true)
      | true =>
          obtain ⟨later, repaired, still, mended, less⟩ := mends rfl fine loaded
          have left := less _ marked
          refine ⟨inspection.onward recursive now bundle, later, ?_, still,
            progress.visited _ unseen sound complete mended, by omega⟩
          rw [findings_present loaded]
          exact .mends loaded ((if_pos rfl).trans repaired)

/-- What becomes of a check that goes on from every node. -/
theorem Bounded.step (bounded : inspection.Bounded good weight)
    (mends : mend = true → inspection.Mendable good weight) (fine : good now)
    (progress : inspection.Progress recursive mend asked start now ⟨id :: pending, seen, problems⟩
      order) (unseen : SortedMap.contains seen id = false) :
    ∃ further later,
      inspection.Inspects recursive mend now id further (inspection.findings now id) later ∧
      good later ∧
      inspection.Progress recursive mend asked start later
        ⟨further ++ pending, SortedSet.add seen id, problems ++ inspection.findings now id⟩
        (order ++ [id]) ∧
      further.length + weight later (SortedSet.add seen id) ≤ weight now seen := by
  cases loaded : inspection.load now id with
  | error cause =>
      have lighter := bounded.lighter now seen id
      refine ⟨[], now, ?_, fine, progress.alone unseen (by simp [loaded]), by simpa using lighter⟩
      rw [findings_unreadable loaded]
      exact .unreadable loaded (bounded.bearable fine loaded)
  | ok found => exact bounded.toWeighed.step mends fine progress unseen loaded

/-! ### The whole check -/

/-- What a check comes to: each node that it comes to is visited once, and what is found of it is
what was so before. -/
structure Sweep (inspection : Inspection σ) (recursive mend : Bool) (asked : List NodeId)
    (before after : σ) (problems : List Problem) (order : List NodeId) : Prop where
  distinct : order.Nodup
  visited : ∀ id, id ∈ order ↔ inspection.Visits before recursive asked id
  problems : problems = order.flatMap (inspection.findings before)
  mended : inspection.Pruned (if mend then order else []) before after
  kept : mend = false → after = before

theorem Progress.sweep
    (progress : inspection.Progress recursive mend asked start now ⟨[], seen, problems⟩ order) :
    inspection.Sweep recursive mend asked start now problems order := by
  refine ⟨progress.distinct, fun id => ⟨progress.reached id, fun visits => ?_⟩, progress.problems,
    progress.mended, progress.kept⟩
  induction visits with
  | asked member => exact progress.begun _ member
  | child _visits on loaded member ih => exact progress.closed on _ ih _ loaded _ member

variable {run : Nat → Visit → σ → Except StorageError (List Problem) × σ}

/-- A check goes on to its end if the bound is above what is pending and what is to be visited. It
inspects the nodes that a check inspects which mends nothing, and reports the same. -/
theorem Bounded.visit (bounded : inspection.Bounded good weight)
    (follows : inspection.Follows recursive mend run)
    (mends : mend = true → inspection.Mendable good weight) {bound : Nat} {visit : Visit}
    (fine : good now)
    (progress : inspection.Progress recursive mend asked start now visit order)
    (enough : visit.pending.length + weight now visit.seen < bound) :
    ∃ problems later rest,
      run bound visit now = (.ok problems, later) ∧ good later ∧
        inspection.Loop recursive mend visit now rest problems later ∧
        inspection.Loop recursive false visit start rest problems start ∧
        inspection.Sweep recursive mend asked start later problems (order ++ rest) := by
  induction bound generalizing visit now order with
  | zero => omega
  | succ bound ih =>
      obtain ⟨pending, seen, problems⟩ := visit
      cases pending with
      | nil =>
          refine ⟨problems, now, [], follows.done .., fine, .done, .done, ?_⟩
          rw [List.append_nil]
          exact progress.sweep
      | cons id pending =>
          simp only [List.length_cons] at enough
          cases known : SortedMap.contains seen id with
          | true =>
              obtain ⟨reported, later, rest, runs, still, loop, plain, sweep⟩ :=
                ih fine (progress.pass known) (by dsimp only; omega)
              exact ⟨reported, later, rest, (follows.again _ _ _ _ known).trans runs, still,
                .again known loop, .again known plain, sweep⟩
          | false =>
              obtain ⟨further, now, inspects, kept, onward, less⟩ :=
                bounded.step mends fine progress known
              obtain ⟨reported, later, rest, runs, still, loop, plain, sweep⟩ :=
                ih kept onward (by simp only [List.length_append]; omega)
              refine ⟨reported, later, id :: rest, (follows.first _ _ _ known inspects).trans runs,
                still, .first known inspects loop,
                .first known (progress.at_first known inspects) plain, ?_⟩
              rw [List.append_cons]
              exact sweep

theorem Bounded.check (bounded : inspection.Bounded good weight)
    (follows : inspection.Follows recursive mend run)
    (mends : mend = true → inspection.Mendable good weight) (fine : good start) {bound : Nat}
    (ids : List NodeId) (enough : ids.length + weight start SortedMap.empty < bound) :
    ∃ problems later order,
      run bound ⟨ids.reverse, SortedMap.empty, []⟩ start = (.ok problems, later) ∧ good later ∧
        inspection.Loop recursive mend ⟨ids.reverse, SortedMap.empty, []⟩ start order problems later ∧
        inspection.Loop recursive false ⟨ids.reverse, SortedMap.empty, []⟩ start order problems start ∧
        inspection.Sweep recursive mend ids start later problems order :=
  bounded.visit follows mends fine (Progress.begin inspection recursive mend ids start)
    (by rwa [List.length_reverse])

theorem Lawful.check (lawful : inspection.Lawful good weight)
    (follows : inspection.Follows recursive mend run) (fine : good start) {bound : Nat}
    (ids : List NodeId) (enough : ids.length + weight start SortedMap.empty < bound) :
    ∃ problems later order,
      run bound ⟨ids.reverse, SortedMap.empty, []⟩ start = (.ok problems, later) ∧ good later ∧
        inspection.Loop recursive mend ⟨ids.reverse, SortedMap.empty, []⟩ start order problems later ∧
        inspection.Loop recursive false ⟨ids.reverse, SortedMap.empty, []⟩ start order problems start ∧
        inspection.Sweep recursive mend ids start later problems order :=
  lawful.bounded.check follows (fun _ => lawful.mendable) fine ids enough

end Inspection

end BundleStore
