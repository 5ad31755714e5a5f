import BundleStore.Proofs.Store.Aftermath

set_option autoImplicit false

/-! When a store fails though storage answers every call: just when the bundle of a node that it
deletes or changes is not to be had. Which node it names then can be read off the log and off which
nodes have a record. -/

namespace BundleStore

/-! ### Runs in which every call is answered -/

namespace Task

variable {ε α σ : Type}

/-- No call to storage has failed. -/
def answered : (action : Action) → action.Result → Bool
  | .storage _, .ok _ => true
  | .storage _, .error _ => false
  | .cache _, _ => true
  | .warn _, _ => true

/-- Every call to storage is answered in the run. -/
def Unfailing (serve : Serve σ) : Task ε α → σ → Bool
  | done _, _ => true
  | fail _, _ => true
  | act action rest, state =>
      answered action (serve action state).1 &&
        (rest (serve action state).1).Unfailing serve (serve action state).2

end Task

/-- No call fails. -/
def Faults.never : Faults := fun _ _ _ => False

theorem Moment.Leads.answered {now next : Moment} {action : Action} {result : action.Result}
    (leads : now.Leads Faults.any action result next) (answered : Task.answered action result = true) :
    now.Leads Faults.never action result next := by
  refine ⟨leads.stage, ?_⟩
  have does := leads.contents
  cases action with
  | storage call =>
      cases result with
      | ok value => exact does
      | error error => cases answered
  | cache step => cases step <;> exact does
  | warn warning => exact does

/-- As long as every call is answered, a task comes to what it comes to when no call fails. -/
theorem Task.Meets.run_unfailing {backend : Backend} {ε α : Type} {ends : α → Moment → Prop}
    {fails : ε → Moment → Prop} {task : Task ε α} {system : System backend} {now : Moment}
    (sound : system.Sound now) (valid : now.stage.Valid (system.scene now))
    (unfailing : task.Unfailing System.serve system = true)
    (meets : task.Meets (writing Faults.never) ends fails now) :
    ∃ next, (task.run System.serve system).2.Sound next ∧
      match (task.run System.serve system).1 with
      | .ok value => ends value next
      | .error error => fails error next := by
  induction task generalizing system now with
  | done value => exact ⟨now, sound, meets⟩
  | fail error => exact ⟨now, sound, meets⟩
  | act action rest ih =>
      obtain ⟨permits, met⟩ := meets
      rw [Task.Unfailing, Bool.and_eq_true] at unfailing
      obtain ⟨next, leads, steps, stays⟩ :=
        System.steps_writing backend.failsOnly_any sound valid permits
      exact ih _ steps.sound stays unfailing.2 (met _ next (leads.answered unfailing.1))

/-- Whatever is to be written can be drawn up: no call fails that a draft takes. -/
def Faults.Calm (faults : Faults) : Prop := ∀ cause, ¬ faults.InDraft cause

theorem Faults.never_calm : Faults.never.Calm := by
  rintro _cause ⟨_call, _contents, _drafts, fault⟩
  exact fault

theorem Withheld.of_calm {faults : Faults} {id : NodeId} {found : Option Bundle}
    {error : RepositoryError} (withheld : Withheld faults id found error) (calm : faults.Calm) :
    found = none ∧ error = .notFound (.node id) := by
  cases withheld with
  | absent => exact ⟨rfl, rfl⟩
  | fault struck => exact absurd struck (calm _)

/-! ### What a log demands -/

namespace ChangeLog

/-- The nodes of the list that have no record when their turn comes to be deleted: those that never
had one, and those that come again. -/
def undeletable (stored : NodeId → Bool) : List NodeId → List NodeId
  | [] => []
  | id :: rest =>
      (if stored id then [] else [id]) ++
        undeletable (fun other => stored other && decide (other ≠ id)) rest

/-- The nodes whose bundles are changed, in the order of the changes. Identity properties change no
bundle, nor do properties that are deleted along with their nodes. -/
def owners (log : ChangeLog) : List NodeId :=
  log.modifiedNodes.map Node.id ++
    (log.modifiedProperties.filter (fun state => !state.id.name.isIdentity)).map (·.id.node) ++
    (log.deletedProperties.filter (fun state => !decide (log.Deletes state.id.node))).map
      (·.id.node) ++
    (log.addedProperties.filter (fun state => !state.id.name.isIdentity)).map (·.id.node)

/-- The node is added by the log, or it has a record and is not deleted by the log. -/
def Available (log : ChangeLog) (contents : Contents) (id : NodeId) : Prop :=
  (∃ node ∈ log.addedNodes, node.id = id) ∨
    ((contents.bundles id).isSome = true ∧ ¬ log.Deletes id)

instance (log : ChangeLog) (contents : Contents) (id : NodeId) :
    Decidable (log.Available contents id) :=
  inferInstanceAs (Decidable ((∃ node ∈ log.addedNodes, node.id = id) ∨
    ((contents.bundles id).isSome = true ∧ ¬ log.Deletes id)))

/-- All that stands in the way of the log: the nodes that cannot be deleted, and then the owners that
are not available. -/
def violations (log : ChangeLog) (contents : Contents) : List NodeId :=
  undeletable (fun id => (contents.bundles id).isSome) (log.deletedNodes.map Node.id) ++
    log.owners.filter (fun id => !decide (log.Available contents id))

/-- Nothing stands in the way of the log. -/
structure Applicable (log : ChangeLog) (contents : Contents) : Prop where
  distinct : (log.deletedNodes.map Node.id).Nodup
  deletable : ∀ node ∈ log.deletedNodes, (contents.bundles node.id).isSome = true
  modifiedNodes : ∀ node ∈ log.modifiedNodes, log.Available contents node.id
  modifiedProperties : ∀ state ∈ log.modifiedProperties, state.id.name.isIdentity = false →
    log.Available contents state.id.node
  deletedProperties : ∀ state ∈ log.deletedProperties, ¬ log.Deletes state.id.node →
    log.Available contents state.id.node
  addedProperties : ∀ state ∈ log.addedProperties, state.id.name.isIdentity = false →
    log.Available contents state.id.node

variable {log : ChangeLog} {contents : Contents} {stored : NodeId → Bool}

theorem undeletable_eq_nil {ids : List NodeId} :
    undeletable stored ids = [] ↔ ids.Nodup ∧ ∀ id ∈ ids, stored id = true := by
  induction ids generalizing stored with
  | nil => simp [undeletable]
  | cons id rest ih =>
      rw [undeletable, List.append_eq_nil_iff, ih, List.nodup_cons, List.forall_mem_cons]
      simp only [Bool.and_eq_true, decide_eq_true_eq]
      constructor
      · rintro ⟨here, distinct, later⟩
        refine ⟨⟨fun again => (later id again).2 rfl, distinct⟩, ?_,
          fun other member => (later other member).1⟩
        by_contra unstored
        rw [if_neg unstored] at here
        cases here
      · rintro ⟨⟨fresh, distinct⟩, here, later⟩
        refine ⟨if_pos here, distinct, fun other member => ⟨later other member, ?_⟩⟩
        rintro rfl
        exact fresh member

/-- A change that is made in a bundle. -/
abbrev Due (log : ChangeLog) (change : Change) : Prop := ¬ change.Passed log.Deletes

instance (log : ChangeLog) (change : Change) : Decidable (log.Due change) :=
  match change with
  | .update _ => isTrue (fun passed => passed)
  | .put state => inferInstanceAs (Decidable (¬ state.id.name.isIdentity = true))
  | .drop state => inferInstanceAs (Decidable (¬ log.Deletes state.id.node))

/-- The owners are the nodes of the changes that are made. -/
theorem owners_eq (log : ChangeLog) :
    log.owners = (log.changes.filter (fun change => decide (log.Due change))).map Change.node := by
  have updates : (fun change => decide (log.Due change)) ∘ Change.update = fun _ => true := rfl
  have puts : (fun change => decide (log.Due change)) ∘ Change.put =
      fun state => !state.id.name.isIdentity := by
    funext state
    change decide (¬ state.id.name.isIdentity = true) = _
    cases state.id.name.isIdentity <;> rfl
  have drops : (fun change => decide (log.Due change)) ∘ Change.drop =
      fun state => !decide (log.Deletes state.id.node) := by
    funext state
    change decide (¬ log.Deletes state.id.node) = _
    exact decide_not
  simp only [owners, changes, List.filter_append, List.filter_map, updates, puts, drops,
    List.filter_true, List.map_append, List.map_map]
  rfl

theorem mem_owners {id : NodeId} :
    id ∈ log.owners ↔ ∃ change ∈ log.changes, log.Due change ∧ change.node = id := by
  rw [owners_eq, List.mem_map]
  constructor
  · rintro ⟨change, member, rfl⟩
    obtain ⟨listed, due⟩ := List.mem_filter.mp member
    exact ⟨change, listed, of_decide_eq_true due, rfl⟩
  · rintro ⟨change, listed, due, rfl⟩
    exact ⟨change, List.mem_filter.mpr ⟨listed, decide_eq_true due⟩, rfl⟩

/-- The changes that are made find their owners. -/
theorem Applicable.owned (applicable : log.Applicable contents) {change : Change}
    (member : change ∈ log.changes) (due : log.Due change) : log.Available contents change.node := by
  cases change with
  | update node => exact applicable.modifiedNodes node (mem_changes_update.mp member)
  | drop state => exact applicable.deletedProperties state (mem_changes_drop.mp member) due
  | put state =>
      have plain := Bool.eq_false_iff.mpr due
      rcases mem_changes_put.mp member with modified | added
      · exact applicable.modifiedProperties state modified plain
      · exact applicable.addedProperties state added plain

theorem Applicable.of_owned (distinct : (log.deletedNodes.map Node.id).Nodup)
    (deletable : ∀ node ∈ log.deletedNodes, (contents.bundles node.id).isSome = true)
    (owned : ∀ change ∈ log.changes, log.Due change → log.Available contents change.node) :
    log.Applicable contents := by
  refine ⟨distinct, deletable, fun node member => ?_, fun state member plain => ?_,
    fun state member stays => ?_, fun state member plain => ?_⟩
  · exact owned (.update node) (mem_changes_update.mpr member) (fun passed => passed)
  · exact owned (.put state) (mem_changes_put.mpr (Or.inl member)) (Bool.eq_false_iff.mp plain)
  · exact owned (.drop state) (mem_changes_drop.mpr member) stays
  · exact owned (.put state) (mem_changes_put.mpr (Or.inr member)) (Bool.eq_false_iff.mp plain)

theorem violations_eq_nil : log.violations contents = [] ↔ log.Applicable contents := by
  rw [violations, List.append_eq_nil_iff, undeletable_eq_nil, List.filter_eq_nil_iff]
  simp only [Bool.not_eq_true', Bool.not_eq_false, decide_eq_true_eq]
  constructor
  · rintro ⟨⟨distinct, deletable⟩, available⟩
    refine .of_owned distinct (fun node member => deletable _ (List.mem_map_of_mem member)) ?_
    exact fun change member due => available _ (mem_owners.mpr ⟨change, member, due, rfl⟩)
  · intro applicable
    refine ⟨⟨applicable.distinct, fun id member => ?_⟩, fun id member => ?_⟩
    · obtain ⟨node, listed, rfl⟩ := List.mem_map.mp member
      exact applicable.deletable node listed
    · obtain ⟨change, listed, due, rfl⟩ := mem_owners.mp member
      exact applicable.owned listed due

instance (log : ChangeLog) (contents : Contents) : Decidable (log.Applicable contents) :=
  decidable_of_iff _ violations_eq_nil

end ChangeLog

/-! ### What the passes find -/

section

variable {faults : Faults} {threshold : Nat} {log : ChangeLog} {before cleared now : Contents}

/-- Deleting nodes takes them off those that can be deleted. -/
theorem Contents.undeletable_of_chain {nodes : List Node} (later : List NodeId)
    (chain : Chain (Contents.Deletes faults) nodes before now) :
    ChangeLog.undeletable (fun id => (before.bundles id).isSome) (nodes.map Node.id ++ later) =
      ChangeLog.undeletable (fun id => (now.bundles id).isSome) later := by
  induction chain with
  | nil contents => rfl
  | @cons node rest first next last head tail ih =>
      have remaining : (fun id => (first.bundles id).isSome && decide (id ≠ node.id)) =
          fun id => (next.bundles id).isSome := by
        funext id
        rw [head.bundles]
        by_cases same : id = node.id
        · rw [same, Function.update_self]
          simp
        · rw [Function.update_of_ne same]
          simp [same]
      obtain ⟨bundle, held, _released⟩ := head
      rw [List.map_cons, List.cons_append, ChangeLog.undeletable, remaining, ih, held]
      rfl

/-- No change brings a record, or takes one away. -/
theorem Change.present_of_chain {gone : NodeId → Prop} {list : List Change} {first last : Draft}
    (chain : Chain (Change.Makes faults threshold gone) list first last) (id : NodeId) :
    (last.bundle? id).isSome = (first.bundle? id).isSome := by
  refine chain.preserves (fun draft => (draft.bundle? id).isSome = (first.bundle? id).isSome) ?_ rfl
  intro change _member early late makes same
  rw [← same]
  rcases makes.turns with rfl | ⟨old, new, turns⟩
  · rfl
  · rw [turns.turned]
    by_cases changed : id = change.node
    · rw [changed, Function.update_self, turns.held]
      rfl
    · rw [Function.update_of_ne changed]

/-- A change that is made finds the bundle of its node. -/
theorem Change.Makes.found {gone : NodeId → Prop} {change : Change} {early late : Draft}
    (makes : change.Makes faults threshold gone early late) (due : ¬ change.Passed gone) :
    (early.bundle? change.node).isSome = true := by
  have held (bundle : Bundle) (held : early.bundle? change.node = some bundle) :
      (early.bundle? change.node).isSome = true := by
    rw [held]
    rfl
  cases change with
  | update node =>
      obtain ⟨bundle, found, _after⟩ := makes
      exact held bundle found
  | put state =>
      obtain ⟨bundle, _released, _stored, found, _rest⟩ := makes.puts (Bool.eq_false_iff.mpr due)
      exact held bundle found
  | drop state =>
      obtain ⟨bundle, found, _rest⟩ := makes.drops due
      exact held bundle found

/-- When the nodes are deleted, the bundles that can be had are those of the nodes available. -/
theorem Draft.start_available
    (deleted : Chain (Contents.Deletes faults) log.deletedNodes before cleared) (id : NodeId) :
    ((Draft.start log.addedNodes cleared).bundle? id).isSome = true ↔ log.Available before id := by
  by_cases added : ∃ node ∈ log.addedNodes, node.id = id
  · obtain ⟨node, member, rfl⟩ := added
    obtain ⟨_other, _listed, _named, found⟩ := Draft.start_of_added cleared member
    rw [found]
    exact iff_of_true rfl (Or.inl ⟨node, member, rfl⟩)
  · rw [Draft.start_of_not_added (fun node member named => added ⟨node, member, named⟩)]
    by_cases gone : log.Deletes id
    · obtain ⟨node, member, rfl⟩ := gone
      rw [Contents.absent_of_chain deleted member]
      refine iff_of_false Bool.false_ne_true (fun available => ?_)
      exact available.elim added (fun stays => stays.2 ⟨node, member, rfl⟩)
    · rw [Contents.kept_of_chain deleted (fun node member named => gone ⟨node, member, named⟩)]
      exact ⟨fun stored => Or.inr ⟨stored, gone⟩,
        fun available => available.elim (fun new => absurd new added) And.left⟩

/-- The owners of changes that are made are available. -/
theorem ChangeLog.available_of_chain {list : List Change} {draft : Draft}
    (deleted : Chain (Contents.Deletes faults) log.deletedNodes before cleared)
    (made : Chain (Change.Makes faults threshold log.Deletes) list
      (Draft.start log.addedNodes cleared) draft) {change : Change} (member : change ∈ list)
    (due : log.Due change) : log.Available before change.node := by
  obtain ⟨early, late, rfl⟩ := List.append_of_mem member
  obtain ⟨_reached, _next, earlier, makes, _later⟩ := made.around
  rw [← Draft.start_available deleted, ← Change.present_of_chain earlier]
  exact makes.found due

/-- A store that goes well has found nothing in its way. -/
theorem Applied.applicable {after : Contents}
    (applied : Applied faults threshold log before after) : log.Applicable before := by
  obtain ⟨cleared, draft, _bundles, _written, deleted, made, _gives, _wrote, _listed⟩ := applied
  rw [← ChangeLog.violations_eq_nil, ChangeLog.violations, List.append_eq_nil_iff]
  constructor
  · rw [← List.append_nil (log.deletedNodes.map Node.id), Contents.undeletable_of_chain [] deleted]
    rfl
  · rw [List.filter_eq_nil_iff]
    intro id member
    obtain ⟨change, listed, due, rfl⟩ := ChangeLog.mem_owners.mp member
    simp [ChangeLog.available_of_chain deleted made listed due]

/-- What is refused is the first thing in the way, as long as no draft is disturbed. -/
theorem Repository.Refused.first {error : RepositoryError}
    (refused : Repository.Refused faults threshold log before error) (calm : faults.Calm) :
    ∃ id, (log.violations before).head? = some id ∧ error = .notFound (.node id) := by
  cases refused with
  | @deleting early late node now listed deleted withheld =>
      obtain ⟨absent, rfl⟩ := withheld.of_calm calm
      refine ⟨node.id, ?_, rfl⟩
      rw [ChangeLog.violations, listed, List.map_append, Contents.undeletable_of_chain _ deleted,
        List.map_cons, ChangeLog.undeletable, absent]
      rfl
  | @staging cleared early late change draft deleted listed made due withheld =>
      obtain ⟨absent, rfl⟩ := withheld.of_calm calm
      refine ⟨change.node, ?_, rfl⟩
      have clear := Contents.undeletable_of_chain [] deleted
      rw [List.append_nil] at clear
      have unavailable : ¬ log.Available before change.node := by
        rw [← Draft.start_available deleted, ← Change.present_of_chain made, absent]
        exact Bool.false_ne_true
      -- The changes that were made before it have found their owners.
      have earlier : ((early.filter (fun change => decide (log.Due change))).map Change.node).find?
          (fun id => !decide (log.Available before id)) = none := by
        rw [List.find?_eq_none]
        intro id member
        obtain ⟨other, listed, rfl⟩ := List.mem_map.mp member
        obtain ⟨made_before, others⟩ := List.mem_filter.mp listed
        simp [ChangeLog.available_of_chain deleted made made_before (of_decide_eq_true others)]
      rw [ChangeLog.violations, clear, ChangeLog.undeletable, List.nil_append, List.head?_filter,
        ChangeLog.owners_eq, listed, List.filter_append, List.map_append, List.find?_append, earlier,
        Option.none_or, List.filter_cons, if_pos (decide_eq_true due), List.map_cons,
        List.find?_cons_of_pos (by simp [unavailable])]

end

/-! ### The store -/

namespace System

/-- If every call is answered, a store succeeds just when nothing stands in the way of its log: the
deleted nodes are distinct and have records, and the owners of all that is changed are added by the
log, or have records and are not deleted. Otherwise it fails with the first node that is in the way,
in the order of deleted nodes, modified nodes, modified properties, deleted properties and added
properties. -/
theorem result_of_store (backend : Backend) (system : System backend) (reachable : system.Reachable)
    (threshold : Nat) (log : ChangeLog)
    (unfailing : (Repository.store threshold log).Unfailing serve system = true) :
    (((Repository.store threshold log).run serve system).1 = .ok () ↔
      log.Applicable system.contents) ∧
    (¬ log.Applicable system.contents → ∃ id,
      (log.violations system.contents).head? = some id ∧
      ((Repository.store threshold log).run serve system).1 = .error (.notFound (.node id))) := by
  have met := (Repository.store_denials Faults.never threshold log).run_unfailing
    reachable.atRest.1 trivial unfailing
  obtain ⟨next, _sound, outcome⟩ := met
  cases result : ((Repository.store threshold log).run serve system).1 with
  | ok _unit =>
      rw [result] at outcome
      have applicable := outcome.2.applicable
      exact ⟨iff_of_true rfl applicable, fun inapplicable => absurd applicable inapplicable⟩
  | error error =>
      rw [result] at outcome
      obtain ⟨_free, _abandoned, denied⟩ := outcome
      have refused : Repository.Refused Faults.never threshold log system.contents error := by
        cases denied with
        | refused refused => exact refused
        | halted _drawn halted =>
            obtain ⟨_call, _cause, _contents, _same, fault, _writes⟩ := halted
            exact fault.elim
      obtain ⟨id, first, rfl⟩ := refused.first Faults.never_calm
      refine ⟨iff_of_false (fun impossible => by cases impossible) (fun applicable => ?_),
        fun _inapplicable => ⟨id, first, rfl⟩⟩
      rw [ChangeLog.violations_eq_nil.mpr applicable] at first
      cases first

/-- The letter is rewritten though its node is deleted, and written for a node that is not there. -/
def tangledLog : ChangeLog :=
  { strayLog with
    modified := [.property (Property.single letter (.long 5))]
    deleted := [.node (Node.fresh NodeId.zero Name.unstructured none)] }

set_option maxRecDepth 2500 in
/-- Of the two nodes in the way of the log, the deleted one comes first. -/
theorem tangled_refused :
    tangledLog.violations afterLetter.contents = [NodeId.zero, other] ∧
      ((Repository.store 2 tangledLog).run serve afterLetter).1 =
        .error (.notFound (.node NodeId.zero)) := by
  have inTheWay : tangledLog.violations afterLetter.contents = [NodeId.zero, other] := by
    decide +kernel
  obtain ⟨id, first, named⟩ := (result_of_store MemoryStorage.backend afterLetter
    afterLetter_reachable 2 tangledLog (by decide +kernel)).2 (by decide +kernel)
  rw [inTheWay] at first
  obtain rfl : NodeId.zero = id := Option.some.inj first
  exact ⟨inTheWay, named⟩

end System

end BundleStore
