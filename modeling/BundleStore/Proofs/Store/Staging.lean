import BundleStore.Proofs.Store.Entries
import BundleStore.Proofs.Store.Writing
import BundleStore.Repository.Store

set_option autoImplicit false

/-! What staging a change log comes to: the changes to the staged bundles, one after another, as
they are seen in the records to be written. -/

namespace BundleStore

namespace Change

/-- The change is none: an identity property is put, or something is dropped from a node that is
gone. -/
def Passed (gone : NodeId → Prop) : Change → Prop
  | .update _ => False
  | .put state => state.id.name.isIdentity = true
  | .drop state => gone state.id.node

/-- The change cannot be made: what is said of that, and what is left. -/
def Refuses (faults : Faults) (gone : NodeId → Prop) (change : Change) (before : Draft)
    (left : RepositoryError × Contents) : Prop :=
  ¬ change.Passed gone ∧ Withheld faults change.node (before.bundle? change.node) left.1 ∧
    change.Spoils faults before left.2

end Change

variable {faults : Faults} {contents : Contents}

namespace Repository

/-- Between two passes of staging the cache is owed nothing, and every staged bundle is its node's
and has computed nothing but what its header gives. -/
structure InOrder (staged : Staged) (now : Moment) : Prop where
  free : now.stage = .free
  filed : ∀ {id bundle}, staged.find? id = some bundle → bundle.id = id
  computed : ∀ {id bundle}, staged.find? id = some bundle → bundle.Computed

/-- What there is to see of the staged bundles. -/
def seen (staged : Staged) (now : Moment) : Draft :=
  ⟨fun id => (staged.find? id).map Bundle.record, now.contents⟩

theorem seen_insert (staged : Staged) (id : NodeId) (bundle : Bundle) (now : Moment) :
    (seen (staged.insert id bundle) now).staged =
      Function.update (fun id => (staged.find? id).map Bundle.record) id (some bundle.record) := by
  funext other
  change (SortedMap.find? _ other).map _ = _
  by_cases same : other = id
  · rw [same, SortedMap.find?_insert_self, Function.update_self]
    rfl
  · rw [SortedMap.find?_insert_of_ne _ same, Function.update_of_ne same]

theorem InOrder.insert {staged : Staged} {now next : Moment} (inOrder : InOrder staged now)
    (free : next.stage = .free) {id : NodeId} {bundle : Bundle} (filed : bundle.id = id)
    (computed : bundle.Computed) : InOrder (staged.insert id bundle) next := by
  have either {other : NodeId} {held : Bundle}
      (found : (staged.insert id bundle).find? other = some held) :
      held.id = other ∧ held.Computed := by
    by_cases same : other = id
    · rw [same, SortedMap.find?_insert_self] at found
      rw [← Option.some.inj found, same]
      exact ⟨filed, computed⟩
    · rw [SortedMap.find?_insert_of_ne _ same] at found
      exact ⟨inOrder.filed found, inOrder.computed found⟩
  exact ⟨free, fun found => (either found).1, fun found => (either found).2⟩

theorem stagedBundle_writing {staged : Staged} (inOrder : InOrder staged ⟨.free, contents⟩)
    (id : NodeId) :
    (stagedBundle staged id).Meets (writing faults)
      (fun bundle next => next = ⟨.free, contents⟩ ∧ bundle.id = id ∧ bundle.Computed ∧
        (seen staged ⟨.free, contents⟩).bundle? id = some bundle.record)
      (fun error next => next.contents = contents ∧
        Withheld faults id ((seen staged ⟨.free, contents⟩).bundle? id) error)
      ⟨.free, contents⟩ := by
  have view : (seen staged ⟨.free, contents⟩).bundle? id =
      ((staged.find? id).map Bundle.record).or (contents.bundles id) := rfl
  rw [stagedBundle, view]
  cases found : staged.find? id with
  | some bundle => exact ⟨rfl, inOrder.filed found, inOrder.computed found, rfl⟩
  | none =>
      refine (fetchNode_writing id).mono writing_monotone ?_ (fun _error _next same => same)
      intro bundle next met
      obtain ⟨rfl, ready, held⟩ := met
      have named : bundle.record.id = id := contents.filed held
      exact ⟨rfl, named, ready.computed, held⟩

/-- What each pass of staging comes to; the error stands beside what is left. -/
abbrev Staging (faults : Faults) (pass : Draft → Draft → Prop)
    (refuses : Draft → RepositoryError × Contents → Prop) (staged : Staged) (now : Moment)
    (task : Task RepositoryError Staged) : Prop :=
  task.Meets (writing faults)
    (fun next after => InOrder next after ∧ pass (seen staged now) (seen next after))
    (fun error after => refuses (seen staged now) (error, after.contents)) now

theorem updateNode_writing {threshold : Nat} {gone : NodeId → Prop} {staged : Staged} {now : Moment}
    (inOrder : InOrder staged now) (node : Node) :
    Staging faults ((Change.update node).Makes faults threshold gone)
      ((Change.update node).Refuses faults gone) staged now (updateNode staged node) := by
  obtain ⟨_stage, contents⟩ := now
  obtain rfl := inOrder.free
  rw [Staging, updateNode, Task.meets_bind]
  refine (stagedBundle_writing inOrder node.id).mono writing_monotone ?_
    (fun _error _next failed => ⟨fun passed => passed, failed.2, failed.1⟩)
  intro bundle next met
  obtain ⟨rfl, named, _computed, held⟩ := met
  refine ⟨inOrder.insert rfl named (fun name state found => by cases found), bundle.record, held, ?_⟩
  exact congrArg (Draft.mk · contents)
    (seen_insert staged node.id (bundle.update node) ⟨.free, contents⟩)

theorem putProperty_writing {threshold : Nat} {gone : NodeId → Prop} {staged : Staged} {now : Moment}
    (inOrder : InOrder staged now) {state : Property} (plain : state.id.name.isIdentity = false) :
    Staging faults (Change.Puts faults threshold state) ((Change.put state).Refuses faults gone)
      staged now (putProperty threshold staged state) := by
  have stands : ¬ (Change.put state).Passed gone := Bool.eq_false_iff.mp plain
  obtain ⟨_stage, contents⟩ := now
  obtain rfl := inOrder.free
  rw [Staging, putProperty, Task.meets_bind]
  refine (stagedBundle_writing inOrder state.id.node).mono writing_monotone ?_
    (fun _error _next failed => ⟨stands, failed.2, Or.inl failed.1⟩)
  intro bundle next met
  obtain ⟨rfl, named, computed, held⟩ := met
  rw [Task.meets_bind]
  refine (bundle.addProperty_writing threshold plain).mono writing_monotone ?_
    (fun _error _next never => never.elim)
  intro met other further
  obtain ⟨result, added⟩ := met
  obtain ⟨stage, after⟩ := other
  obtain ⟨released, releasedBlobs, outcome⟩ := further
  cases result with
  | error error =>
      exact ⟨stands, .fault outcome.2,
        Or.inr ⟨plain, bundle.record, released, held, releasedBlobs, outcome.1⟩⟩
  | ok _unit =>
      obtain ⟨free, stored, touched, keeps, rfl⟩ := outcome
      refine ⟨inOrder.insert free named computed, bundle.record, released, stored, held,
        releasedBlobs, touched, keeps, ?_⟩
      exact seen_insert staged state.id.node (bundle.withProperty state.id.name stored) _

theorem warnUnlessStaged_writing (staged : Staged) {now : Moment} (node : NodeId)
    (warning : Warning) :
    (warnUnlessStaged staged node warning).Meets (writing faults) (fun _ next => next = now)
      (fun _ _ => False) now := by
  rw [warnUnlessStaged]
  split
  · rfl
  · exact writing_warn rfl

theorem dropProperty_writing {threshold : Nat} {gone : SortedSet NodeId} {staged : Staged}
    {now : Moment} (inOrder : InOrder staged now) (state : Property) :
    Staging faults ((Change.drop state).Makes faults threshold (fun id => gone.contains id = true))
      ((Change.drop state).Refuses faults (fun id => gone.contains id = true)) staged now
      (dropProperty gone staged state) := by
  rw [Staging, dropProperty]
  split
  · rename_i deleted
    exact ⟨inOrder, Or.inl ⟨deleted, rfl⟩⟩
  · rename_i stays
    obtain ⟨_stage, contents⟩ := now
    obtain rfl := inOrder.free
    rw [Task.meets_bind]
    refine (warnUnlessStaged_writing staged state.id.node _).mono writing_monotone ?_
      (fun _error _next never => never.elim)
    intro _unit next same
    subst same
    rw [Task.meets_bind]
    refine (stagedBundle_writing inOrder state.id.node).mono writing_monotone ?_
      (fun _error _next failed => ⟨stays, failed.2, failed.1⟩)
    intro bundle next met
    obtain ⟨rfl, named, computed, held⟩ := met
    rw [Task.meets_bind]
    refine (bundle.removeProperty_writing state.id.name).mono writing_monotone ?_
      (fun _error _next never => never.elim)
    intro met next other
    obtain ⟨_old, cleared⟩ := met
    obtain ⟨free, rfl, released⟩ := other
    refine ⟨inOrder.insert free named computed, Or.inr ⟨stays, bundle.record, held, released, ?_⟩⟩
    exact seen_insert staged state.id.node (bundle.withoutProperty state.id.name) next

/-- A property that is put is an identity property and passed over, or it is stored. -/
theorem put_writing {threshold : Nat} {gone : NodeId → Prop} {staged : Staged} {now : Moment}
    (inOrder : InOrder staged now) {state : Property} {task : Task RepositoryError Staged}
    (passed : state.id.name.isIdentity = true → task = pure staged)
    (puts : state.id.name.isIdentity = false → ∃ warned : Task RepositoryError Unit,
      warned.Meets (writing faults) (fun _ next => next = now) (fun _ _ => False) now ∧
      task = warned >>= fun _ => putProperty threshold staged state) :
    Staging faults ((Change.put state).Makes faults threshold gone)
      ((Change.put state).Refuses faults gone) staged now task := by
  cases plain : state.id.name.isIdentity with
  | true =>
      rw [passed plain]
      exact ⟨inOrder, Or.inl ⟨plain, rfl⟩⟩
  | false =>
      obtain ⟨warned, quiet, rfl⟩ := puts plain
      rw [Staging, Task.meets_bind]
      refine quiet.mono writing_monotone ?_ (fun _error _next never => never.elim)
      intro _unit next same
      subst same
      refine (putProperty_writing inOrder plain).mono writing_monotone ?_
        (fun _error _next refused => refused)
      intro next after met
      exact ⟨met.1, Or.inr ⟨plain, met.2⟩⟩

theorem modifyProperty_writing {threshold : Nat} {gone : NodeId → Prop} {staged : Staged}
    {now : Moment} (inOrder : InOrder staged now) (state : Property) :
    Staging faults ((Change.put state).Makes faults threshold gone)
      ((Change.put state).Refuses faults gone) staged now (modifyProperty threshold staged state) := by
  rw [modifyProperty]
  refine put_writing inOrder (fun identity => if_pos identity) (fun plain => ⟨pure (), rfl, ?_⟩)
  rw [plain]
  rfl

theorem addProperty_writing {threshold : Nat} {gone : NodeId → Prop} {staged : Staged}
    {now : Moment} (inOrder : InOrder staged now) (state : Property) :
    Staging faults ((Change.put state).Makes faults threshold gone)
      ((Change.put state).Refuses faults gone) staged now (addProperty threshold staged state) := by
  rw [addProperty]
  refine put_writing inOrder (fun identity => if_pos identity)
    (fun plain => ⟨_, warnUnlessStaged_writing staged state.id.node (.addedWithoutOwner state.id), ?_⟩)
  rw [plain]
  rfl

theorem staging_loop {β : Type} (threshold : Nat) (gone : NodeId → Prop) (change : β → Change)
    {body : Staged → β → Task RepositoryError Staged}
    (each : ∀ element staged now, InOrder staged now →
      Staging faults ((change element).Makes faults threshold gone)
        ((change element).Refuses faults gone) staged now (body staged element))
    (list : List β) {staged : Staged} {now : Moment} (inOrder : InOrder staged now) :
    Staging faults (Chain (Change.Makes faults threshold gone) (list.map change))
      (Breaks (Change.Makes faults threshold gone) (Change.Refuses faults gone) (list.map change))
      staged now (list.foldlM body staged) := by
  have loop := Task.meets_foldlM writing_monotone seen (fun error after => (error, after.contents))
    (fun element (_member : element ∈ list) staged now => each element staged now) inOrder
  refine loop.mono writing_monotone ?_ ?_
  · intro next after met
    exact ⟨met.1, met.2.map⟩
  · intro error after cut
    exact cut.map

theorem Staging.andThen {threshold : Nat} {gone : NodeId → Prop} {first second : List Change}
    {staged : Staged} {now : Moment} {task : Task RepositoryError Staged}
    {rest : Staged → Task RepositoryError Staged}
    (early : Staging faults (Chain (Change.Makes faults threshold gone) first)
      (Breaks (Change.Makes faults threshold gone) (Change.Refuses faults gone) first) staged now task)
    (late : ∀ {next after}, InOrder next after →
      Staging faults (Chain (Change.Makes faults threshold gone) second)
        (Breaks (Change.Makes faults threshold gone) (Change.Refuses faults gone) second) next after
        (rest next)) :
    Staging faults (Chain (Change.Makes faults threshold gone) (first ++ second))
      (Breaks (Change.Makes faults threshold gone) (Change.Refuses faults gone) (first ++ second))
      staged now (task >>= rest) := by
  rw [Staging, Task.meets_bind]
  refine early.mono writing_monotone ?_ (fun _error _after cut => cut.before)
  intro next after met
  refine (late met.1).mono writing_monotone ?_ (fun _error _after cut => met.2.breaks cut)
  intro last final further
  exact ⟨further.1, met.2.append further.2⟩

theorem stageAdded_inOrder (nodes : List Node) (contents : Contents) :
    InOrder (stageAdded nodes) ⟨.free, contents⟩ := by
  have kept (staged : Staged) (inOrder : InOrder staged ⟨.free, contents⟩) :
      InOrder (nodes.foldl (fun staged node => staged.insert node.id (Bundle.ofNode node)) staged)
        ⟨.free, contents⟩ := by
    induction nodes generalizing staged with
    | nil => exact inOrder
    | cons node rest ih =>
        exact ih _ (inOrder.insert rfl rfl (fun name state found => by cases found))
  exact kept SortedMap.empty ⟨rfl, (fun found => by cases found), (fun found => by cases found)⟩

theorem seen_stageAdded (nodes : List Node) (contents : Contents) :
    seen (stageAdded nodes) ⟨.free, contents⟩ = Draft.start nodes contents := by
  have same (staged : Staged) :
      (fun id => ((nodes.foldl (fun staged node =>
        staged.insert node.id (Bundle.ofNode node)) staged).find? id).map Bundle.record) =
      Draft.added nodes (fun id => (staged.find? id).map Bundle.record) := by
    induction nodes generalizing staged with
    | nil => rfl
    | cons node rest ih =>
        have inserted := seen_insert staged node.id (Bundle.ofNode node) ⟨.free, contents⟩
        exact (ih _).trans (congrArg (Draft.added rest) inserted)
  exact congrArg (Draft.mk · contents) (same SortedMap.empty)

theorem stageChanges_writing (faults : Faults) (threshold : Nat) (log : ChangeLog)
    (gone : SortedSet NodeId) (contents : Contents) :
    (stageChanges threshold log gone).Meets (writing faults)
      (fun staged next => InOrder staged next ∧
        Chain (Change.Makes faults threshold (fun id => gone.contains id = true)) log.changes
          (Draft.start log.addedNodes contents) (seen staged next))
      (fun error next =>
        Breaks (Change.Makes faults threshold (fun id => gone.contains id = true))
          (Change.Refuses faults (fun id => gone.contains id = true)) log.changes
          (Draft.start log.addedNodes contents) (error, next.contents))
      ⟨.free, contents⟩ := by
  have staging : Staging faults
      (Chain (Change.Makes faults threshold (fun id => gone.contains id = true)) log.changes)
      (Breaks (Change.Makes faults threshold (fun id => gone.contains id = true))
        (Change.Refuses faults (fun id => gone.contains id = true)) log.changes)
      (stageAdded log.addedNodes) ⟨.free, contents⟩ (stageChanges threshold log gone) := by
    rw [ChangeLog.changes, List.append_assoc, List.append_assoc]
    refine (staging_loop threshold _ Change.update (fun node staged now inOrder =>
      updateNode_writing inOrder node) log.modifiedNodes
      (stageAdded_inOrder log.addedNodes contents)).andThen (fun inOrder => ?_)
    refine (staging_loop threshold _ Change.put (fun state staged now inOrder =>
      modifyProperty_writing inOrder state) log.modifiedProperties inOrder).andThen
        (fun inOrder => ?_)
    refine (staging_loop threshold _ Change.drop (fun state staged now inOrder =>
      dropProperty_writing inOrder state) log.deletedProperties inOrder).andThen
        (fun inOrder => ?_)
    exact staging_loop threshold _ Change.put (fun state staged now inOrder =>
      addProperty_writing inOrder state) log.addedProperties inOrder
  rw [← seen_stageAdded]
  exact staging

end Repository

end BundleStore
