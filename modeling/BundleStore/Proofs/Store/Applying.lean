import BundleStore.Proofs.Store.Staging

set_option autoImplicit false

/-! What applying a change log comes to, from the deletion of nodes to the reference lists, and what
a store comes to that fails on the way. -/

namespace BundleStore

/-- The calls that write reference lists. -/
def StorageCall.lists : StorageCall → Bool
  | .storeReferences _ | .destroyReferences _ => true
  | _ => false

/-- The node cannot be deleted: what is said of that, and what is left. -/
def Contents.RefusesDeletion (faults : Faults) (node : Node) (before : Contents)
    (left : RepositoryError × Contents) : Prop :=
  Withheld faults node.id (before.bundles node.id) left.1 ∧
    Contents.DeletesHalf node before left.2

/-- The bundle cannot be written. -/
def Contents.RefusesBundle (faults : Faults) (bundle : Bundle) (before : Contents)
    (left : RepositoryError × Contents) : Prop :=
  (∃ cause, left.1 = .storage cause ∧ faults (.storeBundle bundle) cause before) ∧
    Contents.WritesHalf bundle before left.2

/-- The reference list cannot be written. -/
def Contents.RefusesList (faults : Faults) (references : References) (before : Contents)
    (left : RepositoryError × Contents) : Prop :=
  (∃ call cause, StorageCall.lists call = true ∧ left.1 = .storage cause ∧
    faults call cause before) ∧ Contents.ListsHalf references before left.2

namespace Repository

variable {faults : Faults} {contents : Contents}

theorem repositoryCall_writing {call : StorageCall} {now : Moment}
    {ends : call.Result → Moment → Prop} {fails : RepositoryError → Moment → Prop}
    (permits : now.Permits (.storage call))
    (answered : ∀ value after, call.Does value now.contents after →
      ends value ⟨now.stage.after (.storage call) (.ok value), after⟩)
    (failed : ∀ error after, faults call error now.contents → call.Fails now.contents after →
      fails (.storage error) ⟨now.stage.after (.storage call) (.error error), after⟩) :
    (Repository.call call).Meets (writing faults) ends fails now := by
  rw [Repository.call, Task.meets_mapError]
  exact writing_call permits answered failed

/-- The record of a deleted node goes first; when the node is cached as missing, its blobs have
been released. -/
theorem deleteNode_writing (node : Node) :
    (deleteNode node).Meets (writing faults)
      (fun _ next => next.stage = .free ∧ Contents.Deletes faults node contents next.contents)
      (fun error next => Contents.RefusesDeletion faults node contents (error, next.contents))
      ⟨.free, contents⟩ := by
  rw [deleteNode, Task.meets_bind]
  refine (fetchNode_writing node.id).mono writing_monotone ?_
    (fun _error _next failed => ⟨failed.2, Or.inl failed.1⟩)
  intro bundle next met
  obtain ⟨rfl, _ready, held⟩ := met
  have named : bundle.record.id = node.id := contents.filed held
  rw [show bundle.id = node.id from named, Task.meets_bind]
  refine repositoryCall_writing rfl (fun _unit after does => ?_) (fun error after fault fails => ?_)
  · obtain rfl := does
    rw [Task.meets_bind]
    refine bundle.releaseBlobs_writing.mono writing_monotone ?_ (fun _error _next never => never.elim)
    intro _unit reached met
    obtain ⟨_stage, after⟩ := reached
    obtain ⟨rfl, released⟩ := met
    have absent : after.bundles node.id = none := by
      rw [released.bundles]
      exact Function.update_self ..
    refine writing_cache ⟨rfl, absent⟩ (fun _unit last does => ?_)
    obtain rfl := does
    exact ⟨rfl, bundle.record, held, released⟩
  · refine ⟨.fault ⟨_, _, rfl, fault⟩, ?_⟩
    rcases fails with same | ⟨_unchecked, _unit, does⟩
    · exact Or.inl same
    · exact Or.inr does

theorem deleteNodes_writing (nodes : List Node) (gone : SortedSet NodeId) (contents : Contents) :
    (deleteNodes nodes gone).Meets (writing faults)
      (fun all next => next.stage = .free ∧
        Chain (Contents.Deletes faults) nodes contents next.contents ∧
        ∀ id, all.contains id = true ↔ gone.contains id = true ∨ ∃ node ∈ nodes, node.id = id)
      (fun error next =>
        Breaks (Contents.Deletes faults) (Contents.RefusesDeletion faults) nodes contents
          (error, next.contents))
      ⟨.free, contents⟩ := by
  induction nodes generalizing gone contents with
  | nil => exact ⟨rfl, Chain.nil contents, fun id => by simp⟩
  | cons node rest ih =>
      rw [deleteNodes, Task.meets_bind]
      refine (deleteNode_writing node).mono writing_monotone ?_
        (fun _error _next half => Breaks.here half)
      intro _unit reached met
      obtain ⟨_stage, next⟩ := reached
      obtain ⟨rfl, deletes⟩ := met
      refine (ih (SortedSet.add gone node.id) next).mono writing_monotone ?_
        (fun _error _last cut => Breaks.later deletes cut)
      intro all last met
      obtain ⟨free, chain, members⟩ := met
      refine ⟨free, Chain.cons deletes chain, fun id => ?_⟩
      rw [members, SortedSet.add, SortedMap.contains_insert]
      simp only [List.mem_cons, exists_eq_or_imp]
      constructor
      · intro either
        rcases either with (same | before) | later
        · exact Or.inr (Or.inl same.symm)
        · exact Or.inl before
        · exact Or.inr (Or.inr later)
      · intro either
        rcases either with before | same | later
        · exact Or.inl (Or.inr before)
        · exact Or.inl (Or.inl same.symm)
        · exact Or.inr later

theorem warnParent_writing (gone : SortedSet NodeId) (staged : Staged) (node : Node)
    (now : Moment) :
    (warnParent gone staged node).Meets (writing faults) (fun _ next => next = now)
      (fun _ _ => False) now := by
  rw [warnParent]
  split
  · rfl
  · split
    · rfl
    · exact writing_warn rfl

theorem warnParents_writing (gone : SortedSet NodeId) (staged : Staged) (nodes : List Node)
    (now : Moment) :
    (nodes.forM (warnParent gone staged)).Meets (writing faults) (fun _ next => next = now)
      (fun _ _ => False) now := by
  refine Task.keeps_forM writing_monotone (fun node _member next same => ?_) rfl
  subst same
  exact warnParent_writing gone staged node next

/-- A written bundle is refreshed in the cache before anything else is done with bundles. -/
theorem writeBundle_writing (bundle : Bundle) (computed : bundle.Computed) :
    (writeBundle bundle).Meets (writing faults)
      (fun _ next => next.stage = .free ∧ Contents.Writes bundle contents next.contents)
      (fun error next => Contents.RefusesBundle faults bundle contents (error, next.contents))
      ⟨.free, contents⟩ := by
  rw [writeBundle, Task.meets_bind]
  refine repositoryCall_writing rfl (fun _unit after does => ?_) (fun error after fault fails => ?_)
  · obtain rfl := does
    rw [Task.meets_bind]
    have held : (contents.holding bundle).bundles bundle.id = some bundle.record :=
      Function.update_self ..
    refine writing_cache ⟨rfl, ⟨rfl, computed⟩, held⟩ (fun _kept after does => ?_)
    obtain rfl := does
    exact ⟨rfl, rfl⟩
  · refine ⟨⟨error, rfl, fault⟩, ?_⟩
    rcases fails with same | ⟨_unchecked, _unit, does⟩
    · exact Or.inl same
    · exact Or.inr does

theorem listCall_writing {references : References} {stage : Stage} {call : StorageCall}
    (list : call.lists = true)
    (lists : ∀ {value after}, call.Does value contents after →
      Contents.Lists references contents after) :
    (Repository.call call).Meets (writing faults)
      (fun _ next => next.stage = stage ∧ Contents.Lists references contents next.contents)
      (fun error next => Contents.RefusesList faults references contents (error, next.contents))
      ⟨stage, contents⟩ := by
  have permits : (Moment.mk stage contents).Permits (.storage call) := by
    cases call with
    | storeReferences references => trivial
    | destroyReferences target => trivial
    | _ => cases list
  have aside (result) : stage.after (.storage call) result = stage := by
    cases call with
    | storeReferences references => rfl
    | destroyReferences target => rfl
    | _ => cases list
  refine repositoryCall_writing permits (fun _value _after does => ⟨aside _, lists does⟩)
    (fun error after fault fails => ⟨⟨call, error, list, rfl, fault⟩, ?_⟩)
  rcases fails with same | ⟨_unchecked, _value, does⟩
  · exact Or.inl same
  · exact Or.inr (lists does)

theorem writeReferences_writing (references : References) {stage : Stage} :
    (writeReferences references).Meets (writing faults)
      (fun _ next => next.stage = stage ∧ Contents.Lists references contents next.contents)
      (fun error next => Contents.RefusesList faults references contents (error, next.contents))
      ⟨stage, contents⟩ := by
  rw [writeReferences]
  split
  · rename_i empty
    refine listCall_writing rfl (fun does => ?_)
    rw [Contents.Lists, if_pos empty]
    exact does
  · rename_i filled
    refine listCall_writing rfl (fun does => ?_)
    rw [Contents.Lists, if_neg filled]
    exact does

/-- The staged bundles, as listed, are what is seen as staged. -/
theorem seen_gives {staged : Staged} {now : Moment} (inOrder : InOrder staged now) :
    (seen staged now).Gives staged.values := by
  intro id record
  change (staged.find? id).map Bundle.record = some record ↔ _
  rw [Option.map_eq_some_iff]
  constructor
  · intro met
    obtain ⟨bundle, found, recorded⟩ := met
    exact ⟨bundle, SortedMap.mem_values.mpr ⟨id, found⟩, inOrder.filed found, recorded⟩
  · intro met
    obtain ⟨bundle, member, named, recorded⟩ := met
    obtain ⟨key, found⟩ := SortedMap.mem_values.mp member
    have same : key = id := (inOrder.filed found).symm.trans named
    exact ⟨bundle, same ▸ found, recorded⟩

/-! ### Before and after the first staged bundle is written -/

/-- All that comes before: nodes are deleted, and changes are staged. -/
def draw (threshold : Nat) (log : ChangeLog) :
    Task RepositoryError (SortedSet NodeId × Staged) := do
  let gone ← deleteNodes log.deletedNodes SortedMap.empty
  let staged ← stageChanges threshold log gone
  return (gone, staged)

def settle (log : ChangeLog) (gone : SortedSet NodeId) (staged : Staged) :
    Task RepositoryError Unit := do
  log.deletedNodes.forM (warnParent gone staged)
  staged.values.forM writeBundle
  log.references.forM writeReferences

theorem apply_eq (threshold : Nat) (log : ChangeLog) :
    apply threshold log = draw threshold log >>= fun drawn => settle log drawn.1 drawn.2 := by
  simp only [apply, draw, settle, bind_assoc, pure_bind]

/-- What there is when everything is staged and nothing is written. -/
structure Drawn (faults : Faults) (threshold : Nat) (log : ChangeLog) (before : Contents)
    (staged : Staged) (now : Moment) (cleared : Contents) : Prop where
  inOrder : InOrder staged now
  deleted : Chain (Contents.Deletes faults) log.deletedNodes before cleared
  made : Chain (Change.Makes faults threshold log.Deletes) log.changes
    (Draft.start log.addedNodes cleared) (seen staged now)

/-- What is left when it does not come to that. -/
inductive Undrawn (faults : Faults) (threshold : Nat) (log : ChangeLog) (before after : Contents) :
    Prop where
  | deleting
      (cut : Breaks (Contents.Deletes faults) Contents.DeletesHalf log.deletedNodes before after)
  | staging (cleared : Contents)
      (deleted : Chain (Contents.Deletes faults) log.deletedNodes before cleared)
      (cut : Breaks (Change.Makes faults threshold log.Deletes) (Change.Spoils faults)
        log.changes (Draft.start log.addedNodes cleared) after)

/-- Why it does not come to that: the bundle of a node that is to be deleted or changed cannot be
had, or not be changed, when its turn comes. -/
inductive Refused (faults : Faults) (threshold : Nat) (log : ChangeLog) (before : Contents)
    (error : RepositoryError) : Prop where
  | deleting {early late : List Node} {node : Node} {now : Contents}
      (listed : log.deletedNodes = early ++ node :: late)
      (deleted : Chain (Contents.Deletes faults) early before now)
      (withheld : Withheld faults node.id (now.bundles node.id) error)
  | staging {cleared : Contents} {early late : List Change} {change : Change} {draft : Draft}
      (deleted : Chain (Contents.Deletes faults) log.deletedNodes before cleared)
      (listed : log.changes = early ++ change :: late)
      (made : Chain (Change.Makes faults threshold log.Deletes) early
        (Draft.start log.addedNodes cleared) draft)
      (due : ¬ change.Passed log.Deletes)
      (withheld : Withheld faults change.node (draft.bundle? change.node) error)

theorem draw_refusals (threshold : Nat) (log : ChangeLog) :
    (draw threshold log).Meets (writing faults)
      (fun drawn next => ∃ cleared, Drawn faults threshold log contents drawn.2 next cleared)
      (fun error next => Undrawn faults threshold log contents next.contents ∧
        Refused faults threshold log contents error)
      ⟨.free, contents⟩ := by
  rw [draw, Task.meets_bind]
  refine (deleteNodes_writing log.deletedNodes SortedMap.empty contents).mono writing_monotone ?_ ?_
  · intro gone reached met
    obtain ⟨_stage, cleared⟩ := reached
    obtain ⟨rfl, deleted, members⟩ := met
    have isGone : (fun id => gone.contains id = true) = log.Deletes := by
      funext id
      refine propext ((members id).trans ⟨fun either => either.resolve_left ?_, Or.inr⟩)
      exact Bool.false_ne_true
    rw [Task.meets_bind]
    have stages := stageChanges_writing faults threshold log gone cleared
    rw [isGone] at stages
    refine stages.mono writing_monotone ?_ ?_
    · intro staged next met
      exact ⟨cleared, met.1, deleted, met.2⟩
    · intro error next cut
      obtain ⟨early, change, late, draft, listed, made, due, withheld, _spoils⟩ := cut.cut
      exact ⟨Undrawn.staging cleared deleted (cut.weaken (fun _change _draft refuses => refuses.2.2)),
        Refused.staging deleted listed made due withheld⟩
  · intro error next cut
    obtain ⟨early, node, late, now, listed, deleted, withheld, _half⟩ := cut.cut
    exact ⟨Undrawn.deleting (cut.weaken (fun _node _now refuses => refuses.2)),
      Refused.deleting listed deleted withheld⟩

theorem draw_writing (threshold : Nat) (log : ChangeLog) :
    (draw threshold log).Meets (writing faults)
      (fun drawn next => ∃ cleared, Drawn faults threshold log contents drawn.2 next cleared)
      (fun _error next => Undrawn faults threshold log contents next.contents)
      ⟨.free, contents⟩ :=
  (draw_refusals threshold log).mono writing_monotone (fun _drawn _next met => met)
    (fun _error _next refused => refused.1)

/-- The staged bundles are written one after another, and then the reference lists. -/
inductive Settled (log : ChangeLog) (bundles : List Bundle) (before after : Contents) : Prop where
  | intro (written : Contents) (wrote : Chain Contents.Writes bundles before written)
      (listed : Chain Contents.Lists log.references written after)

inductive Unsettled (log : ChangeLog) (bundles : List Bundle) (before after : Contents) : Prop where
  | writing (cut : Breaks Contents.Writes Contents.WritesHalf bundles before after)
  | listing (written : Contents) (wrote : Chain Contents.Writes bundles before written)
      (cut : Breaks Contents.Lists Contents.ListsHalf log.references written after)

/-- Why the bundles and lists are not all written: one of the calls that write them has failed. -/
def Halted (faults : Faults) (bundles : List Bundle) (error : RepositoryError) : Prop :=
  ∃ call cause contents, error = .storage cause ∧ faults call cause contents ∧
    ((∃ bundle ∈ bundles, call = .storeBundle bundle) ∨ call.lists = true)

theorem writeBundles_halts {bundles : List Bundle}
    (computed : ∀ bundle ∈ bundles, bundle.Computed) :
    (bundles.forM writeBundle).Meets (writing faults)
      (fun _ next => next.stage = .free ∧ Chain Contents.Writes bundles contents next.contents)
      (fun error next => Breaks Contents.Writes Contents.WritesHalf bundles contents next.contents ∧
        Halted faults bundles error) ⟨.free, contents⟩ := by
  refine (writing_forM (Contents.RefusesBundle faults)
    (fun bundle member _held => writeBundle_writing bundle (computed bundle member))
    contents).mono writing_monotone (fun _unit _next met => met) ?_
  intro error next cut
  obtain ⟨early, bundle, late, now, listed, _wrote, ⟨cause, same, fault⟩, _half⟩ := cut.cut
  refine ⟨cut.weaken (fun _bundle _now refuses => refuses.2),
    .storeBundle bundle, cause, now, same, fault, Or.inl ⟨bundle, ?_, rfl⟩⟩
  rw [listed]
  exact List.mem_append_right _ List.mem_cons_self

theorem writeLists_halts (lists : List References) (bundles : List Bundle) {stage : Stage} :
    (lists.forM writeReferences).Meets (writing faults)
      (fun _ next => next.stage = stage ∧ Chain Contents.Lists lists contents next.contents)
      (fun error next => Breaks Contents.Lists Contents.ListsHalf lists contents next.contents ∧
        Halted faults bundles error) ⟨stage, contents⟩ := by
  refine (writing_forM (Contents.RefusesList faults)
    (fun references _member _held => writeReferences_writing references)
    contents).mono writing_monotone (fun _unit _next met => met) ?_
  intro error next cut
  obtain ⟨_early, _references, _late, now, _listed, _wrote, ⟨call, cause, list, same, fault⟩,
    _half⟩ := cut.cut
  exact ⟨cut.weaken (fun _list _now refuses => refuses.2), call, cause, now, same, fault,
    Or.inr list⟩

theorem settle_halts (log : ChangeLog) (gone : SortedSet NodeId) {staged : Staged} {now : Moment}
    (inOrder : InOrder staged now) :
    (settle log gone staged).Meets (writing faults)
      (fun _ next => next.stage = .free ∧ Settled log staged.values now.contents next.contents)
      (fun error next => Unsettled log staged.values now.contents next.contents ∧
        Halted faults staged.values error) now := by
  obtain ⟨_stage, drafted⟩ := now
  obtain rfl := inOrder.free
  have computed : ∀ bundle ∈ staged.values, bundle.Computed := by
    intro bundle member
    obtain ⟨id, found⟩ := SortedMap.mem_values.mp member
    exact inOrder.computed found
  rw [settle, Task.meets_bind]
  refine (warnParents_writing gone staged log.deletedNodes _).mono writing_monotone ?_
    (fun _error _next never => never.elim)
  intro _unit _next same
  subst same
  rw [Task.meets_bind]
  refine (writeBundles_halts computed).mono writing_monotone ?_
    (fun _error _next halted => ⟨Unsettled.writing halted.1, halted.2⟩)
  intro _unit reached met
  obtain ⟨_stage, written⟩ := reached
  obtain ⟨rfl, wrote⟩ := met
  refine (writeLists_halts log.references staged.values).mono writing_monotone ?_
    (fun _error _next halted => ⟨Unsettled.listing written wrote halted.1, halted.2⟩)
  intro _unit next met
  exact ⟨met.1, Settled.intro written wrote met.2⟩

theorem settle_writing (log : ChangeLog) (gone : SortedSet NodeId) {staged : Staged} {now : Moment}
    (inOrder : InOrder staged now) :
    (settle log gone staged).Meets (writing faults)
      (fun _ next => next.stage = .free ∧ Settled log staged.values now.contents next.contents)
      (fun _error next => Unsettled log staged.values now.contents next.contents) now :=
  (settle_halts log gone inOrder).mono writing_monotone (fun _unit _next met => met)
    (fun _error _next halted => halted.1)

/-- Why a store fails: the log cannot be drawn, or what is drawn cannot all be written. -/
inductive Denied (faults : Faults) (threshold : Nat) (log : ChangeLog) (before : Contents)
    (error : RepositoryError) : Prop where
  | refused (refused : Refused faults threshold log before error)
  | halted {staged : Staged} {reached : Moment} {cleared : Contents}
      (drawn : Drawn faults threshold log before staged reached cleared)
      (halted : Halted faults staged.values error)

theorem apply_writing (threshold : Nat) (log : ChangeLog) :
    (apply threshold log).Meets (writing faults)
      (fun _ next => next.stage = .free ∧ Applied faults threshold log contents next.contents)
      (fun error next => Abandoned faults threshold log contents next.contents ∧
        Denied faults threshold log contents error)
      ⟨.free, contents⟩ := by
  rw [apply_eq, Task.meets_bind]
  refine (draw_refusals threshold log).mono writing_monotone ?_ ?_
  · intro ⟨gone, staged⟩ now met
    obtain ⟨cleared, drawn⟩ := met
    obtain ⟨inOrder, deleted, made⟩ := drawn
    have gives := seen_gives inOrder
    refine (settle_halts log gone inOrder).mono writing_monotone ?_ ?_
    · intro _unit next met
      obtain ⟨free, written, wrote, listed⟩ := met
      exact ⟨free, Applied.intro cleared _ _ written deleted made gives wrote listed⟩
    · intro _error next failed
      obtain ⟨cut, halted⟩ := failed
      refine ⟨?_, Denied.halted ⟨inOrder, deleted, made⟩ halted⟩
      cases cut with
      | writing cut => exact Abandoned.writing cleared _ _ deleted made gives cut
      | listing written wrote cut =>
          exact Abandoned.listing cleared _ _ written deleted made gives wrote cut
  · intro _error next failed
    obtain ⟨cut, refused⟩ := failed
    refine ⟨?_, Denied.refused refused⟩
    cases cut with
    | deleting cut => exact Abandoned.deleting cut
    | staging cleared deleted cut => exact Abandoned.staging cleared deleted cut

/-- What a store comes to, and why it fails if it does. -/
theorem store_denials (faults : Faults) (threshold : Nat) (log : ChangeLog) :
    (store threshold log).Meets (writing faults)
      (fun _ next => next.stage = .free ∧ Applied faults threshold log contents next.contents)
      (fun error next => next.stage = .free ∧
        Abandoned faults threshold log contents next.contents ∧
        Denied faults threshold log contents error)
      ⟨.free, contents⟩ := by
  rw [store, Task.meets_orElse]
  refine (apply_writing threshold log).mono writing_monotone (fun _unit _next met => met) ?_
  intro error ⟨_stage, after⟩ failed
  rw [Task.meets_bind]
  refine writing_cache trivial (fun _unit last does => ?_)
  obtain rfl := does
  rw [Task.meets_bind]
  exact writing_warn ⟨rfl, failed⟩

theorem store_writing (faults : Faults) (threshold : Nat) (log : ChangeLog) :
    (store threshold log).Meets (writing faults)
      (fun _ next => next.stage = .free ∧ Applied faults threshold log contents next.contents)
      (fun _error next => next.stage = .free ∧
        Abandoned faults threshold log contents next.contents)
      ⟨.free, contents⟩ :=
  (store_denials faults threshold log).mono writing_monotone (fun _unit _next met => met)
    (fun _error _next failed => ⟨failed.1, failed.2.1⟩)

end Repository

end BundleStore
