import BundleStore.Proofs.Coherence.Origins
import BundleStore.Proofs.Store.Remains

set_option autoImplicit false

/-! What is read while a store is on its way. Until everything is staged only deleted nodes lose
their records; after that every record is the old one or the one it is to be, and no blob changes
any more. A read goes by one of these records, which may already be another one in storage, and
takes the blobs as they are. -/

namespace BundleStore

/-! ### Broken off anywhere -/

/-- An action may always come to nothing. -/
theorem Moment.leads_nowhere (now : Moment) (action : Action) : ∃ result,
    now.Leads Faults.any action result ⟨now.stage.after action result, now.contents⟩ := by
  cases action with
  | warn warning => exact ⟨(), rfl, rfl⟩
  | storage call => exact ⟨.error (.injected call.name), rfl, trivial, Or.inl rfl⟩
  | cache step =>
      cases step with
      | lookup id => exact ⟨.unknown, rfl, rfl, trivial⟩
      | generation id => exact ⟨(0 : Nat), rfl, rfl⟩
      | fill id found generation => exact ⟨false, rfl, rfl⟩
      | refresh bundle => exact ⟨false, rfl, rfl⟩
      | put bundle => exact ⟨(), rfl, rfl⟩
      | putMissing id => exact ⟨(), rfl, rfl⟩
      | invalidate id => exact ⟨(), rfl, rfl⟩
      | clear => exact ⟨(), rfl, rfl⟩
      | keepComputed id before after => exact ⟨(), rfl, rfl⟩

/-- What can be said of the contents wherever the task ends can be said of them now: from here on
nothing might come of anything. -/
theorem Task.Meets.halted {ε α : Type} {task : Task ε α} {ends : α → Moment → Prop}
    {fails : ε → Moment → Prop} {now : Moment}
    (meets : task.Meets (writing Faults.any) ends fails now) :
    ∃ stage, (∃ value, ends value ⟨stage, now.contents⟩) ∨
      ∃ error, fails error ⟨stage, now.contents⟩ := by
  induction task generalizing now with
  | done value => exact ⟨now.stage, Or.inl ⟨value, meets⟩⟩
  | fail error => exact ⟨now.stage, Or.inr ⟨error, meets⟩⟩
  | act action rest ih =>
      obtain ⟨result, leads⟩ := now.leads_nowhere action
      have further := ih result (meets.2 result _ leads)
      exact further

/-- Whatever is answered, the task does not end well. -/
abbrev Task.Lost {ε α : Type} (task : Task ε α) : Prop :=
  task.Meets anything (fun _ _ => False) (fun _ _ => True) ()

/-! ### What storage holds meanwhile -/

namespace ChangeLog

/-- What may be seen of a node while the log is stored: its old record, none when it is deleted,
and once everything is staged the record as it is to be. -/
def Shows (log : ChangeLog) (before : Contents) (fate : Option Draft) (id : NodeId)
    (record : Option Bundle) : Prop :=
  record = before.bundles id ∨ (record = none ∧ log.Deletes id) ∨
    ∃ draft, fate = some draft ∧ record = draft.bundle? id

theorem Shows.later {log : ChangeLog} {before : Contents} {fate later : Option Draft}
    {id : NodeId} {record : Option Bundle} (shows : log.Shows before fate id record)
    (same : ∀ draft, fate = some draft → later = some draft) : log.Shows before later id record := by
  rcases shows with old | gone | ⟨draft, known, written⟩
  · exact Or.inl old
  · exact Or.inr (Or.inl gone)
  · exact Or.inr (Or.inr ⟨draft, same draft known, written⟩)

end ChangeLog

/-- What a store on its way has made of storage. -/
structure Contents.Midway (log : ChangeLog) (before now : Contents) (fate : Option Draft) :
    Prop where
  record : ∀ id, log.Shows before fate id (now.bundles id)
  spared : ∀ {property : PropertyId} {stored : StoredProperty},
    entryOf before.bundles property = some stored → ¬ log.Deletes property.node →
    ∀ blob ∈ stored.blobs, (∀ other, log.Touches other → ¬ now.SlotOf other blob) →
    now.blobs blob = before.blobs blob
  blobs : ∀ draft, fate = some draft → now.blobs = draft.contents.blobs

variable {threshold : Nat} {log : ChangeLog} {before now : Contents} {fate : Option Draft}

theorem Contents.Pruned.shows (pruned : Contents.Pruned log.Deletes before now) (id : NodeId) :
    log.Shows before fate id (now.bundles id) := by
  rcases pruned id with same | gone
  · exact Or.inl same
  · exact Or.inr (Or.inl gone)

theorem Contents.Pruned.midway (pruned : Contents.Pruned log.Deletes before now)
    (proper : before.Proper) {cleared : Contents} (bundles : now.bundles = cleared.bundles)
    (spares : Contents.Spares (log.Within cleared) before now) :
    Contents.Midway log before now none := by
  refine ⟨pruned.shows, fun {property stored} found stays blob own apart => ?_,
    fun _draft impossible => by cases impossible⟩
  have kept : cleared.bundles property.node ≠ none := by
    rw [← bundles]
    rcases pruned property.node with same | ⟨_gone, deletes⟩
    · rw [same]
      exact held_of_entry found
    · exact absurd deletes stays
  exact spares.blobs_of_entry proper found kept own apart

/-- Records may have been written as they are drafted, and reference lists; nothing else. -/
structure Draft.Landed (draft : Draft) (after : Contents) : Prop where
  records : ∀ id, after.bundles id = draft.contents.bundles id ∨ after.bundles id = draft.bundle? id
  blobs : after.blobs = draft.contents.blobs
  slots : after.slots = draft.contents.slots

theorem Draft.Written.landed {draft : Draft} {written after : Contents}
    (wrote : draft.Written written) (relisted : Contents.Relisted written after) :
    draft.Landed after where
  records := fun id => by
    rw [relisted.bundles]
    exact wrote.records id
  blobs := relisted.blobs.trans wrote.blobs
  slots := relisted.slots.trans wrote.slots

namespace Repository

variable {staged : Staged} {reached : Moment} {cleared : Contents}

theorem Undrawn.midway (undrawn : Undrawn Faults.any threshold log before now)
    (proper : before.Proper) : Contents.Midway log before now none := by
  have pruned := undrawn.pruned
  cases undrawn with
  | deleting cut => exact pruned.midway proper rfl (early_of_deleting cut proper).2
  | staging cleared deleted cut =>
      obtain ⟨_clears, bundles, spares⟩ := early_of_staging deleted cut proper
      exact pruned.midway proper bundles spares

theorem Drawn.drafted (drawn : Drawn Faults.any threshold log before staged reached cleared)
    (proper : before.Proper) :
    Drafted Faults.any threshold log before cleared (seen staged reached) :=
  drafted_of_chains proper drawn.deleted drawn.made

theorem Drawn.midway (drawn : Drawn Faults.any threshold log before staged reached cleared)
    (proper : before.Proper) : Contents.Midway log before reached.contents none :=
  drawn.pruned.midway proper (drawn.drafted proper).bundles ((drawn.drafted proper).spares proper)

theorem Drawn.midway_of_landed
    (drawn : Drawn Faults.any threshold log before staged reached cleared) (proper : before.Proper)
    (landed : (seen staged reached).Landed now) :
    Contents.Midway log before now (some (seen staged reached)) := by
  refine ⟨fun id => ?_, fun {property stored} found stays blob own apart => ?_,
    fun draft same => Option.some.inj same ▸ landed.blobs⟩
  · rcases landed.records id with same | written
    · rw [same]
      exact drawn.pruned.shows id
    · exact Or.inr (Or.inr ⟨_, rfl, written⟩)
  · rw [landed.blobs]
    refine (drawn.midway proper).spared found stays blob own (fun other touches given => ?_)
    apply apart other touches
    unfold Contents.SlotOf
    rw [landed.slots]
    exact given

theorem Settled.landed (settled : Settled log staged.values reached.contents now)
    (inOrder : InOrder staged reached) : (seen staged reached).Landed now := by
  obtain ⟨written, wrote, listed⟩ := settled
  exact (Draft.written_of_chain (seen_gives inOrder) wrote).landed
    (Contents.relisted_of_chain listed)

theorem Unsettled.landed (unsettled : Unsettled log staged.values reached.contents now)
    (inOrder : InOrder staged reached) : (seen staged reached).Landed now := by
  have gives := seen_gives inOrder
  cases unsettled with
  | writing cut => exact (Draft.written_of_breaks gives cut).landed (Contents.Relisted.refl now)
  | listing written wrote cut =>
      exact (Draft.written_of_chain gives wrote).landed (Contents.relisted_of_breaks cut)

theorem Settled.bundles (settled : Settled log staged.values reached.contents now)
    (inOrder : InOrder staged reached) : now.bundles = (seen staged reached).bundle? := by
  obtain ⟨written, wrote, listed⟩ := settled
  rw [(Contents.relisted_of_chain listed).bundles]
  exact Draft.bundles_of_chain (seen_gives inOrder) wrote

/-! ### Where the store stands -/

/-- What is done when a log cannot be applied. -/
def recover (error : RepositoryError) : Task RepositoryError Unit := do
  Task.cache .clear
  Task.warn .storeFailed
  Task.fail error

/-- What is left of a store that has come so far with the staging. -/
abbrev toSettle (log : ChangeLog) (rest : Task RepositoryError (SortedSet NodeId × Staged)) :
    Task RepositoryError Unit :=
  (rest >>= fun drawn => settle log drawn.1 drawn.2).orElse recover

theorem store_eq (threshold : Nat) (log : ChangeLog) :
    store threshold log = toSettle log (draw threshold log) := by
  rw [store, apply_eq]
  rfl

abbrev Drawing (threshold : Nat) (log : ChangeLog) (before : Contents)
    (task : Task RepositoryError (SortedSet NodeId × Staged)) (now : Moment) : Prop :=
  task.Meets (writing Faults.any)
    (fun drawn next => ∃ cleared, Drawn Faults.any threshold log before drawn.2 next cleared)
    (fun _error next => Undrawn Faults.any threshold log before next.contents) now

abbrev Settling (log : ChangeLog) (staged : Staged) (reached : Moment)
    (task : Task RepositoryError Unit) (now : Moment) : Prop :=
  task.Meets (writing Faults.any)
    (fun _ next => next.stage = .free ∧
      Settled log staged.values reached.contents next.contents)
    (fun _error next => Unsettled log staged.values reached.contents next.contents) now

/-- The store is still drawing up what to write, or it has a draft and settles it. -/
inductive Standing (threshold : Nat) (log : ChangeLog) (before : Contents) :
    Option Draft → Task RepositoryError Unit → Moment → Prop where
  | drawing {action : Action}
      {rest : action.Result → Task RepositoryError (SortedSet NodeId × Staged)} {now : Moment}
      (draws : Drawing threshold log before (Task.act action rest) now) :
      Standing threshold log before none
        (Task.act action (fun result => toSettle log (rest result))) now
  | settling {staged : Staged} {reached : Moment} {cleared : Contents} {action : Action}
      {rest : action.Result → Task RepositoryError Unit} {now : Moment}
      (drawn : Drawn Faults.any threshold log before staged reached cleared)
      (settles : Settling log staged reached (Task.act action rest) now) :
      Standing threshold log before (some (seen staged reached))
        (Task.act action (fun result => (rest result).orElse recover)) now
  | settled {staged : Staged} {reached : Moment} {cleared : Contents} {now : Moment}
      (drawn : Drawn Faults.any threshold log before staged reached cleared)
      (free : now.stage = .free) (settled : Settled log staged.values reached.contents now.contents) :
      Standing threshold log before (some (seen staged reached)) (Task.done ()) now

theorem recover_lost (error : RepositoryError) : (recover error).Lost :=
  fun _cleared => fun _warned => trivial

theorem standing_of_settling
    (drawn : Drawn Faults.any threshold log before staged reached cleared)
    {task : Task RepositoryError Unit} {now : Moment} (settles : Settling log staged reached task now) :
    (task.orElse recover).Lost ∨
      Standing threshold log before (some (seen staged reached)) (task.orElse recover) now := by
  cases task with
  | done value => exact Or.inr (Standing.settled drawn settles.1 settles.2)
  | fail error => exact Or.inl (recover_lost error)
  | act action rest => exact Or.inr (Standing.settling drawn settles)

theorem standing_of_drawing {task : Task RepositoryError (SortedSet NodeId × Staged)} {now : Moment}
    (draws : Drawing threshold log before task now) : (toSettle log task).Lost ∨
      ∃ fate, Standing threshold log before fate (toSettle log task) now := by
  cases task with
  | done drawn =>
      obtain ⟨cleared, complete⟩ := draws
      rcases standing_of_settling complete (settle_writing log drawn.1 complete.inOrder) with
        lost | stands
      · exact Or.inl lost
      · exact Or.inr ⟨_, stands⟩
  | fail error => exact Or.inl (recover_lost error)
  | act action rest => exact Or.inr ⟨none, Standing.drawing draws⟩

/-- One action of the store. What is drafted once stays so, unless the store is lost. -/
theorem Standing.step {action : Action} {rest : action.Result → Task RepositoryError Unit}
    {now : Moment} (standing : Standing threshold log before fate (Task.act action rest) now) :
    now.Permits action ∧ ∀ result next, now.Leads Faults.any action result next →
      (rest result).Lost ∨ ∃ later, Standing threshold log before later (rest result) next ∧
        ∀ draft, fate = some draft → later = some draft := by
  cases standing with
  | drawing draws =>
      refine ⟨draws.1, fun result next leads => ?_⟩
      rcases standing_of_drawing (draws.2 result next leads) with lost | ⟨later, stands⟩
      · exact Or.inl lost
      · exact Or.inr ⟨later, stands, fun _draft impossible => by cases impossible⟩
  | settling drawn settles =>
      refine ⟨settles.1, fun result next leads => ?_⟩
      rcases standing_of_settling drawn (settles.2 result next leads) with lost | stands
      · exact Or.inl lost
      · exact Or.inr ⟨_, stands, fun _draft known => known⟩

theorem Standing.midway {task : Task RepositoryError Unit} {now : Moment}
    (standing : Standing threshold log before fate task now) (proper : before.Proper) :
    Contents.Midway log before now.contents fate := by
  cases standing with
  | drawing draws =>
      obtain ⟨_stage, ⟨_drawn, _cleared, drawn⟩ | ⟨_error, undrawn⟩⟩ := draws.halted
      · exact drawn.midway proper
      · exact undrawn.midway proper
  | settling drawn settles =>
      obtain ⟨_stage, ⟨_unit, _free, settled⟩ | ⟨_error, unsettled⟩⟩ := settles.halted
      · exact drawn.midway_of_landed proper (settled.landed drawn.inOrder)
      · exact drawn.midway_of_landed proper (unsettled.landed drawn.inOrder)
  | settled drawn free settled =>
      exact drawn.midway_of_landed proper (settled.landed drawn.inOrder)

theorem standing_of_store (threshold : Nat) (log : ChangeLog) (contents : Contents) :
    (store threshold log).Lost ∨
      ∃ fate, Standing threshold log contents fate (store threshold log) ⟨.free, contents⟩ := by
  rw [store_eq]
  exact standing_of_drawing (draw_writing threshold log)

end Repository

end BundleStore
