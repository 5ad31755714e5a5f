import BundleStore.Proofs.Coherence.Runs
import BundleStore.Proofs.Store.Plain
import BundleStore.Session

set_option autoImplicit false

/-! A session on a repository in files, with nobody else at work. While the blobs that its records
name lead to files of their own, what it does is what is done with a backend behind a cache, so all
that is known of these holds of the session. -/

namespace BundleStore

/-- Every blob named in a record leads to a file of its own. -/
def Contents.Plain (contents : Contents) : Prop :=
  ∀ id bundle, contents.bundles id = some bundle → bundle.Plain

namespace Contents.Plain

variable {before after : Contents}

theorem update {id : NodeId} {found : Option Bundle} (plain : before.Plain)
    (same : after.bundles = Function.update before.bundles id found)
    (given : ∀ bundle, found = some bundle → bundle.Plain) : after.Plain := by
  intro other bundle held
  rw [same] at held
  by_cases here : other = id
  · rw [here, Function.update_self] at held
    exact given bundle held
  · rw [Function.update_of_ne here] at held
    exact plain other bundle held

theorem congr (plain : before.Plain) (same : after.bundles = before.bundles) : after.Plain := by
  intro id bundle held
  rw [same] at held
  exact plain id bundle held

theorem does {call : StorageCall} {result : call.Result} (plain : before.Plain)
    (asks : Action.AsksPlain (.storage call)) (does : call.Does result before after) :
    after.Plain := by
  cases call with
  | storeBundle bundle =>
      obtain rfl : after = before.holding bundle := does
      exact plain.update rfl (fun _record same => Option.some.inj same ▸ asks)
  | destroyBundle id =>
      obtain rfl : after = before.without id := does
      exact plain.update rfl (fun _record impossible => by cases impossible)
  | storeReferences references => exact plain.congr (by rw [show after = _ from does]; rfl)
  | destroyReferences target => exact plain.congr (by rw [show after = _ from does]; rfl)
  | checkConsistency ids recursive repair => exact (asks : False).elim
  | createBlobId property place => exact plain.congr does.1.bundles
  | putBlob blob bytes => exact plain.congr (by rw [show after = _ from does]; rfl)
  | removeBlob blob => exact plain.congr (by rw [does.1]; rfl)
  | loadBundle id => exact plain.congr (by rw [does.1])
  | loadReferences target => exact plain.congr (by rw [does.1])
  | getBlob blob => exact plain.congr (by rw [does.1])

/-- Nothing but plain blobs comes into the records. -/
theorem leads {faults : Faults} {now next : Moment} {action : Action} {result : action.Result}
    (plain : now.contents.Plain) (asks : action.AsksPlain)
    (leads : now.Leads faults action result next) : next.contents.Plain := by
  have changes := leads.contents
  cases action with
  | warn warning => exact plain.congr (by rw [show next.contents = _ from changes])
  | cache step =>
      cases step with
      | lookup id => exact plain.congr (by rw [changes.1])
      | _ => exact plain.congr (by rw [show next.contents = _ from changes])
  | storage call =>
      cases result with
      | ok value => exact plain.does asks changes
      | error error =>
          rcases changes.2 with same | ⟨_unchecked, value, done⟩
          · exact plain.congr (by rw [same])
          · exact plain.does asks done

/-- And nothing else comes out of them. -/
theorem gives {faults : Faults} {now next : Moment} {action : Action} {result : action.Result}
    (plain : now.contents.Plain)
    (given : ∀ property place blob, next.contents.slots property place = some blob →
      FilePath.Plain blob)
    (leads : now.Leads faults action result next) : action.GivesPlain result := by
  have changes := leads.contents
  cases action with
  | warn warning => exact trivial
  | storage call =>
      cases result with
      | error error => cases call <;> exact trivial
      | ok value =>
          cases call with
          | loadBundle id =>
              cases value with
              | none => exact trivial
              | some bundle => exact plain id bundle changes.2.symm
          | createBlobId property place => exact given property place value changes.2
          | _ => exact trivial
  | cache step =>
      cases step with
      | lookup id =>
          cases result with
          | present bundle => exact plain id bundle.record changes.2.2
          | _ => exact trivial
      | _ => exact trivial

end Contents.Plain

/-- A writer may do all that a reader may. -/
theorem Stage.Permits.writer {now : Moment} {action : Action} (permits : now.stage.Permits action) :
    now.Permits action := by
  cases action with
  | warn warning => exact permits
  | storage call => cases call <;> first | exact permits | exact (permits : False).elim
  | cache step => cases step <;> first | exact permits | exact (permits : False).elim

theorem Task.Meets.as_writing {faults : Faults} {ε α : Type} {task : Task ε α}
    {ends : α → Stage → Prop} {fails : ε → Stage → Prop} (now : Moment)
    (meets : task.Meets reading ends fails now.stage) :
    task.Meets (writing faults) (fun value next => ends value next.stage)
      (fun error next => fails error next.stage) now := by
  induction task generalizing now with
  | done value => exact meets
  | fail error => exact meets
  | act action rest ih =>
      obtain ⟨permits, met⟩ := meets
      refine ⟨permits.writer, fun result next leads => ih result next ?_⟩
      rw [leads.stage]
      exact met result

namespace Session

/-- The session has this storage and this cache, and no call is made to fail. -/
structure Mirrors (session : Session) (system : System FileStorage.backend) : Prop where
  storage : session.storage = .files system.storage.storage
  cache : session.cache = system.cache
  healthy : session.faults = SortedMap.empty

variable {session : Session} {system : System FileStorage.backend}

theorem AsksPlain.clean {call : StorageCall} (asks : Action.AsksPlain (.storage call)) :
    FileStorage.Clean call := by
  cases call with
  | storeBundle bundle => exact trivial
  | _ => exact asks

theorem Mirrors.recorded (mirrors : session.Mirrors system) {call : StorageCall}
    (clean : FileStorage.Clean call) :
    (session.recorded call).1 = (System.serve (.storage call) system).1 ∧
      (session.recorded call).2.Mirrors (System.serve (.storage call) system).2 := by
  obtain ⟨storage, cache, healthy⟩ := mirrors
  obtain ⟨answer, kept⟩ := FileStorage.serveKept_clean clean system.storage
  have came : session.recorded call =
      { session with calls := call.text :: session.calls }.direct call := by
    rw [Session.recorded, healthy]
    rfl
  have result : ({ session with calls := call.text :: session.calls }.direct call).1 =
      (system.storage.storage.serve call).1 := by
    rw [direct, storage]
    rfl
  have left : ({ session with calls := call.text :: session.calls }.direct call).2.storage =
      .files (system.storage.storage.serve call).2.1 := by
    rw [direct, storage]
    rfl
  rw [came]
  exact ⟨result.trans answer.symm, left.trans (congrArg Storage.files kept.symm), cache, healthy⟩

theorem Mirrors.serve (mirrors : session.Mirrors system) {action : Action}
    (asks : action.AsksPlain) :
    (session.serve action).1 = (System.serve action system).1 ∧
      (session.serve action).2.Mirrors (System.serve action system).2 := by
  cases action with
  | warn warning => exact ⟨rfl, mirrors.storage, mirrors.cache, mirrors.healthy⟩
  | storage call => exact mirrors.recorded (AsksPlain.clean asks)
  | cache step =>
      have served : session.cache.serve step = system.cache.serve step := by rw [mirrors.cache]
      exact ⟨congrArg Prod.fst served, mirrors.storage, congrArg Prod.snd served, mirrors.healthy⟩

/-- The backend gives none but plain blob identifiers. -/
theorem given_plain (system : System FileStorage.backend) {property : PropertyId} {place : Nat}
    {blob : String} (given : system.contents.slots property place = some blob) :
    FilePath.Plain blob :=
  (system.storage.sound.given property place blob given).plain

/-- The session comes to what the backend behind its cache comes to. -/
theorem Mirrors.run {faults : Faults} (only : FileStorage.backend.FailsOnly faults) {ε α : Type}
    {task : Task ε α} {ends : α → Moment → Prop} {fails : ε → Moment → Prop}
    {last : α → Unit → Prop} {broken : ε → Unit → Prop} {now : Moment}
    (mirrors : session.Mirrors system) (sound : system.Sound now)
    (valid : now.stage.Valid (system.scene now)) (plain : now.contents.Plain)
    (meets : task.Meets (writing faults) ends fails now)
    (asks : task.Meets plainly last broken ()) :
    (session.run task).1 = (task.run System.serve system).1 ∧
      (session.run task).2.Mirrors (task.run System.serve system).2 ∧
      (task.run System.serve system).2.contents.Plain := by
  induction task generalizing session system now with
  | done value => exact ⟨rfl, mirrors, sound.contents ▸ plain⟩
  | fail error => exact ⟨rfl, mirrors, sound.contents ▸ plain⟩
  | act action rest ih =>
      obtain ⟨permits, met⟩ := meets
      obtain ⟨askedPlain, further⟩ := asks
      obtain ⟨next, leads, steps, stays⟩ := System.steps_writing only sound valid permits
      obtain ⟨same, after⟩ := mirrors.serve askedPlain
      have gives : action.GivesPlain (System.serve action system).1 :=
        plain.gives (fun property place blob given => by
          rw [← steps.sound.contents] at given
          exact given_plain _ given) leads
      have outcome := ih _ after steps.sound stays (plain.leads askedPlain leads)
        (met _ next leads) (further _ gives)
      have step : session.run (.act action rest) =
          (session.serve action).2.run (rest (System.serve action system).1) := by
        rw [← same]
        rfl
      rw [step]
      exact outcome

theorem Mirrors.run_reading (mirrors : session.Mirrors system) (rest : system.AtRest)
    (plain : system.contents.Plain) {ε α : Type} {task : Task ε α} {last : α → Unit → Prop}
    {broken : ε → Unit → Prop} (reads : Reads task)
    (asks : task.Meets plainly last broken ()) :
    (session.run task).1 = (task.run System.serve system).1 ∧
      (session.run task).2.Mirrors (task.run System.serve system).2 ∧
      (task.run System.serve system).2.contents.Plain :=
  mirrors.run FileStorage.backend_failsOnly rest trivial plain
    (Task.Meets.as_writing ⟨.free, system.contents⟩ reads) asks

end Session

end BundleStore
