import BundleStore.Proofs.Coherence.Runs
import BundleStore.Proofs.Store.Heads

set_option autoImplicit false

/-! Traffic in which every store goes well. Readers come in at any time and go on in any order
beside the stores. The headers that are left are those that the logs say, whoever has read what. -/

namespace BundleStore.Traffic

variable {backend : Backend}

/-- What has been stored by now, and what is being stored. -/
inductive Course (threshold : Nat) (start : System backend) :
    List ChangeLog → Option ChangeLog → Traffic backend → Prop where
  | idle : Course threshold start [] none (idle start)
  /-- No write comes in and none ends. -/
  | goes {logs : List ChangeLog} {busy : Option ChangeLog} {before after : Traffic backend}
      (course : Course threshold start logs busy before) (step : Step threshold before after)
      (same : after.writer.isSome = before.writer.isSome) : Course threshold start logs busy after
  | begun {logs : List ChangeLog} {system : System backend}
      {readers : List (Task RepositoryError Unit)}
      (course : Course threshold start logs none ⟨system, readers, none⟩) (log : ChangeLog) :
      Course threshold start logs (some log)
        ⟨system, readers, some (Repository.store threshold log)⟩
  | stored {logs : List ChangeLog} {log : ChangeLog} {system : System backend}
      {readers : List (Task RepositoryError Unit)}
      (course : Course threshold start logs (some log) ⟨system, readers, some (Task.done ())⟩) :
      Course threshold start (logs ++ [log]) none ⟨system, readers, none⟩

variable {threshold : Nat} {start : System backend} {logs : List ChangeLog}
  {busy : Option ChangeLog} {traffic : Traffic backend}

theorem Course.reaches (course : Course threshold start logs busy traffic) :
    Reaches threshold (Traffic.idle start) traffic := by
  induction course with
  | idle => exact Reaches.start
  | goes _course step _same ih => exact ih.step step
  | @begun _logs system readers _course log ih =>
      exact ih.step (Step.write system readers (.store log))
  | @stored _logs _log system readers _course ih => exact ih.step (Step.finish system readers)

/-! ### One after another -/

section

variable {system : System backend} {readers : List (Task RepositoryError Unit)}

/-- A store that nobody comes across, and that goes well. -/
theorem Course.run {log : ChangeLog} {task : Task RepositoryError Unit}
    (course : Course threshold start logs (some log) ⟨system, readers, some task⟩)
    (well : (task.run System.serve system).1 = .ok ()) :
    Course threshold start (logs ++ [log]) none
      ⟨(task.run System.serve system).2, readers, none⟩ := by
  induction task generalizing system with
  | done value => exact course.stored
  | fail error => cases well
  | act action rest ih => exact ih _ (course.goes (Step.work system readers action rest) rfl) well

theorem Course.store (course : Course threshold start logs none ⟨system, readers, none⟩)
    {log : ChangeLog}
    (well : ((Repository.store threshold log).run System.serve system).1 = .ok ()) :
    Course threshold start (logs ++ [log]) none
      ⟨((Repository.store threshold log).run System.serve system).2, readers, none⟩ :=
  (course.begun log).run well

theorem Course.read {writer : Option (Task RepositoryError Unit)}
    {task : Task RepositoryError Unit}
    (course : Course threshold start logs busy ⟨system, task :: readers, writer⟩) :
    ∃ ended, Course threshold start logs busy
      ⟨(task.run System.serve system).2, ended :: readers, writer⟩ := by
  induction task generalizing system with
  | done value => exact ⟨_, course⟩
  | fail error => exact ⟨_, course⟩
  | act action rest ih => exact ih _ (course.goes (Step.read system _ 0 writer rfl) rfl)

theorem Course.ask {writer : Option (Task RepositoryError Unit)}
    (course : Course threshold start logs busy ⟨system, readers, writer⟩) (request : Request) :
    ∃ ended, Course threshold start logs busy
      ⟨(request.task.run System.serve system).2, ended :: readers, writer⟩ :=
  (course.goes (Step.request _ request) rfl).read

end

/-! ### The headers -/

theorem Course.writer (course : Course threshold start logs busy traffic) :
    traffic.writer.isSome = busy.isSome := by
  induction course with
  | idle => rfl
  | goes _course _step same ih => exact same.trans ih
  | begun _course _log _ih => rfl
  | stored _course _ih => rfl

theorem Course.quiet (course : Course threshold start logs none traffic) :
    traffic.writer = none :=
  Option.not_isSome_iff_eq_none.mp (Bool.eq_false_iff.mp course.writer)

/-- The writer is going to leave the headers that the logs say. When there is none, they are
there. -/
def Heading (faults : Faults) (heads : Heads) (logs : List ChangeLog) (busy : Option ChangeLog)
    (now : Moment) : Option (Task RepositoryError Unit) → Prop
  | none => now.stage = .free ∧ headerOf now.contents.bundles = heads.after logs
  | some task => ∃ log, busy = some log ∧ task.Meets (writing faults)
      (fun _ next => next.stage = .free ∧
        headerOf next.contents.bundles = heads.after (logs ++ [log])) (fun _ _ => True) now

theorem Course.heading {faults : Faults} (only : backend.FailsOnly faults) (rest : start.AtRest)
    (course : Course threshold start logs busy traffic) :
    ∃ now, traffic.Served now ∧
      Heading faults (headerOf start.contents.bundles) logs busy now traffic.writer := by
  induction course with
  | idle => exact ⟨_, ⟨rest, trivial, fun _task member => by cases member⟩, rfl, rfl⟩
  | goes course step same ih =>
      obtain ⟨now, served, heading⟩ := ih
      cases step with
      | request traffic request => exact ⟨now, served.request request, heading⟩
      | read system readers place writer reader => exact ⟨now, served.read reader, heading⟩
      | work system readers action rest =>
          obtain ⟨log, named, permits, meets⟩ := heading
          obtain ⟨next, leads, after⟩ := served.work only permits
          exact ⟨next, after.beside _, log, named, meets _ next leads⟩
      | write system readers write => cases same
      | finish system readers => cases same
      | fail system readers error => cases same
  | begun course log ih =>
      obtain ⟨⟨_stage, contents⟩, served, free, heads⟩ := ih
      obtain rfl := free
      refine ⟨_, served.beside _, log, rfl, ?_⟩
      refine (Repository.store_writing faults threshold log).mono writing_monotone ?_
        (fun _error _next _failed => trivial)
      intro _unit next met
      refine ⟨met.1, ?_⟩
      rw [met.2.heads, heads, Heads.after, Heads.after, List.foldl_append]
      rfl
  | stored course ih =>
      obtain ⟨now, served, _log, named, ended⟩ := ih
      cases named
      exact ⟨now, served.beside none, ended⟩

/-- Whenever no store is on its way, storage has the headers that the logs say. -/
theorem Course.heads {faults : Faults} (only : backend.FailsOnly faults) (rest : start.AtRest)
    (course : Course threshold start logs none traffic) :
    headerOf traffic.system.contents.bundles =
      Heads.after (headerOf start.contents.bundles) logs := by
  obtain ⟨now, served, heading⟩ := course.heading only rest
  rw [course.quiet] at heading
  rw [served.sound.contents]
  exact heading.2

end BundleStore.Traffic
