import BundleStore.Proofs.Coherence.Requests
import BundleStore.Proofs.Coherence.Steps
import BundleStore.Proofs.Storage.Memory

set_option autoImplicit false

/-! A repository under traffic. Requests come in at any time and go on one action at a time, in any
order, beside one write; calls to the backend may fail. Whenever no write is on its way, the cache
says of every node what storage holds, and so does everything that a reader may still bring to
the cache. -/

namespace BundleStore

/-- A system at work: the tasks of the readers, and the task of the write if there is one. -/
structure Traffic (backend : Backend) where
  system : System backend
  readers : List (Task RepositoryError Unit)
  writer : Option (Task RepositoryError Unit)

namespace System

variable {backend : Backend}

/-- With nothing in the cache yet. -/
def fresh (storage : backend.State) (budget : UInt64) (shards : Nat) (spread : NodeId → Nat) :
    System backend :=
  ⟨storage, BundleCache.new budget shards spread⟩

theorem fresh_sound (storage : backend.State) (budget : UInt64) (shards : Nat)
    (spread : NodeId → Nat) :
    (fresh storage budget shards spread).Sound ⟨.free, backend.contents storage⟩ := by
  have absent (id : NodeId) : (fresh storage budget shards spread).cache.held? id = none :=
    ShardedCache.value?_new budget shards spread id
  refine ⟨rfl, ShardedCache.length_new budget shards spread, ?_, ?_⟩
  · intro id entry held
    rw [absent] at held
    cases held
  · intro id entry held _known
    rw [absent] at held
    cases held

end System

namespace Traffic

variable {backend : Backend}

def idle (system : System backend) : Traffic backend := ⟨system, [], none⟩

/-- What may happen next. -/
inductive Step (threshold : Nat) : Traffic backend → Traffic backend → Prop where
  | request (traffic : Traffic backend) (request : Request) :
      Step threshold traffic { traffic with readers := request.task :: traffic.readers }
  | read (system : System backend) (readers : List (Task RepositoryError Unit)) (place : Nat)
      (writer : Option (Task RepositoryError Unit)) {action : Action}
      {rest : action.Result → Task RepositoryError Unit}
      (reader : readers[place]? = some (Task.act action rest)) :
      Step threshold ⟨system, readers, writer⟩
        ⟨(System.serve action system).2,
          readers.set place (rest (System.serve action system).1), writer⟩
  | write (system : System backend) (readers : List (Task RepositoryError Unit)) (write : Write) :
      Step threshold ⟨system, readers, none⟩ ⟨system, readers, some (write.task threshold)⟩
  | work (system : System backend) (readers : List (Task RepositoryError Unit))
      (action : Action) (rest : action.Result → Task RepositoryError Unit) :
      Step threshold ⟨system, readers, some (Task.act action rest)⟩
        ⟨(System.serve action system).2, readers, some (rest (System.serve action system).1)⟩
  | finish (system : System backend) (readers : List (Task RepositoryError Unit)) :
      Step threshold ⟨system, readers, some (Task.done ())⟩ ⟨system, readers, none⟩
  | fail (system : System backend) (readers : List (Task RepositoryError Unit))
      (error : RepositoryError) :
      Step threshold ⟨system, readers, some (Task.fail error)⟩ ⟨system, readers, none⟩

inductive Reaches (threshold : Nat) (start : Traffic backend) : Traffic backend → Prop where
  | start : Reaches threshold start start
  | step {before after : Traffic backend} (reached : Reaches threshold start before)
      (step : Step threshold before after) : Reaches threshold start after

inductive Turn where
  | request (request : Request)
  | read (place : Nat)
  | write (write : Write)
  | work

/-- Takes a turn. When it is nobody's, nothing happens. -/
def turn (threshold : Nat) : Turn → Traffic backend → Traffic backend
  | .request request, traffic => { traffic with readers := request.task :: traffic.readers }
  | .read place, ⟨system, readers, writer⟩ =>
      match readers[place]? with
      | some (.act action rest) =>
          ⟨(System.serve action system).2,
            readers.set place (rest (System.serve action system).1), writer⟩
      | _ => ⟨system, readers, writer⟩
  | .write write, ⟨system, readers, none⟩ => ⟨system, readers, some (write.task threshold)⟩
  | .work, ⟨system, readers, some (.act action rest)⟩ =>
      ⟨(System.serve action system).2, readers, some (rest (System.serve action system).1)⟩
  | .work, ⟨system, readers, some _⟩ => ⟨system, readers, none⟩
  | _, traffic => traffic

def play (threshold : Nat) (turns : List Turn) (traffic : Traffic backend) : Traffic backend :=
  turns.foldl (fun traffic next => turn threshold next traffic) traffic

/-- A turn is a step, or nobody's. -/
theorem turn_steps (threshold : Nat) (next : Turn) (traffic : Traffic backend) :
    turn threshold next traffic = traffic ∨ Step threshold traffic (turn threshold next traffic) := by
  obtain ⟨system, readers, writer⟩ := traffic
  cases next with
  | request request => exact Or.inr (Step.request _ request)
  | read place =>
      rw [turn]
      split
      · rename_i reader
        exact Or.inr (Step.read system readers place writer reader)
      · exact Or.inl rfl
  | write write =>
      cases writer with
      | none => exact Or.inr (Step.write system readers write)
      | some task => exact Or.inl rfl
  | work =>
      cases writer with
      | none => exact Or.inl rfl
      | some task =>
          cases task with
          | done value => exact Or.inr (Step.finish system readers)
          | fail error => exact Or.inr (Step.fail system readers error)
          | act action rest => exact Or.inr (Step.work system readers action rest)

theorem turn_reaches {threshold : Nat} {start traffic : Traffic backend}
    (reached : Reaches threshold start traffic) (next : Turn) :
    Reaches threshold start (turn threshold next traffic) := by
  rcases turn_steps threshold next traffic with same | step
  · rw [same]
    exact reached
  · exact reached.step step

theorem play_reaches {threshold : Nat} {start traffic : Traffic backend}
    (reached : Reaches threshold start traffic) (turns : List Turn) :
    Reaches threshold start (play threshold turns traffic) := by
  induction turns generalizing traffic with
  | nil => exact reached
  | cons next rest ih => exact ih (turn_reaches reached next)

/-! ### The invariant -/

variable {threshold : Nat} {faults : Faults} {holds : Contents → Prop}

/-- The writer keeps to the order from where it stands. When there is none, nothing is owed. -/
def Writing (faults : Faults) (holds : Contents → Prop) (now : Moment) :
    Option (Task RepositoryError Unit) → Prop
  | none => now.stage = .free ∧ holds now.contents
  | some task => task.Meets (writing faults)
      (fun _ next => next.stage = .free ∧ holds next.contents)
      (fun _error next => next.stage = .free ∧ holds next.contents) now

/-- The reader keeps to the order from where it stands, and what it knows is valid. -/
def Reading (scene : Scene) (task : Task RepositoryError Unit) : Prop :=
  ∃ stage : Stage, stage.Valid scene ∧
    task.Meets reading (fun _ stage => stage = .free) (fun _ _ => True) stage

structure Kept (faults : Faults) (holds : Contents → Prop) (traffic : Traffic backend)
    (now : Moment) : Prop where
  sound : traffic.system.Sound now
  valid : now.stage.Valid (traffic.system.scene now)
  writing : Writing faults holds now traffic.writer
  reading : ∀ task ∈ traffic.readers, Reading (traffic.system.scene now) task

theorem Reading.follows {before after : Scene} {task : Task RepositoryError Unit}
    (reading : Reading before task) (follows : after.Follows before) : Reading after task := by
  obtain ⟨stage, valid, meets⟩ := reading
  exact ⟨stage, valid.follows follows, meets⟩

theorem idle_kept {system : System backend} {now : Moment} (sound : system.Sound now)
    (free : now.stage = .free) (held : holds now.contents) :
    (idle system).Kept faults holds now := by
  refine ⟨sound, ?_, ⟨free, held⟩, fun task member => by cases member⟩
  rw [free]
  trivial

/-- What the invariant says of the system and of the readers, whoever writes. -/
structure Served (traffic : Traffic backend) (now : Moment) : Prop where
  sound : traffic.system.Sound now
  valid : now.stage.Valid (traffic.system.scene now)
  reading : ∀ task ∈ traffic.readers, Reading (traffic.system.scene now) task

theorem Kept.served {traffic : Traffic backend} {now : Moment}
    (kept : traffic.Kept faults holds now) : traffic.Served now :=
  ⟨kept.sound, kept.valid, kept.reading⟩

theorem Served.kept {traffic : Traffic backend} {now : Moment} (served : traffic.Served now)
    (writing : Writing faults holds now traffic.writer) : traffic.Kept faults holds now :=
  ⟨served.sound, served.valid, writing, served.reading⟩

theorem Served.request {traffic : Traffic backend} {now : Moment} (served : traffic.Served now)
    (request : Request) :
    Served { traffic with readers := request.task :: traffic.readers } now := by
  refine ⟨served.sound, served.valid, fun task member => ?_⟩
  rcases List.mem_cons.mp member with same | earlier
  · rw [same]
    exact ⟨.free, trivial, Reads.request request⟩
  · exact served.reading task earlier

section

variable {system : System backend} {readers : List (Task RepositoryError Unit)}
  {writer : Option (Task RepositoryError Unit)} {now : Moment} {action : Action}

theorem Served.beside (served : Served ⟨system, readers, writer⟩ now)
    (other : Option (Task RepositoryError Unit)) : Served ⟨system, readers, other⟩ now :=
  ⟨served.sound, served.valid, served.reading⟩

theorem Served.read (served : Served ⟨system, readers, writer⟩ now) {place : Nat}
    {rest : action.Result → Task RepositoryError Unit}
    (reader : readers[place]? = some (Task.act action rest)) :
    Served ⟨(System.serve action system).2,
      readers.set place (rest (System.serve action system).1), writer⟩ now := by
  obtain ⟨stage, known, permits, meets⟩ := served.reading _ (List.mem_of_getElem? reader)
  obtain ⟨steps, stays⟩ := System.steps_reading now served.sound rfl (fun _id behind => behind) known
    permits
  refine ⟨steps.sound, served.valid.follows steps.follows, fun task member => ?_⟩
  rcases List.mem_or_eq_of_mem_set member with other | same
  · exact (served.reading task other).follows steps.follows
  · rw [same]
    exact ⟨_, stays, meets _⟩

theorem Served.work (only : backend.FailsOnly faults) (served : Served ⟨system, readers, writer⟩ now)
    (permits : now.Permits action) :
    ∃ next, now.Leads faults action (System.serve action system).1 next ∧
      Served ⟨(System.serve action system).2, readers, writer⟩ next := by
  obtain ⟨next, leads, steps, stays⟩ :=
    System.steps_writing only served.sound served.valid permits
  exact ⟨next, leads, steps.sound, stays,
    fun task member => (served.reading task member).follows steps.follows⟩

end

/-- Every step keeps the invariant: a reader's by its own discipline, a writer's by its. -/
theorem step_kept (only : backend.FailsOnly faults)
    (writes : ∀ write : Write, Writes faults holds (write.task threshold))
    {before after : Traffic backend} (step : Step threshold before after) {now : Moment}
    (kept : before.Kept faults holds now) : ∃ next, after.Kept faults holds next := by
  have served := kept.served
  have writing := kept.writing
  cases step with
  | request traffic request => exact ⟨now, (served.request request).kept writing⟩
  | read system readers place writer reader => exact ⟨now, (served.read reader).kept writing⟩
  | write system readers write =>
      obtain ⟨free, held⟩ := writing
      obtain ⟨_stage, contents⟩ := now
      obtain rfl := free
      exact ⟨_, (served.beside _).kept (writes write contents held)⟩
  | work system readers action rest =>
      obtain ⟨permits, meets⟩ := writing
      obtain ⟨next, leads, after⟩ := served.work only permits
      exact ⟨next, (after.beside _).kept (meets _ next leads)⟩
  | finish system readers => exact ⟨now, (served.beside none).kept writing⟩
  | fail system readers error => exact ⟨now, (served.beside none).kept writing⟩

theorem reaches_kept (only : backend.FailsOnly faults)
    (writes : ∀ write : Write, Writes faults holds (write.task threshold))
    {start traffic : Traffic backend} (reaches : Reaches threshold start traffic) {now : Moment}
    (kept : start.Kept faults holds now) : ∃ next, traffic.Kept faults holds next := by
  induction reaches with
  | start => exact ⟨now, kept⟩
  | step reached step ih =>
      obtain ⟨next, held⟩ := ih
      exact step_kept only writes step held

/-! ### What the invariant is for -/

/-- The cache, and all that is on its way into it, agrees with storage. -/
structure Coherent (traffic : Traffic backend) : Prop where
  present : ∀ id bundle, (traffic.system.cache.lookup id).1 = .present bundle →
    traffic.system.contents.bundles id = some bundle.record
  missing : ∀ id, (traffic.system.cache.lookup id).1 = .missing →
    traffic.system.contents.bundles id = none
  fills : ∀ id found generation rest,
    Task.act (.cache (.fill id found generation)) rest ∈ traffic.readers →
    traffic.system.cache.entries.generation id = generation →
    found = traffic.system.contents.bundles id

theorem Kept.coherent {traffic : Traffic backend} {now : Moment}
    (kept : traffic.Kept faults holds now) (quiet : traffic.writer = none) :
    traffic.Coherent := by
  obtain ⟨sound, _valid, writing, reading⟩ := kept
  rw [quiet] at writing
  have known (id : NodeId) : ¬ now.stage.Behind id := by
    rw [writing.1]
    exact fun behind => behind
  have tells (id : NodeId) :
      (traffic.system.cache.lookup id).1.Tells (traffic.system.contents.bundles id) := by
    rw [sound.contents]
    exact System.lookup_tells sound writing.1 id
  refine ⟨fun id bundle held => ?_, fun id held => ?_, ?_⟩
  · have told := tells id
    rw [held] at told
    exact told.2
  · have told := tells id
    rw [held] at told
    exact told
  · intro id found generation rest member current
    obtain ⟨stage, valid, permits, _meets⟩ := reading _ member
    obtain ⟨loaded, rfl, rfl⟩ := permits
    obtain ⟨_notAhead, recorded, fresh⟩ := valid
    have marked : loaded.map Bundle.markOld = loaded := by
      cases loaded with
      | none => rfl
      | some bundle => exact congrArg some (Bundle.markOld_of_record (recorded bundle rfl).2)
    rw [marked, sound.contents]
    exact fresh current (known id)

/-- Readers in any number and any order, with stores that may fail anywhere, external updates and
checks one at a time, and evictions and closes at any moment: whenever no write is on its way, the
cache agrees with storage. -/
theorem coherent_when_quiet (backend : Backend) (threshold : Nat) (storage : backend.State)
    (budget : UInt64) (shards : Nat) (spread : NodeId → Nat) (traffic : Traffic backend)
    (reaches : Reaches threshold (idle (System.fresh storage budget shards spread)) traffic)
    (quiet : traffic.writer = none) : traffic.Coherent := by
  have writes (write : Write) :
      Writes Faults.any (fun _contents => True) (write.task threshold) := by
    cases write with
    | store log => exact Writes.store threshold log (fun _ _ _ _ => trivial) (fun _ _ _ _ => trivial)
    | externalUpdate log => exact Writes.externalUpdate log
    | check ids recursive repair => exact Writes.check ids recursive repair (fun _ _ _ _ => trivial)
  obtain ⟨now, kept⟩ := reaches_kept backend.failsOnly_any writes reaches
    (idle_kept (System.fresh_sound storage budget shards spread) rfl trivial)
  exact kept.coherent quiet

/-- A reader finds nothing, then the node is added, and the reader is still to bring its news. -/
def race : Traffic MemoryStorage.backend :=
  play 0
    [.request (.loadNode NodeId.zero), .read 0, .read 0, .read 0,
      .write (.store { ChangeLog.empty with
        added := [.node (Node.fresh NodeId.zero Name.unstructured none)] }),
      .work, .work, .work]
    (idle (System.fresh ⟨MemoryStorage.empty, MemoryStorage.empty_sound⟩ 100000 1 (fun _ => 0)))

theorem race_coherent : race.writer = none ∧ race.readers.length = 1 ∧ race.Coherent :=
  have quiet : race.writer = none := Option.isNone_iff_eq_none.mp (by decide +kernel)
  ⟨quiet, by decide +kernel, coherent_when_quiet MemoryStorage.backend 0
    ⟨MemoryStorage.empty, MemoryStorage.empty_sound⟩ 100000 1 (fun _ => 0) race
    (play_reaches Reaches.start _) quiet⟩

end Traffic

end BundleStore
