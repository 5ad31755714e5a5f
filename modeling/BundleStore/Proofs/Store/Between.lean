import BundleStore.Proofs.Store.Aftermath
import BundleStore.Proofs.Store.Midway

set_option autoImplicit false

/-! Reads between any two actions of a store, with other readers on their way. What the cache says
of a node, and what any reader may still bring into it, is a record that the store shows; so a
read gives the old property or the new one, unless the old one is still shown when blobs of it have
been released or written over, or its node is gone only to come back. -/

namespace BundleStore

variable {backend : Backend} {threshold : Nat} {log : ChangeLog} {before : Contents}
  {fate : Option Draft} {id : NodeId}

namespace Traffic

/-- The write that is on its way goes on, and so do the readers. -/
inductive Storing (threshold : Nat) (start : Traffic backend) : Traffic backend → Prop where
  | start : Storing threshold start start
  | step {traffic next : Traffic backend} (reached : Storing threshold start traffic)
      (step : Step threshold traffic next) (goesOn : next.writer.isSome = true) :
      Storing threshold start next

/-- The writer stays on its way through all the turns. -/
def goesOn (threshold : Nat) : List Turn → Traffic backend → Bool
  | [], _ => true
  | next :: rest, traffic =>
      let after := turn threshold next traffic
      after.writer.isSome && goesOn threshold rest after

theorem storing_play {start traffic : Traffic backend} (reached : Storing threshold start traffic)
    (turns : List Turn) (writes : goesOn threshold turns traffic = true) :
    Storing threshold start (play threshold turns traffic) := by
  induction turns generalizing traffic with
  | nil => exact reached
  | cons next rest ih =>
      obtain ⟨here, later⟩ := Bool.and_eq_true_iff.mp writes
      apply ih _ later
      rcases turn_steps threshold next traffic with same | step
      · rw [same]
        exact reached
      · exact reached.step step here

def hasEnded (traffic : Traffic backend) : Bool :=
  match traffic.writer with
  | some (.done ()) => true
  | _ => false

theorem writer_of_hasEnded {traffic : Traffic backend} (ended : traffic.hasEnded = true) :
    traffic.writer = some (Task.done ()) := by
  unfold hasEnded at ended
  split at ended
  · assumption
  · cases ended

/-- A reader on its way, and what it may bring of the node. -/
def Bringing (fits : Option Bundle → Prop) (id : NodeId) (scene : Scene)
    (task : Task RepositoryError Unit) : Prop :=
  ∃ stage : Stage, stage.Valid scene ∧ stage.Brings fits id (scene.generation id) ∧
    task.Meets reading (fun _ stage => stage = .free) (fun _ _ => True) stage

/-- In the midst of a store all that is said of the node, or about to be said, is shown by the
store. -/
structure Midst (threshold : Nat) (log : ChangeLog) (before : Contents) (id : NodeId)
    (fate : Option Draft) (traffic : Traffic backend) (now : Moment) : Prop where
  sound : traffic.system.Sound now
  valid : now.stage.Valid (traffic.system.scene now)
  standing : ∃ task, traffic.writer = some task ∧
    Repository.Standing threshold log before fate task now
  stated : traffic.system.Says (log.Shows before fate id) id
  brings : now.stage.Brings (log.Shows before fate id) id (traffic.system.cache.generation id)
  readers : ∀ task ∈ traffic.readers,
    Bringing (log.Shows before fate id) id (traffic.system.scene now) task

theorem Bringing.follows {fits : Option Bundle → Prop} {early late : Scene}
    {task : Task RepositoryError Unit} (bringing : Bringing fits id early task)
    (follows : late.Follows early) : Bringing fits id late task := by
  obtain ⟨stage, valid, brings, meets⟩ := bringing
  exact ⟨stage, valid.follows follows, brings.follows valid follows, meets⟩

theorem Bringing.mono {fits wider : Option Bundle → Prop} {scene : Scene}
    {task : Task RepositoryError Unit} (bringing : Bringing fits id scene task)
    (implied : ∀ record, fits record → wider record) : Bringing wider id scene task := by
  obtain ⟨stage, valid, brings, meets⟩ := bringing
  exact ⟨stage, valid, brings.mono implied, meets⟩

namespace Midst

variable {traffic : Traffic backend} {now : Moment}

theorem record (midst : Midst threshold log before id fate traffic now) (proper : before.Proper) :
    log.Shows before fate id (now.contents.bundles id) := by
  obtain ⟨_task, _writer, standing⟩ := midst.standing
  exact (standing.midway proper).record id

/-- A read goes by a record that the store shows. -/
theorem shows (midst : Midst threshold log before id fate traffic now) (proper : before.Proper)
    {record : Option Bundle} (goesBy : traffic.system.GoesBy id record) :
    log.Shows before fate id record := by
  unfold System.GoesBy at goesBy
  cases held : traffic.system.cache.held? id with
  | none =>
      rw [held] at goesBy
      rw [show record = now.contents.bundles id by rw [← midst.sound.contents]; exact goesBy]
      exact midst.record proper
  | some entry =>
      rw [held] at goesBy
      obtain ⟨told, shown, tells⟩ := midst.stated entry held
      rw [goesBy.unique tells]
      exact shown

theorem request (midst : Midst threshold log before id fate traffic now) (request : Request) :
    Midst threshold log before id fate { traffic with readers := request.task :: traffic.readers }
      now := by
  refine ⟨midst.sound, midst.valid, midst.standing, midst.stated, midst.brings, fun task member => ?_⟩
  rcases List.mem_cons.mp member with rfl | other
  · exact ⟨.free, trivial, fun _found impossible => (by cases impossible), Reads.request request⟩
  · exact midst.readers task other

theorem read {system : System backend} {readers : List (Task RepositoryError Unit)} {place : Nat}
    {writer : Option (Task RepositoryError Unit)} {action : Action}
    {rest : action.Result → Task RepositoryError Unit}
    (midst : Midst threshold log before id fate ⟨system, readers, writer⟩ now)
    (proper : before.Proper) (reader : readers[place]? = some (Task.act action rest)) :
    Midst threshold log before id fate
      ⟨(System.serve action system).2, readers.set place (rest (System.serve action system).1),
        writer⟩ now := by
  have record := midst.record proper
  obtain ⟨sound, valid, standing, stated, brings, bringing⟩ := midst
  obtain ⟨stage, stageValid, stageBrings, permits, meets⟩ :=
    bringing _ (List.mem_of_getElem? reader)
  obtain ⟨steps, stays⟩ := System.steps_reading now sound rfl (fun _id known => known) stageValid
    permits
  have noted (other : NodeId) (loads : action = .storage (.loadBundle other)) :
      ∃ count, stage = .noted other count := by
    subst loads
    exact permits
  refine ⟨steps.sound, valid.follows steps.follows, standing,
    stated.reading sound.sharded stageValid permits stageBrings,
    brings.follows valid steps.follows, fun task member => ?_⟩
  rcases List.mem_or_eq_of_mem_set member with other | rfl
  · exact (bringing task other).follows steps.follows
  · exact ⟨_, stays, Stage.brings_after sound noted stageValid steps.follows record stageBrings,
      meets _⟩

theorem work {system : System backend} {readers : List (Task RepositoryError Unit)}
    {action : Action} {rest : action.Result → Task RepositoryError Unit}
    (midst : Midst threshold log before id fate ⟨system, readers, some (Task.act action rest)⟩ now)
    (proper : before.Proper) :
    (rest (System.serve action system).1).Lost ∨ ∃ later next,
      Midst threshold log before id later ⟨(System.serve action system).2, readers,
        some (rest (System.serve action system).1)⟩ next ∧
      ∀ draft, fate = some draft → later = some draft := by
  have record := midst.record proper
  obtain ⟨sound, valid, ⟨_task, writer, standing⟩, stated, brings, bringing⟩ := midst
  cases writer
  obtain ⟨permits, further⟩ := standing.step
  obtain ⟨next, leads, steps, stays⟩ := System.steps_writing backend.failsOnly_any sound valid
    permits
  rcases further _ next leads with lost | ⟨later, stands, same⟩
  · exact Or.inl lost
  · apply Or.inr
    have wider (record : Option Bundle) (shows : log.Shows before fate id record) :
        log.Shows before later id record := shows.later same
    have noted (other : NodeId) (loads : action = .storage (.loadBundle other)) :
        ∃ count, now.stage = .noted other count := by
      subst loads
      exact permits
    have brought := Stage.brings_after sound noted valid steps.follows record brings
    rw [← leads.stage] at brought
    refine ⟨later, next, ⟨steps.sound, stays, ⟨_, rfl, stands⟩,
      (stated.writing sound.sharded valid permits brings record).mono wider, brought.mono wider,
      fun task member => ?_⟩, same⟩
    exact ((bringing task member).follows steps.follows).mono wider

end Midst

/-- The writer will not end well. -/
def Lost (traffic : Traffic backend) : Prop := ∃ task, traffic.writer = some task ∧ task.Lost

theorem Lost.storing {start traffic : Traffic backend} (lost : start.Lost)
    (storing : Storing threshold start traffic) : traffic.Lost := by
  induction storing with
  | start => exact lost
  | step reached step goesOn ih =>
      obtain ⟨task, writer, never⟩ := ih
      cases step with
      | request traffic request => exact ⟨task, writer, never⟩
      | read system readers place other reader => exact ⟨task, writer, never⟩
      | write system readers write => cases writer
      | work system readers action rest =>
          cases writer
          exact ⟨_, rfl, never _⟩
      | finish system readers => cases goesOn
      | fail system readers error => cases goesOn

/-- The store goes on from where it stands, and keeps to its draft; or it is lost. -/
theorem Midst.storing {start traffic : Traffic backend} {now : Moment}
    (midst : Midst threshold log before id fate start now) (proper : before.Proper)
    (storing : Storing threshold start traffic) :
    traffic.Lost ∨ ∃ later next, Midst threshold log before id later traffic next ∧
      ∀ draft, fate = some draft → later = some draft := by
  induction storing with
  | start => exact Or.inr ⟨fate, now, midst, fun _draft known => known⟩
  | step reached step goesOn ih =>
      rcases ih with lost | ⟨later, next, midst, same⟩
      · exact Or.inl (lost.storing (Storing.start.step step goesOn))
      · cases step with
        | request traffic request => exact Or.inr ⟨later, next, midst.request request, same⟩
        | read system readers place writer reader =>
            exact Or.inr ⟨later, next, midst.read proper reader, same⟩
        | write system readers write =>
            obtain ⟨_task, impossible, _standing⟩ := midst.standing
            cases impossible
        | work system readers action rest =>
            rcases midst.work proper with lost | ⟨last, final, midst, sameLast⟩
            · exact Or.inl ⟨_, rfl, lost⟩
            · exact Or.inr ⟨last, final, midst, fun draft known => sameLast draft (same draft known)⟩
        | finish system readers => cases goesOn
        | fail system readers error => cases goesOn

/-- Where a store starts, the cache tells the old records. -/
theorem Kept.midst {holds : Contents → Prop} {system : System backend}
    {readers : List (Task RepositoryError Unit)} {now : Moment}
    (kept : (⟨system, readers, none⟩ : Traffic backend).Kept Faults.any holds now)
    (threshold : Nat) (log : ChangeLog) (id : NodeId) :
    (⟨system, readers, some (Repository.store threshold log)⟩ : Traffic backend).Lost ∨ ∃ fate,
      Midst threshold log now.contents id fate
        ⟨system, readers, some (Repository.store threshold log)⟩ now := by
  obtain ⟨sound, valid, ⟨free, _held⟩, reading⟩ := kept
  obtain ⟨_stage, contents⟩ := now
  obtain rfl := free
  rcases Repository.standing_of_store threshold log contents with lost | ⟨fate, standing⟩
  · exact Or.inl ⟨_, rfl, lost⟩
  · refine Or.inr ⟨fate, sound, trivial, ⟨_, rfl, standing⟩, fun entry held => ?_,
      fun _found impossible => (by cases impossible), fun task member => ?_⟩
    · exact ⟨_, Or.inl rfl, sound.tells held (fun behind => behind)⟩
    · obtain ⟨stage, stageValid, meets⟩ := reading task member
      refine ⟨stage, stageValid, fun found loaded => ?_, meets⟩
      rw [loaded] at stageValid
      exact Or.inl (stageValid.2.2 rfl (fun behind => behind))

/-- A store that has ended well has left behind what it had drafted. -/
theorem Midst.ended {traffic : Traffic backend} {now : Moment}
    (midst : Midst threshold log before id fate traffic now)
    (done : traffic.writer = some (Task.done ())) (proper : before.Proper) :
    now.stage = .free ∧ ∃ draft cleared, fate = some draft ∧
      Drafted Faults.any threshold log before cleared draft ∧
      now.contents.bundles = draft.bundle? ∧ now.contents.blobs = draft.contents.blobs := by
  obtain ⟨task, writer, standing⟩ := midst.standing
  obtain rfl : Task.done () = task := Option.some.inj (done.symm.trans writer)
  cases standing with
  | settled drawn free settled =>
      exact ⟨free, _, _, rfl, drawn.drafted proper, settled.bundles drawn.inOrder,
        (settled.landed drawn.inOrder).blobs⟩

end Traffic

/-! ### What is read -/

theorem Contents.property_congr {left right : Contents} {property : PropertyId}
    (record : left.bundles property.node = right.bundles property.node)
    (blobs : ∀ stored, entryOf right.bundles property = some stored →
      ∀ blob ∈ stored.blobs, left.blobs blob = right.blobs blob) :
    left.property property = right.property property := by
  have same : entryOf left.bundles property = entryOf right.bundles property := entryOf_congr record
  unfold Contents.property
  rw [same, record]
  cases found : entryOf right.bundles property with
  | none => rfl
  | some stored =>
      exact congrArg (Except.mapError RepositoryError.storage)
        (Contents.stateOf_congr (blobs stored found))

/-- The node has been deleted, and the log adds it again. -/
def ChangeLog.Withholds (log : ChangeLog) (before : Contents) (middle : System backend)
    (id : NodeId) : Prop :=
  before.bundles id ≠ none ∧ middle.GoesBy id none ∧ log.Deletes id ∧
    ∃ node ∈ log.addedNodes, node.id = id

/-- The property is still shown by its old record, and a blob of it has been released already, or
written over: for its node, which is deleted, or for a property that the log touches. -/
def ChangeLog.Uproots (log : ChangeLog) (before : Contents) (middle : System backend)
    (property : PropertyId) : Prop :=
  ∃ stored blob, entryOf before.bundles property = some stored ∧ blob ∈ stored.blobs ∧
    middle.GoesBy property.node (before.bundles property.node) ∧
    middle.contents.blobs blob ≠ before.blobs blob ∧
    (log.Deletes property.node ∨ ∃ other, log.Touches other ∧ middle.contents.SlotOf other blob)

/-- Where the store stands now, it disturbs those who read the property. -/
def ChangeLog.Disturbs (log : ChangeLog) (before : Contents) (middle : System backend)
    (property : PropertyId) : Prop :=
  log.Withholds before middle property.node ∨ log.Uproots before middle property

theorem ChangeLog.calm_of_shown {middle : System backend} {property : PropertyId}
    (stays : ¬ log.Deletes property.node)
    (shown : ¬ middle.GoesBy property.node (before.bundles property.node)) :
    ¬ log.Disturbs before middle property := by
  rintro (⟨_held, _gone, deletes, _added⟩ | ⟨_stored, _blob, _found, _own, old, _rest⟩)
  · exact stays deletes
  · exact shown old

theorem ChangeLog.calm_of_blobs {middle : System backend} {property : PropertyId}
    (stays : ¬ log.Deletes property.node)
    (same : ∀ stored, entryOf before.bundles property = some stored →
      ∀ blob ∈ stored.blobs, middle.contents.blobs blob = before.blobs blob) :
    ¬ log.Disturbs before middle property := by
  rintro (⟨_held, _gone, deletes, _added⟩ | ⟨stored, blob, found, own, _old, differs, _cause⟩)
  · exact stays deletes
  · exact differs (same stored found blob own)

theorem ChangeLog.blobs_of_undisturbed {middle : System backend} {property : PropertyId}
    (calm : ¬ log.Disturbs before middle property)
    (midway : Contents.Midway log before middle.contents fate)
    (old : middle.GoesBy property.node (before.bundles property.node)) {stored : StoredProperty}
    (found : entryOf before.bundles property = some stored) {blob : String}
    (own : blob ∈ stored.blobs) : middle.contents.blobs blob = before.blobs blob := by
  by_contra differs
  have uprooted (cause : log.Deletes property.node ∨
      ∃ other, log.Touches other ∧ middle.contents.SlotOf other blob) : False :=
    calm (Or.inr ⟨stored, blob, found, own, old, differs, cause⟩)
  exact differs (midway.spared found (fun deletes => uprooted (Or.inl deletes)) blob own
    (fun other touches given => uprooted (Or.inr ⟨other, touches, given⟩)))

theorem Drafted.absent_of_deleted {faults : Faults} {cleared : Contents} {draft : Draft}
    (drafted : Drafted faults threshold log before cleared draft) (deletes : log.Deletes id)
    (others : ∀ node ∈ log.addedNodes, node.id ≠ id) : draft.bundle? id = none := by
  obtain ⟨node, member, rfl⟩ := deletes
  apply Change.absent_of_chain drafted.made
  rw [Draft.start_of_not_added others]
  exact drafted.absent node member

/-- By each record that the store shows, the property is read as it was or as it will be. -/
theorem ChangeLog.property_of_undisturbed {middle : System backend} {seen final : Contents}
    {property : PropertyId} (calm : ¬ log.Disturbs before middle property)
    (midway : Contents.Midway log before middle.contents fate)
    (blobs : seen.blobs = middle.contents.blobs)
    (goesBy : middle.GoesBy property.node (seen.bundles property.node))
    (shows : log.Shows before fate property.node (seen.bundles property.node))
    (deleted : log.Deletes property.node →
      (∀ node ∈ log.addedNodes, node.id ≠ property.node) → final.bundles property.node = none)
    (drawn : ∀ draft, fate = some draft →
      final.bundles = draft.bundle? ∧ final.blobs = draft.contents.blobs) :
    seen.property property = before.property property ∨
      seen.property property = final.property property := by
  rcases shows with old | ⟨gone, deletes⟩ | ⟨draft, known, written⟩
  · apply Or.inl
    refine Contents.property_congr old (fun stored held blob own => ?_)
    rw [blobs]
    exact log.blobs_of_undisturbed calm midway (old ▸ goesBy) held own
  · by_cases held : before.bundles property.node = none
    · apply Or.inl
      exact Contents.property_congr (gone.trans held.symm)
        (fun stored found => absurd held (held_of_entry found))
    · apply Or.inr
      have absent : final.bundles property.node = none :=
        deleted deletes (fun node member named =>
          calm (Or.inl ⟨held, gone ▸ goesBy, deletes, node, member, named⟩))
      exact Contents.property_congr (gone.trans absent.symm)
        (fun stored found => absurd absent (held_of_entry found))
  · apply Or.inr
    obtain ⟨bundles, landed⟩ := drawn draft known
    refine Contents.property_congr (written.trans (congrFun bundles _).symm)
      (fun stored held blob own => ?_)
    rw [blobs, midway.blobs draft known, landed]

namespace Traffic

/-- While the store disturbs those who read the property, it is not read as it was. -/
theorem unread_of_disturbed (reliable : backend.FailsOnly Faults.none) {system : System backend}
    {now : Moment} (sound : system.Sound now) {property : PropertyId}
    (disturbs : log.Disturbs before system property) {state : Property}
    (old : before.property property = .ok state) : system.property property ≠ .ok state := by
  obtain ⟨seen, seenBlobs, goesBy, reads⟩ := sound.property_seen reliable property
  rw [reads]
  intro again
  rcases disturbs with ⟨_held, gone, _deletes, _added⟩ |
    ⟨stored, blob, found, own, shown, differs, _cause⟩
  · have absent : seen.bundles property.node = none := goesBy.unique gone
    unfold Contents.property at again
    rw [entryOf_of_none absent, absent] at again
    cases again
  · have foundAgain : entryOf seen.bundles property = some stored :=
      (entryOf_congr (goesBy.unique shown)).trans found
    have same : seen.blobs blob = before.blobs blob :=
      Contents.blobs_of_same_state (Contents.stateOf_of_property foundAgain again)
        (Contents.stateOf_of_property found old) own
    exact differs ((congrFun seenBlobs blob).symm.trans same)

/-- A property that is read from its beginning to its end between two actions of a store that ends
well is what it was just before the store, or what it is just after it, whatever other readers do
meanwhile, unless the store disturbs it there; and where it does, the property is not what it
was. -/
theorem property_between (backend : Backend) (reliable : backend.FailsOnly Faults.none)
    (origin : System backend) (reachable : origin.Reachable) (threshold : Nat) (log : ChangeLog)
    (system : System backend) (readers : List (Task RepositoryError Unit))
    (quiet : Reaches threshold (idle origin) ⟨system, readers, none⟩) (middle last : Traffic backend)
    (begun : Storing threshold ⟨system, readers, some (Repository.store threshold log)⟩ middle)
    (further : Storing threshold middle last) (ended : last.writer = some (Task.done ()))
    (property : PropertyId) :
    (¬ log.Disturbs system.contents middle.system property →
      middle.system.property property = system.property property ∨
        middle.system.property property = last.system.property property) ∧
    (log.Disturbs system.contents middle.system property → ∀ state,
      system.property property = .ok state → middle.system.property property ≠ .ok state) := by
  obtain ⟨rest, proper⟩ := reachable.atRest
  obtain ⟨start, kept⟩ := reaches_kept backend.failsOnly_any
    (System.writes_proper Faults.any threshold) quiet (idle_kept rest rfl proper)
  have properBefore := kept.writing.2
  have atRest : system.AtRest := kept.sound.atRest kept.writing.1
  have contents : system.contents = start.contents := kept.sound.contents
  have found := kept.midst threshold log property.node
  rw [← contents] at found properBefore
  have notLost : ¬ last.Lost := by
    rintro ⟨task, writer, lost⟩
    obtain rfl : Task.done () = task := Option.some.inj (ended.symm.trans writer)
    exact lost
  -- The store stands somewhere in the middle, and goes on from there to the end.
  rcases found with lost | ⟨_first, midst⟩
  · exact absurd ((lost.storing begun).storing further) notLost
  rcases midst.storing properBefore begun with lost | ⟨fate, now, midst, _same⟩
  · exact absurd (lost.storing further) notLost
  rcases midst.storing properBefore further with lost | ⟨_last, final, finish, same⟩
  · exact absurd lost notLost
  obtain ⟨free, draft, cleared, rfl, drafted, bundles, blobs⟩ := finish.ended ended properBefore
  have lastRest : last.system.AtRest := finish.sound.atRest free
  rw [← finish.sound.contents] at bundles blobs
  obtain ⟨_task, _writer, standing⟩ := midst.standing
  have midway := standing.midway properBefore
  rw [← midst.sound.contents] at midway
  rw [atRest.property reliable, lastRest.property reliable]
  constructor
  case right =>
    intro disturbs state old
    exact unread_of_disturbed reliable midst.sound disturbs old
  case left =>
    intro calm
    obtain ⟨seen, seenBlobs, goesBy, reads⟩ := midst.sound.property_seen reliable property
    rw [reads]
    refine log.property_of_undisturbed calm midway seenBlobs goesBy
      (midst.shows properBefore goesBy) (fun deletes others => ?_) (fun _draft known => ?_)
    · rw [bundles]
      exact drafted.absent_of_deleted deletes others
    · obtain rfl : draft = _draft := Option.some.inj (same _draft known)
      exact ⟨bundles, blobs⟩

/-- Another node is added with a letter of its own, and the letter of the first one is to be a
number. -/
def secondLog : ChangeLog :=
  { ChangeLog.empty with
    added := [.node (Node.fresh System.other Name.unstructured none)]
    modified :=
      [.property (Property.single System.letter (.long 5)),
        .property (Property.single ⟨System.other, ⟨"", "letter"⟩⟩ (.binary [4, 5, 6]))] }

def secondStart : Traffic MemoryStorage.backend :=
  ⟨System.afterLetter, [], some (Repository.store 2 secondLog)⟩

/-- A reader has loaded the old record of the first node, and the store has come so far. -/
def secondTurns (count : Nat) : List Turn :=
  [.request (.loadNode NodeId.zero), .read 0, .read 0, .read 0] ++ List.replicate count .work

def secondAt (count : Nat) : Traffic MemoryStorage.backend := play 2 (secondTurns count) secondStart

def secondRest (count : Nat) : List Turn := .read 0 :: List.replicate (11 - count) .work

def secondEnd (count : Nat) : Traffic MemoryStorage.backend :=
  play 2 (secondRest count) (secondAt count)

theorem secondLog_stays (id : NodeId) : ¬ secondLog.Deletes id :=
  fun ⟨_node, member, _named⟩ => nomatch member

set_option maxRecDepth 2500 in
theorem letter_blobs {stored : StoredProperty}
    (found : entryOf System.afterLetter.contents.bundles System.letter = some stored) :
    stored.blobs = ["00/00/0000000000000000000000000000/letter.0"] := by
  have listed : (entryOf System.afterLetter.contents.bundles System.letter).map
      StoredProperty.blobs = some ["00/00/0000000000000000000000000000/letter.0"] := by
    decide +kernel
  rw [found] at listed
  exact Option.some.inj listed

set_option maxRecDepth 2500 in
/-- The blob is to be released next; until then it is there. -/
theorem letter_calm_early :
    ¬ secondLog.Disturbs System.afterLetter.contents (secondAt 4).system System.letter := by
  apply ChangeLog.calm_of_blobs (secondLog_stays _)
  intro stored found blob own
  rw [letter_blobs found] at own
  obtain rfl := List.mem_singleton.mp own
  decide +kernel

set_option maxRecDepth 2500 in
/-- The blob is gone, and while the new record is written already, the cache still has the old
one. -/
theorem letter_disturbed :
    secondLog.Disturbs System.afterLetter.contents (secondAt 8).system System.letter := by
  have there : (entryOf System.afterLetter.contents.bundles System.letter).isSome = true := by
    decide +kernel
  obtain ⟨stored, found⟩ := Option.isSome_iff_exists.mp there
  refine Or.inr ⟨stored, "00/00/0000000000000000000000000000/letter.0", found, ?_,
    by decide +kernel, by decide +kernel, Or.inr ⟨System.letter, ?_, 0, by decide +kernel⟩⟩
  · rw [letter_blobs found]
    exact List.mem_singleton_self _
  · exact ⟨.put (Property.single System.letter (.long 5)),
      ChangeLog.mem_changes_put.mpr (Or.inl List.mem_cons_self), rfl, by decide⟩

set_option maxRecDepth 2500 in
/-- The cache has the new record. -/
theorem letter_calm_late :
    ¬ secondLog.Disturbs System.afterLetter.contents (secondAt 9).system System.letter :=
  ChangeLog.calm_of_shown (secondLog_stays _) (by decide +kernel)

set_option maxRecDepth 2500 in
theorem letter_between :
    ((secondAt 4).system.property System.letter = System.afterLetter.property System.letter ∨
      (secondAt 4).system.property System.letter = (secondEnd 4).system.property System.letter) ∧
    (secondAt 8).system.property System.letter ≠
      .ok { Property.single System.letter (.binary [1, 2, 3]) with status := .existing } ∧
    ((secondAt 9).system.property System.letter = System.afterLetter.property System.letter ∨
      (secondAt 9).system.property System.letter = (secondEnd 9).system.property System.letter) := by
  have between (count : Nat) (begun : goesOn 2 (secondTurns count) secondStart = true)
      (further : goesOn 2 (secondRest count) (secondAt count) = true)
      (ended : (secondEnd count).hasEnded = true) :=
    property_between MemoryStorage.backend MemoryStorage.backend_failsOnly System.afterLetter
      System.afterLetter_reachable 2 secondLog System.afterLetter [] Reaches.start (secondAt count)
      (secondEnd count) (storing_play Storing.start _ begun) (storing_play Storing.start _ further)
      (writer_of_hasEnded ended) System.letter
  refine ⟨(between 4 ?_ ?_ ?_).1 letter_calm_early,
    (between 8 ?_ ?_ ?_).2 letter_disturbed _ ?_, (between 9 ?_ ?_ ?_).1 letter_calm_late⟩
  all_goals decide +kernel

/-! ### A letter that cannot be read -/

/-- The letter is to be a number. -/
def numberLog : ChangeLog :=
  { ChangeLog.empty with modified := [.property (Property.single System.letter (.long 5))] }

def numberStart : Traffic MemoryStorage.backend :=
  ⟨System.afterLetter, [], some (Repository.store 2 numberLog)⟩

/-- The old blob has just been released, and the new record is staged. -/
def numberMiddle : Traffic MemoryStorage.backend := play 2 (List.replicate 5 .work) numberStart

def numberLast : Traffic MemoryStorage.backend := play 2 (List.replicate 2 .work) numberMiddle

set_option maxRecDepth 2500 in
/-- Between the release of a blob and the writing of the record the property is neither what it was
nor what it will be. -/
theorem letter_unread :
    System.afterLetter.Reachable ∧ Storing 2 numberStart numberMiddle ∧
      Storing 2 numberMiddle numberLast ∧ numberLast.writer = some (Task.done ()) ∧
      System.afterLetter.property System.letter =
        .ok { Property.single System.letter (.binary [1, 2, 3]) with status := .existing } ∧
      numberLast.system.property System.letter =
        .ok { Property.single System.letter (.long 5) with status := .existing } ∧
      numberMiddle.system.property System.letter =
        .error (.storage (.blobNotFound "00/00/0000000000000000000000000000/letter.0")) :=
  ⟨System.afterLetter_reachable, storing_play Storing.start _ (by decide +kernel),
    storing_play Storing.start _ (by decide +kernel), writer_of_hasEnded (by decide +kernel),
    by decide +kernel, by decide +kernel, by decide +kernel⟩

end Traffic

end BundleStore
