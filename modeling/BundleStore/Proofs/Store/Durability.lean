import BundleStore.Proofs.Coherence.Sessions
import BundleStore.Proofs.Storage.Openings
import BundleStore.Proofs.Store.Aftermath
import BundleStore.Proofs.Store.Lasting
import BundleStore.Proofs.Store.Readable
import BundleStore.Proofs.Store.Remains

set_option autoImplicit false

/-! A repository in files from session to session. Each session numbers the namespaces anew, so the
blob identifiers of two sessions may be the same for two properties, and then one of them is lost.
Short of that, what was stored last is read back in every later session. -/

namespace BundleStore

/-! ### What has been stored last -/

/-- The state that each property has been stored with, unless it is gone. -/
abbrev Ledger := PropertyId → Option Property

namespace ChangeLog

variable {log : ChangeLog} {ledger : Ledger} {property : PropertyId} {state : Property}

instance (log : ChangeLog) (property : PropertyId) : Decidable (log.Names property) :=
  inferInstanceAs (Decidable (∃ item ∈ log.items, item.id = .property property))

def put? (log : ChangeLog) (property : PropertyId) : Option Property :=
  (log.modifiedProperties ++ log.addedProperties).find? (fun state => state.id = property)

/-- What the log puts is stored last; what else it names is gone, as are properties of deleted
nodes. -/
def record (log : ChangeLog) (ledger : Ledger) : Ledger := fun property =>
  match log.put? property with
  | some state => some state
  | none => if log.Names property ∨ log.Deletes property.node then none else ledger property

theorem put?_eq_some (put : log.put? property = some state) :
    log.Puts state ∧ state.id = property := by
  have named := List.find?_some put
  exact ⟨List.mem_append.mp (List.mem_of_find?_eq_some put), of_decide_eq_true named⟩

theorem record_eq_some (stored : log.record ledger property = some state) :
    log.Puts state ∧ state.id = property ∨
      ¬ log.Names property ∧ ¬ log.Deletes property.node ∧ ledger property = some state := by
  unfold record at stored
  split at stored
  · rename_i put
    cases stored
    exact Or.inl (put?_eq_some put)
  · split at stored
    · cases stored
    · rename_i untouched
      obtain ⟨unnamed, stays⟩ := not_or.mp untouched
      exact Or.inr ⟨unnamed, stays, stored⟩

end ChangeLog

/-! ### Histories -/

namespace Session

variable {session : Session} {root : Location} {tree : FileTree}

/-- The session is opened on the files below the root. No file tells the numbers of the namespaces,
so only those are known that every repository knows. -/
def Opens (root : Location) (tree : FileTree) (session : Session) : Prop :=
  FileStorage.Unregistered root tree ∧ ∃ settings storage after,
    FileStorage.openRoot root Interner.namespaces tree = (.ok storage, after) ∧
      Session.start settings (.files storage) = .ok session

/-- All files, as the session leaves them. -/
def tree? (session : Session) : Option FileTree := session.storage.files?.map FileStorage.tree

/-- The records in storage. -/
def records (session : Session) : Records := fun id =>
  match (session.direct (.loadBundle id)).1 with
  | .ok found => found
  | .error _ => none

/-- By the numbers of this session the blob is the one for this place of the property. -/
def Gives (session : Session) (property : PropertyId) (place : Nat) (blob : String) : Prop :=
  (session.direct (.createBlobId property place)).1 = .ok blob

/-- A store from one state of the session to the next puts a blob in the place of one that another
property holds. -/
def Collides (before : Session) (log : ChangeLog) (after : Session) : Prop :=
  log.Collides before.blobThreshold after.Gives
    (fun property stored => entryOf before.records property = some stored)

end Session

/-- The sessions on one root, one after another. The stores that succeed, of logs that name no item
twice and add no node that is stored, are those that are allowed; anything may be read in between.
Each session finds the files as the one before has left them. -/
inductive History (allowed : Session → ChangeLog → Session → Prop) (root : Location) :
    Session → Ledger → Prop where
  | first {tree : FileTree} {session : Session} (closed : tree.Closed)
      (bare : FileStorage.Bare root tree) (opens : session.Opens root tree) :
      History allowed root session (fun _ => none)
  | stored {session next : Session} {ledger : Ledger} {log : ChangeLog}
      (history : History allowed root session ledger) (distinct : log.Distinct)
      (fresh : ∀ node ∈ log.addedNodes, session.records node.id = none)
      (stores : session.run (Repository.store session.blobThreshold log) = (.ok (), next))
      (allows : allowed session log next) : History allowed root next (log.record ledger)
  | asked {session : Session} {ledger : Ledger} (history : History allowed root session ledger)
      (request : Request) : History allowed root (session.run request.task).2 ledger
  | reopened {session next : Session} {ledger : Ledger} {tree : FileTree}
      (history : History allowed root session ledger) (left : session.tree? = some tree)
      (opens : next.Opens root tree) : History allowed root next ledger

/-! ### What a session keeps -/

theorem FileStorage.Kept.apart (kept : FileStorage.Kept) : kept.contents.Apart :=
  fun left right => ((kept.sound.given _ _ _ left).injective kept.sound.numbered.agrees
    (kept.sound.given _ _ _ right)).1

theorem System.serve_root (action : Action) (system : System FileStorage.backend) :
    (System.serve action system).2.storage.storage.root = system.storage.storage.root := by
  cases action with
  | storage call => exact FileStorage.serveKept_root call system.storage
  | cache step => rfl
  | warn warning => rfl

/-- All that has been stored last can be read from the contents. -/
def Contents.Fulfils (contents : Contents) (ledger : Ledger) : Prop :=
  ∀ property state, property.name.isIdentity = false → ledger property = some state →
    ∃ stored, entryOf contents.bundles property = some stored ∧
      contents.stateOf stored = .ok { state with status := .existing }

theorem Contents.Fulfils.moved {before after : Contents} {ledger : Ledger}
    (fulfils : before.Fulfils ledger) (bundles : after.bundles = before.bundles)
    (blobs : after.blobs = before.blobs) : after.Fulfils ledger := by
  intro property state plain known
  obtain ⟨stored, found, reads⟩ := fulfils property state plain known
  refine ⟨stored, ?_, ?_⟩
  · rw [bundles]
    exact found
  · rw [← reads]
    exact Contents.stateOf_congr (fun blob _own => congrFun blobs blob)

theorem ChangeLog.Lasting.fulfils {log : ChangeLog} {before after : Contents} {ledger : Ledger}
    (lasting : log.Lasting before after) (fulfils : before.Fulfils ledger) :
    after.Fulfils (log.record ledger) := by
  intro property state plain known
  rcases ChangeLog.record_eq_some known with ⟨puts, rfl⟩ | ⟨unnamed, stays, earlier⟩
  · exact lasting.puts state puts plain
  · obtain ⟨stored, found, reads⟩ := fulfils property state plain earlier
    obtain ⟨still, same⟩ := lasting.others property stored unnamed stays found
    exact ⟨stored, still, same.trans reads⟩

namespace Session

variable {session next : Session} {root : Location} {tree : FileTree} {ledger : Ledger}
  {system : System FileStorage.backend}

/-- The session works on files below the root, no blob is held twice, and what has been stored last
is there. -/
structure Keeps (root : Location) (ledger : Ledger) (session : Session)
    (system : System FileStorage.backend) : Prop where
  mirrors : session.Mirrors system
  placed : system.storage.storage.root = root
  rest : system.AtRest
  plain : system.contents.Plain
  parted : Parted system.contents.bundles
  fulfils : system.contents.Fulfils ledger

theorem Mirrors.direct (mirrors : session.Mirrors system) (call : StorageCall) :
    (session.direct call).1 = (system.storage.storage.serve call).1 := by
  rw [Session.direct, mirrors.storage]
  rfl

theorem Mirrors.records (mirrors : session.Mirrors system) :
    session.records = system.contents.bundles := by
  funext id
  rw [Session.records, mirrors.direct]
  cases loaded : system.storage.storage.loadBundle id with
  | ok found =>
      simp only [FileStorage.serve, loaded]
      exact FileStorage.loadBundle_ok loaded
  | error cause =>
      simp only [FileStorage.serve, loaded]
      refine (Option.eq_none_iff_forall_ne_some.mpr fun bundle held => ?_).symm
      rw [FileStorage.loadBundle_held held] at loaded
      cases loaded

theorem Mirrors.gives (mirrors : session.Mirrors system) {property : PropertyId} {place : Nat}
    {blob : String} (given : system.contents.slots property place = some blob) :
    session.Gives property place blob := by
  have names := system.storage.sound.given property place blob given
  rw [Gives, mirrors.direct]
  simp only [FileStorage.serve, FileStorage.serve.quiet, FileStorage.onBlobs, BlobFolder.createId,
    names.blobPath]
  rfl

theorem Mirrors.left (mirrors : session.Mirrors system) (left : session.tree? = some tree) :
    tree = system.storage.storage.tree := by
  rw [tree?, mirrors.storage] at left
  exact (Option.some.inj left).symm

/-- Whatever was left is found. -/
theorem Opens.finds (opens : session.Opens root tree) (left : FileStorage.Left root tree) :
    ∃ system : System FileStorage.backend, session.Mirrors system ∧
      system.storage.storage.root = root ∧ system.AtRest ∧
      system.contents.bundles = Pieces.bundle? (FileStorage.piecesIn root tree) ∧
      system.contents.blobs = Pieces.blob? (FileStorage.piecesIn root tree) := by
  obtain ⟨unregistered, settings, storage, after, opened, started⟩ := opens
  obtain ⟨placed, sound, held⟩ :=
    FileStorage.openRoot_ok Interner.namespaces_agrees left unregistered opened
  rw [Session.start] at started
  split at started
  · cases started
  · cases started
    refine ⟨System.fresh ⟨storage, fun _ _ => none, sound⟩ _ _ spread, ⟨rfl, rfl, rfl⟩, placed,
      System.fresh_atRest _ _ _ _, ?_, ?_⟩
    · exact Pieces.bundle?_congr (fun id => held (.bundle id) (by simp))
    · exact Pieces.blob?_congr (fun blob => held (.blob blob) (by simp))

theorem Opens.finds_none (opens : session.Opens root tree) (closed : tree.Closed)
    (bare : FileStorage.Bare root tree) : ∃ system : System FileStorage.backend,
      session.Mirrors system ∧ system.storage.storage.root = root ∧ system.AtRest ∧
        system.contents.bundles = fun _ => none := by
  obtain ⟨system, mirrors, placed, rest, bundles, _blobs⟩ := opens.finds (bare.left closed)
  refine ⟨system, mirrors, placed, rest, bundles.trans (funext fun id => ?_)⟩
  rw [Pieces.bundle?, bare.none closed]
  rfl

theorem Keeps.first (closed : tree.Closed) (bare : FileStorage.Bare root tree)
    (opens : session.Opens root tree) : ∃ system, session.Keeps root (fun _ => none) system := by
  obtain ⟨system, mirrors, placed, rest, none⟩ := opens.finds_none closed bare
  refine ⟨system, mirrors, placed, rest, fun id bundle held => ?_, fun found _ _ _ => ?_,
    fun property state plain impossible => ?_⟩
  · rw [none] at held
    cases held
  · rw [none] at found
    cases found
  · cases impossible

theorem Keeps.reopened (keeps : session.Keeps root ledger system)
    (left : session.tree? = some tree) (opens : next.Opens root tree) :
    ∃ system, next.Keeps root ledger system := by
  obtain ⟨mirrors, placed, rest, plain, parted, fulfils⟩ := keeps
  obtain rfl := mirrors.left left
  subst placed
  obtain ⟨later, mirrors, placed, rest, bundles, blobs⟩ := opens.finds system.storage.sound.left
  have records : later.contents.bundles = system.contents.bundles := bundles
  refine ⟨later, mirrors, placed, rest, plain.congr records, ?_, fulfils.moved records blobs⟩
  rw [records]
  exact parted

theorem Keeps.asked (keeps : session.Keeps root ledger system) (request : Request) :
    (session.run request.task).2.Keeps root ledger (request.task.run System.serve system).2 := by
  obtain ⟨mirrors, placed, rest, plain, parted, fulfils⟩ := keeps
  obtain ⟨_same, after, plainAfter⟩ := mirrors.run_reading rest plain (Reads.request request)
    (Task.Plainly.request request)
  obtain ⟨restAfter, contents⟩ := rest.ask [request]
  have same : (request.task.run System.serve system).2.contents = system.contents := contents
  refine ⟨after, ?_, restAfter, plainAfter, ?_, ?_⟩
  · rw [← placed]
    exact Task.run_keeps (fun action now same => (System.serve_root action now).trans same) _ rfl
  · rw [same]
    exact parted
  · rw [same]
    exact fulfils

/-- A store that succeeds does to the backend what it is to do. -/
theorem Keeps.applied {log : ChangeLog} (keeps : session.Keeps root ledger system)
    (stores : session.run (Repository.store session.blobThreshold log) = (.ok (), next)) :
    ∃ after : System FileStorage.backend, next.Mirrors after ∧
      after.storage.storage.root = root ∧ after.AtRest ∧ after.contents.Plain ∧
      Applied Faults.readable session.blobThreshold log system.contents after.contents := by
  obtain ⟨mirrors, placed, rest, plain, _parted, _fulfils⟩ := keeps
  have meets := @Repository.store_writing system.contents Faults.readable session.blobThreshold log
  obtain ⟨same, after, plainAfter⟩ := mirrors.run FileStorage.backend_failsOnly rest trivial plain
    meets (Task.Plainly.store session.blobThreshold log)
  rw [stores] at same after
  obtain ⟨restAfter, applied⟩ := rest.store FileStorage.backend_failsOnly session.blobThreshold log
    (Prod.ext same.symm rfl)
  refine ⟨_, after, ?_, restAfter, plainAfter, applied⟩
  rw [← placed]
  exact Task.run_keeps (fun action now same => (System.serve_root action now).trans same) _ rfl

theorem Keeps.stored {log : ChangeLog} (keeps : session.Keeps root ledger system)
    (distinct : log.Distinct) (fresh : ∀ node ∈ log.addedNodes, session.records node.id = none)
    (stores : session.run (Repository.store session.blobThreshold log) = (.ok (), next))
    (calm : ¬ session.Collides log next) :
    ∃ after, next.Keeps root (log.record ledger) after := by
  obtain ⟨after, mirrors, placed, rest, plain, applied⟩ := keeps.applied stores
  have lasting : log.Lasting system.contents after.contents := by
    apply applied.lasting distinct ?_ keeps.parted (FileStorage.Kept.apart _)
    · intro clashes
      apply calm
      rw [Session.Collides, keeps.mirrors.records]
      exact clashes.mono (fun _property _place _blob given => mirrors.gives given)
        (fun _property _stored found => found)
    · rw [← keeps.mirrors.records]
      exact fresh
  exact ⟨after, mirrors, placed, rest, plain, lasting.parted, lasting.fulfils keeps.fulfils⟩

theorem Keeps.reads (keeps : session.Keeps root ledger system) {property : PropertyId}
    {state : Property} (plain : property.name.isIdentity = false)
    (known : ledger property = some state) :
    (session.run (Repository.loadProperty property)).1 =
      .ok { state with status := .existing } := by
  obtain ⟨stored, found, reads⟩ := keeps.fulfils property state plain known
  have meets := Repository.loadProperty_yields found reads
  obtain ⟨same, _after, _plain⟩ := keeps.mirrors.run FileStorage.backend_failsOnly keeps.rest trivial
    keeps.plain meets (Task.Plainly.loadProperty property)
  obtain ⟨next, _sound, outcome⟩ := meets.run FileStorage.backend_failsOnly keeps.rest trivial
  rw [same]
  cases given : ((Repository.loadProperty property).run System.serve system).1 with
  | ok value =>
      rw [given] at outcome
      rw [outcome.2]
  | error error =>
      rw [given] at outcome
      exact outcome.elim

end Session

theorem History.kept {root : Location} {session : Session} {ledger : Ledger}
    (history : History (fun before log after => ¬ before.Collides log after) root session ledger) :
    ∃ system, session.Keeps root ledger system := by
  induction history with
  | first closed bare opens => exact Session.Keeps.first closed bare opens
  | stored history distinct fresh stores calm ih =>
      obtain ⟨system, keeps⟩ := ih
      exact keeps.stored distinct fresh stores calm
  | asked history request ih =>
      obtain ⟨system, keeps⟩ := ih
      exact ⟨_, keeps.asked request⟩
  | reopened history left opens ih =>
      obtain ⟨system, keeps⟩ := ih
      exact keeps.reopened left opens

/-- As long as no store puts a blob in the place of another property's, every property is read back
with what it has been stored with last, in the same session or a later one. -/
theorem History.durable {root : Location} {session : Session} {ledger : Ledger}
    (history : History (fun before log after => ¬ before.Collides log after) root session ledger)
    (property : PropertyId) (state : Property) (plain : property.name.isIdentity = false)
    (known : ledger property = some state) :
    (session.run (Repository.loadProperty property)).1 =
      .ok { state with status := .existing } := by
  obtain ⟨system, keeps⟩ := history.kept
  exact keeps.reads plain known

/-! ### What a collision does -/

section

variable {faults : Faults} {threshold : Nat} {log : ChangeLog} {before after : Contents}
  {property : PropertyId}

theorem Applied.entry_untouched (applied : Applied faults threshold log before after)
    (untouched : ¬ log.Touches property) (stays : ¬ log.Deletes property.node)
    (others : ∀ node ∈ log.addedNodes, node.id ≠ property.node) :
    entryOf after.bundles property = entryOf before.bundles property := by
  obtain ⟨cleared, draft, bundles, written, deleted, made, gives, wrote, listed⟩ := applied
  have records : after.bundles = draft.bundle? :=
    (Contents.relisted_of_chain listed).bundles.trans (Draft.bundles_of_chain gives wrote)
  have kept : cleared.bundles property.node = before.bundles property.node :=
    Contents.kept_of_chain deleted (fun node member named => stays ⟨node, member, named⟩)
  rw [records, Change.entry_of_chain made untouched,
    entryOf_congr (Draft.start_of_not_added others), entryOf_congr kept]

/-- The blob of a large value that is put holds bytes that the log puts, if it is there at all. -/
theorem Applied.loses (applied : Applied faults threshold log before after) {state : Property}
    (puts : log.Puts state) (plain : state.id.name.isIdentity = false) {place : Nat}
    {bytes : List UInt8} (value : state.values[place]? = some (.binary bytes))
    (large : threshold < bytes.length) :
    ∃ blob, after.slots state.id place = some blob ∧ Change.Loses log.changes blob after := by
  obtain ⟨cleared, draft, bundles, written, deleted, made, gives, wrote, listed⟩ := applied
  have relisted := Contents.relisted_of_chain listed
  have rest := Draft.written_of_chain gives wrote
  have blobs : after.blobs = draft.contents.blobs := relisted.blobs.trans rest.blobs
  have slots : after.slots = draft.contents.slots := relisted.slots.trans rest.slots
  have member := ChangeLog.mem_changes_put.mpr puts
  obtain ⟨early, late, split⟩ := List.append_of_mem member
  have within {change : Change} (listed : change ∈ late) : change ∈ log.changes :=
    split ▸ List.mem_append_right early (List.mem_cons_of_mem _ listed)
  rw [split] at made
  obtain ⟨_reached, _next, _earlier, makes, later⟩ := made.around
  obtain ⟨_bundle, _released, stored, _held, _releases, _stores, keeps, _found⟩ :=
    (makes.puts plain).entry
  obtain ⟨blob, given, present⟩ := keeps.values.large value large
  rw [Nat.zero_add] at given
  refine ⟨blob, ?_, ?_⟩
  · rw [slots]
    exact Change.retains_of_chain later _ _ _ given
  · intro found there
    rw [blobs] at there
    refine later.preserves (fun draft => Change.Loses log.changes blob draft.contents)
      (fun change listed _now _next makes loses => makes.loses (within listed) loses) ?_ found there
    intro found there
    obtain rfl : bytes = found := Option.some.inj (present.symm.trans there)
    exact ⟨state, member, List.mem_of_getElem? value⟩

end

/-- A property keeps its entry in a store that does not name it, but if its blob is the one that the
session gives for a large value of the log, what is found there has been put by the log. -/
theorem History.displaced {root : Location} {session next : Session} {ledger : Ledger}
    (history : History (fun before log after => ¬ before.Collides log after) root session ledger)
    {log : ChangeLog}
    (fresh : ∀ node ∈ log.addedNodes, session.records node.id = none)
    (stores : session.run (Repository.store session.blobThreshold log) = (.ok (), next))
    {state : Property} (puts : log.Puts state) (plain : state.id.name.isIdentity = false)
    {place : Nat} {bytes : List UInt8} (value : state.values[place]? = some (.binary bytes))
    (large : session.blobThreshold < bytes.length) {blob : String}
    (gives : next.Gives state.id place blob) {other : PropertyId} {stored : StoredProperty}
    (found : entryOf session.records other = some stored) (unnamed : ¬ log.Names other)
    (stays : ¬ log.Deletes other.node) :
    entryOf next.records other = some stored ∧
      ∀ kept, (next.direct (.getBlob blob)).1 = .ok kept →
        ∃ put, log.Puts put ∧ .binary kept ∈ put.values := by
  obtain ⟨system, keeps⟩ := history.kept
  obtain ⟨after, mirrors, _placed, _rest, _plain, applied⟩ := keeps.applied stores
  rw [keeps.mirrors.records] at found fresh
  constructor
  · rw [mirrors.records, applied.entry_untouched
      (fun touches => unnamed (ChangeLog.Touches.names touches)) stays
      (fun node member same => held_of_entry found (same ▸ fresh node member))]
    exact found
  · intro kept there
    obtain ⟨given, named, loses⟩ := applied.loses puts plain value large
    obtain rfl : given = blob := Except.ok.inj ((mirrors.gives named).symm.trans gives)
    rw [mirrors.direct] at there
    have folder := after.storage.sound.folder
    have held := FileStorage.get_ok folder (Session.given_plain after named) there
    obtain ⟨put, member, holds⟩ := loses kept
      ((Pieces.blob?_plain (Session.given_plain after named)).trans held)
    exact ⟨put, ChangeLog.mem_changes_put.mp member, holds⟩

/-! ### Two sessions -/

namespace Letters

def root : Location := Location.ofText [] "/archive"

def settings : Settings := { cacheMegabytes := 1, blobThreshold := 2, cacheShards := 1 }

def first : PropertyId := ⟨NodeId.zero, ⟨"urn:a", "letter"⟩⟩

def second : PropertyId := ⟨NodeId.zero, ⟨"urn:b", "letter"⟩⟩

/-- A node with a letter that is kept as a blob. -/
def firstLog : ChangeLog :=
  { ChangeLog.empty with
    added :=
      [.node (Node.fresh NodeId.zero Name.unstructured none),
        .property (Property.single first (.binary [1, 2, 3]))] }

def secondLog (value : Value) : ChangeLog :=
  { ChangeLog.empty with added := [.property (Property.single second value)] }

def opened? (tree : FileTree) : Option Session :=
  if tree.at? (root.join StoragePaths.namespacesFile).path = none then
    match FileStorage.openRoot root Interner.namespaces tree with
    | (.ok storage, _) => (Session.start settings (.files storage)).toOption
    | (.error _, _) => none
  else none

def stored? (log : ChangeLog) (session : Session) : Option Session :=
  match session.run (Repository.store session.blobThreshold log) with
  | (.ok _, next) => some next
  | (.error _, _) => none

/-- The first letter in one session, the other one in the next. -/
def sessions (value : Value) : Option Session := do
  let session ← opened? FileTree.empty
  let next ← stored? firstLog session
  let tree ← next.tree?
  let session ← opened? tree
  stored? (secondLog value) session

def ledger (value : Value) : Ledger := (secondLog value).record (firstLog.record fun _ => none)

variable {tree : FileTree} {session next : Session} {log : ChangeLog} {value : Value}

theorem opens_of_opened? (opened : opened? tree = some session) : session.Opens root tree := by
  unfold opened? at opened
  split at opened
  · rename_i unregistered
    split at opened
    · rename_i storage after rooted
      cases started : Session.start settings (.files storage) with
      | error cause =>
          rw [started] at opened
          cases opened
      | ok begun =>
          rw [started] at opened
          cases opened
          exact ⟨unregistered, settings, storage, after, rooted, started⟩
    · cases opened
  · cases opened

theorem run_of_stored? (stored : stored? log session = some next) :
    session.run (Repository.store session.blobThreshold log) = (.ok (), next) := by
  unfold stored? at stored
  split at stored
  · rename_i after ran
    cases stored
    exact ran
  · cases stored

theorem history_of_sessions {allowed : Session → ChangeLog → Session → Prop}
    (firstly : ∀ session next, session.records = (fun _ => none) → allowed session firstLog next)
    (secondly : ∀ session next, allowed session (secondLog value) next)
    (ran : sessions value = some session) :
    History allowed root session (ledger value) := by
  obtain ⟨begun, opened, ran⟩ := Option.bind_eq_some_iff.mp ran
  obtain ⟨between, stored, ran⟩ := Option.bind_eq_some_iff.mp ran
  obtain ⟨tree, left, ran⟩ := Option.bind_eq_some_iff.mp ran
  obtain ⟨again, reopened, ran⟩ := Option.bind_eq_some_iff.mp ran
  have opens := opens_of_opened? opened
  have bare := FileStorage.empty_bare root
  obtain ⟨system, mirrors, _placed, _rest, none⟩ := opens.finds_none FileTree.empty_closed bare
  have records : begun.records = fun _ => Option.none := mirrors.records.trans none
  have history := History.stored (History.first FileTree.empty_closed bare opens)
    (by unfold ChangeLog.Distinct; decide) (fun node _member => congrFun records node.id)
    (run_of_stored? stored) (firstly begun between records)
  refine History.stored (History.reopened history left (opens_of_opened? reopened)) ?_ ?_
    (run_of_stored? ran) (secondly again session)
  · exact List.nodup_singleton _
  · intro node member
    cases member

theorem ledger_first (value : Value) :
    ledger value first = some (Property.single first (.binary [1, 2, 3])) := rfl

theorem calm_of_none {before : Session} (log : ChangeLog) (after : Session)
    (none : before.records = fun _ => none) : ¬ before.Collides log after := by
  rintro ⟨_early, _state, _late, _place, _bytes, _blob, _other, _stored, _split, _plain, _value,
    _large, _name, _own, found, _rest⟩
  rw [none] at found
  cases found

theorem calm_second (before after : Session) : ¬ before.Collides (secondLog (.long 5)) after := by
  rintro ⟨early, state, late, _place, _bytes, _blob, _other, _stored, split, _plain, value, _rest⟩
  have member : Change.put state ∈ (secondLog (.long 5)).changes := by
    rw [split]
    exact List.mem_append_right early List.mem_cons_self
  cases List.mem_singleton.mp member
  cases List.mem_singleton.mp (List.mem_of_getElem? value)

set_option maxRecDepth 2500 in
theorem first_durable : ∃ session, sessions (.long 5) = some session ∧
    (session.run (Repository.loadProperty first)).1 =
      .ok { Property.single first (.binary [1, 2, 3]) with status := .existing } := by
  have ran : (sessions (.long 5)).isSome = true := by decide +kernel
  obtain ⟨session, given⟩ := Option.isSome_iff_exists.mp ran
  have history : History (fun before log after => ¬ before.Collides log after) root session
      (ledger (.long 5)) :=
    history_of_sessions (fun _session next none => calm_of_none firstLog next none) calm_second given
  exact ⟨session, given, History.durable history first _ rfl (ledger_first (.long 5))⟩

set_option maxRecDepth 2500 in
theorem first_displaced :
    ¬ ∀ (root : Location) (session : Session) (ledger : Ledger) (property : PropertyId)
      (state : Property), History (fun _ _ _ => True) root session ledger →
      property.name.isIdentity = false → ledger property = some state →
      (session.run (Repository.loadProperty property)).1 =
        .ok { state with status := .existing } := by
  intro claimed
  have ran : (sessions (.binary [4, 5, 6])).map
      (fun session => (session.run (Repository.loadProperty first)).1) =
        some (.ok { Property.single first (.binary [4, 5, 6]) with status := .existing }) := by
    decide +kernel
  obtain ⟨session, given, read⟩ := Option.map_eq_some_iff.mp ran
  have history : History (fun _ _ _ => True) root session (ledger (.binary [4, 5, 6])) :=
    history_of_sessions (fun _ _ _ => trivial) (fun _ _ => trivial) given
  have expected := claimed root session _ first _ history rfl (ledger_first _)
  rw [read] at expected
  revert expected
  decide

end Letters

end BundleStore
