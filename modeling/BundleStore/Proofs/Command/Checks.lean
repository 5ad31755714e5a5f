import BundleStore.Command.Run
import BundleStore.Proofs.Coherence.Steps
import BundleStore.Proofs.Storage.Unreadable

set_option autoImplicit false

/-! The command that checks a repository in files. It asks of each node that it is given whether it is
stored, by way of the cache, and has the storage check them then. A record that does not decode is a
finding to the storage, but it ends the command if its node is one of those given. -/

namespace BundleStore

/-- The first of these nodes whose record does not decode has this fault. -/
def FileStorage.FirstFault (storage : FileStorage) (ids : List NodeId) (cause : StorageError) : Prop :=
  ∃ before id rest, ids = before ++ id :: rest ∧
    (∀ earlier ∈ before, ∀ fault, ¬ storage.Undecodable earlier fault) ∧
    storage.Undecodable id cause

theorem FileStorage.FirstFault.unsound {storage : FileStorage} {ids : List NodeId}
    {cause : StorageError} (first : storage.FirstFault ids cause) :
    ¬ ∀ id ∈ ids, ∀ cause, ¬ storage.Undecodable id cause := by
  obtain ⟨before, id, rest, rfl, _early, undecodable⟩ := first
  exact fun sound => sound id (by simp) cause undecodable

/-! ### A session that reads -/

namespace Session

variable {session after : Session} {contents : FileStorage} {id : NodeId}

/-- What the session itself makes of an action. -/
def rule : Rule Session := fun action stated session =>
  stated (serve action session).1 (serve action session).2

theorem rule_monotone : rule.Monotone :=
  fun _action _session _stated _needed weaker stated => weaker _ _ stated

theorem run_of_meets {ε α : Type} {task : Task ε α} {ends : α → Session → Prop}
    {fails : ε → Session → Prop} (meets : task.Meets rule ends fails session) :
    match session.run task with
    | (.ok value, after) => ends value after
    | (.error error, after) => fails error after := by
  induction task generalizing session with
  | done value => exact meets
  | fail error => exact meets
  | act action rest ih => exact ih (serve action session).1 meets

/-- The session works on these files, no call is made to fail, and what is cached of a node is what
its record holds. -/
structure Faithful (session : Session) (contents : FileStorage) : Prop where
  storage : session.storage = .files contents
  faultless : session.faults = SortedMap.empty
  sharded : 0 < session.cache.entries.shards.length
  cached : ∀ id entry, session.cache.held? id = some entry →
    ∃ found, contents.loadBundle id = .ok found ∧
      entry = CacheEntry.ofLoaded (found.map Bundle.markOld)

theorem Faithful.start {settings : Settings}
    (started : Session.start settings (.files contents) = .ok session) :
    session.Faithful contents := by
  rw [Session.start] at started
  split at started
  · cases started
  · cases started
    refine ⟨rfl, rfl, ShardedCache.length_new .., fun id entry held => ?_⟩
    rw [BundleCache.held?, BundleCache.new, ShardedCache.value?_new] at held
    cases held

theorem Faithful.lookup (faithful : session.Faithful contents) (id : NodeId) :
    Faithful { session with cache := (session.cache.lookup id).2 } contents := by
  refine ⟨faithful.storage, faithful.faultless, ?_, fun other entry held => ?_⟩
  · change 0 < (session.cache.lookup id).2.entries.shards.length
    rw [BundleCache.entries_lookup, (ShardedCache.get_alike session.cache.entries id).length]
    exact faithful.sharded
  · change (session.cache.lookup id).2.held? other = some entry at held
    rw [BundleCache.held?_lookup faithful.sharded] at held
    exact faithful.cached other entry held

theorem Faithful.fill (faithful : session.Faithful contents) {found : Option Bundle}
    (loaded : contents.loadBundle id = .ok found) (noted : Nat) :
    Faithful { session with
      cache := (session.cache.fill id (found.map Bundle.markOld) noted).2 } contents := by
  have filled := ShardedCache.fill_filled faithful.sharded id
    (CacheEntry.ofLoaded (found.map Bundle.markOld))
    (CacheEntry.ofLoaded (found.map Bundle.markOld)).weight noted
  refine ⟨faithful.storage, faithful.faultless, ?_, fun other entry held => ?_⟩
  · exact filled.length ▸ faithful.sharded
  · rcases filled.value? held with ⟨rfl, rfl, _current⟩ | before
    · exact ⟨found, loaded, rfl⟩
    · exact faithful.cached other entry before

/-- A call that leaves the files as they are is made, and leaves the cache alone. -/
theorem Faithful.recorded (faithful : session.Faithful contents) {call : StorageCall}
    (still : (contents.serve call).2.1 = contents) :
    ∃ after : Session, after.Faithful contents ∧
      session.recorded call = ((contents.serve call).1, after) := by
  have faultless : session.faults.find? call.name = none := by
    rw [faithful.faultless]
    rfl
  rw [Session.recorded, faultless]
  dsimp only
  rw [direct]
  dsimp only
  rw [faithful.storage]
  refine ⟨_, ?_, rfl⟩
  exact ⟨congrArg Storage.files still, faithful.faultless, faithful.sharded, faithful.cached⟩

theorem meets_cache {ε : Type} {step : CacheStep} {ends : step.Result → Session → Prop}
    {fails : ε → Session → Prop}
    (met : ends (session.cache.serve step).1 { session with cache := (session.cache.serve step).2 }) :
    (Task.cache step).Meets rule ends fails session := met

theorem meets_storage (faithful : session.Faithful contents) {call : StorageCall}
    {result : Except StorageError call.Result} {warnings : List Warning}
    {ends : call.Result → Session → Prop} {fails : StorageError → Session → Prop}
    (served : contents.serve call = (result, contents, warnings))
    (ended : ∀ (after : Session) (value : call.Result), after.Faithful contents →
      result = .ok value → ends value after)
    (failed : ∀ (after : Session) (error : StorageError), after.Faithful contents →
      result = .error error → fails error after) :
    (Task.call call).Meets rule ends fails session := by
  apply Task.meets_call
  obtain ⟨after, same, called⟩ := faithful.recorded (congrArg (·.2.1) served)
  have answered : serve (.storage call) session = _ := called
  unfold rule
  rw [answered, served]
  cases result with
  | ok value => exact ended after value same rfl
  | error error => exact failed after error same rfl

/-- To ask whether a node is stored comes to loading its record, wherever that is found. -/
theorem existsNode_meets (faithful : session.Faithful contents) (id : NodeId) :
    (Repository.existsNode id).Meets rule
      (fun stored after => after.Faithful contents ∧
        ∃ found, contents.loadBundle id = .ok found ∧ found.isSome = stored)
      (fun error after => after.Faithful contents ∧
        ∃ cause, contents.loadBundle id = .error cause ∧ error = .storage cause) session := by
  have looked := faithful.lookup id
  rw [Repository.existsNode, Task.meets_bind, Repository.fetch, Task.meets_mapError, fetchBundle,
    Task.meets_bind]
  refine meets_cache ?_
  have told : (session.cache.serve (.lookup id)).1 = _ := session.cache.lookup_held id
  rw [told]
  rcases held : session.cache.held? id with _ | bundle | _
  · change Task.Meets rule _ _ (Task.cache (.generation id) >>= _) _
    rw [Task.meets_bind]
    refine meets_cache ?_
    rw [Task.meets_bind]
    have served : contents.serve (.loadBundle id) = (contents.loadBundle id, contents, []) := by
      simp only [FileStorage.serve]
    refine meets_storage looked served (fun after found noted loaded => ?_)
      (fun after cause noted failed => ⟨noted, cause, failed, rfl⟩)
    dsimp only
    rw [Task.meets_bind]
    refine meets_cache ⟨noted.fill loaded _, found, loaded, ?_⟩
    exact (Option.isSome_map ..).symm
  · obtain ⟨found, loaded, entered⟩ := faithful.cached id _ held
    refine ⟨looked, found, loaded, ?_⟩
    cases found with
    | none => cases entered
    | some _bundle => rfl
  · obtain ⟨found, loaded, entered⟩ := faithful.cached id _ held
    refine ⟨looked, found, loaded, ?_⟩
    cases found with
    | none => rfl
    | some _bundle => cases entered

/-- The nodes are asked for one after the other, and the first record that does not decode ends
that. -/
theorem missingOf_meets (faithful : session.Faithful contents) (readable : contents.Readable)
    (ids : List NodeId) :
    (Command.missingOf ids).Meets rule
      (fun missing after => after.Faithful contents ∧
        (∀ id ∈ ids, ∀ cause, ¬ contents.Undecodable id cause) ∧
        missing = ids.filter (fun id => !(Storage.files contents).stored id))
      (fun error after => after.Faithful contents ∧
        ∃ cause, contents.FirstFault ids cause ∧ error = .storage cause) session := by
  induction ids generalizing session with
  | nil => exact ⟨faithful, by simp, rfl⟩
  | cons id rest ih =>
      rw [Command.missingOf, Task.meets_bind]
      refine (existsNode_meets faithful id).mono rule_monotone ?_ ?_
      · rintro stored middle ⟨still, found, loaded, rfl⟩
        have sound : ∀ cause, ¬ contents.Undecodable id cause := by
          intro cause faulty
          rw [readable.failed_iff.mpr faulty] at loaded
          cases loaded
        have known : found.isSome = (Storage.files contents).stored id :=
          (readable.stored_of_loaded loaded).symm
        rw [Task.meets_bind]
        refine (ih still).mono rule_monotone ?_ ?_
        · rintro missing after ⟨last, others, rfl⟩
          refine ⟨last, ?_, ?_⟩
          · intro other member
            rcases List.mem_cons.mp member with rfl | later
            · exact sound
            · exact others other later
          · rw [known, List.filter_cons]
            cases (Storage.files contents).stored id <;> rfl
        · rintro error after ⟨last, cause, ⟨before, other, more, rfl, early, faulty⟩, rfl⟩
          refine ⟨last, cause, ⟨id :: before, other, more, rfl, ?_, faulty⟩, rfl⟩
          intro earlier member
          rcases List.mem_cons.mp member with rfl | later
          · exact sound
          · exact early earlier later
      · rintro error after ⟨still, cause, failed, rfl⟩
        exact ⟨still, cause, ⟨[], id, rest, rfl, by simp, readable.failed_iff.mp failed⟩, rfl⟩

theorem warnings_meets {α : Type} (faithful : session.Faithful contents) (warning : α → Warning)
    (values : List α) :
    (values.forM (fun value => Task.warn (warning value)) : Task RepositoryError PUnit).Meets rule
      (fun _done after => after.Faithful contents) (fun _error _after => False) session := by
  induction values generalizing session with
  | nil => exact faithful
  | cons value rest ih =>
      have warned :
          Faithful { session with warnings := warning value :: session.warnings } contents :=
        ⟨faithful.storage, faithful.faultless, faithful.sharded, faithful.cached⟩
      exact ih warned

/-- A check that mends nothing goes on to its end, whatever the records hold. -/
theorem check_meets (faithful : session.Faithful contents) (closed : contents.tree.Closed)
    (readable : contents.Readable) (walked : ∃ found, contents.ids.1 = .ok found)
    (ids : List NodeId) (recursive : Bool) :
    (Repository.check ids recursive false).Meets rule
      (fun problems after => after.Faithful contents ∧ contents.Reports recursive ids problems)
      (fun _error _after => False) session := by
  obtain ⟨problems, warnings, checked, reports⟩ :=
    FileStorage.check_completes closed readable walked ids recursive
  have served : contents.serve (.checkConsistency ids recursive false) =
      (.ok problems, contents, warnings) := by
    rw [← checked]
    simp only [FileStorage.serve]
  rw [Repository.check, Task.meets_bind, Repository.call, Task.meets_mapError]
  refine meets_storage faithful served ?_ ?_
  · rintro after problems still ⟨⟩
    dsimp only
    rw [Task.meets_bind]
    refine (warnings_meets still Warning.inconsistent problems).mono rule_monotone ?_ ?_
    · exact fun _done last kept => ⟨kept, reports⟩
    · exact fun _error _last impossible => impossible
  · rintro _after _error _still ⟨⟩

/-- What the command has the session do. -/
theorem inspect_meets (faithful : session.Faithful contents) (closed : contents.tree.Closed)
    (readable : contents.Readable) (walked : ∃ found, contents.ids.1 = .ok found)
    (ids : List NodeId) (recursive : Bool) :
    (Command.inspect ids recursive false).Meets rule
      (fun told after => after.Faithful contents ∧
        (∀ id ∈ ids, ∀ cause, ¬ contents.Undecodable id cause) ∧
        told.1 = ids.filter (fun id => !(Storage.files contents).stored id) ∧
        contents.Reports recursive ids told.2)
      (fun error after => after.Faithful contents ∧
        ∃ cause, contents.FirstFault ids cause ∧ error = .storage cause) session := by
  rw [Command.inspect, Task.meets_bind]
  refine (missingOf_meets faithful readable ids).mono rule_monotone ?_ ?_
  · rintro missing middle ⟨still, sound, rfl⟩
    rw [Task.meets_bind]
    refine (check_meets still closed readable walked ids recursive).mono rule_monotone ?_ ?_
    · exact fun problems after ended => ⟨ended.1, sound, rfl, ended.2⟩
    · exact fun _error _after impossible => impossible.elim
  · exact fun error after failed => failed

end Session

/-! ### Settings -/

namespace Settings

theorem validate_of_parse {text : String} {settings : Settings} (parsed : parse text = .ok settings) :
    settings.validate = .ok () := by
  rw [parse] at parsed
  split at parsed
  · cases parsed
  · rename_i found _read
    cases valid : found.validate with
    | error cause =>
        rw [valid] at parsed
        cases parsed
    | ok _unit =>
        rw [valid] at parsed
        cases parsed
        exact valid

theorem validate_of_load {location : Location} {tree : FileTree} {settings : Settings}
    (loaded : load location tree = .ok settings) : settings.validate = .ok () := by
  rw [load] at loaded
  split at loaded
  · cases loaded
  · split at loaded
    · cases loaded
    · exact validate_of_parse loaded

theorem validate_of_setCacheSize {before after : Settings} {text : String}
    (valid : before.validate = .ok ()) (set : before.setCacheSize text = .ok after) :
    after.validate = .ok () := by
  rw [setCacheSize] at set
  split at set
  · cases set
  · split at set
    · cases set
    · cases set
    · rename_i megabytes positive _read
      cases set
      rw [validate] at valid ⊢
      split at valid
      · cases valid
      · rw [if_neg positive]
        exact valid

end Settings

namespace Command

variable {options : RepositoryOptions} {folder : FilePath} {tree after : FileTree}
  {settings : Settings} {storage : FileStorage}

theorem readSettings_eq_ok (tuned : readSettings options folder tree = .ok settings) :
    ∃ before, (before = Settings.default ∨ ∃ location, Settings.load location tree = .ok before) ∧
      (settings = before ∨ ∃ size, before.setCacheSize size = .ok settings) := by
  obtain ⟨root, file, size⟩ := options
  cases file with
  | none =>
      refine ⟨Settings.default, Or.inl rfl, ?_⟩
      cases size with
      | none => exact Or.inl (Except.ok.inj tuned).symm
      | some size => exact Or.inr ⟨size, tuned⟩
  | some file =>
      rw [readSettings] at tuned
      dsimp only at tuned
      cases loaded : Settings.load (Location.ofText folder file) tree with
      | error cause =>
          rw [loaded] at tuned
          cases tuned
      | ok before =>
          rw [loaded] at tuned
          refine ⟨before, Or.inr ⟨_, loaded⟩, ?_⟩
          cases size with
          | none => exact Or.inl (Except.ok.inj tuned).symm
          | some size => exact Or.inr ⟨size, tuned⟩

theorem readSettings_valid (tuned : readSettings options folder tree = .ok settings) :
    settings.validate = .ok () := by
  obtain ⟨before, source, sized⟩ := readSettings_eq_ok tuned
  have valid : before.validate = .ok () := by
    rcases source with rfl | ⟨location, loaded⟩
    · rfl
    · exact Settings.validate_of_load loaded
  rcases sized with rfl | ⟨size, set⟩
  · exact valid
  · exact Settings.validate_of_setCacheSize valid set

/-- What a check shows that mends nothing. -/
def report (words : Wording) (format : OutputFormat) (missing : List NodeId)
    (problems : List Problem) : List String :=
  let problems := problems.map (Problem.text words)
  if format = .json then [(checkJson missing problems).compact]
  else checkLines missing problems false

/-- A check is a run of its session, once that has been started. -/
theorem run_check {words : Wording} {format : OutputFormat} {texts : List String}
    {recursive : Bool} {ids : List NodeId} {session : Session}
    (given : texts.mapM readId = .ok ids) (tuned : readSettings options folder tree = .ok settings)
    (opened : FileStorage.openRoot (Location.ofText folder options.root) Interner.namespaces tree =
      (.ok storage, after)) (started : Session.start settings (.files storage) = .ok session) :
    Invocation.run words ⟨.check options texts recursive false, format⟩ folder tree =
      ⟨((session.run (inspect ids recursive false)).1.map (fun told =>
        report words format told.1 told.2)).mapError Failure.repository,
        ((session.run (inspect ids recursive false)).2.storage.files?.getD storage).tree⟩ := by
  rw [Invocation.run]
  dsimp only
  rw [given]
  dsimp only
  rw [onRepository, tuned]
  dsimp only
  rw [opened]
  dsimp only
  rw [started]
  rfl

/-- A check that mends nothing writes a report unless one of the nodes that it is given has a record
that does not decode. All other records that do not decode are in the report. -/
theorem checks_iff {words : Wording} {format : OutputFormat} {texts : List String}
    {recursive : Bool} {ids : List NodeId} (closed : tree.Closed)
    (given : texts.mapM readId = .ok ids) (tuned : readSettings options folder tree = .ok settings)
    (opened : FileStorage.openRoot (Location.ofText folder options.root) Interner.namespaces tree =
      (.ok storage, after)) (readable : storage.Readable) :
    let outcome := Invocation.run words ⟨.check options texts recursive false, format⟩ folder tree
    ((∃ lines, outcome.result = .ok lines) ↔
        ∀ id ∈ ids, ∀ cause, ¬ storage.Undecodable id cause) ∧
      (∀ lines, outcome.result = .ok lines → ∃ problems, storage.Reports recursive ids problems ∧
        lines = report words format
          (ids.filter (fun id => !(Storage.files storage).stored id)) problems) ∧
      (∀ failure, outcome.result = .error failure → ∃ cause, storage.FirstFault ids cause ∧
        failure = .repository (.storage cause)) ∧
      outcome.tree = after := by
  obtain ⟨held, whole, walked⟩ := FileStorage.openRoot_walked closed opened
  obtain ⟨session, started⟩ : ∃ session, Session.start settings (.files storage) = .ok session := by
    rw [Session.start, readSettings_valid tuned]
    exact ⟨_, rfl⟩
  have ran := Session.run_of_meets (Session.inspect_meets (Session.Faithful.start started) whole
    readable walked ids recursive)
  intro outcome
  have ended : outcome = _ := run_check given tuned opened started
  rw [ended]
  rcases produced : session.run (inspect ids recursive false) with ⟨failed | told, last⟩
  · rw [produced] at ran
    obtain ⟨faithful, cause, first, rfl⟩ := ran
    refine ⟨⟨?_, fun sound => absurd sound first.unsound⟩, ?_, ?_, ?_⟩
    · rintro ⟨lines, impossible⟩
      cases impossible
    · rintro lines ⟨⟩
    · rintro failure ⟨⟩
      exact ⟨cause, first, rfl⟩
    · dsimp only
      rw [faithful.storage]
      exact held
  · rw [produced] at ran
    obtain ⟨faithful, sound, missing, reports⟩ := ran
    refine ⟨⟨fun _completed => sound, fun _sound => ⟨_, rfl⟩⟩, ?_, ?_, ?_⟩
    · rintro lines ⟨⟩
      exact ⟨told.2, reports, by rw [← missing]⟩
    · rintro failure ⟨⟩
    · dsimp only
      rw [faithful.storage]
      exact held

end Command

/-! ### A book with an eaten page -/

namespace Moths

open Command

def options : RepositoryOptions := ⟨"/attic", none, none⟩

def root : Location := Location.ofText [] options.root

def page : NodeId := ⟨List.replicate 15 0 ++ [8], rfl⟩

def lost : NodeId := ⟨List.replicate 15 0 ++ [9], rfl⟩

def book : Bundle :=
  Bundle.ofNode ((Node.fresh NodeId.zero Name.unstructured none).addChild ⟨"", "page"⟩ page)

def words : List UInt8 := (Record.encode Record.bundle book).toOption.getD []

set_option maxRecDepth 2500 in
theorem encoded : Record.encode Record.bundle book = .ok words := by decide +kernel

/-- The record of the book is as it was written, and nothing is left of that of its page. -/
def records : List (NodeId × List UInt8) := [(NodeId.zero, words), (page, [])]

def put (storage : FileStorage) (record : NodeId × List UInt8) : FileStorage :=
  (storage.writeRecord (storage.bundlePath record.1) record.2).2

/-- A new repository in which the records have been put. -/
def attic : FileTree :=
  match FileStorage.openRoot root Interner.namespaces FileTree.empty with
  | (.ok storage, _) => (records.foldl put storage).tree
  | (.error _, tree) => tree

theorem put_shelved (records : List (NodeId × List UInt8)) {storage : FileStorage}
    (shelved : FileStorage.Shelved storage.root storage.tree) :
    FileStorage.Shelved storage.root (records.foldl put storage).tree := by
  induction records generalizing storage with
  | nil => exact shelved
  | cons record rest ih =>
      obtain ⟨after, wrote, becomes, still⟩ := shelved.write (.bundle record.1) record.2
      rw [← FileStorage.bundlePath_eq] at wrote
      have same : put storage record = after := congrArg Prod.snd wrote
      rw [List.foldl_cons, same, ← becomes.root]
      exact ih still

theorem attic_shelved : FileStorage.Shelved root attic := by
  have opens : (FileStorage.openRoot root Interner.namespaces FileTree.empty).1.isOk = true := by
    decide +kernel
  rw [attic]
  rcases opened : FileStorage.openRoot root Interner.namespaces FileTree.empty
    with ⟨cause | storage, after⟩
  · rw [opened] at opens
    cases opens
  · obtain ⟨rooted, rfl, shelved, _nothing⟩ :=
      FileStorage.openRoot_bare FileTree.empty_closed (FileStorage.empty_bare root) opened
    rw [← rooted] at shelved ⊢
    exact put_shelved records shelved

set_option maxRecDepth 2500 in
theorem attic_read : [NodeId.zero, page, lost].map (fun id =>
      attic.read (FilePath.resolve (root.join "bundles").path id.bundleFile)) =
    [.ok words, .ok [], .error .notFound] := by
  decide +kernel

/-- The repository as it is when it is opened again. -/
theorem attic_opened : ∃ storage,
    FileStorage.openRoot root Interner.namespaces attic = (.ok storage, attic) ∧
      storage.Readable ∧
      storage.tree.read (storage.bundlePath NodeId.zero) = .ok words ∧
      storage.tree.read (storage.bundlePath page) = .ok [] ∧
      storage.tree.read (storage.bundlePath lost) = .error .notFound := by
  obtain ⟨storage, opened, rooted, held⟩ := attic_shelved.reopen Interner.namespaces
  have shelved := attic_shelved
  rw [← rooted, ← held] at shelved
  refine ⟨storage, opened, shelved.readable, ?_⟩
  have read := attic_read
  simp only [List.map_cons, List.map_nil, List.cons.injEq, and_true] at read
  rw [FileStorage.bundlePath, FileStorage.bundlePath, FileStorage.bundlePath, FileStorage.bundles,
    rooted, held]
  exact read

def empty : StorageError := .corrupt ("bundle " ++ page.text) (.shortHeader 0)

/-- The page is come to from the book. -/
theorem page_reported : ∃ storage problems,
    FileStorage.openRoot root Interner.namespaces attic = (.ok storage, attic) ∧
      storage.Readable ∧ .unreadable page empty ∈ problems ∧
      (Invocation.run Wording.plain
        ⟨.check options [NodeId.zero.text, lost.text] true false, .text⟩ [] attic).result =
        .ok (report Wording.plain .text [lost] problems) := by
  obtain ⟨storage, opened, readable, whole, eaten, absent⟩ := attic_opened
  have loaded := FileStorage.loadBundle_read whole encoded
  have faulty : storage.Undecodable page empty := ⟨[], eaten, rfl⟩
  have given : [NodeId.zero.text, lost.text].mapM readId = .ok [NodeId.zero, lost] := by
    decide +kernel
  obtain ⟨completes, reported, _fails, _left⟩ :=
    checks_iff attic_shelved.tidy.closed given rfl opened readable
  have sound : ∀ id ∈ [NodeId.zero, lost], ∀ cause, ¬ storage.Undecodable id cause := by
    intro id member fault undecodable
    simp only [List.mem_cons, List.not_mem_nil, or_false] at member
    rcases member with rfl | rfl
    · rw [readable.failed_iff.mpr undecodable] at loaded
      cases loaded
    · obtain ⟨bytes, read, _failed⟩ := undecodable
      rw [absent] at read
      cases read
  obtain ⟨lines, completed⟩ := completes.mpr sound
  obtain ⟨problems, reports, rfl⟩ := reported lines completed
  have visits : (Storage.files storage).Visits true [NodeId.zero, lost] page :=
    .child (.asked List.mem_cons_self) rfl ((Storage.load_files ..).trans loaded)
      List.mem_cons_self (FileStorage.stored_of_read eaten)
  refine ⟨storage, problems, opened, readable, (reports.each page empty).mpr ⟨visits, faulty⟩,
    completed.trans ?_⟩
  have missing : [NodeId.zero, lost].filter (fun id => !(Storage.files storage).stored id) =
      [lost] := by
    simp [FileStorage.stored_of_read whole, FileStorage.not_stored_of_notFound absent]
  rw [missing]

/-- The page is asked for itself. -/
theorem page_ends : ¬ ∀ (words : Wording) (format : OutputFormat) (options : RepositoryOptions)
    (folder : FilePath) (tree after : FileTree) (settings : Settings) (storage : FileStorage)
    (texts : List String) (recursive : Bool) (ids : List NodeId),
    tree.Closed → texts.mapM readId = .ok ids → readSettings options folder tree = .ok settings →
    FileStorage.openRoot (Location.ofText folder options.root) Interner.namespaces tree =
      (.ok storage, after) →
    storage.Readable → ∃ lines, (Invocation.run words
      ⟨.check options texts recursive false, format⟩ folder tree).result = .ok lines := by
  intro claimed
  obtain ⟨storage, opened, readable, _reads⟩ := attic_opened
  have given : [page.text].mapM readId = .ok [page] := by decide +kernel
  obtain ⟨lines, completed⟩ := claimed Wording.plain .text options [] attic attic Settings.default
    storage [page.text] false [page] attic_shelved.tidy.closed given rfl opened readable
  have failed : (Invocation.run Wording.plain
      ⟨.check options [page.text] false false, .text⟩ [] attic).result.isOk = false := by
    decide +kernel
  rw [completed] at failed
  cases failed

end Moths

end BundleStore
