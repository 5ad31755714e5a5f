import BundleStore.Proofs.Store.Meaning

set_option autoImplicit false

/-! What lasts from store to store, wherever the blob identifiers come from that records of earlier
times hold. It is enough that no blob belongs to two properties. A store keeps it so, unless it
gives a value a blob identifier that another property holds, and then all that was put last, by
this store or an earlier one, is read as it was put. -/

namespace BundleStore

/-- No blob belongs to entries of two properties. -/
def Parted (records : Records) : Prop :=
  ∀ {left right : PropertyId} {first second : StoredProperty} {blob : String},
    entryOf records left = some first → entryOf records right = some second →
    blob ∈ first.blobs → blob ∈ second.blobs → left = right

variable {faults : Faults} {threshold : Nat}

/-! ### Deleted nodes -/

namespace Contents

/-- Records are gone or as before, and blobs of those that are left are as before. -/
structure Lasts (before after : Contents) : Prop where
  records : ∀ id, after.bundles id = none ∨ after.bundles id = before.bundles id
  blobs : ∀ {property : PropertyId} {stored : StoredProperty},
    entryOf after.bundles property = some stored → ∀ blob ∈ stored.blobs,
      after.blobs blob = before.blobs blob

variable {before now after : Contents}

theorem Lasts.entry (lasts : Lasts before after) {property : PropertyId} {stored : StoredProperty}
    (found : entryOf after.bundles property = some stored) :
    entryOf before.bundles property = some stored := by
  rcases lasts.records property.node with gone | same
  · exact absurd gone (held_of_entry found)
  · rw [← entryOf_congr same]
    exact found

theorem Lasts.parted (lasts : Lasts before after) (parted : Parted before.bundles) :
    Parted after.bundles :=
  fun left right mine theirs => parted (lasts.entry left) (lasts.entry right) mine theirs

theorem Lasts.trans (early : Lasts before now) (late : Lasts now after) : Lasts before after where
  records := fun id => by
    rcases late.records id with gone | same
    · exact Or.inl gone
    · rw [same]
      exact early.records id
  blobs := fun found blob own =>
    (late.blobs found blob own).trans (early.blobs (late.entry found) blob own)

theorem Deletes.lasts {node : Node} (deletes : Deletes faults node before after)
    (parted : Parted before.bundles) : Lasts before after := by
  have bundles := deletes.bundles
  obtain ⟨bundle, held, released⟩ := deletes
  refine ⟨fun id => ?_, fun {property stored} found blob own => ?_⟩
  · rw [bundles]
    by_cases same : id = node.id
    · rw [same]
      exact Or.inl (Function.update_self ..)
    · exact Or.inr (Function.update_of_ne same ..)
  · have elsewhere : property.node ≠ node.id := by
      intro same
      apply held_of_entry found
      rw [bundles, same]
      exact Function.update_self ..
    have earlier : entryOf before.bundles property = some stored := by
      rw [← found, bundles]
      exact (entryOf_congr (Function.update_of_ne elsewhere ..)).symm
    refine released.blobs (fun member => elsewhere ?_)
    obtain ⟨other, kept, named, there, theirs⟩ := mem_blobs_of_record held member
    rw [parted earlier there own theirs, named]

theorem lasts_of_chain {nodes : List Node} (chain : Chain (Deletes faults) nodes before after)
    (parted : Parted before.bundles) : Lasts before after := by
  induction chain with
  | nil state => exact ⟨fun _id => Or.inr rfl, fun _found _blob _own => rfl⟩
  | cons head tail ih =>
      have first := head.lasts parted
      exact first.trans (ih (first.parted parted))

end Contents

/-! ### Changes -/

/-- Blobs of the entry have been given to places of the property, for values that are large. -/
def StoredProperty.Placed (contents : Contents) (threshold : Nat) (state : Property)
    (stored : StoredProperty) : Prop :=
  ∀ {place : Nat} {blob : String} {length : UInt64},
    stored.values[place]? = some (.blob blob length) → contents.slots state.id place = some blob ∧
      ∃ bytes, state.values[place]? = some (.binary bytes) ∧ threshold < bytes.length

theorem StoredProperty.Keeps.placed {contents : Contents} {state : Property}
    {stored : StoredProperty} (keeps : stored.Keeps contents threshold state) :
    stored.Placed contents threshold state := by
  intro place blob length found
  obtain ⟨value, there, bytes, rfl, large, _counted, given, _held⟩ := keeps.values.at_place found
  rw [Nat.zero_add] at given
  exact ⟨given, bytes, there, large⟩

/-- Blob identifiers that have been given stay so. -/
def Contents.Retains (later earlier : Contents) : Prop :=
  ∀ property place blob, earlier.slots property place = some blob →
    later.slots property place = some blob

/-- Every entry is one that was there before, and that none of the changes so far has touched, or
has been put by one of them. -/
def Draft.Traced (threshold : Nat) (gone : NodeId → Prop) (done : List Change) (origin : Contents)
    (draft : Draft) : Prop :=
  ∀ property stored, entryOf draft.bundle? property = some stored →
    entryOf origin.bundles property = some stored ∧ ¬ Change.AnyTouches gone done property ∨
      ∃ state, .put state ∈ done ∧ state.id = property ∧ property.name.isIdentity = false ∧
        stored.Placed draft.contents threshold state

namespace Change

variable {gone : NodeId → Prop} {change : Change} {list whole done : List Change} {origin : Contents}
  {before after first last : Draft} {property : PropertyId} {stored : StoredProperty}

theorem Makes.retains (makes : change.Makes faults threshold gone before after) :
    after.contents.Retains before.contents := by
  intro property place blob given
  cases change with
  | update node =>
      obtain ⟨_bundle, _held, rfl⟩ := makes
      exact given
  | put state =>
      rcases makes with ⟨_identity, rfl⟩ | ⟨_plain, _bundle, _released, _stored, _held, releases,
        stores, _keeps, _staged⟩
      · exact given
      · exact stores.slots (releases.slots given)
  | drop state =>
      rcases makes with ⟨_gone, rfl⟩ | ⟨_stays, _bundle, _held, releases, _staged⟩
      · exact given
      · exact releases.slots given

theorem Makes.traced (makes : change.Makes faults threshold gone before after)
    (traced : before.Traced threshold gone done origin) :
    after.Traced threshold gone (done ++ [change]) origin := by
  intro property stored found
  have last : change ∈ done ++ [change] := List.mem_append_right done (List.mem_singleton_self change)
  by_cases touched : change.Touches gone property
  · cases change with
    | update node => exact touched.elim
    | put state =>
        obtain ⟨rfl, plain⟩ := touched
        rcases makes with ⟨identity, _passed⟩ | ⟨_plain, puts⟩
        · rw [plain] at identity
          cases identity
        · obtain ⟨_bundle, _released, kept, _held, _releases, _stores, keeps, there⟩ := puts.entry
          obtain rfl : kept = stored := Option.some.inj (there.symm.trans found)
          exact Or.inr ⟨state, last, rfl, plain, keeps.placed⟩
    | drop state =>
        obtain ⟨rfl, stays⟩ := touched
        rw [makes.entry_drop stays] at found
        cases found
  · rw [makes.entry_untouched touched] at found
    rcases traced property stored found with ⟨old, untouched⟩ | ⟨state, listed, named, plain, placed⟩
    · refine Or.inl ⟨old, fun touches => ?_⟩
      obtain ⟨other, member, touches⟩ := touches
      rcases List.mem_append.mp member with early | here
      · exact untouched ⟨other, early, touches⟩
      · exact touched (List.mem_singleton.mp here ▸ touches)
    · refine Or.inr ⟨state, List.mem_append_left _ listed, named, plain, fun given => ?_⟩
      exact ⟨makes.retains _ _ _ (placed given).1, (placed given).2⟩

/-- What a change does not touch stays as it is, with its blobs. -/
theorem Makes.spares_entry (makes : change.Makes faults threshold gone before after)
    (parted : Parted before.bundle?) (partedAfter : Parted after.bundle?)
    (untouched : ¬ change.Touches gone property)
    (found : entryOf before.bundle? property = some stored) :
    entryOf after.bundle? property = some stored ∧
      ∀ blob ∈ stored.blobs, after.contents.blobs blob = before.contents.blobs blob := by
  have same := (makes.entry_untouched untouched).trans found
  refine ⟨same, fun blob own => ?_⟩
  -- A blob that is released with the entry of another property is not this one's.
  have unreleased {other : PropertyId} {bundle : Bundle} {released : Contents}
      (differs : property ≠ other) (held : before.bundle? other.node = some bundle)
      (releases : Released faults (bundle.blobsOf other.name) before.contents released) :
      released.blobs blob = before.contents.blobs blob := by
    refine releases.blobs (fun member => differs ?_)
    obtain ⟨kept, there, theirs⟩ := Bundle.mem_blobsOf held member
    exact parted found there own theirs
  cases change with
  | update node =>
      obtain ⟨_bundle, _held, rfl⟩ := makes
      rfl
  | put state =>
      rcases makes with ⟨_identity, rfl⟩ | ⟨plain, puts⟩
      · rfl
      · obtain ⟨bundle, released, kept, held, releases, stores, _keeps, there⟩ := puts.entry
        have differs : property ≠ state.id := by
          rintro rfl
          exact untouched ⟨rfl, plain⟩
        rw [← unreleased differs held releases]
        exact stores.blobs (fun theirs => differs (partedAfter same there own theirs))
  | drop state =>
      rcases makes with ⟨_gone, rfl⟩ | ⟨stays, _bundle, held, releases, _staged⟩
      · rfl
      · refine unreleased (fun named => untouched ?_) held releases
        subst named
        exact ⟨rfl, stays⟩

theorem retains_of_chain (chain : Chain (Makes faults threshold gone) list first last) :
    last.contents.Retains first.contents := by
  refine chain.preserves (fun draft => draft.contents.Retains first.contents) ?_
    (fun _property _place _blob given => given)
  intro change _member now next makes retains property place blob given
  exact makes.retains property place blob (retains property place blob given)

theorem traced_of_chain (chain : Chain (Makes faults threshold gone) list first last)
    (traced : first.Traced threshold gone done origin) :
    last.Traced threshold gone (done ++ list) origin := by
  induction chain generalizing done with
  | nil state =>
      rw [List.append_nil]
      exact traced
  | cons head tail ih =>
      rw [List.append_cons]
      exact ih (head.traced traced)

/-- The last draft has the blob identifiers of all before it; where none of them is given twice,
everything that is not touched comes through. -/
theorem spares_of_chain (chain : Chain (Makes faults threshold gone) list first last)
    (parts : ∀ (now : Draft) (early late : List Change), early ++ late = whole →
      now.Traced threshold gone early origin → last.contents.Retains now.contents →
      Parted now.bundle?)
    (split : done ++ list = whole) (traced : first.Traced threshold gone done origin)
    (untouched : ¬ AnyTouches gone list property)
    (found : entryOf first.bundle? property = some stored) :
    entryOf last.bundle? property = some stored ∧
      ∀ blob ∈ stored.blobs, last.contents.blobs blob = first.contents.blobs blob := by
  induction chain generalizing done with
  | nil state => exact ⟨found, fun _blob _own => rfl⟩
  | cons head tail ih =>
      rename_i change rest before next final
      have nextTraced := head.traced traced
      have nextSplit := (List.append_cons done change rest).symm.trans split
      obtain ⟨still, blobs⟩ := head.spares_entry
        (parts before done _ split traced (retains_of_chain (Chain.cons head tail)))
        (parts next (done ++ [change]) rest nextSplit nextTraced (retains_of_chain tail))
        (fun touched => untouched ⟨change, List.mem_cons_self, touched⟩) found
      obtain ⟨kept, later⟩ := ih parts nextSplit nextTraced
        (fun ⟨other, member, touched⟩ => untouched ⟨other, List.mem_cons_of_mem _ member, touched⟩)
        still
      exact ⟨kept, fun blob own => (later blob own).trans (blobs blob own)⟩

end Change

/-! ### A store -/

/-- No blob identifier has been given to two properties, as far as it is known. -/
def Contents.Apart (contents : Contents) : Prop :=
  ∀ {left right : PropertyId} {leftPlace rightPlace : Nat} {blob : String},
    contents.slots left leftPlace = some blob → contents.slots right rightPlace = some blob →
      left = right

/-- The log puts a value that is to be kept as a blob under the identifier of a blob that another
property holds. The log does not delete that property's node, and no change before has touched it. -/
def ChangeLog.Collides (log : ChangeLog) (threshold : Nat)
    (names : PropertyId → Nat → String → Prop) (held : PropertyId → StoredProperty → Prop) : Prop :=
  ∃ early state late place bytes blob other stored,
    log.changes = early ++ .put state :: late ∧ state.id.name.isIdentity = false ∧
    state.values[place]? = some (.binary bytes) ∧ threshold < bytes.length ∧
    names state.id place blob ∧ blob ∈ stored.blobs ∧ held other stored ∧ other ≠ state.id ∧
    ¬ log.Deletes other.node ∧ ¬ Change.AnyTouches log.Deletes early other

theorem ChangeLog.Collides.mono {log : ChangeLog} {threshold : Nat}
    {names names' : PropertyId → Nat → String → Prop}
    {held held' : PropertyId → StoredProperty → Prop}
    (collides : log.Collides threshold names held)
    (named : ∀ property place blob, names property place blob → names' property place blob)
    (holds : ∀ property stored, held property stored → held' property stored) :
    log.Collides threshold names' held' := by
  obtain ⟨early, state, late, place, bytes, blob, other, stored, split, plain, value, large, name,
    own, found, rest⟩ := collides
  exact ⟨early, state, late, place, bytes, blob, other, stored, split, plain, value, large,
    named _ _ _ name, own, holds _ _ found, rest⟩

/-- So it is by the blob identifiers that are known after the store. -/
def ChangeLog.Clashes (log : ChangeLog) (threshold : Nat) (before after : Contents) : Prop :=
  log.Collides threshold (fun property place blob => after.slots property place = some blob)
    (fun property stored => entryOf before.bundles property = some stored)

variable {log : ChangeLog} {before cleared after : Contents}

theorem Draft.Traced.parted {draft : Draft} {done todo : List Change}
    (split : done ++ todo = log.changes)
    (traced : draft.Traced threshold log.Deletes done cleared)
    (retains : after.Retains draft.contents) (parted : Parted cleared.bundles) (apart : after.Apart)
    (cleared_entry : ∀ property stored, entryOf cleared.bundles property = some stored →
      entryOf before.bundles property = some stored ∧ ¬ log.Deletes property.node)
    (calm : ¬ log.Clashes threshold before after) : Parted draft.bundle? := by
  -- What is put cannot share a blob with an entry that is left from before.
  have mixed {property other : PropertyId} {kept stored : StoredProperty} {state : Property}
      {blob : String} (put : .put state ∈ done) (named : state.id = property)
      (plain : property.name.isIdentity = false)
      (placed : stored.Placed draft.contents threshold state) (mine : blob ∈ stored.blobs)
      (found : entryOf cleared.bundles other = some kept)
      (untouched : ¬ Change.AnyTouches log.Deletes done other) (theirs : blob ∈ kept.blobs) :
      other = property := by
    by_contra differs
    obtain ⟨early, late, rfl⟩ := List.append_of_mem put
    obtain ⟨place, length, there⟩ := StoredProperty.mem_blobs.mp mine
    obtain ⟨given, bytes, value, large⟩ := placed there
    obtain ⟨old, stays⟩ := cleared_entry other kept found
    subst named
    rw [List.append_assoc, List.cons_append] at split
    refine calm ⟨early, state, _, place, bytes, blob, other, kept, split.symm, plain, value, large,
      retains _ _ _ given, theirs, old, differs, stays, fun touches => untouched ?_⟩
    obtain ⟨change, member, touches⟩ := touches
    exact ⟨change, List.mem_append_left _ member, touches⟩
  intro left right first second blob foundLeft foundRight mine theirs
  rcases traced left first foundLeft with ⟨old, whole⟩ | ⟨state, put, named, plain, placed⟩
  · rcases traced right second foundRight with ⟨alsoOld, _whole⟩ | ⟨state, put, named, plain, placed⟩
    · exact parted old alsoOld mine theirs
    · exact mixed put named plain placed theirs old whole mine
  · rcases traced right second foundRight with
      ⟨old, whole⟩ | ⟨other, _put, otherNamed, _plain, otherPlaced⟩
    · exact (mixed put named plain placed mine old whole theirs).symm
    · obtain ⟨_place, _length, there⟩ := StoredProperty.mem_blobs.mp mine
      obtain ⟨_place, _length, elsewhere⟩ := StoredProperty.mem_blobs.mp theirs
      rw [← named, ← otherNamed]
      exact apart (retains _ _ _ (placed there).1) (retains _ _ _ (otherPlaced elsewhere).1)

/-- What a store leaves of what was stored before, and of what it puts. -/
structure ChangeLog.Lasting (log : ChangeLog) (before after : Contents) : Prop where
  parted : Parted after.bundles
  puts : ∀ state, log.Puts state → state.id.name.isIdentity = false → ∃ stored,
    entryOf after.bundles state.id = some stored ∧
      after.stateOf stored = .ok { state with status := .existing }
  others : ∀ property stored, ¬ log.Names property → ¬ log.Deletes property.node →
    entryOf before.bundles property = some stored →
      entryOf after.bundles property = some stored ∧ after.stateOf stored = before.stateOf stored

theorem Applied.lasting (applied : Applied faults threshold log before after)
    (distinct : log.Distinct) (fresh : ∀ node ∈ log.addedNodes, before.bundles node.id = none)
    (parted : Parted before.bundles) (apart : after.Apart)
    (calm : ¬ log.Clashes threshold before after) : log.Lasting before after := by
  obtain ⟨cleared, draft, bundles, written, deleted, made, gives, wrote, listed⟩ := applied
  have relisted := Contents.relisted_of_chain listed
  have rest := Draft.written_of_chain gives wrote
  have records : after.bundles = draft.bundle? :=
    relisted.bundles.trans (Draft.bundles_of_chain gives wrote)
  have blobs : after.blobs = draft.contents.blobs := relisted.blobs.trans rest.blobs
  have slots : after.slots = draft.contents.slots := relisted.slots.trans rest.slots
  have lasts := Contents.lasts_of_chain deleted parted
  have left (property : PropertyId) (stored : StoredProperty)
      (found : entryOf cleared.bundles property = some stored) :
      entryOf before.bundles property = some stored ∧ ¬ log.Deletes property.node := by
    refine ⟨lasts.entry found, fun deletes => held_of_entry found ?_⟩
    obtain ⟨node, member, named⟩ := deletes
    rw [← named]
    exact Contents.absent_of_chain deleted member
  have traced : (Draft.start log.addedNodes cleared).Traced threshold log.Deletes [] cleared := by
    refine fun property stored found => Or.inl ⟨Draft.start_entry log.addedNodes found, ?_⟩
    rintro ⟨_change, member, _touches⟩
    cases member
  have parts (now : Draft) (early late : List Change) (split : early ++ late = log.changes)
      (nowTraced : now.Traced threshold log.Deletes early cleared)
      (retains : draft.contents.Retains now.contents) : Parted now.bundle? := by
    refine nowTraced.parted split (fun property place blob given => ?_) (lasts.parted parted) apart
      left calm
    rw [slots]
    exact retains property place blob given
  constructor
  case parted =>
    have whole := Change.traced_of_chain made traced
    rw [List.nil_append] at whole
    rw [records]
    apply parts draft log.changes [] (List.append_nil _) whole
    exact fun _property _place _blob given => given
  case puts =>
    intro state puts plain
    obtain ⟨early, late, split⟩ := List.append_of_mem (ChangeLog.mem_changes_put.mpr puts)
    have untouched : ¬ Change.AnyTouches log.Deletes late state.id := by
      rintro ⟨change, member, touches⟩
      exact distinct.last split change member touches.subject
    rw [split] at made
    obtain ⟨_reached, _next, earlier, makes, later⟩ := made.around
    have nextTraced := makes.traced (Change.traced_of_chain earlier traced)
    obtain ⟨_bundle, _released, stored, _held, _releases, _stores, keeps, found⟩ :=
      (makes.puts plain).entry
    obtain ⟨last, same⟩ := Change.spares_of_chain later parts
      ((List.append_cons early _ late).symm.trans split.symm) nextTraced untouched found
    refine ⟨stored, records ▸ last, ?_⟩
    rw [← keeps.state]
    exact Contents.stateOf_congr (fun blob own => by rw [blobs, same blob own])
  case others =>
    intro property stored unnamed stays found
    have notAdded : ∀ node ∈ log.addedNodes, node.id ≠ property.node :=
      fun node member same => held_of_entry found (same ▸ fresh node member)
    have kept : cleared.bundles property.node = before.bundles property.node :=
      Contents.kept_of_chain deleted (fun node member named => stays ⟨node, member, named⟩)
    have still : entryOf cleared.bundles property = some stored := (entryOf_congr kept).trans found
    obtain ⟨last, same⟩ := Change.spares_of_chain made parts (List.nil_append _) traced
      (fun touches => unnamed (ChangeLog.Touches.names touches))
      ((entryOf_congr (Draft.start_of_not_added notAdded)).trans still)
    refine ⟨records ▸ last, Contents.stateOf_congr (fun blob own => ?_)⟩
    rw [blobs, same blob own]
    exact lasts.blobs still blob own

end BundleStore
