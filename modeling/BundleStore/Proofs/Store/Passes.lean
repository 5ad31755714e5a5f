import BundleStore.Proofs.Store.Entries

set_option autoImplicit false

/-! What the passes of a store come to as wholes: the deletion of nodes, the staging of changes, the
writing of the staged bundles and of the reference lists, each gone through or broken off. -/

namespace BundleStore

variable {faults : Faults} {threshold : Nat}

/-! ### Deleting -/

namespace Contents

/-- Some records are gone, and with them blobs of their nodes. -/
structure Cleared (before after : Contents) : Prop where
  records : ∀ id, after.bundles id = none ∨ after.bundles id = before.bundles id
  references : after.references = before.references
  spares : Spares (fun property => after.bundles property.node = none) before after

variable {before after : Contents}

theorem Cleared.refl (contents : Contents) : Cleared contents contents :=
  ⟨fun _id => Or.inr rfl, rfl, Spares.refl ..⟩

theorem Cleared.gone (cleared : Cleared before after) {id : NodeId}
    (absent : before.bundles id = none) : after.bundles id = none := by
  rcases cleared.records id with gone | same
  · exact gone
  · rw [same, absent]

theorem Cleared.trans {last : Contents} (early : Cleared before after)
    (late : Cleared after last) : Cleared before last := by
  constructor
  · intro id
    rcases late.records id with gone | same
    · exact Or.inl gone
    · rw [same]
      exact early.records id
  · rw [late.references, early.references]
  · exact (early.spares.wider (fun property absent => late.gone absent)).trans late.spares

theorem Cleared.entry (cleared : Cleared before after) {property : PropertyId}
    {stored : StoredProperty} (found : entryOf after.bundles property = some stored) :
    entryOf before.bundles property = some stored := by
  rcases cleared.records property.node with gone | same
  · exact absurd gone (held_of_entry found)
  · rw [← entryOf_congr same]
    exact found

theorem Cleared.proper (cleared : Cleared before after) (proper : before.Proper) :
    after.Proper :=
  fun property stored found =>
    Owns.later proper cleared.spares property stored (cleared.entry found)

theorem mem_blobs_of_record {records : Records} {id : NodeId} {bundle : Bundle}
    (held : records id = some bundle) {blob : String} (member : blob ∈ bundle.blobs) :
    ∃ property stored, property.node = id ∧ entryOf records property = some stored ∧
      blob ∈ stored.blobs := by
  obtain ⟨stored, listed, own⟩ := List.mem_flatMap.mp member
  obtain ⟨name, found⟩ := SortedMap.mem_values.mp listed
  exact ⟨⟨id, name⟩, stored, rfl, (entryOf_of_some held).trans found, own⟩

theorem without_cleared (contents : Contents) (id : NodeId) :
    Cleared contents (contents.without id) := by
  refine ⟨fun other => ?_, rfl, ⟨fun _ => rfl, fun given => given⟩⟩
  by_cases same : other = id
  · rw [same]
    exact Or.inl (Function.update_self ..)
  · exact Or.inr (Function.update_of_ne same ..)

theorem Deletes.bundles {node : Node} (deletes : Deletes faults node before after) :
    after.bundles = Function.update before.bundles node.id none := by
  obtain ⟨_bundle, _held, released⟩ := deletes
  exact released.bundles

theorem Deletes.cleared {node : Node} (deletes : Deletes faults node before after)
    (proper : before.Proper) : Cleared before after := by
  obtain ⟨bundle, held, released⟩ := deletes
  refine (without_cleared before node.id).trans ⟨fun id => ?_, released.references, ?_⟩
  · exact Or.inr (congrFun released.bundles id)
  · apply released.toTouched.spares
    intro blob member
    obtain ⟨property, stored, named, found, own⟩ := mem_blobs_of_record held member
    obtain ⟨place, slot⟩ := (proper property stored found).slotOf own
    refine ⟨property, ?_, place, released.slots slot⟩
    rw [named, released.bundles]
    exact Function.update_self ..

theorem DeletesHalf.cleared {node : Node} (half : DeletesHalf node before after) :
    Cleared before after := by
  rcases half with rfl | rfl
  · exact Cleared.refl _
  · exact without_cleared _ node.id

theorem cleared_of_chain {nodes : List Node} (chain : Chain (Deletes faults) nodes before after)
    (proper : before.Proper) : Cleared before after := by
  induction chain with
  | nil state => exact Cleared.refl state
  | cons head tail ih =>
      have first := head.cleared proper
      exact first.trans (ih (first.proper proper))

theorem cleared_of_breaks {nodes : List Node}
    (breaks : Breaks (Deletes faults) DeletesHalf nodes before after) (proper : before.Proper) :
    Cleared before after := by
  induction breaks with
  | here half => exact half.cleared
  | later head tail ih =>
      have first := head.cleared proper
      exact first.trans (ih (first.proper proper))

theorem absent_of_chain {nodes : List Node} (chain : Chain (Deletes faults) nodes before after)
    {node : Node} (member : node ∈ nodes) : after.bundles node.id = none := by
  induction chain with
  | nil state => cases member
  | cons head tail ih =>
      rcases List.mem_cons.mp member with rfl | later
      · refine tail.preserves (fun now => now.bundles node.id = none) ?_ ?_
        · intro other _member now next deletes absent
          rw [deletes.bundles, Function.update_apply, absent, ite_self]
        · rw [head.bundles, Function.update_self]
      · exact ih later

theorem kept_of_chain {nodes : List Node} (chain : Chain (Deletes faults) nodes before after)
    {id : NodeId} (others : ∀ node ∈ nodes, node.id ≠ id) :
    after.bundles id = before.bundles id := by
  refine chain.preserves (fun now => now.bundles id = before.bundles id) ?_ rfl
  intro node member now next deletes same
  rw [deletes.bundles, Function.update_of_ne (others node member).symm]
  exact same

end Contents

/-! ### Staging -/

namespace Draft

/-- For an added node there is an empty record, for any other one what there was. -/
theorem added_cases (nodes : List Node) (staged : NodeId → Option Bundle) (id : NodeId) :
    (∃ node ∈ nodes, node.id = id ∧ added nodes staged id = some (Bundle.ofNode node).record) ∨
      ((∀ node ∈ nodes, node.id ≠ id) ∧ added nodes staged id = staged id) := by
  induction nodes generalizing staged with
  | nil => exact Or.inr ⟨(fun node member => by cases member), rfl⟩
  | cons node rest ih =>
      rcases ih (Function.update staged node.id (some (Bundle.ofNode node).record)) with
        ⟨later, member, named, found⟩ | ⟨others, same⟩
      · exact Or.inl ⟨later, List.mem_cons_of_mem _ member, named, found⟩
      · by_cases named : id = node.id
        · refine Or.inl ⟨node, List.mem_cons_self, named.symm, same.trans ?_⟩
          rw [named, Function.update_self]
        · refine Or.inr ⟨fun other member => ?_, same.trans (Function.update_of_ne named ..)⟩
          rcases List.mem_cons.mp member with rfl | later
          · exact fun equal => named equal.symm
          · exact others other later

variable {nodes : List Node} {contents : Contents}

theorem start_of_added (contents : Contents) {node : Node} (member : node ∈ nodes) :
    ∃ other ∈ nodes, other.id = node.id ∧
      (start nodes contents).bundle? node.id = some (Bundle.ofNode other).record := by
  rcases added_cases nodes (fun _ => none) node.id with ⟨other, listed, named, found⟩ |
    ⟨others, _same⟩
  · refine ⟨other, listed, named, ?_⟩
    unfold Draft.bundle?
    rw [show (start nodes contents).staged node.id = _ from found]
    rfl
  · exact absurd rfl (others node member)

theorem start_of_not_added {id : NodeId} (others : ∀ node ∈ nodes, node.id ≠ id) :
    (start nodes contents).bundle? id = contents.bundles id := by
  rcases added_cases nodes (fun _ => none) id with ⟨node, member, named, _found⟩ | ⟨_others, same⟩
  · exact absurd named (others node member)
  · unfold Draft.bundle?
    rw [show (start nodes contents).staged id = none from same]
    rfl

theorem start_entry_of_added {node : Node} (member : node ∈ nodes) (name : Name) :
    entryOf (start nodes contents).bundle? ⟨node.id, name⟩ = none := by
  obtain ⟨other, _listed, _named, found⟩ := start_of_added contents member
  rw [entryOf_of_some found]
  rfl

theorem start_entry (nodes : List Node) {property : PropertyId} {stored : StoredProperty}
    (found : entryOf (start nodes contents).bundle? property = some stored) :
    entryOf contents.bundles property = some stored := by
  by_cases added : ∃ node ∈ nodes, node.id = property.node
  · obtain ⟨node, member, named⟩ := added
    obtain ⟨_id, name⟩ := property
    obtain rfl : node.id = _id := named
    rw [start_entry_of_added member] at found
    cases found
  · have others : ∀ node ∈ nodes, node.id ≠ property.node :=
      fun node member named => added ⟨node, member, named⟩
    rw [← entryOf_congr (start_of_not_added others)]
    exact found

theorem start_owns (proper : contents.Proper) : contents.Owns (start nodes contents).bundle? :=
  fun property stored found => proper property stored (start_entry nodes found)

end Draft

section

variable {gone : NodeId → Prop} {list : List Change} {first last : Draft}

namespace Change

/-- Some change of the list touches the entry of the property. -/
def AnyTouches (gone : NodeId → Prop) (list : List Change) (property : PropertyId) : Prop :=
  ∃ change ∈ list, change.Touches gone property

theorem aside_of_chain (chain : Chain (Makes faults threshold gone) list first last) :
    last.contents.bundles = first.contents.bundles ∧
      last.contents.references = first.contents.references := by
  refine chain.preserves (fun draft =>
    draft.contents.bundles = first.contents.bundles ∧
      draft.contents.references = first.contents.references) ?_ ⟨rfl, rfl⟩
  intro change _member before after makes same
  exact ⟨makes.aside.1.trans same.1, makes.aside.2.trans same.2⟩

/-- Staging keeps every entry its property's own, and spares what no change touches. -/
theorem staged_of_chain (chain : Chain (Makes faults threshold gone) list first last)
    (owns : first.contents.Owns first.bundle?) :
    last.contents.Owns last.bundle? ∧
      Contents.Spares (AnyTouches gone list) first.contents last.contents := by
  refine chain.preserves (fun draft => draft.contents.Owns draft.bundle? ∧
    Contents.Spares (AnyTouches gone list) first.contents draft.contents) ?_
    ⟨owns, Contents.Spares.refl ..⟩
  intro change member before after makes kept
  refine ⟨makes.owns kept.1, kept.2.trans ((makes.spares kept.1).wider ?_)⟩
  exact fun property touched => ⟨change, member, touched⟩

theorem spares_of_breaks {left : Contents}
    (breaks : Breaks (Makes faults threshold gone) (Spoils faults) list first left)
    (owns : first.contents.Owns first.bundle?) :
    left.bundles = first.contents.bundles ∧
      Contents.Spares (AnyTouches gone list) first.contents left := by
  obtain ⟨change, member, before, ⟨kept, same, spared⟩, spoils⟩ :=
    breaks.broken_after (fun draft => draft.contents.Owns draft.bundle? ∧
      draft.contents.bundles = first.contents.bundles ∧
      Contents.Spares (AnyTouches gone list) first.contents draft.contents) (by
        intro change member before after makes kept
        refine ⟨makes.owns kept.1, makes.aside.1.trans kept.2.1, kept.2.2.trans ?_⟩
        exact (makes.spares kept.1).wider (fun property touched => ⟨change, member, touched⟩))
      ⟨owns, rfl, Contents.Spares.refl ..⟩
  obtain ⟨spares, bundles⟩ := spoils.spares gone kept
  exact ⟨bundles.trans same,
    spared.trans (spares.wider (fun property touched => ⟨change, member, touched⟩))⟩

theorem entry_of_chain (chain : Chain (Makes faults threshold gone) list first last)
    {property : PropertyId} (others : ¬ AnyTouches gone list property) :
    entryOf last.bundle? property = entryOf first.bundle? property := by
  refine chain.preserves (fun draft =>
    entryOf draft.bundle? property = entryOf first.bundle? property) ?_ rfl
  intro change member before after makes same
  rw [makes.entry_untouched (fun touched => others ⟨change, member, touched⟩)]
  exact same

theorem bundle_of_chain (chain : Chain (Makes faults threshold gone) list first last) {id : NodeId}
    (others : ∀ change ∈ list, change.node ≠ id) : last.bundle? id = first.bundle? id := by
  refine chain.preserves (fun draft => draft.bundle? id = first.bundle? id) ?_ rfl
  intro change member before after makes same
  rcases makes.turns with rfl | ⟨old, new, turns⟩
  · exact same
  · rw [turns.turned, Function.update_of_ne (others change member).symm]
    exact same

theorem absent_of_chain (chain : Chain (Makes faults threshold gone) list first last) {id : NodeId}
    (absent : first.bundle? id = none) : last.bundle? id = none :=
  chain.preserves (fun draft => draft.bundle? id = none)
    (fun _change _member _before _after makes missing => makes.absent missing) absent

theorem header_of_chain (chain : Chain (Makes faults threshold gone) list first last) {id : NodeId}
    (others : ∀ node : Node, .update node ∈ list → node.id ≠ id) :
    headerOf last.bundle? id = headerOf first.bundle? id := by
  refine chain.preserves (fun draft =>
    headerOf draft.bundle? id = headerOf first.bundle? id) ?_ rfl
  intro change member before after makes same
  rw [makes.header_of_ne (fun node updates => others node (updates ▸ member))]
  exact same

theorem no_entry_of_chain (chain : Chain (Makes faults threshold gone) list first last)
    {property : PropertyId} (unput : ∀ state : Property, .put state ∈ list → state.id ≠ property)
    (absent : entryOf first.bundle? property = none) :
    entryOf last.bundle? property = none := by
  refine chain.preserves (fun draft => entryOf draft.bundle? property = none) ?_ absent
  intro change member before after makes missing
  by_cases touched : change.Touches gone property
  · cases change with
    | update node => exact touched.elim
    | put state => exact absurd touched.1 (unput state member)
    | drop state =>
        obtain ⟨rfl, stays⟩ := touched
        exact makes.entry_drop stays
  · rw [makes.entry_untouched touched]
    exact missing

end Change

end

/-! ### Writing -/

/-- Some staged records have been written, or all; nothing else is different. -/
structure Draft.Written (draft : Draft) (after : Contents) : Prop where
  records : ∀ id, after.bundles id = draft.contents.bundles id ∨ after.bundles id = draft.bundle? id
  references : after.references = draft.contents.references
  blobs : after.blobs = draft.contents.blobs
  slots : after.slots = draft.contents.slots

namespace Draft

variable {draft : Draft} {bundles : List Bundle}

theorem Gives.bundle? (gives : draft.Gives bundles) {bundle : Bundle} (member : bundle ∈ bundles) :
    draft.bundle? bundle.id = some bundle.record := by
  have staged := (gives bundle.id bundle.record).mpr ⟨bundle, member, rfl, rfl⟩
  unfold Draft.bundle?
  rw [staged]
  rfl

theorem Written.refl (draft : Draft) : draft.Written draft.contents :=
  ⟨fun _id => Or.inl rfl, rfl, rfl, rfl⟩

theorem Written.writes {now next : Contents} (written : draft.Written now) {bundle : Bundle}
    (staged : draft.bundle? bundle.id = some bundle.record)
    (writes : Contents.Writes bundle now next) : draft.Written next := by
  obtain rfl : next = now.holding bundle := writes
  constructor
  · intro id
    by_cases same : id = bundle.id
    · apply Or.inr
      rw [same, staged]
      exact Function.update_self ..
    · rw [show (now.holding bundle).bundles id = now.bundles id from Function.update_of_ne same ..]
      exact written.records id
  · exact written.references
  · exact written.blobs
  · exact written.slots

theorem written_of_chain (gives : draft.Gives bundles) {after : Contents}
    (chain : Chain Contents.Writes bundles draft.contents after) : draft.Written after := by
  apply chain.preserves draft.Written _ (Written.refl draft)
  intro bundle member before after writes written
  exact written.writes (gives.bundle? member) writes

theorem written_of_breaks (gives : draft.Gives bundles) {after : Contents}
    (breaks : Breaks Contents.Writes Contents.WritesHalf bundles draft.contents after) :
    draft.Written after := by
  have each (bundle : Bundle) (member : bundle ∈ bundles) (now next : Contents)
      (writes : Contents.Writes bundle now next) (written : draft.Written now) :
      draft.Written next := written.writes (gives.bundle? member) writes
  obtain ⟨bundle, member, before, written, half⟩ :=
    breaks.broken_after draft.Written each (Written.refl draft)
  rcases half with rfl | writes
  · exact written
  · exact each bundle member before after writes written

/-- Records that are as they are to be stay so, and those that are written become so. -/
theorem settled_of_chain {first last : Contents} (chain : Chain Contents.Writes bundles first last)
    (staged : ∀ bundle ∈ bundles, draft.bundle? bundle.id = some bundle.record) {id : NodeId}
    (either : first.bundles id = draft.bundle? id ∨ ∃ bundle ∈ bundles, bundle.id = id) :
    last.bundles id = draft.bundle? id := by
  induction chain with
  | nil state =>
      rcases either with same | ⟨bundle, member, _named⟩
      · exact same
      · cases member
  | cons head tail ih =>
      rename_i bundle rest before next _after
      obtain rfl := head
      apply ih (fun other member => staged other (List.mem_cons_of_mem _ member))
      by_cases same : id = bundle.id
      · apply Or.inl
        rw [same, staged bundle List.mem_cons_self]
        exact Function.update_self ..
      · rw [show (before.holding bundle).bundles id = before.bundles id from
          Function.update_of_ne same ..]
        rcases either with settled | ⟨other, member, named⟩
        · exact Or.inl settled
        · rcases List.mem_cons.mp member with rfl | later
          · exact absurd named.symm same
          · exact Or.inr ⟨other, later, named⟩

theorem bundles_of_chain (gives : draft.Gives bundles) {after : Contents}
    (chain : Chain Contents.Writes bundles draft.contents after) :
    after.bundles = draft.bundle? := by
  funext id
  apply settled_of_chain chain (fun bundle member => gives.bundle? member)
  unfold Draft.bundle?
  cases found : draft.staged id with
  | none => exact Or.inl rfl
  | some record =>
      obtain ⟨bundle, member, named, _recorded⟩ := (gives id record).mp found
      exact Or.inr ⟨bundle, member, named⟩

end Draft

/-! ### Reference lists -/

namespace Contents

structure Relisted (before after : Contents) : Prop where
  bundles : after.bundles = before.bundles
  blobs : after.blobs = before.blobs
  slots : after.slots = before.slots

variable {before after : Contents} {lists : List References}

theorem Relisted.refl (contents : Contents) : Relisted contents contents := ⟨rfl, rfl, rfl⟩

theorem Relisted.relist {now next : Contents} {references : References}
    (relisted : Relisted before now) (listing : Lists references now next) :
    Relisted before next := by
  rw [show next = _ from listing]
  exact ⟨relisted.bundles, relisted.blobs, relisted.slots⟩

theorem relisted_of_chain (chain : Chain Lists lists before after) : Relisted before after :=
  chain.preserves (Relisted before)
    (fun _references _member _now _next listing relisted => relisted.relist listing)
    (Relisted.refl before)

theorem relisted_of_breaks (breaks : Breaks Lists ListsHalf lists before after) :
    Relisted before after := by
  obtain ⟨references, _member, now, relisted, half⟩ := breaks.broken_after (Relisted before)
    (fun _references _member _now _next listing relisted => relisted.relist listing)
    (Relisted.refl before)
  rcases half with rfl | listing
  · exact relisted
  · exact relisted.relist listing

/-- The last list given for a target is the one that stays; here it is the only one. -/
theorem listed_of_chain (chain : Chain Lists lists before after)
    (distinct : (lists.map References.target).Nodup) {references : References}
    (member : references ∈ lists) :
    after.references references.target =
      if references.isEmpty then none else some references := by
  induction chain with
  | nil state => cases member
  | cons head tail ih =>
      rename_i other rest first next last
      obtain ⟨fresh, further⟩ := List.nodup_cons.mp distinct
      rcases List.mem_cons.mp member with rfl | later
      · have stays : last.references references.target = next.references references.target := by
          refine tail.preserves (fun now =>
            now.references references.target = next.references references.target) ?_ rfl
          rintro written listed now _next rfl same
          have differs : references.target ≠ written.target := by
            intro equal
            exact fresh (List.mem_map.mpr ⟨written, listed, equal.symm⟩)
          exact (Function.update_of_ne differs ..).trans same
        rw [stays, show next = _ from head]
        exact Function.update_self ..
      · exact ih further later

theorem unlisted_of_chain (chain : Chain Lists lists before after) {target : NodeId}
    (others : ∀ references ∈ lists, references.target ≠ target) :
    after.references target = before.references target := by
  refine chain.preserves (fun now =>
    now.references target = before.references target) ?_ rfl
  rintro references member now _next rfl same
  exact (Function.update_of_ne (others references member).symm ..).trans same

end Contents

end BundleStore
