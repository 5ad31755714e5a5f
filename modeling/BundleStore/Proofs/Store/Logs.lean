import BundleStore.Proofs.Store.Outcome
import Mathlib.Data.List.Nodup

set_option autoImplicit false

/-! Logs that say one thing of each item. In such a log the change to a property is the last word on
it, and so is the update of a node. -/

namespace BundleStore

namespace ChangeLog

variable {log : ChangeLog}

/-- No item comes twice, whether it is added, modified or deleted. -/
def Distinct (log : ChangeLog) : Prop := (log.items.map Item.id).Nodup

/-- The log says something of the property. -/
def Names (log : ChangeLog) (property : PropertyId) : Prop :=
  ∃ item ∈ log.items, item.id = .property property

theorem mem_nodes {items : List Item} {node : Node} :
    node ∈ items.filterMap Item.node? ↔ Item.node node ∈ items := by
  rw [List.mem_filterMap]
  constructor
  · intro given
    obtain ⟨item, member, is⟩ := given
    cases item with
    | node state =>
        cases is
        exact member
    | property state => cases is
  · intro member
    exact ⟨.node node, member, rfl⟩

theorem mem_properties {items : List Item} {state : Property} :
    state ∈ items.filterMap Item.property? ↔ Item.property state ∈ items := by
  rw [List.mem_filterMap]
  constructor
  · intro given
    obtain ⟨item, member, is⟩ := given
    cases item with
    | node node => cases is
    | property other =>
        cases is
        exact member
  · intro member
    exact ⟨.property state, member, rfl⟩

theorem mem_items {item : Item} :
    item ∈ log.items ↔ item ∈ log.added ∨ item ∈ log.modified ∨ item ∈ log.deleted := by
  unfold items
  rw [List.mem_append, List.mem_append, or_assoc]

/-! ### Two items of one log -/

theorem Distinct.parts (distinct : log.Distinct) :
    (∀ left ∈ log.added, ∀ right ∈ log.modified, left.id ≠ right.id) ∧
      (∀ left ∈ log.added, ∀ right ∈ log.deleted, left.id ≠ right.id) ∧
      ∀ left ∈ log.modified, ∀ right ∈ log.deleted, left.id ≠ right.id := by
  unfold Distinct items at distinct
  rw [List.map_append, List.map_append, List.nodup_append, List.nodup_append] at distinct
  obtain ⟨⟨_added, _modified, first⟩, _deleted, rest⟩ := distinct
  refine ⟨fun left inLeft right inRight => ?_, fun left inLeft right inRight => ?_,
    fun left inLeft right inRight => ?_⟩
  · exact first _ (List.mem_map_of_mem inLeft) _ (List.mem_map_of_mem inRight)
  · exact rest _ (List.mem_append_left _ (List.mem_map_of_mem inLeft)) _
      (List.mem_map_of_mem inRight)
  · exact rest _ (List.mem_append_right _ (List.mem_map_of_mem inLeft)) _
      (List.mem_map_of_mem inRight)

theorem Distinct.same (distinct : log.Distinct) {left right : Item} (inLeft : left ∈ log.items)
    (inRight : right ∈ log.items) (same : left.id = right.id) : left = right :=
  List.inj_on_of_nodup_map distinct inLeft inRight same

theorem Distinct.added_deleted (distinct : log.Distinct) {added deleted : Node}
    (isAdded : added ∈ log.addedNodes) (isDeleted : deleted ∈ log.deletedNodes) :
    added.id ≠ deleted.id := by
  intro same
  exact distinct.parts.2.1 _ (mem_nodes.mp isAdded) _ (mem_nodes.mp isDeleted)
    (congrArg ItemId.node same)

theorem Distinct.added_modified (distinct : log.Distinct) {added modified : Node}
    (isAdded : added ∈ log.addedNodes) (isModified : modified ∈ log.modifiedNodes) :
    added.id ≠ modified.id := by
  intro same
  exact distinct.parts.1 _ (mem_nodes.mp isAdded) _ (mem_nodes.mp isModified)
    (congrArg ItemId.node same)

theorem Distinct.added_once (distinct : log.Distinct) {left right : Node}
    (inLeft : left ∈ log.addedNodes) (inRight : right ∈ log.addedNodes)
    (same : left.id = right.id) : left = right := by
  have items := distinct.same (mem_items.mpr (Or.inl (mem_nodes.mp inLeft)))
    (mem_items.mpr (Or.inl (mem_nodes.mp inRight))) (congrArg ItemId.node same)
  exact Item.node.inj items

/-! ### The changes of a log -/

/-- A property that is put is modified or added. -/
def Puts (log : ChangeLog) (state : Property) : Prop :=
  state ∈ log.modifiedProperties ∨ state ∈ log.addedProperties

theorem mem_changes_update {node : Node} :
    Change.update node ∈ log.changes ↔ node ∈ log.modifiedNodes := by
  unfold changes
  simp

theorem mem_changes_put {state : Property} : Change.put state ∈ log.changes ↔ log.Puts state := by
  unfold changes Puts
  simp

theorem mem_changes_drop {state : Property} :
    Change.drop state ∈ log.changes ↔ state ∈ log.deletedProperties := by
  unfold changes
  simp

theorem Puts.names {state : Property} (puts : log.Puts state) : log.Names state.id := by
  rcases puts with modified | added
  · exact ⟨_, mem_items.mpr (Or.inr (Or.inl (mem_properties.mp modified))), rfl⟩
  · exact ⟨_, mem_items.mpr (Or.inl (mem_properties.mp added)), rfl⟩

theorem names_of_deleted {state : Property} (deleted : state ∈ log.deletedProperties) :
    log.Names state.id :=
  ⟨_, mem_items.mpr (Or.inr (Or.inr (mem_properties.mp deleted))), rfl⟩

theorem Touches.names {property : PropertyId} (touches : log.Touches property) :
    log.Names property := by
  obtain ⟨change, member, touched⟩ := touches
  cases change with
  | update node => exact touched.elim
  | put state =>
      obtain ⟨rfl, _plain⟩ := touched
      exact (mem_changes_put.mp member).names
  | drop state =>
      obtain ⟨rfl, _stays⟩ := touched
      exact names_of_deleted (mem_changes_drop.mp member)

theorem node_of_changes {change : Change} (member : change ∈ log.changes) :
    ∃ item ∈ log.items, item.bundleId = change.node := by
  cases change with
  | update node =>
      have modified := mem_nodes.mp (mem_changes_update.mp member)
      exact ⟨_, mem_items.mpr (Or.inr (Or.inl modified)), rfl⟩
  | put state =>
      obtain ⟨item, listed, named⟩ := (mem_changes_put.mp member).names
      exact ⟨item, listed, congrArg ItemId.bundleId named⟩
  | drop state =>
      obtain ⟨item, listed, named⟩ := names_of_deleted (mem_changes_drop.mp member)
      exact ⟨item, listed, congrArg ItemId.bundleId named⟩

end ChangeLog

namespace Change

/-- The item that the change is about. -/
def subject : Change → ItemId
  | .update node => .node node.id
  | .put state => .property state.id
  | .drop state => .property state.id

theorem Touches.subject {gone : NodeId → Prop} {change : Change} {property : PropertyId}
    (touches : change.Touches gone property) : change.subject = .property property := by
  cases change with
  | update node => exact touches.elim
  | put state => exact congrArg ItemId.property touches.1
  | drop state => exact congrArg ItemId.property touches.1

/-- Where no two changes are about one item, those before and after a change are about others. -/
theorem subjects_apart {change : Change} {early late : List Change}
    (subjects : ((early ++ change :: late).map subject).Nodup) :
    (∀ other ∈ early, other.subject ≠ change.subject) ∧
      ∀ other ∈ late, other.subject ≠ change.subject := by
  rw [List.map_append, List.map_cons, List.nodup_middle, List.nodup_cons, List.mem_append,
    not_or] at subjects
  obtain ⟨⟨fromEarly, fromLate⟩, _others⟩ := subjects
  exact ⟨fun other member same => fromEarly (List.mem_map.mpr ⟨other, member, same⟩),
    fun other member same => fromLate (List.mem_map.mpr ⟨other, member, same⟩)⟩

/-- The header of a node that is updated once is the one that it is updated to. -/
theorem updated_of_chain {faults : Faults} {threshold : Nat} {gone : NodeId → Prop}
    {list : List Change} {first last : Draft}
    (chain : Chain (Makes faults threshold gone) list first last)
    (subjects : (list.map subject).Nodup) {node : Node} (member : .update node ∈ list) :
    headerOf last.bundle? node.id = some node.header := by
  obtain ⟨early, late, rfl⟩ := List.append_of_mem member
  obtain ⟨_before, _after, _earlier, makes, later⟩ := chain.around
  rw [header_of_chain later]
  · exact makes.header_update
  · intro updated isUpdated same
    exact (subjects_apart subjects).2 _ isUpdated (congrArg ItemId.node same)

end Change

namespace ChangeLog

variable {log : ChangeLog}

theorem items_perm (items : List Item) :
    ((items.filterMap Item.node?).map (fun node => ItemId.node node.id) ++
      (items.filterMap Item.property?).map (fun state => ItemId.property state.id)).Perm
      (items.map Item.id) := by
  induction items with
  | nil => exact List.Perm.refl _
  | cons item rest ih =>
      cases item with
      | node node => exact ih.cons (ItemId.node node.id)
      | property state => exact List.perm_middle.trans (ih.cons (ItemId.property state.id))

theorem properties_sublist (items : List Item) :
    ((items.filterMap Item.property?).map (fun state => ItemId.property state.id)).Sublist
      (items.map Item.id) := by
  induction items with
  | nil => exact List.Sublist.refl _
  | cons item rest ih =>
      cases item with
      | node node => exact ih.cons (ItemId.node node.id)
      | property state => exact ih.cons_cons (ItemId.property state.id)

/-- No two changes are about one item. -/
theorem Distinct.subjects (distinct : log.Distinct) : (log.changes.map Change.subject).Nodup := by
  have listed : log.changes.map Change.subject =
      (log.modifiedNodes.map (fun node => ItemId.node node.id) ++
        log.modifiedProperties.map (fun state => ItemId.property state.id)) ++
        (log.deletedProperties.map (fun state => ItemId.property state.id) ++
          log.addedProperties.map (fun state => ItemId.property state.id)) := by
    unfold changes
    simp only [List.map_append, List.map_map, List.append_assoc]
    rfl
  have order : (log.items.map Item.id).Perm
      (log.modified.map Item.id ++ (log.deleted.map Item.id ++ log.added.map Item.id)) := by
    unfold items
    rw [List.map_append, List.map_append, ← List.append_assoc, List.append_assoc (log.added.map _)]
    exact List.perm_append_comm
  have fewer := (List.Sublist.refl (log.modified.map Item.id)).append
    ((properties_sublist log.deleted).append (properties_sublist log.added))
  have kept := (order.nodup_iff.mp distinct).sublist fewer
  rw [listed]
  exact ((items_perm log.modified).append_right _).nodup_iff.mpr kept

/-- What comes after a change is about other items. -/
theorem Distinct.last (distinct : log.Distinct) {change : Change} {early late : List Change}
    (split : log.changes = early ++ change :: late) :
    ∀ other ∈ late, other.subject ≠ change.subject := by
  have subjects := distinct.subjects
  rw [split] at subjects
  exact (Change.subjects_apart subjects).2

end ChangeLog

end BundleStore
