import BundleStore.Proofs.Store.Passes

set_option autoImplicit false

/-! The headers of all nodes after a store that goes well. They follow from the headers before and
from the log alone: what the properties are, which blobs there are and what the cache holds plays no
part. -/

namespace BundleStore

/-- What is seen of a state goes through a list as the state does. -/
theorem Chain.foldl {β τ γ : Type} {pass : β → τ → τ → Prop} {list : List β} {first last : τ}
    (chain : Chain pass list first last) (seen : τ → γ) {next : γ → β → γ}
    (each : ∀ element before after, pass element before after →
      seen after = next (seen before) element) : seen last = list.foldl next (seen first) := by
  induction chain with
  | nil state => rfl
  | cons head _tail ih => rw [List.foldl_cons, ← each _ _ _ head, ih]

theorem headerOf_update (records : Records) (id : NodeId) (found : Option Bundle) :
    headerOf (Function.update records id found) =
      Function.update (headerOf records) id (found.map Bundle.header) :=
  Function.comp_update ..

abbrev Heads := NodeId → Option Header

namespace Heads

def drop (heads : Heads) (node : Node) : Heads := Function.update heads node.id none

def set (heads : Heads) (node : Node) : Heads :=
  Function.update heads node.id (some node.header)

/-- Only the update of a node changes headers. -/
def change (heads : Heads) : Change → Heads
  | .update node => heads.set node
  | _ => heads

end Heads

/-- Deleted nodes go first, then the added ones come, and then come the updates. -/
def ChangeLog.heads (log : ChangeLog) (heads : Heads) : Heads :=
  log.changes.foldl Heads.change
    (log.addedNodes.foldl Heads.set (log.deletedNodes.foldl Heads.drop heads))

/-- The headers after a list of logs. -/
def Heads.after (heads : Heads) (logs : List ChangeLog) : Heads :=
  logs.foldl (fun heads log => log.heads heads) heads

variable {faults : Faults} {threshold : Nat} {gone : NodeId → Prop}

theorem Contents.Deletes.heads {node : Node} {before after : Contents}
    (deletes : Deletes faults node before after) :
    headerOf after.bundles = Heads.drop (headerOf before.bundles) node := by
  rw [deletes.bundles, headerOf_update]
  rfl

theorem Change.Makes.heads {change : Change} {before after : Draft}
    (makes : change.Makes faults threshold gone before after) :
    headerOf after.bundle? = Heads.change (headerOf before.bundle?) change := by
  funext id
  cases change with
  | update node =>
      by_cases same : id = node.id
      · rw [same, makes.header_update, Heads.change, Heads.set, Function.update_self]
      · have others (updated : Node) (equal : Change.update node = .update updated) :
            updated.id ≠ id := by
          cases equal
          exact Ne.symm same
        rw [makes.header_of_ne others, Heads.change, Heads.set, Function.update_of_ne same]
  | put state => exact makes.header_of_ne (fun _node impossible => by cases impossible)
  | drop state => exact makes.header_of_ne (fun _node impossible => by cases impossible)

theorem Draft.added_heads (nodes : List Node) (staged : NodeId → Option Bundle)
    (contents : Contents) :
    headerOf (Draft.bundle? ⟨Draft.added nodes staged, contents⟩) =
      nodes.foldl Heads.set (headerOf (Draft.bundle? ⟨staged, contents⟩)) := by
  induction nodes generalizing staged with
  | nil => rfl
  | cons node rest ih =>
      have placed : Draft.bundle?
          ⟨Function.update staged node.id (some (Bundle.ofNode node).record), contents⟩ =
            Function.update (Draft.bundle? ⟨staged, contents⟩) node.id
              (some (Bundle.ofNode node).record) :=
        Draft.bundle?_stage rfl rfl
      rw [Draft.added, List.foldl_cons, List.foldl_cons]
      refine (ih _).trans ?_
      rw [placed, headerOf_update]
      rfl

/-- A store that goes well leaves the headers that the log says. -/
theorem Applied.heads {log : ChangeLog} {before after : Contents}
    (applied : Applied faults threshold log before after) :
    headerOf after.bundles = log.heads (headerOf before.bundles) := by
  obtain ⟨cleared, draft, bundles, written, deleted, made, gives, wrote, listed⟩ := applied
  have dropped : headerOf cleared.bundles =
      log.deletedNodes.foldl Heads.drop (headerOf before.bundles) :=
    deleted.foldl (fun contents => headerOf contents.bundles)
      (fun _node _before _after deletes => deletes.heads)
  have changed : headerOf draft.bundle? =
      log.changes.foldl Heads.change (headerOf (Draft.start log.addedNodes cleared).bundle?) :=
    made.foldl (fun draft => headerOf draft.bundle?)
      (fun _change _before _after makes => makes.heads)
  rw [(Contents.relisted_of_chain listed).bundles, Draft.bundles_of_chain gives wrote, changed,
    Draft.start, Draft.added_heads, ChangeLog.heads, ← dropped]
  rfl

end BundleStore
