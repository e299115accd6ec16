import CloudDrive.Foundation.Traversal
import CloudDrive.Snapshot.Restoring

/-! # Selections and their descendants

`_expand_with_descendants` visits what the selected entries reach along the links from a
parent to its children, in any list of entries whose item ids are distinct. -/

namespace CloudDrive

open Traversal

namespace SnapshotService

section Closure

variable {entries : List SnapshotEntry}

/-- `child` is listed in `by_parent` under the item id of `parent`. -/
def ChildIn (entries : List SnapshotEntry) (parent child : SnapshotEntry) : Prop :=
  child ∈ entries ∧ child.parentItemId = some parent.itemId

/-- The entry itself is selected. -/
def SelectedIn (entries : List SnapshotEntry) (selected : List Uuid) (entry : SnapshotEntry) :
    Prop :=
  entry ∈ entries ∧ entry.itemId ∈ selected

/-- The ids of the results tell whether an entry has been visited. -/
theorem mem_of_itemId (distinct : (entries.map SnapshotEntry.itemId).Nodup)
    {result : List SnapshotEntry} (sub : result ⊆ entries) {entry : SnapshotEntry}
    (listed : entry ∈ entries) (done : entry.itemId ∈ result.map SnapshotEntry.itemId) :
    entry ∈ result := by
  rcases List.mem_map.mp done with ⟨other, visits, same⟩
  have equal : other = entry :=
    List.inj_on_of_nodup_map distinct (sub visits) listed same
  rwa [← equal]

theorem expandLoop_frontier (distinct : (entries.map SnapshotEntry.itemId).Nodup)
    {roots : SnapshotEntry → Prop} :
    ∀ {fuel : Nat} {result stack target : List SnapshotEntry}, Worklist entries result stack →
      Frontier (ChildIn entries) roots result stack →
      expandLoop entries fuel result stack = .ok target →
      Frontier (ChildIn entries) roots target []
  | fuel, result, [], target, _, frontier, runs => by
      rw [expandLoop] at runs
      cases runs
      exact frontier
  | 0, _, _ :: _, _, _, _, runs => by cases runs
  | fuel + 1, result, entry :: stack, target, worklist, frontier, runs => by
      have listed : entry ∈ entries := worklist.stackSub List.mem_cons_self
      have restSub : stack ⊆ entries := fun _ member =>
        worklist.stackSub (List.mem_cons_of_mem _ member)
      rw [expandLoop] at runs
      by_cases done : entry.itemId ∈ result.map SnapshotEntry.itemId
      · rw [if_pos done] at runs
        have visits : entry ∈ result := mem_of_itemId distinct worklist.resultSub listed done
        have rest : Worklist entries result stack :=
          ⟨worklist.resultSub, restSub, worklist.distinct⟩
        exact expandLoop_frontier distinct rest (frontier.skip visits) runs
      · rw [if_neg done] at runs
        have pushes : ∀ other, other ∈ (entries.filter fun child =>
            decide (child.parentItemId = some entry.itemId)).reverse ↔
            ChildIn entries entry other := by
          intro other
          rw [List.mem_reverse, List.mem_filter, decide_eq_true_iff, ChildIn]
        exact expandLoop_frontier distinct (worklist.visit done) (frontier.visit pushes) runs

end Closure

/-- The expansion ends with each entry that a selected one reaches, once, and with no
other. -/
theorem expandWithDescendants_closure {entries : List SnapshotEntry}
    (distinct : (entries.map SnapshotEntry.itemId).Nodup) (selected : List Uuid) :
    ∃ target, expandWithDescendants entries selected = .ok target ∧
      (target.map SnapshotEntry.itemId).Nodup ∧
      ∀ entry, entry ∈ target ↔
        ∃ root, SelectedIn entries selected root ∧
          Relation.ReflTransGen (ChildIn entries) root entry := by
  rcases restoreTarget_runs (.selected selected) distinct with ⟨target, runs, _, once⟩
  have holdsRoots : ∀ root, root ∈ (entries.filter fun entry =>
      decide (entry.itemId ∈ selected)).reverse ↔ SelectedIn entries selected root := by
    intro root
    rw [List.mem_reverse, List.mem_filter, decide_eq_true_iff, SelectedIn]
  have start : Worklist entries [] (entries.filter fun entry =>
      decide (entry.itemId ∈ selected)).reverse :=
    ⟨List.nil_subset entries, fun root member => ((holdsRoots root).mp member).1, List.nodup_nil⟩
  have final : Frontier (ChildIn entries) (SelectedIn entries selected) target [] :=
    expandLoop_frontier distinct start (Frontier.initial holdsRoots) runs
  exact ⟨target, runs, once, fun entry => final.finished⟩

/-- Two folders inside each other, a folder in one of them and a folder beside. -/
private def nestedEntry (itemId : Uuid) (parentItemId : Option Uuid) : SnapshotEntry where
  snapshotId := 1
  itemId := itemId
  parentItemId := parentItemId
  name := "folder"
  itemType := .folder
  storageKey := none
  checksumSha256 := none
  sizeBytes := 0

private def nestedEntries : List SnapshotEntry :=
  [nestedEntry 2 (some 3), nestedEntry 3 (some 2), nestedEntry 4 (some 3), nestedEntry 5 none]

theorem expandWithDescendants_closure_nested :
    expandWithDescendants nestedEntries [4, 2, 9] =
        .ok [nestedEntry 4 (some 3), nestedEntry 2 (some 3), nestedEntry 3 (some 2)] ∧
      ∀ entry, entry ∈ [nestedEntry 4 (some 3), nestedEntry 2 (some 3), nestedEntry 3 (some 2)] ↔
        ∃ root, SelectedIn nestedEntries [4, 2, 9] root ∧
          Relation.ReflTransGen (ChildIn nestedEntries) root entry := by
  have runs : expandWithDescendants nestedEntries [4, 2, 9] =
      .ok [nestedEntry 4 (some 3), nestedEntry 2 (some 3), nestedEntry 3 (some 2)] := rfl
  have distinct : (nestedEntries.map SnapshotEntry.itemId).Nodup := by decide
  rcases expandWithDescendants_closure distinct [4, 2, 9] with ⟨target, isTarget, _, reached⟩
  rw [runs] at isTarget
  cases isTarget
  exact ⟨runs, reached⟩

end SnapshotService

end CloudDrive
