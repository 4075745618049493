import Mathlib.Data.List.Induction
import Mathlib.Data.String.Basic
import RecordSearch.Proofs.Search.History

/-! What indexes hold. The paths to index are in order, each once, whatever order they were given in
    (`nodup_orderPaths`). The index of a path holds, in an order of its own and in lower case, every
    text that the records have there, each with its record (`Indexes.perm_build`). -/

namespace RecordSearch.Search

/-! ### Paths in order -/

theorem mem_insertPath {path p : String} {paths : List String} :
    p ∈ insertPath path paths ↔ p = path ∨ p ∈ paths := by
  induction paths with
  | nil => simp [insertPath]
  | cons other rest ih =>
    rw [insertPath]
    split
    · exact List.mem_cons
    · split
      · next heq => simp [heq]
      · simp only [List.mem_cons, ih]
        tauto

theorem pairwise_insertPath (path : String) {paths : List String} (h : paths.Pairwise (· < ·)) :
    (insertPath path paths).Pairwise (· < ·) := by
  induction paths with
  | nil => simp [insertPath]
  | cons other rest ih =>
    obtain ⟨hother, hrest⟩ := List.pairwise_cons.mp h
    rw [insertPath]
    split
    · next hlt =>
      refine List.pairwise_cons.mpr ⟨?_, h⟩
      intro p hp
      rcases List.mem_cons.mp hp with rfl | hp
      · exact hlt
      · exact lt_trans hlt (hother p hp)
    · next hlt =>
      split
      · exact h
      · next hne =>
        refine List.pairwise_cons.mpr ⟨?_, ih hrest⟩
        intro p hp
        rcases mem_insertPath.mp hp with rfl | hp
        · exact lt_of_le_of_ne (not_lt.mp hlt) (Ne.symm hne)
        · exact hother p hp

theorem foldl_insertPath (paths : List String) {sorted : List String}
    (h : sorted.Pairwise (· < ·)) :
    (paths.foldl (fun sorted path => insertPath path sorted) sorted).Pairwise (· < ·) ∧
    ∀ p, p ∈ paths.foldl (fun sorted path => insertPath path sorted) sorted ↔
      p ∈ paths ∨ p ∈ sorted := by
  induction paths generalizing sorted with
  | nil => simpa using h
  | cons path paths ih =>
    obtain ⟨hpairwise, hmem⟩ := ih (pairwise_insertPath path h)
    refine ⟨hpairwise, fun p => ?_⟩
    rw [List.foldl_cons, hmem, mem_insertPath, List.mem_cons]
    tauto

/-- The paths to index come once each. -/
theorem nodup_orderPaths (paths : List String) : (orderPaths paths).Nodup :=
  (foldl_insertPath paths List.Pairwise.nil).1.imp ne_of_lt

theorem mem_orderPaths {paths : List String} {p : String} : p ∈ orderPaths paths ↔ p ∈ paths := by
  rw [orderPaths, (foldl_insertPath paths List.Pairwise.nil).2]
  simp

/-! ### What indexes hold -/

/-- A text in the form that an index keeps it in. -/
def indexKey (text : String) : String := String.ofList (Text.lower text.toList)

/-- The records of an entry of an index, each with the text. -/
def expandEntry (entry : String × List Nat) : List (Nat × String) :=
  entry.2.map fun id => (id, entry.1)

/-- The records of an index, each with its text. -/
def Index.pairs (index : Index) : List (Nat × String) := index.entries.flatMap expandEntry

/-- The records that have a text at a path, each with the text. -/
def Indexes.pairsAt (indexes : Indexes) (path : String) : List (Nat × String) :=
  ((indexes.lookup path).map Index.pairs).getD []

/-- The text that a record has at a path. -/
def textAt (record : Record) (path : String) : Option String :=
  (resolve record path).bind atomicText

/-- What a record adds to the index of a path. -/
def pairsOf (path : String) (record : Record) (id : Nat) : List (Nat × String) :=
  (((resolve record path).bind atomicText).map fun text => (id, indexKey text)).toList

theorem Index.perm_insertEntry (key : String) (id : Nat) (entries : List (String × List Nat)) :
    ((insertEntry key id entries).flatMap expandEntry).Perm
      ((id, key) :: entries.flatMap expandEntry) := by
  induction entries with
  | nil => exact .refl _
  | cons entry rest ih =>
    obtain ⟨other, ids⟩ := entry
    rw [insertEntry]
    split
    · exact .refl _
    · split
      · next heq =>
        subst heq
        simp only [List.flatMap_cons, expandEntry, List.map_append, List.map_cons, List.map_nil,
          List.append_assoc, List.singleton_append]
        exact List.perm_middle
      · simp only [List.flatMap_cons]
        exact (ih.append_left _).trans List.perm_middle

theorem Index.perm_insert (index : Index) (text : String) (id : Nat) :
    (index.insert text id).pairs.Perm ((id, indexKey text) :: index.pairs) :=
  perm_insertEntry _ _ _

namespace Indexes

theorem lookup_add_self (path text : String) (id : Nat) (indexes : Indexes) :
    (indexes.add path text id).lookup path =
      some (((indexes.lookup path).getD Index.empty).insert text id) := by
  induction indexes with
  | nil => simp [add]
  | cons entry rest ih =>
    obtain ⟨other, index⟩ := entry
    rw [add]
    split
    · next heq => simp [heq]
    · next hne =>
      have hbeq : (path == other) = false := beq_false_of_ne hne
      rw [List.lookup_cons, List.lookup_cons, hbeq]
      exact ih

theorem lookup_add_of_ne {path p : String} (hne : p ≠ path) (text : String) (id : Nat)
    (indexes : Indexes) : (indexes.add path text id).lookup p = indexes.lookup p := by
  have hbeq : (p == path) = false := beq_false_of_ne hne
  induction indexes with
  | nil => simp [add, List.lookup_cons, hbeq]
  | cons entry rest ih =>
    obtain ⟨other, index⟩ := entry
    rw [add]
    split
    · next heq =>
      subst heq
      simp [List.lookup_cons, hbeq]
    · rw [List.lookup_cons, List.lookup_cons, ih]

theorem addRecord_cons (path : String) (paths : List String) (id : Nat) (record : Record)
    (indexes : Indexes) : indexes.addRecord (path :: paths) id record =
      Indexes.addRecord paths id record (match textAt record path with
        | some text => indexes.add path text id
        | none => indexes) := rfl

/-- A path has an index after a record is added if it had one or gets one for the record. -/
theorem lookup_addRecord_eq_none {paths : List String} {id : Nat} {record : Record} {path : String}
    {indexes : Indexes} : (indexes.addRecord paths id record).lookup path = none ↔
      indexes.lookup path = none ∧ (path ∈ paths → textAt record path = none) := by
  induction paths generalizing indexes with
  | nil => simp [addRecord]
  | cons other paths ih =>
    rw [addRecord_cons, ih]
    by_cases heq : path = other
    · subst heq
      cases textAt record path <;> simp [lookup_add_self]
    · cases textAt record other <;> simp [lookup_add_of_ne heq, heq]

/-- A path that is to be indexed has an index if a record has a text there. -/
theorem lookup_build_eq_none {paths : List String} {path : String} (hpath : path ∈ paths)
    {records : List Record} : (build paths records).lookup path = none ↔
      ∀ record ∈ records, textAt record path = none := by
  induction records using List.reverseRecOn with
  | nil => simp [build]
  | append_singleton records record ih =>
    rw [← addRecord_build, lookup_addRecord_eq_none, ih]
    simp [hpath, or_imp, forall_and]

theorem perm_add_self (path text : String) (id : Nat) (indexes : Indexes) :
    ((indexes.add path text id).pairsAt path).Perm ((id, indexKey text) :: indexes.pairsAt path) := by
  rw [pairsAt, lookup_add_self, pairsAt]
  cases indexes.lookup path with
  | none => exact Index.perm_insert Index.empty text id
  | some index => exact Index.perm_insert index text id

/-- A record adds what it has at a path to the index of that path. -/
theorem perm_addRecord {paths : List String} (hnodup : paths.Nodup) (path : String) (id : Nat)
    (record : Record) (indexes : Indexes) :
    ((indexes.addRecord paths id record).pairsAt path).Perm
      (if path ∈ paths then pairsOf path record id ++ indexes.pairsAt path
        else indexes.pairsAt path) := by
  induction paths generalizing indexes with
  | nil => simp [addRecord]
  | cons other paths ih =>
    obtain ⟨hnew, hnodup⟩ := List.nodup_cons.mp hnodup
    rw [addRecord, List.foldl_cons]
    refine (ih hnodup _).trans ?_
    by_cases heq : path = other
    · subst heq
      rw [if_neg hnew, if_pos List.mem_cons_self, pairsOf]
      cases (resolve record path).bind atomicText with
      | none => exact .refl _
      | some text => exact perm_add_self path text id indexes
    · have hmem : path ∈ other :: paths ↔ path ∈ paths := by simp [heq]
      simp only [hmem]
      cases (resolve record other).bind atomicText with
      | none => exact .refl _
      | some text =>
        rw [pairsAt, lookup_add_of_ne heq]
        exact .refl _

/-- The index of a path holds what the records have there. -/
theorem perm_build {paths : List String} (hnodup : paths.Nodup) {path : String}
    (hpath : path ∈ paths) (records : List Record) :
    ((build paths records).pairsAt path).Perm
      (records.zipIdx.flatMap fun (record, id) => pairsOf path record id) := by
  have hall : ∀ (numbered : List (Record × Nat)) (indexes : Indexes),
      ((numbered.foldl (fun indexes (record, id) => indexes.addRecord paths id record)
        indexes).pairsAt path).Perm
      ((numbered.flatMap fun (record, id) => pairsOf path record id) ++ indexes.pairsAt path) := by
    intro numbered
    induction numbered with
    | nil => intro indexes; exact .refl _
    | cons entry rest ih =>
      intro indexes
      obtain ⟨record, id⟩ := entry
      have hadd := perm_addRecord hnodup path id record indexes
      rw [if_pos hpath] at hadd
      rw [List.foldl_cons, List.flatMap_cons]
      refine (ih _).trans ((hadd.append_left _).trans ?_)
      rw [← List.append_assoc]
      exact List.perm_append_comm.append_right _
  have hbuild := hall records.zipIdx []
  rw [show Indexes.pairsAt [] path = [] from rfl, List.append_nil] at hbuild
  exact hbuild

theorem filter_pairsOf (path : String) (record : Record) (id other : Nat) :
    (pairsOf path record other).filter (·.1 = id) =
      if other = id then pairsOf path record other else [] := by
  rw [pairsOf]
  cases (resolve record path).bind atomicText with
  | none => simp
  | some text => by_cases heq : other = id <;> simp [heq]

theorem filter_flatMap_pairsOf (path : String) {records : List Record} {record : Record} :
    ∀ {first id : Nat}, records[id]? = some record →
      ((records.zipIdx first).flatMap fun (record, id) => pairsOf path record id).filter
        (·.1 = first + id) = pairsOf path record (first + id) := by
  induction records with
  | nil => intro first id hrecord; cases hrecord
  | cons other records ih =>
    intro first id hrecord
    rw [List.zipIdx_cons, List.flatMap_cons, List.filter_append, filter_pairsOf]
    cases id with
    | zero =>
      obtain rfl : other = record := Option.some.inj hrecord
      have hrest : ((records.zipIdx (first + 1)).flatMap fun (record, id) =>
          pairsOf path record id).filter (·.1 = first) = [] := by
        rw [List.filter_flatMap, List.flatMap_eq_nil_iff]
        rintro ⟨later, place⟩ hmem
        have hplace : first + 1 ≤ place := (List.mem_zipIdx hmem).1
        rw [filter_pairsOf, if_neg (by omega)]
      rw [Nat.add_zero, if_pos rfl, hrest, List.append_nil]
    | succ id =>
      have hnext : first + (id + 1) = first + 1 + id := by omega
      rw [if_neg (by omega), List.nil_append, hnext]
      exact ih hrecord

/-- The index of a path holds of each record what that has there. -/
theorem filter_pairsAt_build {paths : List String} (hnodup : paths.Nodup) {path : String}
    (hpath : path ∈ paths) {records : List Record} {id : Nat} {record : Record}
    (hrecord : records[id]? = some record) :
    ((build paths records).pairsAt path).filter (·.1 = id) = pairsOf path record id := by
  have hperm := (perm_build hnodup hpath records).filter fun pair => pair.1 = id
  have hone := @filter_flatMap_pairsOf path records record 0 id hrecord
  rw [Nat.zero_add] at hone
  rw [hone, pairsOf] at hperm
  rw [pairsOf]
  cases htext : (resolve record path).bind atomicText with
  | none =>
    rw [htext] at hperm
    exact hperm.eq_nil
  | some text =>
    rw [htext] at hperm
    exact List.perm_singleton.mp hperm

end Indexes

end RecordSearch.Search
