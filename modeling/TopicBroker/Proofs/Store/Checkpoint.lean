import TopicBroker.Proofs.Action
import TopicBroker.Proofs.Queues
import TopicBroker.Proofs.Record.Json
import TopicBroker.Proofs.Text.Digits

/-! # Checkpoints are read back

The rows of a checkpoint are written under their numbers, read back in the order of these numbers,
and dealt out to their topics. Nothing is lost or reordered on the way, and the number of messages
is kept. -/

namespace TopicBroker

open Record

namespace Store

theorem QueuedMessage.exact : (Structured.shape QueuedMessage).Exact Kind.Exact := by
  decide

theorem LoggedMessage.exact : (Structured.shape LoggedMessage).Exact Kind.Exact := by
  decide

/-! ## Rows -/

/-- The key of a row: its number in twenty places. -/
def rowKey (i : Nat) : String :=
  String.ofList (Text.padded 20 i)

theorem rows_foldl_insert (rows : List QueuedMessage) (start : Nat) (table : Table String)
    (hbefore : ∀ row ∈ table.rows, ∃ i < start, row.1 = rowKey i)
    (hplaces : start + rows.length ≤ 10 ^ 20) :
    ((rows.zipIdx start).foldl (fun table entry =>
        table.insert (rowKey entry.2) (toLine entry.1)) table).rows =
      table.rows ++ (rows.zipIdx start).map fun entry => (rowKey entry.2, toLine entry.1) := by
  induction rows generalizing start table with
  | nil => simp
  | cons row rows ih =>
      rw [List.length_cons] at hplaces
      have hlast : ∀ other ∈ table.rows, Precedes other.1 (rowKey start) := by
        intro other hother
        obtain ⟨i, hi, hkey⟩ := hbefore other hother
        rw [hkey]
        exact Text.precedes_padded (by decide) hi (by omega)
      have hrows : (table.insert (rowKey start) (toLine row)).rows =
          table.rows ++ [(rowKey start, toLine row)] :=
        Table.insertRow_of_last _ _ _ hlast
      have hnext : ∀ other ∈ (table.insert (rowKey start) (toLine row)).rows,
          ∃ i < start + 1, other.1 = rowKey i := by
        intro other hother
        rw [hrows, List.mem_append, List.mem_singleton] at hother
        rcases hother with hother | rfl
        · obtain ⟨i, hi, hkey⟩ := hbefore other hother
          exact ⟨i, by omega, hkey⟩
        · exact ⟨start, by omega, rfl⟩
      rw [List.zipIdx_cons, List.foldl_cons, ih (start + 1) _ hnext (by omega), hrows]
      simp

/-- The rows are kept in the order of their numbers, as long as these have twenty places. -/
theorem values_numberRows {rows : List QueuedMessage} (h : rows.length ≤ 10 ^ 20) :
    (numberRows rows).values = rows.map toLine := by
  have hrows := rows_foldl_insert rows 0 .empty (by simp [Table.empty]) (by omega)
  have hzip : (rows.zipIdx.map fun entry => toLine entry.1) = rows.map toLine := by
    rw [← List.zipIdx_map_fst 0 rows, List.map_map, List.zipIdx_map_fst]
    rfl
  rw [Table.values]
  refine (congrArg (List.map Prod.snd) hrows).trans ?_
  simpa [Table.empty, List.map_map, Function.comp_def] using hzip

theorem mapM_ofLine (rows : List QueuedMessage) : (rows.map toLine).mapM ofLine = .ok rows := by
  induction rows with
  | nil => rfl
  | cons row rows ih =>
      rw [List.map_cons, List.mapM_cons, ofLine_toLine QueuedMessage.exact, ih]
      rfl

theorem readRows_numberRows {rows : List QueuedMessage} (h : rows.length ≤ 10 ^ 20) :
    readRows (numberRows rows) = .ok rows := by
  rw [readRows, values_numberRows h, mapM_ofLine]

/-! ## Messages by topic -/

/-- The messages of a topic among rows, in their order. -/
def messagesOf (topicId : String) (rows : List QueuedMessage) : List Message :=
  (rows.filter (·.topicId == topicId)).map (·.message)

theorem messagesOf_cons (topicId : String) (row : QueuedMessage) (rows : List QueuedMessage) :
    messagesOf topicId (row :: rows) =
      if row.topicId = topicId then row.message :: messagesOf topicId rows
      else messagesOf topicId rows := by
  by_cases h : row.topicId = topicId <;> simp [messagesOf, h]

theorem messagesOf_eq_nil {topicId : String} {rows : List QueuedMessage}
    (h : topicId ∉ rows.map (·.topicId)) : messagesOf topicId rows = [] := by
  simpa [messagesOf, List.filter_eq_nil_iff] using h

/-- Rows are dealt out behind the messages that their topics have already. -/
theorem find?_foldl_alter (topicId : String) (rows : List QueuedMessage)
    (table : Table (List Message)) :
    (rows.foldl (fun table row => table.alter row.topicId [] (· ++ [row.message]))
        table).find? topicId =
      if topicId ∈ rows.map (·.topicId) then
        some ((table.find? topicId).getD [] ++ messagesOf topicId rows)
      else table.find? topicId := by
  induction rows generalizing table with
  | nil => simp
  | cons row rows ih =>
      rw [List.foldl_cons, ih, Table.find?_alter, messagesOf_cons, List.map_cons]
      by_cases h : row.topicId = topicId
      · by_cases hrows : topicId ∈ rows.map (·.topicId)
        · simp [h, hrows]
        · simp [h, hrows, messagesOf_eq_nil hrows]
      · have hne : ¬ topicId = row.topicId := fun e => h e.symm
        simp [h, hne]

/-- The topics of the rows, each with the messages of its rows, and no other topic. -/
theorem find?_groupByTopic (topicId : String) (rows : List QueuedMessage) :
    (groupByTopic rows).find? topicId =
      if topicId ∈ rows.map (·.topicId) then some (messagesOf topicId rows) else none :=
  find?_foldl_alter topicId rows .empty

theorem getD_groupByTopic (topicId : String) (rows : List QueuedMessage) :
    ((groupByTopic rows).find? topicId).getD [] = messagesOf topicId rows := by
  rw [find?_groupByTopic]
  by_cases h : topicId ∈ rows.map (·.topicId)
  · rw [if_pos h, Option.getD_some]
  · rw [if_neg h, messagesOf_eq_nil h, Option.getD_none]

/-- Changing the value under a key changes a sum over all values by what that value changes. -/
theorem length_flatten_insertRow (key : String) (value : List Message)
    {rows : List (String × List Message)} (hrows : rows.Pairwise fun r s => Precedes r.1 s.1) :
    ((Table.insertRow key value rows).map (·.2)).flatten.length +
        ((rows.lookup key).getD []).length =
      (rows.map (·.2)).flatten.length + value.length := by
  induction rows with
  | nil => simp [Table.insertRow]
  | cons row rows ih =>
      obtain ⟨hrow, hrest⟩ := List.pairwise_cons.mp hrows
      have ih := ih hrest
      unfold Table.insertRow
      rw [Table.lookup_row]
      split
      · simp [*]
        omega
      · split
        · next hkey hbefore =>
            have hnone : rows.lookup key = none :=
              Table.lookup_eq_none_of_precedes fun other hother =>
                hbefore.trans (hrow other hother)
            simp [hnone]
            omega
        · simp at ih ⊢
          omega

theorem length_foldl_alter (rows : List QueuedMessage) (table : Table (List Message)) :
    (rows.foldl (fun table row => table.alter row.topicId [] (· ++ [row.message]))
        table).values.flatten.length =
      table.values.flatten.length + rows.length := by
  induction rows generalizing table with
  | nil => simp
  | cons row rows ih =>
      have hstep := length_flatten_insertRow row.topicId
        ((table.find? row.topicId).getD [] ++ [row.message]) table.sorted
      have hvalues : (table.alter row.topicId [] (· ++ [row.message])).values.flatten.length =
          table.values.flatten.length + 1 := by
        simp only [Table.alter, Table.insert, Table.values, Table.find?, List.length_append,
          List.length_singleton] at hstep ⊢
        omega
      rw [List.foldl_cons, ih, hvalues, List.length_cons]
      omega

theorem length_groupByTopic (rows : List QueuedMessage) :
    (groupByTopic rows).values.flatten.length = rows.length := by
  exact (length_foldl_alter rows .empty).trans (Nat.zero_add _)

/-! ## Checkpoints -/

/-- What a saved checkpoint holds. -/
structure Saved (liveRows deadRows : List QueuedMessage) (checkpoint : Checkpoint) : Prop where
  live : ∀ topicId, checkpoint.liveOf topicId = messagesOf topicId liveRows
  dead : ∀ topicId, checkpoint.deadOf topicId = messagesOf topicId deadRows
  count : checkpoint.live.values.flatten.length = liveRows.length

/-- A checkpoint is fetched if all its rows can be read, and groups them by topic. -/
theorem checkpoint_eq_ok_iff {store : Store} {checkpoint : Checkpoint} :
    store.checkpoint = .ok checkpoint ↔ ∃ live dead, readRows store.live = .ok live ∧
      readRows store.dead = .ok dead ∧ checkpoint = ⟨groupByTopic live, groupByTopic dead⟩ := by
  unfold Store.checkpoint
  cases readRows store.live <;> cases readRows store.dead <;> simp [eq_comm]

/-- A checkpoint that was saved is fetched as it was. -/
theorem checkpoint_saveCheckpoint {live dead : List QueuedMessage} (hlive : live.length ≤ 10 ^ 20)
    (hdead : dead.length ≤ 10 ^ 20) (store : Store) :
    ∃ checkpoint, (store.saveCheckpoint live dead).checkpoint = .ok checkpoint ∧
      Saved live dead checkpoint := by
  refine ⟨⟨groupByTopic live, groupByTopic dead⟩, ?_, ?_⟩
  · rw [checkpoint_eq_ok_iff]
    exact ⟨live, dead, readRows_numberRows hlive, readRows_numberRows hdead, rfl⟩
  · exact ⟨fun topicId => getD_groupByTopic topicId live,
      fun topicId => getD_groupByTopic topicId dead, length_groupByTopic live⟩

/-- No checkpoint is left once it has been dropped. -/
theorem checkpoint_dropCheckpoint (store : Store) :
    store.dropCheckpoint.checkpoint = .ok ⟨.empty, .empty⟩ :=
  rfl

/-! ## Saving and fetching -/

/-- The table has the topics of the rows and no others, each with the messages of its rows in their
order. -/
def Groups (rows : List QueuedMessage) (table : Table (List Message)) : Prop :=
  ∀ topicId, table.find? topicId =
    if topicId ∈ rows.map (·.topicId) then some (messagesOf topicId rows) else none

/-- The stores differ in the rows of the checkpoint at most. -/
def SameRecords (store other : Store) : Prop :=
  other = { store with live := other.live, dead := other.dead }

/-- A save of the rows replaces the checkpoint of the store by the given one and touches nothing else,
and neither does dropping it again. -/
structure Replaces (live dead : List QueuedMessage) (checkpoint : Checkpoint) (store : Store) :
    Prop where
  fetched : (store.saveCheckpoint live dead).checkpoint = .ok checkpoint
  records : SameRecords store (store.saveCheckpoint live dead)
  dropped : (store.saveCheckpoint live dead).dropCheckpoint.checkpoint = .ok ⟨.empty, .empty⟩
  recordsBehindDrop : SameRecords store (store.saveCheckpoint live dead).dropCheckpoint

/-- Rows that are saved are fetched grouped by topic, live and dead ones apart, and what is fetched
does not depend on what was stored before. The rows need numbers of twenty places, which is more
than a machine word counts. -/
theorem fetched_grouped {live dead : List QueuedMessage} (hlive : live.length ≤ 10 ^ 20)
    (hdead : dead.length ≤ 10 ^ 20) :
    ∃ checkpoint : Checkpoint, Groups live checkpoint.live ∧ Groups dead checkpoint.dead ∧
      ∀ store, Replaces live dead checkpoint store := by
  refine ⟨⟨groupByTopic live, groupByTopic dead⟩, ?_, ?_, ?_⟩
  · exact fun topicId => find?_groupByTopic topicId live
  · exact fun topicId => find?_groupByTopic topicId dead
  · intro store
    refine ⟨?_, rfl, checkpoint_dropCheckpoint _, rfl⟩
    rw [checkpoint_eq_ok_iff]
    exact ⟨live, dead, readRows_numberRows hlive, readRows_numberRows hdead, rfl⟩

/-- A row of a topic. -/
def rowOf (topicId payload : String) : QueuedMessage :=
  ⟨"q", topicId, ⟨"m", payload, "1970-01-01 00:00:00", "2999-01-01 00:00:00"⟩⟩

theorem fetched_grouped_twoTopics :
    ∃ checkpoint : Checkpoint,
      checkpoint.live.find? "t" = some [(rowOf "t" "a\n\"b\"").message, (rowOf "t" "").message] ∧
      checkpoint.live.find? "é" = some [(rowOf "é" "c").message] ∧
      checkpoint.live.find? "u" = none ∧ checkpoint.dead.find? "t" = none ∧
      ∀ store : Store, (store.saveCheckpoint
        [rowOf "t" "a\n\"b\"", rowOf "é" "c", rowOf "t" ""] []).checkpoint = .ok checkpoint := by
  have hlive : [rowOf "t" "a\n\"b\"", rowOf "é" "c", rowOf "t" ""].length ≤ 10 ^ 20 := by decide
  have hdead : ([] : List QueuedMessage).length ≤ 10 ^ 20 := by decide
  obtain ⟨checkpoint, hgroups, hnone, hreplaces⟩ := fetched_grouped hlive hdead
  exact ⟨checkpoint, hgroups "t", hgroups "é", hgroups "u", hnone "t",
    fun store => (hreplaces store).fetched⟩

end Store

namespace Queues

/-! ## The rows of queues -/

theorem messagesOf_eq (topicId : String) (rows : List Store.QueuedMessage) :
    Store.messagesOf topicId rows =
      ((rows.map fun row => (row.topicId, row.message)).filter (·.1 == topicId)).map (·.2) := by
  rw [List.filter_map, List.map_map]
  rfl

theorem map_rowsFrom (fresh : Nat → String) (list : TopicQueue → List Message) (start : Nat)
    (queues : Queues) :
    ((queues.rowsFrom fresh list start).map fun row => (row.topicId, row.message)) =
      queues.rows.flatMap fun row => (list row.2).map fun message => (row.1, message) := by
  simp only [rowsFrom, List.map_map, Function.comp_def]
  exact List.zipIdx_map_fst _ _

/-- The rows of a topic are the messages of its queue, in order. -/
theorem messagesOf_rowsFrom (fresh : Nat → String) (list : TopicQueue → List Message)
    (hempty : list .empty = []) (start : Nat) (queues : Queues) (topicId : String) :
    Store.messagesOf topicId (queues.rowsFrom fresh list start) = list (queues.topic topicId) := by
  rw [messagesOf_eq, map_rowsFrom]
  obtain ⟨rows, hsorted⟩ := queues
  change _ = list ((rows.lookup topicId).getD .empty)
  induction rows with
  | nil => simp [hempty]
  | cons row rows ih =>
      obtain ⟨hrow, hrest⟩ := List.pairwise_cons.mp hsorted
      have ih := ih hrest
      rw [Table.lookup_row, List.flatMap_cons, List.filter_append, List.map_append, ih]
      by_cases h : topicId = row.1
      · have hnone : rows.lookup row.1 = none := Table.lookup_eq_none_of_precedes hrow
        simp [h, hnone, hempty, List.filter_map, Function.comp_def]
      · have hne : ¬ row.1 = topicId := fun e => h e.symm
        simp [h, hne, List.filter_map, Function.comp_def]

/-- The number of live messages. -/
def liveCount (queues : Queues) : Nat :=
  (queues.stats.map (·.2.live)).sum

/-- The number of dead messages. -/
def deadCount (queues : Queues) : Nat :=
  (queues.stats.map (·.2.dead)).sum

theorem length_rowsFrom (fresh : Nat → String) (list : TopicQueue → List Message) (start : Nat)
    (queues : Queues) :
    (queues.rowsFrom fresh list start).length =
      (queues.rows.map fun row => (list row.2).length).sum := by
  simp [rowsFrom, List.length_flatMap]

theorem length_liveRows (fresh : Nat → String) (queues : Queues) :
    (queues.liveRows fresh).length = queues.liveCount := by
  rw [liveRows, length_rowsFrom, liveCount, stats, List.map_map]
  rfl

theorem length_deadRows (fresh : Nat → String) (queues : Queues) :
    (queues.deadRows fresh).length = queues.deadCount := by
  rw [deadRows, length_rowsFrom, deadCount, stats, List.map_map]
  rfl

end Queues

end TopicBroker
