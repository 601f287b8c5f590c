import TopicBroker.Proofs.Table
import TopicBroker.Queues

/-! # Laws of queues

Queues are looked at one topic at a time: a topic that no queue is kept for has no messages. -/

namespace TopicBroker

/-! ## Taking a message -/

namespace TopicQueue

/-- The expired messages at the front of a queue. -/
def expiredFront (now : Instant) (queue : TopicQueue) : List Message :=
  queue.live.takeWhile (·.isExpiredAt now)

theorem takeFrom_eq (now : Instant) (dead live : List Message) :
    takeFrom now dead live =
      ((live.dropWhile (·.isExpiredAt now)).head?,
        ⟨(live.dropWhile (·.isExpiredAt now)).tail,
          dead ++ live.takeWhile (·.isExpiredAt now)⟩) := by
  induction live generalizing dead with
  | nil => simp [takeFrom]
  | cons message live ih =>
      by_cases h : message.isExpiredAt now
      · simp [takeFrom, h, ih]
      · simp [takeFrom, h]

theorem take_fst (now : Instant) (queue : TopicQueue) :
    (queue.take now).1 = (queue.live.dropWhile (·.isExpiredAt now)).head? := by
  rw [take, takeFrom_eq]

@[simp] theorem take_dead (now : Instant) (queue : TopicQueue) :
    (queue.take now).2.dead = queue.dead ++ queue.expiredFront now := by
  rw [take, takeFrom_eq, expiredFront]

/-- Taking splits the live messages into the expired ones in front, the one that is taken, and
those that stay. -/
theorem live_eq_take (now : Instant) (queue : TopicQueue) :
    queue.live =
      queue.expiredFront now ++ (queue.take now).1.toList ++ (queue.take now).2.live := by
  have hsplit := List.takeWhile_append_dropWhile (p := (·.isExpiredAt now)) (l := queue.live)
  have hrest (rest : List Message) : rest = rest.head?.toList ++ rest.tail := by
    cases rest <;> rfl
  rw [take, takeFrom_eq, expiredFront, List.append_assoc, ← hrest, hsplit]

theorem isExpiredAt_of_mem_expiredFront {now : Instant} {queue : TopicQueue} {message : Message}
    (h : message ∈ queue.expiredFront now) : message.isExpiredAt now = true :=
  List.all_eq_true.mp List.all_takeWhile message h

theorem not_isExpiredAt_of_take {now : Instant} {queue : TopicQueue} {message : Message}
    (h : (queue.take now).1 = some message) : message.isExpiredAt now = false := by
  rw [take_fst] at h
  have hhead := List.head?_dropWhile_not (fun m : Message => m.isExpiredAt now) queue.live
  simpa [h] using hhead

@[simp] theorem take_empty (now : Instant) : empty.take now = (none, empty) := rfl

end TopicQueue

/-! ## The queue of a topic -/

/-- The live messages of a topic in a checkpoint. -/
def Checkpoint.liveOf (checkpoint : Checkpoint) (topicId : String) : List Message :=
  (checkpoint.live.find? topicId).getD []

/-- The dead messages of a topic in a checkpoint. -/
def Checkpoint.deadOf (checkpoint : Checkpoint) (topicId : String) : List Message :=
  (checkpoint.dead.find? topicId).getD []

namespace Queues

/-- The queue of a topic. -/
def topic (queues : Queues) (topicId : String) : TopicQueue :=
  (queues.find? topicId).getD .empty

@[simp] theorem topic_empty (topicId : String) : topic .empty topicId = .empty := rfl

theorem topic_alter (queues : Queues) (topicId other : String) (change : TopicQueue → TopicQueue) :
    topic (queues.alter topicId .empty change) other =
      if other = topicId then change (queues.topic topicId) else queues.topic other := by
  unfold topic
  rw [Table.find?_alter]
  split <;> simp

theorem topic_enqueue (topicId other : String) (message : Message) (queues : Queues) :
    topic (queues.enqueue topicId message) other =
      if other = topicId then
        { queues.topic topicId with live := (queues.topic topicId).live ++ [message] }
      else queues.topic other :=
  topic_alter queues topicId other _

/-- A retrieve on a topic without a queue makes none. -/
theorem find?_retrieve (topicId other : String) (now : Instant) (queues : Queues) :
    Table.find? (queues.retrieve topicId now).2 other =
      if other = topicId then (queues.find? topicId).map fun queue => (queue.take now).2
      else queues.find? other := by
  unfold retrieve
  cases h : queues.find? topicId with
  | none =>
      by_cases hother : other = topicId
      · simp [hother, h]
      · simp [hother]
  | some queue => simp [Table.find?_insert]

theorem retrieve_fst (topicId : String) (now : Instant) (queues : Queues) :
    (queues.retrieve topicId now).1 = ((queues.topic topicId).take now).1 := by
  unfold retrieve topic
  cases queues.find? topicId <;> simp

theorem topic_retrieve (topicId other : String) (now : Instant) (queues : Queues) :
    topic (queues.retrieve topicId now).2 other =
      if other = topicId then ((queues.topic topicId).take now).2 else queues.topic other := by
  cases h : queues.find? topicId with
  | none =>
      have hnone : queues.topic topicId = .empty := by simp [topic, h]
      split
      · next hother => simp [retrieve, h, hother, hnone]
      · simp [retrieve, h]
  | some queue =>
      unfold topic
      simp only [retrieve, h, Table.find?_insert]
      split <;> simp

theorem deadLetters_eq (topicId : String) (queues : Queues) :
    queues.deadLetters topicId = (queues.topic topicId).dead := by
  unfold deadLetters topic
  cases queues.find? topicId <;> rfl

/-! ## Merging a checkpoint -/

/-- Changing the queue of every row's topic once changes each queue by the row of its topic. -/
theorem topic_foldl_alter (change : List Message → TopicQueue → TopicQueue) (topicId : String)
    (rows : List (String × List Message)) (queues : Queues)
    (hrows : rows.Pairwise fun r s => Precedes r.1 s.1) :
    topic (rows.foldl (fun queues (row : String × List Message) =>
        queues.alter row.1 .empty (change row.2)) queues) topicId =
      match rows.lookup topicId with
      | some messages => change messages (queues.topic topicId)
      | none => queues.topic topicId := by
  induction rows generalizing queues with
  | nil => rfl
  | cons row rows ih =>
      obtain ⟨hrow, hrest⟩ := List.pairwise_cons.mp hrows
      rw [List.foldl_cons, ih _ hrest, Table.lookup_row, topic_alter]
      by_cases h : topicId = row.1
      · have hnone : rows.lookup row.1 = none := Table.lookup_eq_none_of_precedes hrow
        simp [h, hnone]
      · simp [h]

@[simp] theorem topic_merge (checkpoint : Checkpoint) (queues : Queues) (topicId : String) :
    topic (queues.merge checkpoint) topicId =
      ⟨checkpoint.liveOf topicId ++ (queues.topic topicId).live,
        checkpoint.deadOf topicId ++ (queues.topic topicId).dead⟩ := by
  unfold merge Checkpoint.liveOf Checkpoint.deadOf Table.find?
  rw [topic_foldl_alter (fun messages queue => { queue with dead := messages ++ queue.dead })
      topicId _ _ checkpoint.dead.sorted,
    topic_foldl_alter (fun messages queue => { queue with live := messages ++ queue.live })
      topicId _ _ checkpoint.live.sorted]
  cases checkpoint.live.rows.lookup topicId <;> cases checkpoint.dead.rows.lookup topicId <;> rfl

/-- Puts messages in front of those that are there, one topic after the other in the given orders. -/
def mergeInOrder (live dead : List (String × List Message)) (queues : Queues) : Queues :=
  let queues := live.foldl (fun queues entry => queues.alter entry.1 .empty fun queue =>
    { queue with live := entry.2 ++ queue.live }) queues
  dead.foldl (fun queues entry => queues.alter entry.1 .empty fun queue =>
    { queue with dead := entry.2 ++ queue.dead }) queues

theorem merge_eq_mergeInOrder (checkpoint : Checkpoint) (queues : Queues) :
    queues.merge checkpoint = queues.mergeInOrder checkpoint.live.rows checkpoint.dead.rows :=
  rfl

/-- The topics of a checkpoint may be merged in any order. -/
theorem mergeInOrder_of_perm {live dead : List (String × List Message)} {checkpoint : Checkpoint}
    (hlive : live.Perm checkpoint.live.rows) (hdead : dead.Perm checkpoint.dead.rows)
    (queues : Queues) : queues.mergeInOrder live dead = queues.merge checkpoint := by
  have hliveKeys : (live.map (·.1)).Nodup :=
    (hlive.map _).nodup_iff.mpr (Table.nodup_keys checkpoint.live)
  have hdeadKeys : (dead.map (·.1)).Nodup :=
    (hdead.map _).nodup_iff.mpr (Table.nodup_keys checkpoint.dead)
  rw [merge_eq_mergeInOrder, mergeInOrder, mergeInOrder]
  rw [Table.foldl_alter_of_perm .empty
      (fun messages (queue : TopicQueue) => { queue with live := messages ++ queue.live })
      hlive hliveKeys,
    Table.foldl_alter_of_perm .empty
      (fun messages (queue : TopicQueue) => { queue with dead := messages ++ queue.dead })
      hdead hdeadKeys]

/-- A merge adds the topics of the checkpoint to those that there are. -/
theorem contains_merge (checkpoint : Checkpoint) (queues : Queues) (topicId : String) :
    Table.contains (queues.merge checkpoint) topicId = true ↔
      queues.contains topicId = true ∨ checkpoint.live.contains topicId = true ∨
        checkpoint.dead.contains topicId = true := by
  rw [merge_eq_mergeInOrder, mergeInOrder,
    Table.contains_foldl_alter .empty
      (fun messages (queue : TopicQueue) => { queue with dead := messages ++ queue.dead }),
    Table.contains_foldl_alter .empty
      (fun messages (queue : TopicQueue) => { queue with live := messages ++ queue.live }), or_assoc]
  exact or_congr_right (or_congr Table.mem_keys_iff Table.mem_keys_iff)

end Queues

end TopicBroker
