import Mathlib.Data.List.Flatten
import TopicBroker.Proofs.Traffic.Course

/-! # Messages are neither lost nor doubled

However the steps of calls that are in flight at the same time are mixed, a message that a publisher
was told the id of was put in line once and on one topic, no message is handed to two readers, and
the messages of a topic are handed out in the order in which the engine took them in. -/

namespace TopicBroker.Traffic

variable {world : World}

/-! ## Messages of calls -/

/-- The message that a publishing call has made, with the topic that it goes to. -/
def Entry.publication? : Entry → Option (String × Message)
  | ⟨.publish .., stage⟩ => stage.target?
  | ⟨.readMessage .., _⟩ => none

/-- Different calls have made messages with different ids. -/
def FreshIds (world : World) : Prop :=
  world.calls.Pairwise fun one other =>
    ∀ publication ∈ one.publication?, ∀ later ∈ other.publication?, publication.2.id ≠ later.2.id

/-- The messages that the engine took in from a call for a topic. -/
def Entry.accepted (topicId : String) (entry : Entry) : List Message :=
  entry.outcome?.toList.flatMap (acceptedBy topicId)

/-- The messages of a topic that the engine handed out to a call. -/
def Entry.handedOut (topicId : String) (entry : Entry) : List Message :=
  entry.outcome?.toList.flatMap (handedOutBy topicId)

/-- The message that a reading call has returned. -/
def Entry.returned? : Entry → Option Message
  | ⟨.readMessage .., .returned _ _ (.ok message)⟩ => message
  | _ => none

theorem Course.perm_flatMap (h : Course world)
    (f : (command : Command) × Except BrokerError command.Reply → List Message) :
    (world.calls.flatMap fun entry => entry.outcome?.toList.flatMap f).Perm
      (world.history.flatMap fun step => f (step.reply Engine.handle)) := by
  have hperm := h.outcomes.flatMap_right f
  rwa [List.filterMap_eq_flatMap_toList, List.flatMap_assoc, List.flatMap_map] at hperm

theorem Course.perm_accepted (h : Course world) (topicId : String) :
    (world.calls.flatMap (Entry.accepted topicId)).Perm
      (world.history.flatMap (Engine.accepted topicId)) :=
  h.perm_flatMap (acceptedBy topicId)

theorem Course.perm_handedOut (h : Course world) (topicId : String) :
    (world.calls.flatMap (Entry.handedOut topicId)).Perm
      (world.history.flatMap (Engine.handedOut topicId)) :=
  h.perm_flatMap (handedOutBy topicId)

/-- The messages of a topic are handed out in the order in which they are accepted. -/
theorem Course.inOrder (h : Course world) (topicId : String) :
    (world.history.flatMap (Engine.handedOut topicId)).Sublist
      (world.history.flatMap (Engine.accepted topicId)) := by
  have hmerges : Engine.MergesFirst topicId world.history := by
    refine List.pairwise_iff_forall_sublist.mpr ?_
    intro earlier later hsublist hmerging
    rw [h.merging? (hsublist.subset (by simp))] at hmerging
    cases hmerging
  have hall := (h.fates topicId).inOrder hmerges
  rw [(h.unmerged topicId).1, List.nil_append] at hall
  rw [hall]
  have htaken : (world.history.flatMap (Engine.handedOut topicId)).Sublist
      (world.history.flatMap fun step =>
        Engine.moved topicId step ++ Engine.handedOut topicId step) :=
    List.Sublist.flatMap_right _ fun step _ => List.sublist_append_right _ _
  exact htaken.trans (List.sublist_append_left _ _)

/-- What was accepted from a call is the message that it has made. -/
theorem publication?_of_mem_accepted {entry : Entry} {topicId : String} {message : Message}
    (h : message ∈ entry.accepted topicId) : entry.publication? = some (topicId, message) := by
  obtain ⟨outcome, houtcome, hmessage⟩ := List.mem_flatMap.mp h
  have hcommand := fst_of_mem_acceptedBy hmessage
  obtain ⟨call, stage⟩ := entry
  have htarget : ∃ target, stage.target? = some target ∧ outcome.1 = call.command target := by
    cases stage with
    | answered target | returned target =>
        obtain rfl := Option.some.inj (Option.mem_toList.mp houtcome)
        exact ⟨target, rfl, rfl⟩
    | called | addressed | waiting | refused => cases Option.mem_toList.mp houtcome
  obtain ⟨target, htarget, houtcome⟩ := htarget
  rw [hcommand] at houtcome
  cases call with
  | readMessage subscriber topicName => cases houtcome
  | publish publisher draft =>
      obtain ⟨other, last⟩ := target
      obtain ⟨rfl, rfl⟩ := Command.enqueue.inj houtcome
      exact htarget

theorem FreshIds.eq_of_id_eq (h : FreshIds world) {one other : Entry} (hone : one ∈ world.calls)
    (hother : other ∈ world.calls) {publication later : String × Message}
    (hpublication : one.publication? = some publication) (hlater : other.publication? = some later)
    (hid : publication.2.id = later.2.id) : publication = later := by
  have hnodup : ((world.calls.filterMap Entry.publication?).map fun p => p.2.id).Nodup :=
    List.pairwise_map.mpr (List.pairwise_filterMap.mpr h)
  exact List.inj_on_of_nodup_map hnodup (List.mem_filterMap.mpr ⟨one, hone, hpublication⟩)
    (List.mem_filterMap.mpr ⟨other, hother, hlater⟩) hid

/-- At most one message is accepted from a call. -/
theorem pairwise_accepted (entry : Entry) (topicId : String) :
    (entry.accepted topicId).Pairwise fun message later => message.id ≠ later.id := by
  rw [Entry.accepted]
  cases entry.outcome? with
  | none => exact .nil
  | some outcome =>
      rw [Option.toList_some, List.flatMap_singleton]
      unfold acceptedBy
      split
      · split
        · exact List.pairwise_singleton _ _
        · exact .nil
      · exact .nil

/-- The messages that a topic has accepted have ids of their own. -/
theorem Course.pairwise_accepted (h : Course world) (hfresh : FreshIds world) (topicId : String) :
    (world.history.flatMap (Engine.accepted topicId)).Pairwise fun message later =>
      message.id ≠ later.id := by
  refine (h.perm_accepted topicId).pairwise ?_ fun hne => hne.symm
  refine List.pairwise_flatMap.mpr ⟨fun entry _ => Traffic.pairwise_accepted entry topicId, ?_⟩
  refine hfresh.imp ?_
  intro one other hne message hmessage later hlater
  exact hne _ (publication?_of_mem_accepted hmessage) _ (publication?_of_mem_accepted hlater)

/-! ## Delivery -/

/-- Every call has returned. -/
def Quiet (world : World) : Prop :=
  ∀ entry ∈ world.calls, (entry.2.answer?).isSome

/-- The messages that reading calls have returned from a topic. -/
def Entry.delivered (topicId : String) : Entry → List Message
  | ⟨.readMessage .., .returned target _ (.ok (some message))⟩ =>
    if target = topicId then [message] else []
  | _ => []

/-- No message is lost, and none is there twice. -/
structure Delivered (start : World) (schedule : Schedule Move) (world : World) : Prop where
  /-- The message of a call that has published it was accepted once, on the topic that the call
  looked up, and on no other. -/
  published : ∀ caller publisher draft topicId message reply id,
    world.calls[caller]? =
        some ⟨.publish publisher draft, .returned (topicId, message) reply (.ok id)⟩ →
      LookedUp start schedule caller (.publish publisher draft) (topicId, message) ∧
      message.id = id ∧
      ∀ other, (world.history.flatMap (Engine.accepted other)).filter (·.id = id) =
        if other = topicId then [message] else []
  /-- No two reading calls return the same message. -/
  once : world.calls.Pairwise fun one other =>
    ∀ message ∈ one.returned?, ∀ later ∈ other.returned?, message.id ≠ later.id
  /-- Messages are handed out in the order in which they are accepted. -/
  inOrder : ∀ topicId, (world.history.flatMap (Engine.handedOut topicId)).Sublist
    (world.history.flatMap (Engine.accepted topicId))
  /-- When nothing is in flight, what was accepted was returned, is dead or is live. -/
  conserved : Quiet world → ∀ topicId,
    (world.calls.flatMap (Entry.delivered topicId) ++ (world.broker.queue topicId).dead ++
      (world.broker.queue topicId).live).Perm (world.history.flatMap (Engine.accepted topicId))

/-- What other calls have accepted has other ids. -/
theorem filter_accepted_eq_nil {entries : List Entry} {publication : String × Message}
    (h : ∀ entry ∈ entries, ∀ other ∈ entry.publication?, other.2.id ≠ publication.2.id)
    (topicId : String) :
    (entries.flatMap (Entry.accepted topicId)).filter (·.id = publication.2.id) = [] := by
  refine List.filter_eq_nil_iff.mpr ?_
  intro message hmessage
  obtain ⟨entry, hentry, hmessage⟩ := List.mem_flatMap.mp hmessage
  simpa using h entry hentry _ (publication?_of_mem_accepted hmessage)

theorem Course.filter_accepted (h : Course world) (hfresh : FreshIds world) {entry : Entry}
    (hentry : entry ∈ world.calls) (publication : String × Message)
    (hpublication : entry.publication? = some publication) (topicId : String) :
    ((world.history.flatMap (Engine.accepted topicId)).filter (·.id = publication.2.id)).Perm
      ((entry.accepted topicId).filter (·.id = publication.2.id)) := by
  have hperm := ((h.perm_accepted topicId).filter (·.id = publication.2.id)).symm
  obtain ⟨front, back, hcalls⟩ := List.append_of_mem hentry
  rw [FreshIds, hcalls] at hfresh
  obtain ⟨-, hback, hfront⟩ := List.pairwise_append.mp hfresh
  have hfrontNil : (front.flatMap (Entry.accepted topicId)).filter (·.id = publication.2.id) = [] :=
    filter_accepted_eq_nil (fun other hother p hp =>
      hfront other hother entry List.mem_cons_self p hp publication hpublication) topicId
  have hbackNil : (back.flatMap (Entry.accepted topicId)).filter (·.id = publication.2.id) = [] :=
    filter_accepted_eq_nil (fun other hother p hp =>
      ((List.pairwise_cons.mp hback).1 other hother publication hpublication p hp).symm) topicId
  rw [hcalls, List.flatMap_append, List.flatMap_cons, List.filter_append, List.filter_append,
    hfrontNil, hbackNil, List.nil_append, List.append_nil] at hperm
  exact hperm

theorem Reached.published {start : World} {schedule : Schedule Move}
    (h : Reached start schedule world) (hfresh : FreshIds world) {caller : Nat}
    {publisher : ClientId} {draft : Draft} {topicId id : String} {message : Message}
    {reply : (Call.publish publisher draft).Reply (topicId, message)}
    (hentry : world.calls[caller]? =
      some ⟨.publish publisher draft, .returned (topicId, message) reply (.ok id)⟩)
    (other : String) :
    (world.history.flatMap (Engine.accepted other)).filter (·.id = id) =
      if other = topicId then [message] else [] := by
  have hmem := List.mem_of_getElem? hentry
  obtain ⟨rfl, rfl⟩ := of_concluded_publish (h.concluded _ hmem)
  have hperm := h.course.filter_accepted hfresh hmem (topicId, message) rfl other
  by_cases htopic : topicId = other
  · simpa [Entry.accepted, Entry.outcome?, acceptedBy, htopic] using hperm
  · have hne : other ≠ topicId := fun heq => htopic heq.symm
    simpa [Entry.accepted, Entry.outcome?, acceptedBy, htopic, hne] using hperm

/-- What a reading call has returned was handed out to it. -/
theorem exists_mem_handedOut {entry : Entry} (hconcluded : entry.Concluded) {message : Message}
    (h : entry.returned? = some message) : ∃ topicId, message ∈ entry.handedOut topicId := by
  unfold Entry.returned? at h
  split at h
  · next subscriber topicName topicId reply returned =>
      obtain rfl := of_concluded_read hconcluded
      obtain rfl := h
      exact ⟨topicId, by simp [Entry.handedOut, Entry.outcome?, handedOutBy]⟩
  · cases h

/-- What was handed out is the message of a call. -/
theorem Course.exists_publication (h : Course world) {entry : Entry} (hentry : entry ∈ world.calls)
    {topicId : String} {message : Message} (hmessage : message ∈ entry.handedOut topicId) :
    ∃ other ∈ world.calls, other.publication? = some (topicId, message) := by
  have hhanded : message ∈ world.history.flatMap (Engine.handedOut topicId) :=
    (h.perm_handedOut topicId).subset (List.mem_flatMap.mpr ⟨entry, hentry, hmessage⟩)
  have haccepted := (h.perm_accepted topicId).symm.subset ((h.inOrder topicId).subset hhanded)
  obtain ⟨other, hother, hmessage⟩ := List.mem_flatMap.mp haccepted
  exact ⟨other, hother, publication?_of_mem_accepted hmessage⟩

theorem Reached.once {start : World} {schedule : Schedule Move} (h : Reached start schedule world)
    (hfresh : FreshIds world) : world.calls.Pairwise fun one other =>
      ∀ message ∈ one.returned?, ∀ later ∈ other.returned?, message.id ≠ later.id := by
  refine List.pairwise_iff_forall_sublist.mpr ?_
  intro one other hsublist message hmessage later hlater hid
  have hone : one ∈ world.calls := hsublist.subset (by simp)
  have hother : other ∈ world.calls := hsublist.subset (by simp)
  obtain ⟨topicId, hmessage⟩ := exists_mem_handedOut (h.concluded one hone) hmessage
  obtain ⟨topicId', hlater⟩ := exists_mem_handedOut (h.concluded other hother) hlater
  obtain ⟨publish, hpublish, hpublication⟩ := h.course.exists_publication hone hmessage
  obtain ⟨publish', hpublish', hpublication'⟩ := h.course.exists_publication hother hlater
  -- both messages are the one message of one call, so they were handed out from one topic
  cases hfresh.eq_of_id_eq hpublish hpublish' hpublication hpublication' hid
  have hpairwise := (h.course.pairwise_accepted hfresh topicId).sublist (h.course.inOrder topicId)
  have hheld := (h.course.perm_handedOut topicId).symm.pairwise hpairwise fun hne => hne.symm
  have hpair := List.pairwise_iff_forall_sublist.mp (List.pairwise_flatMap.mp hheld).2 hsublist
  exact hpair _ hmessage _ hlater rfl

/-- A reading call that has returned has returned what was handed out to it. -/
theorem handedOut_of_answered {entry : Entry} (hconcluded : entry.Concluded)
    (hanswered : entry.2.answer?.isSome) (topicId : String) :
    entry.handedOut topicId = entry.delivered topicId := by
  obtain ⟨call, stage⟩ := entry
  cases stage with
  | called | addressed | waiting | answered => cases hanswered
  | refused error => cases call <;> rfl
  | returned target reply answer =>
      cases call with
      | publish publisher draft => rfl
      | readMessage subscriber topicName =>
          obtain rfl := of_concluded_read hconcluded
          rw [Entry.handedOut, Entry.outcome?, Option.toList_some, List.flatMap_singleton]
          rcases reply with error | _ | message <;> rfl

theorem Reached.conserved {start : World} {schedule : Schedule Move}
    (h : Reached start schedule world) (hquiet : Quiet world) (topicId : String) :
    (world.calls.flatMap (Entry.delivered topicId) ++ (world.broker.queue topicId).dead ++
      (world.broker.queue topicId).live).Perm
      (world.history.flatMap (Engine.accepted topicId)) := by
  have hdelivered : world.calls.flatMap (Entry.delivered topicId) =
      world.calls.flatMap (Entry.handedOut topicId) :=
    List.flatMap_congr fun entry hentry =>
      (handedOut_of_answered (h.concluded entry hentry) (hquiet entry hentry) topicId).symm
  have hconserved := (h.course.fates topicId).conserved
  rw [(h.course.unmerged topicId).1, (h.course.unmerged topicId).2, List.append_nil,
    List.append_nil] at hconserved
  rw [hdelivered]
  exact (((h.course.perm_handedOut topicId).append_right _).append_right _).trans hconserved

/-! ### Ids that are offered -/

/-- The id of a message was offered to its call when it looked up. -/
theorem exists_offer {start : World} {schedule : Schedule Move}
    (h : AllLookedUp start schedule world) {caller : Nat} {entry : Entry}
    (hentry : world.calls[caller]? = some entry) {publication : String × Message}
    (hpublication : entry.publication? = some publication) :
    ∃ conditions, (conditions, .advance caller) ∈ schedule ∧
      publication.2.id = conditions.fresh 0 := by
  obtain ⟨_ | _, stage⟩ := entry
  · obtain ⟨front, conditions, back, rfl, -, hfound⟩ := h _ _ _ _ hentry hpublication
    exact ⟨conditions, by simp, (finds_of_lookUp hfound).2.id⟩
  · cases hpublication

/-- Ids that are offered only once are fresh. -/
theorem freshIds_run (store : Store) (defaultTtl : Nat) {schedule : Schedule Move}
    (hfresh : schedule.Pairwise fun entry later => entry.1.fresh 0 ≠ later.1.fresh 0) :
    FreshIds ((World.started store defaultTtl).run schedule) := by
  have hlookedUp := (reached_run store defaultTtl schedule).lookedUp
  refine List.pairwise_iff_getElem.mpr ?_
  intro i j hi hj hij publication hpublication later hlater hid
  obtain ⟨conditions, hmem, hoffer⟩ :=
    exists_offer hlookedUp (List.getElem?_eq_getElem hi) hpublication
  obtain ⟨conditions', hmem', hoffer'⟩ :=
    exists_offer hlookedUp (List.getElem?_eq_getElem hj) hlater
  have hsame : (conditions, Move.advance i) = (conditions', Move.advance j) :=
    List.inj_on_of_nodup_map (List.pairwise_map.mpr hfresh) hmem hmem'
      (hoffer.symm.trans (hid.trans hoffer'))
  obtain rfl := Move.advance.inj (congrArg Prod.snd hsame)
  exact absurd hij (Nat.lt_irrefl _)

/-! ### All runs -/

/-- Publishing and reading calls may take their steps in any order, and the engine and the clock may
go on as they like: every message that was published is accepted once, on the topic that its call
looked up, no message is returned twice, the messages of a topic are handed out in their order, and
none gets lost. -/
theorem delivered_run (store : Store) (defaultTtl : Nat) (schedule : Schedule Move)
    (hfresh : FreshIds ((World.started store defaultTtl).run schedule)) :
    Delivered (.started store defaultTtl) schedule
      ((World.started store defaultTtl).run schedule) := by
  have h := reached_run store defaultTtl schedule
  refine ⟨?_, h.once hfresh, h.course.inOrder, h.conserved⟩
  intro caller publisher draft topicId message reply id hentry
  have hconcluded := of_concluded_publish (h.concluded _ (List.mem_of_getElem? hentry))
  exact ⟨h.lookedUp caller _ _ _ hentry rfl, hconcluded.2, h.published hfresh hentry⟩

/-- A store with one topic, which two publishers are bound to. -/
def newsroom : Store :=
  ((Store.empty.insertTopic "news" "t").2.bind ⟨11, by decide⟩ "t").bind ⟨12, by decide⟩ "t"

/-- Two publishers and two readers are in flight at once. The second of each comes first. -/
def rushHour : Schedule Move :=
  [.call (.publish ⟨11, by decide⟩ ⟨"rain", none, none⟩),
    .call (.publish ⟨12, by decide⟩ ⟨"snow", none, none⟩),
    .call (.readMessage ⟨21, by decide⟩ "news"), .call (.readMessage ⟨22, by decide⟩ "news"),
    .advance 0, .advance 1, .advance 2, .advance 3, .advance 1, .advance 3, .advance 0, .advance 2,
    .work, .work, .advance 3, .work, .work, .advance 2, .advance 1, .advance 0].zipIdx.map
    fun (move, i) => (.calm (String.ofList (Text.digits i)), move)

theorem delivered_run_rushHour :
    let world := (World.started newsroom 60).run rushHour
    FreshIds world ∧ Delivered (.started newsroom 60) rushHour world ∧
    (world.calls.map fun entry => (entry.returned?.map (·.payload), entry.2.answer?.isSome)) =
      [(none, true), (none, true), (some "rain", true), (some "snow", true)] := by
  have hoffers : rushHour.Pairwise fun entry later => entry.1.fresh 0 ≠ later.1.fresh 0 := by
    decide +kernel
  have hfresh := freshIds_run newsroom 60 hoffers
  exact ⟨hfresh, delivered_run newsroom 60 rushHour hfresh, by decide +kernel⟩

end TopicBroker.Traffic
