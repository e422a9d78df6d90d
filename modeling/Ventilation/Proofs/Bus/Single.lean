import Ventilation.Proofs.Bus.Coming

namespace Ventilation
namespace Bus
namespace Topic

/-!
# What others do, and topics with one sender

Whoever goes on at a topic and in whatever order, nothing is added to what is
still to come to a listener but what is published.  What others do as listeners
does not concern a listener at all.

Where all publishings are those of one sender, and the sender waits for each of
them, there is at most one, and nobody can be overtaken.
-/

variable {α : Type} {topic next : Topic α}

/-! ## In any order -/

namespace Listed

/-- A publishing that goes on adds nothing to what is still to come. -/
theorem coming_proceed_subperm (listed : topic.Listed) {publishing : Publishing α}
    (member : publishing ∈ topic.publishings) (id : Nat) :
    ((topic.proceed publishing).2.coming id).Subperm (topic.coming id) := by
  rcases List.append_of_mem member with ⟨earlier, later, split⟩
  have progressed := listed.proceed_publishings split
  have narrower := progress_rest_subset topic publishing
  unfold coming
  rw [listed.boxOf_proceed member, progressed, split]
  simp only [owing_append, owing_cons, owing_left]
  cases here : boxOf topic.boxes id with
  | none =>
    simp only [Option.map_none, Option.elim_none, List.nil_append, List.map_append,
      List.append_assoc]
    refine List.Sublist.subperm ((List.Sublist.refl _).append (List.Sublist.append ?_ (.refl _)))
    split
    · next kept => simp [narrower kept, advance]
    · exact List.nil_sublist _
  | some box =>
    have same : box.id = id := (boxOf_eq_some here).2
    simp only [Option.map_some, Option.elim_some, served_queue, same]
    by_cases owed : id ∈ publishing.rest
    · by_cases kept : id ∈ (topic.progress publishing).rest
      · simp [owed, kept, advance, List.Perm.subperm]
      · rw [if_pos ⟨owed, kept⟩, if_pos owed, if_neg kept]
        have moved := (@List.perm_middle _ publishing.value ((owing earlier id).map (·.value))
          ((owing later id).map (·.value))).symm
        simpa using (moved.append_left box.queue).subperm
    · have unkept : id ∉ (topic.progress publishing).rest := fun kept => owed (narrower kept)
      simp [owed, unkept, List.Perm.subperm]

theorem resume (listed : topic.Listed) (ticket : Nat) :
    (topic.resume ticket).2.Listed ∧
      ∀ id, ((topic.resume ticket).2.coming id).Subperm (topic.coming id) := by
  rcases topic.resume_cases ticket with idle | ⟨publishing, member, -, -, goes⟩
  · rw [idle]
    exact ⟨listed, fun id => (List.Perm.refl _).subperm⟩
  · rw [goes]
    exact ⟨listed.proceed member, listed.coming_proceed_subperm member⟩

theorem publish (listed : topic.Listed) (value : α) :
    (topic.publish value).2.2.Listed ∧
      ∀ id, ((topic.publish value).2.2.coming id).Subperm (topic.coming id ++ [value]) := by
  have begun := listed.opened value
  have member := topic.opening_mem_opened value
  rw [publish_eq]
  refine ⟨begun.proceed member, fun id => (begun.coming_proceed_subperm member id).trans ?_⟩
  have whole : owing (topic.opened value).publishings id =
      owing topic.publishings id ++ owing [topic.opening value] id := owing_append _ _ _
  have one : ((owing [topic.opening value] id).map (·.value)).Sublist [value] :=
    List.filter_sublist.map _
  unfold coming
  rw [whole, List.map_append, ← List.append_assoc]
  exact ((List.Sublist.refl _).append one).subperm

end Listed

theorem resume_frame (topic : Topic α) (ticket : Nat) :
    (topic.resume ticket).2.capacity = topic.capacity ∧
      (topic.resume ticket).2.nextId = topic.nextId ∧
        (topic.resume ticket).2.nextTicket = topic.nextTicket := by
  rcases topic.resume_cases ticket with idle | ⟨publishing, -, -, -, goes⟩
  · rw [idle]
    exact ⟨rfl, rfl, rfl⟩
  · rw [goes]
    exact (topic.proceed_frame publishing).2

theorem publish_frame (topic : Topic α) (value : α) :
    (topic.publish value).2.2.capacity = topic.capacity ∧
      (topic.publish value).2.2.nextId = topic.nextId ∧
        (topic.publish value).2.2.nextTicket = topic.nextTicket + 1 := by
  rw [publish_eq]
  exact ((topic.opened value).proceed_frame (topic.opening value)).2

theorem resume_of_publishings_eq_nil (empty : topic.publishings = []) (ticket : Nat) :
    (topic.resume ticket).2 = topic := by
  simp [Topic.resume, publishing?, empty]

/-- What a listener takes was the first that was to come to it. -/
theorem coming_receive {id : Nat} {value : α} (received : topic.receive? id = some (value, next)) :
    topic.coming id = value :: next.coming id := by
  rcases receive?_eq_some received with ⟨box, queue, here, content, rfl⟩
  have after := coming_requeued here queue id
  rw [if_pos rfl] at after
  have before : topic.coming id = box.queue ++ (owing topic.publishings id).map (·.value) := by
    unfold coming
    rw [here]
    rfl
  rw [before, content, List.cons_append, ← after]
  rfl

theorem coming_unsubscribe_sublist (topic : Topic α) (gone id : Nat) :
    ((topic.unsubscribe gone).coming id).Sublist (topic.coming id) := by
  unfold coming
  refine List.Sublist.append ?_ (List.Sublist.refl _)
  have boxes : boxOf (topic.unsubscribe gone).boxes id =
      if id = gone then none else boxOf topic.boxes id := boxOf_drop topic gone id
  rw [boxes]
  split
  · exact List.nil_sublist _
  · exact List.Sublist.refl _

theorem receive?_frame {id : Nat} {value : α} (received : topic.receive? id = some (value, next)) :
    next.capacity = topic.capacity ∧ next.nextId = topic.nextId ∧
      next.nextTicket = topic.nextTicket := by
  rcases receive?_eq_some received with ⟨box, queue, -, -, rfl⟩
  exact ⟨rfl, rfl, rfl⟩

theorem Listed.receive? {id : Nat} {value : α} (listed : topic.Listed)
    (received : topic.receive? id = some (value, next)) : next.Listed := by
  rcases receive?_eq_some received with ⟨box, queue, here, -, rfl⟩
  exact listed.requeue here queue

/-! ## What others do -/

/-- What happens at a topic beside a listener: nothing changes for it. -/
structure Beside (id : Nat) (topic next : Topic α) : Prop where
  capacity_eq : next.capacity = topic.capacity
  nextTicket_eq : next.nextTicket = topic.nextTicket
  nextId_le : topic.nextId ≤ next.nextId
  publishings_eq : next.publishings = topic.publishings
  box_eq : id < topic.nextId → boxOf next.boxes id = boxOf topic.boxes id

namespace Beside

variable {id other : Nat}

theorem refl (topic : Topic α) (id : Nat) : Beside id topic topic :=
  ⟨rfl, rfl, Nat.le_refl _, rfl, fun _ => rfl⟩

theorem subscribe (listed : topic.Listed) : Beside id topic topic.subscribe.2 :=
  ⟨rfl, rfl, Nat.le_succ _, rfl, fun old => by
    rw [listed.boxOf_subscribe, if_neg (Nat.ne_of_lt old)]⟩

theorem requeued {box : Box α} (apart : other ≠ id) (here : boxOf topic.boxes other = some box)
    (queue : List α) : Beside id topic (requeued topic other box queue) :=
  ⟨rfl, rfl, Nat.le_refl _, rfl, fun _ => by
    rw [boxOf_requeued here, if_neg apart.symm]⟩

theorem drop (apart : other ≠ id) : Beside id topic (topic.drop other) :=
  ⟨rfl, rfl, Nat.le_refl _, rfl, fun _ => by
    rw [boxOf_drop, if_neg apart.symm]⟩

theorem unsubscribe (apart : other ≠ id) : Beside id topic (topic.unsubscribe other) :=
  ⟨rfl, rfl, Nat.le_refl _, rfl, (drop apart).box_eq⟩

theorem receive {value : α} (apart : other ≠ id)
    (received : topic.receive? other = some (value, next)) : Beside id topic next := by
  rcases receive?_eq_some received with ⟨box, queue, here, -, rfl⟩
  exact requeued apart here queue

theorem of_elsewhere (elsewhere : Elsewhere id topic next) (listed : topic.Listed) :
    Beside id topic next := by
  cases elsewhere with
  | subscribes => exact subscribe listed
  | receives apart received => exact receive apart received
  | unsubscribes apart => exact unsubscribe apart
  | drops apart => exact drop apart

theorem coming_eq (beside : Beside id topic next) (old : id < topic.nextId) :
    next.coming id = topic.coming id := by
  unfold coming
  rw [beside.box_eq old, beside.publishings_eq]

end Beside

theorem Listed.elsewhere {id : Nat} (listed : topic.Listed) (elsewhere : Elsewhere id topic next) :
    next.Listed := by
  cases elsewhere with
  | subscribes => exact listed.subscribe
  | receives apart received => exact listed.receive? received
  | unsubscribes apart => exact listed.unsubscribe _
  | drops apart => exact listed.drop _

theorem WaitsAt.beside {ticket id : Nat} (waits : topic.WaitsAt ticket id)
    (listed : topic.Listed) (beside : Beside id topic next) : next.WaitsAt ticket id := by
  rcases waits with ⟨publishing, member, named, front, box, here, full⟩
  have old := listed.rest_old publishing member id (List.mem_of_head? front)
  exact ⟨publishing, beside.publishings_eq ▸ member, named, front, box,
    (beside.box_eq old).trans here, beside.capacity_eq ▸ full⟩

/-- Whoever waits at a listener has more than a queueful still to come to it. -/
theorem WaitsAt.capacity_lt_coming {ticket id : Nat} (waits : topic.WaitsAt ticket id)
    (listed : topic.Listed) : topic.capacity < (topic.coming id).length := by
  have once : ∀ publishings : List (Publishing α), (∀ p ∈ publishings, p.rest.Nodup) →
      owed publishings id = (owing publishings id).length := by
    intro publishings distinct
    induction publishings with
    | nil => rfl
    | cons head tail inductionHypothesis =>
      have later := inductionHypothesis fun p member => distinct p (List.mem_cons_of_mem _ member)
      have first := distinct head List.mem_cons_self
      rw [owed_cons, owing_cons, List.length_append, later, first.count]
      split <;> rfl
  have untaken : topic.untaken id = (topic.coming id).length := by
    unfold Topic.untaken coming queued
    rw [once _ fun p member => listed.rest_nodup member, List.length_append, List.length_map]
    cases boxOf topic.boxes id <;> rfl
  exact untaken ▸ waits.capacity_lt_untaken listed.sound

/-! ## One sender -/

/-- Every publishing is the one that the sender waits for. -/
structure Attended (topic : Topic α) (waiting : Option Nat) : Prop where
  orderly : topic.Orderly
  alone : ∀ publishing ∈ topic.publishings, waiting = some publishing.ticket

namespace Attended

variable {waiting : Option Nat}

theorem publishings_eq_nil (attended : topic.Attended none) : topic.publishings = [] :=
  List.eq_nil_iff_forall_not_mem.mpr fun publishing member =>
    nomatch attended.alone publishing member

/-- When the sender does not wait, what is still to come lies in the queue. -/
theorem coming_eq_nil (attended : topic.Attended none) {id : Nat}
    (nothing : topic.receive? id = none) : topic.coming id = [] := by
  have empty := attended.publishings_eq_nil
  unfold coming
  rw [empty]
  cases here : boxOf topic.boxes id with
  | none => rfl
  | some box =>
    have seen : topic.box? id = some box := here
    cases content : box.queue with
    | nil => simp [content, owing]
    | cons value queue => simp [Topic.receive?, seen, content] at nothing

theorem publishings_length_le_one (attended : topic.Attended waiting) :
    topic.publishings.length ≤ 1 := by
  have distinct := attended.orderly.sound.tickets_nodup
  have alone := attended.alone
  generalize topic.publishings = publishings at distinct alone ⊢
  rcases publishings with - | ⟨first, - | ⟨second, rest⟩⟩
  · exact Nat.zero_le _
  · exact Nat.le_refl _
  · have same : first.ticket = second.ticket := Option.some.inj
      ((alone first (by simp)).symm.trans (alone second (by simp)))
    simp [same] at distinct

theorem owing_length_le_one (attended : topic.Attended waiting) (id : Nat) :
    (owing topic.publishings id).length ≤ 1 :=
  Nat.le_trans (List.length_filter_le _ _) attended.publishings_length_le_one

theorem of_publishings_eq (attended : topic.Attended waiting) (orderly : next.Orderly)
    (same : next.publishings = topic.publishings) : next.Attended waiting :=
  ⟨orderly, fun publishing member => attended.alone publishing (same ▸ member)⟩

/-- What is published when the sender does not wait comes after everything that
is still to come, and the sender waits if it has not ended. -/
theorem publish (attended : topic.Attended none) (value : α) :
    (topic.publish value).2.2.Attended
        (if (topic.publish value).2.1.isSome then none else some (topic.publish value).1) ∧
      (topic.publish value).2.2.nextId = topic.nextId ∧
      (∀ id, (boxOf (topic.publish value).2.2.boxes id).isSome = (boxOf topic.boxes id).isSome) ∧
      ∀ id box, boxOf topic.boxes id = some box →
        (topic.publish value).2.2.coming id = topic.coming id ++ [value] := by
  have orderly := attended.orderly
  have empty := attended.publishings_eq_nil
  have settled : topic.Settled := fun publishing member => by
    rw [empty] at member
    cases member
  have begun := orderly.opened value
  have member := topic.opening_mem_opened value
  have only : (topic.opened value).publishings = [topic.opening value] := by
    rw [Orderly.opened_split, empty]
    rfl
  refine ⟨⟨orderly.publish settled value, ?_⟩, ?_, ?_, ?_⟩
  · intro publishing present
    rw [publish_eq] at present ⊢
    rcases begun.mem_proceed member present with ⟨old, apart⟩ | ⟨waits, rfl⟩
    · rw [only, List.mem_singleton] at old
      exact absurd (by rw [old]) apart
    · rcases (topic.opened value).proceed_cases (topic.opening value) with ⟨done, -⟩ | ⟨-, goes⟩
      · exact absurd done waits
      · rw [goes]
        rfl
  · rw [publish_eq]
    exact proceed_nextId _ _
  · intro id
    rw [publish_eq, begun.boxOf_proceed member, Option.isSome_map]
    rfl
  · exact fun id box here => orderly.coming_publish settled value here

/-- What the sender waits for goes on, without any change for a listener, and
the sender waits on if it has not ended. -/
theorem resume {ticket : Nat} (attended : topic.Attended (some ticket)) :
    (topic.resume ticket).2.Attended
        (if ((topic.resume ticket).2.publishing? ticket).isNone then none else some ticket) ∧
      Orderly.Onward topic (topic.resume ticket).2 := by
  have orderly := attended.orderly
  have named : ∀ publishing ∈ topic.publishings, publishing.ticket = ticket :=
    fun publishing member => (Option.some.inj (attended.alone publishing member)).symm
  have stuck : ∀ other ∈ topic.publishings, other.ticket < ticket → topic.Stuck other :=
    fun other member less => absurd (named other member) (Nat.ne_of_lt less)
  have onward := orderly.onward_resume stuck
  have kept : ∀ publishing ∈ (topic.resume ticket).2.publishings, publishing.ticket = ticket := by
    intro publishing member
    rcases orderly.resume_cases ticket with ⟨idle, -⟩ | ⟨own, ownMember, same, goes⟩
    · exact named publishing (idle ▸ member)
    · rw [goes] at member
      rcases orderly.mem_proceed ownMember member with ⟨old, -⟩ | ⟨-, rfl⟩
      · exact named publishing old
      · exact same
  refine ⟨⟨onward.orderly, fun publishing member => ?_⟩, onward⟩
  have found : ((topic.resume ticket).2.publishing? ticket).isSome := by
    unfold publishing?
    rw [List.find?_isSome]
    exact ⟨publishing, member, decide_eq_true (kept publishing member)⟩
  rw [Option.isNone_eq_false_iff.mpr found, kept publishing member]
  rfl

end Attended

/-! ## Taking everything -/

theorem receiveAll_eq {id : Nat} {box : Box α} (here : boxOf topic.boxes id = some box) :
    topic.receiveAll id = (box.queue, requeued topic id box []) := by
  have seen : topic.box? id = some box := here
  simp only [receiveAll, seen]
  rfl

theorem receiveAll_cases (topic : Topic α) (id : Nat) :
    (topic.receiveAll id).2 = topic ∨
      ∃ box, boxOf topic.boxes id = some box ∧
        (topic.receiveAll id).2 = requeued topic id box [] := by
  cases here : boxOf topic.boxes id with
  | none =>
    have absent : topic.box? id = none := here
    exact .inl (by simp [receiveAll, absent])
  | some box => exact .inr ⟨box, rfl, by rw [receiveAll_eq here]⟩

theorem Beside.receiveAll {id other : Nat} (apart : other ≠ id) :
    Beside id topic (topic.receiveAll other).2 := by
  rcases topic.receiveAll_cases other with same | ⟨box, here, same⟩
  · rw [same]
    exact .refl topic id
  · rw [same]
    exact .requeued apart here []

namespace Attended

variable {waiting : Option Nat} (attended : topic.Attended waiting)
include attended

theorem receiveAll (id : Nat) : (topic.receiveAll id).2.Attended waiting := by
  rcases topic.receiveAll_cases id with same | ⟨box, here, same⟩
  · rw [same]
    exact attended
  · rw [same]
    exact attended.of_publishings_eq (attended.orderly.requeue here []) rfl

theorem receive? {id : Nat} {value : α} (received : topic.receive? id = some (value, next)) :
    next.Attended waiting := by
  rcases receive?_eq_some received with ⟨box, queue, here, -, rfl⟩
  exact attended.of_publishings_eq (attended.orderly.requeue here queue) rfl

theorem subscribe : topic.subscribe.2.Attended waiting :=
  attended.of_publishings_eq attended.orderly.subscribe rfl

theorem unsubscribe (id : Nat) : (topic.unsubscribe id).Attended waiting :=
  attended.of_publishings_eq (attended.orderly.unsubscribe id) rfl

theorem elsewhere {id : Nat} (elsewhere : Elsewhere id topic next) : next.Attended waiting := by
  cases elsewhere with
  | subscribes => exact attended.subscribe
  | receives apart received => exact attended.receive? received
  | unsubscribes apart => exact attended.unsubscribe _
  | drops apart => exact attended.of_publishings_eq (attended.orderly.drop _) rfl

end Attended

end Topic
end Bus
end Ventilation
