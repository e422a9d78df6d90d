import Ventilation.Proofs.Bus.Sound
import Ventilation.Bus.Hub
import Mathlib.Algebra.GroupWithZero.Nat
import Mathlib.Data.List.Count
import Mathlib.Data.List.Perm.Subperm

namespace Ventilation
namespace Bus
namespace Topic

/-!
# What is on its way to one listener

Of everything that has been published, a listener has taken something and not
taken the rest: values in its queue, and values of publishings that have still
to serve it.  The rest grows by at most one with every value that is published
and shrinks by one with every value that is taken, and nothing else makes it
grow.

A publishing that waits at the listener finds at least a queueful before it.
It waits until the listener takes something or goes away, whatever others do.
-/

variable {α : Type}

/-! ## Counting -/

def queued (boxes : List (Box α)) (id : Nat) : Nat :=
  (boxOf boxes id).elim 0 fun box => box.queue.length

/-- How often publishings have still to serve a listener. -/
def owed (publishings : List (Publishing α)) (id : Nat) : Nat :=
  (publishings.map fun publishing => publishing.rest.count id).sum

/-- How many values have been published for a listener and not been taken. -/
def untaken (topic : Topic α) (id : Nat) : Nat := queued topic.boxes id + owed topic.publishings id

theorem owed_cons (publishing : Publishing α) (rest : List (Publishing α)) (id : Nat) :
    owed (publishing :: rest) id = publishing.rest.count id + owed rest id := by
  simp [owed]

theorem owed_filter_le (keep : Publishing α → Bool) (publishings : List (Publishing α))
    (id : Nat) : owed (publishings.filter keep) id ≤ owed publishings id := by
  induction publishings with
  | nil => exact Nat.le_refl _
  | cons head tail inductionHypothesis =>
    rw [List.filter_cons]
    split
    · rw [owed_cons, owed_cons]
      exact Nat.add_le_add_left inductionHypothesis _
    · rw [owed_cons]
      exact Nat.le_trans inductionHypothesis (Nat.le_add_left _ _)

/-- Without a publishing, less is owed by what it owes. -/
theorem owed_without {publishings : List (Publishing α)} {publishing : Publishing α}
    (member : publishing ∈ publishings) (id : Nat) :
    owed (publishings.filter fun other => other.ticket ≠ publishing.ticket) id
      + publishing.rest.count id ≤ owed publishings id := by
  induction publishings with
  | nil => cases member
  | cons head tail inductionHypothesis =>
    rw [owed_cons, List.filter_cons]
    rcases List.mem_cons.mp member with rfl | later
    · have less := owed_filter_le (fun other => other.ticket ≠ publishing.ticket) tail id
      simp only [ne_eq, not_true_eq_false, decide_false, Bool.false_eq_true, if_false]
      simp only [ne_eq] at less
      omega
    · have less := inductionHypothesis later
      split
      · rw [owed_cons]
        omega
      · omega

/-- A publishing that is replaced owes what its successor owes. -/
theorem owed_replaced {publishings : List (Publishing α)} {publishing : Publishing α}
    (nodup : (publishings.map (·.ticket)).Nodup) (member : publishing ∈ publishings)
    (changed : Publishing α) (id : Nat) :
    owed (publishings.map fun other =>
        if other.ticket = publishing.ticket then changed else other) id
      + publishing.rest.count id = owed publishings id + changed.rest.count id := by
  induction publishings with
  | nil => cases member
  | cons head tail inductionHypothesis =>
    rcases List.nodup_cons.mp nodup with ⟨fresh, nodup⟩
    rw [List.map_cons, owed_cons, owed_cons]
    rcases List.mem_cons.mp member with rfl | later
    · have untouched : (tail.map fun other =>
          if other.ticket = publishing.ticket then changed else other) = tail := by
        refine (List.map_congr_left fun other present => if_neg fun same => ?_).trans
          (List.map_id' tail)
        exact fresh (List.mem_map.mpr ⟨other, present, same⟩)
      rw [untouched, if_pos rfl]
      omega
    · have apart : head.ticket ≠ publishing.ticket := fun same =>
        fresh (List.mem_map.mpr ⟨publishing, later, same.symm⟩)
      have same := inductionHypothesis nodup later
      rw [if_neg apart]
      omega

theorem queued_setBox {boxes : List (Box α)} {id : Nat} {found : Box α}
    (here : boxOf boxes id = some found) (changed : Box α) (same : changed.id = id)
    (other : Nat) :
    queued (setBox boxes id changed) other =
      if other = id then changed.queue.length else queued boxes other := by
  unfold queued
  rw [boxOf_setBox same]
  split
  · simp [here]
  · rfl

theorem queued_of_boxOf {boxes : List (Box α)} {id : Nat} {box : Box α}
    (here : boxOf boxes id = some box) : queued boxes id = box.queue.length := by
  simp [queued, here]

theorem boxOf_append (boxes : List (Box α)) (box : Box α) (id : Nat) :
    boxOf (boxes ++ [box]) id =
      (boxOf boxes id).or (if box.id = id then some box else none) := by
  simp only [boxOf, List.find?_append, List.find?_cons, List.find?_nil]
  by_cases here : box.id = id <;> simp [here]

theorem boxOf_without (boxes : List (Box α)) (gone id : Nat) :
    boxOf (boxes.filter fun box => box.id ≠ gone) id =
      if id = gone then none else boxOf boxes id := by
  unfold boxOf
  rw [List.find?_filter]
  by_cases leaves : id = gone
  · rw [if_pos leaves, List.find?_eq_none]
    intro box _
    simp [leaves]
  · rw [if_neg leaves]
    congr 1
    funext box
    by_cases here : box.id = id
    · simp [here, leaves]
    · simp [here]

/-! ## Publishing does not lose count -/

/-- To serve moves a value from what is owed into the queue. -/
theorem serve_untaken (capacity ticket : Nat) (value : α) (boxes : List (Box α))
    (rest : List Nat) (id : Nat) :
    queued (serve capacity ticket value boxes rest).boxes id
      + (serve capacity ticket value boxes rest).rest.count id ≤
        queued boxes id + rest.count id := by
  induction rest generalizing boxes with
  | nil => exact Nat.le_refl _
  | cons target rest inductionHypothesis =>
    simp only [serve]
    split
    · have less := inductionHypothesis boxes
      have longer : rest.count id ≤ (target :: rest).count id := List.count_le_count_cons
      simp only
      omega
    · next found here =>
      have same := (boxOf_eq_some here).2
      split
      · have less := inductionHypothesis (setBox boxes target (found.enter ticket value))
        rw [queued_setBox here _ (by rw [Box.enter_id, same])] at less
        by_cases own : id = target
        · subst own
          rw [if_pos rfl, Box.enter_queue, List.length_append, List.length_singleton] at less
          rw [List.count_cons_self, queued_of_boxOf here]
          simp only
          omega
        · rw [if_neg own] at less
          rw [List.count_cons_of_ne fun equal => own equal.symm]
          simp only
          omega
      · simp only
        rw [queued_setBox here _ (by rw [Box.wait_id, same])]
        split
        · next own =>
          subst own
          exact Nat.le_of_eq (by rw [Box.wait_queue, queued_of_boxOf here])
        · exact Nat.le_refl _

theorem proceed_untaken {topic : Topic α} (sound : topic.Sound) {publishing : Publishing α}
    (member : publishing ∈ topic.publishings) (id : Nat) :
    (topic.proceed publishing).2.untaken id ≤ topic.untaken id := by
  have moved := serve_untaken topic.capacity publishing.ticket publishing.value topic.boxes
    publishing.rest id
  change queued (topic.progress publishing).boxes id
    + (topic.progress publishing).rest.count id ≤ _ at moved
  unfold untaken
  rw [proceed_boxes]
  rcases topic.proceed_cases publishing with ⟨-, ended⟩ | ⟨-, waits⟩
  · have less := owed_without member id
    rw [ended]
    simp only
    omega
  · have same := owed_replaced sound.tickets_nodup member
      (advance publishing (topic.progress publishing)) id
    rw [waits]
    simp only [advance] at same ⊢
    omega

theorem publish_untaken {topic : Topic α} (sound : topic.Sound) (value : α) (id : Nat) :
    (topic.publish value).2.2.untaken id ≤ topic.untaken id + 1 := by
  have moved := proceed_untaken (sound.opened value) (topic.opening_mem_opened value) id
  have once : (topic.opening value).rest.count id ≤ 1 :=
    List.nodup_iff_count_le_one.mp
      ((lasting_sublist topic.listeners).nodup sound.listeners_nodup) id
  have grown : (topic.opened value).untaken id =
      topic.untaken id + (topic.opening value).rest.count id := by
    simp [untaken, opened, owed, Nat.add_assoc]
  rw [publish_eq]
  simp only
  omega

/-! ## Taking, coming and going -/

/-- What a listener takes is no longer on its way to it, and is still on its
way to others. -/
theorem receive?_untaken {topic next : Topic α} {id : Nat} {value : α}
    (received : topic.receive? id = some (value, next)) (other : Nat) :
    next.untaken other + (if other = id then 1 else 0) = topic.untaken other := by
  rcases receive?_eq_some received with ⟨box, queue, found, content, rfl⟩
  have emptied : queued (setBox topic.boxes id { box with queue := queue }) other =
      if other = id then queue.length else queued topic.boxes other :=
    queued_setBox found { box with queue := queue } (boxOf_eq_some found).2 other
  unfold untaken
  rw [emptied]
  by_cases own : other = id
  · subst own
    rw [if_pos rfl, if_pos rfl, queued_of_boxOf found, content, List.length_cons]
    simp only
    omega
  · rw [if_neg own, if_neg own]
    rfl

theorem subscribe_untaken (topic : Topic α) (id : Nat) :
    topic.subscribe.2.untaken id = topic.untaken id := by
  have same : queued (topic.boxes ++ [⟨topic.nextId, [], []⟩]) id = queued topic.boxes id := by
    unfold queued
    rw [boxOf_append]
    cases boxOf topic.boxes id with
    | some box => rfl
    | none =>
      rw [Option.none_or]
      split <;> rfl
  simp [untaken, subscribe, same]

theorem drop_untaken (topic : Topic α) (gone id : Nat) :
    (topic.drop gone).untaken id ≤ topic.untaken id := by
  have less : queued (topic.boxes.filter fun box => box.id ≠ gone) id ≤ queued topic.boxes id := by
    unfold queued
    rw [boxOf_without]
    split
    · exact Nat.zero_le _
    · exact Nat.le_refl _
  exact Nat.add_le_add_right less _

/-- How a topic changes between two instants, as far as one listener is
concerned: so many values are published, and it takes so many. -/
structure Flow (id published taken : Nat) (before after : Topic α) : Prop where
  sound : after.Sound
  capacity_eq : after.capacity = before.capacity
  nextTicket_eq : after.nextTicket = before.nextTicket + published
  untaken_le : after.untaken id + taken ≤ before.untaken id + published

namespace Flow

variable {topic next : Topic α}

theorem still (sound : topic.Sound) (id : Nat) : Flow id 0 0 topic topic :=
  ⟨sound, rfl, rfl, Nat.le_refl _⟩

theorem of_eq (sound : topic.Sound) (same : next = topic) (id : Nat) : Flow id 0 0 topic next :=
  same ▸ still sound id

theorem proceed (sound : topic.Sound) {publishing : Publishing α}
    (member : publishing ∈ topic.publishings) (id : Nat) :
    Flow id 0 0 topic (topic.proceed publishing).2 :=
  ⟨sound.proceed member, proceed_capacity _ _, proceed_nextTicket _ _,
    proceed_untaken sound member id⟩

theorem publish (sound : topic.Sound) (value : α) (id : Nat) :
    Flow id 1 0 topic (topic.publish value).2.2 where
  sound := sound.publish value
  capacity_eq := by
    rw [publish_eq]
    exact proceed_capacity _ _
  nextTicket_eq := by
    rw [publish_eq]
    exact proceed_nextTicket _ _
  untaken_le := publish_untaken sound value id

theorem resume (sound : topic.Sound) (ticket id : Nat) :
    Flow id 0 0 topic (topic.resume ticket).2 := by
  rcases topic.resume_cases ticket with idle | ⟨publishing, member, -, -, goes⟩
  · exact of_eq sound (congrArg Prod.snd idle) id
  · rw [goes]
    exact proceed sound member id

theorem receive (sound : topic.Sound) {id : Nat} {value : α}
    (received : topic.receive? id = some (value, next)) : Flow id 0 1 topic next where
  sound := sound.receive? received
  capacity_eq := by
    rcases receive?_eq_some received with ⟨box, queue, -, -, rfl⟩
    rfl
  nextTicket_eq := by
    rcases receive?_eq_some received with ⟨box, queue, -, -, rfl⟩
    rfl
  untaken_le := by
    have less := receive?_untaken received id
    rw [if_pos rfl] at less
    exact Nat.le_of_eq less

theorem unsubscribe (sound : topic.Sound) (gone id : Nat) :
    Flow id 0 0 topic (topic.unsubscribe gone) :=
  ⟨sound.unsubscribe gone, rfl, rfl, topic.drop_untaken gone id⟩

end Flow

/-- What others do at a topic where someone listens: they begin to listen, take
what they are owed, and leave with or without a word. -/
inductive Elsewhere (id : Nat) (topic : Topic α) : Topic α → Prop
  | subscribes : Elsewhere id topic topic.subscribe.2
  | receives {other : Nat} {value : α} {next : Topic α} (apart : other ≠ id)
      (received : topic.receive? other = some (value, next)) : Elsewhere id topic next
  | unsubscribes {other : Nat} (apart : other ≠ id) : Elsewhere id topic (topic.unsubscribe other)
  | drops {other : Nat} (apart : other ≠ id) : Elsewhere id topic (topic.drop other)

theorem Elsewhere.flow {topic next : Topic α} {id : Nat} (elsewhere : Elsewhere id topic next)
    (sound : topic.Sound) : Flow id 0 0 topic next := by
  cases elsewhere with
  | subscribes =>
    exact ⟨sound.subscribe, rfl, rfl, Nat.le_of_eq (topic.subscribe_untaken id)⟩
  | receives apart received =>
    have same := receive?_untaken received id
    rw [if_neg apart.symm] at same
    rcases Flow.receive sound received with ⟨-, capacity, ticket, -⟩
    exact ⟨sound.receive? received, capacity, ticket, Nat.le_of_eq same⟩
  | unsubscribes apart => exact .unsubscribe sound _ id
  | drops apart => exact ⟨sound.drop _, rfl, rfl, topic.drop_untaken _ id⟩

/-! ## Waiting for room -/

end Topic

namespace Box

variable (box : Box α)

/-- How many values come before that of a publishing: those in the queue, and
those of everyone who stands in line before it. -/
def ahead (ticket : Nat) : Nat := box.queue.length + box.line.idxOf ticket

theorem idxOf_le_idxOf_erase {ticket other : Nat} (apart : other ≠ ticket) (line : List Nat) :
    line.idxOf ticket ≤ (line.erase other).idxOf ticket + 1 := by
  induction line with
  | nil => exact Nat.zero_le _
  | cons head tail inductionHypothesis =>
    by_cases leaves : head = other
    · subst leaves
      exact Nat.le_of_eq (by rw [List.erase_cons_head, List.idxOf_cons_ne _ apart])
    · rw [List.erase_cons_tail (by simpa using leaves)]
      by_cases own : head = ticket
      · rw [List.idxOf_cons_eq _ own]
        exact Nat.zero_le _
      · rw [List.idxOf_cons_ne _ own, List.idxOf_cons_ne _ own]
        exact Nat.succ_le_succ inductionHypothesis

theorem ahead_le_enter {ticket other : Nat} (apart : other ≠ ticket) (value : α) :
    box.ahead ticket ≤ (box.enter other value).ahead ticket := by
  have less := idxOf_le_idxOf_erase apart box.line
  unfold ahead
  rw [enter_queue, enter_line, List.length_append, List.length_singleton]
  omega

theorem ahead_le_wait (ticket other : Nat) : box.ahead ticket ≤ (box.wait other).ahead ticket := by
  unfold ahead
  rw [wait_queue, wait_line]
  refine Nat.add_le_add_left ?_ _
  split
  · exact Nat.le_refl _
  · rw [List.idxOf_append]
    split
    · exact Nat.le_refl _
    · exact Nat.le_trans List.idxOf_le_length (Nat.le_add_left _ _)

end Box

namespace Topic

/-- A publishing has come to a listener and finds no room there. -/
def WaitsAt (topic : Topic α) (ticket id : Nat) : Prop :=
  ∃ publishing ∈ topic.publishings, publishing.ticket = ticket ∧
    publishing.rest.head? = some id ∧
      ∃ box, boxOf topic.boxes id = some box ∧ topic.capacity ≤ box.ahead ticket

/-- Publishings that have come to a listener owe it a value each. -/
theorem length_le_owed {publishings : List (Publishing α)} {id : Nat} {tickets : List Nat}
    (nodup : tickets.Nodup)
    (come : ∀ ticket ∈ tickets, ∃ publishing ∈ publishings,
      publishing.ticket = ticket ∧ publishing.rest.head? = some id) :
    tickets.length ≤ owed publishings id := by
  induction publishings generalizing tickets with
  | nil =>
    rcases tickets with - | ⟨ticket, rest⟩
    · exact Nat.zero_le _
    · rcases come ticket List.mem_cons_self with ⟨publishing, member, -⟩
      cases member
  | cons head tail inductionHypothesis =>
    rw [owed_cons]
    by_cases front : head.rest.head? = some id
    · have owes : 1 ≤ head.rest.count id := List.count_pos_iff.mpr (List.mem_of_head? front)
      have later : (tickets.erase head.ticket).length ≤ owed tail id := by
        apply inductionHypothesis (nodup.erase head.ticket)
        intro ticket present
        rcases nodup.mem_erase_iff.mp present with ⟨apart, listed⟩
        rcases come ticket listed with ⟨publishing, member, same, stops⟩
        rcases List.mem_cons.mp member with rfl | member
        · exact absurd same.symm apart
        · exact ⟨publishing, member, same, stops⟩
      rw [List.length_erase] at later
      split at later
      · omega
      · omega
    · have later : tickets.length ≤ owed tail id := by
        apply inductionHypothesis nodup
        intro ticket listed
        rcases come ticket listed with ⟨publishing, member, same, stops⟩
        rcases List.mem_cons.mp member with rfl | member
        · exact absurd stops front
        · exact ⟨publishing, member, same, stops⟩
      exact Nat.le_trans later (Nat.le_add_left _ _)

namespace WaitsAt

variable {topic : Topic α} {ticket id : Nat}

/-- Whoever waits finds a queueful before it, and adds a value of its own. -/
theorem capacity_lt_untaken (waits : topic.WaitsAt ticket id) (sound : topic.Sound) :
    topic.capacity < topic.untaken id := by
  rcases waits with ⟨publishing, member, own, front, box, found, ahead⟩
  rcases boxOf_eq_some found with ⟨present, same⟩
  have fresh : ticket ∉ box.line.take (box.line.idxOf ticket) := by
    intro stands
    have earlier := (List.mem_take_iff_idxOf_lt (List.mem_of_mem_take stands)).mp stands
    exact absurd earlier (Nat.lt_irrefl _)
  have owes : (ticket :: box.line.take (box.line.idxOf ticket)).length ≤
      owed topic.publishings id := by
    apply length_le_owed
    · have distinct := sound.line_nodup box present
      exact List.nodup_cons.mpr ⟨fresh, (List.take_sublist _ _).nodup distinct⟩
    · intro other stands
      rcases List.mem_cons.mp stands with rfl | stands
      · exact ⟨publishing, member, own, front⟩
      · exact same ▸ sound.line_waits box present other (List.mem_of_mem_take stands)
  rw [List.length_cons, List.length_take, Nat.min_eq_left List.idxOf_le_length] at owes
  unfold Box.ahead at ahead
  unfold untaken
  rw [queued_of_boxOf found]
  omega

theorem not_ready (waits : topic.WaitsAt ticket id) (sound : topic.Sound)
    {publishing : Publishing α} (member : publishing ∈ topic.publishings)
    (own : publishing.ticket = ticket) : topic.ready publishing = false := by
  rcases waits with ⟨other, otherMember, same, front, box, found, ahead⟩
  rcases sound.publishing_unique otherMember member (same.trans own.symm) with rfl
  rcases List.head?_eq_some_iff.mp front with ⟨later, rest⟩
  have seen : topic.box? id = some box := found
  subst own
  simp only [ready, rest, seen, Box.admits, decide_eq_false_iff_not]
  exact Nat.not_lt.mpr ahead

theorem not_canResume (waits : topic.WaitsAt ticket id) (sound : topic.Sound) :
    Hub.canResume topic ticket = false := by
  have ⟨own, ownMember, named, _⟩ := waits
  unfold Hub.canResume
  cases search : topic.publishing? ticket with
  | none =>
    have differs := List.find?_eq_none.mp search own ownMember
    simp [named] at differs
  | some publishing =>
    rw [Option.elim_some]
    exact waits.not_ready sound (List.mem_of_find?_eq_some search)
      (by simpa using List.find?_some search)

end WaitsAt

/-- Nobody gets ahead of a publishing when another serves its listeners. -/
theorem serve_ahead (capacity : Nat) {ticket other : Nat} (apart : other ≠ ticket) (value : α)
    {boxes : List (Box α)} {id : Nat} {box : Box α} (here : boxOf boxes id = some box)
    (rest : List Nat) :
    ∃ after, boxOf (serve capacity other value boxes rest).boxes id = some after ∧
      box.ahead ticket ≤ after.ahead ticket := by
  induction rest generalizing boxes box with
  | nil => exact ⟨box, here, Nat.le_refl _⟩
  | cons target rest inductionHypothesis =>
    have changes : ∀ changed : Box α, ∀ found, boxOf boxes target = some found →
        changed.id = target → found.ahead ticket ≤ changed.ahead ticket →
        ∃ after, boxOf (setBox boxes target changed) id = some after ∧
          box.ahead ticket ≤ after.ahead ticket := by
      intro changed found known same grows
      rw [boxOf_setBox same]
      by_cases own : id = target
      · subst own
        rw [here] at known ⊢
        rcases Option.some.inj known with rfl
        exact ⟨changed, if_pos rfl, grows⟩
      · exact ⟨box, (if_neg own).trans here, Nat.le_refl _⟩
    simp only [serve]
    split
    · exact inductionHypothesis here
    · next found known =>
      have same := (boxOf_eq_some known).2
      split
      · obtain ⟨served, place, grows⟩ := changes (found.enter other value) found known same
          (found.ahead_le_enter apart value)
        rcases inductionHypothesis place with ⟨after, last, more⟩
        exact ⟨after, last, Nat.le_trans grows more⟩
      · exact changes (found.wait other) found known (by rw [Box.wait_id, same])
          (found.ahead_le_wait ticket other)

namespace WaitsAt

variable {topic : Topic α} {ticket id : Nat}

theorem proceed (waits : topic.WaitsAt ticket id) {publishing : Publishing α}
    (apart : publishing.ticket ≠ ticket) : (topic.proceed publishing).2.WaitsAt ticket id := by
  rcases waits with ⟨own, member, named, front, box, found, ahead⟩
  obtain ⟨after, place, grows⟩ :=
    serve_ahead topic.capacity apart publishing.value found publishing.rest
  refine ⟨own, mem_proceed_of_ne member (named ▸ apart.symm), named, front, after, ?_, ?_⟩
  · rw [proceed_boxes]
    exact place
  · rw [proceed_capacity]
    exact Nat.le_trans ahead grows

theorem publish (waits : topic.WaitsAt ticket id) (sound : topic.Sound) (value : α) :
    (topic.publish value).2.2.WaitsAt ticket id := by
  rcases waits with ⟨own, member, named, facts⟩
  have old := sound.tickets_old own member
  have begun : (topic.opened value).WaitsAt ticket id :=
    ⟨own, List.mem_append_left _ member, named, facts⟩
  rw [publish_eq]
  exact begun.proceed fun same => Nat.ne_of_lt old (named.trans same.symm)

theorem resume (waits : topic.WaitsAt ticket id) (sound : topic.Sound) (other : Nat) :
    (topic.resume other).2.WaitsAt ticket id := by
  rcases topic.resume_cases other with idle | ⟨publishing, member, -, ready, goes⟩
  · rw [idle]
    exact waits
  · rw [goes]
    refine waits.proceed fun own => ?_
    rw [waits.not_ready sound member own] at ready
    cases ready

theorem elsewhere (waits : topic.WaitsAt ticket id) {next : Topic α}
    (elsewhere : Elsewhere id topic next) : next.WaitsAt ticket id := by
  rcases waits with ⟨own, member, named, front, box, found, ahead⟩
  cases elsewhere with
  | subscribes =>
    refine ⟨own, member, named, front, box, ?_, ahead⟩
    rw [subscribe, boxOf_append, found]
    rfl
  | receives apart received =>
    rcases receive?_eq_some received with ⟨theirs, queue, place, -, rfl⟩
    refine ⟨own, member, named, front, box, ?_, ahead⟩
    have shorter := @boxOf_setBox α topic.boxes _ { theirs with queue := queue }
      (boxOf_eq_some place).2 id
    exact shorter.trans ((if_neg apart.symm).trans found)
  | unsubscribes apart =>
    refine ⟨own, member, named, front, box, ?_, ahead⟩
    rw [unsubscribe, drop, boxOf_without, if_neg apart.symm]
    exact found
  | drops apart =>
    refine ⟨own, member, named, front, box, ?_, ahead⟩
    rw [drop, boxOf_without, if_neg apart.symm]
    exact found

end WaitsAt

end Topic
end Bus
end Ventilation
