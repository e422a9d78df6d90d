import Ventilation.Proofs.Bus.Delivery
import Ventilation.Proofs.Bus.Single

namespace Ventilation
namespace Bus
namespace Topic

/-!
# What a publishing does in a step

A publishing goes from one listener to the next, in the order of the list that
it began with.  It waits where there is no room, it serves those who are there
when it gets to them, and it passes over those who have gone away by then; who
goes away while a publishing waits for room is not served.  In the end it
returns how many it has served, the one-shot listeners included, and the topic
forgets those it has found gone.

Nobody goes away while publishings go on, so within a step it is clear who is
there: whoever is there when the step is over.  With this, the account of one
publishing does not depend on the others that go on beside it.
-/

variable {α : Type} {topic next : Topic α}

/-! ## Who is there -/

/-- Whether the receiver of a lasting listener is still there. -/
def live (topic : Topic α) (id : Nat) : Bool := (topic.box? id).isSome

theorem live_eq (topic : Topic α) (id : Nat) :
    topic.live id = decide (id ∈ topic.boxes.map (·.id)) := by
  unfold live box?
  rw [Bool.eq_iff_iff, List.find?_isSome]
  simp

theorem present_setBox {boxes : List (Box α)} {id : Nat} {found : Box α}
    (here : boxOf boxes id = some found) {changed : Box α} (same : changed.id = id) (other : Nat) :
    (boxOf (setBox boxes id changed) other).isSome = (boxOf boxes other).isSome := by
  rw [boxOf_setBox same]
  split
  · next own => rw [own, here]; rfl
  · rfl

theorem live_proceed (topic : Topic α) (publishing : Publishing α) (id : Nat) :
    (topic.proceed publishing).2.live id = topic.live id := by
  rw [live_eq, live_eq, proceed_boxes, progress, serve_ids]

/-- Serving parts the listeners into those who have been passed, of whom the
ones that are there are served, and those who are left. -/
theorem serve_account (capacity ticket : Nat) (value : α) (boxes : List (Box α))
    (rest : List Nat) :
    ∃ past, rest = past ++ (serve capacity ticket value boxes rest).rest ∧
      (serve capacity ticket value boxes rest).gone =
        past.filter (fun id => !(boxOf boxes id).isSome) ∧
      (serve capacity ticket value boxes rest).served =
        (past.filter fun id => (boxOf boxes id).isSome).length := by
  induction rest generalizing boxes with
  | nil => exact ⟨[], rfl, rfl, rfl⟩
  | cons target rest inductionHypothesis =>
    simp only [serve]
    split
    · next gone =>
      replace gone : boxOf boxes target = none := gone
      rcases inductionHypothesis boxes with ⟨past, split, passedOver, served⟩
      refine ⟨target :: past, congrArg (target :: ·) split, ?_, ?_⟩
      · simp only [passedOver, List.filter_cons, gone, Option.isSome_none, Bool.not_false, if_true]
      · simp only [served, List.filter_cons, gone, Option.isSome_none, Bool.false_eq_true, if_false]
    · next found here =>
      replace here : boxOf boxes target = some found := here
      have same := (boxOf_eq_some here).2
      split
      · rcases inductionHypothesis (setBox boxes target (found.enter ticket value)) with
          ⟨past, split, passedOver, served⟩
        simp only [present_setBox here (show (found.enter ticket value).id = target from same)]
          at passedOver served
        refine ⟨target :: past, congrArg (target :: ·) split, ?_, ?_⟩
        · simp only [passedOver, List.filter_cons, here, Option.isSome_some, Bool.not_true,
            Bool.false_eq_true, if_false]
        · simp only [served, List.filter_cons, here, Option.isSome_some, if_true,
            List.length_cons]
      · exact ⟨[], rfl, rfl, rfl⟩

/-! ## How a publishing fares -/

/-- The numbers that are returned under one ticket. -/
def returnedBy (ticket : Nat) (ended : List (Nat × Nat)) : List Nat :=
  ended.filterMap fun entry => if entry.1 = ticket then some entry.2 else none

theorem returnedBy_append (ticket : Nat) (first second : List (Nat × Nat)) :
    returnedBy ticket (first ++ second) = returnedBy ticket first ++ returnedBy ticket second :=
  List.filterMap_append

/-- What another publishing returns is not returned under this ticket. -/
theorem returnedBy_of_ne {ticket other : Nat} (apart : other ≠ ticket) (ended : Option Nat) :
    returnedBy ticket (ended.map fun served => (other, served)).toList = [] := by
  cases ended with
  | none => rfl
  | some served => simp [returnedBy, apart]

/-- How a publishing fares while nobody goes away: it waits further on, or it
ends, returns its number once, and those it has found gone are forgotten. -/
inductive Fares (there : Nat → Bool) (publishing : Publishing α) (topic : Topic α) :
    List Nat → Prop
  | waits (past : List Nat) {later : Publishing α} (member : later ∈ topic.publishings)
      (ticket_eq : later.ticket = publishing.ticket) (value_eq : later.value = publishing.value)
      (split : publishing.rest = past ++ later.rest)
      (gone_eq : later.gone = publishing.gone ++ past.filter (fun id => !there id))
      (served_eq : later.served = publishing.served + (past.filter there).length) :
      Fares there publishing topic []
  | ends (finished : ∀ other ∈ topic.publishings, other.ticket ≠ publishing.ticket)
      (forgotten : ∀ listener ∈ topic.listeners,
        listener.id ∉ publishing.gone ++ publishing.rest.filter (fun id => !there id)) :
      Fares there publishing topic [publishing.served + (publishing.rest.filter there).length]

theorem ended_of_sublist {ticket : Nat} (ended : ∀ other ∈ topic.publishings, other.ticket ≠ ticket)
    (tickets : (next.publishings.map (·.ticket)).Sublist (topic.publishings.map (·.ticket))) :
    ∀ other ∈ next.publishings, other.ticket ≠ ticket := by
  intro other member
  rcases List.mem_map.mp (tickets.subset (List.mem_map_of_mem member)) with ⟨old, before, same⟩
  exact same ▸ ended old before

namespace Fares

variable {there : Nat → Bool} {publishing : Publishing α} {returned : List Nat}

theorem refl (member : publishing ∈ topic.publishings) : Fares there publishing topic [] :=
  .waits [] member rfl rfl (List.nil_append _).symm (List.append_nil _).symm rfl

/-- A publishing fares on when any publishing goes on. -/
theorem proceed (fares : Fares there publishing topic returned) (sound : topic.Sound)
    (known : ∀ id, topic.live id = there id) {moved : Publishing α}
    (member : moved ∈ topic.publishings) :
    Fares there publishing (topic.proceed moved).2 (returned ++
      returnedBy publishing.ticket
        ((topic.proceed moved).1.map fun served => (moved.ticket, served)).toList) := by
  have tickets := topic.proceed_tickets moved
  have listeners := topic.proceed_listeners moved
  cases fares with
  | ends finished forgotten =>
    rw [returnedBy_of_ne (finished moved member), List.append_nil]
    exact .ends (ended_of_sublist finished tickets) fun listener present =>
      forgotten listener (listeners.subset present)
  | @waits past later present ticket_eq value_eq split gone_eq served_eq =>
    by_cases own : moved.ticket = later.ticket
    · -- It is the publishing itself that goes on.
      obtain rfl : moved = later := sound.publishing_unique member present own
      rcases serve_account topic.capacity moved.ticket moved.value topic.boxes moved.rest with
        ⟨now, further, found, counted⟩
      have there_eq : (fun id => (boxOf topic.boxes id).isSome) = there := funext known
      have gone_there : (fun id => !(boxOf topic.boxes id).isSome) = fun id => !there id :=
        funext fun id => congrArg (! ·) (known id)
      rw [there_eq] at counted
      rw [gone_there] at found
      rcases topic.proceed_cases moved with ⟨done, ended⟩ | ⟨waiting, stays⟩
      · change (serve _ _ _ _ _).rest = [] at done
        rw [done, List.append_nil] at further
        rw [ended]
        simp only [Option.map_some, Option.toList_some, returnedBy, List.filterMap_cons,
          List.filterMap_nil, ticket_eq, if_true, List.nil_append]
        have total : moved.served + (topic.progress moved).served =
            publishing.served + (publishing.rest.filter there).length := by
          rw [progress, counted, served_eq, split, further, List.filter_append,
            List.length_append, Nat.add_assoc]
        have all : moved.gone ++ (topic.progress moved).gone =
            publishing.gone ++ publishing.rest.filter (fun id => !there id) := by
          rw [progress, found, gone_eq, split, further, List.filter_append, List.append_assoc]
        rw [total]
        refine .ends ?_ ?_
        · intro other kept
          have apart := (List.mem_filter.mp kept).2
          simpa using apart
        · intro listener kept
          have apart := (List.mem_filter.mp kept).2
          rw [← all]
          simpa using apart
      · have silent : (topic.proceed moved).1 = none := by rw [stays]
        rw [silent]
        refine .waits (past ++ now) (advance_mem_proceed member waiting) ticket_eq
          value_eq ?_ ?_ ?_
        · rw [List.append_assoc]
          exact split.trans (congrArg (past ++ ·) further)
        · rw [List.filter_append, ← List.append_assoc, ← gone_eq, ← found]
          rfl
        · rw [List.filter_append, List.length_append, ← Nat.add_assoc, ← served_eq, ← counted]
          rfl
    · rw [returnedBy_of_ne (ticket_eq ▸ own), List.append_nil]
      exact .waits past (mem_proceed_of_ne present fun same => own same.symm) ticket_eq value_eq
        split gone_eq served_eq

end Fares

/-! ## Going on in turn -/

/-- Go on with some publishings in turn, and tell which have ended. -/
def resumeAll (topic : Topic α) : List Nat → List (Nat × Nat) × Topic α
  | [] => ([], topic)
  | ticket :: rest =>
    let (ended, next) := topic.resume ticket
    let (more, last) := next.resumeAll rest
    ((ended.map fun served => (ticket, served)).toList ++ more, last)

theorem resumeAll_cons (topic : Topic α) (ticket : Nat) (rest : List Nat) :
    topic.resumeAll (ticket :: rest) =
      (((topic.resume ticket).1.map fun served => (ticket, served)).toList ++
          ((topic.resume ticket).2.resumeAll rest).1,
        ((topic.resume ticket).2.resumeAll rest).2) := rfl

theorem settle_eq_resumeAll (topic : Topic α) :
    topic.settle = topic.resumeAll (topic.publishings.map (·.ticket)) := by
  have turn : topic.settle = (topic.publishings.map (·.ticket)).foldl
      (fun state ticket =>
        (state.1 ++ ((state.2.resume ticket).1.map fun served => (ticket, served)).toList,
          (state.2.resume ticket).2)) ([], topic) := by
    refine congrArg (List.foldl · _ _) (funext fun state => funext fun ticket => ?_)
    rcases state with ⟨ended, topic⟩
    rcases resumed : topic.resume ticket with ⟨- | served, next⟩ <;> simp [resumed]
  have general : ∀ (tickets : List Nat) (ended : List (Nat × Nat)) (topic : Topic α),
      tickets.foldl (fun state ticket =>
        (state.1 ++ ((state.2.resume ticket).1.map fun served => (ticket, served)).toList,
          (state.2.resume ticket).2)) (ended, topic) =
        (ended ++ (topic.resumeAll tickets).1, (topic.resumeAll tickets).2) := by
    intro tickets
    induction tickets with
    | nil => simp [resumeAll]
    | cons ticket rest inductionHypothesis =>
      intro ended topic
      rw [List.foldl_cons, inductionHypothesis, resumeAll_cons, List.append_assoc]
  exact turn.trans (general _ [] topic)

/-- What holds when a publishing goes on, of the topic and of all that has been
returned, holds when some publishings have gone on in turn. -/
theorem resumeAll_kept (Kept : List (Nat × Nat) → Topic α → Prop)
    (goesOn : ∀ {ended : List (Nat × Nat)} {topic : Topic α} {publishing : Publishing α},
      publishing ∈ topic.publishings → Kept ended topic →
        Kept (ended ++ ((topic.proceed publishing).1.map
          fun served => (publishing.ticket, served)).toList) (topic.proceed publishing).2)
    {ended : List (Nat × Nat)} (kept : Kept ended topic) (tickets : List Nat) :
    Kept (ended ++ (topic.resumeAll tickets).1) (topic.resumeAll tickets).2 := by
  induction tickets generalizing topic ended with
  | nil =>
    rw [show topic.resumeAll [] = ([], topic) from rfl, List.append_nil]
    exact kept
  | cons ticket rest inductionHypothesis =>
    rw [resumeAll_cons, ← List.append_assoc]
    refine inductionHypothesis ?_
    rcases topic.resume_cases ticket with idle | ⟨publishing, member, rfl, -, goes⟩
    · rw [idle, Option.map_none, Option.toList_none, List.append_nil]
      exact kept
    · rw [goes]
      exact goesOn member kept

/-- What holds of a topic when a publishing goes on holds when some have. -/
theorem resumeAll_keeps (Kept : Topic α → Prop)
    (goesOn : ∀ {topic : Topic α} {publishing : Publishing α}, publishing ∈ topic.publishings →
      Kept topic → Kept (topic.proceed publishing).2)
    (kept : Kept topic) (tickets : List Nat) : Kept (topic.resumeAll tickets).2 :=
  @resumeAll_kept α topic (fun _ => Kept) goesOn [] kept tickets

theorem live_resumeAll (topic : Topic α) (tickets : List Nat) (id : Nat) :
    (topic.resumeAll tickets).2.live id = topic.live id :=
  resumeAll_keeps (fun later => later.live id = topic.live id)
    (fun _ same => (live_proceed _ _ id).trans same) rfl tickets

theorem resumeAll_frame (topic : Topic α) (tickets : List Nat) :
    (topic.resumeAll tickets).2.capacity = topic.capacity ∧
      (topic.resumeAll tickets).2.nextId = topic.nextId ∧
        (topic.resumeAll tickets).2.nextTicket = topic.nextTicket := by
  refine resumeAll_keeps (fun later => later.capacity = topic.capacity ∧
    later.nextId = topic.nextId ∧ later.nextTicket = topic.nextTicket) ?_ ⟨rfl, rfl, rfl⟩ tickets
  intro later publishing _ kept
  rwa [proceed_capacity, proceed_nextId, proceed_nextTicket]

theorem Fares.resumeAll {there : Nat → Bool} {publishing : Publishing α} {returned : List Nat}
    (fares : Fares there publishing topic returned) (sound : topic.Sound)
    (known : ∀ id, topic.live id = there id) (tickets : List Nat) :
    Fares there publishing (topic.resumeAll tickets).2
      (returned ++ returnedBy publishing.ticket (topic.resumeAll tickets).1) := by
  refine (@resumeAll_kept α topic (fun ended later => later.Sound ∧
    (∀ id, later.live id = there id) ∧
      Fares there publishing later (returned ++ returnedBy publishing.ticket ended))
    ?_ [] ⟨sound, known, (List.append_nil returned).symm ▸ fares⟩ tickets).2.2
  intro ended later moved member ⟨sound, known, fares⟩
  refine ⟨sound.proceed member, fun id => (live_proceed _ _ id).trans (known id), ?_⟩
  rw [returnedBy_append, ← List.append_assoc]
  exact fares.proceed sound known member

/-! ## One step -/

theorem act_publish (topic : Topic α) (value : α) :
    topic.act (.publish value) =
      (.nothing,
        (((topic.opened value).proceed (topic.opening value)).1.map
          fun served => (topic.nextTicket, served)).toList,
        ((topic.opened value).proceed (topic.opening value)).2) := by
  simp only [act, publish_eq]
  rcases (topic.opened value).proceed (topic.opening value) with ⟨- | served, next⟩ <;> rfl

theorem step_eq (topic : Topic α) (taken : Step α) :
    topic.step taken =
      ((topic.act taken).1, (topic.act taken).2.1 ++
          ((topic.act taken).2.2.resumeAll
            ((topic.act taken).2.2.publishings.map (·.ticket))).1,
        ((topic.act taken).2.2.resumeAll
          ((topic.act taken).2.2.publishings.map (·.ticket))).2) := by
  rw [← settle_eq_resumeAll]
  rfl

theorem live_step (topic : Topic α) (taken : Step α) (id : Nat) :
    (topic.step taken).2.2.live id = (topic.act taken).2.2.live id := by
  rw [step_eq]
  exact live_resumeAll _ _ id

/-- Whatever is not to publish leaves the publishings alone. -/
structure Quiet (topic next : Topic α) (ended : List (Nat × Nat)) : Prop where
  ended_eq : ended = []
  publishings_eq : next.publishings = topic.publishings
  capacity_eq : next.capacity = topic.capacity
  nextTicket_eq : next.nextTicket = topic.nextTicket
  nextId_le : topic.nextId ≤ next.nextId
  listeners_old : ∀ listener ∈ next.listeners,
    listener ∈ topic.listeners ∨ listener.id = topic.nextId

theorem act_receive_frame (topic : Topic α) (id : Nat) :
    ∃ boxes, (topic.act (.receive id)).2 = ([], { topic with boxes := boxes }) := by
  simp only [act]
  cases received : topic.receive? id with
  | none => exact ⟨topic.boxes, rfl⟩
  | some result =>
    rcases receive?_eq_some received with ⟨box, queue, -, -, same⟩
    exact ⟨_, congrArg ([], ·) same⟩

theorem act_poll_frame (topic : Topic α) (id : Nat) :
    ∃ shots, (topic.act (.poll id)).2 = ([], { topic with shots := shots }) := by
  simp only [act, takeShot?]
  cases topic.shot id with
  | value value => exact ⟨_, rfl⟩
  | nothing => exact ⟨topic.shots, rfl⟩
  | taken => exact ⟨topic.shots, rfl⟩

theorem act_cases (topic : Topic α) (taken : Step α) :
    (∃ value, taken = .publish value) ∨
      taken.published = [] ∧ Quiet topic (topic.act taken).2.2 (topic.act taken).2.1 := by
  have stays : ∀ {listeners : List Listener} (boxes : List (Box α)) (shots : List (Nat × Shot α)),
      listeners ⊆ topic.listeners → Quiet topic
        { topic with boxes := boxes, shots := shots, listeners := listeners } [] :=
    fun _ _ fewer => ⟨rfl, rfl, rfl, rfl, Nat.le_refl _, fun _ member => .inl (fewer member)⟩
  have comes : ∀ (listener : Listener) (boxes : List (Box α)) (shots : List (Nat × Shot α)),
      listener.id = topic.nextId → Quiet topic
        { topic with
          nextId := topic.nextId + 1
          boxes := boxes
          shots := shots
          listeners := topic.listeners ++ [listener] } [] := by
    refine fun listener _ _ new => ⟨rfl, rfl, rfl, rfl, Nat.le_succ _, fun other member => ?_⟩
    exact (List.mem_append.mp member).imp_right fun last => by rw [List.mem_singleton.mp last, new]
  cases taken with
  | publish value => exact .inl ⟨value, rfl⟩
  | receive id =>
    rcases topic.act_receive_frame id with ⟨boxes, frame⟩
    rw [frame]
    exact .inr ⟨rfl, stays boxes topic.shots (List.Subset.refl _)⟩
  | poll id =>
    rcases topic.act_poll_frame id with ⟨shots, frame⟩
    rw [frame]
    exact .inr ⟨rfl, stays topic.boxes shots (List.Subset.refl _)⟩
  | subscribe => exact .inr ⟨rfl, comes (.lasting topic.nextId) _ topic.shots rfl⟩
  | listenOnce => exact .inr ⟨rfl, comes (.once topic.nextId) topic.boxes _ rfl⟩
  | unsubscribe id =>
    exact .inr ⟨rfl, stays _ topic.shots fun _ member => (List.mem_filter.mp member).1⟩
  | drop id => exact .inr ⟨rfl, stays _ topic.shots (List.Subset.refl _)⟩
  | dropOnce id => exact .inr ⟨rfl, stays topic.boxes _ (List.Subset.refl _)⟩

/-- To publish brings nobody to the topic. -/
theorem publish_listeners (topic : Topic α) (value : α) :
    (topic.act (.publish value)).2.2.listeners ⊆ topic.listeners := by
  intro listener member
  rw [act_publish] at member
  have kept := ((topic.opened value).proceed_listeners (topic.opening value)).subset member
  rcases List.mem_map.mp kept with ⟨id, lasting, rfl⟩
  rcases List.mem_filterMap.mp lasting with ⟨old, present, same⟩
  cases old with
  | lasting other => exact Option.some.inj same ▸ present
  | once other => cases same

/-- The publishings that there were are still there when a step has been taken
and nothing has gone on as yet. -/
theorem act_keeps (sound : topic.Sound) (taken : Step α) {publishing : Publishing α}
    (member : publishing ∈ topic.publishings) :
    publishing ∈ (topic.act taken).2.2.publishings ∧
      returnedBy publishing.ticket (topic.act taken).2.1 = [] := by
  rcases topic.act_cases taken with ⟨value, rfl⟩ | ⟨-, quiet⟩
  · have apart : publishing.ticket ≠ topic.nextTicket :=
      Nat.ne_of_lt (sound.tickets_old publishing member)
    rw [act_publish]
    exact ⟨mem_proceed_of_ne (List.mem_append_left _ member) apart,
      returnedBy_of_ne apart.symm _⟩
  · rw [quiet.publishings_eq, quiet.ended_eq]
    exact ⟨member, rfl⟩

theorem step_nextId (topic : Topic α) (taken : Step α) :
    (topic.step taken).2.2.nextId = (topic.act taken).2.2.nextId := by
  rw [step_eq]
  exact (resumeAll_frame _ _).2.1

theorem step_frame (topic : Topic α) (taken : Step α) :
    (topic.step taken).2.2.capacity = topic.capacity ∧
      topic.nextId ≤ (topic.step taken).2.2.nextId ∧
        (topic.step taken).2.2.nextTicket = topic.nextTicket + taken.published.length := by
  rw [step_eq]
  rcases (topic.act taken).2.2.resumeAll_frame
    ((topic.act taken).2.2.publishings.map (·.ticket)) with ⟨capacity, nextId, nextTicket⟩
  simp only [capacity, nextId, nextTicket]
  rcases topic.act_cases taken with ⟨value, rfl⟩ | ⟨nothing, quiet⟩
  · rcases (topic.opened value).proceed_frame (topic.opening value) with
      ⟨-, capacity, nextId, nextTicket⟩
    rw [act_publish]
    exact ⟨capacity, Nat.le_of_eq nextId.symm, nextTicket⟩
  · rw [nothing]
    exact ⟨quiet.capacity_eq, quiet.nextId_le, quiet.nextTicket_eq⟩

/-- What a step does to a publishing, it does before or while others go on. -/
theorem Fares.of_act {taken : Step α} {publishing : Publishing α}
    (fares : Fares (topic.step taken).2.2.live publishing (topic.act taken).2.2
      (returnedBy publishing.ticket (topic.act taken).2.1))
    (sound : (topic.act taken).2.2.Sound) :
    Fares (topic.step taken).2.2.live publishing (topic.step taken).2.2
      (returnedBy publishing.ticket (topic.step taken).2.1) := by
  have further := fares.resumeAll sound (fun id => (topic.live_step taken id).symm)
    ((topic.act taken).2.2.publishings.map (·.ticket))
  rw [← returnedBy_append] at further
  rw [step_eq] at further ⊢
  exact further

theorem Orderly.fares_step (orderly : topic.Orderly) (settled : topic.Settled) (taken : Step α)
    {publishing : Publishing α} (member : publishing ∈ topic.publishings) :
    Fares (topic.step taken).2.2.live publishing (topic.step taken).2.2
      (returnedBy publishing.ticket (topic.step taken).2.1) := by
  rcases act_keeps orderly.sound taken member with ⟨kept, silent⟩
  refine .of_act ?_ (act_acts orderly settled taken).orderly.sound
  rw [silent]
  exact .refl kept

theorem Orderly.fares_publish (orderly : topic.Orderly) (settled : topic.Settled) (value : α) :
    Fares (topic.step (.publish value)).2.2.live (topic.opening value)
      (topic.step (.publish value)).2.2
      (returnedBy topic.nextTicket (topic.step (.publish value)).2.1) := by
  have there : ∀ id, (topic.opened value).live id = (topic.step (.publish value)).2.2.live id := by
    intro id
    rw [live_step, act_publish, live_proceed]
  change Fares _ (topic.opening value) _ (returnedBy (topic.opening value).ticket _)
  refine .of_act ?_ (act_acts orderly settled (.publish value)).orderly.sound
  rw [act_publish]
  exact (Fares.refl (topic.opening_mem_opened value)).proceed (orderly.sound.opened value) there
    (topic.opening_mem_opened value)

end Topic
end Bus
end Ventilation
