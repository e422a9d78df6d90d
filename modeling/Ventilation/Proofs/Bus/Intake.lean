import Ventilation.Proofs.Bus.Single

namespace Ventilation

/-!
# What enters a queue

Publishings go on in any order, and so they need not enter the queue of a
listener in the order in which they began.  An intake keeps the books of one
queue by tickets: what has been asked, which publishings stand in the queue, and
which have been taken from it.  A publishing enters once, at the end, while the
listener is there, and a publishing that has ended has entered.  So whatever
has ended before another began is taken before it.
-/

/-! ## What precedes in a list -/

section Precedes

variable {β γ : Type*} {first second : β} {known whole part : List β}

/-- Wherever the second stands in a list, the first stands before it. -/
def Precedes (first second : β) (whole : List β) : Prop :=
  ∀ front back, whole = front ++ second :: back → first ∈ front

theorem precedes_of_notMem (absent : second ∉ whole) : Precedes first second whole := by
  rintro front back rfl
  exact absurd (List.mem_append_right _ List.mem_cons_self) absent

/-- Who stands in a list precedes whoever does not, however the list goes on. -/
theorem precedes_of_grown (grown : known <+: whole) (inside : first ∈ known)
    (outside : second ∉ known) : Precedes first second whole := by
  rintro front back rfl
  have reaches : known <+: front := by
    refine List.prefix_of_prefix_length_le grown (List.prefix_append _ _) ?_
    by_contra short
    have within : front ++ [second] <+: known := by
      refine List.prefix_of_prefix_length_le ?_ grown ?_
      · exact ⟨back, (List.append_cons _ _ _).symm⟩
      · rw [List.length_append, List.length_singleton]
        omega
    exact outside (within.subset (List.mem_append_right _ (List.mem_singleton_self _)))
  exact reaches.subset inside

theorem Precedes.shorten (precedes : Precedes first second whole) (shorter : part <+: whole) :
    Precedes first second part := by
  rintro front back rfl
  rcases shorter with ⟨rest, rfl⟩
  exact precedes front (back ++ rest) (by rw [List.append_assoc, List.cons_append])

/-- What holds of the names holds of the named, if no other has the first name. -/
theorem Precedes.of_filterMap {name : γ → Option β} {one other : γ} {items : List γ}
    (precedes : Precedes first second (items.filterMap name)) (named : name other = some second)
    (only : ∀ item, name item = some first → item = one) : Precedes one other items := by
  rintro front back rfl
  have before := precedes (front.filterMap name) (back.filterMap name) (by
    rw [List.filterMap_append, List.filterMap_cons_some named])
  rcases List.mem_filterMap.mp before with ⟨item, member, same⟩
  exact only item same ▸ member

end Precedes

namespace Bus
namespace Topic

variable {α : Type} {topic next : Topic α}

/-! ## Where a topic comes from -/

/-- A topic to which anything may have happened.  No listener has the number 0,
so others may do there what they like. -/
inductive Past : Topic α → Prop
  | empty (capacity : Nat) : Past (.empty capacity)
  | publish {topic : Topic α} (past : Past topic) (value : α) : Past (topic.publish value).2.2
  | resume {topic : Topic α} (past : Past topic) (ticket : Nat) : Past (topic.resume ticket).2
  | elsewhere {topic next : Topic α} (past : Past topic) (elsewhere : Elsewhere 0 topic next) :
      Past next

theorem Past.listed (past : topic.Past) : topic.Listed := by
  induction past with
  | empty capacity => exact (orderly_empty capacity).toListed
  | publish _ value inductionHypothesis => exact (inductionHypothesis.publish value).1
  | resume _ ticket inductionHypothesis => exact (inductionHypothesis.resume ticket).1
  | elsewhere _ elsewhere inductionHypothesis => exact inductionHypothesis.elsewhere elsewhere

/-- A publishing that has begun has ended. -/
def Ended (topic : Topic α) (ticket : Nat) : Prop :=
  ticket < topic.nextTicket ∧ (topic.publishing? ticket).isNone

instance (topic : Topic α) (ticket : Nat) : Decidable (topic.Ended ticket) :=
  inferInstanceAs (Decidable (_ ∧ _))

theorem boxOf_unsubscribe_self (topic : Topic α) (id : Nat) :
    boxOf (topic.unsubscribe id).boxes id = none :=
  (topic.boxOf_drop id id).trans (if_pos rfl)

/-! ## Who still owes a listener something -/

section Proceed

variable {publishing other : Publishing α} {id : Nat} {box : Box α}

theorem mem_owing {publishings : List (Publishing α)} :
    publishing ∈ owing publishings id ↔ publishing ∈ publishings ∧ id ∈ publishing.rest := by
  rw [owing, List.mem_filter, decide_eq_true_iff]

theorem Ended.not_owing {ticket : Nat} (ended : topic.Ended ticket)
    (owes : other ∈ owing topic.publishings id) : other.ticket ≠ ticket := by
  have none_left := Option.isNone_iff_eq_none.mp ended.2
  simpa using List.find?_eq_none.mp none_left other (mem_owing.mp owes).1

namespace Listed

/-- A publishing that goes on either comes into a queue or leaves it as it is,
and then it owes what it owed. -/
theorem boxOf_proceed_cases (listed : topic.Listed) (member : publishing ∈ topic.publishings)
    (here : boxOf topic.boxes id = some box) :
    ∃ after, boxOf (topic.proceed publishing).2.boxes id = some after ∧
      ((after.queue = box.queue ++ [publishing.value] ∧ id ∈ publishing.rest ∧
          id ∉ (topic.progress publishing).rest) ∨
        (after.queue = box.queue ∧
          (id ∈ publishing.rest → id ∈ (topic.progress publishing).rest))) := by
  have same : box.id = id := (boxOf_eq_some here).2
  refine ⟨_, (listed.boxOf_proceed member id).trans (congrArg _ here), ?_⟩
  rw [served_queue, same]
  by_cases passed : id ∈ publishing.rest ∧ id ∉ (topic.progress publishing).rest
  · rw [if_pos passed]
    exact .inl ⟨rfl, passed⟩
  · rw [if_neg passed, List.append_nil]
    exact .inr ⟨rfl, fun owed => not_not.mp fun left => passed ⟨owed, left⟩⟩

/-- Whoever owes a listener something after a publishing has gone on owed it
the same before. -/
theorem owing_proceed (listed : topic.Listed) (member : publishing ∈ topic.publishings)
    (owes : other ∈ owing (topic.proceed publishing).2.publishings id) :
    ∃ before ∈ owing topic.publishings id,
      before.ticket = other.ticket ∧ before.value = other.value := by
  rcases mem_owing.mp owes with ⟨present, owed⟩
  rcases listed.mem_proceed member present with ⟨old, -⟩ | ⟨-, rfl⟩
  · exact ⟨other, mem_owing.mpr ⟨old, owed⟩, rfl, rfl⟩
  · have narrower := progress_rest_subset topic publishing
    exact ⟨publishing, mem_owing.mpr ⟨member, narrower owed⟩, rfl, rfl⟩

/-- Whoever owes a listener something goes on owing it, except that the
publishing that goes on may have passed. -/
theorem owing_of_proceed (listed : topic.Listed) (member : publishing ∈ topic.publishings)
    (owes : other ∈ owing topic.publishings id)
    (kept : other = publishing → id ∈ (topic.progress publishing).rest) :
    ∃ after ∈ owing (topic.proceed publishing).2.publishings id, after.ticket = other.ticket := by
  rcases mem_owing.mp owes with ⟨present, owed⟩
  by_cases own : other.ticket = publishing.ticket
  · rcases listed.sound.publishing_unique present member own with rfl
    have stays := kept rfl
    have waits : (topic.progress other).rest ≠ [] := List.ne_nil_of_mem stays
    exact ⟨_, mem_owing.mpr ⟨advance_mem_proceed member waits, stays⟩, rfl⟩
  · exact ⟨other, mem_owing.mpr ⟨mem_proceed_of_ne present own, owed⟩, rfl⟩

end Listed

end Proceed

end Topic

/-! ## The books of a queue -/

open Topic (Elsewhere Listed boxOf owing queued)

/-- What is known of a queue: everything that has been published, by tickets,
the tickets of what stands in the queue, and of what has been taken from it. -/
structure Intake (α : Type) where
  asked : List (Nat × α)
  line : List Nat
  taken : List Nat

namespace Intake

variable {α : Type} {topic next : Topic α} {intake after : Intake α} {id start : Nat}

def fresh : Intake α := ⟨[], [], []⟩

/-- The tickets of everything that has entered the queue, in order. -/
def entered (intake : Intake α) : List Nat := intake.taken ++ intake.line

/-- A ticket joins the line if something has come into the queue. -/
def enter (intake : Intake α) (id ticket : Nat) (before after : Topic α) : Intake α :=
  if queued before.boxes id < queued after.boxes id then
    { intake with line := intake.line ++ [ticket] }
  else intake

def publish (intake : Intake α) (id : Nat) (topic : Topic α) (value : α) : Intake α :=
  { intake with asked := intake.asked ++ [(topic.nextTicket, value)] }.enter id topic.nextTicket
    topic (topic.publish value).2.2

def resume (intake : Intake α) (id : Nat) (topic : Topic α) (ticket : Nat) : Intake α :=
  intake.enter id ticket topic (topic.resume ticket).2

def take (intake : Intake α) : Intake α :=
  { intake with line := intake.line.tail, taken := intake.taken ++ intake.line.head?.toList }

/-- What can happen at a topic, and what it means for the queue of a listener. -/
inductive Step (id : Nat) (topic : Topic α) (intake : Intake α) : Topic α → Intake α → Prop
  | still : Step id topic intake topic intake
  | publish (value : α) :
      Step id topic intake (topic.publish value).2.2 (intake.publish id topic value)
  | resume (ticket : Nat) :
      Step id topic intake (topic.resume ticket).2 (intake.resume id topic ticket)
  | elsewhere {next : Topic α} (elsewhere : Elsewhere id topic next) :
      Step id topic intake next intake
  | take {value : α} {next : Topic α} (received : topic.receive? id = some (value, next)) :
      Step id topic intake next intake.take
  | leave : Step id topic intake (topic.unsubscribe id) intake

/-- What can become of a topic and of the books of a queue. -/
def Leads (id : Nat) : Topic α × Intake α → Topic α × Intake α → Prop :=
  Relation.ReflTransGen fun before after => Step id before.1 before.2 after.1 after.2

/-- The books are right: what lies in the queue is what has been published under
the tickets in the line, and a publishing since the start that does not owe the
listener anything has entered. -/
structure Fits (id start : Nat) (topic : Topic α) (intake : Intake α) : Prop where
  listed : topic.Listed
  old : id < topic.nextId
  begun : ∀ ticket ∈ intake.entered, ticket < topic.nextTicket
  due : (boxOf topic.boxes id).isSome → ∀ ticket, start ≤ ticket → ticket < topic.nextTicket →
    ticket ∈ intake.entered ∨
      ∃ publishing ∈ owing topic.publishings id, publishing.ticket = ticket
  owed : ∀ publishing ∈ owing topic.publishings id,
    (publishing.ticket, publishing.value) ∈ intake.asked
  queue : ∀ box, boxOf topic.boxes id = some box →
    List.Forall₂ (fun ticket value => (ticket, value) ∈ intake.asked) intake.line box.queue

/-- A listener that has just come is owed nothing of what was published before. -/
theorem Fits.fresh (listed : topic.Listed) :
    Fits topic.nextId topic.nextTicket topic.subscribe.2 (fresh : Intake α) where
  listed := listed.subscribe
  old := Nat.lt_succ_self _
  begun := fun _ member => absurd member List.not_mem_nil
  due := fun _ ticket since before => absurd before (Nat.not_lt_of_ge since)
  owed := by
    intro publishing owes
    rcases Topic.mem_owing.mp owes with ⟨member, owed⟩
    exact absurd (listed.rest_old publishing member _ owed) (Nat.lt_irrefl _)
  queue := by
    intro box here
    rcases listed.of_boxOf_subscribe here with ⟨-, rfl⟩ | ⟨old, -⟩
    · exact .nil
    · exact absurd rfl old

/-! ### Entering -/

/-- Nobody joins the line when nothing comes into the queue. -/
theorem enter_eq_self {ticket : Nat} {before after : Topic α}
    (same : queued after.boxes id = queued before.boxes id) :
    intake.enter id ticket before after = intake :=
  if_neg (same ▸ Nat.lt_irrefl _)

theorem entered_grows_enter (intake : Intake α) (id ticket : Nat) (before after : Topic α) :
    intake.entered <+: (intake.enter id ticket before after).entered := by
  unfold enter
  split
  · rw [entered, entered, ← List.append_assoc]
    exact List.prefix_append _ _
  · exact List.prefix_refl _

theorem taken_enter (intake : Intake α) (id ticket : Nat) (before after : Topic α) :
    (intake.enter id ticket before after).taken = intake.taken := by
  unfold enter
  split <;> rfl

theorem asked_enter (intake : Intake α) (id ticket : Nat) (before after : Topic α) :
    (intake.enter id ticket before after).asked = intake.asked := by
  unfold enter
  split <;> rfl

theorem entered_take (intake : Intake α) : intake.take.entered = intake.entered := by
  rw [entered, take, List.append_assoc, entered]
  cases intake.line <;> rfl

namespace Fits

/-- The books stay right when a publishing goes on. -/
theorem proceed (fits : Fits id start topic intake) {publishing : Publishing α}
    (member : publishing ∈ topic.publishings) :
    Fits id start (topic.proceed publishing).2
      (intake.enter id publishing.ticket topic (topic.proceed publishing).2) := by
  have listed := fits.listed
  have owed : ∀ other ∈ owing (topic.proceed publishing).2.publishings id,
      (other.ticket, other.value) ∈ intake.asked := by
    intro other owes
    rcases listed.owing_proceed member owes with ⟨before, owing, ticket, value⟩
    exact ticket ▸ value ▸ fits.owed before owing
  have old : id < (topic.proceed publishing).2.nextId := by
    rw [Topic.proceed_nextId]
    exact fits.old
  cases here : boxOf topic.boxes id with
  | none =>
    have gone : boxOf (topic.proceed publishing).2.boxes id = none := by
      rw [listed.boxOf_proceed member, here, Option.map_none]
    rw [enter_eq_self (by rw [queued, queued, here, gone])]
    refine ⟨listed.proceed member, old, ?_, ?_, owed, ?_⟩
    · rw [Topic.proceed_nextTicket]
      exact fits.begun
    · rw [gone]
      exact fun absent => absurd absent Bool.false_ne_true
    · rw [gone]
      exact fun box seen => absurd seen (Option.some_ne_none box).symm
  | some box =>
    have present : (boxOf topic.boxes id).isSome := by rw [here, Option.isSome_some]
    rcases listed.boxOf_proceed_cases member here
      with ⟨after, there, ⟨queue, owes, passed⟩ | ⟨queue, stays⟩⟩
    · -- The value comes into the queue, and the ticket joins the line.
      have same : intake.enter id publishing.ticket topic (topic.proceed publishing).2 =
          { intake with line := intake.line ++ [publishing.ticket] } :=
        if_pos (by rw [Topic.queued_of_boxOf here, Topic.queued_of_boxOf there, queue]; simp)
      have whole : ({ intake with line := intake.line ++ [publishing.ticket] } : Intake α).entered =
          intake.entered ++ [publishing.ticket] := (List.append_assoc _ _ _).symm
      have known := fits.owed publishing (Topic.mem_owing.mpr ⟨member, owes⟩)
      have early := listed.sound.tickets_old publishing member
      rw [same]
      refine ⟨listed.proceed member, old, ?_, ?_, owed, ?_⟩
      · rw [whole, Topic.proceed_nextTicket]
        intro ticket entered
        rcases List.mem_append.mp entered with before | last
        · exact fits.begun ticket before
        · exact List.mem_singleton.mp last ▸ early
      · rw [whole, Topic.proceed_nextTicket]
        intro _ ticket since begun
        rcases fits.due present ticket since begun with before | ⟨other, owing, rfl⟩
        · exact .inl (List.mem_append_left _ before)
        · by_cases own : other = publishing
          · exact .inl (List.mem_append_right _ (List.mem_singleton.mpr (own ▸ rfl)))
          · exact .inr (listed.owing_of_proceed member owing fun same => absurd same own)
      · intro found seen
        rcases Option.some.inj (there.symm.trans seen) with rfl
        rw [queue]
        exact List.rel_append (fits.queue box here) (.cons known .nil)
    · rw [enter_eq_self (by rw [Topic.queued_of_boxOf here, Topic.queued_of_boxOf there, queue])]
      refine ⟨listed.proceed member, old, ?_, ?_, owed, ?_⟩
      · rw [Topic.proceed_nextTicket]
        exact fits.begun
      · rw [Topic.proceed_nextTicket]
        intro _ ticket since begun
        refine (fits.due present ticket since begun).imp_right ?_
        rintro ⟨other, owing, rfl⟩
        refine listed.owing_of_proceed member owing ?_
        rintro rfl
        exact stays (Topic.mem_owing.mp owing).2
      · intro found seen
        rcases Option.some.inj (there.symm.trans seen) with rfl
        rw [queue]
        exact fits.queue box here

/-- The books are right when a publishing has begun and has not served anyone. -/
theorem opened (fits : Fits id start topic intake) (value : α) :
    Fits id start (topic.opened value)
      { intake with asked := intake.asked ++ [(topic.nextTicket, value)] } where
  listed := fits.listed.opened value
  old := fits.old
  begun := fun ticket member => Nat.lt_succ_of_lt (fits.begun ticket member)
  due := by
    intro present ticket since begun
    rcases Nat.lt_succ_iff_lt_or_eq.mp begun with before | rfl
    · refine (fits.due present ticket since before).imp_right ?_
      rintro ⟨other, owes, same⟩
      rcases Topic.mem_owing.mp owes with ⟨member, owed⟩
      exact ⟨other, Topic.mem_owing.mpr ⟨List.mem_append_left _ member, owed⟩, same⟩
    · rcases Option.isSome_iff_exists.mp present with ⟨box, here⟩
      exact .inr ⟨topic.opening value, Topic.mem_owing.mpr
        ⟨topic.opening_mem_opened value, fits.listed.mem_opening_rest value here⟩, rfl⟩
  owed := by
    intro other owes
    rcases Topic.mem_owing.mp owes with ⟨member, owed⟩
    rcases List.mem_append.mp member with before | last
    · exact List.mem_append_left _ (fits.owed other (Topic.mem_owing.mpr ⟨before, owed⟩))
    · rcases List.mem_singleton.mp last with rfl
      exact List.mem_append_right _ List.mem_cons_self
  queue := fun box here =>
    (fits.queue box here).imp fun _ _ asked => List.mem_append_left _ asked

/-- The books are right as long as nothing changes but what does not concern the
listener. -/
theorem beside (fits : Fits id start topic intake) (listed : next.Listed)
    (beside : Topic.Beside id topic next) : Fits id start next intake where
  listed := listed
  old := Nat.lt_of_lt_of_le fits.old beside.nextId_le
  begun := by
    rw [beside.nextTicket_eq]
    exact fits.begun
  due := by
    rw [beside.nextTicket_eq, beside.publishings_eq, beside.box_eq fits.old]
    exact fits.due
  owed := by
    rw [beside.publishings_eq]
    exact fits.owed
  queue := by
    rw [beside.box_eq fits.old]
    exact fits.queue

/-- What the listener takes has been published under the first ticket in line. -/
theorem received (fits : Fits id start topic intake) {value : α}
    (received : topic.receive? id = some (value, next)) :
    ∃ ticket rest, intake.line = ticket :: rest ∧ (ticket, value) ∈ intake.asked := by
  rcases Topic.receive?_eq_some received with ⟨box, queue, here, content, -⟩
  have lined := fits.queue box here
  rw [content] at lined
  rcases List.forall₂_cons_right_iff.mp lined with ⟨ticket, rest, asked, -, line⟩
  exact ⟨ticket, rest, line, asked⟩

theorem take (fits : Fits id start topic intake) {value : α}
    (received : topic.receive? id = some (value, next)) : Fits id start next intake.take := by
  have listed := fits.listed.receive? received
  rcases Topic.receive?_eq_some received with ⟨box, queue, here, content, rfl⟩
  have after := Topic.boxOf_requeued here queue id
  rw [if_pos rfl] at after
  refine ⟨listed, fits.old, ?_, ?_, fits.owed, ?_⟩
  · rw [entered_take]
    exact fits.begun
  · rw [entered_take]
    intro _
    exact fits.due (by rw [here, Option.isSome_some])
  · intro found seen
    rcases Option.some.inj (after.symm.trans seen) with rfl
    have lined := fits.queue box here
    rw [content] at lined
    rcases List.forall₂_cons_right_iff.mp lined with ⟨ticket, rest, -, later, line⟩
    simp only [Intake.take, line, List.tail_cons]
    exact later

theorem leave (fits : Fits id start topic intake) :
    Fits id start (topic.unsubscribe id) intake := by
  have gone := topic.boxOf_unsubscribe_self id
  refine ⟨fits.listed.unsubscribe id, fits.old, fits.begun, ?_, fits.owed, ?_⟩
  · simp [gone]
  · simp [gone]

theorem step (fits : Fits id start topic intake) (step : Step id topic intake next after) :
    Fits id start next after := by
  cases step with
  | still => exact fits
  | publish value =>
    have begun := (fits.opened value).proceed (topic.opening_mem_opened value)
    rw [Intake.publish, Topic.publish_eq]
    exact begun
  | resume ticket =>
    unfold Intake.resume
    rcases topic.resume_cases ticket with idle | ⟨publishing, member, rfl, -, goes⟩
    · rw [idle, enter_eq_self rfl]
      exact fits
    · rw [goes]
      exact fits.proceed member
  | elsewhere elsewhere =>
    exact fits.beside (fits.listed.elsewhere elsewhere) (.of_elsewhere elsewhere fits.listed)
  | take received => exact fits.take received
  | leave => exact fits.leave

theorem leads {x y : Topic α × Intake α} (fits : Fits id start x.1 x.2) (leads : Leads id x y) :
    Fits id start y.1 y.2 := by
  induction leads with
  | refl => exact fits
  | tail _ step inductionHypothesis => exact inductionHypothesis.step step

end Fits

/-! ### Order -/

theorem Step.asked_subset (step : Step id topic intake next after) :
    intake.asked ⊆ after.asked := by
  cases step with
  | still | elsewhere _ | take _ | leave => exact List.Subset.refl _
  | publish value =>
    rw [Intake.publish, asked_enter]
    exact List.subset_append_left _ _
  | resume ticket =>
    rw [Intake.resume, asked_enter]
    exact List.Subset.refl _

/-- What has entered the queue stays in its place, and others come after it. -/
theorem Step.entered_grows (step : Step id topic intake next after) :
    intake.entered <+: after.entered := by
  cases step with
  | still | elsewhere _ | leave => exact List.prefix_refl _
  | publish value =>
    exact entered_grows_enter
      { intake with asked := intake.asked ++ [(topic.nextTicket, value)] } _ _ _ _
  | resume ticket => exact entered_grows_enter _ _ _ _ _
  | take received => exact entered_take intake ▸ List.prefix_refl _

theorem Leads.entered_grows {x y : Topic α × Intake α} (leads : Leads id x y) :
    x.2.entered <+: y.2.entered := by
  induction leads with
  | refl => exact List.prefix_refl _
  | tail _ step inductionHypothesis => exact inductionHypothesis.trans step.entered_grows

/-- From a listener that has gone away nothing is taken any more. -/
theorem Step.gone (step : Step id topic intake next after) (fits : Fits id start topic intake)
    (gone : boxOf topic.boxes id = none) :
    boxOf next.boxes id = none ∧ after.taken = intake.taken := by
  have listed := fits.listed
  cases step with
  | still => exact ⟨gone, rfl⟩
  | publish value =>
    refine ⟨?_, taken_enter _ _ _ _ _⟩
    have member := topic.opening_mem_opened value
    rw [Topic.publish_eq, (listed.opened value).boxOf_proceed member]
    exact congrArg _ gone
  | resume ticket =>
    refine ⟨?_, taken_enter _ _ _ _ _⟩
    rcases topic.resume_cases ticket with idle | ⟨publishing, member, -, -, goes⟩
    · rw [idle]
      exact gone
    · rw [goes, listed.boxOf_proceed member, gone, Option.map_none]
  | elsewhere elsewhere =>
    have beside := Topic.Beside.of_elsewhere elsewhere listed
    exact ⟨(beside.box_eq fits.old).trans gone, rfl⟩
  | take received =>
    rcases Topic.receive?_eq_some received with ⟨box, -, here, -⟩
    cases gone.symm.trans here
  | leave => exact ⟨topic.boxOf_unsubscribe_self id, rfl⟩

theorem Leads.gone {x y : Topic α × Intake α} (leads : Leads id x y)
    (fits : Fits id start x.1 x.2) (gone : boxOf x.1.boxes id = none) :
    y.2.taken = x.2.taken := by
  have still : boxOf y.1.boxes id = none ∧ y.2.taken = x.2.taken := by
    induction leads with
    | refl => exact ⟨gone, rfl⟩
    | tail before step inductionHypothesis =>
      have next := step.gone (fits.leads before) inductionHypothesis.1
      exact ⟨next.1, next.2.trans inductionHypothesis.2⟩
  exact still.2

/-- A publishing since the start that had ended before another began is taken
before it. -/
theorem Fits.precedes {x y : Topic α × Intake α} (fits : Fits id start x.1 x.2)
    (leads : Leads id x y) {first second : Nat} (new : start ≤ first) (ended : x.1.Ended first)
    (unbegun : x.1.nextTicket ≤ second) : Precedes first second y.2.taken := by
  have outside : second ∉ x.2.entered := fun member =>
    absurd (fits.begun second member) (Nat.not_lt_of_ge unbegun)
  cases here : boxOf x.1.boxes id with
  | none =>
    refine precedes_of_notMem ?_
    rw [leads.gone fits here]
    exact fun member => outside (List.mem_append_left _ member)
  | some box =>
    have present : (boxOf x.1.boxes id).isSome := by rw [here, Option.isSome_some]
    have inside : first ∈ x.2.entered := by
      rcases fits.due present first new ended.1 with entered | ⟨other, owes, same⟩
      · exact entered
      · exact absurd same (ended.not_owing owes)
    exact (precedes_of_grown leads.entered_grows inside outside).shorten
      (List.prefix_append _ _)

end Intake
end Bus
end Ventilation
