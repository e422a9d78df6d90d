import Ventilation.Proofs.Bus.Errand

namespace Ventilation
namespace Bus
namespace Topic

/-!
# The course of a publishing

What a publishing does in one step it does over and over, until it has come to
the end of its list.  From the first moment at which it has nothing more to do
with a listener it is certain whether that listener was there when its turn
came, and at the end the number that the publishing returns is the number of
those who were.

A publishing that has ended stays so: its ticket does not come back, it returns
nothing more, and whoever has been forgotten is not listed again.
-/

variable {α : Type} {topic next : Topic α}

/-! ## What is over -/

/-- A publishing has ended, and the topic has forgotten some listeners. -/
structure Over (ticket : Nat) (gone : List Nat) (topic : Topic α) : Prop where
  ticket_old : ticket < topic.nextTicket
  gone_old : ∀ id ∈ gone, id < topic.nextId
  ended : ∀ other ∈ topic.publishings, other.ticket ≠ ticket
  forgotten : ∀ listener ∈ topic.listeners, listener.id ∉ gone

namespace Over

variable {ticket : Nat} {gone : List Nat}

theorem narrow (finished : topic.Over ticket gone) (nextTicket : topic.nextTicket ≤ next.nextTicket)
    (nextId : topic.nextId ≤ next.nextId)
    (ended : ∀ other ∈ next.publishings, other.ticket ≠ ticket)
    (listeners : ∀ listener ∈ next.listeners,
      listener ∈ topic.listeners ∨ listener.id = topic.nextId) : next.Over ticket gone := by
  refine ⟨Nat.lt_of_lt_of_le finished.ticket_old nextTicket,
    fun id member => Nat.lt_of_lt_of_le (finished.gone_old id member) nextId, ended, ?_⟩
  intro listener member known
  rcases listeners listener member with old | new
  · exact finished.forgotten listener old known
  · exact absurd (finished.gone_old _ known) (by rw [new]; exact Nat.lt_irrefl _)

theorem act (finished : topic.Over ticket gone) (taken : Step α) :
    (topic.act taken).2.2.Over ticket gone ∧ returnedBy ticket (topic.act taken).2.1 = [] := by
  rcases topic.act_cases taken with ⟨value, rfl⟩ | ⟨-, quiet⟩
  · have listeners := topic.publish_listeners value
    rw [act_publish] at listeners ⊢
    refine ⟨finished.narrow ?_ ?_ ?_ fun listener member => .inl (listeners member),
      returnedBy_of_ne (Nat.ne_of_lt finished.ticket_old).symm _⟩
    · rw [proceed_nextTicket]
      exact Nat.le_succ _
    · rw [proceed_nextId]
      exact Nat.le_refl _
    · refine ended_of_sublist ?_ ((topic.opened value).proceed_tickets (topic.opening value))
      intro other member
      rcases List.mem_append.mp member with old | new
      · exact finished.ended other old
      · rw [List.mem_singleton.mp new]
        exact (Nat.ne_of_lt finished.ticket_old).symm
  · rw [quiet.ended_eq]
    refine ⟨finished.narrow (Nat.le_of_eq quiet.nextTicket_eq.symm) quiet.nextId_le ?_
      quiet.listeners_old, rfl⟩
    rw [quiet.publishings_eq]
    exact finished.ended

theorem resumeAll (finished : topic.Over ticket gone) (tickets : List Nat) :
    (topic.resumeAll tickets).2.Over ticket gone ∧
      returnedBy ticket (topic.resumeAll tickets).1 = [] := by
  refine @resumeAll_kept α topic (fun ended later => later.Over ticket gone ∧
    returnedBy ticket ended = []) ?_ [] ⟨finished, rfl⟩ tickets
  intro ended later publishing member ⟨finished, silent⟩
  refine ⟨finished.narrow (Nat.le_of_eq (proceed_nextTicket _ _).symm)
    (Nat.le_of_eq (proceed_nextId _ _).symm)
    (ended_of_sublist finished.ended (later.proceed_tickets publishing))
    fun listener present => .inl ((later.proceed_listeners publishing).subset present), ?_⟩
  rw [returnedBy_append, silent, List.nil_append]
  exact returnedBy_of_ne (finished.ended publishing member) _

theorem step (finished : topic.Over ticket gone) (taken : Step α) :
    (topic.step taken).2.2.Over ticket gone ∧ returnedBy ticket (topic.step taken).2.1 = [] := by
  rcases finished.act taken with ⟨between, first⟩
  rcases between.resumeAll ((topic.act taken).2.2.publishings.map (·.ticket)) with ⟨last, second⟩
  rw [step_eq, returnedBy_append, first, second]
  exact ⟨last, rfl⟩

end Over

/-! ## Many steps -/

theorem run_append (topic : Topic α) (first second : List (Step α)) :
    topic.run (first ++ second) =
      ((topic.run first).1 ++ ((topic.run first).2.run second).1,
        ((topic.run first).2.run second).2) := by
  induction first generalizing topic with
  | nil => rfl
  | cons taken rest inductionHypothesis =>
    rw [List.cons_append, run_cons, inductionHypothesis, run_cons]
    rfl

theorem run_steps (topic : Topic α) (steps : List (Step α)) :
    (topic.run steps).1.map (·.1) = steps := by
  induction steps generalizing topic with
  | nil => rfl
  | cons taken rest inductionHypothesis => exact congrArg (taken :: ·) (inductionHypothesis _)

/-- Tickets count what has been published. -/
theorem run_nextTicket (topic : Topic α) (steps : List (Step α)) :
    (topic.run steps).2.nextTicket = topic.nextTicket + (announced (topic.run steps).1).length := by
  induction steps generalizing topic with
  | nil => rfl
  | cons taken rest inductionHypothesis =>
    rw [run_cons, inductionHypothesis, (topic.step_frame taken).2.2]
    simp only [announced, List.flatMap_cons, List.length_append]
    omega

/-- Whoever does not come with a step that has been taken may yet come. -/
theorem Acts.nextId_le {taken : Step α} {told : Told α} (acts : Acts topic taken told next)
    {id : Nat} (new : topic.nextId ≤ id) (other : told ≠ .listener id) : next.nextId ≤ id := by
  by_cases birth : ∃ first, told = .listener first
  · rcases birth with ⟨first, told_eq⟩
    rcases acts.born first told_eq with ⟨same, later⟩
    have apart : first ≠ id := fun equal => other (equal ▸ told_eq)
    omega
  · rw [acts.unborn fun first told_eq => birth ⟨first, told_eq⟩]
    exact new

/-- Whoever comes has a new number. -/
theorem Orderly.nextId_le_of_told (orderly : topic.Orderly) (settled : topic.Settled)
    {steps : List (Step α)} {taken : Step α} {id : Nat}
    (member : (taken, .listener id) ∈ (topic.run steps).1) : topic.nextId ≤ id := by
  induction steps generalizing topic with
  | nil => cases member
  | cons first rest inductionHypothesis =>
    rcases step_acts orderly settled first with ⟨acts, still⟩
    rw [run_cons] at member
    rcases List.mem_cons.mp member with same | later
    · exact Nat.le_of_eq (acts.born id (Prod.mk.inj same).2.symm).1.symm
    · exact Nat.le_trans (topic.step_frame first).2.1 (inductionHypothesis acts.orderly still later)

theorem since_cons_of_ne {id : Nat} {taken : Step α} {told : Told α} (apart : told ≠ .listener id)
    (rest : List (Step α × Told α)) : since id ((taken, told) :: rest) = since id rest := by
  cases told with
  | listener other => exact if_neg fun same => apart (congrArg Told.listener same)
  | nothing => rfl
  | received value => rfl
  | polled shot => rfl

def moments (topic : Topic α) : List (Step α) → List (Topic α)
  | [] => []
  | taken :: rest => (topic.step taken).2.2 :: (topic.step taken).2.2.moments rest

/-- What publishings have returned during some steps, each under its ticket. -/
def returns (topic : Topic α) : List (Step α) → List (Nat × Nat)
  | [] => []
  | taken :: rest => (topic.step taken).2.1 ++ (topic.step taken).2.2.returns rest

/-- Whether a publishing has nothing more to do with a listener. -/
def passed (topic : Topic α) (ticket id : Nat) : Bool :=
  topic.publishings.all fun publishing => publishing.ticket ≠ ticket || id ∉ publishing.rest

theorem passed_iff {ticket id : Nat} :
    topic.passed ticket id = true ↔
      ∀ publishing ∈ topic.publishings, publishing.ticket = ticket → id ∉ publishing.rest := by
  simp [passed, imp_iff_not_or]

/-- Whether a listener was there when a publishing got to it, that is, at the
first moment at which the publishing has nothing more to do with it. -/
def reached (ticket : Nat) (moments : List (Topic α)) (id : Nat) : Bool :=
  (moments.find? fun moment => moment.passed ticket id).any (·.live id)

theorem reached_cons (ticket : Nat) (moment : Topic α) (later : List (Topic α)) (id : Nat) :
    reached ticket (moment :: later) id =
      if moment.passed ticket id then moment.live id else reached ticket later id := by
  unfold reached
  rw [List.find?_cons]
  cases moment.passed ticket id <;> rfl

namespace Fares

variable {there other : Nat → Bool} {publishing : Publishing α} {returned further : List Nat}

/-- What a publishing still owes, it has not passed. -/
theorem passed_eq (sound : topic.Sound) (member : publishing ∈ topic.publishings) (id : Nat) :
    topic.passed publishing.ticket id = decide (id ∉ publishing.rest) := by
  rw [Bool.eq_iff_iff, passed_iff, decide_eq_true_iff]
  constructor
  · exact fun passed => passed publishing member rfl
  · intro absent own present same
    rw [sound.publishing_unique present member same]
    exact absent

/-- What a publishing has passed, and what it still owes. -/
theorem passed_split (sound : topic.Sound) {waiting : Publishing α}
    (member : waiting ∈ topic.publishings) (ticket_eq : waiting.ticket = publishing.ticket)
    {past : List Nat} (split : publishing.rest = past ++ waiting.rest)
    (distinct : publishing.rest.Nodup) :
    (∀ id ∈ past, topic.passed publishing.ticket id = true) ∧
      ∀ id ∈ waiting.rest, topic.passed publishing.ticket id = false := by
  rw [split] at distinct
  rw [← ticket_eq]
  refine ⟨fun id before => ?_, fun id owed => ?_⟩
  · rw [passed_eq sound member, decide_eq_true_iff]
    exact fun owed => (List.nodup_append.mp distinct).2.2 id before id owed rfl
  · rw [passed_eq sound member, decide_eq_false_iff_not]
    exact fun absent => absent owed

theorem filter_not_congr {ids : List Nat} (same : ∀ id ∈ ids, other id = there id) :
    ids.filter (fun id => !other id) = ids.filter fun id => !there id :=
  List.filter_congr fun id member => by rw [same id member]

/-- It does not matter who is there among those who have not been passed. -/
theorem congr (fares : Fares there publishing topic returned) (sound : topic.Sound)
    (distinct : publishing.rest.Nodup)
    (same : ∀ id ∈ publishing.rest, topic.passed publishing.ticket id = true →
      other id = there id) : Fares other publishing topic returned := by
  cases fares with
  | @waits past later member ticket_eq value_eq split gone_eq served_eq =>
    have agree : ∀ id ∈ past, other id = there id := fun id before =>
      same id (split ▸ List.mem_append_left _ before)
        ((passed_split sound member ticket_eq split distinct).1 id before)
    refine .waits past member ticket_eq value_eq split ?_ ?_
    · rw [gone_eq, filter_not_congr agree]
    · rw [served_eq, List.filter_congr agree]
  | ends finished forgotten =>
    have agree : ∀ id ∈ publishing.rest, other id = there id := fun id owed =>
      same id owed (passed_iff.mpr fun own present ticket_eq =>
        absurd ticket_eq (finished own present))
    rw [← List.filter_congr agree]
    rw [← filter_not_congr agree] at forgotten
    exact .ends finished forgotten

theorem trans {later : Publishing α} (split : List Nat)
    (rest_eq : publishing.rest = split ++ later.rest)
    (gone_eq : later.gone = publishing.gone ++ split.filter (fun id => !there id))
    (served_eq : later.served = publishing.served + (split.filter there).length)
    (ticket_eq : later.ticket = publishing.ticket) (value_eq : later.value = publishing.value)
    (fares : Fares there later topic returned) : Fares there publishing topic returned := by
  cases fares with
  | @waits past last member ticket_last value_last rest_last gone_last served_last =>
    refine .waits (split ++ past) member (ticket_last.trans ticket_eq)
      (value_last.trans value_eq) ?_ ?_ ?_
    · rw [rest_eq, rest_last, List.append_assoc]
    · rw [gone_last, gone_eq, List.filter_append, List.append_assoc]
    · rw [served_last, served_eq, List.filter_append, List.length_append, Nat.add_assoc]
  | ends finished forgotten =>
    have total : later.served + (later.rest.filter there).length =
        publishing.served + (publishing.rest.filter there).length := by
      rw [served_eq, rest_eq, List.filter_append, List.length_append, Nat.add_assoc]
    rw [total]
    refine .ends (ticket_eq ▸ finished) fun listener member => ?_
    rw [rest_eq, List.filter_append, ← List.append_assoc, ← gone_eq]
    exact forgotten listener member

end Fares

theorem Over.run {ticket : Nat} {gone : List Nat} (finished : topic.Over ticket gone)
    (steps : List (Step α)) :
    (topic.run steps).2.Over ticket gone ∧ returnedBy ticket (topic.returns steps) = [] := by
  induction steps generalizing topic with
  | nil => exact ⟨finished, rfl⟩
  | cons taken rest inductionHypothesis =>
    rcases finished.step taken with ⟨next, first⟩
    rcases inductionHypothesis next with ⟨last, later⟩
    refine ⟨last, ?_⟩
    rw [returns, returnedBy_append, first, later]
    rfl

theorem Fares.run {publishing : Publishing α} {returned : List Nat} (orderly : topic.Orderly)
    (settled : topic.Settled) (fares : Fares topic.live publishing topic returned)
    (distinct : publishing.rest.Nodup) (ticket_old : publishing.ticket < topic.nextTicket)
    (ids_old : ∀ id ∈ publishing.gone ++ publishing.rest, id < topic.nextId)
    (later : List (Step α)) :
    Fares (reached publishing.ticket (topic :: topic.moments later)) publishing
      (topic.run later).2 (returned ++ returnedBy publishing.ticket (topic.returns later)) := by
  have now : ∀ id, topic.passed publishing.ticket id = true →
      reached publishing.ticket (topic :: topic.moments later) id = topic.live id := by
    intro id passed
    rw [reached_cons, if_pos passed]
  induction later generalizing topic publishing returned with
  | nil =>
    rw [show returnedBy publishing.ticket (topic.returns []) = [] from rfl, List.append_nil]
    exact fares.congr orderly.sound distinct fun id _ => now id
  | cons taken rest inductionHypothesis =>
    cases fares with
    | @waits past waiting member ticket_eq value_eq split gone_eq served_eq =>
      rcases topic.step_frame taken with ⟨-, nextId, nextTicket⟩
      rcases step_acts orderly settled taken with ⟨acts, still⟩
      rcases passed_split orderly.sound member ticket_eq split distinct with ⟨passed, owed⟩
      have before : ∀ id ∈ past,
          reached publishing.ticket (topic :: topic.moments (taken :: rest)) id =
            topic.live id := fun id member_past => now id (passed id member_past)
      have older : ∀ id ∈ waiting.gone ++ waiting.rest, id < (topic.step taken).2.2.nextId := by
        intro id known
        refine Nat.lt_of_lt_of_le (ids_old id ?_) nextId
        rw [gone_eq] at known
        rw [split]
        simp only [List.mem_append, List.mem_filter] at known ⊢
        tauto
      have further := inductionHypothesis acts.orderly still
        (orderly.fares_step settled taken member)
        (distinct.sublist (split ▸ List.sublist_append_right _ _))
        (by rw [ticket_eq, nextTicket]; omega) older
        fun id passed => by rw [reached_cons, if_pos passed]
      rw [← returnedBy_append, ticket_eq] at further
      refine .trans past split ?_ ?_ ticket_eq value_eq ?_
      · rw [gone_eq, filter_not_congr before]
      · rw [served_eq, List.filter_congr before]
      · refine further.congr (run_orderly acts.orderly still rest).1.sound
          (distinct.sublist (split ▸ List.sublist_append_right _ _)) fun id owes _ => ?_
        rw [reached_cons, if_neg (Bool.eq_false_iff.mp (owed id owes))]
        rfl
    | ends finished forgotten =>
      have agree : ∀ id ∈ publishing.rest,
          reached publishing.ticket (topic :: topic.moments (taken :: rest)) id =
            topic.live id := fun id _ =>
        now id (passed_iff.mpr fun own present same => absurd same (finished own present))
      have past : topic.Over publishing.ticket
          (publishing.gone ++ publishing.rest.filter fun id => !topic.live id) := by
        refine ⟨ticket_old, fun id known => ids_old id ?_, finished, forgotten⟩
        simp only [List.mem_append, List.mem_filter] at known ⊢
        tauto
      rcases past.run (taken :: rest) with ⟨last, silent⟩
      rw [silent, List.append_nil, ← List.filter_congr agree]
      refine .ends last.ended ?_
      rw [filter_not_congr agree]
      exact last.forgotten

/-- The lasting listeners, to whom a publishing that begins now has to go. -/
def invited (topic : Topic α) : List Nat := topic.listeners.filterMap Listener.lasting?

/-- How many one-shot receivers are there, to be served when a publishing begins. -/
def expectant (topic : Topic α) : Nat :=
  (topic.shots.filter fun entry => .once entry.1 ∈ topic.listeners).length

theorem mem_filterMap_once {listeners : List Listener} {id : Nat} :
    id ∈ listeners.filterMap Listener.once? ↔ .once id ∈ listeners := by
  rw [List.mem_filterMap]
  constructor
  · rintro ⟨other | other, member, same⟩
    · cases same
    · exact Option.some.inj same ▸ member
  · exact fun member => ⟨_, member, rfl⟩

theorem opening_eq (topic : Topic α) (value : α) :
    topic.opening value = ⟨topic.nextTicket, value, topic.invited, topic.expectant, []⟩ := by
  simp only [opening, fire, mem_filterMap_once]
  rfl

/-- What becomes of a publishing from its beginning on. -/
theorem Orderly.fares_from (orderly : topic.Orderly) (settled : topic.Settled) (value : α)
    (later : List (Step α)) :
    Fares (reached topic.nextTicket (topic.moments (.publish value :: later)))
      (topic.opening value) (topic.run (.publish value :: later)).2
      (returnedBy topic.nextTicket (topic.returns (.publish value :: later))) := by
  rcases step_acts orderly settled (.publish value) with ⟨acts, still⟩
  rcases topic.step_frame (.publish value) with ⟨-, nextId, nextTicket⟩
  have begun := orderly.opened value
  have member := topic.opening_mem_opened value
  have fares := Fares.run acts.orderly still (orderly.fares_publish settled value)
    (begun.rest_nodup member) (by rw [nextTicket]; exact Nat.lt_succ_self _)
    (fun id owed => Nat.lt_of_lt_of_le (begun.rest_old _ member id owed) nextId) later
  rw [returns, returnedBy_append]
  exact fares

end Topic
end Bus
end Ventilation
