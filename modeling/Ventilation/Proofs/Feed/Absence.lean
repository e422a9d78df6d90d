import Ventilation.Broker.Bridge
import Ventilation.Proofs.Server.Posting
import Mathlib.Data.List.Basic
import Mathlib.Data.List.Induction

namespace Ventilation

namespace ArbiterEvent

def request? : ArbiterEvent → Option Bus.Request
  | .request asked => some asked
  | _ => none

/-- The request for an interlock, if the event is one. -/
def lock? : ArbiterEvent → Option Bus.LockRequest
  | .lock asked => some asked
  | _ => none

end ArbiterEvent

namespace Feed

/-!
# The feeds as a matter of history

What the relay puts before the arbiter follows from the calls that it has had,
without any look at the tracker.  Reports of the laser cutter are passed on as
they come.  A report that the space is empty begins an absence, unless the space
was last reported empty anyway, and the absence goes on until somebody is
reported.  Everything is shut once in an absence, by the first call that comes
no earlier than `autoOff` after its beginning.

The calls may come at any instants, in whatever order.  The proof compares the
tracker with the history after each call: `Tells` is kept by one call, and so by
all of them.
-/

open Bus (Hub LockRequest Request)

/-- What the relay is called for. -/
inductive Call
  | report (event : Event) (now : Instant)
  /-- A deadline may be reached. -/
  | deadline (now : Instant)
  deriving DecidableEq, Repr

namespace Call

def now : Call → Instant
  | report _ now => now
  | deadline now => now

/-- What the relay turns to for the call. -/
def branch : Call → Relay.Branch
  | report _ _ => .report
  | deadline _ => .deadline

/-- Whether somebody is in the space, if this is what is reported. -/
def present? : Call → Option Bool
  | report (.presence present) _ => some present
  | _ => none

/-- The interlock change that a report of the laser cutter leads to. -/
def lock? : Call → Option LockRequest
  | report (.laser inUse) _ => some ⟨.laser, inUse, .local, none⟩
  | _ => none

/-- Whether the call finds that a deadline is reached. -/
def reaches (deadline : Instant) : Call → Bool
  | .deadline now => deadline ≤ now
  | _ => false

end Call

def closing : Request := ⟨State.shut, .local, none⟩

namespace Presence

/-- Answer a call: what is put before the arbiter, and the tracker afterwards. -/
def answer? (tracker : Presence) : Call → Option (List ArbiterEvent × Presence)
  | .report event now =>
    (handle? tracker event now).map fun (demanded, next) => (eventsOf demanded, next)
  | .deadline now =>
    let (demanded, next) := atDeadline tracker now
    some (eventsOf demanded, next)

/-- Answer one call after another; each has its own list of what is put before the
arbiter. -/
def answerAll? (tracker : Presence) : List Call → Option (List (List ArbiterEvent) × Presence)
  | [] => some ([], tracker)
  | call :: rest => do
    let (posted, next) ← tracker.answer? call
    let (later, last) ← next.answerAll? rest
    return (posted :: later, last)

end Presence

/-! ## What the history says -/

/-- What was reported last on presence. -/
def lastReport (calls : List Call) : Option Bool := (calls.filterMap Call.present?).getLast?

/-- An absence begins with a report among the calls.  The last report before it, if
there is one, was not that the space is empty. -/
def AbsentSince (calls before : List Call) (since : Instant) (later : List Call) : Prop :=
  calls = before ++ .report (.presence false) since :: later ∧ lastReport before ≠ some false

/-- The absence that goes on leads to this deadline, and no call has reached it. -/
def PendingUntil (autoOff : Span) (calls : List Call) (deadline : Instant) : Prop :=
  ∃ before since later, AbsentSince calls before since later ∧ deadline = since + autoOff ∧
    ∀ call ∈ later, call.present? ≠ some true ∧ call.reaches deadline = false

/-- The call is the first in an absence to reach its deadline. -/
def Closes (autoOff : Span) (past : List Call) (call : Call) : Prop :=
  ∃ deadline, PendingUntil autoOff past deadline ∧ call.reaches deadline = true

/-- The clock can hold the deadline of every absence. -/
def Named (autoOff : Span) (calls : List Call) : Prop :=
  ∀ before since later, AbsentSince calls before since later → since + autoOff < Instant.limit

section History

variable {autoOff : Span} {calls before later : List Call} {last : Call}
  {since deadline : Instant}

theorem lastReport_concat :
    lastReport (calls ++ [last]) = last.present?.or (lastReport calls) := by
  unfold lastReport
  rw [List.filterMap_append, List.getLast?_append]
  cases reported : last.present? with
  | none => simp [reported]
  | some present => simp [reported]

theorem not_pendingUntil_nil : ¬ PendingUntil autoOff [] deadline := by
  rintro ⟨before, since, later, ⟨split, -⟩, -⟩
  simp at split

/-- How one more call changes what the history says of a deadline. -/
theorem pendingUntil_concat_iff :
    PendingUntil autoOff (calls ++ [last]) deadline ↔
      (∃ since, last = .report (.presence false) since ∧ lastReport calls ≠ some false ∧
        deadline = since + autoOff) ∨
      (PendingUntil autoOff calls deadline ∧ last.present? ≠ some true ∧
        last.reaches deadline = false) := by
  constructor
  · rintro ⟨before, since, later, ⟨split, vacated⟩, counted, still⟩
    rcases List.eq_nil_or_concat' later with rfl | ⟨earlier, final, rfl⟩
    · rcases List.append_inj' split rfl with ⟨rfl, same⟩
      exact .inl ⟨since, by simpa using same, vacated, counted⟩
    · rw [← List.cons_append, ← List.append_assoc] at split
      rcases List.append_inj' split rfl with ⟨rfl, same⟩
      obtain rfl : last = final := by simpa using same
      refine .inr ⟨⟨before, since, earlier, ⟨rfl, vacated⟩, counted, ?_⟩, still last (by simp)⟩
      exact fun call among => still call (List.mem_append_left _ among)
  · rintro (⟨since, rfl, vacated, counted⟩ |
      ⟨⟨before, since, later, ⟨rfl, vacated⟩, counted, still⟩, stays⟩)
    · exact ⟨calls, since, [], ⟨rfl, vacated⟩, counted, by simp⟩
    · refine ⟨before, since, later ++ [last], ⟨by simp, vacated⟩, counted, ?_⟩
      intro call among
      rcases List.mem_append.mp among with among | among
      · exact still call among
      · exact List.mem_singleton.mp among ▸ stays

/-- A deadline is pending only while the space was last reported empty. -/
theorem PendingUntil.lastReport_eq (pending : PendingUntil autoOff calls deadline) :
    lastReport calls = some false := by
  induction calls using List.reverseRecOn with
  | nil => exact absurd pending not_pendingUntil_nil
  | append_singleton calls last inductionHypothesis =>
    rw [lastReport_concat]
    rcases pendingUntil_concat_iff.mp pending with ⟨since, rfl, -⟩ | ⟨pending, stays, -⟩
    · rfl
    · rw [inductionHypothesis pending]
      rcases reported : last.present? with - | - | -
      · rfl
      · rfl
      · exact absurd reported stays

theorem absentSince_append (absent : AbsentSince calls before since later) (more : List Call) :
    AbsentSince (calls ++ more) before since (later ++ more) := by
  refine ⟨?_, absent.2⟩
  rw [absent.1, List.append_assoc, List.cons_append]

end History

/-! ## One call -/

/-- The tracker knows what the history says. -/
structure Tells (autoOff : Span) (past : List Call) (tracker : Presence) : Prop where
  autoOff_eq : tracker.autoOff = autoOff
  present_eq : tracker.present = lastReport past
  deadline_iff : ∀ deadline,
    tracker.deadline = some deadline ↔ PendingUntil autoOff past deadline

/-- What the history asks for at a call: everything is to be shut if the call is the
first to reach the deadline of an absence, otherwise only reports of the laser
cutter lead to something. -/
def Follows (autoOff : Span) (past : List Call) (call : Call) (posted : List ArbiterEvent) :
    Prop :=
  (Closes autoOff past call → posted = [.request closing]) ∧
    (¬ Closes autoOff past call → posted = (call.lock?.map ArbiterEvent.lock).toList)

section Answer

variable {autoOff : Span} {past : List Call} {call : Call} {tracker next : Presence}
  {posted : List ArbiterEvent} {now : Instant}

/-- The space is reported empty again, and nothing changes. -/
theorem answer?_empty_again (empty : tracker.present = some false) :
    tracker.answer? (.report (.presence false) now) = some ([], tracker) := by
  simp [Presence.answer?, handle?, Presence.report?, empty, eventsOf]

/-- The space is reported empty, and its deadline is set if the clock can hold it. -/
theorem answer?_empty (vacated : tracker.present ≠ some false) :
    tracker.answer? (.report (.presence false) now) =
      (now.after? tracker.autoOff).map fun deadline =>
        ([], { tracker with present := some false, deadline := some deadline }) := by
  simp only [Presence.answer?, handle?, Presence.report?, Bool.false_eq_true, if_false, vacated,
    Option.map_map]
  rfl

/-- A deadline that is reached leads to one request. -/
theorem answer?_deadline_due (due : Instant.due tracker.deadline now = true)
    (empty : tracker.present = some false) :
    tracker.answer? (.deadline now) =
      some ([.request closing], { tracker with deadline := none }) := by
  simp [Presence.answer?, atDeadline, Presence.expire, due, empty, eventsOf, closing]

theorem answer?_deadline_early (early : Instant.due tracker.deadline now = false) :
    tracker.answer? (.deadline now) = some ([], tracker) := by
  simp [Presence.answer?, atDeadline, Presence.expire, early, eventsOf]

theorem Tells.start (autoOff : Span) : Tells autoOff [] (.start autoOff) where
  autoOff_eq := rfl
  present_eq := rfl
  deadline_iff _ := iff_of_false nofun not_pendingUntil_nil

/-- A call reaches the deadline of the tracker if it is the one to close. -/
theorem Tells.due_iff (tells : Tells autoOff past tracker) :
    Instant.due tracker.deadline now = true ↔ Closes autoOff past (.deadline now) := by
  simp only [Closes, ← tells.deadline_iff, Call.reaches, Instant.due]
  cases tracker.deadline <;> simp

/-- While a deadline is set, the space was last reported empty. -/
theorem Tells.present_of_due (tells : Tells autoOff past tracker)
    (due : Instant.due tracker.deadline now = true) : tracker.present = some false := by
  rcases tells.due_iff.mp due with ⟨deadline, pending, -⟩
  rw [tells.present_eq, pending.lastReport_eq]

/-- A call of which the history asks nothing but a change of the tracker. -/
theorem Tells.of_concat (tells : Tells autoOff past tracker)
    (same : next.autoOff = tracker.autoOff)
    (reported : next.present = call.present?.or tracker.present)
    (deadline : ∀ deadline, next.deadline = some deadline ↔
      (∃ since, call = .report (.presence false) since ∧ tracker.present ≠ some false ∧
        deadline = since + autoOff) ∨
      (tracker.deadline = some deadline ∧ call.present? ≠ some true ∧
        call.reaches deadline = false)) :
    Tells autoOff (past ++ [call]) next where
  autoOff_eq := same.trans tells.autoOff_eq
  present_eq := by rw [reported, lastReport_concat, tells.present_eq]
  deadline_iff due := by
    rw [deadline, pendingUntil_concat_iff, tells.deadline_iff, tells.present_eq]

/-- Every call leaves a tracker that knows what the history says, and puts what the
history asks for. -/
theorem Tells.answer (tells : Tells autoOff past tracker)
    (answered : tracker.answer? call = some (posted, next)) :
    Tells autoOff (past ++ [call]) next ∧ Follows autoOff past call posted := by
  rcases call with ⟨inUse | - | -, now⟩ | now
  · cases answered
    exact ⟨tells.of_concat rfl rfl fun deadline => by simp [Call.present?, Call.reaches],
      by simp [Closes, Call.reaches], fun _ => rfl⟩
  · by_cases empty : tracker.present = some false
    · cases (answer?_empty_again empty).symm.trans answered
      refine ⟨tells.of_concat rfl (empty ▸ rfl) fun deadline => ?_, by simp [Closes, Call.reaches],
        fun _ => rfl⟩
      simp [Call.present?, Call.reaches, empty]
    · rw [answer?_empty empty, Option.map_eq_some_iff] at answered
      rcases answered with ⟨deadline, named, same⟩
      cases same
      rcases Instant.after?_eq_some named with rfl
      have unset : tracker.deadline = none := by
        rw [Option.eq_none_iff_forall_ne_some]
        intro pending here
        exact empty (tells.present_eq.trans ((tells.deadline_iff _).mp here).lastReport_eq)
      refine ⟨tells.of_concat rfl rfl fun deadline => ?_, by simp [Closes, Call.reaches],
        fun _ => rfl⟩
      simp [unset, empty, tells.autoOff_eq, @eq_comm _ deadline]
  · cases answered
    exact ⟨tells.of_concat rfl rfl fun deadline => by simp [Call.present?, Call.reaches],
      by simp [Closes, Call.reaches], fun _ => rfl⟩
  · cases due : Instant.due tracker.deadline now with
    | false =>
      cases (answer?_deadline_early due).symm.trans answered
      have apart : ¬ Closes autoOff past (.deadline now) := by simp [← tells.due_iff, due]
      refine ⟨tells.of_concat rfl rfl fun deadline => ?_, fun closes => absurd closes apart,
        fun _ => rfl⟩
      have early : tracker.deadline = some deadline → now < deadline := by
        intro pending
        simpa [pending, Instant.due] using due
      simpa [Call.present?, Call.reaches] using early
    | true =>
      cases (answer?_deadline_due due (tells.present_of_due due)).symm.trans answered
      refine ⟨tells.of_concat rfl rfl fun deadline => ?_, fun _ => rfl,
        fun apart => absurd (tells.due_iff.mp due) apart⟩
      have reached : tracker.deadline = some deadline → deadline ≤ now := by
        intro pending
        simpa [pending, Instant.due] using due
      simpa [Call.present?, Call.reaches] using reached

/-- A call is answered if the clock can hold the deadline of an absence that begins. -/
theorem Tells.exists_answer (tells : Tells autoOff past tracker)
    (named : Named autoOff (past ++ [call])) :
    ∃ posted next, tracker.answer? call = some (posted, next) := by
  rcases call with ⟨inUse | - | -, now⟩ | now
  · exact ⟨_, _, rfl⟩
  · by_cases empty : tracker.present = some false
    · exact ⟨_, _, answer?_empty_again empty⟩
    · have held : now + tracker.autoOff < Instant.limit := by
        rw [tells.autoOff_eq]
        exact named past now [] ⟨rfl, tells.present_eq ▸ empty⟩
      rw [answer?_empty empty, Instant.after?, if_pos held]
      exact ⟨_, _, rfl⟩
  · exact ⟨_, _, rfl⟩
  · exact ⟨_, _, rfl⟩

end Answer

/-! ## All calls -/

section Calls

variable {autoOff : Span} {past calls : List Call} {call : Call}
  {tracker next last : Presence} {posted : List ArbiterEvent} {posts : List (List ArbiterEvent)}

theorem answerAll?_cons_eq_some_iff {rest : List Call} :
    tracker.answerAll? (call :: rest) = some (posts, last) ↔
      ∃ posted next later, tracker.answer? call = some (posted, next) ∧
        next.answerAll? rest = some (later, last) ∧ posts = posted :: later := by
  simp only [Presence.answerAll?, Option.bind_eq_bind, Option.bind_eq_some_iff, Option.pure_def,
    Option.some.injEq, Prod.mk.injEq, Prod.exists]
  constructor
  · rintro ⟨posted, next, answered, later, final, rest, rfl, rfl⟩
    exact ⟨posted, next, later, answered, rest, rfl⟩
  · rintro ⟨posted, next, later, answered, rest, rfl⟩
    exact ⟨posted, next, answered, later, last, rest, rfl, rfl⟩

theorem answerAll?_append_eq_some_iff {before later : List Call} :
    tracker.answerAll? (before ++ later) = some (posts, last) ↔
      ∃ early next late, tracker.answerAll? before = some (early, next) ∧
        next.answerAll? later = some (late, last) ∧ posts = early ++ late := by
  induction before generalizing tracker posts with
  | nil => simp [Presence.answerAll?]
  | cons call before inductionHypothesis =>
    simp only [List.cons_append, answerAll?_cons_eq_some_iff, inductionHypothesis]
    constructor
    · rintro ⟨posted, next, -, answered, ⟨early, middle, late, begun, ended, rfl⟩, rfl⟩
      exact ⟨posted :: early, middle, late, ⟨posted, next, early, answered, begun, rfl⟩, ended, rfl⟩
    · rintro ⟨-, middle, late, ⟨posted, next, early, answered, begun, rfl⟩, ended, rfl⟩
      exact ⟨posted, next, early ++ late, answered, ⟨early, middle, late, begun, ended, rfl⟩, rfl⟩

theorem length_answerAll? (answered : tracker.answerAll? calls = some (posts, last)) :
    posts.length = calls.length := by
  induction calls generalizing tracker posts with
  | nil =>
    cases answered
    rfl
  | cons call calls inductionHypothesis =>
    rcases answerAll?_cons_eq_some_iff.mp answered with ⟨posted, next, later, -, rest, rfl⟩
    exact congrArg Nat.succ (inductionHypothesis rest)

/-- The calls leave a tracker that knows what the history says. -/
theorem Tells.answerAll (tells : Tells autoOff past tracker)
    (answered : tracker.answerAll? calls = some (posts, last)) :
    Tells autoOff (past ++ calls) last := by
  induction calls generalizing past tracker posts with
  | nil =>
    cases answered
    rwa [List.append_nil]
  | cons call calls inductionHypothesis =>
    rcases answerAll?_cons_eq_some_iff.mp answered with ⟨posted, next, later, first, rest, rfl⟩
    rw [List.append_cons]
    exact inductionHypothesis (tells.answer first).1 rest

/-- Each call puts what the history before it asks for. -/
theorem Tells.follows {before later : List Call} (tells : Tells autoOff [] tracker)
    (answered : tracker.answerAll? (before ++ call :: later) = some (posts, last)) :
    ∃ posted, posts[before.length]? = some posted ∧ Follows autoOff before call posted := by
  rcases answerAll?_append_eq_some_iff.mp answered with ⟨early, middle, _, begun, ended, rfl⟩
  rcases answerAll?_cons_eq_some_iff.mp ended with ⟨posted, next, late, first, -, rfl⟩
  refine ⟨posted, ?_, ((tells.answerAll begun).answer first).2⟩
  rw [← length_answerAll? begun, List.getElem?_append_right (Nat.le_refl _), Nat.sub_self]
  rfl

/-- The calls are answered if the clock can hold the deadlines of all absences. -/
theorem exists_answerAll (named : Named autoOff calls) :
    ∃ posts last, (Presence.start autoOff).answerAll? calls = some (posts, last) := by
  induction calls using List.reverseRecOn with
  | nil => exact ⟨[], _, rfl⟩
  | append_singleton calls call inductionHypothesis =>
    obtain ⟨posts, last, answered⟩ := inductionHypothesis fun before since later absent =>
      named before since _ (absentSince_append absent [call])
    rcases ((Tells.start autoOff).answerAll answered).exists_answer named with ⟨posted, next, first⟩
    exact ⟨posts ++ [posted], next, answerAll?_append_eq_some_iff.mpr
      ⟨posts, last, [posted], answered, answerAll?_cons_eq_some_iff.mpr
        ⟨posted, next, [], first, rfl, rfl⟩, rfl⟩⟩

/-! ## What is put altogether -/

theorem answer?_locks (answered : tracker.answer? call = some (posted, next)) :
    posted.filterMap ArbiterEvent.lock? = call.lock?.toList := by
  rcases call with ⟨inUse | present, now⟩ | now
  · cases answered
    rfl
  · simp only [Presence.answer?, handle?, Option.map_map, Option.map_eq_some_iff] at answered
    rcases answered with ⟨reported, -, same⟩
    cases same
    rfl
  · simp only [Presence.answer?, Option.some.injEq, Prod.mk.injEq] at answered
    rw [← answered.1]
    unfold atDeadline
    split <;> rfl

/-- The interlock changes are those of the laser cutter, in their order. -/
theorem answerAll?_locks (answered : tracker.answerAll? calls = some (posts, last)) :
    posts.flatten.filterMap ArbiterEvent.lock? = calls.filterMap Call.lock? := by
  induction calls generalizing tracker posts with
  | nil =>
    cases answered
    rfl
  | cons call calls inductionHypothesis =>
    rcases answerAll?_cons_eq_some_iff.mp answered with ⟨posted, next, later, first, rest, rfl⟩
    rw [List.flatten_cons, List.filterMap_append, answer?_locks first, inductionHypothesis rest]
    cases passed : call.lock? <;> simp [passed]

/-- As long as the space stays empty, everything is shut once if a call reaches the
deadline, and never without a deadline. -/
theorem answerAll?_requests (empty : tracker.present = some false)
    (stays : ∀ call ∈ calls, call.present? ≠ some true)
    (answered : tracker.answerAll? calls = some (posts, last)) :
    posts.flatten.filterMap ArbiterEvent.request? =
      if calls.any (fun call => tracker.deadline.elim false call.reaches) then [closing]
      else [] := by
  induction calls generalizing tracker posts with
  | nil =>
    cases answered
    rfl
  | cons call calls inductionHypothesis =>
    rcases answerAll?_cons_eq_some_iff.mp answered with ⟨posted, next, later, first, rest, rfl⟩
    rcases List.forall_mem_cons.mp stays with ⟨stay, remain⟩
    rw [List.flatten_cons, List.filterMap_append, List.any_cons]
    rcases call with ⟨inUse | - | -, now⟩ | now
    · cases first
      rw [inductionHypothesis empty remain rest]
      cases tracker.deadline <;> rfl
    · cases (answer?_empty_again empty).symm.trans first
      rw [inductionHypothesis empty remain rest]
      cases tracker.deadline <;> rfl
    · exact absurd rfl stay
    · have reaches : tracker.deadline.elim false (Call.deadline now).reaches =
          Instant.due tracker.deadline now := by
        cases tracker.deadline <;> rfl
      rw [reaches]
      cases due : Instant.due tracker.deadline now with
      | false =>
        cases (answer?_deadline_early due).symm.trans first
        rw [inductionHypothesis empty remain rest, Bool.false_or]
        rfl
      | true =>
        cases (answer?_deadline_due due empty).symm.trans first
        -- The deadline is gone, so the rest of the absence asks for nothing.
        have nothing : later.flatten.filterMap ArbiterEvent.request? = [] := by
          rw [@inductionHypothesis { tracker with deadline := none } _ empty remain rest]
          simp
        rw [nothing]
        rfl

/-- In an absence everything is shut once if a call reaches its deadline. -/
theorem requests_of_absentSince {before within rest : List Call} {since : Instant}
    (answered : (Presence.start autoOff).answerAll? calls = some (posts, last))
    (absent : AbsentSince calls before since (within ++ rest))
    (stays : ∀ call ∈ within, call.present? ≠ some true) :
    ((posts.drop (before.length + 1)).take within.length).flatten.filterMap
        ArbiterEvent.request? =
      if within.any (Call.reaches (since + autoOff)) then [closing] else [] := by
  rcases absent with ⟨rfl, vacated⟩
  rw [List.append_cons] at answered
  rcases answerAll?_append_eq_some_iff.mp answered with ⟨early, tracker, late, begun, ended, rfl⟩
  rcases answerAll?_append_eq_some_iff.mp ended with ⟨during, _, _, inside, -, rfl⟩
  have many := length_answerAll? begun
  rw [List.length_append, List.length_singleton] at many
  rw [← many, List.drop_left, ← length_answerAll? inside, List.take_left]
  -- Right after the report the space is empty and the deadline is that of the report.
  have tells := (Tells.start autoOff).answerAll begun
  have pending : tracker.deadline = some (since + autoOff) :=
    (tells.deadline_iff _).mpr (pendingUntil_concat_iff.mpr (.inl ⟨since, rfl, vacated, rfl⟩))
  have empty : tracker.present = some false := by
    rw [tells.present_eq, List.nil_append, lastReport_concat]
    rfl
  rw [answerAll?_requests empty stays inside, pending]
  rfl

end Calls

/-! ## The relay at work -/

section Work

variable {autoOff : Span} {past : List Call} {call : Call} {tracker next : Presence}
  {posted : List ArbiterEvent} {relay : Relay} {now : Instant}

/-- The relay has a reason for the call. -/
def Relay.Calls (relay : Relay) : Call → Prop
  | .report event _ => ∃ later, relay.inbox = event :: later
  | .deadline now => Instant.due relay.tracker.deadline now = true

/-- The relay puts on the hub what a call is answered with. -/
theorem relay_answers (calls : relay.Calls call)
    (answered : relay.tracker.answer? call = some (posted, next)) (hub : Hub) :
    ∃ after, relay.turn? call.now hub call.branch = some (after, (hub.postAll posted).2) ∧
      after.tracker = next := by
  cases call with
  | report event now =>
    rcases calls with ⟨later, inbox⟩
    rcases Option.map_eq_some_iff.mp answered with ⟨⟨demanded, reported⟩, handled, same⟩
    cases same
    exact Relay.turn_report hub inbox handled
  | deadline now =>
    cases answered
    exact Relay.turn_deadline hub calls

/-- The deadline of the tracker is gone once it has been reached, so the bridge does
not turn to it again before the next absence. -/
theorem Tells.bridge_rests (tells : Tells autoOff past tracker)
    (due : Instant.due tracker.deadline now = true) {bridge : Broker.Bridge}
    (same : bridge.tracker = tracker) (hub : Hub) (line : Broker.Line) :
    ∃ after, bridge.turn? now hub line .deadline =
        some (after, (hub.postAll [.request closing]).2, line, []) ∧
      after.tracker = { tracker with deadline := none } ∧
      ∀ later hub line, after.turn? later hub line .deadline = none := by
  have answered := answer?_deadline_due due (tells.present_of_due due)
  simp only [Presence.answer?, Option.some.injEq, Prod.mk.injEq] at answered
  rcases Broker.Bridge.turn_deadline hub (same ▸ due) line with ⟨after, turned, rests⟩
  rw [same, answered.1] at turned
  rw [same, answered.2] at rests
  refine ⟨after, turned, rests, fun later hub line => ?_⟩
  simp [Broker.Bridge.turn?, rests, Instant.due]

end Work

/-! ## The law of the feeds -/

/-- What the feeds lead to is a matter of history, whenever the calls come, as long
as the clock can hold the deadlines.  The interlock changes are those of the laser
cutter, in their order.  A deadline is set exactly as long as the absence that
goes on has not reached it, and it is that of the report with which the absence
began.  Each call puts what the history before it asks for, so everything is shut
once in every absence with a call that comes late enough, by the first such call,
and never otherwise.  To report an empty space again changes nothing.  A deadline
that is reached is gone after the call, and the bridge does not turn to it again.
The relay puts on the hub what its calls are answered with. -/
theorem feeds_follow_history (autoOff : Span) (calls : List Call)
    (named : Named autoOff calls) :
    ∃ posts tracker, (Presence.start autoOff).answerAll? calls = some (posts, tracker) ∧
      posts.flatten.filterMap ArbiterEvent.lock? = calls.filterMap Call.lock? ∧
      (∀ deadline, tracker.deadline = some deadline ↔ PendingUntil autoOff calls deadline) ∧
      (posts.length = calls.length ∧ ∀ past call later, calls = past ++ call :: later →
        ∃ posted, posts[past.length]? = some posted ∧ Follows autoOff past call posted) ∧
      (∀ before since within rest, AbsentSince calls before since (within ++ rest) →
        (∀ call ∈ within, call.present? ≠ some true) →
        ((posts.drop (before.length + 1)).take within.length).flatten.filterMap
            ArbiterEvent.request? =
          if within.any (Call.reaches (since + autoOff)) then [closing] else []) ∧
      (lastReport calls = some false → ∀ now,
        tracker.answer? (.report (.presence false) now) = some ([], tracker)) ∧
      (∀ now, Instant.due tracker.deadline now = true →
        ∀ bridge : Broker.Bridge, bridge.tracker = tracker → ∀ hub line,
          ∃ after, bridge.turn? now hub line .deadline =
              some (after, (hub.postAll [.request closing]).2, line, []) ∧
            after.tracker = { tracker with deadline := none } ∧
            ∀ later hub line, after.turn? later hub line .deadline = none) ∧
      ∀ relay : Relay, relay.tracker = tracker → ∀ call posted next, relay.Calls call →
        tracker.answer? call = some (posted, next) → ∀ hub,
          ∃ after, relay.turn? call.now hub call.branch = some (after, (hub.postAll posted).2) ∧
            after.tracker = next := by
  rcases exists_answerAll named with ⟨posts, tracker, answered⟩
  have tells : Tells autoOff calls tracker := (Tells.start autoOff).answerAll answered
  refine ⟨posts, tracker, answered, answerAll?_locks answered, tells.deadline_iff,
    ⟨length_answerAll? answered, ?_⟩, ?_, ?_, ?_, ?_⟩
  · rintro past call later rfl
    exact (Tells.start autoOff).follows answered
  · intro before since within rest absent stays
    exact requests_of_absentSince answered absent stays
  · intro empty now
    exact answer?_empty_again (tells.present_eq.trans empty)
  · intro now due bridge same hub line
    exact tells.bridge_rests due same hub line
  · rintro relay rfl call posted next reason replied hub
    exact relay_answers reason replied hub

/-- Two absences with calls out of order: the space is empty since `5`, reported so
again at `8`, and everything is shut at `20`, not at `14` and not again at `40`.
After somebody came, it is empty since `30`, which the call at `39` does not reach. -/
theorem feeds_follow_history_out_of_order :
    ∃ posts tracker, (Presence.start 10).answerAll? [.report (.presence false) 5,
        .report (.laser true) 6, .report (.presence false) 8, .deadline 14, .deadline 20,
        .deadline 40, .report (.presence true) 41, .report (.presence false) 30,
        .deadline 39] = some (posts, tracker) ∧
      posts.flatten = [.lock ⟨.laser, true, .local, none⟩, .request closing] ∧
      posts[4]? = some [.request closing] ∧ tracker.deadline = some 40 := by
  obtain ⟨posts, tracker, answered, -, pending, ⟨-, follows⟩, -⟩ := feeds_follow_history 10
    [.report (.presence false) 5, .report (.laser true) 6, .report (.presence false) 8,
      .deadline 14, .deadline 20, .deadline 40, .report (.presence true) 41,
      .report (.presence false) 30, .deadline 39] (by
      rintro before since later ⟨split, -⟩
      have among : Call.report (.presence false) since ∈ before ++ _ :: later :=
        List.mem_append_cons_self
      rw [← split] at among
      simp only [List.mem_cons, Call.report.injEq, Event.presence.injEq, reduceCtorEq, true_and,
        List.not_mem_nil, or_false, false_or, false_and] at among
      rcases among with rfl | rfl | rfl <;> decide)
  have shut := (pending 40).mpr ⟨[.report (.presence false) 5, .report (.laser true) 6,
    .report (.presence false) 8, .deadline 14, .deadline 20, .deadline 40,
    .report (.presence true) 41], 30, [.deadline 39], ⟨rfl, by decide⟩, rfl, by decide⟩
  obtain ⟨posted, here, closes, -⟩ := follows [.report (.presence false) 5,
    .report (.laser true) 6, .report (.presence false) 8, .deadline 14] (.deadline 20) _ rfl
  have first : Closes 10 [.report (.presence false) 5, .report (.laser true) 6,
      .report (.presence false) 8, .deadline 14] (.deadline 20) :=
    ⟨15, ⟨[], 5, _, ⟨rfl, by decide⟩, rfl, by decide⟩, rfl⟩
  refine ⟨posts, tracker, answered, ?_, closes first ▸ here, shut⟩
  cases answered
  rfl

end Feed
end Ventilation
