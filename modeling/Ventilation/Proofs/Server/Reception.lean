import Ventilation.Client.Reader
import Ventilation.Proofs.Bus.Intake
import Ventilation.Proofs.Client.Wrapping
import Ventilation.Proofs.Script
import Ventilation.Proofs.Server.Chamber
import Ventilation.Proofs.Server.Ledger

namespace Ventilation
namespace Server

/-!
# In which order events are dealt with

The reception is the arbiter with the hub and its two queues of events.  Clients
and feeds publish, publishings that wait for room go on in any order, others
listen and anything happens to the rest of the hub.  The arbiter turns to any of
its branches that has something in it, and waits where an announcement has no
room.

Requests and interlocks are published at topics of their own and lie in queues
of their own.  Within a kind nobody is overtaken.  Between the kinds the arbiter
takes whichever queue it turns to first, so an event that lies in its queue when
one of the other kind is published may be dealt with after it.
-/

open Bus (Hub Intake LockRequest Request Topic)
open Bus.Topic (Elsewhere)

/-! ## Events and their publishings -/

/-- An event that is published for the arbiter, by its kind and its ticket. -/
inductive Post
  | request (ticket : Nat)
  | lock (ticket : Nat)
  deriving DecidableEq, Repr

namespace Post

/-- The event is being published or has been. -/
def Begun (hub : Hub) : Post → Prop
  | request ticket => ticket < hub.requests.nextTicket
  | lock ticket => ticket < hub.lockRequests.nextTicket

def Ended (hub : Hub) : Post → Prop
  | request ticket => hub.requests.Ended ticket
  | lock ticket => hub.lockRequests.Ended ticket

instance (hub : Hub) : (post : Post) → Decidable (post.Begun hub)
  | request ticket => inferInstanceAs (Decidable (ticket < hub.requests.nextTicket))
  | lock ticket => inferInstanceAs (Decidable (ticket < hub.lockRequests.nextTicket))

instance (hub : Hub) : (post : Post) → Decidable (post.Ended hub)
  | request ticket => inferInstanceAs (Decidable (hub.requests.Ended ticket))
  | lock ticket => inferInstanceAs (Decidable (hub.lockRequests.Ended ticket))

/-- Two events of one kind. -/
def Alike : Post → Post → Prop
  | request _, request _ => True
  | lock _, lock _ => True
  | _, _ => False

def request? : Post → Option Nat
  | request ticket => some ticket
  | lock _ => none

def lock? : Post → Option Nat
  | request _ => none
  | lock ticket => some ticket

theorem eq_of_request? {post : Post} {ticket : Nat} (named : post.request? = some ticket) :
    post = request ticket := by
  cases post with
  | request other => exact congrArg request (Option.some.inj named)
  | lock other => cases named

theorem eq_of_lock? {post : Post} {ticket : Nat} (named : post.lock? = some ticket) :
    post = lock ticket := by
  cases post with
  | request other => cases named
  | lock other => exact congrArg lock (Option.some.inj named)

end Post

/-- An event that the arbiter has been handed, and what it had been published
as; the expiry of interlocks is not published. -/
structure Dealing where
  post : Option Post
  now : Instant
  event : ArbiterEvent
  deriving DecidableEq, Repr

def Dealing.entry (dealing : Dealing) : Instant × ArbiterEvent := (dealing.now, dealing.event)

/-! ## The reception -/

/-- The arbiter and the hub, with the books of its two queues. -/
structure Reception where
  now : Instant
  hub : Hub
  arbiter : Arbiter
  requests : Intake Request
  locks : Intake LockRequest
  /-- What the arbiter has been handed, in order. -/
  dealt : List Dealing

namespace Reception

def start (lockTimeout : Span) (hub : Hub) : Reception :=
  let (arbiter, hub, _) := Arbiter.start lockTimeout hub
  ⟨0, hub, arbiter, .fresh, .fresh, []⟩

def asks (x : Reception) (request : Request) : Reception :=
  { x with
    hub := (x.hub.publishRequest request).2
    requests := x.requests.publish x.arbiter.requests x.hub.requests request }

def asksLock (x : Reception) (request : LockRequest) : Reception :=
  { x with
    hub := (x.hub.publishLockRequest request).2
    locks := x.locks.publish x.arbiter.lockRequests x.hub.lockRequests request }

/-- A publishing goes on. -/
def goesOn (x : Reception) (wait : Hub.Wait) : Reception :=
  { x with
    hub := (x.hub.proceed wait).2
    requests := match wait with
      | .request ticket => x.requests.resume x.arbiter.requests x.hub.requests ticket
      | _ => x.requests
    locks := match wait with
      | .lockRequest ticket => x.locks.resume x.arbiter.lockRequests x.hub.lockRequests ticket
      | _ => x.locks }

/-- The arbiter is handed what a branch has for it. -/
def hears (x : Reception) : Arbiter.Branch → Reception
  | .shutdown => x
  | .request =>
    match x.hub.requests.receive? x.arbiter.requests with
    | some (request, _) =>
      { x with
        requests := x.requests.take
        dealt := x.dealt ++ [⟨x.requests.line.head?.map .request, x.now, .request request⟩] }
    | none => x
  | .lock =>
    match x.hub.lockRequests.receive? x.arbiter.lockRequests with
    | some (request, _) =>
      { x with
        locks := x.locks.take
        dealt := x.dealt ++ [⟨x.locks.line.head?.map .lock, x.now, .lock request⟩] }
    | none => x
  | .deadline => { x with dealt := x.dealt ++ [⟨none, x.now, .deadline⟩] }

/-- What can happen without the arbiter. -/
inductive Around (x : Reception) : Reception → Prop
  | asks (request : Request) : Around x (x.asks request)
  | asksLock (request : LockRequest) : Around x (x.asksLock request)
  | goesOn (wait : Hub.Wait) : Around x (x.goesOn wait)
  | listens {requests : Topic Request}
      (elsewhere : Elsewhere x.arbiter.requests x.hub.requests requests) :
      Around x { x with hub := { x.hub with requests := requests } }
  | listensLock {requests : Topic LockRequest}
      (elsewhere : Elsewhere x.arbiter.lockRequests x.hub.lockRequests requests) :
      Around x { x with hub := { x.hub with lockRequests := requests } }
  | stirs {hub : Hub} (requests : hub.requests = x.hub.requests)
      (lockRequests : hub.lockRequests = x.hub.lockRequests) : Around x { x with hub := hub }

inductive Move (x : Reception) : Reception → Prop
  | passes {later : Instant} (after : x.now ≤ later) : Move x { x with now := later }
  | around {y : Reception} (around : x.Around y) : Move x y
  | turns {branch : Arbiter.Branch} {arbiter : Arbiter} {hub : Hub} {log : List LogLine}
      (waiting : x.arbiter.phase = .waiting)
      (turned : x.arbiter.turn? x.now x.hub branch = some (arbiter, hub, log)) :
      Move x { x.hears branch with arbiter := arbiter, hub := hub }
  | announces {wait : Hub.Wait} {client : Option Nat} {arbiter : Arbiter} {hub : Hub}
      {log : List LogLine} (announcing : x.arbiter.phase = .announcing wait client)
      (stepped : x.arbiter.step? x.now x.hub = some (arbiter, hub, log)) :
      Move x { x with arbiter := arbiter, hub := hub }

def Leads : Reception → Reception → Prop := Relation.ReflTransGen Move

/-- What the arbiter has been handed, by tickets. -/
def handed (x : Reception) : List Post := x.dealt.filterMap (·.post)

def cases (x : Reception) (lockTimeout : Span) : List Case :=
  (Arbitration.start lockTimeout).docket (x.dealt.map Dealing.entry)

/-- An event that has been handed over is what was published under its ticket. -/
def Carries (x : Reception) (dealing : Dealing) : Prop :=
  match dealing.event with
  | .request request =>
    ∃ ticket, dealing.post = some (.request ticket) ∧ (ticket, request) ∈ x.requests.asked
  | .lock request =>
    ∃ ticket, dealing.post = some (.lock ticket) ∧ (ticket, request) ∈ x.locks.asked
  | .deadline => dealing.post = none

/-- The arbiter has dealt with what was published, as it was handed over: with
one event after another, up to one at which it crashed. -/
structure Applied (x : Reception) (lockTimeout : Span) : Prop where
  carries : ∀ dealing ∈ x.dealt, x.Carries dealing
  whole : x.arbiter.phase = .crashed ∨
    (x.cases lockTimeout).map Case.entry = x.dealt.map Dealing.entry
  known : x.arbiter.arb = (Arbitration.start lockTimeout).closing (x.cases lockTimeout)

/-! ## What is kept -/

/-- The books are right, and the arbiter has been handed what was taken from the
queues. -/
structure Kept (x : Reception) (lockTimeout : Span) (hub : Hub) : Prop where
  requests : Intake.Fits x.arbiter.requests hub.requests.nextTicket x.hub.requests x.requests
  locks : Intake.Fits x.arbiter.lockRequests hub.lockRequests.nextTicket x.hub.lockRequests
    x.locks
  handed_requests : x.handed.filterMap Post.request? = x.requests.taken
  handed_locks : x.handed.filterMap Post.lock? = x.locks.taken
  announcing : ∀ wait client, x.arbiter.phase = .announcing wait client →
    ∃ ticket, wait = .state ticket
  applied : x.Applied lockTimeout

/-- Each of the two queues goes through one step, and the arbiter listens where
it has listened. -/
structure Steps (x y : Reception) : Prop where
  requests_eq : y.arbiter.requests = x.arbiter.requests
  locks_eq : y.arbiter.lockRequests = x.arbiter.lockRequests
  requests : Intake.Step x.arbiter.requests x.hub.requests x.requests y.hub.requests y.requests
  locks : Intake.Step x.arbiter.lockRequests x.hub.lockRequests x.locks y.hub.lockRequests y.locks

variable {x y : Reception} {lockTimeout : Span} {hub : Hub}

theorem kept_start (requests : hub.requests.Listed) (lockRequests : hub.lockRequests.Listed) :
    Kept (start lockTimeout hub) lockTimeout hub where
  requests := .fresh requests
  locks := .fresh lockRequests
  handed_requests := rfl
  handed_locks := rfl
  announcing := by
    intro wait client announcing
    cases announcing
  applied := by
    have nothing : (start lockTimeout hub).cases lockTimeout = [] := by
      simp [cases, start, Arbitration.docket]
    refine ⟨fun dealing member => absurd member List.not_mem_nil, .inr ?_, ?_⟩
    · rw [nothing]
      rfl
    · rw [nothing]
      rfl

/-! ### Without the arbiter -/

/-- What happens without the arbiter concerns its queues only. -/
theorem Around.frame (around : x.Around y) :
    y.now = x.now ∧ y.arbiter = x.arbiter ∧ y.dealt = x.dealt ∧
      y.requests.taken = x.requests.taken ∧ y.locks.taken = x.locks.taken := by
  cases around with
  | asks request => exact ⟨rfl, rfl, rfl, Intake.taken_enter _ _ _ _ _, rfl⟩
  | asksLock request => exact ⟨rfl, rfl, rfl, rfl, Intake.taken_enter _ _ _ _ _⟩
  | goesOn wait =>
    cases wait with
    | request ticket => exact ⟨rfl, rfl, rfl, Intake.taken_enter _ _ _ _ _, rfl⟩
    | lockRequest ticket => exact ⟨rfl, rfl, rfl, rfl, Intake.taken_enter _ _ _ _ _⟩
    | state | broadcast | snapshot => exact ⟨rfl, rfl, rfl, rfl, rfl⟩
  | listens | listensLock | stirs => exact ⟨rfl, rfl, rfl, rfl, rfl⟩

theorem Around.steps (around : x.Around y) : x.Steps y := by
  cases around with
  | asks request => exact ⟨rfl, rfl, .publish request, .still⟩
  | asksLock request => exact ⟨rfl, rfl, .still, .publish request⟩
  | goesOn wait =>
    cases wait with
    | request ticket => exact ⟨rfl, rfl, .resume ticket, .still⟩
    | lockRequest ticket => exact ⟨rfl, rfl, .still, .resume ticket⟩
    | state | broadcast | snapshot => exact ⟨rfl, rfl, .still, .still⟩
  | listens elsewhere => exact ⟨rfl, rfl, .elsewhere elsewhere, .still⟩
  | listensLock elsewhere => exact ⟨rfl, rfl, .still, .elsewhere elsewhere⟩
  | stirs requests lockRequests =>
    refine ⟨rfl, rfl, ?_, ?_⟩
    · simp only [requests]
      exact .still
    · simp only [lockRequests]
      exact .still

/-- What has been handed over is still known, as long as nothing is forgotten. -/
theorem Carries.mono {dealing : Dealing} (carries : x.Carries dealing)
    (requests : x.requests.asked ⊆ y.requests.asked) (locks : x.locks.asked ⊆ y.locks.asked) :
    y.Carries dealing := by
  unfold Carries at carries ⊢
  split at carries
  · rcases carries with ⟨ticket, posted, asked⟩
    exact ⟨ticket, posted, requests asked⟩
  · rcases carries with ⟨ticket, posted, asked⟩
    exact ⟨ticket, posted, locks asked⟩
  · exact carries

theorem Applied.rest (applied : x.Applied lockTimeout) (dealt : y.dealt = x.dealt)
    (arb : y.arbiter.arb = x.arbiter.arb)
    (crashed : x.arbiter.phase = .crashed → y.arbiter.phase = .crashed)
    (requests : x.requests.asked ⊆ y.requests.asked) (locks : x.locks.asked ⊆ y.locks.asked) :
    y.Applied lockTimeout := by
  have same : y.cases lockTimeout = x.cases lockTimeout := by rw [cases, dealt, cases]
  refine ⟨fun dealing member => ?_, ?_, ?_⟩
  · rw [dealt] at member
    exact (applied.carries dealing member).mono requests locks
  · rw [same, dealt]
    exact applied.whole.imp_left crashed
  · rw [same, arb]
    exact applied.known

/-- The queues keep their books, whatever else is known. -/
theorem Kept.carry (kept : x.Kept lockTimeout hub) (steps : x.Steps y)
    (handed_requests : y.handed.filterMap Post.request? = y.requests.taken)
    (handed_locks : y.handed.filterMap Post.lock? = y.locks.taken)
    (announcing : ∀ wait client, y.arbiter.phase = .announcing wait client →
      ∃ ticket, wait = .state ticket)
    (applied : y.Applied lockTimeout) : y.Kept lockTimeout hub where
  requests := steps.requests_eq ▸ kept.requests.step steps.requests
  locks := steps.locks_eq ▸ kept.locks.step steps.locks
  handed_requests := handed_requests
  handed_locks := handed_locks
  announcing := announcing
  applied := applied

theorem Kept.around (kept : x.Kept lockTimeout hub) (around : x.Around y) :
    y.Kept lockTimeout hub := by
  rcases around.frame with ⟨-, arbiter, dealt, requests, locks⟩
  have steps := around.steps
  have handed : y.handed = x.handed := by rw [Reception.handed, dealt, Reception.handed]
  refine kept.carry steps ?_ ?_ ?_ ?_
  · rw [handed, requests]
    exact kept.handed_requests
  · rw [handed, locks]
    exact kept.handed_locks
  · rw [arbiter]
    exact kept.announcing
  · exact kept.applied.rest dealt (congrArg _ arbiter) (fun crashed => arbiter ▸ crashed)
      steps.requests.asked_subset steps.locks.asked_subset

/-! ### The arbiter -/

section Deals

variable {arbiter : Arbiter} {taken next : Hub} {log : List LogLine} {dealing : Dealing}

/-- The arbiter deals with one event more. -/
theorem Applied.deals (applied : x.Applied lockTimeout) (waiting : x.arbiter.phase = .waiting)
    (dealt : x.arbiter.deal dealing.now taken dealing.event = (arbiter, next, log))
    (same : y.arbiter = arbiter) (more : y.dealt = x.dealt ++ [dealing])
    (carries : y.Carries dealing)
    (requests : x.requests.asked ⊆ y.requests.asked) (locks : x.locks.asked ⊆ y.locks.asked) :
    y.Applied lockTimeout := by
  have whole : (x.cases lockTimeout).map Case.entry = x.dealt.map Dealing.entry :=
    applied.whole.resolve_left fun crashed => by cases waiting.symm.trans crashed
  have entries : y.dealt.map Dealing.entry =
      x.dealt.map Dealing.entry ++ [(dealing.now, dealing.event)] := by
    rw [more, List.map_append, List.map_singleton, Dealing.entry]
  have carried : ∀ other ∈ y.dealt, y.Carries other := by
    intro other member
    rw [more] at member
    rcases List.mem_append.mp member with before | last
    · exact (applied.carries other before).mono requests locks
    · exact List.mem_singleton.mp last ▸ carries
  have known := applied.known
  cases judged : x.arbiter.arb.judge dealing.now dealing.event with
  | none =>
    rw [deal_of_unjudged judged, Prod.mk.injEq] at dealt
    rw [← dealt.1] at same
    have cases_eq : y.cases lockTimeout = x.cases lockTimeout := by
      rw [cases, entries, cases]
      exact Arbitration.docket_concat_of_unjudged (known ▸ judged)
    refine ⟨carried, .inl (by rw [same]), ?_⟩
    rw [cases_eq, same]
    exact known
  | some verdict =>
    rcases Arbitration.docket_concat whole (known ▸ judged) with ⟨case, docketed, entry, ruling⟩
    have cases_eq : y.cases lockTimeout = x.cases lockTimeout ++ [case] := by
      rw [cases, entries]
      exact docketed
    have closes : (Arbitration.start lockTimeout).closing (y.cases lockTimeout) = verdict.arb := by
      rw [cases_eq, Arbitration.closing_concat, ruling]
    have listed : (y.cases lockTimeout).map Case.entry = y.dealt.map Dealing.entry := by
      rw [cases_eq, List.map_append, List.map_singleton, entry, whole, entries]
    refine ⟨carried, .inr listed, ?_⟩
    rw [closes, same]
    cases rules_of_deal judged dealt <;> rfl

/-- What the arbiter waits for after an event is the publishing of a state. -/
theorem announcing_of_deal (waiting : x.arbiter.phase = .waiting)
    (dealt : x.arbiter.deal dealing.now taken dealing.event = (arbiter, next, log))
    (wait : Hub.Wait) (client : Option Nat) (announcing : arbiter.phase = .announcing wait client) :
    ∃ ticket, wait = .state ticket := by
  cases judged : x.arbiter.arb.judge dealing.now dealing.event with
  | none =>
    rw [deal_of_unjudged judged, Prod.mk.injEq] at dealt
    rw [← dealt.1] at announcing
    cases announcing
  | some verdict =>
    cases rules_of_deal judged dealt with
    | silent nothing quiet => cases waiting.symm.trans announcing
    | speaks announces published =>
      simp only [waiting] at announcing
      split at announcing
      · cases announcing
      · cases announcing
        exact ⟨_, rfl⟩

/-- What has been handed over with one event more. -/
theorem handed_concat (more : y.dealt = x.dealt ++ [dealing]) :
    y.handed = x.handed ++ dealing.post.toList := by
  unfold handed
  rw [more, List.filterMap_append]
  cases posted : dealing.post <;> simp [posted]

/-- The arbiter deals with an event that it has taken from its queues. -/
theorem Kept.deals (kept : x.Kept lockTimeout hub) (dealing : Dealing)
    (waiting : x.arbiter.phase = .waiting)
    (dealt : x.arbiter.deal dealing.now taken dealing.event = (arbiter, next, log))
    (same : y.arbiter = arbiter ∧ y.hub = next ∧ y.dealt = x.dealt ++ [dealing])
    (requests : Intake.Step x.arbiter.requests x.hub.requests x.requests taken.requests y.requests)
    (locks : Intake.Step x.arbiter.lockRequests x.hub.lockRequests x.locks taken.lockRequests
      y.locks)
    (requests_taken : y.requests.taken =
      x.requests.taken ++ dealing.post.toList.filterMap Post.request?)
    (locks_taken : y.locks.taken = x.locks.taken ++ dealing.post.toList.filterMap Post.lock?)
    (carries : y.Carries dealing) : x.Steps y ∧ y.Kept lockTimeout hub := by
  rcases same with ⟨same, hub_eq, more⟩
  have deals := deal_deals x.arbiter dealing.now taken dealing.event
  rw [dealt] at deals
  have steps : x.Steps y := by
    refine ⟨?_, ?_, ?_, ?_⟩
    · rw [same, deals.listens.1]
    · rw [same, deals.listens.2]
    · rw [hub_eq, deals.requests_eq]
      exact requests
    · rw [hub_eq, deals.lockRequests_eq]
      exact locks
  refine ⟨steps, kept.carry steps ?_ ?_ ?_ ?_⟩
  · rw [handed_concat more, List.filterMap_append, kept.handed_requests, requests_taken]
  · rw [handed_concat more, List.filterMap_append, kept.handed_locks, locks_taken]
  · rw [same]
    exact announcing_of_deal waiting dealt
  · exact kept.applied.deals waiting dealt same more carries requests.asked_subset
      locks.asked_subset

end Deals

namespace Kept

theorem turns (kept : x.Kept lockTimeout hub) {branch : Arbiter.Branch} {arbiter : Arbiter}
    {next : Hub} {log : List LogLine} (waiting : x.arbiter.phase = .waiting)
    (turned : x.arbiter.turn? x.now x.hub branch = some (arbiter, next, log)) :
    x.Steps { x.hears branch with arbiter := arbiter, hub := next } ∧
      Kept { x.hears branch with arbiter := arbiter, hub := next } lockTimeout hub := by
  have nothing : ∀ taken : List Nat, taken = taken ++ [] :=
    fun taken => (List.append_nil taken).symm
  cases branch with
  | shutdown =>
    simp only [Arbiter.turn?, Option.bind_eq_bind, Option.bind_eq_some_iff, Option.pure_def,
      Option.some.injEq, Prod.mk.injEq] at turned
    rcases turned with ⟨closed, taken, rfl, rfl, -⟩
    have quiet := Undisturbed.takeShutdown? taken
    have steps : x.Steps { x with
        arbiter := { x.arbiter with phase := .ended }
        hub := { closed with
          requests := closed.requests.unsubscribe x.arbiter.requests
          lockRequests := closed.lockRequests.unsubscribe x.arbiter.lockRequests } } := by
      refine ⟨rfl, rfl, ?_, ?_⟩
      · simp only [quiet.requests_eq]
        exact .leave
      · simp only [quiet.lockRequests_eq]
        exact .leave
    refine ⟨steps, kept.carry steps kept.handed_requests kept.handed_locks ?_ ?_⟩
    · intro wait client announcing
      cases announcing
    · refine kept.applied.rest rfl rfl (fun crashed => ?_) (List.Subset.refl _) (List.Subset.refl _)
      cases waiting.symm.trans crashed
  | request =>
    simp only [Arbiter.turn?, Option.bind_eq_bind, Option.bind_eq_some_iff, Option.pure_def,
      Option.some.injEq] at turned
    rcases turned with ⟨⟨request, topic⟩, received, dealt⟩
    rcases kept.requests.received received with ⟨ticket, rest, line, asked⟩
    simp only [hears, received, line, List.head?_cons, Option.map_some]
    refine kept.deals ⟨some (.request ticket), x.now, .request request⟩ waiting dealt
      ⟨rfl, rfl, rfl⟩ (.take received) .still ?_ (nothing _) ⟨ticket, rfl, asked⟩
    simp only [Intake.take, line]
    rfl
  | lock =>
    simp only [Arbiter.turn?, Option.bind_eq_bind, Option.bind_eq_some_iff, Option.pure_def,
      Option.some.injEq] at turned
    rcases turned with ⟨⟨request, topic⟩, received, dealt⟩
    rcases kept.locks.received received with ⟨ticket, rest, line, asked⟩
    simp only [hears, received, line, List.head?_cons, Option.map_some]
    refine kept.deals ⟨some (.lock ticket), x.now, .lock request⟩ waiting dealt
      ⟨rfl, rfl, rfl⟩ .still (.take received) (nothing _) ?_ ⟨ticket, rfl, asked⟩
    simp only [Intake.take, line]
    rfl
  | deadline =>
    simp only [Arbiter.turn?, Option.ite_none_right_eq_some, Option.some.injEq] at turned
    exact kept.deals ⟨none, x.now, .deadline⟩ waiting turned.2 ⟨rfl, rfl, rfl⟩ .still .still
      (nothing _) (nothing _) rfl

theorem announces (kept : x.Kept lockTimeout hub) {wait : Hub.Wait} {client : Option Nat}
    {arbiter : Arbiter} {next : Hub} {log : List LogLine}
    (announcing : x.arbiter.phase = .announcing wait client)
    (stepped : x.arbiter.step? x.now x.hub = some (arbiter, next, log)) :
    x.Steps { x with arbiter := arbiter, hub := next } ∧
      Kept { x with arbiter := arbiter, hub := next } lockTimeout hub := by
  rcases kept.announcing wait client announcing with ⟨ticket, rfl⟩
  have queues : next.requests = x.hub.requests ∧ next.lockRequests = x.hub.lockRequests := by
    simp only [Arbiter.step?, announcing, Option.ite_none_right_eq_some] at stepped
    rcases stepped with ⟨-, stepped⟩
    split at stepped
    · next proceeded =>
      simp only [Hub.proceed, Prod.mk.injEq] at proceeded
      simp only [Option.some.injEq, Prod.mk.injEq] at stepped
      rcases stepped with ⟨-, rfl, -⟩
      have quiet := Undisturbed.release
      rw [(quiet _ client).requests_eq, (quiet _ client).lockRequests_eq, ← proceeded.2]
      exact ⟨rfl, rfl⟩
    · next proceeded =>
      simp only [Hub.proceed, Prod.mk.injEq] at proceeded
      simp only [Option.some.injEq, Prod.mk.injEq] at stepped
      rcases stepped with ⟨-, rfl, -⟩
      rw [← proceeded.2]
      exact ⟨rfl, rfl⟩
  rcases arbiter_goesOn announcing stepped with ⟨-, rfl⟩
  have steps : x.Steps { x with
      arbiter := { x.arbiter with
        phase := if ((x.hub.states.resume ticket).2.publishing? ticket).isNone then .waiting
          else .announcing (.state ticket) client }
      hub := next } := by
    refine ⟨rfl, rfl, ?_, ?_⟩
    · simp only [queues.1]
      exact .still
    · simp only [queues.2]
      exact .still
  refine ⟨steps, kept.carry steps kept.handed_requests kept.handed_locks ?_ ?_⟩
  · intro other sender goes
    simp only at goes
    split at goes
    · cases goes
    · cases goes
      exact ⟨ticket, rfl⟩
  · refine kept.applied.rest rfl rfl (fun crashed => ?_) (List.Subset.refl _) (List.Subset.refl _)
    cases announcing.symm.trans crashed

theorem move (kept : x.Kept lockTimeout hub) (move : x.Move y) :
    x.Steps y ∧ y.Kept lockTimeout hub := by
  cases move with
  | passes after =>
    exact ⟨⟨rfl, rfl, .still, .still⟩, { kept with applied := { kept.applied with } }⟩
  | around around => exact ⟨around.steps, kept.around around⟩
  | turns waiting turned => exact kept.turns waiting turned
  | announces announcing stepped => exact kept.announces announcing stepped

theorem leads (kept : x.Kept lockTimeout hub) (leads : Leads x y) : y.Kept lockTimeout hub := by
  induction leads with
  | refl => exact kept
  | tail _ move inductionHypothesis => exact (inductionHypothesis.move move).2

theorem begun (kept : x.Kept lockTimeout hub) : ∀ post ∈ x.handed, post.Begun x.hub := by
  intro post member
  cases post with
  | request ticket =>
    have taken : ticket ∈ x.handed.filterMap Post.request? :=
      List.mem_filterMap.mpr ⟨_, member, rfl⟩
    rw [kept.handed_requests] at taken
    exact kept.requests.begun ticket (List.mem_append_left _ taken)
  | lock ticket =>
    have taken : ticket ∈ x.handed.filterMap Post.lock? := List.mem_filterMap.mpr ⟨_, member, rfl⟩
    rw [kept.handed_locks] at taken
    exact kept.locks.begun ticket (List.mem_append_left _ taken)

end Kept

/-! ## Order -/

/-- What has been handed over stays so, and more comes after it. -/
theorem Move.dealt_grows (move : x.Move y) : x.dealt <+: y.dealt := by
  cases move with
  | passes | announces => exact List.prefix_refl _
  | around around => exact around.frame.2.2.1 ▸ List.prefix_refl _
  | @turns branch _ _ _ waiting turned =>
    cases branch with
    | shutdown => exact List.prefix_refl _
    | deadline => exact List.prefix_append _ _
    | request | lock =>
      simp only [hears]
      split
      · exact List.prefix_append _ _
      · exact List.prefix_refl _

theorem Leads.handed_grows (leads : Leads x y) : x.handed <+: y.handed := by
  have dealt : x.dealt <+: y.dealt := by
    induction leads with
    | refl => exact List.prefix_refl _
    | tail _ move inductionHypothesis => exact inductionHypothesis.trans move.dealt_grows
  exact dealt.filterMap _

/-- What the reception goes through, its queues go through. -/
theorem Kept.leads_intakes (kept : x.Kept lockTimeout hub) (leads : Leads x y) :
    Intake.Leads x.arbiter.requests (x.hub.requests, x.requests) (y.hub.requests, y.requests) ∧
      Intake.Leads x.arbiter.lockRequests (x.hub.lockRequests, x.locks)
        (y.hub.lockRequests, y.locks) := by
  have whole : (y.arbiter.requests = x.arbiter.requests ∧
      y.arbiter.lockRequests = x.arbiter.lockRequests) ∧
      Intake.Leads x.arbiter.requests (x.hub.requests, x.requests) (y.hub.requests, y.requests) ∧
      Intake.Leads x.arbiter.lockRequests (x.hub.lockRequests, x.locks)
        (y.hub.lockRequests, y.locks) := by
    induction leads with
    | refl => exact ⟨⟨rfl, rfl⟩, .refl, .refl⟩
    | tail before move inductionHypothesis =>
      rcases inductionHypothesis with ⟨⟨requests_eq, locks_eq⟩, requests, locks⟩
      have steps := ((kept.leads before).move move).1
      refine ⟨⟨steps.requests_eq.trans requests_eq, steps.locks_eq.trans locks_eq⟩, ?_, ?_⟩
      · exact requests.tail (requests_eq ▸ steps.requests)
      · exact locks.tail (locks_eq ▸ steps.locks)
  exact whole.2

/-- Events are dealt with in the order in which they were published.  If an
event had been published before the publishing of another began, and the arbiter
listened all the while, it is handed over before the other, if the two are of one
kind or it had been handed over by then.  What is handed over is what was
published, and the arbiter knows what comes of that, one after another. -/
theorem events_dealt_with_in_order (requests : hub.requests.Past)
    (lockRequests : hub.lockRequests.Past) (before : Leads (start lockTimeout hub) x)
    (after : Leads x y) {first second : Post} (new : ¬ first.Begun hub)
    (unbegun : ¬ second.Begun x.hub)
    (sure : (first.Ended x.hub ∧ first.Alike second) ∨ first ∈ x.handed) :
    Precedes first second y.handed ∧ y.Applied lockTimeout := by
  have kept := (@kept_start lockTimeout hub requests.listed lockRequests.listed).leads before
  refine ⟨?_, (kept.leads after).applied⟩
  rcases sure with ⟨ended, alike⟩ | handed
  · rcases kept.leads_intakes after with ⟨requestsLead, locksLead⟩
    cases first with
    | request ticket =>
      cases second with
      | lock other => exact alike.elim
      | request other =>
        have taken := Intake.Fits.precedes kept.requests requestsLead (Nat.le_of_not_lt new) ended
          (Nat.le_of_not_lt unbegun)
        rw [← (kept.leads after).handed_requests] at taken
        exact taken.of_filterMap rfl fun _ => Post.eq_of_request?
    | lock ticket =>
      cases second with
      | request other => exact alike.elim
      | lock other =>
        have taken := Intake.Fits.precedes kept.locks locksLead (Nat.le_of_not_lt new) ended
          (Nat.le_of_not_lt unbegun)
        rw [← (kept.leads after).handed_locks] at taken
        exact taken.of_filterMap rfl fun _ => Post.eq_of_lock?
  · exact precedes_of_grown after.handed_grows handed fun member =>
      unbegun (kept.begun second member)

/-! ## Who publishes -/

/-- Without the arbiter, the hub can come to this. -/
def Reaches (x : Reception) (hub : Hub) : Prop :=
  ∃ y, Relation.ReflTransGen Around x y ∧ y.hub = hub

theorem Reaches.refl (x : Reception) : x.Reaches x.hub := ⟨x, .refl, rfl⟩

/-- Whatever happens to the rest of the hub. -/
theorem reaches_of_eq (requests : hub.requests = x.hub.requests)
    (lockRequests : hub.lockRequests = x.hub.lockRequests) : x.Reaches hub :=
  ⟨_, .single (.stirs requests lockRequests), rfl⟩

/-- A client publishes changes of interlocks, up to the first that has to wait. -/
def asksLocks (x : Reception) (client : Nat) (origin : Origin) : List (Lock × Bool) → Reception
  | [] => x
  | (lock, active) :: rest =>
    let request : LockRequest := ⟨lock, active, origin, some client⟩
    if (x.hub.publishLockRequest request).1.isNone then
      (x.asksLock request).asksLocks client origin rest
    else x.asksLock request

/-- A client publishes what it asks for. -/
def utters (x : Reception) (client : Nat) (origin : Origin) : Client.Command → Reception
  | .change state => x.asks ⟨state, origin, some client⟩
  | .lock changes => x.asksLocks client origin changes

theorem around_asksLocks (x : Reception) (client : Nat) (origin : Origin)
    (changes : List (Lock × Bool)) :
    Relation.ReflTransGen Around x (x.asksLocks client origin changes) ∧
      (x.asksLocks client origin changes).hub =
        (Client.Reader.publishLocks client origin x.hub changes).2 := by
  induction changes generalizing x with
  | nil => exact ⟨.refl, rfl⟩
  | cons change rest inductionHypothesis =>
    rcases change with ⟨lock, active⟩
    have first : x.Around (x.asksLock ⟨lock, active, origin, some client⟩) := .asksLock _
    have later := inductionHypothesis (x.asksLock ⟨lock, active, origin, some client⟩)
    cases published : x.hub.publishLockRequest ⟨lock, active, origin, some client⟩ with
    | mk wait hub =>
      have same : (x.asksLock ⟨lock, active, origin, some client⟩).hub = hub :=
        congrArg Prod.snd published
      rw [same] at later
      simp only [asksLocks, Client.Reader.publishLocks, published]
      cases wait with
      | none => exact ⟨later.1.head first, later.2⟩
      | some wait => exact ⟨.single first, same⟩

/-- What a client says leads to what its reader publishes. -/
theorem around_utters (x : Reception) (client : Nat) (origin : Origin) (command : Client.Command) :
    Relation.ReflTransGen Around x (x.utters client origin command) ∧
      (x.utters client origin command).hub =
        (Client.Reader.publish client origin x.hub command).2 := by
  cases command with
  | change state => exact ⟨.single (.asks _), rfl⟩
  | lock changes => exact around_asksLocks x client origin changes

/-- A step of the reader of a client is among what can happen. -/
theorem reaches_of_reader {reader after : Client.Reader} {now : Instant} {finished : Bool}
    {handled : List Client.Handled}
    (stepped : reader.step? now finished x.hub = some (after, hub, handled)) : x.Reaches hub := by
  have stays : x.hub = hub → x.Reaches hub := fun same => same ▸ .refl x
  have leaves : ∀ other : Client.Reader, (other.leave x.hub).2.1 = hub → x.Reaches hub := by
    rintro other rfl
    exact reaches_of_eq rfl rfl
  cases phase : reader.phase with
  | gone => simp [Client.Reader.step?, phase] at stepped
  | waiting =>
    simp only [Client.Reader.step?, phase] at stepped
    split at stepped
    · exact leaves reader (congrArg (·.2.1) (Option.some.inj stepped))
    · split at stepped
      · next text inbox content =>
        replace stepped := congrArg (·.2.1) (Option.some.inj stepped)
        unfold Client.Reader.take at stepped
        split at stepped
        · exact stays stepped
        · next command understood =>
          rcases around_utters x reader.client reader.origin command with ⟨around, same⟩
          exact ⟨_, around, same.trans stepped⟩
      · exact stays (congrArg (·.2.1) (Option.some.inj stepped))
      · exact leaves reader (congrArg (·.2.1) (Option.some.inj stepped))
      · split at stepped
        · exact leaves reader (congrArg (·.2.1) (Option.some.inj stepped))
        · cases stepped
  | publishing wait rest =>
    simp only [Client.Reader.step?, phase, Option.ite_none_right_eq_some] at stepped
    rcases stepped with ⟨-, stepped⟩
    have first : x.Around (x.goesOn wait) := .goesOn wait
    split at stepped
    · next next proceeded =>
      rcases around_asksLocks (x.goesOn wait) reader.client reader.origin rest with ⟨around, same⟩
      have here : (x.goesOn wait).hub = next := congrArg Prod.snd proceeded
      rw [here] at same
      exact ⟨_, around.head first, same.trans (congrArg (·.2.1) (Option.some.inj stepped))⟩
    · next next proceeded =>
      have here : (x.goesOn wait).hub = next := congrArg Prod.snd proceeded
      exact ⟨_, .single first, here.trans (congrArg (·.2.1) (Option.some.inj stepped))⟩

/-- What the feeds demand is published like anything else. -/
theorem reaches_of_demand (x : Reception) (demanded : Option Feed.Demand) :
    x.Reaches (Feed.Relay.publish x.hub demanded).2 := by
  rcases demanded with - | (active | -)
  · exact .refl x
  · exact ⟨_, .single (.asksLock ⟨.laser, active, .local, none⟩), rfl⟩
  · exact ⟨_, .single (.asks ⟨State.shut, .local, none⟩), rfl⟩

theorem relay_demand_hub (relay : Feed.Relay) (hub : Hub) (demanded : Option Feed.Demand) :
    (relay.demand hub demanded).2 = (Feed.Relay.publish hub demanded).2 := by
  unfold Feed.Relay.demand
  split
  · next published => rw [published]
  · next published => rw [published]

theorem bridge_demand_hub (bridge : Broker.Bridge) (hub : Hub) (demanded : Option Feed.Demand) :
    (bridge.demand hub demanded).2 = (Feed.Relay.publish hub demanded).2 := by
  unfold Broker.Bridge.demand
  split
  · next published => rw [published]
  · next published => rw [published]

/-- A step of the relay is among what can happen. -/
theorem reaches_of_relay {relay after : Feed.Relay} {now : Instant}
    (stepped : relay.step? now x.hub = some (after, hub)) : x.Reaches hub := by
  have demands : ∀ (other : Feed.Relay) (demanded : Option Feed.Demand),
      (other.demand x.hub demanded).2 = hub → x.Reaches hub := by
    rintro other demanded rfl
    rw [relay_demand_hub]
    exact reaches_of_demand x demanded
  cases phase : relay.phase with
  | ended | crashed => simp [Feed.Relay.step?, phase] at stepped
  | publishing wait =>
    simp only [Feed.Relay.step?, phase, Option.ite_none_right_eq_some] at stepped
    rcases stepped with ⟨-, stepped⟩
    split at stepped
    all_goals
      next proceeded =>
        have here : (x.goesOn wait).hub = hub :=
          (congrArg Prod.snd proceeded).trans (congrArg Prod.snd (Option.some.inj stepped))
        exact ⟨_, .single (.goesOn wait), here⟩
  | waiting =>
    simp only [Feed.Relay.step?, phase] at stepped
    rcases List.exists_of_findSome?_eq_some stepped with ⟨branch, -, turned⟩
    cases branch with
    | shutdown =>
      simp only [Feed.Relay.turn?, Option.bind_eq_bind, Option.bind_eq_some_iff, Option.pure_def,
        Option.some.injEq, Prod.mk.injEq] at turned
      rcases turned with ⟨closed, taken, -, rfl⟩
      have quiet := Undisturbed.takeShutdown? taken
      exact reaches_of_eq quiet.requests_eq quiet.lockRequests_eq
    | report =>
      simp only [Feed.Relay.turn?] at turned
      split at turned
      · cases turned
      · split at turned
        · obtain rfl : x.hub = hub := congrArg Prod.snd (Option.some.inj turned)
          exact .refl x
        · exact demands _ _ (congrArg Prod.snd (Option.some.inj turned))
    | deadline =>
      simp only [Feed.Relay.turn?, Option.ite_none_right_eq_some] at turned
      exact demands _ _ (congrArg Prod.snd (Option.some.inj turned.2))

/-- A step of the bridge is among what can happen. -/
theorem reaches_of_bridge {bridge after : Broker.Bridge} {now : Instant} {line later : Broker.Line}
    {deeds : List Broker.Deed}
    (stepped : bridge.step? now x.hub line = some (after, hub, later, deeds)) : x.Reaches hub := by
  have demands : ∀ (other : Broker.Bridge) (demanded : Option Feed.Demand),
      (other.demand x.hub demanded).2 = hub → x.Reaches hub := by
    rintro other demanded rfl
    rw [bridge_demand_hub]
    exact reaches_of_demand x demanded
  cases phase : bridge.phase with
  | ended | crashed => simp [Broker.Bridge.step?, phase] at stepped
  | relaying wait =>
    simp only [Broker.Bridge.step?, phase, Option.ite_none_right_eq_some] at stepped
    rcases stepped with ⟨-, stepped⟩
    split at stepped
    all_goals
      next proceeded =>
        have here : (x.goesOn wait).hub = hub :=
          (congrArg Prod.snd proceeded).trans (congrArg (·.2.1) (Option.some.inj stepped))
        exact ⟨_, .single (.goesOn wait), here⟩
  | waiting =>
    simp only [Broker.Bridge.step?, phase] at stepped
    rcases List.exists_of_findSome?_eq_some stepped with ⟨branch, -, turned⟩
    cases branch with
    | shutdown =>
      simp only [Broker.Bridge.turn?, Option.bind_eq_bind, Option.bind_eq_some_iff, Option.pure_def,
        Option.some.injEq, Prod.mk.injEq] at turned
      rcases turned with ⟨closed, taken, -, rfl, -, -⟩
      have quiet := Undisturbed.takeShutdown? taken
      exact reaches_of_eq quiet.requests_eq quiet.lockRequests_eq
    | state =>
      simp only [Broker.Bridge.turn?, Option.bind_eq_bind, Option.bind_eq_some_iff, Option.pure_def,
        Option.some.injEq, Prod.mk.injEq] at turned
      rcases turned with ⟨received, -, -, rfl, -, -⟩
      exact reaches_of_eq rfl rfl
    | outcome =>
      simp only [Broker.Bridge.turn?, Option.ite_none_left_eq_some, Option.bind_eq_bind,
        Option.bind_eq_some_iff, Option.pure_def, Option.some.injEq, Prod.mk.injEq] at turned
      rcases turned with ⟨-, ⟨outcome, rest⟩, -, -, rfl, -, -⟩
      cases outcome with
      | accepted | other => exact .refl x
      | failed =>
        unfold Broker.Bridge.take
        simp only
        split <;> exact .refl x
      | message topic payload =>
        simp only [Broker.Bridge.take, Broker.Bridge.receive]
        split
        · split
          · rw [bridge_demand_hub]
            exact reaches_of_demand x _
          · exact .refl x
        · exact .refl x
    | retry =>
      simp only [Broker.Bridge.turn?, Option.ite_none_right_eq_some, Option.some.injEq,
        Prod.mk.injEq] at turned
      rcases turned with ⟨-, -, rfl, -, -⟩
      exact .refl x
    | deadline =>
      simp only [Broker.Bridge.turn?, Option.ite_none_right_eq_some, Option.some.injEq,
        Prod.mk.injEq] at turned
      rcases turned with ⟨-, -, same, -, -⟩
      exact demands _ _ same

/-! ## Scripts -/

inductive Turn
  | text (text : String)
  | branch (branch : Arbiter.Branch)

def act (x : Reception) : Turn → Option Reception
  | .text text =>
    match Client.Command.read text with
    | .ok command => some (x.utters 0 .local command)
    | .error _ => none
  | .branch branch =>
    if x.arbiter.phase = .waiting then
      (x.arbiter.turn? x.now x.hub branch).map fun (arbiter, hub, _) =>
        { x.hears branch with arbiter := arbiter, hub := hub }
    else none

theorem leads_of_around (around : Relation.ReflTransGen Around x y) : Leads x y :=
  Relation.ReflTransGen.mono (fun _ _ => Move.around) _ _ around

theorem leads_of_act {turn : Turn} (acted : x.act turn = some y) : Leads x y := by
  cases turn with
  | text text =>
    simp only [act] at acted
    split at acted
    · next command understood =>
      rcases Option.some.inj acted with rfl
      exact leads_of_around (around_utters x 0 .local command).1
    · cases acted
  | branch branch =>
    simp only [act, Option.ite_none_right_eq_some, Option.map_eq_some_iff] at acted
    rcases acted with ⟨waiting, ⟨arbiter, hub, log⟩, turned, rfl⟩
    exact .single (.turns waiting turned)

theorem leads_of_script {turns : List Turn} (played : turns.foldlM act x = some y) : Leads x y := by
  have steps : Relation.ReflTransGen (Relation.ReflTransGen Move) x y :=
    Script.reflTransGen leads_of_act played
  rwa [Relation.reflTransGen_eq_self] at steps

/-- What two scripts come to, one after the other, as far as it is looked at. -/
theorem exists_leads_of_scripts {β : Type} {first second : List Turn}
    {look : Reception → Reception → β} {seen : β}
    (told : ((first.foldlM act x).bind fun y => (second.foldlM act y).map (look y)) = some seen) :
    ∃ y z, Leads x y ∧ Leads y z ∧ look y z = seen := by
  rcases Option.bind_eq_some_iff.mp told with ⟨y, before, later⟩
  rcases Option.map_eq_some_iff.mp later with ⟨z, after, same⟩
  exact ⟨y, z, leads_of_script before, leads_of_script after, same⟩

/-- A client wants damper 1 and the fan so, and the other dampers closed. -/
def wants (damper fan : String) : Turn := .text (Client.wish damper fan "")

def locksLaser : Turn :=
  .text "\x7b\"ctx\":\"lockchange\",\"data\":\x7b\"LaserLock\":true\x7d\x7d"

/-- What there is to see of an order: whether the first event had been published
when the other had not begun, and then what has been handed over and which state
has been accepted. -/
def order (first second : Post) (x y : Reception) : Bool × List Post × Option State :=
  (decide (first.Ended x.hub) && !decide (second.Begun x.hub), y.handed, y.arbiter.arb.accepted)

theorem order_eq {first second : Post} {handed : List Post} {accepted : Option State}
    (seen : order first second x y = (true, handed, accepted)) :
    first.Ended x.hub ∧ ¬ second.Begun x.hub ∧ y.handed = handed ∧
      y.arbiter.arb.accepted = accepted := by
  simp only [order, Prod.mk.injEq, Bool.and_eq_true, decide_eq_true_eq, Bool.not_eq_true',
    decide_eq_false_iff_not] at seen
  exact ⟨seen.1.1, seen.1.2, seen.2.1, seen.2.2⟩

/-- Two requests lie in the queue with an interlock between them.  The arbiter
turns to the interlock first, and still takes the requests in their order. -/
theorem events_dealt_with_in_order_across_an_interlock :
    ∃ x y, Leads (start (Span.ofSeconds 1800) (Hub.empty 10)) x ∧ Leads x y ∧
      (Post.request 0).Ended x.hub ∧ ¬ (Post.request 1).Begun x.hub ∧
      Precedes (.request 0) (.request 1) y.handed ∧ y.Applied (Span.ofSeconds 1800) ∧
      y.handed = [.lock 0, .request 0, .request 1] ∧
      y.arbiter.arb.accepted = some ⟨.full, .closed, .closed, .on, ⟨true, false⟩⟩ := by
  have told : ((([wants "open" "on", locksLaser] : List Turn).foldlM act
      (start (Span.ofSeconds 1800) (Hub.empty 10))).bind fun x =>
        (([wants "closed" "off", .branch .lock, .branch .request, .branch .request] :
          List Turn).foldlM act x).map (order (.request 0) (.request 1) x)) =
      some (true, [.lock 0, .request 0, .request 1],
        some ⟨.full, .closed, .closed, .on, ⟨true, false⟩⟩) := by
    decide +kernel
  rcases exists_leads_of_scripts told with ⟨x, y, before, after, seen⟩
  rcases order_eq seen with ⟨ended, unbegun, handed, accepted⟩
  have held := @events_dealt_with_in_order x y (Span.ofSeconds 1800) (Hub.empty 10) (.empty 10)
    (.empty 10) before after (.request 0) (.request 1) (by decide) unbegun (.inl ⟨ended, trivial⟩)
  exact ⟨x, y, before, after, ended, unbegun, held.1, held.2, handed, accepted⟩

/-- Events of different kinds overtake each other.  A damper is open.  An
interlock that has been set before everything is wished shut is dealt with after
that, and does not keep the damper open; and a wish to shut everything that was
there before the interlock is refused because of it. -/
theorem kinds_overtake_each_other :
    (∃ x y, Leads (start (Span.ofSeconds 1800) (Hub.empty 10)) x ∧ Leads x y ∧
      (Post.lock 0).Ended x.hub ∧ ¬ (Post.request 1).Begun x.hub ∧
      y.handed = [.request 0, .request 1, .lock 0] ∧
      ¬ Precedes (.lock 0) (.request 1) y.handed ∧
      y.arbiter.arb.accepted = some .shut) ∧
    (∃ x y, Leads (start (Span.ofSeconds 1800) (Hub.empty 10)) x ∧ Leads x y ∧
      (Post.request 1).Ended x.hub ∧ ¬ (Post.lock 0).Begun x.hub ∧
      y.handed = [.request 0, .lock 0, .request 1] ∧
      ¬ Precedes (.request 1) (.lock 0) y.handed ∧
      y.arbiter.arb.accepted = some ⟨.full, .closed, .closed, .on, .none⟩) := by
  refine ⟨?_, ?_⟩
  · have told : ((([wants "open" "on", .branch .request, locksLaser] : List Turn).foldlM act
        (start (Span.ofSeconds 1800) (Hub.empty 10))).bind fun x =>
          (([wants "closed" "off", .branch .request, .branch .lock] :
            List Turn).foldlM act x).map (order (.lock 0) (.request 1) x)) =
        some (true, [.request 0, .request 1, .lock 0], some .shut) := by
      decide +kernel
    rcases exists_leads_of_scripts told with ⟨x, y, before, after, seen⟩
    rcases order_eq seen with ⟨ended, unbegun, handed, accepted⟩
    refine ⟨x, y, before, after, ended, unbegun, handed, fun precedes => ?_, accepted⟩
    exact absurd (precedes [.request 0] [.lock 0] handed) (by decide)
  · have told : ((([wants "open" "on", .branch .request, wants "closed" "off"] :
        List Turn).foldlM act (start (Span.ofSeconds 1800) (Hub.empty 10))).bind fun x =>
          (([locksLaser, .branch .lock, .branch .request] :
            List Turn).foldlM act x).map (order (.request 1) (.lock 0) x)) =
        some (true, [.request 0, .lock 0, .request 1],
          some ⟨.full, .closed, .closed, .on, .none⟩) := by
      decide +kernel
    rcases exists_leads_of_scripts told with ⟨x, y, before, after, seen⟩
    rcases order_eq seen with ⟨ended, unbegun, handed, accepted⟩
    refine ⟨x, y, before, after, ended, unbegun, handed, fun precedes => ?_, accepted⟩
    exact absurd (precedes [.request 0] [.request 1] handed) (by decide)

end Reception
end Server
end Ventilation
