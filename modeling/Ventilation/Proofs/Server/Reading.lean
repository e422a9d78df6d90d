import Ventilation.Proofs.Client.Contents
import Ventilation.Proofs.Script
import Ventilation.Proofs.Server.Posting

namespace Ventilation

/-!
# What one client is heard to say

The reader of a connection takes notice of one thing after another: of what comes
from the client, of its silence, and of the end of its session.  A reading is
such a reader with a record of what has come, what it has taken notice of, what
it has put before the arbiter, and what became of the texts.  Everybody else may
do with the hub whatever they like in between.

Main statement: what has been put, with what the text in hand still asks for, is
what the texts that were taken notice of ask for, one after another.  A text
that is not understood puts nothing, and the reader goes on as if a sign had come.
-/

open Bus (Hub)
open Client (Command Handled Inbound Reader ReaderPhase readLimit)

/-! ## Putting events -/

namespace Bus.Hub

/-- The events that are put, up to the first that has to wait for room. -/
def placed (hub : Hub) : List ArbiterEvent → List ArbiterEvent
  | [] => []
  | event :: rest =>
    match hub.post event with
    | (none, hub) => event :: hub.placed rest
    | (some _, _) => [event]

variable {hub : Hub} {events : List ArbiterEvent}

/-- What is not put follows an event that has to wait. -/
theorem placed_append (hub : Hub) (events : List ArbiterEvent) :
    hub.placed events ++ (hub.postAll events).1.elim [] Prod.snd = events := by
  induction events generalizing hub with
  | nil => rfl
  | cons event rest inductionHypothesis =>
    unfold placed postAll
    rcases hub.post event with ⟨- | wait, next⟩
    · exact congrArg (event :: ·) (inductionHypothesis next)
    · rfl

/-- The hub does not see anything of what is not put. -/
theorem postAll_placed (hub : Hub) (events : List ArbiterEvent) :
    (hub.postAll (hub.placed events)).2 = (hub.postAll events).2 := by
  induction events generalizing hub with
  | nil => rfl
  | cons event rest inductionHypothesis =>
    rw [placed, postAll]
    cases put : hub.post event with
    | mk wait next =>
      cases wait with
      | none =>
        simp only [postAll, put]
        exact inductionHypothesis next
      | some wait => simp only [postAll, put]

end Bus.Hub

/-- The lock changes of a text name the laser first, each interlock at most once and at
least one. -/
theorem Client.Command.ordered_of_lock {text : String} {changes : List (Lock × Bool)}
    (understood : Command.read text = .ok (.lock changes)) :
    changes ≠ [] ∧ (changes.map Prod.fst).Sublist [.laser, .olga] := by
  rcases exists_envelope_of_read understood with ⟨document, envelope, -, -, meant⟩
  rcases ofEnvelope_lock meant with ⟨-, filled, named⟩
  rcases read : Client.lockLayout.read Client.putLock ⟨none, none⟩ envelope.data with fault | draft
  · rw [Client.lockChanges, read] at named
    cases named
  · exact ⟨filled, (Client.mem_changes read named).1⟩

namespace Server

/-! ## What a reader takes notice of -/

/-- What a reader that waits takes notice of. -/
inductive Notice
  | inbound (come : Inbound)
  /-- Nothing at all has come for too long. -/
  | silence
  /-- The session of the client is over. -/
  | sessionOver
  deriving DecidableEq, Repr

namespace Notice

def events (client : Nat) (origin : Origin) : Notice → List ArbiterEvent
  | inbound (.text text) => Command.eventsOf client origin text
  | _ => []

/-- What comes from the client. -/
def inbound? : Notice → Option Inbound
  | inbound come => some come
  | _ => none

/-- What is to become of a text. -/
def handled? : Notice → Option Handled
  | inbound (.text text) => some ((Command.read text).map fun _ => ())
  | _ => none

/-- Whether the reader leaves. -/
def ends : Notice → Bool
  | inbound .farewell => true
  | silence => true
  | sessionOver => true
  | _ => false

theorem events_of_ends {notice : Notice} (last : notice.ends = true) (client : Nat)
    (origin : Origin) : notice.events client origin = [] := by
  unfold ends at last
  split at last
  · rfl
  · rfl
  · rfl
  · cases last

theorem handled?_of_ends {notice : Notice} (last : notice.ends = true) :
    notice.handled? = none := by
  unfold ends at last
  split at last
  · rfl
  · rfl
  · rfl
  · cases last

end Notice

end Server

namespace Client.Reader

open Server (Notice)

/-- What a reader that waits takes notice of now. -/
def notice? (reader : Reader) (now : Instant) (sessionOver : Bool) : Option Notice :=
  if sessionOver then some .sessionOver
  else match reader.inbox with
    | inbound :: _ => some (.inbound inbound)
    | [] => if Instant.due reader.patience now then some .silence else none

/-- What the text in hand asks for and is not put yet. -/
def outstanding (reader : Reader) : List ArbiterEvent :=
  match reader.phase with
  | .publishing _ rest => rest.map (Command.lockEvent reader.client reader.origin)
  | _ => []

/-- What is to become of the text in hand. -/
def unanswered (reader : Reader) : List Handled :=
  match reader.phase with
  | .publishing _ _ => [.ok ()]
  | _ => []

end Client.Reader

namespace Server

/-! ## Readings -/

/-- The reader of a client, what has come from the client, and what the reader has
made of it. -/
structure Reading where
  now : Instant
  hub : Hub
  reader : Reader
  come : List Inbound
  seen : List Notice
  posted : List ArbiterEvent
  handled : List Handled
  /-- When the reader last began to wait. -/
  since : Instant

namespace Reading

def start (client : Nat) (origin : Origin) (now : Instant) (hub : Hub) : Reading :=
  ⟨now, hub, .createImpatient client origin now, [], [], [], [], now⟩

inductive Turn
  /-- Something comes from the client. -/
  | comes (inbound : Inbound)
  | passes (later : Instant)
  /-- Others have done something with the hub. -/
  | shares (hub : Hub)
  /-- The reader goes on, and its session may be over. -/
  | reads (sessionOver : Bool)

/-- What the reader takes notice of in its next step, if it waits. -/
def notice? (x : Reading) (sessionOver : Bool) : Option Notice :=
  if x.reader.phase = .waiting then x.reader.notice? x.now sessionOver else none

/-- What the reader is to put in its next step, and the hub on which it puts that. -/
def asked (x : Reading) (sessionOver : Bool) : List ArbiterEvent × Hub :=
  match x.reader.phase with
  | .waiting =>
    ((x.notice? sessionOver).elim [] (Notice.events x.reader.client x.reader.origin), x.hub)
  | .publishing wait _ =>
    match x.hub.proceed wait with
    | (true, hub) => (x.reader.outstanding, hub)
    | (false, hub) => ([], hub)
  | .gone => ([], x.hub)

/-- The reader has taken a step. -/
def adopt (x : Reading) (sessionOver : Bool) (outcome : Reader × Hub × List Handled) : Reading :=
  { x with
    reader := outcome.1
    hub := outcome.2.1
    seen := x.seen ++ (x.notice? sessionOver).toList
    posted := x.posted ++ (x.asked sessionOver).2.placed (x.asked sessionOver).1
    handled := x.handled ++ outcome.2.2
    since := if outcome.1.phase = .waiting then x.now else x.since }

def act (x : Reading) : Turn → Option Reading
  | .comes inbound =>
    some { x with
      come := x.come ++ [inbound]
      reader := { x.reader with inbox := x.reader.inbox ++ [inbound] } }
  | .passes later => if x.now ≤ later then some { x with now := later } else none
  | .shares hub => some { x with hub := hub }
  | .reads sessionOver =>
    (x.reader.step? x.now sessionOver x.hub).map (x.adopt sessionOver)

def script (x : Reading) (turns : List Turn) : Option Reading := turns.foldlM act x

/-! ## One step of the reader -/

/-- What a step of the reader can come to. -/
inductive Reads (x : Reading) (finished : Bool) : Reading → Prop
  /-- The reader leaves. -/
  | leaves {notice : Notice} (waits : x.reader.phase = .waiting)
      (noticed : x.reader.notice? x.now finished = some notice) (ends : notice.ends = true) :
      Reads x finished
        { x with
          reader := { x.reader with phase := .gone }
          hub := x.hub.setMailbox x.reader.client fun mailbox =>
            { mailbox with connected := false }
          seen := x.seen ++ [notice] }
  /-- The client shows that it is there. -/
  | heeds {inbox : List Inbound} (waits : x.reader.phase = .waiting) (alive : finished = false)
      (next : x.reader.inbox = .sign :: inbox) :
      Reads x finished
        { x with
          reader := { x.reader with inbox := inbox }.await x.now
          seen := x.seen ++ [.inbound .sign]
          since := x.now }
  /-- A text is not understood. -/
  | ignores {text : String} {inbox : List Inbound} {fault : Client.MessageError}
      (waits : x.reader.phase = .waiting) (alive : finished = false)
      (next : x.reader.inbox = .text text :: inbox) (unread : Command.read text = .error fault) :
      Reads x finished
        { x with
          reader := { x.reader with inbox := inbox }.await x.now
          seen := x.seen ++ [.inbound (.text text)]
          handled := x.handled ++ [.error fault]
          since := x.now }
  /-- What a text asks for is put, up to the first event that has to wait. -/
  | asks {text : String} {inbox : List Inbound} {command : Command}
      {left : Option (Hub.Wait × List (Lock × Bool))} {hub : Hub}
      (waits : x.reader.phase = .waiting) (alive : finished = false)
      (next : x.reader.inbox = .text text :: inbox) (understood : Command.read text = .ok command)
      (published : Reader.publish x.reader.client x.reader.origin x.hub command = (left, hub)) :
      Reads x finished
        { x with
          reader := ({ x.reader with inbox := inbox }.after x.now left).1
          hub := hub
          seen := x.seen ++ [.inbound (.text text)]
          posted := x.posted ++
            x.hub.placed (command.events x.reader.client x.reader.origin)
          handled := x.handled ++ ({ x.reader with inbox := inbox }.after x.now left).2
          since := if left.isNone then x.now else x.since }
  /-- There was room for what had to wait, and the rest of the text follows. -/
  | goesOn {wait : Hub.Wait} {rest : List (Lock × Bool)} {hub next : Hub}
      {left : Option (Hub.Wait × List (Lock × Bool))}
      (publishes : x.reader.phase = .publishing wait rest)
      (room : x.hub.proceed wait = (true, hub))
      (published : Reader.publishLocks x.reader.client x.reader.origin hub rest = (left, next)) :
      Reads x finished
        { x with
          reader := (x.reader.after x.now left).1
          hub := next
          posted := x.posted ++
            hub.placed (rest.map (Command.lockEvent x.reader.client x.reader.origin))
          handled := x.handled ++ (x.reader.after x.now left).2
          since := if left.isNone then x.now else x.since }
  /-- There is room for some of what has to wait. -/
  | holds {wait : Hub.Wait} {rest : List (Lock × Bool)} {hub : Hub}
      (publishes : x.reader.phase = .publishing wait rest)
      (room : x.hub.proceed wait = (false, hub)) : Reads x finished { x with hub := hub }

section Steps

variable {x y : Reading} {finished : Bool}

/-- What is left to put is what follows the event that waits. -/
theorem outstanding_after (reader : Reader) (now : Instant)
    (left : Option (Hub.Wait × List (Lock × Bool))) :
    (reader.after now left).1.outstanding =
      (left.map (Prod.map id
        (List.map (Command.lockEvent reader.client reader.origin)))).elim [] Prod.snd := by
  cases left <;> rfl

/-- What a command asks for is put, or left to put. -/
theorem placed_command {reader : Reader} {hub next : Hub} {command : Command}
    {left : Option (Hub.Wait × List (Lock × Bool))}
    (published : Reader.publish reader.client reader.origin hub command = (left, next))
    (now : Instant) :
    hub.placed (command.events reader.client reader.origin) ++
        (reader.after now left).1.outstanding = command.events reader.client reader.origin ∧
      (hub.postAll (hub.placed (command.events reader.client reader.origin))).2 = next := by
  have puts := postAll_events reader.client reader.origin hub command
  rw [published] at puts
  have all := hub.placed_append (command.events reader.client reader.origin)
  rw [puts] at all
  rw [outstanding_after, Hub.postAll_placed, puts]
  exact ⟨all, rfl⟩

/-- What is left of a text is put, or still left to put. -/
theorem placed_rest {reader : Reader} {hub next : Hub} {rest : List (Lock × Bool)}
    {left : Option (Hub.Wait × List (Lock × Bool))}
    (published : Reader.publishLocks reader.client reader.origin hub rest = (left, next))
    (now : Instant) :
    hub.placed (rest.map (Command.lockEvent reader.client reader.origin)) ++
        (reader.after now left).1.outstanding =
          rest.map (Command.lockEvent reader.client reader.origin) ∧
      (hub.postAll (hub.placed (rest.map
        (Command.lockEvent reader.client reader.origin)))).2 = next :=
  @placed_command _ _ _ (.lock rest) _ published now

/-- A text is answered once everything that it asks for is put. -/
theorem answered_after (reader : Reader) (now : Instant)
    (left : Option (Hub.Wait × List (Lock × Bool))) :
    (reader.after now left).2 ++ (reader.after now left).1.unanswered = [.ok ()] := by
  cases left <;> rfl

/-- A reader does not leave because of what it puts. -/
theorem phase_after_ne_gone (reader : Reader) (now : Instant)
    (left : Option (Hub.Wait × List (Lock × Bool))) : (reader.after now left).1.phase ≠ .gone := by
  cases left <;> simp [Reader.after, Reader.await]

theorem fields_after (reader : Reader) (now : Instant)
    (left : Option (Hub.Wait × List (Lock × Bool))) :
    (reader.after now left).1.client = reader.client ∧
      (reader.after now left).1.origin = reader.origin ∧
      (reader.after now left).1.inbox = reader.inbox := by
  cases left <;> exact ⟨rfl, rfl, rfl⟩

/-- A reader has new patience once it waits. -/
theorem patience_after {reader : Reader} {since : Instant}
    (patience : reader.patience = some (since + readLimit)) (now : Instant)
    (left : Option (Hub.Wait × List (Lock × Bool))) :
    (reader.after now left).1.patience =
      some ((if left.isNone then now else since) + readLimit) := by
  cases left <;> simp [Reader.after, Reader.await, patience]

theorem phase_after (reader : Reader) (now : Instant)
    (left : Option (Hub.Wait × List (Lock × Bool))) :
    (reader.after now left).1.phase = .waiting ↔ left.isNone = true := by
  cases left <;> simp [Reader.after, Reader.await]

/-- A reader that waits takes a step when it takes notice of something. -/
theorem reads_of_waits (waits : x.reader.phase = .waiting)
    (impatient : x.reader.patience.isSome = true) (acted : x.act (.reads finished) = some y) :
    Reads x finished y := by
  rcases Option.map_eq_some_iff.mp acted with ⟨outcome, stepped, rfl⟩
  simp only [Reader.step?, waits, impatient, Bool.true_and] at stepped
  have left : ∀ {notice : Notice}, x.reader.notice? x.now finished = some notice →
      notice.ends = true → Reads x finished (x.adopt finished (x.reader.leave x.hub)) := by
    intro notice noticed ends
    have silent := Notice.events_of_ends ends x.reader.client x.reader.origin
    convert Reads.leaves waits noticed ends using 1
    simp [adopt, notice?, asked, waits, noticed, silent, Hub.placed, Reader.leave]
  cases finished with
  | true =>
    simp only [if_true, Option.some.injEq] at stepped
    subst stepped
    exact @left .sessionOver rfl rfl
  | false =>
    have noticed : ∀ {come later}, x.reader.inbox = come :: later →
        x.reader.notice? x.now false = some (.inbound come) := by
      intro come later inbox
      simp [Reader.notice?, inbox]
    simp only [Bool.false_eq_true, if_false] at stepped
    split at stepped
    · next text later inbox =>
      cases read : Command.read text with
      | error fault =>
        simp only [Reader.take, read, Option.some.injEq] at stepped
        subst stepped
        convert Reads.ignores waits rfl inbox read using 1
        simp [adopt, notice?, asked, waits, noticed inbox, Notice.events, Command.eventsOf, read,
          Hub.placed, Reader.await]
      | ok command =>
        rcases published : Reader.publish x.reader.client x.reader.origin x.hub command with
          ⟨rest, hub⟩
        simp only [Reader.take, read, published, Option.some.injEq] at stepped
        subst stepped
        convert Reads.asks waits rfl inbox read published using 1
        simp [adopt, notice?, asked, waits, noticed inbox, Notice.events, Command.eventsOf, read,
          phase_after]
    · next later inbox =>
      cases stepped
      convert Reads.heeds waits rfl inbox using 1
      simp [adopt, notice?, asked, waits, noticed inbox, Notice.events, Hub.placed, Reader.await]
    · next later inbox =>
      cases stepped
      exact left (noticed inbox) rfl
    · next inbox =>
      rcases Option.ite_none_right_eq_some.mp stepped with ⟨due, stepped⟩
      cases stepped
      refine @left .silence ?_ rfl
      simp [Reader.notice?, inbox, due]

/-- A reader that waits for room goes on with the text in hand. -/
theorem reads_of_publishes {wait : Hub.Wait} {rest : List (Lock × Bool)}
    (publishes : x.reader.phase = .publishing wait rest)
    (acted : x.act (.reads finished) = some y) : Reads x finished y := by
  rcases Option.map_eq_some_iff.mp acted with ⟨outcome, stepped, rfl⟩
  simp only [Reader.step?, publishes, Option.ite_none_right_eq_some] at stepped
  rcases stepped with ⟨-, stepped⟩
  split at stepped
  · next next room =>
    rcases published : Reader.publishLocks x.reader.client x.reader.origin next rest with
      ⟨left, final⟩
    simp only [published, Option.some.injEq] at stepped
    subst stepped
    convert Reads.goesOn publishes room published using 1
    simp [adopt, notice?, asked, publishes, room, phase_after, Reader.outstanding]
  · next next room =>
    cases stepped
    convert Reads.holds publishes room using 1
    simp [adopt, notice?, asked, publishes, room, Hub.placed]

theorem reads_of_act (impatient : x.reader.patience.isSome = true)
    (acted : x.act (.reads finished) = some y) : Reads x finished y := by
  rcases phase : x.reader.phase with - | ⟨wait, rest⟩ | -
  · exact reads_of_waits phase impatient acted
  · exact reads_of_publishes phase acted
  · simp [act, Reader.step?, phase] at acted

end Steps

/-! ## What every turn keeps -/

/-- The record is that of the connection. -/
structure Kept (client : Nat) (origin : Origin) (x : Reading) : Prop where
  client_eq : x.reader.client = client
  origin_eq : x.reader.origin = origin
  patience_eq : x.reader.patience = some (x.since + readLimit)
  posted_eq :
    x.posted ++ x.reader.outstanding = x.seen.flatMap (Notice.events client origin)
  handled_eq : x.handled ++ x.reader.unanswered = x.seen.filterMap Notice.handled?
  come_eq : ∃ left, x.come = x.seen.filterMap Notice.inbound? ++ left ∧
    (x.reader.phase ≠ .gone → left = x.reader.inbox)
  goes_on : x.reader.phase ≠ .gone → ∀ notice ∈ x.seen, notice.ends = false
  ended : x.reader.phase = .gone → ∃ before last, x.seen = before ++ [last] ∧
    last.ends = true ∧ ∀ notice ∈ before, notice.ends = false

section Keeping

variable {x y : Reading} {client : Nat} {origin : Origin} {finished : Bool}

theorem kept_start (client : Nat) (origin : Origin) (now : Instant) (hub : Hub) :
    Kept client origin (start client origin now hub) where
  client_eq := rfl
  origin_eq := rfl
  patience_eq := rfl
  posted_eq := rfl
  handled_eq := rfl
  come_eq := ⟨[], rfl, fun _ => rfl⟩
  goes_on _ := nofun
  ended := nofun

/-- What a reader takes notice of comes first in its inbox, if it comes from the client. -/
theorem inbox_of_notice? {reader : Reader} {now : Instant} {notice : Notice}
    (noticed : reader.notice? now finished = some notice) :
    ∃ later, reader.inbox = notice.inbound?.toList ++ later := by
  unfold Reader.notice? at noticed
  split at noticed
  · cases noticed
    exact ⟨_, rfl⟩
  · split at noticed
    · next come later inbox =>
      cases noticed
      exact ⟨later, inbox⟩
    · next inbox =>
      rcases Option.ite_none_right_eq_some.mp noticed with ⟨-, same⟩
      cases same
      exact ⟨_, rfl⟩

/-- A reader that waits has put everything and answered every text. -/
theorem Kept.of_waiting (kept : Kept client origin x) (waits : x.reader.phase = .waiting) :
    x.posted = x.seen.flatMap (Notice.events client origin) ∧
      x.handled = x.seen.filterMap Notice.handled? ∧
      x.come = x.seen.filterMap Notice.inbound? ++ x.reader.inbox ∧
      ∀ notice ∈ x.seen, notice.ends = false := by
  have here : x.reader.phase ≠ .gone := by simp [waits]
  rcases kept with ⟨-, -, -, posted, handled, ⟨left, come, waiting⟩, going, -⟩
  rcases waiting here with rfl
  simp only [Reader.outstanding, Reader.unanswered, waits, List.append_nil] at posted handled
  exact ⟨posted, handled, come, going here⟩

/-- A reader that waits takes what comes next.  What that asks for is put, or in hand. -/
theorem Kept.takes {come : Inbound} {inbox : List Inbound} (kept : Kept client origin x)
    (waits : x.reader.phase = .waiting) (next : x.reader.inbox = come :: inbox)
    (stays : (Notice.inbound come).ends = false) (seen : y.seen = x.seen ++ [.inbound come])
    (said : y.come = x.come)
    (fields : y.reader.client = x.reader.client ∧ y.reader.origin = x.reader.origin ∧
      y.reader.inbox = inbox)
    (patience : y.reader.patience = some (y.since + readLimit)) (here : y.reader.phase ≠ .gone)
    (posted : y.posted ++ y.reader.outstanding =
      x.posted ++ (Notice.inbound come).events x.reader.client x.reader.origin)
    (handled : y.handled ++ y.reader.unanswered =
      x.handled ++ (Notice.inbound come).handled?.toList) : Kept client origin y := by
  rcases kept.of_waiting waits with ⟨allPosted, allHandled, allCome, going⟩
  rcases fields with ⟨client_eq, origin_eq, inbox_eq⟩
  refine ⟨client_eq.trans kept.client_eq, origin_eq.trans kept.origin_eq, patience, ?_, ?_,
    ⟨inbox, ?_, fun _ => inbox_eq.symm⟩, fun _ => ?_, fun gone => absurd gone here⟩
  · rw [posted, seen, List.flatMap_append, allPosted, kept.client_eq, kept.origin_eq,
      List.flatMap_singleton]
  · rw [handled, seen, List.filterMap_append, allHandled]
    cases found : Notice.handled? _ <;> simp [found]
  · rw [said, seen, allCome, next, List.filterMap_append, List.append_assoc]
    rfl
  · rw [seen]
    exact List.forall_mem_append.mpr ⟨going, List.forall_mem_singleton.mpr stays⟩

theorem Kept.of_reads (read : Reads x finished y) (kept : Kept client origin x) :
    Kept client origin y := by
  have patient := kept.patience_eq
  cases read with
  | leaves waits noticed ends =>
    rcases kept.of_waiting waits with ⟨posted, handled, come, going⟩
    rcases inbox_of_notice? noticed with ⟨later, inbox⟩
    refine ⟨kept.client_eq, kept.origin_eq, patient, ?_, ?_, ⟨later, ?_, by simp⟩, by simp,
      fun _ => ⟨x.seen, _, rfl, ends, going⟩⟩
    · simp [Reader.outstanding, posted, Notice.events_of_ends ends]
    · simp [Reader.unanswered, handled, Notice.handled?_of_ends ends]
    · rw [come, inbox]
      cases found : Notice.inbound? _ <;> simp [found]
  | heeds waits alive next =>
    refine kept.takes waits next rfl rfl rfl ⟨rfl, rfl, rfl⟩ ?_ nofun rfl rfl
    simp [Reader.await, patient]
  | ignores waits alive next unread =>
    refine kept.takes waits next rfl rfl rfl ⟨rfl, rfl, rfl⟩ ?_ nofun ?_ ?_
    · simp [Reader.await, patient]
    · simp [Reader.outstanding, Reader.await, Notice.events, Command.eventsOf, unread]
    · simp [Reader.unanswered, Reader.await, Notice.handled?, unread, Except.map]
  | @asks text inbox command rest hub waits alive next understood published =>
    have puts := (@placed_command { x.reader with inbox := inbox } _ _ _ _ published x.now).1
    refine kept.takes waits next rfl rfl rfl (fields_after { x.reader with inbox := inbox } _ _)
      (@patience_after { x.reader with inbox := inbox } _ patient _ _)
      (phase_after_ne_gone _ _ _) ?_ ?_
    · rw [List.append_assoc, puts]
      simp [Notice.events, Command.eventsOf, understood]
    · rw [List.append_assoc, answered_after]
      simp [Notice.handled?, understood, Except.map]
  | @goesOn wait rest hub next others publishes room published =>
    -- The text in hand has been seen already, so only what is put and what is left change.
    have here : x.reader.phase ≠ .gone := by simp [publishes]
    rcases kept with ⟨rfl, rfl, -, posted, handled, ⟨left, come, waiting⟩, going, -⟩
    rcases waiting here with rfl
    simp only [Reader.outstanding, Reader.unanswered, publishes] at posted handled
    rcases fields_after x.reader x.now others with ⟨same, sameToo, untouched⟩
    refine ⟨same, sameToo, patience_after patient _ _, ?_, ?_, ⟨_, come, fun _ => untouched.symm⟩,
      fun _ => going here, fun gone => absurd gone (phase_after_ne_gone _ _ _)⟩
    · rw [List.append_assoc, (placed_rest published x.now).1, posted]
    · rw [List.append_assoc, answered_after, handled]
  | holds publishes room =>
    exact { kept with }

theorem Kept.act {turn : Turn} (acted : x.act turn = some y) (kept : Kept client origin x) :
    Kept client origin y := by
  cases turn with
  | comes inbound =>
    cases acted
    rcases kept.come_eq with ⟨left, come, waiting⟩
    refine { kept with come_eq := ⟨left ++ [inbound], ?_, fun here => ?_⟩ }
    · rw [come, List.append_assoc]
    · rw [waiting here]
  | passes later =>
    rcases Option.ite_none_right_eq_some.mp acted with ⟨-, same⟩
    cases same
    exact { kept with }
  | shares hub =>
    cases acted
    exact { kept with }
  | reads finished => exact kept.of_reads (reads_of_act (by simp [kept.patience_eq]) acted)

theorem kept_of_script {turns : List Turn} {now : Instant} {hub : Hub}
    (played : (start client origin now hub).script turns = some x) : Kept client origin x :=
  Script.kept (fun acted kept => Kept.act acted kept) played (kept_start client origin now hub)

/-- The client sends this event and is told if it is refused. -/
def Stamped (client : Nat) (origin : Origin) (event : ArbiterEvent) : Prop :=
  (∃ state, event = .request ⟨state, origin, some client⟩) ∨
    ∃ lock active, event = .lock ⟨lock, active, origin, some client⟩

theorem stamped_of_mem_events {notice : Notice} {event : ArbiterEvent}
    (among : event ∈ notice.events client origin) : Stamped client origin event := by
  unfold Notice.events Command.eventsOf at among
  split at among
  · split at among
    · cases among
    · next command _ =>
      cases command with
      | change state =>
        rw [Command.events, List.mem_singleton] at among
        exact .inl ⟨state, among⟩
      | lock changes =>
        rcases List.mem_map.mp among with ⟨change, -, rfl⟩
        exact .inr ⟨_, _, rfl⟩
  · cases among

theorem Kept.stamped (kept : Kept client origin x) :
    ∀ event ∈ x.posted, Stamped client origin event := by
  intro event among
  have asked : event ∈ x.posted ++ x.reader.outstanding := List.mem_append_left _ among
  rw [kept.posted_eq] at asked
  rcases List.mem_flatMap.mp asked with ⟨notice, -, asks⟩
  exact stamped_of_mem_events asks

/-- A reader that does not wait for room has put everything. -/
theorem outstanding_of_idle {reader : Reader}
    (idle : ∀ wait rest, reader.phase ≠ .publishing wait rest) : reader.outstanding = [] := by
  unfold Reader.outstanding
  split
  · next wait rest publishes => exact absurd publishes (idle wait rest)
  · rfl

/-- What is asked for before a farewell is what the reader took notice of before it. -/
theorem flatMap_takeWhile (client : Nat) (origin : Origin) (later : List Inbound)
    {notices : List Notice} (going : ∀ notice ∈ notices, notice.ends = false) :
    ((notices.filterMap Notice.inbound? ++ .farewell :: later).takeWhile (· ≠ .farewell)).flatMap
        (fun come => Notice.events client origin (.inbound come)) =
      notices.flatMap (Notice.events client origin) := by
  induction notices with
  | nil => rfl
  | cons notice notices inductionHypothesis =>
    rcases List.forall_mem_cons.mp going with ⟨first, rest⟩
    rcases notice with come | - | -
    · have stays : come ≠ .farewell := by
        rintro rfl
        cases first
      have heard : (Notice.inbound come :: notices).filterMap Notice.inbound? =
          come :: notices.filterMap Notice.inbound? := rfl
      rw [heard, List.cons_append, List.takeWhile_cons_of_pos (by simpa), List.flatMap_cons,
        inductionHypothesis rest, List.flatMap_cons]
    · cases first
    · cases first

/-- Once the client has taken leave, exactly what it said before has been put. -/
theorem Kept.posted_of_farewell (kept : Kept client origin x)
    (left : Notice.inbound .farewell ∈ x.seen) :
    x.posted = (x.come.takeWhile (· ≠ .farewell)).flatMap fun come =>
      Notice.events client origin (.inbound come) := by
  have gone : x.reader.phase = .gone := by
    by_contra here
    exact absurd (kept.goes_on here _ left) (by decide)
  -- Only the last thing that the reader took notice of can be the farewell.
  rcases kept.ended gone with ⟨before, last, seen, -, going⟩
  rcases kept.come_eq with ⟨later, come, -⟩
  have posted := kept.posted_eq
  rw [outstanding_of_idle (by simp [gone]), List.append_nil] at posted
  obtain rfl : last = .inbound .farewell := by
    rw [seen, List.mem_append, List.mem_singleton] at left
    rcases left with among | same
    · exact absurd (going _ among) (by decide)
    · exact same.symm
  rw [posted, come, seen, List.filterMap_append, List.append_assoc]
  exact (List.flatMap_append.trans (List.append_nil _)).trans
    (flatMap_takeWhile client origin later going).symm

/-- A step of the reader puts events on the hub and does nothing else to it; one that
waits for room has been put already, and may go on first.  A reader that leaves only
takes its client off. -/
theorem Reads.hub_eq (read : Reads x finished y) :
    (y.reader.phase = .gone → y.posted = x.posted ∧ y.hub =
      x.hub.setMailbox x.reader.client fun mailbox => { mailbox with connected := false }) ∧
    (y.reader.phase ≠ .gone → ∃ base put, y.posted = x.posted ++ put ∧
      y.hub = (base.postAll put).2 ∧
      ((x.reader.phase = .waiting ∧ base = x.hub) ∨
        ∃ wait rest, x.reader.phase = .publishing wait rest ∧ base = (x.hub.proceed wait).2)) := by
  cases read with
  | leaves waits noticed ends => exact ⟨fun _ => ⟨rfl, rfl⟩, fun here => absurd rfl here⟩
  | heeds waits alive next =>
    exact ⟨nofun, fun _ => ⟨x.hub, [], (List.append_nil _).symm, rfl, .inl ⟨waits, rfl⟩⟩⟩
  | ignores waits alive next unread =>
    exact ⟨nofun, fun _ => ⟨x.hub, [], (List.append_nil _).symm, rfl, .inl ⟨waits, rfl⟩⟩⟩
  | asks waits alive next understood published =>
    exact ⟨fun gone => absurd gone (phase_after_ne_gone _ _ _), fun _ =>
      ⟨x.hub, _, rfl, (placed_command published x.now).2.symm, .inl ⟨waits, rfl⟩⟩⟩
  | goesOn publishes room published =>
    exact ⟨fun gone => absurd gone (phase_after_ne_gone _ _ _), fun _ =>
      ⟨_, _, rfl, (placed_rest published x.now).2.symm, .inr ⟨_, _, publishes, by rw [room]⟩⟩⟩
  | holds publishes room =>
    exact ⟨fun gone => absurd (publishes.symm.trans gone) nofun, fun _ =>
      ⟨_, [], (List.append_nil _).symm, rfl, .inr ⟨_, _, publishes, by rw [room]⟩⟩⟩

/-- A text that is not understood is answered at once, and nothing else comes of it. -/
theorem act_of_unread {text : String} {inbox : List Inbound} {fault : Client.MessageError}
    (waits : x.reader.phase = .waiting) (next : x.reader.inbox = .text text :: inbox)
    (unread : Command.read text = .error fault) :
    x.act (.reads false) = some
      { x with
        reader := { x.reader with inbox := inbox }.await x.now
        seen := x.seen ++ [.inbound (.text text)]
        handled := x.handled ++ [.error fault]
        since := x.now } := by
  simp [act, Reader.step?, waits, next, Reader.take, unread, adopt, notice?, asked, Reader.notice?,
    Notice.events, Command.eventsOf, Hub.placed, Reader.await]

/-- A reader that waits takes notice of what there is. -/
theorem exists_act {notice : Notice} (kept : Kept client origin x)
    (waits : x.reader.phase = .waiting)
    (noticed : x.reader.notice? x.now finished = some notice) :
    ∃ y, x.act (.reads finished) = some y ∧ y.seen = x.seen ++ [notice] := by
  have steps : ∃ outcome, x.reader.step? x.now finished x.hub = some outcome := by
    unfold Reader.notice? at noticed
    simp only [Reader.step?, waits, kept.patience_eq, Option.isSome_some, Bool.true_and]
    split
    · exact ⟨_, rfl⟩
    · next alive =>
      rw [if_neg alive] at noticed
      rcases inbox : x.reader.inbox with - | ⟨text | - | -, later⟩
      · simp only [inbox, kept.patience_eq, Option.ite_none_right_eq_some] at noticed
        exact ⟨_, if_pos noticed.1⟩
      · exact ⟨_, rfl⟩
      · exact ⟨_, rfl⟩
      · exact ⟨_, rfl⟩
  rcases steps with ⟨outcome, stepped⟩
  refine ⟨x.adopt finished outcome, by simp [act, stepped], ?_⟩
  simp [adopt, notice?, waits, noticed]

/-- A reader that waits for room goes on when there is some. -/
theorem exists_act_of_room {wait : Hub.Wait} {rest : List (Lock × Bool)}
    (publishes : x.reader.phase = .publishing wait rest) (room : x.hub.canProceed wait = true) :
    ∃ y, x.act (.reads finished) = some y := by
  unfold act Reader.step?
  simp only [publishes, room, if_true]
  split <;> exact ⟨_, rfl⟩

/-- Silence is noticed after the time limit only, and not if there is something to read. -/
theorem Kept.silent (kept : Kept client origin x) (acted : x.act (.reads finished) = some y)
    (silence : y.seen = x.seen ++ [.silence]) :
    x.reader.inbox = [] ∧ x.since + readLimit ≤ x.now := by
  have noticed : ∀ {notice}, x.reader.notice? x.now finished = some notice → notice = .silence →
      x.reader.inbox = [] ∧ x.since + readLimit ≤ x.now := by
    rintro - noticed rfl
    unfold Reader.notice? at noticed
    split at noticed
    · cases noticed
    · split at noticed
      · cases noticed
      · next inbox =>
        rw [kept.patience_eq, Option.ite_none_right_eq_some] at noticed
        exact ⟨inbox, by simpa [Instant.due] using noticed.1⟩
  have same : ∀ {notice}, x.seen ++ [notice] = x.seen ++ [.silence] → notice = .silence := by
    intro notice together
    simpa using together
  cases reads_of_act (by simp [kept.patience_eq]) acted with
  | leaves waits found ends => exact noticed found (same silence)
  | heeds waits alive next => cases same silence
  | ignores waits alive next unread => cases same silence
  | asks waits alive next understood published => cases same silence
  | goesOn publishes room published => simp at silence
  | holds publishes room => simp at silence

/-- A client is read in order, and a text as a whole.  What has been put, with what
the text in hand still asks for, is what the texts that were taken notice of ask
for, one after another; all of it has the origin of the connection and goes by the
name of its client.  Texts that change interlocks name the laser first.  What was
taken notice of is what has come, in order; nothing is after a farewell, a silence
or the end of the session, and the reader is gone exactly after one of these.  A
silence is one: nothing is there to be read, and the reader has waited for the time
limit.  Each text comes to what it says, and one that is not understood puts nothing
anywhere and does not keep the reader from waiting for the next.  Events are put on
the hub and nothing else is done to it.  Whatever there is gets noticed, and a text in
hand goes on when there is room. -/
theorem texts_are_read_in_order {turns : List Turn} {now : Instant} {hub : Hub}
    (played : (start client origin now hub).script turns = some x) :
    (x.posted ++ x.reader.outstanding = x.seen.flatMap (Notice.events client origin) ∧
      ((∀ wait rest, x.reader.phase ≠ .publishing wait rest) →
        x.posted = x.seen.flatMap (Notice.events client origin)) ∧
      (∀ event ∈ x.posted, Stamped client origin event) ∧
      ∀ text changes, Command.read text = .ok (.lock changes) →
        changes ≠ [] ∧ (changes.map Prod.fst).Sublist [.laser, .olga]) ∧
    ((∃ left, x.come = x.seen.filterMap Notice.inbound? ++ left ∧
        (x.reader.phase ≠ .gone → left = x.reader.inbox)) ∧
      (x.reader.phase ≠ .gone → ∀ notice ∈ x.seen, notice.ends = false) ∧
      (x.reader.phase = .gone → ∃ before last, x.seen = before ++ [last] ∧
        last.ends = true ∧ ∀ notice ∈ before, notice.ends = false) ∧
      (.inbound .farewell ∈ x.seen → x.posted =
        (x.come.takeWhile (· ≠ .farewell)).flatMap fun come =>
          Notice.events client origin (.inbound come)) ∧
      ∀ finished y, x.act (.reads finished) = some y → y.seen = x.seen ++ [.silence] →
        x.reader.inbox = [] ∧ x.since + readLimit ≤ x.now) ∧
    (x.handled ++ x.reader.unanswered = x.seen.filterMap Notice.handled? ∧
      ∀ text inbox fault, x.reader.phase = .waiting → x.reader.inbox = .text text :: inbox →
        Command.read text = .error fault → x.act (.reads false) = some
          { x with
            reader := { x.reader with inbox := inbox }.await x.now
            seen := x.seen ++ [.inbound (.text text)]
            handled := x.handled ++ [.error fault]
            since := x.now }) ∧
    (∀ finished y, x.act (.reads finished) = some y →
      (y.reader.phase = .gone → y.posted = x.posted ∧ y.hub =
        x.hub.setMailbox x.reader.client fun mailbox => { mailbox with connected := false }) ∧
      (y.reader.phase ≠ .gone → ∃ base put, y.posted = x.posted ++ put ∧
        y.hub = (base.postAll put).2 ∧
        ((x.reader.phase = .waiting ∧ base = x.hub) ∨
          ∃ wait rest, x.reader.phase = .publishing wait rest ∧
            base = (x.hub.proceed wait).2))) ∧
    (∀ finished notice, x.reader.phase = .waiting → x.reader.notice? x.now finished = some notice →
      ∃ y, x.act (.reads finished) = some y ∧ y.seen = x.seen ++ [notice]) ∧
    ∀ finished wait rest, x.reader.phase = .publishing wait rest → x.hub.canProceed wait = true →
      ∃ y, x.act (.reads finished) = some y := by
  have kept : Kept client origin x := kept_of_script played
  refine ⟨⟨kept.posted_eq, fun idle => ?_, kept.stamped, fun text changes =>
      Command.ordered_of_lock⟩,
    ⟨kept.come_eq, kept.goes_on, kept.ended, kept.posted_of_farewell, fun finished y =>
      kept.silent⟩,
    ⟨kept.handled_eq, fun text inbox fault => act_of_unread⟩, fun finished y acted => ?_,
    fun finished notice => exists_act kept, fun finished wait rest => exists_act_of_room⟩
  · have posted := kept.posted_eq
    rwa [outstanding_of_idle idle, List.append_nil] at posted
  · exact (reads_of_act (by simp [kept.patience_eq]) acted).hub_eq

/-- There is room for one interlock change, and someone who takes them. -/
def crowded : Hub :=
  { Hub.empty 1 with lockRequests := (Hub.empty 1).lockRequests.subscribe.2 }

def both : String := "[\"lockchange\",[true,false]]"

/-- Both changes have been put there, and the first has been taken. -/
def relieved : Hub :=
  let hub := (crowded.postAll (Command.eventsOf 7 .remote both)).2
  let taken := hub.lockRequests.receive? (Hub.empty 1).lockRequests.subscribe.1
  { hub with lockRequests := (taken.map Prod.snd).getD hub.lockRequests }

/-- A client says something that nobody understands, asks for both interlocks and
takes leave; the second change has to wait for room. -/
def speech : List Turn :=
  [.comes (.text "pump"), .reads false, .comes (.text both), .comes .farewell,
    .comes (.text both), .reads false, .shares relieved, .reads false, .reads false]

/-- Both changes are put, the laser first, and nothing comes of what follows the
farewell. -/
theorem texts_are_read_in_order_with_little_room :
    ∃ x, (start 7 .remote 0 crowded).script speech = some x ∧
      x.come = [.text "pump", .text both, .farewell, .text both] ∧ x.reader.phase = .gone ∧
      x.posted =
        [.lock ⟨.laser, true, .remote, some 7⟩, .lock ⟨.olga, false, .remote, some 7⟩] := by
  have plays : ((start 7 .remote 0 crowded).script speech).map
      (fun x => (x.come, x.seen, x.reader.phase)) =
        some ([.text "pump", .text both, .farewell, .text both],
          [.inbound (.text "pump"), .inbound (.text both), .inbound .farewell], .gone) := by
    decide +kernel
  rcases Option.map_eq_some_iff.mp plays with ⟨x, played, same⟩
  simp only [Prod.mk.injEq] at same
  rcases same with ⟨come, seen, gone⟩
  rcases texts_are_read_in_order played with ⟨-, ⟨-, -, -, posted, -⟩, -⟩
  refine ⟨x, played, come, gone, ?_⟩
  rw [posted (by simp [seen]), come]
  decide +kernel

end Keeping

end Reading
end Server
end Ventilation
