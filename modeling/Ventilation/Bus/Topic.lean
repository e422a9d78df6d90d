namespace Ventilation
namespace Bus

/-!
# Topics

A topic hands every published value to everyone who listens.  A lasting
listener owns a queue of bounded size, a one-shot listener takes a single
value.  To publish is to serve the one-shot listeners at once and then the
lasting ones in the order in which they came, waiting wherever a queue is full.
Those who wait at one queue get its free places first come, first served: a
free place already belongs to the first in line, even before it is taken.

A listener that has gone away is skipped, and forgotten when the publishing
that noticed it ends.  Nothing here happens by itself: a publishing that can go
on does so when `resume` is called for it.
-/

/-- Someone a topic knows of. -/
inductive Listener
  | lasting (id : Nat)
  | once (id : Nat)
  deriving DecidableEq, Repr

namespace Listener

/-- The number of a listener; no two listeners of a topic share it. -/
def id : Listener → Nat
  | lasting id => id
  | once id => id

def lasting? : Listener → Option Nat
  | lasting id => some id
  | once _ => none

def once? : Listener → Option Nat
  | lasting _ => none
  | once id => some id

end Listener

/-- The receiving end of a lasting listener: its queue, and the tickets of the
publishings that wait for room in it, first come first. -/
structure Box (α : Type) where
  id : Nat
  queue : List α
  line : List Nat

namespace Box

variable {α : Type}

/-- Whether a publishing may put its value into the queue: there is room for
everyone who stands in line before it, and for itself. -/
def admits (capacity : Nat) (box : Box α) (ticket : Nat) : Bool :=
  box.queue.length + box.line.idxOf ticket < capacity

/-- Put a value into the queue and leave the line. -/
def enter (box : Box α) (ticket : Nat) (value : α) : Box α :=
  { box with queue := box.queue ++ [value], line := box.line.erase ticket }

def wait (box : Box α) (ticket : Nat) : Box α :=
  if ticket ∈ box.line then box else { box with line := box.line ++ [ticket] }

end Box

/-- What a one-shot receiver holds. -/
inductive Shot (α : Type)
  | nothing
  | value (value : α)
  | taken

/-- A publishing that has not ended: the listeners that it has still to serve,
the first of them being the one that it waits at, how many it has served, and
those that it found gone. -/
structure Publishing (α : Type) where
  ticket : Nat
  value : α
  rest : List Nat
  served : Nat
  gone : List Nat

/-- A named point at which values of one type are handed out. -/
structure Topic (α : Type) where
  capacity : Nat
  capacity_pos : 0 < capacity
  nextId : Nat
  nextTicket : Nat
  listeners : List Listener
  boxes : List (Box α)
  shots : List (Nat × Shot α)
  publishings : List (Publishing α)

namespace Topic

variable {α : Type}

/-- A topic without listeners; a queue holds at least one value. -/
def empty (capacity : Nat) : Topic α where
  capacity := max capacity 1
  capacity_pos := by omega
  nextId := 1
  nextTicket := 0
  listeners := []
  boxes := []
  shots := []
  publishings := []

def listenerCount (topic : Topic α) : Nat := topic.listeners.length

/-- The box of a lasting listener, if it has not gone away. -/
def box? (topic : Topic α) (id : Nat) : Option (Box α) := topic.boxes.find? fun box => box.id = id

/-! ## Listening -/

/-- Add a lasting listener; its number is the first component. -/
def subscribe (topic : Topic α) : Nat × Topic α :=
  (topic.nextId,
    { topic with
      nextId := topic.nextId + 1
      listeners := topic.listeners ++ [.lasting topic.nextId]
      boxes := topic.boxes ++ [⟨topic.nextId, [], []⟩] })

/-- Add a one-shot listener; its number is the first component. -/
def listenOnce (topic : Topic α) : Nat × Topic α :=
  (topic.nextId,
    { topic with
      nextId := topic.nextId + 1
      listeners := topic.listeners ++ [.once topic.nextId]
      shots := topic.shots ++ [(topic.nextId, .nothing)] })

/-- A lasting receiver goes away without a word. -/
def drop (topic : Topic α) (id : Nat) : Topic α :=
  { topic with boxes := topic.boxes.filter fun box => box.id ≠ id }

/-- Stop listening: the topic forgets the listener and its receiver goes away. -/
def unsubscribe (topic : Topic α) (id : Nat) : Topic α :=
  { topic.drop id with listeners := topic.listeners.filter fun listener => listener.id ≠ id }

/-- A one-shot receiver goes away without a word. -/
def dropOnce (topic : Topic α) (id : Nat) : Topic α :=
  { topic with shots := topic.shots.filter fun shot => shot.1 ≠ id }

def setBox (boxes : List (Box α)) (id : Nat) (changed : Box α) : List (Box α) :=
  boxes.map fun box => if box.id = id then changed else box

/-- Take the oldest value from a queue. -/
def receive? (topic : Topic α) (id : Nat) : Option (α × Topic α) :=
  match topic.box? id with
  | some box =>
    match box.queue with
    | [] => none
    | value :: queue =>
      some (value, { topic with boxes := setBox topic.boxes id { box with queue := queue } })
  | none => none

def receiveAll (topic : Topic α) (id : Nat) : List α × Topic α :=
  match topic.box? id with
  | some box => (box.queue, { topic with boxes := setBox topic.boxes id { box with queue := [] } })
  | none => ([], topic)

/-- What a one-shot receiver holds; one that went away has been taken. -/
def shot (topic : Topic α) (id : Nat) : Shot α :=
  match topic.shots.find? fun entry => entry.1 = id with
  | some (_, held) => held
  | none => .taken

/-- Take the value of a one-shot receiver, if there is one. -/
def takeShot? (topic : Topic α) (id : Nat) : Option (α × Topic α) :=
  match topic.shot id with
  | .value value =>
    some (value, { topic with
      shots := topic.shots.map fun entry => if entry.1 = id then (id, .taken) else entry })
  | _ => none

/-! ## Publishing -/

/-- How far a publishing gets: the boxes it leaves, the listeners it has still
to serve, how many it served and which it found gone. -/
structure Progress (α : Type) where
  boxes : List (Box α)
  rest : List Nat
  served : Nat
  gone : List Nat

/-- Serve listeners one after another, up to the first that has no room. -/
def serve (capacity ticket : Nat) (value : α) (boxes : List (Box α)) : List Nat → Progress α
  | [] => ⟨boxes, [], 0, []⟩
  | id :: rest =>
    match boxes.find? fun box => box.id = id with
    | none =>
      let later := serve capacity ticket value boxes rest
      { later with gone := id :: later.gone }
    | some box =>
      if box.admits capacity ticket then
        let later := serve capacity ticket value (setBox boxes id (box.enter ticket value)) rest
        { later with served := later.served + 1 }
      else ⟨setBox boxes id (box.wait ticket), id :: rest, 0, []⟩

/-- Go on with a publishing.  When it ends, the listeners that it found gone
are forgotten, and the number of those it served is the first component. -/
def proceed (topic : Topic α) (publishing : Publishing α) : Option Nat × Topic α :=
  let progress := serve topic.capacity publishing.ticket publishing.value topic.boxes
    publishing.rest
  let served := publishing.served + progress.served
  let gone := publishing.gone ++ progress.gone
  let others := topic.publishings.filter fun other => other.ticket ≠ publishing.ticket
  if progress.rest = [] then
    (some served,
      { topic with
        boxes := progress.boxes
        listeners := topic.listeners.filter fun listener => listener.id ∉ gone
        publishings := others })
  else
    (none,
      { topic with
        boxes := progress.boxes
        publishings := topic.publishings.map fun other =>
          if other.ticket = publishing.ticket then
            { publishing with rest := progress.rest, served := served, gone := gone }
          else other })

/-- The one-shot receivers after a value has been handed to some of them, and
how many of those were still there. -/
def fire (shots : List (Nat × Shot α)) (value : α) (ids : List Nat) : Nat × List (Nat × Shot α) :=
  ((shots.filter fun entry => entry.1 ∈ ids).length,
    shots.map fun entry => if entry.1 ∈ ids then (entry.1, .value value) else entry)

/-- Begin to publish a value, and get as far as there is room.  The ticket of
the publishing comes first, then the number of those it served if it has
already ended. -/
def publish (topic : Topic α) (value : α) : Nat × Option Nat × Topic α :=
  let ticket := topic.nextTicket
  let (fired, shots) := fire topic.shots value (topic.listeners.filterMap Listener.once?)
  let lasting := topic.listeners.filterMap Listener.lasting?
  let publishing : Publishing α := ⟨ticket, value, lasting, fired, []⟩
  let begun : Topic α :=
    { topic with
      nextTicket := ticket + 1
      listeners := lasting.map .lasting
      shots := shots
      publishings := topic.publishings ++ [publishing] }
  (ticket, begun.proceed publishing)

def publishing? (topic : Topic α) (ticket : Nat) : Option (Publishing α) :=
  topic.publishings.find? fun publishing => publishing.ticket = ticket

/-- Whether a publishing can go on: the listener that it waits at is gone or
has room for it. -/
def ready (topic : Topic α) (publishing : Publishing α) : Bool :=
  match publishing.rest with
  | [] => true
  | id :: _ =>
    match topic.box? id with
    | none => true
    | some box => box.admits topic.capacity publishing.ticket

/-- Go on with the publishing of a ticket if it can; the number of those it
served comes first when it has ended. -/
def resume (topic : Topic α) (ticket : Nat) : Option Nat × Topic α :=
  match topic.publishing? ticket with
  | some publishing => if topic.ready publishing then topic.proceed publishing else (none, topic)
  | none => (none, topic)

/-- Go on with every publishing once, in the order in which they began, and
tell which have ended and how many they served. -/
def settle (topic : Topic α) : List (Nat × Nat) × Topic α :=
  (topic.publishings.map (·.ticket)).foldl
    (fun (ended, topic) ticket =>
      match topic.resume ticket with
      | (some served, next) => (ended ++ [(ticket, served)], next)
      | (none, next) => (ended, next))
    ([], topic)

/-- Every value that is still on its way through a topic. -/
def underway (topic : Topic α) : List α :=
  topic.boxes.flatMap (·.queue) ++ topic.publishings.map (·.value)

end Topic

/-! ## Steps -/

/-- What can be done with a topic from outside. -/
inductive Step (α : Type)
  | subscribe
  | listenOnce
  | publish (value : α)
  | receive (id : Nat)
  | unsubscribe (id : Nat)
  | drop (id : Nat)
  | poll (id : Nat)
  | dropOnce (id : Nat)

/-- What a step tells. -/
inductive Told (α : Type)
  | nothing
  | listener (id : Nat)
  | received (value : Option α)
  | polled (shot : Shot α)

namespace Topic

variable {α : Type}

/-- One step, before the publishings go on. -/
def act (topic : Topic α) : Step α → Told α × List (Nat × Nat) × Topic α
  | .subscribe => let (id, next) := topic.subscribe; (.listener id, [], next)
  | .listenOnce => let (id, next) := topic.listenOnce; (.listener id, [], next)
  | .publish value =>
    match topic.publish value with
    | (ticket, some served, next) => (.nothing, [(ticket, served)], next)
    | (_, none, next) => (.nothing, [], next)
  | .receive id =>
    match topic.receive? id with
    | some (value, next) => (.received (some value), [], next)
    | none => (.received none, [], topic)
  | .unsubscribe id => (.nothing, [], topic.unsubscribe id)
  | .drop id => (.nothing, [], topic.drop id)
  | .poll id =>
    match topic.takeShot? id with
    | some (value, next) => (.polled (.value value), [], next)
    | none => (.polled (topic.shot id), [], topic)
  | .dropOnce id => (.nothing, [], topic.dropOnce id)

/-- One step, and everything that goes on because of it. -/
def step (topic : Topic α) (taken : Step α) : Told α × List (Nat × Nat) × Topic α :=
  let (told, ended, next) := topic.act taken
  let (more, settled) := next.settle
  (told, ended ++ more, settled)

end Topic
end Bus
end Ventilation
