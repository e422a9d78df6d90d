import Ventilation.Proofs.Controller.Dispatch

namespace Ventilation
namespace Controller

/-!
# What a step of the actuator comes to

On a link that takes what is written, the actuator does one of three things with
a state: it writes the command, holds it, or crashes since the clock cannot hold
its departure.  A reading ends a line, takes a part of one, or finds that there
is nothing more to read; whatever it is, nothing else changes.
-/

open Bus (Hub)

/-- What has been written. -/
def Deed.written? : Deed → Option (List UInt8)
  | .wrote bytes => some bytes
  | .logged _ => none

/-- Everything that has been written, in order. -/
def writings (deeds : List Deed) : List (List UInt8) := deeds.filterMap Deed.written?

theorem writings_lineLog (line : Line) : writings (Actuator.lineLog line) = [] := by
  unfold Actuator.lineLog
  split
  · split
    · rfl
    · rfl
  · rfl
  · rfl

/-- The byte that ends a line. -/
def lineFeed : UInt8 := 10

namespace Actuator

/-- What becomes of the actuator when it sends a state, and what it writes. -/
inductive Sends (actuator : Actuator) (now : Instant) (state : State) :
    Actuator → List (List UInt8) → Prop
  | goes (due : actuator.pacing.departure now state = now) :
      Sends actuator now state
        { actuator with pacing := actuator.pacing.sent state now, phase := .waiting }
        [(commandFrame actuator.target state).bytes]
  | holds (early : now < actuator.pacing.departure now state) :
      Sends actuator now state
        { actuator with phase := .holding state (actuator.pacing.departure now state) } []
  | crashes (late : Instant.limit ≤ actuator.pacing.departure now state) :
      Sends actuator now state { actuator with phase := .crashed } []

variable {actuator after : Actuator} {now : Instant} {hub next : Hub} {link further : Link}
  {state : State} {deeds : List Deed}

theorem write_eq (actuator : Actuator) (now : Instant) (hub : Hub) (state : State)
    (plugged : link.plugged = true) :
    ∃ deeds, actuator.write now hub link state =
        ({ actuator with pacing := actuator.pacing.sent state now, phase := .waiting }, hub,
          deeds) ∧
      writings deeds = [(commandFrame actuator.target state).bytes] := by
  unfold write
  rw [if_pos plugged]
  exact ⟨_, rfl, rfl⟩

theorem sends_of_send (plugged : link.plugged = true)
    (sent : actuator.send now hub link state = (after, next, deeds)) :
    next = hub ∧ Sends actuator now state after (writings deeds) := by
  unfold send at sent
  cases found : actuator.pacing.readyAt? state now with
  | none =>
    simp only [found, Prod.mk.injEq] at sent
    rcases sent with ⟨rfl, rfl, rfl⟩
    exact ⟨rfl, .crashes (Pacing.limit_le_departure found)⟩
  | some ready =>
    have departs := Pacing.eq_departure_of_readyAt? found
    simp only [found] at sent
    split at sent
    · next early =>
      simp only [Prod.mk.injEq] at sent
      rcases sent with ⟨rfl, rfl, rfl⟩
      rw [departs] at early ⊢
      exact ⟨rfl, .holds early⟩
    · next due =>
      rcases write_eq actuator now hub state plugged with ⟨written, wrote, frames⟩
      rw [wrote] at sent
      simp only [Prod.mk.injEq] at sent
      rcases sent with ⟨rfl, rfl, rfl⟩
      rw [frames]
      have least := actuator.pacing.le_departure now state
      exact ⟨rfl, .goes (Nat.le_antisymm (departs ▸ Nat.le_of_not_lt due) least)⟩

theorem sends_of_turn (plugged : link.plugged = true)
    (turned : actuator.turn? now hub link .state = some (after, next, further, deeds)) :
    ∃ state states, hub.states.receive? actuator.states = some (state, states) ∧
      next = { hub with states := states } ∧ further = link ∧
      Sends { actuator with fresh := false } now state after (writings deeds) := by
  simp only [turn?, Option.bind_eq_bind, Option.bind_eq_some_iff, Option.pure_def,
    Option.some.injEq, Prod.mk.injEq] at turned
  rcases turned with ⟨⟨state, states⟩, received, rfl, rfl, rfl, rfl⟩
  rcases sends_of_send plugged rfl with ⟨same, sends⟩
  exact ⟨state, states, received, same, rfl, sends⟩

/-- When the actuator leaves, it only stops listening. -/
theorem leaves_of_turn
    (turned : actuator.turn? now hub link .shutdown = some (after, next, further, deeds)) :
    after = { actuator with phase := .ended } ∧
      next.states = hub.states.unsubscribe actuator.states ∧ further = link ∧
      writings deeds = [] := by
  simp only [turn?, Option.bind_eq_bind, Option.bind_eq_some_iff, Option.pure_def,
    Option.some.injEq, Prod.mk.injEq] at turned
  rcases turned with ⟨signalled, taken, rfl, rfl, rfl, rfl⟩
  rcases Option.map_eq_some_iff.mp taken with ⟨⟨value, shutdown⟩, -, rfl⟩
  exact ⟨rfl, rfl, rfl, rfl⟩

theorem goes_of_step {ready : Instant} (plugged : link.plugged = true)
    (holding : actuator.phase = .holding state ready)
    (stepped : actuator.step? now hub link = some (after, next, further, deeds)) :
    ready ≤ now ∧
      after = { actuator with pacing := actuator.pacing.sent state now, phase := .waiting } ∧
      next = hub ∧ further = link ∧
      writings deeds = [(commandFrame actuator.target state).bytes] := by
  simp only [step?, holding, Option.ite_none_right_eq_some] at stepped
  rcases stepped with ⟨due, stepped⟩
  rcases write_eq actuator now hub state plugged with ⟨written, wrote, frames⟩
  rw [wrote] at stepped
  simp only [Option.some.injEq, Prod.mk.injEq] at stepped
  rcases stepped with ⟨rfl, rfl, rfl, rfl⟩
  exact ⟨due, rfl, rfl, rfl, frames⟩

/-! ## Reading -/

theorem cut?_eq_some {bytes line later : List UInt8} (found : cut? bytes = some (line, later)) :
    ∃ body, line = body ++ [lineFeed] ∧ bytes = body ++ lineFeed :: later ∧ lineFeed ∉ body := by
  induction bytes generalizing line with
  | nil => cases found
  | cons byte rest inductionHypothesis =>
    unfold cut? at found
    split at found
    · next feed =>
      cases found
      exact ⟨[], congrArg (· :: []) feed, congrArg (· :: later) feed, List.not_mem_nil⟩
    · next other =>
      rcases Option.map_eq_some_iff.mp found with ⟨⟨first, behind⟩, within, same⟩
      cases same
      rcases inductionHypothesis within with ⟨body, rfl, rfl, clean⟩
      exact ⟨byte :: body, rfl, rfl, List.not_mem_cons_of_ne_of_not_mem (Ne.symm other) clean⟩

theorem not_mem_of_cut? {bytes : List UInt8} (found : cut? bytes = none) : lineFeed ∉ bytes := by
  induction bytes with
  | nil => exact List.not_mem_nil
  | cons byte rest inductionHypothesis =>
    unfold cut? at found
    split at found
    · cases found
    · next other =>
      exact List.not_mem_cons_of_ne_of_not_mem (Ne.symm other)
        (inductionHypothesis (Option.map_eq_none_iff.mp found))

/-- The line that a reading completes, if it completes one. -/
def heard? (actuator : Actuator) (link : Link) : Option Line :=
  match link.arrived with
  | [] => if link.fault = none ∧ actuator.fresh then some (Line.read actuator.begun) else none
  | byte :: rest => (cut? (byte :: rest)).map fun cut => Line.read (actuator.begun ++ cut.1)

/-- What is logged when nothing more can come. -/
def farewell : Deed := .logged ⟨.warn, "actuator: controller link closed its read side"⟩

/-- What comes of a reading: the actuator and the link after it, the line that it
completes, and what is logged. -/
inductive Reads (actuator : Actuator) (link : Link) :
    Actuator → Link → Option Line → List Deed → Prop
  /-- A line ends in what has arrived. -/
  | line {body later : List UInt8} (arrived : link.arrived = body ++ lineFeed :: later)
      (within : lineFeed ∉ body) :
      Reads actuator link { actuator with begun := [], fresh := false }
        { link with arrived := later }
        (some (Line.read (actuator.begun ++ (body ++ [lineFeed]))))
        (lineLog (Line.read (actuator.begun ++ (body ++ [lineFeed]))))
  /-- No line ends in what has arrived. -/
  | part (something : link.arrived ≠ []) (within : lineFeed ∉ link.arrived) :
      Reads actuator link
        { actuator with begun := actuator.begun ++ link.arrived, fresh := true }
        { link with arrived := [] } none []
  /-- Nothing more can be read. -/
  | fails {fault : String} (failed : link.fault = some fault) :
      Reads actuator link { actuator with reading := false } link none
        [.logged ⟨.warn, "actuator: reading from controller failed: " ++ fault⟩]
  /-- Nothing more comes, and the reading itself has begun a line. -/
  | last (nothing : link.arrived = []) (silent : link.silent = true)
      (fresh : actuator.fresh = true) :
      Reads actuator link { actuator with begun := [], fresh := false } link
        (some (Line.read actuator.begun)) (lineLog (Line.read actuator.begun))
  /-- Nothing more comes, and the reading has found nothing at all. -/
  | finish (nothing : link.arrived = []) (silent : link.silent = true)
      (stale : actuator.fresh = false) :
      Reads actuator link { actuator with reading := false } link none [farewell]

theorem reads_of_turn
    (turned : actuator.turn? now hub link .inbound = some (after, next, further, deeds)) :
    actuator.reading = true ∧ next = hub ∧
      Reads actuator link after further (actuator.heard? link) deeds := by
  simp only [turn?, Option.bind_eq_bind, Option.bind_eq_some_iff, Option.pure_def,
    Option.some.injEq, Prod.mk.injEq] at turned
  rcases turned with ⟨⟨reader, unread, said⟩, read, rfl, rfl, rfl, rfl⟩
  unfold read? at read
  split at read
  · cases read
  · next reading =>
    refine ⟨by simpa using reading, rfl, ?_⟩
    split at read
    · next nothing =>
      unfold heard?
      simp only [nothing]
      split at read
      · next fault failed =>
        cases read
        rw [if_neg (by simp [failed])]
        exact .fails failed
      · next intact =>
        split at read
        · cases read
        · next silent =>
          replace silent : link.silent = true := by simpa using silent
          split at read
          · next fresh =>
            cases read
            rw [if_pos ⟨intact, fresh⟩]
            exact .last nothing silent fresh
          · next stale =>
            cases read
            rw [if_neg fun both => stale both.2]
            exact .finish nothing silent (by simpa using stale)
    · next byte rest arrived =>
      unfold heard?
      simp only [arrived]
      split at read
      · next line later cut =>
        cases read
        rcases cut?_eq_some cut with ⟨body, rfl, whole, within⟩
        rw [cut]
        exact .line (arrived.trans whole) within
      · next uncut =>
        cases read
        have within := not_mem_of_cut? uncut
        rw [uncut, ← arrived]
        exact .part (by simp [arrived]) (arrived ▸ within)

/-- What is read changes nothing but what has been read. -/
theorem still_of_turn
    (turned : actuator.turn? now hub link .inbound = some (after, next, further, deeds)) :
    (∃ reading begun fresh,
      after = { actuator with reading := reading, begun := begun, fresh := fresh }) ∧
    next = hub ∧ further.plugged = link.plugged ∧ writings deeds = [] := by
  rcases reads_of_turn turned with ⟨-, rfl, reads⟩
  generalize actuator.heard? link = heard at reads
  cases reads with
  | line | last => exact ⟨⟨_, _, _, rfl⟩, rfl, rfl, writings_lineLog _⟩
  | part | fails | finish => exact ⟨⟨_, _, _, rfl⟩, rfl, rfl, rfl⟩

/-! ## What the controller prints -/

/-- An actuator that has forgotten what it has read. -/
def deaf (actuator : Actuator) : Actuator :=
  { actuator with reading := true, begun := [], fresh := false }

/-- A link on which nothing has been printed and nothing has failed. -/
def mute (link : Link) : Link := ⟨[], false, none, link.plugged⟩

/-- What has been read and printed is forgotten in what a step comes to. -/
def deafen (outcome : Actuator × Hub × Link × List Deed) : Actuator × Hub × Link × List Deed :=
  (outcome.1.deaf, outcome.2.1, mute outcome.2.2.1, outcome.2.2.2)

theorem write_deaf (actuator : Actuator) (now : Instant) (hub : Hub) (link : Link)
    (state : State) :
    actuator.deaf.write now hub (mute link) state =
      ((actuator.write now hub link state).1.deaf, (actuator.write now hub link state).2) := by
  cases plugged : link.plugged with
  | true => simp [write, mute, plugged, deaf]
  | false => simp [write, mute, plugged, deaf, leave]

theorem send_deaf (actuator : Actuator) (now : Instant) (hub : Hub) (link : Link)
    (state : State) :
    actuator.deaf.send now hub (mute link) state =
      ((actuator.send now hub link state).1.deaf, (actuator.send now hub link state).2) := by
  have paced : actuator.deaf.pacing = actuator.pacing := rfl
  simp only [send, paced, write_deaf]
  cases actuator.pacing.readyAt? state now with
  | none => rfl
  | some ready =>
    by_cases early : now < ready
    · simp only [early, if_true]
      rfl
    · simp only [early, if_false]

/-- Taking states and leaving do not depend on what has been read. -/
theorem turn?_deaf (actuator : Actuator) (now : Instant) (hub : Hub) (link : Link)
    {branch : Branch} (elsewhere : branch ≠ .inbound) :
    actuator.deaf.turn? now hub (mute link) branch =
      (actuator.turn? now hub link branch).map deafen := by
  cases branch with
  | inbound => exact absurd rfl elsewhere
  | shutdown =>
    have same : actuator.deaf.shutdown = actuator.shutdown := rfl
    simp only [turn?, same]
    cases hub.takeShutdown? actuator.shutdown with
    | none => rfl
    | some taken => rfl
  | state =>
    have same : actuator.deaf.states = actuator.states := rfl
    simp only [turn?, same]
    cases hub.states.receive? actuator.states with
    | none => rfl
    | some received =>
      have sent := send_deaf { actuator with fresh := false } now
        { hub with states := received.2 } link received.1
      exact congrArg (fun outcome : Actuator × Hub × List Deed =>
        some (outcome.1, outcome.2.1, mute link, outcome.2.2)) sent

/-- Nor does what is held. -/
theorem step?_deaf {state : State} {ready : Instant}
    (holding : actuator.phase = .holding state ready) (now : Instant) (hub : Hub) (link : Link) :
    actuator.deaf.step? now hub (mute link) = (actuator.step? now hub link).map deafen := by
  have same : actuator.deaf.phase = .holding state ready := holding
  simp only [step?, same, holding, write_deaf]
  split
  · rfl
  · rfl

end Actuator
end Controller
end Ventilation
