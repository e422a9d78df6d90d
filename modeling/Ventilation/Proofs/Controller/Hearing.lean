import Ventilation.Proofs.Controller.Station

namespace Ventilation
namespace Controller

/-!
# What the actuator hears

The controller prints a stream of bytes that arrives in pieces, and the actuator
puts the lines together again, although every state that it takes breaks off its
reading.  A hearing is a station with a record of what has been printed and of
what the actuator has made of it.

Main statement: once the stream is over, the lines are those of the stream,
however it arrived.  Only what follows the last line feed may be lost.  It is
lost exactly if a state was taken after its last byte had been read, because a
reading that finds the end of the stream looks at its own bytes only.
-/

open Bus (Hub)

/-! ## Streams and their lines -/

/-- A stream cut after each of its line feeds, and what follows the last one. -/
structure Segmented (stream : List UInt8) (ended : List (List UInt8)) (rest : List UInt8) :
    Prop where
  whole : stream = ended.flatten ++ rest
  ended : ∀ segment ∈ ended, ∃ body, segment = body ++ [lineFeed] ∧ lineFeed ∉ body
  unended : lineFeed ∉ rest

namespace Segmented

variable {stream : List UInt8} {ended : List (List UInt8)} {rest : List UInt8}

theorem nil : Segmented [] [] [] := ⟨rfl, nofun, List.not_mem_nil⟩

/-- Bytes without a line feed belong to what follows the last one. -/
theorem append (segmented : Segmented stream ended rest) {bytes : List UInt8}
    (within : lineFeed ∉ bytes) : Segmented (stream ++ bytes) ended (rest ++ bytes) where
  whole := by rw [segmented.whole, List.append_assoc]
  ended := segmented.ended
  unended := fun member => (List.mem_append.mp member).elim segmented.unended within

theorem close (segmented : Segmented stream ended rest) {body : List UInt8}
    (within : lineFeed ∉ body) :
    Segmented (stream ++ (body ++ [lineFeed])) (ended ++ [rest ++ body ++ [lineFeed]]) [] where
  whole := by simp [segmented.whole]
  ended := by
    intro segment member
    rcases List.mem_append.mp member with before | last
    · exact segmented.ended segment before
    · refine ⟨rest ++ body, List.mem_singleton.mp last, fun among => ?_⟩
      exact (List.mem_append.mp among).elim segmented.unended within
  unended := List.not_mem_nil

/-- What stands before the first line feed is determined. -/
theorem body_eq {first second left right : List UInt8} (whole : first ++ lineFeed :: left =
    second ++ lineFeed :: right) (inFirst : lineFeed ∉ first) (inSecond : lineFeed ∉ second) :
    first = second ∧ left = right := by
  induction first generalizing second with
  | nil =>
    cases second with
    | nil => exact ⟨rfl, (List.cons.inj whole).2⟩
    | cons byte second => exact absurd (List.cons.inj whole).1 (List.ne_of_not_mem_cons inSecond)
  | cons byte first inductionHypothesis =>
    cases second with
    | nil => exact absurd (List.cons.inj whole).1.symm (List.ne_of_not_mem_cons inFirst)
    | cons other second =>
      rcases List.cons.inj whole with ⟨rfl, later⟩
      rcases inductionHypothesis later (List.not_mem_of_not_mem_cons inFirst)
        (List.not_mem_of_not_mem_cons inSecond) with ⟨rfl, same⟩
      exact ⟨rfl, same⟩

theorem unique (segmented : Segmented stream ended rest) {others : List (List UInt8)}
    {remainder : List UInt8} (segmentedToo : Segmented stream others remainder) :
    ended = others ∧ rest = remainder := by
  have lacks : ∀ {segments : List (List UInt8)} {tail : List UInt8},
      (∀ segment ∈ segments, ∃ body, segment = body ++ [lineFeed] ∧ lineFeed ∉ body) →
      lineFeed ∉ segments.flatten ++ tail → segments = [] := by
    intro segments tail each none_there
    cases segments with
    | nil => rfl
    | cons segment segments =>
      rcases each segment List.mem_cons_self with ⟨body, rfl, -⟩
      exact absurd (by simp) none_there
  induction ended generalizing stream others with
  | nil =>
    have whole : rest = others.flatten ++ remainder :=
      segmented.whole.symm.trans segmentedToo.whole
    rcases lacks segmentedToo.ended (whole ▸ segmented.unended) with rfl
    exact ⟨rfl, whole⟩
  | cons segment ended inductionHypothesis =>
    rcases segmented.ended segment List.mem_cons_self with ⟨body, rfl, within⟩
    cases others with
    | nil =>
      have whole : _ = remainder := segmented.whole.symm.trans segmentedToo.whole
      exact absurd (whole ▸ by simp) segmentedToo.unended
    | cons other others =>
      rcases segmentedToo.ended other List.mem_cons_self with ⟨text, rfl, withinToo⟩
      have whole := segmented.whole.symm.trans segmentedToo.whole
      simp only [List.flatten_cons, List.append_assoc, List.singleton_append] at whole
      rcases body_eq whole within withinToo with ⟨rfl, later⟩
      have first : Segmented (ended.flatten ++ rest) ended rest :=
        ⟨rfl, fun segment member => segmented.ended segment (List.mem_cons_of_mem _ member),
          segmented.unended⟩
      have second : Segmented (ended.flatten ++ rest) others remainder :=
        ⟨later, fun segment member => segmentedToo.ended segment (List.mem_cons_of_mem _ member),
          segmentedToo.unended⟩
      rcases inductionHypothesis first second with ⟨rfl, same⟩
      exact ⟨rfl, same⟩

end Segmented

/-! ## A reading -/

namespace Actuator

variable {actuator after : Actuator} {now : Instant} {hub next : Hub} {link further : Link}
  {deeds : List Deed}

/-- What the actuator knows of the stream. -/
def ear (actuator : Actuator) : Bool × List UInt8 × Bool :=
  (actuator.reading, actuator.begun, actuator.fresh)

theorem write_ear (actuator : Actuator) (now : Instant) (hub : Hub) (link : Link)
    (state : State) : (actuator.write now hub link state).1.ear = actuator.ear := by
  unfold write
  split <;> rfl

theorem send_ear (actuator : Actuator) (now : Instant) (hub : Hub) (link : Link)
    (state : State) : (actuator.send now hub link state).1.ear = actuator.ear := by
  unfold send
  split
  · rfl
  · split
    · rfl
    · exact write_ear actuator now hub link state

/-- To take a state breaks off the reading, and keeps what has been read. -/
theorem ear_of_takes
    (turned : actuator.turn? now hub link .state = some (after, next, further, deeds)) :
    further = link ∧ after.ear = (actuator.reading, actuator.begun, false) := by
  simp only [turn?, Option.bind_eq_bind, Option.bind_eq_some_iff, Option.pure_def,
    Option.some.injEq, Prod.mk.injEq] at turned
  rcases turned with ⟨⟨state, states⟩, -, rfl, -, rfl, -⟩
  exact ⟨rfl, send_ear { actuator with fresh := false } now { hub with states := states } link
    state⟩

theorem ear_of_goesOn {state : State} {ready : Instant}
    (holding : actuator.phase = .holding state ready)
    (stepped : actuator.step? now hub link = some (after, next, further, deeds)) :
    further = link ∧ after.ear = actuator.ear := by
  simp only [step?, holding, Option.ite_none_right_eq_some, Option.some.injEq, Prod.mk.injEq]
    at stepped
  rcases stepped with ⟨-, rfl, -, rfl, -⟩
  exact ⟨rfl, write_ear actuator now hub link state⟩

/-- As long as the actuator reads, it finds something in a stream that is over. -/
theorem exists_turn (reading : actuator.reading = true) (silent : link.silent = true)
    (now : Instant) (hub : Hub) :
    ∃ outcome, actuator.turn? now hub link .inbound = some outcome := by
  rw [← Option.isSome_iff_exists]
  simp only [turn?, read?, reading, silent, not_true, if_false]
  split
  · split
    · rfl
    · split <;> rfl
  · split <;> rfl

end Actuator

/-! ## Hearings -/

/-- A station, what the controller has printed so far, and what the actuator has
made of it. -/
structure Hearing where
  station : Station
  printed : List UInt8
  lines : List Line
  /-- What the actuator has logged of it. -/
  noted : List Deed
  /-- A state was taken in the middle of a line, and nothing has been read since. -/
  disturbed : Bool

namespace Hearing

def start (target : UInt8) (interval : Span) (hub : Hub) : Hearing :=
  ⟨.start target interval hub, [], [], [], false⟩

inductive Turn
  | station (turn : Station.Turn)
  | unplugs

def disturb (x : Hearing) (y : Station) : Hearing :=
  { x with station := y, disturbed := x.disturbed || !x.station.actuator.begun.isEmpty }

def hear (x : Hearing) (outcome : Actuator × Hub × Link × List Deed) : Hearing :=
  { x with
    station := x.station.adopt outcome
    lines := x.lines ++ (x.station.actuator.heard? x.station.link).toList
    noted := x.noted ++ outcome.2.2.2
    disturbed := x.disturbed && x.station.link.arrived.isEmpty }

/-- One turn, if it is possible.  A controller that has closed its side prints
nothing more, and nothing keeps the actuator from reading all that it has printed. -/
def act (x : Hearing) : Turn → Option Hearing
  | .station (.prints bytes) =>
    if x.station.link.silent then none
    else (x.station.act (.prints bytes)).map fun y =>
      { x with station := y, printed := x.printed ++ bytes }
  | .station .takes => (x.station.act .takes).map x.disturb
  | .station .reads =>
    if x.station.actuator.phase = .waiting then
      (x.station.actuator.turn? x.station.now x.station.hub x.station.link .inbound).map x.hear
    else none
  | .station (.fails _) => none
  | .station turn => (x.station.act turn).map fun y => { x with station := y }
  | .unplugs => some { x with station := { x.station with link := x.station.link.unplug } }

variable {x y : Hearing} {turn : Turn} {target : UInt8} {interval : Span} {hub : Hub}

/-! ## What has been put together -/

/-- How far the actuator has come with a stream of which it has taken some bytes. -/
inductive Progress (x : Hearing) (consumed : List UInt8) : Prop
  /-- It has read every line that has ended, and keeps what follows. -/
  | within {ended : List (List UInt8)} (reading : x.station.actuator.reading = true)
      (segmented : Segmented consumed ended x.station.actuator.begun)
      (lines : x.lines = ended.map Line.read) (noted : x.noted = x.lines.flatMap Actuator.lineLog)
      (fresh : x.station.actuator.fresh = true ↔
        x.station.actuator.begun ≠ [] ∧ x.disturbed = false)
      (disturbed : x.disturbed = true → x.station.actuator.begun ≠ [])
  /-- It has found the end of the stream. -/
  | beyond {ended : List (List UInt8)} {rest : List UInt8}
      (silent : x.station.link.silent = true) (nothing : x.station.link.arrived = [])
      (segmented : Segmented consumed ended rest)
      (lines : x.lines = ended.map Line.read ++
        if rest = [] ∨ x.disturbed = true then [] else [Line.read rest])
      (noted : x.noted = x.lines.flatMap Actuator.lineLog ++
        if x.station.actuator.reading then [] else [Actuator.farewell])
      (stale : x.station.actuator.fresh = false)
      (disturbed : x.disturbed = true → rest ≠ [])
      (begun : x.station.actuator.begun ≠ [] → x.disturbed = true)
      (closing : x.station.actuator.reading = true → x.station.actuator.begun = [])

/-- What every turn keeps: what the controller has printed has been taken, or lies
on the link, where it can be read. -/
def Kept (x : Hearing) : Prop :=
  x.station.link.fault = none ∧
    ∃ consumed, x.printed = consumed ++ x.station.link.arrived ∧ x.Progress consumed

namespace Progress

variable {consumed : List UInt8}

/-- Nothing is printed, read or taken. -/
theorem still (progress : x.Progress consumed)
    (ear : y.station.actuator.ear = x.station.actuator.ear)
    (arrived : y.station.link.arrived = x.station.link.arrived)
    (silent : x.station.link.silent = true → y.station.link.silent = true)
    (record : y.lines = x.lines ∧ y.noted = x.noted ∧ y.disturbed = x.disturbed) :
    y.Progress consumed := by
  rcases record with ⟨lines, noted, disturbed⟩
  simp only [Actuator.ear, Prod.mk.injEq] at ear
  rcases ear with ⟨reading, begun, fresh⟩
  cases progress with
  | within reads segmented read logged isFresh isDisturbed =>
    refine .within (reading.trans reads) (begun ▸ segmented) (lines.trans read) ?_ ?_ ?_
    · rw [noted, lines, logged]
    · rw [fresh, begun, disturbed, isFresh]
    · rw [disturbed, begun]
      exact isDisturbed
  | beyond closed nothing segmented read logged stale isDisturbed begins closing =>
    refine .beyond (silent closed) (arrived.trans nothing) segmented ?_ ?_ (fresh.trans stale)
      ?_ ?_ ?_
    · rw [lines, disturbed, read]
    · rw [noted, lines, reading, logged]
    · rw [disturbed]
      exact isDisturbed
    · rw [begun, disturbed]
      exact begins
    · rw [reading, begun]
      exact closing

theorem disturb (progress : x.Progress consumed) {z : Station}
    (link : z.link = x.station.link)
    (ear : z.actuator.ear = (x.station.actuator.reading, x.station.actuator.begun, false)) :
    (x.disturb z).Progress consumed := by
  simp only [Actuator.ear, Prod.mk.injEq] at ear
  rcases ear with ⟨reading, begun, fresh⟩
  cases progress with
  | within reads segmented read logged isFresh isDisturbed =>
    refine .within (reading.trans reads) (begun ▸ segmented) read logged ?_ ?_
    · simp only [Hearing.disturb, fresh, begun, Bool.or_eq_false_iff, Bool.not_eq_false',
        List.isEmpty_iff, Bool.false_eq_true, false_iff, not_and]
      exact fun some_ _ => some_
    · simp only [Hearing.disturb, begun, Bool.or_eq_true, Bool.not_eq_true',
        List.isEmpty_eq_false_iff]
      exact fun disturbed => disturbed.elim isDisturbed id
  | beyond closed nothing segmented read logged stale isDisturbed begins closing =>
    -- Once the end has been found nothing can be lost any more.
    have same : (x.disturb z).disturbed = x.disturbed := by
      cases was : x.disturbed with
      | true => simp [Hearing.disturb, was]
      | false =>
        have none_begun : x.station.actuator.begun = [] := by
          by_contra some_begun
          exact absurd (begins some_begun) (by simp [was])
        simp [Hearing.disturb, was, none_begun]
    refine .beyond (link ▸ closed) (link ▸ nothing) segmented ?_ ?_ fresh ?_ ?_ ?_
    · rw [same]
      exact read
    · rw [show (x.disturb z).station.actuator.reading = _ from reading]
      exact logged
    · rw [same]
      exact isDisturbed
    · rw [same]
      exact begun ▸ begins
    · exact fun reads => begun.trans (closing (reading.symm.trans reads))

end Progress

namespace Kept

theorem quiet (kept : x.Kept) (printed : y.printed = x.printed)
    (ear : y.station.actuator.ear = x.station.actuator.ear)
    (arrived : y.station.link.arrived = x.station.link.arrived)
    (fault : y.station.link.fault = x.station.link.fault)
    (silent : x.station.link.silent = true → y.station.link.silent = true)
    (record : y.lines = x.lines ∧ y.noted = x.noted ∧ y.disturbed = x.disturbed) : y.Kept := by
  rcases kept with ⟨intact, consumed, whole, progress⟩
  refine ⟨fault.trans intact, consumed, ?_, progress.still ear arrived silent record⟩
  rw [printed, arrived, whole]

theorem hear (kept : x.Kept) {actuator : Actuator} {next : Hub} {link : Link} {deeds : List Deed}
    (turned : x.station.actuator.turn? x.station.now x.station.hub x.station.link .inbound =
      some (actuator, next, link, deeds)) : (x.hear (actuator, next, link, deeds)).Kept := by
  rcases kept with ⟨intact, consumed, printed, progress⟩
  rcases Actuator.reads_of_turn turned with ⟨reading, -, reads⟩
  have calm : x.station.link.arrived ≠ [] → (x.disturbed && x.station.link.arrived.isEmpty) =
      false := fun something => by simp [something]
  generalize completed : x.station.actuator.heard? x.station.link = heard at reads
  cases reads with
  | @line body later arrived within =>
    have something : x.station.link.arrived ≠ [] := by simp [arrived]
    refine ⟨intact, consumed ++ (body ++ [lineFeed]), ?_, ?_⟩
    · simp [Hearing.hear, Station.adopt, printed, arrived]
    · cases progress with
      | beyond _ nothing => exact absurd nothing something
      | within _ segmented lines noted =>
        refine .within reading (segmented.close within) ?_ ?_ ?_ ?_
        · simp [Hearing.hear, completed, lines]
        · simp [Hearing.hear, completed, noted]
        · simp [Hearing.hear, Station.adopt]
        · simp [Hearing.hear, calm something]
  | part something within =>
    refine ⟨intact, consumed ++ x.station.link.arrived, ?_, ?_⟩
    · simp [Hearing.hear, Station.adopt, printed]
    · cases progress with
      | beyond _ nothing => exact absurd nothing something
      | within _ segmented lines noted =>
        refine .within reading (segmented.append within) ?_ ?_ ?_ ?_
        · simp [Hearing.hear, completed, lines]
        · simp [Hearing.hear, completed, noted]
        · simp [Hearing.hear, Station.adopt, something]
        · simp [Hearing.hear, calm something]
  | fails failed => cases intact.symm.trans failed
  | last nothing silent fresh =>
    refine ⟨intact, consumed, printed, ?_⟩
    cases progress with
    | beyond _ _ _ _ _ stale => exact absurd fresh (by simp [stale])
    | within _ segmented lines noted isFresh =>
      rcases isFresh.mp fresh with ⟨begun, calm⟩
      refine .beyond silent nothing segmented ?_ ?_ rfl ?_ (absurd rfl) fun _ => rfl
      · simp [Hearing.hear, completed, lines, begun, calm]
      · simp [Hearing.hear, Station.adopt, completed, noted, reading]
      · simp [Hearing.hear, calm]
  | finish nothing silent stale =>
    refine ⟨intact, consumed, printed, ?_⟩
    have disturbed : (x.hear ({ x.station.actuator with reading := false }, next, x.station.link,
        [Actuator.farewell])).disturbed = x.disturbed := by
      simp [Hearing.hear, nothing]
    cases progress with
    | within _ segmented lines noted isFresh isDisturbed =>
      have lost : x.station.actuator.begun ≠ [] → x.disturbed = true := by
        intro begun
        by_contra calm
        exact absurd (isFresh.mpr ⟨begun, by simpa using calm⟩) (by simp [stale])
      refine .beyond silent nothing segmented ?_ ?_ stale ?_ ?_ (absurd · Bool.false_ne_true)
      · rw [disturbed, if_pos (or_iff_not_imp_left.mpr lost)]
        simp [Hearing.hear, completed, lines]
      · simp [Hearing.hear, Station.adopt, completed, noted]
      · rw [disturbed]
        exact isDisturbed
      · rw [disturbed]
        exact lost
    | beyond _ _ segmented lines noted _ isDisturbed begins =>
      refine .beyond silent nothing segmented ?_ ?_ stale ?_ ?_ (absurd · Bool.false_ne_true)
      · rw [disturbed, ← lines]
        simp [Hearing.hear, completed]
      · simp [Hearing.hear, Station.adopt, completed, noted, reading]
      · rw [disturbed]
        exact isDisturbed
      · rw [disturbed]
        exact begins

theorem acts (kept : x.Kept) (acted : x.act turn = some y) : y.Kept := by
  cases turn with
  | unplugs =>
    rcases Option.some.inj acted with rfl
    exact kept.quiet rfl rfl rfl rfl (fun _ => rfl) ⟨rfl, rfl, rfl⟩
  | station turn =>
    cases turn with
    | reads =>
      simp only [act, Option.ite_none_right_eq_some, Option.map_eq_some_iff] at acted
      rcases acted with ⟨-, ⟨actuator, next, link, deeds⟩, turned, rfl⟩
      exact kept.hear turned
    | prints bytes =>
      simp only [act, Station.act, Option.ite_none_left_eq_some, Option.map_some,
        Option.some.injEq] at acted
      rcases acted with ⟨open_, rfl⟩
      rcases kept with ⟨intact, consumed, printed, progress⟩
      refine ⟨intact, consumed, ?_, ?_⟩
      · simp [Link.print, printed]
      · cases progress with
        | beyond silent => exact absurd silent open_
        | within reading segmented lines noted fresh disturbed =>
          exact .within reading segmented lines noted fresh disturbed
    | takes =>
      simp only [act, Station.act, Option.map_eq_some_iff, Option.ite_none_right_eq_some,
        Option.bind_eq_bind, Option.bind_eq_some_iff, Option.pure_def, Option.some.injEq] at acted
      rcases acted with
        ⟨z, ⟨-, received, -, ⟨actuator, next, link, deeds⟩, turned, rfl⟩, rfl⟩
      rcases Actuator.ear_of_takes turned with ⟨rfl, ear⟩
      rcases kept with ⟨intact, consumed, printed, progress⟩
      exact ⟨intact, consumed, printed, progress.disturb rfl ear⟩
    | passes later =>
      simp only [act, Station.act, Option.map_eq_some_iff, Option.ite_none_right_eq_some,
        Option.some.injEq] at acted
      rcases acted with ⟨z, ⟨-, rfl⟩, rfl⟩
      exact kept.quiet rfl rfl rfl rfl id ⟨rfl, rfl, rfl⟩
    | shares hub =>
      rcases Option.some.inj acted with rfl
      exact kept.quiet rfl rfl rfl rfl id ⟨rfl, rfl, rfl⟩
    | hushes =>
      rcases Option.some.inj acted with rfl
      exact kept.quiet rfl rfl rfl rfl (fun _ => rfl) ⟨rfl, rfl, rfl⟩
    | fails => cases acted
    | goesOn =>
      rcases Option.map_eq_some_iff.mp acted with ⟨z, went, rfl⟩
      cases phase : x.station.actuator.phase with
      | holding state ready =>
        simp only [Station.act, phase, Option.map_eq_some_iff] at went
        rcases went with ⟨⟨actuator, next, link, deeds⟩, stepped, rfl⟩
        rcases Actuator.ear_of_goesOn phase stepped with ⟨rfl, ear⟩
        exact kept.quiet rfl ear rfl rfl id ⟨rfl, rfl, rfl⟩
      | waiting | ended | failed | crashed => simp [Station.act, phase] at went
    | leaves =>
      simp only [act, Station.act, Option.map_eq_some_iff, Option.ite_none_right_eq_some] at acted
      rcases acted with ⟨z, ⟨-, ⟨actuator, next, link, deeds⟩, turned, rfl⟩, rfl⟩
      rcases Actuator.leaves_of_turn turned with ⟨rfl, -, rfl, -⟩
      exact kept.quiet rfl rfl rfl rfl id ⟨rfl, rfl, rfl⟩

theorem start (target : UInt8) (interval : Span) (hub : Hub) :
    (start target interval hub).Kept :=
  ⟨rfl, [], rfl, .within rfl .nil rfl rfl (by simp [Hearing.start, Station.start, Actuator.start])
    nofun⟩

theorem script (kept : x.Kept) {turns : List Turn} (played : turns.foldlM act x = some y) :
    y.Kept :=
  @Script.kept _ _ act x y turns Kept (fun acted kept => acts kept acted) played kept

end Kept

/-! ## The end of the stream -/

/-- One reading after another finds the end of a stream that is over. -/
theorem exists_end (silent : x.station.link.silent = true)
    (waiting : x.station.actuator.phase = .waiting) :
    ∃ count y, (List.replicate count (.station .reads)).foldlM act x = some y ∧
      y.station.actuator.reading = false ∧ y.printed = x.printed := by
  -- A reading takes bytes, or it ends the line that it has begun, or it ends everything.
  induction size : 2 * x.station.link.arrived.length + x.station.actuator.fresh.toNat using
      Nat.strongRecOn generalizing x with
  | ind size inductionHypothesis =>
  subst size
  cases reading : x.station.actuator.reading with
  | false => exact ⟨0, x, rfl, reading, rfl⟩
  | true =>
    rcases Actuator.exists_turn reading silent x.station.now x.station.hub with
      ⟨⟨actuator, next, link, deeds⟩, turned⟩
    have reads : x.act (.station .reads) = some (x.hear (actuator, next, link, deeds)) := by
      simp only [act, waiting, if_true]
      rw [turned, Option.map_some]
    have once : (List.replicate 1 (.station .reads)).foldlM act x =
        some (x.hear (actuator, next, link, deeds)) := by
      rw [List.replicate_one, List.foldlM_cons, reads]
      rfl
    have onwards : ∀ later : Hearing, x.act (.station .reads) = some later →
        later.station.link.silent = true → later.station.actuator.phase = .waiting →
        2 * later.station.link.arrived.length + later.station.actuator.fresh.toNat <
          2 * x.station.link.arrived.length + x.station.actuator.fresh.toNat →
        later.printed = x.printed →
        ∃ count y, (List.replicate count (.station .reads)).foldlM act x = some y ∧
          y.station.actuator.reading = false ∧ y.printed = x.printed := by
      intro later acted closed waits less same
      rcases inductionHypothesis _ less closed waits rfl with ⟨count, y, played, done, all⟩
      refine ⟨count + 1, y, ?_, done, all.trans same⟩
      rw [List.replicate_succ, List.foldlM_cons, acted]
      exact played
    rcases Actuator.reads_of_turn turned with ⟨-, -, read⟩
    generalize x.station.actuator.heard? x.station.link = heard at read
    cases read with
    | @line body later arrived within =>
      refine onwards _ reads silent waiting ?_ rfl
      have shorter : later.length < x.station.link.arrived.length := by
        simp only [arrived, List.length_append, List.length_cons]
        omega
      simp only [Hearing.hear, Station.adopt, Bool.toNat_false]
      omega
    | part something within =>
      refine onwards _ reads silent waiting ?_ rfl
      have some_bytes := List.length_pos_iff.mpr something
      simp only [Hearing.hear, Station.adopt, List.length_nil, Bool.toNat_true]
      omega
    | last nothing closed fresh =>
      refine onwards _ reads closed waiting ?_ rfl
      simp [Hearing.hear, Station.adopt, nothing, fresh]
    | fails | finish => exact ⟨1, _, once, rfl, rfl⟩

/-- What the actuator has made of a stream that is over: the lines that have ended,
in order, and what follows them, unless there is nothing or a state was taken
since its last byte had been read.  It has logged these lines and the end. -/
structure Heard (x : Hearing) : Prop where
  lines : ∃ ended rest, Segmented x.printed ended rest ∧
    x.lines = ended.map Line.read ++
      (if rest = [] ∨ x.disturbed = true then [] else [Line.read rest]) ∧
    (x.disturbed = true → rest ≠ [])
  noted : x.noted = x.lines.flatMap Actuator.lineLog ++ [Actuator.farewell]

theorem Kept.heard (kept : x.Kept) (done : x.station.actuator.reading = false) : x.Heard := by
  rcases kept with ⟨-, consumed, printed, progress⟩
  cases progress with
  | within reading => cases done.symm.trans reading
  | @beyond ended rest _ nothing segmented lines noted _ disturbed =>
    rw [nothing, List.append_nil] at printed
    rw [done] at noted
    exact ⟨⟨ended, rest, printed ▸ segmented, lines, disturbed⟩, noted⟩

/-- Once the actuator has found the end of the stream, it has read every line that
has ended, in order, and what follows the last of them if no state was taken
after its last byte had been read.  It finds the end if it is left to read.  So
nothing else matters, neither the pieces in which the stream arrived nor the
states that were taken meanwhile: two hearings of one stream that are both
disturbed at the end, or both not, have the same lines. -/
theorem lines_are_put_together {turns : List Turn}
    (played : turns.foldlM act (start target interval hub) = some x) :
    (x.station.actuator.reading = false → x.Heard) ∧
      (x.station.link.silent = true → x.station.actuator.phase = .waiting →
        ∃ count y, (List.replicate count (.station .reads)).foldlM act x = some y ∧
          y.station.actuator.reading = false ∧ y.printed = x.printed) ∧
      ∀ (others : List Turn) (other : UInt8) (span : Span) (shared : Hub) (y : Hearing),
        others.foldlM act (start other span shared) = some y →
          x.station.actuator.reading = false → y.station.actuator.reading = false →
          y.printed = x.printed → y.disturbed = x.disturbed → y.lines = x.lines := by
  have heard := ((Kept.start target interval hub).script played).heard
  refine ⟨heard, exists_end, ?_⟩
  intro others other span shared y playedToo done doneToo same alike
  rcases (heard done).lines with ⟨ended, rest, segmented, lines, -⟩
  rcases (((Kept.start other span shared).script playedToo).heard doneToo).lines with
    ⟨endedToo, restToo, segmentedToo, linesToo, -⟩
  rcases segmentedToo.unique (same ▸ segmented) with ⟨rfl, rfl⟩
  rw [lines, linesToo, alike]

/-- A line and the beginning of a packet arrive, and a state is taken before the
rest of it.  Then another line begins.  A state is taken again, and nothing more
comes. -/
def broken : List Turn :=
  [.station (.shares (Station.offering [⟨.half, .closed, .closed, .off, .none⟩,
      ⟨.half, .closed, .closed, .on, .none⟩])),
    .station (.prints (Text.Utf8.encode "ok\r\n<02".toList)), .station .reads, .station .reads,
    .station .takes, .station (.prints (Text.Utf8.encode "03020a0b\r\npump".toList)),
    .station .reads, .station .reads, .station .takes, .station .hushes, .station .reads]

/-- The first two lines have been read, and what was left of the stream is lost. -/
theorem lines_are_put_together_but_the_last :
    ∃ x, broken.foldlM act (start 7 (Span.ofMillis 1500) (.empty 8)) = some x ∧
      x.station.actuator.reading = false ∧ x.Heard ∧
      x.printed = Text.Utf8.encode "ok\r\n<0203020a0b\r\npump".toList ∧
      x.lines = [.text "ok".toList, .packet .received 2 .error [10, 11]] ∧
      Segmented x.printed [Text.Utf8.encode "ok\r\n".toList,
        Text.Utf8.encode "<0203020a0b\r\n".toList] (Text.Utf8.encode "pump".toList) ∧
      Line.read (Text.Utf8.encode "pump".toList) ∉ x.lines := by
  have told : (broken.foldlM act (start 7 (Span.ofMillis 1500) (.empty 8))).map
      (fun x => (x.station.actuator.reading, x.printed, x.lines)) =
        some (false, Text.Utf8.encode "ok\r\n<0203020a0b\r\npump".toList,
          [.text "ok".toList, .packet .received 2 .error [10, 11]]) := by
    decide +kernel
  rcases Option.map_eq_some_iff.mp told with ⟨x, played, looks⟩
  simp only [Prod.mk.injEq] at looks
  rcases looks with ⟨done, printed, lines⟩
  refine ⟨x, played, done, (lines_are_put_together played).1 done, printed, lines, ?_,
    by rw [lines]; decide +kernel⟩
  refine ⟨by rw [printed]; decide +kernel, ?_, by decide +kernel⟩
  intro segment member
  rcases List.mem_pair.mp member with rfl | rfl
  · exact ⟨Text.Utf8.encode "ok\r".toList, by decide +kernel, by decide +kernel⟩
  · exact ⟨Text.Utf8.encode "<0203020a0b\r".toList, by decide +kernel, by decide +kernel⟩

end Hearing
end Controller
end Ventilation
