import Ventilation.Bus.Hub
import Ventilation.Proofs.Bus.Once

namespace Ventilation
namespace Bus

/-!
# The signal to shut down

The signal is given once, and everyone who waits for it has it once: who waited
before it was given, and who asks for it only afterwards.  A late receiver is
not served by the topic, which keeps it on its list for a publishing that never
comes, but by the hub.  Whoever only listens to the topic, and does so too late,
waits for that publishing and has nothing.
-/

/-! ## Topics with one-shot listeners only -/

namespace Topic

variable {α : Type} {topic : Topic α}

/-- Nobody listens for good, and no publishing waits. -/
structure Brief (topic : Topic α) : Prop where
  lasting : topic.listeners.filterMap Listener.lasting? = []
  publishings : topic.publishings = []

theorem brief_empty (capacity : Nat) : (empty capacity : Topic α).Brief := ⟨rfl, rfl⟩

/-- A publishing ends at once where nobody can hold it up. -/
theorem Brief.publish (brief : topic.Brief) (value : α) :
    (topic.publish value).2.2 = { topic with
      nextTicket := topic.nextTicket + 1
      listeners := []
      shots := topic.shots.map fun entry =>
        if entry.1 ∈ topic.onces then (entry.1, .value value) else entry } := by
  rw [publish_eq]
  simp [proceed, opened, opening, brief.lasting, brief.publishings, serve, fire, onces]

theorem Brief.length_onces (brief : topic.Brief) : topic.onces.length = topic.listenerCount := by
  have lasting := brief.lasting
  unfold onces listenerCount
  generalize topic.listeners = listeners at lasting ⊢
  induction listeners with
  | nil => rfl
  | cons listener rest inductionHypothesis =>
    cases listener with
    | lasting id => cases lasting
    | once id => exact congrArg (· + 1) (inductionHypothesis lasting)

end Topic

/-! ## Calls -/

/-- What can be done with the signal to shut down. -/
inductive Call
  | await
  | listen
  | shutDown
  | drop (id : Nat)
  | poll (id : Nat)
  deriving DecidableEq

namespace Call

/-- The number of a receiver that comes with a call. -/
def returned : Call × Told Unit → Option Nat
  | (_, .listener id) => some id
  | _ => none

/-- How often a receiver has had the signal. -/
def heard (id : Nat) (trace : List (Call × Told Unit)) : Nat :=
  trace.countP fun entry =>
    match entry with
    | (.poll other, .polled (.value _)) => other = id
    | _ => false

def closed (trace : List (Call × Told Unit)) : Bool := trace.any fun entry => entry.1 = .shutDown

/-- What came before the signal was given. -/
def early (trace : List (Call × Told Unit)) : List (Call × Told Unit) :=
  trace.takeWhile fun entry => entry.1 ≠ .shutDown

/-- What came when the signal was given, and afterwards. -/
def late (trace : List (Call × Told Unit)) : List (Call × Told Unit) :=
  trace.dropWhile fun entry => entry.1 ≠ .shutDown

variable {trace : List (Call × Told Unit)} {entry : Call × Told Unit}

theorem filterMap_returned_concat (nobody : returned entry = none) :
    (trace ++ [entry]).filterMap returned = trace.filterMap returned := by
  rw [List.filterMap_append, List.filterMap_cons_none nobody, List.filterMap_nil, List.append_nil]

theorem closed_concat :
    closed (trace ++ [entry]) = (closed trace || decide (entry.1 = .shutDown)) := by
  simp [closed]

theorem early_concat : early (trace ++ [entry]) =
    early trace ++ if closed (trace ++ [entry]) then [] else [entry] := by
  unfold early closed
  induction trace with
  | nil => by_cases given : entry.1 = .shutDown <;> simp [given]
  | cons first rest inductionHypothesis =>
    by_cases given : first.1 = .shutDown
    · simp [given]
    · simp only [List.cons_append, List.takeWhile_cons, List.any_cons, given, decide_false,
        Bool.false_or, ne_eq, not_false_eq_true, decide_true, if_true]
      exact congrArg (first :: ·) inductionHypothesis

theorem late_concat : late (trace ++ [entry]) =
    late trace ++ if closed (trace ++ [entry]) then [entry] else [] := by
  unfold late closed
  induction trace with
  | nil => by_cases given : entry.1 = .shutDown <;> simp [given]
  | cons first rest inductionHypothesis =>
    by_cases given : first.1 = .shutDown
    · simp [given]
    · simp only [List.cons_append, List.dropWhile_cons, List.any_cons, given, decide_false,
        Bool.false_or, ne_eq, not_false_eq_true, decide_true, if_true]
      exact inductionHypothesis

theorem late_of_open (unsaid : closed trace = false) : late trace = [] := by
  refine List.dropWhile_eq_nil_iff.mpr fun entry member => ?_
  simpa using List.any_eq_false.mp unsaid entry member

/-- The signal is for whoever waits for it, and for whoever listens in time. -/
def due (id : Nat) (trace : List (Call × Told Unit)) : Prop :=
  (.await, .listener id) ∈ trace ∨ (.listen, .listener id) ∈ early trace

/-- Who listens when the signal has already been given. -/
def tardy (id : Nat) (trace : List (Call × Told Unit)) : Prop :=
  (.listen, .listener id) ∈ late trace

/-- What a receiver holds that the signal is for. -/
def share (id : Nat) (trace : List (Call × Told Unit)) : Shot Unit :=
  if closed trace then if heard id trace = 0 then .value () else .taken else .nothing

variable {id : Nat}

theorem returned_of_due (is_due : due id trace) : id ∈ trace.filterMap returned := by
  rcases is_due with member | member
  · exact List.mem_filterMap.mpr ⟨_, member, rfl⟩
  · exact List.mem_filterMap.mpr ⟨_, List.takeWhile_subset _ member, rfl⟩

theorem due_concat (apart : returned entry ≠ some id) :
    due id (trace ++ [entry]) ↔ due id trace := by
  have differs : ∀ call : Call, (call, .listener id) ≠ entry := by
    rintro call rfl
    exact apart rfl
  unfold due
  rw [early_concat]
  split <;> simp [differs]

theorem tardy_concat (apart : returned entry ≠ some id) :
    tardy id (trace ++ [entry]) ↔ tardy id trace := by
  have differs : ((.listen, .listener id) : Call × Told Unit) ≠ entry := by
    rintro rfl
    exact apart rfl
  unfold tardy
  rw [late_concat]
  split <;> simp [differs]

/-- The calls with which those came who are still on the list. -/
def standing (trace : List (Call × Told Unit)) : List (Call × Told Unit) :=
  if closed trace then late trace else trace

theorem standing_concat (other : entry.1 ≠ .shutDown ∨ closed trace = true) :
    standing (trace ++ [entry]) = standing trace ++ [entry] := by
  unfold standing
  rw [late_concat, closed_concat]
  cases given : closed trace with
  | true => simp
  | false =>
    have differs := other.resolve_right (by simp [given])
    simp [differs]

end Call

namespace Hub

open Call (returned heard closed late standing due tardy share)
open Topic (entryOf)

def call (hub : Hub) : Call → Told Unit × Hub
  | .await => (.listener hub.awaitShutdown.1, hub.awaitShutdown.2)
  | .listen =>
    (.listener hub.shutdown.listenOnce.1, { hub with shutdown := hub.shutdown.listenOnce.2 })
  | .shutDown => (.nothing, hub.shutDown)
  | .drop id => (.nothing, { hub with shutdown := hub.shutdown.dropOnce id })
  | .poll id =>
    match hub.takeShutdown? id with
    | some next => (.polled (.value ()), next)
    | none => (.polled (hub.shutdown.shot id), hub)

/-- Calls one after another, with what each of them tells. -/
def callAll (hub : Hub) (calls : List Call) : List (Call × Told Unit) × Hub :=
  calls.foldl (fun (trace, hub) call => (trace ++ [(call, (hub.call call).1)], (hub.call call).2))
    ([], hub)

theorem callAll_concat (hub : Hub) (calls : List Call) (call : Call) :
    hub.callAll (calls ++ [call]) =
      ((hub.callAll calls).1 ++ [(call, ((hub.callAll calls).2.call call).1)],
        ((hub.callAll calls).2.call call).2) := by
  unfold callAll
  rw [List.foldl_concat]

/-! ## Who is on the list -/

/-- The list and the numbers after some calls. -/
structure Enrols (trace : List (Call × Told Unit)) (hub : Hub) : Prop where
  closing : hub.closing = closed trace
  ticket : hub.shutdown.nextTicket = if closed trace then 1 else 0
  brief : hub.shutdown.Brief
  listed : hub.shutdown.onces = (standing trace).filterMap returned
  old : ∀ id ∈ trace.filterMap returned, id < hub.shutdown.nextId
  distinct : (trace.filterMap returned).Nodup

theorem enrols_empty (capacity : Nat) : Enrols [] (empty capacity) where
  closing := rfl
  ticket := rfl
  brief := Topic.brief_empty _
  listed := rfl
  old := nofun
  distinct := .nil

namespace Enrols

variable {trace : List (Call × Told Unit)} {hub : Hub} {call : Call} {told : Told Unit}

theorem lt_nextId (enrols : Enrols trace hub) {id : Nat} (member : (call, .listener id) ∈ trace) :
    id < hub.shutdown.nextId :=
  enrols.old id (List.mem_filterMap.mpr ⟨_, member, rfl⟩)

theorem stays (enrols : Enrols trace hub) (other : call ≠ .shutDown ∨ closed trace = true)
    (nobody : returned (call, told) = none) (shots : List (Nat × Shot Unit)) :
    Enrols (trace ++ [(call, told)])
      { hub with shutdown := { hub.shutdown with shots := shots } } := by
  have given : closed (trace ++ [(call, told)]) = closed trace := by
    rw [Call.closed_concat]
    rcases other with differs | already
    · simp [differs]
    · simp [already]
  constructor
  case closing => exact enrols.closing.trans given.symm
  case ticket => rw [given]; exact enrols.ticket
  case brief => exact ⟨enrols.brief.lasting, enrols.brief.publishings⟩
  case listed =>
    rw [Call.standing_concat other, Call.filterMap_returned_concat nobody]
    exact enrols.listed
  case old =>
    rw [Call.filterMap_returned_concat nobody]
    exact enrols.old
  case distinct =>
    rw [Call.filterMap_returned_concat nobody]
    exact enrols.distinct

theorem comes (enrols : Enrols trace hub) (other : call ≠ .shutDown)
    (shots : List (Nat × Shot Unit)) :
    Enrols (trace ++ [(call, .listener hub.shutdown.nextId)])
      { hub with shutdown := { hub.shutdown.listenOnce.2 with shots := shots } } := by
  have given : closed (trace ++ [(call, .listener hub.shutdown.nextId)]) = closed trace := by
    rw [Call.closed_concat]
    simp [other]
  have one : [(call, .listener hub.shutdown.nextId)].filterMap returned =
      [hub.shutdown.nextId] := rfl
  constructor
  case closing => exact enrols.closing.trans given.symm
  case ticket => rw [given]; exact enrols.ticket
  case brief =>
    refine ⟨?_, enrols.brief.publishings⟩
    change (hub.shutdown.listeners ++ [_]).filterMap _ = _
    rw [List.filterMap_append, enrols.brief.lasting]
    rfl
  case listed =>
    rw [Call.standing_concat (.inl other), List.filterMap_append, one, ← enrols.listed]
    exact List.filterMap_append
  case old =>
    intro id member
    change id < hub.shutdown.nextId + 1
    rw [List.filterMap_append, one, List.mem_append, List.mem_singleton] at member
    rcases member with before | rfl
    · exact Nat.lt_succ_of_lt (enrols.old id before)
    · exact Nat.lt_succ_self _
  case distinct =>
    rw [List.filterMap_append, one]
    refine enrols.distinct.append (List.nodup_singleton _) ?_
    rw [List.disjoint_singleton]
    exact fun member => Nat.lt_irrefl _ (enrols.old _ member)

/-- The signal takes everyone off the list. -/
theorem signals (enrols : Enrols trace hub) (unsaid : closed trace = false) :
    Enrols (trace ++ [(.shutDown, .nothing)])
      { hub with closing := true, shutdown := (hub.shutdown.publish ()).2.2 } := by
  have given : closed (trace ++ [(.shutDown, .nothing)]) = true := by
    rw [Call.closed_concat]
    simp
  have nobody : returned ((.shutDown : Call), (.nothing : Told Unit)) = none := rfl
  rw [enrols.brief.publish]
  constructor
  case closing => exact given.symm
  case ticket =>
    rw [given]
    change hub.shutdown.nextTicket + 1 = 1
    rw [enrols.ticket, unsaid]
    rfl
  case brief => exact ⟨rfl, enrols.brief.publishings⟩
  case listed =>
    rw [standing, if_pos given, Call.late_concat, Call.late_of_open unsaid, if_pos given]
    rfl
  case old =>
    rw [Call.filterMap_returned_concat nobody]
    exact enrols.old
  case distinct =>
    rw [Call.filterMap_returned_concat nobody]
    exact enrols.distinct

end Enrols

/-! ## What the receivers hold -/

/-- What the receivers hold after some calls. -/
structure Owes (trace : List (Call × Told Unit)) (hub : Hub) : Prop where
  numbered : hub.shutdown.Numbered
  quiet : closed trace = false → ∀ entry ∈ hub.shutdown.shots, entry.2 = .nothing
  known : ∀ id, heard id trace ≠ 0 → closed trace = true ∧ id < hub.shutdown.nextId
  fresh : ∀ id, entryOf hub.shutdown.shots id = some (.value ()) → heard id trace = 0
  once : ∀ id, heard id trace ≤ 1
  owed : ∀ id, .drop id ∉ trace.map (·.1) → due id trace →
    entryOf hub.shutdown.shots id = some (share id trace)
  idle : ∀ id, .drop id ∉ trace.map (·.1) → tardy id trace →
    entryOf hub.shutdown.shots id = some .nothing

theorem owes_empty (capacity : Nat) : Owes [] (empty capacity) where
  numbered := nofun
  quiet := nofun
  known := fun _ hears => absurd rfl hears
  fresh := fun _ _ => rfl
  once := fun _ => Nat.zero_le 1
  owed := fun _ _ is_due => by cases Call.returned_of_due is_due
  idle := nofun

namespace Owes

variable {trace : List (Call × Told Unit)} {hub : Hub} {call : Call} {told : Told Unit}

theorem not_drop_of_concat {id : Nat} (entry : Call × Told Unit)
    (undropped : .drop id ∉ (trace ++ [entry]).map (·.1)) :
    .drop id ∉ trace.map (·.1) ∧ entry.1 ≠ .drop id := by
  rw [List.map_append, List.mem_append, not_or] at undropped
  exact undropped.imp_right fun last same => last (List.mem_singleton.mpr same.symm)

theorem stays (owes : Owes trace hub) (nobody : returned (call, told) = none)
    (given : closed (trace ++ [(call, told)]) = closed trace) {shots : List (Nat × Shot Unit)}
    (fewer : shots ⊆ hub.shutdown.shots)
    (deaf : ∀ id, heard id (trace ++ [(call, told)]) = heard id trace)
    (same : ∀ id,
      entryOf shots id = if call = .drop id then none else entryOf hub.shutdown.shots id) :
    Owes (trace ++ [(call, told)])
      { hub with shutdown := { hub.shutdown with shots := shots } } := by
  have apart : ∀ id, returned (call, told) ≠ some id := by simp [nobody]
  constructor
  case numbered => exact fun entry member => owes.numbered entry (fewer member)
  case quiet =>
    rw [given]
    exact fun unsaid entry member => owes.quiet unsaid entry (fewer member)
  case known =>
    intro id hears
    rw [given]
    exact owes.known id (deaf id ▸ hears)
  case fresh =>
    intro id holds
    rw [deaf]
    refine owes.fresh id (((same id).symm.trans holds).symm.trans ?_).symm
    refine if_neg fun gone => ?_
    rw [same id, if_pos gone] at holds
    cases holds
  case once => exact fun id => deaf id ▸ owes.once id
  case owed =>
    intro id undropped is_due
    rcases not_drop_of_concat _ undropped with ⟨before, differs⟩
    rw [share, given, deaf]
    exact ((same id).trans (if_neg differs)).trans
      (owes.owed id before ((Call.due_concat (apart id)).mp is_due))
  case idle =>
    intro id undropped is_tardy
    rcases not_drop_of_concat _ undropped with ⟨before, differs⟩
    exact ((same id).trans (if_neg differs)).trans
      (owes.idle id before ((Call.tardy_concat (apart id)).mp is_tardy))

theorem comes (owes : Owes trace hub) (enrols : Enrols trace hub)
    (which : call = .await ∨ call = .listen) :
    Owes (trace ++ [(call, .listener hub.shutdown.nextId)])
      { hub with shutdown := { hub.shutdown.listenOnce.2 with
        shots := hub.shutdown.shots ++ [(hub.shutdown.nextId,
          if call = .await ∧ hub.closing = true then .value () else .nothing)] } } := by
  have given : closed (trace ++ [(call, .listener hub.shutdown.nextId)]) = closed trace := by
    rw [Call.closed_concat]
    rcases which with rfl | rfl <;> simp
  have deaf : ∀ id,
      heard id (trace ++ [(call, .listener hub.shutdown.nextId)]) = heard id trace := by
    intro id
    rcases which with rfl | rfl <;> simp [heard]
  have unheard : heard hub.shutdown.nextId trace = 0 :=
    Decidable.byContradiction fun hears => Nat.lt_irrefl _ (owes.known _ hears).2
  constructor
  case numbered =>
    intro entry member
    rcases List.mem_append.mp member with before | last
    · exact Nat.lt_succ_of_lt (owes.numbered entry before)
    · rw [List.mem_singleton.mp last]
      exact Nat.lt_succ_self _
  case quiet =>
    intro unsaid entry member
    rw [given] at unsaid
    rcases List.mem_append.mp member with before | last
    · exact owes.quiet unsaid entry before
    · rw [List.mem_singleton.mp last, enrols.closing, unsaid]
      exact if_neg nofun
  case known =>
    intro id hears
    rw [given]
    exact (owes.known id (deaf id ▸ hears)).imp_right Nat.lt_succ_of_lt
  case fresh =>
    intro id holds
    rw [deaf]
    by_cases new : id = hub.shutdown.nextId
    · exact new ▸ unheard
    · exact owes.fresh id ((Topic.entryOf_append _ new _).symm.trans holds)
  case once => exact fun id => deaf id ▸ owes.once id
  case owed =>
    intro id undropped is_due
    rcases not_drop_of_concat _ undropped with ⟨before, -⟩
    rw [share, given, deaf]
    by_cases new : id = hub.shutdown.nextId
    · subst new
      -- Who only listens is due the signal only if it has not been given.
      have waits : call = .await ∨ closed trace = false := by
        rcases is_due with member | member
        · rcases List.mem_append.mp member with before | last
          · exact absurd (enrols.lt_nextId before) (Nat.lt_irrefl _)
          · exact .inl (Prod.mk.inj (List.mem_singleton.mp last)).1.symm
        · rw [Call.early_concat, given] at member
          rcases List.mem_append.mp member with before | last
          · exact absurd (enrols.lt_nextId (List.takeWhile_subset _ before)) (Nat.lt_irrefl _)
          · by_contra said
            rw [if_pos (by simpa using fun unsaid => said (.inr unsaid))] at last
            cases last
      rw [unheard, enrols.closing]
      refine (owes.numbered.entryOf_concat _).trans (congrArg some ?_)
      rcases waits with rfl | unsaid
      · simp
      · simp [unsaid]
    · have apart : returned (call, (.listener hub.shutdown.nextId : Told Unit)) ≠ some id :=
        fun same => new (Option.some.inj same).symm
      exact (Topic.entryOf_append _ new _).trans
        (owes.owed id before ((Call.due_concat apart).mp is_due))
  case idle =>
    intro id undropped is_tardy
    rcases not_drop_of_concat _ undropped with ⟨before, -⟩
    by_cases new : id = hub.shutdown.nextId
    · subst new
      have listens : call = .listen := by
        rw [tardy, Call.late_concat] at is_tardy
        rcases List.mem_append.mp is_tardy with before | last
        · exact absurd (enrols.lt_nextId (List.dropWhile_subset _ before)) (Nat.lt_irrefl _)
        · split at last
          · exact (Prod.mk.inj (List.mem_singleton.mp last)).1.symm
          · cases last
      subst listens
      exact (owes.numbered.entryOf_concat _).trans (congrArg some (if_neg nofun))
    · have apart : returned (call, (.listener hub.shutdown.nextId : Told Unit)) ≠ some id :=
        fun same => new (Option.some.inj same).symm
      exact (Topic.entryOf_append _ new _).trans
        (owes.idle id before ((Call.tardy_concat apart).mp is_tardy))

/-- The signal comes, and everyone who is on the list has it. -/
theorem signals (owes : Owes trace hub) (enrols : Enrols trace hub)
    (unsaid : closed trace = false) :
    Owes (trace ++ [(.shutDown, .nothing)])
      { hub with closing := true, shutdown := (hub.shutdown.publish ()).2.2 } := by
  have given : closed (trace ++ [(.shutDown, .nothing)]) = true := by
    rw [Call.closed_concat]
    simp
  have deaf : ∀ id, heard id (trace ++ [(.shutDown, .nothing)]) = 0 := by
    intro id
    rw [heard, List.countP_append, ← heard]
    by_contra hears
    exact Bool.eq_false_iff.mp unsaid (owes.known id hears).1
  rw [enrols.brief.publish]
  constructor
  case numbered =>
    intro entry member
    rcases List.mem_map.mp member with ⟨old, before, rfl⟩
    split
    · exact owes.numbered old before
    · exact owes.numbered old before
  case quiet =>
    simp [given]
  case known =>
    exact fun id hears => absurd (deaf id) hears
  case fresh => exact fun id _ => deaf id
  case once => exact fun id => (deaf id).trans_le (Nat.zero_le 1)
  case owed =>
    intro id undropped is_due
    rcases not_drop_of_concat _ undropped with ⟨before, -⟩
    have was_due := (Call.due_concat (by simp [returned])).mp is_due
    -- Before the signal everyone who came is still on the list, so the publishing reaches them.
    have listed : id ∈ hub.shutdown.onces := by
      rw [enrols.listed, standing, unsaid]
      exact Call.returned_of_due was_due
    have held := owes.owed id before was_due
    rw [share, given, deaf]
    change entryOf (hub.shutdown.shots.map _) id = _
    rw [Topic.entryOf_map _ (fun entry => by split <;> rfl), held]
    simp [listed]
  case idle =>
    intro id _ is_tardy
    have was_tardy := (Call.tardy_concat (by simp [returned])).mp is_tardy
    rw [tardy, Call.late_of_open unsaid] at was_tardy
    cases was_tardy

theorem hears (owes : Owes trace hub) {id : Nat}
    (holds : entryOf hub.shutdown.shots id = some (.value ())) :
    Owes (trace ++ [(.poll id, .polled (.value ()))])
      { hub with shutdown := { hub.shutdown with
        shots := hub.shutdown.shots.map fun entry =>
          if entry.1 = id then (id, .taken) else entry } } := by
  have given : closed trace = true := by
    rcases Option.map_eq_some_iff.mp holds with ⟨entry, found, value⟩
    by_contra unsaid
    rw [owes.quiet (by simpa using unsaid) entry (List.mem_of_find?_eq_some found)] at value
    cases value
  have given_still : closed (trace ++ [(.poll id, .polled (.value ()))]) = true := by
    rw [Call.closed_concat, given]
    rfl
  have heard_now : ∀ other, heard other (trace ++ [(.poll id, .polled (.value ()))]) =
      heard other trace + if id = other then 1 else 0 := by
    intro other
    simp [heard]
  have keys : ∀ entry : Nat × Shot Unit,
      (if entry.1 = id then (id, .taken) else entry).1 = entry.1 := by
    intro entry
    split
    · next same => exact same.symm
    · rfl
  have apart : ∀ other,
      returned ((.poll id : Call), (.polled (.value ()) : Told Unit)) ≠ some other := nofun
  constructor
  case numbered =>
    intro entry member
    rcases List.mem_map.mp member with ⟨old, before, rfl⟩
    rw [keys]
    exact owes.numbered old before
  case quiet =>
    rw [given_still]
    exact nofun
  case known =>
    intro other hears
    refine ⟨given_still, ?_⟩
    by_cases own : id = other
    · subst own
      by_contra new
      rw [owes.numbered.entryOf_eq_none (Nat.le_of_not_lt new)] at holds
      cases holds
    · rw [heard_now, if_neg own] at hears
      exact (owes.known other hears).2
  case fresh =>
    intro other
    change entryOf (hub.shutdown.shots.map _) other = _ → _
    rw [Topic.entryOf_map _ keys, heard_now]
    by_cases own : id = other
    · subst own
      rw [holds]
      intro taken
      simp at taken
    · simpa [own, Ne.symm own] using owes.fresh other
  case once =>
    intro other
    rw [heard_now]
    split
    · next own => rw [← own, owes.fresh id holds]
    · exact owes.once other
  case owed =>
    intro other undropped is_due
    rcases not_drop_of_concat _ undropped with ⟨before, -⟩
    have held := owes.owed other before ((Call.due_concat (apart other)).mp is_due)
    change entryOf (hub.shutdown.shots.map _) other = _
    rw [Topic.entryOf_map _ keys, held, share, share, given, given_still, heard_now]
    by_cases own : id = other
    · simp [own]
    · simp [own, Ne.symm own]
  case idle =>
    intro other undropped is_tardy
    rcases not_drop_of_concat _ undropped with ⟨before, -⟩
    have held := owes.idle other before ((Call.tardy_concat (apart other)).mp is_tardy)
    have own : other ≠ id := by
      rintro rfl
      rw [held] at holds
      cases holds
    change entryOf (hub.shutdown.shots.map _) other = _
    rw [Topic.entryOf_map _ keys, held]
    simp [own]

end Owes

/-! ## Many calls -/

variable {trace : List (Call × Told Unit)} {hub : Hub}

/-- Who waits has its number, and has the signal if it has been given. -/
theorem awaitShutdown_eq (numbered : hub.shutdown.Numbered) :
    hub.awaitShutdown = (hub.shutdown.nextId,
      { hub with shutdown := { hub.shutdown.listenOnce.2 with
        shots := hub.shutdown.shots ++ [(hub.shutdown.nextId,
          if hub.closing = true then .value () else .nothing)] } }) := by
  have old : ∀ {change : Nat × Shot Unit → Nat × Shot Unit},
      (∀ entry, entry.1 ≠ hub.shutdown.nextId → change entry = entry) →
        hub.shutdown.shots.map change = hub.shutdown.shots := by
    intro change same
    conv_rhs => rw [← List.map_id hub.shutdown.shots]
    exact List.map_congr_left fun entry member => same _ (Nat.ne_of_lt (numbered entry member))
  cases closing : hub.closing with
  | true =>
    have shots : (hub.shutdown.listenOnce.2.shots.map fun entry =>
        if entry.1 = hub.shutdown.nextId then (hub.shutdown.nextId, .value ()) else entry) =
          hub.shutdown.shots ++ [(hub.shutdown.nextId, .value ())] := by
      refine List.map_append.trans ?_
      rw [old fun entry differs => if_neg differs]
      simp
    simp only [awaitShutdown, closing, if_true]
    exact congrArg (fun shots => (hub.shutdown.nextId, ({ hub with
      closing := true
      shutdown := { hub.shutdown.listenOnce.2 with shots := shots } } : Hub))) shots
  | false => simp [awaitShutdown, Topic.listenOnce, closing]

theorem call_poll (hub : Hub) (id : Nat) :
    (entryOf hub.shutdown.shots id = some (.value ()) ∧
      hub.call (.poll id) = (.polled (.value ()), { hub with shutdown := { hub.shutdown with
        shots := hub.shutdown.shots.map fun entry =>
          if entry.1 = id then (id, .taken) else entry } })) ∨
    (hub.shutdown.shot id ≠ .value () ∧
      hub.call (.poll id) = (.polled (hub.shutdown.shot id), hub)) := by
  have seen := hub.shutdown.shot_eq id
  cases held : hub.shutdown.shot id with
  | value value =>
    refine .inl ⟨?_, by simp only [call, takeShutdown?, Topic.takeShot?, held, Option.map_some]⟩
    rw [held] at seen
    cases found : entryOf hub.shutdown.shots id with
    | none => rw [found] at seen; cases seen
    | some shot => rw [found] at seen; exact congrArg some seen.symm
  | nothing =>
    exact .inr ⟨by simp, by simp only [call, takeShutdown?, Topic.takeShot?, held, Option.map_none]⟩
  | taken =>
    exact .inr ⟨by simp, by simp only [call, takeShutdown?, Topic.takeShot?, held, Option.map_none]⟩

/-- A call keeps account of the list and of what the receivers hold. -/
theorem call_keeps (enrols : Enrols trace hub) (owes : Owes trace hub) (call : Call) :
    Enrols (trace ++ [(call, (hub.call call).1)]) (hub.call call).2 ∧
      Owes (trace ++ [(call, (hub.call call).1)]) (hub.call call).2 := by
  cases call with
  | await =>
    have comes := owes.comes enrols (.inl rfl)
    simp only [true_and] at comes
    rw [call, awaitShutdown_eq owes.numbered]
    exact ⟨enrols.comes (by simp) _, comes⟩
  | listen => exact ⟨enrols.comes (by simp) _, owes.comes enrols (.inr rfl)⟩
  | shutDown =>
    change Enrols (trace ++ [(.shutDown, .nothing)]) hub.shutDown ∧
      Owes (trace ++ [(.shutDown, .nothing)]) hub.shutDown
    unfold shutDown
    rw [enrols.closing]
    cases said : closed trace with
    | true =>
      have given : closed (trace ++ [(.shutDown, .nothing)]) = closed trace := by
        rw [Call.closed_concat, said]
        rfl
      refine ⟨enrols.stays (.inr said) rfl hub.shutdown.shots, ?_⟩
      refine owes.stays rfl given (List.Subset.refl _) (fun id => ?_) fun id => by simp
      simp [heard]
    | false => exact ⟨enrols.signals said, owes.signals enrols said⟩
  | drop id =>
    have given : closed (trace ++ [(.drop id, .nothing)]) = closed trace := by
      simp [Call.closed_concat]
    refine ⟨enrols.stays (.inl (by simp)) rfl _,
      owes.stays rfl given (List.filter_subset_self _) (fun other => ?_) fun other => ?_⟩
    · simp [heard]
    · refine (Topic.entryOf_filter _ id other).trans ?_
      simp only [Call.drop.injEq, eq_comm]
  | poll id =>
    have given : ∀ told, closed (trace ++ [(.poll id, told)]) = closed trace := by
      simp [Call.closed_concat]
    rcases hub.call_poll id with ⟨holds, calls⟩ | ⟨nothing, calls⟩
    · rw [calls]
      exact ⟨enrols.stays (.inl (by simp)) rfl _, owes.hears holds⟩
    · rw [calls]
      refine ⟨enrols.stays (.inl (by simp)) rfl hub.shutdown.shots,
        owes.stays rfl (given _) (List.Subset.refl _) (fun other => ?_) fun other => by simp⟩
      cases held : hub.shutdown.shot id with
      | value value => exact absurd held nothing
      | nothing => simp [heard]
      | taken => simp [heard]

theorem callAll_keeps (capacity : Nat) (calls : List Call) :
    Enrols ((empty capacity).callAll calls).1 ((empty capacity).callAll calls).2 ∧
      Owes ((empty capacity).callAll calls).1 ((empty capacity).callAll calls).2 := by
  induction calls using List.reverseRecOn with
  | nil => exact ⟨enrols_empty capacity, owes_empty capacity⟩
  | append_singleton calls call inductionHypothesis =>
    rw [callAll_concat]
    exact call_keeps inductionHypothesis.1 inductionHypothesis.2 call

theorem callAll_calls (hub : Hub) (calls : List Call) :
    (hub.callAll calls).1.map (·.1) = calls := by
  induction calls using List.reverseRecOn with
  | nil => rfl
  | append_singleton calls call inductionHypothesis =>
    rw [callAll_concat, List.map_append, inductionHypothesis]
    rfl

theorem told_of_holds {id : Nat} {shot : Shot Unit}
    (holds : entryOf hub.shutdown.shots id = some shot) :
    (hub.call (.poll id)).1 = .polled shot := by
  rcases hub.call_poll id with ⟨signal, calls⟩ | ⟨-, calls⟩
  · rw [calls, Option.some.inj (holds.symm.trans signal)]
  · rw [calls, Topic.shot_eq, holds]
    rfl

/-- Whatever has been done with the signal to shut down, it has been published
once if it has been given at all, and the topic knows of everyone who came before
it was given, and then of everyone who came since.  Receivers are told apart, and
none has the signal twice.  Who waits for the signal, or listened in time, is
told nothing before it is given and the signal at the next poll afterwards; who
listened too late is told nothing. -/
theorem signal_reaches_everyone_once {capacity : Nat} {calls : List Call}
    (called : (empty capacity).callAll calls = (trace, hub)) :
    hub.shutdown.nextTicket = (if .shutDown ∈ calls then 1 else 0) ∧
      hub.shutdown.publishings = [] ∧
      (.shutDown ∈ calls → hub.shutDown = hub) ∧
      hub.shutdown.listenerCount = ((standing trace).filterMap returned).length ∧
      (trace.filterMap returned).Nodup ∧
      (∀ id, heard id trace ≤ 1) ∧
      (∀ id, .drop id ∉ calls → due id trace →
        (hub.call (.poll id)).1 = .polled (share id trace)) ∧
      (∀ id, .drop id ∉ calls → tardy id trace →
        (hub.call (.poll id)).1 = .polled .nothing) := by
  have keeps := callAll_keeps capacity calls
  have made := callAll_calls (empty capacity) calls
  rw [called] at keeps made
  rcases keeps with ⟨enrols, owes⟩
  have given : closed trace = true ↔ .shutDown ∈ calls := by
    simp [← made, closed]
  refine ⟨?_, enrols.brief.publishings, fun said => ?_, ?_, enrols.distinct, owes.once, ?_, ?_⟩
  · rw [enrols.ticket]
    exact if_congr given rfl rfl
  · rw [shutDown, if_pos (enrols.closing.trans (given.mpr said))]
  · rw [← enrols.brief.length_onces, enrols.listed]
  · intro id undropped is_due
    exact told_of_holds (owes.owed id (made ▸ undropped) is_due)
  · intro id undropped is_tardy
    exact told_of_holds (owes.idle id (made ▸ undropped) is_tardy)

/-- Two receivers come before the signal and two after it, and the first has
been told twice. -/
theorem signal_reaches_late_waiter :
    let calls : List Call :=
      [.await, .listen, .poll 1, .shutDown, .await, .listen, .poll 1, .shutDown]
    let hub := ((empty 1).callAll calls).2
    hub.shutdown.nextTicket = 1 ∧ hub.shutdown.listenerCount = 2 ∧
      (hub.call (.poll 1)).1 = .polled .taken ∧ (hub.call (.poll 2)).1 = .polled (.value ()) ∧
      (hub.call (.poll 3)).1 = .polled (.value ()) ∧ (hub.call (.poll 4)).1 = .polled .nothing := by
  intro calls hub
  rcases signal_reaches_everyone_once (show (empty 1).callAll calls = (_, hub) from rfl) with
    ⟨ticket, -, -, count, -, -, due, tardy⟩
  refine ⟨ticket, count, due 1 (by decide) (.inl ?_), due 2 (by decide) (.inr ?_),
    due 3 (by decide) (.inl ?_), tardy 4 (by decide) ?_⟩
  · exact .head _
  · exact .tail _ (.head _)
  · exact .tail _ (.tail _ (.tail _ (.tail _ (.head _))))
  · exact .tail _ (.tail _ (.head _))

end Hub
end Bus
end Ventilation
