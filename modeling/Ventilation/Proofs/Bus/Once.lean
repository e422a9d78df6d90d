import Ventilation.Proofs.Bus.Course
import Mathlib.Data.List.DropRight

namespace Ventilation
namespace Bus

/-!
# One-shot listeners

A one-shot listener is on the list of a topic until the next publishing begins,
and not a moment longer: the publishing serves it before it serves anyone else,
so it does not matter how long the publishing then waits for room.  No
publishing that goes on concerns it, because it came after all of them began.

The account of a one-shot receiver is what it holds and, as long as it is
listed, the first value that is to be published.
-/

variable {α : Type}

/-! ## What can be seen of a one-shot receiver -/

/-- The one-shot listener that comes with a step. -/
def enlisted : Step α × Told α → Option Nat
  | (.listenOnce, .listener id) => some id
  | _ => none

/-- The value that a one-shot receiver gives away with a step. -/
def polled (id : Nat) : Step α × Told α → List α
  | (.poll other, .polled (.value value)) => if other = id then [value] else []
  | _ => []

/-- What has happened since the last publishing began. -/
def lately (trace : List (Step α × Told α)) : List (Step α × Told α) :=
  trace.rtakeWhile fun entry => entry.1.published.isEmpty

namespace Topic

variable {topic next : Topic α}

/-- The one-shot listeners on the list. -/
def onces (topic : Topic α) : List Nat := topic.listeners.filterMap Listener.once?

/-- The value that a one-shot receiver holds. -/
def held (topic : Topic α) (id : Nat) : List α :=
  match topic.shot id with
  | .value value => [value]
  | _ => []

/-! ## Publishings do not concern them -/

/-- No publishing that has not ended has to do with a one-shot listener. -/
def Apart (topic : Topic α) : Prop :=
  ∀ id ∈ topic.onces, ∀ publishing ∈ topic.publishings, id ∉ publishing.gone ++ publishing.rest

theorem onces_filter {listeners : List Listener} {gone : List Nat}
    (apart : ∀ id ∈ listeners.filterMap Listener.once?, id ∉ gone) :
    (listeners.filter fun listener => listener.id ∉ gone).filterMap Listener.once? =
      listeners.filterMap Listener.once? := by
  induction listeners with
  | nil => rfl
  | cons listener rest inductionHypothesis =>
    cases listener with
    | lasting id =>
      rw [List.filter_cons]
      split <;> exact inductionHypothesis apart
    | once id =>
      have stays : decide ((Listener.once id).id ∉ gone) = true :=
        decide_eq_true (apart id List.mem_cons_self)
      have later := inductionHypothesis fun other member =>
        apart other (List.mem_cons_of_mem _ member)
      rw [List.filter_cons, if_pos stays]
      exact congrArg (id :: ·) later

theorem progress_names (topic : Topic α) (publishing : Publishing α) :
    publishing.gone ++ (topic.progress publishing).gone ++ (topic.progress publishing).rest ⊆
      publishing.gone ++ publishing.rest := by
  intro id member
  rcases List.mem_append.mp member with known | left
  · rcases List.mem_append.mp known with before | now
    · exact List.mem_append_left _ before
    · exact List.mem_append_right _ (boxOf_of_mem_gone now).1
  · exact List.mem_append_right _ (progress_rest_subset topic publishing left)

namespace Apart

theorem proceed (apart : topic.Apart) {publishing : Publishing α}
    (member : publishing ∈ topic.publishings) :
    (topic.proceed publishing).2.Apart ∧
      (topic.proceed publishing).2.onces = topic.onces := by
  have names := topic.progress_names publishing
  rcases topic.proceed_cases publishing with ⟨-, ended⟩ | ⟨-, waits⟩
  · rw [ended]
    have same : (topic.listeners.filter fun listener =>
        listener.id ∉ publishing.gone ++ (topic.progress publishing).gone).filterMap
          Listener.once? = topic.onces :=
      onces_filter fun id listed gone =>
        apart id listed publishing member (names (List.mem_append_left _ gone))
    refine ⟨fun id listed other present => ?_, same⟩
    exact apart id (same ▸ listed) other (List.mem_filter.mp present).1
  · rw [waits]
    refine ⟨fun id listed other present => ?_, rfl⟩
    rcases List.mem_map.mp present with ⟨old, before, rfl⟩
    split
    · exact fun known => apart id listed publishing member (names known)
    · exact apart id listed old before

theorem resumeAll (apart : topic.Apart) (tickets : List Nat) :
    (topic.resumeAll tickets).2.Apart ∧ (topic.resumeAll tickets).2.onces = topic.onces := by
  refine resumeAll_keeps (fun later => later.Apart ∧ later.onces = topic.onces) ?_
    ⟨apart, rfl⟩ tickets
  intro later publishing member ⟨apart, same⟩
  exact (apart.proceed member).imp_right (·.trans same)

end Apart

theorem onces_opened (topic : Topic α) (value : α) : (topic.opened value).onces = [] := by
  refine List.filterMap_eq_nil_iff.mpr fun listener member => ?_
  rcases List.mem_map.mp member with ⟨id, -, rfl⟩
  rfl

/-- Before others go on, a step changes the list of one-shot listeners only to
publish, and to let one of them come. -/
theorem Apart.act (apart : topic.Apart) (listed : topic.Listed) {taken : Step α}
    (typed : ∀ id, taken = .unsubscribe id → id ∉ topic.onces) :
    (topic.act taken).2.2.Apart ∧
      (topic.act taken).2.2.onces =
        (if taken.published = [] then topic.onces else []) ++
          (enlisted (taken, (topic.act taken).1)).toList := by
  have same : ∀ {next : Topic α}, next.publishings = topic.publishings →
      next.onces = topic.onces → next.Apart ∧ next.onces = topic.onces ++ [] := by
    intro next publishings onces
    refine ⟨fun id listed publishing member => ?_, by rw [onces, List.append_nil]⟩
    exact apart id (onces ▸ listed) publishing (publishings ▸ member)
  cases taken with
  | publish value =>
    have nobody : (topic.opened value).Apart := by
      intro id listed
      rw [onces_opened] at listed
      cases listed
    rw [act_publish]
    rcases nobody.proceed (topic.opening_mem_opened value) with ⟨later, none⟩
    exact ⟨later, none.trans (topic.onces_opened value)⟩
  | listenOnce =>
    have onces : (topic.act .listenOnce).2.2.onces = topic.onces ++ [topic.nextId] :=
      List.filterMap_append
    refine ⟨fun id member publishing present known => ?_, onces⟩
    rw [onces] at member
    rcases List.mem_append.mp member with old | new
    · exact apart id old publishing present known
    · rcases List.mem_singleton.mp new with rfl
      rcases List.mem_append.mp known with gone | owed
      · exact Nat.lt_irrefl _ (listed.gone_away publishing present _ gone).1
      · exact Nat.lt_irrefl _ (listed.rest_old publishing present _ owed)
  | subscribe => exact same rfl (List.filterMap_append.trans (List.append_nil _))
  | receive id =>
    rcases topic.act_receive_frame id with ⟨boxes, frame⟩
    rw [frame]
    exact same rfl rfl
  | unsubscribe id =>
    have stays : ∀ other ∈ topic.onces, other ∉ [id] := fun other member own =>
      typed id rfl (List.mem_singleton.mp own ▸ member)
    refine same rfl ((congrArg (List.filterMap Listener.once?) ?_).trans (onces_filter stays))
    exact List.filter_congr fun listener _ => by simp
  | drop id => exact same rfl rfl
  | poll id =>
    rcases topic.act_poll_frame id with ⟨shots, frame⟩
    have told : enlisted (.poll id, (topic.act (.poll id)).1) = none := rfl
    rw [frame, told]
    exact same rfl rfl
  | dropOnce id => exact same rfl rfl

theorem Apart.step (apart : topic.Apart) (listed : topic.Listed) {taken : Step α}
    (typed : ∀ id, taken = .unsubscribe id → id ∉ topic.onces) :
    (topic.step taken).2.2.Apart ∧
      (topic.step taken).2.2.onces =
        (if taken.published = [] then topic.onces else []) ++
          (enlisted (taken, (topic.step taken).1)).toList := by
  rcases apart.act listed typed with ⟨between, onces⟩
  rcases between.resumeAll ((topic.act taken).2.2.publishings.map (·.ticket)) with ⟨last, same⟩
  rw [step_eq]
  exact ⟨last, same.trans onces⟩

/-! ## What a one-shot receiver holds -/

/-- What is kept for a one-shot receiver, if it has not gone away. -/
def entryOf (shots : List (Nat × Shot α)) (id : Nat) : Option (Shot α) :=
  (shots.find? fun entry => entry.1 = id).map (·.2)

theorem held_eq (topic : Topic α) (id : Nat) :
    topic.held id =
      match entryOf topic.shots id with
      | some (.value value) => [value]
      | _ => [] := by
  unfold held shot entryOf
  generalize List.find? _ topic.shots = found
  rcases found with - | ⟨key, - | value | -⟩ <;> rfl

theorem entryOf_append (shots : List (Nat × Shot α)) {new id : Nat} (apart : id ≠ new)
    (shot : Shot α) : entryOf (shots ++ [(new, shot)]) id = entryOf shots id := by
  unfold entryOf
  rw [List.find?_append]
  cases shots.find? fun entry => entry.1 = id with
  | some entry => rfl
  | none => simp [apart.symm]

theorem entryOf_map (shots : List (Nat × Shot α)) {change : Nat × Shot α → Nat × Shot α}
    (keys : ∀ entry, (change entry).1 = entry.1) (id : Nat) :
    entryOf (shots.map change) id = (entryOf shots id).map fun shot => (change (id, shot)).2 := by
  unfold entryOf
  induction shots with
  | nil => rfl
  | cons entry rest inductionHypothesis =>
    simp only [List.map_cons, List.find?_cons, keys]
    by_cases own : entry.1 = id
    · subst own
      simp
    · simp only [own, decide_false]
      exact inductionHypothesis

theorem entryOf_filter (shots : List (Nat × Shot α)) (gone id : Nat) :
    entryOf (shots.filter fun entry => entry.1 ≠ gone) id =
      if id = gone then none else entryOf shots id := by
  unfold entryOf
  induction shots with
  | nil => simp
  | cons entry rest inductionHypothesis =>
    rw [List.filter_cons]
    by_cases dropped : entry.1 = gone
    · rw [if_neg (by simpa using dropped), inductionHypothesis]
      by_cases own : id = gone
      · simp [own]
      · have missed : entry.1 ≠ id := fun same => own (same.symm.trans dropped)
        simp [own, missed]
    · rw [if_pos (decide_eq_true dropped), List.find?_cons]
      by_cases here : entry.1 = id
      · subst here
        simp [dropped]
      · simp only [here, decide_false, List.find?_cons]
        exact inductionHypothesis

/-- Going on hands nothing to one-shot receivers. -/
theorem shots_step (topic : Topic α) (taken : Step α) :
    (topic.step taken).2.2.shots = (topic.act taken).2.2.shots := by
  rw [step_eq]
  refine resumeAll_keeps (fun later => later.shots = (topic.act taken).2.2.shots) ?_ rfl _
  intro later publishing _ same
  rcases later.proceed_cases publishing with ⟨-, ended⟩ | ⟨-, waits⟩
  · rw [ended]
    exact same
  · rw [waits]
    exact same

theorem shots_act_publish (topic : Topic α) (value : α) :
    (topic.act (.publish value)).2.2.shots =
      topic.shots.map fun entry =>
        if entry.1 ∈ topic.onces then (entry.1, .value value) else entry := by
  rw [act_publish]
  rcases (topic.opened value).proceed_cases (topic.opening value) with ⟨-, ended⟩ | ⟨-, waits⟩
  · rw [ended]
    rfl
  · rw [waits]
    rfl

/-! ## The account of a one-shot receiver -/

/-- What a one-shot receiver holds and, as long as it is listed, the first value
that is to be published. -/
def promise (topic : Topic α) (id : Nat) (future : List α) : List α :=
  topic.held id ++ if id ∈ topic.onces then future.take 1 else []

/-- What a step takes from the account of a one-shot receiver that is there
since before the step: what it gives away, and all of it if it goes away. -/
structure Keeps (topic : Topic α) (id : Nat) (taken : Step α) (told : Told α)
    (next : Topic α) : Prop where
  empty : id ∈ next.onces → next.held id = []
  less : ∀ future, polled id (taken, told) ++ next.promise id future <+:
    topic.promise id (taken.published ++ future)
  same : taken ≠ .dropOnce id → (entryOf topic.shots id).isSome →
    (entryOf next.shots id).isSome ∧
      ∀ future, polled id (taken, told) ++ next.promise id future =
        topic.promise id (taken.published ++ future)

theorem polled_eq_nil {id : Nat} {taken : Step α} {told : Told α}
    (silent : ∀ value, taken = .poll id → told ≠ .polled (.value value)) :
    polled id (taken, told) = [] := by
  unfold polled
  split
  · next other value equal =>
    rcases Prod.mk.inj equal with ⟨rfl, rfl⟩
    refine if_neg fun own => ?_
    subst own
    exact silent value rfl rfl
  · rfl

theorem promise_of_not_mem {id : Nat} (absent : id ∉ topic.onces) (future : List α) :
    topic.promise id future = topic.held id := by
  rw [promise, if_neg absent, List.append_nil]

theorem shot_eq (topic : Topic α) (id : Nat) :
    topic.shot id = (entryOf topic.shots id).getD .taken := by
  unfold shot entryOf
  generalize List.find? _ topic.shots = found
  rcases found with - | ⟨key, shot⟩ <;> rfl

theorem act_poll (topic : Topic α) (id : Nat) :
    (∃ value, entryOf topic.shots id = some (.value value) ∧
      topic.act (.poll id) = (.polled (.value value), [],
        { topic with
          shots := topic.shots.map fun entry => if entry.1 = id then (id, .taken) else entry })) ∨
    ((∀ value, topic.shot id ≠ .value value) ∧
      topic.act (.poll id) = (.polled (topic.shot id), [], topic)) := by
  have seen := topic.shot_eq id
  cases held : topic.shot id with
  | value value =>
    refine .inl ⟨value, ?_, by simp only [act, takeShot?, held]⟩
    rw [held] at seen
    cases found : entryOf topic.shots id with
    | none => rw [found] at seen; cases seen
    | some shot => rw [found] at seen; exact congrArg some seen.symm
  | nothing => exact .inr ⟨by simp, by simp only [act, takeShot?, held]⟩
  | taken => exact .inr ⟨by simp, by simp only [act, takeShot?, held]⟩

namespace Keeps

variable {id : Nat} {taken : Step α} {told : Told α}

/-- Nothing changes for a receiver when its entry stays and it stays on the list
or off it. -/
theorem of_same (kept : entryOf next.shots id = entryOf topic.shots id)
    (listed : id ∈ next.onces ↔ id ∈ topic.onces) (empty : id ∈ topic.onces → topic.held id = [])
    (nothing : taken.published = []) (silent : polled id (taken, told) = []) :
    Keeps topic id taken told next := by
  have held : next.held id = topic.held id := by rw [held_eq, held_eq, kept]
  have same : ∀ future, polled id (taken, told) ++ next.promise id future =
      topic.promise id (taken.published ++ future) := by
    intro future
    simp only [silent, nothing, promise, held, listed, List.nil_append]
  exact ⟨fun member => held ▸ empty (listed.mp member),
    fun future => same future ▸ List.prefix_rfl, fun _ there => ⟨kept ▸ there, same⟩⟩

/-- A publishing hands its value to a receiver that is listed, and takes
everyone off the list. -/
theorem of_publish {value : α} (empty : id ∈ topic.onces → topic.held id = [])
    (kept : entryOf next.shots id = (entryOf topic.shots id).map fun shot =>
      if id ∈ topic.onces then .value value else shot)
    (nobody : next.onces = []) : Keeps topic id (.publish value) told next := by
  have absent : id ∉ next.onces := by simp [nobody]
  have silent : polled id (Step.publish value, told) = [] := rfl
  have there : (entryOf topic.shots id).isSome → ∀ future,
      next.promise id future = topic.promise id (value :: future) := by
    intro present future
    rcases Option.isSome_iff_exists.mp present with ⟨shot, found⟩
    rw [promise_of_not_mem absent, held_eq, kept, found]
    by_cases member : id ∈ topic.onces
    · rw [promise, if_pos member, empty member]
      simp [member]
    · rw [promise_of_not_mem member, held_eq, found]
      simp [member]
  refine ⟨fun member => absurd member absent, ?_, ?_⟩
  · intro future
    rw [silent, List.nil_append]
    by_cases present : (entryOf topic.shots id).isSome
    · exact there present future ▸ List.prefix_rfl
    · rw [promise_of_not_mem absent, held_eq, kept, Option.not_isSome_iff_eq_none.mp present]
      exact List.nil_prefix
  · intro _ present
    refine ⟨by rw [kept, Option.isSome_map]; exact present, fun future => ?_⟩
    rw [silent, List.nil_append]
    exact there present future

theorem of_poll {value : α} (holds : entryOf topic.shots id = some (.value value))
    (kept : entryOf next.shots id = some .taken) (list : next.onces = topic.onces) :
    Keeps topic id (.poll id) (.polled (.value value)) next := by
  have before : topic.held id = [value] := by rw [held_eq, holds]
  have after : next.held id = [] := by rw [held_eq, kept]
  have gives : polled id (Step.poll id, Told.polled (.value value)) = [value] := if_pos rfl
  have same : ∀ future, polled id (Step.poll id, Told.polled (.value value)) ++
      next.promise id future = topic.promise id future := by
    intro future
    rw [gives, promise, promise, before, after, list, List.nil_append]
  refine ⟨fun _ => after, fun future => same future ▸ List.prefix_rfl, fun _ _ => ⟨?_, same⟩⟩
  rw [kept, Option.isSome_some]

theorem of_dropOnce (empty : id ∈ topic.onces → topic.held id = [])
    (kept : entryOf next.shots id = none) (list : next.onces = topic.onces) :
    Keeps topic id (.dropOnce id) told next := by
  have after : next.held id = [] := by rw [held_eq, kept]
  refine ⟨fun _ => after, fun future => ?_, fun apart => absurd rfl apart⟩
  change next.promise id future <+: topic.promise id future
  rw [promise, promise, after, list, List.nil_append]
  by_cases member : id ∈ topic.onces
  · rw [empty member]
    exact List.prefix_rfl
  · rw [if_neg member]
    exact List.nil_prefix

end Keeps

/-- What a step takes from the account of a one-shot receiver. -/
theorem keeps_step (apart : topic.Apart) (listed : topic.Listed) {taken : Step α}
    (typed : ∀ id, taken = .unsubscribe id → id ∉ topic.onces) {id : Nat} (old : id < topic.nextId)
    (empty : id ∈ topic.onces → topic.held id = []) :
    Keeps topic id taken (topic.step taken).1 (topic.step taken).2.2 := by
  have onces := (apart.step listed typed).2
  have shots := topic.shots_step taken
  have told : (topic.step taken).1 = (topic.act taken).1 := rfl
  rw [told] at onces ⊢
  have quiet : taken.published = [] → (topic.act taken).2.2.shots = topic.shots →
      enlisted (taken, (topic.act taken).1) = none →
      polled id (taken, (topic.act taken).1) = [] →
      Keeps topic id taken (topic.act taken).1 (topic.step taken).2.2 := by
    intro nothing kept nobody silent
    refine .of_same (by rw [shots, kept]) ?_ empty nothing silent
    rw [onces, if_pos nothing, nobody]
    simp
  cases taken with
  | subscribe => exact quiet rfl rfl rfl rfl
  | receive other =>
    rcases topic.act_receive_frame other with ⟨boxes, frame⟩
    exact quiet rfl (by rw [frame]) rfl (polled_eq_nil nofun)
  | unsubscribe other => exact quiet rfl rfl rfl rfl
  | drop other => exact quiet rfl rfl rfl rfl
  | listenOnce =>
    have apart_new : id ≠ topic.nextId := Nat.ne_of_lt old
    refine .of_same ?_ ?_ empty rfl rfl
    · rw [shots]
      exact entryOf_append topic.shots apart_new .nothing
    · rw [onces]
      change id ∈ topic.onces ++ [topic.nextId] ↔ _
      simp [apart_new]
  | publish value =>
    rw [shots_act_publish] at shots
    refine .of_publish empty ?_ onces
    rw [shots, entryOf_map _ (fun entry => by split <;> rfl)]
    congr
    funext shot
    split <;> rfl
  | poll other =>
    have list : (topic.step (.poll other)).2.2.onces = topic.onces :=
      onces.trans (List.append_nil _)
    rcases topic.act_poll other with ⟨value, holds, acted⟩ | ⟨nothing, acted⟩
    · have kept : entryOf (topic.step (.poll other)).2.2.shots id =
          (entryOf topic.shots id).map fun shot => if id = other then .taken else shot := by
        have keys : ∀ entry : Nat × Shot α,
            (if entry.1 = other then (other, .taken) else entry).1 = entry.1 := by
          intro entry
          split
          · next same => exact same.symm
          · rfl
        rw [shots, acted, entryOf_map _ keys]
        congr
        funext shot
        split <;> rfl
      rw [acted]
      by_cases own : id = other
      · subst own
        exact .of_poll holds (by rw [kept, holds]; simp) list
      · refine .of_same (kept.trans ?_) (by rw [list]) empty rfl (polled_eq_nil fun _ same => ?_)
        · simp [own]
        · exact absurd (Step.poll.inj same).symm own
    · refine quiet rfl (by rw [acted]) rfl (polled_eq_nil fun value same told => ?_)
      rw [acted] at told
      exact nothing value (Told.polled.inj told)
  | dropOnce other =>
    have kept : entryOf (topic.step (.dropOnce other)).2.2.shots id =
        if id = other then none else entryOf topic.shots id := by
      rw [shots]
      exact entryOf_filter topic.shots other id
    have list : (topic.step (.dropOnce other)).2.2.onces = topic.onces :=
      onces.trans (List.append_nil _)
    by_cases own : id = other
    · subst own
      exact .of_dropOnce empty (kept.trans (if_pos rfl)) list
    · exact .of_same (kept.trans (if_neg own)) (by rw [list]) empty rfl rfl

/-! ## Many steps -/

/-- Nobody stops listening in the name of a one-shot listener. -/
def Typed (topic : Topic α) (steps : List (Step α)) : Prop :=
  ∀ id, .unsubscribe id ∈ steps →
    id ∉ topic.onces ∧ (.listenOnce, .listener id) ∉ (topic.run steps).1

theorem enlisted_eq_some {id : Nat} {entry : Step α × Told α} :
    enlisted entry = some id ↔ entry = (.listenOnce, .listener id) := by
  unfold enlisted
  split
  · next other => simp
  · next apart =>
    refine iff_of_false nofun fun same => ?_
    exact apart id same

theorem Typed.step {taken : Step α} {rest : List (Step α)} (typed : topic.Typed (taken :: rest))
    (apart : topic.Apart) (listed : topic.Listed) :
    (∀ id, taken = .unsubscribe id → id ∉ topic.onces) ∧ (topic.step taken).2.2.Typed rest := by
  have here : ∀ id, taken = .unsubscribe id → id ∉ topic.onces := by
    rintro id rfl
    exact (typed id List.mem_cons_self).1
  refine ⟨here, fun id member => ?_⟩
  rcases typed id (List.mem_cons_of_mem _ member) with ⟨unlisted, untold⟩
  rw [run_cons] at untold
  refine ⟨fun listed_now => ?_, fun told => untold (List.mem_cons_of_mem _ told)⟩
  rw [(apart.step listed here).2] at listed_now
  rcases List.mem_append.mp listed_now with before | now
  · split at before
    · exact unlisted before
    · cases before
  · have came := enlisted_eq_some.mp (Option.mem_toList.mp now)
    exact untold (came ▸ List.mem_cons_self)

theorem promise_nil (topic : Topic α) (id : Nat) : topic.promise id [] = topic.held id := by
  simp [promise]

section Run

variable (orderly : topic.Orderly) (settled : topic.Settled) (apart : topic.Apart)
  {steps : List (Step α)} (typed : topic.Typed steps) {id : Nat}
include orderly settled apart typed

/-- What a one-shot receiver gives away and holds is what its account was. -/
theorem account_run (old : id < topic.nextId) (empty : id ∈ topic.onces → topic.held id = []) :
    (topic.run steps).1.flatMap (polled id) ++ (topic.run steps).2.held id <+:
        topic.promise id (announced (topic.run steps).1) ∧
      (.dropOnce id ∉ steps → (entryOf topic.shots id).isSome →
        (topic.run steps).1.flatMap (polled id) ++ (topic.run steps).2.held id =
          topic.promise id (announced (topic.run steps).1)) := by
  induction steps generalizing topic with
  | nil =>
    change topic.held id <+: topic.promise id [] ∧ (_ → _ → topic.held id = topic.promise id [])
    rw [promise_nil]
    exact ⟨List.prefix_rfl, fun _ _ => rfl⟩
  | cons taken rest inductionHypothesis =>
    rcases step_acts orderly settled taken with ⟨acts, still⟩
    rcases typed.step apart orderly.toListed with ⟨here, later⟩
    have keeps := keeps_step apart orderly.toListed here old empty
    rcases inductionHypothesis acts.orderly still (apart.step orderly.toListed here).1 later
      (Nat.lt_of_lt_of_le old (topic.step_frame taken).2.1) keeps.empty with ⟨less, same⟩
    have whole : (topic.run (taken :: rest)).1.flatMap (polled id) ++
        (topic.run (taken :: rest)).2.held id =
          polled id (taken, (topic.step taken).1) ++
            (((topic.step taken).2.2.run rest).1.flatMap (polled id) ++
              ((topic.step taken).2.2.run rest).2.held id) := by
      rw [run_cons, List.flatMap_cons, List.append_assoc]
    have announces : announced (topic.run (taken :: rest)).1 =
        taken.published ++ announced ((topic.step taken).2.2.run rest).1 := rfl
    rw [whole, announces]
    refine ⟨((List.prefix_append_right_inj _).mpr less).trans (keeps.less _), ?_⟩
    intro stays there
    have first : taken ≠ .dropOnce id := fun equal => stays (equal ▸ List.mem_cons_self)
    rcases keeps.same first there with ⟨present, now⟩
    rw [same (fun member => stays (List.mem_cons_of_mem _ member)) present]
    exact now _

end Run

/-- Receivers are kept under numbers that have been given. -/
def Numbered (topic : Topic α) : Prop := ∀ entry ∈ topic.shots, entry.1 < topic.nextId

theorem Numbered.entryOf_eq_none (numbered : topic.Numbered) {id : Nat} (new : topic.nextId ≤ id) :
    entryOf topic.shots id = none := by
  refine Option.map_eq_none_iff.mpr (List.find?_eq_none.mpr fun entry member => ?_)
  have old := numbered entry member
  simp only [decide_eq_true_eq]
  omega

theorem Numbered.step (numbered : topic.Numbered) (taken : Step α) :
    (topic.step taken).2.2.Numbered := by
  have grows := (topic.step_frame taken).2.1
  have kept : ∀ {shots : List (Nat × Shot α)}, (topic.step taken).2.2.shots = shots →
      (∀ entry ∈ shots, ∃ old ∈ topic.shots, old.1 = entry.1) →
      (topic.step taken).2.2.Numbered := by
    intro shots same keys entry member
    rcases keys entry (same ▸ member) with ⟨old, before, equal⟩
    exact equal ▸ Nat.lt_of_lt_of_le (numbered old before) grows
  have shots := topic.shots_step taken
  cases taken with
  | subscribe => exact kept shots fun entry member => ⟨entry, member, rfl⟩
  | receive id =>
    rcases topic.act_receive_frame id with ⟨boxes, frame⟩
    rw [frame] at shots
    exact kept shots fun entry member => ⟨entry, member, rfl⟩
  | unsubscribe id => exact kept shots fun entry member => ⟨entry, member, rfl⟩
  | drop id => exact kept shots fun entry member => ⟨entry, member, rfl⟩
  | dropOnce id =>
    exact kept shots fun entry member => ⟨entry, (List.mem_filter.mp member).1, rfl⟩
  | publish value =>
    refine kept (shots.trans (topic.shots_act_publish value)) fun entry member => ?_
    rcases List.mem_map.mp member with ⟨old, before, rfl⟩
    refine ⟨old, before, ?_⟩
    split <;> rfl
  | poll id =>
    rcases topic.act_poll id with ⟨value, -, acted⟩ | ⟨-, acted⟩
    · refine kept (shots.trans (congrArg (·.2.2.shots) acted)) fun entry member => ?_
      rcases List.mem_map.mp member with ⟨old, before, rfl⟩
      refine ⟨old, before, ?_⟩
      split
      · next same => exact same
      · rfl
    · exact kept (shots.trans (congrArg (·.2.2.shots) acted)) fun entry member =>
        ⟨entry, member, rfl⟩
  | listenOnce =>
    intro entry member
    rw [shots] at member
    rcases List.mem_append.mp member with old | new
    · exact Nat.lt_of_lt_of_le (numbered entry old) grows
    · rw [List.mem_singleton.mp new, step_nextId]
      exact Nat.lt_succ_self topic.nextId

/-- A receiver under the next number is the only one under that number. -/
theorem Numbered.entryOf_concat (numbered : topic.Numbered) (shot : Shot α) :
    entryOf (topic.shots ++ [(topic.nextId, shot)]) topic.nextId = some shot := by
  have absent := numbered.entryOf_eq_none (Nat.le_refl _)
  unfold entryOf at absent ⊢
  rw [List.find?_append, Option.map_eq_none_iff.mp absent]
  simp

/-- A one-shot receiver that comes has nothing as yet. -/
theorem Numbered.entryOf_listenOnce (numbered : topic.Numbered) :
    entryOf (topic.step .listenOnce).2.2.shots topic.nextId = some .nothing := by
  have shots : (topic.step .listenOnce).2.2.shots = topic.shots ++ [(topic.nextId, .nothing)] :=
    topic.shots_step .listenOnce
  rw [shots]
  exact numbered.entryOf_concat .nothing

/-- A one-shot receiver gets the first value that is published after it came,
and no other. -/
theorem account_since (orderly : topic.Orderly) (settled : topic.Settled) (apart : topic.Apart)
    {steps : List (Step α)} (typed : topic.Typed steps) (numbered : topic.Numbered) {id : Nat}
    (new : topic.nextId ≤ id) (came : (.listenOnce, .listener id) ∈ (topic.run steps).1) :
    (topic.run steps).1.flatMap (polled id) ++ (topic.run steps).2.held id <+:
        (announced (since id (topic.run steps).1)).take 1 ∧
      (.dropOnce id ∉ steps →
        (topic.run steps).1.flatMap (polled id) ++ (topic.run steps).2.held id =
          (announced (since id (topic.run steps).1)).take 1) := by
  induction steps generalizing topic with
  | nil => cases came
  | cons taken rest inductionHypothesis =>
    rcases step_acts orderly settled taken with ⟨acts, still⟩
    rcases typed.step apart orderly.toListed with ⟨here, later⟩
    have next_apart := (apart.step orderly.toListed here).1
    have silent : polled id (taken, (topic.step taken).1) = [] := by
      refine polled_eq_nil fun value same told => ?_
      subst same
      have absent := numbered.entryOf_eq_none new
      rcases topic.act_poll id with ⟨value, found, -⟩ | ⟨nothing, acted⟩
      · rw [absent] at found
        cases found
      · rw [show (topic.step (.poll id)).1 = (topic.act (.poll id)).1 from rfl, acted] at told
        exact nothing value (Told.polled.inj told)
    have whole : (topic.run (taken :: rest)).1.flatMap (polled id) ++
        (topic.run (taken :: rest)).2.held id =
          ((topic.step taken).2.2.run rest).1.flatMap (polled id) ++
            ((topic.step taken).2.2.run rest).2.held id := by
      rw [run_cons, List.flatMap_cons, silent, List.nil_append]
    rw [whole]
    by_cases birth : (topic.step taken).1 = .listener id
    · rcases acts.born id birth with ⟨same, next_eq⟩
      have begins : since id (topic.run (taken :: rest)).1 =
          ((topic.step taken).2.2.run rest).1 := by
        rw [run_cons, birth]
        exact if_pos rfl
      have first : taken = .listenOnce := by
        rw [run_cons] at came
        rcases List.mem_cons.mp came with now | after
        · exact (Prod.mk.inj now).1.symm
        · have fresh := acts.orderly.nextId_le_of_told still after
          omega
      subst first
      obtain rfl : topic.nextId = id := same.symm
      have entry := numbered.entryOf_listenOnce
      have onces : (topic.step .listenOnce).2.2.onces = topic.onces ++ [topic.nextId] :=
        (apart.step orderly.toListed here).2
      have listed : topic.nextId ∈ (topic.step .listenOnce).2.2.onces := by simp [onces]
      have empty : (topic.step .listenOnce).2.2.held topic.nextId = [] := by rw [held_eq, entry]
      have account := account_run acts.orderly still next_apart later (next_eq ▸ Nat.lt_succ_self _)
        fun _ => empty
      rw [promise, empty, if_pos listed, List.nil_append] at account
      rw [begins]
      refine account.imp_right fun same stays => same ?_ (by rw [entry]; rfl)
      exact fun member => stays (List.mem_cons_of_mem _ member)
    · have fresh := acts.nextId_le new birth
      rw [run_cons] at came ⊢
      rw [since_cons_of_ne birth]
      have after := (List.mem_cons.mp came).resolve_left fun now =>
        birth (Prod.mk.inj now).2.symm
      rcases inductionHypothesis acts.orderly still next_apart later (numbered.step taken) fresh
        after with ⟨less, same⟩
      exact ⟨less, fun stays => same fun member => stays (List.mem_cons_of_mem _ member)⟩

/-! ## The list of one-shot listeners -/

theorem apart_empty (capacity : Nat) : (empty capacity : Topic α).Apart := nofun

theorem run_concat (topic : Topic α) (steps : List (Step α)) (taken : Step α) :
    topic.run (steps ++ [taken]) =
      ((topic.run steps).1 ++ [(taken, ((topic.run steps).2.step taken).1)],
        ((topic.run steps).2.step taken).2.2) := by
  rw [run_append]
  rfl

/-- The one-shot listeners on the list are those who have come since the last
publishing began. -/
theorem onces_run (capacity : Nat) {steps : List (Step α)}
    (typed : (empty capacity : Topic α).Typed steps) :
    ((empty capacity).run steps).2.Apart ∧
      ((empty capacity).run steps).2.onces =
        (lately ((empty capacity).run steps).1).filterMap enlisted := by
  induction steps using List.reverseRecOn with
  | nil => exact ⟨apart_empty capacity, rfl⟩
  | append_singleton steps taken inductionHypothesis =>
    have earlier : (empty capacity : Topic α).Typed steps := by
      intro id member
      rcases typed id (List.mem_append_left _ member) with ⟨unlisted, untold⟩
      rw [run_concat] at untold
      exact ⟨unlisted, fun told => untold (List.mem_append_left _ told)⟩
    rcases inductionHypothesis earlier with ⟨apart, onces⟩
    have orderly := (run_orderly (orderly_empty capacity) nofun steps).1
    have here : ∀ id, taken = .unsubscribe id → id ∉ ((empty capacity).run steps).2.onces := by
      rintro id rfl listed
      rw [onces, List.mem_filterMap] at listed
      rcases listed with ⟨entry, member, came⟩
      have told := (List.rtakeWhile_suffix _ _).subset member
      rw [enlisted_eq_some.mp came] at told
      refine (typed id (List.mem_append_right _ (List.mem_singleton_self _))).2 ?_
      rw [run_concat]
      exact List.mem_append_left _ told
    rcases apart.step orderly.toListed here with ⟨later, now⟩
    rw [run_concat]
    refine ⟨later, now.trans ?_⟩
    unfold lately
    rw [List.rtakeWhile_concat]
    rcases ((empty capacity).run steps).2.act_cases taken with
      ⟨value, rfl⟩ | ⟨nothing, -⟩
    · rfl
    · have one : ∀ entry : Step α × Told α,
          [entry].filterMap enlisted = (enlisted entry).toList := by
        intro entry
        cases came : enlisted entry <;> simp [came]
      rw [nothing, if_pos rfl, if_pos List.isEmpty_nil, List.filterMap_append, one, onces]
      rfl

end Topic
end Bus
end Ventilation
