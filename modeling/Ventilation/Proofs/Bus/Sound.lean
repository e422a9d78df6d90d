import Ventilation.Bus.Topic
import Mathlib.Data.List.Nodup

namespace Ventilation
namespace Bus

/-!
# What holds of every topic

A topic is sound when its numbers are fresh and its lines are honest: nobody
stands in a line without an unfinished publishing that is about to serve the
listener of that line, and nobody stands in a line twice.  Every operation of
a topic keeps this, in whatever order operations come.

The operations are taken apart first.  `serve` walks along the listeners, so
what it does to the boxes is proved by induction on them; `proceed` is `serve`
and the bookkeeping of one publishing.
-/

variable {α : Type}

/-! ## Boxes -/

namespace Box

variable (box : Box α) (ticket : Nat) (value : α)

@[simp] theorem enter_id : (box.enter ticket value).id = box.id := rfl

@[simp] theorem enter_queue : (box.enter ticket value).queue = box.queue ++ [value] := rfl

@[simp] theorem enter_line : (box.enter ticket value).line = box.line.erase ticket := rfl

@[simp] theorem wait_id : (box.wait ticket).id = box.id := by
  unfold wait
  split <;> rfl

@[simp] theorem wait_queue : (box.wait ticket).queue = box.queue := by
  unfold wait
  split <;> rfl

theorem wait_line :
    (box.wait ticket).line = if ticket ∈ box.line then box.line else box.line ++ [ticket] := by
  unfold wait
  split <;> rfl

theorem mem_wait_line {box : Box α} {ticket other : Nat} :
    other ∈ (box.wait ticket).line ↔ other ∈ box.line ∨ other = ticket := by
  rw [wait_line]
  split
  · next present =>
    constructor
    · exact .inl
    · rintro (member | rfl)
      · exact member
      · exact present
  · simp

theorem wait_line_nodup {box : Box α} {ticket : Nat} (nodup : box.line.Nodup) :
    (box.wait ticket).line.Nodup := by
  rw [wait_line]
  split
  · exact nodup
  · next absent =>
    rw [List.nodup_append]
    exact ⟨nodup, List.nodup_singleton _, fun one member other last => by
      rw [List.mem_singleton.mp last]
      exact fun same => absent (same ▸ member)⟩

end Box

namespace Topic

/-- The box of a listener among others. -/
def boxOf (boxes : List (Box α)) (id : Nat) : Option (Box α) := boxes.find? fun box => box.id = id

theorem boxOf_eq_some {boxes : List (Box α)} {id : Nat} {box : Box α}
    (found : boxOf boxes id = some box) : box ∈ boxes ∧ box.id = id :=
  ⟨List.mem_of_find?_eq_some found, by simpa using List.find?_some found⟩

theorem ne_of_boxOf_eq_none {boxes : List (Box α)} {id : Nat} {box : Box α}
    (gone : boxOf boxes id = none) (member : box ∈ boxes) : box.id ≠ id := by
  simpa using List.find?_eq_none.mp gone box member

theorem mem_setBox {boxes : List (Box α)} {id : Nat} {changed box : Box α}
    (member : box ∈ setBox boxes id changed) :
    box = changed ∨ (box ∈ boxes ∧ box.id ≠ id) := by
  rcases List.mem_map.mp member with ⟨old, present, rfl⟩
  split
  · exact .inl rfl
  · next other => exact .inr ⟨present, other⟩

theorem boxOf_setBox {boxes : List (Box α)} {id : Nat} {changed : Box α}
    (same : changed.id = id) (other : Nat) :
    boxOf (setBox boxes id changed) other =
      if other = id then (boxOf boxes id).map fun _ => changed else boxOf boxes other := by
  induction boxes with
  | nil => simp [setBox, boxOf]
  | cons box rest inductionHypothesis =>
    simp only [boxOf, setBox, List.map_cons] at inductionHypothesis ⊢
    by_cases here : box.id = id
    · by_cases wanted : other = id
      · simp [here, same, wanted]
      · have missed : ¬ id = other := fun equal => wanted equal.symm
        simp only [here, same, missed, wanted, decide_false, if_true, if_false,
          List.find?_cons, inductionHypothesis]
    · by_cases found : box.id = other
      · have apart : ¬ other = id := fun equal => here (found.trans equal)
        simp [found, apart]
      · simp only [here, found, if_false, List.find?_cons, decide_false, inductionHypothesis]

/-! ## Serving one listener after another -/

/-- Whoever serves stands only in the line that it stops at, and the lines of
others are not touched. -/
theorem serve_line (capacity : Nat) {ticket : Nat} (value : α) {boxes : List (Box α)}
    {rest : List Nat} (nodup : ∀ box ∈ boxes, box.line.Nodup)
    (front : ∀ box ∈ boxes, ticket ∈ box.line → rest.head? = some box.id) :
    ∀ box ∈ (serve capacity ticket value boxes rest).boxes,
      box.line.Nodup ∧
        (ticket ∈ box.line → (serve capacity ticket value boxes rest).rest.head? = some box.id) ∧
        ∀ other ∈ box.line, other ≠ ticket → ∃ old ∈ boxes, old.id = box.id ∧ other ∈ old.line := by
  induction rest generalizing boxes with
  | nil =>
    intro box member
    exact ⟨nodup box member, front box member, fun other stands _ => ⟨box, member, rfl, stands⟩⟩
  | cons id rest inductionHypothesis =>
    simp only [serve]
    split
    · next gone =>
      refine inductionHypothesis nodup fun box member stands => ?_
      exact absurd (Option.some.inj (front box member stands)).symm
        (ne_of_boxOf_eq_none gone member)
    · next found here =>
      rcases boxOf_eq_some here with ⟨present, same⟩
      split
      · -- The listener has room: the one who serves leaves its line and goes on.
        intro box member
        have left : ∀ changed ∈ setBox boxes id (found.enter ticket value),
            changed.line.Nodup ∧ ticket ∉ changed.line := by
          intro changed changedMember
          rcases mem_setBox changedMember with rfl | ⟨kept, other⟩
          · exact ⟨(nodup found present).erase ticket, (nodup found present).not_mem_erase⟩
          · refine ⟨nodup changed kept, fun stands => other ?_⟩
            exact (Option.some.inj (front changed kept stands)).symm
        obtain ⟨distinct, stops, others⟩ :=
          inductionHypothesis (fun changed present => (left changed present).1)
            (fun changed present stands => absurd stands (left changed present).2) box member
        refine ⟨distinct, stops, fun other stands apart => ?_⟩
        rcases others other stands apart with ⟨old, oldMember, oldId, inLine⟩
        rcases mem_setBox oldMember with rfl | ⟨kept, -⟩
        · exact ⟨found, present, by rw [← oldId, Box.enter_id], List.mem_of_mem_erase inLine⟩
        · exact ⟨old, kept, oldId, inLine⟩
      · -- There is no room: the one who serves stops here.
        intro box member
        rcases mem_setBox member with rfl | ⟨kept, other⟩
        · refine ⟨Box.wait_line_nodup (nodup found present), fun _ => ?_, ?_⟩
          · rw [Box.wait_id, same]
            rfl
          · intro other stands apart
            have inLine := (Box.mem_wait_line.mp stands).resolve_right apart
            exact ⟨found, present, by rw [Box.wait_id], inLine⟩
        · refine ⟨nodup box kept, fun stands => ?_, fun one stands _ => ⟨box, kept, rfl, stands⟩⟩
          exact absurd (Option.some.inj (front box kept stands)).symm other

theorem setBox_ids (boxes : List (Box α)) (id : Nat) (changed : Box α) (same : changed.id = id) :
    (setBox boxes id changed).map (·.id) = boxes.map (·.id) := by
  rw [setBox, List.map_map]
  refine List.map_congr_left fun box _ => ?_
  by_cases here : box.id = id <;> simp [here, same]

theorem serve_ids (capacity ticket : Nat) (value : α) (boxes : List (Box α)) (rest : List Nat) :
    (serve capacity ticket value boxes rest).boxes.map (·.id) = boxes.map (·.id) := by
  induction rest generalizing boxes with
  | nil => rfl
  | cons id rest inductionHypothesis =>
    simp only [serve]
    split
    · exact inductionHypothesis boxes
    · next found here =>
      have same := (boxOf_eq_some here).2
      split
      · exact (inductionHypothesis _).trans (setBox_ids _ _ _ (by simp [same]))
      · exact setBox_ids _ _ _ (by simp [same])

/-! ## Going on with a publishing -/

/-- A publishing that has got so far. -/
def advance (publishing : Publishing α) (progress : Progress α) : Publishing α :=
  { publishing with
    rest := progress.rest
    served := publishing.served + progress.served
    gone := publishing.gone ++ progress.gone }

/-- How far a publishing gets in a topic. -/
def progress (topic : Topic α) (publishing : Publishing α) : Progress α :=
  serve topic.capacity publishing.ticket publishing.value topic.boxes publishing.rest

/-- A publishing either ends, and listeners that are gone are forgotten, or it
waits at the next listener. -/
theorem proceed_cases (topic : Topic α) (publishing : Publishing α) :
    ((topic.progress publishing).rest = [] ∧
      topic.proceed publishing =
        (some (publishing.served + (topic.progress publishing).served),
          { topic with
            boxes := (topic.progress publishing).boxes
            listeners := topic.listeners.filter fun listener =>
              listener.id ∉ publishing.gone ++ (topic.progress publishing).gone
            publishings := topic.publishings.filter fun other =>
              other.ticket ≠ publishing.ticket })) ∨
    ((topic.progress publishing).rest ≠ [] ∧
      topic.proceed publishing =
        (none,
          { topic with
            boxes := (topic.progress publishing).boxes
            publishings := topic.publishings.map fun other =>
              if other.ticket = publishing.ticket then
                advance publishing (topic.progress publishing)
              else other })) := by
  by_cases done : (topic.progress publishing).rest = []
  · refine .inl ⟨done, ?_⟩
    simp only [progress] at done
    simp [proceed, progress, done]
  · refine .inr ⟨done, ?_⟩
    simp only [progress] at done
    simp [proceed, progress, done, advance]

section Proceed

variable (topic : Topic α) (publishing : Publishing α)

theorem proceed_frame :
    (topic.proceed publishing).2.boxes = (topic.progress publishing).boxes ∧
      (topic.proceed publishing).2.capacity = topic.capacity ∧
        (topic.proceed publishing).2.nextId = topic.nextId ∧
          (topic.proceed publishing).2.nextTicket = topic.nextTicket := by
  rcases topic.proceed_cases publishing with ⟨-, gone⟩ | ⟨-, waits⟩
  · rw [gone]
    exact ⟨rfl, rfl, rfl, rfl⟩
  · rw [waits]
    exact ⟨rfl, rfl, rfl, rfl⟩

@[simp] theorem proceed_boxes :
    (topic.proceed publishing).2.boxes = (topic.progress publishing).boxes :=
  (topic.proceed_frame publishing).1

@[simp] theorem proceed_capacity : (topic.proceed publishing).2.capacity = topic.capacity :=
  (topic.proceed_frame publishing).2.1

@[simp] theorem proceed_nextId : (topic.proceed publishing).2.nextId = topic.nextId :=
  (topic.proceed_frame publishing).2.2.1

@[simp] theorem proceed_nextTicket :
    (topic.proceed publishing).2.nextTicket = topic.nextTicket :=
  (topic.proceed_frame publishing).2.2.2

theorem proceed_listeners :
    (topic.proceed publishing).2.listeners.Sublist topic.listeners := by
  rcases topic.proceed_cases publishing with ⟨-, gone⟩ | ⟨-, waits⟩
  · rw [gone]
    exact List.filter_sublist
  · rw [waits]

theorem proceed_tickets :
    ((topic.proceed publishing).2.publishings.map (·.ticket)).Sublist
      (topic.publishings.map (·.ticket)) := by
  rcases topic.proceed_cases publishing with ⟨-, gone⟩ | ⟨-, waits⟩
  · rw [gone]
    exact List.filter_sublist.map _
  · rw [waits, List.map_map]
    have same : topic.publishings.map ((·.ticket) ∘ fun other =>
        if other.ticket = publishing.ticket then
          advance publishing (topic.progress publishing) else other) =
        topic.publishings.map (·.ticket) := by
      refine List.map_congr_left fun other _ => ?_
      by_cases own : other.ticket = publishing.ticket <;> simp [own, advance]
    rw [same]

variable {topic publishing}

theorem mem_proceed_of_ne {other : Publishing α} (member : other ∈ topic.publishings)
    (apart : other.ticket ≠ publishing.ticket) :
    other ∈ (topic.proceed publishing).2.publishings := by
  rcases topic.proceed_cases publishing with ⟨-, gone⟩ | ⟨-, waits⟩
  · rw [gone]
    exact List.mem_filter.mpr ⟨member, by simpa using apart⟩
  · rw [waits]
    exact List.mem_map.mpr ⟨other, member, if_neg apart⟩

theorem advance_mem_proceed (member : publishing ∈ topic.publishings)
    (waits : (topic.progress publishing).rest ≠ []) :
    advance publishing (topic.progress publishing) ∈ (topic.proceed publishing).2.publishings := by
  rcases topic.proceed_cases publishing with ⟨done, -⟩ | ⟨-, waiting⟩
  · exact absurd done waits
  · rw [waiting]
    exact List.mem_map.mpr ⟨publishing, member, if_pos rfl⟩

end Proceed

theorem resume_cases (topic : Topic α) (ticket : Nat) :
    topic.resume ticket = (none, topic) ∨
      ∃ publishing ∈ topic.publishings, publishing.ticket = ticket ∧
        topic.ready publishing = true ∧ topic.resume ticket = topic.proceed publishing := by
  unfold resume
  split
  · next publishing found =>
    split
    · next ready =>
      exact .inr ⟨publishing, List.mem_of_find?_eq_some found,
        by simpa using List.find?_some found, ready, rfl⟩
    · exact .inl rfl
  · exact .inl rfl

/-! ## Beginning to publish -/

def opening (topic : Topic α) (value : α) : Publishing α :=
  ⟨topic.nextTicket, value, topic.listeners.filterMap Listener.lasting?,
    (fire topic.shots value (topic.listeners.filterMap Listener.once?)).1, []⟩

/-- The topic once the one-shot listeners are served and nobody else is. -/
def opened (topic : Topic α) (value : α) : Topic α :=
  { topic with
    nextTicket := topic.nextTicket + 1
    listeners := (topic.listeners.filterMap Listener.lasting?).map .lasting
    shots := (fire topic.shots value (topic.listeners.filterMap Listener.once?)).2
    publishings := topic.publishings ++ [topic.opening value] }

theorem publish_eq (topic : Topic α) (value : α) :
    topic.publish value =
      (topic.nextTicket, (topic.opened value).proceed (topic.opening value)) := rfl

theorem lasting_sublist (listeners : List Listener) :
    (listeners.filterMap Listener.lasting?).Sublist (listeners.map (·.id)) := by
  induction listeners with
  | nil => exact .slnil
  | cons listener rest inductionHypothesis =>
    cases listener with
    | lasting id => exact inductionHypothesis.cons_cons id
    | once id => exact inductionHypothesis.cons id

theorem opening_mem_opened (topic : Topic α) (value : α) :
    topic.opening value ∈ (topic.opened value).publishings := by
  simp [opened]

/-! ## Taking a value -/

theorem receive?_eq_some {topic next : Topic α} {id : Nat} {value : α}
    (received : topic.receive? id = some (value, next)) :
    ∃ box queue, boxOf topic.boxes id = some box ∧ box.queue = value :: queue ∧
      next = { topic with boxes := setBox topic.boxes id { box with queue := queue } } := by
  unfold receive? at received
  split at received
  · next box found =>
    split at received
    · cases received
    · next oldest queue content =>
      simp only [Option.some.injEq, Prod.mk.injEq] at received
      rcases received with ⟨rfl, rfl⟩
      exact ⟨box, queue, found, content, rfl⟩
  · cases received

/-! ## Soundness -/

/-- Numbers are fresh, and whoever stands in a line is an unfinished publishing
that is about to serve the listener of that line. -/
structure Sound (topic : Topic α) : Prop where
  listeners_nodup : (topic.listeners.map (·.id)).Nodup
  listeners_old : ∀ listener ∈ topic.listeners, listener.id < topic.nextId
  boxes_old : ∀ box ∈ topic.boxes, box.id < topic.nextId
  tickets_nodup : (topic.publishings.map (·.ticket)).Nodup
  tickets_old : ∀ publishing ∈ topic.publishings, publishing.ticket < topic.nextTicket
  line_nodup : ∀ box ∈ topic.boxes, box.line.Nodup
  line_waits : ∀ box ∈ topic.boxes, ∀ ticket ∈ box.line, ∃ publishing ∈ topic.publishings,
    publishing.ticket = ticket ∧ publishing.rest.head? = some box.id

theorem sound_empty (capacity : Nat) : (empty capacity : Topic α).Sound where
  listeners_nodup := List.nodup_nil
  listeners_old := by simp [empty]
  boxes_old := by simp [empty]
  tickets_nodup := List.nodup_nil
  tickets_old := by simp [empty]
  line_nodup := by simp [empty]
  line_waits := by simp [empty]

namespace Sound

variable {topic : Topic α}

theorem publishing_unique (sound : topic.Sound) {first second : Publishing α}
    (firstMember : first ∈ topic.publishings) (secondMember : second ∈ topic.publishings)
    (same : first.ticket = second.ticket) : first = second :=
  List.inj_on_of_nodup_map sound.tickets_nodup firstMember secondMember same

theorem proceed (sound : topic.Sound) {publishing : Publishing α}
    (member : publishing ∈ topic.publishings) : (topic.proceed publishing).2.Sound := by
  have front : ∀ box ∈ topic.boxes, publishing.ticket ∈ box.line →
      publishing.rest.head? = some box.id := by
    intro box present stands
    rcases sound.line_waits box present _ stands with ⟨own, ownMember, same, heads⟩
    exact sound.publishing_unique ownMember member same ▸ heads
  have lines := serve_line topic.capacity publishing.value sound.line_nodup front
  refine ⟨?_, ?_, ?_, ?_, ?_, ?_, ?_⟩
  · exact ((topic.proceed_listeners publishing).map _).nodup sound.listeners_nodup
  · intro listener present
    rw [proceed_nextId]
    exact sound.listeners_old listener ((topic.proceed_listeners publishing).subset present)
  · intro box present
    rw [proceed_boxes] at present
    have known : box.id ∈ topic.boxes.map (·.id) := by
      rw [← serve_ids topic.capacity publishing.ticket publishing.value topic.boxes publishing.rest]
      exact List.mem_map_of_mem present
    rcases List.mem_map.mp known with ⟨old, oldMember, same⟩
    rw [proceed_nextId, ← same]
    exact sound.boxes_old old oldMember
  · exact (topic.proceed_tickets publishing).nodup sound.tickets_nodup
  · intro other present
    have known := (topic.proceed_tickets publishing).subset (List.mem_map_of_mem present)
    rcases List.mem_map.mp known with ⟨old, oldMember, same⟩
    rw [proceed_nextTicket, ← same]
    exact sound.tickets_old old oldMember
  · intro box present
    rw [proceed_boxes] at present
    exact (lines box present).1
  · intro box present ticket stands
    rw [proceed_boxes] at present
    rcases lines box present with ⟨-, stops, others⟩
    by_cases own : ticket = publishing.ticket
    · have heads := stops (own ▸ stands)
      refine ⟨_, advance_mem_proceed member ?_, own.symm, heads⟩
      intro done
      change (topic.progress publishing).rest.head? = _ at heads
      rw [done] at heads
      cases heads
    · rcases others ticket stands own with ⟨old, oldMember, sameBox, inLine⟩
      rcases sound.line_waits old oldMember ticket inLine with ⟨other, otherMember, named, heads⟩
      exact ⟨other, mem_proceed_of_ne otherMember (named ▸ own), named, sameBox ▸ heads⟩

theorem opened (sound : topic.Sound) (value : α) : (topic.opened value).Sound where
  listeners_nodup := by
    have ids : (topic.opened value).listeners.map (·.id) =
        topic.listeners.filterMap Listener.lasting? := by
      simp [Topic.opened, Function.comp_def, Listener.id]
    rw [ids]
    exact (lasting_sublist topic.listeners).nodup sound.listeners_nodup
  listeners_old := by
    intro listener member
    rcases List.mem_map.mp member with ⟨id, present, rfl⟩
    obtain ⟨old, oldMember, same⟩ :=
      List.mem_map.mp ((lasting_sublist topic.listeners).subset present)
    exact same ▸ sound.listeners_old old oldMember
  boxes_old := sound.boxes_old
  tickets_nodup := by
    simp only [Topic.opened, List.map_append, List.map_cons, List.map_nil]
    rw [List.nodup_append]
    refine ⟨sound.tickets_nodup, List.nodup_singleton _, ?_⟩
    intro ticket member last lastMember
    rcases List.mem_map.mp member with ⟨old, oldMember, rfl⟩
    rw [List.mem_singleton.mp lastMember]
    exact Nat.ne_of_lt (sound.tickets_old old oldMember)
  tickets_old := by
    intro publishing member
    rcases List.mem_append.mp member with old | new
    · exact Nat.lt_succ_of_lt (sound.tickets_old publishing old)
    · rw [List.mem_singleton.mp new]
      exact Nat.lt_succ_self _
  line_nodup := sound.line_nodup
  line_waits := by
    intro box member ticket stands
    rcases sound.line_waits box member ticket stands with ⟨publishing, present, facts⟩
    exact ⟨publishing, List.mem_append_left _ present, facts⟩

theorem publish (sound : topic.Sound) (value : α) : (topic.publish value).2.2.Sound := by
  rw [publish_eq]
  exact (sound.opened value).proceed (topic.opening_mem_opened value)

/-- Lines and publishings do not change when values are taken out of a queue. -/
theorem requeue (sound : topic.Sound) {id : Nat} {box : Box α}
    (found : boxOf topic.boxes id = some box) (queue : List α) :
    ({ topic with boxes := setBox topic.boxes id { box with queue := queue } } : Topic α).Sound := by
  rcases boxOf_eq_some found with ⟨present, same⟩
  have kept : ∀ changed ∈ setBox topic.boxes id { box with queue := queue },
      ∃ old ∈ topic.boxes, old.id = changed.id ∧ old.line = changed.line := by
    intro changed member
    rcases mem_setBox member with rfl | ⟨other, -⟩
    · exact ⟨box, present, rfl, rfl⟩
    · exact ⟨changed, other, rfl, rfl⟩
  refine { sound with boxes_old := ?_, line_nodup := ?_, line_waits := ?_ }
  · intro changed member
    rcases kept changed member with ⟨old, oldMember, sameId, -⟩
    exact sameId ▸ sound.boxes_old old oldMember
  · intro changed member
    rcases kept changed member with ⟨old, oldMember, -, sameLine⟩
    exact sameLine ▸ sound.line_nodup old oldMember
  · intro changed member ticket stands
    rcases kept changed member with ⟨old, oldMember, sameId, sameLine⟩
    exact sameId ▸ sound.line_waits old oldMember ticket (sameLine ▸ stands)

theorem receive? (sound : topic.Sound) {id : Nat} {value : α} {next : Topic α}
    (received : topic.receive? id = some (value, next)) : next.Sound := by
  rcases receive?_eq_some received with ⟨box, queue, found, -, rfl⟩
  exact sound.requeue found queue

theorem subscribe (sound : topic.Sound) : topic.subscribe.2.Sound := by
  refine { sound with
    listeners_nodup := ?_, listeners_old := ?_, boxes_old := ?_, line_nodup := ?_,
    line_waits := ?_ }
  · simp only [Topic.subscribe, List.map_append, List.map_cons, List.map_nil]
    rw [List.nodup_append]
    refine ⟨sound.listeners_nodup, List.nodup_singleton _, ?_⟩
    intro id member last lastMember
    rcases List.mem_map.mp member with ⟨old, oldMember, rfl⟩
    rw [List.mem_singleton.mp lastMember]
    exact Nat.ne_of_lt (sound.listeners_old old oldMember)
  · intro listener member
    rcases List.mem_append.mp member with old | new
    · exact Nat.lt_succ_of_lt (sound.listeners_old listener old)
    · rw [List.mem_singleton.mp new]
      exact Nat.lt_succ_self _
  · intro box member
    rcases List.mem_append.mp member with old | new
    · exact Nat.lt_succ_of_lt (sound.boxes_old box old)
    · rw [List.mem_singleton.mp new]
      exact Nat.lt_succ_self _
  · intro box member
    rcases List.mem_append.mp member with old | new
    · exact sound.line_nodup box old
    · rw [List.mem_singleton.mp new]
      exact List.nodup_nil
  · intro box member ticket stands
    rcases List.mem_append.mp member with old | new
    · exact sound.line_waits box old ticket stands
    · rw [List.mem_singleton.mp new] at stands
      cases stands

theorem drop (sound : topic.Sound) (id : Nat) : (topic.drop id).Sound :=
  { sound with
    boxes_old := fun box member => sound.boxes_old box (List.mem_filter.mp member).1
    line_nodup := fun box member => sound.line_nodup box (List.mem_filter.mp member).1
    line_waits := fun box member => sound.line_waits box (List.mem_filter.mp member).1 }

theorem unsubscribe (sound : topic.Sound) (id : Nat) : (topic.unsubscribe id).Sound :=
  { sound.drop id with
    listeners_nodup := (List.filter_sublist.map _).nodup sound.listeners_nodup
    listeners_old := fun listener member =>
      sound.listeners_old listener (List.mem_filter.mp member).1 }

end Sound

end Topic
end Bus
end Ventilation
