import Ventilation.Proofs.Bus.Order

namespace Ventilation
namespace Bus
namespace Topic

/-!
# What is to come

Every operation of an orderly topic keeps it orderly, and what it does to the
list of values that are still to come to a listener can be said in a line: to
publish appends to the list of every listener, to take something removes the
first value of one list, a listener that comes begins with the empty list, and
to go on with a publishing in its turn changes no list at all.
-/

variable {α : Type} {topic : Topic α}

/-- The topic after something has been taken from a queue. -/
def requeued (topic : Topic α) (id : Nat) (box : Box α) (queue : List α) : Topic α :=
  { topic with boxes := setBox topic.boxes id { box with queue := queue } }

theorem boxOf_requeued {id : Nat} {box : Box α} (here : boxOf topic.boxes id = some box)
    (queue : List α) (other : Nat) :
    boxOf (requeued topic id box queue).boxes other =
      if other = id then some { box with queue := queue } else boxOf topic.boxes other := by
  have same : ({ box with queue := queue } : Box α).id = id := (boxOf_eq_some here).2
  rw [requeued, boxOf_setBox same, here]
  rfl

theorem coming_requeued {id : Nat} {box : Box α} (here : boxOf topic.boxes id = some box)
    (queue : List α) (other : Nat) :
    (requeued topic id box queue).coming other =
      if other = id then queue ++ (owing topic.publishings id).map (·.value)
      else topic.coming other := by
  unfold coming
  rw [boxOf_requeued here]
  split
  · next own =>
    subst own
    rfl
  · rfl

theorem boxOf_drop (topic : Topic α) (gone id : Nat) :
    boxOf (topic.drop gone).boxes id = if id = gone then none else boxOf topic.boxes id := by
  rw [Topic.drop, boxOf_without]

namespace Listed

/-! ## Beginning to publish -/

theorem mem_opening_rest (listed : topic.Listed) (value : α) {id : Nat} {box : Box α}
    (here : boxOf topic.boxes id = some box) : id ∈ (topic.opening value).rest :=
  List.mem_filterMap.mpr ⟨.lasting id, listed.listened id box here, rfl⟩

theorem opened (listed : topic.Listed) (value : α) : (topic.opened value).Listed := by
  have sound := listed.sound
  have sorted : (topic.opening value).rest.Pairwise (· < ·) :=
    listed.listeners_sorted.sublist (lasting_sublist topic.listeners)
  have publishings : (topic.opened value).publishings =
      topic.publishings ++ [topic.opening value] := rfl
  refine ⟨sound.opened value, ?_, ?_, ?_, ?_, ?_, ?_⟩
  · rw [publishings, List.map_append, List.pairwise_append]
    refine ⟨listed.tickets_sorted, List.pairwise_singleton _ _, ?_⟩
    intro ticket member last lastMember
    rcases List.mem_map.mp member with ⟨old, oldMember, rfl⟩
    obtain rfl : last = topic.nextTicket := List.mem_singleton.mp lastMember
    exact sound.tickets_old old oldMember
  · intro other member
    rcases List.mem_append.mp member with old | new
    · exact listed.rest_sorted other old
    · rw [List.mem_singleton.mp new]
      exact sorted
  · intro other member id owes
    rcases List.mem_append.mp member with old | new
    · exact listed.rest_old other old id owes
    · rw [List.mem_singleton.mp new] at owes
      obtain ⟨listener, present, same⟩ :=
        List.mem_map.mp ((lasting_sublist topic.listeners).subset owes)
      exact same ▸ sound.listeners_old listener present
  · intro other member id gone
    rcases List.mem_append.mp member with old | new
    · exact listed.gone_away other old id gone
    · rw [List.mem_singleton.mp new] at gone
      cases gone
  · have ids : (topic.opened value).listeners.map (·.id) = (topic.opening value).rest := by
      simp [Topic.opened, opening, Function.comp_def, Listener.id]
    rw [ids]
    exact sorted
  · intro id box here
    exact List.mem_map_of_mem (listed.mem_opening_rest value here)

theorem coming_opened (listed : topic.Listed) (value : α) {id : Nat} {box : Box α}
    (here : boxOf topic.boxes id = some box) :
    (topic.opened value).coming id = topic.coming id ++ [value] := by
  have owes : owing [topic.opening value] id = [topic.opening value] := by
    simp [owing, listed.mem_opening_rest value here]
  have whole : owing (topic.opened value).publishings id =
      owing topic.publishings id ++ [topic.opening value] := by
    rw [← owes]
    exact owing_append _ _ _
  unfold coming
  rw [whole, List.map_append, ← List.append_assoc]
  rfl

/-! ## Coming and going -/

theorem narrow (listed : topic.Listed) {boxes : List (Box α)}
    (sound : ({ topic with boxes := boxes } : Topic α).Sound)
    (fewer : ∀ id after, boxOf boxes id = some after → ∃ box, boxOf topic.boxes id = some box) :
    ({ topic with boxes := boxes } : Topic α).Listed := by
  refine ⟨sound, listed.tickets_sorted, listed.rest_sorted, listed.rest_old, ?_,
    listed.listeners_sorted, ?_⟩
  · intro publishing member id gone
    rcases listed.gone_away publishing member id gone with ⟨old, absent⟩
    refine ⟨old, Option.eq_none_iff_forall_ne_some.mpr fun after here => ?_⟩
    rcases fewer id after here with ⟨box, found⟩
    exact absurd (found.symm.trans absent) (by simp)
  · intro id after here
    rcases fewer id after here with ⟨box, found⟩
    exact listed.listened id box found

theorem requeue (listed : topic.Listed) {id : Nat} {box : Box α}
    (here : boxOf topic.boxes id = some box) (queue : List α) :
    (requeued topic id box queue).Listed := by
  refine listed.narrow (listed.sound.requeue here queue) fun other after there => ?_
  replace there := (boxOf_requeued here queue other).symm.trans there
  split at there
  · next own => exact ⟨box, own ▸ here⟩
  · exact ⟨after, there⟩

theorem drop (listed : topic.Listed) (gone : Nat) : (topic.drop gone).Listed := by
  refine listed.narrow (listed.sound.drop gone) fun id after here => ?_
  rw [boxOf_without] at here
  split at here
  · cases here
  · exact ⟨after, here⟩

theorem unsubscribe (listed : topic.Listed) (gone : Nat) : (topic.unsubscribe gone).Listed := by
  refine { listed.drop gone with
    sound := listed.sound.unsubscribe gone
    listeners_sorted := listed.listeners_sorted.sublist (List.filter_sublist.map _)
    listened := ?_ }
  intro id after here
  have stays : boxOf (topic.drop gone).boxes id = some after := here
  have listens := (listed.drop gone).listened id after stays
  rw [Topic.drop, boxOf_without] at stays
  split at stays
  · cases stays
  · next apart => exact List.mem_filter.mpr ⟨listens, decide_eq_true apart⟩

/-- Nobody has a queue under a number that has not been given. -/
theorem boxOf_of_nextId_le (listed : topic.Listed) {id : Nat} (new : topic.nextId ≤ id) :
    boxOf topic.boxes id = none := by
  refine List.find?_eq_none.mpr fun box member => ?_
  have old := listed.sound.boxes_old box member
  simp only [decide_eq_true_eq]
  omega

theorem boxOf_subscribe (listed : topic.Listed) (id : Nat) :
    boxOf topic.subscribe.2.boxes id =
      if id = topic.nextId then some ⟨topic.nextId, [], []⟩ else boxOf topic.boxes id := by
  rw [Topic.subscribe, boxOf_append]
  split
  · next new =>
    subst new
    rw [listed.boxOf_of_nextId_le (Nat.le_refl _)]
    simp
  · next old =>
    rw [if_neg fun same => old same.symm, Option.or_none]

theorem join (listed : topic.Listed) {listener : Listener} (new : listener.id = topic.nextId)
    (shots : List (Nat × Shot α)) :
    ({ topic with
        nextId := topic.nextId + 1
        listeners := topic.listeners ++ [listener]
        shots := shots } : Topic α).Listed := by
  have sound := listed.sound
  have sorted : ((topic.listeners ++ [listener]).map (·.id)).Pairwise (· < ·) := by
    rw [List.map_append, List.pairwise_append]
    refine ⟨listed.listeners_sorted, List.pairwise_singleton _ _, ?_⟩
    intro id member last lastMember
    rcases List.mem_map.mp member with ⟨old, oldMember, rfl⟩
    rw [List.mem_singleton.mp lastMember]
    exact Nat.lt_of_lt_of_eq (sound.listeners_old old oldMember) new.symm
  have known : ∀ other ∈ topic.listeners ++ [listener], other.id < topic.nextId + 1 := by
    intro other member
    rcases List.mem_append.mp member with old | last
    · exact Nat.lt_succ_of_lt (sound.listeners_old other old)
    · rw [List.mem_singleton.mp last, new]
      exact Nat.lt_succ_self _
  exact { listed with
    sound := { sound with
      listeners_nodup := sorted.imp Nat.ne_of_lt
      listeners_old := known
      boxes_old := fun box member => Nat.lt_succ_of_lt (sound.boxes_old box member) }
    rest_old := fun other member id owes =>
      Nat.lt_succ_of_lt (listed.rest_old other member id owes)
    gone_away := fun other member id gone =>
      (listed.gone_away other member id gone).imp_left Nat.lt_succ_of_lt
    listeners_sorted := sorted
    listened := fun id box here => List.mem_append_left _ (listed.listened id box here) }

/-- Whoever listens after someone has come is the one who came, or listened
before. -/
theorem of_boxOf_subscribe (listed : topic.Listed) {id : Nat} {after : Box α}
    (here : boxOf topic.subscribe.2.boxes id = some after) :
    (id = topic.nextId ∧ after = ⟨topic.nextId, [], []⟩) ∨
      (id ≠ topic.nextId ∧ boxOf topic.boxes id = some after) := by
  rw [listed.boxOf_subscribe] at here
  split at here
  · next new => exact .inl ⟨new, (Option.some.inj here).symm⟩
  · next old => exact .inr ⟨old, here⟩

theorem subscribe (listed : topic.Listed) : topic.subscribe.2.Listed := by
  have joined := listed.join (show (Listener.lasting topic.nextId).id = topic.nextId from rfl)
    topic.shots
  refine { joined with
    sound := listed.sound.subscribe
    gone_away := ?_, listened := ?_ }
  · intro other member id gone
    rcases listed.gone_away other member id gone with ⟨old, absent⟩
    rw [listed.boxOf_subscribe, if_neg (Nat.ne_of_lt old)]
    exact ⟨Nat.lt_succ_of_lt old, absent⟩
  · intro id after here
    rcases listed.of_boxOf_subscribe here with ⟨rfl, -⟩ | ⟨-, old⟩
    · exact List.mem_append_right _ (List.mem_singleton_self _)
    · exact List.mem_append_left _ (listed.listened id after old)

/-- Nothing is on its way to a listener that has just come, -/
theorem coming_subscribe_new (listed : topic.Listed) :
    topic.subscribe.2.coming topic.nextId = [] := by
  have nobody : owing topic.publishings topic.nextId = [] := by
    refine List.filter_eq_nil_iff.mpr fun publishing member => ?_
    have fresh : topic.nextId ∉ publishing.rest := fun owes =>
      absurd (listed.rest_old publishing member _ owes) (Nat.lt_irrefl _)
    simpa using fresh
  unfold coming
  rw [listed.boxOf_subscribe, if_pos rfl]
  simp only [Option.elim_some, List.nil_append]
  exact congrArg (List.map (·.value)) nobody

/-- and nothing changes for the others. -/
theorem coming_subscribe (listed : topic.Listed) {id : Nat} (old : id ≠ topic.nextId) :
    topic.subscribe.2.coming id = topic.coming id := by
  unfold coming
  rw [listed.boxOf_subscribe, if_neg old]
  rfl

end Listed

namespace Orderly

/-! ## Publishing in turn -/

theorem opened (orderly : topic.Orderly) (value : α) : (topic.opened value).Orderly := by
  have sound := orderly.sound
  have publishings : (topic.opened value).publishings =
      topic.publishings ++ [topic.opening value] := rfl
  refine ⟨orderly.toListed.opened value, ?_, orderly.line_sorted, ?_⟩
  · rw [publishings, List.pairwise_append]
    refine ⟨orderly.later_owes, List.pairwise_singleton _ _, ?_⟩
    intro first _ last lastMember id box here _
    rw [List.mem_singleton.mp lastMember]
    exact orderly.mem_opening_rest value here
  · intro id box here other member owes ticket inLine less
    rcases List.mem_append.mp member with old | new
    · exact orderly.line_closed id box here other old owes ticket inLine less
    · -- Nobody in a line has a ticket as large as the newest one.
      obtain ⟨waiting, waitingMember, named, -⟩ :=
        sound.line_waits box (boxOf_eq_some here).1 ticket inLine
      have older := sound.tickets_old waiting waitingMember
      rw [List.mem_singleton.mp new] at less
      change topic.nextTicket < ticket at less
      omega

theorem opened_split (topic : Topic α) (value : α) :
    (topic.opened value).publishings = topic.publishings ++ topic.opening value :: [] := rfl

section Publish

variable (orderly : topic.Orderly) (settled : topic.Settled) (value : α)
include orderly settled

theorem publish : (topic.publish value).2.2.Orderly := by
  rw [publish_eq]
  exact (orderly.opened value).proceed (opened_split topic value) settled

theorem settled_publish : (topic.publish value).2.2.Settled := by
  have opened := orderly.opened value
  have member := topic.opening_mem_opened value
  rw [publish_eq]
  intro other present
  rcases opened.mem_proceed member present with ⟨old, apart⟩ | ⟨waits, rfl⟩
  · have before : other ∈ topic.publishings := by
      rcases List.mem_append.mp old with before | new
      · exact before
      · exact absurd (by rw [List.mem_singleton.mp new]) apart
    exact opened.proceed_stuck member apart.symm (settled other before)
  · exact opened.proceed_stuck_self member waits

/-- A new value comes after everything that is still to come. -/
theorem coming_publish {id : Nat} {box : Box α} (here : boxOf topic.boxes id = some box) :
    (topic.publish value).2.2.coming id = topic.coming id ++ [value] := by
  rw [publish_eq, ← orderly.coming_opened value here]
  exact (orderly.opened value).coming_proceed (opened_split topic value) settled here

end Publish

/-! ## Going on in turn -/

/-- Nothing changes for any listener, and the order is kept. -/
structure Onward (topic next : Topic α) : Prop where
  orderly : next.Orderly
  nextId_eq : next.nextId = topic.nextId
  live_iff : ∀ id, (boxOf next.boxes id).isSome = (boxOf topic.boxes id).isSome
  coming_eq : ∀ id box, boxOf topic.boxes id = some box → next.coming id = topic.coming id

theorem Onward.refl (orderly : topic.Orderly) : Onward topic topic :=
  ⟨orderly, rfl, fun _ => rfl, fun _ _ _ => rfl⟩

theorem Onward.trans {middle next : Topic α} (first : Onward topic middle)
    (second : Onward middle next) : Onward topic next := by
  refine ⟨second.orderly, second.nextId_eq.trans first.nextId_eq,
    fun id => (second.live_iff id).trans (first.live_iff id), ?_⟩
  intro id box here
  have live : (boxOf middle.boxes id).isSome := by rw [first.live_iff, here]; rfl
  rcases Option.isSome_iff_exists.mp live with ⟨between, there⟩
  exact (second.coming_eq id between there).trans (first.coming_eq id box here)

theorem onward_proceed (orderly : topic.Orderly) {publishing : Publishing α}
    (member : publishing ∈ topic.publishings)
    (stuck : ∀ other ∈ topic.publishings, other.ticket < publishing.ticket → topic.Stuck other) :
    Onward topic (topic.proceed publishing).2 := by
  rcases List.append_of_mem member with ⟨earlier, later, split⟩
  have before : ∀ other ∈ earlier, topic.Stuck other := fun other early =>
    stuck other (by simp [split, early]) ((orderly.ticket_lt split).1 other early)
  refine ⟨orderly.proceed split before, proceed_nextId _ _, ?_, ?_⟩
  · intro id
    rw [orderly.boxOf_proceed member, Option.isSome_map]
  · intro id box here
    exact orderly.coming_proceed split before here

theorem resume_cases (orderly : topic.Orderly) (ticket : Nat) :
    ((topic.resume ticket).2 = topic ∧
      ∀ publishing ∈ topic.publishings, publishing.ticket = ticket →
        topic.ready publishing = false) ∨
    ∃ publishing ∈ topic.publishings, publishing.ticket = ticket ∧
      (topic.resume ticket).2 = (topic.proceed publishing).2 := by
  unfold resume
  cases search : topic.publishing? ticket with
  | none =>
    refine .inl ⟨rfl, fun publishing member same => ?_⟩
    have differs := List.find?_eq_none.mp search publishing member
    simp [same] at differs
  | some publishing =>
    have member := List.mem_of_find?_eq_some search
    have same : publishing.ticket = ticket := by simpa using List.find?_some search
    by_cases ready : topic.ready publishing = true
    · exact .inr ⟨publishing, member, same, by simp [ready]⟩
    · refine .inl ⟨by simp [ready], fun other otherMember otherSame => ?_⟩
      rw [orderly.sound.publishing_unique otherMember member (otherSame.trans same.symm)]
      exact Bool.not_eq_true _ ▸ ready

/-- To resume a publishing in its turn changes nothing for any listener. -/
theorem onward_resume (orderly : topic.Orderly) {ticket : Nat}
    (stuck : ∀ other ∈ topic.publishings, other.ticket < ticket → topic.Stuck other) :
    Onward topic (topic.resume ticket).2 := by
  rcases orderly.resume_cases ticket with ⟨idle, -⟩ | ⟨publishing, member, rfl, goes⟩
  · rw [idle]
    exact .refl orderly
  · rw [goes]
    exact orderly.onward_proceed member stuck

/-! ## Taking, coming and going -/

theorem narrow (orderly : topic.Orderly) {boxes : List (Box α)}
    (sound : ({ topic with boxes := boxes } : Topic α).Sound)
    (fewer : ∀ id after, boxOf boxes id = some after →
      ∃ box, boxOf topic.boxes id = some box ∧ box.line = after.line) :
    ({ topic with boxes := boxes } : Topic α).Orderly := by
  have listed := orderly.toListed.narrow sound fun id after here =>
    (fewer id after here).imp fun _ => And.left
  refine ⟨listed, ?_, ?_, ?_⟩
  · refine orderly.later_owes.imp fun owes id after here => ?_
    rcases fewer id after here with ⟨box, found, -⟩
    exact owes id box found
  · intro id after here
    rcases fewer id after here with ⟨box, found, same⟩
    exact same ▸ orderly.line_sorted id box found
  · intro id after here publishing member owes ticket inLine less
    rcases fewer id after here with ⟨box, found, same⟩
    exact same ▸ orderly.line_closed id box found publishing member owes ticket (same ▸ inLine) less

theorem requeue (orderly : topic.Orderly) {id : Nat} {box : Box α}
    (here : boxOf topic.boxes id = some box) (queue : List α) :
    (requeued topic id box queue).Orderly := by
  refine orderly.narrow (orderly.sound.requeue here queue) fun other after there => ?_
  replace there := (boxOf_requeued here queue other).symm.trans there
  split at there
  · next own =>
    rcases Option.some.inj there with rfl
    exact ⟨box, own ▸ here, rfl⟩
  · exact ⟨after, there, rfl⟩

theorem drop (orderly : topic.Orderly) (gone : Nat) : (topic.drop gone).Orderly := by
  refine orderly.narrow (orderly.sound.drop gone) fun id after here => ?_
  rw [boxOf_without] at here
  split at here
  · cases here
  · exact ⟨after, here, rfl⟩

theorem unsubscribe (orderly : topic.Orderly) (gone : Nat) :
    (topic.unsubscribe gone).Orderly :=
  { orderly.drop gone with toListed := orderly.toListed.unsubscribe gone }

theorem join (orderly : topic.Orderly) {listener : Listener} (new : listener.id = topic.nextId)
    (shots : List (Nat × Shot α)) :
    ({ topic with
        nextId := topic.nextId + 1
        listeners := topic.listeners ++ [listener]
        shots := shots } : Topic α).Orderly :=
  { orderly with toListed := orderly.toListed.join new shots }

theorem reshot (orderly : topic.Orderly) (shots : List (Nat × Shot α)) :
    ({ topic with shots := shots } : Topic α).Orderly :=
  { orderly with sound := { orderly.sound with } }

theorem subscribe (orderly : topic.Orderly) : topic.subscribe.2.Orderly := by
  refine ⟨orderly.toListed.subscribe, ?_, ?_, ?_⟩
  · refine orderly.later_owes.imp_of_mem fun {first second} firstMember _ owes => ?_
    intro id after here owed
    rcases orderly.of_boxOf_subscribe here with ⟨rfl, -⟩ | ⟨-, old⟩
    · exact absurd (orderly.rest_old first firstMember _ owed) (Nat.lt_irrefl _)
    · exact owes id after old owed
  · intro id after here
    rcases orderly.of_boxOf_subscribe here with ⟨-, rfl⟩ | ⟨-, old⟩
    · exact List.Pairwise.nil
    · exact orderly.line_sorted id after old
  · intro id after here other member owes ticket inLine less
    rcases orderly.of_boxOf_subscribe here with ⟨-, rfl⟩ | ⟨-, old⟩
    · cases inLine
    · exact orderly.line_closed id after old other member owes ticket inLine less

end Orderly

end Topic
end Bus
end Ventilation
