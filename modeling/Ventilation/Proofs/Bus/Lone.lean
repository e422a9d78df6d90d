import Ventilation.Proofs.Bus.Traffic

namespace Ventilation
namespace Bus
namespace Topic

/-!
# Topics with one listener

A topic that nobody waits at, and that has one listener or none, is given by a
few numbers and what lies in the queue.
-/

variable {α : Type} {id capacity published : Nat} {queue : List α}

theorem max_one_pos (capacity : Nat) : 0 < max capacity 1 := by
  omega

/-- A topic without listeners, with the number that the next one gets. -/
def idle (id capacity published : Nat) : Topic α where
  capacity := max capacity 1
  capacity_pos := max_one_pos capacity
  nextId := id
  nextTicket := published
  listeners := []
  boxes := []
  shots := []
  publishings := []

/-- A topic with one listener, whose queue it is. -/
def lone (id capacity published : Nat) (queue : List α) : Topic α where
  capacity := max capacity 1
  capacity_pos := max_one_pos capacity
  nextId := id + 1
  nextTicket := published
  listeners := [.lasting id]
  boxes := [⟨id, queue, []⟩]
  shots := []
  publishings := []

theorem lone_unsubscribe (id capacity published : Nat) (queue : List α) :
    (lone id capacity published queue).unsubscribe id = idle (id + 1) capacity published := by
  simp [lone, idle, unsubscribe, drop, Listener.id]

theorem lone_receive (id capacity published : Nat) (value : α) (queue : List α) :
    (lone id capacity published (value :: queue)).receive? id =
      some (value, lone id capacity published queue) := by
  simp [lone, receive?, box?, setBox]

theorem lone_receive_nil (id capacity published : Nat) :
    (lone id capacity published ([] : List α)).receive? id = none := by
  simp [lone, receive?, box?]

/-- As long as there is room, what is published is put into the queue. -/
theorem lone_publish (room : queue.length < max capacity 1) (value : α) :
    (lone id capacity published queue).publish value =
      (published, some 1, lone id capacity (published + 1) (queue ++ [value])) := by
  simp [lone, publish, fire, proceed, serve, Listener.lasting?, Listener.once?, Listener.id,
    Box.admits, Box.enter, setBox, room]

/-- What is published when there is no room has to wait. -/
theorem lone_publish_full (full : queue.length = max capacity 1) (value : α) :
    ((lone id capacity published queue).publish value).1 = published ∧
      ((lone id capacity published queue).publish value).2.1 = none ∧
        ((lone id capacity published queue).publish value).2.2.nextTicket = published + 1 ∧
          ((lone id capacity published queue).publish value).2.2.WaitsAt published id := by
  have crowded : ¬ queue.length < max capacity 1 := Nat.not_lt.mpr (Nat.le_of_eq full.symm)
  have result : (lone id capacity published queue).publish value =
      (published, none,
        { lone id capacity (published + 1) queue with
          boxes := [⟨id, queue, [published]⟩]
          publishings := [⟨published, value, [id], 0, []⟩] }) := by
    simp [lone, publish, fire, proceed, serve, Listener.lasting?, Listener.once?, Box.admits,
      Box.wait, setBox, crowded]
  have here : boxOf [(⟨id, queue, [published]⟩ : Box α)] id = some ⟨id, queue, [published]⟩ := by
    simp [boxOf]
  rw [result]
  exact ⟨rfl, rfl, rfl, ⟨published, value, [id], 0, []⟩, List.mem_singleton_self _, rfl, rfl,
    ⟨id, queue, [published]⟩, here, Nat.le_trans (Nat.le_of_eq full.symm) (Nat.le_add_right _ _)⟩

end Topic
end Bus
end Ventilation
