import Ventilation.Bus.Hub
import Mathlib.Logic.Function.Basic

namespace Ventilation

/-!
# What matters of a hub

The fanout and the sessions share three topics and, for every client, the
snapshot and the replies that lie ready for it.  A step of someone else is seen
by them only as far as it changes these.
-/

namespace Bus

/-- What the fanout and the sessions share. -/
structure View where
  states : Topic State
  broadcasts : Topic Broadcast
  snapshots : Topic Nat
  mail : Nat → Option Broadcast
  replies : Nat → List Client.Reply

namespace Hub

variable {hub next : Hub}

def view (hub : Hub) : View where
  states := hub.states
  broadcasts := hub.broadcasts
  snapshots := hub.snapshots
  mail client := (hub.mailbox? client).bind (·.snapshot)
  replies client := (hub.mailbox? client).elim [] (·.replies)

theorem mailbox?_setMailbox (hub : Hub) (client : Nat) (change : Mailbox → Mailbox)
    (same : ∀ mailbox, (change mailbox).client = mailbox.client) (other : Nat) :
    (hub.setMailbox client change).mailbox? other =
      if other = client then (hub.mailbox? client).map change else hub.mailbox? other := by
  unfold mailbox? setMailbox
  induction hub.mailboxes with
  | nil => simp
  | cons mailbox rest inductionHypothesis =>
    simp only [List.map_cons, List.find?_cons]
    by_cases own : mailbox.client = client
    · by_cases asked : other = client
      · simp [own, asked, same]
      · have apart : ¬ client = other := fun equal => asked equal.symm
        rw [if_neg asked] at inductionHypothesis
        simp [own, asked, apart, same, inductionHypothesis]
    · by_cases asked : other = client
      · rw [if_pos asked] at inductionHypothesis
        subst asked
        simp [own, inductionHypothesis]
      · rw [if_neg asked] at inductionHypothesis
        simp [own, asked, inductionHypothesis]

theorem view_setMailbox {client : Nat} {mailbox : Mailbox}
    (here : hub.mailbox? client = some mailbox) (change : Mailbox → Mailbox)
    (same : ∀ mailbox, (change mailbox).client = mailbox.client) :
    (hub.setMailbox client change).view =
      { hub.view with
        mail := Function.update hub.view.mail client (change mailbox).snapshot
        replies := Function.update hub.view.replies client (change mailbox).replies } := by
  have found := hub.mailbox?_setMailbox client change same
  unfold view
  congr 1
  · funext other
    rw [found, Function.update_apply, here]
    split <;> rfl
  · funext other
    rw [found, Function.update_apply, here]
    split <;> rfl

/-- A change that leaves the snapshot and the replies does not matter. -/
theorem view_setMailbox_of_kept (hub : Hub) (client : Nat) (change : Mailbox → Mailbox)
    (kept : ∀ mailbox, (change mailbox).client = mailbox.client ∧
      (change mailbox).snapshot = mailbox.snapshot ∧
        (change mailbox).replies = mailbox.replies) :
    (hub.setMailbox client change).view = hub.view := by
  have same := fun mailbox => (kept mailbox).1
  cases here : hub.mailbox? client with
  | some mailbox =>
    rw [view_setMailbox here change same, (kept mailbox).2.1, (kept mailbox).2.2]
    have mail : mailbox.snapshot = hub.view.mail client := by simp [view, here]
    have replies : mailbox.replies = hub.view.replies client := by simp [view, here]
    rw [mail, replies, Function.update_eq_self, Function.update_eq_self]
  | none =>
    have found : ∀ other, (hub.setMailbox client change).mailbox? other = hub.mailbox? other := by
      intro other
      rw [hub.mailbox?_setMailbox client change same]
      split
      · next own => rw [own, here, Option.map_none]
      · rfl
    simp only [view, found]
    rfl

theorem view_takeSnapshot {client : Nat} {mailbox : Mailbox}
    (here : hub.mailbox? client = some mailbox) (snapshot : Option Broadcast) :
    (hub.setMailbox client fun mailbox => { mailbox with snapshot := snapshot }).view =
      { hub.view with mail := Function.update hub.view.mail client snapshot } := by
  have replies : mailbox.replies = hub.view.replies client := by simp [view, here]
  have set := view_setMailbox here (fun mailbox => { mailbox with snapshot := snapshot })
    fun _ => rfl
  simp only [replies, Function.update_eq_self] at set
  exact set

theorem view_setReplies {client : Nat} {mailbox : Mailbox}
    (here : hub.mailbox? client = some mailbox) (replies : List Client.Reply) :
    (hub.setMailbox client fun mailbox => { mailbox with replies := replies }).view =
      { hub.view with replies := Function.update hub.view.replies client replies } := by
  have mail : mailbox.snapshot = hub.view.mail client := by simp [view, here]
  have set := view_setMailbox here (fun mailbox => { mailbox with replies := replies })
    fun _ => rfl
  simp only [mail, Function.update_eq_self] at set
  exact set

/-- A new mailbox is empty, and an old one stays in its place. -/
theorem view_openMailbox (hub : Hub) (client : Nat) : (hub.openMailbox client).view = hub.view := by
  have found : ∀ other, (hub.openMailbox client).mailbox? other =
      (hub.mailbox? other).or
        (if client = other then some ⟨client, [], true, true, none, false⟩ else none) := by
    intro other
    simp only [openMailbox, mailbox?, List.find?_append, List.find?_cons, List.find?_nil]
    by_cases own : client = other <;> simp [own]
  unfold view
  congr 1
  · funext other
    rw [found]
    cases hub.mailbox? other with
    | some mailbox => rfl
    | none => by_cases own : client = other <;> simp [own]
  · funext other
    rw [found]
    cases hub.mailbox? other with
    | some mailbox => rfl
    | none => by_cases own : client = other <;> simp [own]

theorem view_takeShutdown? {id : Nat} (taken : hub.takeShutdown? id = some next) :
    next.view = hub.view := by
  rcases Option.map_eq_some_iff.mp taken with ⟨result, -, rfl⟩
  rfl

end Hub
end Bus
end Ventilation
