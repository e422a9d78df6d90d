import Ventilation.Proofs.Server.Coherence

namespace Ventilation
namespace Server

/-!
# How a client sees the states

What a session writes from the fanout is a beginning of one sequence: the
broadcasts that it read before the snapshot came, the snapshot, and every
broadcast after that.  So no state is missing, none goes back, and at most the
text of the snapshot is told twice.
-/

namespace Floor

variable {capacity : Nat} {x : Floor} {client : Nat} {seat : Seat}

/-- What reaches a client from the fanout are the broadcasts after the last one
that was sent before the session listened and up to some later one, the snapshot,
and the broadcasts after the snapshot.  Nothing that comes later is lost: as
long as the session listens, all of it has been written, is in its hand or is on
its way. -/
theorem snapshot_and_broadcasts_merge (reached : Reachable capacity x)
    (sits : x.seats client = some seat) (begun : seat.session.phase ≠ .fresh) :
    Numbered x.texts ∧ seat.said = seat.written.map Item.message ∧
      ∃ read snapshot, seat.joined ≤ read ∧ read ≤ snapshot.mark ∧
        x.texts[snapshot.mark]? = some snapshot ∧
        seat.written.filter Item.fromFanout <+: merged x.texts seat.joined read snapshot ∧
        (listens seat.session.phase = true → Item.snapshot snapshot ∈ seat.written →
          seat.got ++ (x.hub.broadcasts.coming seat.session.broadcasts).map .broadcast =
            merged x.texts seat.joined read snapshot) := by
  have coherent := coherent_of_reachable reached
  have fits := coherent.sits client seat sits
  exact ⟨coherent.numbered, fits.said, fits.stage.merges coherent.numbered begun⟩

/-- A client reads the first of three broadcasts before it is given the second
as its snapshot. -/
def newcomer : List Turn :=
  [.joins 0, .works 0 .good,
    .announces .shut, .serves .state, .works 0 .good, .works 0 .good,
    .announces .shut, .serves .state, .serves .snapshot,
    .announces .shut, .serves .state, .works 0 .good, .works 0 .good, .works 0 .good]

/-- The newcomer is told each of them once. -/
theorem snapshot_and_broadcasts_merge_for_a_newcomer :
    ∃ x seat, Reachable 2 x ∧ x.seats 0 = some seat ∧ seat.session.phase ≠ .fresh ∧
      seat.written = [.broadcast ⟨1, Client.stateText .shut⟩,
        .snapshot ⟨2, Client.stateText .shut⟩, .broadcast ⟨3, Client.stateText .shut⟩] ∧
      Numbered x.texts ∧ seat.said = seat.written.map Item.message ∧
      ∃ read snapshot, seat.joined ≤ read ∧ read ≤ snapshot.mark ∧
        x.texts[snapshot.mark]? = some snapshot ∧
        seat.written.filter Item.fromFanout <+: merged x.texts seat.joined read snapshot ∧
        (listens seat.session.phase = true → Item.snapshot snapshot ∈ seat.written →
          seat.got ++ (x.hub.broadcasts.coming seat.session.broadcasts).map .broadcast =
            merged x.texts seat.joined read snapshot) := by
  have told : ((newcomer.foldlM act (start 2 0)).bind fun x => x.seats 0).map
      (fun seat => (seat.session.phase, seat.written)) =
        some (.open [], [.broadcast ⟨1, Client.stateText .shut⟩,
          .snapshot ⟨2, Client.stateText .shut⟩, .broadcast ⟨3, Client.stateText .shut⟩]) := by
    decide +kernel
  rcases Option.map_eq_some_iff.mp told with ⟨seat, there, same⟩
  rcases Option.bind_eq_some_iff.mp there with ⟨x, played, sits⟩
  rcases Prod.mk.inj same with ⟨phase, written⟩
  have reached : Reachable 2 x := (Reachable.start 0).script played
  have begun : seat.session.phase ≠ .fresh := by rw [phase]; nofun
  exact ⟨x, seat, reached, sits, begun, written, snapshot_and_broadcasts_merge reached sits begun⟩

end Floor
end Server
end Ventilation
