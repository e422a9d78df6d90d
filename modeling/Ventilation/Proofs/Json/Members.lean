import Ventilation.Json.Value
import Mathlib.Data.String.Basic

namespace Ventilation
namespace Json

/-!
# Members that nobody asks for

Members are told apart by the text of their keys.  Whoever leaves out all
members with certain keys, be it before an object is understood or afterwards,
gets the same.  This needs that understood members are sorted, since a member is
put in before the first larger key, which may be one that is left out.
-/

namespace Value

/-- The keys ascend, so no key stands twice. -/
def Ascending (members : List (String × Value)) : Prop :=
  members.Pairwise fun first second => first.1 < second.1

variable {key : String} {value : Value} {members : List (String × Value)}

theorem mem_insert {member : String × Value} (among : member ∈ insert key value members) :
    member = (key, value) ∨ member ∈ members := by
  induction members with
  | nil => exact .inl (List.mem_singleton.mp among)
  | cons head rest inductionHypothesis =>
    rcases head with ⟨other, held⟩
    simp only [insert] at among
    split at among
    · exact List.mem_cons.mp among
    · split at among
      · rcases List.mem_cons.mp among with new | old
        · exact .inl new
        · exact .inr (List.mem_cons_of_mem _ old)
      · rcases List.mem_cons.mp among with first | later
        · exact .inr (first ▸ List.mem_cons_self)
        · rcases inductionHypothesis later with new | old
          · exact .inl new
          · exact .inr (List.mem_cons_of_mem _ old)

theorem insert_of_lt (least : ∀ member ∈ members, key < member.1) :
    insert key value members = (key, value) :: members := by
  cases members with
  | nil => rfl
  | cons head rest => exact if_pos (least head List.mem_cons_self)

theorem Ascending.insert (ascending : Ascending members) (key : String) (value : Value) :
    Ascending (insert key value members) := by
  induction members with
  | nil => exact List.pairwise_singleton _ _
  | cons head rest inductionHypothesis =>
    rcases head with ⟨other, held⟩
    rcases List.pairwise_cons.mp ascending with ⟨above, later⟩
    simp only [Value.insert]
    split
    · next below =>
      refine List.pairwise_cons.mpr ⟨?_, ascending⟩
      intro member among
      rcases List.mem_cons.mp among with rfl | further
      · exact below
      · exact lt_trans below (above member further)
    · next notBelow =>
      split
      · next same => exact List.pairwise_cons.mpr ⟨same ▸ above, later⟩
      · next differs =>
        refine List.pairwise_cons.mpr ⟨?_, inductionHypothesis later⟩
        intro member among
        rcases mem_insert among with rfl | old
        · exact lt_of_le_of_ne (le_of_not_gt notBelow) (Ne.symm differs)
        · exact above member old

/-- A member is put in or left out of what is kept. -/
theorem filter_insert (keeps : String → Bool) (ascending : Ascending members) (key : String)
    (value : Value) :
    (insert key value members).filter (fun member => keeps member.1) =
      if keeps key then insert key value (members.filter fun member => keeps member.1)
      else members.filter fun member => keeps member.1 := by
  induction members with
  | nil => cases kept : keeps key <;> simp [insert, kept]
  | cons head rest inductionHypothesis =>
    rcases head with ⟨other, held⟩
    rcases List.pairwise_cons.mp ascending with ⟨above, later⟩
    simp only [insert]
    split
    · next below =>
      have least : ∀ member ∈ ((other, held) :: rest).filter (fun member => keeps member.1),
          key < member.1 := by
        intro member among
        rcases List.mem_cons.mp (List.mem_of_mem_filter among) with rfl | further
        · exact below
        · exact lt_trans below (above member further)
      rw [insert_of_lt least, List.filter_cons]
    · next notBelow =>
      split
      · next same =>
        subst same
        cases kept : keeps key <;> simp [insert, kept]
      · next differs =>
        rw [List.filter_cons, inductionHypothesis later, List.filter_cons]
        cases keptOther : keeps other <;> cases kept : keeps key <;>
          simp [insert, notBelow, differs]

/-- Members are sorted alike whether some are left out before or afterwards. -/
theorem filter_sorted (keeps : String → Bool) (members : List (String × Value)) :
    (sorted members).filter (fun member => keeps member.1) =
      sorted (members.filter fun member => keeps member.1) := by
  -- What has been put in so far grows, and it has to be sorted for the next member.
  have onwards : ∀ done, Ascending done →
      (members.foldl (fun done member => insert member.1 member.2 done) done).filter
          (fun member => keeps member.1) =
        (members.filter fun member => keeps member.1).foldl
          (fun done member => insert member.1 member.2 done)
          (done.filter fun member => keeps member.1) := by
    induction members with
    | nil => exact fun done _ => rfl
    | cons head rest inductionHypothesis =>
      rcases head with ⟨key, value⟩
      intro done ascending
      rw [List.foldl_cons, inductionHypothesis _ (ascending.insert key value),
        filter_insert keeps ascending, List.filter_cons]
      split
      · rfl
      · rfl
  exact onwards [] List.Pairwise.nil

end Value

namespace Document

/-- Whether a member stays when those with certain keys are left out; a key that
is no text cannot be one of them. -/
def stays (keeps : String → Bool) (member : Member) : Bool := (text? member.1).all keeps

/-- Members mean the same whether some are left out before or afterwards. -/
theorem memberValues?_filter (keeps : String → Bool) {depth : Nat} {members : List Member}
    {found : List (String × Value)} (understood : memberValues? depth members = some found) :
    memberValues? depth (members.filter (stays keeps)) =
      some (found.filter fun member => keeps member.1) := by
  induction members generalizing found with
  | nil =>
    simp only [memberValues?, Option.some.injEq] at understood
    subst understood
    rfl
  | cons head rest inductionHypothesis =>
    rcases head with ⟨key, document⟩
    simp only [memberValues?, Option.bind_eq_bind, Option.bind_eq_some_iff, Option.pure_def,
      Option.some.injEq] at understood
    rcases understood with ⟨name, named, value, meant, later, others, rfl⟩
    have remaining := inductionHypothesis others
    have same : stays keeps (key, document) = keeps name := by
      rw [stays, named, Option.all_some]
    rw [List.filter_cons, List.filter_cons, same]
    cases kept : keeps name with
    | false => simpa using remaining
    | true => simp [memberValues?, named, meant, remaining]

theorem itemValues?_take {depth : Nat} {items : List Document} {values : List Value}
    (understood : itemValues? depth items = some values) (count : Nat) :
    itemValues? depth (items.take count) = some (values.take count) := by
  induction items generalizing values count with
  | nil =>
    simp only [itemValues?, Option.some.injEq] at understood
    subst understood
    simp [itemValues?]
  | cons item rest inductionHypothesis =>
    simp only [itemValues?, Option.bind_eq_bind, Option.bind_eq_some_iff, Option.pure_def,
      Option.some.injEq] at understood
    rcases understood with ⟨value, meant, later, others, rfl⟩
    cases count with
    | zero => rfl
    | succ count => simp [itemValues?, meant, inductionHypothesis others count]

theorem ofChars?_of_tokens {text : List Char} {tokens : List Token} {document : Document}
    (cut : tokens? (text.map .char) = some tokens) (built : ofTokens? tokens = some document) :
    ofChars? text = some document := by
  unfold ofChars? read?
  rw [cut]
  exact built

end Document
end Json
end Ventilation
