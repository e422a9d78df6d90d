import Ventilation.Proofs.Json.Lookup

namespace Ventilation
namespace Json

/-!
# Other arrangements of an object

The members of an object can be put in another order, and there can be more of
them.  A record that knows none of the new members gives the same answer to all
that, as long as no key that it knows comes twice.
-/

open Text (Glyph)

theorem mapM_perm {α β : Type} {make : α → Option β} {first second : List α} {made : List β}
    (perm : first.Perm second) (all : first.mapM make = some made) :
    ∃ others, second.mapM make = some others ∧ made.Perm others := by
  induction perm generalizing made with
  | nil => exact ⟨made, all, .refl _⟩
  | cons item perm inductionHypothesis =>
    simp only [List.mapM_cons, Option.bind_eq_bind, Option.bind_eq_some_iff, Option.pure_def,
      Option.some.injEq] at all ⊢
    rcases all with ⟨one, here, rest, later, rfl⟩
    rcases inductionHypothesis later with ⟨others, again, moved⟩
    exact ⟨_, ⟨one, here, others, again, rfl⟩, moved.cons one⟩
  | swap item another rest =>
    simp only [List.mapM_cons, Option.bind_eq_bind, Option.bind_eq_some_iff, Option.pure_def,
      Option.some.injEq] at all ⊢
    rcases all with ⟨one, here, -, ⟨two, there, made, later, rfl⟩, rfl⟩
    exact ⟨_, ⟨two, there, _, ⟨one, here, made, later, rfl⟩, rfl⟩, .swap ..⟩
  | trans _ _ one two =>
    rcases one all with ⟨middle, middleAll, moved⟩
    rcases two middleAll with ⟨others, othersAll, movedOn⟩
    exact ⟨others, othersAll, moved.trans movedOn⟩

theorem mapM_append_of {α β : Type} {make : α → Option β} {first second : List α}
    {one two : List β} (front : first.mapM make = some one) (back : second.mapM make = some two) :
    (first ++ second).mapM make = some (one ++ two) := by
  rw [List.mapM_append, front, back]
  rfl

namespace Document

/-- A member with the text of its key and what it means. -/
def memberValue? (depth : Nat) (member : Member) : Option (String × Value) :=
  (text? member.1).bind fun name => (member.2.value? depth).map (name, ·)

theorem memberValues?_eq_mapM (depth : Nat) (members : List Member) :
    memberValues? depth members = members.mapM (memberValue? depth) := by
  induction members with
  | nil => rfl
  | cons member rest inductionHypothesis =>
    rcases member with ⟨key, document⟩
    rw [memberValues?, List.mapM_cons, ← inductionHypothesis, memberValue?]
    cases text? key with
    | none => rfl
    | some name => cases document.value? depth <;> rfl

end Document

namespace Layout

variable {layout : Layout} {depth : Nat} {first second others more : List Member}

/-- A member that a record does not know. -/
def Foreign (layout : Layout) (member : Member) : Prop :=
  ∃ name, text? member.1 = some name ∧ layout.knows name = false

theorem named?_of_foreign (foreign : ∀ member ∈ more, layout.Foreign member) :
    ∃ named, named? more = some named ∧
      named.filter (fun member => layout.knows member.1) = [] := by
  induction more with
  | nil => exact ⟨[], rfl, rfl⟩
  | cons member rest inductionHypothesis =>
    rcases List.forall_mem_cons.mp foreign with ⟨⟨name, said, unknown⟩, foreign⟩
    rcases inductionHypothesis foreign with ⟨named, called, nothing⟩
    refine ⟨_, named?_cons.mpr ⟨name, named, said, called, rfl⟩, ?_⟩
    rw [List.filter_cons_of_neg (by simp [unknown]), nothing]

/-- Members that a record does not know mean nothing to it. -/
theorem memberValues?_of_foreign (foreign : ∀ member ∈ more, layout.Foreign member)
    (admissible : ∀ member ∈ more, member.2.Admissible depth) :
    ∃ added, Document.memberValues? depth more = some added ∧
      added.filter (fun member => layout.knows member.1) = [] := by
  have keys : ∀ member ∈ more, .junk ∉ member.1 := by
    intro member among
    rcases foreign member among with ⟨name, said, -⟩
    exact exists_text_iff.mp ⟨name, said⟩
  rcases (Document.exists_members_iff more depth).mpr ⟨keys, admissible⟩ with ⟨added, understood⟩
  rcases Document.named?_of_memberValues? understood with ⟨named, called, alike⟩
  rcases named?_of_foreign foreign with ⟨same, calledToo, nothing⟩
  cases called.symm.trans calledToo
  have known := alike.filter layout.knows
  rw [nothing] at known
  exact ⟨added, understood, List.forall₂_nil_left_iff.mp known⟩

/-- Of an object, a record takes the members that it knows. -/
theorem read_object {Draft : Type} (put : Draft → String → Value → Except Mismatch Draft)
    (empty : Draft) (members : List (String × Value)) :
    layout.read put empty (.object members) =
      (members.filter fun member => layout.knows member.1).foldlM
        (fun draft member => put draft member.1 member.2) empty := by
  rw [read, List.foldlM_filter]
  congr 1
  funext draft member
  by_cases known : member.1 ∈ layout.fields
  · simp [knows, known]
  · simp only [knows, known, decide_false, if_false]
    rfl

/-- The value of an object is read alike in whatever order the members come, and
whatever else there is. -/
theorem read_arranged {value : Value} (keys : (first.map Prod.fst).Nodup)
    (arranged : second.Perm (first ++ more))
    (foreign : ∀ member ∈ more, layout.Foreign member)
    (admissible : ∀ member ∈ more, member.2.Admissible (depth - 1))
    (means : (Document.object first).value? depth = some value) :
    ∃ other, (Document.object second).value? depth = some other ∧
      ∀ {Draft : Type} (put : Draft → String → Value → Except Mismatch Draft) (empty : Draft),
        layout.read put empty other = layout.read put empty value := by
  rcases Document.value?_object.mp means with ⟨deep, found, understood, rfl⟩
  rcases memberValues?_of_foreign foreign admissible with ⟨added, understoodToo, nothing⟩
  have apart : (found.map Prod.fst).Nodup := by
    rcases Document.named?_of_memberValues? understood with ⟨named, called, alike⟩
    exact alike.names ▸ Document.nodup_of_named? called keys
  rw [Document.memberValues?_eq_mapM] at understood understoodToo
  rcases mapM_perm arranged.symm (mapM_append_of understood understoodToo) with
    ⟨all, together, perm⟩
  rw [← Document.memberValues?_eq_mapM] at together
  refine ⟨_, Document.value?_object.mpr ⟨deep, all, together, rfl⟩, fun put empty => ?_⟩
  have known := perm.filter fun member => layout.knows member.1
  rw [List.filter_append, nothing, List.append_nil] at known
  rw [read_object, read_object, Value.filter_sorted, Value.filter_sorted,
    Value.sorted_eq_of_perm known (apart.sublist (List.filter_sublist.map _))]

/-- A document offers alike in whatever order the members come, if one of them is
replaced and whatever else there is. -/
theorem offered?_arranged {key : List Glyph} {name : String} {document other : Document}
    {fields : List (String × Document)} (said : text? key = some name)
    (known : layout.knows name = true) (before : first.Perm ((key, document) :: others))
    (after : second.Perm ((key, other) :: (others ++ more)))
    (foreign : ∀ member ∈ more, layout.Foreign member)
    (offered : layout.offered? (.object first) = some fields) :
    ∃ rest replaced, layout.offered? (.object second) = some replaced ∧
      fields.Perm ((name, document) :: rest) ∧ replaced.Perm ((name, other) :: rest) := by
  rcases offered?_object.mp offered with ⟨named, called, apart, rfl⟩
  rcases mapM_perm before called with ⟨moved, calledMoved, perm⟩
  rcases named?_cons.mp calledMoved with ⟨same, later, saidToo, calledLater, rfl⟩
  cases said.symm.trans saidToo
  rcases named?_of_foreign foreign with ⟨added, calledAdded, nothing⟩
  have calledAll : named? ((key, other) :: (others ++ more)) =
      some ((name, other) :: (later ++ added)) :=
    named?_cons.mpr ⟨name, _, said, mapM_append_of calledLater calledAdded, rfl⟩
  rcases mapM_perm after.symm calledAll with ⟨all, calledSecond, permAll⟩
  have kept := perm.filter fun member => layout.knows member.1
  have keptAll := permAll.filter fun member => layout.knows member.1
  rw [List.filter_cons, if_pos known] at kept keptAll
  rw [List.filter_append, nothing, List.append_nil] at keptAll
  refine ⟨_, _, offered?_object.mpr ⟨all, calledSecond, ?_, rfl⟩, kept, keptAll.symm⟩
  rw [← (keptAll.map Prod.fst).nodup_iff]
  rw [(kept.map Prod.fst).nodup_iff] at apart
  exact apart

/-- What a document says for its fields, if one of them stands before the others. -/
theorem field?_of_perm {document content : Document} {name other : String}
    {fields rest : List (String × Document)} (different : layout.fields.Nodup)
    (offered : layout.offered? document = some fields)
    (perm : fields.Perm ((name, content) :: rest)) (known : layout.knows other = true) :
    layout.field? other document = if other = name then some content else rest.lookup other := by
  rw [← offered?_lookup offered known, lookup_perm perm (offered?_apart different offered).1,
    lookup_field_cons]

end Layout
end Json
end Ventilation
