import Ventilation.Json.Record
import Ventilation.Proofs.Json.Members
import Mathlib.Data.List.Nodup

namespace Ventilation
namespace Json

/-!
# Records and their fields

A record is read from what it is given for its fields.  Members that it does not
know give it nothing, and the order of the others is all the same as long as
none of them comes twice: a document does not allow that, and in a value the
members have been sorted, so that the last one with a key stands for all.
-/

open Text (Glyph)

/-! ## Fields one after another -/

section Fields

variable {Draft α β : Type} {put : Draft → String → α → Option Draft} {draft final : Draft}
  {first second : List (String × α)}

/-- Put all fields into a draft, one after another. -/
def putAll (put : Draft → String → α → Option Draft) (draft : Draft)
    (fields : List (String × α)) : Option Draft :=
  fields.foldlM (fun draft field => put draft field.1 field.2) draft

/-- Of two different fields either one may be put first. -/
def Independent (put : Draft → String → α → Option Draft) : Prop :=
  ∀ draft one two (first second : α), one ≠ two →
    (put draft one first).bind (put · two second) = (put draft two second).bind (put · one first)

theorem putAll_nil (put : Draft → String → α → Option Draft) (draft : Draft) :
    putAll put draft [] = some draft := rfl

theorem putAll_cons (put : Draft → String → α → Option Draft) (draft : Draft)
    (field : String × α) (rest : List (String × α)) :
    putAll put draft (field :: rest) =
      (put draft field.1 field.2).bind fun next => putAll put next rest :=
  List.foldlM_cons ..

/-- Different fields may be put in any order. -/
theorem putAll_perm (independent : Independent put) (perm : first.Perm second)
    (apart : (first.map Prod.fst).Nodup) : putAll put draft first = putAll put draft second := by
  induction perm generalizing draft with
  | nil => rfl
  | cons field perm inductionHypothesis =>
    simp only [putAll_cons, inductionHypothesis (List.nodup_cons.mp apart).2]
  | swap one two rest =>
    have different : two.1 ≠ one.1 := fun same =>
      (List.nodup_cons.mp apart).1 (same ▸ List.mem_cons_self)
    simp only [putAll_cons, ← Option.bind_assoc,
      independent draft two.1 one.1 two.2 one.2 different]
  | trans perm later one two =>
    exact (one apart).trans (two ((perm.map Prod.fst).nodup_iff.mp apart))

/-- The same fields, each of them given in another form. -/
def Alike (relates : α → β → Prop) : List (String × α) → List (String × β) → Prop :=
  List.Forall₂ fun one two => one.1 = two.1 ∧ relates one.2 two.2

/-- What can be put in one form can be put in the other, if that holds of each field. -/
theorem putAll_of_alike {other : Draft → String → β → Option Draft} {relates : α → β → Prop}
    {fields : List (String × β)} (alike : Alike relates first fields)
    (imitates : ∀ draft name next one two, relates one two → put draft name one = some next →
      other draft name two = some next)
    (all : putAll put draft first = some final) : putAll other draft fields = some final := by
  induction alike generalizing draft with
  | nil => exact all
  | cons same rest inductionHypothesis =>
    rw [putAll_cons] at all ⊢
    rcases Option.bind_eq_some_iff.mp all with ⟨next, one, later⟩
    rw [← same.1, imitates draft _ next _ _ same.2 one]
    exact inductionHypothesis later

theorem Alike.names {relates : α → β → Prop} {fields : List (String × β)}
    (alike : Alike relates first fields) : first.map Prod.fst = fields.map Prod.fst := by
  induction alike with
  | nil => rfl
  | cons same _ inductionHypothesis =>
    rw [List.map_cons, List.map_cons, same.1, inductionHypothesis]

/-- The other way round, with something that holds of one side. -/
theorem Alike.turn {relates : α → β → Prop} {fields : List (String × β)} {Holds : α → Prop}
    (alike : Alike relates first fields) (all : ∀ field ∈ first, Holds field.2) :
    Alike (fun two one => Holds one ∧ relates one two) fields first := by
  induction alike with
  | nil => exact .nil
  | cons same _ inductionHypothesis =>
    rcases List.forall_mem_cons.mp all with ⟨here, later⟩
    exact .cons ⟨same.1.symm, here, same.2⟩ (inductionHypothesis later)

theorem Alike.filter {relates : α → β → Prop} {fields : List (String × β)}
    (alike : Alike relates first fields) (keeps : String → Bool) :
    Alike relates (first.filter fun field => keeps field.1)
      (fields.filter fun field => keeps field.1) := by
  induction alike with
  | nil => exact .nil
  | cons same rest inductionHypothesis =>
    rw [List.filter_cons, List.filter_cons, ← same.1]
    split
    · exact .cons same inductionHypothesis
    · exact inductionHypothesis

/-! ### Fields in the order of a record -/

theorem lookup_field_cons (name : String) (field : String × α) (rest : List (String × α)) :
    (field :: rest).lookup name = if name = field.1 then some field.2 else rest.lookup name := by
  rw [List.lookup_cons]
  by_cases same : name = field.1
  · simp [same]
  · rw [beq_false_of_ne same, if_neg same]

theorem mem_of_lookup {name : String} {content : α} (found : first.lookup name = some content) :
    (name, content) ∈ first := by
  induction first with
  | nil => cases found
  | cons field rest inductionHypothesis =>
    rw [lookup_field_cons] at found
    split at found
    · next same =>
      rcases Option.some.inj found with rfl
      exact same ▸ List.mem_cons_self
    · exact List.mem_cons_of_mem _ (inductionHypothesis found)

/-- Fields that are different from each other are found by their names. -/
theorem lookup_eq_some_iff {name : String} {content : α} (apart : (first.map Prod.fst).Nodup) :
    first.lookup name = some content ↔ (name, content) ∈ first := by
  refine ⟨mem_of_lookup, fun among => ?_⟩
  induction first with
  | nil => cases among
  | cons field rest inductionHypothesis =>
    rcases List.nodup_cons.mp apart with ⟨new, apart⟩
    rw [lookup_field_cons]
    rcases List.mem_cons.mp among with rfl | further
    · rw [if_pos rfl]
    · rw [if_neg fun same : name = field.1 => new (same ▸ List.mem_map_of_mem further)]
      exact inductionHypothesis apart further

theorem lookup_perm (perm : first.Perm second) (apart : (first.map Prod.fst).Nodup)
    (name : String) : first.lookup name = second.lookup name := by
  have apartToo := (perm.map Prod.fst).nodup_iff.mp apart
  refine Option.ext fun content => ?_
  rw [lookup_eq_some_iff apart, lookup_eq_some_iff apartToo, perm.mem_iff]

/-- The fields in the order of some names. -/
def inOrder (names : List String) (fields : List (String × α)) : List (String × α) :=
  names.filterMap fun name => (fields.lookup name).map (name, ·)

theorem inOrder_perm {names : List String} (different : names.Nodup)
    (apart : (first.map Prod.fst).Nodup) (known : ∀ field ∈ first, field.1 ∈ names) :
    (inOrder names first).Perm first := by
  refine (List.perm_ext_iff_of_nodup ?_ apart.of_map).mpr fun field => ?_
  · refine different.filterMap fun one two field hereOne hereTwo => ?_
    rcases Option.map_eq_some_iff.mp hereOne with ⟨content, -, rfl⟩
    rcases Option.map_eq_some_iff.mp hereTwo with ⟨same, -, equal⟩
    exact (Prod.mk.inj equal).1.symm
  · simp only [inOrder, List.mem_filterMap, Option.map_eq_some_iff, lookup_eq_some_iff apart]
    constructor
    · rintro ⟨name, -, content, among, rfl⟩
      exact among
    · exact fun among => ⟨field.1, known field among, field.2, among, rfl⟩

/-- Fields may be put in the order in which the record has them. -/
theorem putAll_inOrder (independent : Independent put) {names : List String}
    (different : names.Nodup) (apart : (first.map Prod.fst).Nodup)
    (known : ∀ field ∈ first, field.1 ∈ names) :
    putAll put draft first = putAll put draft (inOrder names first) :=
  putAll_perm independent (inOrder_perm different apart known).symm apart

end Fields

/-! ## Sorted members -/

namespace Value

variable {key : String} {value : Value} {members first second : List (String × Value)}

theorem insert_perm (apart : key ∉ members.map Prod.fst) :
    (insert key value members).Perm ((key, value) :: members) := by
  induction members with
  | nil => exact .refl _
  | cons head rest inductionHypothesis =>
    rcases head with ⟨other, held⟩
    rw [List.map_cons, List.mem_cons, not_or] at apart
    simp only [insert, apart.1, if_false]
    split
    · exact .refl _
    · exact ((inductionHypothesis apart.2).cons _).trans (.swap ..)

/-- What has been sorted, with more members put in. -/
theorem foldl_insert_perm {done : List (String × Value)}
    (apart : ((members ++ done).map Prod.fst).Nodup) :
    (members.foldl (fun done member => insert member.1 member.2 done) done).Perm
      (members ++ done) := by
  induction members generalizing done with
  | nil => exact .refl _
  | cons member rest inductionHypothesis =>
    have new : member.1 ∉ done.map Prod.fst := by
      intro old
      rw [List.cons_append, List.map_cons, List.map_append] at apart
      exact (List.nodup_cons.mp apart).1 (List.mem_append_right _ old)
    have moved : (rest ++ insert member.1 member.2 done).Perm (member :: rest ++ done) :=
      ((insert_perm new).append_left rest).trans List.perm_middle
    exact (inductionHypothesis ((moved.map Prod.fst).nodup_iff.mpr apart)).trans moved

/-- Members with different keys are only put in order. -/
theorem sorted_perm (apart : (members.map Prod.fst).Nodup) : (sorted members).Perm members := by
  have perm := @foldl_insert_perm members [] (by rwa [List.append_nil])
  rwa [List.append_nil] at perm

theorem ascending_sorted (members : List (String × Value)) : Ascending (sorted members) := by
  have onwards : ∀ done, Ascending done → Ascending
      (members.foldl (fun done member => insert member.1 member.2 done) done) := by
    induction members with
    | nil => exact fun done ascending => ascending
    | cons member rest inductionHypothesis =>
      exact fun done ascending => inductionHypothesis _ (ascending.insert member.1 member.2)
  exact onwards [] List.Pairwise.nil

theorem Ascending.nodup (ascending : Ascending members) : (members.map Prod.fst).Nodup :=
  List.pairwise_map.mpr (ascending.imp ne_of_lt)

/-- Members with different keys are sorted alike in whatever order they come. -/
theorem sorted_eq_of_perm (perm : first.Perm second) (apart : (first.map Prod.fst).Nodup) :
    sorted first = sorted second := by
  have apartToo := (perm.map Prod.fst).nodup_iff.mp apart
  refine List.Perm.eq_of_pairwise ?_ (ascending_sorted first) (ascending_sorted second)
    ((sorted_perm apart).trans (perm.trans (sorted_perm apartToo).symm))
  intro one two _ _ below above
  exact absurd above (lt_asymm below)

end Value

/-! ## Records -/

theorem toOption_bind {ε α β : Type} (first : Except ε α) (later : α → Except ε β) :
    (first >>= later).toOption = first.toOption.bind fun value => (later value).toOption := by
  cases first <;> rfl

theorem toOption_eq_some_iff {ε α : Type} {result : Except ε α} {found : α} :
    result.toOption = some found ↔ result = .ok found := by
  cases result <;> simp [Except.toOption]

theorem toOption_foldlM {ε α β : Type} (step : β → α → Except ε β) (items : List α) (start : β) :
    (items.foldlM step start).toOption =
      items.foldlM (fun now item => (step now item).toOption) start := by
  induction items generalizing start with
  | nil => rfl
  | cons item rest inductionHypothesis =>
    rw [List.foldlM_cons, List.foldlM_cons, toOption_bind]
    simp only [inductionHypothesis]
    rfl

namespace Layout

variable {Draft : Type} {layout : Layout}

/-- Whether a record has a field with a name. -/
def knows (layout : Layout) (name : String) : Bool := name ∈ layout.fields

/-- Whether so many items are an array of the fields. -/
def fits (layout : Layout) (length : Nat) : Bool :=
  layout.leading ≤ length && length ≤ layout.fields.length

theorem fits_iff {length : Nat} : layout.fits length = true ↔
    ¬ (length < layout.leading ∨ layout.fields.length < length) := by
  simp [fits]

/-- What a value gives the fields of a record. -/
def given? (layout : Layout) : Value → Option (List (String × Value))
  | .object members => some (members.filter fun member => layout.knows member.1)
  | .array items => if layout.fits items.length then some (layout.fields.zip items) else none
  | _ => none

/-- Members with the text of their keys. -/
def named? (members : List Member) : Option (List (String × Document)) :=
  members.mapM fun member => (text? member.1).map (·, member.2)

/-- What a document gives the fields of a record, if it gives none of them twice. -/
def offered? (layout : Layout) : Document → Option (List (String × Document))
  | .object members => do
    let named ← named? members
    let known := named.filter fun member => layout.knows member.1
    if (known.map Prod.fst).Nodup then some known else none
  | .array items => if layout.fits items.length then some (layout.fields.zip items) else none
  | _ => none

/-- A record is read from what a value gives its fields. -/
theorem toOption_read (put : Draft → String → Value → Except Mismatch Draft) (empty : Draft)
    (value : Value) :
    (layout.read put empty value).toOption = (layout.given? value).bind
      (putAll (fun draft name value => (put draft name value).toOption) empty) := by
  cases value with
  | object members =>
    rw [read, toOption_foldlM, given?, Option.bind_some, putAll, List.foldlM_filter]
    congr 1
    funext draft member
    by_cases known : member.1 ∈ layout.fields
    · simp [knows, known]
    · simp [knows, known, Except.toOption]
  | array items =>
    rw [read, toOption_bind, toOption_foldlM, given?]
    by_cases fitting : layout.fits items.length = true
    · rcases not_or.mp (fits_iff.mp fitting) with ⟨long, short⟩
      simp only [long, short, fitting, if_true, if_false, Option.bind_some]
      exact Option.bind_fun_some _
    · rw [if_neg fitting]
      refine Option.bind_eq_none_iff.mpr fun draft _ => ?_
      rcases not_not.mp (mt fits_iff.mpr fitting) with short | long
      · simp only [short, if_true]
        rfl
      · simp only [long, if_true]
        split <;> rfl
  | null | bool | number | string => rfl

theorem named?_cons {member : Member} {rest : List Member} {named : List (String × Document)} :
    named? (member :: rest) = some named ↔
      ∃ name later, text? member.1 = some name ∧ named? rest = some later ∧
        named = (name, member.2) :: later := by
  unfold named?
  rw [List.mapM_cons]
  cases text? member.1 with
  | none => simp
  | some name =>
    cases rest.mapM fun member => (text? member.1).map (·, member.2) with
    | none => simp
    | some later => simp [eq_comm]

/-- Members are read into a draft if the known ones are different from each other
and from those seen before. -/
theorem members?_eq_some_iff {put : Draft → String → Document → Option Draft}
    {draft final : Draft} {seen : List String} {members : List Member} :
    layout.members? put draft seen members = some final ↔
      ∃ named, named? members = some named ∧
        ((named.filter fun member => layout.knows member.1).map Prod.fst).Nodup ∧
        (∀ member ∈ named, layout.knows member.1 = true → member.1 ∉ seen) ∧
        putAll put draft (named.filter fun member => layout.knows member.1) = some final := by
  induction members generalizing draft seen with
  | nil => simp [members?, named?, putAll]
  | cons member rest inductionHypothesis =>
    rcases member with ⟨key, document⟩
    simp only [members?, named?_cons, Option.bind_eq_bind, Option.bind_eq_some_iff]
    constructor
    · rintro ⟨name, said, read⟩
      cases known : layout.knows name with
      | false =>
        rw [if_neg (of_decide_eq_false known)] at read
        rcases inductionHypothesis.mp read with ⟨named, others, apart, unseen, all⟩
        refine ⟨_, ⟨name, named, said, others, rfl⟩, ?_, ?_, ?_⟩
        · rwa [List.filter_cons_of_neg (by simp [known])]
        · exact List.forall_mem_cons.mpr ⟨fun same => by simp [known] at same, unseen⟩
        · rwa [List.filter_cons_of_neg (by simp [known])]
      | true =>
        rw [if_pos (of_decide_eq_true known), Option.ite_none_left_eq_some,
          Option.bind_eq_some_iff] at read
        rcases read with ⟨new, next, one, later⟩
        rcases inductionHypothesis.mp later with ⟨named, others, apart, unseen, all⟩
        refine ⟨_, ⟨name, named, said, others, rfl⟩, ?_, ?_, ?_⟩
        · rw [List.filter_cons_of_pos (by simp [known]), List.map_cons, List.nodup_cons]
          refine ⟨fun again => ?_, apart⟩
          rcases List.mem_map.mp again with ⟨other, among, rfl⟩
          rcases List.mem_filter.mp among with ⟨among, knows⟩
          exact unseen other among knows List.mem_cons_self
        · refine List.forall_mem_cons.mpr ⟨fun _ => new, fun other among knows old => ?_⟩
          exact unseen other among knows (List.mem_cons_of_mem _ old)
        · rw [List.filter_cons_of_pos (by simp [known]), putAll_cons, one]
          exact all
    · rintro ⟨named, ⟨name, later, said, others, rfl⟩, apart, unseen, all⟩
      refine ⟨name, said, ?_⟩
      rcases List.forall_mem_cons.mp unseen with ⟨new, unseen⟩
      cases known : layout.knows name with
      | false =>
        rw [List.filter_cons_of_neg (by simp [known])] at apart all
        rw [if_neg (of_decide_eq_false known)]
        exact inductionHypothesis.mpr ⟨later, others, apart, unseen, all⟩
      | true =>
        rw [List.filter_cons_of_pos (by simp [known])] at apart all
        rw [List.map_cons, List.nodup_cons] at apart
        rw [putAll_cons, Option.bind_eq_some_iff] at all
        rcases all with ⟨next, one, all⟩
        rw [if_pos (of_decide_eq_true known), if_neg (new known), Option.bind_eq_some_iff]
        refine ⟨next, one, inductionHypothesis.mpr ⟨later, others, apart.2, ?_, all⟩⟩
        intro other among knows old
        rcases List.mem_cons.mp old with same | old
        · refine apart.1 (List.mem_map.mpr ⟨other, List.mem_filter.mpr ⟨among, knows⟩, same⟩)
        · exact unseen other among knows old

theorem offered?_object {members : List Member} {known : List (String × Document)} :
    layout.offered? (.object members) = some known ↔
      ∃ named, named? members = some named ∧
        ((named.filter fun member => layout.knows member.1).map Prod.fst).Nodup ∧
        named.filter (fun member => layout.knows member.1) = known := by
  simp [offered?, Option.bind_eq_some_iff]

/-- A record is read from what a document offers its fields. -/
theorem read?_eq (put : Draft → String → Document → Option Draft) (empty : Draft)
    (document : Document) :
    layout.read? put empty document = (layout.offered? document).bind (putAll put empty) := by
  cases document with
  | object members =>
    refine Option.ext fun final => ?_
    rw [read?, members?_eq_some_iff, Option.bind_eq_some_iff]
    constructor
    · rintro ⟨named, said, apart, -, all⟩
      exact ⟨_, offered?_object.mpr ⟨named, said, apart, rfl⟩, all⟩
    · rintro ⟨known, offered, all⟩
      rcases offered?_object.mp offered with ⟨named, said, apart, rfl⟩
      exact ⟨named, said, apart, fun _ _ _ => List.not_mem_nil, all⟩
  | array items =>
    rw [read?, offered?]
    by_cases fitting : layout.fits items.length = true
    · rw [if_neg (fits_iff.mp fitting), if_pos fitting]
      rfl
    · rw [if_pos (not_not.mp (mt fits_iff.mpr fitting)), if_neg fitting]
      rfl
  | null | bool | numeral | string => rfl

end Layout
end Json
end Ventilation
