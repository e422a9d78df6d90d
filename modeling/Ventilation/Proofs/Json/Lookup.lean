import Ventilation.Proofs.Json.Meaning

namespace Ventilation
namespace Json

/-!
# What a field of a record is given

Of all that a document says, a field of a record depends on one thing: the last
member with its name, or the item in its place.  So a record is read by looking
up its fields, one after another in their order, both from a document and from
what it means.
-/

namespace Document

/-- The last member with a name. -/
def member? (name : String) : List Member → Option Document
  | [] => none
  | (key, document) :: rest =>
    (member? name rest).or (if text? key = some name then some document else none)

end Document

namespace Layout

variable {Draft : Type} {layout : Layout} {depth : Nat} {document : Document} {value : Value}
  {name : String} {members : List Member}

def field? (layout : Layout) (name : String) : Document → Option Document
  | .object members => Document.member? name members
  | .array items => (layout.fields.zip items).lookup name
  | _ => none

/-! ## Documents -/

theorem lookup_filter {α : Type} {fields : List (String × α)} (keeps : String → Bool)
    (kept : keeps name = true) :
    (fields.filter fun field => keeps field.1).lookup name = fields.lookup name := by
  induction fields with
  | nil => rfl
  | cons field rest inductionHypothesis =>
    rw [List.filter_cons]
    split
    · rw [lookup_field_cons, lookup_field_cons, inductionHypothesis]
    · next left =>
      have other : name ≠ field.1 := fun same => left (same ▸ kept)
      rw [lookup_field_cons, if_neg other, inductionHypothesis]

/-- A member that is known comes once, so the first one is the last one. -/
theorem lookup_of_named? {named : List (String × Document)}
    (called : named? members = some named)
    (apart : ((named.filter fun member => layout.knows member.1).map Prod.fst).Nodup)
    (known : layout.knows name = true) :
    named.lookup name = Document.member? name members := by
  induction members generalizing named with
  | nil =>
    cases called
    rfl
  | cons member rest inductionHypothesis =>
    rcases named?_cons.mp called with ⟨other, later, said, others, rfl⟩
    have apartLater : ((later.filter fun member => layout.knows member.1).map Prod.fst).Nodup :=
      apart.sublist (((List.sublist_cons_self _ _).filter _).map _)
    have onwards := inductionHypothesis others apartLater
    rw [Document.member?, said, ← onwards, lookup_field_cons]
    by_cases same : name = other
    · subst same
      have last : later.lookup name = none := by
        rw [List.filter_cons, if_pos known, List.map_cons, List.nodup_cons] at apart
        refine Option.eq_none_iff_forall_ne_some.mpr fun content found => apart.1 ?_
        rw [← lookup_filter layout.knows known] at found
        exact List.mem_map.mpr ⟨_, mem_of_lookup found, rfl⟩
      simp [last]
    · simp [same, Ne.symm same]

theorem offered?_lookup {fields : List (String × Document)}
    (offered : layout.offered? document = some fields) (known : layout.knows name = true) :
    fields.lookup name = layout.field? name document := by
  cases document with
  | object members =>
    rcases offered?_object.mp offered with ⟨named, called, apart, rfl⟩
    rw [lookup_filter _ known, lookup_of_named? called apart known]
    rfl
  | array items =>
    rcases Option.ite_none_right_eq_some.mp offered with ⟨-, same⟩
    cases same
    rfl
  | null | bool | numeral | string => cases offered

theorem nodup_zip {α : Type} {names : List String} (different : names.Nodup) (items : List α) :
    ((names.zip items).map Prod.fst).Nodup := by
  induction names generalizing items with
  | nil => exact List.nodup_nil
  | cons name rest inductionHypothesis =>
    cases items with
    | nil => exact List.nodup_nil
    | cons item items =>
      rcases List.nodup_cons.mp different with ⟨new, different⟩
      rw [List.zip_cons_cons, List.map_cons, List.nodup_cons]
      refine ⟨fun again => ?_, inductionHypothesis different items⟩
      rcases List.mem_map.mp again with ⟨field, among, rfl⟩
      exact new (List.of_mem_zip among).1

/-- What is offered comes once, and for a field. -/
theorem offered?_apart {fields : List (String × Document)} (different : layout.fields.Nodup)
    (offered : layout.offered? document = some fields) :
    (fields.map Prod.fst).Nodup ∧ ∀ field ∈ fields, field.1 ∈ layout.fields := by
  cases document with
  | object members =>
    rcases offered?_object.mp offered with ⟨named, called, apart, rfl⟩
    exact ⟨apart, fun field among => of_decide_eq_true (List.mem_filter.mp among).2⟩
  | array items =>
    rcases Option.ite_none_right_eq_some.mp offered with ⟨-, same⟩
    cases same
    exact ⟨nodup_zip different items, fun field among => (List.of_mem_zip among).1⟩
  | null | bool | numeral | string => cases offered

/-! ## Values -/

theorem lookup_insert (key : String) (value : Value) (done : List (String × Value)) :
    (Value.insert key value done).lookup name =
      if name = key then some value else done.lookup name := by
  induction done with
  | nil => exact lookup_field_cons name (key, value) []
  | cons member rest inductionHypothesis =>
    rcases member with ⟨other, held⟩
    simp only [Value.insert]
    split
    · exact lookup_field_cons name (key, value) _
    · split
      · next equal =>
        subst equal
        simp only [lookup_field_cons]
        split <;> rfl
      · next apart =>
        simp only [lookup_field_cons, inductionHypothesis]
        by_cases same : name = key
        · subst same
          simp [apart]
        · simp [same]

theorem exists_value_of_member? {found : List (String × Value)}
    (understood : Document.memberValues? depth members = some found)
    (last : Document.member? name members = some document) :
    ∃ value, document.value? depth = some value := by
  induction members generalizing found with
  | nil => cases last
  | cons member rest inductionHypothesis =>
    rcases Document.memberValues?_cons.mp understood with
      ⟨key, value, later, said, means, others, rfl⟩
    rcases Option.or_eq_some_iff.mp last with further | ⟨-, here⟩
    · exact inductionHypothesis others further
    · rcases Option.some.inj (Option.ite_none_right_eq_some.mp here).2 with rfl
      exact ⟨value, means⟩

/-- When members are sorted, the last one with a key is left. -/
theorem lookup_foldl_insert {found done : List (String × Value)}
    (understood : Document.memberValues? depth members = some found) :
    (found.foldl (fun done member => Value.insert member.1 member.2 done) done).lookup name =
      ((Document.member? name members).bind (·.value? depth)).or (done.lookup name) := by
  induction members generalizing found done with
  | nil =>
    cases understood
    rfl
  | cons member rest inductionHypothesis =>
    rcases Document.memberValues?_cons.mp understood with
      ⟨key, value, later, said, means, others, rfl⟩
    rw [List.foldl_cons, inductionHypothesis others, lookup_insert, Document.member?, said]
    cases last : Document.member? name rest with
    | none => by_cases same : name = key <;> simp [same, eq_comm, means]
    | some document =>
      rcases exists_value_of_member? others last with ⟨content, meant⟩
      simp [meant]

theorem lookup_of_alike {names : List (String × Document)} {given : List (String × Value)}
    (alike : Alike (fun document value => document.value? depth = some value) names given) :
    given.lookup name = (names.lookup name).bind (·.value? depth) := by
  induction alike with
  | nil => rfl
  | cons same _ inductionHypothesis =>
    rw [lookup_field_cons, lookup_field_cons, ← same.1]
    split
    · rw [Option.bind_some, same.2]
    · exact inductionHypothesis

/-- What a document says for a field has a meaning if the document has one. -/
theorem exists_value_of_field? (means : document.value? depth = some value) {content : Document}
    (said : layout.field? name document = some content) :
    ∃ inner, content.value? (depth - 1) = some inner := by
  cases document with
  | object members =>
    rcases Document.value?_object.mp means with ⟨-, found, understood, -⟩
    exact exists_value_of_member? understood said
  | array items =>
    rcases Document.value?_array.mp means with ⟨-, values, understood, -⟩
    have all := (Document.exists_items_iff items _).mp ⟨values, understood⟩
    exact (Document.exists_value_iff content _).mpr
      (all content (List.of_mem_zip (mem_of_lookup said)).2)
  | null | bool | numeral | string => cases said

/-- What a value gives a field is what the document says for it. -/
theorem given?_lookup (means : document.value? depth = some value)
    {given : List (String × Value)} (gives : layout.given? value = some given)
    (known : layout.knows name = true) :
    given.lookup name = (layout.field? name document).bind (·.value? (depth - 1)) := by
  cases document with
  | object members =>
    rcases Document.value?_object.mp means with ⟨-, found, understood, rfl⟩
    cases gives
    rw [lookup_filter _ known]
    exact (lookup_foldl_insert understood).trans (Option.or_none ..)
  | array items =>
    rcases Document.value?_array.mp means with ⟨-, values, understood, rfl⟩
    rcases Option.ite_none_right_eq_some.mp gives with ⟨-, same⟩
    cases same
    exact lookup_of_alike (Document.alike_of_itemValues? understood _)
  | null | bool =>
    cases means
    cases gives
  | numeral | string =>
    rcases Option.map_eq_some_iff.mp means with ⟨content, -, rfl⟩
    cases gives

/-- What is given comes once, and for a field. -/
theorem given?_apart (different : layout.fields.Nodup) (means : document.value? depth = some value)
    {given : List (String × Value)} (gives : layout.given? value = some given) :
    (given.map Prod.fst).Nodup ∧ ∀ field ∈ given, field.1 ∈ layout.fields := by
  cases document with
  | object members =>
    rcases Document.value?_object.mp means with ⟨-, found, understood, rfl⟩
    cases gives
    refine ⟨?_, fun field among => of_decide_eq_true (List.mem_filter.mp among).2⟩
    exact (Value.ascending_sorted found).nodup.sublist (List.filter_sublist.map _)
  | array items =>
    rcases Document.value?_array.mp means with ⟨-, values, understood, rfl⟩
    rcases Option.ite_none_right_eq_some.mp gives with ⟨-, same⟩
    cases same
    exact ⟨nodup_zip different values, fun field among => (List.of_mem_zip among).1⟩
  | null | bool =>
    cases means
    cases gives
  | numeral | string =>
    rcases Option.map_eq_some_iff.mp means with ⟨content, -, rfl⟩
    cases gives

/-! ## Records -/

variable {empty draft : Draft} {put : Draft → String → Document → Option Draft}
  {putValue : Draft → String → Value → Except Mismatch Draft}

/-- Fields that are found, one name after another. -/
theorem putAll_find_cons {α : Type} (put : Draft → String → α → Option Draft) (draft : Draft)
    (find : String → Option α) (name : String) (names : List String) :
    putAll put draft ((name :: names).filterMap fun name => (find name).map (name, ·)) =
      ((find name).elim (some draft) (put draft name)).bind fun next =>
        putAll put next (names.filterMap fun name => (find name).map (name, ·)) := by
  cases found : find name with
  | none => simp [found]
  | some content =>
    rw [List.filterMap_cons_some (by rw [found, Option.map_some]), putAll_cons]
    rfl

/-- What a document says for the fields of a record, in their order. -/
def fieldsOf (layout : Layout) (document : Document) : List (String × Document) :=
  layout.fields.filterMap fun name => (layout.field? name document).map (name, ·)

/-- A record is read from a document by looking up its fields. -/
theorem read?_eq_some_iff (independent : Independent put) (different : layout.fields.Nodup) :
    layout.read? put empty document = some draft ↔
      (layout.offered? document).isSome ∧
        putAll put empty (layout.fieldsOf document) = some draft := by
  rw [read?_eq]
  cases offered : layout.offered? document with
  | none => simp
  | some fields =>
    rcases offered?_apart different offered with ⟨apart, known⟩
    have same : layout.fieldsOf document = inOrder layout.fields fields := by
      refine List.filterMap_congr fun name among => ?_
      rw [offered?_lookup offered (decide_eq_true among)]
    rw [Option.bind_some, putAll_inOrder independent different apart known, same]
    simp

end Layout
end Json
end Ventilation
