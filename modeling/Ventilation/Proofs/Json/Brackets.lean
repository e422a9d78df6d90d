import Ventilation.Json.Document

namespace Ventilation
namespace Json

/-!
# Documents and their tokens

The reader takes one token after another, and what it has taken can be told from
where it is: the open brackets hold everything.  So the tokens of a document are
the only ones that it makes the document of.
-/

open Text (Glyph)

variable {reader next : Reader} {token : Token} {tokens : List Token}

namespace Document

/-! ## The tokens of a document lead to it -/

theorem takeAll?_append (reader : Reader) (first second : List Token) :
    reader.takeAll? (first ++ second) = (reader.takeAll? first).bind (·.takeAll? second) :=
  List.foldlM_append ..

theorem takeAll?_cons (reader : Reader) (token : Token) (rest : List Token) :
    reader.takeAll? (token :: rest) = (reader.take? token).bind (·.takeAll? rest) :=
  List.foldlM_cons ..

/-- An item that comes first is read like any other document. -/
theorem takeAll?_firstItem (outer : List Frame) (item : Document) (rest : List Token) :
    (Reader.firstItem outer).takeAll? (item.tokens ++ rest) =
      (Reader.document (.array [] :: outer)).takeAll? (item.tokens ++ rest) := by
  cases item <;> rfl

mutual

/-- The reader takes the tokens of a document and puts the document in its place. -/
theorem takeAll?_tokens (outer : List Frame) :
    (document : Document) →
      (Reader.document outer).takeAll? document.tokens = some (Reader.place document outer)
  | .null => rfl
  | .bool _ => rfl
  | .numeral _ => rfl
  | .string _ => rfl
  | .array [] => rfl
  | .array (item :: rest) => by
    have first := takeAll?_tokens (.array [] :: outer) item
    have later := takeAll?_laterItemTokens outer [item] rest
    rw [tokens, itemTokens, takeAll?_cons]
    change (Reader.firstItem outer).takeAll? _ = _
    rw [takeAll?_firstItem, takeAll?_append, first]
    exact later
  | .object [] => rfl
  | .object ((key, document) :: rest) => by
    have first := takeAll?_tokens (.object [] key :: outer) document
    have later := takeAll?_laterMemberTokens outer [(key, document)] rest
    rw [tokens, memberTokens, takeAll?_cons]
    change (Reader.document (.object [] key :: outer)).takeAll? _ = _
    rw [takeAll?_append, first]
    exact later

theorem takeAll?_laterItemTokens (outer : List Frame) (done : List Document) :
    (items : List Document) →
      (Reader.afterItem outer done).takeAll? (laterItemTokens items) =
        some (Reader.place (.array (done.reverse ++ items)) outer)
  | [] => by
    rw [List.append_nil]
    rfl
  | item :: rest => by
    have first := takeAll?_tokens (.array done :: outer) item
    have later := takeAll?_laterItemTokens outer (item :: done) rest
    rw [laterItemTokens, takeAll?_cons]
    change (Reader.document (.array done :: outer)).takeAll? _ = _
    rw [takeAll?_append, first]
    rw [List.reverse_cons, List.append_assoc] at later
    exact later

theorem takeAll?_laterMemberTokens (outer : List Frame) (done : List Member) :
    (members : List Member) →
      (Reader.afterMember outer done).takeAll? (laterMemberTokens members) =
        some (Reader.place (.object (done.reverse ++ members)) outer)
  | [] => by
    rw [List.append_nil]
    rfl
  | (key, document) :: rest => by
    have first := takeAll?_tokens (.object done key :: outer) document
    have later := takeAll?_laterMemberTokens outer ((key, document) :: done) rest
    rw [laterMemberTokens, takeAll?_cons]
    change (Reader.document (.object done key :: outer)).takeAll? _ = _
    rw [takeAll?_append, first]
    rw [List.reverse_cons, List.append_assoc] at later
    exact later

end

end Document

/-! ## What the reader has taken -/

namespace Reader

/-- The tokens of an array that is still open, with its items in order. -/
def arrayBegun : List Document → List Token
  | [] => [.openArray]
  | item :: rest => .openArray :: (item.tokens ++ rest.flatMap fun later => .comma :: later.tokens)

def memberTaken (member : Member) : List Token :=
  .string member.1 :: .colon :: member.2.tokens

/-- The tokens of an object that is still open, with its members in order. -/
def objectBegun : List Member → List Token
  | [] => [.openObject]
  | member :: rest =>
    .openObject :: (memberTaken member ++ rest.flatMap fun later => .comma :: memberTaken later)

/-- The comma that has to stand before one more. -/
def separator {α : Type} : List α → List Token
  | [] => []
  | _ :: _ => [.comma]

/-- The tokens of what is open. -/
def opened : List Frame → List Token
  | [] => []
  | .array items :: outer => opened outer ++ arrayBegun items.reverse ++ separator items
  | .object members name :: outer =>
    opened outer ++ objectBegun members.reverse ++ separator members ++ [.string name, .colon]

/-- The tokens that lead to a reader. -/
def taken : Reader → List Token
  | document outer => opened outer
  | firstItem outer => opened outer ++ [.openArray]
  | afterItem outer items => opened outer ++ arrayBegun items.reverse
  | firstKey outer => opened outer ++ [.openObject]
  | key outer members => opened outer ++ objectBegun members.reverse ++ [.comma]
  | colon outer members name =>
    opened outer ++ objectBegun members.reverse ++ separator members ++ [.string name]
  | afterMember outer members => opened outer ++ objectBegun members.reverse
  | finished whole => whole.tokens

/-- A comma follows something. -/
def Proper : Reader → Prop
  | afterItem _ items => items ≠ []
  | key _ members => members ≠ []
  | afterMember _ members => members ≠ []
  | _ => True

theorem laterItemTokens_eq (items : List Document) :
    Document.laterItemTokens items =
      items.flatMap (fun later => .comma :: later.tokens) ++ [.closeArray] := by
  induction items with
  | nil => rfl
  | cons item rest inductionHypothesis => simp [Document.laterItemTokens, inductionHypothesis]

theorem laterMemberTokens_eq (members : List Member) :
    Document.laterMemberTokens members =
      members.flatMap (fun later => .comma :: memberTaken later) ++ [.closeObject] := by
  induction members with
  | nil => rfl
  | cons member rest inductionHypothesis =>
    simp [Document.laterMemberTokens, inductionHypothesis, memberTaken]

theorem tokens_array (items : List Document) :
    (Document.array items).tokens = arrayBegun items ++ [.closeArray] := by
  cases items with
  | nil => rfl
  | cons item rest =>
    simp [Document.tokens, Document.itemTokens, laterItemTokens_eq, arrayBegun]

theorem tokens_object (members : List Member) :
    (Document.object members).tokens = objectBegun members ++ [.closeObject] := by
  cases members with
  | nil => rfl
  | cons member rest =>
    simp [Document.tokens, Document.memberTokens, laterMemberTokens_eq, objectBegun, memberTaken]

theorem arrayBegun_reverse_cons (item : Document) (items : List Document) :
    arrayBegun (item :: items).reverse =
      arrayBegun items.reverse ++ separator items ++ item.tokens := by
  rw [List.reverse_cons]
  cases items with
  | nil => simp [arrayBegun, separator]
  | cons last before =>
    rcases List.exists_cons_of_ne_nil (List.append_ne_nil_of_right_ne_nil before.reverse
      (List.cons_ne_nil last [])) with ⟨first, others, turned⟩
    simp [arrayBegun, separator, turned]

theorem objectBegun_reverse_cons (member : Member) (members : List Member) :
    objectBegun (member :: members).reverse =
      objectBegun members.reverse ++ separator members ++ memberTaken member := by
  rw [List.reverse_cons]
  cases members with
  | nil => simp [objectBegun, separator]
  | cons last before =>
    rcases List.exists_cons_of_ne_nil (List.append_ne_nil_of_right_ne_nil before.reverse
      (List.cons_ne_nil last [])) with ⟨first, others, turned⟩
    simp [objectBegun, separator, turned]

/-- To put a document into its place is to have taken its tokens. -/
theorem taken_place (whole : Document) (outer : List Frame) :
    (place whole outer).taken = opened outer ++ whole.tokens ∧ (place whole outer).Proper := by
  match outer with
  | [] => exact ⟨rfl, trivial⟩
  | .array items :: outer =>
    refine ⟨?_, List.cons_ne_nil _ _⟩
    simp only [place, taken, opened, arrayBegun_reverse_cons, List.append_assoc]
  | .object members name :: outer =>
    refine ⟨?_, List.cons_ne_nil _ _⟩
    simp only [place, taken, opened, objectBegun_reverse_cons, memberTaken, List.append_assoc,
      List.cons_append, List.nil_append]

theorem taken_begin (outer : List Frame) (began : begin? outer token = some next) :
    next.taken = opened outer ++ [token] ∧ next.Proper := by
  cases token with
  | openArray | openObject =>
    rcases Option.some.inj began with rfl
    exact ⟨rfl, trivial⟩
  | null | bool | numeral | string =>
    rcases Option.some.inj began with rfl
    exact taken_place _ outer
  | closeArray | closeObject | comma | colon => cases began

theorem take?_firstItem (outer : List Frame) (more : token ≠ .closeArray) :
    (firstItem outer).take? token = begin? (.array [] :: outer) token := by
  cases token with
  | closeArray => exact absurd rfl more
  | _ => rfl

theorem taken_take (proper : reader.Proper) (took : reader.take? token = some next) :
    next.taken = reader.taken ++ [token] ∧ next.Proper := by
  cases reader with
  | document outer => exact taken_begin outer took
  | firstItem outer =>
    by_cases ends : token = .closeArray
    · subst ends
      rcases Option.some.inj took with rfl
      simpa [taken, tokens_array, arrayBegun] using taken_place (.array []) outer
    · rw [take?_firstItem outer ends] at took
      simpa [taken, opened, arrayBegun, separator] using taken_begin (.array [] :: outer) took
  | afterItem outer items =>
    cases token with
    | comma =>
      rcases Option.some.inj took with rfl
      rcases List.exists_cons_of_ne_nil proper with ⟨item, rest, rfl⟩
      exact ⟨rfl, trivial⟩
    | closeArray =>
      rcases Option.some.inj took with rfl
      simpa [taken, tokens_array] using taken_place (.array items.reverse) outer
    | _ => cases took
  | firstKey outer =>
    cases token with
    | closeObject =>
      rcases Option.some.inj took with rfl
      simpa [taken, tokens_object, objectBegun] using taken_place (.object []) outer
    | string name =>
      rcases Option.some.inj took with rfl
      simp [taken, objectBegun, separator, Proper]
    | _ => cases took
  | key outer members =>
    cases token with
    | string name =>
      rcases Option.some.inj took with rfl
      rcases List.exists_cons_of_ne_nil proper with ⟨member, rest, rfl⟩
      exact ⟨rfl, trivial⟩
    | _ => cases took
  | colon outer members name =>
    cases token with
    | colon =>
      rcases Option.some.inj took with rfl
      simp [taken, opened, Proper]
    | _ => cases took
  | afterMember outer members =>
    cases token with
    | comma =>
      rcases Option.some.inj took with rfl
      exact ⟨rfl, proper⟩
    | closeObject =>
      rcases Option.some.inj took with rfl
      simpa [taken, tokens_object] using taken_place (.object members.reverse) outer
    | _ => cases took
  | finished document => cases took

theorem taken_takeAll (proper : reader.Proper) (took : reader.takeAll? tokens = some next) :
    next.taken = reader.taken ++ tokens := by
  induction tokens generalizing reader with
  | nil =>
    rcases Option.some.inj took with rfl
    rw [List.append_nil]
  | cons token rest inductionHypothesis =>
    rw [Document.takeAll?_cons] at took
    rcases Option.bind_eq_some_iff.mp took with ⟨middle, one, later⟩
    rcases taken_take proper one with ⟨grown, still⟩
    rw [inductionHypothesis still later, grown, List.append_assoc, List.singleton_append]

end Reader

namespace Document

/-- A document is made of its tokens, and of no others. -/
theorem ofTokens?_eq_some_iff {document : Document} :
    ofTokens? tokens = some document ↔ tokens = document.tokens := by
  constructor
  · intro built
    unfold ofTokens? at built
    split at built
    · next finished took =>
      rcases Option.some.inj built with rfl
      have proper : Reader.Proper (.document []) := trivial
      exact (Reader.taken_takeAll proper took).symm
    · cases built
  · rintro rfl
    simp [ofTokens?, takeAll?_tokens, Reader.place]

end Document
end Json
end Ventilation
