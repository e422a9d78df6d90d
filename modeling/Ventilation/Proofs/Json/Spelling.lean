import Ventilation.Proofs.Json.Brackets

namespace Ventilation
namespace Json

/-!
# Spellings

A text spells some tokens if it is made of a spelling of each of them and of
blanks.  Brackets, separators and words have one spelling each.  Numerals may
be written with either letter before the exponent and with a plus that says
nothing.  Strings have many spellings, since every character may be escaped.
A numeral ends where it cannot go on, which is all that one token has to know
of the next.

Texts that spell some tokens are exactly those that are cut into them.
-/

open Text (Glyph)

/-- Characters as they stand in a text. -/
def glyphs (chars : List Char) : List Glyph := chars.map .char

theorem glyphs_nil : glyphs [] = [] := rfl

theorem glyphs_cons (c : Char) (rest : List Char) : glyphs (c :: rest) = .char c :: glyphs rest :=
  rfl

theorem glyphs_append (first second : List Char) :
    glyphs (first ++ second) = glyphs first ++ glyphs second :=
  List.map_append

/-- A text does not begin with one of some characters. -/
def Clear (stops : Char → Bool) (text : List Glyph) : Prop :=
  ∀ c rest, text = .char c :: rest → stops c = false

variable {stops : Char → Bool} {text after : List Glyph}

theorem clear_nil : Clear stops [] := nofun

theorem clear_char {c : Char} {rest : List Glyph} :
    Clear stops (.char c :: rest) ↔ stops c = false :=
  ⟨fun clear => clear c rest rfl, fun other c rest same => by cases same; exact other⟩

theorem clear_junk {rest : List Glyph} : Clear stops (.junk :: rest) := nofun

/-! ## Numerals -/

/-- One digit at least, and nothing else. -/
def SomeDigits (found : List Char) : Prop := found ≠ [] ∧ ∀ c ∈ found, c.isDigit = true

inductive Whole : List Char → Prop
  | zero : Whole ['0']
  | digits {first : Char} {rest : List Char} (digit : first.isDigit = true) (other : first ≠ '0')
      (digits : ∀ c ∈ rest, c.isDigit = true) : Whole (first :: rest)

/-- The point with what follows it, or nothing. -/
inductive SpellsFraction : Option (List Char) → List Char → Prop
  | none : SpellsFraction none []
  | some {found : List Char} (digits : SomeDigits found) :
      SpellsFraction (some found) ('.' :: found)

/-- The sign of an exponent. -/
inductive SpellsSign : Bool → List Char → Prop
  | minus : SpellsSign true ['-']
  | plus : SpellsSign false ['+']
  | bare : SpellsSign false []

/-- The letter before an exponent. -/
def isMark (c : Char) : Bool := c = 'e' || c = 'E'

/-- The exponent with the letter before it, or nothing. -/
inductive SpellsExponent : Option (Bool × List Char) → List Char → Prop
  | none : SpellsExponent none []
  | some {negative : Bool} {mark : Char} {sign found : List Char} (marks : isMark mark = true)
      (signs : SpellsSign negative sign) (digits : SomeDigits found) :
      SpellsExponent (some (negative, found)) (mark :: (sign ++ found))

/-- A numeral after its sign. -/
inductive SpellsNumeral : Numeral → List Char → Prop
  | parts {negative : Bool} {whole : List Char} {fraction : Option (List Char)}
      {exponent : Option (Bool × List Char)} {point power : List Char} (wholly : Whole whole)
      (partly : SpellsFraction fraction point) (raised : SpellsExponent exponent power) :
      SpellsNumeral ⟨negative, whole, fraction, exponent⟩ (whole ++ point ++ power)

namespace Numeral

/-- Whether a numeral would go on with a character. -/
def goesOn (numeral : Numeral) (c : Char) : Bool :=
  match numeral.fraction, numeral.exponent with
  | none, none => c.isDigit && numeral.whole ≠ ['0'] || c = '.' || isMark c
  | some _, none => c.isDigit || isMark c
  | _, some _ => c.isDigit

end Numeral

theorem digits_eq_iff {found : List Char} :
    digits text = (found, after) ↔ text = glyphs found ++ after ∧
      (∀ c ∈ found, c.isDigit = true) ∧ Clear Char.isDigit after := by
  induction text generalizing found after with
  | nil =>
    simp only [digits, Prod.mk.injEq]
    constructor
    · rintro ⟨rfl, rfl⟩
      exact ⟨rfl, nofun, clear_nil⟩
    · rintro ⟨empty, -, -⟩
      rcases List.append_eq_nil_iff.mp empty.symm with ⟨nothing, rfl⟩
      exact ⟨(List.map_eq_nil_iff.mp nothing).symm, rfl⟩
  | cons glyph rest inductionHypothesis =>
    cases glyph with
    | junk =>
      simp only [digits, Prod.mk.injEq]
      constructor
      · rintro ⟨rfl, rfl⟩
        exact ⟨rfl, nofun, clear_junk⟩
      · rintro ⟨same, -, -⟩
        cases found with
        | nil => exact ⟨rfl, same⟩
        | cons c found => cases same
    | char c =>
      cases digit : c.isDigit with
      | true =>
        rcases cut : digits rest with ⟨front, back⟩
        simp only [digits, digit, cut, if_true, Prod.mk.injEq]
        constructor
        · rintro ⟨rfl, rfl⟩
          rcases inductionHypothesis.mp cut with ⟨same, all, clear⟩
          refine ⟨?_, List.forall_mem_cons.mpr ⟨digit, all⟩, clear⟩
          rw [glyphs_cons, List.cons_append, ← same]
        · rintro ⟨same, all, clear⟩
          cases found with
          | nil =>
            rw [glyphs_nil, List.nil_append] at same
            rw [← same, clear_char, digit] at clear
            cases clear
          | cons d found =>
            rw [glyphs_cons, List.cons_append, List.cons.injEq, Glyph.char.injEq] at same
            rcases same with ⟨rfl, rfl⟩
            have both := inductionHypothesis.mpr ⟨rfl, (List.forall_mem_cons.mp all).2, clear⟩
            rw [cut, Prod.mk.injEq] at both
            rcases both with ⟨rfl, rfl⟩
            exact ⟨rfl, rfl⟩
      | false =>
        simp only [digits, digit, Bool.false_eq_true, if_false, Prod.mk.injEq]
        constructor
        · rintro ⟨rfl, rfl⟩
          exact ⟨rfl, nofun, clear_char.mpr digit⟩
        · rintro ⟨same, all, -⟩
          cases found with
          | nil => exact ⟨rfl, same⟩
          | cons d found =>
            rw [glyphs_cons, List.cons_append, List.cons.injEq, Glyph.char.injEq] at same
            rw [same.1, all d List.mem_cons_self] at digit
            cases digit

theorem someDigits?_eq_some_iff {found : List Char} :
    someDigits? text = some (found, after) ↔
      text = glyphs found ++ after ∧ SomeDigits found ∧ Clear Char.isDigit after := by
  have split := @digits_eq_iff text after found
  cases cut : digits text with
  | mk front back =>
    rw [cut, Prod.mk.injEq] at split
    simp only [someDigits?, cut, List.isEmpty_iff, Option.ite_none_left_eq_some, Option.some.injEq,
      Prod.mk.injEq, SomeDigits]
    constructor
    · rintro ⟨something, rfl, rfl⟩
      rcases split.mp ⟨rfl, rfl⟩ with ⟨same, all, clear⟩
      exact ⟨same, ⟨something, all⟩, clear⟩
    · rintro ⟨same, ⟨something, all⟩, clear⟩
      rcases split.mpr ⟨same, all, clear⟩ with ⟨rfl, rfl⟩
      exact ⟨something, rfl, rfl⟩

theorem whole?_eq_some_iff {whole : List Char} :
    whole? text = some (whole, after) ↔
      text = glyphs whole ++ after ∧ Whole whole ∧ (whole ≠ ['0'] → Clear Char.isDigit after) := by
  constructor
  · intro found
    unfold whole? at found
    split at found
    · next c rest =>
      split at found
      · next zero =>
        subst zero
        cases found
        exact ⟨rfl, .zero, fun other => absurd rfl other⟩
      · next other =>
        rcases someDigits?_eq_some_iff.mp found with ⟨same, ⟨something, all⟩, clear⟩
        refine ⟨same, ?_, fun _ => clear⟩
        cases whole with
        | nil => exact absurd rfl something
        | cons d whole =>
          rw [glyphs_cons, List.cons_append, List.cons.injEq, Glyph.char.injEq] at same
          rcases List.forall_mem_cons.mp all with ⟨digit, digits⟩
          exact .digits digit (same.1 ▸ other) digits
    · cases found
  · rintro ⟨rfl, wholly, clear⟩
    cases wholly with
    | zero => rfl
    | @digits first rest digit other all =>
      have several : first :: rest ≠ ['0'] := fun same => other (List.cons.inj same).1
      rw [glyphs_cons, List.cons_append, whole?, if_neg other]
      exact someDigits?_eq_some_iff.mpr ⟨rfl, ⟨List.cons_ne_nil _ _,
        List.forall_mem_cons.mpr ⟨digit, all⟩⟩, clear several⟩

theorem fraction?_eq_some_iff {fraction : Option (List Char)} :
    fraction? text = some (fraction, after) ↔
      ∃ point, text = glyphs point ++ after ∧ SpellsFraction fraction point ∧
        Clear (fun c => if fraction.isSome then c.isDigit else c = '.') after := by
  constructor
  · intro found
    unfold fraction? at found
    split at found
    · next rest =>
      rcases Option.map_eq_some_iff.mp found with ⟨⟨some, back⟩, cut, same⟩
      cases same
      rcases someDigits?_eq_some_iff.mp cut with ⟨rfl, digits, clear⟩
      exact ⟨_, rfl, .some digits, clear⟩
    · next other =>
      cases found
      refine ⟨[], rfl, .none, ?_⟩
      intro c rest same
      exact decide_eq_false fun point => other rest (point ▸ same)
  · rintro ⟨point, rfl, spelled, clear⟩
    cases spelled with
    | none =>
      rw [glyphs_nil, List.nil_append]
      unfold fraction?
      split
      · simp [clear_char] at clear
      · rfl
    | some digits =>
      rw [glyphs_cons, List.cons_append, fraction?,
        someDigits?_eq_some_iff.mpr ⟨rfl, digits, clear⟩]
      rfl

theorem exponent?_eq_some_iff {exponent : Option (Bool × List Char)} :
    exponent? text = some (exponent, after) ↔
      ∃ power, text = glyphs power ++ after ∧ SpellsExponent exponent power ∧
        Clear (fun c => if exponent.isSome then c.isDigit else isMark c) after := by
  constructor
  · intro found
    unfold exponent? at found
    split at found
    · next c rest =>
      split at found
      · next mark =>
        rcases Option.map_eq_some_iff.mp found with ⟨⟨some, back⟩, cut, same⟩
        cases same
        split at cut
        · rcases someDigits?_eq_some_iff.mp cut with ⟨rfl, digits, clear⟩
          exact ⟨_, rfl, .some mark .minus digits, clear⟩
        · rcases someDigits?_eq_some_iff.mp cut with ⟨rfl, digits, clear⟩
          exact ⟨_, rfl, .some mark .plus digits, clear⟩
        · rcases someDigits?_eq_some_iff.mp cut with ⟨rfl, digits, clear⟩
          exact ⟨_, rfl, .some mark .bare digits, clear⟩
      · next other =>
        cases found
        exact ⟨[], rfl, .none, clear_char.mpr (Bool.eq_false_iff.mpr other)⟩
    · next other =>
      cases found
      exact ⟨[], rfl, .none, fun c rest same => absurd same (other c rest)⟩
  · rintro ⟨power, rfl, spelled, clear⟩
    cases spelled with
    | none =>
      rw [glyphs_nil, List.nil_append]
      unfold exponent?
      split
      · exact if_neg (Bool.eq_false_iff.mp (clear_char.mp clear))
      · rfl
    | @some negative mark sign found marks signs digits =>
      have cut := someDigits?_eq_some_iff.mpr ⟨rfl, digits, clear⟩
      rw [glyphs_cons, List.cons_append]
      unfold exponent?
      refine (if_pos marks).trans ?_
      cases signs with
      | minus => exact Option.map_eq_some_iff.mpr ⟨_, cut, rfl⟩
      | plus => exact Option.map_eq_some_iff.mpr ⟨_, cut, rfl⟩
      | bare =>
        rcases List.exists_cons_of_ne_nil digits.1 with ⟨d, more, rfl⟩
        have digit := digits.2 d List.mem_cons_self
        split
        next signed =>
        split at signed
        · next same =>
          cases same
          cases digit
        · next same =>
          cases same
          cases digit
        · cases signed
          exact Option.map_eq_some_iff.mpr ⟨_, cut, rfl⟩

theorem SpellsFraction.clear {fraction : Option (List Char)} {point : List Char}
    (spelled : SpellsFraction fraction point) (point_stops : stops '.' = false)
    (clear : fraction = Option.none → Clear stops after) : Clear stops (glyphs point ++ after) := by
  cases spelled with
  | none => exact clear rfl
  | some digits => exact clear_char.mpr point_stops

theorem SpellsExponent.clear {exponent : Option (Bool × List Char)} {power : List Char}
    (spelled : SpellsExponent exponent power) (mark_stops : ∀ c, isMark c = true → stops c = false)
    (clear : exponent = Option.none → Clear stops after) : Clear stops (glyphs power ++ after) := by
  cases spelled with
  | none => exact clear rfl
  | some marks => exact clear_char.mpr (mark_stops _ marks)

theorem eq_of_isMark {c : Char} (mark : isMark c = true) : c = 'e' ∨ c = 'E' := by
  simpa [isMark] using mark

theorem not_isDigit_of_isMark (c : Char) (mark : isMark c = true) : c.isDigit = false := by
  rcases eq_of_isMark mark with rfl | rfl <;> rfl

/-- A numeral is cut off where it does not go on. -/
theorem numeral?_eq_some_iff {negative : Bool} {numeral : Numeral} :
    numeral? negative text = some (numeral, after) ↔
      ∃ chars, text = glyphs chars ++ after ∧ numeral.negative = negative ∧
        SpellsNumeral numeral chars ∧ Clear numeral.goesOn after := by
  constructor
  · intro found
    simp only [numeral?, Option.bind_eq_bind, Option.bind_eq_some_iff, Option.pure_def,
      Option.some.injEq, Prod.mk.injEq] at found
    rcases found with ⟨⟨whole, afterWhole⟩, cut, ⟨fraction, afterPoint⟩, cutPoint,
      ⟨exponent, afterPower⟩, cutPower, rfl, rfl⟩
    rcases whole?_eq_some_iff.mp cut with ⟨rfl, wholly, clearWhole⟩
    rcases fraction?_eq_some_iff.mp cutPoint with ⟨point, rfl, partly, clearPoint⟩
    rcases exponent?_eq_some_iff.mp cutPower with ⟨power, rfl, raised, clearPower⟩
    refine ⟨whole ++ point ++ power, ?_, rfl, .parts wholly partly raised, ?_⟩
    · rw [glyphs_append, glyphs_append, List.append_assoc, List.append_assoc]
    · rintro c rest rfl
      cases partly with
      | none =>
        cases raised with
        | none =>
          have digit : whole ≠ ['0'] → c.isDigit = false := fun other =>
            clear_char.mp (clearWhole other)
          have point : (c = '.') = False := by simpa using clear_char.mp clearPoint
          have mark : isMark c = false := clear_char.mp clearPower
          by_cases zero : whole = ['0'] <;> simp [Numeral.goesOn, digit, point, mark, zero]
        | some => exact clear_char.mp clearPower
      | some =>
        cases raised with
        | none =>
          have digit : c.isDigit = false := clear_char.mp clearPoint
          have mark : isMark c = false := clear_char.mp clearPower
          simp [Numeral.goesOn, digit, mark]
        | some => exact clear_char.mp clearPower
  · rintro ⟨chars, rfl, rfl, spelled, clear⟩
    cases spelled with
    | @parts negative whole fraction exponent point power wholly partly raised =>
    have goes : ∀ {stops : Char → Bool}, (∀ c, stops c = true →
        Numeral.goesOn ⟨negative, whole, fraction, exponent⟩ c = true) → Clear stops after := by
      intro stops among c rest same
      cases stopped : stops c with
      | false => rfl
      | true => exact (among c stopped).symm.trans (clear c rest same)
    have clearPower : Clear (fun c => if exponent.isSome then c.isDigit else isMark c) after := by
      refine goes fun c stopped => ?_
      cases exponent <;> cases fraction <;> simp_all [Numeral.goesOn]
    have clearPoint : Clear (fun c => if fraction.isSome then c.isDigit else c = '.')
        (glyphs power ++ after) := by
      refine raised.clear (fun c mark => ?_) fun plain => goes fun c stopped => ?_
      · cases fraction with
        | none => rcases eq_of_isMark mark with rfl | rfl <;> rfl
        | some => exact not_isDigit_of_isMark c mark
      · subst plain
        cases fraction <;> simp_all [Numeral.goesOn]
    have clearWhole : whole ≠ ['0'] →
        Clear Char.isDigit (glyphs point ++ (glyphs power ++ after)) := by
      intro other
      refine partly.clear rfl fun whole_alone => raised.clear not_isDigit_of_isMark fun plain => ?_
      subst whole_alone plain
      refine goes fun c stopped => ?_
      simp [Numeral.goesOn, stopped, other]
    have cutWhole := whole?_eq_some_iff.mpr ⟨rfl, wholly, clearWhole⟩
    have cutPoint := fraction?_eq_some_iff.mpr ⟨point, rfl, partly, clearPoint⟩
    have cutPower := exponent?_eq_some_iff.mpr ⟨power, rfl, raised, clearPower⟩
    simp only [numeral?, glyphs_append, List.append_assoc, cutWhole, cutPoint, cutPower,
      Option.bind_eq_bind, Option.bind_some, Option.pure_def]

/-! ## Strings -/

/-- The inside of a string, piece by piece.  Every glyph but quotes, backslashes
and control characters may stand for itself. -/
inductive SpellsPieces : List Piece → List Glyph → Prop
  | nil : SpellsPieces [] []
  | plain {c : Char} {pieces : List Piece} {body : List Glyph} (quote : c ≠ '"')
      (backslash : c ≠ '\\') (printed : 0x20 ≤ c.toNat) (rest : SpellsPieces pieces body) :
      SpellsPieces (.glyph (.char c) :: pieces) (.char c :: body)
  | junk {pieces : List Piece} {body : List Glyph} (rest : SpellsPieces pieces body) :
      SpellsPieces (.glyph .junk :: pieces) (.junk :: body)
  | short {e c : Char} {pieces : List Piece} {body : List Glyph} (escapes : escape? e = some c)
      (rest : SpellsPieces pieces body) :
      SpellsPieces (.glyph (.char c) :: pieces) (.char '\\' :: .char e :: body)
  | unit {first second third fourth : Glyph} {code : Nat} {pieces : List Piece}
      {body : List Glyph} (worth : unit? first second third fourth = some code)
      (rest : SpellsPieces pieces body) :
      SpellsPieces (.unit code :: pieces)
        (.char '\\' :: .char 'u' :: first :: second :: third :: fourth :: body)

/-- One piece before others. -/
def prepend (piece : Piece) (cut : List Piece × List Glyph) : List Piece × List Glyph :=
  (piece :: cut.1, cut.2)

theorem pieces?_quote (rest : List Glyph) : pieces? (.char '"' :: rest) = some ([], rest) := by
  rw [pieces?.eq_def]
  rfl

theorem pieces?_junk (rest : List Glyph) :
    pieces? (.junk :: rest) = (pieces? rest).map (prepend (.glyph .junk)) :=
  rfl

theorem pieces?_plain {c : Char} (quote : c ≠ '"') (backslash : c ≠ '\\') (rest : List Glyph) :
    pieces? (.char c :: rest) =
      if c.toNat < 0x20 then none else (pieces? rest).map (prepend (.glyph (.char c))) := by
  rw [pieces?.eq_def]
  dsimp only
  rw [if_neg quote, if_neg backslash]
  rfl

theorem pieces?_unit (first second third fourth : Glyph) (rest : List Glyph) :
    pieces? (.char '\\' :: .char 'u' :: first :: second :: third :: fourth :: rest) =
      (unit? first second third fourth).bind fun code =>
        (pieces? rest).map (prepend (.unit code)) := by
  rw [pieces?.eq_3, if_neg (by decide), if_pos rfl]
  cases unit? first second third fourth with
  | none => rfl
  | some code => cases pieces? rest <;> rfl

/-- The letter of a code unit is no short escape. -/
theorem pieces?_short {e : Char} {rest : List Glyph}
    (other : ∀ a b c d later, rest = a :: b :: c :: d :: later → e = 'u' → False) :
    pieces? (.char '\\' :: .char e :: rest) =
      (escape? e).bind fun c => (pieces? rest).map (prepend (.glyph (.char c))) := by
  rw [pieces?.eq_4 _ _ _ other, if_neg (by decide), if_pos rfl]
  cases escape? e with
  | none => rfl
  | some c => cases pieces? rest <;> rfl

/-- A string is cut into the pieces that its inside spells. -/
theorem pieces?_eq_some_iff {pieces : List Piece} :
    pieces? text = some (pieces, after) ↔
      ∃ body, text = body ++ .char '"' :: after ∧ SpellsPieces pieces body := by
  constructor
  · intro cut
    induction text using pieces?.induct generalizing pieces with
    | case1 => cases cut
    | case2 rest inductionHypothesis =>
      rcases Option.map_eq_some_iff.mp cut with ⟨⟨more, back⟩, later, same⟩
      cases same
      rcases inductionHypothesis later with ⟨body, rfl, spelled⟩
      exact ⟨.junk :: body, rfl, .junk spelled⟩
    | case3 rest =>
      rw [pieces?_quote] at cut
      cases cut
      exact ⟨[], rfl, .nil⟩
    | case4 first second third fourth rest apart inductionHypothesis =>
      rw [pieces?_unit, Option.bind_eq_some_iff] at cut
      rcases cut with ⟨code, worth, cut⟩
      rcases Option.map_eq_some_iff.mp cut with ⟨⟨more, back⟩, later, same⟩
      cases same
      rcases inductionHypothesis later with ⟨body, rfl, spelled⟩
      exact ⟨_, rfl, .unit worth spelled⟩
    | case5 e rest other apart inductionHypothesis =>
      rw [pieces?_short other, Option.bind_eq_some_iff] at cut
      rcases cut with ⟨c, escapes, cut⟩
      rcases Option.map_eq_some_iff.mp cut with ⟨⟨more, back⟩, later, same⟩
      cases same
      rcases inductionHypothesis later with ⟨body, rfl, spelled⟩
      exact ⟨_, rfl, .short escapes spelled⟩
    | case6 rest other another apart =>
      rw [pieces?.eq_def] at cut
      dsimp only at cut
      rw [if_neg apart, if_pos rfl] at cut
      split at cut
      · exact absurd rfl (other _ _ _ _ _)
      · exact absurd rfl (another _ _)
      · cases cut
    | case7 c rest quote backslash control =>
      rw [pieces?_plain quote backslash, if_pos control] at cut
      cases cut
    | case8 c rest quote backslash printed inductionHypothesis =>
      rw [pieces?_plain quote backslash, if_neg printed] at cut
      rcases Option.map_eq_some_iff.mp cut with ⟨⟨more, back⟩, later, same⟩
      cases same
      rcases inductionHypothesis later with ⟨body, rfl, spelled⟩
      exact ⟨_, rfl, .plain quote backslash (Nat.le_of_not_lt printed) spelled⟩
  · rintro ⟨body, rfl, spelled⟩
    induction spelled with
    | nil => exact pieces?_quote after
    | plain quote backslash printed rest inductionHypothesis =>
      rw [List.cons_append, pieces?_plain quote backslash, if_neg (Nat.not_lt.mpr printed),
        inductionHypothesis]
      rfl
    | junk rest inductionHypothesis =>
      rw [List.cons_append, pieces?_junk, inductionHypothesis]
      rfl
    | @short e c pieces body escapes rest inductionHypothesis =>
      rw [List.cons_append, List.cons_append, pieces?_short, escapes, Option.bind_some,
        inductionHypothesis]
      · rfl
      · rintro - - - - - - rfl
        cases escapes
    | unit worth rest inductionHypothesis =>
      simp only [List.cons_append, pieces?_unit, worth, Option.bind_some, inductionHypothesis]
      rfl

/-! ## Tokens -/

theorem word?_eq_some_iff {word : List Char} :
    word? word text = some after ↔ text = glyphs word ++ after := by
  induction word generalizing text with
  | nil => simp [word?, glyphs_nil]
  | cons c word inductionHypothesis =>
    rcases text with - | ⟨d | -, rest⟩
    · simp [word?, glyphs_cons]
    · simp only [word?, glyphs_cons, List.cons_append, List.cons.injEq, Glyph.char.injEq]
      by_cases same : c = d
      · simp [same, inductionHypothesis]
      · simp [same, Ne.symm same]
    · simp [word?, glyphs_cons]

namespace Token

/-- The spellings of a token. -/
inductive Spells : Token → List Glyph → Prop
  | openArray : Spells .openArray (glyphs ['['])
  | closeArray : Spells .closeArray (glyphs [']'])
  | openObject : Spells .openObject (glyphs ['\x7b'])
  | closeObject : Spells .closeObject (glyphs ['\x7d'])
  | comma : Spells .comma (glyphs [','])
  | colon : Spells .colon (glyphs [':'])
  | null : Spells .null (glyphs "null".toList)
  | yes : Spells (.bool true) (glyphs "true".toList)
  | no : Spells (.bool false) (glyphs "false".toList)
  | string {pieces : List Piece} {body : List Glyph} (spelled : SpellsPieces pieces body) :
      Spells (.string (join pieces)) (.char '"' :: (body ++ [.char '"']))
  | positive {numeral : Numeral} {chars : List Char} (sign : numeral.negative = false)
      (spelled : SpellsNumeral numeral chars) : Spells (.numeral numeral) (glyphs chars)
  | negative {numeral : Numeral} {chars : List Char} (sign : numeral.negative = true)
      (spelled : SpellsNumeral numeral chars) : Spells (.numeral numeral) (glyphs ('-' :: chars))

/-- Some text does not belong to the token before it. -/
def EndsBefore : Token → List Glyph → Prop
  | .numeral spelling, text => Clear spelling.goesOn text
  | _, _ => True

end Token

theorem SpellsNumeral.begins {numeral : Numeral} {chars : List Char}
    (spelled : SpellsNumeral numeral chars) :
    ∃ first more, chars = first :: more ∧ first.isDigit = true := by
  cases spelled with
  | parts wholly =>
    cases wholly with
    | zero => exact ⟨_, _, rfl, rfl⟩
    | digits digit => exact ⟨_, _, rfl, digit⟩

theorem ne_of_isDigit {c : Char} (digit : c.isDigit = true) (other : Char)
    (plain : other.isDigit = false) : c ≠ other := by
  rintro rfl
  cases digit.symm.trans plain

theorem token?_of_isDigit {c : Char} (digit : c.isDigit = true) (rest : List Glyph) :
    token? c rest =
      (numeral? false (.char c :: rest)).map fun (n, after) => (.numeral n, after) := by
  have other := ne_of_isDigit digit
  simp only [token?, other '[' rfl, other ']' rfl, other '\x7b' rfl, other '\x7d' rfl,
    other ',' rfl, other ':' rfl, other '"' rfl, other 'n' rfl, other 't' rfl, other 'f' rfl,
    other '-' rfl, if_false]

/-- A token is spelled at the beginning of some text. -/
def Leads (token : Token) (text after : List Glyph) : Prop :=
  ∃ body, text = body ++ after ∧ token.Spells body ∧ token.EndsBefore after

variable {c mark : Char} {rest : List Glyph} {token found : Token}
  {others : Option (Token × List Glyph)}

/-- A character is a token of its own, or the others are asked. -/
theorem leads_of_mark (spelled : token.Spells (glyphs [mark])) (ends : token.EndsBefore rest)
    (cut : (if c = mark then some (token, rest) else others) = some (found, after)) :
    Leads found (.char c :: rest) after ∨ others = some (found, after) := by
  split at cut
  · next same =>
    cases cut
    exact .inl ⟨_, same ▸ rfl, spelled, ends⟩
  · exact .inr cut

/-- A character begins a word, or the others are asked. -/
theorem leads_of_word {word : List Char} (spelled : token.Spells (glyphs (mark :: word)))
    (ends : ∀ text, token.EndsBefore text)
    (cut : (if c = mark then (word? word rest).map (token, ·) else others) = some (found, after)) :
    Leads found (.char c :: rest) after ∨ others = some (found, after) := by
  split at cut
  · next same =>
    rcases Option.map_eq_some_iff.mp cut with ⟨back, cut, same⟩
    cases same
    rcases word?_eq_some_iff.mp cut with rfl
    exact .inl ⟨_, same ▸ rfl, spelled, ends after⟩
  · exact .inr cut

theorem token?_eq_some_iff : token? c rest = some (found, after) ↔
    Leads found (.char c :: rest) after := by
  constructor
  · intro cut
    unfold token? at cut
    rcases leads_of_mark .openArray trivial cut with leads | cut
    · exact leads
    rcases leads_of_mark .closeArray trivial cut with leads | cut
    · exact leads
    rcases leads_of_mark .openObject trivial cut with leads | cut
    · exact leads
    rcases leads_of_mark .closeObject trivial cut with leads | cut
    · exact leads
    rcases leads_of_mark .comma trivial cut with leads | cut
    · exact leads
    rcases leads_of_mark .colon trivial cut with leads | cut
    · exact leads
    by_cases quote : c = '"'
    · rw [if_pos quote] at cut
      rcases Option.map_eq_some_iff.mp cut with ⟨⟨pieces, back⟩, cut, same⟩
      cases same
      rcases pieces?_eq_some_iff.mp cut with ⟨body, rfl, spelled⟩
      refine ⟨_, ?_, .string spelled, trivial⟩
      rw [quote, List.cons_append, List.append_assoc, List.singleton_append]
    rw [if_neg quote] at cut
    rcases leads_of_word .null (fun _ => trivial) cut with leads | cut
    · exact leads
    rcases leads_of_word .yes (fun _ => trivial) cut with leads | cut
    · exact leads
    rcases leads_of_word .no (fun _ => trivial) cut with leads | cut
    · exact leads
    by_cases minus : c = '-'
    · rw [if_pos minus] at cut
      rcases Option.map_eq_some_iff.mp cut with ⟨⟨numeral, back⟩, cut, same⟩
      cases same
      rcases numeral?_eq_some_iff.mp cut with ⟨chars, rfl, sign, spelled, clear⟩
      exact ⟨_, minus ▸ rfl, .negative sign spelled, clear⟩
    · rw [if_neg minus] at cut
      rcases Option.map_eq_some_iff.mp cut with ⟨⟨numeral, back⟩, cut, same⟩
      cases same
      rcases numeral?_eq_some_iff.mp cut with ⟨chars, same, sign, spelled, clear⟩
      exact ⟨_, same, .positive sign spelled, clear⟩
  · rintro ⟨body, same, spelled, clear⟩
    cases spelled with
    | openArray | closeArray | openObject | closeObject | comma | colon =>
      cases same
      rfl
    | null | yes | no =>
      cases same
      rfl
    | string spelled =>
      rw [List.cons_append, List.append_assoc, List.singleton_append, List.cons.injEq,
        Glyph.char.injEq] at same
      rcases same with ⟨rfl, rfl⟩
      exact Option.map_eq_some_iff.mpr ⟨_, pieces?_eq_some_iff.mpr ⟨_, rfl, spelled⟩, rfl⟩
    | negative sign spelled =>
      rw [glyphs_cons, List.cons_append, List.cons.injEq, Glyph.char.injEq] at same
      rcases same with ⟨rfl, rfl⟩
      exact Option.map_eq_some_iff.mpr
        ⟨_, numeral?_eq_some_iff.mpr ⟨_, rfl, sign, spelled, clear⟩, rfl⟩
    | @positive numeral chars sign spelled =>
      have cut := numeral?_eq_some_iff.mpr ⟨chars, same, sign, spelled, clear⟩
      rcases spelled.begins with ⟨first, more, rfl, digit⟩
      rw [glyphs_cons, List.cons_append, List.cons.injEq, Glyph.char.injEq] at same
      rw [token?_of_isDigit (same.1 ▸ digit), cut]
      rfl

/-! ## Texts -/

/-- A text spells some tokens, with blanks wherever there may be some. -/
inductive Spelled : List Token → List Glyph → Prop
  | nil : Spelled [] []
  | blank {glyph : Glyph} {tokens : List Token} {text : List Glyph} (blank : isBlank glyph = true)
      (rest : Spelled tokens text) : Spelled tokens (glyph :: text)
  | token {token : Token} {body : List Glyph} {tokens : List Token} {text : List Glyph}
      (own : token.Spells body) (ends : token.EndsBefore text) (rest : Spelled tokens text) :
      Spelled (token :: tokens) (body ++ text)

/-- A spelling begins with a character that is no blank. -/
theorem Token.Spells.begins {body : List Glyph} (spelled : token.Spells body) :
    ∃ c more, body = .char c :: more ∧ isBlank (.char c) = false := by
  cases spelled with
  | openArray | closeArray | openObject | closeObject | comma | colon | null | yes | no | string
  | negative => exact ⟨_, _, rfl, by decide⟩
  | positive sign spelled =>
    rcases spelled.begins with ⟨first, more, rfl, digit⟩
    refine ⟨first, glyphs more, rfl, ?_⟩
    simp [isBlank, ne_of_isDigit digit ' ' rfl, ne_of_isDigit digit '\t' rfl,
      ne_of_isDigit digit '\n' rfl, ne_of_isDigit digit '\r' rfl]

theorem tokensWithin?_blank {glyph : Glyph} (blank : isBlank glyph = true) (fuel : Nat)
    (rest : List Glyph) : tokensWithin? (fuel + 1) (glyph :: rest) = tokensWithin? fuel rest := by
  rw [tokensWithin?.eq_def]
  exact if_pos blank

theorem tokensWithin?_char (solid : isBlank (.char c) = false) (fuel : Nat) (rest : List Glyph) :
    tokensWithin? (fuel + 1) (.char c :: rest) =
      (token? c rest).bind fun cut => (tokensWithin? fuel cut.2).map (cut.1 :: ·) := by
  rw [tokensWithin?.eq_4, if_neg (Bool.eq_false_iff.mp solid)]
  cases token? c rest with
  | none => rfl
  | some cut =>
    rcases cut with ⟨token, after⟩
    cases later : tokensWithin? fuel after <;> simp [later]

theorem tokensWithin?_of_spelled {tokens : List Token} (spelled : Spelled tokens text) {fuel : Nat}
    (enough : text.length ≤ fuel) : tokensWithin? fuel text = some tokens := by
  induction spelled generalizing fuel with
  | nil => cases fuel <;> rfl
  | blank blank rest inductionHypothesis =>
    cases fuel with
    | zero => cases enough
    | succ fuel =>
      rw [tokensWithin?_blank blank]
      exact inductionHypothesis (Nat.le_of_succ_le_succ enough)
  | @token token body tokens text own ends rest inductionHypothesis =>
    rcases own.begins with ⟨c, more, rfl, solid⟩
    cases fuel with
    | zero => cases enough
    | succ fuel =>
      have cut : token? c (more ++ text) = some (token, text) :=
        token?_eq_some_iff.mpr ⟨_, rfl, own, ends⟩
      have shorter : text.length ≤ fuel := by
        simp only [List.cons_append, List.length_cons, List.length_append] at enough
        omega
      rw [List.cons_append, tokensWithin?_char solid, cut, Option.bind_some,
        inductionHypothesis shorter, Option.map_some]

theorem spelled_of_tokensWithin? {tokens : List Token} {fuel : Nat}
    (cut : tokensWithin? fuel text = some tokens) : Spelled tokens text := by
  induction fuel generalizing text tokens with
  | zero =>
    cases text with
    | nil =>
      cases cut
      exact .nil
    | cons glyph rest => cases cut
  | succ fuel inductionHypothesis =>
    cases text with
    | nil =>
      cases cut
      exact .nil
    | cons glyph rest =>
      cases blank : isBlank glyph with
      | true =>
        rw [tokensWithin?_blank blank] at cut
        exact .blank blank (inductionHypothesis cut)
      | false =>
        cases glyph with
        | junk => cases cut
        | char c =>
          rw [tokensWithin?_char blank, Option.bind_eq_some_iff] at cut
          rcases cut with ⟨⟨token, after⟩, one, cut⟩
          rcases Option.map_eq_some_iff.mp cut with ⟨later, others, rfl⟩
          rcases token?_eq_some_iff.mp one with ⟨body, same, own, ends⟩
          rw [same]
          exact .token own ends (inductionHypothesis others)

/-- A text is cut into the tokens that it spells. -/
theorem tokens?_eq_some_iff {tokens : List Token} :
    tokens? text = some tokens ↔ Spelled tokens text :=
  ⟨spelled_of_tokensWithin?, fun spelled => tokensWithin?_of_spelled spelled (Nat.le_refl _)⟩

namespace Spelled

variable {first second : List Token} {front back : List Glyph}

theorem eq_nil {tokens : List Token} (spelled : Spelled tokens []) : tokens = [] := by
  generalize nothing : ([] : List Glyph) = text at spelled
  cases spelled with
  | nil => rfl
  | blank => cases nothing
  | token own =>
    rcases own.begins with ⟨c, more, rfl, -⟩
    cases nothing

/-- Texts can be put together unless the last token of the first one would go on
with the second one. -/
theorem append (one : Spelled first front) (two : Spelled second back)
    (clear : ∀ token, first.getLast? = some token → token.EndsBefore back) :
    Spelled (first ++ second) (front ++ back) := by
  induction one with
  | nil => exact two
  | blank blank rest inductionHypothesis => exact .blank blank (inductionHypothesis clear)
  | @token token body tokens text own ends rest inductionHypothesis =>
    rw [List.append_assoc]
    refine .token own ?_ (inductionHypothesis fun last isLast => clear last ?_)
    · cases text with
      | nil =>
        rcases rest.eq_nil with rfl
        exact clear token rfl
      | cons glyph text =>
        cases token with
        | numeral spelling =>
          intro c rest same
          cases same
          exact ends c _ rfl
        | _ => trivial
    · cases tokens with
      | nil => cases isLast
      | cons next tokens => exact isLast

end Spelled

/-- No token goes on with a bracket that closes an object. -/
theorem Token.endsBefore_closing (token : Token) (rest : List Glyph) :
    token.EndsBefore (.char '\x7d' :: rest) := by
  cases token with
  | numeral spelling =>
    refine clear_char.mpr ?_
    rcases spelling with ⟨negative, whole, - | fraction, - | exponent⟩ <;> rfl
  | _ => trivial

namespace Document

/-- A text says what it spells the tokens of. -/
theorem ofChars?_eq_some_iff {chars : List Char} {document : Document} :
    ofChars? chars = some document ↔ Spelled document.tokens (glyphs chars) := by
  unfold ofChars? read?
  constructor
  · intro read
    rcases Option.bind_eq_some_iff.mp read with ⟨tokens, cut, built⟩
    rw [← ofTokens?_eq_some_iff.mp built]
    exact tokens?_eq_some_iff.mp cut
  · intro spelled
    exact Option.bind_eq_some_iff.mpr
      ⟨_, tokens?_eq_some_iff.mpr spelled, ofTokens?_eq_some_iff.mpr rfl⟩

end Document
end Json
end Ventilation
