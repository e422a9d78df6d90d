import Ventilation.Settings

namespace Ventilation

/-!
# Addresses of brokers

An address is a host and a port with a colon between them.  One scheme in front
of it says nothing, the host ends at the last colon, and the port is a number of
sixteen bits in decimal digits.  Every text that is not made in this way is
refused as it stands.
-/

namespace Text
namespace Natural

/-- Some text names a number: digits, with at most one plus sign in front. -/
inductive Names : List Char → Nat → Prop
  | bare {digits : List Char} (filled : digits ≠ []) (all : ∀ c ∈ digits, c.isDigit = true) :
      Names digits (Nat.ofDigitChars 10 digits 0)
  | plus {digits : List Char} (filled : digits ≠ []) (all : ∀ c ∈ digits, c.isDigit = true) :
      Names ('+' :: digits) (Nat.ofDigitChars 10 digits 0)

variable {text digits : List Char} {number : Nat}

/-- Digits are worth what they are worth as a decimal number. -/
theorem value_eq (digits : List Char) : value digits = Nat.ofDigitChars 10 digits 0 := by
  unfold value Nat.ofDigitChars
  simp only [digitValue, Nat.mul_comm]

theorem digits?_eq_some_iff :
    digits? text = some number ↔
      text ≠ [] ∧ (∀ c ∈ text, c.isDigit = true) ∧ number = Nat.ofDigitChars 10 text 0 := by
  rw [digits?, Option.ite_none_right_eq_some, List.all_eq_true, value_eq, Option.some.injEq,
    and_assoc, @eq_comm _ number]

/-- A number is read exactly if the text names it and it is below the bound. -/
theorem read?_eq_some_iff {bound : Nat} :
    read? bound text = some number ↔ Names text number ∧ number < bound := by
  have within : ∀ found : Option Nat,
      (found.bind fun value => if value < bound then some value else none) = some number ↔
        found = some number ∧ number < bound := by
    intro found
    cases found with
    | none => simp
    | some value =>
      rw [Option.bind_some, Option.ite_none_right_eq_some, Option.some.injEq, and_comm]
      exact and_congr_right fun same => by rw [same]
  unfold read?
  split
  · next digits =>
    rw [Option.bind_eq_bind, within, digits?_eq_some_iff]
    apply and_congr_left
    intro _
    constructor
    · rintro ⟨filled, all, rfl⟩
      exact .plus filled all
    · intro named
      cases named with
      | plus filled all => exact ⟨filled, all, rfl⟩
      | bare filled all => cases all '+' List.mem_cons_self
  · next unsigned =>
    rw [Option.bind_eq_bind, within, digits?_eq_some_iff]
    apply and_congr_left
    intro _
    constructor
    · rintro ⟨filled, all, rfl⟩
      exact .bare filled all
    · intro named
      cases named with
      | plus filled all => exact absurd rfl (unsigned _)
      | bare filled all => exact ⟨filled, all, rfl⟩

theorem Names.plain (named : Names text number) : ':' ∉ text := by
  intro colon
  cases named with
  | bare filled all => cases all ':' colon
  | plus filled all =>
    rcases List.mem_cons.mp colon with same | later
    · cases same
    · cases all ':' later

theorem names_toString (number : Nat) : Names (toString number).toList number := by
  have digits : (toString number).toList = Nat.toDigits 10 number := String.toList_ofList
  have worth := @Nat.ofDigitChars_toDigits 10 number (by decide) (Nat.le_refl 10)
  have named := @Names.bare (Nat.toDigits 10 number) (by simp) fun c among =>
    Nat.isDigit_of_mem_toDigits (by decide) (by decide) among
  rw [digits]
  rwa [worth] at named

end Natural
end Text

namespace Settings

/-! ## The scheme -/

/-- What is left of an address without its scheme: one scheme is taken away, and
only where there is one. -/
inductive Bare : List Char → List Char → Prop
  | schemed (rest : List Char) : Bare (scheme ++ rest) rest
  | plain {address : List Char} (other : ¬ scheme <+: address) : Bare address address

theorem withoutScheme_eq_iff {address rest : List Char} :
    withoutScheme address = rest ↔ Bare address rest := by
  unfold withoutScheme
  split
  · next schemed =>
    rcases List.isPrefixOf_iff_prefix.mp schemed with ⟨tail, rfl⟩
    rw [List.drop_left]
    constructor
    · rintro rfl
      exact .schemed tail
    · intro bare
      generalize whole : scheme ++ tail = address at bare
      cases bare with
      | schemed rest => exact List.append_cancel_left whole
      | plain other => exact absurd ⟨tail, whole⟩ other
  · next other =>
    rw [List.isPrefixOf_iff_prefix] at other
    constructor
    · rintro rfl
      exact .plain other
    · intro bare
      cases bare with
      | schemed rest => exact absurd (List.prefix_append scheme rest) other
      | plain => rfl

/-! ## The last colon -/

variable {text before after : List Char}

theorem splitLastColon?_eq_none_iff : splitLastColon? text = none ↔ ':' ∉ text := by
  induction text with
  | nil => exact iff_of_true rfl List.not_mem_nil
  | cons c rest inductionHypothesis =>
    rw [splitLastColon?, List.mem_cons, not_or, ← inductionHypothesis]
    cases splitLastColon? rest with
    | some found => simp
    | none => simp [eq_comm]

/-- A text is split at its last colon. -/
theorem splitLastColon?_eq_some_iff :
    splitLastColon? text = some (before, after) ↔
      text = before ++ ':' :: after ∧ ':' ∉ after := by
  constructor
  · intro found
    induction text generalizing before with
    | nil => cases found
    | cons c rest inductionHypothesis =>
      rw [splitLastColon?] at found
      split at found
      · next front back later =>
        rcases Prod.mk.inj (Option.some.inj found) with ⟨rfl, rfl⟩
        rcases inductionHypothesis later with ⟨rfl, plain⟩
        exact ⟨rfl, plain⟩
      · next last =>
        rcases Option.ite_none_right_eq_some.mp found with ⟨rfl, same⟩
        rcases Prod.mk.inj (Option.some.inj same) with ⟨rfl, rfl⟩
        exact ⟨rfl, splitLastColon?_eq_none_iff.mp last⟩
  · -- Back again the induction is on the front: the colon in it that comes first is
    -- passed over because there is a later one.
    rintro ⟨rfl, plain⟩
    induction before with
    | nil =>
      rw [List.nil_append, splitLastColon?, splitLastColon?_eq_none_iff.mpr plain]
      rfl
    | cons c rest inductionHypothesis =>
      rw [List.cons_append, splitLastColon?, inductionHypothesis]

/-! ## Host and port -/

/-- An address names a host and a port. -/
def Locates (address host : String) (port : Nat) : Prop :=
  ∃ rest number, Bare address.toList rest ∧ rest = host.toList ++ ':' :: number ∧ host ≠ "" ∧
    ':' ∉ number ∧ Text.Natural.Names number port ∧ port < 65536

/-- What an address names is found. -/
theorem brokerAddress_eq_ok_iff {address host : String} {port : Nat} :
    brokerAddress address = .ok (host, port) ↔ Locates address host port := by
  unfold brokerAddress
  dsimp only
  constructor
  · intro found
    split at found
    · next pair located =>
      rcases Except.ok.inj found with rfl
      rcases Option.bind_eq_some_iff.mp located with ⟨⟨front, number⟩, cut, inner⟩
      rcases Option.ite_none_left_eq_some.mp inner with ⟨filled, named⟩
      rcases Option.map_eq_some_iff.mp named with ⟨value, read, same⟩
      rcases Prod.mk.inj same with ⟨rfl, rfl⟩
      rcases splitLastColon?_eq_some_iff.mp cut with ⟨parts, plain⟩
      rcases Text.Natural.read?_eq_some_iff.mp read with ⟨names, fits⟩
      refine ⟨_, number, withoutScheme_eq_iff.mp parts, ?_, ?_, plain, names, fits⟩
      · rw [String.toList_ofList]
      · rwa [Ne, String.ofList_eq_empty_iff]
    · cases found
  · rintro ⟨rest, number, bare, rfl, filled, plain, names, fits⟩
    have cut := splitLastColon?_eq_some_iff.mpr ⟨withoutScheme_eq_iff.mpr bare, plain⟩
    have read := Text.Natural.read?_eq_some_iff.mpr ⟨names, fits⟩
    have named : host.toList ≠ [] := mt String.toList_eq_nil_iff.mp filled
    simp only [Option.bind_eq_bind, cut, Option.bind_some, if_neg named, read, Option.map_some,
      String.ofList_toList]

/-- The host ends at the last colon, and zeros in front of the port say nothing. -/
example : brokerAddress "h::+0080" = .ok ("h:", 80) := rfl

/-- There is one reason to refuse an address, and it tells the address as it stands. -/
theorem eq_invalidBroker_of_refused {address : String} {error : SettingsError}
    (refused : brokerAddress address = .error error) : error = .invalidBroker address := by
  unfold brokerAddress at refused
  dsimp only at refused
  split at refused
  · cases refused
  · exact (Except.error.inj refused).symm

theorem brokerAddress_eq_error_iff {address : String} {error : SettingsError} :
    brokerAddress address = .error error ↔
      error = .invalidBroker address ∧ ∀ host port, ¬ Locates address host port := by
  constructor
  · intro refused
    refine ⟨eq_invalidBroker_of_refused refused, fun host port located => ?_⟩
    cases refused.symm.trans (brokerAddress_eq_ok_iff.mpr located)
  · rintro ⟨rfl, nowhere⟩
    cases result : brokerAddress address with
    | ok pair => exact absurd (brokerAddress_eq_ok_iff.mp result) (nowhere pair.1 pair.2)
    | error error => rw [eq_invalidBroker_of_refused result]

/-- Whatever the host is, it is found with its port behind one scheme. -/
theorem locates_schemed {host : String} {port : Nat} (filled : host ≠ "") (fits : port < 65536) :
    Locates ("tcp://" ++ host ++ ":" ++ toString port) host port := by
  have named := Text.Natural.names_toString port
  refine ⟨host.toList ++ ':' :: (toString port).toList, _, ?_, rfl, filled, named.plain, named,
    fits⟩
  have whole : ("tcp://" ++ host ++ ":" ++ toString port).toList =
      scheme ++ (host.toList ++ ':' :: (toString port).toList) := by
    simp [scheme]
  rw [whole]
  exact .schemed _

/-- Addresses are read by their grammar.  A host and a port are found exactly where
the address names them, and every other text is refused as it stands.  So a host
that is not empty comes back with its port, whatever colons and schemes it has of
its own. -/
theorem addresses_are_read_by_grammar :
    (∀ address host port, brokerAddress address = .ok (host, port) ↔ Locates address host port) ∧
    (∀ address error, brokerAddress address = .error error ↔
      error = .invalidBroker address ∧ ∀ host port, ¬ Locates address host port) ∧
    ∀ (host : String) (port : Nat), host ≠ "" → port < 65536 →
      brokerAddress ("tcp://" ++ host ++ ":" ++ toString port) = .ok (host, port) := by
  refine ⟨fun _ _ _ => brokerAddress_eq_ok_iff, fun _ _ => brokerAddress_eq_error_iff, ?_⟩
  intro host port filled fits
  exact brokerAddress_eq_ok_iff.mpr (locates_schemed filled fits)

/-- A host with a scheme and colons of its own comes back with the last port. -/
theorem addresses_are_read_by_grammar_behind_one_scheme :
    "tcp://[::1]" ≠ "" ∧ 65535 < 65536 ∧
      brokerAddress "tcp://tcp://[::1]:65535" = .ok ("tcp://[::1]", 65535) := by
  have filled : "tcp://[::1]" ≠ "" := by decide
  exact ⟨filled, by decide, addresses_are_read_by_grammar.2.2 "tcp://[::1]" 65535 filled (by decide)⟩

end Settings
end Ventilation
