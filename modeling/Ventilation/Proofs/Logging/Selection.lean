import Ventilation.Logging.Directory
import Ventilation.Proofs.Text.Ends

namespace Ventilation

/-!
# Lists of debug flags

A list of flags is read segment by segment.  Blank segments are passed over, and
the word of any other is its text in upper case, without the white space around
it.  The first word that names no flag spoils the whole list, and it is the word
that the refusal tells.

So two lists with a comma between them are read one after the other, and it does
not matter how loosely a list is written.  Upper case is that of Unicode: the case
of letters outside ASCII can matter, since it may turn one letter into several.
-/

namespace Text

/-! ## Upper case -/

variable {text : List Char}

/-- A character keeps its code in the upper case of ASCII, or it is a small letter. -/
theorem toUpper_cases (c : Char) :
    c.toUpper = c ∨ (97 ≤ c.toNat ∧ c.toNat ≤ 122) ∧ c.toUpper.toNat + 32 = c.toNat := by
  have small : 'a'.val ≤ c.val ∧ c.val ≤ 'z'.val ↔ 97 ≤ c.toNat ∧ c.toNat ≤ 122 := by
    rw [UInt32.le_iff_toNat_le, UInt32.le_iff_toNat_le]
    rfl
  unfold Char.toUpper
  split
  · next inside =>
    right
    refine ⟨small.mp inside, ?_⟩
    rcases small.mp inside with ⟨low, high⟩
    change (c.val + ('A'.val - 'a'.val)).toNat + 32 = c.val.toNat
    change 97 ≤ c.val.toNat at low
    rw [UInt32.toNat_add]
    have shift : ('A'.val - 'a'.val).toNat = 2 ^ 32 - 32 := rfl
    have bound := c.val.toNat_lt
    omega
  · exact .inl rfl

theorem toUpper_toUpper (c : Char) : c.toUpper.toUpper = c.toUpper := by
  rcases toUpper_cases c with same | ⟨small, code⟩
  · rw [same, same]
  · rcases toUpper_cases c.toUpper with same | ⟨again, -⟩
    · exact same
    · omega

/-- Neither a small letter nor its capital is white space. -/
theorem isBlank_toUpper (c : Char) : isBlank c.toUpper = isBlank c := by
  rcases toUpper_cases c with same | ⟨small, code⟩
  · rw [same]
  · have clear : ∀ d : Char, 65 ≤ d.toNat → d.toNat ≤ 122 → isBlank d = false := by
      intro d low high
      simp only [isBlank, Bool.or_eq_false_iff, Bool.and_eq_false_iff, decide_eq_false_iff_not]
      omega
    rw [clear c (by omega) (by omega), clear c.toUpper (by omega) (by omega)]

theorem toUpper_eq_comma_iff {c : Char} : c.toUpper = ',' ↔ c = ',' := by
  rcases toUpper_cases c with same | ⟨small, code⟩
  · rw [same]
  · have comma : ','.toNat = 44 := rfl
    constructor
    · intro same
      rw [same] at code
      omega
    · rintro rfl
      omega

theorem upper_toUpper (c : Char) : upper c.toUpper = upper c := by
  rcases toUpper_cases c with same | ⟨small, code⟩
  · rw [same]
  · unfold upper
    rw [if_pos (by omega), if_pos (by omega), toUpper_toUpper]

theorem toUpper_map (text : List Char) : toUpper (text.map Char.toUpper) = toUpper text := by
  unfold toUpper
  rw [List.flatMap_map]
  simp only [upper_toUpper]

theorem trim_map (text : List Char) :
    trim (text.map Char.toUpper) = (trim text).map Char.toUpper := by
  have same : isBlank ∘ Char.toUpper = isBlank := funext isBlank_toUpper
  simp only [trim, ← List.map_reverse, List.dropWhile_map, same]

theorem upper_ne_nil (c : Char) : upper c ≠ [] := by
  unfold upper
  split
  · exact List.cons_ne_nil _ _
  · unfold upperBeyond
    dsimp only
    split
    · next codes found =>
      have listed : ∀ entry ∈ upperSequences, entry.2 ≠ [] := by decide
      rw [Ne, List.map_eq_nil_iff]
      exact listed _ (List.mem_of_find?_eq_some found)
    · split
      · exact List.cons_ne_nil _ _
      · exact List.cons_ne_nil _ _

theorem toUpper_eq_nil_iff : toUpper text = [] ↔ text = [] := by
  unfold toUpper
  rw [List.flatMap_eq_nil_iff]
  constructor
  · intro nothing
    refine List.eq_nil_iff_forall_not_mem.mpr fun c among => ?_
    exact upper_ne_nil c (nothing c among)
  · rintro rfl c among
    cases among

end Text

namespace Logging

/-! ## Segments -/

variable {text : List Char} {parts others : List (List Char)}

/-- Some text is made of segments, with a comma between each two of them. -/
structure Divides (text : List Char) (parts : List (List Char)) : Prop where
  filled : parts ≠ []
  plain : ∀ part ∈ parts, ',' ∉ part
  joined : [','].intercalate parts = text

theorem segments_eq_splitOn (text : List Char) : segments text = text.splitOn ',' := by
  induction text with
  | nil => rfl
  | cons c rest inductionHypothesis =>
    rcases List.exists_cons_of_ne_nil (List.splitOn_ne_nil ',' rest) with ⟨segment, later, cut⟩
    rw [segments, inductionHypothesis, List.splitOn_cons_eq_if_modifyHead, cut]
    simp only [beq_iff_eq, List.modifyHead_cons]

theorem segments_append (first second : List Char) :
    segments (first ++ ',' :: second) = segments first ++ segments second := by
  simp only [segments_eq_splitOn, List.splitOn_append_cons_self]

theorem not_mem_segments {segment : List Char} (among : segment ∈ segments text) :
    ',' ∉ segment := by
  induction text generalizing segment with
  | nil =>
    rw [List.mem_singleton.mp among]
    exact List.not_mem_nil
  | cons c rest inductionHypothesis =>
    rw [segments] at among
    split at among
    · rcases List.mem_cons.mp among with rfl | later
      · exact List.not_mem_nil
      · exact inductionHypothesis later
    · next other =>
      split at among
      · rw [List.mem_singleton.mp among, List.mem_singleton]
        exact Ne.symm other
      · next first later cut =>
        rw [cut] at inductionHypothesis
        rcases List.mem_cons.mp among with rfl | further
        · rw [List.mem_cons, not_or]
          exact ⟨Ne.symm other, inductionHypothesis List.mem_cons_self⟩
        · exact inductionHypothesis (List.mem_cons_of_mem _ further)

/-- There is one way to divide some text into segments. -/
theorem segments_eq_iff : segments text = parts ↔ Divides text parts := by
  constructor
  · rintro rfl
    refine ⟨?_, fun part => not_mem_segments, ?_⟩
    · rw [segments_eq_splitOn]
      exact List.splitOn_ne_nil _ _
    · rw [segments_eq_splitOn, List.intercalate_splitOn]
  · rintro ⟨filled, plain, rfl⟩
    rw [segments_eq_splitOn, List.splitOn_intercalate _ plain filled]

/-! ## What a segment spells -/

variable {segment other word front back : List Char} {flag : Flag}

/-- The word of a segment: its text in upper case, without white space around it. -/
def Spells (segment word : List Char) : Prop :=
  ∃ bare, Text.Trimmed segment bare ∧ Text.toUpper bare = word

/-- A segment is blank, or its word is the name of a flag. -/
def Known (segment : List Char) : Prop :=
  (∀ c ∈ segment, Text.isBlank c = true) ∨ ∃ flag : Flag, Spells segment flag.name.toList

theorem normal_eq_iff : normal segment = word ↔ Spells segment word := by
  unfold normal Spells
  simp only [← Text.trim_eq_iff, exists_eq_left']

theorem normal_eq_nil_iff : normal segment = [] ↔ ∀ c ∈ segment, Text.isBlank c = true := by
  rw [normal, Text.toUpper_eq_nil_iff, Text.trim_eq_nil_iff]

theorem Flag.ofName?_eq_some_iff : Flag.ofName? word = some flag ↔ word = flag.name.toList := by
  unfold Flag.ofName?
  constructor
  · intro found
    have same := List.find?_some found
    exact (of_decide_eq_true same).symm
  · rintro rfl
    cases flag <;> decide

theorem segmentTargets_blank (blank : ∀ c ∈ segment, Text.isBlank c = true) :
    segmentTargets segment = .ok [] := by
  rw [segmentTargets, if_pos (normal_eq_nil_iff.mpr blank)]

theorem segmentTargets_flag (spelled : Spells segment flag.name.toList) :
    segmentTargets segment = .ok flag.targets := by
  have filled : flag.name.toList ≠ [] := by cases flag <;> decide
  rw [segmentTargets, normal_eq_iff.mpr spelled, if_neg filled, Flag.ofName?_eq_some_iff.mpr rfl]

theorem segmentTargets_unknown (unknown : ¬ Known segment) (spelled : Spells segment word) :
    segmentTargets segment = .error (.unknown (String.ofList word)) := by
  have filled : normal segment ≠ [] := by
    intro nothing
    exact unknown (.inl (normal_eq_nil_iff.mp nothing))
  have nameless : Flag.ofName? word = none := by
    refine Option.eq_none_iff_forall_ne_some.mpr fun flag found => ?_
    exact unknown (.inr ⟨flag, Flag.ofName?_eq_some_iff.mp found ▸ spelled⟩)
  rw [segmentTargets, if_neg filled, normal_eq_iff.mpr spelled, nameless]

/-! ## What segments select -/

variable {chosen : List Flag} {found : List String}

/-- Segments name some flags, in order, and are blank besides. -/
inductive Selects : List (List Char) → List Flag → Prop
  | nil : Selects [] []
  | blank {segment : List Char} {parts : List (List Char)} {chosen : List Flag}
      (blank : ∀ c ∈ segment, Text.isBlank c = true) (later : Selects parts chosen) :
      Selects (segment :: parts) chosen
  | flag {segment : List Char} {flag : Flag} {parts : List (List Char)} {chosen : List Flag}
      (spelled : Spells segment flag.name.toList) (later : Selects parts chosen) :
      Selects (segment :: parts) (flag :: chosen)

/-- Segments are spoilt by the word of the first one that is not known. -/
def SpoiltBy (parts : List (List Char)) (word : List Char) : Prop :=
  ∃ before segment after, parts = before ++ segment :: after ∧
    (∀ earlier ∈ before, Known earlier) ∧ ¬ Known segment ∧ Spells segment word

theorem Known.selects (known : Known segment) (later : Selects parts chosen) :
    ∃ more, Selects (segment :: parts) more := by
  rcases known with blank | ⟨flag, spelled⟩
  · exact ⟨chosen, .blank blank later⟩
  · exact ⟨flag :: chosen, .flag spelled later⟩

theorem exists_selects (known : ∀ part ∈ parts, Known part) : ∃ chosen, Selects parts chosen := by
  induction parts with
  | nil => exact ⟨[], .nil⟩
  | cons segment rest inductionHypothesis =>
    rcases List.forall_mem_cons.mp known with ⟨own, later⟩
    rcases inductionHypothesis later with ⟨chosen, selects⟩
    exact own.selects selects

theorem known_or_spoilt (parts : List (List Char)) :
    (∀ part ∈ parts, Known part) ∨ ∃ word, SpoiltBy parts word := by
  induction parts with
  | nil => exact .inl (List.forall_mem_nil _)
  | cons segment rest inductionHypothesis =>
    by_cases own : Known segment
    · rcases inductionHypothesis with known | ⟨word, before, first, after, rfl, known, unknown,
        spelled⟩
      · exact .inl (List.forall_mem_cons.mpr ⟨own, known⟩)
      · exact .inr ⟨word, segment :: before, first, after, rfl,
          List.forall_mem_cons.mpr ⟨own, known⟩, unknown, spelled⟩
    · exact .inr ⟨normal segment, [], segment, rest, rfl, List.forall_mem_nil _, own,
        normal_eq_iff.mp rfl⟩

theorem targetsOf_append (first second : List (List Char)) :
    targetsOf (first ++ second) = do
      let found ← targetsOf first
      let later ← targetsOf second
      return found ++ later := by
  induction first with
  | nil =>
    rw [List.nil_append]
    cases targetsOf second <;> rfl
  | cons segment rest inductionHypothesis =>
    simp only [List.cons_append, targetsOf, inductionHypothesis, bind_assoc, pure_bind,
      List.append_assoc]

theorem Selects.targetsOf_eq (selects : Selects parts chosen) :
    targetsOf parts = .ok (chosen.flatMap Flag.targets) := by
  induction selects with
  | nil => rfl
  | blank blank later inductionHypothesis =>
    rw [targetsOf, segmentTargets_blank blank, inductionHypothesis]
    rfl
  | flag spelled later inductionHypothesis =>
    rw [targetsOf, segmentTargets_flag spelled, inductionHypothesis]
    rfl

theorem SpoiltBy.targetsOf_eq (spoilt : SpoiltBy parts word) :
    targetsOf parts = .error (.unknown (String.ofList word)) := by
  rcases spoilt with ⟨before, segment, after, rfl, known, unknown, spelled⟩
  rcases exists_selects known with ⟨chosen, selects⟩
  rw [targetsOf_append, selects.targetsOf_eq, targetsOf, segmentTargets_unknown unknown spelled]
  rfl

theorem targetsOf_eq_ok_iff :
    targetsOf parts = .ok found ↔
      ∃ chosen, Selects parts chosen ∧ found = chosen.flatMap Flag.targets := by
  constructor
  · intro result
    rcases known_or_spoilt parts with known | ⟨word, spoilt⟩
    · rcases exists_selects known with ⟨chosen, selects⟩
      exact ⟨chosen, selects, Except.ok.inj (result.symm.trans selects.targetsOf_eq)⟩
    · cases result.symm.trans spoilt.targetsOf_eq
  · rintro ⟨chosen, selects, rfl⟩
    exact selects.targetsOf_eq

/-- Letters outside ASCII can spell a flag. -/
example : targets "ſerıal" = .ok ["lib_vent::actuator"] := by decide

theorem targetsOf_eq_error_iff {error : FlagError} :
    targetsOf parts = .error error ↔
      ∃ word, SpoiltBy parts word ∧ error = .unknown (String.ofList word) := by
  constructor
  · intro result
    rcases known_or_spoilt parts with known | ⟨word, spoilt⟩
    · rcases exists_selects known with ⟨chosen, selects⟩
      cases result.symm.trans selects.targetsOf_eq
    · exact ⟨word, spoilt, Except.error.inj (result.symm.trans spoilt.targetsOf_eq)⟩
  · rintro ⟨word, spoilt, rfl⟩
    exact spoilt.targetsOf_eq

/-! ## Lists that are written loosely -/

/-- The same segments written in another way: blank ones are put between them,
white space is put around them, and the case of letters in ASCII changes. -/
inductive Retouched : List (List Char) → List (List Char) → Prop
  | nil : Retouched [] []
  | blank {segment : List Char} {parts others : List (List Char)}
      (blank : ∀ c ∈ segment, Text.isBlank c = true) (later : Retouched parts others) :
      Retouched parts (segment :: others)
  | segment {segment other front back : List Char} {parts others : List (List Char)}
      (alike : segment.map Char.toUpper = other.map Char.toUpper)
      (before : ∀ c ∈ front, Text.isBlank c = true) (after : ∀ c ∈ back, Text.isBlank c = true)
      (later : Retouched parts others) :
      Retouched (segment :: parts) ((front ++ other ++ back) :: others)

theorem normal_map (segment : List Char) : normal (segment.map Char.toUpper) = normal segment := by
  rw [normal, normal, Text.trim_map, Text.toUpper_map]

theorem normal_retouched (alike : segment.map Char.toUpper = other.map Char.toUpper)
    (before : ∀ c ∈ front, Text.isBlank c = true) (after : ∀ c ∈ back, Text.isBlank c = true) :
    normal (front ++ other ++ back) = normal segment :=
  calc normal (front ++ other ++ back)
    _ = normal other := by rw [normal, Text.trim_around before after, normal]
    _ = normal (other.map Char.toUpper) := (normal_map other).symm
    _ = normal segment := by rw [← alike, normal_map]

theorem Retouched.targetsOf_eq (retouched : Retouched parts others) :
    targetsOf others = targetsOf parts := by
  induction retouched with
  | nil => rfl
  | @blank segment parts others blank later inductionHypothesis =>
    rw [targetsOf, segmentTargets_blank blank, inductionHypothesis]
    cases targetsOf parts <;> rfl
  | segment alike before after later inductionHypothesis =>
    simp only [targetsOf, segmentTargets, normal_retouched alike before after, inductionHypothesis]

theorem comma_not_mem_of_blank (blank : ∀ c ∈ segment, Text.isBlank c = true) : ',' ∉ segment := by
  intro comma
  cases blank ',' comma

theorem comma_not_mem_of_alike (alike : segment.map Char.toUpper = other.map Char.toUpper)
    (plain : ',' ∉ segment) : ',' ∉ other := by
  intro comma
  have capital : Char.toUpper ',' ∈ segment.map Char.toUpper :=
    alike ▸ List.mem_map_of_mem comma
  rcases List.mem_map.mp capital with ⟨c, among, same⟩
  exact plain (Text.toUpper_eq_comma_iff.mp same ▸ among)

theorem Retouched.plain (retouched : Retouched parts others)
    (plain : ∀ part ∈ parts, ',' ∉ part) : ∀ part ∈ others, ',' ∉ part := by
  induction retouched with
  | nil => exact plain
  | blank blank later inductionHypothesis =>
    exact List.forall_mem_cons.mpr ⟨comma_not_mem_of_blank blank, inductionHypothesis plain⟩
  | segment alike before after later inductionHypothesis =>
    rcases List.forall_mem_cons.mp plain with ⟨own, rest⟩
    refine List.forall_mem_cons.mpr ⟨?_, inductionHypothesis rest⟩
    simp only [List.mem_append, not_or]
    exact ⟨⟨comma_not_mem_of_blank before, comma_not_mem_of_alike alike own⟩,
      comma_not_mem_of_blank after⟩

/-- Segments that are retouched are the segments of the text that is made of them. -/
theorem Divides.retouched (divides : Divides text parts) (retouched : Retouched parts others) :
    Divides ([','].intercalate others) others := by
  refine ⟨?_, retouched.plain divides.plain, rfl⟩
  cases retouched with
  | nil => exact divides.filled
  | blank => exact List.cons_ne_nil _ _
  | segment => exact List.cons_ne_nil _ _

/-! ## Lists of flags -/

theorem targets_eq {flags : String} (divides : Divides flags.toList parts) :
    targets flags = targetsOf parts := by
  rw [targets, segments_eq_iff.mpr divides]

theorem targets_append (first second : String) :
    targets (first ++ "," ++ second) = do
      let found ← targets first
      let later ← targets second
      return found ++ later := by
  have whole : (first ++ "," ++ second).toList = first.toList ++ ',' :: second.toList := by
    simp
  rw [targets, whole, segments_append, targetsOf_append, targets, targets]

/-- Lists of flags compose.  Two lists with a comma between them give the targets of
both, one after the other, or else the first error there is.  Neither blank segments
nor white space around segments nor the case of letters in ASCII change what a list
gives.  A list gives the targets of its flags, in order, unless the word of some
segment names no flag.  Then the first such word is all it gives, and no log file is
begun. -/
theorem lists_of_flags_compose :
    (∀ first second : String, targets (first ++ "," ++ second) =
      match targets first, targets second with
      | .ok found, .ok later => .ok (found ++ later)
      | .error error, _ => .error error
      | .ok _, .error error => .error error) ∧
    (∀ (flags : String) (parts others : List (List Char)), Divides flags.toList parts →
      Retouched parts others → targets (String.ofList ([','].intercalate others)) = targets flags) ∧
    (∀ (flags : String) (found : List String), targets flags = .ok found ↔
      ∃ parts chosen, Divides flags.toList parts ∧ Selects parts chosen ∧
        found = chosen.flatMap Flag.targets) ∧
    (∀ (flags : String) (error : FlagError), targets flags = .error error ↔
      ∃ parts word, Divides flags.toList parts ∧ SpoiltBy parts word ∧
        error = .unknown (String.ofList word)) ∧
    ∀ (flags : String) (parts : List (List Char)) (word : List Char) (entries : List Entry),
      Divides flags.toList parts → SpoiltBy parts word → setUp entries (some flags) =
        ⟨cleanUp entries, false, some ("unknown debug flag '" ++ String.ofList word ++ "'")⟩ := by
  refine ⟨?_, ?_, ?_, ?_, ?_⟩
  · intro first second
    rw [targets_append]
    cases targets first with
    | error error => rfl
    | ok found => cases targets second <;> rfl
  · intro flags parts others divides retouched
    have again : Divides (String.ofList ([','].intercalate others)).toList others := by
      rw [String.toList_ofList]
      exact divides.retouched retouched
    rw [targets_eq again, targets_eq divides, retouched.targetsOf_eq]
  · intro flags found
    rw [targets, targetsOf_eq_ok_iff]
    simp only [← segments_eq_iff, exists_and_left, exists_eq_left']
  · intro flags error
    rw [targets, targetsOf_eq_error_iff]
    simp only [← segments_eq_iff, exists_and_left, exists_eq_left']
  · intro flags parts word entries divides spoilt
    have failed : targets flags = .error (.unknown (String.ofList word)) := by
      rw [targets_eq divides, spoilt.targetsOf_eq]
    rw [setUp, Option.map_some, Option.getD_some, failed]
    rfl

/-- A list that is written loosely gives the error of the same list in short, and its
word is the one in upper case, which is longer than the segment here. -/
theorem lists_of_flags_compose_when_written_loosely :
    Divides "Web,buß".toList ["Web".toList, "buß".toList] ∧
    Retouched ["Web".toList, "buß".toList] ["\twEB".toList, [' '], "BUß\u00a0".toList] ∧
    targets "\twEB, ,BUß\u00a0" = targets "Web,buß" ∧
    SpoiltBy ["Web".toList, "buß".toList] "BUSS".toList ∧
    setUp [⟨"a.log", 1, false⟩] (some "Web,buß") =
      ⟨cleanUp [⟨"a.log", 1, false⟩], false, some "unknown debug flag 'BUSS'"⟩ := by
  have divides : Divides "Web,buß".toList ["Web".toList, "buß".toList] :=
    ⟨by decide, by decide, by decide⟩
  have last : Retouched ["buß".toList] ["BUß\u00a0".toList] :=
    @Retouched.segment _ "BUß".toList [] ['\u00a0'] _ _ (by decide) (List.forall_mem_nil _)
      (List.forall_mem_singleton.mpr rfl) .nil
  have retouched : Retouched ["Web".toList, "buß".toList]
      ["\twEB".toList, [' '], "BUß\u00a0".toList] :=
    @Retouched.segment _ "wEB".toList ['\t'] [] _ _ (by decide)
      (List.forall_mem_singleton.mpr rfl) (List.forall_mem_nil _)
      (.blank (List.forall_mem_singleton.mpr rfl) last)
  have spoilt : SpoiltBy ["Web".toList, "buß".toList] "BUSS".toList := by
    refine ⟨["Web".toList], "buß".toList, [], rfl, ?_, ?_, normal_eq_iff.mp (by decide)⟩
    · intro earlier among
      rw [List.mem_singleton.mp among]
      exact .inr ⟨.web, normal_eq_iff.mp (by decide)⟩
    · rintro (blank | ⟨flag, spelled⟩)
      · cases blank 'b' (by decide)
      · have same := normal_eq_iff.mpr spelled
        revert same
        cases flag <;> decide
  rcases lists_of_flags_compose with ⟨-, loosely, -, -, refused⟩
  exact ⟨divides, retouched, loosely _ _ _ divides retouched, spoilt, refused _ _ _ _ divides spoilt⟩

end Logging
end Ventilation
