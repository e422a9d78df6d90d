import Ventilation.Config.CommandLine
import Mathlib.Data.List.TakeWhile

namespace Ventilation

/-!
# Layers of configuration

A command line that gives every key at most once is read the same whatever the
order of its flags, and whether their values are joined to them or stand alone.
The environment is asked for the other keys only, and nothing but a value found
there can go wrong.  Below come the file that the command line names, as a whole
or not at all, and the standard values.
-/

namespace Key

@[simp] theorem ofFlag?_flag (key : Key) : ofFlag? key.flag = some key := by
  cases key <;> decide

/-- The name of a flag has no equals sign, and is not empty. -/
theorem flag_plain (key : Key) : '=' ∉ key.flag.toList ∧ key.flag.toList ≠ [] := by
  cases key <;> decide

end Key

namespace Config

variable (config : Config)

theorem get_set_self (key : Key) (value : key.Value) :
    (config.set key value).get key = some value := dif_pos rfl

theorem get_set_of_ne {key other : Key} (apart : other ≠ key) (value : key.Value) :
    (config.set key value).get other = config.get other := dif_neg apart.symm

theorem get_load (contents : String → Option (List UInt8)) (key : Key) :
    (config.load contents).get key =
      ((config.get key).or (((contents config.file).bind ofBytes?).bind (·.get key))).or
        (standard.get key) := by
  rw [Option.or_assoc]
  refine congrArg (Option.or _) ?_
  change ((Option.getD _ empty).get key).or _ = _
  cases (contents config.file).bind ofBytes? with
  | none => rfl
  | some file => rfl

end Config

namespace CommandLine

/-! ## Flags with their values -/

/-- A flag with the text of its value, and whether an equals sign joins them. -/
structure Given where
  key : Key
  text : String
  joined : Bool

namespace Given

/-- The arguments that give a value. -/
def spell (given : Given) : List String :=
  if given.joined then ["--" ++ given.key.flag ++ "=" ++ given.text]
  else ["--" ++ given.key.flag, given.text]

/-- The value of a flag can be read, and does not look like a flag where it
stands alone. -/
structure Sound (given : Given) : Prop where
  reads : ∃ value, readValue given.key.kind given.text = .ok value
  plain : given.joined = false → given.text.toList.head? = some '-' → given.text = "-"

end Given

variable {given : Given}

theorem clear_of_plain {name : List Char} (plain : '=' ∉ name) :
    ∀ c ∈ name, decide (c ≠ '=') = true := by
  intro c member
  simpa using fun same : c = '=' => plain (same ▸ member)

theorem splitEquals_of_plain {name : List Char} (plain : '=' ∉ name) :
    splitEquals name = (String.ofList name, none) := by
  have whole : name.takeWhile (· ≠ '=') = name :=
    List.takeWhile_eq_self_iff.mpr (clear_of_plain plain)
  simp only [splitEquals, whole, List.drop_length]

theorem splitEquals_of_joined {name : List Char} (plain : '=' ∉ name) (value : List Char) :
    splitEquals (name ++ '=' :: value) = (String.ofList name, some (String.ofList value)) := by
  have ends : (name ++ '=' :: value).takeWhile (· ≠ '=') = name := by
    rw [List.takeWhile_append_of_pos (clear_of_plain plain)]
    simp
  simp only [splitEquals, ends, List.drop_left]

theorem of_long {text : String} {name : List Char} (same : text.toList = '-' :: '-' :: name)
    (filled : name ≠ []) :
    Argument.of text = .long (splitEquals name).1 (splitEquals name).2 := by
  rcases List.exists_cons_of_ne_nil filled with ⟨first, rest, rfl⟩
  unfold Argument.of
  rw [same]
  rfl

theorem of_flag (key : Key) : Argument.of ("--" ++ key.flag) = .long key.flag none := by
  rcases key.flag_plain with ⟨plain, filled⟩
  rw [of_long String.toList_append filled, splitEquals_of_plain plain, String.ofList_toList]

theorem of_joined (key : Key) (text : String) :
    Argument.of ("--" ++ key.flag ++ "=" ++ text) = .long key.flag (some text) := by
  rcases key.flag_plain with ⟨plain, filled⟩
  have same : ("--" ++ key.flag ++ "=" ++ text).toList =
      '-' :: '-' :: (key.flag.toList ++ '=' :: text.toList) := by
    simp [String.toList_append]
  rw [of_long same (by simp), splitEquals_of_joined plain, String.ofList_toList,
    String.ofList_toList]

theorem of_plain {text : String} (plain : text.toList.head? = some '-' → text = "-") :
    Argument.of text = .other text := by
  by_cases dash : text = "-"
  · rw [dash]
    rfl
  · unfold Argument.of
    split
    · next same => exact absurd (plain (by rw [same]; rfl)) dash
    · next same => exact absurd (plain (by rw [same]; rfl)) dash
    · next same => exact absurd (plain (by rw [same]; rfl)) dash
    · rfl

/-! ## Reading the flags -/

variable {givens : List Given} {lookup : String → Option String}

/-- Flags are settled one after another, whether or not one of them waits for its
value. -/
theorem takeAll_cons (sound : given.Sound) (config : Config) (pending : Pending)
    (rest : List String) :
    takeAll config pending (given.spell ++ rest) =
      settle config pending >>= fun config =>
        if given.joined then
          give config given.key given.text >>= fun config => takeAll config .nothing rest
        else takeAll config (.value given.key given.text) rest := by
  unfold Given.spell
  cases joined : given.joined with
  | true =>
    simp only [if_true, List.singleton_append]
    rw [takeAll, of_joined]
    simp only [take, Key.ofFlag?_flag, bind_assoc, pure_bind]
  | false =>
    simp only [Bool.false_eq_true, if_false, List.cons_append, List.nil_append]
    rw [takeAll, of_flag]
    simp only [take, Key.ofFlag?_flag, bind_assoc, pure_bind]
    refine bind_congr fun config => ?_
    rw [takeAll, of_plain (sound.plain joined)]
    rfl

theorem takeAll_spelled (sound : ∀ given ∈ givens, given.Sound) (config : Config)
    (pending : Pending) :
    takeAll config pending (givens.flatMap Given.spell) =
      settle config pending >>= fun config =>
        givens.foldlM (fun config given => give config given.key given.text) config := by
  -- A value that stands alone is settled by what comes next, so anything may be pending here.
  induction givens generalizing config pending with
  | nil => exact (bind_pure _).symm
  | cons given rest inductionHypothesis =>
    rcases List.forall_mem_cons.mp sound with ⟨here, later⟩
    rw [List.flatMap_cons, takeAll_cons here]
    refine bind_congr fun config => ?_
    rw [List.foldlM_cons]
    split
    · refine bind_congr fun config => ?_
      exact inductionHypothesis later config .nothing
    · exact inductionHypothesis later config (.value given.key given.text)

/-- The value that a command line gives to a key. -/
def lineValue (givens : List Given) (key : Key) : Option key.Value :=
  (givens.find? fun given => given.key = key).bind fun given =>
    (readValue key.kind given.text).toOption

def environ (lookup : String → Option String) (key : Key) : Option key.Value :=
  (lookup key.envName).bind fun text => (readValue key.kind text).toOption

/-- What is wrong with the value of a key in an environment. -/
def failure? (lookup : String → Option String) (key : Key) : Option UsageError :=
  (lookup key.envName).bind fun text =>
    match readValue key.kind text with
    | .ok _ => none
    | .error error => some error

theorem lineValue_of_mem (distinct : (givens.map Given.key).Nodup) (member : given ∈ givens) :
    lineValue givens given.key = (readValue given.key.kind given.text).toOption := by
  induction givens with
  | nil => cases member
  | cons first rest inductionHypothesis =>
    rcases List.nodup_cons.mp distinct with ⟨absent, later⟩
    rcases List.mem_cons.mp member with rfl | after
    · simp [lineValue]
    · have apart : first.key ≠ given.key := fun same =>
        absent (same ▸ List.mem_map_of_mem after)
      rw [← inductionHypothesis later after]
      simp [lineValue, apart]

theorem lineValue_of_not_mem {key : Key} (absent : key ∉ givens.map Given.key) :
    lineValue givens key = none := by
  have none_found : givens.find? (fun given => given.key = key) = none :=
    List.find?_eq_none.mpr fun given member => by
      simpa using fun same : given.key = key => absent (same ▸ List.mem_map_of_mem member)
  simp only [lineValue, none_found, Option.bind_none]

theorem lineValue_of_sound (distinct : (givens.map Given.key).Nodup) (sound : given.Sound)
    (member : given ∈ givens) : ∃ value, readValue given.key.kind given.text = .ok value ∧
      lineValue givens given.key = some value := by
  rcases sound.reads with ⟨value, reads⟩
  refine ⟨value, reads, ?_⟩
  rw [lineValue_of_mem distinct member, reads]
  rfl

theorem failure?_eq_some_iff {key : Key} {error : UsageError} :
    failure? lookup key = some error ↔
      ∃ text, lookup key.envName = some text ∧ readValue key.kind text = .error error := by
  unfold failure?
  rw [Option.bind_eq_some_iff]
  refine exists_congr fun text => and_congr_right fun _ => ?_
  cases readValue key.kind text with
  | ok value => simp
  | error found => simp

theorem map_readValue_of_unspoilt {key : Key} (unspoilt : failure? lookup key = none) :
    (lookup key.envName).map (readValue key.kind) = (environ lookup key).map .ok := by
  unfold failure? at unspoilt
  unfold environ
  cases found : lookup key.envName with
  | none => rfl
  | some text =>
    rw [found] at unspoilt
    cases reads : readValue key.kind text with
    | ok value => simp [reads, Except.toOption]
    | error error => simp [reads] at unspoilt

theorem give_of_reads {config : Config} {key : Key} {text : String} {value : key.Value}
    (free : config.get key = none) (reads : readValue key.kind text = .ok value) :
    give config key text = .ok (config.set key value) := by
  simp only [give, free, Option.isSome_none, Bool.false_eq_true, if_false, reads, Except.map]

/-- Flags with sound values set their keys, and no other. -/
theorem gives_all (distinct : (givens.map Given.key).Nodup)
    (sound : ∀ given ∈ givens, given.Sound) {config : Config}
    (free : ∀ given ∈ givens, config.get given.key = none) :
    givens.foldlM (fun config given => give config given.key given.text) config =
      .ok ⟨fun key => (lineValue givens key).or (config.get key)⟩ := by
  induction givens generalizing config with
  | nil => rfl
  | cons given rest inductionHypothesis =>
    rcases List.nodup_cons.mp distinct with ⟨absent, later⟩
    rcases List.forall_mem_cons.mp sound with ⟨⟨⟨value, reads⟩, -⟩, laterSound⟩
    rcases List.forall_mem_cons.mp free with ⟨here, laterFree⟩
    have stillFree : ∀ other ∈ rest, (config.set given.key value).get other.key = none := by
      intro other member
      have apart : other.key ≠ given.key := fun same =>
        absent (same ▸ List.mem_map_of_mem member)
      rw [config.get_set_of_ne apart]
      exact laterFree other member
    rw [List.foldlM_cons, give_of_reads here reads]
    refine (inductionHypothesis later laterSound stillFree).trans ?_
    refine congrArg Except.ok (congrArg Config.mk (funext fun key => ?_))
    by_cases own : key = given.key
    · subst own
      rw [lineValue_of_not_mem absent, lineValue_of_mem distinct List.mem_cons_self, reads,
        config.get_set_self]
      rfl
    · rw [config.get_set_of_ne own]
      simp [lineValue, Ne.symm own]

/-! ## Filling in from the environment -/

/-- A key is filled from the environment unless it has a value, or what is found
there cannot be read. -/
theorem fill_cases (lookup : String → Option String) (config : Config) (key : Key) :
    (∃ error, config.get key = none ∧ failure? lookup key = some error ∧
      fill lookup config key = .error error) ∨
    (((config.get key).isSome ∨ failure? lookup key = none) ∧
      ∃ next, fill lookup config key = .ok next ∧ ∀ other, next.get other =
        (config.get other).or (if other = key then environ lookup other else none)) := by
  cases given : config.get key with
  | some value =>
    refine .inr ⟨.inl rfl, config, by simp only [fill, given], fun other => ?_⟩
    by_cases own : other = key
    · subst own
      rw [given]
      rfl
    · rw [if_neg own, Option.or_none]
  | none =>
    cases found : lookup key.envName with
    | none =>
      refine .inr ⟨.inr (by simp [failure?, found]), config, by simp only [fill, given, found], ?_⟩
      intro other
      by_cases own : other = key
      · subst own
        simp [environ, found, given]
      · rw [if_neg own, Option.or_none]
    | some text =>
      have filled : fill lookup config key = (readValue key.kind text).map (config.set key) := by
        simp only [fill, given, found]
      rw [filled]
      cases reads : readValue key.kind text with
      | error error => exact .inl ⟨error, rfl, by simp [failure?, found, reads], rfl⟩
      | ok value =>
        refine .inr ⟨.inr (by simp [failure?, found, reads]), config.set key value, rfl, ?_⟩
        intro other
        by_cases own : other = key
        · subst own
          simp [config.get_set_self, given, environ, found, reads, Except.toOption]
        · rw [config.get_set_of_ne own, if_neg own, Option.or_none]

/-- The environment gives values to the keys that have none, unless it has
something for one of them that cannot be read. -/
theorem fills_all (lookup : String → Option String) (keys : List Key) (config : Config) :
    keys.foldlM (fill lookup) config =
      (keys.findSome? fun key => if (config.get key).isSome then none else failure? lookup key).elim
        (.ok ⟨fun key => (config.get key).or (if key ∈ keys then environ lookup key else none)⟩)
        .error := by
  induction keys generalizing config with
  | nil => exact congrArg (Except.ok ∘ Config.mk) (funext fun key => Option.or_none.symm)
  | cons key rest inductionHypothesis =>
    rw [List.foldlM_cons, List.findSome?_cons]
    rcases fill_cases lookup config key with
      ⟨error, free, fails, filled⟩ | ⟨quiet, next, filled, gets⟩
    · rw [filled, free, fails]
      rfl
    · have unspoilt : (if (config.get key).isSome then none else failure? lookup key) = none := by
        rcases quiet with given | unset
        · exact if_pos given
        · rw [unset, ite_self]
      have look : ∀ other,
          (if (next.get other).isSome then none else failure? lookup other) =
            if (config.get other).isSome then none else failure? lookup other := by
        intro other
        by_cases own : other = key
        · subst own
          rcases quiet with given | unset
          · rcases Option.isSome_iff_exists.mp given with ⟨value, given⟩
            rw [gets, given]
            rfl
          · rw [unset, ite_self, ite_self]
        · rw [gets, if_neg own, Option.or_none]
      have same : ∀ other,
          (next.get other).or (if other ∈ rest then environ lookup other else none) =
            (config.get other).or (if other ∈ key :: rest then environ lookup other else none) := by
        intro other
        rw [gets, Option.or_assoc]
        by_cases own : other = key
        · subst own
          by_cases again : other ∈ rest
          · simp [again, Option.or_self]
          · simp [again]
        · simp [own]
      rw [filled, unspoilt]
      refine (inductionHypothesis next).trans ?_
      rw [funext look, funext same]

/-! ## The whole -/

/-- The first value of the environment that is asked for and cannot be read. -/
def spoilt? (givens : List Given) (lookup : String → Option String) : Option UsageError :=
  Key.all.findSome? fun key => if key ∈ givens.map Given.key then none else failure? lookup key

/-- What a command line and an environment come to. -/
theorem read_spelled (distinct : (givens.map Given.key).Nodup)
    (sound : ∀ given ∈ givens, given.Sound) (lookup : String → Option String) :
    read (givens.flatMap Given.spell) lookup =
      (spoilt? givens lookup).elim
        (.ok ⟨fun key => (lineValue givens key).or (environ lookup key)⟩) .error := by
  have line : takeAll .empty .nothing (givens.flatMap Given.spell) = .ok ⟨lineValue givens⟩ := by
    rw [takeAll_spelled sound]
    refine (gives_all distinct sound fun _ _ => rfl).trans ?_
    exact congrArg (Except.ok ∘ Config.mk) (funext fun key => Option.or_none)
  have known : ∀ key, (lineValue givens key).isSome = decide (key ∈ givens.map Given.key) := by
    intro key
    by_cases member : key ∈ givens.map Given.key
    · rcases List.mem_map.mp member with ⟨given, there, rfl⟩
      rcases lineValue_of_sound distinct (sound given there) there with ⟨value, -, same⟩
      rw [same, decide_eq_true member]
      rfl
    · rw [lineValue_of_not_mem member, decide_eq_false member]
      rfl
  unfold read
  rw [line]
  refine (fills_all lookup Key.all ⟨lineValue givens⟩).trans ?_
  simp only [known, decide_eq_true_eq, Key.mem_all, if_true, spoilt?]

theorem spoilt?_of_agree {other : String → Option String}
    (agree : ∀ key ∉ givens.map Given.key, other key.envName = lookup key.envName) :
    spoilt? givens other = spoilt? givens lookup := by
  unfold spoilt?
  congr
  funext key
  by_cases member : key ∈ givens.map Given.key
  · rw [if_pos member, if_pos member]
  · rw [if_neg member, if_neg member, failure?, failure?, agree key member]

/-- Command lines with the same values for the same keys mean the same. -/
theorem lineValue_of_perm {others : List Given} (distinct : (givens.map Given.key).Nodup)
    (same : (others.map fun given => (given.key, given.text)).Perm
      (givens.map fun given => (given.key, given.text))) :
    (others.map Given.key).Perm (givens.map Given.key) ∧
      lineValue others = lineValue givens := by
  have keys : (others.map Given.key).Perm (givens.map Given.key) := by
    simpa [Function.comp_def] using same.map Prod.fst
  have distinctOthers := keys.nodup_iff.mpr distinct
  refine ⟨keys, funext fun key => ?_⟩
  by_cases member : key ∈ givens.map Given.key
  · rcases List.mem_map.mp member with ⟨given, there, rfl⟩
    have pair := same.mem_iff.mpr (List.mem_map_of_mem there)
    rcases List.mem_map.mp pair with ⟨⟨otherKey, text, joined⟩, here, equal⟩
    rcases Prod.mk.inj equal with ⟨rfl, rfl⟩
    have values := lineValue_of_mem distinctOthers here
    exact values.trans (lineValue_of_mem distinct there).symm
  · rw [lineValue_of_not_mem member, lineValue_of_not_mem (mt keys.mem_iff.mp member)]

/-- The configuration of a command line that gives every key at most once, with
values that can be read.

Neither the order of the flags nor the way in which they are joined to their
values matters, nor what the environment has for keys that have a flag.  There is
a configuration unless the environment has a value for another key that cannot
be read.  A key has the value of its flag, or else that of the environment, or
else that of the file which this line names, if it is a configuration as a whole,
or else the standard value. -/
theorem layers_of_configuration (distinct : (givens.map Given.key).Nodup)
    (sound : ∀ given ∈ givens, given.Sound) (lookup : String → Option String) :
    (∀ others : List Given, (∀ given ∈ others, given.Sound) →
      (others.map fun given => (given.key, given.text)).Perm
        (givens.map fun given => (given.key, given.text)) →
      read (others.flatMap Given.spell) lookup = read (givens.flatMap Given.spell) lookup) ∧
    (∀ other : String → Option String,
      (∀ key ∉ givens.map Given.key, other key.envName = lookup key.envName) →
      read (givens.flatMap Given.spell) other = read (givens.flatMap Given.spell) lookup) ∧
    (∀ error, read (givens.flatMap Given.spell) lookup = .error error →
      ∃ key ∉ givens.map Given.key, ∃ text, lookup key.envName = some text ∧
        readValue key.kind text = .error error) ∧
    (∀ line, read (givens.flatMap Given.spell) lookup = .ok line →
      (∀ given ∈ givens, ∃ value, readValue given.key.kind given.text = .ok value ∧
        line.get given.key = some value) ∧
      (∀ key ∉ givens.map Given.key,
        (lookup key.envName).map (readValue key.kind) = (line.get key).map .ok) ∧
      (∀ contents : String → Option (List UInt8),
        let name := (line.get .configPath).getD "server_ventilation.conf"
        let file := (contents name).bind Config.ofBytes?
        ∀ key, (line.load contents).get key =
          ((line.get key).or (file.bind (·.get key))).or (Config.standard.get key))) := by
  refine ⟨fun others soundOthers same => ?_, fun other agree => ?_, fun error fails => ?_,
    fun line succeeds => ?_⟩
  · rcases lineValue_of_perm distinct same with ⟨keys, values⟩
    rw [read_spelled distinct sound, read_spelled (keys.nodup_iff.mpr distinct) soundOthers, values]
    simp only [spoilt?, keys.mem_iff]
  · have values : ∀ key, (lineValue givens key).or (environ other key) =
        (lineValue givens key).or (environ lookup key) := by
      intro key
      by_cases member : key ∈ givens.map Given.key
      · rcases List.mem_map.mp member with ⟨given, there, rfl⟩
        rcases lineValue_of_sound distinct (sound given there) there with ⟨value, -, same⟩
        rw [same]
        rfl
      · rw [environ, environ, agree key member]
    rw [read_spelled distinct sound, read_spelled distinct sound, spoilt?_of_agree agree,
      funext values]
  · rw [read_spelled distinct sound] at fails
    cases found : spoilt? givens lookup with
    | none => rw [found] at fails; cases fails
    | some first =>
      rw [found] at fails
      obtain rfl : first = error := Except.error.inj fails
      rcases List.exists_of_findSome?_eq_some found with ⟨key, -, spoils⟩
      split at spoils
      · cases spoils
      · next absent => exact ⟨key, absent, failure?_eq_some_iff.mp spoils⟩
  · rw [read_spelled distinct sound] at succeeds
    cases found : spoilt? givens lookup with
    | some first => rw [found] at succeeds; cases succeeds
    | none =>
      rw [found] at succeeds
      rcases Except.ok.inj succeeds with rfl
      refine ⟨fun given member => ?_, fun key absent => ?_, fun contents => ?_⟩
      · rcases lineValue_of_sound distinct (sound given member) member with ⟨value, reads, same⟩
        exact ⟨value, reads, by simp [same]⟩
      · have unspoilt := List.findSome?_eq_none_iff.mp found key key.mem_all
        rw [if_neg absent] at unspoilt
        rw [map_readValue_of_unspoilt unspoilt]
        simp [lineValue_of_not_mem absent]
      · exact Config.get_load _ contents

/-- A device that stands alone and a port that is joined to its flag, with an
environment that has a seven for everything. -/
theorem layers_of_flags_and_sevens :
    ∃ line, read ["--tty", "-", "--port=8443"] (fun _ => some "7") = .ok line ∧
      line.get .tty = some "-" ∧ line.get .port = some 8443 ∧ line.get .baud = some 7 := by
  have sound : ∀ given ∈ ([⟨.tty, "-", false⟩, ⟨.port, "8443", true⟩] : List Given), given.Sound :=
    List.forall_mem_cons.mpr ⟨⟨⟨"-", rfl⟩, fun _ _ => rfl⟩,
      List.forall_mem_singleton.mpr ⟨⟨8443, rfl⟩, nofun⟩⟩
  rcases layers_of_configuration (by decide) sound fun _ => some "7" with ⟨-, -, fails, succeeds⟩
  cases result : read ["--tty", "-", "--port=8443"] fun _ => some "7" with
  | error error =>
    rcases fails error result with ⟨key, -, text, found, wrong⟩
    rcases Option.some.inj found with rfl
    cases key <;> cases wrong
  | ok line =>
    rcases succeeds line result with ⟨given, filled, -⟩
    rcases given ⟨.tty, "-", false⟩ (by simp) with ⟨device, device_reads, tty⟩
    rcases given ⟨.port, "8443", true⟩ (by simp) with ⟨number, number_reads, port⟩
    rcases Except.ok.inj device_reads with rfl
    rcases Except.ok.inj number_reads with rfl
    have baud : some (.ok 7) = (line.get .baud).map Except.ok := filled .baud (by decide)
    refine ⟨line, rfl, tty, port, ?_⟩
    rcases Option.map_eq_some_iff.mp baud.symm with ⟨speed, found, same⟩
    rw [found, Except.ok.inj same]

end CommandLine
end Ventilation
