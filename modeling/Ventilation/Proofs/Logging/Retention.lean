import Ventilation.Logging.Directory
import Mathlib.Data.List.Nodup
import Mathlib.Data.List.TakeWhile

namespace Ventilation
namespace Logging

/-!
# Which log files are kept

Entries are told apart by the times at which they were modified.  Cleaning up
passes over one entry that is named like a log file, the newest of all that are.
That entry is a log file or a directory, and in the second case no log file is
left.  Nothing else but log files is ever removed.
-/

/-! ## Names -/

theorem extension?_append {found : List Char} (plain : '.' ∉ found) (stem : List Char) :
    extension? (stem ++ '.' :: found) =
      if stem = [] ∨ stem ++ '.' :: found = ['.', '.'] then none else some found := by
  have clear : ∀ c ∈ found.reverse, decide (c ≠ '.') = true := by
    intro c among
    simpa using fun same : c = '.' => plain (same ▸ List.mem_reverse.mp among)
  have turned : (stem ++ '.' :: found).reverse = found.reverse ++ '.' :: stem.reverse := by simp
  have tail : (found.reverse ++ '.' :: stem.reverse).takeWhile (· ≠ '.') = found.reverse := by
    rw [List.takeWhile_append_of_pos clear]
    simp
  unfold extension?
  simp only [turned, tail, List.drop_left, List.reverse_reverse]
  cases back : stem.reverse with
  | nil =>
    rw [List.reverse_eq_nil_iff.mp back]
    rfl
  | cons c rest =>
    have some : stem ≠ [] := by
      rintro rfl
      cases back
    simp [some]

theorem extension?_eq_none {name : List Char} (plain : '.' ∉ name) : extension? name = none := by
  have whole : name.reverse.takeWhile (· ≠ '.') = name.reverse := by
    apply List.takeWhile_eq_self_iff.mpr
    intro c among
    simpa using fun same : c = '.' => plain (same ▸ List.mem_reverse.mp among)
  simp only [extension?, whole, List.drop_length]

/-- An extension is what follows the last dot, if something comes before that dot. -/
theorem extension?_eq_some_iff {name found : List Char} :
    extension? name = some found ↔
      ∃ stem, stem ≠ [] ∧ name = stem ++ '.' :: found ∧ '.' ∉ found ∧ name ≠ ['.', '.'] := by
  constructor
  · intro extended
    by_cases dotted : '.' ∈ name
    · rcases List.eq_append_cons_of_mem (List.mem_reverse.mpr dotted) with
        ⟨back, front, turned, plain⟩
      have same : name = front.reverse ++ '.' :: back.reverse := by
        rw [← List.reverse_inj, turned]
        simp
      have clear : '.' ∉ back.reverse := mt List.mem_reverse.mp plain
      rw [same, extension?_append clear, Option.ite_none_left_eq_some, not_or, ← same] at extended
      rcases extended with ⟨⟨filled, other⟩, found⟩
      rcases Option.some.inj found with rfl
      exact ⟨front.reverse, filled, same, clear, other⟩
    · rw [extension?_eq_none dotted] at extended
      cases extended
  · rintro ⟨stem, filled, rfl, plain, other⟩
    rw [extension?_append plain, if_neg (not_or.mpr ⟨filled, other⟩)]

/-- An entry bears the name of a log file: something stands before the extension. -/
def Entry.NamedLog (entry : Entry) : Prop :=
  ∃ stem : String, stem ≠ "" ∧ entry.name = stem ++ ".log"

/-- A log file is an entry with such a name that is no directory. -/
structure Entry.LogFile (entry : Entry) : Prop where
  named : entry.NamedLog
  file : entry.isDirectory = false

theorem isLog_iff {entry : Entry} : entry.isLog = true ↔ entry.NamedLog := by
  have dot : ".log".toList = '.' :: "log".toList := rfl
  rw [Entry.isLog, decide_eq_true_iff, extension?_eq_some_iff]
  constructor
  · rintro ⟨stem, filled, same, -, -⟩
    refine ⟨String.ofList stem, mt String.ofList_eq_empty_iff.mp filled, ?_⟩
    rw [← String.toList_inj, same]
    simp
  · rintro ⟨stem, filled, same⟩
    rw [same, String.toList_append, dot]
    refine ⟨stem.toList, mt String.toList_eq_nil_iff.mp filled, rfl, by decide, ?_⟩
    intro short
    simpa using congrArg List.length short

theorem logFile_iff {entry : Entry} :
    (entry.isLog && !entry.isDirectory) = true ↔ entry.LogFile := by
  rw [Bool.and_eq_true, isLog_iff, Bool.not_eq_true']
  constructor
  · rintro ⟨named, file⟩
    exact ⟨named, file⟩
  · rintro ⟨named, file⟩
    exact ⟨named, file⟩

/-! ## Times -/

variable {entries : List Entry} {entry : Entry}

theorem newestFirst_perm (entries : List Entry) : (newestFirst entries).Perm entries :=
  List.mergeSort_perm ..

/-- Every entry is newer than those after it, if their times are different. -/
theorem newestFirst_pairwise (distinct : (entries.map Entry.modified).Nodup) :
    (newestFirst entries).Pairwise fun first second => second.modified < first.modified := by
  have ordered : (newestFirst entries).Pairwise fun first second =>
      decide (second.modified ≤ first.modified) = true := by
    apply List.pairwise_mergeSort
    · intro first second third older oldest
      simp only [decide_eq_true_eq] at older oldest ⊢
      exact Nat.le_trans oldest older
    · intro first second
      simpa using Nat.le_total second.modified first.modified
  have apart : (newestFirst entries).Pairwise fun first second =>
      first.modified ≠ second.modified :=
    List.pairwise_map.mp ((newestFirst_perm entries).map Entry.modified |>.nodup_iff.mpr distinct)
  refine (ordered.and apart).imp ?_
  rintro first second ⟨older, different⟩
  exact Nat.lt_of_le_of_ne (of_decide_eq_true older) (Ne.symm different)

/-- All but the newest entry are those that something else is newer than. -/
theorem mem_drop_newestFirst (distinct : (entries.map Entry.modified).Nodup) :
    entry ∈ (newestFirst entries).drop 1 ↔
      entry ∈ entries ∧ ∃ newer ∈ entries, entry.modified < newer.modified := by
  have ordered := newestFirst_pairwise distinct
  simp only [← (newestFirst_perm entries).mem_iff]
  generalize newestFirst entries = sorted at ordered ⊢
  cases sorted with
  | nil => simp
  | cons newest rest =>
    rcases List.pairwise_cons.mp ordered with ⟨first, -⟩
    rw [List.drop_one, List.tail_cons]
    constructor
    · intro among
      exact ⟨List.mem_cons_of_mem _ among, newest, List.mem_cons_self, first entry among⟩
    · rintro ⟨among, newer, listed, later⟩
      rcases List.mem_cons.mp among with rfl | further
      · rcases List.mem_cons.mp listed with rfl | after
        · exact absurd later (Nat.lt_irrefl _)
        · exact absurd later (Nat.lt_asymm (first newer after))
      · exact further

theorem exists_newest (distinct : (entries.map Entry.modified).Nodup) (filled : entries ≠ []) :
    ∃ newest ∈ entries, ∀ other ∈ entries, other.modified ≤ newest.modified := by
  have ordered := newestFirst_pairwise distinct
  have perm := newestFirst_perm entries
  simp only [← perm.mem_iff]
  cases sorted : newestFirst entries with
  | nil =>
    rw [sorted] at perm
    exact absurd perm.nil_eq.symm filled
  | cons newest rest =>
    rw [sorted] at ordered
    refine ⟨newest, List.mem_cons_self, List.forall_mem_cons.mpr ⟨Nat.le_refl _, ?_⟩⟩
    intro other among
    exact Nat.le_of_lt ((List.pairwise_cons.mp ordered).1 other among)

/-! ## What is removed -/

theorem mem_outdated (distinct : (entries.map Entry.modified).Nodup) :
    entry ∈ outdated entries ↔ entry ∈ entries ∧ entry.LogFile ∧
      ∃ newer ∈ entries, newer.NamedLog ∧ entry.modified < newer.modified := by
  have among : ((entries.filter Entry.isLog).map Entry.modified).Nodup :=
    distinct.sublist (List.filter_sublist.map _)
  simp only [outdated, List.mem_filter, mem_drop_newestFirst among, isLog_iff, Bool.not_eq_true']
  constructor
  · rintro ⟨⟨⟨listed, named⟩, newer, ⟨there, alike⟩, later⟩, file⟩
    exact ⟨listed, ⟨named, file⟩, newer, there, alike, later⟩
  · rintro ⟨listed, ⟨named, file⟩, newer, there, alike, later⟩
    exact ⟨⟨⟨listed, named⟩, newer, ⟨there, alike⟩, later⟩, file⟩

/-- A log file is kept unless something that is named like one is newer. -/
theorem mem_cleanUp (distinct : (entries.map Entry.modified).Nodup) :
    entry ∈ cleanUp entries ↔ entry ∈ entries ∧
      (entry.LogFile → ∀ other ∈ entries, other.NamedLog → other.modified ≤ entry.modified) := by
  unfold cleanUp
  rw [List.mem_filter, Bool.not_eq_true', ← Bool.not_eq_true, List.contains_iff_mem,
    mem_outdated distinct]
  apply and_congr_right
  intro listed
  simp only [listed, true_and, not_and, not_exists, Nat.not_lt]

/-- The newest of all log files. -/
structure Newest (entries : List Entry) (newest : Entry) : Prop where
  listed : newest ∈ entries
  file : newest.LogFile
  newest : ∀ other ∈ entries, other.LogFile → other.modified ≤ newest.modified

/-- Every directory that is named like a log file is older than some entry. -/
def Unobstructed (entries : List Entry) (newest : Entry) : Prop :=
  ∀ directory ∈ entries, directory.NamedLog → directory.isDirectory = true →
    directory.modified < newest.modified

theorem exists_newestFile (distinct : (entries.map Entry.modified).Nodup)
    (listed : entry ∈ entries) (file : entry.LogFile) : ∃ newest, Newest entries newest := by
  have among : entry ∈ entries.filter fun entry => entry.isLog && !entry.isDirectory :=
    List.mem_filter.mpr ⟨listed, logFile_iff.mpr file⟩
  rcases exists_newest (distinct.sublist (List.filter_sublist.map _))
      (List.ne_nil_of_mem among) with ⟨newest, chosen, first⟩
  rcases List.mem_filter.mp chosen with ⟨there, newestFile⟩
  refine ⟨newest, there, logFile_iff.mp newestFile, fun other otherListed otherFile => ?_⟩
  exact first other (List.mem_filter.mpr ⟨otherListed, logFile_iff.mpr otherFile⟩)

/-- The newest log file is left if nothing is in its place, and no other one is. -/
theorem Newest.left_iff {newest : Entry} (first : Newest entries newest)
    (distinct : (entries.map Entry.modified).Nodup) :
    entry ∈ cleanUp entries ∧ entry.LogFile ↔ entry = newest ∧ Unobstructed entries newest := by
  have apart := List.inj_on_of_nodup_map distinct
  rw [mem_cleanUp distinct]
  constructor
  · rintro ⟨⟨listed, kept⟩, file⟩
    have older := kept file
    -- Each of the two is at least as new as the other, and times tell entries apart.
    have same : entry = newest := by
      apply apart listed first.listed
      exact Nat.le_antisymm (first.newest entry listed file)
        (older newest first.listed first.file.named)
    subst same
    refine ⟨rfl, fun directory there named isDirectory => ?_⟩
    apply Nat.lt_of_le_of_ne (older directory there named)
    intro simultaneous
    rcases apart there listed simultaneous with rfl
    cases file.file.symm.trans isDirectory
  · rintro ⟨rfl, unobstructed⟩
    refine ⟨⟨first.listed, fun _ other there named => ?_⟩, first.file⟩
    cases kind : other.isDirectory with
    | true => exact Nat.le_of_lt (unobstructed other there named kind)
    | false => exact first.newest other there ⟨named, kind⟩

/-- Cleaning up keeps the newest log file, unless a directory is in its place.
Nothing is changed or added, and what is no log file stays.  Where there is a log
file, the newest of them is the only one that is left if every directory that is
named like a log file is older, and otherwise none is left. -/
theorem cleaning_up_keeps_the_newest (entries : List Entry)
    (distinct : (entries.map Entry.modified).Nodup) :
    (cleanUp entries).Sublist entries ∧
    (∀ entry ∈ entries, ¬ entry.LogFile → entry ∈ cleanUp entries) ∧
    ∀ file ∈ entries, file.LogFile → ∃ newest, Newest entries newest ∧
      ∀ entry, entry ∈ cleanUp entries ∧ entry.LogFile ↔
        entry = newest ∧ Unobstructed entries newest := by
  refine ⟨List.filter_sublist, ?_, ?_⟩
  · intro entry listed other
    exact (mem_cleanUp distinct).mpr ⟨listed, fun file => absurd file other⟩
  · intro file listed isFile
    rcases exists_newestFile distinct listed isFile with ⟨newest, first⟩
    exact ⟨newest, first, fun entry => first.left_iff distinct⟩

/-- Two log files, a directory that is named like one, and a file that has the
extension for its whole name. -/
def shelf (time : Nat) : List Entry :=
  [⟨"a.log", 1, false⟩, ⟨"b.log", 3, false⟩, ⟨"archive.log", time, true⟩, ⟨".log", 9, false⟩]

theorem eq_of_newest_shelf {time : Nat} {newest : Entry} (first : Newest (shelf time) newest) :
    newest = ⟨"b.log", 3, false⟩ := by
  have late := first.newest ⟨"b.log", 3, false⟩ (by simp [shelf]) ⟨⟨"b", by decide, rfl⟩, rfl⟩
  have listed := first.listed
  simp only [shelf, List.mem_cons, List.not_mem_nil, or_false] at listed
  rcases listed with rfl | rfl | rfl | rfl
  · exact absurd late (by decide)
  · rfl
  · cases first.file.file
  · cases isLog_iff.mpr first.file.named

/-- The later log file is left alone as long as the directory is older, and not even
that one if the directory is newer. -/
theorem cleaning_up_keeps_the_newest_or_a_directory :
    (∀ entry, entry ∈ cleanUp (shelf 2) ∧ entry.LogFile ↔ entry = ⟨"b.log", 3, false⟩) ∧
      ⟨".log", 9, false⟩ ∈ cleanUp (shelf 2) ∧ ∀ entry ∈ cleanUp (shelf 5), ¬ entry.LogFile := by
  have file : (⟨"b.log", 3, false⟩ : Entry).LogFile := ⟨⟨"b", by decide, rfl⟩, rfl⟩
  rcases cleaning_up_keeps_the_newest (shelf 2) (by decide) with ⟨-, others, older⟩
  rcases cleaning_up_keeps_the_newest (shelf 5) (by decide) with ⟨-, -, newer⟩
  refine ⟨?_, ?_, ?_⟩
  · rcases older _ (by simp [shelf]) file with ⟨newest, first, left⟩
    rcases eq_of_newest_shelf first with rfl
    intro entry
    refine (left entry).trans (and_iff_left ?_)
    simp [Unobstructed, shelf]
  · apply others _ (by simp [shelf])
    intro dotted
    cases isLog_iff.mpr dotted.named
  · intro entry kept isFile
    rcases newer _ (by simp [shelf]) file with ⟨newest, first, left⟩
    rcases eq_of_newest_shelf first with rfl
    have obstructed := ((left entry).mp ⟨kept, isFile⟩).2 ⟨"archive.log", 5, true⟩
      (by simp [shelf]) ⟨"archive", by decide, rfl⟩ rfl
    exact absurd obstructed (by decide)

end Logging
end Ventilation
