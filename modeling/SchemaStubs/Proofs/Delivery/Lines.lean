import SchemaStubs.Proofs.Delivery.Run
import SchemaStubs.Proofs.Lists

/-!
What a comparison with the disk sees. A file that can be read counts as up to date exactly if its lines,
without up to two carriage returns at the end of each, are those of the generated text. A text with a
line that is too long to be read counts as an empty one.
-/

namespace SchemaStubs.Delivery

open Files (Disk)
open Stub (StubFile Output)

def Readable (content : String) : Prop :=
  ∀ line ∈ rawLines content, Text.size line < longestLine

instance (content : String) : Decidable (Readable content) :=
  inferInstanceAs (Decidable (∀ line ∈ rawLines content, Text.size line < longestLine))

def dropReturns (line : String) : String :=
  dropReturn (dropReturn line)

def Unread (content : String) : Prop :=
  content = "" ∨ ¬ Readable content

instance (content : String) : Decidable (Unread content) :=
  inferInstanceAs (Decidable (content = "" ∨ ¬ Readable content))

/-- A text on the disk counts as a generated one: they have the same lines but for carriage returns if
both can be read; otherwise nothing is read from either. -/
def Matches (existing generated : String) : Prop :=
  if Readable existing ∧ Readable generated then
    (rawLines existing).map dropReturns = rawLines generated
  else Unread existing ∧ Unread generated

instance (existing generated : String) : Decidable (Matches existing generated) := by
  unfold Matches
  infer_instance

section Returns

theorem mem_of_mem_drop_return {line : String} {c : Char} (member : c ∈ (dropReturn line).toList) :
    c ∈ line.toList := by
  unfold dropReturn Text.dropEnd at member
  split at member
  · rw [String.toList_ofList] at member
    exact List.mem_of_mem_take member
  · exact member

theorem mem_of_mem_drop_returns {line : String} {c : Char} (member : c ∈ (dropReturns line).toList) :
    c ∈ line.toList :=
  mem_of_mem_drop_return (mem_of_mem_drop_return member)

theorem drop_return_eq_self {line : String} (plain : '\r' ∉ line.toList) : dropReturn line = line := by
  unfold dropReturn Text.dropEnd
  rw [if_neg]
  intro ends
  have suffix : "\r".toList <:+ line.toList := List.isSuffixOf_iff_suffix.mp ends
  exact plain (suffix.subset (by decide))

theorem drop_returns_eq_self {line : String} (plain : '\r' ∉ line.toList) : dropReturns line = line := by
  unfold dropReturns
  rw [drop_return_eq_self plain, drop_return_eq_self plain]

end Returns

section Lines

variable {content line : String}

theorem mem_split_at_of_mem_raw_lines (member : line ∈ rawLines content) :
    line ∈ Text.splitAt '\n' content := by
  unfold rawLines at member
  dsimp only at member
  split at member
  · exact List.dropLast_subset _ member
  · exact member

theorem raw_lines_whole (member : line ∈ rawLines content) : '\n' ∉ line.toList :=
  Text.not_mem_of_mem_split_at (mem_split_at_of_mem_raw_lines member)

theorem raw_lines_eq_nil_iff : rawLines content = [] ↔ content = "" := by
  constructor
  · intro none
    have pieces := Text.join_with_split_at '\n' content
    unfold rawLines at none
    dsimp only at none
    split at none
    · rename_i last
      obtain ⟨front, split⟩ := List.getLast?_eq_some_iff.mp last
      rw [split, List.dropLast_concat] at none
      rw [split, none] at pieces
      exact pieces.symm
    · exact absurd none (Text.split_at_ne_nil '\n' content)
  · rintro rfl
    rfl

theorem concat_ended (lines : List String) :
    Text.concat (lines.map fun line => line ++ "\n") = Text.joinWith "\n" (lines ++ [""]) := by
  unfold Text.concat
  induction lines with
  | nil => rfl
  | cons line rest induction =>
      have some : rest ++ [""] ≠ [] := List.append_ne_nil_of_right_ne_nil _ (List.cons_ne_nil _ _)
      obtain ⟨next, others, spelled⟩ := List.exists_cons_of_ne_nil some
      rw [List.cons_append, spelled, Text.joinWith, ← spelled, ← induction, List.map_cons]
      cases rest <;> simp [Text.joinWith]

theorem concat_ended_inj {ones twos : List String} (wholeOne : ∀ line ∈ ones, '\n' ∉ line.toList)
    (wholeTwo : ∀ line ∈ twos, '\n' ∉ line.toList) :
    Text.concat (ones.map fun line => line ++ "\n") =
      Text.concat (twos.map fun line => line ++ "\n") ↔ ones = twos := by
  have split : ∀ {lines : List String}, (∀ line ∈ lines, '\n' ∉ line.toList) →
      Text.splitAt '\n' (Text.joinWith "\n" (lines ++ [""])) = lines ++ [""] := by
    intro lines whole
    refine Text.split_at_join_with (List.append_ne_nil_of_right_ne_nil _ (List.cons_ne_nil _ _)) ?_
    rw [List.forall_mem_append, List.forall_mem_singleton]
    exact ⟨whole, List.not_mem_nil⟩
  rw [concat_ended, concat_ended]
  constructor
  · intro same
    have pieces := congrArg (Text.splitAt '\n') same
    rw [split wholeOne, split wholeTwo] at pieces
    exact List.append_cancel_right pieces
  · rintro rfl
    rfl

end Lines

section Normal

variable {existing generated : String}

theorem normalize_lines_of_readable {content : String} (readable : Readable content) :
    normalizeLines content =
      Text.concat (((rawLines content).map dropReturns).map fun line => line ++ "\n") := by
  unfold normalizeLines
  dsimp only
  rw [if_neg, List.map_map]
  · rfl
  · rw [List.any_eq_true]
    rintro ⟨line, member, long⟩
    exact Nat.not_lt.mpr (of_decide_eq_true long) (readable line member)

theorem normalize_lines_of_not_readable {content : String} (unreadable : ¬ Readable content) :
    normalizeLines content = "" := by
  unfold normalizeLines
  dsimp only
  rw [if_pos]
  unfold Readable at unreadable
  push Not at unreadable
  obtain ⟨line, member, long⟩ := unreadable
  exact List.any_eq_true.mpr ⟨line, member, decide_eq_true long⟩

theorem dropped_whole (content : String) :
    ∀ line ∈ (rawLines content).map dropReturns, '\n' ∉ line.toList := by
  intro line listed
  obtain ⟨raw, member, rfl⟩ := List.mem_map.mp listed
  exact fun inside => raw_lines_whole member (mem_of_mem_drop_returns inside)

theorem dropped_plain (plain : '\r' ∉ generated.toList) :
    (rawLines generated).map dropReturns = rawLines generated := by
  have each : ∀ line ∈ rawLines generated, dropReturns line = id line := by
    intro line member
    refine drop_returns_eq_self fun inside => plain ?_
    exact Text.mem_of_mem_split_at (mem_split_at_of_mem_raw_lines member) inside
  rw [List.map_congr_left each, List.map_id]

theorem normalize_lines_eq_empty_iff {content : String} :
    normalizeLines content = "" ↔ Unread content := by
  unfold Unread
  by_cases readable : Readable content
  · have none : Text.concat (([] : List String).map fun line => line ++ "\n") = "" := rfl
    rw [normalize_lines_of_readable readable, ← none,
      concat_ended_inj (dropped_whole content) (List.forall_mem_nil _), List.map_eq_nil_iff,
      raw_lines_eq_nil_iff]
    exact ⟨.inl, fun unread => unread.resolve_right (not_not_intro readable)⟩
  · exact iff_of_true (normalize_lines_of_not_readable readable) (.inr readable)

theorem normalize_lines_eq_iff (plain : '\r' ∉ generated.toList) :
    normalizeLines existing = normalizeLines generated ↔ Matches existing generated := by
  unfold Matches
  split
  · rename_i both
    rw [normalize_lines_of_readable both.1, normalize_lines_of_readable both.2,
      concat_ended_inj (dropped_whole existing) (dropped_whole generated), dropped_plain plain]
  · rename_i either
    rw [← normalize_lines_eq_empty_iff, ← normalize_lines_eq_empty_iff]
    constructor
    · intro same
      rcases not_and_or.mp either with unreadable | unreadable
      · have empty := normalize_lines_of_not_readable unreadable
        exact ⟨empty, same ▸ empty⟩
      · have empty := normalize_lines_of_not_readable unreadable
        exact ⟨same ▸ empty, empty⟩
    · rintro ⟨one, two⟩
      rw [one, two]

end Normal

section Compared

variable {disk : Disk} {directory : String} {output : Output} {marker : Bool}

theorem difference_of_eq_nil_iff {path existing generated : String} (plain : '\r' ∉ generated.toList) :
    differenceOf path existing generated = [] ↔ Matches existing generated := by
  rw [← normalize_lines_eq_iff plain]
  unfold differenceOf
  simp

/-- One file is up to date if it can be read and counts as the generated one. -/
theorem compare_file_eq_nil_iff {file : StubFile} (plain : '\r' ∉ file.content.toList) :
    compareFile disk directory file = .ok [] ↔
      ∃ existing, disk.read (target directory file.path) = .ok existing ∧
        Matches existing file.content := by
  unfold compareFile target
  dsimp only
  cases disk.read (Files.Path.join [directory, file.path]) with
  | error reason => cases reason <;> simp
  | ok existing => simp [difference_of_eq_nil_iff plain]

theorem path_of_mem_compare_file {file : StubFile} {part : List Difference} {difference : Difference}
    (compared : compareFile disk directory file = .ok part) (member : difference ∈ part) :
    difference.path = file.path := by
  unfold compareFile at compared
  dsimp only at compared
  split at compared
  · cases compared
    unfold differenceOf at member
    dsimp only at member
    split at member
    · cases member
    · rw [List.mem_singleton.mp member]
  · cases compared
    rw [List.mem_singleton.mp member]
  · cases compared

theorem compare_eq_ok_iff {differences : List Difference} :
    compare output directory marker disk = .ok differences ↔
      ∃ parts, List.Forall₂ (fun file part => compareFile disk directory file = .ok part)
        output.files parts ∧
        differences = parts.flatten ++ if marker then compareMarker disk directory else [] := by
  unfold compare
  rw [except_bind_ok]
  constructor
  · rintro ⟨parts, made, same⟩
    exact ⟨parts, except_mapM_related made, (Except.ok.inj same).symm⟩
  · rintro ⟨parts, related, rfl⟩
    exact ⟨parts, except_mapM_of_related related, rfl⟩

theorem marked_eq_nil_iff : (if marker then compareMarker disk directory else []) = [] ↔
    (marker = true → disk.lacks (target directory typedMarker) = false) := by
  unfold compareMarker target
  cases marker <;> simp

/-- A comparison finds nothing exactly if it finds nothing for any file, and no marker is missing. -/
theorem compare_eq_nil_iff : compare output directory marker disk = .ok [] ↔
    (∀ file ∈ output.files, compareFile disk directory file = .ok []) ∧
      (marker = true → disk.lacks (target directory typedMarker) = false) := by
  rw [compare_eq_ok_iff, ← marked_eq_nil_iff]
  constructor
  · rintro ⟨parts, related, none⟩
    rw [eq_comm, List.append_eq_nil_iff, List.flatten_eq_nil_iff] at none
    refine ⟨fun file member => ?_, none.2⟩
    obtain ⟨part, listed, compared⟩ := Lists.exists_of_mem_left related member
    rw [compared, none.1 part listed]
  · rintro ⟨each, none⟩
    refine ⟨output.files.map fun _ => [], ?_, ?_⟩
    · rw [List.forall₂_map_right_iff, List.forall₂_same]
      exact each
    · rw [none, List.append_nil, eq_comm, List.flatten_eq_nil_iff]
      simp

/-- If everything can be compared, a file is listed exactly if it does not count as the generated one. -/
theorem listed_iff {differences : List Difference}
    (compared : compare output directory marker disk = .ok differences) {file : StubFile}
    (member : file ∈ output.files) (plain : '\r' ∉ file.content.toList)
    (once : ∀ other ∈ output.files, other.path = file.path → other = file)
    (unmarked : file.path ≠ typedMarker) {existing : String}
    (read : disk.read (target directory file.path) = .ok existing) :
    (∀ difference ∈ differences, difference.path ≠ file.path) ↔ Matches existing file.content := by
  have current : compareFile disk directory file = .ok [] ↔ Matches existing file.content := by
    rw [compare_file_eq_nil_iff plain, read]
    simp
  obtain ⟨parts, related, rfl⟩ := compare_eq_ok_iff.mp compared
  rw [← current]
  constructor
  · intro unlisted
    obtain ⟨part, listed, found⟩ := Lists.exists_of_mem_left related member
    rw [found]
    refine congrArg Except.ok (List.eq_nil_iff_forall_not_mem.mpr fun difference inside => ?_)
    exact unlisted difference (List.mem_append_left _ (List.mem_flatten.mpr ⟨part, listed, inside⟩))
      (path_of_mem_compare_file found inside)
  · intro upToDate difference listed same
    rcases List.mem_append.mp listed with inside | marks
    · obtain ⟨part, among, inside⟩ := List.mem_flatten.mp inside
      obtain ⟨other, alsoMember, found⟩ := Lists.exists_of_mem_left related.flip among
      have isFile := once other alsoMember ((path_of_mem_compare_file found inside).symm.trans same)
      rw [isFile, upToDate] at found
      cases found
      cases inside
    · unfold compareMarker at marks
      split at marks
      · split at marks
        · rw [List.mem_singleton.mp marks] at same
          exact unmarked same.symm
        · cases marks
      · cases marks

/-- A comparison finds nothing exactly if every file can be read and counts as the generated one, and no
marker is missing; what it lists otherwise are the files that do not. -/
theorem compare_sees_lines (plain : ∀ file ∈ output.files, '\r' ∉ file.content.toList) :
    (compare output directory marker disk = .ok [] ↔
      (∀ file ∈ output.files, ∃ existing, disk.read (target directory file.path) = .ok existing ∧
        Matches existing file.content) ∧
      (marker = true → disk.lacks (target directory typedMarker) = false)) ∧
    ∀ differences, compare output directory marker disk = .ok differences →
      ∀ file ∈ output.files, (∀ other ∈ output.files, other.path = file.path → other = file) →
        file.path ≠ typedMarker → ∀ existing,
          disk.read (target directory file.path) = .ok existing →
          ((∀ difference ∈ differences, difference.path ≠ file.path) ↔
            Matches existing file.content) := by
  constructor
  · rw [compare_eq_nil_iff]
    have each : (∀ file ∈ output.files, compareFile disk directory file = .ok []) ↔
        ∀ file ∈ output.files, ∃ existing, disk.read (target directory file.path) = .ok existing ∧
          Matches existing file.content :=
      forall₂_congr fun file member => compare_file_eq_nil_iff (plain file member)
    rw [each]
  · intro differences compared file member once unmarked existing read
    exact listed_iff compared member (plain file member) once unmarked read

end Compared

def desk : Output where
  files := [⟨"a", "a.pyi", "x: int\ny: int\n"⟩, ⟨"b", "b.pyi", "z: int\n"⟩]

def deskDisk : Disk where
  entries := ⟨[(["a.pyi"], .file "x: int\r\ny: int\r\r"), (["b.pyi"], .file "z: str\r\n")]⟩

theorem compare_sees_lines_desk : ∃ differences, compare desk "" false deskDisk = .ok differences ∧
    (∀ difference ∈ differences, difference.path ≠ "a.pyi") ∧
    ¬ (∀ difference ∈ differences, difference.path ≠ "b.pyi") := by
  have plain : ∀ file ∈ desk.files, '\r' ∉ file.content.toList := by decide
  obtain ⟨_, lists⟩ := @compare_sees_lines deskDisk "" desk false plain
  have compared : (compare desk "" false deskDisk).isOk = true := by decide +kernel
  rcases result : compare desk "" false deskDisk with fault | differences
  · rw [result] at compared
    cases compared
  · refine ⟨differences, rfl, ?_, ?_⟩
    · rw [lists differences result ⟨"a", "a.pyi", "x: int\ny: int\n"⟩ (by decide) (by decide)
        (by decide) "x: int\r\ny: int\r\r" (by rfl)]
      decide +kernel
    · rw [lists differences result ⟨"b", "b.pyi", "z: int\n"⟩ (by decide) (by decide)
        (by decide) "z: str\r\n" (by rfl)]
      decide +kernel

def longLine : String :=
  String.ofList (List.replicate 5592406 '€')

theorem size_replicate (count : Nat) (c : Char) :
    Text.size (String.ofList (List.replicate count c)) = count * c.utf8Size := by
  induction count with
  | zero => rw [Nat.zero_mul]; rfl
  | succ count induction =>
      unfold Text.size at *
      rw [List.replicate_succ', String.ofList_append, String.utf8ByteSize_append, induction,
        Nat.succ_mul, ← String.singleton_eq_ofList, String.utf8ByteSize_singleton]

theorem not_mem_long_line {c : Char} (other : c ≠ '€') : c ∉ longLine.toList := by
  unfold longLine
  rw [String.toList_ofList]
  exact fun member => other (List.eq_of_mem_replicate member)

theorem raw_lines_long_line : rawLines longLine = [longLine] := by
  have whole : '\n' ∉ longLine.toList := not_mem_long_line (by decide)
  have filled : longLine ≠ "" := by
    unfold longLine
    rw [Ne, String.ofList_eq_empty_iff, List.replicate_eq_nil_iff]
    decide
  unfold rawLines
  rw [Text.split_at_eq_singleton whole]
  simp [filled]

theorem size_long_line : Text.size longLine = 16777218 := by
  have width : '€'.utf8Size = 3 := by decide
  have whole : Text.size longLine = 5592406 * '€'.utf8Size := size_replicate 5592406 '€'
  rw [width] at whole
  omega

theorem long_line_unreadable : ¬ Readable longLine := by
  intro readable
  rw [Readable, raw_lines_long_line, List.forall_mem_singleton, size_long_line] at readable
  exact absurd readable (by decide)

def emptied : Disk where
  entries := ⟨[(["a_capnp.pyi"], .file "")]⟩

theorem compare_emptied {content : String} (plain : '\r' ∉ content.toList)
    (unreadable : ¬ Readable content) :
    compare { files := [⟨"a.capnp", "a_capnp.pyi", content⟩] } "" false emptied = .ok [] := by
  have same : Matches "" content := by
    unfold Matches
    rw [if_neg fun both => unreadable both.2]
    exact ⟨.inl rfl, .inr unreadable⟩
  have read : emptied.read (target "" "a_capnp.pyi") = .ok "" := by rfl
  rw [compare_eq_nil_iff, List.forall_mem_singleton, compare_file_eq_nil_iff plain]
  exact ⟨⟨"", read, same⟩, nofun⟩

/-- A generated file with a line that is too long counts as the empty file on the disk. -/
theorem unreadable_counts_as_empty : '\r' ∉ longLine.toList ∧ ¬ Readable longLine ∧
    emptied.read (target "" "a_capnp.pyi") = .ok "" ∧
    (rawLines "").map dropReturns ≠ rawLines longLine ∧
    compare { files := [⟨"a.capnp", "a_capnp.pyi", longLine⟩] } "" false emptied = .ok [] := by
  have plain : '\r' ∉ longLine.toList := not_mem_long_line (by decide)
  refine ⟨plain, long_line_unreadable, rfl, ?_, compare_emptied plain long_line_unreadable⟩
  rw [raw_lines_long_line]
  exact (List.cons_ne_nil _ _).symm

end SchemaStubs.Delivery
