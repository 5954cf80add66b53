import SchemaStubs.Proofs.Stub.ModulePaths
import SchemaStubs.Settings.Basic

/-!
Where an import statement leads. The points in front of a module go from the package of the importing
file up through its directories, and the names between the other points go down again, the last one to a
file. A stub that imports from another one is led to that stub, unless the suffix has a point of its own
in front of its extension: that point is read as one more step down.
-/

namespace SchemaStubs

namespace Settings

variable {settings : Settings}

/-- Settings that pass give stubs their extension and leave them in their directory. -/
theorem suffix_of_check (accepted : settings.check = .ok ()) :
    Text.endsWith ".pyi" settings.effectiveSuffix = true ∧ '/' ∉ settings.effectiveSuffix.toList := by
  have passed : settings.problem? = none := by
    unfold check at accepted
    split at accepted
    · assumption
    · cases accepted
  unfold effectiveSuffix
  split
  · exact ⟨by decide, by decide⟩
  · rename_i given
    unfold problem? at passed
    split_ifs at passed with _ _ ending separated
    have present : settings.suffix ≠ "" := by simpa using given
    constructor
    · simpa [present] using ending
    · intro slash
      exact separated (List.any_eq_true.mpr ⟨'/', slash, by decide⟩)

end Settings

namespace Text

theorem drop_end_append {ending text : String} (ends : endsWith ending text = true) :
    dropEnd ending text ++ ending = text := by
  obtain ⟨front, whole⟩ := List.isSuffixOf_iff_suffix.mp ends
  unfold dropEnd
  rw [if_pos ends, ← String.toList_inj, String.toList_append, String.toList_ofList, ← whole,
    List.length_append, Nat.add_sub_cancel, List.take_left']
  rfl

end Text

namespace Stub.Location

/-- The file that a relative import leads to. One point stands for the directory of the importing file
and each further point for the directory above; every name is one step down, the last to a file. There is
no such file without a point, and none above the top. -/
def importedFile? (importing module : String) : Option String :=
  let points := (module.toList.takeWhile fun c => c == '.').length
  let names := Text.splitAt '.' (String.ofList (module.toList.drop points))
  let package := (Text.splitAt '/' importing).dropLast
  match points with
  | 0 => none
  | up + 1 =>
      if package.length < up then none
      else some (Text.joinWith "/" (package.take (package.length - up) ++ names) ++ ".pyi")

variable {suffix : String}

theorem takeWhile_points (count : Nat) {names : List Char} (begins : names.head? ≠ some '.') :
    (List.replicate count '.' ++ names).takeWhile (fun c => c == '.') = List.replicate count '.' := by
  have pointed : ∀ c ∈ List.replicate count '.', (c == '.') = true := by
    intro c member
    rw [(List.mem_replicate.mp member).2]
    rfl
  rw [List.takeWhile_append_of_pos pointed]
  cases names with
  | nil => simp
  | cons first rest =>
      have other : (first == '.') = false := by simpa using begins
      rw [List.takeWhile_cons, other, if_neg Bool.false_ne_true, List.append_nil]

/-- The text of an import: the points and then the names, up from one file and down to the other. -/
theorem toList_relative_module (suffix source target : String) :
    ∃ shared up down, directories source = shared ++ up ∧ directories target = shared ++ down ∧
      (relativeModule suffix source target).toList = List.replicate (up.length + 1) '.' ++
        (Text.joinWith "." (down ++ [moduleName suffix target])).toList := by
  obtain ⟨shared, sourceParts, targetParts⟩ :=
    split_common_shared (directories source) (directories target)
  refine ⟨shared, _, _, sourceParts, targetParts, ?_⟩
  unfold relativeModule
  dsimp only
  rw [String.toList_append, String.toList_ofList, Nat.add_comm]

theorem head?_names {target : String} {shared down : List String}
    (parts : directories target = shared ++ down) :
    (Text.joinWith "." (down ++ [moduleName suffix target])).toList.head? ≠ some '.' := by
  have segments := segments_below parts
  have begins := head?_intercalate segments
  have present : Text.joinWith "." (down ++ [Text.identifier (stem target)]) ≠ "" :=
    Text.join_with_ne_empty (by simp) fun text listed empty =>
      (segments text listed).present (String.toList_eq_nil_iff.mpr empty)
  unfold moduleName
  rw [Text.join_with_append_last, String.toList_append]
  rw [Ne, ← String.toList_eq_nil_iff] at present
  rw [List.head?_append_of_ne_nil _ present, Text.toList_join_with]
  exact begins

theorem package_output_path (single : '/' ∉ suffix.toList) (file : String) :
    (Text.splitAt '/' (outputPath suffix file)).dropLast = directories file := by
  rw [output_path_eq single]
  have split : Text.splitAt '/' (Text.joinWith "/" (outputNames suffix file)) = outputNames suffix file :=
    Text.split_at_join_with (output_names_some suffix file) fun name listed =>
      (output_names_proper single file name listed).single
  rw [split, outputNames, List.dropLast_concat]

/-- From a stub an import goes up to the directory that the two files share. -/
theorem imported_file?_relative_module (single : '/' ∉ suffix.toList) (source target : String) :
    ∃ shared down, directories target = shared ++ down ∧
      importedFile? (outputPath suffix source) (relativeModule suffix source target) =
        some (Text.joinWith "/" (shared ++
          Text.splitAt '.' (Text.joinWith "." (down ++ [moduleName suffix target]))) ++ ".pyi") := by
  obtain ⟨shared, up, down, sourceParts, targetParts, spelled⟩ :=
    toList_relative_module suffix source target
  refine ⟨shared, down, targetParts, ?_⟩
  unfold importedFile?
  rw [spelled, takeWhile_points _ (head?_names targetParts), List.length_replicate,
    package_output_path single, sourceParts]
  dsimp only
  rw [List.drop_left' (List.length_replicate ..), String.ofList_toList, List.length_append,
    if_neg (by omega), Nat.add_sub_cancel, List.take_left]

theorem split_at_names {target : String} {shared down : List String}
    (parts : directories target = shared ++ down)
    (whole : '.' ∉ (Text.dropEnd ".pyi" suffix).toList) :
    Text.splitAt '.' (Text.joinWith "." (down ++ [moduleName suffix target])) =
      down ++ [moduleName suffix target] := by
  have segments := segments_below parts
  refine Text.split_at_join_with (by simp) (List.forall_mem_append.mpr ⟨fun name listed => ?_, ?_⟩)
  · exact (segments name (List.mem_append_left _ listed)).undotted
  · rw [List.forall_mem_singleton, moduleName, String.toList_append, List.mem_append, not_or]
    exact ⟨(segment_stem target).undotted, whole⟩

/-- Names that are read one by one lead to a file whose last name has no point before its extension. -/
theorem undotted_of_leads {target : String} {shared down : List String}
    (single : '/' ∉ suffix.toList) (ends : Text.endsWith ".pyi" suffix = true)
    (parts : directories target = shared ++ down)
    (leads : Text.joinWith "/" (shared ++
      Text.splitAt '.' (Text.joinWith "." (down ++ [moduleName suffix target]))) ++ ".pyi" =
        outputPath suffix target) : '.' ∉ (Text.dropEnd ".pyi" suffix).toList := by
  have slashless : ∀ name ∈ outputNames suffix target, '/' ∉ name.toList := fun name listed =>
    (output_names_proper single target name listed).single
  have restored := Text.drop_end_append ends
  have lastName : Text.identifier (stem target) ++ suffix = moduleName suffix target ++ ".pyi" := by
    rw [moduleName, String.append_assoc, restored]
  have moduleSlashless : '/' ∉ (moduleName suffix target).toList := by
    have whole := slashless (Text.identifier (stem target) ++ suffix)
      (List.mem_append_right _ (List.mem_singleton_self _))
    rw [lastName, String.toList_append, List.mem_append, not_or] at whole
    exact whole.1
  have namesSlashless : '/' ∉ (Text.joinWith "." (down ++ [moduleName suffix target])).toList := by
    rw [Text.mem_join_with (by decide)]
    rintro ⟨name, listed, slash⟩
    rcases List.mem_append.mp listed with inDown | last
    · refine slashless name (List.mem_append_left _ ?_) slash
      rw [parts]
      exact List.mem_append_right _ inDown
    · rw [List.mem_singleton.mp last] at slash
      exact moduleSlashless slash
  rcases List.eq_nil_or_concat'
      (Text.splitAt '.' (Text.joinWith "." (down ++ [moduleName suffix target]))) with
    none | ⟨front, last, split⟩
  · exact absurd none (Text.split_at_ne_nil _ _)
  have piece : ∀ name ∈ front ++ [last], '/' ∉ name.toList ∧ '.' ∉ name.toList := by
    intro name listed
    rw [← split] at listed
    exact ⟨fun slash => namesSlashless (Text.mem_of_mem_split_at listed slash),
      Text.not_mem_of_mem_split_at listed⟩
  rw [split, ← List.append_assoc, ← Text.join_with_append_last, output_path_eq single] at leads
  -- both sides are names between slashes, so they agree name by name
  have ledSlashless : ∀ name ∈ shared ++ front ++ [last ++ ".pyi"], '/' ∉ name.toList := by
    rw [List.append_assoc, List.forall_mem_append]
    refine ⟨fun name listed => slashless name (List.mem_append_left _ ?_), ?_⟩
    · rw [parts]
      exact List.mem_append_left _ listed
    · rw [List.forall_mem_append, List.forall_mem_singleton, String.toList_append, List.mem_append, not_or]
      exact ⟨fun name listed => (piece name (List.mem_append_left _ listed)).1,
        (piece last (by simp)).1, by decide⟩
  have led : Text.splitAt '/' (Text.joinWith "/" (shared ++ front ++ [last ++ ".pyi"])) =
      shared ++ front ++ [last ++ ".pyi"] := Text.split_at_join_with (by simp) ledSlashless
  have placed : Text.splitAt '/' (Text.joinWith "/" (outputNames suffix target)) =
      outputNames suffix target := Text.split_at_join_with (output_names_some suffix target) slashless
  have names := congrArg (Text.splitAt '/') leads
  rw [led, placed, outputNames, lastName] at names
  have lasts := (List.append_inj' names (by simp)).2
  have same : last = moduleName suffix target := by
    rwa [List.cons.injEq, String.append_left_inj, and_iff_left rfl] at lasts
  have undotted := (piece last (by simp)).2
  rw [same, moduleName, String.toList_append, List.mem_append, not_or] at undotted
  exact undotted.2

/-- With settings that pass, the import of one file in the stub of another always leads to a file. It is
the stub of the imported file exactly if the suffix has no point in front of its extension. -/
theorem import_leads_to_stub {settings : Settings} (accepted : settings.check = .ok ())
    (source target : String) :
    ∃ path, importedFile? (outputPath settings.stubOptions.suffix source)
        (relativeModule settings.stubOptions.suffix source target) = some path ∧
      (path = outputPath settings.stubOptions.suffix target ↔
        '.' ∉ (Text.dropEnd ".pyi" settings.stubOptions.suffix).toList) := by
  obtain ⟨ends, single⟩ := Settings.suffix_of_check accepted
  change Text.endsWith ".pyi" settings.stubOptions.suffix = true at ends
  change '/' ∉ settings.stubOptions.suffix.toList at single
  generalize settings.stubOptions.suffix = suffix at ends single ⊢
  obtain ⟨shared, down, parts, leads⟩ := imported_file?_relative_module single source target
  refine ⟨_, leads, undotted_of_leads single ends parts, fun whole => ?_⟩
  have lastName : moduleName suffix target ++ ".pyi" = Text.identifier (stem target) ++ suffix := by
    rw [moduleName, String.append_assoc, Text.drop_end_append ends]
  rw [split_at_names parts whole, ← List.append_assoc, ← parts, ← Text.join_with_append_last, lastName,
    output_path_eq single, outputNames]

theorem import_leads_to_stub_beside :
    importedFile? "x/y/a_capnp.pyi" "..z.b_capnp" = some "x/z/b_capnp.pyi" := by
  obtain ⟨path, leads, stub⟩ := @import_leads_to_stub Settings.default (by decide) "x/y/a.capnp"
    "x/z/b.capnp"
  have ofSource : outputPath Settings.default.stubOptions.suffix "x/y/a.capnp" = "x/y/a_capnp.pyi" := by
    decide +kernel
  have ofTarget : outputPath Settings.default.stubOptions.suffix "x/z/b.capnp" = "x/z/b_capnp.pyi" := by
    decide +kernel
  have module : relativeModule Settings.default.stubOptions.suffix "x/y/a.capnp" "x/z/b.capnp" =
      "..z.b_capnp" := by decide +kernel
  have isStub := stub.mpr (by decide)
  rw [ofSource, module, isStub, ofTarget] at leads
  exact leads

/-- A suffix with a version in it passes, and imports lead into a directory that is not there. -/
theorem versioned_suffix_misleads :
    { Settings.default with suffix := ".v1.pyi" }.check = .ok () ∧
      relativeModule ".v1.pyi" "a.capnp" "b.capnp" = ".b.v1" ∧
      importedFile? (outputPath ".v1.pyi" "a.capnp") ".b.v1" = some "b/v1.pyi" ∧
      outputPath ".v1.pyi" "b.capnp" = "b.v1.pyi" := by
  decide +kernel

end Stub.Location

end SchemaStubs
