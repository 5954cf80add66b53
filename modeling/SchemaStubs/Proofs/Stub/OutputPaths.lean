import SchemaStubs.Proofs.Stub.ImportTargets

/-!
Where stubs are written. Whatever a schema file is called, its stub stands below the output directory:
its path goes down only, through directories that are named like modules, to a file with the extension
of stubs. The stubs of one run have paths of their own.
-/

namespace SchemaStubs

namespace Text

theorem is_identifier_char_of_mem {text : String} {c : Char} (member : c ∈ (identifier text).toList) :
    isIdentifierChar c = true := by
  by_contra other
  rw [Bool.not_eq_true] at other
  exact not_mem_identifier other text member

theorem is_digit_head?_identifier {text : String} {first : Char}
    (begins : (identifier text).toList.head? = some first) : isDigit first = false := by
  unfold identifier identifierChars at begins
  rw [String.toList_ofList] at begins
  split at begins
  · cases begins
  · rename_i c rest _
    dsimp only at begins
    split at begins
    · cases begins
      decide
    · rename_i letter
      cases begins
      unfold identifierChar
      split
      · rwa [Bool.not_eq_true] at letter
      · decide

end Text

namespace Stub.Location

open Files.Path (isRooted elements join IsName)

/-- A path from a directory down to a stub. What leads there has names of letters, digits and
underscores. -/
structure LeadsToStub (path : String) : Prop where
  unrooted : isRooted path = false
  downward : ∀ name ∈ Text.splitAt '/' path, name ≠ "" ∧ name ≠ "." ∧ name ≠ ".."
  directories : ∀ name ∈ (Text.splitAt '/' path).dropLast,
    (∀ c ∈ name.toList, c = '_' ∨ Text.isLetter c = true ∨ Text.isDigit c = true) ∧
      ∀ first, name.toList.head? = some first → Text.isDigit first = false
  stub : ∃ last, (Text.splitAt '/' path).getLast? = some last ∧ Text.endsWith ".pyi" last = true
  below : ∀ directory, isRooted (join [directory, path]) = isRooted directory ∧
    elements (join [directory, path]) = elements directory ++ Text.splitAt '/' path

variable {suffix : String}

theorem split_at_output_path (single : '/' ∉ suffix.toList) (file : String) :
    Text.splitAt '/' (outputPath suffix file) = outputNames suffix file := by
  rw [output_path_eq single]
  exact Text.split_at_join_with (output_names_some suffix file) fun name listed =>
    (output_names_proper single file name listed).single

theorem join_output_path (single : '/' ∉ suffix.toList) (directory file : String) :
    isRooted (join [directory, outputPath suffix file]) = isRooted directory ∧
      elements (join [directory, outputPath suffix file]) =
        elements directory ++ outputNames suffix file := by
  obtain ⟨route, rooted, parts, _⟩ := Files.Path.exists_route directory
  have proper := output_names_proper single file
  rw [output_path_eq single,
    Files.Path.join_names rooted parts (output_names_some suffix file) proper,
    Files.Path.Route.is_rooted_text, Files.Path.Route.elements_text, Files.Path.Route.parts_append,
    Files.Path.Route.rooted_append, rooted, parts]
  exact ⟨rfl, rfl⟩

theorem leadsToStub (ends : Text.endsWith ".pyi" suffix = true) (single : '/' ∉ suffix.toList)
    (file : String) : LeadsToStub (outputPath suffix file) where
  unrooted := by
    rw [output_path_eq single]
    exact Files.Path.is_rooted_join_with
      (fun name listed => (output_names_proper single file name listed).present)
      fun name listed => (output_names_proper single file name listed).single
  downward := by
    rw [split_at_output_path single]
    intro name listed
    have proper := output_names_proper single file name listed
    exact ⟨proper.present, proper.moving, proper.downward⟩
  directories := by
    rw [package_output_path single]
    intro name listed
    obtain ⟨part, _, rfl⟩ := List.mem_map.mp listed
    refine ⟨fun c member => ?_, fun first begins => Text.is_digit_head?_identifier begins⟩
    have held := Text.is_identifier_char_of_mem member
    unfold Text.isIdentifierChar at held
    simpa [or_assoc] using held
  stub := by
    rw [split_at_output_path single]
    exact ⟨_, List.getLast?_concat, Text.ends_with_append ends⟩
  below directory := by
    rw [split_at_output_path single]
    exact join_output_path single directory file

end Stub.Location

namespace Stub

variable {options : Options} {graph : Graph} {output : Output} {plan : Plan}
  {resolved registry : Registry} {drafts : List Generation.Drafted}

theorem Completed.path_of_source
    (completed : Completed options graph output plan resolved drafts registry) :
    ∀ file ∈ output.files, file.path = Location.outputPath options.suffix file.source := by
  obtain ⟨planned, settled, rfl, delivery⟩ := completed.delivery
  rw [completed.files]
  intro file listed
  obtain ⟨drafted, member, rfl⟩ := List.mem_map.mp listed
  have delivered := delivery.each drafted member
  rw [delivered.path, delivered.source]

/-- With settings that pass, every stub stands below the output directory, and the stubs of a run have
paths of their own. -/
theorem stubs_below_output {settings : Settings} (accepted : settings.check = .ok ()) :
    (∀ file, Location.LeadsToStub (Location.outputPath settings.stubOptions.suffix file)) ∧
    ∀ entries requested graph output, Graph.build entries requested = .ok graph →
      (generate settings.stubOptions graph).1 = .ok output →
      (output.files.map StubFile.path).Nodup ∧ ∀ file ∈ output.files,
        file.path = Location.outputPath settings.stubOptions.suffix file.source := by
  obtain ⟨ends, single⟩ := Settings.suffix_of_check accepted
  refine ⟨Location.leadsToStub ends single, fun entries requested graph output built ran => ?_⟩
  obtain ⟨plan, resolved, drafts, registry, completed⟩ := completed_of_generate built ran
  exact ⟨completed.file_paths.1, completed.path_of_source⟩

theorem stubs_below_output_mints : Location.LeadsToStub "_9/b_c/é_x.v2.pyi" ∧
    ∃ output, (generate { suffix := ".v2.pyi" } (mints "a" "../a\\b" [1, 3])).1 = .ok output ∧
      (output.files.map StubFile.path).Nodup := by
  obtain ⟨leads, apart⟩ := @stubs_below_output { Settings.default with suffix := ".v2.pyi" } (by decide)
  have path : Location.outputPath ".v2.pyi" "..\\../9//b-c/./d/../é x.capnp" = "_9/b_c/é_x.v2.pyi" := by
    decide +kernel
  have built : Graph.build ((mints "a" "../a\\b" []).nodes.map some) [1, 3] =
      .ok (mints "a" "../a\\b" [1, 3]) := rfl
  obtain ⟨output, ran⟩ := except_ok_of_isOk
    (show (generate { suffix := ".v2.pyi" } (mints "a" "../a\\b" [1, 3])).1.isOk = true by
      decide +kernel)
  exact ⟨path ▸ leads _, output, ran, (apart _ _ _ _ built ran).1⟩

end Stub

end SchemaStubs
