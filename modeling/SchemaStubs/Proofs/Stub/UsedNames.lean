import SchemaStubs.Proofs.Stub.Tokens

/-!
What a stub uses it imports. The names of the standard library and of the runtime that stand in the
body of a stub, read by the rules of its language, are each imported once, as long as the scan for
imports reads the body the same. Docs are taken over into docstrings, so this depends on them: of
five double quotes in a row some are left that the scan takes for the end of the docstring.
-/

namespace SchemaStubs.Stub

open Generation

theorem mem_gather {names : List (String × String)} {fromModule name : String}
    (listed : (fromModule, name) ∈ names) :
    name ∈ (ImportSection.gather names).flatMap Prod.snd := by
  unfold ImportSection.gather
  rw [List.flatMap_map, List.mem_flatMap]
  have inModules : fromModule ∈ names.map Prod.fst := List.mem_map.mpr ⟨_, listed, rfl⟩
  refine ⟨fromModule, Lists.mem_sort_by.mpr (List.mem_eraseDups.mpr inModules), ?_⟩
  refine Lists.mem_sort_by.mpr (List.mem_map.mpr ⟨(fromModule, name), ?_, rfl⟩)
  exact List.mem_filter.mpr ⟨listed, by simp⟩

def knownNames : List String :=
  libraryNames.map Prod.fst ++ runtimeNames

theorem mem_imported_names {bindings : Import.Bindings} {imports : List Import} {body : String}
    {statements : ImportSection}
    (collected : ImportSection.collect bindings imports body = .ok statements) {name : String}
    (found : name ∈ identifiers body) (known : name ∈ knownNames) :
    name ∈ importedNames statements imports := by
  unfold ImportSection.collect at collected
  simp only [except_bind_ok] at collected
  obtain ⟨_, _, _, _, same⟩ := collected
  cases same
  refine List.mem_append_left _ ?_
  rcases List.mem_append.mp known with ofLibrary | ofRuntime
  · refine List.mem_append_left _ ?_
    have inLibrary : ∀ name ∈ libraryNames.map Prod.fst, (libraryModule? name).isSome = true := by
      decide +kernel
    obtain ⟨fromModule, listed⟩ := Option.isSome_iff_exists.mp (inLibrary name ofLibrary)
    have paired : (libraryModule? name).map (fun fromModule => (fromModule, name)) =
        some (fromModule, name) := by
      rw [listed]
      rfl
    exact mem_gather (List.mem_filterMap.mpr ⟨name, found, paired⟩)
  · exact List.mem_append_right _ (Lists.mem_sort_by.mpr (List.mem_filter.mpr ⟨found, by simpa⟩))

theorem readable_body {plan : Plan} {asked registry : Registry}
    (prepared : Prepared plan asked registry) (legible : plan.graph.Legible) {drafted : Drafted}
    {current : Registry} {declarations : List Declaration} {declared : Draft}
    (fresh : Standing registry drafted.file { registry := current, file := drafted.file })
    (declares : (declareFile plan).Returns { registry := current, file := drafted.file }
      declarations declared) :
    ReadableLines (bodyLines declarations (fileAliases registry drafted.file.id)) := by
  have located := prepared.plan_located
  have wearable := prepared.wearable legible
  have naming : Naming registry drafted.file { registry := current, file := drafted.file } :=
    { fresh with locals := fun _ _ known => nomatch known }
  obtain ⟨_, whole⟩ := declare_file_legible (naming_frame located wearable)
    (typing_readable located wearable) legible _ _ _ naming declares
  refine .body whole fun entry listed => ?_
  exact prepared.unmarked_alias legible (Lists.mem_sort_by.mp (List.mem_of_mem_filter listed))

/-- Every name of the standard library and of the runtime that stands in the body of a stub outside
strings and comments is imported by the stub exactly once. -/
theorem used_names_imported_once {options : Options} {entries : List (Option Node)}
    {requested : List Id} {graph : Graph} (built : Graph.build entries requested = .ok graph)
    (legible : graph.Legible) {output : Output} (ran : (generate options graph).1 = .ok output) :
    ∃ plan resolved drafts registry, Completed options graph output plan resolved drafts registry ∧
      ∀ drafted ∈ drafts, ∃ declarations statements,
        Assembled plan registry drafted declarations statements ∧
        ∀ name ∈ nameTokens (renderLines
            (bodyLines declarations (fileAliases registry drafted.file.id))),
          name ∈ knownNames → (importedNames statements drafted.imports).count name = 1 := by
  obtain ⟨plan, resolved, drafts, registry, completed⟩ := completed_of_generate built ran
  refine ⟨plan, resolved, drafts, registry, completed, fun drafted member => ?_⟩
  obtain ⟨asked, prepared⟩ := completed.prepared
  obtain ⟨draft, composed⟩ := completed.composed drafted member
  have sameGraph : plan.graph = graph := by
    obtain ⟨_, _, _, rfl⟩ := completed.surveys
    rfl
  obtain ⟨named, imported⟩ := composed.renamed prepared
  obtain ⟨_, _, sameImports, current, fresh, composes⟩ := composed
  obtain ⟨declarations, declared, statements, bindings, declares, _, collected, content⟩ :=
    compose_returns prepared.plan_located fresh composes
  have assembled : Assembled plan resolved drafted declarations statements :=
    ⟨⟨current, declared, fresh, declares⟩, ⟨bindings, sameImports ▸ collected⟩, content⟩
  refine ⟨declarations, statements, assembled.congr completed.aliases completed.internal, ?_⟩
  rw [file_aliases_congr completed.aliases]
  intro name token known
  have readable := readable_body prepared (sameGraph ▸ legible) fresh declares
  have plain : ∀ name ∈ knownNames, name.toList.all Text.isIdentifierChar = true ∧
      name.toList.head?.any Text.isDigit = false := by decide +kernel
  have found := mem_identifiers_of_token readable.renderLines token (plain name known).1
    (plain name known).2
  rw [sameImports]
  apply List.count_eq_one_of_mem
  · exact (collect_clear collected).nodup_imported_names named imported
  · exact mem_imported_names collected found known

def documented (doc : String) : Graph where
  nodes := [
    aFile [2] [],
    { id := 2, kind := .enum, name := "E", displayName := "E", scope := 1, doc,
      enumerants := ["x"] }]
  requested := [1]

def quoting : Graph :=
  documented "\"\"\" \\\" Sequence # "

theorem used_names_imported_once_documented :
    ∃ output plan resolved drafts registry,
      Completed {} quoting output plan resolved drafts registry ∧
      ∃ drafted ∈ drafts, ∃ declarations statements,
        Assembled plan registry drafted declarations statements ∧
        ∀ name ∈ nameTokens (renderLines
            (bodyLines declarations (fileAliases registry drafted.file.id))),
          name ∈ knownNames → (importedNames statements drafted.imports).count name = 1 := by
  have built : Graph.build (quoting.nodes.map some) [1] = .ok quoting := rfl
  have legible : quoting.Legible := by constructor <;> decide +kernel
  have inFile : Graph.file quoting 1 = .ok (aFile [2] []) := rfl
  obtain ⟨output, ran⟩ : ∃ output, (generate {} quoting).1 = .ok output :=
    generate_of_unobstructed rfl inFile (by decide +kernel)
  obtain ⟨plan, resolved, drafts, registry, completed, each⟩ :=
    used_names_imported_once built legible ran
  obtain ⟨drafted, member, _⟩ := completed.drafted_of_mem List.mem_cons_self inFile
  exact ⟨output, plan, resolved, drafts, registry, completed, drafted, member, each drafted member⟩

/-- Of five quotes three are taken apart. The other two and the first that closes the docstring end it
for the scan, to which the rest of the stub is a docstring then, and what the rest uses is not
imported. -/
theorem five_quotes_hide_imports :
    ∃ output stub statements body,
      Graph.build ((documented "\"\"\"\"\"").nodes.map some) [1] = .ok (documented "\"\"\"\"\"") ∧
      (generate {} (documented "\"\"\"\"\"")).1 = .ok output ∧ stub ∈ output.files ∧
      stub.content = renderLines (fileLines {} "a" statements body) ∧
      "TypeAlias" ∈ nameTokens (renderLines body) ∧
      importedNames statements [] = ["_EnumModule"] := by
  have seen : (((rehearse {} (documented "\"\"\"\"\"") (aFile [2] [])).outcome {}).1.toOption.any
      fun made => made.2.unobstructed &&
        decide ("TypeAlias" ∈ nameTokens
          (renderLines (bodyLines made.1 (fileAliases made.2.registry 1)))) &&
        (ImportSection.collect made.2.bindings made.2.imports
          (renderLines (bodyLines made.1 (fileAliases made.2.registry 1)))).toOption.all
            fun statements => decide (importedNames statements [] = ["_EnumModule"])) = true := by
    decide +kernel
  obtain ⟨⟨declarations, draft⟩, _, rehearsed, shown⟩ := Step.Returns.of_any seen
  rw [Bool.and_eq_true, Bool.and_eq_true] at shown
  obtain ⟨⟨free, used⟩, only⟩ := shown
  obtain ⟨output, stub, statements, ran, files, _, content, collected⟩ :=
    generate_of_rehearsal rfl rfl rehearsed free
  have collects : ImportSection.collect draft.bindings draft.imports
      (renderLines (bodyLines declarations (fileAliases draft.registry 1))) = .ok statements :=
    collected
  rw [collects] at only
  exact ⟨output, stub, statements, _, rfl, ran, by simp [files], content, of_decide_eq_true used,
    of_decide_eq_true only⟩

end SchemaStubs.Stub
