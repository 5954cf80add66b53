import SchemaStubs.Proofs.Delivery.Run
import SchemaStubs.Proofs.Stub.ModulePaths

/-!
Writing what a run gave. If writing succeeds, each file has its content and nothing else changed but
for directories around the files; the paths that are listed are those that changed; and writing again
or comparing finds everything in place. The marker is there too unless looking for it fails otherwise
than by not finding it, and then below the directory of a file its path is too long to be looked at.
-/

namespace SchemaStubs.Delivery

open Files (Disk Place Reason)
open Files.Path (Route IsName)
open Files.Disk (Follows longestPath longestName pathFault?)
open Stub (StubFile Options Output generate)

section Places

variable {disk : Disk} {directory : String}

theorem target_names (directory : String) : ∃ route : Route,
    ∀ names, names ≠ [] → ∀ proper : ∀ name ∈ names, IsName name,
      target directory (Text.joinWith "/" names) = (route.append names proper).text := by
  obtain ⟨route, rooted, parts, _⟩ := Files.Path.exists_route directory
  exact ⟨route, fun names some proper => Files.Path.join_names rooted parts some proper⟩

theorem marker_proper : ∀ name ∈ [typedMarker], IsName name := by
  rw [List.forall_mem_singleton]
  exact ⟨by decide, by decide, by decide, by decide⟩

def Separate (disk : Disk) (directory : String) (output : Output) : Prop :=
  ((output.files ++ [marker]).map fun file => place disk directory file.path).Nodup

theorem Separate.apart {output : Output} (separate : Separate disk directory output) :
    (output.files.map fun file => place disk directory file.path).Nodup ∧
      ∀ file ∈ output.files, place disk directory file.path ≠ place disk directory typedMarker := by
  unfold Separate at separate
  rw [List.map_append, List.nodup_append] at separate
  obtain ⟨once, _, apart⟩ := separate
  rw [List.map_singleton] at apart
  exact ⟨once, fun file member => apart _ (List.mem_map_of_mem member) _ (List.mem_singleton_self _)⟩

theorem path_eq_of_place {one two : List String} (someOne : one ≠ [])
    (properOne : ∀ name ∈ one, IsName name) (someTwo : two ≠ [])
    (properTwo : ∀ name ∈ two, IsName name)
    (same : place disk directory (Text.joinWith "/" one) =
      place disk directory (Text.joinWith "/" two)) : one = two := by
  obtain ⟨route, below⟩ := target_names directory
  unfold place at same
  rw [below one someOne properOne, below two someTwo properTwo, Disk.spelled_text, Disk.spelled_text,
    Disk.base_append, Disk.base_append, List.append_cancel_left_eq] at same
  exact List.append_cancel_left same

theorem separate_of_names {output : Output} (paths : (output.files.map StubFile.path).Nodup)
    (unmarked : ∀ file ∈ output.files, file.path ≠ typedMarker)
    (named : ∀ file ∈ output.files, ∃ names, names ≠ [] ∧ (∀ name ∈ names, IsName name) ∧
      file.path = Text.joinWith "/" names) : Separate disk directory output := by
  have leads : ∀ file ∈ output.files ++ [marker], ∃ names, names ≠ [] ∧
      (∀ name ∈ names, IsName name) ∧ file.path = Text.joinWith "/" names := by
    rw [List.forall_mem_append, List.forall_mem_singleton]
    exact ⟨named, [typedMarker], List.cons_ne_nil _ _, marker_proper, rfl⟩
  have once : ((output.files ++ [marker]).map StubFile.path).Nodup := by
    rw [List.map_append, List.nodup_append]
    refine ⟨paths, List.nodup_singleton _, ?_⟩
    intro path listed other isMarker
    obtain ⟨file, member, rfl⟩ := List.mem_map.mp listed
    rw [List.mem_singleton.mp isMarker]
    exact unmarked file member
  unfold Separate
  unfold List.Nodup at once ⊢
  rw [List.pairwise_map] at once ⊢
  apply once.imp_of_mem
  intro one two inOne inTwo apart same
  obtain ⟨oneNames, someOne, properOne, onePath⟩ := leads one inOne
  obtain ⟨twoNames, someTwo, properTwo, twoPath⟩ := leads two inTwo
  rw [onePath, twoPath] at same apart
  rw [path_eq_of_place someOne properOne someTwo properTwo same] at apart
  exact apart rfl

/-- Beside a file, a marker that is not missing is there unless its path is too long to look at. -/
theorem marker_held (sound : disk.Sound) {names : List String} (some : names ≠ [])
    (proper : ∀ name ∈ names, IsName name) {content : String}
    (read : disk.read (target directory (Text.joinWith "/" names)) = .ok content)
    (present : disk.lacks (target directory typedMarker) = false)
    (short : Text.size (target directory typedMarker) ≤ longestPath) :
    disk.holds (target directory typedMarker) = true := by
  obtain ⟨route, below⟩ := target_names directory
  have marked : target directory typedMarker = (route.append [typedMarker] marker_proper).text :=
    below [typedMarker] (List.cons_ne_nil _ _) marker_proper
  rw [below names some proper, Disk.read_ok_iff_lookup, Disk.lookup_ok_iff sound (by
    exact List.append_ne_nil_of_right_ne_nil _ some)] at read
  obtain ⟨follows, stands⟩ := read
  rw [marked] at present short ⊢
  -- the directory is one because the file is in it
  have around : disk.entry? (disk.base route ++ route.names) = .some .directory := by
    rw [Disk.spelled_text, Disk.base_append] at stands
    change disk.entry? (disk.base route ++ (route.names ++ names)) = _ at stands
    rw [← List.append_assoc] at stands
    exact sound.on_way some stands
  have clear : ∀ part ∈ route.parts ++ [typedMarker], Char.ofNat 0 ∉ part.toList := by
    have ended := (Disk.path_fault?_eq_none_iff.mp follows.fit).2.1
    rw [Route.mem_text (by decide) (by decide), Route.parts_append] at ended
    rw [List.forall_mem_append, List.forall_mem_singleton]
    exact ⟨fun part member inside => ended ⟨part, List.mem_append_left _ member, inside⟩, by decide⟩
  have fit := Disk.path_fault?_append marker_proper clear
  rw [if_neg (Nat.not_lt.mpr short)] at fit
  have followsMarker : Follows (route.append [typedMarker] marker_proper) := by
    refine ⟨List.append_ne_nil_of_right_ne_nil _ (List.cons_ne_nil _ _), fit, ?_⟩
    change ∀ name ∈ route.names ++ [typedMarker], _
    rw [List.forall_mem_append, List.forall_mem_singleton]
    exact ⟨fun name member => follows.short name (List.mem_append_left _ member), by decide⟩
  have looked := Disk.lookup_eq sound followsMarker rfl around
  unfold Disk.lacks at present
  unfold Disk.holds
  rw [looked] at present ⊢
  split
  · rename_i nothing
    rw [nothing] at present
    cases present
  · rfl

end Places

section Whole

variable {disk : Disk} {directory : String} {output : Output} {wanted : Bool} {reached : Progress}

def asked (output : Output) (wanted : Bool) : List String :=
  output.files.map StubFile.path ++ if wanted then [typedMarker] else []

/-- What writing a run comes to, on the disk and in the list of what was written. -/
structure Exact (output : Output) (directory : String) (wanted : Bool) (before after : Disk)
    (written : List String) : Prop where
  files : ∀ file ∈ output.files, after.read (target directory file.path) = .ok file.content
  marker : wanted = true → after.holds (target directory typedMarker) = true ∨
    ∃ reason, reason ≠ .missing ∧ after.lookup (target directory typedMarker) = .error reason
  /-- What changed is at one of the paths that were written, or a directory that was made above it. -/
  frame : ∀ other, after.entry? other ≠ before.entry? other → ∃ path ∈ written,
    other = place before directory path ∨
      before.entry? other = none ∧ after.entry? other = some .directory ∧
        other <+: place before directory path
  working : after.workingDirectory = before.workingDirectory
  written : written = (asked output wanted).filter fun path =>
    found? before directory path ≠ found? after directory path
  again : (deliverAll output directory wanted).Returns { disk := after } () { disk := after }
  upToDate : compare output directory wanted after = .ok []

theorem lacks_eq_false_iff {path : String} : disk.lacks path = false ↔
    disk.holds path = true ∨ ∃ reason, reason ≠ .missing ∧ disk.lookup path = .error reason := by
  unfold Disk.lacks Disk.holds
  rcases disk.lookup path with reason | entry
  · cases reason <;> simp [Except.toBool]
  · simp [Except.toBool]

/-- Writing all is delivering the files, and the marker if it is missing. -/
theorem deliver_all_runs (sound : disk.Sound) (separate : Separate disk directory output)
    (returns : (deliverAll output directory wanted).Returns { disk } () reached) :
    ∃ files, (files = output.files ∨ wanted = true ∧ files = output.files ++ [marker]) ∧
      Ran directory files { disk } reached ∧
      (wanted = true → reached.disk.lacks (target directory typedMarker) = false) := by
  obtain ⟨once, apart⟩ := separate.apart
  unfold deliverAll at returns
  rw [Step.Returns.bind_iff] at returns
  obtain ⟨_, middle, delivers, marks⟩ := returns
  have ran : Ran directory output.files { disk } middle := deliver_files sound once delivers
  cases wanted with
  | false =>
      obtain ⟨_, rfl⟩ := Step.Returns.pure_iff.mp marks
      exact ⟨output.files, .inl rfl, ran, fun absurd => nomatch absurd⟩
  | true =>
      obtain ⟨markerRan | same, present⟩ := deliver_marker_returns ran.sound marks
      · refine ⟨output.files ++ [marker], .inr ⟨rfl, rfl⟩, ?_, fun _ => present⟩
        apply ran.append markerRan
        intro file member other isMarker
        rw [List.mem_singleton] at isMarker
        subst isMarker
        exact apart file member
      · subst same
        exact ⟨output.files, .inl rfl, ran, fun _ => present⟩

theorem exact_of_separate (sound : disk.Sound) (separate : Separate disk directory output)
    (returns : (deliverAll output directory wanted).Returns { disk } () reached) :
    Exact output directory wanted disk reached.disk reached.written := by
  obtain ⟨files, whole, ran, present⟩ := deliver_all_runs sound separate returns
  have included : ∀ file ∈ output.files, file ∈ files := by
    intro file member
    rcases whole with rfl | ⟨_, rfl⟩
    · exact member
    · exact List.mem_append_left _ member
  have reads : ∀ file ∈ output.files,
      reached.disk.read (target directory file.path) = .ok file.content :=
    fun file member => ran.read (included file member)
  constructor
  case files => exact reads
  case marker =>
    intro isWanted
    exact lacks_eq_false_iff.mp (present isWanted)
  case frame =>
    intro other differs
    obtain ⟨file, member, stale, change⟩ := (ran.entries other).resolve_left differs
    refine ⟨file.path, ?_, change⟩
    rw [ran.listed, List.nil_append]
    apply List.mem_map_of_mem
    rw [List.mem_filter]
    exact ⟨member, decide_eq_true stale⟩
  case working => exact ran.working
  case written =>
    rw [ran.changes, List.nil_append]
    unfold asked
    rcases whole with rfl | ⟨rfl, rfl⟩
    · -- a marker that was there, or is not wanted, did not change
      have kept : found? reached.disk directory typedMarker = found? disk directory typedMarker := by
        apply ran.found_apart
        intro file member
        exact (separate.apart.2 file member).symm
      cases wanted with
      | false => simp
      | true => simp [kept]
    · rw [List.map_append, if_pos rfl]
      rfl
  case again => exact deliver_all_current reads present
  case upToDate => exact compare_current reads present

/-- If a run is written without a fault, its files have their content, what else changed is
directories around files that were written, the list is that of the changed paths, and nothing is
left to do. The marker is there if its path is not too long. -/
theorem deliverAll_exact {options : Options} {entries : List (Option Node)} {requested : List Id}
    {graph : Graph} (built : Graph.build entries requested = .ok graph)
    (ran : (generate options graph).1 = .ok output) (sound : disk.Sound)
    (separate : ('/' ∉ options.suffix.toList ∧ ∀ file ∈ output.files, file.path ≠ typedMarker) ∨
      Separate disk directory output)
    (returns : (deliverAll output directory wanted).Returns { disk } () reached) :
    Exact output directory wanted disk reached.disk reached.written ∧
      (wanted = true → '/' ∉ options.suffix.toList →
        Text.size (target directory typedMarker) ≤ longestPath →
        reached.disk.holds (target directory typedMarker) = true) := by
  obtain ⟨plan, resolved, drafts, registry, completed⟩ := Stub.completed_of_generate built ran
  obtain ⟨paths, sources⟩ := completed.file_paths
  have named : '/' ∉ options.suffix.toList → ∀ file ∈ output.files, ∃ names, names ≠ [] ∧
      (∀ name ∈ names, IsName name) ∧ file.path = Text.joinWith "/" names := by
    intro single file member
    obtain ⟨source, path⟩ := sources file member
    rw [path, Stub.Location.output_path_eq single]
    exact ⟨_, Stub.Location.output_names_some _ _, Stub.Location.output_names_proper single source, rfl⟩
  have apart : Separate disk directory output := by
    rcases separate with ⟨single, unmarked⟩ | apart
    · exact separate_of_names paths unmarked (named single)
    · exact apart
  refine ⟨exact_of_separate sound apart returns, fun isWanted single short => ?_⟩
  obtain ⟨files, whole, delivered, present⟩ := deliver_all_runs sound apart returns
  have asks := (Graph.build_ok built).2
  obtain ⟨file, member⟩ := List.exists_mem_of_ne_nil _
    (completed.files_some (asks.1 ▸ asks.2.1))
  obtain ⟨names, some, proper, path⟩ := named single file member
  have read := (exact_of_separate sound apart returns).files file member
  rw [path] at read
  exact marker_held delivered.sound some proper read (present isWanted) short

def shelf : Disk where
  entries := ⟨[(["out"], .directory), (["out", "b_capnp.pyi"], .file "old"), (["notes"], .file "mine")]⟩

theorem deliverAll_exact_shelf : ∃ output reached,
    (generate {} (Stub.mints "a" "b" [1, 3])).1 = .ok output ∧
      (deliverAll output "out" true).Returns { disk := shelf } () reached ∧
      reached.written = ["a_capnp.pyi", "b_capnp.pyi", typedMarker] ∧
      Exact output "out" true shelf reached.disk reached.written ∧
      reached.disk.holds (target "out" typedMarker) = true := by
  have built : Graph.build ((Stub.mints "a" "b" []).nodes.map some) [1, 3] =
      .ok (Stub.mints "a" "b" [1, 3]) := rfl
  obtain ⟨output, ran⟩ := except_ok_of_isOk
    (show (generate {} (Stub.mints "a" "b" [1, 3])).1.isOk = true by decide +kernel)
  have seen : (generate {} (Stub.mints "a" "b" [1, 3])).1.toOption.map (fun output =>
      (output.files.map StubFile.path,
        ((deliverAll output "out" true).outcome { disk := shelf }).1.toOption.any fun _ => true,
        ((deliverAll output "out" true).outcome { disk := shelf }).2.written)) =
        some (["a_capnp.pyi", "b_capnp.pyi"], true, ["a_capnp.pyi", "b_capnp.pyi", typedMarker]) := by
    decide +kernel
  rw [ran] at seen
  obtain ⟨paths, rest⟩ := Prod.mk.inj (Option.some.inj seen)
  have lists : ((deliverAll output "out" true).outcome { disk := shelf }).2.written = _ :=
    (Prod.mk.inj rest).2
  obtain ⟨_, reached, returns, _⟩ := Step.Returns.of_any (Prod.mk.inj rest).1
  have unmarked : ∀ file ∈ output.files, file.path ≠ typedMarker := by
    intro file member marked
    have listed := List.mem_map_of_mem (f := StubFile.path) member
    rw [paths, marked] at listed
    revert listed
    decide
  obtain ⟨exact, held⟩ := deliverAll_exact built ran (by decide : shelf.Sound)
    (.inl ⟨by decide, unmarked⟩) returns
  rw [returns] at lists
  exact ⟨output, reached, ran, returns, lists, exact, held rfl (by decide) (by decide)⟩

def ascent (count : Nat) : Route where
  rooted := false
  ups := count
  names := []
  grounded := fun absurd => nomatch absurd
  proper := List.forall_mem_nil IsName

theorem size_ups (count : Nat) (name : String) :
    Text.size (Text.joinWith "/" (List.replicate count ".." ++ [name])) = 3 * count + Text.size name := by
  induction count with
  | zero => simp [Text.joinWith]
  | succ count induction =>
      have some : List.replicate count ".." ++ [name] ≠ [] :=
        List.append_ne_nil_of_right_ne_nil _ (List.cons_ne_nil _ _)
      have step : Text.size ".." + Text.size "/" = 3 := by decide
      rw [List.replicate_succ, List.cons_append, Text.size_join_with_cons _ _ some, induction]
      omega

theorem size_ascent (count : Nat) {name : String} (proper : ∀ other ∈ [name], IsName other) :
    Text.size ((ascent count).append [name] proper).text = 3 * count + Text.size name := by
  have spelled : ((ascent count).append [name] proper).text =
      Text.joinWith "/" (List.replicate count ".." ++ [name]) := by
    unfold Route.text
    rw [Route.parts_append]
    unfold Route.parts ascent
    simp [Route.append]
  rw [spelled]
  exact size_ups count name

theorem path_fault?_ascent (count : Nat) {name : String} (proper : ∀ other ∈ [name], IsName other)
    (ended : Char.ofNat 0 ∉ name.toList) :
    pathFault? ((ascent count).append [name] proper).text =
      if longestPath < 3 * count + Text.size name then some .nameTooLong else none := by
  have clear : ∀ part ∈ (ascent count).parts ++ [name], Char.ofNat 0 ∉ part.toList := by
    rw [List.forall_mem_append, List.forall_mem_singleton]
    refine ⟨fun part member => ?_, ended⟩
    change part ∈ List.replicate count ".." ++ [] at member
    rw [List.append_nil] at member
    rw [(List.mem_replicate.mp member).2]
    decide
  rw [Disk.path_fault?_append proper clear, size_ascent]

/-- Below steps up, whatever is on the disk, a path that is too long cannot be looked at. -/
theorem lookup_ascent {count : Nat} {name : String} (proper : ∀ other ∈ [name], IsName other)
    (ended : Char.ofNat 0 ∉ name.toList) (long : longestPath < 3 * count + Text.size name) :
    disk.lookup ((ascent count).append [name] proper).text = .error .nameTooLong := by
  have fault := path_fault?_ascent count proper ended
  rw [if_pos long] at fault
  unfold Disk.lookup Disk.locate
  rw [fault]
  rfl

theorem target_ascent (count : Nat) {name : String} (proper : ∀ other ∈ [name], IsName other) :
    target (ascent count).text name = ((ascent count).append [name] proper).text :=
  Files.Path.join_names (ascent count).is_rooted_text.symm (ascent count).elements_text
    (List.cons_ne_nil _ _) proper

/-- On an empty disk steps up end at the root, where a file can be put. -/
theorem deliver_ascent {count : Nat} {name content : String} (proper : ∀ other ∈ [name], IsName other)
    (ended : Char.ofNat 0 ∉ name.toList) (fits : 3 * count + Text.size name ≤ longestPath)
    (short : Text.size name ≤ longestName) :
    ∃ after, (deliver (ascent count).text name content).Returns { disk := {} } () after ∧
      after.written = [name] := by
  have sound : ({} : Disk).Sound := by decide
  have follows : Follows ((ascent count).append [name] proper) := by
    refine ⟨List.cons_ne_nil _ _, ?_, ?_⟩
    · rw [path_fault?_ascent count proper ended, if_neg (Nat.not_lt.mpr fits)]
    · change ∀ other ∈ [name], _
      rwa [List.forall_mem_singleton]
  have around : Disk.entry? {} (Disk.spelled {} (ascent count).text) = some .directory := by
    rw [Disk.spelled_text]
    change Disk.entry? {} (Disk.base {} (ascent count) ++ []) = _
    rw [List.append_nil]
    exact Disk.base_directory sound _
  have nothing : Disk.entry? {} (Disk.spelled {} (target (ascent count).text name)) = none := by
    rw [target_ascent count proper, Disk.spelled_text]
    change Disk.entry? {} (Disk.base {} (ascent count) ++ [name]) = none
    rcases Disk.base {} (ascent count) with _ | ⟨first, rest⟩ <;> rfl
  exact ⟨_, deliver_put sound (target_ascent count proper) follows around nothing, rfl⟩

def lone : Graph where
  nodes := [{ id := 1, kind := .file, name := "a.capnp", displayName := "a.capnp" }]
  requested := [1]

theorem deliver_all_long {file : StubFile} (path : file.path = "a.pyi") {count : Nat}
    (fits : 3 * count + Text.size "a.pyi" ≤ longestPath)
    (long : longestPath < 3 * count + Text.size typedMarker) (single : output.files = [file]) :
    ∃ reached, (deliverAll output (ascent count).text true).Returns { disk := {} } () reached ∧
      reached.written = ["a.pyi"] ∧
      reached.disk.holds (target (ascent count).text typedMarker) = false := by
  have proper : ∀ other ∈ ["a.pyi"], IsName other := by
    rw [List.forall_mem_singleton]
    exact ⟨by decide, by decide, by decide, by decide⟩
  obtain ⟨middle, delivered, listed⟩ : ∃ middle,
      (deliver (ascent count).text "a.pyi" file.content).Returns { disk := {} } () middle ∧
        middle.written = ["a.pyi"] := deliver_ascent proper (by decide) fits (by decide)
  have refused : middle.disk.lookup (target (ascent count).text typedMarker) =
      .error .nameTooLong := by
    rw [target_ascent count marker_proper]
    exact lookup_ascent marker_proper (by decide) long
  have unseen : middle.disk.lacks (target (ascent count).text typedMarker) = false := by
    unfold Disk.lacks
    rw [refused]
  rw [← path] at delivered
  refine ⟨middle, ?_, listed, ?_⟩
  · unfold deliverAll
    rw [Step.Returns.bind_iff, single]
    refine ⟨(), middle, ?_, deliver_marker_present unseen⟩
    rw [Step.forM_cons, Step.Returns.bind_iff]
    exact ⟨(), middle, delivered, Step.Returns.pure_iff.mpr ⟨rfl, rfl⟩⟩
  · unfold Disk.holds
    rw [refused]
    rfl

/-- A marker whose path is too long is left out, and nothing says so. -/
theorem long_marker_left_out : ∃ output reached,
    Graph.build (lone.nodes.map some) lone.requested = .ok lone ∧
      (generate { suffix := ".pyi" } lone).1 = .ok output ∧
      output.files.map StubFile.path = ["a.pyi"] ∧ ({} : Disk).Sound ∧
      (deliverAll output (ascent 1363).text true).Returns { disk := {} } () reached ∧
      reached.written = ["a.pyi"] ∧
      reached.disk.holds (target (ascent 1363).text typedMarker) = false := by
  have built : Graph.build (lone.nodes.map some) lone.requested = .ok lone := rfl
  obtain ⟨output, ran⟩ := except_ok_of_isOk
    (show (generate { suffix := ".pyi" } lone).1.isOk = true by decide +kernel)
  have paths : (generate { suffix := ".pyi" } lone).1.toOption.map
      (fun output => output.files.map StubFile.path) = some ["a.pyi"] := by
    decide +kernel
  rw [ran] at paths
  have paths : output.files.map StubFile.path = ["a.pyi"] := Option.some.inj paths
  obtain ⟨file, single, path⟩ := List.map_eq_singleton_iff.mp paths
  have fits : 3 * 1363 + Text.size "a.pyi" ≤ longestPath := by decide
  have long : longestPath < 3 * 1363 + Text.size typedMarker := by decide
  obtain ⟨reached, returns, written, missing⟩ := deliver_all_long path fits long single
  exact ⟨output, reached, built, ran, paths, by decide, returns, written, missing⟩

end Whole

end SchemaStubs.Delivery
