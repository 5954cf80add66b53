import SchemaStubs.Delivery.Compare
import SchemaStubs.Proofs.Delivery.Write

/-!
Delivering several files. Runs over files with places of their own add up, so each file has its
content after all of them, and what was written is what was stale before. After that nothing is left
to deliver, and comparing finds no difference.
-/

namespace SchemaStubs.Delivery

open Files (Disk Place)
open Files.Disk (Fits Wrote)
open Stub (StubFile)

def place (disk : Disk) (directory path : String) : Place :=
  disk.spelled (target directory path)

def found? (disk : Disk) (directory path : String) : Option String :=
  disk.content? (place disk directory path)

/-- Some files were delivered. Where a disk changed a stale file was put, or a directory was made
around one. -/
structure Ran (directory : String) (files : List StubFile) (before after : Progress) : Prop where
  sound : after.disk.Sound
  working : after.disk.workingDirectory = before.disk.workingDirectory
  fits : ∀ file ∈ files, Fits (target directory file.path)
  stands : ∀ file ∈ files, found? after.disk directory file.path = some file.content
  listed : after.written = before.written ++
    (files.filter fun file => found? before.disk directory file.path ≠ some file.content).map
      StubFile.path
  entries : ∀ other, after.disk.entry? other = before.disk.entry? other ∨
    ∃ file ∈ files, found? before.disk directory file.path ≠ some file.content ∧
      (other = place before.disk directory file.path ∨
        before.disk.entry? other = none ∧ after.disk.entry? other = some .directory ∧
          other <+: place before.disk directory file.path)

theorem place_congr {one two : Disk} (same : one.workingDirectory = two.workingDirectory)
    (directory path : String) : place one directory path = place two directory path :=
  Disk.spelled_congr same _

namespace Ran

variable {directory : String} {files others : List StubFile} {before middle after : Progress}

theorem none (sound : before.disk.Sound) : Ran directory [] before before :=
  ⟨sound, rfl, by simp, by simp, by simp, fun _ => .inl rfl⟩

theorem of_delivered {file : StubFile} (sound : before.disk.Sound)
    (delivered : Delivered directory file.path file.content before after) :
    Ran directory [file] before after := by
  cases delivered with
  | current fits stands same =>
      subst same
      have current : found? after.disk directory file.path = some file.content := stands
      refine ⟨sound, rfl, ?_, ?_, ?_, fun _ => .inl rfl⟩
      · rwa [List.forall_mem_singleton]
      · rwa [List.forall_mem_singleton]
      · rw [List.filter_cons_of_neg (by simp [current])]
        simp
  | written wrote stale listed =>
      have stale : found? before.disk directory file.path ≠ some file.content := stale
      refine ⟨wrote.sound, wrote.working, ?_, ?_, ?_, fun other => ?_⟩
      · rw [List.forall_mem_singleton]
        exact wrote.fits
      · rw [List.forall_mem_singleton]
        unfold found?
        rw [place_congr wrote.working, Disk.content?_eq_some_iff]
        exact wrote.stands
      · rw [listed, List.filter_cons_of_pos (by simpa using stale)]
        rfl
      · by_cases here : other = place before.disk directory file.path
        · exact .inr ⟨file, List.mem_singleton_self _, stale, .inl here⟩
        · rcases wrote.entries other here with same | made
          · exact .inl same
          · exact .inr ⟨file, List.mem_singleton_self _, stale, .inr made⟩

theorem content_apart (ran : Ran directory files before after) {other : Place}
    (apart : ∀ file ∈ files, other ≠ place before.disk directory file.path) :
    after.disk.content? other = before.disk.content? other := by
  unfold Disk.content?
  rcases ran.entries other with same | ⟨file, member, _, here | ⟨nothing, made, _⟩⟩
  · rw [same]
  · exact absurd here (apart file member)
  · rw [nothing, made]

theorem found_apart (ran : Ran directory files before after) {path : String}
    (apart : ∀ file ∈ files,
      place before.disk directory path ≠ place before.disk directory file.path) :
    found? after.disk directory path = found? before.disk directory path := by
  unfold found?
  rw [place_congr ran.working]
  exact ran.content_apart apart

theorem append (first : Ran directory files before middle) (second : Ran directory others middle after)
    (apart : ∀ file ∈ files, ∀ other ∈ others,
      place before.disk directory file.path ≠ place before.disk directory other.path) :
    Ran directory (files ++ others) before after := by
  have places : ∀ path, place middle.disk directory path = place before.disk directory path :=
    place_congr first.working directory
  have untouched : ∀ other ∈ others,
      found? middle.disk directory other.path = found? before.disk directory other.path :=
    fun other inOthers => first.found_apart fun file inFiles => (apart file inFiles other inOthers).symm
  refine ⟨second.sound, second.working.trans first.working, ?_, ?_, ?_, fun other => ?_⟩
  · rw [List.forall_mem_append]
    exact ⟨first.fits, second.fits⟩
  · rw [List.forall_mem_append]
    refine ⟨fun file inFiles => ?_, second.stands⟩
    rw [second.found_apart, first.stands file inFiles]
    intro other inOthers
    rw [places, places]
    exact apart file inFiles other inOthers
  · have alike : others.filter (fun other => found? middle.disk directory other.path ≠ some other.content)
        = others.filter fun other => found? before.disk directory other.path ≠ some other.content := by
      apply List.filter_congr
      intro other inOthers
      rw [untouched other inOthers]
    rw [second.listed, first.listed, alike, List.filter_append, List.map_append, List.append_assoc]
  · rcases second.entries other with same | ⟨file, inOthers, stale, change⟩
    · rw [same]
      rcases first.entries other with same | ⟨file, inFiles, change⟩
      · exact .inl same
      · exact .inr ⟨file, List.mem_append_left _ inFiles, change⟩
    · rw [untouched file inOthers] at stale
      rw [places] at change
      rcases change with here | ⟨nothing, made, around⟩
      · exact .inr ⟨file, List.mem_append_right _ inOthers, stale, .inl here⟩
      · -- nothing stood there in the middle, so the first run did not put anything there
        have before_nothing : before.disk.entry? other = .none := by
          rcases first.entries other with same | ⟨earlier, inFiles, _, here | ⟨_, made, _⟩⟩
          · rwa [same] at nothing
          · have stands := first.stands earlier inFiles
            unfold found? at stands
            rw [places, ← here, Disk.content?_eq_some_iff, nothing] at stands
            cases stands
          · rw [nothing] at made
            cases made
        exact .inr ⟨file, List.mem_append_right _ inOthers, stale, .inr ⟨before_nothing, made, around⟩⟩

theorem changes (ran : Ran directory files before after) : after.written = before.written ++
    (files.map StubFile.path).filter fun path =>
      found? before.disk directory path ≠ found? after.disk directory path := by
  rw [ran.listed, List.filter_map]
  congr 2
  apply List.filter_congr
  intro file member
  simp only [Function.comp_apply]
  rw [ran.stands file member]

theorem read (ran : Ran directory files before after) {file : StubFile} (member : file ∈ files) :
    after.disk.read (target directory file.path) = .ok file.content := by
  rw [Disk.read_ok_iff ran.sound (ran.fits file member), ← Disk.content?_eq_some_iff]
  exact ran.stands file member

end Ran

section Running

variable {directory : String} {files : List StubFile} {before after : Progress}

theorem deliver_files (sound : before.disk.Sound)
    (apart : (files.map fun file => place before.disk directory file.path).Nodup)
    (returns : (files.forM fun file => deliver directory file.path file.content).Returns before ()
      after) : Ran directory files before after := by
  refine Step.Returns.forM_stages (fun done state => Ran directory done before state) ?_ returns
    (.none sound)
  intro done file rest whole state result next delivers ran
  apply ran.append (.of_delivered ran.sound (deliver_returns ran.sound delivers))
  intro earlier inDone other isFile
  rw [List.mem_singleton] at isFile
  subst isFile
  rw [← whole, List.map_append, List.nodup_append] at apart
  exact apart.2.2 _ (List.mem_map_of_mem inDone) _ (List.mem_map_of_mem List.mem_cons_self)

def marker : StubFile :=
  { source := "", path := typedMarker, content := "" }

theorem deliver_marker_returns (sound : before.disk.Sound)
    (returns : (deliverMarker directory).Returns before () after) :
    (Ran directory [marker] before after ∨ after = before) ∧
      after.disk.lacks (target directory typedMarker) = false := by
  unfold deliverMarker at returns
  rw [Step.Returns.bind_iff] at returns
  obtain ⟨_, _, got, rest⟩ := returns
  obtain ⟨rfl, rfl⟩ := Step.Returns.get_iff.mp got
  change (if before.disk.lacks (target directory typedMarker) then _ else _ :
    Step Progress Unit).Returns _ _ _ at rest
  by_cases lacks : before.disk.lacks (target directory typedMarker) = true
  · rw [if_pos lacks] at rest
    have ran : Ran directory [marker] before after :=
      .of_delivered sound (deliver_returns sound rest)
    have read := ran.read (List.mem_singleton_self marker)
    rw [Disk.read_ok_iff_lookup] at read
    refine ⟨.inl ran, ?_⟩
    have standing : after.disk.lookup (target directory typedMarker) = .ok (.file marker.content) := read
    unfold Disk.lacks
    rw [standing]
  · rw [if_neg lacks] at rest
    obtain ⟨_, rfl⟩ := Step.Returns.pure_iff.mp rest
    exact ⟨.inr rfl, Bool.not_eq_true _ ▸ lacks⟩

end Running

section Again

variable {disk : Disk} {directory : String} {output : Stub.Output} {wanted : Bool}

theorem deliver_current {progress : Progress} {name content : String}
    (read : progress.disk.read (target directory name) = .ok content) :
    (deliver directory name content).Returns progress () progress := by
  unfold deliver
  rw [Step.Returns.bind_iff]
  refine ⟨progress, progress, Step.Returns.get_iff.mpr ⟨rfl, rfl⟩, ?_⟩
  change (if isCurrent progress.disk (target directory name) content then _ else _ :
    Step Progress Unit).Returns _ _ _
  rw [if_pos (is_current_iff.mpr read)]
  exact Step.Returns.pure_iff.mpr ⟨rfl, rfl⟩

theorem deliver_marker_present {progress : Progress}
    (present : progress.disk.lacks (target directory typedMarker) = false) :
    (deliverMarker directory).Returns progress () progress := by
  unfold deliverMarker
  rw [Step.Returns.bind_iff]
  refine ⟨progress, progress, Step.Returns.get_iff.mpr ⟨rfl, rfl⟩, ?_⟩
  change (if progress.disk.lacks (target directory typedMarker) then _ else _ :
    Step Progress Unit).Returns _ _ _
  rw [present, if_neg Bool.false_ne_true]
  exact Step.Returns.pure_iff.mpr ⟨rfl, rfl⟩

theorem deliver_all_current {progress : Progress}
    (files : ∀ file ∈ output.files, progress.disk.read (target directory file.path) = .ok file.content)
    (present : wanted = true → progress.disk.lacks (target directory typedMarker) = false) :
    (deliverAll output directory wanted).Returns progress () progress := by
  have all : (output.files.forM fun file => deliver directory file.path file.content).Returns
      progress () progress := by
    generalize output.files = rest at files
    induction rest with
    | nil => exact Step.Returns.pure_iff.mpr ⟨rfl, rfl⟩
    | cons file rest induction =>
        rw [List.forall_mem_cons] at files
        rw [Step.forM_cons, Step.Returns.bind_iff]
        exact ⟨(), progress, deliver_current files.1, induction files.2⟩
  unfold deliverAll
  rw [Step.Returns.bind_iff]
  refine ⟨(), progress, all, ?_⟩
  cases wanted with
  | true => exact deliver_marker_present (present rfl)
  | false => exact Step.Returns.pure_iff.mpr ⟨rfl, rfl⟩

theorem compare_file_current {file : StubFile}
    (read : disk.read (target directory file.path) = .ok file.content) :
    compareFile disk directory file = .ok [] := by
  have same : differenceOf file.path file.content file.content = [] := by
    unfold differenceOf
    simp
  change disk.read (Files.Path.join [directory, file.path]) = _ at read
  unfold compareFile
  dsimp only
  rw [read]
  exact congrArg Except.ok same

theorem compare_current
    (files : ∀ file ∈ output.files, disk.read (target directory file.path) = .ok file.content)
    (present : wanted = true → disk.lacks (target directory typedMarker) = false) :
    compare output directory wanted disk = .ok [] := by
  have all : output.files.mapM (compareFile disk directory) =
      .ok (output.files.map fun _ => ([] : List Difference)) := by
    generalize output.files = rest at files
    induction rest with
    | nil => rfl
    | cons file rest induction =>
        rw [List.forall_mem_cons] at files
        rw [List.mapM_cons, compare_file_current files.1, induction files.2]
        rfl
  have marked : (if wanted = true then compareMarker disk directory else []) = [] := by
    split
    · rename_i isWanted
      unfold compareMarker
      change (if disk.lacks (target directory typedMarker) then _ else _) = _
      rw [present isWanted, if_neg Bool.false_ne_true]
    · rfl
  unfold compare
  rw [all]
  change Except.ok (_ ++ _) = _
  rw [marked]
  simp

end Again

end SchemaStubs.Delivery
