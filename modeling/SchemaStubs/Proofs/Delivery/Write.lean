import SchemaStubs.Delivery.Write
import SchemaStubs.Proofs.Files.Disk

/-!
What writing files leaves on a disk. A file that has its content stays as it is; any other is put in
its place, and nothing else changes but for directories that are made around it. So a run of files
with places of their own leaves each with its content and lists those that did not have it before.
-/

namespace SchemaStubs.Delivery

open Files (Disk Place)
open Files.Disk (Fits Wrote Dug)
open Stub (StubFile)

def target (directory path : String) : String :=
  Files.Path.join [directory, path]

section Writing

variable {disk next : Disk} {path content context : String}

theorem make_directories_returns (returns : (makeDirectories path context).Returns disk () next) :
    disk.makeDirectories path = (.ok (), next) := by
  unfold makeDirectories at returns
  rw [Step.Returns, Step.outcome_function] at returns
  rcases made : disk.makeDirectories path with ⟨result, reached⟩
  rw [made] at returns
  cases result with
  | error reason => cases returns
  | ok value =>
      cases returns
      rfl

theorem put_file_returns (returns : (putFile path content context).Returns disk () next) :
    disk.write path content = .ok next := by
  unfold putFile at returns
  simp only [Step.Returns.bind_iff, Step.Returns.get_iff, Step.Returns.of_except_iff,
    Step.Returns.set_iff] at returns
  obtain ⟨_, _, ⟨rfl, rfl⟩, _, _, ⟨written, rfl⟩, rfl⟩ := returns
  rcases found : disk.write path content with reason | reached
  · rw [found] at written
    cases written
  · rw [found] at written
    cases written
    rfl

theorem write_file_returns (sound : disk.Sound)
    (joined : path = "" ∨ ∃ route : Files.Path.Route, path = route.text)
    (returns : (writeFile path content).Returns disk () next) : Wrote path content disk next := by
  unfold writeFile at returns
  rw [Step.Returns.bind_iff] at returns
  obtain ⟨_, middle, makes, puts⟩ := returns
  have made := make_directories_returns makes
  have written := put_file_returns puts
  rcases joined with rfl | ⟨route, rfl⟩
  · cases written
  · obtain ⟨around, isAround⟩ := Files.Path.directory_route route.text
    rw [isAround] at made
    obtain ⟨dug, _⟩ := Disk.make_directories_ok sound made
    obtain ⟨front, last, split, wrote⟩ := Disk.write_ok dug.sound written
    apply wrote.after_dug dug
    -- the directory is the route without its last name
    have proper := route.proper
    rw [split] at proper
    let parent : Files.Path.Route :=
      { route with
        names := front
        proper := fun name member => proper name (List.mem_append_left _ member) }
    have lastProper : ∀ name ∈ [last], Files.Path.IsName name :=
      fun name member => proper name (List.mem_append_right _ member)
    have whole : route.text = (parent.append [last] lastProper).text := by
      apply Files.Path.Route.text_congr
      · rfl
      · unfold Files.Path.Route.parts
        rw [split]
        rfl
    have above : around.text = parent.text := by
      rw [← isAround, whole]
      exact parent.directory_append_singleton lastProper
    rw [above, whole, Disk.spelled_text, Disk.spelled_text, Disk.base_append]
    change disk.base parent ++ front <+: disk.base parent ++ (front ++ [last])
    rw [← List.append_assoc]
    exact List.prefix_append _ _

theorem write_file_put (sound : disk.Sound) {route : Files.Path.Route} {last : String}
    {proper : ∀ name ∈ [last], Files.Path.IsName name}
    (follows : Disk.Follows (route.append [last] proper))
    (around : disk.entry? (disk.spelled route.text) = some .directory)
    (kept : disk.entry? (disk.spelled (route.append [last] proper).text) ≠ some .directory) :
    (writeFile (route.append [last] proper).text content).Returns disk ()
      (disk.put (disk.spelled (route.append [last] proper).text) (.file content)) := by
  have standing : disk.makeDirectories (Files.Path.directory (route.append [last] proper).text) =
      (.ok (), disk) := by
    rw [route.directory_append_singleton proper,
      Disk.make_directories_text sound (Disk.fit_above follows.fit)]
    rw [Disk.spelled_text] at around
    exact Disk.descend_standing sound route.proper
      (fun name member => follows.short name (List.mem_append_left _ member)) around
  rw [Disk.spelled_text] at around
  have put := Disk.write_put sound rfl follows around kept content
  unfold writeFile
  rw [Step.Returns.bind_iff]
  refine ⟨(), disk, ?_, ?_⟩
  · unfold makeDirectories
    rw [Step.Returns, Step.outcome_function, standing]
    rfl
  · unfold putFile
    simp only [Step.Returns.bind_iff, Step.Returns.get_iff, Step.Returns.of_except_iff,
      Step.Returns.set_iff]
    exact ⟨_, _, ⟨rfl, rfl⟩, _, _, ⟨congrArg (Except.mapError _) put, rfl⟩, rfl⟩

end Writing

section Delivering

variable {directory name content : String} {before after : Progress}

/-- A file has its content: it had it already and nothing happened, or it was written. -/
inductive Delivered (directory name content : String) (before after : Progress) : Prop where
  | current (fits : Fits (target directory name))
      (stands : before.disk.content? (before.disk.spelled (target directory name)) = some content)
      (same : after = before)
  | written (wrote : Wrote (target directory name) content before.disk after.disk)
      (stale : before.disk.content? (before.disk.spelled (target directory name)) ≠ some content)
      (listed : after.written = before.written ++ [name])

theorem is_current_iff {disk : Disk} {path : String} :
    isCurrent disk path content = true ↔ disk.read path = .ok content := by
  unfold isCurrent
  split
  · rename_i existing found
    rw [found]
    simp
  · rename_i reason found
    rw [found]
    simp

theorem deliver_returns (sound : before.disk.Sound)
    (returns : (deliver directory name content).Returns before () after) :
    Delivered directory name content before after := by
  have joined := Files.Path.join_cases [directory, name]
  change target directory name = "" ∨ ∃ route : Files.Path.Route, target directory name = route.text
    at joined
  unfold deliver at returns
  rw [Step.Returns.bind_iff] at returns
  obtain ⟨_, _, got, rest⟩ := returns
  obtain ⟨rfl, rfl⟩ := Step.Returns.get_iff.mp got
  change (if isCurrent _ (target directory name) content then _ else _ : Step Progress Unit).Returns
    _ _ _ at rest
  by_cases current : isCurrent before.disk (target directory name) content = true
  · rw [if_pos current] at rest
    have same := (Step.Returns.pure_iff.mp rest).2
    have read := is_current_iff.mp current
    have fits : Fits (target directory name) := by
      rcases joined with empty | ⟨route, whole⟩
      · rw [empty] at read
        cases read
      · rw [whole] at read ⊢
        exact Disk.fits_of_read sound read
    apply Delivered.current fits
    · rw [Disk.content?_eq_some_iff]
      exact (Disk.read_ok_iff sound fits).mp read
    · exact same.symm
  · rw [if_neg current, Step.Returns.bind_iff] at rest
    obtain ⟨_, middle, writes, lists⟩ := rest
    obtain ⟨reached, wrote, rfl⟩ := Step.Returns.on_part_iff.mp writes
    have whole := Step.Returns.modify_iff.mp lists
    have written := write_file_returns sound joined wrote
    subst whole
    apply Delivered.written written
    · intro stands
      rw [Disk.content?_eq_some_iff] at stands
      exact current (is_current_iff.mpr ((Disk.read_ok_iff sound written.fits).mpr stands))
    · rfl

theorem deliver_put (sound : before.disk.Sound) {route : Files.Path.Route} {last : String}
    {proper : ∀ name ∈ [last], Files.Path.IsName name}
    (leads : target directory name = (route.append [last] proper).text)
    (follows : Disk.Follows (route.append [last] proper))
    (around : before.disk.entry? (before.disk.spelled route.text) = some .directory)
    (nothing : before.disk.entry? (before.disk.spelled (target directory name)) = none) :
    (deliver directory name content).Returns before ()
      { disk := before.disk.put (before.disk.spelled (target directory name)) (.file content)
        written := before.written ++ [name] } := by
  have fits : Fits (target directory name) := ⟨_, leads, follows⟩
  have stale : ¬isCurrent before.disk (target directory name) content = true := by
    rw [is_current_iff, Disk.read_ok_iff sound fits, nothing]
    exact fun same => nomatch same
  unfold deliver
  rw [Step.Returns.bind_iff]
  refine ⟨before, before, Step.Returns.get_iff.mpr ⟨rfl, rfl⟩, ?_⟩
  change (if isCurrent before.disk (target directory name) content then _ else _ :
    Step Progress Unit).Returns _ _ _
  rw [if_neg stale, Step.Returns.bind_iff]
  refine ⟨(), _, Step.Returns.on_part_iff.mpr ⟨_, ?_, rfl⟩, Step.Returns.modify_iff.mpr rfl⟩
  change (writeFile (target directory name) content).Returns before.disk () _
  rw [leads] at nothing ⊢
  apply write_file_put sound follows around
  rw [nothing]
  exact fun same => nomatch same

end Delivering

end SchemaStubs.Delivery
