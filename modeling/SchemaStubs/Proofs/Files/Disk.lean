import SchemaStubs.Files.Disk
import SchemaStubs.Proofs.Files.Path
import SchemaStubs.Proofs.Step

/-!
Disks that are trees. On such a disk a shortest path leads to a file exactly if the file stands at
the place the path spells out; making directories changes nothing but places on the way where nothing
stood, and writing a file changes the place of the file only.
-/

namespace SchemaStubs.Files

open SchemaStubs.Files.Path (Route IsName)

namespace Disk

variable {disk : Disk} {place other : Place} {name : String} {route : Route}

/-- What stands anywhere stands in a directory, and there is a directory to work in. -/
structure Sound (disk : Disk) : Prop where
  working : disk.entry? disk.workingDirectory = some .directory
  parents : ∀ place entry, disk.entry? place = some entry →
    disk.entry? place.dropLast = some .directory

theorem entry_root (disk : Disk) : disk.entry? [] = some .directory :=
  rfl

theorem sound_iff : ( disk.entry? disk.workingDirectory = some .directory ∧
    ∀ place ∈ disk.entries.keys, disk.entry? place.dropLast = some .directory) ↔ disk.Sound := by
  constructor
  · rintro ⟨working, parents⟩
    refine ⟨working, fun place entry stands => ?_⟩
    cases place with
    | nil => exact entry_root disk
    | cons first rest =>
        apply parents
        rw [← Table.contains_iff]
        unfold Table.contains
        change disk.entries.get? (first :: rest) = some entry at stands
        rw [stands]
        rfl
  · rintro ⟨working, parents⟩
    refine ⟨working, fun place listed => ?_⟩
    rw [← Table.contains_iff] at listed
    obtain ⟨entry, stands⟩ := Option.isSome_iff_exists.mp listed
    cases place with
    | nil => exact entry_root disk
    | cons first rest => exact parents _ entry stands

instance (disk : Disk) : Decidable disk.Sound :=
  decidable_of_iff _ sound_iff

theorem entry_put (some : place ≠ []) (entry : Entry) (other : Place) :
    entry? (disk.put place entry) other = if other = place then .some entry else disk.entry? other := by
  cases other with
  | nil =>
      rw [if_neg some.symm]
      rfl
  | cons first rest => exact Table.get?_set disk.entries place (first :: rest) entry

namespace Sound

theorem parent (sound : disk.Sound) {entry : Entry}
    (stands : disk.entry? (place ++ [name]) = some entry) : disk.entry? place = some .directory := by
  have above := sound.parents _ entry stands
  rwa [List.dropLast_concat] at above

theorem on_way (sound : disk.Sound) {names : List String} (some : names ≠ []) {entry : Entry}
    (stands : disk.entry? (place ++ names) = .some entry) :
    disk.entry? place = .some .directory := by
  induction names using List.reverseRecOn generalizing entry with
  | nil => exact absurd rfl some
  | append_singleton front last induction =>
      rw [← List.append_assoc] at stands
      have above := sound.parent stands
      cases front with
      | nil => rwa [List.append_nil] at above
      | cons first front => exact induction (List.cons_ne_nil _ _) above

end Sound

def content? (disk : Disk) (place : Place) : Option String :=
  match disk.entry? place with
  | some (.file content) => some content
  | _ => none

theorem content?_eq_some_iff {content : String} :
    disk.content? place = some content ↔ disk.entry? place = some (.file content) := by
  unfold content?
  split
  · rename_i other stands
    rw [stands]
    simp
  · rename_i none
    constructor
    · intro absent
      cases absent
    · intro stands
      exact absurd stands (none content)

section Spelling

def step (place : Place) (name : String) : Place :=
  if name = "" ∨ name = "." then place else if name = ".." then place.dropLast else place ++ [name]

def spelled (disk : Disk) (path : String) : Place :=
  (Text.splitAt '/' path).foldl step (disk.start path)

def origin (disk : Disk) (rooted : Bool) : Place :=
  if rooted then [] else disk.workingDirectory

def base (disk : Disk) (route : Route) : Place :=
  (List.replicate route.ups "..").foldl step (disk.origin route.rooted)

theorem step_name (proper : IsName name) (place : Place) : step place name = place ++ [name] := by
  unfold step
  rw [if_neg (by simp [proper.present, proper.moving]), if_neg proper.downward]

theorem step_names {names : List String} (proper : ∀ name ∈ names, IsName name) (place : Place) :
    names.foldl step place = place ++ names := by
  induction names generalizing place with
  | nil => simp
  | cons name rest induction =>
      rw [List.forall_mem_cons] at proper
      rw [List.foldl_cons, step_name proper.1, induction proper.2, List.append_assoc,
        List.singleton_append]

theorem start_text (disk : Disk) (route : Route) :
    disk.start route.text = disk.origin route.rooted := by
  unfold start origin
  rw [route.is_rooted_text]

theorem idle_piece (rooted : Bool) :
    (if rooted then "" else ".") = "" ∨ (if rooted then "" else ".") = "." := by
  cases rooted <;> simp

theorem spelled_text (disk : Disk) (route : Route) :
    disk.spelled route.text = disk.base route ++ route.names := by
  have begun : ∀ place : Place, (if route.rooted then [""] else []).foldl step place = place := by
    intro place
    cases route.rooted <;> rfl
  unfold spelled
  rw [start_text, route.split_at_text, List.foldl_append, begun]
  by_cases none : route.parts = []
  · obtain ⟨ups, names⟩ := List.append_eq_nil_iff.mp none
    unfold base step
    rw [if_pos none, ups, names, List.append_nil, List.foldl_cons, if_pos (idle_piece _)]
  · rw [if_neg none]
    unfold Route.parts base
    rw [List.foldl_append, step_names route.proper]

theorem base_append (disk : Disk) (route : Route) (names : List String)
    (proper : ∀ name ∈ names, IsName name) : disk.base (route.append names proper) = disk.base route :=
  rfl

/-- A spelled place depends on nothing but the working directory. -/
theorem spelled_congr {one two : Disk} (same : one.workingDirectory = two.workingDirectory)
    (path : String) : one.spelled path = two.spelled path := by
  unfold spelled start
  rw [same]

end Spelling

section Following

theorem path_fault?_eq_none_iff {path : String} : pathFault? path = none ↔
    path ≠ "" ∧ Char.ofNat 0 ∉ path.toList ∧ Text.size path ≤ longestPath := by
  unfold pathFault?
  by_cases empty : path = ""
  · simp [empty]
  · by_cases ended : Char.ofNat 0 ∈ path.toList
    · simp [empty, ended]
    · by_cases long : longestPath < Text.size path
      · simp [empty, ended, long]
      · simp [empty, ended, long, Nat.le_of_not_lt long]

theorem follow_idle (here : disk.entry? place = some .directory) (idle : name = "" ∨ name = ".") :
    disk.follow place name = .ok place := by
  unfold follow
  rw [here]
  simp [idle]

theorem follow_up (here : disk.entry? place = some .directory) :
    disk.follow place ".." = .ok place.dropLast := by
  unfold follow
  rw [here]
  rfl

theorem follow_name (proper : IsName name) {next : Place} :
    disk.follow place name = .ok next ↔
      disk.entry? place = some .directory ∧ Text.size name ≤ longestName ∧ next = place ++ [name] := by
  unfold follow
  rcases disk.entry? place with _ | entry
  · simp
  · cases entry with
    | file content => simp
    | directory =>
        rw [if_neg (by simp [proper.present, proper.moving]), if_neg (by simp [proper.downward])]
        by_cases long : longestName < Text.size name
        · have short : ¬Text.size name ≤ longestName := by omega
          simp [long, short]
        · have short : Text.size name ≤ longestName := by omega
          simp [long, short, eq_comm]

theorem follow_ups (sound : disk.Sound) (count : Nat) (here : disk.entry? place = some .directory) :
    (List.replicate count "..").foldlM disk.follow place =
        .ok ((List.replicate count "..").foldl step place) ∧
      disk.entry? ((List.replicate count "..").foldl step place) = some .directory := by
  induction count generalizing place with
  | zero => exact ⟨rfl, here⟩
  | succ count induction =>
      have above := sound.parents place _ here
      rw [List.replicate_succ, List.foldlM_cons, List.foldl_cons, follow_up here]
      exact induction above

theorem origin_directory (sound : disk.Sound) (rooted : Bool) :
    disk.entry? (disk.origin rooted) = some .directory := by
  cases rooted with
  | true => exact entry_root disk
  | false => exact sound.working

theorem base_directory (sound : disk.Sound) (route : Route) :
    disk.entry? (disk.base route) = some .directory :=
  (follow_ups sound route.ups (origin_directory sound route.rooted)).2

/-- Following a route is following its names from where it turns down. -/
theorem locate_text (sound : disk.Sound) (route : Route) (fit : pathFault? route.text = none) :
    disk.locate route.text = route.names.foldlM disk.follow (disk.base route) := by
  have here := origin_directory sound route.rooted
  have begun : (if route.rooted then [""] else []).foldlM disk.follow (disk.origin route.rooted) =
      .ok (disk.origin route.rooted) := by
    cases route.rooted <;> rfl
  unfold locate
  rw [fit]
  change (Text.splitAt '/' route.text).foldlM disk.follow (disk.start route.text) = _
  rw [start_text, route.split_at_text, List.foldlM_append, begun]
  change List.foldlM _ _ _ = _
  by_cases none : route.parts = []
  · obtain ⟨ups, names⟩ := List.append_eq_nil_iff.mp none
    unfold base
    rw [if_pos none, ups, names, List.foldlM_cons, follow_idle here (idle_piece _)]
    rfl
  · rw [if_neg none]
    unfold Route.parts
    rw [List.foldlM_append, (follow_ups sound route.ups here).1]
    rfl

theorem follow_names (sound : disk.Sound) {front : List String} {last : String}
    (proper : ∀ name ∈ front ++ [last], IsName name) {next : Place} :
    (front ++ [last]).foldlM disk.follow place = .ok next ↔
      (∀ name ∈ front ++ [last], Text.size name ≤ longestName) ∧
        disk.entry? (place ++ front) = some .directory ∧ next = place ++ (front ++ [last]) := by
  induction front using List.reverseRecOn generalizing last next with
  | nil =>
      have single : ([] ++ [last]).foldlM disk.follow place = disk.follow place last := by
        simp [List.foldlM_cons]
      rw [single, follow_name (proper last (by simp))]
      simp
      tauto
  | append_singleton front middle induction =>
      have earlier : ∀ name ∈ front ++ [middle], IsName name :=
        fun name member => proper name (List.mem_append_left _ member)
      have lastProper := proper last (by simp)
      have single : ∀ middle : Place, [last].foldlM disk.follow middle = disk.follow middle last := by
        intro middle
        simp [List.foldlM_cons]
      rw [List.foldlM_append, except_bind_ok, List.forall_mem_append, List.forall_mem_singleton]
      simp only [single, follow_name lastProper, induction earlier]
      constructor
      · rintro ⟨_, ⟨short, _, rfl⟩, here, lastShort, rfl⟩
        exact ⟨⟨short, lastShort⟩, here, List.append_assoc _ _ _⟩
      · rintro ⟨⟨short, lastShort⟩, here, rfl⟩
        refine ⟨_, ⟨short, ?_, rfl⟩, here, lastShort, (List.append_assoc _ _ _).symm⟩
        rw [← List.append_assoc] at here
        exact sound.parent here

end Following

section Reading

/-- A route that ends with a name and is short enough to be followed. -/
structure Follows (route : Route) : Prop where
  some : route.names ≠ []
  fit : pathFault? route.text = none
  short : ∀ name ∈ route.names, Text.size name ≤ longestName

def Fits (path : String) : Prop :=
  ∃ route : Route, path = route.text ∧ Follows route

theorem locate_ok_iff (sound : disk.Sound) {front : List String} {last : String}
    (split : route.names = front ++ [last]) :
    disk.locate route.text = .ok place ↔ Follows route ∧
      disk.entry? (disk.base route ++ front) = some .directory ∧ place = disk.spelled route.text := by
  have proper := route.proper
  rw [split] at proper
  have some : route.names ≠ [] := by simp [split]
  rw [spelled_text]
  rcases fit : pathFault? route.text with _ | reason
  · rw [locate_text sound route fit, split, follow_names sound proper]
    constructor
    · rintro ⟨short, here, rfl⟩
      exact ⟨⟨some, fit, by rwa [split]⟩, here, rfl⟩
    · rintro ⟨⟨_, _, short⟩, here, rfl⟩
      exact ⟨by rwa [split] at short, here, rfl⟩
  · have refused : disk.locate route.text = .error reason := by
      unfold locate
      rw [fit]
    rw [refused]
    constructor
    · intro located
      cases located
    · rintro ⟨⟨_, fits, _⟩, _⟩
      rw [fit] at fits
      cases fits

theorem fit_above {last : String} {proper : ∀ name ∈ [last], IsName name}
    (fit : pathFault? (route.append [last] proper).text = none) : pathFault? route.text = none := by
  by_cases none : route.parts = []
  · unfold Route.text
    rw [none]
    cases route.rooted <;> decide
  · have filled : Text.joinWith "/" route.parts ≠ "" :=
      Text.join_with_ne_empty none fun _ => Route.part_present
    have front : route.front = route.text ++ "/" := by
      unfold Route.front Route.text
      cases route.rooted <;> simp [none, String.append_assoc]
    rw [Route.text_append_singleton, front, path_fault?_eq_none_iff, String.toList_append,
      String.toList_append, List.mem_append, List.mem_append] at fit
    obtain ⟨_, ended, short⟩ := fit
    rw [path_fault?_eq_none_iff]
    refine ⟨?_, fun inside => ended (.inl (.inl inside)), ?_⟩
    · unfold Route.text
      cases route.rooted <;> simp [none, filled]
    · unfold Text.size at short ⊢
      rw [String.utf8ByteSize_append, String.utf8ByteSize_append] at short
      omega

/-- A name behind a route makes a path to follow unless the path is too long. -/
theorem path_fault?_append {last : String} (proper : ∀ name ∈ [last], IsName name)
    (clear : ∀ part ∈ route.parts ++ [last], Char.ofNat 0 ∉ part.toList) :
    pathFault? (route.append [last] proper).text =
      if longestPath < Text.size (route.append [last] proper).text then some .nameTooLong else none := by
  have ended : Char.ofNat 0 ∉ (route.append [last] proper).text.toList := by
    rw [Route.mem_text (by decide) (by decide), Route.parts_append]
    rintro ⟨part, member, inside⟩
    exact clear part member inside
  unfold pathFault?
  rw [if_neg (by simpa using route.text_append_present proper), if_neg (by simpa using ended)]

theorem lookup_eq (sound : disk.Sound) (follows : Follows route) {front : List String} {last : String}
    (split : route.names = front ++ [last])
    (around : disk.entry? (disk.base route ++ front) = some .directory) :
    disk.lookup route.text = match disk.entry? (disk.spelled route.text) with
      | none => .error .missing
      | some entry => .ok entry := by
  have located := (locate_ok_iff sound split).mpr ⟨follows, around, rfl⟩
  unfold lookup
  rw [located]
  rfl

theorem lookup_ok_iff (sound : disk.Sound) (some : route.names ≠ []) {entry : Entry} :
    disk.lookup route.text = .ok entry ↔
      Follows route ∧ disk.entry? (disk.spelled route.text) = .some entry := by
  obtain ⟨front, last, split⟩ := (List.eq_nil_or_concat route.names).resolve_left some
  rw [List.concat_eq_append] at split
  constructor
  · intro found
    have seen := found
    unfold lookup at found
    rw [except_bind_ok] at found
    obtain ⟨place, located, _⟩ := found
    obtain ⟨follows, around, _⟩ := (locate_ok_iff sound split).mp located
    rw [lookup_eq sound follows split around] at seen
    refine ⟨follows, ?_⟩
    split at seen
    · cases seen
    · rename_i stands
      cases seen
      exact stands
  · rintro ⟨follows, stands⟩
    have around : disk.entry? (disk.base route ++ front) = .some .directory := by
      rw [spelled_text, split, ← List.append_assoc] at stands
      exact sound.parent stands
    rw [lookup_eq sound follows split around, stands]

theorem read_ok_iff_lookup {path content : String} :
    disk.read path = .ok content ↔ disk.lookup path = .ok (.file content) := by
  unfold read
  rw [except_bind_ok]
  constructor
  · rintro ⟨entry, found, same⟩
    cases entry with
    | file other =>
        cases same
        exact found
    | directory => cases same
  · intro found
    exact ⟨_, found, rfl⟩

theorem locate_of_nameless (sound : disk.Sound) (none : route.names = [])
    (located : disk.locate route.text = .ok place) : disk.entry? place = some .directory := by
  rcases fit : pathFault? route.text with _ | reason
  · rw [locate_text sound route fit, none] at located
    cases located
    exact base_directory sound route
  · unfold locate at located
    rw [fit] at located
    cases located

theorem read_ok_iff (sound : disk.Sound) {path content : String} (fits : Fits path) :
    disk.read path = .ok content ↔ disk.entry? (disk.spelled path) = some (.file content) := by
  obtain ⟨route, rfl, follows⟩ := fits
  rw [read_ok_iff_lookup, lookup_ok_iff sound follows.some]
  exact and_iff_right follows

theorem fits_of_read (sound : disk.Sound) {content : String}
    (read : disk.read route.text = .ok content) : Fits route.text := by
  rw [read_ok_iff_lookup] at read
  by_cases none : route.names = []
  · unfold lookup at read
    rw [except_bind_ok] at read
    obtain ⟨place, located, found⟩ := read
    rw [locate_of_nameless sound none located] at found
    cases found
  · exact ⟨route, rfl, ((lookup_ok_iff sound none).mp read).1⟩

end Reading

section Making

/-- Directories were made on the way to a place, where nothing stood; nothing else changed. -/
structure Dug (target : Place) (before after : Disk) : Prop where
  sound : after.Sound
  working : after.workingDirectory = before.workingDirectory
  entries : ∀ other, after.entry? other = before.entry? other ∨
    before.entry? other = none ∧ after.entry? other = some .directory ∧ other <+: target

namespace Dug

variable {target farther : Place} {before middle after : Disk}

theorem refl (sound : disk.Sound) : Dug target disk disk :=
  ⟨sound, rfl, fun _ => .inl rfl⟩

theorem trans (first : Dug target before middle) (second : Dug farther middle after)
    (on : target <+: farther) : Dug farther before after := by
  refine ⟨second.sound, second.working.trans first.working, fun other => ?_⟩
  rcases second.entries other with same | ⟨nothing, made, way⟩
  · rw [same]
    rcases first.entries other with same | ⟨nothing, made, way⟩
    · exact .inl same
    · exact .inr ⟨nothing, made, way.trans on⟩
  · rcases first.entries other with same | ⟨_, made, _⟩
    · exact .inr ⟨same ▸ nothing, made, way⟩
    · rw [nothing] at made
      cases made

end Dug

theorem put_sound (sound : disk.Sound) (around : disk.entry? place = some .directory) (name : String)
    {entry : Entry} (kept : disk.entry? (place ++ [name]) ≠ some .directory) :
    (disk.put (place ++ [name]) entry).Sound := by
  have some : place ++ [name] ≠ [] := by simp
  have stays : ∀ other, disk.entry? other = .some .directory →
      entry? (disk.put (place ++ [name]) entry) other = .some .directory := by
    intro other here
    rw [entry_put some, if_neg]
    · exact here
    · rintro rfl
      exact kept here
  refine ⟨stays _ sound.working, fun other found stands => stays _ ?_⟩
  rw [entry_put some] at stands
  split at stands
  · rename_i same
    rw [same, List.dropLast_concat]
    exact around
  · exact sound.parents other found stands

theorem put_directory (sound : disk.Sound) (around : disk.entry? place = some .directory)
    (nothing : disk.entry? (place ++ [name]) = none) :
    Dug (place ++ [name]) disk (disk.put (place ++ [name]) .directory) := by
  refine ⟨put_sound sound around name (by simp [nothing]), rfl, fun other => ?_⟩
  rw [entry_put (by simp)]
  by_cases same : other = place ++ [name]
  · subst same
    rw [if_pos rfl]
    exact .inr ⟨nothing, rfl, List.prefix_refl _⟩
  · rw [if_neg same]
    exact .inl rfl

theorem enter_idle (here : disk.entry? place = some .directory) (idle : name = "" ∨ name = ".") :
    disk.enter place name = .ok (disk, place) := by
  unfold enter
  rw [follow_idle here idle]
  simp only [bind, Except.bind, here]

theorem enter_up (sound : disk.Sound) (here : disk.entry? place = some .directory) :
    disk.enter place ".." = .ok (disk, place.dropLast) := by
  have above := sound.parents place _ here
  unfold enter
  rw [follow_up here]
  simp only [bind, Except.bind, above]

theorem enter_name (sound : disk.Sound) (proper : IsName name) {next : Disk}
    (entered : disk.enter place name = .ok (next, other)) :
    other = place ++ [name] ∧ Dug (place ++ [name]) disk next ∧
      next.entry? (place ++ [name]) = some .directory := by
  unfold enter at entered
  rw [except_bind_ok] at entered
  obtain ⟨reached, followed, rest⟩ := entered
  obtain ⟨around, _, rfl⟩ := (follow_name proper).mp followed
  split at rest
  · rename_i nothing
    cases rest
    refine ⟨rfl, put_directory sound around nothing, ?_⟩
    rw [entry_put (by simp), if_pos rfl]
  · rename_i here
    cases rest
    exact ⟨rfl, .refl sound, here⟩
  · cases rest

theorem descend_ups (sound : disk.Sound) (count : Nat) (here : disk.entry? place = some .directory)
    (rest : List String) : disk.descend place (List.replicate count ".." ++ rest) =
      disk.descend ((List.replicate count "..").foldl step place) rest := by
  induction count generalizing place with
  | zero => rfl
  | succ count induction =>
      have above := sound.parents place _ here
      rw [List.replicate_succ, List.cons_append, descend, enter_up sound here, List.foldl_cons]
      exact induction above

theorem descend_names (sound : disk.Sound) (here : disk.entry? place = some .directory)
    {names : List String} (proper : ∀ name ∈ names, IsName name) {next : Disk}
    (made : disk.descend place names = (.ok (), next)) :
    Dug (place ++ names) disk next ∧ next.entry? (place ++ names) = some .directory := by
  induction names generalizing disk place with
  | nil =>
      cases made
      rw [List.append_nil]
      exact ⟨.refl sound, here⟩
  | cons name rest induction =>
      rw [List.forall_mem_cons] at proper
      rw [descend] at made
      split at made
      · rename_i reached other entered
        obtain ⟨rfl, dug, stands⟩ := enter_name sound proper.1 entered
        obtain ⟨deeper, last⟩ := induction dug.sound stands proper.2 made
        rw [List.append_assoc, List.singleton_append] at deeper last
        refine ⟨dug.trans deeper ⟨rest, ?_⟩, last⟩
        rw [List.append_assoc, List.singleton_append]
      · cases made

theorem descend_standing (sound : disk.Sound) {names : List String}
    (proper : ∀ name ∈ names, IsName name) (short : ∀ name ∈ names, Text.size name ≤ longestName)
    (stands : disk.entry? (place ++ names) = some .directory) :
    disk.descend place names = (.ok (), disk) := by
  induction names generalizing place with
  | nil => rfl
  | cons name rest induction =>
      have around := sound.on_way (List.cons_ne_nil _ _) stands
      rw [List.forall_mem_cons] at proper short
      rw [← List.singleton_append, ← List.append_assoc] at stands
      have here : disk.entry? (place ++ [name]) = some .directory := by
        by_cases last : rest = []
        · rwa [last, List.append_nil] at stands
        · exact sound.on_way last stands
      have entered : disk.enter place name = .ok (disk, place ++ [name]) := by
        unfold enter
        rw [(follow_name proper.1).mpr ⟨around, short.1, rfl⟩]
        simp only [bind, Except.bind, here]
      rw [descend, entered]
      exact induction proper.2 short.2 stands

/-- Making the directories of a route is making those of its names from where it turns down. -/
theorem make_directories_text (sound : disk.Sound) (fit : pathFault? route.text = none) :
    disk.makeDirectories route.text = disk.descend (disk.base route) route.names := by
  have here := origin_directory sound route.rooted
  have begun : ∀ rest, disk.descend (disk.origin route.rooted)
      ((if route.rooted then [""] else []) ++ rest) =
        disk.descend (disk.origin route.rooted) rest := by
    intro rest
    cases route.rooted <;> rfl
  unfold makeDirectories
  rw [fit]
  change disk.descend (disk.start route.text) (Text.splitAt '/' route.text) = _
  rw [start_text, route.split_at_text, begun]
  by_cases none : route.parts = []
  · obtain ⟨ups, names⟩ := List.append_eq_nil_iff.mp none
    rw [if_pos none, descend, enter_idle here (idle_piece _)]
    unfold base
    rw [names, ups]
    rfl
  · rw [if_neg none]
    unfold Route.parts
    exact descend_ups sound route.ups here _

theorem make_directories_ok (sound : disk.Sound) {next : Disk}
    (made : disk.makeDirectories route.text = (.ok (), next)) :
    Dug (disk.spelled route.text) disk next ∧
      next.entry? (disk.spelled route.text) = some .directory := by
  rcases fit : pathFault? route.text with _ | reason
  · rw [make_directories_text sound fit] at made
    rw [spelled_text]
    exact descend_names sound (base_directory sound route) route.proper made
  · unfold makeDirectories at made
    rw [fit] at made
    cases made

/-- A file was put at a place that a path spells out, and directories around it where nothing
stood. -/
structure Wrote (path content : String) (before after : Disk) : Prop where
  sound : after.Sound
  working : after.workingDirectory = before.workingDirectory
  fits : Fits path
  stands : after.entry? (before.spelled path) = some (.file content)
  entries : ∀ other, other ≠ before.spelled path → after.entry? other = before.entry? other ∨
    before.entry? other = none ∧ after.entry? other = some .directory ∧ other <+: before.spelled path

theorem write_ok (sound : disk.Sound) {content : String} {next : Disk}
    (written : disk.write route.text content = .ok next) :
    ∃ front last, route.names = front ++ [last] ∧ Wrote route.text content disk next := by
  unfold write at written
  rw [except_bind_ok] at written
  obtain ⟨place, located, rest⟩ := written
  rcases List.eq_nil_or_concat route.names with none | ⟨front, last, split⟩
  · rw [locate_of_nameless sound none located] at rest
    cases rest
  · rw [List.concat_eq_append] at split
    obtain ⟨follows, around, rfl⟩ := (locate_ok_iff sound split).mp located
    have spelled : disk.spelled route.text = disk.base route ++ front ++ [last] := by
      rw [spelled_text, split, List.append_assoc]
    have kept : disk.entry? (disk.spelled route.text) ≠ some .directory := by
      intro here
      rw [here] at rest
      cases rest
    have put : next = disk.put (disk.spelled route.text) (.file content) := by
      split at rest
      · rename_i here
        exact absurd here kept
      · cases rest
        rfl
    have some : disk.spelled route.text ≠ [] := by simp [spelled]
    have sound' : (disk.put (disk.spelled route.text) (.file content)).Sound := by
      rw [spelled] at kept ⊢
      exact put_sound sound around last kept
    refine ⟨front, last, split, put ▸ sound', ?_, ⟨route, rfl, follows⟩, ?_, fun other apart => .inl ?_⟩
    · rw [put]
      rfl
    · rw [put, entry_put some, if_pos rfl]
    · rw [put, entry_put some, if_neg apart]

theorem write_put (sound : disk.Sound) {front : List String} {last : String}
    (split : route.names = front ++ [last]) (follows : Follows route)
    (around : disk.entry? (disk.base route ++ front) = some .directory)
    (kept : disk.entry? (disk.spelled route.text) ≠ some .directory) (content : String) :
    disk.write route.text content = .ok (disk.put (disk.spelled route.text) (.file content)) := by
  have located := (locate_ok_iff sound split).mpr ⟨follows, around, rfl⟩
  unfold write
  rw [located, except_bind_ok]
  refine ⟨_, rfl, ?_⟩
  split
  · rename_i here
    exact absurd here kept
  · rfl

/-- Directories that are made first do not count against a file that is put behind them. -/
theorem Wrote.after_dug {target : Place} {path content : String} {before middle after : Disk}
    (wrote : Wrote path content middle after) (dug : Dug target before middle)
    (on : target <+: before.spelled path) : Wrote path content before after := by
  have same := spelled_congr dug.working path
  refine ⟨wrote.sound, wrote.working.trans dug.working, wrote.fits, same ▸ wrote.stands, ?_⟩
  intro other apart
  rcases wrote.entries other (same ▸ apart) with kept | ⟨nothing, made, way⟩
  · rw [kept]
    rcases dug.entries other with kept | ⟨nothing, made, way⟩
    · exact .inl kept
    · exact .inr ⟨nothing, made, way.trans on⟩
  · rcases dug.entries other with kept | ⟨_, made', _⟩
    · exact .inr ⟨kept ▸ nothing, made, same ▸ way⟩
    · rw [nothing] at made'
      cases made'

end Making

end Disk

end SchemaStubs.Files
