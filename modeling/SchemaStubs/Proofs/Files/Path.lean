import Mathlib.Data.List.Induction
import SchemaStubs.Files.Path
import SchemaStubs.Proofs.Text.Joined

/-!
Shortest paths. A path that was cleaned goes some steps up and then some names down; putting a path
of names below another one appends its names, and the directory of a path is the path without its
last name.
-/

namespace SchemaStubs.Files.Path

structure IsName (name : String) : Prop where
  present : name ≠ ""
  moving : name ≠ "."
  downward : name ≠ ".."
  single : '/' ∉ name.toList

/-- Where a shortest path leads: up, and then down by names. There is no way up from the root. -/
structure Route where
  rooted : Bool
  ups : Nat
  names : List String
  grounded : rooted = true → ups = 0
  proper : ∀ name ∈ names, IsName name

namespace Route

def parts (route : Route) : List String :=
  List.replicate route.ups ".." ++ route.names

def text (route : Route) : String :=
  let body := Text.joinWith "/" route.parts
  if route.rooted then "/" ++ body else if route.parts = [] then "." else body

def stay (rooted : Bool) : Route where
  rooted
  ups := 0
  names := []
  grounded := fun _ => rfl
  proper := fun _ member => absurd member List.not_mem_nil

def append (route : Route) (names : List String) (proper : ∀ name ∈ names, IsName name) : Route where
  rooted := route.rooted
  ups := route.ups
  names := route.names ++ names
  grounded := route.grounded
  proper := fun name member =>
    (List.mem_append.mp member).elim (route.proper name) (proper name)

variable {route : Route} {name : String}

@[simp] theorem parts_append (route : Route) (names : List String)
    (proper : ∀ name ∈ names, IsName name) :
    (route.append names proper).parts = route.parts ++ names :=
  (List.append_assoc _ _ _).symm

@[simp] theorem rooted_append (route : Route) (names : List String)
    (proper : ∀ name ∈ names, IsName name) : (route.append names proper).rooted = route.rooted :=
  rfl

theorem part_cases (member : name ∈ route.parts) : name = ".." ∨ IsName name := by
  rcases List.mem_append.mp member with up | down
  · exact .inl (List.mem_replicate.mp up).2
  · exact .inr (route.proper name down)

theorem part_present (member : name ∈ route.parts) : name ≠ "" := by
  rcases part_cases member with rfl | proper
  · decide
  · exact proper.present

theorem part_single (member : name ∈ route.parts) : '/' ∉ name.toList := by
  rcases part_cases member with rfl | proper
  · decide
  · exact proper.single

theorem text_congr {other : Route} (rooted : route.rooted = other.rooted)
    (parts : route.parts = other.parts) : route.text = other.text := by
  unfold text
  rw [rooted, parts]

/-- The characters of a route are those of its parts, but for points and slashes. -/
theorem mem_text {c : Char} (solid : c ≠ '/') (pointless : c ≠ '.') :
    c ∈ route.text.toList ↔ ∃ part ∈ route.parts, c ∈ part.toList := by
  have outside : c ∉ "/".toList := by simpa using solid
  have body := Text.mem_join_with outside route.parts
  unfold text
  by_cases none : route.parts = []
  · cases route.rooted <;> simp [none, Text.joinWith, solid, pointless]
  · cases route.rooted <;> simp [none, solid, body]

end Route

section Enter

variable {rooted : Bool}

/-- The piece before the first slash of a rooted path adds nothing. -/
theorem enter_root (rooted : Bool) : (if rooted then [""] else []).foldl (enter rooted) [] = [] := by
  cases rooted <;> rfl

theorem enter_name {name : String} (proper : IsName name) (done : List String) :
    enter rooted done name = name :: done := by
  unfold enter
  rw [if_neg (by simp [proper.present, proper.moving]), if_neg (by simp [proper.downward])]

theorem enter_names {names : List String} (proper : ∀ name ∈ names, IsName name) (done : List String) :
    names.foldl (enter rooted) done = names.reverse ++ done := by
  induction names generalizing done with
  | nil => rfl
  | cons name rest induction =>
      rw [List.forall_mem_cons] at proper
      rw [List.foldl_cons, enter_name proper.1, induction proper.2, List.reverse_cons,
        List.append_assoc, List.singleton_append]

theorem enter_ups (count more : Nat) :
    (List.replicate count "..").foldl (enter false) (List.replicate more "..") =
      List.replicate (count + more) ".." := by
  induction count generalizing more with
  | zero => rw [List.replicate_zero, List.foldl_nil, Nat.zero_add]
  | succ count induction =>
      have step : enter false (List.replicate more "..") ".." = List.replicate (more + 1) ".." := by
        cases more with
        | zero => rfl
        | succ more => rfl
      rw [List.replicate_succ, List.foldl_cons, step, induction]
      congr 1
      omega

theorem enter_parts (route : Route) :
    route.parts.foldl (enter route.rooted) [] = route.parts.reverse := by
  unfold Route.parts
  rw [List.foldl_append, enter_names route.proper, List.reverse_append, List.reverse_replicate]
  congr 1
  by_cases fromRoot : route.rooted = true
  · rw [route.grounded fromRoot]
    rfl
  · rw [Bool.not_eq_true] at fromRoot
    rw [fromRoot]
    exact enter_ups route.ups 0

theorem enter_route (route : Route) {element : String} (single : '/' ∉ element.toList) :
    ∃ next : Route, next.rooted = route.rooted ∧
      enter route.rooted route.parts.reverse element = next.parts.reverse := by
  by_cases idle : element = "" ∨ element = "."
  · refine ⟨route, rfl, ?_⟩
    unfold enter
    rw [if_pos (by simpa using idle)]
  · rw [not_or] at idle
    by_cases up : element = ".."
    · subst up
      obtain ⟨rooted, ups, names, grounded, proper⟩ := route
      rcases List.eq_nil_or_concat names with rfl | ⟨front, last, rfl⟩
      · cases ups with
        | zero =>
            cases rooted with
            | true => exact ⟨.stay true, rfl, rfl⟩
            | false => exact ⟨⟨false, 1, [], by simp, by simp⟩, rfl, rfl⟩
        | succ ups =>
            have free : rooted = false := by
              cases rooted with
              | true => exact absurd (grounded rfl) (Nat.succ_ne_zero ups)
              | false => rfl
            subst free
            refine ⟨⟨false, ups + 2, [], by simp, by simp⟩, rfl, ?_⟩
            change enter false (List.replicate (ups + 1) ".." ++ []).reverse ".." =
              (List.replicate (ups + 2) ".." ++ []).reverse
            rw [List.append_nil, List.append_nil, List.reverse_replicate, List.reverse_replicate]
            rfl
      · have lastProper := proper last (by simp)
        refine ⟨⟨rooted, ups, front, grounded, fun name member => proper name (by simp [member])⟩,
          rfl, ?_⟩
        simp [Route.parts, enter, lastProper.downward]
    · have name : IsName element := ⟨idle.1, idle.2, up, single⟩
      refine ⟨route.append [element] (by simpa using name), rfl, ?_⟩
      rw [enter_name name, Route.parts_append, List.reverse_append]
      rfl

end Enter

theorem clean_of_parts {path : String} {route : Route} (rooted : isRooted path = route.rooted)
    (parts : elements path = route.parts) : clean path = route.text := by
  unfold clean Route.text
  rw [parts, rooted]
  by_cases none : route.parts = []
  · rw [none]
    rfl
  · have filled : Text.joinWith "/" route.parts ≠ "" :=
      Text.join_with_ne_empty none fun _ => Route.part_present
    simp [none, filled]

/-- The elements of a shortest path, and the path itself, are those of a route. -/
theorem exists_route (path : String) :
    ∃ route : Route, route.rooted = isRooted path ∧ elements path = route.parts ∧
      clean path = route.text := by
  have reached : ∀ pieces : List String, (∀ piece ∈ pieces, '/' ∉ piece.toList) →
      ∃ route : Route, route.rooted = isRooted path ∧
        pieces.foldl (enter (isRooted path)) [] = route.parts.reverse := by
    intro pieces
    induction pieces using List.reverseRecOn with
    | nil => exact fun _ => ⟨.stay _, rfl, rfl⟩
    | append_singleton pieces piece induction =>
        intro single
        obtain ⟨route, rooted, so⟩ := induction fun other member => single other (by simp [member])
        obtain ⟨next, same, step⟩ := enter_route route (single piece (by simp))
        refine ⟨next, same.trans rooted, ?_⟩
        rw [List.foldl_append, so, List.foldl_cons, List.foldl_nil, ← rooted, step]
  obtain ⟨route, rooted, whole⟩ := reached _ fun piece => Text.not_mem_of_mem_split_at
  have parts : elements path = route.parts := by
    unfold elements
    rw [whole, List.reverse_reverse]
  exact ⟨route, rooted, parts, clean_of_parts rooted.symm parts⟩

theorem is_rooted_append {front : String} (present : front ≠ "") (back : String) :
    isRooted (front ++ back) = isRooted front := by
  unfold isRooted Text.startsWith
  rw [String.toList_append]
  rcases spelled : front.toList with _ | ⟨first, rest⟩
  · exact absurd (String.toList_eq_nil_iff.mp spelled) present
  · rfl

theorem is_rooted_of_single {name : String} (single : '/' ∉ name.toList) : isRooted name = false := by
  unfold isRooted Text.startsWith
  rcases spelled : name.toList with _ | ⟨first, rest⟩
  · rfl
  · rw [spelled, List.mem_cons, not_or] at single
    simpa [List.isPrefixOf] using single.1

theorem is_rooted_join_with {names : List String} (present : ∀ name ∈ names, name ≠ "")
    (single : ∀ name ∈ names, '/' ∉ name.toList) : isRooted (Text.joinWith "/" names) = false := by
  cases names with
  | nil => rfl
  | cons first rest =>
      rw [List.forall_mem_cons] at present single
      cases rest with
      | nil => exact is_rooted_of_single single.1
      | cons next rest =>
          rw [Text.joinWith, String.append_assoc, is_rooted_append present.1]
          exact is_rooted_of_single single.1

theorem is_rooted_slash (path : String) : isRooted ("/" ++ path) = true := by
  rw [is_rooted_append (by decide)]
  rfl

theorem split_at_slash (front back : String) :
    Text.splitAt '/' (front ++ "/" ++ back) = Text.splitAt '/' front ++ Text.splitAt '/' back :=
  Text.split_at_append '/' front back

theorem split_at_slash_left (path : String) :
    Text.splitAt '/' ("/" ++ path) = "" :: Text.splitAt '/' path :=
  split_at_slash "" path

theorem split_at_slash_right (path : String) :
    Text.splitAt '/' (path ++ "/") = Text.splitAt '/' path ++ [""] := by
  have split := split_at_slash path ""
  rwa [String.append_empty] at split

namespace Route

def front (route : Route) : String :=
  (if route.rooted then "/" else "") ++
    if route.parts = [] then "" else Text.joinWith "/" route.parts ++ "/"

variable (route : Route)

theorem text_append_singleton {name : String} (proper : ∀ other ∈ [name], IsName other) :
    (route.append [name] proper).text = route.front ++ name := by
  have some : route.parts ++ [name] ≠ [] := by simp
  unfold text front
  rw [parts_append, rooted_append]
  by_cases none : route.parts = []
  · rw [none]
    cases route.rooted <;> simp [Text.joinWith]
  · rw [Text.join_with_append_singleton _ _ none]
    cases route.rooted <;> simp [none, String.append_assoc]

theorem text_append_present {name : String} (proper : ∀ other ∈ [name], IsName other) :
    (route.append [name] proper).text ≠ "" := by
  rw [text_append_singleton]
  intro empty
  rw [String.append_eq_empty_iff] at empty
  exact (proper name (List.mem_singleton_self _)).present empty.2

theorem is_rooted_front : isRooted route.front = route.rooted := by
  unfold front
  cases route.rooted with
  | true =>
      rw [if_pos rfl]
      exact is_rooted_slash _
  | false =>
      rw [if_neg Bool.false_ne_true, String.empty_append]
      by_cases none : route.parts = []
      · rw [if_pos none]
        rfl
      · have filled : Text.joinWith "/" route.parts ≠ "" :=
          Text.join_with_ne_empty none fun _ => part_present
        rw [if_neg none, is_rooted_append filled]
        exact is_rooted_join_with (fun _ => part_present) fun _ => part_single

theorem split_at_parts (some : route.parts ≠ []) :
    Text.splitAt '/' (Text.joinWith "/" route.parts) = route.parts :=
  Text.split_at_join_with some fun _ => part_single

theorem is_rooted_text : isRooted route.text = route.rooted := by
  unfold text
  cases route.rooted with
  | true => exact is_rooted_slash _
  | false =>
      by_cases none : route.parts = []
      · rw [none]
        rfl
      · rw [if_neg Bool.false_ne_true, if_neg none]
        exact is_rooted_join_with (fun _ => part_present) fun _ => part_single

theorem split_at_text : Text.splitAt '/' route.text = (if route.rooted then [""] else []) ++
    if route.parts = [] then [if route.rooted then "" else "."] else route.parts := by
  unfold text
  by_cases none : route.parts = []
  · rw [none]
    cases route.rooted <;> rfl
  · cases route.rooted with
    | true => simp [none, split_at_slash_left, route.split_at_parts none]
    | false => simp [none, route.split_at_parts none]

theorem elements_text : elements route.text = route.parts := by
  have through := enter_parts route
  unfold elements
  rw [is_rooted_text, split_at_text, List.foldl_append]
  by_cases none : route.parts = []
  · cases route.rooted <;> simp [none, enter]
  · rw [enter_root, if_neg none, through, List.reverse_reverse]

theorem elements_front : elements route.front = route.parts := by
  have pieces : Text.splitAt '/' route.front = (if route.rooted then [""] else []) ++
      if route.parts = [] then [""] else route.parts ++ [""] := by
    unfold front
    by_cases none : route.parts = []
    · rw [none]
      cases route.rooted <;> rfl
    · cases route.rooted with
      | true => simp [none, split_at_slash_left, split_at_slash_right, route.split_at_parts none]
      | false => simp [none, split_at_slash_right, route.split_at_parts none]
  have idle : ∀ done, enter route.rooted done "" = done := fun _ => rfl
  have through := enter_parts route
  unfold elements
  rw [is_rooted_front, pieces]
  by_cases none : route.parts = []
  · cases route.rooted <;> simp [none, enter]
  · rw [if_neg none, List.foldl_append, List.foldl_append, enter_root, through, List.foldl_cons,
      List.foldl_nil, idle, List.reverse_reverse]

theorem directory_append_singleton {name : String} (proper : ∀ other ∈ [name], IsName other) :
    directory (route.append [name] proper).text = route.text := by
  have single := (proper name List.mem_cons_self).single
  have cut : String.ofList ((route.front ++ name).toList.reverse.dropWhile fun c => c != '/').reverse =
      route.front := by
    have passed : ∀ c ∈ name.toList.reverse, (c != '/') = true := by
      intro c member
      rw [bne_iff_ne]
      rintro rfl
      exact single (List.mem_reverse.mp member)
    have stops : route.front.toList.reverse.dropWhile (fun c => c != '/') =
        route.front.toList.reverse := by
      unfold front
      by_cases none : route.parts = []
      · cases route.rooted <;> simp [none]
      · simp [none]
    rw [String.toList_append, List.reverse_append, List.dropWhile_append_of_pos passed, stops,
      List.reverse_reverse, String.ofList_toList]
  unfold directory
  rw [text_append_singleton, cut]
  exact clean_of_parts route.is_rooted_front route.elements_front

end Route

theorem join_cases (paths : List String) : join paths = "" ∨ ∃ route : Route, join paths = route.text := by
  unfold join
  split
  · exact .inl rfl
  · obtain ⟨route, _, _, whole⟩ := exists_route (Text.joinWith "/" (paths.filter fun path => path != ""))
    exact .inr ⟨route, whole⟩

theorem directory_route (path : String) : ∃ route : Route, directory path = route.text := by
  obtain ⟨route, _, _, whole⟩ := exists_route
    (String.ofList (path.toList.reverse.dropWhile fun c => c != '/').reverse)
  exact ⟨route, whole⟩

theorem join_names {above : String} {route : Route} (rooted : route.rooted = isRooted above)
    (parts : elements above = route.parts) {names : List String} (some : names ≠ [])
    (proper : ∀ name ∈ names, IsName name) :
    join [above, Text.joinWith "/" names] = (route.append names proper).text := by
  have whole : Text.splitAt '/' (Text.joinWith "/" names) = names :=
    Text.split_at_join_with some fun name member => (proper name member).single
  have filled : Text.joinWith "/" names ≠ "" :=
    Text.join_with_ne_empty some fun name member => (proper name member).present
  have below : isRooted (Text.joinWith "/" names) = false :=
    is_rooted_join_with (fun name member => (proper name member).present)
      fun name member => (proper name member).single
  unfold join
  by_cases none : above = ""
  · subst none
    have here : route.rooted = false := rooted
    have nothing : route.parts = [] := parts.symm
    rw [List.filter_cons_of_neg (by simp), List.filter_cons_of_pos (by simpa using filled)]
    apply clean_of_parts
    · exact below.trans here.symm
    · unfold elements
      change ((Text.splitAt '/' (Text.joinWith "/" names)).foldl
        (enter (isRooted (Text.joinWith "/" names))) []).reverse = _
      rw [whole, enter_names proper, Route.parts_append, nothing]
      simp
  · rw [List.filter_cons_of_pos (by simpa using none), List.filter_cons_of_pos (by simpa using filled)]
    change clean (above ++ "/" ++ Text.joinWith "/" names) = _
    have sameRoot : isRooted (above ++ "/" ++ Text.joinWith "/" names) = isRooted above := by
      rw [String.append_assoc, is_rooted_append none]
    apply clean_of_parts
    · exact sameRoot.trans rooted.symm
    · have reached : (Text.splitAt '/' above).foldl (enter (isRooted above)) [] =
          route.parts.reverse := by
        rw [← parts]
        exact (List.reverse_reverse _).symm
      unfold elements
      rw [sameRoot, split_at_slash, whole, List.foldl_append, reached, enter_names proper,
        Route.parts_append, List.reverse_append, List.reverse_reverse, List.reverse_reverse]

theorem join_of_names {names : List String} (some : names ≠ []) (proper : ∀ name ∈ names, IsName name) :
    join names = Text.joinWith "/" names := by
  have filled : Text.joinWith "/" names ≠ "" :=
    Text.join_with_ne_empty some fun name member => (proper name member).present
  have below : join ["", Text.joinWith "/" names] = ((Route.stay false).append names proper).text :=
    join_names rfl rfl some proper
  have whole : join ["", Text.joinWith "/" names] = clean (Text.joinWith "/" names) := by
    unfold join
    rw [List.filter_cons_of_neg (by simp), List.filter_cons_of_pos (by simpa using filled)]
    rfl
  have present : names.filter (fun name => name != "") = names := by
    rw [List.filter_eq_self]
    intro name member
    simpa using (proper name member).present
  have cleaned : join names = clean (Text.joinWith "/" names) := by
    unfold join
    rw [present]
    split
    · rename_i none
      exact absurd rfl some
    · rfl
  rw [cleaned, ← whole, below]
  unfold Route.text Route.append Route.parts Route.stay
  simp [some]

end SchemaStubs.Files.Path
