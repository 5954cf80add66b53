import SchemaStubs.Proofs.Naming.Distinct
import SchemaStubs.Proofs.Stub.Lexing
import SchemaStubs.Proofs.Stub.ModuleNames

/-!
The names of a stub can stand in its code. Identifiers, aliases and the names under which aliases of
other files are imported are put together from names of the schema, from names of files and from
fixed words; a name of a file is made an identifier first, so only the names inside the files have
to be free of quotes, comment marks and line ends.
-/

namespace SchemaStubs

namespace Stub

namespace Unmarked

theorem append {front back : String} (first : Unmarked front) (second : Unmarked back) :
    Unmarked (front ++ back) := by
  intro c member
  rw [String.toList_append] at member
  rcases List.mem_append.mp member with inFront | inBack
  · exact first c inFront
  · exact second c inBack

theorem concat {texts : List String} (each : ∀ text ∈ texts, Unmarked text) :
    Unmarked (Text.concat texts) := by
  intro c member
  rw [toList_concat] at member
  obtain ⟨text, listed, inside⟩ := List.mem_flatMap.mp member
  exact each text listed c inside

theorem pascal {text : String} (plain : Unmarked text) : Unmarked (Text.pascal text) := by
  intro c member mark
  have small : ∀ sign ∈ marks, 0 < sign.toNat ∧ sign.toNat < 'A'.toNat :=
    Lists.forall_of_all (by decide)
  exact Text.not_mem_pascal (small c mark) (fun inside => plain c inside mark) member

theorem identifier (text : String) : Unmarked (Text.identifier text) := by
  have none : ∀ sign ∈ marks, Text.isIdentifierChar sign = false :=
    Lists.forall_of_all (by decide)
  intro c member mark
  exact Text.not_mem_identifier (none c mark) text member

theorem number (number : Nat) : Unmarked (toString number) := by
  intro c member mark
  rw [Nat.toString_eq_ofList_toDigits, String.toList_ofList] at member
  have digit := Nat.isDigit_of_mem_toDigits (by decide) (by decide) member
  have none : ∀ sign ∈ marks, sign.isDigit = false :=
    Lists.forall_of_all (by decide)
  rw [none c mark] at digit
  cases digit

theorem safeName {name : String} (plain : Unmarked name) : Unmarked (Stub.safeName name) := by
  unfold Stub.safeName
  split
  · exact plain.append (by decide)
  · exact plain

end Unmarked

theorem unmarked_file_qualifier (file : String) : Unmarked (Location.fileQualifier file) :=
  .pascal (.identifier _)

theorem unmarked_path_qualifier (file : String) : Unmarked (Location.pathQualifier file) := by
  refine .append (.concat fun text listed => ?_) (unmarked_file_qualifier file)
  obtain ⟨directory, inside, rfl⟩ := List.mem_map.mp listed
  obtain ⟨part, _, rfl⟩ := List.mem_map.mp inside
  exact .pascal (.identifier _)

theorem unmarked_free_qualifier (taken : List String) (file : String)
    (aliases : List (Role × String)) : Unmarked (Draft.freeQualifier taken file aliases) := by
  unfold Draft.freeQualifier
  rcases found : List.find? _ _ with _ | qualifier
  · decide
  · have tried := List.mem_of_find?_eq_some found
    rcases List.mem_append.mp tried with fixed | numbered
    · simp only [List.mem_cons, List.not_mem_nil, or_false] at fixed
      rcases fixed with rfl | rfl | rfl
      · decide
      · exact unmarked_file_qualifier file
      · exact unmarked_path_qualifier file
    · obtain ⟨index, _, rfl⟩ := List.mem_map.mp numbered
      exact (unmarked_path_qualifier file).append (.number _)

end Stub

/-- A schema whose names can stand in the code of a stub and whose doc comments can stand in its
docstrings. The names of files are free. -/
structure Graph.Legible (graph : Graph) : Prop where
  nodes : ∀ node ∈ graph.nodes, node.kind ≠ .file → Stub.Unmarked node.name
  fields : ∀ node ∈ graph.nodes, ∀ field ∈ node.fields, Stub.Unmarked field.name
  enumerants : ∀ node ∈ graph.nodes, ∀ name ∈ node.enumerants, Stub.Unmarked name
  methods : ∀ node ∈ graph.nodes, ∀ method ∈ node.methods, Stub.Unmarked method.name
  arguments : ∀ node ∈ graph.nodes, ∀ method ∈ node.methods,
    ∀ field ∈ method.params ++ method.results, Stub.Unmarked field.name
  docs : ∀ node ∈ graph.nodes, Stub.Quotable node.doc
  fieldDocs : ∀ node ∈ graph.nodes, ∀ field ∈ node.fields, Stub.Quotable field.doc
  methodDocs : ∀ node ∈ graph.nodes, ∀ method ∈ node.methods, Stub.Quotable method.doc

namespace Graph.Legible

open Stub

variable {graph : Graph} {node : Node}

theorem groupField (legible : graph.Legible) {id : Id} {field : Field}
    (found : graph.groupField? id = some field) : Unmarked field.name := by
  obtain ⟨parent, isParent, listed⟩ := Graph.mem_of_group_field? found
  exact legible.fields parent isParent field listed

theorem groupName (legible : graph.Legible) (node : Node) :
    Unmarked (Registry.groupName graph node) := by
  unfold Registry.groupName
  rcases found : graph.groupField? node.id with _ | field
  · decide
  · exact legible.groupField found

theorem segment (legible : graph.Legible) (member : node ∈ graph.nodes) (inner : node.kind ≠ .file) :
    Unmarked (node.segment (Registry.groupName graph node)) := by
  have own := legible.nodes node member inner
  have around : ∀ middle ending : String, Unmarked middle → Unmarked ending →
      Unmarked ("_" ++ middle ++ ending) :=
    fun middle ending inMiddle inEnding => (Unmarked.append (by decide) inMiddle).append inEnding
  unfold Node.segment
  split
  · refine around _ _ (.pascal ?_) (by decide)
    split
    · exact own
    · exact legible.groupName node
  · split
    · exact around _ _ own (by decide)
    · exact around _ _ own (by decide)
    · exact around _ _ own (by decide)

theorem identifier (legible : graph.Legible) {internal : String}
    (identified : graph.Identifies node internal) (member : node ∈ graph.nodes) :
    Unmarked internal := by
  induction identified with
  | plain => decide
  | flattened _ _ found _ induction => exact induction (Graph.mem_of_node? found)
  | top module =>
      exact legible.segment member (Graph.kind_ne_file_of_has_module module)
  | inner module _ found _ _ induction =>
      have own := legible.segment member (Graph.kind_ne_file_of_has_module module)
      unfold Registry.qualify
      split
      · exact own
      · exact ((induction (Graph.mem_of_node? found)).append (by decide)).append own

theorem exposedName (legible : graph.Legible) (member : node ∈ graph.nodes)
    (inner : node.kind ≠ .file) : Unmarked (Stub.exposedName graph node) := by
  apply Unmarked.pascal
  rcases found : graph.groupField? node.id with _ | field
  · exact legible.nodes node member inner
  · exact legible.groupField found

theorem scopeNames (legible : graph.Legible) {names : List String}
    (found : Stub.scopeNames graph node = .ok names) : ∀ name ∈ names, Unmarked name := by
  unfold Stub.scopeNames at found
  rw [except_bind_ok] at found
  obtain ⟨scopes, around, same⟩ := found
  cases same
  intro name listed
  obtain ⟨scope, inside, rfl⟩ := List.mem_map.mp listed
  obtain ⟨member, inner⟩ := Graph.mem_ancestors around (List.mem_of_mem_filter inside)
  exact legible.exposedName member inner

theorem candidates (legible : graph.Legible) {order : Nat} {internal : String}
    {wishes : List Request} (asks : nodeRequests graph node order internal = .ok wishes)
    (member : node ∈ graph.nodes) {wish : Request} (inside : wish ∈ wishes) {base : String}
    (tried : base ∈ wish.candidates) : Unmarked base := by
  have of_parts : ∀ request : Request, Unmarked request.base → Unmarked request.fileQualifier →
      (∀ qualifier ∈ request.qualifiers, Unmarked qualifier) →
      ∀ base ∈ request.candidates, Unmarked base := by
    intro request own ofFile around base tried
    have qualified := (Unmarked.concat around).append own
    unfold Request.candidates at tried
    have listed := (List.mem_filter.mp (List.mem_eraseDups.mp tried)).1
    simp only [List.mem_cons, List.not_mem_nil, or_false] at listed
    rcases listed with rfl | rfl | rfl
    · exact own
    · exact qualified
    · exact ofFile.append qualified
  rcases node_requests_ok_iff.mp asks with ⟨_, rfl⟩ | ⟨present, file, qualifiers, _, around, rfl⟩
  · cases inside
  · have inner : node.kind ≠ .file := by
      intro isFile
      simp [aliasTargets, isFile] at present
    have own := legible.exposedName member inner
    have outer := legible.scopeNames around
    have ofFile := unmarked_file_qualifier file.name
    rcases List.mem_cons.mp inside with rfl | inMethods
    · exact of_parts (wholeRequest graph node order internal file qualifiers) own ofFile outer base
        tried
    · obtain ⟨method, exposed, rfl⟩ := List.mem_map.mp inMethods
      have declared := (mem_exposed_methods.mp exposed).2
      have stem := Unmarked.pascal (legible.methods node member method declared)
      refine of_parts (methodRequest (wholeRequest graph node order internal file qualifiers)
        internal method) stem ofFile ?_ base tried
      intro qualifier listed
      rcases List.mem_append.mp listed with enclosing | last
      · exact outer qualifier enclosing
      · cases List.mem_singleton.mp last
        exact own

theorem target (legible : graph.Legible) {order : Nat} {internal : String} {wishes : List Request}
    (asks : nodeRequests graph node order internal = .ok wishes) (member : node ∈ graph.nodes)
    (identified : graph.Identifies node internal) {wish : Request} (inside : wish ∈ wishes)
    {role : Role} {target : String} (asked : wish.targets.lookup role = some target) :
    Unmarked target := by
  have plain := legible.identifier identified member
  have behind : ∀ ending, Unmarked ending → Unmarked (internal ++ ending) :=
    fun _ => plain.append
  obtain ⟨_, own | ⟨_, method, exposed, rfl⟩⟩ := node_requests_target asks inside asked
  · unfold aliasTargets at own
    split at own
    · split at own
      · cases own
      · simp only [List.mem_cons, Prod.mk.injEq, List.not_mem_nil, or_false] at own
        rcases own with ⟨_, rfl⟩ | ⟨_, rfl⟩
        · exact behind _ (by decide)
        · exact behind _ (by decide)
    · simp only [List.mem_singleton, Prod.mk.injEq] at own
      rw [own.2]
      exact behind _ (by decide)
    · simp only [List.mem_cons, Prod.mk.injEq, List.not_mem_nil, or_false] at own
      rcases own with ⟨_, rfl⟩ | ⟨_, rfl⟩
      · exact behind _ (by decide)
      · exact behind _ (by decide)
    · cases own
  · have declared := (mem_exposed_methods.mp exposed).2
    have stem := Unmarked.pascal (legible.methods node member method declared)
    exact ((behind "." (by decide)).append stem).append (by decide)

end Graph.Legible

namespace Registry

/-- An alias is a base of the request it was given out for, followed by its role. -/
theorem resolve_sourced {before after : Registry} (fresh : before.resolved = false)
    (empty : before.aliases = []) (returns : resolve.Returns before () after) :
    ∀ entry ∈ after.aliases, ∃ wish ∈ before.requests, ∃ base ∈ wish.candidates,
      ∃ role ∈ wish.roles, entry = wish.aliasFor base role := by
  obtain ⟨served, journal, serves, rfl⟩ := resolve_returns fresh returns
  have keeps : (before.queue.forM assign).Keeps fun registry =>
      ∀ entry ∈ registry.aliases, ∃ wish ∈ before.requests, ∃ base ∈ wish.candidates,
        ∃ role ∈ wish.roles, entry = wish.aliasFor base role := by
    refine .of_forM fun wish queued registry sourced => ?_
    rcases assign_cases wish registry with same | ⟨base, tried, assigned, _⟩
    · rwa [same]
    · rw [assigned]
      intro entry member
      rcases List.mem_append.mp member with old | new
      · exact sourced entry old
      · obtain ⟨role, wanted, rfl⟩ := Request.mem_aliases_iff.mp new
        exact ⟨wish, Lists.mem_sort_by.mp queued, base, tried, role, wanted, rfl⟩
  have start : ∀ entry ∈ before.aliases, ∃ wish ∈ before.requests, ∃ base ∈ wish.candidates,
      ∃ role ∈ wish.roles, entry = wish.aliasFor base role := by
    simp [empty]
  have sourced := keeps.returns serves start
  exact sourced

end Registry

namespace Stub

variable {plan : Plan} {asked registry : Registry}

theorem Prepared.unmarked_alias (prepared : Prepared plan asked registry)
    (legible : plan.graph.Legible) {entry : Alias} (member : entry ∈ registry.aliases) :
    Unmarked entry.name ∧ Unmarked entry.target := by
  obtain ⟨wish, wished, base, tried, role, wanted, rfl⟩ :=
    Registry.resolve_sourced prepared.wished.resolved prepared.wished.aliases prepared.resolves _
      member
  obtain ⟨node, internal, order, wishes, found, identified, asks, inside, _⟩ :=
    prepared.wished.sourced wish wished
  have inGraph := Graph.mem_of_node? found
  have word : Unmarked role.word := by
    have declared := (prepared.alias_origin member).1
    have each : ∀ role ∈ declaredRoles, Unmarked role.word := by decide
    exact each role declared
  exact ⟨(legible.candidates asks inGraph inside tried).append word,
    legible.target asks inGraph identified inside (Request.lookup_target wanted)⟩

end Stub

end SchemaStubs
