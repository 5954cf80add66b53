import Mathlib.Data.List.Pairwise
import SchemaStubs.Proofs.Stub.Declared
import SchemaStubs.Proofs.Stub.ImportNames
import SchemaStubs.Proofs.Stub.Rehearsal
import SchemaStubs.Proofs.Text.Joined

/-!
The names of a stub at its top level: what it imports, the classes and constants it declares, the
names bound to classes, the class for pointers to anything, and the aliases. A name is bound for a
node, and one node may bind a name again, so that a class, a binding and an alias of one node have
to be told apart by how they are made. For the binding and the alias of a node that takes more: the
names of the top level are kept out of the aliases, but only those of the declarations that the file
lists.
-/

namespace SchemaStubs.Stub

open Generation

def Declaration.name : Declaration → String
  | .class name _ _ _ => name
  | .method signature => signature.name
  | .annotated name _ => name
  | .typeAlias name _ => name

def moduleNames (statements : ImportSection) (imports : List Import)
    (declarations : List Declaration) (aliases : List Alias) : List String :=
  statements.library.flatMap Prod.snd ++ statements.runtime ++ imports.map Import.localName ++
    declarations.map Declaration.name ++ aliases.map Alias.name

section Binding

variable {name : String} {owner : Id}

theorem bind_ok {bindings next : Import.Bindings}
    (bound : Import.bind name owner bindings = .ok next) :
    next.get? name = some owner ∧
      ∀ other value, bindings.get? other = some value → next.get? other = some value := by
  unfold Import.bind at bound
  split at bound
  · rename_i held known
    split at bound
    · rename_i same
      cases bound
      exact ⟨same ▸ known, fun _ _ kept => kept⟩
    · cases bound
  · rename_i free
    cases bound
    refine ⟨by simp, fun other value kept => ?_⟩
    rw [Table.get?_set]
    split
    · rename_i same
      rw [same, free] at kept
      cases kept
    · exact kept

theorem bind_returns {before after : Draft}
    (returns : (Draft.bind name owner).Returns before () after) :
    after.bindings.get? name = some owner := by
  unfold Draft.bind at returns
  simp only [Step.Returns.bind_iff, Step.Returns.get_iff, Step.Returns.of_except_iff,
    Step.Returns.set_iff] at returns
  obtain ⟨_, _, ⟨rfl, rfl⟩, bindings, _, ⟨bound, rfl⟩, rfl⟩ := returns
  exact (bind_ok bound).1

structure Holding (name : String) (owner : Id) (draft : Draft) : Prop where
  resolved : draft.registry.resolved = true
  bound : draft.bindings.get? name = some owner

theorem holding_frame {plan : Plan} (located : plan.Located) (name : String) (owner : Id) :
    Frame plan (Holding name owner) where
  targets target reference known := (located target reference known).1
  markReferenced _ _ holding := { holding with }
  anyPointer _ holding := { holding with }
  importAliases _ _ _ roles _ _ _ _ :=
    import_aliases_keeps (fun _ holding => holding.resolved)
      (fun _ _ holding _ => { holding with }) (fun _ _ _ _ holding _ _ => { holding with }) roles _
  note _ _ holding := { holding with }
  markDeclared _ _ holding := { holding with }
  bind _ _ := bind_keeps fun _ _ next holding =>
    ⟨holding.resolved, (bind_ok next).2 name owner holding.bound⟩
  getAlias := get_alias_keeps fun _ holding => holding.resolved

end Binding

inductive TopName (node : Node) : String → Prop where
  | ofClass (single : node.isGroup = false) : TopName node (className (node.segment ""))
  | own (exposed : node.kind ≠ .annotationDecl) : TopName node (safeName node.name)

theorem safe_name_cases (name : String) : safeName name = name ∨ safeName name = name ++ "_" := by
  unfold safeName
  split
  · exact .inr rfl
  · exact .inl rfl

/-- The class name of a node that is no group, up to the mark of its kind. -/
theorem segment_eq {node : Node} (single : node.isGroup = false) :
    ∃ kind, node.segment "" = "_" ++ node.name ++ (kind ++ "Module") ∧
      '.' ∉ (kind ++ "Module").toList := by
  unfold Node.segment
  rw [if_neg (by simp [single])]
  split
  · exact ⟨"Enum", rfl, by decide⟩
  · exact ⟨"Interface", rfl, by decide⟩
  · exact ⟨"Struct", rfl, by decide⟩

theorem class_name_ne_safe_name {node : Node} (single : node.isGroup = false) :
    className (node.segment "") ≠ safeName node.name := by
  obtain ⟨kind, whole, plain⟩ := segment_eq single
  intro same
  by_cases dotted : '.' ∈ node.name.toList
  -- the class name has no point, but a name with a point keeps it
  · have pointless := Text.not_mem_after_last '.' (node.segment "")
    apply pointless
    have dottedClass : '.' ∈ (className (node.segment "")).toList := by
      rw [same]
      rcases safe_name_cases node.name with kept | marked
      · rwa [kept]
      · rw [marked, String.toList_append]
        exact List.mem_append_left _ dotted
    exact dottedClass
  -- without a point the class name is longer
  · have undotted : '.' ∉ (node.segment "").toList := by
      rw [whole, String.toList_append, String.toList_append, List.mem_append, List.mem_append]
      exact not_or.mpr ⟨not_or.mpr ⟨by decide, dotted⟩, plain⟩
    have longer : (node.segment "").toList.length = (safeName node.name).toList.length := by
      rw [← same, className, Text.after_last_eq_self undotted]
    rw [whole] at longer
    rcases safe_name_cases node.name with kept | marked
    · rw [kept] at longer
      simp only [String.toList_append, List.length_append] at longer
      have mark : "_".toList.length = 1 := by decide
      omega
    · rw [marked] at longer
      simp only [String.toList_append, List.length_append] at longer
      have mark : "_".toList.length = 1 := by decide
      have ending : "Module".toList.length = 6 := by decide
      omega

theorem getLast?_class_name {node : Node} (single : node.isGroup = false) :
    (className (node.segment "")).toList.getLast? = some 'e' := by
  obtain ⟨kind, whole, plain⟩ := segment_eq single
  have ending : "Module".toList.getLast? = some 'e' := by decide
  rw [whole, className, Text.after_last_append plain, String.toList_append, String.toList_append,
    ← List.append_assoc, List.getLast?_append_of_ne_nil _ (by decide), ending]

/-- At the top level of a file a node that is no group is identified by its own class name. -/
theorem identifies_top {graph : Graph} {node scope : Node} {internal : String}
    (identified : graph.Identifies node internal) (module : node.kind.hasModule = true)
    (single : node.isGroup = false) (found : graph.node? node.scope = some scope)
    (isFile : scope.kind = .file) : internal = node.segment "" := by
  have same : ∀ groupName, node.segment groupName = node.segment "" := by
    intro groupName
    simp [Node.segment, single]
  cases identified with
  | plain moduleless => rw [module] at moduleless; cases moduleless
  | flattened _ anonymous _ _ => simp [Graph.isAnonymousGroup, single] at anonymous
  | top _ _ _ _ => exact same _
  | inner _ _ found' inScope _ =>
      rw [found] at found'
      cases found'
      exact absurd isFile inScope

theorem class_name_ends_with {internal : String} (ends : Text.endsWith moduleWord internal = true) :
    Text.endsWith moduleWord (className internal) = true := by
  unfold Text.endsWith at ends
  rw [List.isSuffixOf_iff_suffix] at ends
  obtain ⟨front, whole⟩ := ends
  have split : internal = String.ofList front ++ moduleWord := by
    apply String.toList_injective
    rw [String.toList_append, String.toList_ofList, whole]
  unfold className
  rw [split, Text.after_last_append (by decide)]
  exact Text.ends_with_append (by decide)

section TopLevel

variable {plan : Plan} {registry : Registry} {file node scope : Node} {before after : Draft}

theorem Begins.standing (located : plan.Located) {start : Draft} (begins : Begins node before start)
    (standing : Standing registry file before) : Standing registry file start := by
  rcases begins with ⟨_, rfl⟩ | ⟨_, notes⟩
  · exact standing
  · exact ((standing_frame located registry file).note _).returns notes standing

/-- What a node of the top level is declared as: nothing, a constant, or a class. -/
theorem declare_node_top (located : plan.Located) (canonical : registry.Canonical plan.graph)
    (found : plan.graph.node? node.id = some node) (place : plan.graph.node? node.scope = some scope)
    (isFile : scope.kind = .file) (standing : Standing registry file before)
    {declarations : List Declaration}
    (returns : (declareNode plan node).Returns before declarations after) :
    declarations = [] ∨
      (node.kind = .const ∧ ∃ type, declarations = [.annotated (safeName node.name) type]) ∨
      (node.isGroup = false ∧ node.kind.hasModule = true ∧ ∃ bases doc body,
        declarations = [.class (className (node.segment "")) bases doc body]) := by
  obtain ⟨single, returns⟩ := declare_node_returns returns
  obtain ⟨_, _, declared⟩ := declare_from_returns returns
  have named : ∀ {start : Draft} {internal : String}, Begins node before start →
      node.kind.hasModule = true → start.registry.internal? node.id = some internal →
      internal = node.segment "" := by
    intro start internal begins module held
    rw [(begins.standing located standing).internal?] at held
    obtain ⟨other, same, identified⟩ := canonical node.id internal held
    rw [found] at same
    cases same
    exact identifies_top identified module single place isFile
  cases declared with
  | struct isStruct begins declares =>
      have module : node.kind.hasModule = true := by
        rcases isStruct with isGroup | isStruct
        · rw [single] at isGroup
          cases isGroup
        · rw [isStruct]
          rfl
      obtain ⟨internal, _, _, _, _, _, parts, rfl⟩ := declare_struct_returns declares
      rw [named begins module parts.identified]
      exact .inr (.inr ⟨single, module, _, _, _, rfl⟩)
  | enum _ isEnum begins declares =>
      have module : node.kind.hasModule = true := by rw [isEnum]; rfl
      obtain ⟨internal, identified, _, _, rfl⟩ := declare_enum_returns declares
      rw [named begins module identified]
      exact .inr (.inr ⟨single, module, _, _, _, rfl⟩)
  | interface _ isInterface begins declares =>
      have module : node.kind.hasModule = true := by rw [isInterface]; rfl
      obtain ⟨internal, _, _, _, _, parts, rfl⟩ := declare_interface_returns declares
      rw [named begins module parts.identified]
      exact .inr (.inr ⟨single, module, _, _, _, rfl⟩)
  | const _ isConst _ _ => exact .inr (.inl ⟨isConst, _, rfl⟩)
  | nothing _ _ _ => exact .inl rfl

/-- A node of the top level binds each of its names once and for itself. -/
theorem declare_top_level_names (located : plan.Located) (canonical : registry.Canonical plan.graph)
    (found : plan.graph.node? node.id = some node) (place : plan.graph.node? node.scope = some scope)
    (isFile : scope.kind = .file) (standing : Standing registry file before)
    {block : List Declaration}
    (returns : (declareTopLevel plan node).Returns before block after) :
    (block.map Declaration.name).Nodup ∧ ∀ name ∈ block.map Declaration.name,
      TopName node name ∧ after.bindings.get? name = some node.id := by
  obtain ⟨declarations, middle, blocks, declares, binds, rfl⟩ := declare_top_level_returns returns
  have frame := standing_frame located registry file
  rcases declare_node_top located canonical found place isFile standing declares with
    rfl | ⟨isConst, type, rfl⟩ | ⟨single, module, bases, doc, body, rfl⟩
  · rw [List.mapM_nil] at binds
    obtain ⟨rfl, rfl⟩ := Step.Returns.pure_iff.mp binds
    simp
  · simp only [List.mapM_cons, List.mapM_nil, bindTopLevel, Step.Returns.bind_iff,
      Step.Returns.pure_iff] at binds
    obtain ⟨_, _, ⟨_, _, bind, rfl, rfl⟩, _, _, ⟨rfl, rfl⟩, rfl, rfl⟩ := binds
    have exposed : node.kind ≠ .annotationDecl := by simp [isConst]
    simp only [List.flatten_cons, List.flatten_nil, List.append_nil, List.map_cons, List.map_nil,
      Declaration.name, List.mem_singleton, forall_eq]
    exact ⟨by simp, .own exposed, bind_returns bind⟩
  · simp only [List.mapM_cons, List.mapM_nil, bindTopLevel, Step.Returns.bind_iff,
      Step.Returns.pure_iff] at binds
    obtain ⟨_, _, ⟨_, bound, first, _, _, second, rfl, rfl⟩, _, _, ⟨rfl, rfl⟩, rfl, rfl⟩ := binds
    have exposed : node.kind ≠ .annotationDecl := by
      intro unseen
      rw [unseen] at module
      cases module
    have declared := (frame.declareNode node).returns declares standing
    have resolved := ((frame.bind _ _).returns first declared).resolved
    have kept := ((holding_frame located _ _).bind _ _).returns second
      ⟨resolved, bind_returns first⟩
    simp only [List.flatten_cons, List.flatten_nil, List.append_nil, List.map_cons, List.map_nil,
      Declaration.name, List.mem_cons, List.not_mem_nil, or_false, forall_eq_or_imp, forall_eq]
    refine ⟨?_, ⟨.ofClass single, kept.bound⟩, .own exposed, bind_returns second⟩
    rw [List.nodup_cons]
    exact ⟨by simpa using class_name_ne_safe_name single, by simp⟩

/-- The declarations of a stub with the nodes their names are bound for. -/
structure Bound (plan : Plan) (file : Node) (nodes : List Node) (declarations : List Declaration)
    (entries : List (String × Id)) (draft : Draft) : Prop where
  names : declarations.map Declaration.name = entries.map Prod.fst
  distinct : entries.Nodup
  bound : ∀ entry ∈ entries, draft.bindings.get? entry.1 = some entry.2
  origin : ∀ entry ∈ entries, (∃ node ∈ nodes, entry.2 = node.id ∧ TopName node entry.1) ∨
    entry = (anyPointerClass, file.id)

theorem Bound.append {nodes more : List Node} {declarations block : List Declaration}
    {entries : List (String × Id)} (bound : Bound plan file nodes declarations entries before)
    (owner : Id) (known : ∀ node ∈ nodes, node ∈ more)
    (kept : ∀ entry ∈ entries, after.bindings.get? entry.1 = some entry.2)
    (once : (block.map Declaration.name).Nodup) (fresh : ∀ entry ∈ entries, entry.2 ≠ owner)
    (named : ∀ name ∈ block.map Declaration.name, after.bindings.get? name = some owner)
    (origin : ∀ name ∈ block.map Declaration.name,
      (∃ node ∈ more, owner = node.id ∧ TopName node name) ∨
        (name, owner) = (anyPointerClass, file.id)) :
    Bound plan file more (declarations ++ block)
      (entries ++ (block.map Declaration.name).map fun name => (name, owner)) after where
  names := by simp [bound.names, Function.comp_def]
  distinct := by
    rw [List.nodup_append]
    refine ⟨bound.distinct, once.map fun _ _ same => (Prod.mk.inj same).1, ?_⟩
    intro entry earlier other new same
    obtain ⟨name, _, rfl⟩ := List.mem_map.mp new
    exact fresh entry earlier (by rw [same])
  bound := by
    intro entry member
    rcases List.mem_append.mp member with earlier | new
    · exact kept entry earlier
    · obtain ⟨name, listed, rfl⟩ := List.mem_map.mp new
      exact named name listed
  origin := by
    intro entry member
    rcases List.mem_append.mp member with earlier | new
    · rcases bound.origin entry earlier with ⟨node, inNodes, facts⟩ | anyPointer
      · exact .inl ⟨node, known node inNodes, facts⟩
      · exact .inr anyPointer
    · obtain ⟨name, listed, rfl⟩ := List.mem_map.mp new
      exact origin name listed

theorem nodup_top_level_nodes (distinct : plan.order.Nodup) (file : Id) :
    ((topLevelNodes plan file).map Node.id).Nodup := by
  have sublist := (List.filter_sublist (l := plan.nodes)
    (p := fun node => node.kind != .file && node.scope == file)).map Node.id
  exact (sublist.trans (filterMap_node?_sublist plan.graph plan.order)).nodup distinct

theorem mem_top_level_nodes {id : Id} (member : node ∈ topLevelNodes plan id) :
    plan.graph.node? node.id = some node ∧ node.kind ≠ .file ∧ node.scope = id := by
  obtain ⟨listed, isTop⟩ := List.mem_filter.mp member
  obtain ⟨other, _, found⟩ := List.mem_filterMap.mp listed
  rw [← Graph.id_of_node? found] at found
  exact ⟨found, by simpa using isTop⟩

/-- The declarations of a file bind their names, each name for one node. -/
theorem declare_file_bound (located : plan.Located) (canonical : registry.Canonical plan.graph)
    (distinct : plan.order.Nodup) (found : plan.graph.node? file.id = some file)
    (isFile : file.kind = .file) (standing : Standing registry file before)
    {declarations : List Declaration}
    (returns : (declareFile plan).Returns before declarations after) :
    ∃ entries, Bound plan file (topLevelNodes plan file.id) declarations entries after := by
  have frame := standing_frame located registry file
  obtain ⟨blocks, reached, extra, declares, appended, rfl⟩ := declare_file_returns returns
  rw [standing.ofFile] at declares appended
  have ids := nodup_top_level_nodes distinct file.id
  have apart : ∀ node ∈ topLevelNodes plan file.id, node.id ≠ file.id := by
    intro node member same
    obtain ⟨nodeFound, notFile, _⟩ := mem_top_level_nodes member
    rw [same, found] at nodeFound
    cases nodeFound
    exact notFile isFile
  obtain ⟨stands, entries, owned, bound⟩ := Step.Returns.mapM_stages
    (fun done blocks draft => Standing registry file draft ∧
      ∃ entries, (∀ entry ∈ entries, ∃ node ∈ done, entry.2 = node.id) ∧
        Bound plan file done blocks.flatten entries draft)
    (by
      rintro done node rest place blocks block middle next step ⟨stands, entries, owned, bound⟩
      have member : node ∈ topLevelNodes plan file.id := by simp [← place]
      obtain ⟨nodeFound, _, inFile⟩ := mem_top_level_nodes member
      obtain ⟨once, named⟩ := declare_top_level_names located canonical nodeFound
        (inFile ▸ found) isFile stands step
      refine ⟨(frame.declareTopLevel node).returns step stands,
        entries ++ (block.map Declaration.name).map fun name => (name, node.id), ?_, ?_⟩
      · intro entry listed
        rcases List.mem_append.mp listed with earlier | new
        · obtain ⟨owner, inDone, same⟩ := owned entry earlier
          exact ⟨owner, List.mem_append_left _ inDone, same⟩
        · obtain ⟨name, _, rfl⟩ := List.mem_map.mp new
          exact ⟨node, by simp, rfl⟩
      · rw [List.flatten_append, List.flatten_singleton]
        apply bound.append node.id (by simp +contextual) ?_ once ?_ (fun name listed => (named name listed).2)
        · intro name listed
          exact .inl ⟨node, by simp, rfl, (named name listed).1⟩
        · intro entry earlier
          exact (((holding_frame located _ _).declareTopLevel node).returns step
            ⟨stands.resolved, bound.bound entry earlier⟩).bound
        · intro entry earlier same
          obtain ⟨owner, inDone, own⟩ := owned entry earlier
          rw [← place, List.map_append, List.nodup_append] at ids
          exact ids.2.2 owner.id (List.mem_map_of_mem inDone) node.id (by simp) (own.symm.trans same))
    declares ⟨standing, [], by simp, rfl, List.nodup_nil, by simp, by simp⟩
  cases appended with
  | pointers _ binds declaresAny =>
      obtain ⟨_, _, _, rfl⟩ := declare_any_pointer_returns declaresAny
      have resolved := ((frame.bind _ _).returns binds stands).resolved
      refine ⟨_, bound.append file.id (fun _ listed => listed) ?_ (by simp) ?_ ?_ ?_⟩
      · intro entry earlier
        have holding := holding_frame located entry.1 entry.2
        have held := (holding.bind _ _).returns binds ⟨stands.resolved, bound.bound entry earlier⟩
        exact (holding.declareAnyPointer.returns declaresAny held).bound
      · intro entry earlier same
        obtain ⟨owner, inNodes, own⟩ := owned entry earlier
        exact apart owner inNodes (own.symm.trans same)
      · simp only [List.map_cons, List.map_nil, List.mem_singleton, forall_eq, Declaration.name]
        exact ((holding_frame located _ _).declareAnyPointer.returns declaresAny
          ⟨resolved, bind_returns binds⟩).bound
      · simp [Declaration.name]
  | nothing _ =>
      rw [List.append_nil]
      exact ⟨entries, bound⟩

end TopLevel

section Layout

variable {bindings : Import.Bindings} {imports : List Import}

theorem check_locals_ok {earlier : List Import}
    (checked : Import.checkLocals bindings earlier imports = .ok ()) :
    (∀ entry ∈ imports, bindings.get? entry.localName = none ∧
      libraryModule? entry.localName = none ∧
      ∀ other ∈ earlier, other.localName = entry.localName → other.owner = entry.owner) ∧
    imports.Pairwise fun one two => one.localName = two.localName → one.owner = two.owner := by
  induction imports generalizing earlier with
  | nil => simp
  | cons first rest induction =>
      unfold Import.checkLocals at checked
      rw [except_bind_ok] at checked
      obtain ⟨_, here, later⟩ := checked
      obtain ⟨each, pairs⟩ := induction later
      have own : bindings.get? first.localName = none ∧ libraryModule? first.localName = none ∧
          ∀ other ∈ earlier, other.localName = first.localName → other.owner = first.owner := by
        unfold Import.checkLocal at here
        split at here
        · cases here
        · rename_i unbound
          split at here
          · cases here
          · rename_i unshared
            split at here
            · cases here
            · rename_i unknown
              refine ⟨unbound, unknown, fun other member same => ?_⟩
              have kept := List.find?_eq_none.mp unshared other member
              simpa [same] using kept
      refine ⟨?_, ?_⟩
      · intro entry member
        rcases List.mem_cons.mp member with rfl | inside
        · exact own
        · obtain ⟨unbound, unknown, shared⟩ := each entry inside
          exact ⟨unbound, unknown, fun other known => shared other (List.mem_cons_of_mem _ known)⟩
      · rw [List.pairwise_cons]
        exact ⟨fun entry inside => (each entry inside).2.2 first List.mem_cons_self, pairs⟩

theorem check_used_ok {name : String} (checked : Import.checkUsed bindings name = .ok ())
    (known : (Import.knownModule? name).isSome) : bindings.get? name = none := by
  obtain ⟨fromModule, found⟩ := Option.isSome_iff_exists.mp known
  unfold Import.checkUsed at checked
  rw [found] at checked
  rcases bound : bindings.get? name with _ | owner
  · rfl
  · simp [bound] at checked

theorem gather_names (names : List (String × String)) (distinct : (names.map Prod.snd).Nodup) :
    ((ImportSection.gather names).flatMap Prod.snd).Nodup ∧
      ∀ name ∈ (ImportSection.gather names).flatMap Prod.snd, name ∈ names.map Prod.snd := by
  have listed : ∀ {fromModule name : String},
      name ∈ Text.sorted ((names.filter fun entry => entry.1 == fromModule).map Prod.snd) →
        (fromModule, name) ∈ names := by
    intro fromModule name member
    obtain ⟨entry, kept, rfl⟩ := List.mem_map.mp (Lists.mem_sort_by.mp member)
    obtain ⟨inside, same⟩ := List.mem_filter.mp kept
    have alike : entry.1 = fromModule := by simpa using same
    exact alike ▸ inside
  unfold ImportSection.gather
  rw [List.flatMap_map]
  refine ⟨?_, ?_⟩
  · rw [List.nodup_flatMap]
    refine ⟨?_, ?_⟩
    · intro fromModule _
      apply (Lists.sort_by_perm _ _).nodup_iff.mpr
      exact (List.filter_sublist.map Prod.snd).nodup distinct
    · have modules : (Text.sorted (names.map Prod.fst).eraseDups).Nodup :=
        (Lists.sort_by_perm _ _).nodup_iff.mpr (Lists.nodup_eraseDups _)
      apply modules.imp
      intro one two different name inOne inTwo
      have same := List.inj_on_of_nodup_map distinct (listed inOne) (listed inTwo) rfl
      exact different (Prod.mk.inj same).1
  · intro name member
    obtain ⟨fromModule, _, inside⟩ := List.mem_flatMap.mp member
    exact List.mem_map.mpr ⟨_, listed inside, rfl⟩

structure ImportSection.Clear (bindings : Import.Bindings) (imports : List Import)
    (statements : ImportSection) : Prop where
  library : (statements.library.flatMap Prod.snd).Nodup
  ofLibrary : ∀ name ∈ statements.library.flatMap Prod.snd,
    (libraryModule? name).isSome ∧ bindings.get? name = none
  runtime : statements.runtime.Nodup
  ofRuntime : ∀ name ∈ statements.runtime, name ∈ runtimeNames ∧ bindings.get? name = none
  locals : ∀ entry ∈ imports, bindings.get? entry.localName = none ∧
    libraryModule? entry.localName = none
  owners : ∀ one ∈ imports, ∀ two ∈ imports, one.localName = two.localName → one.owner = two.owner

theorem collect_clear {body : String} {statements : ImportSection}
    (collected : ImportSection.collect bindings imports body = .ok statements) :
    ImportSection.Clear bindings imports statements := by
  unfold ImportSection.collect at collected
  rw [except_bind_ok] at collected
  obtain ⟨_, used, collected⟩ := collected
  rw [except_bind_ok] at collected
  obtain ⟨_, checked, collected⟩ := collected
  cases collected
  have unbound := except_forM_ok used
  obtain ⟨each, pairs⟩ := check_locals_ok checked
  have identified : (identifiers body).Nodup := Lists.nodup_eraseDups _
  have found : ((identifiers body).filterMap fun name =>
      (libraryModule? name).map fun fromModule => (fromModule, name)).map Prod.snd =
        (identifiers body).filter fun name => (libraryModule? name).isSome := by
    rw [List.map_filterMap, ← List.filterMap_eq_filter]
    apply List.filterMap_congr
    intro name _
    cases known : libraryModule? name <;> simp [Option.guard, known]
  obtain ⟨once, origin⟩ := gather_names _ (by rw [found]; exact identified.filter _)
  constructor
  case library => exact once
  case ofLibrary =>
    intro name member
    have kept := origin name member
    rw [found, List.mem_filter] at kept
    refine ⟨kept.2, check_used_ok (unbound name kept.1) ?_⟩
    obtain ⟨fromModule, known⟩ := Option.isSome_iff_exists.mp kept.2
    simp [Import.knownModule?, known]
  case runtime => exact (Lists.sort_by_perm _ _).nodup_iff.mpr (identified.filter _)
  case ofRuntime =>
    intro name member
    obtain ⟨inside, isRuntime⟩ := List.mem_filter.mp (Lists.mem_sort_by.mp member)
    have ofRuntime : name ∈ runtimeNames := by simpa using isRuntime
    refine ⟨ofRuntime, check_used_ok (unbound name inside) ?_⟩
    unfold Import.knownModule?
    split
    · rfl
    · simp [ofRuntime]
  case locals =>
    intro entry member
    obtain ⟨free, unknown, _⟩ := each entry (Lists.mem_sort_by.mpr member)
    exact ⟨free, unknown⟩
  case owners =>
    intro one first two second
    have symmetric : Std.Symm fun one two : Import =>
        one.localName = two.localName → one.owner = two.owner :=
      ⟨fun _ _ same alike => (same alike.symm).symm⟩
    exact List.Pairwise.forall_of_forall (fun _ _ _ => rfl) pairs (Lists.mem_sort_by.mpr first)
      (Lists.mem_sort_by.mpr second)

/-- Laying out binds the aliases of the file and keeps what was bound. -/
theorem lay_out_bound {plan : Plan} (located : plan.Located) {declarations : List Declaration}
    {before after : Draft} {content : String} (resolved : before.registry.resolved = true)
    (returns : (layOut plan declarations).Returns before content after) :
    ∃ bindings statements, ImportSection.collect bindings after.imports
        (renderLines (bodyLines declarations (fileAliases before.registry before.file.id))) =
          .ok statements ∧
      content = renderLines (fileLines plan.options before.file.name statements
        (bodyLines declarations (fileAliases before.registry before.file.id))) ∧
      (∀ name owner, before.bindings.get? name = some owner →
        bindings.get? name = some owner) ∧
      ∀ entry ∈ fileAliases before.registry before.file.id,
        bindings.get? entry.name = some entry.subject.node := by
  unfold layOut at returns
  simp only [Step.Returns.bind_iff, Step.Returns.get_iff, Step.Returns.of_except_iff] at returns
  obtain ⟨_, _, ⟨rfl, rfl⟩, _, reached, binds, _, _, ⟨rfl, rfl⟩, statements, _, ⟨collected, rfl⟩, _,
    noted, notes, last⟩ := returns
  obtain ⟨rfl, rfl⟩ := Step.Returns.pure_iff.mp last
  unfold Draft.note Draft.inRegistry at notes
  obtain ⟨_, _, rfl⟩ := Step.Returns.on_part_iff.mp notes
  refine ⟨reached.bindings, statements, collected, rfl, ?_, ?_⟩
  · intro name owner held
    have keeps : ((fileAliases before.registry before.file.id).forM fun entry =>
        Draft.bind entry.name entry.subject.node).Keeps (Holding name owner) :=
      .of_forM fun entry _ => (holding_frame located name owner).bind _ _
    exact (keeps.returns binds ⟨resolved, held⟩).bound
  · refine (Step.Returns.forM_stages
      (fun done draft => draft.registry.resolved = true ∧
        ∀ entry ∈ done, draft.bindings.get? entry.name = some entry.subject.node) ?_ binds
      ⟨resolved, by simp⟩).2
    rintro done entry rest _ middle _ next step ⟨stillResolved, held⟩
    have kept : ∀ name owner, middle.bindings.get? name = some owner →
        Holding name owner next := fun name owner bound =>
      ((holding_frame located name owner).bind _ _).returns step ⟨stillResolved, bound⟩
    have resolvedNext : next.registry.resolved = true := by
      have keeps : (Draft.bind entry.name entry.subject.node).Keeps fun draft =>
          draft.registry.resolved = true := bind_keeps fun _ _ _ resolved => resolved
      exact keeps.returns step stillResolved
    refine ⟨resolvedNext, fun other member => ?_⟩
    rcases List.mem_append.mp member with earlier | last
    · exact (kept _ _ (held other earlier)).bound
    · cases List.mem_singleton.mp last
      exact bind_returns step

/-- A text that was composed comes from declarations that were found and then laid out. -/
theorem compose_returns {plan : Plan} {file : Node} (located : plan.Located) {registry current : Registry}
    {content : String} {draft : Draft} (fresh : Standing registry file { registry := current, file })
    (composes : (compose plan file).Returns { registry := current, file } content draft) :
    ∃ declarations declared statements bindings,
      (declareFile plan).Returns { registry := current, file } declarations declared ∧
      (layOut plan declarations).Returns declared content draft ∧
      ImportSection.collect bindings draft.imports
        (renderLines (bodyLines declarations (fileAliases registry file.id))) = .ok statements ∧
      content = renderLines (fileLines plan.options file.name statements
        (bodyLines declarations (fileAliases registry file.id))) := by
  obtain ⟨declarations, declared, declares, lays⟩ := compose_iff.mp composes
  have stands := (standing_frame located registry file).declareFile.returns declares fresh
  obtain ⟨bindings, statements, collected, laidOut, _, _⟩ :=
    lay_out_bound located stands.resolved lays
  rw [stands.ofFile, file_aliases_congr stands.aliases] at collected laidOut
  exact ⟨declarations, declared, statements, bindings, declares, lays, collected, laidOut⟩

end Layout

section Aliases

def declaredRoles : List Role :=
  [.reader, .builder, .client, .server, .result, .enum]

/-- The aliases of a node are in the known roles, and only nodes that become classes have any. -/
theorem alias_targets_declared {graph : Graph} {node : Node} {internal : String} {role : Role}
    {target : String} (listed : (role, target) ∈ aliasTargets graph node internal) :
    role ∈ declaredRoles ∧ node.kind.hasModule = true := by
  unfold aliasTargets at listed
  split at listed
  · rename_i isStruct
    split at listed
    · cases listed
    · simp only [List.mem_cons, Prod.mk.injEq, List.not_mem_nil, or_false] at listed
      rcases listed with ⟨rfl, _⟩ | ⟨rfl, _⟩ <;> exact ⟨by decide, by rw [isStruct]; rfl⟩
  · rename_i isEnum
    simp only [List.mem_singleton, Prod.mk.injEq] at listed
    exact ⟨by rw [listed.1]; decide, by rw [isEnum]; rfl⟩
  · rename_i isInterface
    simp only [List.mem_cons, Prod.mk.injEq, List.not_mem_nil, or_false] at listed
    rcases listed with ⟨rfl, _⟩ | ⟨rfl, _⟩ <;> exact ⟨by decide, by rw [isInterface]; rfl⟩
  · cases listed

/-- Requests are made for nodes that become classes, in the known roles. -/
theorem node_requests_roles {graph : Graph} {node : Node} {order : Nat} {internal : String}
    {wishes : List Request} (asks : nodeRequests graph node order internal = .ok wishes)
    {wish : Request} (member : wish ∈ wishes) {role : Role} {target : String}
    (asked : wish.targets.lookup role = some target) :
    role ∈ declaredRoles ∧ node.kind.hasModule = true := by
  obtain ⟨present, cases⟩ := node_requests_target asks member asked
  rcases cases with own | ⟨rfl, _⟩
  · exact alias_targets_declared own
  · obtain ⟨first, listed⟩ := List.exists_mem_of_ne_nil _ present
    exact ⟨by decide, (alias_targets_declared listed).2⟩

theorem getLast?_role {role : Role} (declared : role ∈ declaredRoles) (base : String) :
    (base ++ role.word).toList.getLast? ≠ some 'e' := by
  have word : role.word.toList ≠ [] ∧ role.word.toList.getLast? ≠ some 'e' := by
    revert role
    decide
  rw [String.toList_append, List.getLast?_append_of_ne_nil _ word.1]
  exact word.2

variable {plan : Plan} {asked registry : Registry}

theorem Prepared.alias_origin (prepared : Prepared plan asked registry) {entry : Alias}
    (member : entry ∈ registry.aliases) :
    entry.role ∈ declaredRoles ∧ (∃ base, entry.name = base ++ entry.role.word) ∧
      ∃ node, plan.graph.node? entry.subject.node = some node ∧ node.kind.hasModule = true := by
  obtain ⟨wish, wished, ofSubject, _, target⟩ := prepared.coherent.origin entry member
  rw [(Registry.resolve_requests prepared.wished.resolved prepared.resolves).1] at wished
  obtain ⟨node, internal, order, wishes, found, _, asks, inside, _⟩ :=
    prepared.wished.sourced wish wished
  obtain ⟨declared, module⟩ := node_requests_roles asks inside target
  have lettered : asked.Lettered := by simp [Registry.Lettered, prepared.wished.aliases]
  exact ⟨declared, Registry.resolve_lettered.returns prepared.resolves lettered entry member,
    node, ofSubject ▸ found, module⟩

/-- A name that a file lists at its top level is no alias of the file. -/
theorem Prepared.alias_ne_top_level (prepared : Prepared plan asked registry) {file : Node}
    (requested : file.id ∈ plan.graph.requested) (inFile : plan.graph.file file.id = .ok file)
    {name : String} (listed : name ∈ topLevelNames plan.graph file) {entry : Alias}
    (member : entry ∈ registry.aliases) (ofFile : entry.file = file.id) : entry.name ≠ name := by
  have declaring : file ∈ declaringFiles plan.graph plan.order :=
    mem_declaring_files_iff.mpr ⟨file.id, prepared.requested file.id requested, inFile⟩
  have withheld : Registry.Withheld file.id name asked := by
    refine ⟨prepared.wished.kept file declaring name listed, ?_⟩
    simp [prepared.wished.aliases]
  have kept := (Registry.resolve_withheld file.id name).returns prepared.resolves withheld
  exact fun same => kept.2 entry member ⟨ofFile, same⟩

theorem nodup_file_aliases (coherent : registry.Coherent) (file : Id) :
    ((fileAliases registry file).map Alias.name).Nodup := by
  have keys : ((fileAliases registry file).map fun entry => (entry.file, entry.name)).Nodup := by
    apply (List.filter_sublist.map _).nodup
    exact ((Lists.sort_by_perm _ _).map _).nodup_iff.mpr coherent.names
  refine List.Nodup.map_on ?_ (List.Nodup.of_map _ keys)
  intro one first two second same
  apply List.inj_on_of_nodup_map keys first second
  have oneFile : one.file = file := by simpa using (List.mem_filter.mp first).2
  have twoFile : two.file = file := by simpa using (List.mem_filter.mp second).2
  rw [same, oneFile, twoFile]

end Aliases

section Stub

variable {plan : Plan} {asked registry : Registry} {file : Node}

/-- The names of the declarations and of the aliases of a stub are told apart by the nodes they are
bound for, and for one node by how they are made. -/
theorem nodup_own_names (prepared : Prepared plan asked registry)
    (requested : file.id ∈ plan.graph.requested) (inFile : plan.graph.file file.id = .ok file)
    (listed : ∀ node ∈ plan.graph.nodes, node.kind ≠ .file → node.scope = file.id →
      node.id ∈ file.nested)
    {declarations : List Declaration} {entries : List (String × Id)} {draft : Draft}
    (bound : Bound plan file (topLevelNodes plan file.id) declarations entries draft)
    {bindings : Import.Bindings}
    (kept : ∀ name owner, draft.bindings.get? name = some owner → bindings.get? name = some owner)
    (exposed : ∀ entry ∈ fileAliases registry file.id,
      bindings.get? entry.name = some entry.subject.node) :
    (declarations.map Declaration.name ++ (fileAliases registry file.id).map Alias.name).Nodup := by
  have held : ∀ entry ∈ entries, bindings.get? entry.1 = some entry.2 :=
    fun entry member => kept _ _ (bound.bound entry member)
  rw [bound.names, List.nodup_append]
  refine ⟨?_, nodup_file_aliases prepared.coherent file.id, ?_⟩
  · refine List.Nodup.map_on ?_ bound.distinct
    intro one first two second same
    have owners := held one first
    rw [same, held two second] at owners
    exact Prod.ext same (Option.some.inj owners).symm
  · intro name declared other exposedName same
    subst same
    obtain ⟨declaredEntry, inEntries, rfl⟩ := List.mem_map.mp declared
    obtain ⟨entry, inAliases, named⟩ := List.mem_map.mp exposedName
    have owner : declaredEntry.2 = entry.subject.node := by
      have once := held declaredEntry inEntries
      rw [← named, exposed entry inAliases] at once
      exact (Option.some.inj once).symm
    obtain ⟨inTable, sameFile⟩ := List.mem_filter.mp inAliases
    have assigned : entry ∈ registry.aliases := Lists.mem_sort_by.mp inTable
    obtain ⟨declaredRole, ⟨base, spelled⟩, subject, subjectFound, module⟩ :=
      prepared.alias_origin assigned
    rcases bound.origin declaredEntry inEntries with ⟨node, inNodes, _, topName⟩ | anyPointer
    · obtain ⟨nodeFound, notFile, inScope⟩ := mem_top_level_nodes inNodes
      generalize declaredEntry.1 = name at topName named
      cases topName with
      | ofClass single =>
          apply getLast?_role declaredRole base
          rw [← spelled, named]
          exact getLast?_class_name single
      | own visible =>
          have inFileNames : safeName node.name ∈ topLevelNames plan.graph file := by
            have nested := listed node (Graph.mem_of_node? nodeFound) notFile inScope
            refine List.mem_map.mpr ⟨node, List.mem_filter.mpr ⟨?_, by simpa using visible⟩, rfl⟩
            exact List.mem_filterMap.mpr ⟨node.id, nested, nodeFound⟩
          exact prepared.alias_ne_top_level requested inFile inFileNames assigned
            (by simpa using sameFile) named
    -- the class for pointers to anything is bound for the file, and no alias is one of a file
    · have ofFile : entry.subject.node = file.id := by rw [← owner, anyPointer]
      rw [ofFile, Graph.node?_of_file inFile] at subjectFound
      cases subjectFound
      rw [Graph.kind_of_file inFile] at module
      cases module

/-- The imports of a stub have names of their own: one name is imported for one node, a node is
imported from one module, and a module has one import under a name. -/
theorem nodup_import_names {imports : List Import} {aliases : List Alias}
    (imported : ∀ entry ∈ imports, Imported plan file aliases entry)
    (keyed : (imports.map fun entry => (entry.fromModule, entry.localName)).Nodup)
    (owners : ∀ one ∈ imports, ∀ two ∈ imports, one.localName = two.localName →
      one.owner = two.owner) : (imports.map Import.localName).Nodup := by
  refine List.Nodup.map_on ?_ (List.Nodup.of_map _ keyed)
  intro one first two second same
  have owner := owners one first two second same
  obtain ⟨oneFile, oneDeclared, oneModule, _⟩ := imported one first
  obtain ⟨twoFile, twoDeclared, twoModule, _⟩ := imported two second
  rw [owner, twoDeclared] at oneDeclared
  cases oneDeclared
  apply List.inj_on_of_nodup_map keyed first second
  rw [oneModule, twoModule, same]

theorem Composed.renamed (prepared : Prepared plan asked registry) {drafted : Drafted}
    {draft : Draft} (composed : Composed plan registry drafted draft) :
    Renaming draft ∧ ∀ entry ∈ draft.imports, Imported plan drafted.file registry.aliases entry := by
  obtain ⟨_, _, _, current, fresh, composes⟩ := composed
  have located := prepared.plan_located
  have frame : Frame plan (Drafting plan drafted.file registry.aliases) := drafting_frame located
  constructor
  · apply ((renaming_frame located).compose drafted.file).returns composes
    exact ⟨fresh.resolved, (fun _ _ known => nomatch known), by simp, by simp⟩
  · exact ((frame.compose drafted.file).returns composes
      ⟨fresh.ofFile, fresh.resolved, fresh.aliases, by simp⟩).imports

def importedNames (statements : ImportSection) (imports : List Import) : List String :=
  statements.library.flatMap Prod.snd ++ statements.runtime ++ imports.map Import.localName

/-- The imports of a stub bind no name twice: a name of the standard library is none of the runtime,
and a name imported from another stub is neither. -/
theorem ImportSection.Clear.nodup_imported_names {bindings : Import.Bindings} {draft : Draft}
    {statements : ImportSection} {aliases : List Alias}
    (clear : statements.Clear bindings draft.imports) (named : Renaming draft)
    (imported : ∀ entry ∈ draft.imports, Imported plan file aliases entry) :
    (importedNames statements draft.imports).Nodup := by
  have libraryApart : ∀ name, (libraryModule? name).isSome → name ∉ runtimeNames := by
    intro name known inRuntime
    have none : ∀ name ∈ runtimeNames, libraryModule? name = none := by decide
    rw [none name inRuntime] at known
    cases known
  unfold importedNames
  rw [List.nodup_append, List.nodup_append]
  refine ⟨⟨clear.library, clear.runtime, ?_⟩,
    nodup_import_names imported named.keyed clear.owners, ?_⟩
  · intro name ofLibrary other ofRuntime same
    subst same
    exact libraryApart name (clear.ofLibrary name ofLibrary).1 (clear.ofRuntime name ofRuntime).1
  · intro name standard other relative same
    subst same
    obtain ⟨entry, member, rfl⟩ := List.mem_map.mp relative
    rcases List.mem_append.mp standard with ofLibrary | ofRuntime
    · have known := (clear.ofLibrary _ ofLibrary).1
      rw [(clear.locals entry member).2] at known
      cases known
    · exact named.imports entry member (clear.ofRuntime _ ofRuntime).1

theorem Composed.module_names_nodup (prepared : Prepared plan asked registry) {drafted : Drafted}
    {draft : Draft} (composed : Composed plan registry drafted draft)
    (listed : ∀ node ∈ plan.graph.nodes, node.kind ≠ .file → node.scope = drafted.file.id →
      node.id ∈ drafted.file.nested) :
    ∃ declarations statements, Assembled plan registry drafted declarations statements ∧
      (moduleNames statements drafted.imports declarations
        (fileAliases registry drafted.file.id)).Nodup := by
  obtain ⟨named, imported⟩ := composed.renamed prepared
  obtain ⟨inFile, requested, sameImports, current, fresh, composes⟩ := composed
  generalize whole : drafted.file = file at *
  have located := prepared.plan_located
  obtain ⟨declarations, declared, declares, lays⟩ := compose_iff.mp composes
  have stands := (standing_frame located registry file).declareFile.returns declares fresh
  obtain ⟨entries, bound⟩ := declare_file_bound located prepared.canonical prepared.distinct
    (Graph.node?_of_file inFile) (Graph.kind_of_file inFile) fresh declares
  obtain ⟨bindings, statements, collected, laidOut, kept, exposed⟩ :=
    lay_out_bound located stands.resolved lays
  rw [stands.ofFile, file_aliases_congr stands.aliases] at collected laidOut exposed
  have clear := collect_clear collected
  rw [sameImports]
  refine ⟨declarations, statements, ⟨⟨current, declared, whole ▸ fresh, whole ▸ declares⟩,
    ⟨bindings, by rw [sameImports, whole]; exact collected⟩, by rw [whole]; exact laidOut⟩, ?_⟩
  have own := nodup_own_names prepared requested inFile listed bound kept exposed
  have taken : ∀ name ∈ declarations.map Declaration.name ++
      (fileAliases registry file.id).map Alias.name, (bindings.get? name).isSome := by
    intro name member
    rcases List.mem_append.mp member with inDeclarations | inAliases
    · rw [bound.names] at inDeclarations
      obtain ⟨entry, inEntries, rfl⟩ := List.mem_map.mp inDeclarations
      simp [kept _ _ (bound.bound entry inEntries)]
    · obtain ⟨entry, inTable, rfl⟩ := List.mem_map.mp inAliases
      simp [exposed entry inTable]
  have imports := clear.nodup_imported_names named imported
  have free : ∀ name ∈ importedNames statements draft.imports, bindings.get? name = none := by
    intro name member
    rcases List.mem_append.mp member with standard | relative
    · rcases List.mem_append.mp standard with ofLibrary | ofRuntime
      · exact (clear.ofLibrary name ofLibrary).2
      · exact (clear.ofRuntime name ofRuntime).2
    · obtain ⟨entry, inside, rfl⟩ := List.mem_map.mp relative
      exact (clear.locals entry inside).1
  unfold moduleNames
  rw [List.append_assoc, List.nodup_append]
  refine ⟨imports, own, ?_⟩
  intro name imported other declared same
  subst same
  have held := taken name declared
  rw [free name imported] at held
  cases held

end Stub

/-- No stub binds a name twice at its top level, as long as its file lists every declaration that is
scoped in it. -/
theorem module_names_distinct {options : Options} {entries : List (Option Node)}
    {requested : List Id} {graph : Graph} (built : Graph.build entries requested = .ok graph)
    {output : Output} (ran : (generate options graph).1 = .ok output) :
    ∃ plan resolved drafts registry, Completed options graph output plan resolved drafts registry ∧
      ∀ drafted ∈ drafts,
        (∀ node ∈ graph.nodes, node.kind ≠ .file → node.scope = drafted.file.id →
          node.id ∈ drafted.file.nested) →
        ∃ declarations statements, Assembled plan registry drafted declarations statements ∧
          (moduleNames statements drafted.imports declarations
            (fileAliases registry drafted.file.id)).Nodup := by
  obtain ⟨plan, resolved, drafts, registry, completed⟩ := completed_of_generate built ran
  refine ⟨plan, resolved, drafts, registry, completed, fun drafted member listed => ?_⟩
  obtain ⟨asked, prepared⟩ := completed.prepared
  obtain ⟨draft, composed⟩ := completed.composed drafted member
  obtain ⟨_, _, _, rfl⟩ := completed.surveys
  obtain ⟨declarations, statements, assembled, distinct⟩ :=
    composed.module_names_nodup prepared listed
  rw [← file_aliases_congr completed.aliases] at distinct
  exact ⟨declarations, statements, assembled.congr completed.aliases completed.internal, distinct⟩

theorem mem_file_lines_of_body {options : Options} {file : String} {statements : ImportSection}
    {body : List Line} {line : Line} (member : line ∈ body) :
    line ∈ fileLines options file statements body := by
  unfold fileLines afterBlank
  have present : body.isEmpty = false := by
    cases body with
    | nil => cases member
    | cons first rest => rfl
  simp [present, member]

def aFile (nested : List Id) (fields : List Field) : Node :=
  { id := 1, kind := .file, name := "a", displayName := "a", nested, fields }

/-- A struct with a field of an interface, whose name is that of the alias that the results of its
one method would have. -/
def shadowing (nested : List Id) (fields : List Field) : Graph where
  nodes := [
    aFile nested fields,
    { id := 2, kind := .struct, name := "S", displayName := "S", scope := 1,
      fields := [{ name := "x", kind := .slot, type := some { kind := .interface, target := 3 } }] },
    { id := 3, kind := .interface, name := "FooResult", displayName := "FooResult", scope := 1,
      methods := [{ name := "foo" }] }]
  requested := [1]

theorem module_names_distinct_shadowing :
    ∃ output plan resolved drafts registry,
      Completed {} (shadowing [2, 3] []) output plan resolved drafts registry ∧
      ∃ drafted ∈ drafts, drafted.file.name = "a" ∧
        ∃ declarations statements, Assembled plan registry drafted declarations statements ∧
          (moduleNames statements drafted.imports declarations
            (fileAliases registry drafted.file.id)).Nodup := by
  have built : Graph.build ((shadowing [2, 3] []).nodes.map some) [1] =
      .ok (shadowing [2, 3] []) := rfl
  have inFile : Graph.file (shadowing [2, 3] []) 1 = .ok (aFile [2, 3] []) := rfl
  obtain ⟨output, ran⟩ : ∃ output, (generate {} (shadowing [2, 3] [])).1 = .ok output :=
    generate_of_unobstructed rfl inFile (by decide +kernel)
  obtain ⟨plan, resolved, drafts, registry, completed, each⟩ := module_names_distinct built ran
  obtain ⟨drafted, member, isFile⟩ := completed.drafted_of_mem List.mem_cons_self inFile
  refine ⟨output, plan, resolved, drafts, registry, completed, drafted, member, ?_, ?_⟩
  · rw [isFile]
    rfl
  · apply each drafted member
    rw [isFile]
    decide

/-- A declaration that its file has as a group, and does not list, keeps its name from no alias. -/
theorem shadowing_binds_twice :
    ∃ graph output stub lines,
      Graph.build (graph.nodes.map some) graph.requested = .ok graph ∧
      (generate {} graph).1 = .ok output ∧ stub ∈ output.files ∧
      stub.content = renderLines lines ∧
      ⟨0, "FooResult: _FooResultInterfaceModule"⟩ ∈ lines ∧
      ⟨0, "FooResult: TypeAlias = _FooResultInterfaceModule.FooResult"⟩ ∈ lines := by
  have seen : (((rehearse {} (shadowing [2] [{ name := "g", kind := .group, group := 3 }])
      (aFile [2] [{ name := "g", kind := .group, group := 3 }])).outcome {}).1.toOption.any
      fun made => made.2.unobstructed &&
        [⟨0, "FooResult: _FooResultInterfaceModule"⟩,
          ⟨0, "FooResult: TypeAlias = _FooResultInterfaceModule.FooResult"⟩].all fun line =>
            decide (line ∈ bodyLines made.1 (fileAliases made.2.registry 1))) = true := by
    decide +kernel
  obtain ⟨⟨declarations, draft⟩, _, rehearsed, shown⟩ := Step.Returns.of_any seen
  simp only [Bool.and_eq_true, List.all_cons, List.all_nil, decide_eq_true_eq, and_true] at shown
  obtain ⟨output, stub, statements, ran, files, _, content, _⟩ :=
    generate_of_rehearsal rfl rfl rehearsed shown.1
  refine ⟨_, output, stub, _, rfl, ran, by simp [files], content, ?_, ?_⟩
  · exact mem_file_lines_of_body shown.2.1
  · exact mem_file_lines_of_body shown.2.2

end SchemaStubs.Stub
