import SchemaStubs.Proofs.Stub.Abreast
import SchemaStubs.Proofs.Stub.Declared

/-!
The text of one stub in two runs. Its blocks come in the order in which the walk met them, so the walks
have to meet the top level of the file in one order; everything else in a stub has an order of its own.
The targets of casts, the structs and interfaces of the file that the walk met, come by public alias.
-/

namespace SchemaStubs.Stub

/-- A node as a target of casts, under its alias in the role that casts go to. -/
def castTarget? (registry : Registry) (node : Node) : Option AnyPointer.Target :=
  (AnyPointer.castRole? node).map fun role => {
    aliasName := ((registry.aliasesOf { node := node.id }).lookup role).getD ""
    internal := (registry.internal? node.id).getD ""
    isInterface := node.kind = .interface }

def nodesIn (plan : Plan) (file : Id) : List Node :=
  plan.nodes.filter fun node => AnyPointer.isDeclaredIn plan.graph node.id file

def listedByAlias (first second : AnyPointer.Target) : Bool :=
  Text.precedes first.aliasName second.aliasName

theorem listed_by_alias_trans (one two three : AnyPointer.Target) (first : listedByAlias one two)
    (second : listedByAlias two three) : listedByAlias one three :=
  decide_eq_true (String.le_trans (of_decide_eq_true first) (of_decide_eq_true second))

theorem listed_by_alias_total (one two : AnyPointer.Target) :
    listedByAlias one two || listedByAlias two one := by
  simp only [listedByAlias, Text.precedes, Bool.or_eq_true, decide_eq_true_eq]
  exact String.le_total _ _

section Targets

variable {plan : Plan} {registry : Registry} {file : Node}

theorem get_alias_returns {subject : Subject} {role : Role} {name : String} {before after : Registry}
    (done : before.resolved = true) (returns : (Registry.getAlias subject role).Returns before name after) :
    after = before ∧ (before.aliasesOf subject).lookup role = some name := by
  unfold Registry.getAlias at returns
  obtain ⟨names, middle, asks, looks⟩ := Step.Returns.bind_iff.mp returns
  obtain ⟨rfl, rfl⟩ := get_aliases_returns done asks
  split at looks
  · rename_i found
    obtain ⟨rfl, rfl⟩ := Step.Returns.pure_iff.mp looks
    exact ⟨rfl, found⟩
  · exact (Step.Returns.fail_iff.mp looks).elim

/-- A target has an alias of its node in the role that casts to the node go to, and its identifier. -/
def NamesNode (registry : Registry) (node : Node) (target : AnyPointer.Target) : Prop :=
  ∃ role, AnyPointer.castRole? node = some role ∧
    (registry.aliasesOf { node := node.id }).lookup role = some target.aliasName ∧
    registry.internal? node.id = some target.internal

/-- A node of the file that has a role for casts is one target, under an alias that it has. -/
theorem target_returns {draft after : Draft} {node : Node} {found : List AnyPointer.Target}
    (standing : Standing registry file draft)
    (returns : (AnyPointer.target plan node).Returns draft found after) :
    after = draft ∧
      found = (if AnyPointer.isDeclaredIn plan.graph node.id file.id then castTarget? registry node
        else none).toList ∧
      ∀ target ∈ found, NamesNode registry node target := by
  unfold AnyPointer.target at returns
  obtain ⟨_, _, looks, returns⟩ := Step.Returns.bind_iff.mp returns
  obtain ⟨rfl, rfl⟩ := Step.Returns.get_iff.mp looks
  rw [standing.ofFile] at returns
  unfold castTarget?
  split at returns
  · rename_i none
    obtain ⟨rfl, rfl⟩ := Step.Returns.pure_iff.mp returns
    simp [none]
  · rename_i role hasRole
    split at returns
    · rename_i elsewhere
      obtain ⟨rfl, rfl⟩ := Step.Returns.pure_iff.mp returns
      have away : AnyPointer.isDeclaredIn plan.graph node.id file.id = false := by simpa using elsewhere
      simp [away]
    · rename_i here
      simp only [Step.Returns.bind_iff] at returns
      obtain ⟨internal, _, names, name, _, asks, last⟩ := returns
      obtain ⟨rfl, known, _⟩ := internal_of_returns names
      obtain ⟨_, steps, rfl⟩ := Step.Returns.on_part_iff.mp asks
      obtain ⟨rfl, found⟩ := get_alias_returns standing.resolved steps
      obtain ⟨rfl, rfl⟩ := Step.Returns.pure_iff.mp last
      have same : draft.registry.aliasesOf { node := node.id } =
          registry.aliasesOf { node := node.id } := by
        unfold Registry.aliasesOf
        rw [standing.aliases]
      rw [standing.internal?] at known
      rw [same] at found
      have inFile : AnyPointer.isDeclaredIn plan.graph node.id file.id = true := by simpa using here
      refine ⟨rfl, ?_, ?_⟩
      · simp [inFile, hasRole, found, known]
      · exact List.forall_mem_singleton.mpr ⟨role, hasRole, found, known⟩

theorem targets_returns {before after : Draft} {targets : List AnyPointer.Target}
    (standing : Standing registry file before)
    (returns : (AnyPointer.targets plan).Returns before targets after) :
    after = before ∧
      targets = sortBy listedByAlias ((nodesIn plan file.id).filterMap (castTarget? registry)) ∧
      ∀ node ∈ nodesIn plan file.id, ∀ target, castTarget? registry node = some target →
        NamesNode registry node target := by
  obtain ⟨found, middle, each, last⟩ := Step.Returns.bind_iff.mp returns
  obtain ⟨rfl, rfl⟩ := Step.Returns.pure_iff.mp last
  have gives : (plan.nodes.mapM (AnyPointer.target plan)).Gives (fun draft => draft = before)
      (List.Forall₂ (fun node found =>
        found = (if AnyPointer.isDeclaredIn plan.graph node.id file.id then castTarget? registry node
          else none).toList ∧
        ∀ target ∈ found, NamesNode registry node target) plan.nodes) := by
    refine .of_mapM fun node _ draft found after start steps => ?_
    subst start
    exact target_returns standing steps
  obtain ⟨rfl, related⟩ := gives _ _ _ rfl each
  refine ⟨rfl, ?_, ?_⟩
  · have blocks : List.Forall₂ Eq (plan.nodes.map fun node =>
        (if AnyPointer.isDeclaredIn plan.graph node.id file.id then castTarget? registry node
          else none).toList) found :=
      List.forall₂_map_left_iff.mpr (related.imp fun _ _ block => block.1.symm)
    rw [List.forall₂_eq_eq_eq] at blocks
    rw [← blocks, nodesIn, List.filterMap_filter, List.filterMap_eq_flatMap_toList]
    rfl
  · intro node listed target isTarget
    obtain ⟨met, inFile⟩ := List.mem_filter.mp listed
    obtain ⟨block, _, same, named⟩ := Lists.exists_of_mem_left related met
    apply named
    rw [same, if_pos inFile, isTarget]
    exact List.mem_singleton_self _

end Targets

open Generation

theorem aliases_of_eq {registry : Registry} {subject : Subject} {file : Id}
    (placed : ∀ entry ∈ registry.aliases, entry.subject = subject → entry.file = file) :
    registry.aliasesOf subject =
      ((registry.aliasesIn file).filter fun entry => entry.subject == subject).map
        fun entry => (entry.role, entry.name) := by
  unfold Registry.aliasesOf Registry.aliasesIn
  rw [List.filter_filter]
  congr 1
  refine List.filter_congr fun entry member => ?_
  by_cases same : entry.subject = subject
  · simp [same, placed entry member same]
  · simp [same]

theorem node_of_alias {registry : Registry} (coherent : registry.Coherent) {one two file : Id}
    {role other : Role} {name : String}
    (first : (registry.aliasesOf { node := one }).lookup role = some name)
    (second : (registry.aliasesOf { node := two }).lookup other = some name)
    (placed : ∀ entry ∈ registry.aliases, entry.subject = { node := one } → entry.file = file)
    (otherPlaced : ∀ entry ∈ registry.aliases, entry.subject = { node := two } → entry.file = file) :
    one = two := by
  obtain ⟨entry, member, subject, named⟩ := mem_aliases_of first
  obtain ⟨otherEntry, otherMember, otherSubject, otherNamed⟩ := mem_aliases_of second
  have sameEntry : entry = otherEntry := by
    apply List.inj_on_of_nodup_map coherent.names member otherMember
    rw [named, otherNamed, placed entry member subject,
      otherPlaced otherEntry otherMember otherSubject]
  rw [sameEntry, otherSubject] at subject
  exact (congrArg Subject.node subject).symm

/-- Two walks meet the same declarations of a file, and those of its top level in the same order. -/
structure MeetAlike (one two : Plan) (file : Node) : Prop where
  same : ∀ id, one.graph.file id = .ok file → (id ∈ one.order ↔ id ∈ two.order)
  topLevel : topLevelNodes one file.id = topLevelNodes two file.id

theorem nodup_nodes_in {plan : Plan} (distinct : plan.order.Nodup) (file : Id) :
    (nodesIn plan file).Nodup :=
  (List.Nodup.of_map Node.id ((filterMap_node?_sublist plan.graph plan.order).nodup distinct)).filter _

theorem mem_nodes_in {plan : Plan} {node file : Node} (found : plan.graph.node? file.id = some file) :
    node ∈ nodesIn plan file.id ↔ node.id ∈ plan.order ∧ plan.graph.node? node.id = some node ∧
      plan.graph.file node.id = .ok file := by
  have declared : AnyPointer.isDeclaredIn plan.graph node.id file.id = true ↔
      plan.graph.file node.id = .ok file := by
    unfold AnyPointer.isDeclaredIn
    rcases inFile : plan.graph.file node.id with fault | declaring
    · simp
    · have known := Graph.node?_of_file inFile
      constructor
      · intro same
        rw [of_decide_eq_true same, found] at known
        rw [Option.some.inj known]
      · intro same
        cases same
        exact decide_eq_true rfl
  unfold nodesIn Plan.nodes
  rw [List.mem_filter, List.mem_filterMap, declared]
  constructor
  · rintro ⟨⟨id, met, known⟩, inFile⟩
    cases Graph.id_of_node? known
    exact ⟨met, known, inFile⟩
  · rintro ⟨met, known, inFile⟩
    exact ⟨⟨node.id, met, known⟩, inFile⟩

namespace Common

variable {onePlan twoPlan : Plan} {one two : Registry} {file : Node}
  (common : Common onePlan twoPlan one two file)
include common

theorem aliases_of_own {id : Id} (inFile : onePlan.graph.file id = .ok file) :
    one.aliasesOf { node := id } = two.aliasesOf { node := id } := by
  obtain ⟨placed, placed'⟩ := common.placed id inFile
  rw [aliases_of_eq placed, aliases_of_eq placed', common.own.aliases]

theorem nodes_in_perm (alike : MeetAlike onePlan twoPlan file) :
    (nodesIn onePlan file.id).Perm (nodesIn twoPlan file.id) := by
  have found' : twoPlan.graph.node? file.id = some file :=
    Graph.node?_congr common.nodes file.id ▸ common.found
  rw [List.perm_ext_iff_of_nodup (nodup_nodes_in common.oneOrder _) (nodup_nodes_in common.twoOrder _)]
  intro node
  rw [mem_nodes_in common.found, mem_nodes_in found', ← Graph.node?_congr common.nodes,
    ← Graph.file_congr common.nodes]
  constructor
  · rintro ⟨met, known, inFile⟩
    exact ⟨(alike.same node.id inFile).mp met, known, inFile⟩
  · rintro ⟨met, known, inFile⟩
    exact ⟨(alike.same node.id inFile).mpr met, known, inFile⟩

/-- The casts of a stub do not depend on the order in which its nodes were met. -/
theorem targets (alike : MeetAlike onePlan twoPlan file) :
    (AnyPointer.targets onePlan).Alongside (Abreast one two file) (AnyPointer.targets twoPlan) := by
  intro draft _ after draft' _ after' abreast here there
  obtain ⟨rfl, rfl, named⟩ := targets_returns abreast.first here
  obtain ⟨rfl, rfl, _⟩ := targets_returns abreast.second there
  refine ⟨?_, abreast⟩
  have perm := common.nodes_in_perm alike
  have same : (nodesIn twoPlan file.id).filterMap (castTarget? two) =
      (nodesIn twoPlan file.id).filterMap (castTarget? one) := by
    refine List.filterMap_congr fun node listed => ?_
    obtain ⟨met, _, inFile⟩ := (mem_nodes_in common.found).mp (perm.mem_iff.mpr listed)
    unfold castTarget?
    rw [common.aliases_of_own inFile,
      common.known node.id met ((alike.same node.id inFile).mp met)]
  rw [same]
  refine Lists.sort_by_eq_of_perm listed_by_alias_trans listed_by_alias_total (perm.filterMap _) ?_
  -- two targets under one alias would be two nodes that one name of the file was given to
  intro first inFirst second inSecond before after
  obtain ⟨node, listed, isFirst⟩ := List.mem_filterMap.mp inFirst
  obtain ⟨other, otherListed, isSecond⟩ := List.mem_filterMap.mp inSecond
  obtain ⟨role, _, found, _⟩ := named node listed first isFirst
  obtain ⟨otherRole, _, otherFound, _⟩ := named other otherListed second isSecond
  obtain ⟨_, known, inFile⟩ := (mem_nodes_in common.found).mp listed
  obtain ⟨_, otherKnown, otherInFile⟩ := (mem_nodes_in common.found).mp otherListed
  have sameName : first.aliasName = second.aliasName :=
    String.le_antisymm (of_decide_eq_true before) (of_decide_eq_true after)
  have sameId : node.id = other.id := node_of_alias common.coherent (sameName ▸ found) otherFound
    (common.placed node.id inFile).1 (common.placed other.id otherInFile).1
  rw [sameId, otherKnown] at known
  cases known
  rw [isFirst] at isSecond
  exact Option.some.inj isSecond

theorem declareFile (alike : MeetAlike onePlan twoPlan file) :
    (Stub.declareFile onePlan).Alongside (Abreast one two file) (Stub.declareFile twoPlan) := by
  unfold Stub.declareFile
  refine .of_get_bind fun draft draft' abreast => ?_
  rw [abreast.first.ofFile, abreast.second.ofFile, alike.topLevel]
  refine .of_bind (.of_mapM fun node _ => common.declareTopLevel node) fun blocks => ?_
  refine .of_get_bind fun reached reached' abreast => ?_
  rw [abreast.usesAnyPointer]
  refine .of_ite (.of_bind (bind_abreast _ _) fun _ => ?_) (.of_pure _)
  have anyPointer : (AnyPointer.declare onePlan).Alongside (Abreast one two file)
      (AnyPointer.declare twoPlan) := .of_bind (common.targets alike) fun targets => .of_pure _
  exact .of_bind anyPointer fun declaration => .of_pure _

theorem layOut (declarations : List Declaration) :
    (Stub.layOut onePlan declarations).Alongside (Abreast one two file)
      (Stub.layOut twoPlan declarations) := by
  unfold Stub.layOut
  refine .of_get_bind fun draft draft' abreast => ?_
  have aliases : fileAliases draft.registry file.id = fileAliases draft'.registry file.id := by
    rw [file_aliases_congr abreast.first.aliases, file_aliases_congr abreast.second.aliases,
      file_aliases_eq, file_aliases_eq, common.own.aliases]
  rw [abreast.first.ofFile, abreast.second.ofFile, aliases, common.options]
  refine .of_bind (.of_forM fun entry _ => bind_abreast _ _) fun _ => ?_
  refine .of_get_bind fun reached reached' abreast => ?_
  rw [abreast.bindings, abreast.imports]
  refine .of_bind (.of_of_except _) fun statements => ?_
  exact .of_bind (in_registry_abreast (unseen_note _) (unseen_note _)) fun _ => .of_pure _

theorem compose (alike : MeetAlike onePlan twoPlan file) :
    (Generation.compose onePlan file).Alongside (Abreast one two file)
      (Generation.compose twoPlan file) :=
  .of_bind ((common.declareFile alike).of_in_context _ _) fun declarations =>
    (common.layOut declarations).of_in_context _ _

end Common

end SchemaStubs.Stub
