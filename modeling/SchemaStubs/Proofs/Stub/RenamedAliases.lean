import SchemaStubs.Proofs.Walk.Renaming
import SchemaStubs.Stub.PublicNames

/-!
The requests for aliases in a schema whose nodes have other names: each file asks for the same aliases in
the same order, for renamed nodes.
-/

namespace SchemaStubs.Stub

open Step

variable {anew : Relabeling} {graph graph' : Graph} (renamed : graph.Renamed anew graph')

include renamed

theorem declarations_from_rename (bound : Nat) (target : Id) :
    declarationsFrom graph' bound (anew target) = (declarationsFrom graph bound target).map anew := by
  induction bound generalizing target with
  | zero => rfl
  | succ bound induction =>
      have each : ∀ targets : List Id, (targets.map anew).flatMap (declarationsFrom graph' bound) =
          (targets.flatMap (declarationsFrom graph bound)).map anew := by
        intro targets
        rw [List.flatMap_map, List.map_flatMap]
        exact congrArg (List.flatMap · targets) (funext induction)
      have groups : ∀ node : Node, (((node.rename anew).fields.filter Field.isGroup).map Field.group) =
          ((node.fields.filter Field.isGroup).map Field.group).map anew := by
        intro node
        rw [Node.rename_fields, List.filter_map, List.map_map, List.map_map]
        rfl
      unfold declarationsFrom
      rw [renamed.node? target]
      cases graph.node? target with
      | none => rfl
      | some node =>
          dsimp only [Option.map_some]
          rw [groups, Node.rename_nested, Node.rename_kind, each, each, List.map_append, List.map_append]
          split <;> rfl

theorem declaration_order_rename (file : Id) :
    declarationOrder graph' (anew file) = (declarationOrder graph file).map anew := by
  unfold declarationOrder
  rw [renamed.size]
  exact declarations_from_rename renamed _ file

theorem declaring_files_rename (targets : List Id) :
    declaringFiles graph' (targets.map anew) =
      (declaringFiles graph targets).map (Node.rename anew) := by
  have files : (targets.map anew).filterMap (fun target => (graph'.file target).toOption.map Node.id) =
      (targets.filterMap fun target => (graph.file target).toOption.map Node.id).map anew := by
    rw [List.filterMap_map, List.map_filterMap]
    refine List.filterMap_congr fun target _ => ?_
    rw [Function.comp_apply, (renamed.file target).toOption, Option.map_map, Option.map_map]
    rfl
  unfold declaringFiles
  rw [files, Lists.eraseDups_map anew.injective, List.filterMap_map, List.map_filterMap]
  exact List.filterMap_congr fun target _ => renamed.node? target

theorem exposed_name_rename (node : Node) :
    exposedName graph' (node.rename anew) = exposedName graph node := by
  unfold exposedName
  rw [Node.rename_id, renamed.groupField? node.id, Option.map_map]
  rfl

theorem scope_names_rename (node : Node) :
    Alike id (scopeNames graph node) (scopeNames graph' (node.rename anew)) := by
  refine .of_bind (renamed.ancestors node.id) fun scopes _ => .of_ok ?_
  have named : (scopes.map (Node.rename anew)).filter (fun scope => !graph'.isAnonymousGroup scope) =
      (scopes.filter fun scope => !graph.isAnonymousGroup scope).map (Node.rename anew) :=
    Lists.filter_image (fun scope => by rw [renamed.isAnonymousGroup scope]) scopes
  rw [named, List.map_map]
  exact congrArg (List.map · _) (funext (exposed_name_rename renamed))

theorem alias_targets_rename (node : Node) (internal : String) :
    aliasTargets graph' (node.rename anew) internal = aliasTargets graph node internal := by
  unfold aliasTargets
  rw [Node.rename_kind, renamed.isAnonymousGroup node]

theorem node_requests_rename (node : Node) (order : Nat) (internal : String) :
    Alike (List.map (Request.rename anew)) (nodeRequests graph node order internal)
      (nodeRequests graph' (node.rename anew) order internal) := by
  unfold nodeRequests
  dsimp only
  rw [alias_targets_rename renamed node internal]
  refine .of_ite Iff.rfl (fun _ => .ok []) fun _ => ?_
  refine .of_bind (renamed.file node.id) fun file _ => ?_
  refine .of_bind (scope_names_rename renamed node) fun qualifiers _ => .of_ok ?_
  unfold exposedMethods
  rw [exposed_name_rename renamed node, Node.rename_kind, Node.rename_methods, List.map_cons, List.map_map]
  split
  · rw [List.map_map]
    rfl
  · rfl

theorem lockstep_request_node (node : Node) (order : Nat) :
    Lockstep (Registry.Follows anew) id (requestNode graph node order)
      (requestNode graph' (node.rename anew) order) := by
  refine .of_get_bind fun one two follows => ?_
  rw [Node.rename_id, follows.internal? node.id]
  refine .of_bind (.of_of_except (node_requests_rename renamed node order _)) fun wishes => ?_
  exact .of_forM fun wish _ => Registry.lockstep_request wish

theorem lockstep_request_declaration (entry : Nat × Id) :
    Lockstep (Registry.Follows anew) id (requestDeclaration graph entry)
      (requestDeclaration graph' (entry.1, anew entry.2)) := by
  unfold requestDeclaration
  dsimp only
  rw [renamed.node? entry.2]
  cases graph.node? entry.2 with
  | none => exact .of_pure rfl
  | some node =>
      exact .of_bind (Registry.lockstep_register renamed node.id) fun _ =>
        lockstep_request_node renamed node entry.1

theorem lockstep_reserve_top_level (file : Node) :
    Lockstep (Registry.Follows anew) id (reserveTopLevel graph file)
      (reserveTopLevel graph' (file.rename anew)) := by
  have found : (file.nested.map anew).filterMap graph'.node? =
      (file.nested.filterMap graph.node?).map (Node.rename anew) := by
    rw [List.filterMap_map, List.map_filterMap]
    exact List.filterMap_congr fun target _ => renamed.node? target
  unfold reserveTopLevel
  rw [Node.rename_nested, found]
  refine .of_forM fun node _ => ?_
  exact .of_ite Iff.rfl (fun _ => .of_pure rfl) fun _ => Registry.lockstep_reserve file.id _ node.id

theorem lockstep_request_file (file : Node) :
    Lockstep (Registry.Follows anew) id (requestFile graph file)
      (requestFile graph' (file.rename anew)) := by
  refine .of_bind (lockstep_reserve_top_level renamed file) fun _ => ?_
  dsimp only
  rw [Node.rename_id, declaration_order_rename renamed file.id, List.length_map, List.zip_map_right]
  exact .of_forM fun entry _ => lockstep_request_declaration renamed entry

theorem lockstep_request_aliases (reached : List Id) :
    Lockstep (Registry.Follows anew) id (requestAliases graph reached)
      (requestAliases graph' (reached.map anew)) := by
  unfold requestAliases
  rw [declaring_files_rename renamed reached]
  exact .of_forM fun file _ => lockstep_request_file renamed file

end SchemaStubs.Stub
