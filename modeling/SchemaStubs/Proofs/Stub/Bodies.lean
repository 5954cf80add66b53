import SchemaStubs.Proofs.Stub.Flattening
import SchemaStubs.Proofs.Stub.Scopes
import SchemaStubs.Proofs.Stub.Shapes

/-!
The names in the bodies of the views of a struct and of the parts of an interface, and those of the
parameters of their methods. Names of the schema meet fixed ones here, and escaping keywords can make
two of them one, so they have to keep clear of both.
-/

namespace SchemaStubs.Stub

def Free (taken names : List String) : Prop :=
  names.Nodup ∧ ∀ name ∈ names, name ∉ taken

instance (taken names : List String) : Decidable (Free taken names) :=
  inferInstanceAs (Decidable (_ ∧ _))

theorem Free.mono {taken fewer names : List String} (free : Free taken names) (subset : fewer ⊆ taken) :
    Free fewer names :=
  ⟨free.1, fun name listed inFewer => free.2 name listed (subset inFewer)⟩

theorem Free.append {taken names fixed : List String} (free : Free (taken ++ fixed) names)
    (rest : Free taken fixed) : Free taken (names ++ fixed) := by
  refine ⟨List.nodup_append.mpr ⟨free.1, rest.1, ?_⟩, ?_⟩
  · rintro name listed _ again rfl
    exact free.2 name listed (List.mem_append_right _ again)
  · intro name listed
    rcases List.mem_append.mp listed with own | isFixed
    · exact fun isTaken => free.2 name own (List.mem_append_left _ isTaken)
    · exact rest.2 name isFixed

section Parameters

def Starless (name : String) : Prop :=
  '*' ∉ name.toList

instance (name : String) : Decidable (Starless name) :=
  inferInstanceAs (Decidable (_ ∉ _))

theorem Starless.safeName {name : String} (starless : Starless name) : Starless (safeName name) := by
  unfold Stub.safeName
  split
  · unfold Starless at starless ⊢
    rw [String.toList_append, List.mem_append]
    rintro (inName | last)
    · exact starless inName
    · revert last
      decide
  · exact starless

theorem bound_name_of_starless {param : Param} (starless : Starless param.name) :
    param.boundName = param.name := by
  unfold Param.boundName
  rw [List.dropWhile_eq_self_iff.mpr, String.ofList_toList]
  intro inside star
  rw [beq_iff_eq] at star
  exact starless (star ▸ List.getElem_mem inside)

theorem map_bound_name {params : List Param} (starless : ∀ name ∈ params.map Param.name, Starless name) :
    params.map Param.boundName = params.map Param.name :=
  List.map_congr_left fun _ listed => bound_name_of_starless (starless _ (List.mem_map_of_mem listed))

theorem nodup_bound_names {signature : Signature} {names : List String}
    (bound : ((signature.params.map Param.boundName).filter fun name => name != "").Sublist names)
    (free : Free ["self"] names) : signature.boundNames.Nodup := by
  unfold Signature.boundNames
  rw [List.nodup_cons]
  exact ⟨fun again => free.2 "self" (bound.subset again) List.mem_cons_self, bound.nodup free.1⟩

end Parameters

namespace Declaration.Apart

variable {share : Declaration → Declaration → Prop} {signature : Signature}

theorem fixed (names : List String) (named : signature.params.map Param.name = names)
    (free : (∀ name ∈ names, Starless name) ∧ Free ["self"] names) :
    (Declaration.method signature).Apart share :=
  .method (nodup_bound_names (by
    rw [map_bound_name (named ▸ free.1), named]
    exact List.filter_sublist) free.2)

theorem bare (none : signature.params = []) : (Declaration.method signature).Apart share :=
  .fixed [] (by rw [none]; rfl) (by decide)

end Declaration.Apart

section Views

open Struct

variable {typed : Meaning → String → Prop} {node : Node} {internal : String} {members : List Member}

/-- The fixed names in the views of a struct, and those of the parameters of its new message. -/
def viewNames (node : Node) : List String :=
  ["as_builder", "as_reader", "to_dict", "init"] ++ (if node.hasUnion then ["which"] else []) ++
    if node.isGroup then [] else ["to_bytes", "self", "kwargs"]

theorem within_which : NamedWithin (if node.hasUnion then ["which"] else []) (which node) := by
  refine .of_nodup ?_ (by split <;> decide)
  unfold which
  split <;> rfl

theorem apart_which : ∀ declaration ∈ which node, declaration.NearlyApart := by
  unfold which
  split
  · exact List.forall_mem_singleton.mpr (.bare rfl)
  · simp

theorem Struct.IsDict.nearlyApart {view : Declaration} (shape : IsDict typed members view)
    (distinct : (members.map Member.name).Nodup) : view.NearlyApart := by
  obtain ⟨attributes, rfl, shown⟩ := shape
  have named := Written.map_eq Declaration.name Member.name shown fun _ _ _ => rfl
  exact .class (NamedWithin.of_nodup named distinct).apart (Written.forall shown fun _ _ _ _ => .annotated)

theorem Struct.IsReader.nearlyApart {view : Declaration}
    (shape : IsReader typed node internal members view)
    (free : Free (viewNames node) (members.map Member.name)) : view.NearlyApart := by
  obtain ⟨properties, rfl, shown⟩ := shape
  have named := Written.map_eq Declaration.name Member.name shown fun _ _ _ => rfl
  refine .class ?_ ?_
  · have others : NamedWithin ["as_builder", "to_dict"] [
        .method { name := "as_builder", returns := internal ++ ".Builder" },
        .method { name := "to_dict", returns := internal ++ ".Dict" }] := .of_nodup rfl (by decide)
    have fixed := within_which.append others (by cases node.hasUnion <;> decide)
    have own : NamedWithin (members.map Member.name) properties := .of_nodup named free.1
    rw [List.append_assoc]
    have reserved : ∀ name ∈ (if node.hasUnion then ["which"] else []) ++ ["as_builder", "to_dict"],
        name ∈ viewNames node := by
      unfold viewNames
      cases node.hasUnion <;> cases node.isGroup <;> decide
    exact (own.append fixed fun name isMember isFixed => free.2 name isMember (reserved name isFixed)).apart
  · simp only [List.forall_mem_append, List.forall_mem_cons, List.not_mem_nil, false_imp_iff,
      implies_true, and_true]
    exact ⟨⟨Written.forall shown fun _ _ _ _ => .bare rfl, apart_which⟩, .bare rfl, .bare rfl⟩

theorem within_accessors {member : Member} {declarations : List Declaration}
    (shape : AccessedBy typed member declarations) :
    NamedWithin [member.name] declarations ∧
      ∀ declaration ∈ declarations, declaration.NearlyApart := by
  obtain ⟨type, assigned, _, _, rfl⟩ := shape
  have getter : (Declaration.method (.property member.name type [])).NearlyApart := .bare rfl
  have setter : (Declaration.method (.setter member.name assigned)).NearlyApart :=
    .fixed ["value"] rfl (by decide)
  split
  · exact ⟨.of_nodup rfl (by simp), List.forall_mem_singleton.mpr getter⟩
  · refine ⟨⟨?_, ?_⟩, List.forall_mem_cons.mpr ⟨getter, List.forall_mem_singleton.mpr setter⟩⟩
    · simp [Declaration.MayShare, Declaration.isOneWith]
    · simp [Declaration.name]

theorem within_overloads {typed : List Signature} {fallback : Signature} {name : String}
    (named : ∀ signature ∈ typed ++ [fallback], signature.name = name) :
    NamedWithin [name] ((Signature.overloads typed fallback).map Declaration.method) := by
  unfold Signature.overloads
  split
  · refine ⟨List.pairwise_singleton _ _, List.forall_mem_singleton.mpr ?_⟩
    exact List.mem_singleton.mpr (named fallback (by simp))
  · constructor
    · refine List.pairwise_map.mpr (List.pairwise_map.mpr (List.pairwise_of_forall fun one two _ => ?_))
      exact .inl (by simp [Declaration.isOneWith, Signature.overloaded])
    · intro declaration listed
      obtain ⟨_, inside, rfl⟩ := List.mem_map.mp listed
      obtain ⟨original, isOriginal, rfl⟩ := List.mem_map.mp inside
      exact List.mem_singleton.mpr (named original isOriginal)

theorem apart_overloads {typed : List Signature} {fallback : Signature} {names : List String}
    (free : (∀ name ∈ names, Starless name) ∧ Free ["self"] names)
    (params : ∀ signature ∈ typed ++ [fallback], signature.params.map Param.name <+: names) :
    ∀ declaration ∈ (Signature.overloads typed fallback).map Declaration.method,
      declaration.NearlyApart := by
  have each : ∀ signature : Signature, signature.params.map Param.name <+: names →
      (Declaration.method signature).NearlyApart := by
    intro signature front
    refine .fixed _ rfl ⟨fun name listed => free.1 name (front.subset listed), ?_⟩
    exact ⟨front.sublist.nodup free.2.1, fun name listed => free.2.2 name (front.subset listed)⟩
  intro declaration listed
  obtain ⟨signature, inside, rfl⟩ := List.mem_map.mp listed
  unfold Signature.overloads at inside
  split at inside
  · cases List.mem_singleton.mp inside
    exact each fallback (params fallback (by simp))
  · obtain ⟨original, isOriginal, rfl⟩ := List.mem_map.mp inside
    exact each _ (params original isOriginal)

theorem within_initial {declarations : List Declaration}
    (shape : AreInitializers typed members declarations) :
    NamedWithin ["init"] declarations ∧
      ∀ declaration ∈ declarations, declaration.NearlyApart := by
  obtain ⟨initial, rfl, made⟩ := shape
  have each : ∀ signature ∈ initial ++ [fallbackInitializer], signature.name = "init" ∧
      signature.params.map Param.name <+: ["field", "size"] := by
    refine List.forall_mem_append.mpr ⟨fun signature listed => ?_, by decide⟩
    obtain ⟨member, _, type, sizes, _, sized, rfl⟩ := made signature listed
    rcases sized with rfl | rfl
    · exact ⟨rfl, ["size"], rfl⟩
    · exact ⟨rfl, [], rfl⟩
  exact ⟨within_overloads fun signature listed => (each signature listed).1,
    apart_overloads (by decide) fun signature listed => (each signature listed).2⟩

theorem Struct.IsBuilder.nearlyApart {view : Declaration}
    (shape : IsBuilder typed node internal members view)
    (free : Free (viewNames node) (members.map Member.name)) : view.NearlyApart := by
  obtain ⟨blocks, initial, rfl, accessed, made⟩ := shape
  obtain ⟨initialWithin, initialApart⟩ := within_initial made
  refine .class ?_ ?_
  · have own : NamedWithin (members.map Member.name) blocks.flatten :=
      .flatten free.1 (List.Forall₂.imp (fun _ _ shape => (within_accessors shape).1) accessed)
    have others : NamedWithin ["as_reader", "to_dict"] [
        .method { name := "as_reader", returns := internal ++ ".Reader" },
        .method { name := "to_dict", returns := internal ++ ".Dict" }] := .of_nodup rfl (by decide)
    have bytes : NamedWithin (if node.isGroup then [] else ["to_bytes"])
        (if node.isGroup then [] else [.method { name := "to_bytes", returns := "bytes" }]) :=
      .of_nodup (by split <;> rfl) (by split <;> decide)
    have fixed := within_which.append (initialWithin.append (others.append bytes
      (by cases node.isGroup <;> decide)) (by cases node.isGroup <;> decide))
      (by cases node.hasUnion <;> cases node.isGroup <;> decide)
    rw [List.append_assoc, List.append_assoc, List.append_assoc]
    have reserved : ∀ name ∈ (if node.hasUnion then ["which"] else []) ++ (["init"] ++
        (["as_reader", "to_dict"] ++ if node.isGroup then [] else ["to_bytes"])),
        name ∈ viewNames node := by
      unfold viewNames
      cases node.hasUnion <;> cases node.isGroup <;> decide
    exact (own.append fixed fun name isMember isFixed => free.2 name isMember (reserved name isFixed)).apart
  · simp only [List.forall_mem_append, List.forall_mem_cons, List.not_mem_nil, false_imp_iff,
      implies_true, and_true]
    refine ⟨⟨⟨⟨fun declaration listed => ?_, apart_which⟩, initialApart⟩, .bare rfl, .bare rfl⟩, ?_⟩
    · obtain ⟨block, inBlocks, inBlock⟩ := List.mem_flatten.mp listed
      obtain ⟨member, isMember, accesses⟩ := Lists.exists_of_mem_left accessed.flip inBlocks
      exact (within_accessors accesses).2 declaration inBlock
    · split
      · simp
      · exact List.forall_mem_singleton.mpr (.bare rfl)

theorem bound_name_keywords : Param.boundName { name := "**kwargs", type := "Any" } = "kwargs" := by
  decide

theorem Struct.IsNewMessage.nearlyApart {message : Declaration}
    (shape : IsNewMessage typed internal members message)
    (free : Free ["self", "kwargs"] (members.map Member.name))
    (starless : ∀ member ∈ members, Starless member.field.name) : message.NearlyApart := by
  obtain ⟨keywords, rfl, shown⟩ := shape
  have own : keywords.map Param.boundName = members.map Member.name :=
    Written.map_eq Param.boundName Member.name shown fun member listed _ =>
      bound_name_of_starless (starless member listed).safeName
  have marker : ((if members.isEmpty then [] else [({ name := "*" } : Param)]).map
      Param.boundName).filter (fun name => name != "") = [] := by split <;> decide
  have both : Free ["self"] (members.map Member.name ++ ["kwargs"]) := free.append (by decide)
  refine .method (nodup_bound_names ?_ both)
  simp only [List.map_append, List.filter_append, marker, own, List.nil_append, List.map_cons,
    List.map_nil, bound_name_keywords]
  exact List.filter_sublist.append List.filter_sublist

theorem apart_reading {declaration : Declaration}
    (listed : declaration ∈ [fromBytes internal, readFile internal]) : declaration.NearlyApart := by
  simp only [List.mem_cons, List.not_mem_nil, or_false] at listed
  rcases listed with rfl | rfl
  · exact .fixed ["buf", "traversal_limit_in_words", "nesting_limit"] rfl (by decide)
  · exact .fixed ["file", "traversal_limit_in_words", "nesting_limit"] rfl (by decide)

end Views

section Surfaces

open Interface

variable {typed : Meaning → String → Prop} {internal stem : String} {method : Method} {methods : List Method}
  {surfaces : List Surface}

def shownName (field : Field) : String :=
  safeName field.name

/-- The parameters of a method, and its results, go by names of their own. -/
structure ArgumentsApart (method : Method) : Prop where
  starless : ∀ field ∈ method.params, Starless field.name
  params : Free ["self", "_context", "kwargs"] (method.params.map shownName)
  results : (method.results.map shownName).Nodup

theorem Interface.IsProtocol.nearlyApart {name : String} {fields : List Field} {protocol : Declaration}
    (shape : IsProtocol typed name fields protocol) (distinct : (fields.map shownName).Nodup) :
    protocol.NearlyApart := by
  obtain ⟨attributes, rfl, shown⟩ := shape
  have named := Written.map_eq Declaration.name shownName shown fun _ _ _ => rfl
  exact .class (NamedWithin.of_nodup named distinct).apart (Written.forall shown fun _ _ _ _ => .annotated)

theorem Interface.IsClientMethod.nearlyApart {declaration : Declaration}
    (shape : IsClientMethod typed internal stem method declaration) (apart : ArgumentsApart method) :
    declaration.NearlyApart := by
  obtain ⟨params, rfl, shown⟩ := shape
  have own := Written.map_eq Param.boundName shownName shown fun field listed _ =>
    bound_name_of_starless (apart.starless field listed).safeName
  refine .method (nodup_bound_names ?_ (apart.params.mono (by simp)))
  rw [own]
  exact List.filter_sublist

theorem Interface.AreServerMethods.nearlyApart {declarations : List Declaration}
    (shape : AreServerMethods typed internal stem method declarations) (apart : ArgumentsApart method) :
    ∀ declaration ∈ declarations, declaration.NearlyApart := by
  obtain ⟨params, _, _, rfl, shown, _⟩ := shape
  have own := Written.map_eq Param.boundName shownName shown fun field listed _ =>
    bound_name_of_starless (apart.starless field listed).safeName
  have all : Free ["self"] (method.params.map shownName ++ ["_context", "kwargs"]) :=
    apart.params.append (by decide)
  have context : Param.boundName
      { name := "_context", type := internal ++ "." ++ stem ++ "CallContext" } = "_context" :=
    bound_name_of_starless (by decide : Starless "_context")
  refine List.forall_mem_cons.mpr ⟨.method (nodup_bound_names ?_ all),
    List.forall_mem_singleton.mpr (.fixed ["context"] rfl (by decide))⟩
  simp only [List.map_append, own, List.map_cons, List.map_nil, context, bound_name_keywords]
  exact List.filter_sublist

/-- The last two characters of a name. The fixed parts of names differ in them. -/
def ending (name : String) : List Char :=
  name.toList.reverse.take 2

theorem ending_append {front back : String} (long : 2 ≤ back.toList.length) :
    ending (front ++ back) = ending back := by
  unfold ending
  rw [String.toList_append, List.reverse_append, List.take_append_of_le_length (by simpa using long)]

theorem ending_of_ends_with {word name : String} (long : 2 ≤ word.toList.length)
    (ends : Text.endsWith word name = true) : ending name = ending word := by
  unfold Text.endsWith at ends
  obtain ⟨front, whole⟩ := List.isSuffixOf_iff_suffix.mp ends
  have same : name = String.ofList front ++ word := by
    rw [← String.toList_inj, String.toList_append, String.toList_ofList, whole]
  rw [same, ending_append long]

def protocolWords : List String :=
  ["Params", "Result", "CallContext"]

def protocolNames (method : Method) : List String :=
  protocolWords.map fun word => Text.pascal method.name ++ word

theorem ending_protocol_name {name : String} (listed : name ∈ protocolNames method) :
    ending name ∈ protocolWords.map ending := by
  obtain ⟨word, isWord, rfl⟩ := List.mem_map.mp listed
  have long : ∀ word ∈ protocolWords, 2 ≤ word.toList.length := by decide
  rw [ending_append (long word isWord)]
  exact List.mem_map_of_mem isWord

theorem protocol_name_inj {one two word other : String} (isWord : word ∈ protocolWords)
    (isOther : other ∈ protocolWords) (same : one ++ word = two ++ other) : one = two ∧ word = other := by
  have long : ∀ word ∈ protocolWords, 2 ≤ word.toList.length := by decide
  have told : ∀ word ∈ protocolWords, ∀ other ∈ protocolWords, ending word = ending other →
      word = other := by decide
  have endings := congrArg ending same
  rw [ending_append (long word isWord), ending_append (long other isOther)] at endings
  have alike := told word isWord other isOther endings
  subst alike
  exact ⟨by simpa using same, rfl⟩

theorem nodup_protocol_names (stems : (methods.map fun method => Text.pascal method.name).Nodup) :
    (methods.flatMap protocolNames).Nodup := by
  refine List.nodup_flatMap.mpr ⟨fun method _ => ?_, (List.pairwise_map.mp stems).imp ?_⟩
  · refine List.Nodup.map_on (fun word isWord other isOther same => ?_) (by decide)
    exact (protocol_name_inj isWord isOther same).2
  · intro one two different name inOne inTwo
    obtain ⟨word, isWord, rfl⟩ := List.mem_map.mp inOne
    obtain ⟨other, isOther, same⟩ := List.mem_map.mp inTwo
    exact different (protocol_name_inj isOther isWord same).1.symm

theorem pascal_safe_name (name : String) : Text.pascal (safeName name) = Text.pascal name := by
  have escaped : ∀ word ∈ keywords, Text.pascal (word ++ "_") = Text.pascal word := by decide +kernel
  unfold safeName
  split
  · rename_i isKeyword
    exact escaped name isKeyword
  · rfl

theorem nodup_shown_methods (stems : (methods.map fun method => Text.pascal method.name).Nodup) :
    (methods.map fun method => safeName method.name).Nodup := by
  apply List.Nodup.of_map Text.pascal
  rw [List.map_map]
  simpa [Function.comp_def, pascal_safe_name] using stems

theorem safe_name_ne_context {one two : String} (different : one ≠ two ++ "_context") :
    safeName one ≠ two ++ "_context" := by
  unfold safeName
  split
  · intro same
    have last := congrArg (fun name : String => name.toList.getLast?) same
    simp only [String.toList_append] at last
    rw [List.getLast?_append_of_ne_nil _ (by decide), List.getLast?_append_of_ne_nil _ (by decide)]
      at last
    revert last
    decide
  · exact different

theorem nodup_server_names (stems : (methods.map fun method => Text.pascal method.name).Nodup)
    (contexts : ∀ one ∈ methods, ∀ two ∈ methods, one.name ≠ two.name ++ "_context") :
    (methods.flatMap fun method => [safeName method.name, method.name ++ "_context"]).Nodup := by
  refine List.nodup_flatMap.mpr ⟨fun method listed => ?_, ?_⟩
  · simpa using safe_name_ne_context (contexts method listed method listed)
  · have pairs := List.pairwise_map.mp stems
    refine List.Pairwise.imp_of_mem (fun {one two} inOne inTwo different => ?_) pairs
    intro name isOne isTwo
    simp only [List.mem_cons, List.not_mem_nil, or_false] at isOne isTwo
    rcases isOne with rfl | rfl <;> rcases isTwo with same | same
    · exact different (by rw [← pascal_safe_name one.name, same, pascal_safe_name])
    · exact safe_name_ne_context (contexts one inOne two inTwo) same
    · exact safe_name_ne_context (contexts two inTwo one inOne) same.symm
    · exact different (by rw [(String.append_left_inj _).mp same])

theorem map_flatMap_of_forall₂ {α : Type} {related : Method → α → Prop} {items : List α}
    {parts : α → List Declaration} {names : Method → List String}
    (each : List.Forall₂ related methods items)
    (named : ∀ method item, related method item →
      (parts item).map Declaration.name = names method) :
    (items.flatMap parts).map Declaration.name = methods.flatMap names := by
  induction each with
  | nil => rfl
  | cons first _ induction =>
      rw [List.flatMap_cons, List.flatMap_cons, List.map_append, named _ _ first, induction]

theorem Interface.IsSurface.nearlyApart {surface : Surface} (shape : IsSurface typed internal method surface)
    (apart : ArgumentsApart method) :
    (surface.protocols.map Declaration.name = protocolNames method ∧
      ∀ declaration ∈ surface.protocols, declaration.NearlyApart) ∧
    (surface.client.name = safeName method.name ∧ surface.client.NearlyApart) ∧
    surface.server.map Declaration.name = [safeName method.name, method.name ++ "_context"] ∧
      ∀ declaration ∈ surface.server, declaration.NearlyApart := by
  obtain ⟨⟨params, results, whole, areParams, areResults⟩, client, server⟩ := shape
  have context : (Declaration.class (Text.pascal method.name ++ "CallContext") ["Protocol"] []
      [.annotated "params" (internal ++ "." ++ Text.pascal method.name ++ "Params"),
        .annotated "results" (internal ++ "." ++ Text.pascal method.name ++ "Result")]).NearlyApart := by
    refine .class (by simp [Declaration.name]) ?_
    exact List.forall_mem_cons.mpr ⟨.annotated, List.forall_mem_singleton.mpr .annotated⟩
  refine ⟨⟨?_, ?_⟩, ⟨?_, client.nearlyApart apart⟩, ?_, server.nearlyApart apart⟩
  · obtain ⟨_, rfl, _⟩ := areParams
    obtain ⟨_, rfl, _⟩ := areResults
    rw [whole]
    rfl
  · rw [whole]
    refine List.forall_mem_cons.mpr ⟨areParams.nearlyApart apart.params.1, ?_⟩
    exact List.forall_mem_cons.mpr ⟨areResults.nearlyApart apart.results,
      List.forall_mem_singleton.mpr context⟩
  · obtain ⟨_, same, _⟩ := client
    rw [same]
    rfl
  · obtain ⟨_, _, _, same, _⟩ := server
    rw [same]
    rfl

theorem within_surfaces (surfaced : List.Forall₂ (IsSurface typed internal) methods surfaces)
    (stems : (methods.map fun method => Text.pascal method.name).Nodup)
    (apart : ∀ method ∈ methods, ArgumentsApart method)
    (contexts : ∀ one ∈ methods, ∀ two ∈ methods, one.name ≠ two.name ++ "_context")
    (clientBases serverBases : List String) :
    (NamedWithin (methods.flatMap protocolNames) (surfaces.flatMap Surface.protocols) ∧
      ∀ declaration ∈ surfaces.flatMap Surface.protocols, declaration.NearlyApart) ∧
    (Declaration.class "Client" clientBases [] (surfaces.map Surface.client)).NearlyApart ∧
    (Declaration.class "Server" serverBases [] (surfaces.flatMap Surface.server)).NearlyApart := by
  have each : List.Forall₂ (fun method surface => method ∈ methods ∧
      IsSurface typed internal method surface) methods surfaces :=
    Lists.forall₂_imp (fun _ listed _ shape => ⟨listed, shape⟩) surfaced
  have shapes : ∀ surface ∈ surfaces, ∃ method ∈ methods, IsSurface typed internal method surface :=
    fun surface listed => Lists.exists_of_mem_left surfaced.flip listed
  refine ⟨⟨.of_nodup ?_ (nodup_protocol_names stems), ?_⟩, .class ?_ ?_, .class ?_ ?_⟩
  · exact map_flatMap_of_forall₂ each fun method _ shape =>
      (shape.2.nearlyApart (apart method shape.1)).1.1
  · intro declaration listed
    obtain ⟨surface, inside, shown⟩ := List.mem_flatMap.mp listed
    obtain ⟨method, isMethod, shape⟩ := shapes surface inside
    exact (shape.nearlyApart (apart method isMethod)).1.2 declaration shown
  · have named : (surfaces.flatMap fun surface => [surface.client]).map Declaration.name =
        methods.flatMap fun method => [safeName method.name] :=
      map_flatMap_of_forall₂ each fun method _ shape => by
        rw [List.map_singleton, (shape.2.nearlyApart (apart method shape.1)).2.1.1]
    rw [← List.map_eq_flatMap, ← List.map_eq_flatMap] at named
    exact (NamedWithin.of_nodup named (nodup_shown_methods stems)).apart
  · intro declaration listed
    obtain ⟨surface, inside, rfl⟩ := List.mem_map.mp listed
    obtain ⟨method, isMethod, shape⟩ := shapes surface inside
    exact (shape.nearlyApart (apart method isMethod)).2.1.2
  · have named := map_flatMap_of_forall₂ each fun method _ shape =>
      (shape.2.nearlyApart (apart method shape.1)).2.2.1
    exact (NamedWithin.of_nodup named (nodup_server_names stems contexts)).apart
  · intro declaration listed
    obtain ⟨surface, inside, shown⟩ := List.mem_flatMap.mp listed
    obtain ⟨method, isMethod, shape⟩ := shapes surface inside
    exact (shape.nearlyApart (apart method isMethod)).2.2.2 declaration shown

end Surfaces

end SchemaStubs.Stub
