import SchemaStubs.Naming.Resolution
import SchemaStubs.Proofs.Lists
import SchemaStubs.Proofs.Schema.Renaming

/-!
A registry whose nodes have other names. It answers about a renamed node what the registry answers about
the node, and every step keeps it so: identifiers are compared with one another and with nothing else, and
aliases are served by the lengths of names and by places in a file.
-/

namespace SchemaStubs

/-! Tables with other keys -/

namespace Table

variable {κ κ' ν ν' : Type}

def translate (key : κ → κ') (value : ν → ν') (table : Table κ ν) : Table κ' ν' :=
  ⟨table.entries.map (Prod.map key value)⟩

variable {key : κ → κ'} {value : ν → ν'}

theorem keys_translate (table : Table κ ν) :
    (table.translate key value).keys = table.keys.map key := by
  simp [keys, translate, Function.comp_def]

variable [DecidableEq κ] [DecidableEq κ'] (injective : Function.Injective key)

include injective

theorem get?_translate (table : Table κ ν) (place : κ) :
    (table.translate key value).get? (key place) = (table.get? place).map value := by
  obtain ⟨entries⟩ := table
  unfold get? translate
  induction entries with
  | nil => rfl
  | cons entry rest induction =>
      obtain ⟨other, held⟩ := entry
      rw [List.map_cons, Prod.map_apply, List.lookup_cons, List.lookup_cons]
      by_cases same : place = other
      · simp [same]
      · rw [beq_eq_false_iff_ne.mpr same, beq_eq_false_iff_ne.mpr (injective.ne same)]
        exact induction

theorem contains_translate (table : Table κ ν) (place : κ) :
    (table.translate key value).contains (key place) = table.contains place := by
  unfold contains
  rw [get?_translate injective, Option.isSome_map]

theorem set_translate (table : Table κ ν) (place : κ) (held : ν) :
    (table.translate key value).set (key place) (value held) =
      (table.set place held).translate key value := by
  obtain ⟨entries⟩ := table
  unfold set translate
  congr 1
  induction entries with
  | nil => rfl
  | cons entry rest induction =>
      obtain ⟨other, old⟩ := entry
      dsimp only at induction ⊢
      rw [List.map_cons, Prod.map_apply, setIn, setIn]
      by_cases same : place = other
      · rw [if_pos same, if_pos (congrArg key same)]
        rfl
      · rw [if_neg same, if_neg (injective.ne same), induction]
        rfl

end Table

/-! Renamed requests and aliases -/

variable (anew : Relabeling)

def Subject.rename (subject : Subject) : Subject :=
  { subject with node := anew subject.node }

theorem Subject.rename_injective : Function.Injective (Subject.rename anew) := by
  intro one two same
  obtain ⟨node, method⟩ := one
  obtain ⟨other, method'⟩ := two
  simpa [rename] using same

@[simp] theorem Subject.beq_rename (one two : Subject) :
    (one.rename anew == two.rename anew) = (one == two) := by
  rw [Bool.eq_iff_iff, beq_iff_eq, beq_iff_eq, (rename_injective anew).eq_iff]

def Request.rename (request : Request) : Request :=
  { request with subject := request.subject.rename anew, file := anew request.file }

def Alias.rename (entry : Alias) : Alias :=
  { entry with subject := entry.subject.rename anew, file := anew entry.file }

def renamePlace (place : Id × String) : Id × String :=
  (anew place.1, place.2)

theorem rename_place_injective : Function.Injective (renamePlace anew) := by
  rintro ⟨one, text⟩ ⟨two, text'⟩ same
  simpa [renamePlace] using same

namespace Registry

/-- The registry with other names; what it has to tell stays as it is. -/
def rename (registry : Registry) : Registry where
  internal := registry.internal.translate anew id
  segments := registry.segments.translate (renamePlace anew) anew
  referenced := registry.referenced.map anew
  declared := registry.declared.map anew
  requests := registry.requests.map (Request.rename anew)
  reserved := registry.reserved.translate (renamePlace anew) anew
  resolved := registry.resolved
  aliases := registry.aliases.map (Alias.rename anew)
  journal := registry.journal

def Follows (one two : Registry) : Prop :=
  ∃ journal, two = { one.rename anew with journal }

section Answers

variable {anew} {one two : Registry} (follows : Follows anew one two)

include follows

theorem Follows.internal? (target : Id) : two.internal? (anew target) = one.internal? target := by
  obtain ⟨journal, rfl⟩ := follows
  exact (Table.get?_translate anew.injective one.internal target).trans (congrFun Option.map_id _)

theorem Follows.aliases : two.aliases = one.aliases.map (Alias.rename anew) := by
  obtain ⟨journal, rfl⟩ := follows
  rfl

theorem Follows.holder? (file : Id) (name : String) :
    two.holder? (anew file) name = (one.holder? file name).map anew := by
  obtain ⟨journal, rfl⟩ := follows
  have owner : ({ one.rename anew with journal } : Registry).aliasOwner? (anew file) name =
      (one.aliasOwner? file name).map (Subject.rename anew) := by
    have found : (one.aliases.map (Alias.rename anew)).find? (fun entry =>
        entry.file == anew file && entry.name == name) =
          (one.aliases.find? fun entry => entry.file == file && entry.name == name).map
            (Alias.rename anew) :=
      Lists.find?_image (fun entry => by simp [Alias.rename]) one.aliases
    unfold aliasOwner?
    change ((one.aliases.map (Alias.rename anew)).find? _).map Alias.subject = _
    rw [found, Option.map_map, Option.map_map]
    rfl
  unfold Registry.holder?
  rw [owner]
  cases one.aliasOwner? file name with
  | some subject => rfl
  | none => exact Table.get?_translate (rename_place_injective anew) one.reserved (file, name)

theorem Follows.namesIn (file : Id) : two.namesIn (anew file) = one.namesIn file := by
  obtain ⟨journal, rfl⟩ := follows
  have aliases : (one.aliases.map (Alias.rename anew)).filter (fun entry => entry.file == anew file) =
      (one.aliases.filter fun entry => entry.file == file).map (Alias.rename anew) :=
    Lists.filter_image (fun entry => by simp [Alias.rename]) one.aliases
  have reserved : (one.reserved.keys.map (renamePlace anew)).filter (fun place => place.1 == anew file) =
      (one.reserved.keys.filter fun place => place.1 == file).map (renamePlace anew) :=
    Lists.filter_image (fun place => by simp [renamePlace]) one.reserved.keys
  unfold Registry.namesIn
  change ((one.aliases.map (Alias.rename anew)).filter _).map Alias.name ++
    ((one.reserved.translate (renamePlace anew) anew).keys.filter _).map Prod.snd = _
  rw [Table.keys_translate, aliases, reserved, List.map_map, List.map_map]
  rfl

theorem Follows.aliasesOf (subject : Subject) :
    two.aliasesOf (subject.rename anew) = one.aliasesOf subject := by
  have aliases : (one.aliases.map (Alias.rename anew)).filter (fun entry =>
      entry.subject == subject.rename anew) =
        (one.aliases.filter fun entry => entry.subject == subject).map (Alias.rename anew) :=
    Lists.filter_image (fun entry => by simp [Alias.rename]) one.aliases
  unfold Registry.aliasesOf
  rw [follows.aliases, aliases, List.map_map]
  rfl

theorem Follows.firstFree (file : Id) (roles : List Role) (obstacle : String) (bases : List String) :
    two.firstFree (anew file) roles obstacle bases = one.firstFree file roles obstacle bases := by
  have obstacles : ∀ base, two.obstacle? (anew file) roles base = one.obstacle? file roles base := by
    intro base
    unfold Registry.obstacle?
    congr 1
    funext name
    rw [follows.holder?, Option.isSome_map]
  induction bases generalizing obstacle with
  | nil => rfl
  | cons base rest induction =>
      rw [Registry.firstFree, Registry.firstFree, obstacles]
      split
      · rfl
      · exact induction _

theorem Follows.queue : two.queue = one.queue.map (Request.rename anew) := by
  obtain ⟨journal, rfl⟩ := follows
  exact Lists.sort_by_map fun _ _ _ _ => rfl

/-- Whether every node referred to was declared does not depend on the names. -/
theorem Follows.undeclared : two.undeclared.isEmpty = one.undeclared.isEmpty := by
  obtain ⟨journal, rfl⟩ := follows
  have filtered : (one.referenced.map anew).filter (fun target => target ∉ one.declared.map anew) =
      (one.referenced.filter fun target => target ∉ one.declared).map anew := by
    refine Lists.filter_image (fun target => ?_) one.referenced
    exact decide_eq_decide.mpr (not_congr anew.mem_map_iff)
  unfold Registry.undeclared
  rw [(Lists.sort_by_perm _ _).isEmpty_eq, (Lists.sort_by_perm _ _).isEmpty_eq]
  change ((one.referenced.map anew).filter fun target =>
    decide (target ∉ one.declared.map anew)).isEmpty = _
  rw [filtered, List.isEmpty_map]

end Answers

section Steps

open Step

variable {anew} {graph graph' : Graph}

theorem lockstep_modify {change change' : Registry → Registry}
    (each : ∀ registry journal, ∃ later, change' { registry.rename anew with journal } =
      { (change registry).rename anew with journal := later }) :
    Lockstep (Follows anew) id (modify change : Step Registry Unit) (modify change') := by
  refine .of_modify fun one two follows => ?_
  obtain ⟨journal, rfl⟩ := follows
  obtain ⟨later, same⟩ := each one journal
  exact ⟨later, same⟩

theorem lockstep_note (event event' : Journal.Event) :
    Lockstep (Follows anew) id (note event) (note event') :=
  lockstep_modify fun _ _ => ⟨_, rfl⟩

theorem lockstep_record (node : Node) (internal : String) :
    Lockstep (Follows anew) id (record node internal) (record (node.rename anew) internal) := by
  refine .of_bind (lockstep_modify fun registry journal => ⟨journal, ?_⟩) fun _ =>
    .of_bind (lockstep_note _ _) fun _ => .of_pure rfl
  exact congrArg (fun table => ({ registry.rename anew with internal := table, journal } : Registry))
    (Table.set_translate anew.injective registry.internal node.id internal)

theorem lockstep_claim_segment (node : Node) (segment : String) :
    Lockstep (Follows anew) id (claimSegment node segment)
      (claimSegment (node.rename anew) segment) := by
  refine .of_get_bind fun one two follows => ?_
  obtain ⟨journal, rfl⟩ := follows
  have owner : ((one.rename anew).segments.get? (anew node.scope, segment)) =
      (one.segments.get? (node.scope, segment)).map anew :=
    Table.get?_translate (rename_place_injective anew) one.segments (node.scope, segment)
  dsimp only [Node.rename_scope]
  rw [owner]
  cases one.segments.get? (node.scope, segment) with
  | some other => exact .of_ite anew.eq_iff (fun _ => .of_pure rfl) fun _ => .of_fail _ _
  | none =>
      refine .of_set ⟨journal, ?_⟩
      exact congrArg (fun table => ({ one.rename anew with segments := table, journal } : Registry))
        (Table.set_translate (rename_place_injective anew) one.segments (node.scope, segment) node.id)

/-- A node is registered under the same identifier, whatever it is called. -/
theorem lockstep_register_from (renamed : graph.Renamed anew graph') (bound : Nat) (target : Id) :
    Lockstep (Follows anew) id (registerFrom graph bound target)
      (registerFrom graph' bound (anew target)) := by
  induction bound generalizing target with
  | zero => exact .of_fail _ _
  | succ bound induction =>
      unfold registerFrom
      refine .of_get_bind fun one two follows => ?_
      rw [follows.internal? target, renamed.node? target]
      cases one.internal? target with
      | some internal => exact .of_pure rfl
      | none =>
          cases graph.node? target with
          | none => exact .of_fail _ _
          | some node =>
              dsimp only [Option.map_some]
              refine .of_ite Iff.rfl (fun _ => lockstep_record node "") fun _ => ?_
              refine .of_ite (by rw [renamed.isAnonymousGroup]) (fun _ => ?_) fun _ => ?_
              · exact .of_bind (induction node.scope) fun parent => lockstep_record node parent
              · rw [renamed.groupName node]
                refine .of_bind (lockstep_claim_segment node _) fun _ => ?_
                rw [Node.rename_scope, renamed.node? node.scope]
                cases graph.node? node.scope with
                | none => exact .of_fail _ _
                | some scope =>
                    refine .of_ite Iff.rfl (fun _ => lockstep_record node _) fun _ => ?_
                    exact .of_bind (induction scope.id) fun parent => lockstep_record node _

theorem lockstep_register (renamed : graph.Renamed anew graph') (target : Id) :
    Lockstep (Follows anew) id (register graph target) (register graph' (anew target)) := by
  unfold register
  rw [renamed.size]
  exact lockstep_register_from renamed _ target

theorem mark_map (target : Id) (marked : List Id) :
    (if anew target ∈ marked.map anew then marked.map anew else marked.map anew ++ [anew target]) =
      (if target ∈ marked then marked else marked ++ [target]).map anew := by
  simp only [anew.mem_map_iff]
  split
  · rfl
  · simp

theorem lockstep_mark_referenced (target : Id) :
    Lockstep (Follows anew) id (markReferenced target) (markReferenced (anew target)) :=
  lockstep_modify fun registry journal => ⟨journal,
    congrArg (fun marks => ({ registry.rename anew with referenced := marks, journal } : Registry))
      (mark_map target registry.referenced)⟩

theorem lockstep_mark_declared (target : Id) :
    Lockstep (Follows anew) id (markDeclared target) (markDeclared (anew target)) :=
  lockstep_modify fun registry journal => ⟨journal,
    congrArg (fun marks => ({ registry.rename anew with declared := marks, journal } : Registry))
      (mark_map target registry.declared)⟩

theorem lockstep_reserve (file : Id) (name : String) (owner : Id) :
    Lockstep (Follows anew) id (reserve file name owner) (reserve (anew file) name (anew owner)) := by
  refine lockstep_modify fun registry journal => ⟨journal, ?_⟩
  have held : (registry.rename anew).reserved.contains (anew file, name) =
      registry.reserved.contains (file, name) :=
    Table.contains_translate (rename_place_injective anew) registry.reserved (file, name)
  dsimp only
  rw [held]
  split
  · rfl
  · exact congrArg (fun table => ({ registry.rename anew with reserved := table, journal } : Registry))
      (Table.set_translate (rename_place_injective anew) registry.reserved (file, name) owner)

theorem lockstep_request (wish : Request) :
    Lockstep (Follows anew) id (request wish) (request (wish.rename anew)) := by
  refine .of_get_bind fun one two follows => ?_
  obtain ⟨journal, rfl⟩ := follows
  have asked : ((one.requests.map (Request.rename anew)).any fun other =>
      other.subject == (wish.rename anew).subject) =
        one.requests.any fun other => other.subject == wish.subject := by
    rw [List.any_map]
    exact congrArg (List.any one.requests) (funext fun other => Subject.beq_rename anew _ _)
  refine .of_ite Iff.rfl (fun _ => .of_fail _ _) fun _ => ?_
  refine .of_ite Iff.rfl (fun _ => .of_fail _ _) fun _ => ?_
  refine .of_ite (iff_of_eq (congrArg (· = true) asked)) (fun _ => .of_fail _ _) fun _ => ?_
  have appended : one.requests.map (Request.rename anew) ++ [wish.rename anew] =
      (one.requests ++ [wish]).map (Request.rename anew) := by simp
  exact .of_set ⟨journal,
    congrArg (fun requests => ({ one.rename anew with requests, journal } : Registry)) appended⟩

theorem lockstep_assign (wish : Request) :
    Lockstep (Follows anew) id (assign wish) (assign (wish.rename anew)) := by
  have assigns : ∀ base role,
      Lockstep (Follows anew) id (assignRole wish base role) (assignRole (wish.rename anew) base role) := by
    intro base role
    refine .of_bind (lockstep_modify fun registry journal => ⟨journal, ?_⟩) fun _ => lockstep_note _ _
    let entry : Alias := ⟨base ++ role.word, wish.target role, role, wish.subject, wish.file⟩
    have appended : registry.aliases.map (Alias.rename anew) ++ [entry.rename anew] =
        (registry.aliases ++ [entry]).map (Alias.rename anew) := by simp
    exact congrArg (fun aliases => ({ registry.rename anew with aliases, journal } : Registry)) appended
  refine .of_get_bind fun one two follows => ?_
  have free : two.firstFree (wish.rename anew).file (wish.rename anew).roles ""
      (wish.rename anew).candidates = one.firstFree wish.file wish.roles "" wish.candidates :=
    follows.firstFree wish.file wish.roles "" wish.candidates
  rw [free]
  split
  · rename_i base _
    exact .of_forM_same fun role _ => assigns base role
  · exact .of_fail _ _

theorem lockstep_resolve : Lockstep (Follows anew) id resolve resolve := by
  refine .of_get_bind fun one two follows => ?_
  rw [follows.queue]
  obtain ⟨journal, rfl⟩ := follows
  refine .of_ite Iff.rfl (fun _ => .of_pure rfl) fun _ => ?_
  refine .of_bind (.of_set ⟨journal, rfl⟩) fun _ => ?_
  refine .of_bind (.of_forM fun wish _ => lockstep_assign wish) fun _ => ?_
  exact .of_get_bind fun _ _ _ => lockstep_note _ _

theorem lockstep_get_aliases (subject : Subject) :
    Lockstep (Follows anew) id (getAliases subject) (getAliases (subject.rename anew)) := by
  refine .of_bind lockstep_resolve fun _ => .of_get_bind fun one two follows => ?_
  rw [follows.aliasesOf]
  split
  · exact .of_fail _ _
  · exact .of_pure rfl

theorem lockstep_get_alias (subject : Subject) (role : Role) :
    Lockstep (Follows anew) id (getAlias subject role) (getAlias (subject.rename anew) role) := by
  refine .of_bind (lockstep_get_aliases subject) fun aliases => ?_
  dsimp only [id]
  split
  · exact .of_pure rfl
  · exact .of_fail _ _

end Steps

end Registry

end SchemaStubs
