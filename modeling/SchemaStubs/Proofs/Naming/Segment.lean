import Mathlib.Data.List.Basic
import SchemaStubs.Naming.Registry
import SchemaStubs.Proofs.Text.Joined

/-!
The class names of nodes. They end with one word, and have no point unless a name of the schema has
one, so that an identifier is taken apart into the class names it was put together from.
-/

namespace SchemaStubs

namespace Text

/-- No other character has a sign in front of the capital letters as its upper case. -/
theorem to_upper_ne_sign {sign c : Char} (small : 0 < sign.toNat ∧ sign.toNat < 'A'.toNat)
    (other : c ≠ sign) : toUpper c ≠ sign := by
  have codes : c.toNat ≠ sign.toNat := fun same => other (Char.toNat_inj.mp same)
  intro same
  apply codes
  have upper := congrArg Char.toNat same
  unfold toUpper at upper
  split at upper
  · rename_i ascii
    have table : ∀ code < 128, 'A'.toNat ≤ (Char.ofNat code).toUpper.toNat ∨
        (Char.ofNat code).toUpper = Char.ofNat code := by decide
    have known := table c.toNat ascii
    rw [Char.ofNat_toNat] at known
    rcases known with capital | unchanged
    · omega
    · rw [← upper, unchanged]
  · split at upper
    · rename_i row found
      -- the partners of the table are capital letters or lie behind these
      have high : ∀ row ∈ upperRows, 'A'.toNat ≤ row.upper := by decide +kernel
      have behind := high row (List.mem_of_find?_eq_some found)
      unfold Char.ofNat at upper
      by_cases valid : (row.upper + (c.toNat - row.low)).isValidChar
      · rw [dif_pos valid] at upper
        have code : row.upper + (c.toNat - row.low) = sign.toNat := upper
        omega
      · rw [dif_neg valid] at upper
        have code : 0 = sign.toNat := upper
        omega
    · exact upper

theorem mem_of_mem_splitOnP {isBreak : Char → Bool} {text run : List Char} {c : Char}
    (isRun : run ∈ text.splitOnP isBreak) (member : c ∈ run) : c ∈ text := by
  induction text generalizing run with
  | nil => simp_all
  | cons first rest induction =>
      rw [List.splitOnP_cons_eq_if_modifyHead] at isRun
      split at isRun
      · rcases List.mem_cons.mp isRun with rfl | later
        · cases member
        · exact List.mem_cons_of_mem _ (induction later member)
      · rcases parts : rest.splitOnP isBreak with _ | ⟨head, others⟩
        · rw [parts] at isRun
          cases isRun
        · rw [parts, List.modifyHead_cons] at isRun
          rw [parts] at induction
          rcases List.mem_cons.mp isRun with rfl | later
          · rcases List.mem_cons.mp member with rfl | inHead
            · exact List.mem_cons_self
            · exact List.mem_cons_of_mem _ (induction List.mem_cons_self inHead)
          · exact List.mem_cons_of_mem _ (induction (List.mem_cons_of_mem _ later) member)

theorem not_mem_pascal {sign : Char} (small : 0 < sign.toNat ∧ sign.toNat < 'A'.toNat)
    {text : String} (plain : sign ∉ text.toList) : sign ∉ (pascal text).toList := by
  unfold pascal runs
  rw [String.toList_ofList]
  intro member
  obtain ⟨run, isRun, inside⟩ := List.mem_flatMap.mp member
  have fromText : sign ∉ run := fun inRun =>
    plain (mem_of_mem_splitOnP (List.mem_of_mem_filter isRun) inRun)
  cases run with
  | nil => cases inside
  | cons first rest =>
      rw [List.mem_cons, not_or] at fromText
      rcases List.mem_cons.mp inside with atFirst | later
      · exact to_upper_ne_sign small (Ne.symm fromText.1) atFirst.symm
      · exact fromText.2 later

theorem not_mem_identifier {sign : Char} (other : isIdentifierChar sign = false) (text : String) :
    sign ∉ (identifier text).toList := by
  have apart : ∀ c, identifierChar c ≠ sign := by
    rintro c rfl
    unfold identifierChar at other
    split at other
    · rename_i holds
      rw [holds] at other
      cases other
    · cases other
  unfold identifier identifierChars
  rw [String.toList_ofList]
  split
  · exact List.not_mem_nil
  · rename_i first rest _
    have tail : sign ∉ identifierChar first :: rest.map identifierChar := by
      rw [← List.map_cons, List.mem_map]
      rintro ⟨c, _, same⟩
      exact apart c same
    dsimp only
    split
    · rw [List.mem_cons, not_or]
      refine ⟨?_, tail⟩
      rintro rfl
      cases other
    · exact tail

end Text

theorem Node.segment_undotted {node : Node} {groupName : String} (plain : '.' ∉ node.name.toList)
    (plainGroup : '.' ∉ groupName.toList) : '.' ∉ (node.segment groupName).toList := by
  have around : ∀ middle ending : String, '.' ∉ middle.toList → '.' ∉ ending.toList →
      '.' ∉ ("_" ++ middle ++ ending).toList := by
    intro middle ending inMiddle inEnding
    rw [String.toList_append, String.toList_append, List.mem_append, List.mem_append]
    exact not_or.mpr ⟨not_or.mpr ⟨by decide, inMiddle⟩, inEnding⟩
  unfold segment
  split
  · refine around _ _ (Text.not_mem_pascal (by decide) ?_) (by decide)
    split
    · exact plain
    · exact plainGroup
  · split
    · exact around _ _ plain (by decide)
    · exact around _ _ plain (by decide)
    · exact around _ _ plain (by decide)

theorem Node.segment_ne_empty (node : Node) (groupName : String) : node.segment groupName ≠ "" := by
  have marked : ∀ rest : String, "_" ++ rest ≠ "" := by
    intro rest same
    have chars := congrArg String.toList same
    rw [String.toList_append] at chars
    simp at chars
  unfold segment
  split
  · rw [String.append_assoc]
    exact marked _
  · split <;> rw [String.append_assoc] <;> exact marked _

def moduleWord : String :=
  "Module"

theorem Text.ends_with_append {front back ending : String} (ends : endsWith ending back = true) :
    endsWith ending (front ++ back) = true := by
  unfold endsWith at ends ⊢
  rw [List.isSuffixOf_iff_suffix] at ends ⊢
  rw [String.toList_append]
  exact ends.trans (List.suffix_append _ _)

theorem Node.segment_ends_with (node : Node) (groupName : String) :
    Text.endsWith moduleWord (node.segment groupName) = true := by
  unfold segment
  split
  · exact Text.ends_with_append (by decide)
  · split
    · exact Text.ends_with_append (by decide)
    · exact Text.ends_with_append (by decide)
    · exact Text.ends_with_append (by decide)

theorem Text.not_ends_with_module {front back : String} {c : Char}
    (last : back.toList.getLast? = some c) (other : c ≠ 'e') :
    endsWith moduleWord (front ++ back) = false := by
  rw [Bool.eq_false_iff]
  intro ends
  unfold endsWith at ends
  rw [List.isSuffixOf_iff_suffix] at ends
  obtain ⟨before, whole⟩ := ends
  have present : back.toList ≠ [] := by
    intro none
    rw [none] at last
    cases last
  have ending := congrArg List.getLast? whole
  rw [String.toList_append, List.getLast?_append_of_ne_nil _ present, last,
    List.getLast?_append_of_ne_nil _ (by decide)] at ending
  have mark : moduleWord.toList.getLast? = some 'e' := by decide
  rw [mark] at ending
  cases ending
  exact other rfl

theorem Registry.qualify_ne_empty (parent : String) (node : Node) (groupName : String) :
    qualify parent (node.segment groupName) ≠ "" := by
  unfold qualify
  split
  · exact node.segment_ne_empty groupName
  · intro same
    have chars := congrArg String.toList same
    rw [String.toList_append, String.toList_append] at chars
    simp at chars

theorem Registry.after_last_qualify {parent segment : String} (plain : '.' ∉ segment.toList) :
    Text.afterLast '.' (qualify parent segment) = segment := by
  unfold qualify
  split
  · exact Text.after_last_eq_self plain
  · rw [Text.after_last_append plain]
    have none : Text.afterLast '.' (parent ++ ".") = "" := by
      unfold Text.afterLast
      rw [String.toList_append, List.reverse_append]
      rfl
    rw [none, String.empty_append]

namespace Graph

/-- No declaration and no field has a name with a point. The name of a file is its path and may have
one. -/
def Undotted (graph : Graph) : Prop :=
  ∀ node ∈ graph.nodes, (node.kind ≠ .file → '.' ∉ node.name.toList) ∧
    ∀ field ∈ node.fields, '.' ∉ field.name.toList

instance (graph : Graph) : Decidable graph.Undotted :=
  inferInstanceAs (Decidable (∀ node ∈ graph.nodes, (node.kind ≠ .file → '.' ∉ node.name.toList) ∧
    ∀ field ∈ node.fields, '.' ∉ field.name.toList))

theorem mem_of_group_field? {graph : Graph} {id : Id} {field : Field}
    (found : graph.groupField? id = some field) : ∃ parent ∈ graph.nodes, field ∈ parent.fields := by
  unfold groupField? at found
  simp only [Option.bind_eq_bind, Option.bind_eq_some_iff] at found
  obtain ⟨body, _, rest⟩ := found
  split at rest
  · cases rest
  · simp only [Option.bind_eq_some_iff] at rest
    obtain ⟨parent, isParent, listed⟩ := rest
    exact ⟨parent, List.mem_of_find?_eq_some isParent, List.mem_of_find?_eq_some listed⟩

theorem Undotted.groupName {graph : Graph} (undotted : graph.Undotted) (node : Node) :
    '.' ∉ (Registry.groupName graph node).toList := by
  unfold Registry.groupName
  rcases found : graph.groupField? node.id with _ | field
  · decide
  · obtain ⟨parent, isParent, listed⟩ := mem_of_group_field? found
    exact (undotted parent isParent).2 field listed

theorem Undotted.segment {graph : Graph} (undotted : graph.Undotted) {node : Node}
    (member : node ∈ graph.nodes) (inner : node.kind ≠ .file) :
    '.' ∉ (node.segment (Registry.groupName graph node)).toList :=
  Node.segment_undotted ((undotted node member).1 inner) (undotted.groupName node)

end Graph

end SchemaStubs
