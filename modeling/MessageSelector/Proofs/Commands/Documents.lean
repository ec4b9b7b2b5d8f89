import Mathlib.Data.String.Basic
import MessageSelector.Command.Report
import MessageSelector.Proofs.Outcomes
import MessageSelector.Proofs.Scans

/-!
# Documents of properties

The members of a document are in the order of their names, so no name is there twice. A document
gives properties when all its members are scalars, and then each member that is not null gives the
property of its name.
-/

namespace MessageSelector

namespace Json

/-- Members in the order of their names, no name twice. -/
def Ordered (members : List (String × Json)) : Prop :=
  members.Pairwise fun member other => member.1 < other.1

/-- What is inserted is the only new member. -/
theorem mem_insert_member {name : String} {value : Json} {members : List (String × Json)}
    {member : String × Json} (h : member ∈ insertMember name value members) :
    member = (name, value) ∨ member ∈ members := by
  induction members with
  | nil => exact .inl (List.mem_singleton.mp h)
  | cons first rest ih =>
      obtain ⟨other, old⟩ := first
      rw [insertMember] at h
      split at h
      · exact List.mem_cons.mp h
      split at h
      · exact (List.mem_cons.mp h).imp_right (List.mem_cons_of_mem _)
      · rcases List.mem_cons.mp h with rfl | h
        · exact .inr (List.mem_cons_self ..)
        · exact (ih h).imp_right (List.mem_cons_of_mem _)

/-- Inserting keeps members in order. -/
theorem Ordered.insert_member {members : List (String × Json)} (h : Ordered members)
    (name : String) (value : Json) : Ordered (insertMember name value members) := by
  induction members with
  | nil => exact List.pairwise_singleton _ _
  | cons first rest ih =>
      obtain ⟨other, old⟩ := first
      obtain ⟨hfirst, hrest⟩ := List.pairwise_cons.mp h
      rw [insertMember]
      split
      · next hbefore =>
          refine List.pairwise_cons.mpr ⟨fun member hmem => ?_, h⟩
          rcases List.mem_cons.mp hmem with rfl | hmem
          · exact hbefore
          · exact String.lt_trans hbefore (hfirst member hmem)
      next hbefore =>
      split
      · next hsame =>
          subst hsame
          exact List.pairwise_cons.mpr ⟨hfirst, hrest⟩
      · next hother =>
          refine List.pairwise_cons.mpr ⟨fun member hmem => ?_, ih hrest⟩
          rcases mem_insert_member hmem with rfl | hmem
          · exact lt_of_le_of_ne (not_lt.mp hbefore) (Ne.symm hother)
          · exact hfirst member hmem

/-- The members read to the end of an object are in order when those before them are. -/
theorem members_tail_ordered {value : Text.Scan Json} {clock : List Char}
    {members result : List (String × Json)} {text rest : List Char} (h : Ordered members)
    (hread : membersTail value clock members text = some (result, rest)) : Ordered result := by
  induction clock generalizing members text with
  | nil => cases hread
  | cons _ clock ih =>
      rw [membersTail] at hread
      obtain ⟨_, _, -, hread⟩ := (Text.Scan.bind_iff _ _ _ _).mp hread
      obtain ⟨name, _, -, hread⟩ := (Text.Scan.bind_iff _ _ _ _).mp hread
      obtain ⟨_, _, -, hread⟩ := (Text.Scan.bind_iff _ _ _ _).mp hread
      obtain ⟨_, _, -, hread⟩ := (Text.Scan.bind_iff _ _ _ _).mp hread
      obtain ⟨json, _, -, hread⟩ := (Text.Scan.bind_iff _ _ _ _).mp hread
      obtain ⟨_, _, -, hread⟩ := (Text.Scan.bind_iff _ _ _ _).mp hread
      obtain ⟨mark, _, -, hread⟩ := (Text.Scan.bind_iff _ _ _ _).mp hread
      have hmembers := h.insert_member name json
      split at hread
      · exact ih hmembers hread
      · cases hread
        exact hmembers
      · cases hread

/-- The members of an object are in order. -/
theorem object_members_ordered {value : Text.Scan Json} {result : List (String × Json)}
    {text rest : List Char} (h : objectMembers value text = some (result, rest)) :
    Ordered result := by
  obtain ⟨_, _, -, h⟩ := (Text.Scan.bind_iff _ _ _ _).mp h
  obtain ⟨_, _, -, h⟩ := (Text.Scan.bind_iff _ _ _ _).mp h
  split at h
  · cases h
    exact List.Pairwise.nil
  · exact members_tail_ordered List.Pairwise.nil h

/-- The members of a document are in order. -/
theorem read_object_ordered {text : String} {members : List (String × Json)}
    (h : readObject? text = some members) : Ordered members := by
  obtain ⟨⟨_, rest⟩, hdocument, rfl⟩ := Option.map_eq_some_iff.mp h
  obtain ⟨_, _, -, hdocument⟩ := (Text.Scan.bind_iff _ _ _ _).mp hdocument
  obtain ⟨_, _, -, hdocument⟩ := (Text.Scan.bind_iff _ _ _ _).mp hdocument
  obtain ⟨members, _, hmembers, hdocument⟩ := (Text.Scan.bind_iff _ _ _ _).mp hdocument
  obtain ⟨_, _, -, hdocument⟩ := (Text.Scan.bind_iff _ _ _ _).mp hdocument
  obtain ⟨_, _, -, hdocument⟩ := (Text.Scan.bind_iff _ _ _ _).mp hdocument
  obtain ⟨_, _, -, hdocument⟩ := (Text.Scan.bind_iff _ _ _ _).mp hdocument
  cases hdocument
  exact object_members_ordered hmembers

/-- Whether a value is neither an array nor an object. -/
def isScalar : Json → Bool
  | array _ | object _ => false
  | _ => true

/-- The value of a property that a scalar stands for, unless it is null. A whole number that no word
represents is rounded to a double. -/
def scalar? : Json → Option Value
  | boolean flag => some (.boolean flag)
  | string text => some (.string text)
  | float number => some (.float number)
  | integer number =>
    some <|
      if -9223372036854775808 ≤ number ∧ number ≤ 9223372036854775807 then
        .integer (Int64.ofInt number)
      else .float (Float.ofInt number)
  | null | array _ | object _ => none

/-- The one member of a name is the last of them. -/
theorem last_member {members : List (String × Json)} (h : Ordered members) (name : String) :
    (members.filterMap fun member =>
      if member.1 = name then member.2.scalar? else none).getLast? =
        (members.lookup name).bind scalar? := by
  induction members with
  | nil => rfl
  | cons first rest ih =>
      obtain ⟨other, json⟩ := first
      obtain ⟨hfirst, hrest⟩ := List.pairwise_cons.mp h
      by_cases hname : other = name
      · subst hname
        have hnone : rest.filterMap
            (fun member => if member.1 = other then member.2.scalar? else none) = [] := by
          rw [List.filterMap_eq_nil_iff]
          intro member hmem
          exact if_neg (hfirst member hmem).ne'
        rw [List.lookup_cons_self, Option.bind_some, List.filterMap_cons, if_pos rfl, hnone]
        cases json.scalar? <;> rfl
      · rw [List.lookup_cons, beq_false_of_ne (Ne.symm hname), List.filterMap_cons, if_neg hname]
        exact ih hrest

end Json

namespace Command

/-- The property that a member of a document gives. -/
def memberProperty (member : String × Json) : Except String (Option Assignment) := do
  return (← propertyValue member.1 member.2).map (Assignment.mk member.1)

/-- A scalar gives a property of its name, or none. -/
theorem member_property_scalar {member : String × Json} (h : member.2.isScalar = true) :
    memberProperty member = .ok (member.2.scalar?.map (Assignment.mk member.1)) := by
  obtain ⟨name, json⟩ := member
  cases json with
  | integer number =>
      by_cases hrange : -9223372036854775808 ≤ number ∧ number ≤ 9223372036854775807
      · have hnarrow : Integer.narrow number = some (Int64.ofInt number) := if_pos (by omega)
        rw [memberProperty, propertyValue, hnarrow, Json.scalar?, if_pos hrange]
        rfl
      · have hnarrow : Integer.narrow number = none := if_neg (by omega)
        rw [memberProperty, propertyValue, hnarrow, Json.scalar?, if_neg hrange]
        rfl
  | array items => cases h
  | object members => cases h
  | _ => rfl

/-- What is no scalar is refused. -/
theorem member_property_composite {member : String × Json} (h : member.2.isScalar = false) :
    ∃ message, memberProperty member = .error message := by
  obtain ⟨name, json⟩ := member
  cases json with
  | array items => exact ⟨_, rfl⟩
  | object members => exact ⟨_, rfl⟩
  | _ => cases h

/-- Scalars give properties one after the other. -/
theorem member_properties_scalar {members : List (String × Json)}
    (h : members.all (·.2.isScalar) = true) :
    members.mapM memberProperty =
      .ok (members.map fun member => member.2.scalar?.map (Assignment.mk member.1)) := by
  induction members with
  | nil => rfl
  | cons first rest ih =>
      rw [List.all_cons, Bool.and_eq_true] at h
      rw [List.mapM_cons, member_property_scalar h.1, ih h.2]
      rfl

/-- One member that is no scalar is enough for a refusal. -/
theorem member_properties_composite {members : List (String × Json)}
    (h : ¬ members.all (·.2.isScalar) = true) :
    ∃ message, members.mapM memberProperty = .error message := by
  induction members with
  | nil => exact absurd rfl h
  | cons first rest ih =>
      rw [List.mapM_cons]
      cases hfirst : first.2.isScalar with
      | false =>
          obtain ⟨message, hmessage⟩ := member_property_composite hfirst
          exact ⟨message, by rw [hmessage]; rfl⟩
      | true =>
          rw [List.all_cons, hfirst, Bool.true_and] at h
          obtain ⟨message, hmessage⟩ := ih h
          exact ⟨message, by rw [member_property_scalar hfirst, hmessage]; rfl⟩

/-- The properties that the members of a document give. -/
def propertiesOf (members : List (String × Json)) : List Assignment :=
  members.filterMap fun member => member.2.scalar?.map (Assignment.mk member.1)

/-- A document whose members are all scalars gives properties, and no other document does. -/
theorem document_properties {text : String} {members : List (String × Json)}
    (h : Json.readObject? text = some members) :
    if members.all (·.2.isScalar) then documentProperties text = .ok (propertiesOf members)
    else ∃ message, documentProperties text = .error message := by
  have hread : documentProperties text =
      members.mapM memberProperty >>= fun assignments => .ok (assignments.filterMap id) := by
    rw [documentProperties, h]
    rfl
  split
  · next hscalars =>
      rw [hread, member_properties_scalar hscalars]
      change Except.ok _ = _
      rw [List.filterMap_map]
      rfl
  · next hcomposite =>
      obtain ⟨message, hmessage⟩ := member_properties_composite hcomposite
      exact ⟨message, by rw [hread, hmessage]; rfl⟩

end Command

end MessageSelector
