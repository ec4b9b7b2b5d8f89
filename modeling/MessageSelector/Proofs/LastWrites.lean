import Mathlib
import MessageSelector.Message
import MessageSelector.Selector

/-!
# Messages as the last writes leave them

A message is built from a new one by updates, and all that a selector sees of it is the last of
them: under the name of a header what was last set there, under any other name what was last
assigned. `header_update` and `property_update` are one update, `source_build_header` and
`source_build_property` are whole runs of them.
-/

namespace MessageSelector

namespace Header

/-- The headers under the names by which selectors refer to them. -/
def byName : List (String × Header) :=
  [("JMSMessageID", messageId), ("JMSTimestamp", timestamp), ("JMSCorrelationID", correlationId),
    ("JMSType", type), ("JMSPriority", priority), ("JMSDeliveryMode", deliveryMode)]

/-- The value of a header that was never set. -/
def unset? : Header → Option Value
  | priority => some (.integer 4)
  | deliveryMode => some (.string "PERSISTENT")
  | messageId | timestamp | correlationId | type => none

/-- A header is found under its name. -/
@[simp] theorem of_name_name (header : Header) : ofName? header.name = some header := by
  cases header <;> decide

/-- A name finds no header but the one it is the name of. -/
theorem name_of_of_name {name : String} {header : Header} (h : ofName? name = some header) :
    header.name = name := by
  simpa using List.find?_some h

/-- A header goes by its name and no other. -/
theorem mem_by_name_iff {name : String} {header : Header} :
    (name, header) ∈ byName ↔ name = header.name := by
  cases header <;> simp [byName, Header.name]

/-- A name that no header goes by finds none. -/
theorem of_name_eq_none_iff {name : String} :
    ofName? name = none ↔ ∀ header, (name, header) ∉ byName := by
  constructor
  · intro hnone header hmem
    rw [mem_by_name_iff.mp hmem, of_name_name] at hnone
    cases hnone
  · intro hnone
    cases hname : ofName? name with
    | none => rfl
    | some header => exact absurd (mem_by_name_iff.mpr (name_of_of_name hname).symm) (hnone header)

end Header

namespace Message

/-- The value that an update gives to a header, if it sets the header. -/
def Update.sets? : Header → Update → Option Value
  | .messageId, .messageId id => some (.string id)
  | .correlationId, .correlationId id => some (.string id)
  | .type, .type name => some (.string name)
  | .priority, .priority level => some (.integer (Int64.ofNat (min level 9)))
  | .deliveryMode, .deliveryMode .persistent => some (.string "PERSISTENT")
  | .deliveryMode, .deliveryMode .nonPersistent => some (.string "NON_PERSISTENT")
  | .timestamp, .timestamp millis => some (.integer millis)
  | _, _ => none

/-- The value that an update assigns to a property, if it assigns to it. -/
def Update.assigns? (name : String) : Update → Option Value
  | .property other value => if other = name then some value else none
  | _ => none

/-- What updates last set a header to. -/
def lastSet (header : Header) (updates : List Update) : Option Value :=
  (updates.filterMap (Update.sets? header)).getLast?

/-- What updates last assigned to a property. -/
def lastAssigned (name : String) (updates : List Update) : Option Value :=
  (updates.filterMap (Update.assigns? name)).getLast?

/-! ## One update -/

/-- The nearest priority is the lesser of the number and nine. -/
theorem clamp_priority_val (level : Nat) : (clampPriority level).val = min level 9 := by
  unfold clampPriority
  split
  · next h =>
      dsimp only
      omega
  · next h =>
      change 9 = min level 9
      omega

/-- A header is what an update sets it to, or what it was. -/
theorem header_update (message : Message) (update : Update) (header : Header) :
    (message.update update).header? header = (update.sets? header).or (message.header? header) := by
  cases update with
  | priority level =>
      cases header with
      | priority => simp only [Message.update, header?, clamp_priority_val]; rfl
      | _ => rfl
  | deliveryMode mode => cases mode <;> cases header <;> rfl
  | _ => cases header <;> rfl

/-- A property is what an update assigns to it, or what it was. -/
theorem property_update (message : Message) (update : Update) (name : String) :
    (message.update update).properties.get? name =
      (update.assigns? name).or (message.properties.get? name) := by
  cases update with
  | property other value =>
      simp only [Message.update, Properties.get?_set, Update.assigns?, eq_comm]
      split <;> rfl
  | _ => rfl

/-! ## Runs of updates -/

/-- A run of updates is its last update after the others. -/
theorem build_concat (updates : List Update) (last : Update) :
    build (updates ++ [last]) = (build updates).update last := by
  rw [build, List.foldl_append]
  rfl

/-- The last write is the one at the end, or else the last before it. -/
theorem last_write_concat (write : Update → Option Value) (updates : List Update) (last : Update) :
    ((updates ++ [last]).filterMap write).getLast? =
      (write last).or (updates.filterMap write).getLast? := by
  rw [List.filterMap_append, List.getLast?_append]
  cases h : write last <;> simp [h]

/-- A header is what it was last set to. -/
theorem header_build (updates : List Update) (header : Header) :
    (build updates).header? header = (lastSet header updates).or header.unset? := by
  induction updates using List.reverseRecOn with
  | nil => cases header <;> rfl
  | append_singleton updates last ih =>
      rw [build_concat, header_update, ih, ← Option.or_assoc, lastSet, lastSet, last_write_concat]

/-- A property is what was last assigned to it. -/
theorem property_build (updates : List Update) (name : String) :
    (build updates).properties.get? name = lastAssigned name updates := by
  induction updates using List.reverseRecOn with
  | nil => rfl
  | append_singleton updates last ih =>
      rw [build_concat, property_update, ih, lastAssigned, lastAssigned, last_write_concat]

/-! ## What selectors see -/

/-- Under the name of a header a message offers what the header was last set to. -/
theorem source_build_header (updates : List Update) {name : String} {header : Header}
    (h : (name, header) ∈ Header.byName) :
    (build updates).source name = (lastSet header updates).or header.unset? := by
  rw [Header.mem_by_name_iff.mp h, source, Header.of_name_name]
  exact header_build updates header

/-- Under any other name it offers what was last assigned to the property. -/
theorem source_build_property (updates : List Update) {name : String}
    (h : ∀ header, (name, header) ∉ Header.byName) :
    (build updates).source name = lastAssigned name updates := by
  rw [source, Header.of_name_eq_none_iff.mpr h]
  exact property_build updates name

/-- Two runs of updates with the same last writes make messages that offer the same. -/
theorem source_build_eq {updates others : List Update}
    (hset : ∀ header, lastSet header updates = lastSet header others)
    (hassigned : ∀ name, (∀ header, (name, header) ∉ Header.byName) →
      lastAssigned name updates = lastAssigned name others) :
    (build updates).source = (build others).source := by
  funext name
  by_cases hname : ∃ header, (name, header) ∈ Header.byName
  · obtain ⟨header, hheader⟩ := hname
    rw [source_build_header updates hheader, source_build_header others hheader, hset]
  · have hother : ∀ header, (name, header) ∉ Header.byName := not_exists.mp hname
    rw [source_build_property updates hother, source_build_property others hother,
      hassigned name hother]

/-- A property assigned under the name of a header is offered under no name. -/
theorem source_build_skip (before after : List Update) {name : String} {header : Header}
    (h : (name, header) ∈ Header.byName) (value : Value) :
    (build (before ++ .property name value :: after)).source =
      (build (before ++ after)).source := by
  apply source_build_eq
  · intro other
    have hsets : (Update.property name value).sets? other = none := by cases other <;> rfl
    simp [lastSet, hsets]
  · intro other hother
    have hne : name ≠ other := by
      rintro rfl
      exact hother header h
    simp [lastAssigned, Update.assigns?, hne]

/-- The priority that a message offers is a number from zero to nine. -/
theorem source_priority (message : Message) :
    ∃ level : Int64, message.source "JMSPriority" = some (.integer level) ∧
      0 ≤ level ∧ level ≤ 9 := by
  refine ⟨Int64.ofNat message.priority.val, rfl, ?_⟩
  have hall : ∀ priority : Fin 10,
      0 ≤ Int64.ofNat priority.val ∧ Int64.ofNat priority.val ≤ 9 := by decide
  exact hall message.priority

/-- The delivery mode that a message offers is one of two texts. -/
theorem source_delivery_mode (message : Message) :
    message.source "JMSDeliveryMode" = some (.string "PERSISTENT") ∨
      message.source "JMSDeliveryMode" = some (.string "NON_PERSISTENT") := by
  change some (Value.string message.deliveryMode.text) = _ ∨
    some (Value.string message.deliveryMode.text) = _
  cases message.deliveryMode with
  | persistent => exact .inl rfl
  | nonPersistent => exact .inr rfl

/-- The last write to each field determines a message. A header is what it was last set to, or what
it is unset, and a property what was last assigned to it. So updates with the same last writes to
the headers and to the names that are no headers make messages on which every selector has the same
outcome, and it makes no difference to any selector whether a property is assigned under the name of
a header. Whatever the updates, the priority is a number from zero to nine and the delivery mode one
of two texts. -/
theorem last_writes_determine :
    (∀ updates name header, (name, header) ∈ Header.byName →
      (build updates).source name = (lastSet header updates).or header.unset?) ∧
    (∀ updates name, (∀ header, (name, header) ∉ Header.byName) →
      (build updates).source name = lastAssigned name updates) ∧
    (∀ updates others,
      (∀ header, lastSet header updates = lastSet header others) →
      (∀ name, (∀ header, (name, header) ∉ Header.byName) →
        lastAssigned name updates = lastAssigned name others) →
      (∀ selector : Selector,
        selector.truth (build updates).source = selector.truth (build others).source) ∧
      ∀ e : Expr, e.evaluate (build updates).source = e.evaluate (build others).source) ∧
    (∀ before after name header value (selector : Selector), (name, header) ∈ Header.byName →
      selector.truth (build (before ++ .property name value :: after)).source =
        selector.truth (build (before ++ after)).source) ∧
    ∀ updates,
      (∃ level : Int64, (build updates).source "JMSPriority" = some (.integer level) ∧
        0 ≤ level ∧ level ≤ 9) ∧
      ((build updates).source "JMSDeliveryMode" = some (.string "PERSISTENT") ∨
        (build updates).source "JMSDeliveryMode" = some (.string "NON_PERSISTENT")) := by
  refine ⟨fun updates name header => source_build_header updates,
    fun updates name => source_build_property updates, fun updates others hset hassigned => ?_,
    fun before after name header value selector hname => ?_,
    fun updates => ⟨source_priority _, source_delivery_mode _⟩⟩
  · have hsame := source_build_eq hset hassigned
    exact ⟨fun selector => by rw [hsame], fun e => by rw [hsame]⟩
  · rw [source_build_skip before after hname]

/-- A priority beyond nine, a value that is assigned anew, and a property under the name of a header
make the message that a single write to each of two fields makes. -/
theorem last_writes_determine_overwritten :
    let updates : List Update := [.priority 12, .property "a" (.integer 1),
      .property "JMSPriority" (.integer 1), .property "a" (.integer 2)]
    let others : List Update := [.property "a" (.integer 2), .priority 9]
    let e := Expr.arithmetic .add (.identifier "a") (.identifier "JMSPriority")
    (build updates).source "a" = some (.integer 2) ∧
      e.evaluate (build updates).source = e.evaluate (build others).source ∧
      e.evaluate (build others).source = some (.integer 11) := by
  intro updates others e
  obtain ⟨-, hproperty, hsame, -, -⟩ := last_writes_determine
  have hset (header : Header) : lastSet header updates = lastSet header others := by
    cases header <;> rfl
  have hassigned (name : String) (hname : ∀ header, (name, header) ∉ Header.byName) :
      lastAssigned name updates = lastAssigned name others := by
    by_cases ha : "a" = name
    · subst ha
      rfl
    · have hpriority : "JMSPriority" ≠ name := by
        rintro rfl
        exact hname .priority (by decide)
      simp [lastAssigned, Update.assigns?, updates, others, ha, hpriority]
  refine ⟨?_, (hsame updates others hset hassigned).2 e, ?_⟩
  · rw [hproperty updates "a" fun header => by cases header <;> decide]
    rfl
  · cbv

end Message

end MessageSelector
