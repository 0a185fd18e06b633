import SourceSurvey.Value.Literal

/-!
# Shapes of values

What a part of a document has to be so that its entries can be looked up, its members gone through
or its text written.
-/

namespace SourceSurvey

namespace Value

variable {P Q : Value → Prop} {key : String} {v : Value}

/-- The value is a mapping. -/
def IsMapping (v : Value) : Prop :=
  ∃ entries, v = .mapping entries

/-- The value is a text. -/
def IsText (v : Value) : Prop :=
  ∃ s, v = .string s

/-- The value is a text or bytes, which both have a lower case. -/
def HasLetterCase (v : Value) : Prop :=
  v.IsText ∨ ∃ octets, v = .bytes octets

/-- No whole number in the value, however deep, is too long to be written. -/
def IsWritable (v : Value) : Prop :=
  v.isWritable = true

/-- The keys of a value that is a mapping are texts. -/
def HasTextKeys (v : Value) : Prop :=
  ∀ entries, v = .mapping entries → ∀ e ∈ entries, e.1.IsText

/-- The value can be gone through. -/
def HasMembers (v : Value) : Prop :=
  ∃ items, v.members? = some items

/-- The value is a mapping, and what stands at a key, if anything does, has a property. -/
def AtKey (key : String) (P : Value → Prop) (v : Value) : Prop :=
  ∃ entries, v = .mapping entries ∧ ∀ below, entry? key entries = some below → P below

/-- The value is a mapping, and the values in it have a property. -/
def AllValues (P : Value → Prop) (v : Value) : Prop :=
  ∃ entries, v = .mapping entries ∧ ∀ e ∈ entries, P e.2

/-- The value can be gone through, and its members have a property. -/
def AllMembers (P : Value → Prop) (v : Value) : Prop :=
  ∃ items, v.members? = some items ∧ ∀ item ∈ items, P item

/-- A value can be written unless it is an integer of too many digits. -/
theorem exists_written_iff : (∃ text, v.written = .ok text) ↔ v.IsWritable := by
  unfold written IsWritable
  cases v.isWritable <;> simp

/-- A table has texts as keys when each of its keys is one. -/
theorem hasTextKeys_mapping_iff {entries : List (Value × Value)} :
    (mapping entries).HasTextKeys ↔ ∀ e ∈ entries, e.1.IsText := by
  constructor
  · intro h
    exact h entries rfl
  · rintro h _ ⟨⟩
    exact h

theorem hasTextKeys_nil : (mapping []).HasTextKeys :=
  hasTextKeys_mapping_iff.mpr (List.forall_mem_nil _)

theorem hasMembers_list (items : List Value) : (list items).HasMembers :=
  ⟨items, rfl⟩

theorem hasMembers_mapping (entries : List (Value × Value)) : (mapping entries).HasMembers :=
  ⟨entries.map (·.1), rfl⟩

theorem atKey_nil : (mapping []).AtKey key P :=
  ⟨[], rfl, nofun⟩

theorem allValues_nil : (mapping []).AllValues P :=
  ⟨[], rfl, nofun⟩

theorem allMembers_list_nil : (list []).AllMembers P :=
  ⟨[], rfl, nofun⟩

theorem allMembers_mapping_nil : (mapping []).AllMembers P :=
  ⟨[], rfl, nofun⟩

/-- A table has a property at a key when the entry has it, if there is one. -/
theorem atKey_mapping_iff {entries : List (Value × Value)} :
    (mapping entries).AtKey key P ↔ ∀ below, entry? key entries = some below → P below := by
  constructor
  · rintro ⟨entries', h, hbelow⟩
    cases h
    exact hbelow
  · intro h
    exact ⟨entries, rfl, h⟩

/-- What stands at a key or else a default has a property, if the default has it. -/
theorem getD_entry?_iff {entries : List (Value × Value)} {default : Value} (h : P default) :
    P ((Value.entry? key entries).getD default) ↔
      ∀ below, entry? key entries = some below → P below := by
  cases entry? key entries with
  | none => exact iff_of_true h nofun
  | some below => simp

/-- Only a text is the key that a text is. -/
theorem eq_string_of_same {k : Value} {s : String} (h : same k (.string s) = true) :
    k = .string s := by
  cases k with
  | string t => simpa [same] using h
  | null | bool | int | float | bytes | moment | list | set | mapping | pair => simp [same] at h

/-- A key that is the same as a text is a text. -/
theorem isText_of_same {k : Value} {s : String} (h : same k (.string s) = true) : k.IsText :=
  ⟨s, eq_string_of_same h⟩

end Value

end SourceSurvey
