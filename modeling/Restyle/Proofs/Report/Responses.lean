-- SUMMARY: Responses are decoded from the text that is emitted for them.
import Restyle.Proofs.Interchange.Types
import Restyle.Proofs.Json.Pretty
import Restyle.Report.Response

/-!
# Responses through JSON

Each record of a response is decoded from what is written for it, whatever its texts and whichever
of its optional fields have a value (`FileReport.decode_toJson`). No response nests deeper than a
handful of arrays and objects, so its emitted text is read as a whole (`Decode.text_emit`), and
every response is decoded from it (`emitted_responses_decode`).
-/

namespace Restyle

open Decode

namespace Decode

variable {α : Type}

theorem word8_nat (w : UInt8) : word8 (.nat w.toNat) = .ok w := by
  have hlt := w.toNat_lt
  have hbound : (0 : Int) ≤ (w.toNat : Int) ∧ (w.toNat : Int) < (0x100 : Nat) := by omega
  simp only [word8, natBelow, Json.nat, if_pos hbound]
  simp [Functor.map, Except.map]

/-- A whole text that was emitted is decoded if its value is. -/
theorem text_emit {decode : Json → Decoded α} {value : Json} {x : α} (hproper : value.Proper)
    (hnesting : value.nesting ≤ Json.nestingLimit) (h : decode value = .ok x) :
    text decode (emit value) = .ok x := by
  rw [text, emit, Json.read_pretty_newline hproper hnesting]
  simp only [h]
  rfl

end Decode

namespace Json

@[simp] theorem proper_byte (w : UInt8) : Proper (nat w.toNat) := by
  rw [← UInt8.toNat_toUInt32]
  exact .word _

@[simp] theorem proper_strings (ss : List String) : Proper (strings ss) := by
  simp [strings]

theorem nesting_array_le {items : List Json} {depth : Nat}
    (h : ∀ item ∈ items, item.nesting ≤ depth) : (array items).nesting ≤ depth + 1 :=
  Nat.succ_le_succ (itemsNesting_le_iff.mpr h)

end Json

/-! ## Parts of reports -/

namespace ErrorInfo

theorem proper_toJson (e : ErrorInfo) : e.toJson.Proper := by simp [toJson]

theorem nesting_toJson (e : ErrorInfo) : e.toJson.nesting = 1 := rfl

theorem decode_toJson (e : ErrorInfo) : decode e.toJson = .ok e :=
  Record.decode_object (by decide) (.required (word8_nat _) (.required (string_str _) .nil))

end ErrorInfo

namespace Transform

theorem proper_toJson (t : Transform) : t.toJson.Proper := by simp [toJson]

theorem nesting_toJson (t : Transform) : t.toJson.nesting = 1 := rfl

theorem decode_toJson (t : Transform) : decode t.toJson = .ok t :=
  Record.decode_object (by decide) (.required (string_str _) (.required (word32_nat _) .nil))

end Transform

theorem FileStatus.decode_name (s : FileStatus) : decode (.str s.name) = .ok s := by
  refine named_str ?_
  cases s <;> decide

/-! ## File reports -/

namespace FileReport

section OptionalField

variable {α : Type} {encode : α → Json}

theorem mem_optionalField {name : String} {o : Option α} {field : String × Json} :
    field ∈ optionalField name encode o ↔ ∃ x ∈ o, field = (name, encode x) := by
  cases o <;> simp [optionalField]

/-- A field is decoded whether it is left out or not. -/
theorem written_optionalField (name : String) (o : Option α) {slots : List Slot}
    {fields : List (String × Json)} {row : Row slots} {decode : Json → Decoded α}
    (hdecode : ∀ x, encode x ≠ .null ∧ decode (encode x) = .ok x)
    (h : Row.Written slots fields row) :
    Row.Written (.omittable name (nullable decode) none :: slots)
      (optionalField name encode o ++ fields) (o, row) := by
  cases o with
  | none => exact .omitted rfl h
  | some x => exact .given (nullable_some (hdecode x).1 (hdecode x).2) h

end OptionalField

/-- A report is an object of texts, the list of its transforms and its error. -/
theorem toJson_eq_object (r : FileReport) :
    ∃ fields, r.toJson = .object fields ∧ ∀ field ∈ fields,
      (∃ s, field.2 = .str s) ∨ field.2 = .array (r.transforms.map Transform.toJson) ∨
        ∃ e : ErrorInfo, field.2 = e.toJson := by
  refine ⟨_, rfl, fun field hfield => ?_⟩
  simp only [List.mem_append, List.mem_cons, List.not_mem_nil, or_false, mem_optionalField]
    at hfield
  rcases hfield with (((((rfl | rfl) | htransforms) | ⟨hash, -, rfl⟩) | ⟨path, -, rfl⟩) |
    ⟨source, -, rfl⟩) | ⟨e, -, rfl⟩
  case inr => exact .inr (.inr ⟨e, rfl⟩)
  case inl.inl.inl.inl.inr =>
    split_ifs at htransforms with hempty
    · exact absurd htransforms List.not_mem_nil
    · obtain rfl := List.mem_singleton.mp htransforms
      exact .inr (.inl rfl)
  all_goals exact .inl ⟨_, rfl⟩

theorem proper_toJson (r : FileReport) : r.toJson.Proper := by
  obtain ⟨fields, heq, hfields⟩ := r.toJson_eq_object
  rw [heq, Json.proper_object]
  intro field hfield
  rcases hfields field hfield with ⟨s, hs⟩ | htransforms | ⟨e, he⟩
  · rw [hs]
    exact .str s
  · rw [htransforms]
    simp [Transform.proper_toJson]
  · rw [he]
    exact e.proper_toJson

theorem nesting_toJson_le (r : FileReport) : r.toJson.nesting ≤ 3 := by
  obtain ⟨fields, heq, hfields⟩ := r.toJson_eq_object
  rw [heq]
  refine nesting_object_le (by decide) fun field hfield => Nat.lt_succ_of_le ?_
  rcases hfields field hfield with ⟨s, hs⟩ | htransforms | ⟨e, he⟩
  · rw [hs]
    exact Nat.zero_le 2
  · rw [htransforms]
    exact Json.nesting_array_le (List.forall_mem_map.mpr fun t _ => Nat.le_of_eq t.nesting_toJson)
  · rw [he, e.nesting_toJson]
    decide

/-- A report is decoded from what is written for it. -/
theorem decode_toJson (r : FileReport) : decode r.toJson = .ok r := by
  have hstring : ∀ s : String, Json.str s ≠ .null ∧ string (.str s) = .ok s :=
    fun s => ⟨nofun, string_str s⟩
  have herror : ∀ e : ErrorInfo, e.toJson ≠ .null ∧ ErrorInfo.decode e.toJson = .ok e :=
    fun e => ⟨nofun, e.decode_toJson⟩
  have htransforms : list Transform.decode (.array (r.transforms.map Transform.toJson)) =
      .ok r.transforms :=
    list_array fun t _ => t.decode_toJson
  have herrors := written_optionalField "error" r.error herror .nil
  have hsources := written_optionalField "source" r.source hstring herrors
  have houtputs := written_optionalField "output" r.output hstring hsources
  have hhashes := written_optionalField "content_hash" r.contentHash hstring houtputs
  have hreport : Row.Written record.slots _ _ :=
    .required (string_str r.path) (.required r.status.decode_name
      (.presentUnless htransforms List.isEmpty_iff.mp hhashes))
  have hdecoded : decode (.object _) = .ok r := Record.decode_object (by decide) hreport
  simpa only [toJson, List.append_assoc, List.cons_append, List.nil_append, List.append_nil]
    using hdecoded

end FileReport

/-! ## Responses -/

namespace FixResponse

theorem proper_toJson (r : FixResponse) : r.toJson.Proper := by
  simp [toJson, FileReport.proper_toJson]

theorem nesting_toJson_le (r : FixResponse) : r.toJson.nesting ≤ 5 := by
  refine nesting_object_le (by decide) ?_
  have hfiles : (Json.array (r.files.map FileReport.toJson)).nesting ≤ 4 :=
    Json.nesting_array_le (List.forall_mem_map.mpr fun f _ => f.nesting_toJson_le)
  simp only [List.forall_mem_cons, List.not_mem_nil, false_implies, implies_true, and_true]
  exact ⟨Nat.succ_pos _, Nat.succ_pos _, Nat.lt_succ_of_le hfiles⟩

theorem decode_toJson (r : FixResponse) : record.decode r.toJson = .ok r :=
  Record.decode_object (by decide)
    (.required (string_str _) (.required (string_str _)
      (.required (list_array fun f _ => f.decode_toJson) .nil)))

end FixResponse

namespace ErrorResponse

theorem proper_toJson (r : ErrorResponse) : r.toJson.Proper := by
  simp [toJson, ErrorInfo.proper_toJson]

theorem nesting_toJson (r : ErrorResponse) : r.toJson.nesting = 2 := rfl

theorem decode_toJson (r : ErrorResponse) : record.decode r.toJson = .ok r :=
  Record.decode_object (by decide)
    (.required (string_str _) (.required (string_str _) (.required r.error.decode_toJson .nil)))

end ErrorResponse

namespace RulesResponse

theorem proper_toJson (r : RulesResponse) : r.toJson.Proper := by simp [toJson]

theorem nesting_toJson_le (r : RulesResponse) : r.toJson.nesting ≤ 2 := by
  refine nesting_object_le (by decide) ?_
  have hrules : (Json.strings r.rules).nesting ≤ 1 :=
    Json.nesting_array_le (List.forall_mem_map.mpr fun _ _ => Nat.le_refl 0)
  simp only [List.forall_mem_cons, List.not_mem_nil, false_implies, implies_true, and_true]
  exact ⟨Nat.succ_pos _, Nat.succ_pos _, Nat.lt_succ_of_le hrules⟩

theorem decode_toJson (r : RulesResponse) : record.decode r.toJson = .ok r :=
  Record.decode_object (by decide)
    (.required (string_str _) (.required (string_str _)
      (.required (list_array fun s _ => string_str s) .nil)))

end RulesResponse

/-- Every response is decoded from the text that is emitted for it. -/
theorem emitted_responses_decode :
    (∀ r : FixResponse, FixResponse.ofText r.emit = .ok r) ∧
      (∀ r : ErrorResponse, ErrorResponse.ofText r.emit = .ok r) ∧
      (∀ r : RulesResponse, RulesResponse.ofText r.emit = .ok r) := by
  refine ⟨fun r => ?fix, fun r => ?error, fun r => ?rules⟩
  case fix =>
    exact text_emit r.proper_toJson (Nat.le_trans r.nesting_toJson_le (by decide)) r.decode_toJson
  case error =>
    exact text_emit r.proper_toJson (by rw [r.nesting_toJson]; decide) r.decode_toJson
  case rules =>
    exact text_emit r.proper_toJson (Nat.le_trans r.nesting_toJson_le (by decide)) r.decode_toJson

end Restyle
