-- SUMMARY: Types and formatting survive the way through JSON.
import Restyle.Interchange.Types
import Restyle.Proofs.Json.Records

/-!
# Types through JSON

Formatting, padded elements and types are decoded from what is written for them. A type is decoded
within any depth that is greater than the nesting of what is written (`Ty.decode_toJson`), and a type
that was decoded is written with no more nesting than it was read from (`Ty.shallow_decode`).
-/

namespace Restyle

namespace Json

@[simp] theorem proper_null : Proper null := .null

@[simp] theorem proper_bool (b : Bool) : Proper (bool b) := .bool b

@[simp] theorem proper_str (s : String) : Proper (str s) := .str s

@[simp] theorem proper_word (w : UInt32) : Proper (nat w.toNat) := .word w

@[simp] theorem proper_array {items : List Json} :
    Proper (array items) ↔ ∀ item ∈ items, Proper item :=
  ⟨fun h => by cases h; assumption, .array⟩

@[simp] theorem proper_getD_null {o : Option Json} :
    Proper (o.getD null) ↔ ∀ value ∈ o, Proper value := by
  cases o <;> simp

@[simp] theorem proper_object {fields : List (String × Json)} :
    Proper (object fields) ↔ ∀ field ∈ fields, Proper field.2 :=
  ⟨fun h => by cases h; assumption, .object⟩

end Json

open Decode Slot.Drawn

/-! ## Formatting -/

namespace Formatting

theorem proper_toJson (f : Formatting) : f.toJson.Proper := by
  simp only [toJson, fields, Json.proper_object]
  split_ifs <;> simp

theorem eq_empty_of_isEmpty {f : Formatting} (h : f.isEmpty = true) : f = {} := by
  obtain ⟨lead, trail⟩ := f
  simpa [isEmpty] using h

theorem decode_toJson (f : Formatting) : decode f.toJson = .ok f := by
  have htrail : Row.Written [.optional "suffix" string ""]
      (if f.trail.isEmpty then [] else [("suffix", .str f.trail)]) (f.trail, ()) :=
    .presentUnless_nil (string_str _) String.isEmpty_iff.mp
  exact Record.decode_object (by decide)
    (.presentUnless (string_str _) String.isEmpty_iff.mp htrail)

theorem shallow_decode : Shallow toJson id decode := by
  intro value f h
  obtain ⟨hpos, row, -, -⟩ := Record.drawn_of_decode h
  have hflat : f.toJson.nesting ≤ 1 := by
    simp only [toJson, fields, Json.object]
    split_ifs <;> simp [Json.nesting, Json.fieldsNesting]
  exact ⟨Nat.le_trans hflat hpos, rfl⟩

end Formatting

namespace Padded

variable {α β : Type} {encode : α → Json}

theorem toJson_map (f : β → α) (p : Padded β) :
    (p.map f).toJson encode = p.toJson fun x => encode (f x) := rfl

@[simp] theorem proper_toJson {p : Padded α} :
    (p.toJson encode).Proper ↔ (encode p.elem).Proper := by
  simp only [toJson, Json.proper_object]
  split_ifs <;> simp

theorem toJson_ne_null (p : Padded α) : p.toJson encode ≠ .null := by
  simp [toJson, Json.object]

theorem nesting_toJson (p : Padded α) :
    (p.toJson encode).nesting = (encode p.elem).nesting + 1 := by
  simp only [toJson, Json.object]
  split_ifs <;> simp [Json.nesting, Json.fieldsNesting]

theorem decode_toJson {element : Json → Decoded α} {p : Padded α}
    (h : element (encode p.elem) = .ok p.elem) : decode element (p.toJson encode) = .ok p := by
  have hnodup : ((record element).slots.map Slot.name).Nodup := by
    simp [record, Slot.optional, Slot.required]
  exact Record.decode_object hnodup
    (.presentUnless (string_str _) String.isEmpty_iff.mp (.required h .nil))

theorem shallow_decode {element : Json → Decoded α} {tidy : α → α}
    (hs : Shallow encode tidy element) :
    Shallow (toJson encode) (Padded.map tidy) (decode element) := by
  intro value p h
  obtain ⟨hpos, ⟨before, elem, _⟩, rfl, hdrawn⟩ := Record.drawn_of_decode h
  obtain ⟨hnesting, htidy⟩ := required hs hdrawn.2.1
  constructor
  · rw [nesting_toJson]
    exact hnesting
  · exact congrArg (Padded.mk before) htidy

end Padded

/-! ## Names -/

theorem Primitive.decode_toJson (source : Source) (p : Primitive) :
    decode source p.toJson = .ok p := by
  refine named_str ?_
  cases p <;> decide

theorem Flag.decode_toJson (source : Source) (f : Flag) : decode source f.toJson = .ok f := by
  refine named_str ?_
  cases f <;> decide

theorem ClassKind.decode_toJson (source : Source) (k : ClassKind) :
    decode source k.toJson = .ok k := by
  refine named_str ?_
  cases k <;> decide

/-! ## Types -/

theorem Member.listToJson_eq (ms : List Member) : listToJson ms = ms.map toJson := by
  induction ms with
  | nil => rfl
  | cons m ms ih => simp [listToJson, ih]

mutual

theorem Ty.proper_toJson : (t : Ty) → t.toJson.Proper
  | .unknown => by simp [Ty.toJson]
  | .primitive p => by simp [Ty.toJson, Primitive.toJson]
  | .declared c => by simpa [Ty.toJson] using c.proper_toJson

theorem ClassType.proper_toJson : (c : ClassType) → c.toJson.Proper
  | ⟨name, kind, none, members⟩ => by
    have hmembers := Member.proper_listToJson members
    simp only [ClassType.toJson, ClassKind.toJson, Json.proper_object]
    split_ifs with hempty
    · simp
    · simpa using hmembers
  | ⟨name, kind, some s, members⟩ => by
    have hsuper := s.proper_toJson
    have hmembers := Member.proper_listToJson members
    simp only [ClassType.toJson, ClassKind.toJson, Json.proper_object]
    split_ifs with hempty
    · simp [hsuper]
    · simpa [hsuper] using hmembers

theorem Member.proper_toJson : (m : Member) → m.toJson.Proper
  | ⟨name, ty, flags⟩ => by
    have hty := ty.proper_toJson
    simp only [Member.toJson, Json.proper_object]
    split_ifs <;> simp [hty, Flag.toJson]

theorem Member.proper_listToJson : (ms : List Member) → ∀ m ∈ Member.listToJson ms, m.Proper
  | [] => by simp [Member.listToJson]
  | m :: ms => by
    have hm := m.proper_toJson
    have hms := Member.proper_listToJson ms
    simpa [Member.listToJson] using ⟨hm, hms⟩

end

theorem ClassType.toJson_ne_null (c : ClassType) : c.toJson ≠ .null := by
  cases c
  rw [ClassType.toJson.eq_def]
  simp [Json.object]

theorem ClassType.nesting_supertype_lt {c s : ClassType} (h : c.supertype = some s) :
    s.toJson.nesting < c.toJson.nesting := by
  obtain ⟨name, kind, supertype, members⟩ := c
  obtain rfl : supertype = some s := h
  rw [ClassType.toJson]
  exact Json.nesting_lt_of_mem_fields "supertype" (by simp) none

theorem ClassType.nesting_member_lt {c : ClassType} {m : Member} (h : m ∈ c.members) :
    m.toJson.nesting < c.toJson.nesting := by
  obtain ⟨name, kind, supertype, members⟩ := c
  have hitem : m.toJson.nesting < (Json.array (Member.listToJson members)).nesting := by
    rw [Member.listToJson_eq]
    exact Json.nesting_lt_of_mem_items (List.mem_map_of_mem h) none
  have hne : members.isEmpty = false := by
    cases members with
    | nil => simp at h
    | cons => rfl
  refine Nat.lt_trans hitem ?_
  rw [ClassType.toJson.eq_def]
  exact Json.nesting_lt_of_mem_fields "members" (by simp [hne]) none

theorem Member.nesting_ty_lt (m : Member) : m.ty.toJson.nesting < m.toJson.nesting := by
  obtain ⟨name, ty, flags⟩ := m
  rw [Member.toJson]
  exact Json.nesting_lt_of_mem_fields "ty" (by simp) none

/-- Types are decoded within a depth that what is written for them does not exceed. -/
structure DecodesTypes (source : Source) (depth : Nat) : Prop where
  ty : ∀ t : Ty, t.toJson.nesting < depth → Ty.decodeWithin depth source t.toJson = .ok t
  classType : ∀ c : ClassType, c.toJson.nesting < depth →
    ClassType.decodeWithin depth source c.toJson = .ok c
  member : ∀ m : Member, m.toJson.nesting < depth →
    Member.decodeWithin depth source m.toJson = .ok m

namespace DecodesTypes

variable {source : Source} {depth : Nat}

theorem ty_succ (h : DecodesTypes source depth) (t : Ty) (ht : t.toJson.nesting < depth + 1) :
    Ty.decodeWithin (depth + 1) source t.toJson = .ok t := by
  cases t with
  | unknown => rfl
  | primitive p =>
    simp only [Ty.decodeWithin, Ty.toJson, Ty.decodeVia, variant_object]
    simp [variant.decodeAs, contents, p.decode_toJson, Functor.map, Except.map]
  | declared c =>
    have hc := h.classType c (by
      simpa [Ty.toJson, Json.object, Json.nesting, Json.fieldsNesting] using ht)
    simp only [Ty.decodeWithin, Ty.toJson, Ty.decodeVia, variant_object]
    simp [variant.decodeAs, contents, hc, Functor.map, Except.map]

theorem classType_succ (h : DecodesTypes source depth) (c : ClassType)
    (hc : c.toJson.nesting < depth + 1) :
    ClassType.decodeWithin (depth + 1) source c.toJson = .ok c := by
  obtain ⟨name, kind, supertype, members⟩ := c
  have hmembers : list (Member.decodeWithin depth source)
      (.array (Member.listToJson members)) = .ok members := by
    rw [Member.listToJson_eq]
    refine list_array fun m hm => h.member m ?_
    have hlt := ClassType.nesting_member_lt (c := ⟨name, kind, supertype, members⟩) hm
    omega
  have hrest : Row.Written [.optional "members" (list (Member.decodeWithin depth source)) []]
      (if members.isEmpty then [] else [("members", .array (Member.listToJson members))])
      (members, ()) :=
    .presentUnless_nil hmembers List.isEmpty_iff.mp
  have hnodup : ((ClassType.record source (ClassType.decodeWithin depth source)
      (Member.decodeWithin depth source)).slots.map Slot.name).Nodup := by
    simp [ClassType.record, Slot.required, Slot.optional]
  have hkind := kind.decode_toJson source
  rw [ClassType.decodeWithin, ClassType.toJson.eq_def]
  cases supertype with
  | none =>
    exact Record.decode_object hnodup
      (.required (string_str _) (.present hkind (.absent hrest)))
  | some s =>
    have hlt := ClassType.nesting_supertype_lt (c := ⟨name, kind, some s, members⟩) rfl
    have hs := nullable_some s.toJson_ne_null (h.classType s (by omega))
    exact Record.decode_object hnodup
      (.required (string_str _) (.present hkind (.present hs hrest)))

theorem member_succ (h : DecodesTypes source depth) (m : Member)
    (hm : m.toJson.nesting < depth + 1) :
    Member.decodeWithin (depth + 1) source m.toJson = .ok m := by
  obtain ⟨name, ty, flags⟩ := m
  have hty := h.ty ty (Nat.lt_of_lt_of_le (Member.nesting_ty_lt ⟨name, ty, flags⟩)
    (Nat.le_of_lt_succ hm))
  have hflags : list (Flag.decode source) (.array (flags.map Flag.toJson)) = .ok flags :=
    list_array fun f _ => f.decode_toJson source
  have hrest : Row.Written [.optional "flags" (list (Flag.decode source)) []]
      (if flags.isEmpty then [] else [("flags", .array (flags.map Flag.toJson))]) (flags, ()) :=
    .presentUnless_nil hflags List.isEmpty_iff.mp
  rw [Member.decodeWithin, Member.toJson]
  refine Record.decode_object ?_ (.required (string_str _) (.present hty hrest))
  simp [Member.record, Slot.required, Slot.optional]

end DecodesTypes

theorem decodesTypes (source : Source) (depth : Nat) : DecodesTypes source depth := by
  induction depth with
  | zero => exact ⟨nofun, nofun, nofun⟩
  | succ depth ih => exact ⟨ih.ty_succ, ih.classType_succ, ih.member_succ⟩

theorem Ty.decode_toJson (source : Source) {t : Ty} (h : t.toJson.nesting ≤ Json.nestingLimit) :
    decode source t.toJson = .ok t :=
  (decodesTypes source _).ty t (Nat.lt_succ_of_le h)

theorem ClassType.nesting_toJson_le {name : String} {kind : ClassKind}
    {supertype : Option ClassType} {members : List Member} {depth : Nat} (hpos : 0 < depth)
    (hsupertype : ((supertype.map toJson).getD .null).nesting < depth)
    (hmembers : members = [] ∨ (Json.array (members.map Member.toJson)).nesting < depth) :
    (⟨name, kind, supertype, members⟩ : ClassType).toJson.nesting ≤ depth := by
  rw [ClassType.toJson.eq_def]
  refine nesting_object_le hpos fun field hfield => ?_
  simp only [List.mem_append, List.mem_cons, List.not_mem_nil, or_false] at hfield
  rcases hfield with ((rfl | rfl) | hfield) | hfield
  · exact hpos
  · exact hpos
  · cases supertype with
    | none => simp at hfield
    | some s =>
      obtain rfl := List.mem_singleton.mp hfield
      exact hsupertype
  · split_ifs at hfield with hempty
    · simp at hfield
    · obtain rfl := List.mem_singleton.mp hfield
      rw [List.isEmpty_iff] at hempty
      rw [Member.listToJson_eq]
      exact hmembers.resolve_left hempty

theorem Member.nesting_toJson_le {name : String} {ty : Ty} {flags : List Flag} {depth : Nat}
    (hpos : 0 < depth) (hty : ty.toJson.nesting < depth)
    (hflags : flags = [] ∨ (Json.array (flags.map Flag.toJson)).nesting < depth) :
    (⟨name, ty, flags⟩ : Member).toJson.nesting ≤ depth := by
  rw [Member.toJson]
  refine nesting_object_le hpos fun field hfield => ?_
  simp only [List.mem_append, List.mem_cons, List.not_mem_nil, or_false] at hfield
  rcases hfield with (rfl | rfl) | hfield
  · exact hpos
  · exact hty
  · split_ifs at hfield with hempty
    · simp at hfield
    · obtain rfl := List.mem_singleton.mp hfield
      rw [List.isEmpty_iff] at hempty
      exact hflags.resolve_left hempty

/-- Types that were decoded are written with no more nesting than they were read from. -/
structure ShallowTypes (source : Source) (depth : Nat) : Prop where
  ty : Shallow Ty.toJson id (Ty.decodeWithin depth source)
  classType : Shallow ClassType.toJson id (ClassType.decodeWithin depth source)
  member : Shallow Member.toJson id (Member.decodeWithin depth source)

namespace ShallowTypes

variable {source : Source} {depth : Nat}

theorem ty_succ (h : ShallowTypes source depth) :
    Shallow Ty.toJson id (Ty.decodeWithin (depth + 1) source) := by
  intro value t ht
  refine ⟨?_, rfl⟩
  obtain ⟨name, found, hdecode, hnesting⟩ := variant_eq_ok ht
  simp only [variant.decodeAs] at hdecode
  split_ifs at hdecode
  · obtain ⟨_, -, heq⟩ := Except.bind_eq_ok.mp hdecode
    cases heq
    exact Nat.zero_le _
  · obtain ⟨p, hp, rfl⟩ := Except.map_eq_ok.mp hdecode
    obtain ⟨part, rfl, -⟩ := contents_eq_ok hp
    exact Nat.lt_of_le_of_lt (Nat.zero_le _) (hnesting part rfl)
  · obtain ⟨c, hc, rfl⟩ := Except.map_eq_ok.mp hdecode
    obtain ⟨part, rfl, hpart⟩ := contents_eq_ok hc
    have hle := (h.classType part c hpart).1
    have hlt := hnesting part rfl
    simp only [Ty.toJson, Json.object, Json.nesting, Json.fieldsNesting]
    omega

theorem classType_succ (h : ShallowTypes source depth) :
    Shallow ClassType.toJson id (ClassType.decodeWithin (depth + 1) source) := by
  intro value c hc
  obtain ⟨hpos, ⟨name, kind, supertype, members, _⟩, rfl, -, -, hsupertype, hmembers, -⟩ :=
    Record.drawn_of_decode hc
  have hsupertype := optional h.classType.nullable ⟨hpos, rfl⟩ hsupertype
  have hmembers := eq_or_optional h.member.list hmembers
  exact ⟨ClassType.nesting_toJson_le hpos hsupertype.1 (hmembers.imp_right And.left), rfl⟩

theorem member_succ (h : ShallowTypes source depth) :
    Shallow Member.toJson id (Member.decodeWithin (depth + 1) source) := by
  intro value m hm
  obtain ⟨hpos, ⟨name, ty, flags, _⟩, rfl, -, hty, hflags, -⟩ := Record.drawn_of_decode hm
  have hty := optional h.ty ⟨hpos, rfl⟩ hty
  have hflag : Shallow Flag.toJson id (Flag.decode source) := shallow_of_flat fun _ => rfl
  have hflags := eq_or_optional hflag.list hflags
  exact ⟨Member.nesting_toJson_le hpos hty.1 (hflags.imp_right And.left), rfl⟩

end ShallowTypes

theorem shallowTypes (source : Source) (depth : Nat) : ShallowTypes source depth := by
  induction depth with
  | zero => exact ⟨nofun, nofun, nofun⟩
  | succ depth ih => exact ⟨ih.ty_succ, ih.classType_succ, ih.member_succ⟩

theorem Ty.shallow_decode (source : Source) : Shallow toJson id (decode source) :=
  (shallowTypes source _).ty

end Restyle
