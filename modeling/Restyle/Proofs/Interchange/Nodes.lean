-- SUMMARY: Trees survive the way through JSON text.
import Restyle.Interchange.Nodes
import Restyle.Proofs.Interchange.Types
import Restyle.Proofs.Tree.Sharing

/-!
# Trees through JSON

A tree is decoded from its JSON text if the text nests no deeper than what can be read; and whatever
text a tree was decoded from, the text that is written for it nests no deeper, and is decoded to the
same tree (`Node.ofText_toText`). Each kind has two lemmas of its own: its record decodes what is
written for it (`Kind.decode_fields`), and what the record was read from nests at least as deep as
what is written (`Kind.shallow_record`).
-/

namespace Restyle

open Decode Slot.Drawn

namespace Kind

variable {α : Type} {encode : α → Json} {tidy : α → α} {child : Json → Decoded α}

/-! ## Fields that are written -/

theorem proper_textField (name text : String) : ∀ field ∈ textField name text, field.2.Proper := by
  unfold textField
  split_ifs <;> simp

theorem proper_fields {k : Kind Json} (h : ∀ value ∈ k.children, value.Proper) :
    ∀ field ∈ k.fields, field.2.Proper := by
  cases k with
  | compilationUnit | block =>
    refine List.forall_mem_cons.mpr ⟨?_, proper_textField _ _⟩
    simpa [children] using h
  | ident name ty declaration => cases declaration <;> simp [fields, ty.proper_toJson]
  | classDecl _ _ _ _ _ _ ty | literal _ ty =>
    simp_all [children, fields, or_imp, forall_and, ty.proper_toJson, ClassKind.toJson]
  | typeParameter name bounds => cases bounds <;> simp_all [children, fields]
  | _ => simp_all [children, fields, or_imp, forall_and]

theorem proper_toJson {k : Kind Json} (h : ∀ value ∈ k.children, value.Proper) :
    k.toJson.Proper :=
  Json.proper_object.mpr (List.forall_mem_cons.mpr ⟨.str _, proper_fields h⟩)

theorem key_ne_type (k : Kind Json) : ∀ field ∈ k.fields, field.1 ≠ "type" := by
  cases k with
  | ident name ty declaration => cases declaration <;> simp [fields]
  | compilationUnit | block =>
    simp only [fields, textField]
    split_ifs <;> simp
  | _ => simp [fields]

/-- Sharing leaves no trace in JSON. -/
theorem toJson_unshared (k : Kind Json) : k.unshared.toJson = k.toJson := by
  cases k <;> rfl

theorem nodup_slots (child : Json → Decoded α) (tag : Tag) :
    ((record child tag).slots.map Slot.name).Nodup := by
  cases tag <;> simp [record, Slot.required, Slot.optional]

theorem decodeTag_name (source : Source) (tag : Tag) : decodeTag source (.str tag.name) = .ok tag := by
  cases tag <;> rfl

/-- A child stands inside of a field. -/
theorem exists_field_of_mem_children {k : Kind Json} {value : Json} (h : value ∈ k.children) :
    ∃ field ∈ k.fields, value.nesting ≤ field.2.nesting := by
  have hitem {items : List Json} (hvalue : value ∈ items) :
      value.nesting ≤ (Json.array items).nesting :=
    Nat.le_of_lt (Json.nesting_lt_of_mem_items hvalue none)
  cases k with
  | modifier | ident | literal | empty => simp [children] at h
  | typeParameter name bounds =>
    cases bounds <;> simp [children] at h <;> simp [fields] <;> grind [Padded.nesting_toJson]
  | _ =>
    simp [children] at h
    simp [fields]
    grind [Padded.nesting_toJson]

theorem nesting_lt_of_mem_children {k : Kind Json} {value : Json} (h : value ∈ k.children) :
    value.nesting < k.toJson.nesting := by
  obtain ⟨⟨key, inner⟩, hfield, hle⟩ := exists_field_of_mem_children h
  have hmem := List.mem_cons_of_mem ("type", Json.str k.tag.name) hfield
  exact Nat.lt_of_le_of_lt hle (Json.nesting_lt_of_mem_fields key hmem none)

/-! ## Decoding what was written -/

theorem written_textField (name text : String) :
    Row.Written [.optional name string ""] (textField name text) (text, ()) :=
  .presentUnless_nil (string_str text) String.isEmpty_iff.mp

theorem nullable_getD {β : Type} {write : β → Json} {read : Json → Decoded β} {o : Option β}
    (hne : ∀ x, write x ≠ .null) (h : ∀ x ∈ o, read (write x) = .ok x) :
    nullable read ((o.map write).getD .null) = .ok o := by
  cases o with
  | none => rfl
  | some x => exact nullable_some (hne x) (h x rfl)

/-- The record of a kind decodes what is written for it. -/
theorem decode_fields (hne : ∀ x, encode x ≠ .null) {k : Kind α}
    (h : ∀ x ∈ k.children, child (encode x) = .ok x) (hunshared : k.unshared = k)
    (hnesting : (Json.object (k.map encode).fields).nesting ≤ Json.nestingLimit) :
    (record child k.tag).decode (.object (k.map encode).fields) = .ok k := by
  have hnodup := nodup_slots child k.tag
  have hty (ty : Ty) (hmem : ("ty", ty.toJson) ∈ (k.map encode).fields) :
      Ty.decode .buffer ty.toJson = .ok ty :=
    Ty.decode_toJson .buffer
      (Nat.le_trans (Nat.le_of_lt (Json.nesting_lt_of_mem_fields "ty" hmem none)) hnesting)
  have hlist {xs : List α} (hxs : ∀ x ∈ xs, x ∈ k.children) :
      list child (.array (xs.map encode)) = .ok xs := list_array fun x hx => h x (hxs x hx)
  have hopt {o : Option α} (ho : ∀ x ∈ o, x ∈ k.children) :
      nullable child ((o.map encode).getD .null) = .ok o :=
    nullable_getD hne fun x hx => h x (ho x hx)
  have hpadded {p : Padded α} (hp : p.elem ∈ k.children) :
      Padded.decode child ((p.map encode).toJson id) = .ok p :=
    Padded.decode_toJson (h p.elem hp)
  have hpaddedOpt {o : Option (Padded α)} (ho : ∀ p ∈ o, p.elem ∈ k.children) :
      nullable (Padded.decode child)
        (((o.map (Padded.map encode)).map (Padded.toJson id)).getD .null) = .ok o := by
    rw [Option.map_map]
    exact nullable_getD (fun p => p.toJson_ne_null) fun p hp => hpadded (ho p hp)
  have hpaddedList {p : Padded (List α)} (hp : ∀ x ∈ p.elem, x ∈ k.children) :
      Padded.decode (list child) ((p.map (List.map encode)).toJson .array) = .ok p := by
    rw [Padded.toJson_map]
    exact Padded.decode_toJson (hlist hp)
  cases k with
  | compilationUnit classes eof =>
    exact Record.decode_object hnodup
      (.required (hlist (by simp [children])) (written_textField "eof" eof))
  | classDecl modifiers keyword name typeParams superclass body ty =>
    exact Record.decode_object hnodup
      (.present (hlist (by simp [children]; tauto))
        (.required (Padded.decode_toJson (ClassKind.decode_toJson .buffer keyword.elem))
          (.required (h name (by simp [children]))
            (.present (hopt (by simp [children]; tauto))
              (.present (hpaddedOpt fun p hp => by simp [children, Option.mem_def.mp hp])
                (.required (h body (by simp [children]))
                  (.present (hty ty (by simp [map, fields])) .nil)))))))
  | block statements finish =>
    exact Record.decode_object hnodup
      (.required (hlist (by simp [children])) (written_textField "end" finish))
  | methodDecl modifiers typeParams returnType name params body =>
    exact Record.decode_object hnodup
      (.present (hlist (by simp [children]; tauto))
        (.present (hopt (by simp [children]; tauto))
          (.present (hopt (by simp [children]; tauto))
            (.required (h name (by simp [children]))
              (.required (hpaddedList (by simp [children]; tauto))
                (.present (hopt (by simp [children]; tauto)) .nil))))))
  | variableDecls modifiers typeExpr vars =>
    exact Record.decode_object hnodup
      (.present (hlist (by simp [children]; tauto))
        (.present (hopt (by simp [children]; tauto))
          (.required (hlist (by simp [children]; tauto)) .nil)))
  | namedVar name initializer =>
    exact Record.decode_object hnodup
      (.required (h name (by simp [children]))
        (.present (hpaddedOpt fun p hp => by simp [children, Option.mem_def.mp hp]) .nil))
  | lambda params parenthesized body =>
    exact Record.decode_object hnodup
      (.required (hlist (by simp [children]; tauto))
        (.present (bool_bool parenthesized) (.required (hpadded (by simp [children])) .nil)))
  | forLoop control body =>
    exact Record.decode_object hnodup
      (.required (h control (by simp [children])) (.required (h body (by simp [children])) .nil))
  | forControl init condition update =>
    exact Record.decode_object hnodup
      (.required (hlist (by simp [children]; tauto))
        (.required (h condition (by simp [children]))
          (.required (hlist (by simp [children]; tauto)) .nil)))
  | typeParameters params repeats =>
    obtain rfl : [] = repeats := by simpa [unshared] using hunshared
    exact Record.decode_object hnodup (.required (hlist (by simp [children])) .nil)
  | typeParameter name bounds =>
    have hbounds : nullable (Padded.decode (list child))
        (((bounds.map (Padded.map (List.map encode))).map (Padded.toJson .array)).getD .null) =
          .ok bounds := by
      rw [Option.map_map]
      exact nullable_getD (fun p => (p.map (List.map encode)).toJson_ne_null) fun p hp =>
        hpaddedList fun x hx => by simp [children, Option.mem_def.mp hp, hx]
    exact Record.decode_object hnodup
      (.required (h name (by simp [children])) (.present hbounds .nil))
  | modifier keyword =>
    exact Record.decode_object hnodup (.required (string_str keyword) .nil)
  | ident name ty declaration =>
    have htype := hty ty (by simp [map, fields])
    cases declaration with
    | none =>
      exact Record.decode_object hnodup
        (.required (string_str name) (.present htype (.absent .nil)))
    | some id =>
      have hid := nullable_some (by simp [Json.nat]) (word32_nat id)
      exact Record.decode_object hnodup
        (.required (string_str name) (.present htype (.present hid .nil)))
  | fieldAccess target name =>
    exact Record.decode_object hnodup
      (.required (h target (by simp [children])) (.required (h name (by simp [children])) .nil))
  | methodInvocation select name args =>
    exact Record.decode_object hnodup
      (.present (hopt (by simp [children]; tauto))
        (.required (h name (by simp [children]))
          (.required (hpaddedList (by simp [children]; tauto)) .nil)))
  | assign target value =>
    exact Record.decode_object hnodup
      (.required (h target (by simp [children])) (.required (hpadded (by simp [children])) .nil))
  | binary left operator right =>
    exact Record.decode_object hnodup
      (.required (h left (by simp [children]))
        (.required (Padded.decode_toJson (string_str operator.elem))
          (.required (h right (by simp [children])) .nil)))
  | unary operator operand isPostfix =>
    exact Record.decode_object hnodup
      (.required (string_str operator)
        (.required (h operand (by simp [children])) (.present (bool_bool isPostfix) .nil)))
  | literal text ty =>
    exact Record.decode_object hnodup
      (.required (string_str text) (.present (hty ty (by simp [map, fields])) .nil))
  | returnStmt expression =>
    exact Record.decode_object hnodup (.present (hopt (by simp [children])) .nil)
  | empty => exact Record.decode_object hnodup .nil

theorem splitTag_eq (source : Source) (found : Option Tag) (others : List (String × Json))
    {fields : List (String × Json)}
    (h : ∀ field ∈ fields, field.1 ≠ "type" ∧ field.2.isWhole = true) :
    splitTag source found others fields = .ok (found, others.reverse ++ fields) := by
  induction fields generalizing others with
  | nil => simp [splitTag]
  | cons field fields ih =>
    rw [List.forall_mem_cons] at h
    simp [splitTag, h.1.1, h.1.2, ih _ h.2]

/-- A kind is decoded from what is written for it. -/
theorem decode_toJson (source : Source) (hne : ∀ x, encode x ≠ .null)
    {k : Kind α} (hproper : (k.map encode).toJson.Proper)
    (h : ∀ x ∈ k.children, child (encode x) = .ok x) (hunshared : k.unshared = k)
    (hnesting : (k.map encode).toJson.nesting ≤ Json.nestingLimit) :
    decode source child (k.map encode).toJson = .ok k := by
  have hfields : ∀ field ∈ (k.map encode).fields, field.1 ≠ "type" ∧ field.2.isWhole = true := by
    intro field hfield
    have hmem := List.mem_cons_of_mem ("type", Json.str (k.map encode).tag.name) hfield
    exact ⟨key_ne_type _ field hfield, (Json.proper_object.mp hproper field hmem).isWhole_eq⟩
  have hsplit : splitTag source none [] (("type", .str k.tag.name) :: (k.map encode).fields) =
      .ok (some k.tag, (k.map encode).fields) := by
    simp only [splitTag, if_pos, Option.isSome_none, decodeTag_name]
    exact splitTag_eq source (some k.tag) [] hfields
  have hrecord : (record child k.tag).decode (.object (k.map encode).fields) = .ok k := by
    refine decode_fields hne h hunshared ?_
    simpa [toJson, Json.object, Json.nesting, Json.fieldsNesting] using hnesting
  simp only [toJson, tag_map, Json.object, decode, hsplit]
  exact hrecord

/-! ## Nesting of what was decoded -/

/-- Fields that fit into something with the given nesting. -/
def Fit (depth : Nat) (fields : List (String × Json)) : Prop :=
  ∀ field ∈ fields, field.2.nesting < depth

theorem fit_cons {depth : Nat} {key : String} {value : Json} {fields : List (String × Json)} :
    Fit depth ((key, value) :: fields) ↔ value.nesting < depth ∧ Fit depth fields :=
  List.forall_mem_cons

theorem fit_nil (depth : Nat) : Fit depth [] := nofun

theorem fit_textField {depth : Nat} (hpos : 0 < depth) (name text : String) :
    Fit depth (textField name text) := by
  unfold textField
  split_ifs
  · exact fit_nil depth
  · exact fit_cons.mpr ⟨hpos, fit_nil depth⟩

/-- What the record of a kind was read from nests at least as deep as what is written for the kind. -/
theorem shallow_record (hs : Shallow encode tidy child) (tag : Tag) {value : Json} {k : Kind α}
    (h : (record child tag).decode value = .ok k) :
    Fit value.nesting (k.map encode).fields ∧ (k.map tidy).unshared = k := by
  obtain ⟨hpos, row, rfl, hrow⟩ := Record.drawn_of_decode h
  have hpadded : Shallow (fun p => (p.map encode).toJson id) (Padded.map tidy)
      (Padded.decode child) := Padded.shallow_decode hs
  have hpaddedOpt : Shallow
      (fun o => ((o.map (Padded.map encode)).map (Padded.toJson id)).getD .null)
      (Option.map (Padded.map tidy)) (nullable (Padded.decode child)) := by
    simp only [Option.map_map]
    exact hpadded.nullable
  have hpaddedList : Shallow (fun p => (p.map (List.map encode)).toJson .array)
      (Padded.map (List.map tidy)) (Padded.decode (list child)) := Padded.shallow_decode hs.list
  have hpaddedListOpt : Shallow
      (fun o => ((o.map (Padded.map (List.map encode))).map (Padded.toJson .array)).getD .null)
      (Option.map (Padded.map (List.map tidy))) (nullable (Padded.decode (list child))) := by
    simp only [Option.map_map]
    exact hpaddedList.nullable
  have hstring : Shallow Json.str id string := shallow_of_flat fun _ => rfl
  have hty := Ty.shallow_decode .buffer
  -- what may be left out is written flat, but for modifiers; there another field is nested
  have hmodifiers {name : String} {xs : List α} (hdeep : 1 < value.nesting)
      (hxs : (Slot.optional name (list child) []).Drawn value.nesting xs) :=
    optional hs.list ⟨hdeep, rfl⟩ hxs
  have hopt {name : String} {o : Option α}
      (ho : (Slot.optional name (nullable child) none).Drawn value.nesting o) :=
    optional hs.nullable ⟨hpos, rfl⟩ ho
  cases tag with
  | compilationUnit =>
    obtain ⟨classes, eof, _⟩ := row
    have hclasses := required hs.list hrow.1
    have heof := fit_textField hpos "eof" eof
    simp only [record, map, fields, fit_cons, unshared, hclasses, heof, and_self]
  | classDecl =>
    obtain ⟨modifiers, keyword, name, typeParams, superclass, body, ty, _⟩ := row
    obtain ⟨hrow₁, hrow₂, hrow₃, hrow₄, hrow₅, hrow₆, hrow₇, -⟩ := hrow
    have hkind : Shallow ClassKind.toJson id (ClassKind.decode .buffer) :=
      shallow_of_flat fun _ => rfl
    have hkeyword := required (Padded.shallow_decode hkind) hrow₂
    have hdeep := Nat.lt_of_le_of_lt (Nat.le_of_eq (Padded.nesting_toJson keyword).symm) hkeyword.1
    have hmodifiers := hmodifiers hdeep hrow₁
    have hname := required hs hrow₃
    have htypeParams := hopt hrow₄
    have hsuperclass := optional hpaddedOpt ⟨hpos, rfl⟩ hrow₅
    have hbody := required hs hrow₆
    have hty := optional hty ⟨hpos, rfl⟩ hrow₇
    simp only [record, map, fields, fit_cons, unshared, hkeyword, hmodifiers, hname, htypeParams,
      hsuperclass, hbody, hty, fit_nil, and_self]
  | block =>
    obtain ⟨statements, finish, _⟩ := row
    have hstatements := required hs.list hrow.1
    have hfinish := fit_textField hpos "end" finish
    simp only [record, map, fields, fit_cons, unshared, hstatements, hfinish, and_self]
  | methodDecl =>
    obtain ⟨modifiers, typeParams, returnType, name, params, body, _⟩ := row
    obtain ⟨hrow₁, hrow₂, hrow₃, hrow₄, hrow₅, hrow₆, -⟩ := hrow
    have hparams := required hpaddedList hrow₅
    have hdeep : 1 < value.nesting := by
      have hlist := hparams.1
      rw [Padded.nesting_toJson] at hlist
      omega
    have hmodifiers := hmodifiers hdeep hrow₁
    have htypeParams := hopt hrow₂
    have hreturnType := hopt hrow₃
    have hname := required hs hrow₄
    have hbody := hopt hrow₆
    simp only [record, map, fields, fit_cons, unshared, hparams, hmodifiers, htypeParams,
      hreturnType, hname, hbody, fit_nil, and_self]
  | variableDecls =>
    obtain ⟨modifiers, typeExpr, vars, _⟩ := row
    obtain ⟨hrow₁, hrow₂, hrow₃, -⟩ := hrow
    have hvars := required hs.list hrow₃
    have hmodifiers := hmodifiers (Nat.lt_of_le_of_lt (Nat.succ_pos _) hvars.1) hrow₁
    have htypeExpr := hopt hrow₂
    simp only [record, map, fields, fit_cons, unshared, hvars, hmodifiers, htypeExpr, fit_nil,
      and_self]
  | namedVar =>
    obtain ⟨name, initializer, _⟩ := row
    have hname := required hs hrow.1
    have hinitializer := optional hpaddedOpt ⟨hpos, rfl⟩ hrow.2.1
    simp only [record, map, fields, fit_cons, unshared, hname, hinitializer, fit_nil, and_self]
  | lambda =>
    obtain ⟨params, parenthesized, body, _⟩ := row
    have hparams := required hs.list hrow.1
    have hbody := required hpadded hrow.2.2.1
    simp only [record, map, fields, fit_cons, unshared, hparams, hbody, fit_nil, and_self,
      Json.nesting, hpos]
  | forLoop =>
    obtain ⟨control, body, _⟩ := row
    have hcontrol := required hs hrow.1
    have hbody := required hs hrow.2.1
    simp only [record, map, fields, fit_cons, unshared, hcontrol, hbody, fit_nil, and_self]
  | forControl =>
    obtain ⟨init, condition, update, _⟩ := row
    have hinit := required hs.list hrow.1
    have hcondition := required hs hrow.2.1
    have hupdate := required hs.list hrow.2.2.1
    simp only [record, map, fields, fit_cons, unshared, hinit, hcondition, hupdate, fit_nil,
      and_self]
  | typeParameters =>
    obtain ⟨params, _⟩ := row
    have hparams := required hs.list hrow.1
    simp only [record, map, fields, fit_cons, unshared, hparams, fit_nil, and_self]
  | typeParameter =>
    obtain ⟨name, bounds, _⟩ := row
    have hname := required hs hrow.1
    have hbounds := optional hpaddedListOpt ⟨hpos, rfl⟩ hrow.2.1
    simp only [record, map, fields, fit_cons, unshared, hname, hbounds, fit_nil, and_self]
  | modifier =>
    exact ⟨fit_cons.mpr ⟨hpos, fit_nil _⟩, rfl⟩
  | ident =>
    obtain ⟨name, ty, declaration, _⟩ := row
    have hty := optional hty ⟨hpos, rfl⟩ hrow.2.1
    refine ⟨fit_cons.mpr ⟨hpos, fit_cons.mpr ⟨hty.1, ?_⟩⟩, rfl⟩
    cases declaration with
    | none => exact fit_nil _
    | some id => exact fit_cons.mpr ⟨hpos, fit_nil _⟩
  | fieldAccess =>
    obtain ⟨target, name, _⟩ := row
    have htarget := required hs hrow.1
    have hname := required hs hrow.2.1
    simp only [record, map, fields, fit_cons, unshared, htarget, hname, fit_nil, and_self]
  | methodInvocation =>
    obtain ⟨select, name, args, _⟩ := row
    have hselect := hopt hrow.1
    have hname := required hs hrow.2.1
    have hargs := required hpaddedList hrow.2.2.1
    simp only [record, map, fields, fit_cons, unshared, hselect, hname, hargs, fit_nil, and_self]
  | assign =>
    obtain ⟨target, assigned, _⟩ := row
    have htarget := required hs hrow.1
    have hassigned := required hpadded hrow.2.1
    simp only [record, map, fields, fit_cons, unshared, htarget, hassigned, fit_nil, and_self]
  | binary =>
    obtain ⟨left, operator, right, _⟩ := row
    have hleft := required hs hrow.1
    have hoperator := required (Padded.shallow_decode hstring) hrow.2.1
    have hright := required hs hrow.2.2.1
    simp only [record, map, fields, fit_cons, unshared, hleft, hoperator, hright, fit_nil, and_self]
  | unary =>
    obtain ⟨operator, operand, isPostfix, _⟩ := row
    have hoperand := required hs hrow.2.1
    simp only [record, map, fields, fit_cons, unshared, hoperand, fit_nil, and_self, Json.nesting,
      hpos]
  | literal =>
    obtain ⟨text, ty, _⟩ := row
    have hty := optional hty ⟨hpos, rfl⟩ hrow.2.1
    simp only [record, map, fields, fit_cons, unshared, hty, fit_nil, and_self, Json.nesting, hpos]
  | returnStmt =>
    obtain ⟨expression, _⟩ := row
    have hexpression := hopt hrow.1
    simp only [record, map, fields, fit_cons, unshared, hexpression, fit_nil, and_self]
  | empty => exact ⟨fit_nil _, rfl⟩

theorem splitTag_eq_ok {source : Source} {found tag : Option Tag}
    {others fields rest : List (String × Json)}
    (h : splitTag source found others fields = .ok (tag, rest)) :
    ∀ field ∈ rest, field ∈ others ∨ field ∈ fields := by
  fun_induction splitTag source found others fields with
  | case1 =>
    cases h
    simp
  | case2 => cases h
  | case3 found others value fields _ ih =>
    obtain ⟨tag', htag, h⟩ := Except.bind_eq_ok.mp h
    intro field hfield
    exact (ih tag' h field hfield).imp_right (List.mem_cons_of_mem _)
  | case4 found others key value fields _ _ ih =>
    intro field hfield
    rcases ih h field hfield with hmem | hmem
    · rcases List.mem_cons.mp hmem with rfl | hmem
      · exact .inr List.mem_cons_self
      · exact .inl hmem
    · exact .inr (List.mem_cons_of_mem _ hmem)
  | case5 => cases h

/-- A kind that was decoded is written with no more nesting than it was read from. -/
theorem shallow_decode (source : Source) (hs : Shallow encode tidy child) :
    Shallow (fun k => (k.map encode).toJson) (fun k => (k.map tidy).unshared)
      (decode source child) := by
  intro value k h
  have hwithin {tag : Tag} {inner : Json} (hk : (record child tag).decode inner = .ok k)
      (hinner : inner.nesting ≤ value.nesting) :
      (k.map encode).toJson.nesting ≤ value.nesting ∧ (k.map tidy).unshared = k := by
    obtain ⟨hpos, -⟩ := Record.drawn_of_decode hk
    obtain ⟨hfit, htidy⟩ := shallow_record hs tag hk
    refine ⟨Nat.le_trans (nesting_object_le hpos ?_) hinner, htidy⟩
    exact List.forall_mem_cons.mpr ⟨hpos, hfit⟩
  cases value with
  | obj fields flaw =>
    obtain ⟨⟨found, others⟩, hsplit, h⟩ := Except.bind_eq_ok.mp h
    split_ifs at h
    cases found with
    | none => cases h
    | some tag =>
      refine hwithin h (Nat.succ_le_succ (Json.fieldsNesting_le_iff.mpr fun field hfield => ?_))
      have hmem := (splitTag_eq_ok hsplit field hfield).resolve_left (by simp)
      exact Json.fieldsNesting_le_iff.mp (Nat.le_refl _) field hmem
  | arr items flaw =>
    cases items with
    | nil =>
      simp only [decode] at h
      split_ifs at h
    | cons mark items =>
      obtain ⟨tag, htag, h⟩ := Except.bind_eq_ok.mp h
      split_ifs at h
      exact hwithin h (Nat.succ_le_succ (Nat.le_max_right _ _))
  | _ => cases h

end Kind

/-! ## Trees -/

namespace Node

theorem toJson_eq (n : Node) :
    n.toJson = .object ([("id", .nat n.id.toNat)] ++
      (if n.formatting.isEmpty then [] else [("formatting", n.formatting.toJson)]) ++
      [("kind", (n.kind.map toJson).toJson)]) := by
  rw [toJson, fold_eq]

theorem toJson_ne_null (n : Node) : n.toJson ≠ .null := by
  simp [toJson_eq, Json.object]

theorem proper_toJson (n : Node) : n.toJson.Proper := by
  induction n using induct with
  | step n ih =>
    have hkind : (n.kind.map toJson).toJson.Proper := by
      refine Kind.proper_toJson ?_
      rw [Kind.children_map, List.forall_mem_map]
      exact ih
    rw [toJson_eq]
    split_ifs <;> simp [hkind, n.formatting.proper_toJson]

theorem nesting_kind_lt (n : Node) : (n.kind.map toJson).toJson.nesting < n.toJson.nesting := by
  rw [toJson_eq]
  exact Json.nesting_lt_of_mem_fields "kind" (by simp) none

/-- A child nests less deep than its parent. -/
theorem nesting_child_lt {n child : Node} (h : child ∈ n.children) :
    child.toJson.nesting < n.toJson.nesting := by
  refine Nat.lt_trans (Kind.nesting_lt_of_mem_children ?_) (nesting_kind_lt n)
  rw [Kind.children_map]
  exact List.mem_map_of_mem h

theorem nodup_slots (kind : Json → Decoded (Kind Node)) :
    ((record kind).slots.map Slot.name).Nodup := by
  simp [record, Slot.required, Slot.optional]

/-- A tree is decoded from what is written for it. -/
theorem decodeWithin_toJson {n : Node} (hunshared : n.unshared = n)
    (hnesting : n.toJson.nesting ≤ Json.nestingLimit) {depth : Nat}
    (hdepth : n.toJson.nesting < depth) (source : Source) :
    decodeWithin depth source n.toJson = .ok n := by
  induction n using induct generalizing depth source with
  | step n ih =>
    obtain ⟨depth, rfl⟩ : ∃ k, depth = k + 1 := ⟨depth - 1, by omega⟩
    have hchildren : ∀ child ∈ n.kind.children,
        decodeWithin depth .buffer child.toJson = .ok child := by
      intro child hchild
      have hlt := nesting_child_lt hchild
      exact ih child hchild (unshared_of_mem_children hunshared hchild) (by omega) (by omega) .buffer
    have hproper : (n.kind.map toJson).toJson.Proper := by
      refine Kind.proper_toJson ?_
      rw [Kind.children_map, List.forall_mem_map]
      exact fun child _ => child.proper_toJson
    have hkind := Kind.decode_toJson source toJson_ne_null hproper hchildren
      (kind_unshared_of_unshared hunshared)
      (Nat.le_trans (Nat.le_of_lt n.nesting_kind_lt) hnesting)
    rw [decodeWithin, toJson_eq]
    obtain ⟨id, formatting, kind⟩ := n
    exact Record.decode_object (nodup_slots _)
      (.required (word32_nat id)
        (.presentUnless formatting.decode_toJson Formatting.eq_empty_of_isEmpty
          (.required hkind .nil)))

theorem shallow_decodeWithin (depth : Nat) (source : Source) :
    Shallow toJson unshared (decodeWithin depth source) := by
  induction depth generalizing source with
  | zero => exact nofun
  | succ depth ih =>
    intro value n h
    obtain ⟨hpos, ⟨id, formatting, kind, _⟩, rfl, -, hformatting, hkind, -⟩ :=
      Record.drawn_of_decode h
    have hformatting := eq_or_optional Formatting.shallow_decode hformatting
    have hkind := required (Kind.shallow_decode source (ih .buffer)) hkind
    constructor
    · rw [toJson_eq]
      refine nesting_object_le hpos fun field hfield => ?_
      simp only [List.mem_append, List.mem_singleton] at hfield
      rcases hfield with (rfl | hfield) | rfl
      · exact hpos
      · split_ifs at hfield with hempty
        · simp at hfield
        · obtain rfl := List.mem_singleton.mp hfield
          rcases hformatting with rfl | hformatting
          · exact absurd rfl hempty
          · exact hformatting.1
      · exact hkind.1
    · rw [unshared_eq]
      exact congrArg (Node.mk id formatting) hkind.2

/-- Sharing leaves no trace in JSON. -/
theorem toJson_unshared (n : Node) : n.unshared.toJson = n.toJson := by
  induction n using induct with
  | step n ih =>
    have hchildren : n.kind.map (toJson ∘ unshared) = n.kind.map toJson := Kind.map_congr ih
    have hkind : n.unshared.kind.map toJson = (n.kind.map toJson).unshared := by
      rw [kind_unshared, ← Kind.unshared_map, Kind.map_map, hchildren]
    rw [toJson_eq, toJson_eq, hkind, Kind.toJson_unshared, id_unshared, formatting_unshared]

theorem ofText_eq_ok {text : String} {n : Node} (h : ofText text = .ok n) :
    n.toJson.nesting ≤ Json.nestingLimit ∧ n.unshared = n := by
  obtain ⟨n', hdecode, h⟩ := Except.bind_eq_ok.mp h
  split at h
  · cases h
    obtain ⟨hnesting, hunshared⟩ := shallow_decodeWithin _ _ _ n hdecode
    exact ⟨Nat.le_trans hnesting (Json.nesting_read text), hunshared⟩
  · cases h

theorem ofText_toText_of_nesting {n : Node} (h : n.toJson.nesting ≤ Json.nestingLimit) :
    ofText n.toText = .ok n.unshared := by
  rw [← toJson_unshared] at h
  have hread := Json.read_compact n.unshared.proper_toJson h
  have hdecode := decodeWithin_toJson n.unshared_unshared h (Nat.lt_succ_of_le h) .text
  rw [ofText, toText, ← toJson_unshared, Decode.text, hread]
  simp only [decode, hdecode]
  rfl

/-- A tree is decoded from its text if that nests no deeper than the limit, and whatever text a tree
    was decoded from, its own text is within the limit and decoded to the same tree. -/
theorem ofText_toText :
    (∀ n : Node, n.toJson.nesting ≤ Json.nestingLimit → ofText n.toText = .ok n.unshared) ∧
    ∀ (text : String) (n : Node), ofText text = .ok n →
      n.toJson.nesting ≤ Json.nestingLimit ∧ ofText n.toText = .ok n := by
  refine ⟨fun n h => ofText_toText_of_nesting h, fun text n h => ?_⟩
  obtain ⟨hnesting, hunshared⟩ := ofText_eq_ok h
  have hdecoded := ofText_toText_of_nesting hnesting
  rw [hunshared] at hdecoded
  exact ⟨hnesting, hdecoded⟩

/-- A name with a class type whose supertype has a member. -/
def attributedName : Node :=
  ⟨7, ⟨" ", ""⟩,
    .ident "x"
      (.declared ⟨"a.B", .interface,
        some ⟨"a.C", .plain, none, [⟨"x", .primitive .int, [.isPublic, .isFinal]⟩]⟩, []⟩)
      (some 3)⟩

/-- A node and its kind as arrays. -/
theorem ofText_arrays : ofText "[3,[],[\"Empty\"]]" = .ok ⟨3, {}, .empty⟩ := by
  have hscan : Token.scan "[3,[],[\"Empty\"]]" =
      [.openBracket, .num (.int 3), .comma, .openBracket, .closeBracket, .comma, .openBracket,
        .str "Empty", .closeBracket, .closeBracket] := by
    decide +kernel
  simp only [ofText, Decode.text, Json.read, Json.readWithin, hscan]
  rfl

theorem ofText_toText_attributedName :
    (attributedName.toJson.nesting ≤ Json.nestingLimit ∧
      ofText attributedName.toText = .ok attributedName.unshared) ∧
    ofText "[3,[],[\"Empty\"]]" = .ok ⟨3, {}, .empty⟩ ∧
      (Node.mk 3 {} .empty).toJson.nesting ≤ Json.nestingLimit ∧
      ofText (Node.mk 3 {} .empty).toText = .ok ⟨3, {}, .empty⟩ := by
  have hnesting : attributedName.toJson.nesting ≤ Json.nestingLimit := by decide
  exact ⟨⟨hnesting, ofText_toText.1 _ hnesting⟩, ofText_arrays, ofText_toText.2 _ _ ofText_arrays⟩

end Node

end Restyle
