-- SUMMARY: What is written for a record is decoded to it, and decoding never digs deeper than the text.
import Mathlib.Data.List.Nodup
import Restyle.Json.Record
import Restyle.Proofs.Json.Reading
import Restyle.Proofs.Tree.Runs

/-!
# Decoding what was written

Two statements about every decoder. What is written for a record is decoded to the same record: its
fields stand in the order of the slots, and a field may be left out where the slot has its value
(`Row.Written`, `Record.decode_object`). And what a decoder accepts comes from inside of the value, or
is the value of a slot for when it is left out (`Slot.Drawn`, `Record.drawn_of_decode`); so it can be
written with no more nesting (`Decode.Shallow`).
-/

namespace Restyle

/-! ## Results of failing functions -/

namespace Except

variable {ε α β : Type}

theorem map_eq_ok {f : α → β} {x : Except ε α} {b : β} :
    f <$> x = .ok b ↔ ∃ a, x = .ok a ∧ f a = b := by
  cases x <;> simp [Functor.map, Except.map]

theorem exists_mem_of_mapM {f : α → Except ε β} {l : List α} {l' : List β}
    (h : l.mapM f = .ok l') : ∀ b ∈ l', ∃ a ∈ l, f a = .ok b := by
  induction l generalizing l' with
  | nil =>
    cases h
    simp
  | cons a l ih =>
    rw [List.mapM_cons] at h
    obtain ⟨b, hb, h⟩ := bind_eq_ok.mp h
    obtain ⟨bs, hbs, heq⟩ := bind_eq_ok.mp h
    cases heq
    refine List.forall_mem_cons.mpr ⟨⟨a, List.mem_cons_self, hb⟩, fun b' hb' => ?_⟩
    obtain ⟨a', ha', h'⟩ := ih hbs b' hb'
    exact ⟨a', List.mem_cons_of_mem _ ha', h'⟩

end Except

/-! ## Whole values -/

namespace Json

theorem allWhole_of_forall {items : List Json} (h : ∀ item ∈ items, item.isWhole = true) :
    allWhole items = true := by
  induction items with
  | nil => rfl
  | cons item items ih =>
    rw [List.forall_mem_cons] at h
    simp [allWhole, h.1, ih h.2]

theorem fieldsWhole_of_forall {fields : List (String × Json)}
    (h : ∀ field ∈ fields, field.2.isWhole = true) : fieldsWhole fields = true := by
  induction fields with
  | nil => rfl
  | cons field fields ih =>
    rw [List.forall_mem_cons] at h
    simp [fieldsWhole, h.1, ih h.2]

theorem Proper.isWhole_eq {value : Json} (h : Proper value) : value.isWhole = true := by
  induction h with
  | null | bool | str | word => simp [Json.nat, isWhole]
  | array _ ih => simp [Json.array, isWhole, allWhole_of_forall ih]
  | object _ ih => simp [Json.object, isWhole, fieldsWhole_of_forall ih]

end Json

/-! ## Fields that are written -/

/-- Fields written for the values of a row, in the order of the slots. A field may be left out if the
    slot fills in its value. -/
inductive Row.Written : (slots : List Slot) → List (String × Json) → Row slots → Prop
  | nil : Written [] [] ()
  | given {slot : Slot} {slots : List Slot} {fields : List (String × Json)} {value : Json}
      {x : slot.Carrier} {row : Row slots} (hx : slot.decode value = .ok x)
      (h : Written slots fields row) :
      Written (slot :: slots) ((slot.name, value) :: fields) (x, row)
  | omitted {slot : Slot} {slots : List Slot} {fields : List (String × Json)} {x : slot.Carrier}
      {row : Row slots} (hx : slot.omitted = some x) (h : Written slots fields row) :
      Written (slot :: slots) fields (x, row)

namespace Row.Written

variable {slots : List Slot} {fields : List (String × Json)} {row : Row slots}

theorem name_mem (h : Written slots fields row) :
    ∀ field ∈ fields, field.1 ∈ slots.map Slot.name := by
  induction h with
  | nil => simp
  | given _ _ ih =>
    refine List.forall_mem_cons.mpr ⟨List.mem_cons_self, fun field hfield => ?_⟩
    exact List.mem_cons_of_mem _ (ih field hfield)
  | omitted _ _ ih => exact fun field hfield => List.mem_cons_of_mem _ (ih field hfield)

section Slots

variable {α : Type} {name : String} {decode : Json → Decoded α} {default x : α} {value : Json}

theorem required (hx : decode value = .ok x) (h : Written slots fields row) :
    Written (.required name decode :: slots) ((name, value) :: fields) (x, row) :=
  .given hx h

theorem present (hx : decode value = .ok x) (h : Written slots fields row) :
    Written (.optional name decode default :: slots) ((name, value) :: fields) (x, row) :=
  .given hx h

theorem absent (h : Written slots fields row) :
    Written (.optional name decode default :: slots) fields (default, row) :=
  .omitted rfl h

/-- A field that is left out where its value is the default. -/
theorem presentUnless {leftOut : Bool} (hgiven : decode value = .ok x)
    (homitted : leftOut = true → x = default) (h : Written slots fields row) :
    Written (.optional name decode default :: slots)
      ((if leftOut then [] else [(name, value)]) ++ fields) (x, row) := by
  cases leftOut with
  | true =>
    rw [homitted rfl]
    exact absent h
  | false => exact present hgiven h

/-- As `presentUnless`, for the last field. -/
theorem presentUnless_nil {leftOut : Bool} (hgiven : decode value = .ok x)
    (homitted : leftOut = true → x = default) :
    Written [.optional name decode default] (if leftOut then [] else [(name, value)]) (x, ()) := by
  simpa using presentUnless hgiven homitted .nil

end Slots

end Row.Written

namespace Filling

/-- Fields of other names leave a slot alone. -/
theorem putAll_cons {slot : Slot} {slots : List Slot} {fields : List (String × Json)}
    (hname : ∀ field ∈ fields, field.1 ≠ slot.name) (strict : Bool) (found : Option slot.Carrier)
    (others : Filling slots) :
    putAll (slot :: slots) strict (found, others) fields =
      (fun others => (found, others)) <$> putAll slots strict others fields := by
  induction fields generalizing others with
  | nil => rfl
  | cons field fields ih =>
    obtain ⟨key, value⟩ := field
    rw [List.forall_mem_cons] at hname
    have hkey : ¬slot.name = key := fun heq => hname.1 heq.symm
    simp only [putAll, put, if_neg hkey]
    cases put slots others key value with
    | error e => rfl
    | ok filled =>
      cases filled with
      | some others => exact ih hname.2 others
      | none =>
        have hrest := ih hname.2 others
        cases strict with
        | true => rfl
        | false =>
          cases hjson : value.isJson with
          | true => exact hrest
          | false => rfl

/-- What is written is put into the slots, and nothing is missing in the end. -/
theorem exists_of_written {slots : List Slot} {fields : List (String × Json)} {row : Row slots}
    (h : Row.Written slots fields row) (hnodup : (slots.map Slot.name).Nodup) (strict : Bool) :
    ∃ filling, putAll slots strict (empty slots) fields = .ok filling ∧
      finish slots filling = .ok row := by
  induction h with
  | nil => exact ⟨(), rfl, rfl⟩
  | @given slot slots fields value x row hx hwritten ih =>
    obtain ⟨hname, hnodup⟩ := List.nodup_cons.mp hnodup
    obtain ⟨filling, hput, hfinish⟩ := ih hnodup
    have hother : ∀ field ∈ fields, field.1 ≠ slot.name := fun field hfield heq =>
      hname (heq ▸ hwritten.name_mem field hfield)
    refine ⟨(some x, filling), ?_, ?_⟩
    · have hrest := putAll_cons hother strict (some x) (empty slots)
      rw [hput] at hrest
      simp only [putAll, put, empty, if_pos, Option.isSome_none, hx]
      exact hrest
    · simp only [finish, Option.some_or, hfinish]
      rfl
  | @omitted slot slots fields x row hx hwritten ih =>
    obtain ⟨hname, hnodup⟩ := List.nodup_cons.mp hnodup
    obtain ⟨filling, hput, hfinish⟩ := ih hnodup
    have hother : ∀ field ∈ fields, field.1 ≠ slot.name := fun field hfield heq =>
      hname (heq ▸ hwritten.name_mem field hfield)
    refine ⟨(none, filling), ?_, ?_⟩
    · have hrest := putAll_cons hother strict none (empty slots)
      rw [hput] at hrest
      exact hrest
    · simp only [finish, Option.none_or, hx, hfinish]
      rfl

end Filling

/-- What is written for a record is decoded to it. -/
theorem Record.decode_object {α : Type} {record : Record α}
    (hnodup : (record.slots.map Slot.name).Nodup) {fields : List (String × Json)}
    {row : Row record.slots} (h : Row.Written record.slots fields row) {x : α}
    (hx : record.build row = x := by rfl) : record.decode (.object fields) = .ok x := by
  subst hx
  obtain ⟨filling, hput, hfinish⟩ := Filling.exists_of_written h hnodup record.strict
  simp only [Json.object, decode, hput]
  simp only [bind, Except.bind, hfinish]
  rfl

/-! ## Values that a decoder draws from a text -/

/-- A value that a decoder finds inside of something with the given nesting, or fills in. -/
def Slot.Drawn (depth : Nat) (slot : Slot) (x : slot.Carrier) : Prop :=
  slot.omitted = some x ∨ slot.cutOff = some x ∨
    ∃ value : Json, value.nesting < depth ∧ slot.decode value = .ok x

/-- Every value of a row is drawn from inside. -/
def Row.Drawn (depth : Nat) : (slots : List Slot) → Row slots → Prop
  | [], _ => True
  | slot :: slots, (x, others) => slot.Drawn depth x ∧ Drawn depth slots others

/-- Every value that was found is drawn from inside. -/
def Filling.Drawn (depth : Nat) : (slots : List Slot) → Filling slots → Prop
  | [], _ => True
  | slot :: slots, (found, others) =>
    (∀ x ∈ found, slot.Drawn depth x) ∧ Drawn depth slots others

namespace Filling

variable {depth : Nat}

theorem drawn_empty (slots : List Slot) : (empty slots).Drawn depth slots := by
  induction slots with
  | nil => trivial
  | cons slot slots ih => exact ⟨by simp, ih⟩

theorem drawn_put {slots : List Slot} {filling filled : Filling slots} {key : String}
    {value : Json} (hvalue : value.nesting < depth) (h : filling.Drawn depth slots)
    (hput : put slots filling key value = .ok (some filled)) : filled.Drawn depth slots := by
  induction slots with
  | nil => simp [put] at hput
  | cons slot slots ih =>
    obtain ⟨found, others⟩ := filling
    rw [put] at hput
    split at hput
    · split at hput
      · cases hput
      · obtain ⟨new, hnew, heq⟩ := Except.bind_eq_ok.mp hput
        cases heq
        refine ⟨fun x hx => .inr (.inr ⟨value, hvalue, ?_⟩), h.2⟩
        obtain rfl := Option.mem_some_iff.mp hx
        exact hnew
    · obtain ⟨rest, hrest, heq⟩ := Except.bind_eq_ok.mp hput
      cases rest with
      | none => cases heq
      | some rest =>
        cases heq
        exact ⟨h.1, ih h.2 hrest⟩

theorem drawn_putAll {slots : List Slot} {strict : Bool} {fields : List (String × Json)}
    (hfields : ∀ field ∈ fields, field.2.nesting < depth) {filling filled : Filling slots}
    (h : filling.Drawn depth slots) (hput : putAll slots strict filling fields = .ok filled) :
    filled.Drawn depth slots := by
  induction fields generalizing filling with
  | nil =>
    cases hput
    exact h
  | cons field fields ih =>
    obtain ⟨key, value⟩ := field
    rw [List.forall_mem_cons] at hfields
    rw [putAll] at hput
    obtain ⟨next, hnext, hput⟩ := Except.bind_eq_ok.mp hput
    cases next with
    | some next => exact ih hfields.2 (drawn_put hfields.1 h hnext) hput
    | none =>
      simp only at hput
      split_ifs at hput
      exact ih hfields.2 h hput

theorem drawn_finish {slots : List Slot} {filling : Filling slots} {row : Row slots}
    (h : filling.Drawn depth slots) (hfinish : finish slots filling = .ok row) :
    row.Drawn depth slots := by
  induction slots with
  | nil => trivial
  | cons slot slots ih =>
    obtain ⟨found, others⟩ := filling
    rw [finish] at hfinish
    split at hfinish
    · cases hfinish
    · rename_i x hx
      obtain ⟨rest, hrest, heq⟩ := Except.bind_eq_ok.mp hfinish
      cases heq
      refine ⟨?_, ih h.2 hrest⟩
      cases found with
      | none => exact .inl (by simpa using hx)
      | some y => exact h.1 x (by simpa using hx)

end Filling

theorem Row.drawn_ofItems {depth : Nat} {slots : List Slot} {items : List Json}
    (hitems : ∀ item ∈ items, item.nesting < depth) {row : Row slots}
    (h : ofItems slots items = .ok row) : row.Drawn depth slots := by
  fun_induction ofItems slots items with
  | case1 => trivial
  | case2 => cases h
  | case3 => cases h
  | case4 slot slots x hx ih =>
    obtain ⟨rest, hrest, heq⟩ := Except.bind_eq_ok.mp h
    cases heq
    exact ⟨.inr (.inl hx), ih (by simp) hrest⟩
  | case5 slot slots item items ih =>
    rw [List.forall_mem_cons] at hitems
    obtain ⟨x, hx, h⟩ := Except.bind_eq_ok.mp h
    obtain ⟨rest, hrest, heq⟩ := Except.bind_eq_ok.mp h
    cases heq
    exact ⟨.inr (.inr ⟨item, hitems.1, hx⟩), ih hitems.2 hrest⟩

/-- A record is built from values that stand inside of what was decoded, or that were filled in. -/
theorem Record.drawn_of_decode {α : Type} {record : Record α} {value : Json} {x : α}
    (h : record.decode value = .ok x) :
    0 < value.nesting ∧ ∃ row, x = record.build row ∧ row.Drawn value.nesting record.slots := by
  cases value with
  | obj fields flaw =>
    obtain ⟨filling, hput, h⟩ := Except.bind_eq_ok.mp h
    split_ifs at h
    obtain ⟨row, hfinish, heq⟩ := Except.bind_eq_ok.mp h
    cases heq
    have hfilling := Filling.drawn_putAll
      (fun field hfield => Json.nesting_lt_of_mem_fields field.1 hfield flaw)
      (Filling.drawn_empty record.slots) hput
    exact ⟨Nat.succ_pos _, row, rfl, Filling.drawn_finish hfilling hfinish⟩
  | arr items flaw =>
    obtain ⟨row, hrow, h⟩ := Except.bind_eq_ok.mp h
    split_ifs at h
    cases h
    have hitems : ∀ item ∈ items, item.nesting < (Json.arr items flaw).nesting :=
      fun item hitem => Json.nesting_lt_of_mem_items hitem flaw
    exact ⟨Nat.succ_pos _, row, rfl, Row.drawn_ofItems hitems hrow⟩
  | _ => cases h

/-! ## Decoders of scalars and lists -/

namespace Decode

variable {α : Type} {encode : α → Json} {tidy : α → α} {decode : Json → Decoded α}

theorem string_str (s : String) : string (.str s) = .ok s := rfl

theorem bool_bool (b : Bool) : bool (.bool b) = .ok b := rfl

theorem word32_nat (w : UInt32) : word32 (.nat w.toNat) = .ok w := by
  have hlt := w.toNat_lt
  have hbound : (0 : Int) ≤ (w.toNat : Int) ∧ (w.toNat : Int) < (0x100000000 : Nat) := by omega
  simp only [word32, natBelow, Json.nat, if_pos hbound]
  simp [Functor.map, Except.map]

/-- An object nests as deep as its deepest field asks for. -/
theorem nesting_object_le {fields : List (String × Json)} {depth : Nat} (hpos : 0 < depth)
    (h : ∀ field ∈ fields, field.2.nesting < depth) : (Json.object fields).nesting ≤ depth := by
  obtain ⟨depth, rfl⟩ : ∃ k, depth = k + 1 := ⟨depth - 1, by omega⟩
  exact Nat.succ_le_succ
    (Json.fieldsNesting_le_iff.mpr fun field hfield => Nat.le_of_lt_succ (h field hfield))

theorem list_array {xs : List α} (h : ∀ x ∈ xs, decode (encode x) = .ok x) :
    list decode (.array (xs.map encode)) = .ok xs := by
  have hitems : (xs.map encode).mapM decode = .ok xs := by
    have hmap := Except.mapM_eq_ok (f := decode ∘ encode) (g := id) h
    rw [List.mapM_map, hmap, List.map_id]
  simp only [Json.array, list, hitems]
  rfl

theorem nullable_some {x : α} {value : Json} (hne : value ≠ .null) (h : decode value = .ok x) :
    nullable decode value = .ok (some x) := by
  cases value with
  | null => exact absurd rfl hne
  | _ => simp only [nullable, h, Functor.map, Except.map]

theorem named_str {source : Source} {values : List α} {name : α → String} {x : α}
    (h : values.find? (fun value => name value == name x) = some x) :
    named source values name (.str (name x)) = .ok x := by
  simp only [named, variant, variant.decodeAs, h, Option.map_some]
  rfl

theorem contents_eq_ok {found : Option Json} {x : α} (h : contents decode found = .ok x) :
    ∃ value, found = some value ∧ decode value = .ok x := by
  cases found with
  | none => cases h
  | some value => exact ⟨value, rfl, h⟩

theorem variant_object (source : Source) (variant? : String → Option (Option Json → Decoded α))
    (name : String) (value : Json) :
    variant source variant? (.object [(name, value)]) =
      variant.decodeAs variant? name (some value) := by
  cases source with
  | text =>
    simp only [variant, Json.object, if_true]
    cases variant.decodeAs variant? name (some value) <;> rfl
  | buffer | value => rfl

/-- A value of an enumeration is decoded from its name, or from the contents under its name. -/
theorem variant_eq_ok {source : Source} {variant? : String → Option (Option Json → Decoded α)}
    {value : Json} {x : α} (h : variant source variant? value = .ok x) :
    ∃ name contents, variant.decodeAs variant? name contents = .ok x ∧
      ∀ part ∈ contents, part.nesting < value.nesting := by
  unfold variant at h
  split at h
  · exact ⟨_, none, h, by simp⟩
  · cases h
  · rename_i name part others flaw
    have hpart : ∀ part' ∈ some part,
        part'.nesting < (Json.obj ((name, part) :: others) flaw).nesting := by
      intro part' hpart'
      obtain rfl := Option.mem_some_iff.mp hpart'
      exact Nat.lt_succ_of_le (Nat.le_max_left _ _)
    refine ⟨name, some part, ?_, hpart⟩
    split at h
    · obtain ⟨y, hy, heq⟩ := Except.bind_eq_ok.mp h
      split at heq
      · cases heq
        exact hy
      · cases heq
    · split at h
      · exact h
      · cases h
  · cases h

/-- What is decoded is written again with no more nesting, and `tidy` leaves it as it is. -/
def Shallow (encode : α → Json) (tidy : α → α) (decode : Json → Decoded α) : Prop :=
  ∀ value x, decode value = .ok x → (encode x).nesting ≤ value.nesting ∧ tidy x = x

/-- What is written without arrays and objects is never nested too deep. -/
theorem shallow_of_flat (h : ∀ x, (encode x).nesting = 0) : Shallow encode id decode := by
  intro value x _
  rw [h x]
  exact ⟨Nat.zero_le _, rfl⟩

theorem Shallow.list (h : Shallow encode tidy decode) :
    Shallow (fun xs => .array (xs.map encode)) (List.map tidy) (Decode.list decode) := by
  intro value xs hxs
  cases value with
  | arr items flaw =>
    obtain ⟨xs', hitems, heq⟩ := Except.bind_eq_ok.mp hxs
    cases flaw with
    | some flaw => cases heq
    | none =>
      cases heq
      have hdrawn := Except.exists_mem_of_mapM hitems
      constructor
      · refine Nat.succ_le_succ (Json.itemsNesting_le_iff.mpr fun item hitem => ?_)
        obtain ⟨x, hx, rfl⟩ := List.mem_map.mp hitem
        obtain ⟨part, hpart, hdecode⟩ := hdrawn x hx
        have hle := Json.itemsNesting_le_iff.mp (Nat.le_refl _) part hpart
        exact Nat.le_trans (h part x hdecode).1 hle
      · have htidy : ∀ x ∈ xs, tidy x = id x := fun x hx => by
          obtain ⟨part, -, hdecode⟩ := hdrawn x hx
          exact (h part x hdecode).2
        rw [List.map_congr_left htidy, List.map_id]
  | _ => cases hxs

theorem Shallow.nullable (h : Shallow encode tidy decode) :
    Shallow (fun o => (o.map encode).getD .null) (Option.map tidy) (Decode.nullable decode) := by
  intro value o ho
  unfold Decode.nullable at ho
  split at ho
  · cases ho
    exact ⟨Nat.zero_le _, rfl⟩
  · obtain ⟨x, hx, heq⟩ := Except.map_eq_ok.mp ho
    subst heq
    have hdecoded := h _ x hx
    exact ⟨hdecoded.1, congrArg some hdecoded.2⟩

end Decode

namespace Slot.Drawn

variable {α : Type} {encode : α → Json} {tidy : α → α} {decode : Json → Decoded α} {name : String}
  {depth : Nat} {x : α}

theorem required (hs : Decode.Shallow encode tidy decode)
    (h : (Slot.required name decode).Drawn depth x) : (encode x).nesting < depth ∧ tidy x = x := by
  rcases h with h | h | ⟨value, hvalue, h⟩
  · cases h
  · cases h
  · have hdecoded := hs value x h
    exact ⟨Nat.lt_of_le_of_lt hdecoded.1 hvalue, hdecoded.2⟩

theorem eq_or_optional {default : α} (hs : Decode.Shallow encode tidy decode)
    (h : (Slot.optional name decode default).Drawn depth x) :
    x = default ∨ (encode x).nesting < depth ∧ tidy x = x := by
  rcases h with h | h | ⟨value, hvalue, h⟩
  · exact .inl (Option.some.inj h).symm
  · exact .inl (Option.some.inj h).symm
  · have hdecoded := hs value x h
    exact .inr ⟨Nat.lt_of_le_of_lt hdecoded.1 hvalue, hdecoded.2⟩

theorem optional {default : α} (hs : Decode.Shallow encode tidy decode)
    (hdefault : (encode default).nesting < depth ∧ tidy default = default)
    (h : (Slot.optional name decode default).Drawn depth x) :
    (encode x).nesting < depth ∧ tidy x = x := by
  rcases eq_or_optional hs h with rfl | h
  · exact hdefault
  · exact h

end Slot.Drawn

end Restyle
