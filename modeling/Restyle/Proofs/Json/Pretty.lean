-- SUMMARY: Reading indented JSON text gives back the value that was written.
import Restyle.Proofs.Json.Reading

/-!
# Reading indented text

The indented layout of a value is cut into the same tokens as the layout on one line
(`Json.Proper.lexes_pretty`): it differs by blanks, and these stand where no number is cut in two.
So it is read as the value, also with a line end behind it (`Json.read_pretty_newline`).
-/

namespace Restyle

namespace Token

variable {rest : List Char} {tokens : List Token}

/-- A new line with its indentation leaves no trace. -/
theorem Lexes.newline (level : Nat) (h : Lexes rest tokens) :
    Lexes ((Json.newline level).toList ++ rest) tokens := by
  have hspaces (count : Nat) : Lexes (List.replicate count ' ' ++ rest) tokens := by
    induction count with
    | zero => exact h
    | succ count ih =>
      rw [List.replicate_succ]
      exact .blank rfl ih
  have hline := Lexes.blank (c := '\n') rfl (hspaces (2 * level))
  simpa [Json.newline] using hline

theorem endsNumber_newline (level : Nat) (rest : List Char) :
    EndsNumber ((Json.newline level).toList ++ rest) := by
  intro c hc
  obtain rfl : '\n' = c := by simpa [Json.newline] using hc
  decide

end Token

namespace Json

theorem lexical_prettyItems {items : List Json} {level : Nat}
    (h : ∀ item ∈ items, Lexical (item.prettyAt level) item.tokens) :
    Lexical (prettyItems level items) (itemTokens items) := by
  induction items with
  | nil =>
    intro rest behind _ hbehind
    simpa [prettyItems, itemTokens] using hbehind
  | cons item items ih =>
    rw [List.forall_mem_cons] at h
    intro rest behind hrest hbehind
    cases items with
    | nil =>
      have hitem := h.1 rest behind hrest hbehind
      simpa [prettyItems, itemTokens] using hitem.newline level
    | cons next items =>
      have hitems := ih h.2 rest behind hrest hbehind
      have hcomma := Token.Lexes.token (c := ',') rfl rfl (Nat.le_refl _) hitems
      have hitem := h.1 _ _ (endsNumber_cons (.inl rfl) _) hcomma
      simpa [prettyItems, itemTokens] using hitem.newline level

theorem lexical_prettyFields {fields : List (String × Json)} {level : Nat}
    (h : ∀ field ∈ fields, Lexical (field.2.prettyAt level) field.2.tokens) :
    Lexical (prettyFields level fields) (fieldTokens fields) := by
  have hfield (key : String) {text : List Char} {tokens : List Token}
      (hvalue : Token.Lexes text tokens) :
      Token.Lexes ((newline level).toList ++ ((quote key).toList ++ ':' :: ' ' :: text))
        (.str key :: .colon :: tokens) := by
    have hblank := Token.Lexes.blank (c := ' ') rfl hvalue
    have hcolon := Token.Lexes.token (c := ':') rfl rfl (Nat.le_refl _) hblank
    exact (hcolon.quote key).newline level
  induction fields with
  | nil =>
    intro rest behind _ hbehind
    simpa [prettyFields, fieldTokens] using hbehind
  | cons field fields ih =>
    obtain ⟨key, value⟩ := field
    rw [List.forall_mem_cons] at h
    intro rest behind hrest hbehind
    cases fields with
    | nil =>
      have hvalue := h.1 _ _ hrest hbehind
      simpa [prettyFields, fieldTokens] using hfield key hvalue
    | cons next fields =>
      have hfields := ih h.2 rest behind hrest hbehind
      have hcomma := Token.Lexes.token (c := ',') rfl rfl (Nat.le_refl _) hfields
      have hvalue := h.1 _ _ (endsNumber_cons (.inl rfl) _) hcomma
      simpa [prettyFields, fieldTokens] using hfield key hvalue

/-- The indented text of a value is cut into the tokens of the value. -/
theorem Proper.lexes_pretty {value : Json} (h : Proper value) :
    ∀ level, Lexical (value.prettyAt level) value.tokens := by
  induction h with
  | null => exact fun _ => Proper.null.lexes_compact
  | bool b =>
    intro level
    have hcompact := (Proper.bool b).lexes_compact
    cases b <;> exact hcompact
  | str s => exact fun _ => (Proper.str s).lexes_compact
  | word w => exact fun _ => (Proper.word w).lexes_compact
  | @array items _ ih =>
    intro level
    cases items with
    | nil => exact (Proper.array (List.forall_mem_nil _)).lexes_compact
    | cons item items =>
      intro rest behind _ hbehind
      have hclose := Token.Lexes.token (c := ']') rfl rfl (Nat.le_refl _) hbehind
      have hitems := lexical_prettyItems (fun item hitem => ih item hitem (level + 1)) _ _
        (Token.endsNumber_newline level _) (hclose.newline level)
      have hopen := Token.Lexes.token (c := '[') rfl rfl (Nat.le_refl _) hitems
      simpa [Json.array, prettyAt, tokens] using hopen
  | @object fields _ ih =>
    intro level
    cases fields with
    | nil => exact (Proper.object (List.forall_mem_nil _)).lexes_compact
    | cons field fields =>
      intro rest behind _ hbehind
      have hclose := Token.Lexes.token (c := '\x7d') rfl rfl (Nat.le_refl _) hbehind
      have hfields := lexical_prettyFields (fun field hfield => ih field hfield (level + 1)) _ _
        (Token.endsNumber_newline level _) (hclose.newline level)
      have hopen := Token.Lexes.token (c := '\x7b') rfl rfl (Nat.le_refl _) hfields
      simpa [Json.object, prettyAt, tokens] using hopen

/-- Reading gives back what was written with indentation and a line end. -/
theorem read_pretty_newline {value : Json} (h : Proper value)
    (hnesting : value.nesting ≤ nestingLimit) : read (value.pretty ++ "\n") = ⟨value, true⟩ := by
  have hend := Token.Lexes.blank (c := '\n') rfl .nil
  have hlexes := h.lexes_pretty 0 _ _ (Token.endsNumber_newline 0 [])
    (by simpa [newline] using hend)
  exact h.read_eq hnesting (by simpa [pretty, newline] using hlexes)

end Json

end Restyle
