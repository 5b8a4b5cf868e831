-- SUMMARY: When the trimming of type parameter lists erases more than blanks.
import Restyle.Proofs.Spacing.Tightened
import Restyle.Proofs.Tree.Ink

/-!
# Erased text

The rule removes text at the brackets of a list whatever it is. So the printed tree loses ink
exactly if there is ink in such a place (`TypeParameterList.apply_keeps_ink_iff`), and that may be a
comment (`TypeParameterList.apply_erases_comment`).
-/

namespace Restyle

namespace TypeParameterList

variable {R : Type} {tree : Node} {blank : Char → Bool}

/-- Nothing but blanks is taken from the text around the node at a cursor. -/
def SparesInk (blank : Char → Bool) (c : Cursor) : Prop :=
  ink blank (left c c.node.formatting).lead = ink blank c.node.formatting.lead ∧
    ink blank (left c c.node.formatting).trail = ink blank c.node.formatting.trail

instance (blank : Char → Bool) (c : Cursor) : Decidable (SparesInk blank c) :=
  inferInstanceAs (Decidable (_ ∧ _))

/-- A side of the text around a node is left as it is or removed. -/
theorem left_cases (c : Cursor) (f : Formatting) :
    ((left c f).lead = f.lead ∨ (left c f).lead = "") ∧
      ((left c f).trail = f.trail ∨ (left c f).trail = "") := by
  unfold left
  split
  · split <;> simp
  · split
    · rename_i isFirst isLast _
      cases isFirst <;> cases isLast <;> simp [tightened_eq]
    · simp
  · simp

theorem sublist_ink_side {s s' : String} (h : s' = s ∨ s' = "") :
    (ink blank s').Sublist (ink blank s) := by
  rcases h with rfl | rfl
  · exact .refl _
  · exact List.nil_sublist _

/-- The printed tree has no ink that was not there before. It has kept all of it exactly if the text
    that was removed held none. -/
theorem apply_keeps_ink_iff {out : RuleOutput R} (blank : Char → Bool) (h : apply tree = .ok out) :
    (ink blank out.tree.print).Sublist (ink blank tree.print) ∧
      (ink blank out.tree.print = ink blank tree.print ↔ ∀ c ∈ tree.cursors, SparesInk blank c) := by
  obtain ⟨s, hrun, _, _⟩ := RuleOutput.ofSession_eq_ok h
  have hink : Cursor.NoMoreInk blank (fun _ d => left d d.node.formatting) (.root tree) :=
    fun _ d _ => ⟨sublist_ink_side (left_cases d _).1, sublist_ink_side (left_cases d _).2⟩
  have hthins := (reformatted_of_yields hrun).thins hink
  refine ⟨hthins.sublist, hthins.eq_iff.trans ?_⟩
  constructor
  · intro hsame c hc
    obtain ⟨path, hd⟩ := Cursor.exists_descend?_of_mem_below (c := .root tree) hc
    exact hsame path c hd
  · intro hspares path d hd
    exact hspares d (Cursor.mem_below_of_descend? hd)

theorem apply_keeps_ink_iff_boxed :
    ∃ out : RuleOutput Rule, apply (boxed " ") = .ok out ∧ out.tree.print ≠ (boxed " ").print ∧
      ink Char.isWhitespace out.tree.print = ink Char.isWhitespace (boxed " ").print := by
  have hprint : ((apply (boxed " ") : Except RuleError (RuleOutput Rule)).toOption.map
      fun out => decide (out.tree.print = (boxed " ").print)) = some false := by
    decide +kernel
  have hspares : ∀ c ∈ (boxed " ").cursors, SparesInk Char.isWhitespace c := by
    decide +kernel
  obtain ⟨out, hrun, hprint⟩ := Except.exists_ok_of_toOption_map hprint
  exact ⟨out, hrun, of_decide_eq_false hprint, (apply_keeps_ink_iff _ hrun).2.mpr hspares⟩

/-- Comments at the brackets of a list are removed, so the ink is another one whatever counts as
    blank, as long as an asterisk does not. -/
theorem apply_erases_comment :
    (boxed "/*key*/").print = "class Box</*key*/K, V/*key*/> \x7b\x7d" ∧
      ∃ out : RuleOutput Rule, apply (boxed "/*key*/") = .ok out ∧
        out.tree.print = "class Box<K, V> \x7b\x7d" ∧
        ∀ blank : Char → Bool, blank '*' = false →
          ink blank out.tree.print ≠ ink blank (boxed "/*key*/").print := by
  have hbefore : (boxed "/*key*/").print = "class Box</*key*/K, V/*key*/> \x7b\x7d" := by
    decide +kernel
  have hafter : ((apply (boxed "/*key*/") : Except RuleError (RuleOutput Rule)).toOption.map
      fun out => out.tree.print) = some "class Box<K, V> \x7b\x7d" := by
    decide +kernel
  obtain ⟨out, hrun, hprint⟩ := Except.exists_ok_of_toOption_map hafter
  refine ⟨hbefore, out, hrun, hprint, fun blank hblank hink => ?_⟩
  have hmem : '*' ∈ ink blank (boxed "/*key*/").print := by
    rw [hbefore]
    exact List.mem_filter.mpr ⟨by decide, by simp [hblank]⟩
  rw [← hink, hprint] at hmem
  have hgone : '*' ∉ "class Box<K, V> \x7b\x7d".toList := by decide
  exact hgone (List.mem_filter.mp hmem).1

end TypeParameterList

end Restyle
