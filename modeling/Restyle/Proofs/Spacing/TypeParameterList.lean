-- SUMMARY: After the text around type parameters was removed, no such text is left.
import Restyle.Proofs.Spacing.Tightened

/-!
# Tight type parameter lists

A tree is settled for type parameter lists if no list and no parameter has text around it that the
rule would remove. This can be said of each node and its children (`TypeParameterList.Fits`), so it
does not depend on what stands above them. A settled tree leaves the rule nothing to do
(`TypeParameterList.apply_of_settled`), the result of the rule is settled
(`TypeParameterList.settled_of_apply`), and a settled tree stays settled as long as the text around
lists and parameters does (`TypeParameterList.settled_of_sketch_eq`).
-/

namespace Restyle

namespace TypeParameterList

variable {R : Type} {tree tree' : Node} {out : RuleOutput R}

/-- A child that has no text to remove: a list stands at no declaration of variables, and with text
    around it only on a method; a parameter stands in a list, and without text at its brackets. -/
structure Fits (parent : Node) (index : Nat) (child : Node) : Prop where
  list : child.tag = .typeParameters →
    parent.tag ≠ .variableDecls ∧
      (parent.tag ≠ .methodDecl → child.formatting.isEmpty = true)
  parameter : child.tag = .typeParameter →
    parent.tag = .typeParameters ∧ (index = 0 → child.formatting.lead = "") ∧
      (index + 1 = parent.children.length → child.formatting.trail = "")

/-- A node whose children have no text to remove. -/
def Tidy (n : Node) : Prop :=
  ∀ (index : Nat) (child : Node), n.children[index]? = some child → Fits n index child

/-- A tree without text to remove. -/
structure Settled (tree : Node) : Prop where
  root_parameter : tree.tag ≠ .typeParameter
  root_list : tree.tag = .typeParameters → tree.formatting.isEmpty = true
  tidy : ∀ n ∈ tree.nodes, Tidy n

/-! ## Nothing to do -/

/-- An edit leaves the text around a child that fits. -/
theorem Fits.left_eq (hdistinct : DistinctParameters tree) {c d : Cursor} (hc : c ∈ tree.cursors)
    (hd : d ∈ c.children) (h : Fits c.node d.index d.node) :
    misplaced d = false ∧ left d d.node.formatting = d.node.formatting := by
  have hparent : d.parent? = some c.node := by
    simp [Cursor.parent?, (Cursor.mem_children.mp hd).2, Cursor.path]
  by_cases hlist : d.node.tag = .typeParameters
  · refine ⟨misplaced_of_tag_ne (by simp [hlist]), ?_⟩
    rw [left_of_list hlist, hparent]
    by_cases hmethod : c.node.tag = .methodDecl
    · simp [hmethod]
    · simp [hmethod, eq_empty_of_isEmpty ((h.list hlist).2 hmethod)]
  · by_cases hparameter : d.node.tag = .typeParameter
    · obtain ⟨htag, hfirst, hlast⟩ := h.parameter hparameter
      refine ⟨by simp [misplaced, hparent, htag], ?_⟩
      rw [left_of_positionOf hparameter (positionOf_of_mem_children hdistinct hc hd htag)]
      exact tightened_eq_self.mpr ⟨by simpa using hfirst, by simpa using hlast⟩
    · exact ⟨misplaced_of_tag_ne hparameter, left_of_tag_ne hlist hparameter _⟩

theorem Settled.left_eq (h : Settled tree) (hdistinct : DistinctParameters tree) {d : Cursor}
    (hd : d ∈ tree.cursors) :
    misplaced d = false ∧ left d d.node.formatting = d.node.formatting := by
  rcases Node.eq_root_or_mem_children hd with rfl | ⟨c, hc, hdc⟩
  · have hparameter : (Cursor.root tree).node.tag ≠ .typeParameter := h.root_parameter
    refine ⟨misplaced_of_tag_ne hparameter, ?_⟩
    by_cases hlist : (Cursor.root tree).node.tag = .typeParameters
    · have hempty : (Cursor.root tree).node.formatting = {} :=
        eq_empty_of_isEmpty (h.root_list hlist)
      rw [left_of_list hlist, hempty]
      simp
    · exact left_of_tag_ne hlist hparameter _
  · have hget := (Cursor.mem_children.mp hdc).1
    exact (h.tidy c.node (Node.mem_nodes_of_mem_cursors hc) _ _ hget).left_eq hdistinct hc hdc

theorem apply_of_settled (hids : tree.DistinctIds) (h : Settled tree) :
    (apply tree : Except RuleError (RuleOutput R)) = .ok (.unchanged tree) := by
  let start : Session Unit := ⟨(), { rule := ruleName }⟩
  refine RuleOutput.ofSession_of_yields (s := start) (Cursor.yields_edited_self ?_)
  intro d hd
  obtain ⟨hplaced, hkept⟩ := h.left_eq (.of_distinctIds hids) hd
  exact yields_edit.mpr ⟨hplaced, by rw [if_pos hkept]; exact ⟨rfl, rfl⟩⟩

/-! ## Trees that look alike -/

/-- The sketch that shows the text around lists and parameters. -/
def view : Sketch := ⟨fun t => t == .typeParameters || t == .typeParameter, false, false⟩

/-- A child that is drawn alike, with its text, fits alike. -/
theorem Fits.of_sketch_eq {parent parent' child child' : Node} {index : Nat}
    (h : Fits parent index child) (hchild : child.sketch view = child'.sketch view)
    (htag : parent.tag = parent'.tag)
    (hlength : parent.children.length = parent'.children.length) :
    Fits parent' index child' := by
  have hchildTag := Node.tag_eq_of_sketch_eq hchild
  have hformatting (hshown : view.text child.tag = true) :
      child.formatting = child'.formatting := by
    have hdrawn := congrArg Node.formatting hchild
    rw [Node.formatting_sketch, Node.formatting_sketch, ← hchildTag] at hdrawn
    simpa [Sketch.formatting, hshown] using hdrawn
  constructor
  · intro hlist
    rw [← hchildTag] at hlist
    rw [← htag, ← hformatting (by simp [view, hlist])]
    exact h.list hlist
  · intro hparameter
    rw [← hchildTag] at hparameter
    rw [← htag, ← hlength, ← hformatting (by simp [view, hparameter])]
    exact h.parameter hparameter

theorem tidy_of_alike {n n' : Node} (h : n.Alike view n') (hn : Tidy n) : Tidy n' := by
  intro index child' hget'
  by_cases htag : n.tag = .variableDecls
  · -- A declaration of variables has neither lists nor parameters for children.
    have hother : child'.tag ≠ .typeParameters ∧ child'.tag ≠ .typeParameter := by
      by_contra hbad
      have hplace : child'.isPlace = true := by
        by_contra hmodifier
        simp_all [Node.isPlace]
      obtain ⟨child, hmem, halike⟩ := exists_left_of_forall₂ h.children
        (List.mem_filter.mpr ⟨List.mem_of_getElem? hget', hplace⟩)
      obtain ⟨i, hget⟩ := List.getElem?_of_mem (List.mem_filter.mp hmem).1
      have hfits := hn i child hget
      rw [← halike.tag_eq] at hbad
      refine hbad ⟨fun hlist => (hfits.list hlist).1 htag, fun hparameter => ?_⟩
      rw [(hfits.parameter hparameter).1] at htag
      cases htag
    exact ⟨fun hlist => absurd hlist hother.1, fun hparameter => absurd hparameter hother.2⟩
  · have hchildren := h.map_sketch_children (.inr htag)
    have hlength := congrArg List.length hchildren
    have hindex := congrArg (·[index]?) hchildren
    simp only [List.getElem?_map, hget', Option.map_some, Option.map_eq_some_iff] at hindex
    obtain ⟨child, hget, hsketch⟩ := hindex
    exact (hn index child hget).of_sketch_eq hsketch h.tag_eq (by simpa using hlength)

theorem settled_of_sketch_eq (h : tree.sketch view = tree'.sketch view) (hsettled : Settled tree) :
    Settled tree' := by
  have halike := Node.alike_of_sketch_eq h
  have htag := halike.tag_eq
  refine ⟨htag ▸ hsettled.root_parameter, fun hlist => ?_, ?_⟩
  · have hdrawn := congrArg Node.formatting h
    rw [Node.formatting_sketch, Node.formatting_sketch, ← htag, htag, hlist] at hdrawn
    have hformatting : tree.formatting = tree'.formatting := hdrawn
    rw [← hformatting]
    exact hsettled.root_list (htag.trans hlist)
  · refine halike.forall_nodes (fun n hn index child hget => ?_) (fun n n' => tidy_of_alike)
      hsettled.tidy
    rw [Node.children_eq_nil_of_not_isPlace hn] at hget
    simp at hget

/-! ## The result of the rule -/

/-- The text that may stand around the node at a cursor after the rule. -/
structure Trimmed (c : Cursor) (f : Formatting) : Prop where
  list : c.node.tag = .typeParameters →
    (∀ parent, c.parent? = some parent → parent.tag ≠ .methodDecl) → f.isEmpty = true
  parameter : c.node.tag = .typeParameter →
    ∃ isFirst isLast, positionOf c = .ok (isFirst, isLast) ∧ tightened isFirst isLast f = f

theorem trimmed_left {c : Cursor} (hplaced : misplaced c = false) : Trimmed c (left c c.node.formatting) where
  list htag hparent := by
    have hmethod : (c.parent?.any fun n => n.tag == .methodDecl) = false := by
      cases hp : c.parent? with
      | none => rfl
      | some parent => simp [hparent parent hp]
    rw [left_of_list htag, hmethod]
    rfl
  parameter htag := by
    cases hposition : positionOf c with
    | error e =>
      have hmisplaced := (positionOf_eq_error.mp hposition).1
      simp [misplaced, htag, hmisplaced] at hplaced
    | ok position =>
      refine ⟨position.1, position.2, rfl, ?_⟩
      rw [left_of_positionOf htag hposition, tightened_tightened]

theorem exists_trimmed_of_edit {σ : Type} {c : Cursor} {rebuilt n' : Node} {s s' : Session σ}
    (hformatting : rebuilt.formatting = c.node.formatting)
    (h : Yields (edit c rebuilt) s n' s') : ∃ f, n' = rebuilt.withFormatting f ∧ Trimmed c f :=
  ⟨_, eq_of_yields_edit hformatting h, trimmed_left (yields_edit.mp h).1⟩

/-- What a session leaves at a cursor. -/
structure Leaves (c : Cursor) (n' : Node) : Prop where
  tidy : ∀ m ∈ n'.nodes, Tidy m
  tag_eq : n'.tag = c.node.tag
  trimmed : Trimmed c n'.formatting

/-- A child fits if the rule has trimmed it. -/
theorem Leaves.fits {c : Cursor} {index : Nat} {child child' rebuilt : Node}
    (h : Leaves ⟨child, c.path, index⟩ child') (htag : rebuilt.tag = c.node.tag)
    (hlength : rebuilt.children.length = c.node.children.length)
    (hdecl : c.node.tag = .variableDecls → child.tag ≠ .typeParameters) :
    Fits rebuilt index child' := by
  have hparent : Cursor.parent? ⟨child, c.path, index⟩ = some c.node := rfl
  constructor
  · intro hlist
    rw [h.tag_eq] at hlist
    rw [htag]
    refine ⟨fun hvariables => hdecl hvariables hlist, fun hmethod => ?_⟩
    refine h.trimmed.list hlist fun parent hp => ?_
    rwa [← Option.some.inj (hparent.symm.trans hp)]
  · intro hparameter
    rw [h.tag_eq] at hparameter
    obtain ⟨isFirst, isLast, hposition, htight⟩ := h.trimmed.parameter hparameter
    obtain ⟨parent, params, repeats, hp, hkind, heq⟩ := positionOf_eq_ok.mp hposition
    obtain rfl := Option.some.inj (hparent.symm.trans hp)
    obtain ⟨rfl, rfl⟩ := Prod.mk.inj heq
    obtain ⟨hfirst, hlast⟩ := tightened_eq_self.mp htight
    have hcount : c.node.children.length = params.length := by
      rw [Node.children, hkind]
      rfl
    refine ⟨?_, fun hindex => hfirst ?_, fun hindex => hlast ?_⟩
    · rw [htag, Node.tag, hkind]
      rfl
    · simp [Repeats.sameAt, hindex]
    · have heq : index = params.length - 1 := by omega
      simp [Repeats.sameAt, heq]

theorem leaves_of_yields {σ : Type} {c : Cursor} {n' : Node} {s s' : Session σ}
    (h : Yields (c.edited edit) s n' s')
    (hdecls : ∀ n ∈ c.node.nodes, n.tag = .variableDecls →
      ∀ child ∈ n.children, child.tag ≠ .typeParameters) : Leaves c n' := by
  refine Cursor.edit_induct_pairs (P := fun c n' => (∀ n ∈ c.node.nodes, n.tag = .variableDecls →
    ∀ child ∈ n.children, child.tag ≠ .typeParameters) → Leaves c n') ?_ h hdecls
  intro c z n' s₁ s' hfst hpairs hyields hdecls
  have hchildren : c.node.children = z.children.map Prod.fst := by
    rw [Node.children, ← hfst, Kind.children_map]
  have hpair (index : Nat) (p : Node × Node) (hp : z.children[index]? = some p) :
      Leaves ⟨p.1, c.path, index⟩ p.2 := by
    refine hpairs (p, index) (List.mem_zipIdx_iff_getElem?.mpr hp) fun n hn => hdecls n ?_
    refine Node.mem_nodes_of_mem_children ?_ hn
    rw [hchildren]
    exact List.mem_map_of_mem (List.mem_of_getElem? hp)
  obtain ⟨f, rfl, htrimmed⟩ := exists_trimmed_of_edit (by simp) hyields
  have htag : ((c.node.rebuild (z.map Prod.snd)).withFormatting f).tag = c.node.tag :=
    Node.tag_rebuild_pairs hfst
  have hnew : ((c.node.rebuild (z.map Prod.snd)).withFormatting f).children =
      z.children.map Prod.snd := by
    rw [← Kind.children_map]
    exact Node.children_rebuild _ _
  refine ⟨fun m hm => ?_, htag, htrimmed⟩
  rw [Node.nodes_eq, hnew] at hm
  rcases List.mem_cons.mp hm with rfl | hm
  · intro index child' hget
    rw [hnew, List.getElem?_map, Option.map_eq_some_iff] at hget
    obtain ⟨p, hp, rfl⟩ := hget
    refine (hpair index p hp).fits htag (by simp [hnew, hchildren]) fun hvariables => ?_
    refine hdecls c.node c.node.self_mem_nodes hvariables p.1 ?_
    rw [hchildren]
    exact List.mem_map_of_mem (List.mem_of_getElem? hp)
  · obtain ⟨child', hchild, hm⟩ := List.mem_flatMap.mp hm
    obtain ⟨p, hp, rfl⟩ := List.mem_map.mp hchild
    obtain ⟨index, hget⟩ := List.getElem?_of_mem hp
    exact (hpair index p hget).tidy m hm

/-- The result of the rule has no text to remove, if no list stands at a declaration of
    variables. -/
theorem settled_of_apply (h : apply tree = .ok out)
    (hdecls : ∀ n ∈ tree.nodes, n.tag = .variableDecls →
      ∀ child ∈ n.children, child.tag ≠ .typeParameters) : Settled out.tree := by
  obtain ⟨s, hrun, _, _⟩ := RuleOutput.ofSession_eq_ok h
  have hleaves := leaves_of_yields hrun hdecls
  have htag : out.tree.tag = tree.tag := hleaves.tag_eq
  refine ⟨fun hparameter => ?_, fun hlist => ?_, hleaves.tidy⟩
  · rw [htag] at hparameter
    obtain ⟨_, _, hposition, _⟩ := hleaves.trimmed.parameter hparameter
    obtain ⟨_, _, _, hparent, _⟩ := positionOf_eq_ok.mp hposition
    cases hparent
  · rw [htag] at hlist
    refine hleaves.trimmed.list hlist fun parent hparent => ?_
    cases hparent

end TypeParameterList

end Restyle
