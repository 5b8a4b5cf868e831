-- SUMMARY: The tree that trimmed type parameter lists leave, as a function of the tree.
import Restyle.Proofs.Rule.Ids
import Restyle.Proofs.Spacing.TypeParameterList
import Restyle.Proofs.Tree.Retouch

/-!
# Trimmed type parameter lists

The rule succeeds if and only if every type parameter stands in a list
(`TypeParameterList.Placed`). It then changes the text around each node in a way that can be told
from the id of the node (`TypeParameterList.cuts`), and from what no rule changes
(`TypeParameterList.cuts_eq_of_alike`).
-/

namespace Restyle

namespace TypeParameterList

variable {R : Type} {σ : Sketch} {tree tree' : Node} {c c' : Cursor}

/-! ## What is cut -/

/-- The text that is left around a parameter of a list. -/
def cutIn (list : Node) (parameter : NodeId) (f : Formatting) : Formatting :=
  let ids := list.children.map Node.id
  if list.tag == .typeParameters then
    tightened (ids.head? == some parameter) (ids.getLast? == some parameter) f
  else f

/-- The text that is left around the node at a cursor. -/
def cut (c : Cursor) (f : Formatting) : Formatting :=
  match c.node.tag with
  | .typeParameters => if c.parent?.any fun n => n.tag == .methodDecl then f else {}
  | .typeParameter => c.parent?.elim f fun parent => cutIn parent c.node.id f
  | _ => f

/-- The text that is left around the node with an id. -/
def cuts (tree : Node) (id : NodeId) (f : Formatting) : Formatting :=
  match tree.cursors.find? fun c => c.node.id == id with
  | some c => cut c f
  | none => f

theorem cuts_of_mem (hids : tree.DistinctIds) (hc : c ∈ tree.cursors) :
    cuts tree c.node.id = cut c := by
  funext f
  unfold cuts
  cases hfind : tree.cursors.find? fun d => d.node.id == c.node.id with
  | none =>
    have hnone := List.find?_eq_none.mp hfind c hc
    simp at hnone
  | some d =>
    have hid : d.node.id = c.node.id := by simpa using List.find?_some hfind
    obtain rfl := hids.eq_of_id_eq (List.mem_of_find?_eq_some hfind) hc hid
    rfl

theorem cuts_of_not_mem {id : NodeId} (h : id ∉ tree.ids) (f : Formatting) : cuts tree id f = f := by
  have hnone : (tree.cursors.find? fun c => c.node.id == id) = none := by
    refine List.find?_eq_none.mpr ?_
    intro c hc hid
    exact h (by rw [← beq_iff_eq.mp hid]; exact Node.id_mem_ids hc)
  rw [cuts, hnone]

theorem cut_list (h : c.node.tag = .typeParameters) (f : Formatting) :
    cut c f = if c.parent?.any fun n => n.tag == .methodDecl then f else {} := by
  simp only [cut, h]

theorem cut_parameter (h : c.node.tag = .typeParameter) (f : Formatting) :
    cut c f = c.parent?.elim f fun parent => cutIn parent c.node.id f := by
  simp only [cut, h]

/-- Text is only cut around lists and parameters. -/
theorem cut_of_tag_ne (hlist : c.node.tag ≠ .typeParameters) (hparameter : c.node.tag ≠ .typeParameter)
    (f : Formatting) : cut c f = f := by
  unfold cut
  split
  · exact absurd ‹_› hlist
  · exact absurd ‹_› hparameter
  · rfl

theorem cutIn_eq_of_alike {list list' : Node} (h : list.Alike σ list') : cutIn list = cutIn list' := by
  funext id f
  unfold cutIn
  rw [h.tag_eq]
  split
  · rename_i hlist
    have hids : list.children.map Node.id = list'.children.map Node.id := by
      have hsketch := h.map_sketch_children (.inr (by simp [h.tag_eq, beq_iff_eq.mp hlist]))
      simpa [Function.comp_def] using congrArg (List.map Node.id) hsketch
    rw [hids]
  · rfl

/-- The same text is cut at corresponding places. -/
theorem cut_eq_of_matches (h : c.Matches (Node.Alike σ) c') : cut c = cut c' := by
  obtain ⟨hnode, hanc⟩ := Cursor.matches_iff.mp h
  funext f
  unfold cut Cursor.parent?
  rw [hnode.tag_eq, hnode.id_eq]
  generalize c.ancestors = above at hanc
  generalize c'.ancestors = above' at hanc
  cases hanc with
  | nil => rfl
  | cons hparent _ =>
    simp only [List.head?_cons, Option.any_some, Option.elim_some, hparent.tag_eq,
      cutIn_eq_of_alike hparent]
    rfl

/-- What is cut can be told from what no rule changes. -/
theorem cuts_eq_of_alike (h : tree.Alike σ tree') (hids : tree.DistinctIds)
    (hids' : tree'.DistinctIds) : cuts tree = cuts tree' := by
  funext id
  -- A node that is no place in its tree keeps its text.
  have hcut (t : Node) (ht : t.DistinctIds) (hid : ∀ c ∈ t.places, c.node.id ≠ id) (f : Formatting) :
      cuts t id f = f := by
    by_cases hmem : id ∈ t.ids
    · obtain ⟨c, hc, rfl⟩ := List.mem_map.mp hmem
      have hplace : c.node.isPlace = false := by
        by_contra hplace
        exact hid c (Node.mem_places.mpr ⟨hc, by simpa using hplace⟩) rfl
      have htag : c.node.tag = .modifier := by simpa [Node.isPlace] using hplace
      rw [cuts_of_mem ht hc, cut_of_tag_ne] <;> simp [htag]
    · exact cuts_of_not_mem hmem f
  by_cases hplace : ∃ c ∈ tree.places, c.node.id = id
  · obtain ⟨c, hc, rfl⟩ := hplace
    obtain ⟨c', hc', hmatch⟩ := exists_right_of_forall₂ h.forall₂_places hc
    rw [cuts_of_mem hids (Node.mem_places.mp hc).1, cut_eq_of_matches hmatch,
      (Cursor.matches_iff.mp hmatch).1.id_eq, cuts_of_mem hids' (Node.mem_places.mp hc').1]
  · have hnone : ∀ c ∈ tree.places, c.node.id ≠ id := fun c hc hid => hplace ⟨c, hc, hid⟩
    have hnone' : ∀ c ∈ tree'.places, c.node.id ≠ id := by
      intro c' hc' hid
      obtain ⟨c, hc, hmatch⟩ := exists_left_of_forall₂ h.forall₂_places hc'
      exact hnone c hc ((Cursor.matches_iff.mp hmatch).1.id_eq.trans hid)
    funext f
    rw [hcut tree hids hnone, hcut tree' hids' hnone']

/-! ## Trees for which the rule succeeds -/

/-- A tree whose type parameters all stand in lists. -/
def Placed (tree : Node) : Prop :=
  ∀ c ∈ tree.cursors, c.node.tag = .typeParameter → c.parent?.map Node.tag = some .typeParameters

instance (tree : Node) : Decidable (Placed tree) :=
  inferInstanceAs (Decidable (∀ c ∈ tree.cursors, c.node.tag = .typeParameter →
    c.parent?.map Node.tag = some .typeParameters))

theorem Placed.of_alike (h : tree.Alike σ tree') (hplaced : Placed tree) : Placed tree' := by
  intro c' hc' htag
  have hplace : c'.node.isPlace = true := by simp [Node.isPlace, htag]
  obtain ⟨c, hc, hmatch⟩ :=
    exists_left_of_forall₂ h.forall₂_places (Node.mem_places.mpr ⟨hc', hplace⟩)
  obtain ⟨hnode, hanc⟩ := Cursor.matches_iff.mp hmatch
  have hlist := hplaced c (Node.mem_places.mp hc).1 (hnode.tag_eq.trans htag)
  rw [Cursor.parent?] at hlist ⊢
  generalize c.ancestors = above at hanc hlist
  generalize c'.ancestors = above' at hanc
  cases hanc with
  | nil => cases hlist
  | cons hparent _ =>
    rw [List.head?_cons, Option.map_some, hparent.tag_eq] at hlist
    exact hlist

theorem placed_iff : Placed tree ↔ ∀ c ∈ tree.cursors, misplaced c = false := by
  refine forall₂_congr fun c _ => ?_
  cases hparent : c.parent? <;> by_cases htag : c.node.tag = .typeParameter <;>
    simp [misplaced, hparent, htag]

/-- What is left of the text around a node can be told from its id. -/
theorem left_eq_cut (hids : tree.DistinctIds) (hc : c ∈ tree.cursors) (hplaced : misplaced c = false)
    (f : Formatting) : left c f = cut c f := by
  by_cases hlist : c.node.tag = .typeParameters
  · rw [left_of_list hlist, cut_list hlist]
  · by_cases hparameter : c.node.tag = .typeParameter
    · rcases Node.eq_root_or_mem_children hc with rfl | ⟨p, hp, hcp⟩
      · simp [misplaced, Cursor.parent?, Cursor.root, show tree.tag = _ from hparameter] at hplaced
      · obtain ⟨hget, hanc⟩ := Cursor.mem_children.mp hcp
        have hparent : c.parent? = some p.node := by simp [Cursor.parent?, hanc, Cursor.path]
        have htag : p.node.tag = .typeParameters := by
          simpa [misplaced, hparameter, hparent] using hplaced
        have hsame (i : Nat) :
            ((p.node.children.map Node.id)[i]? == some c.node.id) = decide (c.index = i) := by
          rw [Bool.eq_iff_iff, decide_eq_true_iff, beq_iff_eq, List.getElem?_map]
          constructor
          · intro hid
            obtain ⟨other, hother, hid⟩ := Option.map_eq_some_iff.mp hid
            exact hids.index_eq hp hget hother hid.symm
          · rintro rfl
            rw [hget]
            rfl
        have hlt := (List.getElem?_eq_some_iff.mp hget).1
        have hlast : c.index + 1 = p.node.children.length ↔
            c.index = p.node.children.length - 1 := by
          omega
        rw [left_of_positionOf hparameter
            (positionOf_of_mem_children (.of_distinctIds hids) hp hcp htag),
          cut_parameter hparameter, hparent, Option.elim_some, cutIn, List.head?_eq_getElem?,
          List.getLast?_eq_getElem?, List.length_map, hsame, hsame]
        simp only [hlast, htag, beq_self_eq_true, if_true]
    · rw [left_of_tag_ne hlist hparameter, cut_of_tag_ne hlist hparameter]

/-- The rule succeeds if and only if all parameters stand in lists. -/
theorem exists_apply_iff : (∃ out : RuleOutput R, apply tree = .ok out) ↔ Placed tree := by
  rw [placed_iff]
  constructor
  · rintro ⟨out, hout⟩
    obtain ⟨s, hrun, _, _⟩ := RuleOutput.ofSession_eq_ok hout
    exact misplaced_of_yields hrun
  · intro hplaced
    cases hrun : (apply tree : Except RuleError (RuleOutput R)) with
    | ok out => exact ⟨out, rfl⟩
    | error e =>
      obtain ⟨c, hfind, _⟩ := apply_eq_error.mp hrun
      have hc := (Cursor.postorder_perm _).mem_iff.mp (List.mem_of_find?_eq_some hfind)
      have hmisplaced := List.find?_some hfind
      rw [hplaced c hc] at hmisplaced
      cases hmisplaced

/-- The tree that the rule leaves. -/
theorem unshared_of_apply {out : RuleOutput R} (hids : tree.DistinctIds) (h : apply tree = .ok out) :
    out.tree.unshared = tree.unshared.reformat (cuts tree) := by
  obtain ⟨s, hrun, _, _⟩ := RuleOutput.ofSession_eq_ok h
  refine Cursor.unshared_edited ?_ hrun
  intro d hd rebuilt n' s s' hid hformatting hyields
  rw [eq_of_yields_edit hformatting hyields, left_eq_cut hids hd (misplaced_of_yields hrun d hd),
    ← hformatting, Node.retouches_unshared.withFormatting, Node.id_unshared,
    Node.formatting_unshared, hid, cuts_of_mem hids hd]

end TypeParameterList

end Restyle
