-- SUMMARY: Well-formed trees, and that all rules keep them well-formed.
import Restyle.Proofs.Naming.Scopes
import Restyle.Proofs.Rule.Ids

/-!
# Well-formed trees

What the rules can rely on in a tree that was read from source text: ids are distinct, variables have
plain names, and a declaration of variables holds variables, with no list of type parameters in front
of them. Apart from the ids, this can be seen in the skeleton of a tree, which no rule changes.
-/

namespace Restyle

namespace Node

variable {σ : Sketch} {n n' tree tree' : Node}

/-- Whether a node is no declaration of variables, or holds variables only and no list of type
    parameters in front of them. -/
def hasPlainDeclaration (n : Node) : Bool :=
  match n.kind with
  | .variableDecls modifiers typeExpr vars =>
    vars.all (fun var => var.tag == .namedVar) &&
      (modifiers ++ typeExpr.toList).all fun m => m.tag != .typeParameters
  | _ => true

theorem hasPlainDeclaration_iff {modifiers vars : List Node} {typeExpr : Option Node}
    (h : n.kind = .variableDecls modifiers typeExpr vars) :
    n.hasPlainDeclaration = true ↔
      (∀ var ∈ vars, var.tag = .namedVar) ∧ ∀ child ∈ n.children, child.tag ≠ .typeParameters := by
  simp only [hasPlainDeclaration, h, Bool.and_eq_true, List.all_eq_true, beq_iff_eq, bne_iff_ne,
    children, Kind.children, List.mem_append]
  constructor
  · rintro ⟨hvars, hother⟩
    refine ⟨hvars, fun child hchild => ?_⟩
    rcases hchild with hmodifier | htype | hvar
    · exact hother child (.inl hmodifier)
    · exact hother child (.inr htype)
    · simp [hvars child hvar]
  · rintro ⟨hvars, hchildren⟩
    refine ⟨hvars, fun child hchild => hchildren child ?_⟩
    exact hchild.imp_right .inl

theorem hasPlainDeclaration_of_tag_ne (h : n.tag ≠ .variableDecls) :
    n.hasPlainDeclaration = true := by
  cases hkind : n.kind with
  | variableDecls _ _ _ => simp [tag, hkind, Kind.tag] at h
  | _ => simp [hasPlainDeclaration, hkind]

theorem Alike.hasPlainDeclaration (h : n.Alike σ n') (hn : n.hasPlainDeclaration = true) :
    n'.hasPlainDeclaration = true := by
  by_cases hdecl : n.tag = .variableDecls
  · cases hkind : n.kind with
    | variableDecls modifiers typeExpr vars =>
      obtain ⟨modifiers', typeExpr', vars', hkind', _, hvars, _⟩ := h.variableDecls hkind
      obtain ⟨hvariables, hchildren⟩ := (hasPlainDeclaration_iff hkind).mp hn
      refine (hasPlainDeclaration_iff hkind').mpr ⟨fun var' hvar' => ?_, fun child' hchild' => ?_⟩
      · have hmem := List.mem_map_of_mem (f := sketch σ) hvar'
        rw [← hvars] at hmem
        obtain ⟨var, hvar, hsketch⟩ := List.mem_map.mp hmem
        rw [← (alike_of_sketch_eq hsketch).tag_eq]
        exact hvariables var hvar
      · intro hlist
        have hplace : child'.isPlace = true := by simp [isPlace, hlist]
        obtain ⟨child, hchild, halike⟩ :=
          exists_left_of_forall₂ h.children (List.mem_filter.mpr ⟨hchild', hplace⟩)
        exact hchildren child (List.mem_filter.mp hchild).1 (halike.tag_eq.trans hlist)
    | _ => simp [tag, hkind, Kind.tag] at hdecl
  · exact hasPlainDeclaration_of_tag_ne (h.tag_eq ▸ hdecl)

/-- A tree that the rules can rely on. -/
structure WellFormed (tree : Node) : Prop where
  distinctIds : tree.DistinctIds
  plainNames : tree.PlainNames
  plainDeclarations : ∀ n ∈ tree.nodes, n.hasPlainDeclaration = true

instance (tree : Node) : Decidable tree.WellFormed :=
  decidable_of_iff
    (tree.DistinctIds ∧ tree.PlainNames ∧ ∀ n ∈ tree.nodes, n.hasPlainDeclaration = true)
    ⟨fun ⟨hids, hnames, hdecls⟩ => ⟨hids, hnames, hdecls⟩,
      fun ⟨hids, hnames, hdecls⟩ => ⟨hids, hnames, hdecls⟩⟩

theorem Alike.wellFormed (h : tree.Alike σ tree') (hids' : tree'.DistinctIds)
    (htree : tree.WellFormed) : tree'.WellFormed := by
  refine ⟨hids', h.plainNames htree.plainNames, ?_⟩
  refine h.forall_nodes (fun m hm => ?_) (fun m m' => Alike.hasPlainDeclaration)
    htree.plainDeclarations
  refine hasPlainDeclaration_of_tag_ne fun htag => ?_
  simp [isPlace, htag] at hm

end Node

variable {rule : Rule} {tree tree' : Node}

theorem Rule.Turns.alike (h : rule.Turns tree tree') : tree.Alike .skeleton tree' :=
  Node.alike_of_sketch_eq (h.sketch_eq rule.spares_skeleton).symm

/-- Every rule of a pipeline, with all that it schedules, keeps ids distinct. -/
theorem Rule.Turns.distinctIds (h : rule.Turns tree tree') (hids : tree.DistinctIds) :
    tree'.DistinctIds := by
  obtain ⟨applied, hsteps⟩ := h.exists_steps
  clear h
  induction hsteps with
  | nil tree => exact hids
  | cons hstep _ ih => exact ih (hstep.distinctIds hids)

/-- Every rule of a pipeline, with all that it schedules, leaves a well-formed tree. -/
theorem Rule.Turns.wellFormed (h : rule.Turns tree tree') (htree : tree.WellFormed) :
    tree'.WellFormed :=
  h.alike.wellFormed (h.distinctIds htree.distinctIds) htree

end Restyle
