-- SUMMARY: Renaming as a change that goes through a tree node by node.
import Restyle.Proofs.Naming.Renamed
import Restyle.Proofs.Tree.Retouch
import Restyle.Proofs.Tree.Success

/-!
# Respelled names

A renamed tree is the same tree with other spellings: renaming can be swapped with every change that
leaves variables and names alone (`Node.renamed_comm`), and with every sketch that spells names out
(`Node.sketch_renamed`). The rule succeeds if there is a free name, and leaves the renamed tree
(`Renaming.exists_apply_renamed`).
-/

namespace Restyle

namespace Node

variable {target : NodeId} {name : String} {σ : Sketch} {change : Node → Node}
variable {text : NodeId → Formatting → Formatting} {special : Tag → Bool}

/-! ## Renaming node by node -/

/-- Another name for a variable, at its declaration or at a reference to it. -/
def renameHere (target : NodeId) (name : String) (n : Node) : Node :=
  match n.kind with
  | .namedVar id initializer =>
    n.withKind (.namedVar (if n.id = target then id.respell name else id) initializer)
  | .ident old ty declaration =>
    n.withKind (.ident (if declaration = some target then name else old) ty declaration)
  | _ => n

theorem renamed_eq_remake (target : NodeId) (name : String) :
    renamed target name = remake fun _ r => renameHere target name r := by
  unfold renamed remake
  congr 1
  funext n kind
  cases kind <;> rfl

theorem renameHere_of_tag_ne {n : Node} (hvar : n.tag ≠ .namedVar) (hident : n.tag ≠ .ident) :
    renameHere target name n = n := by
  cases hkind : n.kind with
  | namedVar _ _ => simp [tag, hkind, Kind.tag] at hvar
  | ident _ _ _ => simp [tag, hkind, Kind.tag] at hident
  | _ => simp [renameHere, hkind]

theorem respellVariable_eq_renameHere {n : Node} (h : n.tag = .namedVar) :
    n.respellVariable name = renameHere n.id name n := by
  cases hkind : n.kind with
  | namedVar id initializer => simp [respellVariable, renameHere, hkind]
  | _ => simp [tag, hkind, Kind.tag] at h

theorem retouches_renamed (target : NodeId) (name : String) :
    Retouches (renamed target name) (fun _ f => f) fun t => t == .namedVar || t == .ident := by
  rw [renamed_eq_remake]
  refine .remake ?_ ?_ ?_ ?_
  · intro n r
    unfold renameHere
    split <;> rfl
  · intro n r
    unfold renameHere
    split
    · rename_i hkind
      rw [tag, tag, hkind]
      rfl
    · rename_i hkind
      rw [tag, tag, hkind]
      rfl
    · rfl
  · intro n r f
    unfold renameHere
    rw [show (r.withFormatting f).kind = r.kind from rfl]
    split <;> rfl
  · intro n r hr
    simp only [Bool.or_eq_false_iff, beq_eq_false_iff_ne] at hr
    rw [renameHere_of_tag_ne hr.1 hr.2, withFormatting_self]

/-! ## Renaming and other changes -/

theorem change_ident (h : Retouches change text special) (hident : special .ident = false)
    {n : Node} {spelling : String} {ty : Ty} {declaration : Option NodeId}
    (hkind : n.kind = .ident spelling ty declaration) :
    change n = ⟨n.id, text n.id n.formatting, .ident spelling ty declaration⟩ := by
  rw [h.plain n (by rw [tag, hkind]; exact hident), hkind]
  rfl

theorem respell_past (h : Retouches change text special) (hident : special .ident = false) (n : Node) :
    change (n.respell name) = (change n).respell name := by
  cases hkind : n.kind with
  | ident old ty declaration =>
    simp only [respell, hkind, change_ident h hident hkind]
    rw [change_ident h hident rfl]
    rfl
  | _ =>
    have htag : n.tag ≠ .ident := by simp [tag, hkind, Kind.tag]
    rw [respell_of_tag_ne htag, respell_of_tag_ne (by rwa [h.tag_eq])]

theorem renameHere_past (h : Retouches change text special) (hvar : special .namedVar = false)
    (hident : special .ident = false) (n : Node) :
    change (renameHere target name n) = renameHere target name (change n) := by
  cases hkind : n.kind with
  | namedVar id initializer =>
    have hplain (m : Node) {id : Node} (hm : m.kind = .namedVar id initializer) :
        change m = ⟨m.id, text m.id m.formatting,
          .namedVar (change id) (initializer.map (Padded.map change))⟩ := by
      rw [h.plain m (by rw [tag, hm]; exact hvar), hm]
      rfl
    simp only [renameHere, hkind, hplain n hkind]
    rw [hplain _ rfl, apply_ite change, respell_past h hident]
    rfl
  | ident old ty declaration =>
    simp only [renameHere, hkind, change_ident h hident hkind]
    rw [change_ident h hident rfl]
    rfl
  | _ =>
    have htags : n.tag ≠ .namedVar ∧ n.tag ≠ .ident := by simp [tag, hkind, Kind.tag]
    rw [renameHere_of_tag_ne htags.1 htags.2, renameHere_of_tag_ne] <;> simp [h.tag_eq, htags]

/-- At a node that the change treats plainly, it can be swapped with renaming. -/
theorem renamed_comm (h : Retouches change text special) (hvar : special .namedVar = false)
    (hident : special .ident = false) {n : Node} (hn : special n.tag = false)
    (ih : ∀ child ∈ n.children, (change child).renamed target name = change (child.renamed target name)) :
    (change n).renamed target name = change (n.renamed target name) := by
  simp only [renamed_eq_remake] at ih ⊢
  exact remake_comm_of_plain h hn rfl (renameHere_past h hvar hident _) ih

/-! ## Renaming and sketches -/

theorem sketch_full (n : Node) : n.sketch .full = n.unshared := by
  have hkind (k : Kind Node) : Sketch.full.kind k = k.unshared := by
    cases k <;> rfl
  induction n using induct with
  | step n ih =>
    rw [sketch_eq, unshared_eq, hkind, Kind.map_congr ih]
    rfl

/-- What is drawn of a kind does not depend on the names in its children. -/
theorem kind_map_renamed (k : Kind Node) (h : k.tag ≠ .ident) :
    σ.kind (k.map (renamed target name)) = (σ.kind k).map (renamed target name) := by
  cases k with
  | ident _ _ _ => exact absurd rfl h
  | variableDecls modifiers typeExpr vars =>
    have hlead (n : Node) : (n.withLead "").renamed target name = (n.renamed target name).withLead "" :=
      (retouches_renamed target name).withLead (fun _ => rfl) ""
    have hmodifiers : ((modifiers.map (renamed target name)).filter isPlace).map (withLead · "") =
        ((modifiers.filter isPlace).map (withLead · "")).map (renamed target name) := by
      rw [List.filter_map, List.map_map, List.map_map]
      have hplaces : isPlace ∘ renamed target name = isPlace := funext isPlace_renamed
      rw [hplaces]
      exact List.map_congr_left fun n _ => (hlead n).symm
    have htype : (typeExpr.map (renamed target name)).map (withLead · "") =
        (typeExpr.map (withLead · "")).map (renamed target name) := by
      cases typeExpr with
      | none => rfl
      | some n => exact congrArg some (hlead n).symm
    by_cases hσ : σ.modifiers
    · simp [Kind.map, Sketch.kind, hσ]
    · simp only [Kind.map, Sketch.kind, hσ, Bool.false_eq_true, if_false, hmodifiers, htype]
  | _ => rfl

/-- A sketch that spells names out shows the new name. -/
theorem sketch_renamed (hσ : σ.spelling = true) (n : Node) :
    (n.renamed target name).sketch σ = (n.sketch σ).renamed target name := by
  induction n using induct with
  | step n ih =>
    have hchildren : (n.kind.map (renamed target name)).map (sketch σ) =
        (n.kind.map (sketch σ)).map (renamed target name) := by
      rw [Kind.map_map, Kind.map_map]
      exact Kind.map_congr ih
    cases hkind : n.kind with
    | namedVar id initializer =>
      have hsketch : (n.sketch σ).kind = .namedVar (id.sketch σ)
          (initializer.map (Padded.map (sketch σ))) := by
        rw [kind_sketch, hkind]
        rfl
      rw [hkind] at hchildren
      obtain ⟨hid, hinit⟩ := Kind.namedVar.inj hchildren
      rw [renamed_namedVar hkind, renamed_namedVar hsketch, sketch_eq, id_sketch]
      simp only [withKind, Kind.map, Sketch.kind, hinit, apply_ite (sketch σ),
        sketch_respell_of_spelling hσ, hid, formatting_sketch, tag, hkind, id_sketch]
      rfl
    | ident old ty declaration =>
      have hsketch : (n.sketch σ).kind = .ident old ty declaration := by
        rw [kind_sketch, hkind]
        simp [Kind.map, Sketch.kind, hσ]
      rw [renamed_ident hkind, renamed_ident hsketch, sketch_eq]
      simp [withKind, Kind.map, Sketch.kind, hσ, formatting_sketch, tag, hkind, Kind.tag]
    | _ =>
      have hvar : n.tag ≠ .namedVar := by simp [tag, hkind, Kind.tag]
      have hident : n.tag ≠ .ident := by simp [tag, hkind, Kind.tag]
      rw [renamed_other hvar hident, renamed_other (by rwa [tag_sketch]) (by rwa [tag_sketch]),
        sketch_eq, kind_sketch, ← kind_map_renamed _ (by rwa [Kind.tag_map]), ← hchildren]
      simp [withKind, tag, formatting_sketch]

theorem unshared_renamed (n : Node) :
    (n.renamed target name).unshared = n.unshared.renamed target name := by
  rw [← sketch_full, ← sketch_full, sketch_renamed rfl]

end Node

/-! ## The rule -/

namespace Renaming

variable {R : Type} {r : Renaming} {tree : Node} {target : Binding} {name : String}

theorem exists_yields_edit {σ ε : Type} (target : NodeId) (name : String) (c : Cursor)
    (rebuilt : Node) (s : Session σ) :
    ∃ n' s', Yields (edit target name c rebuilt : Edit σ ε Node) s n' s' := by
  unfold edit
  split
  · split
    · exact ⟨_, _, Edit.yields_replace.mpr ⟨rfl, rfl⟩⟩
    · exact ⟨_, _, yields_pure.mpr ⟨rfl, rfl⟩⟩
  · split
    · exact ⟨_, _, Edit.yields_replace.mpr ⟨rfl, rfl⟩⟩
    · exact ⟨_, _, yields_pure.mpr ⟨rfl, rfl⟩⟩
  · exact ⟨_, _, yields_pure.mpr ⟨rfl, rfl⟩⟩

/-- A target with a free name is renamed. -/
theorem exists_apply_renamed (htarget : tree.bindings.find? (fun b => b.id == r.target) = some target)
    (hname : r.freshName tree target = .ok name) :
    ∃ out : RuleOutput R, r.apply tree = .ok out ∧ out.followUps = [] ∧
      out.tree.unshared = tree.unshared.renamed r.target name := by
  obtain ⟨tree', s', hrun⟩ := Cursor.exists_yields_of_forall (c := .root tree)
    (fun d _ => exists_yields_edit (σ := Unit) (ε := TreeError) r.target name d)
    ⟨(), { rule := ruleName }⟩
  have hout : r.apply tree = .ok ({ tree := tree', transforms := s'.log.entries } : RuleOutput R) := by
    rw [apply, htarget]
    simp only [hname, bind, Except.bind]
    exact RuleOutput.ofSession_of_yields hrun
  refine ⟨_, hout, rfl, ?_⟩
  rw [← Node.unshared_renamed, ← Node.sketch_full, ← Node.sketch_full]
  exact edited_renamed hrun

end Renaming

end Restyle
