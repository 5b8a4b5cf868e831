-- SUMMARY: The nodes that a renaming spells anew, and the nodes that it records.
import Restyle.Finality.Writes
import Restyle.Proofs.Naming.Respelled
import Restyle.Proofs.Tree.Postorder

/-!
# The footprint of a renaming

A renaming goes through the whole tree, and the name of the target is spelled anew by the target
and not by the name itself. All the same, the nodes of the new tree are those of the old one, in
order, with another spelling at the references to the target and at the names in its declarations
(`Node.forall₂_respelled`), and each declaration and each reference that gets another spelling is
recorded once, children first (`Renaming.log_of_edited`). No assumption on the tree is needed: ids
may occur more than once, and the name of a variable may be any node.
-/

namespace Restyle

/-- The kind with another spelling, if it is that of a name. -/
def Kind.spelled {α : Type} (name : String) : Kind α → Kind α
  | ident _ ty declaration => ident name ty declaration
  | kind => kind

/-- What a node holds beside its id, its formatting and its children. -/
def Node.label (n : Node) : Kind Unit := n.kind.unshared.map fun _ => ()

namespace Cursor

/-- Whether the node stands as the name in a declaration of the target: in the first place of a
    variable with that id. -/
def isNameOf (target : NodeId) (c : Cursor) : Bool :=
  c.index == 0 && c.parent?.any fun p => p.tag == .namedVar && p.id == target

/-- The same place in another tree, in which the target and the references to it have a new name. -/
structure Respelled (target : NodeId) (name : String) (c c' : Cursor) : Prop where
  index_eq : c'.index = c.index
  above_eq : c'.ancestors.map Node.id = c.ancestors.map Node.id
  id_eq : c'.node.id = c.node.id
  formatting_eq : c'.node.formatting = c.node.formatting
  label_eq : c'.node.label =
    if c.isNameOf target || c.node.refersTo target then c.node.label.spelled name
    else c.node.label

end Cursor

/-! ## Labels -/

namespace Node

variable {target : NodeId} {name : String}

theorem label_unshared (n : Node) : n.unshared.label = n.label := by
  rw [label, kind_unshared, Kind.unshared_unshared, Kind.unshared_map, Kind.map_map]
  rfl

theorem label_respell (n : Node) : (n.respell name).label = n.label.spelled name := by
  cases hkind : n.kind with
  | ident old ty declaration =>
    rw [respell, label, label, hkind]
    rfl
  | _ =>
    rw [respell_of_tag_ne (by simp [tag, hkind, Kind.tag]), label, hkind]
    rfl

theorem label_renamed (n : Node) :
    (n.renamed target name).label =
      if n.refersTo target then n.label.spelled name else n.label := by
  cases hkind : n.kind with
  | ident old ty declaration =>
    have hlabel : n.label = .ident old ty declaration := by
      rw [label, hkind]
      rfl
    rw [renamed_ident hkind, hlabel, refersTo, hkind]
    by_cases h : declaration = some target
    · simp [h, label, withKind, Kind.unshared, Kind.map, Kind.spelled]
    · simp [h, label, withKind, Kind.unshared, Kind.map]
  | namedVar id initializer =>
    rw [renamed_namedVar hkind, label, label, refersTo, hkind]
    cases initializer <;> rfl
  | _ =>
    have hvar : n.tag ≠ .namedVar := by simp [tag, hkind, Kind.tag]
    have hident : n.tag ≠ .ident := by simp [tag, hkind, Kind.tag]
    have hrefers : n.refersTo target = false := by rw [refersTo, hkind]
    rw [renamed_other hvar hident, hrefers, label, withKind, Kind.unshared_map, Kind.map_map]
    rfl

theorem children_respell (n : Node) : (n.respell name).children = n.children := by
  unfold respell
  split
  · rename_i hkind
    rw [children, children, hkind]
    rfl
  · rfl

theorem id_respell (n : Node) : (n.respell name).id = n.id := by
  unfold respell
  split <;> rfl

theorem formatting_respell (n : Node) : (n.respell name).formatting = n.formatting := by
  unfold respell
  split <;> rfl

theorem formatting_renamed (n : Node) : (n.renamed target name).formatting = n.formatting := by
  rw [renamed, fold_eq]
  split <;> rfl

end Node

/-! ## The new tree, place by place -/

namespace Cursor

variable {target : NodeId} {name : String}

/-- What a renaming makes of the node at a cursor, together with the node above it. -/
def renamed (target : NodeId) (name : String) (c : Cursor) : Node :=
  if c.isNameOf target then (c.node.renamed target name).respell name
  else c.node.renamed target name

theorem isNameOf_of_mem_children {c d : Cursor} (h : d ∈ c.children) :
    d.isNameOf target = (d.index == 0 && (c.node.tag == .namedVar && c.node.id == target)) := by
  rw [isNameOf, parent?, (mem_children.mp h).2]
  rfl

theorem children_renamed (c : Cursor) :
    (c.renamed target name).children = c.children.map (renamed target name) := by
  have hrenamed : (c.renamed target name).children = (c.node.renamed target name).children := by
    unfold renamed
    split
    · exact Node.children_respell _
    · rfl
  rw [hrenamed]
  by_cases htarget : c.node.tag = .namedVar ∧ c.node.id = target
  · cases hkind : c.node.kind with
    | namedVar id initializer =>
      have hname : (⟨id, c.path, 0⟩ : Cursor).renamed target name =
          (id.renamed target name).respell name := by
        simp [renamed, isNameOf, parent?, path, htarget]
      have hinit (n : Node) : (⟨n, c.path, 1⟩ : Cursor).renamed target name =
          n.renamed target name := by
        simp [renamed, isNameOf]
      rw [Node.renamed_namedVar hkind, if_pos htarget.2, children, Node.children, Node.children,
        hkind]
      cases initializer with
      | none => exact congrArg (· :: []) hname.symm
      | some p => exact congrArg₂ (fun n m => [n, m]) hname.symm (hinit p.elem).symm
    | _ => simp [Node.tag, hkind, Kind.tag] at htarget
  · rw [Node.children_renamed htarget, ← c.map_node_children, List.map_map]
    refine List.map_congr_left fun d hd => ?_
    have hother : d.isNameOf target = false := by
      rw [isNameOf_of_mem_children hd]
      simpa using fun _ htag => fun hid => htarget ⟨htag, hid⟩
    simp [renamed, hother]

/-- The node at the same place of the renamed tree, up to what is known of repeated nodes. -/
structure Follows (target : NodeId) (name : String) (c c' : Cursor) : Prop where
  index_eq : c'.index = c.index
  above_eq : c'.ancestors.map Node.id = c.ancestors.map Node.id
  node_eq : c'.node.unshared = (c.renamed target name).unshared

namespace Follows

variable {c c' : Cursor}

theorem id_eq (h : c.Follows target name c') : c'.node.id = c.node.id := by
  have hid : (c.renamed target name).id = c.node.id := by
    unfold renamed
    split
    · rw [Node.id_respell, Node.id_renamed]
    · exact Node.id_renamed _
  rw [← Node.id_unshared, h.node_eq, Node.id_unshared, hid]

theorem children (h : c.Follows target name c') :
    List.Forall₂ (Follows target name) c.children c'.children := by
  have hnodes : c'.node.children.map Node.unshared =
      c.children.map fun d => (d.renamed target name).unshared := by
    rw [← Node.children_unshared, h.node_eq, Node.children_unshared, children_renamed,
      List.map_map]
    rfl
  have hlength : c.children.length = c'.children.length := by
    have := congrArg List.length hnodes
    simpa [Cursor.children] using this.symm
  have habove : c'.path.map Node.id = c.path.map Node.id := by
    simp [path, h.id_eq, h.above_eq]
  refine List.forall₂_iff_get.mpr ⟨hlength, fun i hi hi' => ?_⟩
  have hnode : (c'.children.get ⟨i, hi'⟩).node.unshared =
      ((c.children.get ⟨i, hi⟩).renamed target name).unshared := by
    have hget := congrArg (·[i]?) hnodes
    rw [← c'.map_node_children] at hget
    simpa [hi, hi'] using hget
  have hplace (d : Cursor) (j : Nat) (hj : j < d.children.length) :
      (d.children.get ⟨j, hj⟩).index = j ∧ (d.children.get ⟨j, hj⟩).ancestors = d.path := by
    simp [Cursor.children, path]
  obtain ⟨hindex, hanc⟩ := hplace c i hi
  obtain ⟨hindex', hanc'⟩ := hplace c' i hi'
  exact ⟨hindex'.trans hindex.symm, by rw [hanc, hanc', habove], hnode⟩

theorem respelled (h : c.Follows target name c') : c.Respelled target name c' := by
  refine ⟨h.index_eq, h.above_eq, h.id_eq, ?_, ?_⟩
  · have hformatting : (c.renamed target name).formatting = c.node.formatting := by
      unfold renamed
      split
      · rw [Node.formatting_respell, Node.formatting_renamed]
      · exact Node.formatting_renamed _
    rw [← Node.formatting_unshared, h.node_eq, Node.formatting_unshared, hformatting]
  · have hspelled (k : Kind Unit) : (k.spelled name).spelled name = k.spelled name := by
      cases k <;> rfl
    rw [← Node.label_unshared, h.node_eq, Node.label_unshared, renamed]
    cases c.isNameOf target with
    | false => simpa using Node.label_renamed c.node
    | true =>
      rw [if_pos rfl, Node.label_respell, Node.label_renamed]
      split <;> simp [hspelled]

end Follows

/-- Cursors whose children correspond all the way down correspond in pre-order. -/
theorem forall₂_below {P : Cursor → Cursor → Prop}
    (hstep : ∀ c c', P c c' → List.Forall₂ P c.children c'.children) {c c' : Cursor}
    (h : P c c') : List.Forall₂ P c.below c'.below := by
  induction c using induct generalizing c' with
  | step c ih =>
    rw [below_eq, below_eq]
    exact .cons h (forall₂_flatMap (hstep c c' h) fun d hd d' => ih d hd)

end Cursor

theorem Node.forall₂_respelled {target : NodeId} {name : String} {tree tree' : Node}
    (h : tree'.unshared = tree.unshared.renamed target name) :
    List.Forall₂ (Cursor.Respelled target name) tree.cursors tree'.cursors := by
  have hroot : (Cursor.root tree).Follows target name (.root tree') := by
    refine ⟨rfl, rfl, ?_⟩
    simpa [Cursor.root, Cursor.renamed, Cursor.isNameOf, Cursor.parent?, unshared_renamed] using h
  exact (Cursor.forall₂_below (fun _ _ hc => hc.children) hroot).imp fun _ _ hc => hc.respelled

/-! ## The log -/

namespace Node

/-- Whether a renaming records a node: a declaration of the target, or a reference that does not
    have the new name yet. -/
def isRespelled (target : NodeId) (name : String) (n : Node) : Bool :=
  match n.kind with
  | .namedVar .. => n.id == target
  | .ident old _ declaration => declaration == some target && old != name
  | _ => false

end Node

namespace Renaming

variable {σ ε : Type} {target : NodeId} {name : String}

/-- The ids that a renaming records, in order. -/
def recorded (target : NodeId) (name : String) (tree : Node) : List NodeId :=
  (tree.postorder.filter (Node.isRespelled target name)).map Node.id

/-- One edit records its node or nothing. -/
theorem log_of_edit {c : Cursor} {rebuilt n' : Node} {s s' : Session σ}
    (h : Yields (edit target name c rebuilt : Edit σ ε Node) s n' s') :
    s'.log = if c.node.isRespelled target name then s.log.record c.node.id else s.log := by
  obtain ⟨new, hedit⟩ : ∃ new, (edit target name c rebuilt : Edit σ ε Node) =
      if c.node.isRespelled target name then Edit.replace c.node new else pure rebuilt := by
    cases hkind : c.node.kind with
    | namedVar _ _ => exact ⟨rebuilt.respellVariable name, by simp [edit, Node.isRespelled, hkind]⟩
    | _ => exact ⟨rebuilt.respell name, by simp [edit, Node.isRespelled, hkind]⟩
  rw [hedit] at h
  split at h
  · rw [← (Edit.yields_replace.mp h).2, if_pos ‹_›]
  · rw [← (yields_pure.mp h).2, if_neg ‹_›]

/-- A session records the nodes below a cursor, children first. -/
theorem log_of_edited {c : Cursor} {n' : Node} {s s' : Session σ}
    (h : Yields (c.edited (edit target name : _ → _ → Edit σ ε Node)) s n' s') :
    s'.log = (recorded target name c.node).foldl TransformLog.record s.log := by
  rw [Cursor.log_of_edited (fun _ _ _ _ _ => log_of_edit) h, recorded, ← c.map_node_postorder,
    List.filter_map, List.foldl_map, List.foldl_map]
  rfl

/-! ## The rule -/

variable {R : Type} {r : Renaming} {tree : Node}

theorem find?_eq_none_iff :
    tree.bindings.find? (fun b => b.id == r.target) = none ↔
      ∀ c ∈ tree.cursors, c.node.id = r.target → ∀ old, ¬c.IsVariable old := by
  rw [List.find?_eq_none]
  constructor
  · intro h c hc hid old hold
    simpa [Cursor.binding, hid] using h _ (Node.binding_mem_bindings hc hold)
  · intro h b hb hid
    obtain ⟨c, hc, hname, hbinding⟩ := Node.mem_bindings.mp hb
    have hcid : b.id = c.node.id := congrArg Binding.id hbinding
    exact h c hc (hcid.symm.trans (by simpa using hid)) b.name hname

/-- A renaming leaves a tree without its target as it is. Otherwise the target gets a free name, if
    there is one: the new tree has that name at the declarations of the target and at all references
    to it and is the old tree at all other places, and the log has an entry for each declaration and
    for each reference with another spelling, children first. -/
theorem apply_edits_exactly (r : Renaming) (tree : Node) :
    ((∀ c ∈ tree.cursors, c.node.id = r.target → ∀ old, ¬c.IsVariable old) →
      (r.apply tree : Except RuleError (RuleOutput R)) = .ok (.unchanged tree)) ∧
    (∀ out : RuleOutput R, r.apply tree = .ok out →
      (∃ c ∈ tree.cursors, c.node.id = r.target ∧ ∃ old, c.IsVariable old) →
      ∃ target name, tree.bindings.find? (fun b => b.id == r.target) = some target ∧
        r.freshName tree target = .ok name ∧
        List.Forall₂ (Cursor.Respelled r.target name) tree.cursors out.tree.cursors ∧
        out.transforms = (tree.postorder.filter (Node.isRespelled r.target name)).map
          (fun n => ⟨ruleName, n.id⟩) ∧
        out.followUps = []) ∧
    ∀ e, (r.apply tree : Except RuleError (RuleOutput R)) = .error e ↔
      ∃ target, tree.bindings.find? (fun b => b.id == r.target) = some target ∧
        r.freshName tree target = .error e := by
  refine ⟨?_, ?_, ?_⟩
  · intro hnone
    rw [apply, find?_eq_none_iff.mpr hnone]
  · rintro out hout ⟨c, hc, hid, old, hold⟩
    rcases apply_cases hout with ⟨hnone, _⟩ | ⟨target, name, hsome, hfresh, hfollow, s, hrun, hlog⟩
    · exact absurd hold (find?_eq_none_iff.mp hnone c hc hid old)
    · refine ⟨target, name, hsome, hfresh, Node.forall₂_respelled ?_, ?_, hfollow⟩
      · rw [← Node.unshared_renamed, ← Node.sketch_full, ← Node.sketch_full]
        exact edited_renamed hrun
      · rw [hlog, log_of_edited hrun, TransformLog.entries_foldl_record, recorded, List.map_map]
        rfl
  · intro e
    cases hfind : tree.bindings.find? (fun b => b.id == r.target) with
    | none => simp [apply, hfind]
    | some target =>
      cases hfresh : r.freshName tree target with
      | error e' => simp [apply, hfind, hfresh, bind, Except.bind]
      | ok name =>
        obtain ⟨out, hout, _⟩ := exists_apply_renamed (R := R) hfind hfresh
        simp [hout, hfresh]

theorem exists_isVariable_hidingLocal :
    ∃ c ∈ hidingLocal.cursors, c.node.id = 22 ∧ ∃ old, c.IsVariable old := by
  have hfind : (hidingLocal.cursors.any fun c => c.node.id == 22 && c.node.tag == .namedVar &&
    c.node.simpleName? == some "x") = true := by decide
  simp only [List.any_eq_true, Bool.and_eq_true, beq_iff_eq] at hfind
  obtain ⟨c, hc, ⟨hid, htag⟩, hname⟩ := hfind
  exact ⟨c, hc, hid, "x", htag, hname⟩

/-- In `hidingLocal` the local variable and the reference to it are renamed, not the field. -/
theorem apply_edits_exactly_hidingLocal :
    ∃ out : RuleOutput Rule, (⟨22, []⟩ : Renaming).apply hidingLocal = .ok out ∧
      List.Forall₂ (Cursor.Respelled 22 "x1") hidingLocal.cursors out.tree.cursors ∧
      out.transforms = [⟨ruleName, 22⟩, ⟨ruleName, 7⟩] := by
  obtain ⟨out, hout⟩ : ∃ out : RuleOutput Rule,
      (⟨22, []⟩ : Renaming).apply hidingLocal = .ok out := Except.exists_ok_of_isOk (by decide)
  obtain ⟨target, name, hfind, hfresh, hnodes, hlog, _⟩ :=
    (apply_edits_exactly (R := Rule) ⟨22, []⟩ hidingLocal).2.1 out hout exists_isVariable_hidingLocal
  have hname : name = "x1" := by
    have hnames : (hidingLocal.bindings.find? (fun b => b.id == 22)).map (fun b =>
        ((⟨22, []⟩ : Renaming).freshName hidingLocal b).toOption) = some (some "x1") := by decide
    rw [hfind, Option.map_some, hfresh] at hnames
    simpa [Except.toOption] using hnames
  subst hname
  exact ⟨out, hout, hnodes, hlog.trans (by decide)⟩

end Renaming

end Restyle
