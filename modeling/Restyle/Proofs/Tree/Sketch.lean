-- SUMMARY: Sketches of a tree: the tree with some of its details left out.
import Restyle.Proofs.Tree.Editing

/-!
# Sketches

A rule changes some details of a tree and keeps all others. A `Sketch` says which details are looked
at: the text around nodes of some kinds, the spelling of names, or the modifiers of variables. Two
trees are alike if their sketches are the same up to the text around their roots; then their nodes
correspond to each other in order (`Node.Alike.forall₂_places`).
-/

namespace Restyle

namespace Node

/-- Whether a node is more than a modifier. Modifiers come and go in a tree; all other nodes have
    their place in it. -/
def isPlace (n : Node) : Bool := n.tag != .modifier

theorem children_eq_nil_of_not_isPlace {n : Node} (h : n.isPlace = false) : n.children = [] := by
  obtain ⟨id, formatting, kind⟩ := n
  cases kind <;> first | rfl | simp [isPlace, tag, Kind.tag] at h

end Node

/-- What is shown of a tree. -/
structure Sketch where
  /-- The kinds of nodes that are shown with the text around them. -/
  text : Tag → Bool
  /-- Whether names are spelled out. -/
  spelling : Bool
  /-- Whether variables are shown with their modifiers, and with the text before what comes first in
      their declaration. -/
  modifiers : Bool

namespace Sketch

/-- The text around a node of a kind, as it is drawn. -/
def formatting (σ : Sketch) (t : Tag) (f : Formatting) : Formatting := if σ.text t then f else {}

/-- A kind with the sketches of the children, as it is drawn. -/
def kind (σ : Sketch) : Kind Node → Kind Node
  | .ident name ty declaration => .ident (if σ.spelling then name else "") ty declaration
  | .typeParameters params _ => .typeParameters params []
  | .variableDecls modifiers typeExpr vars =>
    if σ.modifiers then .variableDecls modifiers typeExpr vars
    else
      .variableDecls ((modifiers.filter Node.isPlace).map (Node.withLead · ""))
        (typeExpr.map (Node.withLead · "")) vars
  | k => k

@[simp] theorem tag_kind (σ : Sketch) (k : Kind Node) : (σ.kind k).tag = k.tag := by
  cases k with
  | variableDecls modifiers typeExpr vars =>
    simp only [kind]
    split <;> rfl
  | _ => rfl

end Sketch

namespace Node

/-- The sketch of a tree. -/
def sketch (σ : Sketch) : Node → Node :=
  fold fun n kind => ⟨n.id, σ.formatting n.tag n.formatting, σ.kind kind⟩

theorem sketch_eq (σ : Sketch) (n : Node) :
    n.sketch σ = ⟨n.id, σ.formatting n.tag n.formatting, σ.kind (n.kind.map (sketch σ))⟩ := by
  rw [sketch, fold_eq]

variable {σ : Sketch}

@[simp] theorem id_sketch (n : Node) : (n.sketch σ).id = n.id := by
  rw [sketch_eq]

@[simp] theorem tag_sketch (n : Node) : (n.sketch σ).tag = n.tag := by
  simp [sketch_eq, tag]

theorem kind_sketch (n : Node) : (n.sketch σ).kind = σ.kind (n.kind.map (sketch σ)) := by
  rw [sketch_eq]

theorem formatting_sketch (n : Node) : (n.sketch σ).formatting = σ.formatting n.tag n.formatting := by
  rw [sketch_eq]

/-! ## Alike trees -/

/-- The sketch of a tree without the text around it. -/
def outline (σ : Sketch) (n : Node) : Node := (n.sketch σ).withFormatting {}

/-- Two trees with the same outline. -/
def Alike (σ : Sketch) (n n' : Node) : Prop := n.outline σ = n'.outline σ

theorem alike_of_sketch_eq {n n' : Node} (h : n.sketch σ = n'.sketch σ) : n.Alike σ n' := by
  rw [Alike, outline, outline, h]

namespace Alike

variable {n n' : Node}

theorem refl (n : Node) : n.Alike σ n := rfl

theorem symm (h : n.Alike σ n') : n'.Alike σ n := Eq.symm h

theorem trans {n'' : Node} (h : n.Alike σ n') (h' : n'.Alike σ n'') : n.Alike σ n'' :=
  Eq.trans h h'

/-- What can be seen in the outline of a node is the same in nodes that look alike. -/
theorem apply_eq {β : Type} {f : Node → β} (hf : ∀ m : Node, f (m.outline σ) = f m)
    (h : n.Alike σ n') : f n = f n' := by
  rw [← hf n, ← hf n', h]

theorem id_eq (h : n.Alike σ n') : n.id = n'.id := by
  simpa [outline, withFormatting] using congrArg Node.id h

theorem kind_eq (h : n.Alike σ n') :
    σ.kind (n.kind.map (sketch σ)) = σ.kind (n'.kind.map (sketch σ)) := by
  simpa [outline, withFormatting, kind_sketch] using congrArg Node.kind h

theorem tag_eq (h : n.Alike σ n') : n.tag = n'.tag := by
  simpa [tag] using congrArg Kind.tag h.kind_eq

theorem ident {name : String} {ty : Ty} {declaration : Option NodeId} (h : n.Alike σ n')
    (hσ : σ.spelling = true) (hn : n.kind = .ident name ty declaration) :
    n'.kind = .ident name ty declaration := by
  have htag := h.tag_eq
  have hkind := h.kind_eq
  cases hn' : n'.kind <;>
    simp_all [tag, Kind.tag, Kind.map, Sketch.kind]

theorem exists_ident {name : String} {ty : Ty} {declaration : Option NodeId} (h : n.Alike σ n')
    (hn : n.kind = .ident name ty declaration) : ∃ name', n'.kind = .ident name' ty declaration := by
  have htag := h.tag_eq
  have hkind := h.kind_eq
  cases hn' : n'.kind <;>
    simp_all [tag, Kind.tag, Kind.map, Sketch.kind]

theorem namedVar {name : Node} {initializer : Option (Padded Node)} (h : n.Alike σ n')
    (hn : n.kind = .namedVar name initializer) :
    ∃ name' initializer', n'.kind = .namedVar name' initializer' ∧
      name.sketch σ = name'.sketch σ ∧
      initializer.map (Padded.map (sketch σ)) = initializer'.map (Padded.map (sketch σ)) := by
  have htag := h.tag_eq
  have hkind := h.kind_eq
  cases hn' : n'.kind <;>
    simp_all [tag, Kind.tag, Kind.map, Sketch.kind]

theorem classDecl {modifiers : List Node} {keyword : Padded ClassKind} {name body : Node}
    {typeParams : Option Node} {superclass : Option (Padded Node)} {ty : Ty} (h : n.Alike σ n')
    (hn : n.kind = .classDecl modifiers keyword name typeParams superclass body ty) :
    ∃ modifiers' name' typeParams' superclass' body',
      n'.kind = .classDecl modifiers' keyword name' typeParams' superclass' body' ty ∧
      modifiers.map (sketch σ) = modifiers'.map (sketch σ) ∧ body.sketch σ = body'.sketch σ := by
  have htag := h.tag_eq
  have hkind := h.kind_eq
  cases hn' : n'.kind <;>
    simp_all [tag, Kind.tag, Kind.map, Sketch.kind]

theorem methodDecl {modifiers : List Node} {typeParams returnType body : Option Node} {name : Node}
    {params : Padded (List Node)} (h : n.Alike σ n')
    (hn : n.kind = .methodDecl modifiers typeParams returnType name params body) :
    ∃ modifiers' typeParams' returnType' name' params' body',
      n'.kind = .methodDecl modifiers' typeParams' returnType' name' params' body' ∧
      modifiers.map (sketch σ) = modifiers'.map (sketch σ) ∧
      returnType.map (sketch σ) = returnType'.map (sketch σ) ∧
      name.sketch σ = name'.sketch σ ∧ body.map (sketch σ) = body'.map (sketch σ) := by
  have htag := h.tag_eq
  have hkind := h.kind_eq
  cases hn' : n'.kind <;>
    simp_all [tag, Kind.tag, Kind.map, Sketch.kind]

theorem block {statements : List Node} {finish : String} (h : n.Alike σ n')
    (hn : n.kind = .block statements finish) :
    ∃ statements', n'.kind = .block statements' finish ∧
      statements.map (sketch σ) = statements'.map (sketch σ) := by
  have htag := h.tag_eq
  have hkind := h.kind_eq
  cases hn' : n'.kind <;>
    simp_all [tag, Kind.tag, Kind.map, Sketch.kind]

/-- Of a declaration without its modifiers, what is no modifier stays. -/
theorem variableDecls {modifiers vars : List Node} {typeExpr : Option Node} (h : n.Alike σ n')
    (hn : n.kind = .variableDecls modifiers typeExpr vars) :
    ∃ modifiers' typeExpr' vars', n'.kind = .variableDecls modifiers' typeExpr' vars' ∧
      typeExpr.map (outline σ) = typeExpr'.map (outline σ) ∧
      vars.map (sketch σ) = vars'.map (sketch σ) ∧
      (σ.modifiers = true → modifiers.map (sketch σ) = modifiers'.map (sketch σ)) := by
  have htag := h.tag_eq
  have hkind := h.kind_eq
  cases hn' : n'.kind with
  | variableDecls modifiers' typeExpr' vars' =>
    refine ⟨modifiers', typeExpr', vars', rfl, ?_⟩
    have hbare (o : Option Node) (draw : Node → Node)
        (hdraw : ∀ m : Node, (draw (m.sketch σ)).withFormatting {} = m.outline σ) :
        ((o.map (sketch σ)).map draw).map (withFormatting · {}) = o.map (outline σ) := by
      cases o <;> simp [hdraw]
    by_cases hσ : σ.modifiers
    · simp only [hn, hn', Kind.map, Sketch.kind, hσ, if_true, Kind.variableDecls.injEq] at hkind
      obtain ⟨hmodifiers, htype, hvars⟩ := hkind
      refine ⟨?_, hvars, fun _ => hmodifiers⟩
      rw [← hbare typeExpr (fun m => m) fun _ => rfl, ← hbare typeExpr' (fun m => m) fun _ => rfl,
        htype]
    · simp only [hn, hn', Kind.map, Sketch.kind, hσ, Bool.false_eq_true, if_false,
        Kind.variableDecls.injEq] at hkind
      obtain ⟨_, htype, hvars⟩ := hkind
      refine ⟨?_, hvars, fun hshown => absurd hshown hσ⟩
      rw [← hbare typeExpr (withLead · "") fun _ => rfl,
        ← hbare typeExpr' (withLead · "") fun _ => rfl, htype]
  | _ => simp [tag, hn, hn', Kind.tag] at htag

theorem forLoop {control body : Node} (h : n.Alike σ n') (hn : n.kind = .forLoop control body) :
    ∃ control' body', n'.kind = .forLoop control' body' ∧
      control.sketch σ = control'.sketch σ ∧ body.sketch σ = body'.sketch σ := by
  have htag := h.tag_eq
  have hkind := h.kind_eq
  cases hn' : n'.kind <;>
    simp_all [tag, Kind.tag, Kind.map, Sketch.kind]

theorem forControl {init update : List Node} {condition : Node} (h : n.Alike σ n')
    (hn : n.kind = .forControl init condition update) :
    ∃ init' condition' update', n'.kind = .forControl init' condition' update' ∧
      init.map (sketch σ) = init'.map (sketch σ) ∧ condition.sketch σ = condition'.sketch σ ∧
      update.map (sketch σ) = update'.map (sketch σ) := by
  have htag := h.tag_eq
  have hkind := h.kind_eq
  cases hn' : n'.kind <;>
    simp_all [tag, Kind.tag, Kind.map, Sketch.kind]

end Alike

/-- Only a declaration of variables can be drawn without some of its children. -/
theorem children_sketch {n : Node} (h : σ.modifiers = true ∨ n.tag ≠ .variableDecls) :
    (n.sketch σ).children = n.children.map (sketch σ) := by
  rw [children, kind_sketch, children, ← Kind.children_map]
  cases hkind : n.kind with
  | variableDecls modifiers typeExpr vars =>
    have hσ : σ.modifiers = true := by simpa [tag, hkind, Kind.tag] using h
    simp [Kind.map, Sketch.kind, hσ]
  | _ => rfl

theorem Alike.map_sketch_children {n n' : Node} (h : n.Alike σ n')
    (hσ : σ.modifiers = true ∨ n.tag ≠ .variableDecls) :
    n.children.map (sketch σ) = n'.children.map (sketch σ) := by
  have hkind : (n.sketch σ).kind = (n'.sketch σ).kind := by
    rw [kind_sketch, kind_sketch, h.kind_eq]
  rw [← children_sketch hσ, ← children_sketch (h.tag_eq ▸ hσ), Node.children, Node.children, hkind]

theorem isModifier_iff {keyword : String} {n : Node} :
    n.isModifier keyword = true ↔ n.kind = .modifier keyword := by
  unfold isModifier
  cases n.kind <;> simp

theorem isModifier_sketch (keyword : String) (n : Node) :
    (n.sketch σ).isModifier keyword = n.isModifier keyword := by
  unfold isModifier
  rw [kind_sketch]
  cases n.kind with
  | variableDecls modifiers typeExpr vars =>
    cases hσ : σ.modifiers <;> simp [Kind.map, Sketch.kind, hσ]
  | _ => rfl

theorem any_isModifier_eq {l l' : List Node} (h : l.map (sketch σ) = l'.map (sketch σ))
    (keyword : String) : l.any (isModifier keyword) = l'.any (isModifier keyword) := by
  have hany (l : List Node) : l.any (isModifier keyword) =
      (l.map (sketch σ)).any (isModifier keyword) := by
    simp [List.any_map, Function.comp_def, isModifier_sketch]
  rw [hany l, hany l', h]

/-! ## Places -/

@[simp] theorem isPlace_sketch (n : Node) : (n.sketch σ).isPlace = n.isPlace := by
  simp [isPlace]

@[simp] theorem isPlace_withLead (n : Node) (text : String) :
    (n.withLead text).isPlace = n.isPlace := rfl

/-- The places of a list without the text around them, drawn with or without text before them. -/
theorem map_outline_places {draw : Node → Node}
    (hdraw : ∀ m : Node, (draw m).isPlace = m.isPlace ∧ (draw m).withFormatting {} = m.outline σ)
    (l : List Node) :
    ((l.map draw).filter isPlace).map (withFormatting · {}) =
      (l.filter isPlace).map (outline σ) := by
  induction l with
  | nil => rfl
  | cons m l ih => by_cases hm : m.isPlace <;> simp [hm, ih, hdraw m]

theorem map_outline_sketch (l : List Node) :
    ((l.map (sketch σ)).filter isPlace).map (withFormatting · {}) =
      (l.filter isPlace).map (outline σ) :=
  map_outline_places (fun m => ⟨isPlace_sketch m, rfl⟩) l

/-- What stands before the variables of a declaration: its modifiers and its type. -/
def front (n : Node) : List Node :=
  match n.kind with
  | .variableDecls modifiers typeExpr _ => modifiers ++ typeExpr.toList
  | _ => []

theorem children_eq_front_append {n : Node} {modifiers vars : List Node} {typeExpr : Option Node}
    (h : n.kind = .variableDecls modifiers typeExpr vars) : n.children = n.front ++ vars := by
  simp [front, children, h, Kind.children]

theorem of_mem_front {n m : Node} (h : m ∈ n.front) : n.tag = .variableDecls ∧ m ∈ n.children := by
  cases hkind : n.kind with
  | variableDecls modifiers typeExpr vars =>
    rw [children_eq_front_append hkind, tag, hkind]
    exact ⟨rfl, List.mem_append_left _ h⟩
  | _ => simp [front, hkind] at h

/-- The places in front of a drawn declaration are the sketches of those in front of the
    declaration. -/
theorem outline_front (n : Node) :
    ((n.sketch σ).front.filter isPlace).map (withFormatting · {}) =
      (n.front.filter isPlace).map (outline σ) := by
  have hbare (l : List Node) :
      ((l.map fun m => (m.sketch σ).withLead "").filter isPlace).map (withFormatting · {}) =
        (l.filter isPlace).map (outline σ) :=
    @map_outline_places σ (fun m => (m.sketch σ).withLead "") (fun m => ⟨by simp, rfl⟩) l
  unfold front
  rw [kind_sketch]
  cases n.kind with
  | variableDecls modifiers typeExpr vars =>
    have htoList (draw : Node → Node) : (typeExpr.map draw).toList = typeExpr.toList.map draw := by
      cases typeExpr <;> rfl
    by_cases hσ : σ.modifiers
    · simp only [Kind.map, Sketch.kind, hσ, if_true, htoList, List.filter_append, List.map_append,
        map_outline_sketch]
    · have hmodifiers : ((modifiers.map (sketch σ)).filter isPlace).map (withLead · "") =
          (modifiers.filter isPlace).map fun m => (m.sketch σ).withLead "" := by
        rw [List.filter_map, List.map_map]
        simp [Function.comp_def]
      have htype : ((typeExpr.map (sketch σ)).map (withLead · "")).toList =
          typeExpr.toList.map fun m => (m.sketch σ).withLead "" := by
        rw [Option.map_map, htoList]
        rfl
      simp only [Kind.map, Sketch.kind, hσ, Bool.false_eq_true, if_false, hmodifiers, htype,
        List.filter_append, List.map_append, hbare, List.filter_filter, Bool.and_self]
  | _ => rfl

/-- The places among the children of a sketch are the sketches of those among the children. -/
theorem outline_places (n : Node) :
    ((n.sketch σ).children.filter isPlace).map (withFormatting · {}) =
      (n.children.filter isPlace).map (outline σ) := by
  by_cases hdecl : n.tag = .variableDecls
  · cases hkind : n.kind with
    | variableDecls modifiers typeExpr vars =>
      obtain ⟨modifiers', typeExpr', hsketch⟩ : ∃ modifiers' typeExpr', (n.sketch σ).kind =
          .variableDecls modifiers' typeExpr' (vars.map (sketch σ)) := by
        rw [kind_sketch, hkind]
        by_cases hσ : σ.modifiers <;> simp [Kind.map, Sketch.kind, hσ]
      rw [children_eq_front_append hsketch, children_eq_front_append hkind, List.filter_append,
        List.map_append, outline_front, map_outline_sketch, List.filter_append, List.map_append]
    | _ => simp [tag, hkind, Kind.tag] at hdecl
  · rw [children_sketch (.inr hdecl), map_outline_sketch]

/-- Alike declarations have alike places in front. -/
theorem Alike.front {n n' : Node} (h : n.Alike σ n') :
    List.Forall₂ (Alike σ) (n.front.filter isPlace) (n'.front.filter isPlace) := by
  have hkind : (n.sketch σ).kind = (n'.sketch σ).kind := by
    rw [kind_sketch, kind_sketch, h.kind_eq]
  have hmap : (n.front.filter isPlace).map (outline σ) =
      (n'.front.filter isPlace).map (outline σ) := by
    rw [← outline_front n, ← outline_front n', Node.front, Node.front, hkind]
  rw [← List.forall₂_eq_eq_eq, List.forall₂_map_left_iff, List.forall₂_map_right_iff] at hmap
  exact hmap

/-- Alike nodes have alike places below them. -/
theorem Alike.children {n n' : Node} (h : n.Alike σ n') :
    List.Forall₂ (Alike σ) (n.children.filter isPlace) (n'.children.filter isPlace) := by
  have hkind : (n.sketch σ).kind = (n'.sketch σ).kind := by
    rw [kind_sketch, kind_sketch, h.kind_eq]
  have hmap : (n.children.filter isPlace).map (outline σ) =
      (n'.children.filter isPlace).map (outline σ) := by
    rw [← outline_places n, ← outline_places n', Node.children, Node.children, hkind]
  rw [← List.forall₂_eq_eq_eq, List.forall₂_map_left_iff, List.forall₂_map_right_iff] at hmap
  exact hmap

end Node

/-! ## Matching places -/

theorem forall₂_flatMap {α β γ δ : Type} {P : α → β → Prop} {Q : γ → δ → Prop}
    {f : α → List γ} {g : β → List δ} {l : List α} {l' : List β} (h : List.Forall₂ P l l')
    (hf : ∀ a ∈ l, ∀ b, P a b → List.Forall₂ Q (f a) (g b)) :
    List.Forall₂ Q (l.flatMap f) (l'.flatMap g) := by
  induction h with
  | nil => exact .nil
  | cons hab _ ih =>
    simp only [List.flatMap_cons]
    exact List.rel_append (hf _ (by simp) _ hab) (ih fun a ha => hf a (by simp [ha]))

namespace Cursor

/-- The places that a walk from a cursor reaches, in pre-order. Below nodes that fail `enter` it
    reaches nothing. -/
def placesWhere (enter : Node → Bool) (c : Cursor) : List Cursor :=
  (c.node.cursorsWhere enter c.ancestors c.index).filter fun d => d.node.isPlace

/-- The places at and below a cursor, in pre-order. -/
def places (c : Cursor) : List Cursor := c.below.filter fun d => d.node.isPlace

/-- Two cursors whose paths correspond to each other node by node. -/
def Matches (R : Node → Node → Prop) (c c' : Cursor) : Prop := List.Forall₂ R c.path c'.path

theorem matches_iff {R : Node → Node → Prop} {c c' : Cursor} :
    c.Matches R c' ↔ R c.node c'.node ∧ List.Forall₂ R c.ancestors c'.ancestors := by
  simp [Matches, path]

theorem placesWhere_of_not_isPlace {enter : Node → Bool} {c : Cursor}
    (h : c.node.isPlace = false) : c.placesWhere enter = [] := by
  rw [placesWhere, Node.cursorsWhere_eq, Node.children_eq_nil_of_not_isPlace h]
  simp [h]

theorem placesWhere_eq {enter : Node → Bool} {c : Cursor} (h : c.node.isPlace = true) :
    c.placesWhere enter = c ::
      if enter c.node then
        (c.children.filter fun d => d.node.isPlace).flatMap (placesWhere enter)
      else [] := by
  have hskip (l : List Cursor) : l.flatMap (placesWhere enter) =
      (l.filter fun d => d.node.isPlace).flatMap (placesWhere enter) := by
    induction l with
    | nil => rfl
    | cons d l ih =>
      by_cases hd : d.node.isPlace
      · simp [hd, ih]
      · simp [hd, ih, placesWhere_of_not_isPlace (by simpa using hd)]
  rw [← hskip, placesWhere, Node.cursorsWhere_eq, List.filter_cons_of_pos (by exact h)]
  split
  · rw [List.filter_flatMap, children, List.flatMap_map]
    rfl
  · rfl

/-- Corresponding cursors have corresponding cursors below them if their nodes have corresponding
    children. -/
theorem forall₂_children {R : Node → Node → Prop} {p : Node → Bool} {c c' : Cursor}
    (hchildren : List.Forall₂ R (c.node.children.filter p) (c'.node.children.filter p))
    (h : c.Matches R c') :
    List.Forall₂ (Matches R) (c.children.filter fun d => p d.node)
      (c'.children.filter fun d => p d.node) := by
  have hnodes (d : Cursor) : (d.children.filter fun e => p e.node).map (·.node) =
      d.node.children.filter p := by
    rw [← d.map_node_children, List.filter_map]
    rfl
  have hpaths (d e : Cursor) (he : e ∈ d.children.filter fun e => p e.node) :
      e.path = e.node :: d.path := by
    rw [path, (mem_children.mp (List.mem_filter.mp he).1).2]
  rw [← hnodes c, ← hnodes c', List.forall₂_map_left_iff, List.forall₂_map_right_iff] at hchildren
  rw [List.forall₂_iff_zip] at hchildren ⊢
  refine ⟨hchildren.1, fun {d d'} hzip => ?_⟩
  obtain ⟨hd, hd'⟩ := List.of_mem_zip hzip
  rw [Matches, hpaths c d hd, hpaths c' d' hd']
  exact .cons (hchildren.2 hzip) h

/-- Walks from corresponding cursors reach corresponding places. -/
theorem forall₂_placesWhere {R : Node → Node → Prop} {enter : Node → Bool}
    (hplace : ∀ n n', R n n' → n.isPlace = n'.isPlace)
    (henter : ∀ n n', R n n' → enter n = enter n')
    (hchildren : ∀ n n', R n n' →
      List.Forall₂ R (n.children.filter Node.isPlace) (n'.children.filter Node.isPlace))
    {c c' : Cursor} (h : c.Matches R c') :
    List.Forall₂ (Matches R) (c.placesWhere enter) (c'.placesWhere enter) := by
  induction c using induct generalizing c' with
  | step c ih =>
    have hnode := (matches_iff.mp h).1
    by_cases hc : c.node.isPlace
    · rw [placesWhere_eq hc, placesWhere_eq (hplace _ _ hnode ▸ hc), henter _ _ hnode]
      refine .cons h ?_
      split
      · refine forall₂_flatMap (forall₂_children (hchildren _ _ hnode) h) ?_
        intro d hd d' hmatch
        exact ih d (List.mem_filter.mp hd).1 hmatch
      · exact .nil
    · have hc : c.node.isPlace = false := by simpa using hc
      rw [placesWhere_of_not_isPlace hc, placesWhere_of_not_isPlace (hplace _ _ hnode ▸ hc)]
      exact .nil

end Cursor

theorem exists_left_of_forall₂ {α β : Type} {P : α → β → Prop} {l : List α} {l' : List β} {b : β}
    (h : List.Forall₂ P l l') (hb : b ∈ l') : ∃ a ∈ l, P a b := by
  induction h with
  | nil => simp at hb
  | cons hab _ ih =>
    rcases List.mem_cons.mp hb with rfl | hb
    · exact ⟨_, by simp, hab⟩
    · obtain ⟨a, ha, hP⟩ := ih hb
      exact ⟨a, by simp [ha], hP⟩

theorem exists_right_of_forall₂ {α β : Type} {P : α → β → Prop} {l : List α} {l' : List β} {a : α}
    (h : List.Forall₂ P l l') (ha : a ∈ l) : ∃ b ∈ l', P a b :=
  exists_left_of_forall₂ (List.Forall₂.flip h) ha

namespace Node

/-- The places of a tree in pre-order. -/
def places (tree : Node) : List Cursor := (Cursor.root tree).places

theorem mem_places {tree : Node} {c : Cursor} :
    c ∈ tree.places ↔ c ∈ tree.cursors ∧ c.node.isPlace = true :=
  List.mem_filter

/-- The places of two trees correspond in order if their nodes do, from the roots downwards. -/
theorem forall₂_places {R : Node → Node → Prop} (hplace : ∀ n n', R n n' → n.isPlace = n'.isPlace)
    (hchildren : ∀ n n', R n n' →
      List.Forall₂ R (n.children.filter isPlace) (n'.children.filter isPlace))
    {tree tree' : Node} (h : R tree tree') :
    List.Forall₂ (Cursor.Matches R) tree.places tree'.places := by
  have hroot : (Cursor.root tree).Matches R (.root tree') := Cursor.matches_iff.mpr ⟨h, .nil⟩
  exact @Cursor.forall₂_placesWhere R (fun _ => true) hplace (fun _ _ _ => rfl) hchildren _ _ hroot

/-- The places of alike trees correspond to each other in order. -/
theorem Alike.forall₂_places {σ : Sketch} {tree tree' : Node} (h : tree.Alike σ tree') :
    List.Forall₂ (Cursor.Matches (Alike σ)) tree.places tree'.places := by
  refine Node.forall₂_places (fun n n' hn => ?_) (fun _ _ hn => hn.children) h
  rw [isPlace, isPlace, hn.tag_eq]

/-- A property of single nodes that alike nodes share passes from tree to tree. -/
theorem Alike.forall_nodes {σ : Sketch} {P : Node → Prop} {tree tree' : Node}
    (h : tree.Alike σ tree') (hleaf : ∀ n, n.isPlace = false → P n)
    (hP : ∀ n n', n.Alike σ n' → P n → P n') (htree : ∀ n ∈ tree.nodes, P n) :
    ∀ n ∈ tree'.nodes, P n := by
  intro m hm
  obtain ⟨c', hc', rfl⟩ := List.mem_map.mp hm
  by_cases hplace : c'.node.isPlace
  · obtain ⟨c, hc, hmatch⟩ :=
      exists_left_of_forall₂ h.forall₂_places (mem_places.mpr ⟨hc', hplace⟩)
    have hnode := (Cursor.matches_iff.mp hmatch).1
    exact hP _ _ hnode (htree _ (mem_nodes_of_mem_cursors (mem_places.mp hc).1))
  · exact hleaf _ (by simpa using hplace)

/-- What is collected at the places of a tree is collected at the places that correspond to them. -/
theorem filterMap_of_forall₂ {R : Node → Node → Prop} {β : Type} {f : Cursor → Option β}
    {g : β → β} {tree tree' : Node} (hleaf : ∀ c, c.node.isPlace = false → f c = none)
    (h : List.Forall₂ (Cursor.Matches R) tree.places tree'.places)
    (hf : ∀ c ∈ tree.cursors, ∀ c', c.Matches R c' → f c' = (f c).map g) :
    tree'.cursors.filterMap f = (tree.cursors.filterMap f).map g := by
  have hplaces (n : Node) : n.cursors.filterMap f = n.places.filterMap f := by
    rw [cursors_eq, places, Cursor.places, List.filterMap_filter]
    refine List.filterMap_congr fun c _ => ?_
    split
    · rfl
    · rename_i hplace
      exact hleaf c (by simpa using hplace)
  have hmem : ∀ c ∈ tree.places, c ∈ tree.cursors := fun c hc => (mem_places.mp hc).1
  rw [hplaces, hplaces]
  generalize tree.places = here at h hmem
  generalize tree'.places = there at h
  induction h with
  | nil => rfl
  | @cons c c' _ _ hc _ ih =>
    rw [List.filterMap_cons, List.filterMap_cons, hf c (hmem c (by simp)) c' hc]
    have hrest := ih fun d hd => hmem d (by simp [hd])
    cases f c <;> simp [hrest]

theorem Alike.matches_symm {σ : Sketch} {c c' : Cursor} (h : c.Matches (Alike σ) c') :
    c'.Matches (Alike σ) c :=
  (List.Forall₂.flip h).imp fun _ _ => Alike.symm

/-! ## Sessions that keep a sketch -/

theorem sketch_rebuild (σ : Sketch) (n : Node) (kind : Kind Node) :
    (n.rebuild kind).sketch σ =
      ⟨n.id, σ.formatting kind.tag n.formatting, σ.kind (kind.map (sketch σ))⟩ := by
  rw [sketch_eq, id_rebuild, formatting_rebuild, tag_rebuild]
  rcases n.kind_rebuild kind with hk | ⟨params, repeats, repeats', hkind, hk⟩
  · rw [hk]
  · rw [hk, hkind]
    rfl

/-- New children that look like the old ones make a node that looks like the old one. -/
theorem sketch_rebuild_pairs {σ : Sketch} {n : Node} {z : Kind (Node × Node)}
    (hfst : z.map Prod.fst = n.kind) (hz : ∀ p ∈ z.children, p.2.sketch σ = p.1.sketch σ) :
    (n.rebuild (z.map Prod.snd)).sketch σ = n.sketch σ := by
  have hmap : (z.map Prod.snd).map (sketch σ) = n.kind.map (sketch σ) := by
    rw [← hfst, Kind.map_map, Kind.map_map]
    exact Kind.map_congr hz
  have htag : (z.map Prod.snd).tag = n.tag := by
    rw [tag, ← hfst, Kind.tag_map, Kind.tag_map]
  rw [sketch_rebuild, hmap, htag, ← sketch_eq]

/-- A session keeps a sketch if each of its edits does. -/
theorem sketch_edited {m : Type → Type} [Monad m] [LawfulMonad m] {S : Type} [Watchable m S]
    {edit : Cursor → Node → m Node} {σ : Sketch}
    (hedit : ∀ (c : Cursor) (rebuilt n' : Node) (s s' : S),
      rebuilt.sketch σ = c.node.sketch σ → Yields (edit c rebuilt) s n' s' →
        n'.sketch σ = rebuilt.sketch σ)
    {c : Cursor} {n' : Node} {s s' : S} (h : Yields (c.edited edit) s n' s') :
    n'.sketch σ = c.node.sketch σ := by
  refine Cursor.edit_induct_pairs (P := fun c n' => n'.sketch σ = c.node.sketch σ) ?_ h
  intro c z n' s₁ s' hfst hpairs hyields
  have hrebuilt : (c.node.rebuild (z.map Prod.snd)).sketch σ = c.node.sketch σ := by
    refine sketch_rebuild_pairs hfst fun p hp => ?_
    obtain ⟨i, hi⟩ := List.getElem?_of_mem hp
    exact hpairs (p, i) (List.mem_zipIdx_iff_getElem?.mpr hi)
  exact (hedit c _ n' s₁ s' hrebuilt hyields).trans hrebuilt

end Node

end Restyle
