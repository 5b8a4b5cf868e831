-- SUMMARY: Scopes as nodes of the tree, and the bindings that record them by id.
import Restyle.Naming.Scope
import Restyle.Proofs.Tree.Sketch

/-!
# Scopes of variables

What a scope is, in terms of the tree: the scope of a variable encloses a place if it stands above
it (`Cursor.Encloses`), and one scope lies within another (`Cursor.Within`) if it is the same or
stands below it. Bindings record scopes by id only; in a tree with distinct ids this says the same
(`encloses_iff_binding`).
-/

namespace Restyle

/-! ## Names -/

namespace Node

variable {n name : Node}

theorem simpleName?_eq (n : Node) :
    n.simpleName? =
      match n.kind with
      | .ident name _ _ => some name
      | .namedVar name _ => name.simpleName?
      | .methodDecl _ _ _ name _ _ => name.simpleName?
      | .classDecl _ _ name _ _ _ _ => name.simpleName?
      | .typeParameter name _ => name.simpleName?
      | _ => none := by
  rw [simpleName?, fold_eq]
  cases n.kind <;> rfl

theorem simpleName?_ident {spelling : String} {ty : Ty} {declaration : Option NodeId}
    (h : n.kind = .ident spelling ty declaration) : n.simpleName? = some spelling := by
  rw [simpleName?_eq, h]

theorem simpleName?_namedVar {initializer : Option (Padded Node)}
    (h : n.kind = .namedVar name initializer) : n.simpleName? = name.simpleName? := by
  rw [simpleName?_eq, h]

/-- Whether a node is no variable or has an identifier for a name that refers to nothing. -/
def hasPlainName (n : Node) : Bool :=
  match n.kind with
  | .namedVar name _ =>
    match name.kind with
    | .ident _ _ none => true
    | _ => false
  | _ => true

theorem exists_ident_of_hasPlainName {initializer : Option (Padded Node)}
    (h : n.hasPlainName = true) (hn : n.kind = .namedVar name initializer) :
    ∃ spelling ty, name.kind = .ident spelling ty none := by
  unfold hasPlainName at h
  rw [hn] at h
  dsimp only at h
  split at h
  · exact ⟨_, _, ‹_›⟩
  · cases h

theorem hasPlainName_of_ident {initializer : Option (Padded Node)} {spelling : String} {ty : Ty}
    (hn : n.kind = .namedVar name initializer) (hname : name.kind = .ident spelling ty none) :
    n.hasPlainName = true := by
  simp [hasPlainName, hn, hname]

/-- A tree in which the names of all variables are plain. -/
def PlainNames (tree : Node) : Prop := ∀ n ∈ tree.nodes, n.hasPlainName = true

instance (tree : Node) : Decidable tree.PlainNames :=
  inferInstanceAs (Decidable (∀ n ∈ tree.nodes, n.hasPlainName = true))

theorem PlainNames.of_mem_children {child : Node} (h : n.PlainNames)
    (hchild : child ∈ n.children) : child.PlainNames :=
  fun m hm => h m (mem_nodes_of_mem_children hchild hm)

/-- Alike trees have plain names alike. -/
theorem Alike.plainNames {σ : Sketch} {tree tree' : Node} (h : tree.Alike σ tree')
    (hplain : tree.PlainNames) : tree'.PlainNames := by
  refine h.forall_nodes (fun m hm => ?_) (fun m m' halike hm => ?_) hplain
  · cases hkind : m.kind <;> simp_all [isPlace, tag, Kind.tag, hasPlainName]
  · cases hkind : m'.kind with
    | namedVar name' initializer' =>
      obtain ⟨name, initializer, hn, hsketch, _⟩ := halike.symm.namedVar hkind
      obtain ⟨spelling, ty, hname⟩ := exists_ident_of_hasPlainName hm hn
      obtain ⟨spelling', hname'⟩ := (alike_of_sketch_eq hsketch.symm).exists_ident hname
      exact hasPlainName_of_ident hkind hname'
    | _ => simp [hasPlainName, hkind]

end Node

/-! ## Scopes -/

namespace Cursor

variable {v w c : Cursor}

/-- The scope of a variable and the nodes around it, innermost first. -/
def scopePath (v : Cursor) : List Node := v.ancestors.dropWhile fun n => !n.opensScope

/-- The scope of a variable stands above a place. Without a scope, a variable is seen everywhere. -/
def Encloses (v c : Cursor) : Prop := ∀ scope, v.scope? = some scope → scope ∈ c.ancestors

/-- The scope of a variable is that of another one or lies inside of it. -/
def Within (w v : Cursor) : Prop := ∀ scope, v.scope? = some scope → scope ∈ w.scopePath

/-- A scope within another scope belongs to a variable that the other scope encloses. -/
theorem within_iff_encloses : w.Within v ↔ v.Encloses w := by
  have hmem (scope : Node) (hopens : scope.opensScope = true) :
      scope ∈ w.scopePath ↔ scope ∈ w.ancestors := by
    rw [scopePath]
    induction w.ancestors with
    | nil => rfl
    | cons n outer ih =>
      by_cases hn : n.opensScope
      · simp [hn]
      · have hne : scope ≠ n := by
          rintro rfl
          exact hn hopens
        simp [hn, ih, hne]
  constructor
  · intro h scope hscope
    exact (hmem scope (List.find?_some hscope)).mp (h scope hscope)
  · intro h scope hscope
    exact (hmem scope (List.find?_some hscope)).mpr (h scope hscope)

end Cursor

/-! ## Bindings -/

namespace Cursor

/-- The binding of the variable at a cursor, if it has the given name. -/
def binding (c : Cursor) (name : String) : Binding :=
  { id := c.node.id, name, scope := c.scope?.map Node.id, ancestors := c.ancestors.map Node.id }

/-- A cursor at a variable of the given name. -/
def IsVariable (name : String) (c : Cursor) : Prop :=
  c.node.tag = .namedVar ∧ c.node.simpleName? = some name

end Cursor

namespace Binding

theorem ofCursor?_eq_some {c : Cursor} {b : Binding} :
    ofCursor? c = some b ↔ c.IsVariable b.name ∧ b = c.binding b.name := by
  unfold ofCursor? Cursor.IsVariable
  cases hkind : c.node.kind with
  | namedVar name initializer =>
    simp only [Node.tag, hkind, Kind.tag, true_and, Option.map_eq_some_iff]
    constructor
    · rintro ⟨spelling, hname, rfl⟩
      exact ⟨hname, rfl⟩
    · rintro ⟨hname, hb⟩
      exact ⟨b.name, hname, hb.symm⟩
  | _ => simp [Node.tag, hkind, Kind.tag]

theorem encloses_iff {b other : Binding} :
    b.encloses other = true ↔ ∀ scope, b.scope = some scope → scope ∈ other.ancestors := by
  unfold encloses
  cases b.scope <;> simp

end Binding

namespace Node

variable {tree : Node} {v c : Cursor}

theorem mem_bindings {b : Binding} :
    b ∈ tree.bindings ↔ ∃ c ∈ tree.cursors, c.IsVariable b.name ∧ b = c.binding b.name := by
  simp only [bindings, List.mem_filterMap, Binding.ofCursor?_eq_some]

theorem binding_mem_bindings {name : String} (hc : c ∈ tree.cursors) (hname : c.IsVariable name) :
    c.binding name ∈ tree.bindings :=
  mem_bindings.mpr ⟨c, hc, hname, rfl⟩

/-- In a tree with distinct ids, variables can be told by their ids. -/
theorem DistinctIds.binding_eq (h : tree.DistinctIds) {b b' : Binding} (hb : b ∈ tree.bindings)
    (hb' : b' ∈ tree.bindings) (hid : b.id = b'.id) : b = b' := by
  obtain ⟨c, hc, hname, hbinding⟩ := mem_bindings.mp hb
  obtain ⟨c', hc', hname', hbinding'⟩ := mem_bindings.mp hb'
  rw [hbinding, hbinding'] at hid
  obtain rfl := h.eq_of_id_eq hc hc' hid
  have heq : b.name = b'.name := Option.some.inj (hname.2.symm.trans hname'.2)
  rw [hbinding, hbinding', heq]

/-- In a tree with distinct ids, a node stands above a place if its id does. -/
theorem DistinctIds.mem_ancestors_iff (h : tree.DistinctIds) {a : Node} (hv : v ∈ tree.cursors)
    (ha : a ∈ v.ancestors) (hc : c ∈ tree.cursors) :
    a ∈ c.ancestors ↔ a.id ∈ c.ancestors.map Node.id := by
  constructor
  · exact List.mem_map_of_mem
  · intro hmem
    obtain ⟨a', ha', hid⟩ := List.mem_map.mp hmem
    obtain ⟨e, he, rfl, _⟩ := exists_cursor_of_mem_ancestors hv ha
    obtain ⟨e', he', rfl, _⟩ := exists_cursor_of_mem_ancestors hc ha'
    rwa [h.eq_of_id_eq he he' hid.symm]

/-- In a tree with distinct ids, scopes can be told by their ids. -/
theorem DistinctIds.encloses_iff_binding (h : tree.DistinctIds) (hv : v ∈ tree.cursors)
    (hc : c ∈ tree.cursors) (name : String) :
    v.Encloses c ↔
      ∀ scope, (v.binding name).scope = some scope → scope ∈ c.ancestors.map Node.id := by
  simp only [Cursor.Encloses, Cursor.binding, Option.map_eq_some_iff, forall_exists_index, and_imp]
  constructor
  · rintro hencl scope s hs rfl
    exact List.mem_map_of_mem (hencl s hs)
  · intro hencl s hs
    exact (h.mem_ancestors_iff hv (List.mem_of_find?_eq_some hs) hc).mpr (hencl _ s hs rfl)

end Node

/-! ## Bindings of corresponding trees -/

section Corresponding

variable {R : Node → Node → Prop} {tree tree' : Node} {c c' : Cursor}

theorem Cursor.binding_eq_of_matches (hid : ∀ n n', R n n' → n.id = n'.id)
    (htag : ∀ n n', R n n' → n.tag = n'.tag) (h : c.Matches R c') (name : String) :
    c'.binding name = c.binding name := by
  obtain ⟨hnode, hanc⟩ := matches_iff.mp h
  have hids : c'.ancestors.map Node.id = c.ancestors.map Node.id := by
    clear h
    generalize c.ancestors = above at hanc
    generalize c'.ancestors = above' at hanc
    induction hanc with
    | nil => rfl
    | cons hn _ ih => simp [ih, hid _ _ hn]
  have hscope : c'.scope?.map Node.id = c.scope?.map Node.id := by
    rw [scope?, scope?, enclosing?, enclosing?]
    clear hids h
    generalize c.ancestors = above at hanc
    generalize c'.ancestors = above' at hanc
    induction hanc with
    | nil => rfl
    | @cons n n' outer outer' hn _ ih =>
      have hopens : n'.opensScope = n.opensScope := by
        rw [Node.opensScope, Node.opensScope, htag _ _ hn]
      by_cases hscope : n.opensScope
      · simp [hopens, hscope, hid _ _ hn]
      · simp [hopens, hscope, ih]
  rw [binding, binding, hids, hscope, hid _ _ hnode]

theorem Node.bindings_of_forall₂ {f : Binding → Binding}
    (h : List.Forall₂ (Cursor.Matches R) tree.places tree'.places)
    (hf : ∀ c c', c.Matches R c' → Binding.ofCursor? c' = (Binding.ofCursor? c).map f) :
    tree'.bindings = tree.bindings.map f := by
  refine filterMap_of_forall₂ (fun c hplace => ?_) h fun c _ => hf c
  cases hc : Binding.ofCursor? c with
  | none => rfl
  | some b => simp [isPlace, (Binding.ofCursor?_eq_some.mp hc).1.1] at hplace

/-- Names are the same in all sketches that spell them out. -/
theorem Node.simpleName?_sketch {σ : Sketch} (hσ : σ.spelling = true) (n : Node) :
    (n.sketch σ).simpleName? = n.simpleName? := by
  induction n using Node.induct with
  | step n ih =>
    rw [simpleName?_eq, simpleName?_eq n, kind_sketch]
    cases hkind : n.kind with
    | variableDecls modifiers typeExpr vars =>
      cases hmodifiers : σ.modifiers <;> simp [Kind.map, Sketch.kind, hmodifiers]
    | ident spelling ty declaration => simp [Kind.map, Sketch.kind, hσ]
    | namedVar name _ | methodDecl _ _ _ name _ _ | classDecl _ _ name _ _ _ _
    | typeParameter name _ =>
      exact ih name (by simp [children, hkind, Kind.children])
    | _ => rfl

theorem Node.Alike.same_name {σ : Sketch} (hσ : σ.spelling = true) {n n' : Node}
    (h : n.Alike σ n') : n.simpleName? = n'.simpleName? := by
  refine h.apply_eq fun m => ?_
  rw [← simpleName?_sketch hσ m, outline, simpleName?_eq, simpleName?_eq (m.sketch σ)]
  rfl

/-- Trees that look alike with all names spelled out have the same bindings. -/
theorem Node.Alike.bindings_eq {σ : Sketch} (hσ : σ.spelling = true) (h : tree.Alike σ tree') :
    tree'.bindings = tree.bindings := by
  rw [← List.map_id' tree.bindings]
  refine bindings_of_forall₂ h.forall₂_places fun c c' hc => ?_
  have hnode := (Cursor.matches_iff.mp hc).1
  have hvar (name : String) : c'.IsVariable name ↔ c.IsVariable name := by
    rw [Cursor.IsVariable, Cursor.IsVariable, hnode.tag_eq, hnode.same_name hσ]
  ext b
  rw [Option.map_id', Binding.ofCursor?_eq_some, Binding.ofCursor?_eq_some, hvar,
    Cursor.binding_eq_of_matches (fun _ _ hn => hn.id_eq) (fun _ _ hn => hn.tag_eq) hc]

end Corresponding

/-! ## Inherited members in view -/

namespace Cursor

/-- A name is inherited in view if a class around the place inherits it and no class in between is
    isolated. -/
theorem mem_inheritedNames {above : List Node} {name : String} :
    name ∈ inheritedNames above ↔
      ∃ inner outer classDecl, above = inner ++ classDecl :: outer ∧
        (∀ n ∈ inner, n.isIsolated = false) ∧
        ∃ m ∈ classDecl.inheritedMembers, m.name = name := by
  induction above with
  | nil => simp [inheritedNames]
  | cons n above ih =>
    rw [inheritedNames, List.mem_append]
    constructor
    · rintro (hmem | hmem)
      · obtain ⟨m, hm, hname⟩ := List.mem_map.mp hmem
        exact ⟨[], above, n, rfl, by simp, m, hm, hname⟩
      · split at hmem
        · simp at hmem
        · rename_i hn
          obtain ⟨inner, outer, classDecl, rfl, hinner, hm⟩ := ih.mp hmem
          exact ⟨n :: inner, outer, classDecl, rfl, by simp_all, hm⟩
    · rintro ⟨inner, outer, classDecl, habove, hinner, m, hm, hname⟩
      cases inner with
      | nil =>
        obtain ⟨rfl, rfl⟩ := List.cons_eq_cons.mp habove
        exact .inl (List.mem_map.mpr ⟨m, hm, hname⟩)
      | cons first inner =>
        obtain ⟨rfl, rfl⟩ := List.cons_eq_cons.mp habove
        have hn : n.isIsolated = false := hinner n (by simp)
        rw [if_neg (by simp [hn])]
        exact .inr (ih.mpr ⟨inner, outer, classDecl, rfl,
          fun k hk => hinner k (by simp [hk]), m, hm, hname⟩)

end Cursor

namespace Node.Alike

variable {σ : Sketch} {n n' : Node}

theorem isIsolated_eq (h : n.Alike σ n') : n.isIsolated = n'.isIsolated := by
  have htag := h.tag_eq
  cases hn : n.kind with
  | classDecl modifiers keyword name typeParams superclass body ty =>
    obtain ⟨modifiers', _, _, _, _, hn', hmodifiers, _⟩ := h.classDecl hn
    simp [isIsolated, hn, hn', any_isModifier_eq hmodifiers]
  | _ =>
    rw [tag, tag, hn] at htag
    cases hn' : n'.kind <;> simp_all [Kind.tag, isIsolated]

theorem inheritedMembers_eq (h : n.Alike σ n') : n.inheritedMembers = n'.inheritedMembers := by
  have htag := h.tag_eq
  cases hn : n.kind with
  | classDecl modifiers keyword name typeParams superclass body ty =>
    obtain ⟨_, _, _, _, _, hn', _⟩ := h.classDecl hn
    simp [inheritedMembers, hn, hn']
  | _ =>
    rw [tag, tag, hn] at htag
    cases hn' : n'.kind <;> simp_all [Kind.tag, inheritedMembers]

/-- The same inherited names are in view at corresponding places. -/
theorem inheritedInView_eq {c c' : Cursor} (h : c.Matches (Alike σ) c') :
    c.inheritedInView = c'.inheritedInView := by
  have hanc := (Cursor.matches_iff.mp h).2
  rw [Cursor.inheritedInView, Cursor.inheritedInView]
  generalize c.ancestors = above at hanc
  generalize c'.ancestors = above' at hanc
  induction hanc with
  | nil => rfl
  | cons hn _ ih =>
    rw [Cursor.inheritedNames, Cursor.inheritedNames, hn.inheritedMembers_eq, hn.isIsolated_eq, ih]

end Node.Alike

end Restyle
