-- SUMMARY: The tree that a renaming leaves, and its variables.
import Restyle.Proofs.Naming.Scopes
import Restyle.Proofs.Rule.Run

/-!
# Renamed trees

`Node.renamed` gives a variable and the references to it another name, as a function on trees. A
renaming session computes it (`Renaming.edited_renamed`). If the names of variables are plain, the
nodes of both trees correspond in order (`Node.Tracks`), and the bindings of the new tree are the
old ones with one name replaced (`bindings_of_tracks`).
-/

namespace Restyle

/-- The sketch that shows everything. -/
def Sketch.full : Sketch := ⟨fun _ => true, true, true⟩

namespace Node

variable {target : NodeId} {name : String}

/-- The tree with another name for a variable, at its declaration and at all references to it. -/
def renamed (target : NodeId) (name : String) : Node → Node :=
  fold fun n kind =>
    match kind with
    | .namedVar id initializer =>
      n.withKind (.namedVar (if n.id = target then id.respell name else id) initializer)
    | .ident old ty declaration =>
      n.withKind (.ident (if declaration = some target then name else old) ty declaration)
    | kind => n.withKind kind

theorem renamed_namedVar {n id : Node} {initializer : Option (Padded Node)}
    (h : n.kind = .namedVar id initializer) :
    n.renamed target name =
      n.withKind (.namedVar
        (if n.id = target then (id.renamed target name).respell name else id.renamed target name)
        (initializer.map (Padded.map (renamed target name)))) := by
  rw [renamed, fold_eq, h]
  rfl

theorem renamed_ident {n : Node} {old : String} {ty : Ty} {declaration : Option NodeId}
    (h : n.kind = .ident old ty declaration) :
    n.renamed target name =
      n.withKind (.ident (if declaration = some target then name else old) ty declaration) := by
  rw [renamed, fold_eq, h]
  rfl

theorem renamed_other {n : Node} (hvar : n.tag ≠ .namedVar) (hident : n.tag ≠ .ident) :
    n.renamed target name = n.withKind (n.kind.map (renamed target name)) := by
  rw [renamed, fold_eq]
  cases hkind : n.kind with
  | namedVar _ _ => simp [tag, hkind, Kind.tag] at hvar
  | ident _ _ _ => simp [tag, hkind, Kind.tag] at hident
  | _ => rfl

theorem respell_of_tag_ne {n : Node} (h : n.tag ≠ .ident) : n.respell name = n := by
  cases hkind : n.kind with
  | ident _ _ _ => simp [tag, hkind, Kind.tag] at h
  | _ => simp [respell, hkind]

theorem sketch_respell_of_spelling {σ : Sketch} (hσ : σ.spelling = true) (n : Node) :
    (n.respell name).sketch σ = (n.sketch σ).respell name := by
  cases hkind : n.kind with
  | ident old ty declaration =>
    simp [respell, sketch_eq, hkind, withKind, Kind.map, Sketch.kind, hσ, tag, Kind.tag]
  | _ =>
    have htag : n.tag ≠ .ident := by simp [tag, hkind, Kind.tag]
    rw [respell_of_tag_ne htag, respell_of_tag_ne (by rwa [tag_sketch])]

end Node

namespace Renaming

section Edit

variable {τ ε : Type} {target : NodeId} {name : String} {c : Cursor} {n' : Node}
variable {z : Kind (Node × Node)} {s s' : Session τ}

/-- The children of a node were renamed, up to what is known of repeated nodes. -/
def ChildrenRenamed (target : NodeId) (name : String) (n : Node) (z : Kind (Node × Node)) : Prop :=
  z.map Prod.fst = n.kind ∧ (z.map Prod.snd).map (Node.sketch .full) =
    (n.kind.map (Node.renamed target name)).map (Node.sketch .full)

theorem childrenRenamed_of_pairs (hfst : z.map Prod.fst = c.node.kind)
    (hpairs : ∀ p ∈ z.children, p.2.sketch .full = (p.1.renamed target name).sketch .full) :
    ChildrenRenamed target name c.node z := by
  refine ⟨hfst, ?_⟩
  rw [← hfst, Kind.map_map, Kind.map_map, Kind.map_map]
  exact Kind.map_congr hpairs

theorem sketch_of_edit_namedVar {id : Node} {initializer : Option (Padded Node)}
    (hkind : c.node.kind = .namedVar id initializer) (h : ChildrenRenamed target name c.node z)
    (hrun : Yields (edit target name c (c.node.rebuild (z.map Prod.snd)) : Edit τ ε Node) s n' s') :
    n'.sketch .full = (c.node.renamed target name).sketch .full := by
  obtain ⟨hfst, hmap⟩ := h
  obtain ⟨id', initializer', hz⟩ : ∃ id' initializer', z.map Prod.snd =
      .namedVar id' initializer' := by
    cases z <;> simp_all [Kind.map]
  have hbuilt : c.node.rebuild (z.map Prod.snd) =
      c.node.withKind (.namedVar id' initializer') := by
    simp [hz, Node.rebuild, hkind]
  rw [hz, hkind] at hmap
  obtain ⟨hid, hinit⟩ : id'.sketch .full = (id.renamed target name).sketch .full ∧
      initializer'.map (Padded.map (Node.sketch .full)) =
        (initializer.map (Padded.map (Node.renamed target name))).map
          (Padded.map (Node.sketch .full)) := by
    simpa only [Kind.map, Kind.namedVar.injEq] using hmap
  simp only [edit, hkind, hbuilt] at hrun
  rw [Node.renamed_namedVar hkind]
  split at hrun
  · rename_i htarget
    obtain ⟨rfl, _⟩ := Edit.yields_replace.mp hrun
    rw [if_pos (by simpa using htarget), Node.sketch_eq, Node.sketch_eq]
    simp only [Node.respellVariable, Node.withKind, Kind.map, Sketch.kind, hinit, Node.tag,
      Node.sketch_respell_of_spelling (show Sketch.full.spelling = true from rfl), hid]
    rfl
  · rename_i htarget
    obtain ⟨rfl, _⟩ := yields_pure.mp hrun
    rw [if_neg (by simpa using htarget), Node.sketch_eq, Node.sketch_eq]
    simp only [Node.withKind, Kind.map, Sketch.kind, hinit, Node.tag, hid]
    rfl

theorem sketch_of_edit_ident {old : String} {ty : Ty} {declaration : Option NodeId}
    (hkind : c.node.kind = .ident old ty declaration) (h : ChildrenRenamed target name c.node z)
    (hrun : Yields (edit target name c (c.node.rebuild (z.map Prod.snd)) : Edit τ ε Node) s n' s') :
    n'.sketch .full = (c.node.renamed target name).sketch .full := by
  have hz : z.map Prod.snd = .ident old ty declaration := by
    have hfst := h.1
    cases z <;> simp_all [Kind.map]
  have hbuilt : c.node.rebuild (z.map Prod.snd) = c.node := by
    rw [hz, ← hkind, Node.rebuild_self]
  simp only [edit, hkind, hbuilt] at hrun
  rw [Node.renamed_ident hkind]
  split at hrun
  · rename_i htarget
    obtain ⟨rfl, _⟩ := Edit.yields_replace.mp hrun
    have hrefers : declaration = some target := by simp_all
    simp [Node.respell, hkind, hrefers]
  · rename_i htarget
    obtain ⟨rfl, _⟩ := yields_pure.mp hrun
    -- A reference that has the new name already is left alone.
    have hsame : (if declaration = some target then name else old) = old := by
      split <;> simp_all
    rw [hsame, ← hkind, Node.withKind_self]

theorem sketch_of_edit_other (hvar : c.node.tag ≠ .namedVar) (hident : c.node.tag ≠ .ident)
    (h : ChildrenRenamed target name c.node z)
    (hrun : Yields (edit target name c (c.node.rebuild (z.map Prod.snd)) : Edit τ ε Node) s n' s') :
    n'.sketch .full = (c.node.renamed target name).sketch .full := by
  obtain ⟨hfst, hmap⟩ := h
  have hedit : edit target name c (c.node.rebuild (z.map Prod.snd)) =
      (pure (c.node.rebuild (z.map Prod.snd)) : Edit τ ε Node) := by
    unfold edit
    split
    · simp_all [Node.tag, Kind.tag]
    · simp_all [Node.tag, Kind.tag]
    · rfl
  rw [hedit] at hrun
  obtain ⟨rfl, _⟩ := yields_pure.mp hrun
  have htag : (z.map Prod.snd).tag = c.node.tag := by
    rw [Node.tag, ← hfst, Kind.tag_map, Kind.tag_map]
  rw [Node.sketch_rebuild, hmap, htag, Node.renamed_other hvar hident, Node.sketch_eq]
  simp [Node.withKind, Node.tag]

/-- A renaming session computes the renamed tree, up to what is known of repeated nodes. -/
theorem edited_renamed
    (h : Yields (c.edited (edit target name : _ → _ → Edit τ ε Node)) s n' s') :
    n'.sketch .full = (c.node.renamed target name).sketch .full := by
  refine Cursor.edit_induct_pairs
    (P := fun c n' => n'.sketch .full = (c.node.renamed target name).sketch .full) ?_ h
  intro c z n' s₁ s' hfst hpairs hrun
  have hchildren : ChildrenRenamed target name c.node z := by
    refine childrenRenamed_of_pairs hfst fun p hp => ?_
    obtain ⟨i, hi⟩ := List.getElem?_of_mem hp
    exact hpairs (p, i) (List.mem_zipIdx_iff_getElem?.mpr hi)
  cases hkind : c.node.kind with
  | namedVar _ _ => exact sketch_of_edit_namedVar hkind hchildren hrun
  | ident _ _ _ => exact sketch_of_edit_ident hkind hchildren hrun
  | _ =>
    refine sketch_of_edit_other ?_ ?_ hchildren hrun <;> simp [Node.tag, hkind, Kind.tag]

end Edit

end Renaming

/-! ## Corresponding nodes -/

namespace Node

variable {target : NodeId} {name : String} {n n' : Node}

/-- A node of a tree and the node that a renaming has made of it. The second case is the name of
    the renamed variable, which is spelled anew with the variable. -/
def Tracks (target : NodeId) (name : String) (n n' : Node) : Prop :=
  n.PlainNames ∧
    ((n.renamed target name).Alike .full n' ∨
      ∃ old ty, n.kind = .ident old ty none ∧ n'.kind = .ident name ty none ∧ n.id = n'.id)

theorem id_renamed (n : Node) : (n.renamed target name).id = n.id := by
  rw [renamed, fold_eq]
  split <;> rfl

theorem tag_renamed (n : Node) : (n.renamed target name).tag = n.tag := by
  cases hkind : n.kind with
  | namedVar id initializer =>
    rw [renamed_namedVar hkind, tag, tag, hkind]
    rfl
  | ident old ty declaration =>
    rw [renamed_ident hkind, tag, tag, hkind]
    rfl
  | _ =>
    rw [renamed_other (by simp [tag, hkind, Kind.tag]) (by simp [tag, hkind, Kind.tag]), tag, tag]
    simp [withKind]

theorem isPlace_renamed (n : Node) : (n.renamed target name).isPlace = n.isPlace := by
  rw [isPlace, isPlace, tag_renamed]

theorem children_renamed (h : ¬(n.tag = .namedVar ∧ n.id = target)) :
    (n.renamed target name).children = n.children.map (renamed target name) := by
  cases hkind : n.kind with
  | namedVar id initializer =>
    have hid : n.id ≠ target := fun hid => h ⟨by rw [tag, hkind]; rfl, hid⟩
    rw [renamed_namedVar hkind, if_neg hid, children, children, hkind, ← Kind.children_map]
    rfl
  | ident old ty declaration =>
    rw [renamed_ident hkind, children, children, hkind]
    rfl
  | _ =>
    rw [renamed_other (by simp [tag, hkind, Kind.tag]) (by simp [tag, hkind, Kind.tag]), children,
      children, ← Kind.children_map]
    rfl

namespace Tracks

theorem id_eq (h : n.Tracks target name n') : n.id = n'.id := by
  rcases h.2 with halike | ⟨_, _, _, _, hid⟩
  · rw [← halike.id_eq, id_renamed]
  · exact hid

theorem tag_eq (h : n.Tracks target name n') : n.tag = n'.tag := by
  rcases h.2 with halike | ⟨_, _, hn, hn', _⟩
  · rw [← halike.tag_eq, tag_renamed]
  · rw [tag, tag, hn, hn']
    rfl

theorem isPlace_eq (h : n.Tracks target name n') : n.isPlace = n'.isPlace := by
  rw [isPlace, isPlace, h.tag_eq]

/-- The name of the variable that is renamed. -/
theorem of_respelled {old : String} {ty : Ty} (hplain : n.PlainNames)
    (hn : n.kind = .ident old ty none)
    (h : ((n.renamed target name).respell name).Alike .full n') : n.Tracks target name n' := by
  have hrenamed : (n.renamed target name).kind = .ident old ty none := by
    rw [renamed_ident hn]
    rfl
  have hkind : n'.kind = .ident name ty none := by
    refine h.ident rfl ?_
    rw [respell, hrenamed]
    rfl
  have hid : n.id = n'.id := by
    rw [← h.id_eq, respell, hrenamed]
    exact (id_renamed n).symm
  exact ⟨hplain, .inr ⟨old, ty, hn, hkind, hid⟩⟩

theorem children (h : n.Tracks target name n') :
    List.Forall₂ (Tracks target name) (n.children.filter isPlace) (n'.children.filter isPlace) := by
  have hlift (l l' : List Node) (hl : ∀ m ∈ l, m ∈ n.children)
      (hlist : List.Forall₂ (Alike .full) ((l.map (renamed target name)).filter isPlace) l') :
      List.Forall₂ (Tracks target name) (l.filter isPlace) l' := by
    have hfilter : (l.map (renamed target name)).filter isPlace =
        (l.filter isPlace).map (renamed target name) := by
      rw [List.filter_map]
      congr 1
      exact List.filter_congr fun m _ => isPlace_renamed m
    rw [hfilter, List.forall₂_map_left_iff] at hlist
    have hplain : ∀ m ∈ l.filter isPlace, m.PlainNames :=
      fun m hm => h.1.of_mem_children (hl m (List.mem_filter.mp hm).1)
    exact (List.forall₂_and_left _ _).mpr ⟨hplain, hlist.imp fun _ _ => .inl⟩
  rcases h.2 with halike | ⟨_, _, hn, hn', _⟩
  · have hlist := halike.children
    by_cases htarget : n.tag = .namedVar ∧ n.id = target
    · cases hn : n.kind with
      | namedVar id initializer =>
        obtain ⟨old, ty, hid⟩ := exists_ident_of_hasPlainName (h.1 n n.self_mem_nodes) hn
        let rest := (initializer.map Padded.elem).toList
        have hchildren : n.children = id :: rest := by rw [Node.children, hn]; rfl
        have hrenamed : (n.renamed target name).children =
            (id.renamed target name).respell name :: rest.map (renamed target name) := by
          rw [renamed_namedVar hn, if_pos htarget.2]
          cases initializer <;> rfl
        have hplace : id.isPlace = true ∧
            ((id.renamed target name).respell name).isPlace = true := by
          rw [renamed_ident hid]
          simp [isPlace, tag, hid, Kind.tag, respell, withKind]
        rw [hrenamed, List.filter_cons_of_pos hplace.2] at hlist
        obtain ⟨id', rest', hname, hrest, heq⟩ := List.forall₂_cons_left_iff.mp hlist
        rw [heq, hchildren, List.filter_cons_of_pos hplace.1]
        refine .cons (of_respelled (h.1.of_mem_children ?_) hid hname) (hlift rest rest' ?_ hrest)
        · simp [hchildren]
        · simp +contextual [hchildren]
      | _ => simp [tag, hn, Kind.tag] at htarget
    · rw [children_renamed htarget] at hlist
      exact hlift _ _ (fun _ hm => hm) hlist
  · rw [Node.children, Node.children, hn, hn']
    exact .nil

/-- The new name of a variable is as plain as the old one. -/
theorem namedVar {id : Node} {initializer : Option (Padded Node)} {old : String} {ty : Ty}
    (h : n.Tracks target name n') (hn : n.kind = .namedVar id initializer)
    (hid : id.kind = .ident old ty none) :
    ∃ id' initializer', n'.kind = .namedVar id' initializer' ∧
      id'.kind = .ident (if n.id = target then name else old) ty none := by
  have halike : (n.renamed target name).Alike .full n' := by
    rcases h.2 with halike | ⟨_, _, hident, _⟩
    · exact halike
    · simp [hn] at hident
  have hrenamed : (id.renamed target name).kind = .ident old ty none := by
    rw [renamed_ident hid]
    rfl
  obtain ⟨id', initializer', hn', hsketch, _⟩ :=
    halike.namedVar (by rw [renamed_namedVar hn]; rfl)
  refine ⟨id', initializer', hn', (alike_of_sketch_eq hsketch).ident rfl ?_⟩
  split
  · rw [respell, hrenamed]
    rfl
  · exact hrenamed

/-- A reference follows the variable that it refers to. -/
theorem ident {old : String} {ty : Ty} {declaration : NodeId} (h : n.Tracks target name n')
    (hn : n.kind = .ident old ty (some declaration)) :
    n'.kind = .ident (if declaration = target then name else old) ty (some declaration) := by
  rcases h.2 with halike | ⟨_, _, hident, _⟩
  · refine halike.ident rfl ?_
    rw [renamed_ident hn]
    simp [withKind]
  · simp [hn] at hident

theorem forall₂_places {tree tree' : Node} (h : tree.Tracks target name tree') :
    List.Forall₂ (Cursor.Matches (Tracks target name)) tree.places tree'.places :=
  Node.forall₂_places (fun _ _ hn => hn.isPlace_eq) (fun _ _ hn => hn.children) h

end Tracks

end Node

/-! ## Bindings -/

/-- The binding after a renaming. -/
def Binding.renamed (target : NodeId) (name : String) (b : Binding) : Binding :=
  if b.id = target then { b with name } else b

namespace Binding

variable {target : NodeId} {name : String}

@[simp] theorem id_renamed (b : Binding) : (b.renamed target name).id = b.id := by
  unfold renamed
  split <;> rfl

@[simp] theorem scope_renamed (b : Binding) : (b.renamed target name).scope = b.scope := by
  unfold renamed
  split <;> rfl

@[simp] theorem ancestors_renamed (b : Binding) :
    (b.renamed target name).ancestors = b.ancestors := by
  unfold renamed
  split <;> rfl

theorem name_renamed (b : Binding) :
    (b.renamed target name).name = if b.id = target then name else b.name := by
  unfold renamed
  split <;> rfl

end Binding

namespace Node

variable {target : NodeId} {name : String} {tree tree' : Node}

theorem Tracks.ofCursor?_eq {c c' : Cursor} (h : c.Matches (Tracks target name) c') :
    Binding.ofCursor? c' = (Binding.ofCursor? c).map (Binding.renamed target name) := by
  have hnode := (Cursor.matches_iff.mp h).1
  have hbinding (spelling : String) : c'.binding spelling = c.binding spelling :=
    Cursor.binding_eq_of_matches (fun _ _ hn => hn.id_eq) (fun _ _ hn => hn.tag_eq) h spelling
  cases hn : c.node.kind with
  | namedVar id initializer =>
    obtain ⟨old, ty, hid⟩ := exists_ident_of_hasPlainName (hnode.1 _ (self_mem_nodes _)) hn
    obtain ⟨id', initializer', hn', hid'⟩ := hnode.namedVar hn hid
    have hold : Binding.ofCursor? c = some (c.binding old) :=
      Binding.ofCursor?_eq_some.mpr
        ⟨⟨by simp [tag, hn, Kind.tag], by rw [simpleName?_namedVar hn, simpleName?_ident hid]; rfl⟩,
          rfl⟩
    rw [hold, Option.map_some, Binding.ofCursor?_eq_some, ← hbinding]
    refine ⟨⟨by simp [tag, hn', Kind.tag], ?_⟩, ?_⟩
    · rw [simpleName?_namedVar hn', simpleName?_ident hid', Binding.name_renamed, hnode.id_eq]
      rfl
    · rw [Binding.name_renamed, Binding.renamed]
      split <;> rfl
  | _ =>
    have hnone (d : Cursor) (hd : d.node.tag ≠ .namedVar) : Binding.ofCursor? d = none := by
      cases hofCursor : Binding.ofCursor? d with
      | none => rfl
      | some b => exact absurd (Binding.ofCursor?_eq_some.mp hofCursor).1.1 hd
    have htag : c.node.tag ≠ .namedVar := by simp [tag, hn, Kind.tag]
    rw [hnone c htag, hnone c' (hnode.tag_eq ▸ htag)]
    rfl

/-- The bindings of the new tree are the old ones with one name replaced. -/
theorem Tracks.bindings_eq (h : tree.Tracks target name tree') :
    tree'.bindings = tree.bindings.map (Binding.renamed target name) :=
  bindings_of_forall₂ h.forall₂_places fun _ _ => Tracks.ofCursor?_eq

end Node

/-! ## Free names -/

theorem Name.findFree_eq_some {taken : String → Bool} {name found : String} {attempts : Nat}
    (h : findFree taken name attempts = some found) : taken found = false := by
  induction attempts generalizing name with
  | zero => cases h
  | succ attempts ih =>
    unfold findFree at h
    split at h
    · exact ih h
    · rename_i hfree
      obtain rfl := Option.some.inj h
      simpa using hfree

namespace Renaming

variable {r : Renaming} {tree tree' : Node} {target : Binding} {name : String}

/-- The new name is that of no member to avoid, of no inherited member in view, and of no other
    variable that can be seen in one place with the target. -/
theorem freshName_eq_ok (h : r.freshName tree target = .ok name) :
    (∀ m ∈ r.members, m.name ≠ name) ∧ name ∉ r.inheritedInView tree ∧
      ∀ other ∈ tree.bindings, other.id ≠ target.id → other.name = name →
        other.overlaps target = false := by
  unfold freshName at h
  split at h
  · rename_i found hfound
    obtain rfl := Except.ok.inj h
    have hfree := Name.findFree_eq_some hfound
    simp only [collides, Bool.or_eq_false_iff, List.any_eq_false, beq_iff_eq,
      List.contains_eq_mem, decide_eq_false_iff_not, Bool.and_eq_true, bne_iff_ne, ne_eq,
      not_and, Bool.not_eq_true, and_assoc] at hfree
    obtain ⟨hmembers, hinherited, hothers⟩ := hfree
    exact ⟨hmembers, hinherited, hothers⟩
  · cases h

/-- A renaming leaves a tree without its target as it is. Otherwise the target gets a free name. -/
theorem Steps.inversion (h : r.Steps tree tree') (hplain : tree.PlainNames) :
    (tree' = tree ∧ ∀ b ∈ tree.bindings, b.id ≠ r.target) ∨
      ∃ target ∈ tree.bindings, target.id = r.target ∧
        ∃ name, r.freshName tree target = .ok name ∧ tree.Tracks r.target name tree' := by
  obtain ⟨out, hout, rfl⟩ := h
  rcases apply_cases hout with ⟨hnone, rfl⟩ | ⟨target, name, hsome, hfresh, _, s, hrun, _⟩
  · refine .inl ⟨rfl, fun b hb hid => ?_⟩
    simpa [hid] using List.find?_eq_none.mp hnone b hb
  · refine .inr ⟨target, List.mem_of_find?_eq_some hsome, ?_, name, hfresh, hplain, .inl ?_⟩
    · simpa using List.find?_some hsome
    · exact Node.alike_of_sketch_eq (edited_renamed hrun).symm

end Renaming

/-! ## A tree with a hidden field -/

/-- `class A { int x; m() { int x; return x; } }`, where the last name refers to the local
    variable. -/
def hidingLocal : Node :=
  let name (id : NodeId) (spelling : String) (declaration : Option NodeId) : Node :=
    ⟨id, {}, .ident spelling .unknown declaration⟩
  let declared (id : NodeId) (spelling : String) : Node :=
    ⟨id, {}, .variableDecls [] (some (name (id + 1) "int" none))
      [⟨id + 2, {}, .namedVar (name (id + 3) spelling none) none⟩]⟩
  let body : Node :=
    ⟨5, {}, .block [declared 20 "x", ⟨6, {}, .returnStmt (some (name 7 "x" (some 22)))⟩] ""⟩
  let method : Node := ⟨3, {}, .methodDecl [] none none (name 4 "m" none) ⟨"", []⟩ (some body)⟩
  ⟨0, {}, .classDecl [] ⟨"", .plain⟩ (name 1 "A" none) none none
    ⟨2, {}, .block [declared 10 "x", method] ""⟩ .unknown⟩

theorem hidingLocal_distinctIds : hidingLocal.DistinctIds := by decide

theorem hidingLocal_plainNames : hidingLocal.PlainNames := by decide

theorem exists_run_hidingLocal :
    ∃ outcome, Pipeline.run [Rule.hiddenField ⟨.default, none⟩] hidingLocal = .ok outcome :=
  Except.exists_ok_of_isOk (by decide)

end Restyle
