-- SUMMARY: Occurrences of a name that a renamed variable takes over.
import Restyle.Proofs.Naming.Collision

/-!
# Capture

A renamed variable takes over every occurrence of its new name in its scope, whatever the occurrence
meant before. The search for a free name looks at declarations, not at occurrences. So an occurrence
is safe if some other variable of the tree is in view there under that name
(`Renaming.captures_nothing_declared`), and so are the names of members that the target is in view
of. A name that is declared elsewhere can be captured: a static nested class can use a static member
that only the class around it inherits (`Renaming.captures_outer_member`).
-/

namespace Restyle

/-! ## Occurrences -/

/-- The children that name something or stand for a type. -/
def Kind.labels {α : Type} : Kind α → List α
  | classDecl _ _ name typeParams superclass _ _ =>
    name :: (typeParams.toList ++ (superclass.map Padded.elem).toList)
  | methodDecl _ typeParams returnType name _ _ =>
    name :: (typeParams.toList ++ returnType.toList)
  | variableDecls _ typeExpr _ => typeExpr.toList
  | namedVar name _ => [name]
  | typeParameters params _ => params
  | typeParameter name bounds => name :: (bounds.map Padded.elem).getD []
  | fieldAccess _ name => [name]
  | methodInvocation _ name _ => [name]
  | _ => []

namespace Cursor

/-- Whether a node stands for a value: it is neither a name that belongs to the node above it nor a
    type. -/
def isExpression (c : Cursor) : Bool :=
  !c.parent?.any fun p => (p.kind.labels.map Node.id).contains c.node.id

/-- An occurrence of a name in the scope of a variable that it does not refer to. If the variable
    gets that name, the occurrence is captured. -/
structure Captures (name : String) (v u : Cursor) : Prop where
  spelled : ∃ ty declaration, u.node.kind = .ident name ty declaration ∧
    declaration ≠ some v.node.id
  isExpression : u.isExpression = true
  encloses : v.Encloses u

end Cursor

/-! ## Nested scopes -/

namespace Node.DistinctIds

variable {tree : Node} {u v w : Cursor}

/-- Two places below one node have the same nodes above it. -/
theorem suffix_of_mem_ancestors (h : tree.DistinctIds) (hu : u ∈ tree.cursors)
    (hv : v ∈ tree.cursors) {a : Node} {inner outer : List Node}
    (hanc : u.ancestors = inner ++ a :: outer) (ha : a ∈ v.ancestors) :
    a :: outer <:+ v.ancestors := by
  obtain ⟨inner', outer', hanc'⟩ := List.append_of_mem ha
  obtain ⟨e, he, hnode, houter, _⟩ := exists_cursor_of_ancestors_eq hu hanc
  obtain ⟨e', he', hnode', houter', _⟩ := exists_cursor_of_ancestors_eq hv hanc'
  have heq : e = e' := h.eq_of_id_eq he he' (by rw [hnode, hnode'])
  have hsame : outer = outer' := by rw [← houter, ← houter', heq]
  exact ⟨inner', by rw [hanc', hsame]⟩

/-- Of two scopes around one place, one encloses the other. -/
theorem encloses_or_encloses (h : tree.DistinctIds) (hu : u ∈ tree.cursors)
    (hv : v ∈ tree.cursors) (hw : w ∈ tree.cursors) (hvu : v.Encloses u) (hwu : w.Encloses u) :
    v.Encloses w ∨ w.Encloses v := by
  cases hs : v.scope? with
  | none => exact .inl fun scope hscope => by simp [hs] at hscope
  | some s =>
    cases ht : w.scope? with
    | none => exact .inr fun scope hscope => by simp [ht] at hscope
    | some t =>
      obtain ⟨inner, outer, hanc⟩ := List.append_of_mem (hvu s hs)
      have hmem : t ∈ inner ∨ t ∈ s :: outer := by
        have htu := hwu t ht
        rwa [hanc, List.mem_append] at htu
      rcases hmem with htin | htout
      · -- The scope of `w` is the inner one.
        obtain ⟨front, back, rfl⟩ := List.append_of_mem htin
        have hanc' : u.ancestors = front ++ t :: (back ++ s :: outer) := by simpa using hanc
        have hsuffix := h.suffix_of_mem_ancestors hu hw hanc' (List.mem_of_find?_eq_some ht)
        refine .inl fun scope hscope => ?_
        obtain rfl : s = scope := Option.some.inj (hs.symm.trans hscope)
        exact hsuffix.subset (by simp)
      · have hsuffix := h.suffix_of_mem_ancestors hu hv hanc (List.mem_of_find?_eq_some hs)
        refine .inr fun scope hscope => ?_
        obtain rfl : t = scope := Option.some.inj (ht.symm.trans hscope)
        exact hsuffix.subset htout

end Node.DistinctIds

/-! ## Captured occurrences -/

namespace Renaming

variable {r : Renaming} {tree tree' : Node}

/-- The name that a variable has after it was the target is the one that was found for it. -/
theorem Steps.exists_freshName (h : r.Steps tree tree') (hplain : tree.PlainNames) {b : Binding}
    (hb : b ∈ tree'.bindings) (hid : b.id = r.target) :
    ∃ target ∈ tree.bindings, target.id = r.target ∧ r.freshName tree target = .ok b.name := by
  rcases h.inversion hplain with ⟨rfl, hnone⟩ | ⟨target, htarget, htargetId, name, hfresh, htracks⟩
  · exact absurd hid (hnone b hb)
  · rw [htracks.bindings_eq] at hb
    obtain ⟨b₀, _, rfl⟩ := List.mem_map.mp hb
    rw [Binding.id_renamed] at hid
    refine ⟨target, htarget, htargetId, ?_⟩
    rw [Binding.name_renamed, if_pos hid, hfresh]

/-- The new name of a target is that of no member to avoid and of no inherited member in view. Where
    the target captures an occurrence of the name, no other variable of that name is in view. -/
theorem captures_nothing_declared {out : RuleOutput Rule} (hids : tree.DistinctIds)
    (hplain : tree.PlainNames) (hout : r.apply tree = .ok out) {v v' : Cursor} {name : String}
    (hv : v ∈ tree.cursors) (hid : v.node.id = r.target) (hv' : v' ∈ out.tree.cursors)
    (hid' : v'.node.id = r.target) (hname : v'.IsVariable name) :
    (∀ u ∈ tree.cursors, v.Captures name u →
      ∀ w ∈ tree.cursors, w.node.id ≠ r.target → w.IsVariable name → ¬w.Encloses u) ∧
    (∀ m ∈ r.members, m.name ≠ name) ∧
    ∀ inner classDecl outer, v.ancestors = inner ++ classDecl :: outer →
      (∀ n ∈ inner, n.isIsolated = false) → ∀ m ∈ classDecl.inheritedMembers, m.name ≠ name := by
  have hstep : r.Steps tree out.tree := ⟨out, hout, rfl⟩
  obtain ⟨target, htarget, htargetId, hfresh⟩ :=
    hstep.exists_freshName hplain (Node.binding_mem_bindings hv' hname) hid'
  obtain ⟨hmembers, hinherited, hothers⟩ := freshName_eq_ok hfresh
  obtain ⟨c, hc, hold, hbinding⟩ := Node.mem_bindings.mp htarget
  obtain rfl : c = v := by
    refine hids.eq_of_id_eq hc hv ?_
    rw [hid, ← htargetId, hbinding]
    rfl
  refine ⟨?_, hmembers, ?_⟩
  · intro u hu hcaptures w hw hne hwname hwu
    have hoverlaps := hothers _ (Node.binding_mem_bindings hw hwname) (htargetId ▸ hne) rfl
    rw [hbinding] at hoverlaps
    have hencloses (a b : Cursor) (ha : a ∈ tree.cursors) (hb : b ∈ tree.cursors)
        (old new : String) (hab : a.Encloses b) : (a.binding old).encloses (b.binding new) = true :=
      Binding.encloses_iff.mpr ((hids.encloses_iff_binding ha hb old).mp hab)
    -- Both scopes are around the occurrence, so they overlap, and the name was not free.
    rcases hids.encloses_or_encloses hu hw hv hwu hcaptures.encloses with hwv | hvw
    · simp [Binding.overlaps, hencloses w c hw hv _ _ hwv] at hoverlaps
    · simp [Binding.overlaps, hencloses c w hv hw _ _ hvw] at hoverlaps
  · rintro inner classDecl outer hanc hinner m hm rfl
    rw [inheritedInView_eq hids hv hold.1 hid] at hinherited
    exact hinherited (Cursor.mem_inheritedNames.mpr
      ⟨inner, outer, classDecl, hanc, hinner, m, hm, rfl⟩)

/-! ## A member that only the outer class inherits -/

/-- `class A extends B { static class C { int n; int m() { int n; return n1; } } static class D {
    int n1; } }`, where `n1` is a static member of `B`. -/
def staticNested : Node :=
  let name (id : NodeId) (spelling : String) : Node := ⟨id, {}, .ident spelling .unknown none⟩
  let declared (id : NodeId) (spelling : String) : Node :=
    ⟨id, {}, .variableDecls [] (some (name (id + 1) "int"))
      [⟨id + 2, {}, .namedVar (name (id + 3) spelling) none⟩]⟩
  let nested (id : NodeId) (spelling : String) (members : List Node) : Node :=
    ⟨id, {}, .classDecl [⟨id + 1, {}, .modifier "static"⟩] ⟨"", .plain⟩ (name (id + 2) spelling)
      none none ⟨id + 3, {}, .block members ""⟩ .unknown⟩
  let body : Node :=
    ⟨14, {}, .block [declared 20 "n", ⟨15, {}, .returnStmt (some (name 16 "n1"))⟩] ""⟩
  let method : Node :=
    ⟨8, {}, .methodDecl [] none (some (name 17 "int")) (name 9 "m") ⟨"", []⟩ (some body)⟩
  let outer : ClassType := ⟨"A", .plain, some ⟨"B", .plain, none,
    [⟨"n1", .primitive .int, [.isProtected, .isStatic]⟩]⟩, []⟩
  ⟨0, {}, .classDecl [] ⟨"", .plain⟩ (name 1 "A") none (some ⟨" ", name 2 "B"⟩)
    ⟨3, {}, .block
      [nested 4 "C" [declared 10 "n", method], nested 30 "D" [declared 34 "n1"]] ""⟩
    (.declared outer)⟩

theorem staticNested_distinctIds : staticNested.DistinctIds := by decide

theorem staticNested_plainNames : staticNested.PlainNames := by decide

/-- The local variable of `staticNested` gets the name of the member that is returned. -/
theorem exists_apply_staticNested :
    ∃ out : RuleOutput Rule, (⟨22, []⟩ : Renaming).apply staticNested = .ok out ∧
      ∃ v' ∈ out.tree.cursors, v'.node.id = 22 ∧ v'.IsVariable "n1" := by
  obtain ⟨out, hout⟩ : ∃ out : RuleOutput Rule,
      (⟨22, []⟩ : Renaming).apply staticNested = .ok out :=
    Except.exists_ok_of_isOk (by decide +kernel)
  have hname : ((⟨22, []⟩ : Renaming).apply staticNested :
      Except RuleError (RuleOutput Rule)).toOption.map (fun out => out.tree.cursors.any fun c =>
        c.node.id == 22 && c.node.tag == .namedVar && c.node.simpleName? == some "n1") =
      some true := by
    decide +kernel
  rw [hout] at hname
  simp only [Except.toOption, Option.map_some, Option.some.injEq, List.any_eq_true,
    Bool.and_eq_true, beq_iff_eq] at hname
  obtain ⟨v', hv', ⟨hid, htag⟩, hspelled⟩ := hname
  exact ⟨out, hout, v', hv', hid, htag, hspelled⟩

theorem exists_captures_staticNested :
    ∃ v ∈ staticNested.cursors, v.node.id = 22 ∧
      ∃ u ∈ staticNested.cursors, v.Captures "n1" u := by
  let v := staticNested.cursors.get ⟨18, by decide⟩
  let u := staticNested.cursors.get ⟨21, by decide⟩
  have hv : v ∈ staticNested.cursors := List.get_mem _ _
  have hu : u ∈ staticNested.cursors := List.get_mem _ _
  have hencloses : (v.binding "n").encloses (u.binding "n1") = true := by decide
  have hscope := (staticNested_distinctIds.encloses_iff_binding hv hu "n").mpr
    (Binding.encloses_iff.mp hencloses)
  exact ⟨v, hv, rfl, u, hu, ⟨.unknown, none, rfl, by simp⟩, rfl, hscope⟩

/-- In `staticNested` the member that is returned is captured by the local variable: its class does
    not see what the class around it inherits, so its name counts as free. -/
theorem captures_outer_member :
    ¬∀ (r : Renaming) (tree : Node) (out : RuleOutput Rule), tree.DistinctIds → tree.PlainNames →
      r.apply tree = .ok out →
      ∀ v ∈ tree.cursors, v.node.id = r.target →
      ∀ v' ∈ out.tree.cursors, v'.node.id = r.target → ∀ name, v'.IsVariable name →
      ∀ u ∈ tree.cursors, ¬v.Captures name u := by
  intro h
  obtain ⟨out, hout, v', hv', hid', hname⟩ := exists_apply_staticNested
  obtain ⟨v, hv, hid, u, hu, hcaptures⟩ := exists_captures_staticNested
  exact h ⟨22, []⟩ staticNested out staticNested_distinctIds staticNested_plainNames hout v hv hid
    v' hv' hid' "n1" hname u hu hcaptures

/-- Another variable of `staticNested` is named `n1`, but what is captured is out of its scope. -/
theorem captures_nothing_declared_staticNested :
    ∃ v ∈ staticNested.cursors, ∃ u ∈ staticNested.cursors, v.node.id = 22 ∧ v.Captures "n1" u ∧
      ∃ w ∈ staticNested.cursors, w.node.id = 36 ∧ w.IsVariable "n1" ∧ ¬w.Encloses u := by
  obtain ⟨out, hout, v', hv', hid', hname⟩ := exists_apply_staticNested
  obtain ⟨v, hv, hid, u, hu, hcaptures⟩ := exists_captures_staticNested
  have hnothing := captures_nothing_declared staticNested_distinctIds staticNested_plainNames hout
    hv hid hv' hid' hname
  let w := staticNested.cursors.get ⟨28, by decide⟩
  have hw : w ∈ staticNested.cursors := List.get_mem _ _
  have hwname : w.IsVariable "n1" := ⟨rfl, rfl⟩
  exact ⟨v, hv, u, hu, hid, hcaptures, w, hw, rfl, hwname,
    hnothing.1 u hu hcaptures w hw (by decide) hwname⟩

end Renaming

end Restyle
