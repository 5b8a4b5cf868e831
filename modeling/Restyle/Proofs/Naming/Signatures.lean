-- SUMMARY: The signatures of methods, and renamings that keep them.
import Restyle.Proofs.Naming.Collision
import Restyle.Proofs.Naming.Shadows

/-!
# Signatures of methods

Whether a method exempts its parameters depends on its name and on the name of its return type. A
renaming changes such a name only if it is the name of the renamed variable (`Node.nameOwner?`). If
no method is named by a declared variable (`Node.PlainSignatures`), renamings of declared variables
keep all signatures (`Renaming.signatures_eq_of_passes`).
-/

namespace Restyle

/-! ## Names and the variables behind them -/

namespace Node

variable {σ : Sketch} {n n' : Node} {target : NodeId} {name : String}

/-- The variable whose renaming changes the name of a node: the one that the name refers to, or the
    node itself. -/
def nameOwner? : Node → Option NodeId :=
  fold fun n kind =>
    match kind with
    | .ident _ _ declaration => declaration
    | .namedVar _ _ => some n.id
    | .methodDecl _ _ _ name _ _ => name
    | .classDecl _ _ name _ _ _ _ => name
    | .typeParameter name _ => name
    | _ => none

theorem nameOwner?_eq (n : Node) :
    n.nameOwner? =
      match n.kind with
      | .ident _ _ declaration => declaration
      | .namedVar _ _ => some n.id
      | .methodDecl _ _ _ name _ _ => name.nameOwner?
      | .classDecl _ _ name _ _ _ _ => name.nameOwner?
      | .typeParameter name _ => name.nameOwner?
      | _ => none := by
  rw [nameOwner?, fold_eq]
  cases n.kind <;> rfl

theorem nameOwner?_sketch (n : Node) : (n.sketch σ).nameOwner? = n.nameOwner? := by
  induction n using induct with
  | step n ih =>
    rw [nameOwner?_eq, nameOwner?_eq n, kind_sketch]
    cases hkind : n.kind with
    | variableDecls modifiers typeExpr vars =>
      cases hmodifiers : σ.modifiers <;> simp [Kind.map, Sketch.kind, hmodifiers]
    | namedVar _ _ => simp [Kind.map, Sketch.kind]
    | methodDecl _ _ _ name _ _ | classDecl _ _ name _ _ _ _ | typeParameter name _ =>
      exact ih name (by simp [children, hkind, Kind.children])
    | _ => rfl

theorem ty?_sketch (n : Node) : (n.sketch σ).ty? = n.ty? := by
  unfold ty?
  rw [kind_sketch]
  cases n.kind with
  | variableDecls modifiers typeExpr vars =>
    cases hσ : σ.modifiers <;> simp [Kind.map, Sketch.kind, hσ]
  | _ => rfl

theorem ty?_renamed (n : Node) : (n.renamed target name).ty? = n.ty? := by
  cases hkind : n.kind with
  | namedVar id initializer =>
    rw [renamed_namedVar hkind, ty?, ty?, hkind]
    rfl
  | ident old ty declaration =>
    rw [renamed_ident hkind, ty?, ty?, hkind]
    rfl
  | _ =>
    rw [renamed_other (by simp [tag, hkind, Kind.tag]) (by simp [tag, hkind, Kind.tag]), ty?, ty?,
      hkind]
    rfl

/-- A renaming keeps the names that are not those of its target. -/
theorem simpleName?_renamed (hplain : n.PlainNames) (h : n.nameOwner? ≠ some target) :
    (n.renamed target name).simpleName? = n.simpleName? := by
  induction n using induct with
  | step n ih =>
    have hchild (child : Node) (hmem : child ∈ n.children) (howner : child.nameOwner? ≠ some target) :
        (child.renamed target name).simpleName? = child.simpleName? :=
      ih child hmem (hplain.of_mem_children hmem) howner
    rw [nameOwner?_eq] at h
    rw [simpleName?_eq n]
    cases hkind : n.kind with
    | ident old ty declaration =>
      rw [hkind] at h
      rw [renamed_ident hkind, if_neg h, simpleName?_eq]
      rfl
    | namedVar id initializer =>
      rw [hkind] at h
      obtain ⟨spelling, ty, hid⟩ := exists_ident_of_hasPlainName (hplain n n.self_mem_nodes) hkind
      have hne : n.id ≠ target := fun heq => h (by simp [heq])
      rw [renamed_namedVar hkind, if_neg hne, simpleName?_eq]
      refine hchild id (by simp [children, hkind, Kind.children]) ?_
      simp [nameOwner?_eq, hid]
    | methodDecl _ _ _ id _ _ | classDecl _ _ id _ _ _ _ | typeParameter id _ =>
      rw [hkind] at h
      rw [renamed_other (by simp [tag, hkind, Kind.tag]) (by simp [tag, hkind, Kind.tag]),
        simpleName?_eq, hkind]
      exact hchild id (by simp [children, hkind, Kind.children]) h
    | _ =>
      rw [renamed_other (by simp [tag, hkind, Kind.tag]) (by simp [tag, hkind, Kind.tag]),
        simpleName?_eq, hkind]
      rfl

end Node

/-! ## Signatures -/

/-- What tells a setter from other methods: its name, and what it returns, by name and by type. -/
structure Signature where
  name : Option String
  returns : Option (Option String × Option Ty)

namespace Node

variable {σ : Sketch} {n n' tree tree' : Node} {target : NodeId} {name : String}

theorem exists_methodDecl (h : n.tag = .methodDecl) :
    ∃ modifiers typeParams returnType name params body,
      n.kind = .methodDecl modifiers typeParams returnType name params body := by
  cases hkind : n.kind with
  | methodDecl _ _ _ _ _ _ => exact ⟨_, _, _, _, _, _, rfl⟩
  | _ => simp [tag, hkind, Kind.tag] at h

/-- The signature of a method. -/
def signature? (n : Node) : Option Signature :=
  match n.kind with
  | .methodDecl _ _ returnType _ _ _ =>
    some ⟨n.simpleName?, returnType.map fun ty => (ty.simpleName?, ty.ty?)⟩
  | _ => none

theorem signature?_eq_none (h : n.tag ≠ .methodDecl) : n.signature? = none := by
  cases hkind : n.kind with
  | methodDecl _ _ _ _ _ _ => simp [tag, hkind, Kind.tag] at h
  | _ => simp [signature?, hkind]

theorem Alike.signature?_eq (hσ : σ.spelling = true) (h : n.Alike σ n') :
    n.signature? = n'.signature? := by
  by_cases hmethod : n.tag = .methodDecl
  · obtain ⟨modifiers, typeParams, returnType, id, params, body, hkind⟩ := exists_methodDecl hmethod
    obtain ⟨_, _, returnType', _, _, _, hkind', _, hreturn, _⟩ := h.methodDecl hkind
    have hdrawn (o : Option Node) : o.map (fun ty => (ty.simpleName?, ty.ty?)) =
        (o.map (sketch σ)).map fun ty => (ty.simpleName?, ty.ty?) := by
      cases o <;> simp [simpleName?_sketch hσ, ty?_sketch]
    simp only [signature?, hkind, hkind', h.same_name hσ, hdrawn returnType, hreturn,
      ← hdrawn returnType']
  · rw [signature?_eq_none hmethod, signature?_eq_none (h.tag_eq ▸ hmethod)]

/-- Methods with the same signature are setters of the same properties. -/
theorem isSetterOf_eq {o : HiddenFieldOptions} {classType : Ty} {property : String}
    (hn : n.tag = .methodDecl) (h : n.signature? = n'.signature?) :
    o.isSetterOf classType property n = o.isSetterOf classType property n' := by
  obtain ⟨_, _, returnType, _, _, _, hkind⟩ := exists_methodDecl hn
  cases hkind' : n'.kind with
  | methodDecl _ _ returnType' _ _ _ =>
    simp only [signature?, hkind, hkind', Option.some.injEq, Signature.mk.injEq] at h
    obtain ⟨hname, hreturns⟩ := h
    have hproperty : n.settersProperty? = n'.settersProperty? := by
      rw [settersProperty?, settersProperty?, hname]
    simp only [HiddenFieldOptions.isSetterOf, hkind, hkind', hproperty]
    cases returnType with
    | none =>
      obtain rfl : returnType' = none := by simpa using hreturns.symm
      rfl
    | some ty =>
      obtain ⟨ty', rfl, hty⟩ := Option.map_eq_some_iff.mp hreturns.symm
      obtain ⟨hspelling, hrecorded⟩ := Prod.mk.inj hty
      have hvoid : ty.saysVoid = ty'.saysVoid := by
        rw [saysVoid, saysVoid, hspelling, hrecorded]
      have hclass : ty.saysClass classType = ty'.saysClass classType := by
        rw [saysClass, saysClass, hrecorded]
      cases n'.settersProperty? with
      | none => rfl
      | some named => simp only [hvoid, hclass]
  | _ => simp [signature?, hkind, hkind'] at h

/-- Methods that look alike exempt their parameters alike. Their signatures have to be the same only
    if setters are exempt. -/
theorem Alike.exempts_eq (h : n.Alike σ n') (o : HiddenFieldOptions)
    (hsignature : o.ignoreSetter = true → n.signature? = n'.signature?) (classType : Ty)
    (member : String) :
    o.exempts classType member n = o.exempts classType member n' := by
  by_cases hmethod : n.tag = .methodDecl
  · obtain ⟨modifiers, typeParams, returnType, id, params, body, hkind⟩ := exists_methodDecl hmethod
    obtain ⟨modifiers', _, returnType', _, _, body', hkind', hmodifiers, hreturn, _, hbody⟩ :=
      h.methodDecl hkind
    have habstract : n.isAbstract = n'.isAbstract := by
      have hnone : body.isNone = body'.isNone := by simpa using congrArg Option.isNone hbody
      simp only [isAbstract, hkind, hkind', hnone, any_isModifier_eq hmodifiers]
    have hconstructor : n.isConstructor = n'.isConstructor := by
      simpa [isConstructor, hkind, hkind'] using congrArg Option.isNone hreturn
    have hsetter : (o.ignoreSetter && o.isSetterOf classType member n) =
        (o.ignoreSetter && o.isSetterOf classType member n') := by
      cases hoption : o.ignoreSetter with
      | false => rfl
      | true => rw [isSetterOf_eq hmethod (hsignature hoption)]
    rw [HiddenFieldOptions.exempts, HiddenFieldOptions.exempts, habstract, hsetter, hconstructor]
  · have hnone (m : Node) (hm : m.tag ≠ .methodDecl) : o.exempts classType member m = false := by
      cases hkind : m.kind <;>
        simp_all [tag, Kind.tag, HiddenFieldOptions.exempts, isConstructor,
          HiddenFieldOptions.isSetterOf, isAbstract]
    rw [hnone n hmethod, hnone n' (h.tag_eq ▸ hmethod)]

/-- The variables whose renaming changes the signature of a method. -/
def signatureOwners (n : Node) : List NodeId :=
  match n.kind with
  | .methodDecl _ _ returnType id _ _ =>
    id.nameOwner?.toList ++ (returnType.bind nameOwner?).toList
  | _ => []

theorem signature?_renamed (hplain : n.PlainNames) (h : target ∉ n.signatureOwners) :
    (n.renamed target name).signature? = n.signature? := by
  by_cases hmethod : n.tag = .methodDecl
  · obtain ⟨modifiers, typeParams, returnType, id, params, body, hkind⟩ := exists_methodDecl hmethod
    simp only [signatureOwners, hkind, List.mem_append, Option.mem_toList, not_or,
      Option.bind_eq_some_iff, not_exists, not_and] at h
    have hname : (n.renamed target name).simpleName? = n.simpleName? := by
      refine simpleName?_renamed hplain ?_
      rw [nameOwner?_eq, hkind]
      exact h.1
    have hreturns : (returnType.map (renamed target name)).map
        (fun ty => (ty.simpleName?, ty.ty?)) =
          returnType.map fun ty => (ty.simpleName?, ty.ty?) := by
      cases returnType with
      | none => rfl
      | some ty =>
        have hchild : ty ∈ n.children := by simp [children, hkind, Kind.children]
        have hty : (ty.renamed target name).simpleName? = ty.simpleName? :=
          simpleName?_renamed (hplain.of_mem_children hchild) (h.2 ty rfl)
        simp [hty, ty?_renamed]
    have hrenamed : (n.renamed target name).kind = n.kind.map (renamed target name) := by
      rw [renamed_other (by simp [hmethod]) (by simp [hmethod])]
      rfl
    rw [signature?, hrenamed, hkind, signature?, hkind]
    simp only [Kind.map, hname, hreturns]
  · rw [signature?_eq_none hmethod, signature?_eq_none (by rwa [tag_renamed])]

/-- The signatures of a tree, with the methods that they belong to. -/
def signatures (tree : Node) : List (NodeId × Signature) :=
  tree.cursors.filterMap fun c => c.node.signature?.map fun s => (c.node.id, s)

/-- In trees with the same signatures, a method has the signature of the method with its id. -/
theorem signature?_eq_of_id_eq (h : tree'.signatures = tree.signatures)
    (hids : tree'.DistinctIds) {c c' : Cursor} (hc : c ∈ tree.cursors) (hc' : c' ∈ tree'.cursors)
    (hid : c.node.id = c'.node.id) (hmethod : c.node.tag = .methodDecl) :
    c.node.signature? = c'.node.signature? := by
  obtain ⟨s, hs⟩ : ∃ s, c.node.signature? = some s := by
    cases hkind : c.node.kind with
    | methodDecl _ _ _ _ _ _ => exact ⟨_, by rw [signature?, hkind]⟩
    | _ => simp [tag, hkind, Kind.tag] at hmethod
  have hmem : (c.node.id, s) ∈ tree.signatures :=
    List.mem_filterMap.mpr ⟨c, hc, by rw [hs]; rfl⟩
  rw [← h] at hmem
  obtain ⟨d, hd, hsome⟩ := List.mem_filterMap.mp hmem
  obtain ⟨s', hs', heq⟩ := Option.map_eq_some_iff.mp hsome
  obtain ⟨hdid, rfl⟩ := Prod.mk.inj heq
  obtain rfl := hids.eq_of_id_eq hd hc' (hdid.trans hid)
  rw [hs, hs']

/-! ## Declared variables -/

/-- The variables of declarations. -/
def declaredIds (tree : Node) : List NodeId :=
  tree.cursors.filterMap fun c =>
    if c.node.tag == .namedVar && c.parent?.map tag == some .variableDecls then some c.node.id
    else none

theorem mem_declaredIds {id : NodeId} :
    id ∈ tree.declaredIds ↔
      ∃ v ∈ tree.cursors, v.node.tag = .namedVar ∧ v.IsDeclared ∧ v.node.id = id := by
  simp [declaredIds, Cursor.IsDeclared, and_assoc]

theorem Alike.isDeclared_iff {c c' : Cursor} (h : c.Matches (Alike σ) c') :
    c.IsDeclared ↔ c'.IsDeclared := by
  have hanc := (Cursor.matches_iff.mp h).2
  unfold Cursor.IsDeclared Cursor.parent?
  generalize c.ancestors = above at hanc
  generalize c'.ancestors = above' at hanc
  cases hanc with
  | nil => rfl
  | cons hn _ => simp [hn.tag_eq]

theorem Alike.declaredIds_eq (h : tree.Alike σ tree') : tree'.declaredIds = tree.declaredIds := by
  rw [← List.map_id' tree.declaredIds]
  refine filterMap_of_forall₂ (fun c hplace => ?_) h.forall₂_places fun c _ c' hc => ?_
  · have htag : c.node.tag = .modifier := by simpa [isPlace] using hplace
    simp [htag]
  · have hnode := (Cursor.matches_iff.mp hc).1
    have hparent : c.parent?.map tag == some .variableDecls ↔
        c'.parent?.map tag == some .variableDecls := by
      simpa [Cursor.IsDeclared] using Alike.isDeclared_iff hc
    simp only [Bool.and_eq_true, hparent, hnode.tag_eq, hnode.id_eq, Option.map_id']

/-- A tree in which no method has its name, or the name of its return type, from a declared
    variable. -/
def PlainSignatures (tree : Node) : Prop :=
  ∀ n ∈ tree.nodes, ∀ id ∈ n.signatureOwners, id ∉ tree.declaredIds

-- The instances are named because ids are finitely many, and no search should go through all of them.
instance (tree : Node) : Decidable tree.PlainSignatures :=
  have _ (n : Node) : Decidable (∀ id ∈ n.signatureOwners, id ∉ tree.declaredIds) :=
    List.decidableBAll _ n.signatureOwners
  List.decidableBAll _ tree.nodes

theorem Alike.signatureOwners_eq (h : n.Alike σ n') : n.signatureOwners = n'.signatureOwners := by
  by_cases hmethod : n.tag = .methodDecl
  · obtain ⟨modifiers, typeParams, returnType, id, params, body, hkind⟩ := exists_methodDecl hmethod
    obtain ⟨_, _, returnType', id', _, _, hkind', _, hreturn, hid, _⟩ := h.methodDecl hkind
    have hdrawn (o : Option Node) : o.bind nameOwner? = (o.map (sketch σ)).bind nameOwner? := by
      cases o <;> simp [nameOwner?_sketch]
    have howner : id.nameOwner? = id'.nameOwner? := by
      rw [← nameOwner?_sketch (σ := σ) id, hid, nameOwner?_sketch]
    simp only [signatureOwners, hkind, hkind', howner, hdrawn returnType, hreturn,
      ← hdrawn returnType']
  · have hnone (m : Node) (hm : m.tag ≠ .methodDecl) : m.signatureOwners = [] := by
      cases hkind : m.kind <;> simp_all [tag, Kind.tag, signatureOwners]
    rw [hnone n hmethod, hnone n' (h.tag_eq ▸ hmethod)]

theorem Alike.plainSignatures (h : tree.Alike σ tree') (hplain : tree.PlainSignatures) :
    tree'.PlainSignatures := by
  rw [PlainSignatures, h.declaredIds_eq]
  refine h.forall_nodes (fun m hm => ?_) (fun m m' halike hm => ?_) hplain
  · cases hkind : m.kind <;> simp_all [isPlace, tag, Kind.tag, signatureOwners]
  · rwa [← halike.signatureOwners_eq]

end Node

/-! ## Renamings of declared variables -/

namespace Renaming

variable {r : Renaming} {renamings : List Renaming} {tree tree' : Node}

/-- A renaming of a declared variable keeps all signatures. -/
theorem Steps.signatures_eq (h : r.Steps tree tree') (hplain : tree.PlainNames)
    (hsignatures : tree.PlainSignatures) (htarget : r.target ∈ tree.declaredIds) :
    tree'.signatures = tree.signatures := by
  rcases h.inversion hplain with ⟨rfl, _⟩ | ⟨_, _, _, name, _, htracks⟩
  · rfl
  · rw [← List.map_id' tree.signatures]
    refine Node.filterMap_of_forall₂ (fun c hplace => ?_) htracks.forall₂_places
      fun c hc c' hmatch => ?_
    · have hmethod : c.node.tag ≠ .methodDecl := by
        intro hmethod
        simp [Node.isPlace, hmethod] at hplace
      rw [Node.signature?_eq_none hmethod]
      rfl
    · have hnode := (Cursor.matches_iff.mp hmatch).1
      have hsame : c'.node.signature? = c.node.signature? := by
        have howners : r.target ∉ c.node.signatureOwners := fun hmem =>
          hsignatures c.node (Node.mem_nodes_of_mem_cursors hc) _ hmem htarget
        rcases hnode.2 with halike | ⟨_, _, hkind, hkind', _⟩
        · rw [← halike.signature?_eq rfl, Node.signature?_renamed hnode.1 howners]
        · simp [Node.signature?, hkind, hkind']
      rw [hsame, hnode.id_eq, Option.map_id']

theorem signatures_eq_of_passes (h : Passes Steps renamings tree tree') (hids : tree.DistinctIds)
    (hplain : tree.PlainNames) (hsignatures : tree.PlainSignatures)
    (htargets : ∀ r ∈ renamings, r.target ∈ tree.declaredIds) :
    tree'.signatures = tree.signatures := by
  induction h with
  | nil tree => rfl
  | cons hstep _ ih =>
    obtain ⟨hids', hplain'⟩ := hstep.keeps hids hplain
    have halike := Rule.Steps.alike hstep
    have hrest := ih hids' hplain' (halike.plainSignatures hsignatures) fun r hr => by
      rw [halike.declaredIds_eq]
      exact htargets r (by simp [hr])
    rw [hrest, hstep.signatures_eq hplain hsignatures (htargets _ (by simp))]

end Renaming

end Restyle
