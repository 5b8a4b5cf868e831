-- SUMMARY: Which declarations hide a member of a class, as a condition on the declaration.
import Mathlib.Data.List.Flatten
import Restyle.Naming.Shadow
import Restyle.Proofs.Naming.Scopes

/-!
# Declarations that hide a member

A search walks the body of a class and looks at every variable of the member's name. Here the same
is said from the side of the variable: the class sees it (`Cursor.Sees`), it is watched, and the
method that it is a parameter of, if there is one, is not exempt (`HiddenFieldOptions.Exempts`).
-/

namespace Restyle

/-! ## The part of a class that sees its members -/

namespace Cursor

variable {c v : Cursor}

/-- The body of a class. -/
def body? (c : Cursor) : Option Cursor :=
  match c.node.kind with
  | .classDecl _ _ _ _ _ body _ => some ⟨body, c.path, c.node.children.length - 1⟩
  | _ => none

/-- A place in the body of a class with no isolated class on the way to it. -/
def Sees (c v : Cursor) : Prop :=
  ∃ body inner, c.body? = some body ∧ v ∈ body.below ∧ v.ancestors = inner ++ c.path ∧
    ∀ n ∈ inner, n.isIsolated = false

theorem body?_mem_children {body : Cursor} (h : c.body? = some body) : body ∈ c.children := by
  unfold body? at h
  split at h
  · rename_i hkind
    obtain rfl := Option.some.inj h
    refine mem_children.mpr ⟨?_, rfl⟩
    rw [← List.getLast?_eq_getElem?, Node.children, hkind]
    simp [Kind.children, List.getLast?_cons]
  · cases h

/-- The places below a cursor that a walk reaches if it enters some nodes only. -/
theorem mem_cursorsWhere {enter : Node → Bool} {e : Cursor} :
    v ∈ e.node.cursorsWhere enter e.ancestors e.index ↔
      v ∈ e.below ∧ ∃ inner, v.ancestors = inner ++ e.ancestors ∧ ∀ n ∈ inner, enter n = true := by
  induction e using induct with
  | step e ih =>
    have hstep : v ∈ e.node.cursorsWhere enter e.ancestors e.index ↔
        v = e ∨ enter e.node = true ∧
          ∃ f ∈ e.children, v ∈ f.node.cursorsWhere enter f.ancestors f.index := by
      rw [Node.cursorsWhere_eq, List.mem_cons]
      refine or_congr Iff.rfl ?_
      split <;> simp_all [children]
    rw [hstep, mem_below]
    constructor
    · rintro (rfl | ⟨henter, f, hf, hv⟩)
      · exact ⟨.inl rfl, [], rfl, by simp⟩
      · obtain ⟨hbelow, inner, hanc, hinner⟩ := (ih f hf).mp hv
        refine ⟨.inr ⟨f, hf, hbelow⟩, inner ++ [e.node], ?_, ?_⟩
        · rw [hanc, (mem_children.mp hf).2, path]
          simp
        · simpa [or_imp, forall_and, henter] using hinner
    · rintro ⟨rfl | ⟨f, hf, hbelow⟩, inner, hanc, hinner⟩
      · exact .inl rfl
      · obtain ⟨inner', hanc'⟩ := ancestors_suffix_of_mem_below hbelow
        rw [(mem_children.mp hf).2, path] at hanc'
        have hcancel : inner = inner' ++ [e.node] := by
          refine (List.append_left_inj e.ancestors).mp ?_
          rw [← hanc, ← hanc']
          simp
        subst hcancel
        refine .inr ⟨hinner _ (by simp), f, hf, (ih f hf).mpr ⟨hbelow, inner', ?_, ?_⟩⟩
        · rw [← hanc', (mem_children.mp hf).2, path]
        · exact fun n hn => hinner n (by simp [hn])

end Cursor

theorem ShadowSearch.mem_region {c v : Cursor} : v ∈ region c ↔ c.Sees v := by
  unfold region Cursor.Sees Cursor.body?
  cases hkind : c.node.kind with
  | classDecl modifiers keyword name typeParams superclass body ty =>
    let e : Cursor := ⟨body, c.path, c.node.children.length - 1⟩
    have hmem : v ∈ e.node.cursorsWhere (fun n => !n.isIsolated) e.ancestors e.index ↔ _ :=
      Cursor.mem_cursorsWhere
    simp only [Option.some.injEq, Bool.not_eq_true'] at hmem ⊢
    constructor
    · intro hv
      obtain ⟨hbelow, inner, hanc, hinner⟩ := hmem.mp hv
      exact ⟨e, inner, rfl, hbelow, hanc, hinner⟩
    · rintro ⟨_, inner, rfl, hbelow, hanc, hinner⟩
      exact hmem.mpr ⟨hbelow, inner, hanc, hinner⟩
  | _ => simp

namespace Cursor

variable {c d : Cursor}

theorem cursorsWhere_sublist_below (enter : Node → Bool) (e : Cursor) :
    (e.node.cursorsWhere enter e.ancestors e.index).Sublist e.below := by
  induction e using induct with
  | step e ih =>
    rw [Node.cursorsWhere_eq, below_eq]
    refine List.Sublist.cons_cons _ ?_
    split
    · rw [children, List.flatMap_map]
      refine List.Sublist.flatMap_right _ fun p hp => ih ⟨p.1, e.path, p.2⟩ ?_
      exact List.mem_map_of_mem hp
    · exact List.nil_sublist _

theorem below_sublist_of_mem_below (h : d ∈ c.below) : d.below.Sublist c.below := by
  induction c using induct with
  | step c ih =>
    rcases mem_below.mp h with rfl | ⟨e, he, hde⟩
    · exact List.Sublist.refl _
    · have hflat : e.below.Sublist (c.children.flatMap below) := by
        rw [List.flatMap_def]
        exact List.sublist_flatten_of_mem (List.mem_map_of_mem he)
      rw [below_eq c]
      exact ((ih e he hde).trans hflat).cons c

end Cursor

/-- The variables in view of a class come in the order of the tree. -/
theorem ShadowSearch.region_sublist {tree : Node} {c : Cursor} (hc : c ∈ tree.cursors) :
    (region c).Sublist tree.cursors := by
  unfold region
  split
  · rename_i body _ hkind
    have hbody : (⟨body, c.path, c.node.children.length - 1⟩ : Cursor) ∈ c.children :=
      Cursor.body?_mem_children (by simp [Cursor.body?, hkind])
    refine (Cursor.cursorsWhere_sublist_below _ ⟨body, c.path, _⟩).trans ?_
    rw [Node.cursors_eq]
    exact Cursor.below_sublist_of_mem_below (Node.mem_cursors_of_mem_children hc hbody)
  · exact List.nil_sublist _

theorem Cursor.Sees.mem_cursors {tree : Node} {c v : Cursor} (h : c.Sees v)
    (hc : c ∈ tree.cursors) : v ∈ tree.cursors := by
  obtain ⟨body, _, hbody, hv, _⟩ := h
  exact Node.mem_cursors_of_mem_below
    (Node.mem_cursors_of_mem_children hc (body?_mem_children hbody)) hv

/-! ## Exemptions -/

/-- A method whose parameters may hide a member: a constructor, a setter of that name that returns
    nothing or, if that is allowed, the class, or a method without a body or said to be abstract. -/
inductive HiddenFieldOptions.Exempts (o : HiddenFieldOptions) (classType : Ty) (member : String)
    (method : Node) : Prop
  | constructor {modifiers typeParams name params body} :
    o.ignoreConstructorParameter = true →
    method.kind = .methodDecl modifiers typeParams none name params body →
    Exempts o classType member method
  | setter {modifiers typeParams returnType name params body property} :
    o.ignoreSetter = true →
    method.kind = .methodDecl modifiers typeParams (some returnType) name params body →
    method.simpleName? = some ("set" ++ property) → property ≠ "" →
    Unicode.lowercaseText property = Unicode.lowercaseText member →
    (returnType.saysVoid = true ∨
      o.setterCanReturnItsClass = true ∧ returnType.saysClass classType = true) →
    Exempts o classType member method
  | abstract {modifiers typeParams returnType name params body} :
    o.ignoreAbstractMethods = true →
    method.kind = .methodDecl modifiers typeParams returnType name params body →
    (body = none ∨ ∃ m ∈ modifiers, m.kind = .modifier "abstract") →
    Exempts o classType member method

namespace HiddenFieldOptions

variable {o : HiddenFieldOptions} {classType : Ty} {member : String} {method : Node}

theorem settersProperty?_eq_some {property : String} :
    method.settersProperty? = some property ↔
      method.simpleName? = some ("set" ++ property) ∧ property ≠ "" := by
  have hset : ("set" ++ property).toList = 's' :: 'e' :: 't' :: property.toList := by
    rw [String.toList_append]
    rfl
  unfold Node.settersProperty?
  constructor
  · intro h
    split at h
    · rename_i rest hrest
      split at h
      · cases h
      · rename_i hne
        obtain rfl := Option.some.inj h
        obtain ⟨name, hname, hlist⟩ := Option.map_eq_some_iff.mp hrest
        have hspelling : name = "set" ++ String.ofList rest := by
          rw [← String.toList_inj, hlist, hset, String.toList_ofList]
        exact ⟨by rw [hname, hspelling], fun hnil => hne (by simpa using hnil)⟩
    · cases h
  · rintro ⟨hname, hne⟩
    rw [hname, Option.map_some, hset]
    simp [hne]

theorem exempts_iff : o.exempts classType member method = true ↔
    o.Exempts classType member method := by
  simp only [exempts, Bool.or_eq_true, Bool.and_eq_true]
  constructor
  · rintro ((⟨ho, hconstructor⟩ | ⟨ho, hsetter⟩) | ⟨ho, habstract⟩)
    · unfold Node.isConstructor at hconstructor
      split at hconstructor
      · rename_i hkind
        rw [Option.isNone_iff_eq_none] at hconstructor
        subst hconstructor
        exact .constructor ho hkind
      · cases hconstructor
    · unfold isSetterOf at hsetter
      split at hsetter
      · rename_i hkind hproperty
        obtain ⟨hname, hne⟩ := settersProperty?_eq_some.mp hproperty
        simp only [Bool.and_eq_true, beq_iff_eq, Bool.or_eq_true] at hsetter
        exact .setter ho hkind hname hne hsetter.1 hsetter.2
      · cases hsetter
    · unfold Node.isAbstract at habstract
      split at habstract
      · rename_i hkind
        refine .abstract ho hkind ?_
        simp only [Bool.or_eq_true, Option.isNone_iff_eq_none, List.any_eq_true] at habstract
        exact habstract.imp id fun ⟨m, hm, hmodifier⟩ => ⟨m, hm, Node.isModifier_iff.mp hmodifier⟩
      · cases habstract
  · rintro (⟨ho, hkind⟩ | ⟨ho, hkind, hname, hne, hlower, hreturn⟩ | ⟨ho, hkind, hbody⟩)
    · exact .inl (.inl ⟨ho, by simp [Node.isConstructor, hkind]⟩)
    · refine .inl (.inr ⟨ho, ?_⟩)
      rw [isSetterOf, hkind, settersProperty?_eq_some.mpr ⟨hname, hne⟩]
      simpa [hlower] using hreturn
    · refine .inr ⟨ho, ?_⟩
      rw [Node.isAbstract, hkind]
      rcases hbody with rfl | ⟨m, hm, hmodifier⟩
      · rfl
      · simp only [Bool.or_eq_true, List.any_eq_true]
        exact .inr ⟨m, hm, Node.isModifier_iff.mpr hmodifier⟩

end HiddenFieldOptions

/-! ## Watched declarations -/

/-- A variable whose parent is a declaration of variables. -/
def Cursor.IsDeclared (v : Cursor) : Prop := v.parent?.map Node.tag = some .variableDecls

theorem DeclarationKind.ofCursor_eq_ok {v : Cursor} {kind : DeclarationKind} :
    ofCursor v = .ok kind ↔ v.IsDeclared ∧ ofOwners v.ancestors.tail = kind := by
  unfold ofCursor Cursor.IsDeclared Cursor.parent?
  cases v.ancestors with
  | nil => simp
  | cons decl owners => cases htag : decl.tag <;> simp [htag]

/-- A declaration that the options ask to look at and do not exempt. -/
structure HiddenFieldOptions.Flags (o : HiddenFieldOptions) (classType : Ty) (member : String)
    (v : Cursor) : Prop where
  watched : ∃ kind token, DeclarationKind.ofCursor v = .ok kind ∧
    Watched.ofDeclaration? kind = some token ∧ token ∈ o.tokens
  notExempt : ∀ decl method outer, v.ancestors = decl :: method :: outer →
    method.tag = .methodDecl → ¬o.Exempts classType member method

namespace ShadowSearch

variable {s : ShadowSearch} {c v : Cursor}

theorem hides_eq_ok {hit : Bool} (h : s.hides v = .ok hit) :
    v.IsDeclared ∧ (hit = true ↔ s.options.Flags s.classType s.name v) := by
  unfold hides at h
  obtain ⟨kind, hkind, h⟩ := Except.bind_eq_ok.mp h
  obtain rfl := Except.ok.inj h
  refine ⟨(DeclarationKind.ofCursor_eq_ok.mp hkind).1, ?_⟩
  have howner : ((v.ancestors[1]?).filter fun n => n.tag == .methodDecl).any
      (s.options.exempts s.classType s.name) = true ↔
      ∃ decl method outer, v.ancestors = decl :: method :: outer ∧ method.tag = .methodDecl ∧
        s.options.Exempts s.classType s.name method := by
    match v.ancestors with
    | [] | [_] => simp
    | decl :: method :: outer =>
      by_cases htag : method.tag = .methodDecl <;>
        simp [htag, HiddenFieldOptions.exempts_iff]
  rw [Bool.and_eq_true, Bool.not_eq_true', ← Bool.not_eq_true, howner, Option.any_eq_true]
  constructor
  · rintro ⟨⟨token, htoken, hmem⟩, hexempt⟩
    refine ⟨⟨kind, token, hkind, htoken, by simpa using hmem⟩, ?_⟩
    intro decl method outer hanc htag hexempts
    exact hexempt ⟨decl, method, outer, hanc, htag, hexempts⟩
  · rintro ⟨⟨kind', token, hkind', htoken, hmem⟩, hexempt⟩
    obtain rfl := Except.ok.inj (hkind.symm.trans hkind')
    refine ⟨⟨token, htoken, by simpa using hmem⟩, ?_⟩
    rintro ⟨decl, method, outer, hanc, htag, hexempts⟩
    exact hexempt decl method outer hanc htag hexempts

theorem exists_hides (h : v.IsDeclared) : ∃ hit, s.hides v = .ok hit := by
  unfold hides
  rw [DeclarationKind.ofCursor_eq_ok.mpr ⟨h, rfl⟩]
  exact ⟨_, rfl⟩

/-! ## One search -/

/-- Whether a variable hides the member, with `false` for variables that cannot be judged. -/
def hits (s : ShadowSearch) (v : Cursor) : Bool :=
  match s.hides v with
  | .ok hit => hit
  | .error _ => false

theorem hides_eq_hits (h : v.IsDeclared) : s.hides v = .ok (s.hits v) := by
  obtain ⟨hit, hhides⟩ := exists_hides (s := s) h
  rw [hits, hhides]

theorem hits_iff : s.hits v = true ↔ s.options.Flags s.classType s.name v := by
  constructor
  · intro h
    unfold hits at h
    split at h
    · rename_i hit hhides
      exact (hides_eq_ok hhides).2.mp h
    · cases h
  · intro h
    obtain ⟨kind, _, hkind, _⟩ := h.watched
    have hdeclared := (DeclarationKind.ofCursor_eq_ok.mp hkind).1
    exact (hides_eq_ok (hides_eq_hits hdeclared)).2.mpr h

/-- A search succeeds if all namesakes in view of the class are declared, and lists those that hide
    the member in order. -/
theorem run_eq_ok (h : ∀ v ∈ region c, s.isNamesake v = true → v.IsDeclared) :
    s.run c =
      .ok (((region c).filter fun v => s.isNamesake v && s.hits v).map fun v => v.node.id) := by
  have hfilter : ((region c).filter s.isNamesake).filterM s.hides =
      .ok (((region c).filter s.isNamesake).filter s.hits) := by
    refine Except.filterM_eq_ok fun v hv => ?_
    obtain ⟨hregion, hnamesake⟩ := List.mem_filter.mp hv
    exact hides_eq_hits (h v hregion hnamesake)
  rw [run, hfilter, List.filter_filter]
  simp only [Bool.and_comm]
  rfl

theorem isDeclared_of_run {found : List NodeId} (h : s.run c = .ok found) :
    ∀ v ∈ region c, s.isNamesake v = true → v.IsDeclared := by
  intro v hv hnamesake
  obtain ⟨shadows, hfilter, _⟩ := Except.bind_eq_ok.mp h
  obtain ⟨hit, hhides⟩ :=
    Except.exists_ok_of_filterM hfilter v (List.mem_filter.mpr ⟨hv, hnamesake⟩)
  exact (hides_eq_ok hhides).1

end ShadowSearch

end Restyle
