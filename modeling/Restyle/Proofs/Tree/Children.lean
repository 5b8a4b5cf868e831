-- SUMMARY: Laws of kinds as containers of their children: `map`, `children` and `traverse`.
import Restyle.Proofs.Tree.Runs

/-!
# Children

A kind is a container: `children` lists what it holds, `map` replaces it, and a run of `traverse`
goes through it in order. A successful run is described by one kind of pairs, old child and new
child, so that both kinds are images of it (`yields_traverse`).
-/

namespace Restyle

namespace Padded

variable {α β γ : Type}

theorem map_map (f : α → β) (g : β → γ) (p : Padded α) : (p.map f).map g = p.map (g ∘ f) := rfl

@[simp] theorem map_id : (map id : Padded α → Padded α) = id := rfl

@[simp] theorem before_map (f : α → β) (p : Padded α) : (p.map f).before = p.before := rfl

@[simp] theorem elem_map (f : α → β) (p : Padded α) : (p.map f).elem = f p.elem := rfl

end Padded

namespace Kind

variable {α β γ : Type}

@[simp] theorem tag_map (f : α → β) (k : Kind α) : (k.map f).tag = k.tag := by
  cases k <;> rfl

@[simp] theorem children_map (f : α → β) (k : Kind α) :
    (k.map f).children = k.children.map f := by
  cases k with
  | classDecl modifiers keyword name typeParams superclass body ty =>
    cases typeParams <;> cases superclass <;> simp [map, children]
  | methodDecl modifiers typeParams returnType name params body =>
    cases typeParams <;> cases returnType <;> cases body <;> simp [map, children]
  | variableDecls modifiers typeExpr vars => cases typeExpr <;> simp [map, children]
  | namedVar name initializer => cases initializer <;> simp [map, children]
  | typeParameter name bounds => cases bounds <;> simp [map, children]
  | methodInvocation select name args => cases select <;> simp [map, children]
  | returnStmt expression => cases expression <;> simp [map, children]
  | _ => simp [map, children]

theorem map_map (f : α → β) (g : β → γ) (k : Kind α) : (k.map f).map g = k.map (g ∘ f) := by
  cases k <;> simp [map, Padded.map, Function.comp_def] <;> rfl

theorem map_congr {f g : α → β} {k : Kind α} (h : ∀ a ∈ k.children, f a = g a) :
    k.map f = k.map g := by
  cases k with
  | classDecl modifiers keyword name typeParams superclass body ty =>
    cases typeParams <;> cases superclass <;> simp_all [map, children, Padded.map]
  | methodDecl modifiers typeParams returnType name params body =>
    cases typeParams <;> cases returnType <;> cases body <;>
      simp_all [map, children, Padded.map]
  | variableDecls modifiers typeExpr vars =>
    cases typeExpr <;> simp_all [map, children]
  | namedVar name initializer => cases initializer <;> simp_all [map, children, Padded.map]
  | typeParameter name bounds => cases bounds <;> simp_all [map, children, Padded.map]
  | methodInvocation select name args =>
    cases select <;> simp_all [map, children, Padded.map]
  | returnStmt expression => cases expression <;> simp_all [map, children]
  | _ => simp_all [map, children, Padded.map]

theorem map_id (k : Kind α) : k.map id = k := by
  cases k <;> simp [map]

/-! ## Traversal -/

section Traverse

variable {m : Type → Type} [Monad m] [LawfulMonad m] {S : Type} [Watchable m S]

omit [Watchable m S] in
theorem traverse_map (g : α → β) (f : β → m γ) (k : Kind α) :
    (k.map g).traverse f = k.traverse (f ∘ g) := by
  cases k with
  | classDecl modifiers keyword name typeParams superclass body ty =>
    cases typeParams <;> cases superclass <;> simp [map, traverse, Padded.traverse]
  | methodDecl modifiers typeParams returnType name params body =>
    cases typeParams <;> cases returnType <;> cases body <;>
      simp [map, traverse, Padded.traverse]
  | variableDecls modifiers typeExpr vars => cases typeExpr <;> simp [map, traverse]
  | namedVar name initializer => cases initializer <;> simp [map, traverse, Padded.traverse]
  | typeParameter name bounds => cases bounds <;> simp [map, traverse, Padded.traverse]
  | methodInvocation select name args =>
    cases select <;> simp [map, traverse, Padded.traverse]
  | returnStmt expression => cases expression <;> simp [map, traverse]
  | _ => simp [map, traverse, Padded.traverse]

theorem yields_mapM_option {f : α → m β} {o : Option α} {o' : Option β} {s s' : S} :
    Yields (o.mapM f) s o' s' ↔
      ∃ z : Option (α × β), z.map Prod.fst = o ∧ z.map Prod.snd = o' ∧
        Passes (stepOf f) z.toList s s' := by
  cases o with
  | none =>
    rw [show (none : Option α).mapM f = pure none from rfl, yields_pure]
    constructor
    · rintro ⟨rfl, rfl⟩
      exact ⟨none, rfl, rfl, .nil s⟩
    · rintro ⟨z, hz, rfl, hpass⟩
      obtain rfl := Option.map_eq_none_iff.mp hz
      exact ⟨rfl, Passes.nil_iff.mp hpass⟩
  | some a =>
    rw [show (some a).mapM f = some <$> f a from rfl, yields_map]
    constructor
    · rintro ⟨b, ha, rfl⟩
      exact ⟨some (a, b), rfl, rfl, by simpa using ha⟩
    · rintro ⟨z, hz, rfl, hpass⟩
      obtain ⟨p, rfl, rfl⟩ := Option.map_eq_some_iff.mp hz
      exact ⟨p.2, by simpa using hpass, rfl⟩

omit [LawfulMonad m] in
theorem yields_traverse_padded {f : α → m β} {p : Padded α} {p' : Padded β} {s s' : S} :
    Yields (p.traverse f) s p' s' ↔ Yields (f p.elem) s p'.elem s' ∧ p.before = p'.before := by
  simp only [Padded.traverse, yields_bind, yields_pure]
  constructor
  · rintro ⟨b, s₁, hb, rfl, rfl⟩
    exact ⟨hb, rfl⟩
  · rintro ⟨hb, hbefore⟩
    exact ⟨p'.elem, s', hb, by rw [hbefore], rfl⟩

theorem yields_traverse_list {f : α → m β} {p : Padded (List α)} {p' : Padded (List β)}
    {s s' : S} :
    Yields (p.traverse (List.mapM f)) s p' s' ↔
      ∃ z : Padded (List (α × β)), z.map (List.map Prod.fst) = p ∧
        z.map (List.map Prod.snd) = p' ∧ Passes (stepOf f) z.elem s s' := by
  rw [yields_traverse_padded, yields_mapM]
  constructor
  · rintro ⟨⟨z, hfst, hsnd, hpass⟩, hbefore⟩
    refine ⟨⟨p.before, z⟩, ?_, ?_, hpass⟩
    · rw [Padded.map, hfst]
    · rw [Padded.map, hsnd, hbefore]
  · rintro ⟨z, rfl, rfl, hpass⟩
    exact ⟨⟨z.elem, rfl, rfl, hpass⟩, rfl⟩

theorem yields_mapM_padded {f : α → m β} {o : Option (Padded α)} {o' : Option (Padded β)}
    {s s' : S} :
    Yields (o.mapM (Padded.traverse f)) s o' s' ↔
      ∃ z : Option (Padded (α × β)), z.map (Padded.map Prod.fst) = o ∧
        z.map (Padded.map Prod.snd) = o' ∧
        Passes (stepOf f) (z.map Padded.elem).toList s s' := by
  rw [yields_mapM_option]
  constructor
  · rintro ⟨_ | ⟨p, p'⟩, rfl, rfl, hpass⟩
    · exact ⟨none, rfl, rfl, by simpa using hpass⟩
    · obtain ⟨hstep, hbefore⟩ : Yields (f p.elem) s p'.elem s' ∧ p.before = p'.before := by
        simpa [yields_traverse_padded] using hpass
      refine ⟨some ⟨p.before, (p.elem, p'.elem)⟩, rfl, ?_, by simpa using hstep⟩
      rw [hbefore]
      rfl
  · rintro ⟨_ | ⟨before, a, b⟩, rfl, rfl, hpass⟩
    · exact ⟨none, rfl, rfl, by simpa using hpass⟩
    · refine ⟨some (⟨before, a⟩, ⟨before, b⟩), rfl, rfl, ?_⟩
      simpa [yields_traverse_padded] using hpass

theorem yields_mapM_bounds {f : α → m β} {o : Option (Padded (List α))}
    {o' : Option (Padded (List β))} {s s' : S} :
    Yields (o.mapM (Padded.traverse (List.mapM f))) s o' s' ↔
      ∃ z : Option (Padded (List (α × β))), z.map (Padded.map (List.map Prod.fst)) = o ∧
        z.map (Padded.map (List.map Prod.snd)) = o' ∧
        Passes (stepOf f) ((z.map Padded.elem).getD []) s s' := by
  rw [yields_mapM_option]
  constructor
  · rintro ⟨_ | ⟨p, p'⟩, rfl, rfl, hpass⟩
    · exact ⟨none, rfl, rfl, by simpa using hpass⟩
    · obtain ⟨z, rfl, rfl, hstep⟩ := yields_traverse_list.mp
        (show Yields (p.traverse (List.mapM f)) s p' s' by simpa using hpass)
      exact ⟨some z, rfl, rfl, hstep⟩
  · rintro ⟨_ | z, rfl, rfl, hpass⟩
    · exact ⟨none, rfl, rfl, by simpa using hpass⟩
    · refine ⟨some (z.map (List.map Prod.fst), z.map (List.map Prod.snd)), rfl, rfl, ?_⟩
      simpa using yields_traverse_list.mpr ⟨z, rfl, rfl, hpass⟩

/-- A traversal that succeeds pairs every child with what became of it. -/
theorem exists_pairs_of_yields_traverse {f : α → m β} {k : Kind α} {k' : Kind β} {s s' : S}
    (h : Yields (k.traverse f) s k' s') :
    ∃ z : Kind (α × β), z.map Prod.fst = k ∧ z.map Prod.snd = k' ∧
      Passes (stepOf f) z.children s s' := by
  cases k with
  | compilationUnit classes eof =>
    simp only [traverse, yields_bind, yields_pure, yields_mapM] at h
    obtain ⟨_, _, ⟨z, rfl, rfl, hz⟩, rfl, rfl⟩ := h
    exact ⟨.compilationUnit z eof, rfl, rfl, hz⟩
  | classDecl modifiers keyword name typeParams superclass body ty =>
    simp only [traverse, yields_bind, yields_pure, yields_mapM, yields_mapM_padded] at h
    simp only [yields_mapM_option] at h
    obtain ⟨_, _, ⟨ms, rfl, rfl, hms⟩, name', _, hname, _, _, ⟨ts, rfl, rfl, hts⟩, _, _,
      ⟨sc, rfl, rfl, hsc⟩, body', _, hbody, rfl, rfl⟩ := h
    refine ⟨.classDecl ms keyword (name, name') ts sc (body, body') ty, rfl, rfl, ?_⟩
    simp only [children, Passes.append_iff, Passes.cons_iff, Passes.nil_iff]
    exact ⟨_, hms, _, hname, _, ⟨_, hts, hsc⟩, _, hbody, rfl⟩
  | block statements finish =>
    simp only [traverse, yields_bind, yields_pure, yields_mapM] at h
    obtain ⟨_, _, ⟨z, rfl, rfl, hz⟩, rfl, rfl⟩ := h
    exact ⟨.block z finish, rfl, rfl, hz⟩
  | methodDecl modifiers typeParams returnType name params body =>
    simp only [traverse, yields_bind, yields_pure, yields_mapM, yields_mapM_option,
      yields_traverse_list] at h
    obtain ⟨_, _, ⟨ms, rfl, rfl, hms⟩, _, _, ⟨ts, rfl, rfl, hts⟩, _, _, ⟨rt, rfl, rfl, hrt⟩,
      name', _, hname, _, _, ⟨ps, rfl, rfl, hps⟩, _, _, ⟨b, rfl, rfl, hb⟩, rfl, rfl⟩ := h
    refine ⟨.methodDecl ms ts rt (name, name') ps b, rfl, rfl, ?_⟩
    simp only [children, Passes.append_iff, Passes.cons_iff]
    exact ⟨_, hms, _, ⟨_, hts, hrt⟩, _, hname, _, hps, hb⟩
  | variableDecls modifiers typeExpr vars =>
    simp only [traverse, yields_bind, yields_pure, yields_mapM, yields_mapM_option] at h
    obtain ⟨_, _, ⟨ms, rfl, rfl, hms⟩, _, _, ⟨te, rfl, rfl, hte⟩, _, _, ⟨vs, rfl, rfl, hvs⟩,
      rfl, rfl⟩ := h
    refine ⟨.variableDecls ms te vs, rfl, rfl, ?_⟩
    simp only [children, Passes.append_iff]
    exact ⟨_, hms, _, hte, hvs⟩
  | namedVar name initializer =>
    simp only [traverse, yields_bind, yields_pure, yields_mapM_padded] at h
    obtain ⟨name', _, hname, _, _, ⟨init, rfl, rfl, hinit⟩, rfl, rfl⟩ := h
    refine ⟨.namedVar (name, name') init, rfl, rfl, ?_⟩
    exact .cons hname hinit
  | lambda params parenthesized body =>
    simp only [traverse, yields_bind, yields_pure, yields_mapM, yields_traverse_padded] at h
    obtain ⟨_, _, ⟨ps, rfl, rfl, hps⟩, body', _, ⟨hbody, hbefore⟩, rfl, rfl⟩ := h
    refine ⟨.lambda ps parenthesized ⟨body.before, (body.elem, body'.elem)⟩, rfl, ?_, ?_⟩
    · simp [map, Padded.map, hbefore]
    · simp only [children, Passes.append_iff, Passes.cons_iff, Passes.nil_iff]
      exact ⟨_, hps, _, hbody, rfl⟩
  | forLoop control body =>
    simp only [traverse, yields_bind, yields_pure] at h
    obtain ⟨control', _, hcontrol, body', _, hbody, rfl, rfl⟩ := h
    exact ⟨.forLoop (control, control') (body, body'), rfl, rfl,
      .cons hcontrol (.cons hbody (.nil _))⟩
  | forControl init condition update =>
    simp only [traverse, yields_bind, yields_pure, yields_mapM] at h
    obtain ⟨_, _, ⟨is, rfl, rfl, his⟩, condition', _, hcondition, _, _, ⟨us, rfl, rfl, hus⟩,
      rfl, rfl⟩ := h
    refine ⟨.forControl is (condition, condition') us, rfl, rfl, ?_⟩
    simp only [children, Passes.append_iff, Passes.cons_iff]
    exact ⟨_, his, _, hcondition, hus⟩
  | typeParameters params repeats =>
    simp only [traverse, yields_bind, yields_pure, yields_mapM] at h
    obtain ⟨_, _, ⟨z, rfl, rfl, hz⟩, rfl, rfl⟩ := h
    exact ⟨.typeParameters z repeats, rfl, rfl, hz⟩
  | typeParameter name bounds =>
    simp only [traverse, yields_bind, yields_pure, yields_mapM_bounds] at h
    obtain ⟨name', _, hname, _, _, ⟨bs, rfl, rfl, hbs⟩, rfl, rfl⟩ := h
    exact ⟨.typeParameter (name, name') bs, rfl, rfl, .cons hname hbs⟩
  | modifier keyword =>
    simp only [traverse, yields_pure] at h
    obtain ⟨rfl, rfl⟩ := h
    exact ⟨.modifier keyword, rfl, rfl, .nil _⟩
  | ident name ty declaration =>
    simp only [traverse, yields_pure] at h
    obtain ⟨rfl, rfl⟩ := h
    exact ⟨.ident name ty declaration, rfl, rfl, .nil _⟩
  | fieldAccess target name =>
    simp only [traverse, yields_bind, yields_pure] at h
    obtain ⟨target', _, htarget, name', _, hname, rfl, rfl⟩ := h
    exact ⟨.fieldAccess (target, target') (name, name'), rfl, rfl,
      .cons htarget (.cons hname (.nil _))⟩
  | methodInvocation select name args =>
    simp only [traverse, yields_bind, yields_pure, yields_mapM_option,
      yields_traverse_list] at h
    obtain ⟨_, _, ⟨sel, rfl, rfl, hsel⟩, name', _, hname, _, _, ⟨as, rfl, rfl, has⟩,
      rfl, rfl⟩ := h
    refine ⟨.methodInvocation sel (name, name') as, rfl, rfl, ?_⟩
    simp only [children, Passes.append_iff, Passes.cons_iff]
    exact ⟨_, hsel, _, hname, has⟩
  | assign target value =>
    simp only [traverse, yields_bind, yields_pure, yields_traverse_padded] at h
    obtain ⟨target', _, htarget, value', _, ⟨hvalue, hbefore⟩, rfl, rfl⟩ := h
    refine ⟨.assign (target, target') ⟨value.before, (value.elem, value'.elem)⟩, rfl, ?_,
      .cons htarget (.cons hvalue (.nil _))⟩
    simp [map, Padded.map, hbefore]
  | binary left operator right =>
    simp only [traverse, yields_bind, yields_pure] at h
    obtain ⟨left', _, hleft, right', _, hright, rfl, rfl⟩ := h
    exact ⟨.binary (left, left') operator (right, right'), rfl, rfl,
      .cons hleft (.cons hright (.nil _))⟩
  | unary operator operand isPostfix =>
    simp only [traverse, yields_bind, yields_pure] at h
    obtain ⟨operand', _, hoperand, rfl, rfl⟩ := h
    exact ⟨.unary operator (operand, operand') isPostfix, rfl, rfl, .cons hoperand (.nil _)⟩
  | literal text ty =>
    simp only [traverse, yields_pure] at h
    obtain ⟨rfl, rfl⟩ := h
    exact ⟨.literal text ty, rfl, rfl, .nil _⟩
  | returnStmt expression =>
    simp only [traverse, yields_bind, yields_pure, yields_mapM_option] at h
    obtain ⟨_, _, ⟨e, rfl, rfl, he⟩, rfl, rfl⟩ := h
    exact ⟨.returnStmt e, rfl, rfl, he⟩
  | empty =>
    simp only [traverse, yields_pure] at h
    obtain ⟨rfl, rfl⟩ := h
    exact ⟨.empty, rfl, rfl, .nil _⟩

/-- A run through the pairs of a kind is a run of the traversal. -/
theorem yields_traverse_of_passes {f : α → m β} {z : Kind (α × β)} {s s' : S}
    (h : Passes (stepOf f) z.children s s') :
    Yields ((z.map Prod.fst).traverse f) s (z.map Prod.snd) s' := by
  cases z with
  | compilationUnit classes eof =>
    simp only [map, traverse, yields_bind, yields_pure, yields_mapM]
    exact ⟨_, _, ⟨_, rfl, rfl, h⟩, rfl, rfl⟩
  | classDecl modifiers keyword name typeParams superclass body ty =>
    simp only [children, Passes.append_iff, Passes.cons_iff, Passes.nil_iff] at h
    obtain ⟨_, hms, _, hname, _, ⟨_, hts, hsc⟩, _, hbody, rfl⟩ := h
    simp only [map, traverse, yields_bind, yields_pure, yields_mapM, yields_mapM_padded]
    simp only [yields_mapM_option]
    exact ⟨_, _, ⟨_, rfl, rfl, hms⟩, _, _, hname, _, _, ⟨_, rfl, rfl, hts⟩, _, _,
      ⟨_, rfl, rfl, hsc⟩, _, _, hbody, rfl, rfl⟩
  | block statements finish =>
    simp only [map, traverse, yields_bind, yields_pure, yields_mapM]
    exact ⟨_, _, ⟨_, rfl, rfl, h⟩, rfl, rfl⟩
  | methodDecl modifiers typeParams returnType name params body =>
    simp only [children, Passes.append_iff, Passes.cons_iff] at h
    obtain ⟨_, hms, _, ⟨_, hts, hrt⟩, _, hname, _, hps, hb⟩ := h
    simp only [map, traverse, yields_bind, yields_pure, yields_mapM, yields_mapM_option,
      yields_traverse_list]
    exact ⟨_, _, ⟨_, rfl, rfl, hms⟩, _, _, ⟨_, rfl, rfl, hts⟩, _, _, ⟨_, rfl, rfl, hrt⟩,
      _, _, hname, _, _, ⟨_, rfl, rfl, hps⟩, _, _, ⟨_, rfl, rfl, hb⟩, rfl, rfl⟩
  | variableDecls modifiers typeExpr vars =>
    simp only [children, Passes.append_iff] at h
    obtain ⟨_, hms, _, hte, hvs⟩ := h
    simp only [map, traverse, yields_bind, yields_pure, yields_mapM, yields_mapM_option]
    exact ⟨_, _, ⟨_, rfl, rfl, hms⟩, _, _, ⟨_, rfl, rfl, hte⟩, _, _, ⟨_, rfl, rfl, hvs⟩,
      rfl, rfl⟩
  | namedVar name initializer =>
    obtain ⟨_, hname, hinit⟩ := Passes.cons_iff.mp h
    simp only [map, traverse, yields_bind, yields_pure, yields_mapM_padded]
    exact ⟨_, _, hname, _, _, ⟨_, rfl, rfl, hinit⟩, rfl, rfl⟩
  | lambda params parenthesized body =>
    simp only [children, Passes.append_iff, Passes.cons_iff, Passes.nil_iff] at h
    obtain ⟨_, hps, _, hbody, rfl⟩ := h
    simp only [map, traverse, yields_bind, yields_pure, yields_mapM, yields_traverse_padded]
    exact ⟨_, _, ⟨_, rfl, rfl, hps⟩, body.map Prod.snd, _, ⟨hbody, rfl⟩, rfl, rfl⟩
  | forLoop control body =>
    simp only [children, Passes.cons_iff, Passes.nil_iff] at h
    obtain ⟨_, hcontrol, _, hbody, rfl⟩ := h
    simp only [map, traverse, yields_bind, yields_pure]
    exact ⟨_, _, hcontrol, _, _, hbody, rfl, rfl⟩
  | forControl init condition update =>
    simp only [children, Passes.append_iff, Passes.cons_iff] at h
    obtain ⟨_, his, _, hcondition, hus⟩ := h
    simp only [map, traverse, yields_bind, yields_pure, yields_mapM]
    exact ⟨_, _, ⟨_, rfl, rfl, his⟩, _, _, hcondition, _, _, ⟨_, rfl, rfl, hus⟩, rfl, rfl⟩
  | typeParameters params repeats =>
    simp only [map, traverse, yields_bind, yields_pure, yields_mapM]
    exact ⟨_, _, ⟨_, rfl, rfl, h⟩, rfl, rfl⟩
  | typeParameter name bounds =>
    obtain ⟨_, hname, hbs⟩ := Passes.cons_iff.mp h
    simp only [map, traverse, yields_bind, yields_pure, yields_mapM_bounds]
    exact ⟨_, _, hname, _, _, ⟨_, rfl, rfl, hbs⟩, rfl, rfl⟩
  | fieldAccess target name =>
    simp only [children, Passes.cons_iff, Passes.nil_iff] at h
    obtain ⟨_, htarget, _, hname, rfl⟩ := h
    simp only [map, traverse, yields_bind, yields_pure]
    exact ⟨_, _, htarget, _, _, hname, rfl, rfl⟩
  | methodInvocation select name args =>
    simp only [children, Passes.append_iff, Passes.cons_iff] at h
    obtain ⟨_, hsel, _, hname, has⟩ := h
    simp only [map, traverse, yields_bind, yields_pure, yields_mapM_option,
      yields_traverse_list]
    exact ⟨_, _, ⟨_, rfl, rfl, hsel⟩, _, _, hname, _, _, ⟨_, rfl, rfl, has⟩, rfl, rfl⟩
  | assign target value =>
    simp only [children, Passes.cons_iff, Passes.nil_iff] at h
    obtain ⟨_, htarget, _, hvalue, rfl⟩ := h
    simp only [map, traverse, yields_bind, yields_pure, yields_traverse_padded]
    exact ⟨_, _, htarget, value.map Prod.snd, _, ⟨hvalue, rfl⟩, rfl, rfl⟩
  | binary left operator right =>
    simp only [children, Passes.cons_iff, Passes.nil_iff] at h
    obtain ⟨_, hleft, _, hright, rfl⟩ := h
    simp only [map, traverse, yields_bind, yields_pure]
    exact ⟨_, _, hleft, _, _, hright, rfl, rfl⟩
  | unary operator operand isPostfix =>
    simp only [children, Passes.cons_iff, Passes.nil_iff] at h
    obtain ⟨_, hoperand, rfl⟩ := h
    simp only [map, traverse, yields_bind, yields_pure]
    exact ⟨_, _, hoperand, rfl, rfl⟩
  | returnStmt expression =>
    simp only [map, traverse, yields_bind, yields_pure, yields_mapM_option]
    exact ⟨_, _, ⟨_, rfl, rfl, h⟩, rfl, rfl⟩
  | modifier _ | ident _ _ _ | literal _ _ | empty =>
    exact yields_pure.mpr ⟨rfl, Passes.nil_iff.mp h⟩

/-- The successful runs of a traversal, by pairs of old and new children. -/
theorem yields_traverse {f : α → m β} {k : Kind α} {k' : Kind β} {s s' : S} :
    Yields (k.traverse f) s k' s' ↔
      ∃ z : Kind (α × β), z.map Prod.fst = k ∧ z.map Prod.snd = k' ∧
        Passes (stepOf f) z.children s s' := by
  constructor
  · exact exists_pairs_of_yields_traverse
  · rintro ⟨z, rfl, rfl, hpass⟩
    exact yields_traverse_of_passes hpass

/-! ## Numbered traversal -/

/-- The step of an action that also gets the place of its argument. -/
abbrev stepAt (f : α → Nat → m β) (p : (α × β) × Nat) (s s' : S) : Prop :=
  Yields (f p.1.1 p.2) s p.1.2 s'

/-- The action of `traverseIdx` at each child. -/
abbrev numbered (f : α → Nat → m β) : α → StateT Nat m β :=
  fun child index => do return (← f child index, index + 1)

omit [Watchable m S] in
theorem traverseIdx_map (g : α → β) (f : β → Nat → m γ) (k : Kind α) :
    (k.map g).traverseIdx f = k.traverseIdx (f ∘ g) := by
  simp only [traverseIdx, traverse_map]
  rfl

omit [LawfulMonad m] in
theorem passes_numbered_iff {f : α → Nat → m β} {zs : List (α × β)} {i i' : Nat} {s s' : S} :
    Passes (stepOf (numbered f)) zs (i, s) (i', s') ↔
      i' = i + zs.length ∧ Passes (stepAt f) (zs.zipIdx i) s s' := by
  induction zs generalizing i s with
  | nil => simp [Prod.ext_iff, eq_comm]
  | cons p zs ih =>
    have hstep (j : Nat) (s₁ : S) : stepOf (numbered f) p (i, s) (j, s₁) ↔
        j = i + 1 ∧ Yields (f p.1 i) s p.2 s₁ := by
      change Yields (do return (← f p.1 i, i + 1)) s (p.2, j) s₁ ↔ _
      simp only [yields_bind, yields_pure, Prod.ext_iff]
      constructor
      · rintro ⟨b, _, hb, ⟨rfl, rfl⟩, rfl⟩
        exact ⟨rfl, hb⟩
      · rintro ⟨rfl, hb⟩
        exact ⟨p.2, s₁, hb, ⟨rfl, rfl⟩, rfl⟩
    simp only [Passes.cons_iff, List.zipIdx_cons, List.length_cons, Prod.exists, hstep, ih]
    constructor
    · rintro ⟨_, s₁, ⟨rfl, hp⟩, rfl, hzs⟩
      exact ⟨by omega, s₁, hp, hzs⟩
    · rintro ⟨rfl, s₁, hp, hzs⟩
      exact ⟨_, s₁, ⟨rfl, hp⟩, by omega, hzs⟩

theorem yields_traverseIdx {f : α → Nat → m β} {k : Kind α} {k' : Kind β} {s s' : S} :
    Yields (k.traverseIdx f) s k' s' ↔
      ∃ z : Kind (α × β), z.map Prod.fst = k ∧ z.map Prod.snd = k' ∧
        Passes (stepAt f) z.children.zipIdx s s' := by
  have hrun : Yields (k.traverseIdx f) s k' s' ↔
      ∃ i, Yields (k.traverse (numbered f)) (0, s) k' (i, s') := by
    simp only [traverseIdx, yields_bind, yields_pure]
    constructor
    · rintro ⟨⟨_, i⟩, _, hk, rfl, rfl⟩
      exact ⟨i, hk⟩
    · rintro ⟨i, hk⟩
      exact ⟨(k', i), s', hk, rfl, rfl⟩
  simp only [hrun, yields_traverse, passes_numbered_iff]
  constructor
  · rintro ⟨_, z, hfst, hsnd, _, hpass⟩
    exact ⟨z, hfst, hsnd, hpass⟩
  · rintro ⟨z, hfst, hsnd, hpass⟩
    exact ⟨_, z, hfst, hsnd, rfl, hpass⟩

end Traverse

end Kind

end Restyle
