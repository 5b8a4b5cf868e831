-- SUMMARY: The details of a tree that each rule keeps.
import Restyle.Proofs.Tree.Failure
import Restyle.Proofs.Tree.Sketch
import Restyle.Rule.Builtin

/-!
# Passes

Each rule that edits a tree keeps all sketches that do not show what it edits: padding is text at
empty nodes, type parameter lists lose text at themselves and at their parameters, `final` is a
modifier, and a renaming changes spellings. Only the rule for hidden fields schedules other rules,
and all of them are renamings.
-/

namespace Restyle

/-! ## Sessions of rules -/

namespace Edit

variable {σ ε : Type}

theorem yields_replace {old new n' : Node} {s s' : Session σ} :
    Yields (Edit.replace old new : Edit σ ε Node) s n' s' ↔
      new = n' ∧ { s with log := s.log.record old.id } = s' := by
  have hrun : (Edit.replace old new : Edit σ ε Node).run s =
      ((.ok new, { s with log := s.log.record old.id }) : Except ε Node × Session σ) := rfl
  change @Eq (Except ε Node × Session σ) _ _ ↔ _
  rw [hrun]
  simp

theorem yields_get {t s s' : Session σ} :
    Yields (get : Edit σ ε (Session σ)) s t s' ↔ s = t ∧ s = s' := by
  have hrun : (get : Edit σ ε (Session σ)).run s =
      ((.ok s, s) : Except ε (Session σ) × Session σ) := rfl
  change @Eq (Except ε (Session σ) × Session σ) _ _ ↔ _
  rw [hrun]
  simp

theorem yields_set {t s s' : Session σ} {u : PUnit} :
    Yields (set t : Edit σ ε PUnit) s u s' ↔ t = s' := by
  have hrun : (set t : Edit σ ε PUnit).run s = ((.ok ⟨⟩, t) : Except ε PUnit × Session σ) := rfl
  change @Eq (Except ε PUnit × Session σ) _ _ ↔ _
  rw [hrun]
  simp

theorem yields_ofExcept {α : Type} {x : Except ε α} {a : α} {s s' : Session σ} :
    Yields (MonadExcept.ofExcept x : Edit σ ε α) s a s' ↔ x = .ok a ∧ s = s' := by
  cases x with
  | error e =>
    have hrun : (MonadExcept.ofExcept (.error e) : Edit σ ε α).run s =
        ((.error e, s) : Except ε α × Session σ) := rfl
    change @Eq (Except ε α × Session σ) _ _ ↔ _
    rw [hrun]
    simp
  | ok b =>
    rw [show (MonadExcept.ofExcept (.ok b) : Edit σ ε α) = pure b from rfl, yields_pure]
    simp

end Edit

namespace RuleOutput

/-- A session that gave a result: the run behind it, and its log. -/
theorem ofSession_eq_ok {R σ ε : Type} {fault : ε → RuleError} {rule : String} {state : σ}
    {edit : Cursor → Node → Edit σ ε Node} {tree : Node} {out : RuleOutput R}
    (h : ofSession fault (tree.editAs rule state edit) = .ok out) :
    ∃ s : Session σ, Yields ((Cursor.root tree).edited edit) ⟨state, { rule }⟩ out.tree s ∧
      out.transforms = s.log.entries ∧ out.followUps = [] := by
  unfold ofSession at h
  split at h
  · rename_i tree' s hrun
    obtain rfl := Except.ok.inj h
    exact ⟨s, hrun, rfl, rfl⟩
  · cases h

/-- A session that gave an error. -/
theorem ofSession_eq_error {R σ ε : Type} {fault : ε → RuleError} {rule : String} {state : σ}
    {edit : Cursor → Node → Edit σ ε Node} {tree : Node} {e : RuleError} :
    (ofSession fault (tree.editAs rule state edit) : Except RuleError (RuleOutput R)) = .error e ↔
      ∃ e', Raises ((Cursor.root tree).edited edit) ⟨state, { rule }⟩ e' ∧ fault e' = e := by
  unfold ofSession
  split
  · rename_i tree' s hrun
    refine iff_of_false (by simp) ?_
    rintro ⟨e', hraises, _⟩
    exact not_raises_of_yields (show Yields _ _ tree' s from hrun) hraises
  · rename_i e' s hrun
    constructor
    · intro h
      exact ⟨e', ⟨s, hrun⟩, Except.error.inj h⟩
    · rintro ⟨e'', ⟨s', hrun'⟩, rfl⟩
      obtain ⟨he, _⟩ := Prod.mk.inj (hrun.symm.trans hrun')
      rw [Except.error.inj he]

/-- A session that keeps the tree and its log. -/
theorem ofSession_of_yields {R σ ε : Type} {fault : ε → RuleError} {rule : String} {state : σ}
    {edit : Cursor → Node → Edit σ ε Node} {tree tree' : Node} {s : Session σ}
    (h : Yields ((Cursor.root tree).edited edit) ⟨state, { rule }⟩ tree' s) :
    (ofSession fault (tree.editAs rule state edit) : Except RuleError (RuleOutput R)) =
      .ok { tree := tree', transforms := s.log.entries } := by
  have hrun : tree.editAs rule state edit = (.ok tree', s) := h
  rw [hrun]
  rfl

end RuleOutput

/-! ## What the rules keep -/

variable {R : Type} {σ : Sketch} {tree : Node} {out : RuleOutput R}

namespace Node

theorem sketch_withFormatting {n : Node} {f : Formatting} (h : σ.text n.tag = false) :
    (n.withFormatting f).sketch σ = n.sketch σ := by
  have htext (g : Formatting) : σ.formatting n.tag g = {} := by simp [Sketch.formatting, h]
  have htag : (n.withFormatting f).tag = n.tag := rfl
  rw [sketch_eq, sketch_eq σ n, htag, htext, htext]
  rfl

theorem sketch_respell {n : Node} {name : String} (h : σ.spelling = false) :
    (n.respell name).sketch σ = n.sketch σ := by
  unfold respell
  split
  · rename_i old ty declaration hkind
    rw [sketch_eq, sketch_eq σ n, hkind]
    simp [withKind, Kind.map, Sketch.kind, tag, hkind, Kind.tag, h]
  · rfl

theorem sketch_respellVariable {n : Node} {name : String} (h : σ.spelling = false) :
    (n.respellVariable name).sketch σ = n.sketch σ := by
  unfold respellVariable
  split
  · rename_i id initializer hkind
    rw [sketch_eq, sketch_eq σ n, hkind]
    simp only [withKind, Kind.map, Sketch.kind, tag, hkind, sketch_respell h]
    rfl
  · rfl

theorem tag_eq_of_sketch_eq {n n' : Node} (h : n.sketch σ = n'.sketch σ) : n.tag = n'.tag := by
  rw [← tag_sketch (σ := σ) n, h, tag_sketch]

end Node

namespace ForHeader

theorem emptyInitializer?_eq_some {loop init : Node} :
    emptyInitializer? loop = some init ↔
      ∃ control body condition update, loop.kind = .forLoop control body ∧
        control.kind = .forControl [init] condition update ∧ init.tag = .empty := by
  unfold emptyInitializer?
  constructor
  · intro h
    split at h
    · split at h
      · split at h <;> simp_all
      · cases h
    · cases h
  · rintro ⟨control, body, condition, update, hloop, hcontrol, hinit⟩
    simp [hloop, hcontrol, hinit]

theorem exists_emptyInitializer {padding : String} {loop : Node}
    (h : needsPadding padding loop = true) : ∃ init, emptyInitializer? loop = some init := by
  cases hempty : emptyInitializer? loop with
  | none => simp [needsPadding, hempty] at h
  | some init => exact ⟨init, rfl⟩

/-- Loops that look alike have left out their initializers alike. -/
theorem emptyInitializer?_of_alike {loop loop' init : Node} (h : loop.Alike σ loop')
    (hinit : emptyInitializer? loop = some init) :
    ∃ init', emptyInitializer? loop' = some init' ∧ init.sketch σ = init'.sketch σ := by
  obtain ⟨control, body, condition, update, hloop, hcontrol, htag⟩ :=
    emptyInitializer?_eq_some.mp hinit
  obtain ⟨control', body', hloop', hctrl, _⟩ := h.forLoop hloop
  obtain ⟨inits', condition', update', hcontrol', hinits, _⟩ :=
    (Node.alike_of_sketch_eq hctrl).forControl hcontrol
  obtain ⟨init', rfl, hsketch⟩ := List.map_eq_singleton_iff.mp hinits.symm
  refine ⟨init', ?_, hsketch.symm⟩
  rw [← Node.tag_eq_of_sketch_eq hsketch] at htag
  exact emptyInitializer?_eq_some.mpr ⟨_, _, _, _, hloop', hcontrol', htag⟩

/-- The padding of an empty initializer is not shown if empty nodes are shown without text. -/
theorem pad_keeps (hσ : σ.text .empty = false) {padding : String} {loop init : Node}
    (h : emptyInitializer? loop = some init) :
    (pad padding loop).sketch σ = loop.sketch σ := by
  obtain ⟨control, body, condition, update, hloop, hcontrol, htag⟩ :=
    emptyInitializer?_eq_some.mp h
  have hinit : (init.withLead padding).sketch σ = init.sketch σ :=
    Node.sketch_withFormatting (by rw [htag]; exact hσ)
  have hheader (k : Kind Node) (hk : σ.kind (k.map (Node.sketch σ)) =
      σ.kind (control.kind.map (Node.sketch σ))) (htag : k.tag = control.tag) :
      (control.withKind k).sketch σ = control.sketch σ := by
    rw [Node.sketch_eq, Node.sketch_eq σ control, ← hk, ← htag]
    rfl
  unfold pad
  simp only [hloop, hcontrol]
  rw [Node.sketch_eq, Node.sketch_eq σ loop]
  simp only [Node.withKind, Node.tag, hloop, Kind.map, Sketch.kind]
  rw [show (⟨control.id, control.formatting, _⟩ : Node) = control.withKind _ from rfl,
    hheader _ (by simp [hcontrol, Kind.map, hinit]) (by rw [Node.tag, hcontrol]; rfl)]
  rfl

theorem edit_keeps {τ ε : Type} (hσ : σ.text .empty = false) {padding : String} {c : Cursor}
    {rebuilt n' : Node} {s s' : Session τ} (hrebuilt : rebuilt.sketch σ = c.node.sketch σ)
    (h : Yields (edit padding c rebuilt : Edit τ ε Node) s n' s') :
    n'.sketch σ = rebuilt.sketch σ := by
  unfold edit at h
  split at h
  · rename_i hneeds
    obtain ⟨rfl, _⟩ := Edit.yields_replace.mp h
    obtain ⟨init, hinit⟩ := exists_emptyInitializer hneeds
    obtain ⟨init', hinit', _⟩ :=
      emptyInitializer?_of_alike (Node.alike_of_sketch_eq hrebuilt.symm) hinit
    exact pad_keeps hσ hinit'
  · rw [(yields_pure.mp h).1]

theorem apply_keeps (hσ : σ.text .empty = false) {policy : PadPolicy}
    (h : apply policy tree = .ok out) : out.tree.sketch σ = tree.sketch σ := by
  obtain ⟨s, hrun, _, _⟩ := RuleOutput.ofSession_eq_ok h
  exact Node.sketch_edited (fun _ _ _ _ _ => edit_keeps hσ) hrun

end ForHeader

namespace TypeParameterList

theorem edit_keeps {τ : Type} (hlist : σ.text .typeParameters = false)
    (hparam : σ.text .typeParameter = false) {c : Cursor} {rebuilt n' : Node} {s s' : Session τ}
    (hrebuilt : rebuilt.sketch σ = c.node.sketch σ)
    (h : Yields (edit c rebuilt) s n' s') : n'.sketch σ = rebuilt.sketch σ := by
  have htag := Node.tag_eq_of_sketch_eq hrebuilt
  unfold edit at h
  split at h
  · rename_i hc
    unfold editList at h
    dsimp only at h
    split at h
    · obtain ⟨rfl, _⟩ := Edit.yields_replace.mp h
      exact Node.sketch_withFormatting (by rw [htag, hc]; exact hlist)
    · rw [(yields_pure.mp h).1]
  · rename_i hc
    unfold editParameter at h
    obtain ⟨⟨isFirst, isLast⟩, _, _, h⟩ := yields_bind.mp h
    dsimp only at h
    split at h
    · obtain ⟨rfl, _⟩ := Edit.yields_replace.mp h
      exact Node.sketch_withFormatting (by rw [htag, hc]; exact hparam)
    · rw [(yields_pure.mp h).1]
  · rw [(yields_pure.mp h).1]

theorem apply_keeps (hlist : σ.text .typeParameters = false)
    (hparam : σ.text .typeParameter = false) (h : apply tree = .ok out) :
    out.tree.sketch σ = tree.sketch σ := by
  obtain ⟨s, hrun, _, _⟩ := RuleOutput.ofSession_eq_ok h
  exact Node.sketch_edited (fun _ _ _ _ _ => edit_keeps hlist hparam) hrun

end TypeParameterList

namespace Renaming

theorem edit_keeps {τ ε : Type} (hσ : σ.spelling = false) {target : NodeId} {name : String}
    {c : Cursor} {rebuilt n' : Node} {s s' : Session τ}
    (h : Yields (edit target name c rebuilt : Edit τ ε Node) s n' s') :
    n'.sketch σ = rebuilt.sketch σ := by
  unfold edit at h
  split at h
  · split at h
    · obtain ⟨rfl, _⟩ := Edit.yields_replace.mp h
      exact Node.sketch_respellVariable hσ
    · rw [(yields_pure.mp h).1]
  · split at h
    · obtain ⟨rfl, _⟩ := Edit.yields_replace.mp h
      exact Node.sketch_respell hσ
    · rw [(yields_pure.mp h).1]
  · rw [(yields_pure.mp h).1]

/-- A renaming that gave a result: the tree has no such variable and stays, or the variable was
    given a name that is free for it. -/
theorem apply_cases {r : Renaming} (h : r.apply tree = .ok out) :
    (tree.bindings.find? (fun b => b.id == r.target) = none ∧ out = .unchanged tree) ∨
      ∃ target name, tree.bindings.find? (fun b => b.id == r.target) = some target ∧
        r.freshName tree target = .ok name ∧ out.followUps = [] ∧
        ∃ s : Session Unit,
          Yields ((Cursor.root tree).edited (edit r.target name : _ → _ → Edit Unit TreeError Node))
            ⟨(), { rule := ruleName }⟩ out.tree s ∧ out.transforms = s.log.entries := by
  unfold apply at h
  split at h
  · rename_i hnone
    exact .inl ⟨hnone, (Except.ok.inj h).symm⟩
  · rename_i target hsome
    cases hname : r.freshName tree target with
    | error e =>
      rw [hname] at h
      cases h
    | ok name =>
      rw [hname] at h
      obtain ⟨s, hrun, hlog, hfollow⟩ := RuleOutput.ofSession_eq_ok h
      exact .inr ⟨target, name, hsome, hname, hfollow, s, hrun, hlog⟩

theorem apply_keeps (hσ : σ.spelling = false) {r : Renaming} (h : r.apply tree = .ok out) :
    out.tree.sketch σ = tree.sketch σ := by
  rcases apply_cases h with ⟨_, rfl⟩ | ⟨_, _, _, _, _, s, hrun, _⟩
  · rfl
  · exact Node.sketch_edited (fun _ _ _ _ _ _ => edit_keeps hσ) hrun

end Renaming

namespace AddFinal

/-- The new modifier and the text moved to it are not shown. -/
theorem withModifier_keeps (hσ : σ.modifiers = false) {modifier decl : Node}
    (hmodifier : modifier.isPlace = false) :
    (withModifier modifier decl).sketch σ = decl.sketch σ := by
  have hlead (n : Node) (text : String) :
      ((n.withLead text).sketch σ).withLead "" = (n.sketch σ).withLead "" := by
    have htag : (n.withLead text).tag = n.tag := rfl
    rw [Node.sketch_eq, Node.sketch_eq σ n, htag]
    by_cases htext : σ.text n.tag <;>
      simp [Sketch.formatting, htext, Node.withLead, Node.withFormatting, Formatting.withLead]
  unfold withModifier
  split
  · rename_i first others typeExpr vars hkind
    have htag (k : Kind Node) : (decl.withKind k).tag = k.tag := rfl
    rw [Node.sketch_eq, Node.sketch_eq σ decl, htag, Node.tag, hkind]
    by_cases hfirst : first.isPlace
    · simp [Node.withKind, Kind.map, Kind.tag, Sketch.kind, hσ, hmodifier, hfirst, hlead]
    · simp [Node.withKind, Kind.map, Kind.tag, Sketch.kind, hσ, hmodifier, hfirst]
  · rename_i typeExpr vars hkind
    rw [Node.sketch_eq, Node.sketch_eq σ decl]
    simp [Node.withKind, Node.tag, Kind.map, Kind.tag, Sketch.kind, hσ, hmodifier, hkind, hlead]
  · rename_i vars hkind
    rw [Node.sketch_eq, Node.sketch_eq σ decl]
    simp [Node.withKind, Node.tag, Kind.map, Kind.tag, Sketch.kind, hσ, hmodifier, hkind]
  · rfl

/-- The counter has room for another modifier, and the new modifier takes its value. -/
theorem yields_allocate {modifier : Node} {s s' : Session NodeId} :
    Yields (allocate (Build.modifier "" "final")) s modifier s' ↔
      ∃ next, NodeId.next? s.state = some next ∧ modifier = ⟨s.state, {}, .modifier "final"⟩ ∧
        s' = { s with state := next } := by
  have hmake : (Build.modifier "" "final").run s.state =
      (NodeId.next? s.state).elim (.error .idOverflow) fun next =>
        .ok (⟨s.state, {}, .modifier "final"⟩, next) := by
    simp only [Build.modifier, Build.node, Build.nodeWith, StateT.run, bind, StateT.bind,
      Build.fresh]
    cases NodeId.next? s.state <;> rfl
  simp only [allocate, yields_bind, Edit.yields_get]
  constructor
  · rintro ⟨_, _, ⟨rfl, rfl⟩, h⟩
    rw [hmake] at h
    cases hnext : NodeId.next? s.state with
    | none =>
      rw [hnext] at h
      cases h
    | some next =>
      rw [hnext] at h
      obtain ⟨_, _, hset, h⟩ := yields_bind.mp h
      obtain ⟨rfl, rfl⟩ := yields_pure.mp h
      exact ⟨next, rfl, rfl, (Edit.yields_set.mp hset).symm⟩
  · rintro ⟨next, hnext, rfl, rfl⟩
    refine ⟨s, s, ⟨rfl, rfl⟩, ?_⟩
    rw [hmake, hnext]
    exact yields_bind.mpr ⟨⟨⟩, _, Edit.yields_set.mpr rfl, yields_pure.mpr ⟨rfl, rfl⟩⟩

/-- An edit keeps a declaration or puts the modifier in front, if it qualifies. -/
theorem yields_edit {c : Cursor} {rebuilt n' : Node} {s s' : Session NodeId} :
    Yields (edit c rebuilt) s n' s' ↔
      (qualifies c = false ∧ n' = rebuilt ∧ s' = s) ∨
        ∃ next, qualifies c = true ∧ NodeId.next? s.state = some next ∧
          n' = withModifier ⟨s.state, {}, .modifier "final"⟩ rebuilt ∧
          s' = ⟨next, s.log.record c.node.id⟩ := by
  unfold edit
  by_cases hc : qualifies c
  · simp only [hc, if_true, yields_bind, yields_allocate, Edit.yields_replace]
    constructor
    · rintro ⟨_, _, ⟨next, hnext, rfl, rfl⟩, rfl, rfl⟩
      exact .inr ⟨next, trivial, hnext, rfl, rfl⟩
    · rintro (⟨h, _⟩ | ⟨next, _, hnext, rfl, rfl⟩)
      · cases h
      · exact ⟨_, _, ⟨next, hnext, rfl, rfl⟩, rfl, rfl⟩
  · simp only [hc, Bool.false_eq_true, if_false, yields_pure, true_and, false_and, exists_false,
      or_false]
    exact and_congr eq_comm eq_comm

/-- A run that gave a result started above all ids of the tree. -/
theorem apply_eq_ok (h : apply tree = .ok out) :
    ∃ (first : NodeId) (s : Session NodeId), NodeId.next? tree.maxId = some first ∧
      Yields ((Cursor.root tree).edited edit) ⟨first, { rule := ruleName }⟩ out.tree s ∧
      out.transforms = s.log.entries ∧ out.followUps = [] := by
  unfold apply at h
  split at h
  · cases h
  · rename_i first hfirst
    obtain ⟨s, hrun, hlog, hfollow⟩ := RuleOutput.ofSession_eq_ok h
    exact ⟨first, s, hfirst, hrun, hlog, hfollow⟩

theorem apply_keeps (hσ : σ.modifiers = false) (h : apply tree = .ok out) :
    out.tree.sketch σ = tree.sketch σ := by
  obtain ⟨first, s, _, hrun, _, _⟩ := apply_eq_ok h
  refine Node.sketch_edited (fun c rebuilt n' s s' _ hedit => ?_) hrun
  rcases yields_edit.mp hedit with ⟨_, rfl, _⟩ | ⟨next, _, _, rfl, _⟩
  · rfl
  · exact withModifier_keeps hσ rfl

end AddFinal

end Restyle
