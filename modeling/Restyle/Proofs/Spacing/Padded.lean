-- SUMMARY: The tree that the padding of loop headers leaves, as a function of the tree.
import Restyle.Proofs.Spacing.ForHeader
import Restyle.Proofs.Tree.Retouch
import Restyle.Proofs.Tree.Success

/-!
# Padded loops

`ForHeader.padded` pads the loops of a tree that need it. The rule always succeeds and computes it
(`ForHeader.exists_apply_padded`). Padding can be swapped with every change that leaves loops, their
headers and the text around empty initializers alone (`ForHeader.SparesLoops.padded_comm`).
-/

namespace Restyle

namespace ForHeader

variable {padding : String} {change : Node → Node} {text : NodeId → Formatting → Formatting}
variable {special : Tag → Bool}

/-! ## Padding and other changes -/

/-- A loop with something in the place of its initializer, and what stands there first. -/
structure StartsWith (loop first : Node) (control body : Node) (others : List Node)
    (condition : Node) (update : List Node) : Prop where
  loop : loop.kind = .forLoop control body
  header : control.kind = .forControl (first :: others) condition update

theorem StartsWith.pad_eq {r first control body condition : Node} {others update : List Node}
    (h : StartsWith r first control body others condition update) :
    pad padding r = r.withKind (.forLoop
      (control.withKind (.forControl (first.withLead padding :: others) condition update)) body) := by
  simp only [pad, h.loop, h.header]

/-- A loop that has left out its initializer starts with an empty node. -/
theorem StartsWith.of_emptyInitializer? {r init : Node} (h : emptyInitializer? r = some init) :
    init.tag = .empty ∧ ∃ control body condition update,
      StartsWith r init control body [] condition update := by
  obtain ⟨control, body, condition, update, hloop, hheader, htag⟩ := emptyInitializer?_eq_some.mp h
  exact ⟨htag, control, body, condition, update, hloop, hheader⟩

theorem StartsWith.eq_of_startsWith {r first control body condition : Node}
    {others update : List Node} {first' control' body' condition' : Node}
    {others' update' : List Node} (h : StartsWith r first control body others condition update)
    (h' : StartsWith r first' control' body' others' condition' update') :
    first = first' ∧ others = others' := by
  obtain ⟨rfl, rfl⟩ := Kind.forLoop.inj (h.loop.symm.trans h'.loop)
  obtain ⟨hinit, _, _⟩ := Kind.forControl.inj (h.header.symm.trans h'.header)
  exact List.cons.inj hinit

/-- Padding leaves all other nodes as they are. -/
theorem startsWith_or_pad_eq_self (padding : String) (r : Node) :
    (∃ first control body others condition update,
      StartsWith r first control body others condition update) ∨ pad padding r = r := by
  unfold pad
  split
  · rename_i control body hloop
    split
    · rename_i first others condition update hheader
      exact .inl ⟨first, control, body, others, condition, update, hloop, hheader⟩
    · exact .inr rfl
  · exact .inr rfl

/-- What a loop starts with after a change of its children is the changed start. -/
theorem StartsWith.of_map (h : Node.Retouches change text special)
    (hspecial : special .forControl = false) {r r' first control body condition : Node}
    {others update : List Node} (hkind : r'.kind = r.kind.map change)
    (hr : StartsWith r' first control body others condition update) :
    ∃ first₀ control₀ body₀ others₀ condition₀ update₀,
      StartsWith r first₀ control₀ body₀ others₀ condition₀ update₀ ∧ change first₀ = first ∧
        others₀.map change = others := by
  have hloop := hkind.symm.trans hr.loop
  cases hkind₀ : r.kind with
  | forLoop control₀ body₀ =>
    rw [hkind₀] at hloop
    obtain ⟨rfl, rfl⟩ := Kind.forLoop.inj hloop
    have htag := h.tag_eq control₀
    cases hheader : control₀.kind with
    | forControl init condition₀ update₀ =>
      have hinit := hr.header
      rw [h.kind_eq (by rw [Node.tag, hheader]; exact hspecial), hheader] at hinit
      obtain ⟨hinit, _, _⟩ := Kind.forControl.inj hinit
      obtain ⟨first₀, others₀, rfl, hfirst, hothers⟩ := List.map_eq_cons_iff.mp hinit
      exact ⟨first₀, control₀, body₀, others₀, condition₀, update₀, ⟨hkind₀, hheader⟩, hfirst,
        hothers⟩
    | _ => simp [Node.tag, hr.header, hheader, Kind.tag] at htag
  | _ => simp [hkind₀, Kind.map] at hloop

/-- Changes that leave loops and their headers alone. -/
structure SparesLoops (change : Node → Node) (text : NodeId → Formatting → Formatting)
    (special : Tag → Bool) : Prop extends Node.Retouches change text special where
  loop : special .forLoop = false
  header : special .forControl = false

namespace SparesLoops

variable (h : SparesLoops change text special)
include h

theorem forLoop {r control body : Node} (hr : r.kind = .forLoop control body) :
    change r = ⟨r.id, text r.id r.formatting, .forLoop (change control) (change body)⟩ := by
  rw [h.plain r (by rw [Node.tag, hr]; exact h.loop), hr]
  rfl

theorem forControl {r condition : Node} {init update : List Node}
    (hr : r.kind = .forControl init condition update) :
    change r = ⟨r.id, text r.id r.formatting,
      .forControl (init.map change) (change condition) (update.map change)⟩ := by
  rw [h.plain r (by rw [Node.tag, hr]; exact h.header), hr]
  rfl

theorem startsWith {r first control body condition : Node} {others update : List Node}
    (hr : StartsWith r first control body others condition update) :
    StartsWith (change r) (change first) (change control) (change body) (others.map change)
      (change condition) (update.map change) where
  loop := by rw [h.forLoop hr.loop]
  header := by rw [h.forControl hr.header]; rfl

/-- A loop that starts with something after the change did so before. -/
theorem of_startsWith {r first control body condition : Node} {others update : List Node}
    (hr : StartsWith (change r) first control body others condition update) :
    ∃ first₀ control₀ body₀ others₀ condition₀ update₀,
      StartsWith r first₀ control₀ body₀ others₀ condition₀ update₀ ∧ change first₀ = first ∧
        others₀.map change = others := by
  have htag : r.tag = .forLoop := by
    rw [← h.tag_eq, Node.tag, hr.loop]
    rfl
  exact hr.of_map h.toRetouches h.header (h.kind_eq (by rw [htag]; exact h.loop))

/-- The change can be moved past the padding of a single loop. -/
theorem pad_past {r : Node} (htext : ∀ first control body others condition update,
      StartsWith r first control body others condition update → ∀ f, text first.id f = f) :
    change (pad padding r) = pad padding (change r) := by
  by_cases hstarts : ∃ first control body others condition update,
      StartsWith r first control body others condition update
  · obtain ⟨first, control, body, others, condition, update, hr⟩ := hstarts
    rw [hr.pad_eq, h.forLoop rfl, h.forControl rfl, List.map_cons, h.withLead (htext _ _ _ _ _ _ hr),
      (h.startsWith hr).pad_eq, h.forLoop hr.loop, h.forControl hr.header]
    rfl
  · have hchanged : ¬∃ first control body others condition update,
        StartsWith (change r) first control body others condition update := by
      rintro ⟨_, _, _, _, _, _, hr⟩
      obtain ⟨_, _, _, _, _, _, hr, _⟩ := h.of_startsWith hr
      exact hstarts ⟨_, _, _, _, _, _, hr⟩
    rw [(startsWith_or_pad_eq_self padding r).resolve_left hstarts,
      (startsWith_or_pad_eq_self padding (change r)).resolve_left hchanged]

/-- An empty initializer is one after the change, and no other node becomes one. -/
theorem emptyInitializer?_eq (r : Node) :
    emptyInitializer? (change r) = (emptyInitializer? r).map change := by
  cases hinit : emptyInitializer? r with
  | some init =>
    obtain ⟨control, body, condition, update, hloop, hcontrol, htag⟩ :=
      emptyInitializer?_eq_some.mp hinit
    refine emptyInitializer?_eq_some.mpr ⟨change control, change body, change condition,
      update.map change, by rw [h.forLoop hloop], by rw [h.forControl hcontrol]; rfl, ?_⟩
    rw [h.tag_eq, htag]
  | none =>
    rw [Option.map_none, Option.eq_none_iff_forall_ne_some]
    intro init hsome
    obtain ⟨control, body, condition, update, hloop, hcontrol, htag⟩ :=
      emptyInitializer?_eq_some.mp hsome
    obtain ⟨first, control₀, body₀, others, condition₀, update₀, hr, rfl, hothers⟩ :=
      h.of_startsWith ⟨hloop, hcontrol⟩
    obtain rfl := List.map_eq_nil_iff.mp hothers
    have hfirst : emptyInitializer? r = some first := emptyInitializer?_eq_some.mpr
      ⟨control₀, body₀, condition₀, update₀, hr.loop, hr.header, by rw [← h.tag_eq, htag]⟩
    rw [hinit] at hfirst
    cases hfirst

/-- Whether a loop needs padding does not depend on the change, if it leaves the text around the
    initializer alone. -/
theorem needsPadding_eq {r : Node}
    (htext : ∀ init, emptyInitializer? r = some init → ∀ f, text init.id f = f) :
    needsPadding padding (change r) = needsPadding padding r := by
  unfold needsPadding
  rw [h.emptyInitializer?_eq]
  cases hinit : emptyInitializer? r with
  | none => rfl
  | some init => simp only [Option.map_some, h.formatting_eq, htext init hinit]

end SparesLoops

/-! ## Padded trees -/

/-- The tree with its loops padded as asked. -/
def padded (padding : String) : Node → Node :=
  Node.remake fun n r => if needsPadding padding n then pad padding r else r

theorem id_pad (r : Node) : (pad padding r).id = r.id := by
  rcases startsWith_or_pad_eq_self padding r with ⟨_, _, _, _, _, _, hr⟩ | hpad
  · rw [hr.pad_eq]
    rfl
  · rw [hpad]

theorem pad_of_tag_ne {r : Node} (h : r.tag ≠ .forLoop) : pad padding r = r := by
  refine (startsWith_or_pad_eq_self padding r).resolve_left ?_
  rintro ⟨_, _, _, _, _, _, hr⟩
  exact h (by rw [Node.tag, hr.loop]; rfl)

theorem pad_withFormatting (r : Node) (f : Formatting) :
    pad padding (r.withFormatting f) = (pad padding r).withFormatting f := by
  unfold pad
  rw [show (r.withFormatting f).kind = r.kind from rfl]
  split
  · split <;> rfl
  · rfl

theorem retouches_padded (padding : String) :
    Node.Retouches (padded padding) (fun _ f => f) fun t => t == .forLoop := by
  refine .remake ?_ ?_ ?_ ?_
  · intro n r
    split
    · exact id_pad r
    · rfl
  · intro n r
    split
    · exact tag_pad r
    · rfl
  · intro n r f
    have hneeds : needsPadding padding (n.withFormatting f) = needsPadding padding n := rfl
    rw [hneeds]
    split
    · exact pad_withFormatting r f
    · rfl
  · intro n r hr
    have hpad : pad padding r = r := pad_of_tag_ne (by simpa using hr)
    split
    · rw [hpad, Node.withFormatting_self]
    · rw [Node.withFormatting_self]

/-- At a node that the change treats plainly, it can be swapped with padding. -/
theorem SparesLoops.padded_comm (h : SparesLoops change text special) {n : Node}
    (hn : special n.tag = false)
    (htext : ∀ init, emptyInitializer? n = some init → ∀ f, text init.id f = f)
    (ih : ∀ child ∈ n.children, padded padding (change child) = change (padded padding child)) :
    padded padding (change n) = change (padded padding n) := by
  refine Node.remake_comm_of_plain h.toRetouches hn ?_ ?_ ih
  · funext r
    rw [h.needsPadding_eq htext]
  · split
    · rename_i hneeds
      refine h.pad_past ?_
      intro first control body others condition update hr
      obtain ⟨first₀, control₀, body₀, others₀, condition₀, update₀, hn₀, rfl, _⟩ :=
        hr.of_map (retouches_padded padding) rfl rfl
      obtain ⟨init, hinit⟩ := exists_emptyInitializer hneeds
      obtain ⟨_, _, _, _, _, hstarts⟩ := StartsWith.of_emptyInitializer? hinit
      -- What the loop starts with is its empty initializer.
      obtain ⟨rfl, _⟩ := hstarts.eq_of_startsWith hn₀
      rw [(retouches_padded padding).id_eq]
      exact htext init hinit
    · rfl

/-! ## The rule -/

theorem sparesLoops_unshared : SparesLoops Node.unshared (fun _ f => f) fun t => t == .typeParameters :=
  ⟨Node.retouches_unshared, rfl, rfl⟩

/-- The rule succeeds, and pads the loops of the tree. -/
theorem exists_apply_padded {R : Type} (policy : PadPolicy) (tree : Node) :
    ∃ out : RuleOutput R, apply policy tree = .ok out ∧ out.followUps = [] ∧
      out.tree.unshared = padded policy.padding tree.unshared := by
  have hsucceeds : ∀ d ∈ (Cursor.root tree).below, ∀ rebuilt (s : Session Unit), ∃ n' s',
      Yields (edit policy.padding d rebuilt : Edit Unit TreeError Node) s n' s' := by
    intro d _ rebuilt s
    unfold edit
    split
    · exact ⟨_, _, Edit.yields_replace.mpr ⟨rfl, rfl⟩⟩
    · exact ⟨_, _, yields_pure.mpr ⟨rfl, rfl⟩⟩
  obtain ⟨tree', s', hrun⟩ := Cursor.exists_yields_of_forall hsucceeds ⟨(), { rule := ruleName }⟩
  refine ⟨_, RuleOutput.ofSession_of_yields hrun, rfl, ?_⟩
  refine Cursor.unshared_edited ?_ hrun
  intro d _ rebuilt n' s s' _ _ hyields
  rw [sparesLoops_unshared.needsPadding_eq fun _ _ _ => rfl]
  unfold edit at hyields
  split at hyields
  · rename_i hneeds
    obtain ⟨rfl, _⟩ := Edit.yields_replace.mp hyields
    rw [if_pos hneeds]
    exact sparesLoops_unshared.pad_past fun _ _ _ _ _ _ _ _ => rfl
  · rename_i hneeds
    obtain ⟨rfl, _⟩ := yields_pure.mp hyields
    rw [if_neg hneeds]

end ForHeader

end Restyle
