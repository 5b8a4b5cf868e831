-- SUMMARY: After the headers of loops were padded, nothing is left to pad.
import Restyle.Proofs.Rule.Passes

/-!
# Padded headers

A tree is settled for the padding of loop headers if no loop in it needs padding. Then the rule has
nothing to do (`ForHeader.apply_of_settled`). Its own result is settled
(`ForHeader.settled_of_apply`), and a settled tree stays settled as long as the text at empty nodes
does (`ForHeader.settled_of_alike`).
-/

namespace Restyle

namespace ForHeader

variable {R : Type} {policy : PadPolicy} {padding : String} {tree tree' : Node} {out : RuleOutput R}

/-- A tree whose loops are all padded as asked. -/
def Settled (policy : PadPolicy) (tree : Node) : Prop :=
  ∀ n ∈ tree.nodes, needsPadding policy.padding n = false

theorem apply_of_settled (h : Settled policy tree) :
    (apply policy tree : Except RuleError (RuleOutput R)) = .ok (.unchanged tree) := by
  let start : Session Unit := ⟨(), { rule := ruleName }⟩
  refine RuleOutput.ofSession_of_yields (s := start) (Cursor.yields_edited_self ?_)
  intro d hd
  have hquiet : needsPadding policy.padding d.node = false :=
    h d.node (Node.mem_nodes_of_mem_cursors hd)
  simp only [edit, hquiet, Bool.false_eq_true, if_false]
  exact yields_pure.mpr ⟨rfl, rfl⟩

theorem emptyInitializer?_of_tag_ne {n : Node} (h : n.tag ≠ .forLoop) :
    emptyInitializer? n = none := by
  cases hinit : emptyInitializer? n with
  | none => rfl
  | some init =>
    obtain ⟨_, _, _, _, hloop, _⟩ := emptyInitializer?_eq_some.mp hinit
    exact absurd (by rw [Node.tag, hloop]; rfl) h

theorem needsPadding_of_tag_ne {n : Node} (h : n.tag ≠ .forLoop) :
    needsPadding padding n = false := by
  simp [needsPadding, emptyInitializer?_of_tag_ne h]

/-! ## Trees that look alike -/

/-- The sketch that shows the text at empty nodes. -/
def view : Sketch := ⟨fun t => t == .empty, false, false⟩

theorem settled_of_alike (h : tree.Alike view tree') (hsettled : Settled policy tree) :
    Settled policy tree' := by
  refine h.forall_nodes (fun n hn => ?_) (fun n n' halike hn => ?_) hsettled
  · refine needsPadding_of_tag_ne fun hloop => ?_
    simp [Node.isPlace, hloop] at hn
  · cases hinit' : emptyInitializer? n' with
    | none => simp [needsPadding, hinit']
    | some init' =>
      obtain ⟨init, hinit, hsketch⟩ := emptyInitializer?_of_alike halike.symm hinit'
      obtain ⟨_, _, _, _, _, _, htag'⟩ := emptyInitializer?_eq_some.mp hinit'
      have htag : init.tag = .empty := by rw [← Node.tag_eq_of_sketch_eq hsketch, htag']
      have hformatting : init'.formatting = init.formatting := by
        have hdrawn := congrArg Node.formatting hsketch
        rw [Node.formatting_sketch, Node.formatting_sketch, htag, htag'] at hdrawn
        exact hdrawn
      simp only [needsPadding, hinit] at hn
      simp only [needsPadding, hinit', hformatting, hn]

/-! ## The result of the rule -/

theorem children_eq_nil_of_empty {n : Node} (h : n.tag = .empty) : n.children = [] := by
  cases hkind : n.kind with
  | empty => simp [Node.children, hkind, Kind.children]
  | _ => simp [Node.tag, hkind, Kind.tag] at h

/-- A header whose first clause is its only one and is left out. -/
def HasEmptyClause (control init : Node) : Prop :=
  ∃ condition update, control.kind = .forControl [init] condition update ∧ init.tag = .empty

theorem not_hasEmptyClause {n init : Node} (h : n.tag ≠ .forControl) : ¬HasEmptyClause n init := by
  rintro ⟨_, _, hkind, _⟩
  exact h (by rw [Node.tag, hkind]; rfl)

/-- What a session leaves at a cursor. The header of a loop keeps its clause until the loop itself
    is padded. -/
structure Leaves (padding : String) (c : Cursor) (n' : Node) : Prop where
  quiet : ∀ m ∈ n'.nodes, needsPadding padding m = false
  tag_eq : n'.tag = c.node.tag
  clause_iff : ∀ init, HasEmptyClause n' init ↔ HasEmptyClause c.node init
  eq_of_empty : c.node.tag = .empty → n' = c.node

theorem tag_pad (loop : Node) : (pad padding loop).tag = loop.tag := by
  unfold pad
  split
  · rename_i hloop
    split
    · rw [Node.tag, Node.tag, hloop]
      rfl
    · rfl
  · rfl

/-- A padded loop is padded as asked, and so is all below it. -/
theorem quiet_pad {loop init : Node} (hinit : emptyInitializer? loop = some init)
    (hbelow : ∀ child ∈ loop.children, ∀ m ∈ child.nodes, needsPadding padding m = false) :
    ∀ m ∈ (pad padding loop).nodes, needsPadding padding m = false := by
  obtain ⟨control, body, condition, update, hloop, hcontrol, htag⟩ :=
    emptyInitializer?_eq_some.mp hinit
  have hcontrolBelow := hbelow control (by simp [Node.children, hloop, Kind.children])
  have hbodyBelow := hbelow body (by simp [Node.children, hloop, Kind.children])
  let padded := init.withLead padding
  let header := control.withKind (.forControl [padded] condition update)
  have hpad : pad padding loop = loop.withKind (.forLoop header body) := by
    simp only [pad, hloop, hcontrol, header, padded]
  have hself : needsPadding padding (pad padding loop) = false := by
    have hpadded : emptyInitializer? (pad padding loop) = some padded := by
      rw [hpad]
      exact emptyInitializer?_eq_some.mpr ⟨header, body, condition, update, rfl, rfl, htag⟩
    simp [needsPadding, hpadded, padded, Node.withLead, Node.withFormatting, Formatting.withLead]
  have hleaf : padded.nodes = [padded] := by
    have hchildren : padded.children = [] := children_eq_nil_of_empty htag
    rw [Node.nodes_eq, hchildren]
    rfl
  have hheader : ∀ m ∈ header.nodes, needsPadding padding m = false := by
    intro m hm
    have hchildren : header.children = padded :: condition :: update := rfl
    rw [Node.nodes_eq, hchildren, List.flatMap_cons, hleaf] at hm
    rcases List.mem_cons.mp hm with rfl | hm
    · exact needsPadding_of_tag_ne (by simp [header, Node.tag, Node.withKind, Kind.tag])
    · rcases List.mem_append.mp hm with hm | hm
      · obtain rfl : m = padded := by simpa using hm
        have hempty : padded.tag = .empty := htag
        exact needsPadding_of_tag_ne (by simp [hempty])
      · obtain ⟨child, hchild, hm⟩ := List.mem_flatMap.mp hm
        refine hcontrolBelow m (Node.mem_nodes_of_mem_children ?_ hm)
        simpa [Node.children, hcontrol, Kind.children] using .inr (List.mem_cons.mp hchild)
  intro m hm
  have hchildren : (pad padding loop).children = [header, body] := by
    rw [hpad]
    rfl
  rw [Node.nodes_eq, hchildren] at hm
  simp only [List.mem_cons, List.flatMap_cons, List.flatMap_nil, List.append_nil,
    List.mem_append] at hm
  rcases hm with rfl | hm | hm
  · exact hself
  · exact hheader m hm
  · exact hbodyBelow m hm

section Rebuilt

variable {n : Node} {z : Kind (Node × Node)}

/-- A loop whose children were edited has left out its initializer as before. -/
theorem emptyInitializer?_rebuilt (hfst : z.map Prod.fst = n.kind)
    (hclause : ∀ p ∈ z.children, ∀ init, HasEmptyClause p.2 init ↔ HasEmptyClause p.1 init) :
    emptyInitializer? (n.rebuild (z.map Prod.snd)) = emptyInitializer? n := by
  by_cases htag : n.tag = .forLoop
  · cases z with
    | forLoop control body =>
      have hold : n.kind = .forLoop control.1 body.1 := hfst.symm
      have hnew : (n.rebuild (.forLoop control.2 body.2)).kind = .forLoop control.2 body.2 :=
        Node.kind_rebuild_of_tag_ne (by simp [Kind.tag])
      have hiff (loop control body init : Node) (hloop : loop.kind = .forLoop control body) :
          emptyInitializer? loop = some init ↔ HasEmptyClause control init := by
        simp [emptyInitializer?_eq_some, hloop, HasEmptyClause]
      ext init
      exact (hiff _ _ _ init hnew).trans
        ((hclause control (by simp [Kind.children]) init).trans (hiff _ _ _ init hold).symm)
    | _ => simp [Node.tag, ← hfst, Kind.map, Kind.tag] at htag
  · rw [emptyInitializer?_of_tag_ne htag, emptyInitializer?_of_tag_ne]
    rwa [Node.tag_rebuild_pairs hfst]

/-- A header whose clauses were edited has left out its clause as before. -/
theorem hasEmptyClause_rebuilt (hfst : z.map Prod.fst = n.kind)
    (htag : ∀ p ∈ z.children, p.2.tag = p.1.tag)
    (hempty : ∀ p ∈ z.children, p.1.tag = .empty → p.2 = p.1) (init : Node) :
    HasEmptyClause (n.rebuild (z.map Prod.snd)) init ↔ HasEmptyClause n init := by
  by_cases hcontrol : n.tag = .forControl
  · cases z with
    | forControl inits condition update =>
      have hold : n.kind = .forControl (inits.map Prod.fst) condition.1 (update.map Prod.fst) :=
        hfst.symm
      have hnew : (n.rebuild (.forControl (inits.map Prod.snd) condition.2
          (update.map Prod.snd))).kind =
            .forControl (inits.map Prod.snd) condition.2 (update.map Prod.snd) :=
        Node.kind_rebuild_of_tag_ne (by simp [Kind.tag])
      have hiff (control condition : Node) (inits update : List Node)
          (hkind : control.kind = .forControl inits condition update) :
          HasEmptyClause control init ↔ inits = [init] ∧ init.tag = .empty := by
        simp [HasEmptyClause, hkind]
      refine (hiff _ _ _ _ hnew).trans (Iff.trans ?_ (hiff _ _ _ _ hold).symm)
      simp only [List.map_eq_singleton_iff]
      constructor
      · rintro ⟨⟨p, rfl, rfl⟩, hp⟩
        have hmem : p ∈ Kind.children (.forControl [p] condition update) := by
          simp [Kind.children]
        rw [htag p hmem] at hp
        rw [hempty p hmem hp]
        exact ⟨⟨p, rfl, rfl⟩, hp⟩
      · rintro ⟨⟨p, rfl, rfl⟩, hp⟩
        have hmem : p ∈ Kind.children (.forControl [p] condition update) := by
          simp [Kind.children]
        exact ⟨⟨p, rfl, hempty p hmem hp⟩, hp⟩
    | _ => simp [Node.tag, ← hfst, Kind.map, Kind.tag] at hcontrol
  · refine iff_of_false (not_hasEmptyClause ?_) (not_hasEmptyClause hcontrol)
    rwa [Node.tag_rebuild_pairs hfst]

end Rebuilt

theorem leaves_of_yields {τ ε : Type} {c : Cursor} {n' : Node} {s s' : Session τ}
    (h : Yields (c.edited (edit padding : _ → _ → Edit τ ε Node)) s n' s') :
    Leaves padding c n' := by
  refine Cursor.edit_induct_pairs (P := Leaves padding) ?_ h
  intro c z n' s₁ s' hfst hpairs hyields
  have hpair (p : Node × Node) (hp : p ∈ z.children) : ∃ i, Leaves padding ⟨p.1, c.path, i⟩ p.2 := by
    obtain ⟨i, hi⟩ := List.getElem?_of_mem hp
    exact ⟨i, hpairs (p, i) (List.mem_zipIdx_iff_getElem?.mpr hi)⟩
  have hinit : emptyInitializer? (c.node.rebuild (z.map Prod.snd)) = emptyInitializer? c.node := by
    refine emptyInitializer?_rebuilt hfst fun p hp => ?_
    obtain ⟨_, hleaves⟩ := hpair p hp
    exact hleaves.clause_iff
  have hclause (init : Node) :
      HasEmptyClause (c.node.rebuild (z.map Prod.snd)) init ↔ HasEmptyClause c.node init := by
    refine hasEmptyClause_rebuilt hfst (fun p hp => ?_) (fun p hp => ?_) init
    · obtain ⟨_, hleaves⟩ := hpair p hp
      exact hleaves.tag_eq
    · obtain ⟨_, hleaves⟩ := hpair p hp
      exact hleaves.eq_of_empty
  have hbelow : ∀ child ∈ (c.node.rebuild (z.map Prod.snd)).children, ∀ m ∈ child.nodes,
      needsPadding padding m = false := by
    rw [Node.children_rebuild, Kind.children_map]
    intro child hchild
    obtain ⟨p, hp, rfl⟩ := List.mem_map.mp hchild
    obtain ⟨_, hleaves⟩ := hpair p hp
    exact hleaves.quiet
  unfold edit at hyields
  split at hyields
  · rename_i hneeds
    obtain ⟨rfl, _⟩ := Edit.yields_replace.mp hyields
    obtain ⟨init, hsome⟩ := exists_emptyInitializer hneeds
    have hloop : c.node.tag = .forLoop := by
      by_contra hother
      simp [needsPadding_of_tag_ne hother] at hneeds
    have htag : (pad padding (c.node.rebuild (z.map Prod.snd))).tag = c.node.tag := by
      rw [tag_pad, Node.tag_rebuild_pairs hfst]
    refine ⟨quiet_pad (hinit.trans hsome) hbelow, htag, fun init => ?_, ?_⟩
    · refine iff_of_false (not_hasEmptyClause ?_) (not_hasEmptyClause ?_)
      · simp [htag, hloop]
      · simp [hloop]
    · simp [hloop]
  · rename_i hquiet
    obtain ⟨rfl, _⟩ := yields_pure.mp hyields
    refine ⟨?_, Node.tag_rebuild_pairs hfst, hclause, ?_⟩
    · intro m hm
      rw [Node.nodes_eq] at hm
      rcases List.mem_cons.mp hm with rfl | hm
      · rw [needsPadding, hinit]
        simpa [needsPadding] using hquiet
      · obtain ⟨child, hchild, hm⟩ := List.mem_flatMap.mp hm
        exact hbelow child hchild m hm
    · intro hempty
      exact Node.rebuild_pairs_of_children_eq_nil hfst (children_eq_nil_of_empty hempty)

theorem settled_of_apply (h : apply policy tree = .ok out) : Settled policy out.tree := by
  obtain ⟨s, hrun, _, _⟩ := RuleOutput.ofSession_eq_ok h
  exact (leaves_of_yields hrun).quiet

end ForHeader

end Restyle
