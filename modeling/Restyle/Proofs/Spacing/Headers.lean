-- SUMMARY: Which loops the padding of headers changes, and that it touches spaces and tabs only.
import Restyle.Proofs.Spacing.Padded
import Restyle.Proofs.Tree.Ink

/-!
# Headers of loops

To pad a loop is to change the text before one node, two levels below the loop
(`ForHeader.StartsWith.pad_eq_changeAt`). So the rule changes the text before the initializers that
loops have left out, where it is plain, and nothing else (`ForHeader.reformatted_of_yields`), and
logs the loops for which that made a difference (`ForHeader.apply_pads_exactly`).
-/

namespace Restyle

/-! ## Nodes that hold the same -/

namespace Node.SameContents

variable {n n' : Node} (h : n.SameContents n')
include h

theorem forLoop {control body : Node} (hn : n.kind = .forLoop control body) :
    ∃ control' body', n'.kind = .forLoop control' body' := by
  have htag := h.tag_eq
  cases hkind : n'.kind with
  | forLoop control' body' => exact ⟨control', body', rfl⟩
  | _ => simp [tag, hn, hkind, Kind.tag] at htag

theorem forControl {init update : List Node} {condition : Node}
    (hn : n.kind = .forControl init condition update) :
    ∃ init' condition' update', n'.kind = .forControl init' condition' update' ∧
      init'.length = init.length := by
  have htag := h.tag_eq
  cases hkind : n'.kind with
  | forControl init' condition' update' =>
    have hids := h.kind_eq
    simp only [hn, hkind, Kind.unshared, Kind.map, Kind.forControl.injEq] at hids
    exact ⟨init', condition', update', rfl, by simpa using congrArg List.length hids.1⟩
  | _ => simp [tag, hn, hkind, Kind.tag] at htag

end Node.SameContents

namespace ForHeader

variable {R : Type} {padding : String} {c d : Cursor} {n' : Node}
variable {text : List Nat → Cursor → Formatting}
variable {r first control body condition : Node} {others update : List Node}

/-! ## One loop -/

/-- To pad a loop is to change the text before its first clause. -/
theorem StartsWith.pad_eq_changeAt (hr : StartsWith r first control body others condition update) :
    pad padding r =
      r.changeAt [0, 0] fun m => m.withFormatting (m.formatting.withLead padding) := by
  let change (m : Node) : Node := m.withFormatting (m.formatting.withLead padding)
  have hkept (l : List Node) : (l.map fun m => (m, m)).map Prod.fst = l ∧
      (l.map fun m => (m, m)).map Prod.snd = l := by
    simp [Function.comp_def]
  have hheader : control.changeAt [0] change =
      control.withKind (.forControl (first.withLead padding :: others) condition update) := by
    let z : Kind (Node × Node) := .forControl
      ((first, change first) :: others.map fun m => (m, m)) (condition, condition)
      (update.map fun m => (m, m))
    have hfst : z.map Prod.fst = control.kind := by
      rw [hr.header]
      simp [z, Kind.map, hkept]
    have hz : z.children = (first, first.changeAt [] change) ::
        (others ++ condition :: update).map fun m => (m, m) := by
      simp [z, Kind.children, Node.changeAt]
    have hsnd : z.map Prod.snd = .forControl (first.withLead padding :: others) condition update := by
      simp [z, Kind.map, hkept, change, Node.withLead]
    rw [Node.changeAt_zero_eq hfst hz, hsnd, Node.rebuild_of_tag_ne (by simp [Kind.tag])]
  let z : Kind (Node × Node) := .forLoop (control, control.changeAt [0] change) (body, body)
  have hfst : z.map Prod.fst = r.kind := hr.loop.symm
  have hz : z.children = (control, control.changeAt [0] change) :: [body].map fun m => (m, m) := rfl
  rw [Node.changeAt_zero_eq hfst hz, Node.rebuild_of_tag_ne (by simp [z, Kind.tag, Kind.map]),
    hr.pad_eq]
  simp only [z, Kind.map, hheader]

theorem StartsWith.getElem?_children
    (hr : StartsWith r first control body others condition update) :
    r.children[0]? = some control ∧ control.children[0]? = some first := by
  rw [Node.children, hr.loop, Node.children, hr.header]
  exact ⟨rfl, rfl⟩

theorem StartsWith.descend? (hc : StartsWith c.node first control body others condition update) :
    c.descend? [0, 0] = some ⟨first, control :: c.path, 0⟩ := by
  obtain ⟨hcontrol, hfirst⟩ := hc.getElem?_children
  exact Cursor.descend?_cons.mpr ⟨control, hcontrol, Cursor.descend?_cons.mpr ⟨first, hfirst, rfl⟩⟩

theorem StartsWith.of_needsPadding (h : needsPadding padding r = true) :
    ∃ init control body condition update,
      StartsWith r init control body [] condition update ∧ init.formatting.lead ≠ padding := by
  obtain ⟨init, hinit⟩ := exists_emptyInitializer h
  obtain ⟨_, control, body, condition, update, hr⟩ := StartsWith.of_emptyInitializer? hinit
  simp only [needsPadding, hinit, Bool.and_eq_true, bne_iff_ne] at h
  exact ⟨init, control, body, condition, update, hr, h.1⟩

/-- A reformatted loop starts with the same node, and with the given text around it. -/
theorem StartsWith.reformatted (h : c.Reformatted text n')
    (hc : StartsWith c.node first control body others condition update) :
    ∃ first' control' body' others' condition' update',
      StartsWith n' first' control' body' others' condition' update' ∧
        others'.length = others.length ∧ first'.tag = first.tag ∧
        first'.formatting = text [0, 0] ⟨first, control :: c.path, 0⟩ := by
  obtain ⟨hcontrol, hfirst⟩ := hc.getElem?_children
  obtain ⟨control', body', hloop'⟩ := h.sameContents.forLoop hc.loop
  obtain ⟨_, hget, hheader⟩ := h.child hcontrol
  rw [Node.children, hloop'] at hget
  obtain rfl := Option.some.inj hget
  obtain ⟨init', condition', update', hheader', hlength⟩ := hheader.sameContents.forControl hc.header
  obtain ⟨first', others', rfl⟩ := List.exists_cons_of_length_eq_add_one hlength
  obtain ⟨_, hget, hclause⟩ := hheader.child hfirst
  rw [Node.children, hheader'] at hget
  obtain rfl := Option.some.inj hget
  exact ⟨first', control', body', others', condition', update', ⟨hloop', hheader'⟩,
    Nat.succ.inj hlength, hclause.sameContents.tag_eq, hclause.formatting_eq⟩

/-- A node that is reformatted to a loop with an initializer was one. -/
theorem StartsWith.of_reformatted (h : c.Reformatted text n')
    (hr : StartsWith n' first control body others condition update) :
    ∃ first control body others condition update,
      StartsWith c.node first control body others condition update := by
  obtain ⟨control₀, body₀, hloop⟩ := h.sameContents.symm.forLoop hr.loop
  have hcontrol : c.node.children[0]? = some control₀ := by
    rw [Node.children, hloop]
    rfl
  obtain ⟨_, hget, hheader⟩ := h.child hcontrol
  rw [Node.children, hr.loop] at hget
  obtain rfl := Option.some.inj hget
  obtain ⟨init, condition₀, update₀, hheader, hlength⟩ :=
    hheader.sameContents.symm.forControl hr.header
  obtain ⟨first₀, others₀, rfl⟩ := List.exists_cons_of_length_eq_add_one hlength
  exact ⟨first₀, control₀, body₀, others₀, condition₀, update₀, ⟨hloop, hheader⟩⟩

/-- A reformatted loop has left out its initializer as before. -/
theorem isSome_emptyInitializer?_of_reformatted (h : c.Reformatted text n') :
    (emptyInitializer? n').isSome = (emptyInitializer? c.node).isSome := by
  rw [Bool.eq_iff_iff, Option.isSome_iff_exists, Option.isSome_iff_exists]
  constructor
  · rintro ⟨init', hinit'⟩
    obtain ⟨htag', _, _, _, _, hr⟩ := StartsWith.of_emptyInitializer? hinit'
    obtain ⟨init, control, body, others, condition, update, hc⟩ := hr.of_reformatted h
    obtain ⟨_, _, _, _, _, _, hr', hlength, htag, _⟩ := hc.reformatted h
    obtain ⟨rfl, rfl⟩ := hr'.eq_of_startsWith hr
    obtain rfl := List.eq_nil_of_length_eq_zero hlength.symm
    exact ⟨init, emptyInitializer?_eq_some.mpr
      ⟨control, body, condition, update, hc.loop, hc.header, htag.symm.trans htag'⟩⟩
  · rintro ⟨init, hinit⟩
    obtain ⟨htag, _, _, _, _, hc⟩ := StartsWith.of_emptyInitializer? hinit
    obtain ⟨init', control, body, others, condition, update, hr, hlength, htag', _⟩ :=
      hc.reformatted h
    obtain rfl := List.eq_nil_of_length_eq_zero hlength
    exact ⟨init', emptyInitializer?_eq_some.mpr
      ⟨control, body, condition, update, hr.loop, hr.header, htag'.trans htag⟩⟩

/-! ## The text that is left -/

/-- Whether the node at a cursor, at the end of a path, is the initializer that a loop has left out:
    it is the first clause in the header, and the header has an empty one only. -/
def atClause (path : List Nat) (c : Cursor) : Bool :=
  decide ([0, 0] <:+ path) && (c.ancestors[1]?.bind emptyInitializer?).isSome

/-- The text that the rule leaves around the node at a cursor. -/
def paddedText (padding : String) (path : List Nat) (c : Cursor) : Formatting :=
  if atClause path c && isPlain c.node.formatting.lead then c.node.formatting.withLead padding
  else c.node.formatting

theorem paddedText_cons {i : Nat} {path : List Nat} (h : i :: path ≠ [0, 0]) :
    paddedText padding (i :: path) d = paddedText padding path d := by
  have hsuffix : decide ([0, 0] <:+ i :: path) = decide ([0, 0] <:+ path) := by
    rw [decide_eq_decide, List.suffix_cons_iff, or_iff_right (Ne.symm h)]
  rw [paddedText, paddedText, atClause, atClause, hsuffix]

theorem paddedText_append (path : List Nat) :
    paddedText padding (path ++ [0, 0]) d = paddedText padding [0, 0] d := by
  simp [paddedText, atClause]

/-- What a path leads to through the header of a loop is the initializer that the loop has left out,
    if it has left out one. -/
theorem atClause_of_descend? (hd : c.descend? [0, 0] = some d) :
    atClause [0, 0] d = (emptyInitializer? c.node).isSome ∧
      ∀ init, emptyInitializer? c.node = some init → d.node = init := by
  obtain ⟨header, hheader, hd⟩ := Cursor.descend?_cons.mp hd
  obtain ⟨clause, hclause, hd⟩ := Cursor.descend?_cons.mp hd
  obtain rfl := Option.some.inj hd
  constructor
  · change atClause [0, 0] ⟨clause, [header, c.node] ++ c.ancestors, 0⟩ = _
    simp [atClause]
  · intro init hinit
    obtain ⟨_, control, body, condition, update, hc⟩ := StartsWith.of_emptyInitializer? hinit
    obtain ⟨hcontrol, hfirst⟩ := hc.getElem?_children
    obtain rfl := Option.some.inj (hcontrol.symm.trans hheader)
    exact Option.some.inj (hclause.symm.trans hfirst)

/-- The first clause of a header is padded if the loop needs it. -/
theorem paddedText_of_descend? (hd : c.descend? [0, 0] = some d) :
    paddedText padding [0, 0] d =
      if needsPadding padding c.node then d.node.formatting.withLead padding
      else d.node.formatting := by
  obtain ⟨hclause, hnode⟩ := atClause_of_descend? hd
  rw [paddedText, hclause]
  cases hinit : emptyInitializer? c.node with
  | none => simp [hinit, needsPadding]
  | some init =>
    obtain rfl := hnode init hinit
    by_cases hlead : d.node.formatting.lead = padding
    · have hsame : d.node.formatting.withLead padding = d.node.formatting := by rw [← hlead]; rfl
      simp [needsPadding, hinit, hsame]
    · simp [needsPadding, hinit, hlead]

/-! ## Sessions -/

theorem yields_edit {σ ε : Type} {rebuilt : Node} {s s' : Session σ} :
    Yields (edit padding c rebuilt : Edit σ ε Node) s n' s' ↔
      if needsPadding padding c.node then
        n' = pad padding rebuilt ∧ s' = { s with log := s.log.record c.node.id }
      else n' = rebuilt ∧ s' = s := by
  unfold edit
  split
  · rw [Edit.yields_replace, eq_comm, eq_comm (b := s')]
  · rw [yields_pure, eq_comm, eq_comm (b := s')]

/-- A session leaves all but the text before initializers that are left out. -/
theorem reformatted_of_yields {σ ε : Type} {s s' : Session σ}
    (h : Yields (c.edited (edit padding : _ → _ → Edit σ ε Node)) s n' s') :
    c.Reformatted (paddedText padding) n' := by
  refine Cursor.edit_induct_pairs (P := fun c n' => c.Reformatted (paddedText padding) n') ?_ h
  intro c z n' s₁ s' hfst hpairs hyields
  -- Below the header of a loop nothing is known of the loop, so its first clause is kept at first.
  let kept (path : List Nat) (d : Cursor) : Formatting :=
    if path = [0, 0] then d.node.formatting else paddedText padding path d
  have hbelow : ∀ p ∈ z.children.zipIdx,
      Cursor.Reformatted (fun path => kept (p.2 :: path)) ⟨p.1.1, c.path, p.2⟩ p.1.2 := by
    refine fun p hp => (hpairs p hp).congr fun path d _ => ?_
    by_cases hpath : p.2 :: path = [0, 0]
    · obtain ⟨_, rfl⟩ := List.cons.inj hpath
      have hshort : ¬[0, 0] <:+ [0] := by decide
      simp [kept, hpath, paddedText, atClause, hshort]
    · simp only [kept, hpath, if_false, paddedText_cons hpath]
  have hrebuilt : c.Reformatted kept (c.node.rebuild (z.map Prod.snd)) := by
    have hself : kept [] c = (c.node.rebuild (z.map Prod.snd)).formatting := by
      simp [kept, paddedText, atClause]
    have hformatted := Cursor.Reformatted.rebuild hfst hbelow
    rwa [hself, Node.withFormatting_self] at hformatted
  by_cases hneeds : needsPadding padding c.node = true
  · obtain ⟨rfl, _⟩ := (if_pos hneeds ▸ yields_edit.mp hyields :)
    obtain ⟨_, _, _, _, _, hc, _⟩ := StartsWith.of_needsPadding hneeds
    obtain ⟨_, _, _, _, _, _, hr, _⟩ := hc.reformatted hrebuilt
    rw [hr.pad_eq_changeAt]
    refine (hrebuilt.changeAt [0, 0] fun f => f.withLead padding).congr fun path d hd => ?_
    by_cases hpath : path = [0, 0]
    · subst hpath
      simp [kept, paddedText_of_descend? hd, hneeds]
    · simp only [kept, hpath, if_false]
  · obtain ⟨rfl, _⟩ := (if_neg hneeds ▸ yields_edit.mp hyields :)
    refine hrebuilt.congr fun path d hd => ?_
    by_cases hpath : path = [0, 0]
    · subst hpath
      simp [kept, paddedText_of_descend? hd, hneeds]
    · simp only [kept, hpath, if_false]

/-! ## The log -/

/-- The text before the first initializer of a loop. -/
def initializerLead? (loop : Node) : Option String :=
  match loop.kind with
  | .forLoop control _ =>
    match control.kind with
    | .forControl (first :: _) _ _ => some first.formatting.lead
    | _ => none
  | _ => none

theorem initializerLead?_eq_some {loop : Node} {lead : String} :
    initializerLead? loop = some lead ↔
      ∃ first control body others condition update,
        StartsWith loop first control body others condition update ∧
          first.formatting.lead = lead := by
  constructor
  · intro h
    unfold initializerLead? at h
    split at h
    · rename_i control body hloop
      split at h
      · rename_i first others condition update hheader
        exact ⟨first, control, body, others, condition, update, ⟨hloop, hheader⟩,
          Option.some.inj h⟩
      · cases h
    · cases h
  · rintro ⟨first, control, body, others, condition, update, hr, rfl⟩
    simp only [initializerLead?, hr.loop, hr.header]

theorem initializerLead?_eq_none {loop : Node} :
    initializerLead? loop = none ↔ ¬∃ first control body others condition update,
      StartsWith loop first control body others condition update := by
  rw [Option.eq_none_iff_forall_ne_some]
  constructor
  · rintro h ⟨first, control, body, others, condition, update, hr⟩
    exact h _ (initializerLead?_eq_some.mpr ⟨_, _, _, _, _, _, hr, rfl⟩)
  · intro h lead hlead
    obtain ⟨_, _, _, _, _, _, hr, _⟩ := initializerLead?_eq_some.mp hlead
    exact h ⟨_, _, _, _, _, _, hr⟩

/-- A loop needs padding exactly if the text before its initializer becomes another one. -/
theorem needsPadding_eq_of_reformatted {path : List Nat}
    (h : d.Reformatted (fun path' => paddedText padding (path ++ path')) n') :
    needsPadding padding d.node = (initializerLead? d.node != initializerLead? n') := by
  by_cases hstarts : ∃ first control body others condition update,
      StartsWith d.node first control body others condition update
  · obtain ⟨first, control, body, others, condition, update, hd⟩ := hstarts
    obtain ⟨first', _, _, _, _, _, hr, _, _, hformatting⟩ := hd.reformatted h
    rw [paddedText_append, paddedText_of_descend? hd.descend?] at hformatting
    rw [initializerLead?_eq_some.mpr ⟨_, _, _, _, _, _, hd, rfl⟩,
      initializerLead?_eq_some.mpr ⟨_, _, _, _, _, _, hr, rfl⟩, hformatting]
    cases hneeds : needsPadding padding d.node with
    | true =>
      obtain ⟨init, _, _, _, _, hinit, hlead⟩ := StartsWith.of_needsPadding hneeds
      obtain ⟨rfl, _⟩ := hinit.eq_of_startsWith hd
      simp [Formatting.withLead, hlead]
    | false => simp
  · have hnone : initializerLead? n' = none := by
      rw [initializerLead?_eq_none]
      rintro ⟨_, _, _, _, _, _, hr⟩
      exact hstarts (hr.of_reformatted h)
    have hquiet : needsPadding padding d.node = false := by
      by_contra hneeds
      obtain ⟨_, _, _, _, _, hd, _⟩ := StartsWith.of_needsPadding (Bool.not_eq_false _ ▸ hneeds)
      exact hstarts ⟨_, _, _, _, _, _, hd⟩
    rw [hnone, initializerLead?_eq_none.mpr hstarts, hquiet]
    rfl

/-- Equal tests filter corresponding lists alike. -/
theorem map_fst_filter_zip {α β : Type} {p : α → Bool} {q : α × β → Bool} {l : List α} {l' : List β}
    (h : List.Forall₂ (fun a b => p a = q (a, b)) l l') :
    ((l.zip l').filter q).map Prod.fst = l.filter p := by
  induction h with
  | nil => rfl
  | @cons a b l l' hab _ ih =>
    rw [List.zip_cons_cons, List.filter_cons, List.filter_cons, ← hab, ← ih]
    cases p a <;> rfl

/-- The loops whose first initializer has other text before it in the other tree, children first. -/
def padLog (tree tree' : Node) : List Transform :=
  ((tree.postorder.zip tree'.postorder).filter fun p =>
    initializerLead? p.1 != initializerLead? p.2).map fun p => ⟨ruleName, p.1.id⟩

theorem transforms_of_yields {σ ε : Type} {s s' : Session σ} (hlog : s.log = { rule := ruleName })
    (h : Yields (c.edited (edit padding : _ → _ → Edit σ ε Node)) s n' s') :
    s'.log.entries = padLog c.node n' := by
  have hedit (d : Cursor) (rebuilt n' : Node) (s s' : Session σ)
      (h : Yields (edit padding d rebuilt : Edit σ ε Node) s n' s') :
      s'.log = if needsPadding padding d.node then s.log.record d.node.id else s.log := by
    have hyields := yields_edit.mp h
    split at hyields
    · rw [hyields.2, if_pos ‹_›]
    · rw [hyields.2, if_neg ‹_›]
  have hreformatted := reformatted_of_yields h
  have hchanged : List.Forall₂ (fun d m => needsPadding padding d =
      (initializerLead? d != initializerLead? m)) c.node.postorder n'.postorder := by
    rw [← c.map_node_postorder, List.forall₂_map_left_iff]
    refine hreformatted.forall₂_postorder.imp fun d m hdm => ?_
    obtain ⟨path, hd, hm⟩ := hdm
    exact needsPadding_eq_of_reformatted (hreformatted.descend hd hm)
  have hpadded := map_fst_filter_zip (q := fun p => initializerLead? p.1 != initializerLead? p.2)
    hchanged
  rw [Cursor.log_of_edited hedit h, hlog, TransformLog.entries_foldl_record, padLog]
  calc (c.postorder.filter fun d => needsPadding padding d.node).map
        (fun d => (⟨ruleName, d.node.id⟩ : Transform))
    _ = (c.node.postorder.filter (needsPadding padding)).map fun m => ⟨ruleName, m.id⟩ := by
        rw [← c.map_node_postorder, List.filter_map, List.map_map]
        rfl
    _ = _ := by
        rw [← hpadded, List.map_map]
        rfl

/-! ## The rule -/

/-- Spaces and tabs. -/
def isSpaceOrTab (ch : Char) : Bool := ch == ' ' || ch == '\t'

theorem ink_of_isPlain {lead : String} (h : isPlain lead = true) : ink isSpaceOrTab lead = [] := by
  rw [ink, List.filter_eq_nil_iff]
  intro ch hch
  have hplain : isSpaceOrTab ch = true := List.all_eq_true.mp h ch hch
  simp [hplain]

theorem isPlain_padding (policy : PadPolicy) : isPlain policy.padding = true := by
  cases policy <;> decide

theorem sameInk_paddedText (policy : PadPolicy) (c : Cursor) :
    c.SameInk isSpaceOrTab (paddedText policy.padding) := by
  intro path d _
  unfold paddedText
  split
  · rename_i hclause
    obtain ⟨_, hplain⟩ := (Bool.and_eq_true _ _ ▸ hclause :)
    exact ⟨(ink_of_isPlain (isPlain_padding policy)).trans (ink_of_isPlain hplain).symm, rfl⟩
  · exact ⟨rfl, rfl⟩

/-- A path that leads to the initializer that a loop has left out. -/
def IsClause (tree : Node) (path : List Nat) : Prop :=
  ∃ loopPath loop, path = loopPath ++ [0, 0] ∧ tree.at? loopPath = some loop ∧
    (emptyInitializer? loop).isSome

theorem isClause_iff {tree : Node} {path : List Nat}
    (hd : (Cursor.root tree).descend? path = some d) :
    IsClause tree path ↔ atClause path d = true := by
  have happend (loopPath : List Nat) : atClause (loopPath ++ [0, 0]) d = atClause [0, 0] d := by
    simp [atClause]
  constructor
  · rintro ⟨loopPath, loop, rfl, hloop, hinit⟩
    obtain ⟨c, hc, hd⟩ := Cursor.descend?_append.mp hd
    obtain ⟨_, hc', rfl⟩ := Node.at?_eq_some.mp hloop
    obtain rfl := Option.some.inj (hc.symm.trans hc')
    rw [happend, (atClause_of_descend? hd).1, hinit]
  · intro h
    obtain ⟨loopPath, rfl⟩ := of_decide_eq_true (Bool.and_eq_true_iff.mp h).1
    obtain ⟨c, hc, hd⟩ := Cursor.descend?_append.mp hd
    rw [happend, (atClause_of_descend? hd).1] at h
    exact ⟨loopPath, c.node, rfl, Node.at?_eq_some.mpr ⟨c, hc, rfl⟩, h⟩

theorem IsClause.tag_eq {tree n : Node} {path : List Nat} (h : IsClause tree path)
    (hn : tree.at? path = some n) : n.tag = .empty := by
  obtain ⟨loopPath, loop, rfl, hloop, hinit⟩ := h
  obtain ⟨init, hinit⟩ := Option.isSome_iff_exists.mp hinit
  obtain ⟨d, hd, rfl⟩ := Node.at?_eq_some.mp hn
  obtain ⟨c, hc, hd⟩ := Cursor.descend?_append.mp hd
  obtain ⟨_, hc', rfl⟩ := Node.at?_eq_some.mp hloop
  obtain rfl := Option.some.inj (hc.symm.trans hc')
  rw [(atClause_of_descend? hd).2 init hinit]
  exact (StartsWith.of_emptyInitializer? hinit).1

/-- The initializers that are left out stand in the same places. -/
theorem isClause_iff_of_reformatted {tree tree' n : Node} {path : List Nat}
    (h : (Cursor.root tree).Reformatted text tree') (hn : tree.at? path = some n) :
    IsClause tree' path ↔ IsClause tree path := by
  constructor
  · rintro ⟨loopPath, loop', rfl, hloop', hinit⟩
    obtain ⟨d, hd, _⟩ := Node.at?_eq_some.mp hn
    obtain ⟨c, hc, _⟩ := Cursor.descend?_append.mp hd
    have hsame := isSome_emptyInitializer?_of_reformatted (h.descend hc hloop')
    exact ⟨loopPath, c.node, rfl, Node.at?_eq_some.mpr ⟨c, hc, rfl⟩, hsame.symm.trans hinit⟩
  · rintro ⟨loopPath, loop, rfl, hloop, hinit⟩
    obtain ⟨c, hc, rfl⟩ := Node.at?_eq_some.mp hloop
    obtain ⟨loop', hloop', _⟩ := h loopPath c hc
    have hsame := isSome_emptyInitializer?_of_reformatted (h.descend hc hloop')
    exact ⟨loopPath, loop', rfl, hloop', hsame.trans hinit⟩

/-- The rule succeeds. It changes spaces and tabs only, and only those before the initializers that
    loops have left out: where there is nothing else, it leaves the padding. It logs the loops for
    which that made a difference, children first. -/
theorem apply_pads_exactly (policy : PadPolicy) (tree : Node) :
    ∃ out : RuleOutput R, apply policy tree = .ok out ∧
      ink isSpaceOrTab out.tree.print = ink isSpaceOrTab tree.print ∧
      (∀ path n, tree.at? path = some n →
        ∃ n', out.tree.at? path = some n' ∧ n.SameContents n' ∧
          n'.formatting.trail = n.formatting.trail ∧
          (IsClause out.tree path ↔ IsClause tree path) ∧
          (¬IsClause tree path → n'.formatting.lead = n.formatting.lead) ∧
          (IsClause tree path → n.tag = .empty ∧
            (isPlain n.formatting.lead = true ∧ n'.formatting.lead = policy.padding ∨
              isPlain n.formatting.lead = false ∧ n'.formatting.lead = n.formatting.lead))) ∧
      out.transforms = padLog tree out.tree := by
  obtain ⟨out, hout, _, _⟩ := exists_apply_padded (R := R) policy tree
  obtain ⟨s, hrun, hlog, _⟩ := RuleOutput.ofSession_eq_ok hout
  have hreformatted := reformatted_of_yields hrun
  have hsame := sameInk_paddedText policy (.root tree)
  refine ⟨out, hout, ?_, fun path n hn => ?_, hlog.trans (transforms_of_yields rfl hrun)⟩
  · exact (hreformatted.thins hsame.noMoreInk).eq_iff.mpr hsame
  · obtain ⟨d, hd, rfl⟩ := Node.at?_eq_some.mp hn
    obtain ⟨n', hn', hcontents, hformatting⟩ := hreformatted path d hd
    refine ⟨n', hn', hcontents, ?_, isClause_iff_of_reformatted hreformatted hn, fun h => ?_,
      fun h => ⟨h.tag_eq hn, ?_⟩⟩
    · rw [hformatting, paddedText]
      split <;> rfl
    · rw [isClause_iff hd, Bool.not_eq_true] at h
      simp [hformatting, paddedText, h]
    · rw [isClause_iff hd] at h
      cases hplain : isPlain d.node.formatting.lead <;>
        simp [hformatting, paddedText, h, hplain, Formatting.withLead]

/-- `for( ;;) for(/*none*/;;) {}`, of which only the outer loop can be padded. -/
def nested : Node :=
  let header (id : NodeId) (init : String) : Node :=
    ⟨id, {}, .forControl [⟨id + 1, .leading init, .empty⟩] ⟨id + 2, {}, .empty⟩ []⟩
  let inner : Node := ⟨4, .leading " ", .forLoop (header 5 "/*none*/")
    ⟨8, .leading " ", .block [] ""⟩⟩
  ⟨0, {}, .forLoop (header 1 " ") inner⟩

theorem apply_pads_exactly_nested :
    ∃ out : RuleOutput Rule, apply .noSpace nested = .ok out ∧
      (∃ n', out.tree.at? [0, 0] = some n' ∧ n'.formatting.lead = "") ∧
      ∃ n', out.tree.at? [1, 0, 0] = some n' ∧ n'.formatting.lead = "/*none*/" := by
  obtain ⟨out, hout, -, hnodes, -⟩ := apply_pads_exactly (R := Rule) .noSpace nested
  have houter : IsClause nested [0, 0] := ⟨[], _, rfl, rfl, by decide⟩
  have hinner : IsClause nested [1, 0, 0] := ⟨[1], _, rfl, rfl, by decide⟩
  refine ⟨out, hout, ?_, ?_⟩
  · obtain ⟨n', hn', -, -, -, -, hclause⟩ := hnodes [0, 0] _ rfl
    obtain ⟨-, ⟨-, hlead⟩ | ⟨hink, -⟩⟩ := hclause houter
    · exact ⟨n', hn', hlead⟩
    · exact absurd hink (by decide)
  · obtain ⟨n', hn', -, -, -, -, hclause⟩ := hnodes [1, 0, 0] _ rfl
    obtain ⟨-, ⟨hplain, -⟩ | ⟨-, hlead⟩⟩ := hclause hinner
    · exact absurd hplain (by decide)
    · exact ⟨n', hn', hlead⟩

end ForHeader

end Restyle
