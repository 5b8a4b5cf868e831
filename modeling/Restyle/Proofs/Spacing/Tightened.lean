-- SUMMARY: Where the trimming of type parameter lists fails, and the text that it leaves.
import Restyle.Proofs.Rule.Passes
import Restyle.Proofs.Tree.Failure
import Restyle.Proofs.Tree.Paths
import Restyle.Tree.Print

/-!
# Tightened type parameter lists

What an edit does to a node can be told from the place of the node alone: it fails at a parameter
that stands in no list (`TypeParameterList.raises_edit`), and everywhere else it leaves a certain
text (`TypeParameterList.yields_edit`). So the rule fails at the first such parameter in post-order,
and else changes the text at the brackets of lists and nothing more
(`TypeParameterList.apply_tightens_exactly`).
-/

namespace Restyle

namespace TypeParameterList

variable {R : Type} {tree : Node} {c d : Cursor}

/-! ## Positions -/

/-- A parameter that stands in no list. -/
def misplaced (c : Cursor) : Bool :=
  c.node.tag == .typeParameter && c.parent?.all fun parent => parent.tag != .typeParameters

theorem misplaced_of_tag_ne (h : c.node.tag ≠ .typeParameter) : misplaced c = false := by
  rw [misplaced, beq_false_of_ne h, Bool.false_and]

/-- What is reported of a parameter that stands in no list. -/
def misplacement (c : Cursor) : TreeError :=
  match c.parent? with
  | none => .missingAncestor c.node.id "parent"
  | some parent => .unexpectedParent c.node.id .typeParameters parent.tag

theorem positionOf_eq_ok {position : Bool × Bool} :
    positionOf c = .ok position ↔
      ∃ parent params repeats, c.parent? = some parent ∧
        parent.kind = .typeParameters params repeats ∧
        position = (Repeats.sameAt params repeats c.index 0,
          Repeats.sameAt params repeats c.index (params.length - 1)) := by
  unfold positionOf Cursor.parent
  cases hparent : c.parent? with
  | none => simp [bind, Except.bind]
  | some parent =>
    cases hkind : parent.kind <;>
      simp [bind, Except.bind, hkind, pure, Except.pure, throw, throwThe, MonadExceptOf.throw,
        eq_comm]

theorem positionOf_eq_error {e : TreeError} :
    positionOf c = .error e ↔
      (c.parent?.all fun parent => parent.tag != .typeParameters) = true ∧ misplacement c = e := by
  unfold positionOf Cursor.parent misplacement
  cases hparent : c.parent? with
  | none => simp [bind, Except.bind]
  | some parent =>
    cases hkind : parent.kind <;>
      simp [bind, Except.bind, hkind, pure, Except.pure, throw, throwThe, MonadExceptOf.throw,
        Node.tag, Kind.tag]

theorem tightened_eq (isFirst isLast : Bool) (f : Formatting) :
    tightened isFirst isLast f =
      ⟨if isFirst then "" else f.lead, if isLast then "" else f.trail⟩ := by
  cases isFirst <;> cases isLast <;> rfl

theorem tightened_eq_self {isFirst isLast : Bool} {f : Formatting} :
    tightened isFirst isLast f = f ↔
      (isFirst = true → f.lead = "") ∧ (isLast = true → f.trail = "") := by
  obtain ⟨lead, trail⟩ := f
  cases isFirst <;> cases isLast <;> simp [tightened_eq, eq_comm]

theorem tightened_tightened (isFirst isLast : Bool) (f : Formatting) :
    tightened isFirst isLast (tightened isFirst isLast f) = tightened isFirst isLast f := by
  cases isFirst <;> cases isLast <;> rfl

/-! ## Edits -/

/-- What an edit leaves of the text around the node at a cursor. -/
def left (c : Cursor) (f : Formatting) : Formatting :=
  match c.node.tag with
  | .typeParameters => if c.parent?.any fun n => n.tag == .methodDecl then f else {}
  | .typeParameter =>
    match positionOf c with
    | .ok (isFirst, isLast) => tightened isFirst isLast f
    | .error _ => f
  | _ => f

theorem left_of_positionOf {isFirst isLast : Bool} (htag : c.node.tag = .typeParameter)
    (h : positionOf c = .ok (isFirst, isLast)) (f : Formatting) :
    left c f = tightened isFirst isLast f := by
  simp only [left, htag, h]

theorem left_of_list (htag : c.node.tag = .typeParameters) (f : Formatting) :
    left c f = if c.parent?.any fun n => n.tag == .methodDecl then f else {} := by
  simp only [left, htag]

theorem left_of_tag_ne (hlist : c.node.tag ≠ .typeParameters)
    (hparameter : c.node.tag ≠ .typeParameter) (f : Formatting) : left c f = f := by
  unfold left
  split
  · exact absurd ‹_› hlist
  · exact absurd ‹_› hparameter
  · rfl

theorem eq_empty_of_isEmpty {f : Formatting} (h : f.isEmpty = true) : f = {} := by
  obtain ⟨lead, trail⟩ := f
  simpa [Formatting.isEmpty] using h

section Edit

variable {σ : Type} {rebuilt n' : Node} {s s' : Session σ} {e : TreeError}

/-- An edit fails at a parameter that stands in no list. Else it changes the text around the node,
    if that makes a difference. -/
theorem edit_eq (c : Cursor) (rebuilt : Node) :
    (edit c rebuilt : Edit σ TreeError Node) =
      if misplaced c then throw (misplacement c)
      else if left c c.node.formatting = c.node.formatting then pure rebuilt
      else Edit.replace c.node (rebuilt.withFormatting (left c rebuilt.formatting)) := by
  unfold edit
  split
  · rename_i htag
    have hplaced : misplaced c = false := misplaced_of_tag_ne (by simp [htag])
    simp only [editList, hplaced, Bool.false_eq_true, if_false, left_of_list htag]
    cases hmethod : c.parent?.any fun n => n.tag == .methodDecl with
    | true => simp
    | false =>
      have hempty : ({} : Formatting) = c.node.formatting ↔ c.node.formatting.isEmpty = true :=
        ⟨fun h => by rw [← h]; rfl, fun h => (eq_empty_of_isEmpty h).symm⟩
      cases hformatting : c.node.formatting.isEmpty <;> simp [hempty, hformatting]
  · rename_i htag
    unfold editParameter
    cases hposition : positionOf c with
    | error e =>
      obtain ⟨hparent, rfl⟩ := positionOf_eq_error.mp hposition
      have hmisplaced : misplaced c = true := by simp [misplaced, htag, hparent]
      simp only [hmisplaced, if_true]
      rfl
    | ok position =>
      obtain ⟨isFirst, isLast⟩ := position
      obtain ⟨parent, _, _, hparent, hkind, _⟩ := positionOf_eq_ok.mp hposition
      have hplaced : misplaced c = false := by
        simp [misplaced, hparent, Node.tag, hkind, Kind.tag]
      simp only [hplaced, Bool.false_eq_true, if_false, left_of_positionOf htag hposition]
      have hread : (MonadExcept.ofExcept (.ok (isFirst, isLast)) : Edit σ TreeError (Bool × Bool)) =
          pure (isFirst, isLast) := rfl
      rw [hread, pure_bind]
      by_cases hkept : tightened isFirst isLast c.node.formatting = c.node.formatting
      · simp [hkept]
      · simp [hkept]
  · rename_i hlist hparameter
    simp [misplaced_of_tag_ne hparameter, left_of_tag_ne hlist hparameter]

theorem yields_edit :
    Yields (edit c rebuilt) s n' s' ↔
      misplaced c = false ∧
        if left c c.node.formatting = c.node.formatting then n' = rebuilt ∧ s' = s
        else n' = rebuilt.withFormatting (left c rebuilt.formatting) ∧
          s' = { s with log := s.log.record c.node.id } := by
  rw [edit_eq]
  cases misplaced c with
  | true =>
    simp only [if_true, Bool.true_eq_false, false_and, iff_false]
    intro h
    exact not_raises_of_yields h ⟨s, rfl⟩
  | false =>
    simp only [Bool.false_eq_true, if_false, true_and]
    split
    · rw [yields_pure, eq_comm, eq_comm (a := s)]
    · rw [Edit.yields_replace, eq_comm, eq_comm (b := s')]

theorem raises_edit :
    Raises (edit c rebuilt) s e ↔
      (if misplaced c then some (misplacement c) else none) = some e := by
  rw [edit_eq]
  cases misplaced c with
  | true =>
    simp only [if_true, Option.some.injEq]
    exact raises_throw
  | false =>
    refine iff_of_false ?_ (by simp)
    simp only [Bool.false_eq_true, if_false]
    split
    · exact not_raises_pure
    · exact not_raises_of_yields (Edit.yields_replace.mpr ⟨rfl, rfl⟩)

theorem eq_of_yields_edit (hformatting : rebuilt.formatting = c.node.formatting)
    (h : Yields (edit c rebuilt) s n' s') :
    n' = rebuilt.withFormatting (left c c.node.formatting) := by
  obtain ⟨_, h⟩ := yields_edit.mp h
  split at h
  · rename_i hkept
    rw [h.1, hkept, ← hformatting, Node.withFormatting_self]
  · rw [h.1, hformatting]

end Edit

/-! ## Lists of distinct parameters -/

/-- A tree in which no list holds one node at two places. -/
def DistinctParameters (tree : Node) : Prop :=
  ∀ n ∈ tree.nodes, ∀ params repeats, n.kind = .typeParameters params repeats →
    ∀ i j, i < params.length → j < params.length →
      Repeats.sameAt params repeats i j = true → i = j

theorem DistinctParameters.of_distinctIds (hids : tree.DistinctIds) : DistinctParameters tree := by
  intro n hn params repeats hkind i j hi hj hsame
  obtain ⟨c, hc, rfl⟩ := List.mem_map.mp hn
  have hchildren : c.node.children = params := by
    rw [Node.children, hkind]
    rfl
  have hget (k : Nat) (hk : k < params.length) : c.node.children[k]? = some params[k] := by
    rw [hchildren, List.getElem?_eq_getElem hk]
  simp only [Repeats.sameAt, Bool.or_eq_true, beq_iff_eq, Bool.and_eq_true] at hsame
  rcases hsame with heq | ⟨_, hid⟩
  · exact heq
  · rw [List.getElem?_eq_getElem hi, List.getElem?_eq_getElem hj] at hid
    exact hids.index_eq hc (hget i hi) (hget j hj) (Option.some.inj hid)

/-- The position of a parameter in a list of distinct ones is that of its place. -/
theorem positionOf_of_mem_children (h : DistinctParameters tree) (hc : c ∈ tree.cursors)
    (hd : d ∈ c.children) (hlist : c.node.tag = .typeParameters) :
    positionOf d = .ok (d.index = 0, d.index + 1 = c.node.children.length) := by
  cases hkind : c.node.kind with
  | typeParameters params repeats =>
    have hchildren : c.node.children = params := by rw [Node.children, hkind]; rfl
    obtain ⟨hget, hanc⟩ := Cursor.mem_children.mp hd
    rw [hchildren] at hget
    have hlt := (List.getElem?_eq_some_iff.mp hget).1
    have hsame (j : Nat) (hj : j < params.length) :
        Repeats.sameAt params repeats d.index j = decide (d.index = j) := by
      rw [Bool.eq_iff_iff, decide_eq_true_iff]
      constructor
      · exact h c.node (Node.mem_nodes_of_mem_cursors hc) params repeats hkind _ _ hlt hj
      · rintro rfl
        simp [Repeats.sameAt]
    refine positionOf_eq_ok.mpr ⟨c.node, params, repeats, ?_, hkind, ?_⟩
    · simp [Cursor.parent?, hanc, Cursor.path]
    · have hlast : d.index + 1 = c.node.children.length ↔ d.index = params.length - 1 := by
        rw [hchildren]
        omega
      rw [hsame 0 (by omega), hsame (params.length - 1) (by omega)]
      simp only [hlast]
  | _ => simp [Node.tag, hkind, Kind.tag] at hlist

/-! ## The rule -/

/-- The text around the node at a cursor without what stands at the brackets of a list: a list has
    text around it on a method only, its first parameter has none before it and its last parameter
    none behind it. -/
def tightText (c : Cursor) : Formatting :=
  match c.node.tag, c.parent? with
  | .typeParameters, none => {}
  | .typeParameters, some parent => if parent.tag = .methodDecl then c.node.formatting else {}
  | .typeParameter, some list =>
    ⟨if c.index = 0 then "" else c.node.formatting.lead,
      if c.index + 1 = list.children.length then "" else c.node.formatting.trail⟩
  | _, _ => c.node.formatting

theorem left_eq_tightText (h : DistinctParameters tree) (hc : c ∈ tree.cursors)
    (hplaced : misplaced c = false) : left c c.node.formatting = tightText c := by
  unfold tightText
  split
  · rename_i hlist hparent
    simp [left_of_list hlist, hparent]
  · rename_i parent hlist hparent
    simp [left_of_list hlist, hparent]
  · rename_i list hparameter hparent
    have hlist : list.tag = .typeParameters := by
      simpa [misplaced, hparameter, hparent] using hplaced
    rcases Node.eq_root_or_mem_children hc with rfl | ⟨p, hp, hcp⟩
    · cases hparent
    · obtain ⟨_, hanc⟩ := Cursor.mem_children.mp hcp
      obtain rfl : p.node = list := by simpa [Cursor.parent?, hanc, Cursor.path] using hparent
      rw [left_of_positionOf hparameter (positionOf_of_mem_children h hp hcp hlist)]
      simp only [tightened_eq, decide_eq_true_eq]
  · rename_i hroot hinner hparameter
    by_cases htag : c.node.tag = .typeParameters
    · cases hparent : c.parent? with
      | none => exact absurd hparent (hroot htag)
      | some parent => exact absurd hparent (hinner parent htag)
    · by_cases htag' : c.node.tag = .typeParameter
      · cases hparent : c.parent? with
        | none => simp [misplaced, htag', hparent] at hplaced
        | some parent => exact absurd hparent (hparameter parent htag')
      · exact left_of_tag_ne htag htag' _

/-- A session leaves all but the text around nodes. -/
theorem reformatted_of_yields {σ : Type} {n' : Node} {s s' : Session σ}
    (h : Yields (c.edited edit) s n' s') :
    c.Reformatted (fun _ d => left d d.node.formatting) n' := by
  refine Cursor.edit_induct_pairs
    (P := fun c n' => c.Reformatted (fun _ d => left d d.node.formatting) n') ?_ h
  intro c z n' s₁ s' hfst hpairs hyields
  rw [eq_of_yields_edit (Node.formatting_rebuild _ _) hyields]
  exact Cursor.Reformatted.rebuild hfst hpairs

theorem misplaced_of_yields {σ : Type} {n' : Node} {s s' : Session σ}
    (h : Yields (c.edited edit) s n' s') : ∀ d ∈ c.below, misplaced d = false := by
  intro d hd
  obtain ⟨_, _, _, _, hedit⟩ := Cursor.exists_yields_of_edited h d hd
  exact (yields_edit.mp hedit).1

theorem apply_eq_error {e : RuleError} :
    (apply tree : Except RuleError (RuleOutput R)) = .error e ↔
      ∃ c, (Cursor.root tree).postorder.find? misplaced = some c ∧ e = .tree (misplacement c) := by
  have hraises (e : TreeError) :
      Raises ((Cursor.root tree).edited edit) (⟨(), { rule := ruleName }⟩ : Session Unit) e ↔
        ∃ c, (Cursor.root tree).postorder.find? misplaced = some c ∧ misplacement c = e := by
    have hfault : ∀ d ∈ (Cursor.root tree).below, ∀ (rebuilt : Node) (s : Session Unit) e,
        Raises (edit d rebuilt) s e ↔
          (if misplaced d then some (misplacement d) else none) = some e :=
      fun _ _ _ _ _ => raises_edit
    rw [Cursor.raises_edited hfault, findSome?_ite, Option.map_eq_some_iff]
  rw [apply, RuleOutput.ofSession_eq_error]
  simp only [hraises]
  constructor
  · rintro ⟨_, ⟨c, hc, rfl⟩, rfl⟩
    exact ⟨c, hc, rfl⟩
  · rintro ⟨c, hc, rfl⟩
    exact ⟨_, ⟨c, hc, rfl⟩, rfl⟩

/-- The rule fails exactly if a parameter stands in no list, and then reports the first one in
    post-order. Else it leaves the tree without the text at the brackets of its lists, and nothing
    else is changed. -/
theorem apply_tightens_exactly (hdistinct : DistinctParameters tree) :
    ((∃ e, (apply tree : Except RuleError (RuleOutput R)) = .error e) ↔
        ∃ c ∈ tree.cursors, misplaced c = true) ∧
      (∀ e, (apply tree : Except RuleError (RuleOutput R)) = .error e →
        ∃ c, (Cursor.root tree).postorder.find? misplaced = some c ∧
          e = .tree (misplacement c)) ∧
      ∀ out : RuleOutput R, apply tree = .ok out →
        (Cursor.root tree).Reformatted (fun _ c => tightText c) out.tree := by
  refine ⟨?_, fun e => apply_eq_error.mp, fun out hout => ?_⟩
  · have hfind : (∃ c ∈ tree.cursors, misplaced c = true) ↔
        ((Cursor.root tree).postorder.find? misplaced).isSome := by
      rw [List.find?_isSome]
      exact ⟨fun ⟨c, hc, h⟩ => ⟨c, (Cursor.postorder_perm _).mem_iff.mpr hc, h⟩,
        fun ⟨c, hc, h⟩ => ⟨c, (Cursor.postorder_perm _).mem_iff.mp hc, h⟩⟩
    rw [hfind, Option.isSome_iff_exists]
    constructor
    · rintro ⟨e, he⟩
      obtain ⟨c, hc, _⟩ := apply_eq_error.mp he
      exact ⟨c, hc⟩
    · rintro ⟨c, hc⟩
      exact ⟨_, apply_eq_error.mpr ⟨c, hc, rfl⟩⟩
  · obtain ⟨s, hrun, _, _⟩ := RuleOutput.ofSession_eq_ok hout
    refine (reformatted_of_yields hrun).congr fun _ d hd => ?_
    have hbelow := Cursor.mem_below_of_descend? hd
    exact left_eq_tightText hdistinct hbelow (misplaced_of_yields hrun d hbelow)

/-- `class Box<K, V> {}` with some text between the brackets and the parameters. -/
def boxed (text : String) : Node :=
  let name (id : NodeId) (spelling : String) : Node := ⟨id, {}, .ident spelling .unknown none⟩
  let first : Node := ⟨3, ⟨text, ""⟩, .typeParameter (name 4 "K") none⟩
  let last : Node := ⟨5, ⟨" ", text⟩, .typeParameter (name 6 "V") none⟩
  let list : Node := ⟨2, {}, .typeParameters [first, last] []⟩
  let body : Node := ⟨7, .leading " ", .block [] ""⟩
  ⟨0, {}, .classDecl [] ⟨"", .plain⟩ ((name 1 "Box").withLead " ") (some list) none body .unknown⟩

/-- A type parameter that stands in a block. -/
def stray : Node :=
  ⟨0, {}, .block [⟨1, {}, .typeParameter ⟨2, {}, .ident "T" .unknown none⟩ none⟩] ""⟩

theorem apply_tightens_exactly_boxed :
    (∃ out : RuleOutput Rule, apply (boxed " ") = .ok out ∧
        out.tree.print = "class Box<K, V> \x7b\x7d" ∧
        (Cursor.root (boxed " ")).Reformatted (fun _ c => tightText c) out.tree) ∧
      ∃ e, (apply stray : Except RuleError (RuleOutput Rule)) = .error e := by
  have hprint : ((apply (boxed " ") : Except RuleError (RuleOutput Rule)).toOption.map
      fun out => out.tree.print) = some "class Box<K, V> \x7b\x7d" := by
    decide +kernel
  have hboxed : DistinctParameters (boxed " ") := .of_distinctIds (by decide)
  have hstray : DistinctParameters stray := .of_distinctIds (by decide)
  obtain ⟨out, hrun, hprint⟩ := Except.exists_ok_of_toOption_map hprint
  exact ⟨⟨out, hrun, hprint, (apply_tightens_exactly hboxed).2.2 out hrun⟩,
    (apply_tightens_exactly hstray).1.mpr (by decide)⟩

end TypeParameterList

end Restyle
