-- SUMMARY: What is printed around a node does not depend on the node.
import Restyle.Proofs.Tree.Layout
import Restyle.Proofs.Tree.Paths

/-!
# Contexts

The printed text of a tree is the text of a node in it between two strings that do not change when
the node does, as long as the node keeps its need for a semicolon (`Node.print_replaceAt`). This
holds since each child is one piece of the text of its parent, and the pieces stand in the order of
the children (`Kind.Piece.exists_eq_append`, `Node.pieces_changeChildren`).
-/

namespace Restyle

namespace Kind

namespace Piece

variable {α : Type} {f : Nat → α → α} {i : Nat} {ps : List (Piece α)}

/-- The pieces with the children in them changed, if a number of children stands before them. -/
def change (f : Nat → α → α) : Nat → List (Piece α) → List (Piece α)
  | _, [] => []
  | i, token text :: ps => token text :: change f i ps
  | i, child a isStatement :: ps => child (f i a) isStatement :: change f (i + 1) ps

theorem change_append (f : Nat → α → α) (i : Nat) (ps qs : List (Piece α)) :
    change f i (ps ++ qs) = change f i ps ++ change f (i + (children ps).length) qs := by
  induction ps generalizing i with
  | nil => rfl
  | cons p ps ih =>
    cases p with
    | token text => exact congrArg (token text :: ·) (ih i)
    | child a isStatement =>
      rw [List.cons_append, change, ih, change, children, List.length_cons, Nat.add_assoc,
        Nat.add_comm 1]
      rfl

theorem change_eq_self (h : ∀ j a, i ≤ j → j < i + (children ps).length → f j a = a) :
    change f i ps = ps := by
  induction ps generalizing i with
  | nil => rfl
  | cons p ps ih =>
    cases p with
    | token text => exact congrArg (token text :: ·) (ih h)
    | child a isStatement =>
      rw [children, List.length_cons] at h
      rw [change, h i a (Nat.le_refl i) (by omega), ih fun j b hj hlt => h j b (by omega) (by omega)]

/-- Pieces of pairs hold the old children and the changed ones. -/
theorem map_snd_eq_change {ps : List (Piece (α × α))}
    (h : ∀ p ∈ (children ps).zipIdx i, p.1.2 = f p.2 p.1.1) :
    ps.map (map Prod.snd) = change f i (ps.map (map Prod.fst)) := by
  induction ps generalizing i with
  | nil => rfl
  | cons p ps ih =>
    cases p with
    | token text => exact congrArg (token text :: ·) (ih h)
    | child p isStatement =>
      rw [children, List.zipIdx_cons] at h
      rw [List.map_cons, List.map_cons, ih fun q hq => h q (List.mem_cons_of_mem _ hq), map, map,
        change, h (p, i) List.mem_cons_self]

/-- Every child is a piece, behind the pieces of the children before it. -/
theorem exists_eq_append {a : α} (h : (children ps)[i]? = some a) :
    ∃ before isStatement after, ps = before ++ child a isStatement :: after ∧
      (children before).length = i := by
  induction ps generalizing i with
  | nil => simp at h
  | cons p ps ih =>
    cases p with
    | token text =>
      obtain ⟨before, isStatement, after, rfl, hlength⟩ := ih h
      exact ⟨token text :: before, isStatement, after, rfl, hlength⟩
    | child b isStatement =>
      cases i with
      | zero =>
        obtain rfl : b = a := by simpa using h
        exact ⟨[], isStatement, ps, rfl, rfl⟩
      | succ i =>
        obtain ⟨before, isStatement', after, rfl, rfl⟩ := ih (by simpa using h)
        exact ⟨child b isStatement :: before, isStatement', after, rfl, rfl⟩

theorem close_congr {n n' : Node} (h : n'.tag.closesItself = n.tag.closesItself)
    (isStatement : Bool) : close n' isStatement = close n isStatement := by
  simp only [close, Node.terminator, h]

end Piece

end Kind

namespace Node

open Kind

variable {n tree x : Node} {path : List Nat} {i j : Nat}

/-! ## Children -/

theorem pieces_changeChildren (change : Nat → Node → Node) (n : Node) :
    (n.changeChildren change).kind.pieces = Piece.change change 0 n.kind.pieces := by
  obtain ⟨z, hfst, hz⟩ := n.exists_pairs_changeChildren change
  rw [changeChildren_eq hfst hz, pieces_rebuild, ← hfst, pieces_map, pieces_map]
  rw [← children_pieces] at hz
  exact Piece.map_snd_eq_change hz

theorem print_changeChildren (change : Nat → Node → Node) (n : Node) :
    (n.changeChildren change).print = n.formatting.lead ++
      (Piece.text (Piece.change change 0 n.kind.pieces) ++ n.formatting.trail) := by
  rw [print_eq, body_eq, pieces_changeChildren, formatting_changeChildren]

/-- Two children of a node are printed in their order, each of them once. -/
theorem exists_print_changeChildren {a b : Node} (hlt : i < j) (ha : n.children[i]? = some a)
    (hb : n.children[j]? = some b) :
    ∃ left middle right, ∀ change : Nat → Node → Node,
      (∀ k child, k ≠ i → k ≠ j → change k child = child) →
      (change i a).tag.closesItself = a.tag.closesItself →
      (change j b).tag.closesItself = b.tag.closesItself →
      (n.changeChildren change).print =
        left ++ ((change i a).print ++ (middle ++ ((change j b).print ++ right))) := by
  rw [children, ← children_pieces] at ha hb
  obtain ⟨before, isStatement', after, hpieces, hj⟩ := Piece.exists_eq_append hb
  rw [hpieces, Piece.children_append, List.getElem?_append_left (by omega)] at ha
  obtain ⟨front, isStatement, middle, rfl, hi⟩ := Piece.exists_eq_append ha
  refine ⟨n.formatting.lead ++ Piece.text front,
    Piece.close a isStatement ++ Piece.text middle,
    Piece.close b isStatement' ++ (Piece.text after ++ n.formatting.trail), ?_⟩
  intro change hother hca hcb
  have hfront : Piece.change change 0 front = front :=
    Piece.change_eq_self fun k child _ hk => hother k child (by omega) (by omega)
  have hmiddle : Piece.change change (i + 1) middle = middle := by
    refine Piece.change_eq_self fun k child hle hk => hother k child (by omega) ?_
    simp at hj
    omega
  have hafter : Piece.change change (j + 1) after = after :=
    Piece.change_eq_self fun k child hle _ => hother k child (by omega) (by omega)
  rw [print_changeChildren, hpieces, Piece.change_append, Piece.change_append, hj]
  simp only [Piece.change, Nat.zero_add, hi, hfront, hmiddle, hafter, Piece.text_append, Piece.text,
    Piece.close_congr hca, Piece.close_congr hcb, String.append_assoc]

/-- A child is printed once. -/
theorem exists_print_changeChild (hx : n.children[i]? = some x) :
    ∃ left right, ∀ change : Nat → Node → Node, (∀ k child, k ≠ i → change k child = child) →
      (change i x).tag.closesItself = x.tag.closesItself →
      (n.changeChildren change).print = left ++ ((change i x).print ++ right) := by
  rw [children, ← children_pieces] at hx
  obtain ⟨before, isStatement, after, hpieces, hi⟩ := Piece.exists_eq_append hx
  refine ⟨n.formatting.lead ++ Piece.text before,
    Piece.close x isStatement ++ (Piece.text after ++ n.formatting.trail), ?_⟩
  intro change hother hcx
  have hbefore : Piece.change change 0 before = before :=
    Piece.change_eq_self fun k child _ hk => hother k child (by omega)
  have hafter : Piece.change change (i + 1) after = after :=
    Piece.change_eq_self fun k child hle _ => hother k child (by omega)
  rw [print_changeChildren, hpieces, Piece.change_append]
  simp only [Piece.change, Nat.zero_add, hi, hbefore, hafter, Piece.text_append, Piece.text,
    Piece.close_congr hcx, String.append_assoc]

/-! ## Nodes at the ends of paths -/

theorem changeChildren_eq_self {change : Nat → Node → Node}
    (h : ∀ i child, change i child = child) : n.changeChildren change = n := by
  obtain ⟨z, hfst, hz⟩ := n.exists_pairs_changeChildren change
  rw [changeChildren_eq hfst hz]
  refine rebuild_pairs_self hfst fun p hp => ?_
  obtain ⟨i, hi⟩ := List.getElem?_of_mem hp
  rw [hz (p, i) (List.mem_zipIdx_iff_getElem?.mpr hi), h]

theorem changeAt_self (path : List Nat) (tree : Node) : tree.changeAt path (fun m => m) = tree := by
  induction path generalizing tree with
  | nil => rfl
  | cons i path ih =>
    refine changeChildren_eq_self fun j child => ?_
    split
    · exact ih child
    · rfl

theorem closesItself_changeAt {change : Node → Node} (hx : tree.at? path = some x)
    (h : (change x).tag.closesItself = x.tag.closesItself) :
    (tree.changeAt path change).tag.closesItself = tree.tag.closesItself := by
  cases path with
  | nil =>
    obtain rfl : tree = x := Option.some.inj hx
    exact h
  | cons i path => exact congrArg Tag.closesItself (tag_changeChildren _ tree)

/-- A node is printed once, between two strings that do not depend on it. -/
theorem exists_print_changeAt (hx : tree.at? path = some x) :
    ∃ left right, ∀ change : Node → Node, (change x).tag.closesItself = x.tag.closesItself →
      (tree.changeAt path change).print = left ++ ((change x).print ++ right) := by
  induction path generalizing tree with
  | nil =>
    obtain rfl : tree = x := Option.some.inj hx
    exact ⟨"", "", fun change _ => by simp [changeAt]⟩
  | cons i path ih =>
    obtain ⟨child, hchild, hx⟩ := at?_cons_eq_some.mp hx
    obtain ⟨inner, inner', hinner⟩ := ih hx
    obtain ⟨outer, outer', houter⟩ := exists_print_changeChild hchild
    refine ⟨outer ++ inner, inner' ++ outer', fun change hclose => ?_⟩
    have hprint := houter (fun j m => if j = i then m.changeAt path change else m)
      (fun k m hk => if_neg hk) (by rw [if_pos rfl]; exact closesItself_changeAt hx hclose)
    rw [changeAt, hprint, if_pos rfl, hinner change hclose]
    simp only [String.append_assoc]

/-- Every node of a tree is printed once and in its place, and the children of a node in their
    order: a node at the end of a path can be replaced by any other that agrees with it on whether
    it is closed by a semicolon, and so can two children of a node at once, without a change of the
    text around them. -/
theorem print_replaceAt (tree : Node) :
    (∀ path x, tree.at? path = some x →
      ∃ left right, tree.print = left ++ (x.print ++ right) ∧
        ∀ y, y.tag.closesItself = x.tag.closesItself →
          (tree.replaceAt path y).print = left ++ (y.print ++ right)) ∧
      ∀ path n i j a b, tree.at? path = some n → i < j → n.children[i]? = some a →
        n.children[j]? = some b →
        ∃ left middle right,
          tree.print = left ++ (a.print ++ (middle ++ (b.print ++ right))) ∧
          ∀ y z, y.tag.closesItself = a.tag.closesItself →
            z.tag.closesItself = b.tag.closesItself →
            (tree.changeAt path (changeChildren fun k child =>
              if k = i then y else if k = j then z else child)).print =
                left ++ (y.print ++ (middle ++ (z.print ++ right))) := by
  constructor
  · intro path x hx
    obtain ⟨left, right, hprint⟩ := exists_print_changeAt hx
    refine ⟨left, right, ?_, fun y => hprint fun _ => y⟩
    rw [← hprint (fun m => m) rfl, changeAt_self]
  · intro path n i j a b hn hlt ha hb
    obtain ⟨outer, outer', houter⟩ := exists_print_changeAt hn
    obtain ⟨left, middle, right, hprint⟩ := exists_print_changeChildren hlt ha hb
    refine ⟨outer ++ left, middle, right ++ outer', ?_, fun y z hy hz => ?_⟩
    · have hself : n.changeChildren (fun _ child => child) = n :=
        changeChildren_eq_self fun _ _ => rfl
      have hn := hprint (fun _ child => child) (fun _ _ _ _ => rfl) rfl rfl
      rw [← changeAt_self path tree, houter (fun m => m) rfl, ← hself, hn]
      simp only [String.append_assoc]
    · have hji : j ≠ i := by omega
      rw [houter _ (congrArg Tag.closesItself (tag_changeChildren _ n)),
        hprint _ (fun k child hi hj => by rw [if_neg hi, if_neg hj]) (by simpa using hy)
          (by simpa [hji] using hz)]
      simp only [if_true, if_neg hji, String.append_assoc]

/-- A name that stands as a statement. -/
def nameStatement : Node := ⟨1, .leading " ", .ident "x" .unknown none⟩

/-- `{ x; return; }` -/
def twoStatements : Node :=
  ⟨0, {}, .block [nameStatement, ⟨2, .leading " ", .returnStmt none⟩] " "⟩

theorem print_replaceAt_twoStatements :
    (∃ left right, twoStatements.print = left ++ (" x" ++ right) ∧
      ∀ y, y.tag.closesItself = false →
        (twoStatements.replaceAt [0] y).print = left ++ (y.print ++ right)) ∧
      ∃ left middle right,
        twoStatements.print = left ++ (" x" ++ (middle ++ (" return" ++ right))) ∧
        ∀ y z, y.tag.closesItself = false → z.tag.closesItself = false →
          (twoStatements.changeAt [] (changeChildren fun k child =>
            if k = 0 then y else if k = 1 then z else child)).print =
              left ++ (y.print ++ (middle ++ (z.print ++ right))) := by
  have hname : nameStatement.print = " x" := by decide +kernel
  have hreturn : (⟨2, .leading " ", .returnStmt none⟩ : Node).print = " return" := by
    decide +kernel
  constructor
  · obtain ⟨left, right, hprint, hreplace⟩ :=
      (print_replaceAt twoStatements).1 [0] nameStatement rfl
    rw [hname] at hprint
    exact ⟨left, right, hprint, hreplace⟩
  · obtain ⟨left, middle, right, hprint, hreplace⟩ :=
      (print_replaceAt twoStatements).2 [] twoStatements 0 1 nameStatement _ rfl (by decide) rfl rfl
    rw [hname, hreturn] at hprint
    exact ⟨left, middle, right, hprint, hreplace⟩

end Node

end Restyle
