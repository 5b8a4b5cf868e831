-- SUMMARY: What is left of a printed tree without its blanks.
import Restyle.Proofs.Tree.Layout
import Restyle.Proofs.Tree.Paths

/-!
# Ink

The ink of a text is what is left of it without blanks. If a tree only gets other text around its
nodes, and none with more ink than before, then it is printed with less ink or with as much, the
latter exactly if that holds of the text around each node (`Cursor.Reformatted.thins`).
-/

namespace Restyle

/-- The characters of a text that are not blank. -/
def ink (blank : Char → Bool) (text : String) : List Char :=
  text.toList.filter fun ch => !blank ch

theorem ink_append (blank : Char → Bool) (s t : String) :
    ink blank (s ++ t) = ink blank s ++ ink blank t := by
  simp [ink]

/-- A text that has no other ink than another one, and all of it exactly if `kept` holds. -/
structure Thins (blank : Char → Bool) (old new : String) (kept : Prop) : Prop where
  sublist : (ink blank new).Sublist (ink blank old)
  eq_iff : ink blank new = ink blank old ↔ kept

namespace Thins

variable {blank : Char → Bool} {s s' t t' : String} {p q : Prop}

theorem refl (blank : Char → Bool) (s : String) : Thins blank s s True :=
  ⟨.refl _, by simp⟩

theorem of_sublist (h : (ink blank s').Sublist (ink blank s)) :
    Thins blank s s' (ink blank s' = ink blank s) := ⟨h, .rfl⟩

theorem congr (h : Thins blank s s' p) (hpq : p ↔ q) : Thins blank s s' q :=
  ⟨h.sublist, h.eq_iff.trans hpq⟩

/-- Ink that is lost on one side is not made up for on the other. -/
theorem append (h : Thins blank s s' p) (h' : Thins blank t t' q) :
    Thins blank (s ++ t) (s' ++ t') (p ∧ q) where
  sublist := by
    rw [ink_append, ink_append]
    exact h.sublist.append h'.sublist
  eq_iff := by
    rw [ink_append, ink_append, ← h.eq_iff, ← h'.eq_iff]
    constructor
    · intro heq
      have hlength := congrArg List.length heq
      have hle := h.sublist.length_le
      have hle' := h'.sublist.length_le
      rw [List.length_append, List.length_append] at hlength
      exact ⟨h.sublist.eq_of_length (by omega), h'.sublist.eq_of_length (by omega)⟩
    · rintro ⟨hs, ht⟩
      rw [hs, ht]

open Kind in
/-- What pieces that thin make up thins. -/
theorem text {ps : List (Piece (Node × Node))} (htag : ∀ p ∈ Piece.children ps, p.2.tag = p.1.tag)
    (h : ∀ p ∈ Piece.children ps, (ink blank p.2.print).Sublist (ink blank p.1.print)) :
    Thins blank (Piece.text (ps.map (Piece.map Prod.fst))) (Piece.text (ps.map (Piece.map Prod.snd)))
      (∀ p ∈ Piece.children ps, ink blank p.2.print = ink blank p.1.print) := by
  induction ps with
  | nil => exact (refl blank "").congr (by simp)
  | cons piece ps ih =>
    cases piece with
    | token text => exact ((refl blank text).append (ih htag h)).congr (by simp)
    | child p isStatement =>
      rw [Piece.children, List.forall_mem_cons] at htag h
      have hclose : Piece.close p.2 isStatement = Piece.close p.1 isStatement := by
        simp [Node.terminator, htag.1]
      simp only [List.map_cons, Piece.map, Piece.text, hclose]
      refine ((of_sublist h.1).append ((refl blank _).append (ih htag.2 h.2))).congr ?_
      rw [Piece.children, List.forall_mem_cons, true_and]

end Thins

/-! ## Nodes that hold the same -/

namespace Kind

variable {α β : Type}

theorem pieces_unshared (k : Kind α) : k.unshared.pieces = k.pieces := by
  cases k <;> rfl

/-- Pieces are determined by the children among them and what stands around these. -/
theorem Piece.eq_of_map_eq {f : α → β} {ps qs : List (Piece α)}
    (h : ps.map (map f) = qs.map (map f)) (hchildren : children ps = children qs) : ps = qs := by
  induction ps generalizing qs with
  | nil => exact (List.map_eq_nil_iff.mp h.symm).symm
  | cons p ps ih =>
    obtain ⟨q, qs, rfl, hq, hqs⟩ := List.map_eq_cons_iff.mp h.symm
    cases p with
    | token text =>
      cases q with
      | token text' =>
        obtain rfl : text' = text := by simpa using hq
        rw [ih hqs.symm hchildren]
      | child b isStatement => cases hq
    | child a isStatement =>
      cases q with
      | token text => cases hq
      | child b isStatement' =>
        obtain ⟨rfl, hrest⟩ := List.cons.inj hchildren
        obtain rfl : isStatement' = isStatement := by simpa using hq
        rw [ih hqs.symm hrest]

end Kind

/-- Nodes that hold the same differ in their children alone. -/
theorem Node.SameContents.exists_pieces {n n' : Node} (h : n.SameContents n') :
    ∃ ps : List (Kind.Piece (Node × Node)), Kind.Piece.children ps = n.children.zip n'.children ∧
      n.kind.pieces = ps.map (Kind.Piece.map Prod.fst) ∧
      n'.kind.pieces = ps.map (Kind.Piece.map Prod.snd) := by
  have hlength := h.length_children
  have hfirst : (n.children.zip n'.children).map Prod.fst = n.kind.children :=
    List.map_fst_zip (by omega)
  have hsecond : (n.children.zip n'.children).map Prod.snd = n'.kind.children :=
    List.map_snd_zip (by omega)
  obtain ⟨z, hfst, hz⟩ := n.kind.exists_pairs hfirst
  have hids : ∀ p ∈ z.children, p.2.id = p.1.id := by
    refine List.map_inj_left.mp ?_
    have hmap (f : Node × Node → Node) (l : List (Node × Node)) :
        l.map (fun p => (f p).id) = (l.map f).map Node.id := by
      rw [List.map_map]
      rfl
    rw [hz, hmap, hmap, hfirst, hsecond]
    exact h.map_id_children
  refine ⟨z.pieces, by rw [Kind.children_pieces, hz], by rw [← hfst, Kind.pieces_map], ?_⟩
  rw [← Kind.pieces_map]
  apply Kind.Piece.eq_of_map_eq (f := id)
  · rw [← Kind.pieces_map, ← Kind.pieces_map, ← Kind.pieces_unshared, Kind.unshared_map, h.kind_eq,
      ← Kind.unshared_map, Kind.pieces_unshared, ← hfst, Kind.map_map, Kind.map_map]
    exact congrArg Kind.pieces (Kind.map_congr fun p hp => (hids p hp).symm)
  · rw [Kind.children_pieces, Kind.children_pieces, Kind.children_map, hz, hsecond]

/-! ## Reformatted trees -/

namespace Cursor

variable {blank : Char → Bool} {text : List Nat → Cursor → Formatting} {c : Cursor} {n' : Node}

/-- At the end of no path has the text around the node more ink than it had. -/
def NoMoreInk (blank : Char → Bool) (text : List Nat → Cursor → Formatting) (c : Cursor) : Prop :=
  ∀ path d, c.descend? path = some d →
    (ink blank (text path d).lead).Sublist (ink blank d.node.formatting.lead) ∧
      (ink blank (text path d).trail).Sublist (ink blank d.node.formatting.trail)

/-- At the end of every path has the text around the node the ink that it had. -/
def SameInk (blank : Char → Bool) (text : List Nat → Cursor → Formatting) (c : Cursor) : Prop :=
  ∀ path d, c.descend? path = some d →
    ink blank (text path d).lead = ink blank d.node.formatting.lead ∧
      ink blank (text path d).trail = ink blank d.node.formatting.trail

theorem SameInk.noMoreInk (h : SameInk blank text c) : NoMoreInk blank text c := by
  intro path d hd
  obtain ⟨hlead, htrail⟩ := h path d hd
  rw [hlead, htrail]
  exact ⟨.refl _, .refl _⟩

theorem sameInk_iff : SameInk blank text c ↔
    (ink blank (text [] c).lead = ink blank c.node.formatting.lead ∧
      ink blank (text [] c).trail = ink blank c.node.formatting.trail) ∧
      ∀ i child, c.node.children[i]? = some child →
        SameInk blank (fun path => text (i :: path)) ⟨child, c.path, i⟩ := by
  constructor
  · intro h
    exact ⟨h [] c rfl, fun i child hchild path d hd =>
      h (i :: path) d (descend?_cons.mpr ⟨child, hchild, hd⟩)⟩
  · rintro ⟨hself, hbelow⟩ path d hd
    cases path with
    | nil =>
      obtain rfl := Option.some.inj hd
      exact hself
    | cons i path =>
      obtain ⟨child, hchild, hd⟩ := descend?_cons.mp hd
      exact hbelow i child hchild path d hd

/-- A reformatted tree is printed with as much ink as before exactly if the text around each node
    has kept its ink. -/
theorem Reformatted.thins (h : c.Reformatted text n') (hink : NoMoreInk blank text c) :
    Thins blank c.node.print n'.print (SameInk blank text c) := by
  induction c using induct generalizing text n' with
  | step c ih =>
    have hsame := h.sameContents
    obtain ⟨ps, hchildren, hold, hnew⟩ := hsame.exists_pieces
    have hpair (i : Nat) (p : Node × Node) (hp : (Kind.Piece.children ps)[i]? = some p) :
        c.node.children[i]? = some p.1 ∧ p.2.tag = p.1.tag ∧
          Thins blank p.1.print p.2.print
            (SameInk blank (fun path => text (i :: path)) ⟨p.1, c.path, i⟩) := by
      rw [hchildren, List.getElem?_zip_eq_some] at hp
      obtain ⟨child', hchild', hreformatted⟩ := h.child hp.1
      obtain rfl := Option.some.inj (hchild'.symm.trans hp.2)
      refine ⟨hp.1, hreformatted.sameContents.tag_eq,
        ih _ (mem_children.mpr ⟨hp.1, rfl⟩) hreformatted fun path d hd => ?_⟩
      exact hink (i :: path) d (descend?_cons.mpr ⟨p.1, hp.1, hd⟩)
    have htext : Thins blank (Kind.Piece.text c.node.kind.pieces)
        (Kind.Piece.text n'.kind.pieces) (∀ i child, c.node.children[i]? = some child →
          SameInk blank (fun path => text (i :: path)) ⟨child, c.path, i⟩) := by
      rw [hold, hnew]
      refine (Thins.text (fun p hp => ?_) fun p hp => ?_).congr ?_
      · obtain ⟨i, hi⟩ := List.getElem?_of_mem hp
        exact (hpair i p hi).2.1
      · obtain ⟨i, hi⟩ := List.getElem?_of_mem hp
        exact (hpair i p hi).2.2.sublist
      · constructor
        · intro hkept i child hchild
          obtain ⟨child', hchild', _⟩ := h.child hchild
          have hp : (Kind.Piece.children ps)[i]? = some (child, child') := by
            rw [hchildren, List.getElem?_zip_eq_some]
            exact ⟨hchild, hchild'⟩
          exact (hpair i _ hp).2.2.eq_iff.mp (hkept _ (List.mem_of_getElem? hp))
        · intro hbelow p hp
          obtain ⟨i, hi⟩ := List.getElem?_of_mem hp
          exact (hpair i p hi).2.2.eq_iff.mpr (hbelow i p.1 (hpair i p hi).1)
    obtain ⟨hlead, htrail⟩ := hink [] c rfl
    rw [Node.print_eq, Node.print_eq, Node.body_eq, Node.body_eq, h.formatting_eq]
    refine ((Thins.of_sublist hlead).append (htext.append (.of_sublist htrail))).congr ?_
    rw [sameInk_iff, and_assoc, and_comm (b := _ = ink blank c.node.formatting.trail)]

end Cursor

end Restyle
