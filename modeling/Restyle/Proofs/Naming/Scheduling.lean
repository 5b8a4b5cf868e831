-- SUMMARY: The rule for hidden fields schedules exactly the declarations that hide a member.
import Mathlib.Data.List.Nodup
import Restyle.Proofs.Naming.Renamed
import Restyle.Proofs.Naming.Shadows

/-!
# Scheduled renamings

The rule goes through all classes, all names that are protected in a class, and all variables that
the class sees. What it finds can be said of a variable alone (`HiddenField.Hides`): some class
around it protects its name. The rule fails only for variables outside of declarations, and its
renamings are those of the first discoveries, in the order of the discoveries
(`HiddenField.FirstFound`).
-/

namespace Restyle

/-! ## Fields of a class -/

namespace Node

/-- A variable of a declaration that stands directly in the body of a class. -/
def Declares (classDecl body statement var : Node) : Prop :=
  (∃ modifiers keyword name typeParams superclass ty,
    classDecl.kind = .classDecl modifiers keyword name typeParams superclass body ty) ∧
  (∃ statements finish, body.kind = .block statements finish ∧ statement ∈ statements) ∧
  ∃ modifiers typeExpr vars, statement.kind = .variableDecls modifiers typeExpr vars ∧ var ∈ vars

variable {tree classDecl body statement var : Node} {c : Cursor}

theorem mem_ownFields {name : String} {id : NodeId} :
    (name, id) ∈ HiddenField.ownFields classDecl ↔
      ∃ body statement var, classDecl.Declares body statement var ∧
        var.simpleName? = some name ∧ var.id = id := by
  constructor
  · intro h
    unfold HiddenField.ownFields at h
    split at h
    · rename_i body _ hclass
      split at h
      · rename_i hbody
        obtain ⟨statement, hstatement, h⟩ := List.mem_flatMap.mp h
        split at h
        · rename_i hdecl
          obtain ⟨var, hvar, hname⟩ := List.mem_filterMap.mp h
          obtain ⟨spelling, hspelling, heq⟩ := Option.map_eq_some_iff.mp hname
          obtain ⟨rfl, rfl⟩ := Prod.mk.inj heq
          exact ⟨body, statement, var, ⟨⟨_, _, _, _, _, _, hclass⟩, ⟨_, _, hbody, hstatement⟩, _, _,
            _, hdecl, hvar⟩, hspelling, rfl⟩
        · simp at h
      · simp at h
    · simp at h
  · rintro ⟨body, statement, var, ⟨⟨_, _, _, _, _, _, hclass⟩, ⟨statements, _, hbody, hstatement⟩, _,
      _, vars, hdecl, hvar⟩, hname, rfl⟩
    simp only [HiddenField.ownFields, hclass, hbody]
    refine List.mem_flatMap.mpr ⟨statement, hstatement, ?_⟩
    rw [hdecl]
    exact List.mem_filterMap.mpr ⟨var, hvar, by rw [hname]; rfl⟩

/-- The place of a field. -/
theorem Declares.exists_cursor (h : c.node.Declares body statement var) (hc : c ∈ tree.cursors) :
    ∃ v ∈ tree.cursors, v.node = var ∧ v.ancestors = statement :: body :: c.path := by
  obtain ⟨⟨_, _, _, _, _, _, hclass⟩, ⟨_, _, hbody, hstatement⟩, _, _, _, hdecl, hvar⟩ := h
  obtain ⟨b, hb, rfl⟩ := Cursor.exists_mem_children (c := c) (n := body)
    (by simp [children, hclass, Kind.children])
  obtain ⟨s, hs, rfl⟩ := Cursor.exists_mem_children (c := b) (n := statement)
    (by simpa [children, hbody, Kind.children] using hstatement)
  obtain ⟨v, hv, rfl⟩ := Cursor.exists_mem_children (c := s) (n := var)
    (by simp [children, hdecl, Kind.children, hvar])
  have hcursors := mem_cursors_of_mem_children
    (mem_cursors_of_mem_children (mem_cursors_of_mem_children hc hb) hs) hv
  refine ⟨v, hcursors, rfl, ?_⟩
  rw [(Cursor.mem_children.mp hv).2, Cursor.path, (Cursor.mem_children.mp hs).2, Cursor.path,
    (Cursor.mem_children.mp hb).2]

/-- In a tree with distinct ids, a field is declared, and declared as a field. -/
theorem Declares.ofCursor_eq (h : c.node.Declares body statement var) (hids : tree.DistinctIds)
    (hc : c ∈ tree.cursors) {v : Cursor} (hv : v ∈ tree.cursors) (hid : v.node.id = var.id) :
    DeclarationKind.ofCursor v = .ok .field := by
  obtain ⟨w, hw, rfl, hanc⟩ := h.exists_cursor hc
  obtain rfl := hids.eq_of_id_eq hv hw hid
  obtain ⟨⟨_, _, _, _, _, _, hclass⟩, ⟨_, _, hbody, _⟩, _, _, _, hdecl, _⟩ := h
  simp [DeclarationKind.ofCursor, hanc, tag, hdecl, Kind.tag, DeclarationKind.ofOwners, hbody,
    Cursor.path, hclass]

end Node

/-! ## Protected names -/

namespace HiddenField

variable {rule : HiddenField} {tree : Node} {c v : Cursor} {name : String}

/-- A name that may not be hidden in a class: it is not ignored, and the class inherits a member of
    that name or declares a field of it. -/
def Protects (rule : HiddenField) (classDecl : Node) (name : String) : Prop :=
  rule.isIgnored name = false ∧
    ((∃ m ∈ classDecl.inheritedMembers, m.name = name) ∨
      ∃ body statement var, classDecl.Declares body statement var ∧ var.simpleName? = some name)

theorem protects_iff {classDecl : Node} :
    rule.Protects classDecl name ↔ ∃ exclude, (name, exclude) ∈ rule.protectedNames classDecl := by
  simp only [protectedNames, List.mem_filter, List.mem_append, List.mem_map, Prod.mk.injEq,
    Bool.not_eq_true', Prod.exists]
  constructor
  · rintro ⟨hignored, ⟨m, hm, hname⟩ | ⟨body, statement, var, hdeclares, hname⟩⟩
    · exact ⟨none, .inl ⟨m, hm, hname, rfl⟩, hignored⟩
    · refine ⟨some var.id, .inr ⟨name, var.id, ?_, rfl, rfl⟩, hignored⟩
      exact Node.mem_ownFields.mpr ⟨body, statement, var, hdeclares, hname, rfl⟩
  · rintro ⟨exclude, ⟨m, hm, hname, _⟩ | ⟨name, id, hown, rfl, _⟩, hignored⟩
    · exact ⟨hignored, .inl ⟨m, hm, hname⟩⟩
    · obtain ⟨body, statement, var, hdeclares, hname, _⟩ := Node.mem_ownFields.mp hown
      exact ⟨hignored, .inr ⟨body, statement, var, hdeclares, hname⟩⟩

/-- The declaration that a search leaves out is a field of the class. -/
theorem declares_of_mem_protectedNames {classDecl : Node} {id : NodeId}
    (h : (name, some id) ∈ rule.protectedNames classDecl) :
    ∃ body statement var, classDecl.Declares body statement var ∧ var.id = id := by
  simp only [protectedNames, List.mem_filter, List.mem_append, List.mem_map, Prod.mk.injEq,
    Prod.exists] at h
  obtain ⟨⟨_, _, _, hnone⟩ | ⟨_, _, hown, rfl, hid⟩, _⟩ := h
  · cases hnone
  · obtain ⟨body, statement, var, hdeclares, _, hvar⟩ := Node.mem_ownFields.mp hown
    exact ⟨body, statement, var, hdeclares, hvar.trans (Option.some.inj hid)⟩

/-- A variable that hides a member of a class. -/
structure Hides (rule : HiddenField) (c : Cursor) (name : String) (v : Cursor) : Prop where
  isProtected : rule.Protects c.node name
  sees : c.Sees v
  isNamed : v.IsVariable name
  flags : ∀ ty, c.node.ty? = some ty → rule.options.Flags ty name v

/-- A variable outside of declarations with a protected name, in view of the class. -/
def Stray (rule : HiddenField) (c : Cursor) (name : String) (v : Cursor) : Prop :=
  rule.Protects c.node name ∧ c.Sees v ∧ v.IsVariable name ∧ ¬v.IsDeclared

/-! ## Searches -/

/-- The search for one protected name of a class. -/
def search (rule : HiddenField) (c : Cursor) (entry : String × Option NodeId) : ShadowSearch :=
  { name := entry.1, exclude := entry.2, classType := c.node.ty?.getD .unknown,
    options := rule.options }

/-- Whether a search counts a variable. -/
def counts (rule : HiddenField) (c : Cursor) (entry : String × Option NodeId) (v : Cursor) : Bool :=
  (rule.search c entry).isNamesake v && (rule.search c entry).hits v

theorem isNamesake_iff {entry : String × Option NodeId} :
    (rule.search c entry).isNamesake v = true ↔
      v.IsVariable entry.1 ∧ entry.2 ≠ some v.node.id := by
  simp [ShadowSearch.isNamesake, search, Cursor.IsVariable, and_assoc]

/-- What a search leaves out is a field, which never hides a member. -/
theorem ofCursor_of_excluded {entry : String × Option NodeId} (hids : tree.DistinctIds)
    (hc : c ∈ tree.cursors) (hentry : entry ∈ rule.protectedNames c.node)
    (hv : v ∈ tree.cursors) (hexclude : entry.2 = some v.node.id) :
    DeclarationKind.ofCursor v = .ok .field := by
  obtain ⟨name, exclude⟩ := entry
  obtain rfl : exclude = some v.node.id := hexclude
  obtain ⟨body, statement, var, hdeclares, hid⟩ := declares_of_mem_protectedNames hentry
  exact hdeclares.ofCursor_eq hids hc hv hid.symm

theorem ty?_of_protects (h : rule.Protects c.node name) :
    ∃ ty, c.node.ty? = some ty ∧ ∃ modifiers keyword id typeParams superclass body,
      c.node.kind = .classDecl modifiers keyword id typeParams superclass body ty := by
  rcases h.2 with ⟨m, hm, _⟩ | ⟨_, _, _, ⟨⟨_, _, _, _, _, ty, hclass⟩, _⟩, _⟩
  · cases hkind : c.node.kind with
    | classDecl modifiers keyword id typeParams superclass body ty =>
      exact ⟨ty, by simp [Node.ty?, hkind], _, _, _, _, _, _, rfl⟩
    | _ => simp [Node.inheritedMembers, hkind] at hm
  · exact ⟨ty, by simp [Node.ty?, hclass], _, _, _, _, _, _, hclass⟩

theorem counts_iff {entry : String × Option NodeId} (hids : tree.DistinctIds)
    (hc : c ∈ tree.cursors) (hentry : entry ∈ rule.protectedNames c.node) :
    v ∈ ShadowSearch.region c ∧ rule.counts c entry v = true ↔ rule.Hides c entry.1 v := by
  have hprotects : rule.Protects c.node entry.1 := protects_iff.mpr ⟨entry.2, hentry⟩
  obtain ⟨ty, hty, _⟩ := ty?_of_protects hprotects
  have hflags : (rule.search c entry).hits v = true ↔ rule.options.Flags ty entry.1 v := by
    rw [ShadowSearch.hits_iff]
    simp [search, hty]
  rw [counts, Bool.and_eq_true, isNamesake_iff, hflags, ShadowSearch.mem_region]
  constructor
  · rintro ⟨hsees, ⟨hnamed, _⟩, hv⟩
    refine ⟨hprotects, hsees, hnamed, fun ty' hty' => ?_⟩
    obtain rfl := Option.some.inj (hty.symm.trans hty')
    exact hv
  · rintro ⟨_, hsees, hnamed, hv⟩
    have hv := hv ty hty
    refine ⟨hsees, ⟨hnamed, fun hexclude => ?_⟩, hv⟩
    -- A field is not watched, so it is none of the variables that are left out.
    obtain ⟨kind, token, hkind, htoken, _⟩ := hv.watched
    have hfield := ofCursor_of_excluded hids hc hentry (hsees.mem_cursors hc) hexclude
    obtain rfl := Except.ok.inj (hkind.symm.trans hfield)
    cases htoken

/-! ## Discoveries -/

/-- When a variable is discovered: while a class of the tree is looked at, for one of the names that
    are protected in it, at the variable. All three are counted, nodes in pre-order. -/
structure Position where
  classAt : Nat
  nameAt : Nat
  variableAt : Nat

/-- The order of discoveries. -/
def Position.Before (p q : Position) : Prop :=
  p.classAt < q.classAt ∨ p.classAt = q.classAt ∧
    (p.nameAt < q.nameAt ∨ p.nameAt = q.nameAt ∧ p.variableAt < q.variableAt)

/-- A discovery: a variable that hides a member of a class, with the renaming it asks for. -/
def FoundAt (rule : HiddenField) (tree : Node) (r : Renaming) (p : Position) : Prop :=
  ∃ c entry v, tree.cursors[p.classAt]? = some c ∧
    (rule.protectedNames c.node)[p.nameAt]? = some entry ∧
    tree.cursors[p.variableAt]? = some v ∧ rule.Hides c entry.1 v ∧
    r = ⟨v.node.id, c.node.inheritedMembers⟩

/-- The first discovery of a variable. -/
def FirstFound (rule : HiddenField) (tree : Node) (r : Renaming) (p : Position) : Prop :=
  rule.FoundAt tree r p ∧
    ∀ r' p', rule.FoundAt tree r' p' → r'.target = r.target → ¬p'.Before p

/-- The discoveries of a class at a place of the tree. -/
def findsAt (rule : HiddenField) (tree : Node) (i : Nat) (c : Cursor) :
    List (Position × Renaming) :=
  (rule.protectedNames c.node).zipIdx.flatMap fun (entry, j) =>
    ((ShadowSearch.region c).filter (rule.counts c entry)).map fun v =>
      (⟨i, j, tree.ids.idxOf v.node.id⟩, ⟨v.node.id, c.node.inheritedMembers⟩)

/-- All discoveries in order. -/
def finds (rule : HiddenField) (tree : Node) : List (Position × Renaming) :=
  tree.cursors.zipIdx.flatMap fun (c, i) => rule.findsAt tree i c

theorem protectedNames_eq_nil (h : c.node.tag ≠ .classDecl) : rule.protectedNames c.node = [] := by
  cases hkind : c.node.kind with
  | classDecl _ _ _ _ _ _ _ => simp [Node.tag, hkind, Kind.tag] at h
  | _ => simp [protectedNames, ownFields, Node.inheritedMembers, hkind]

theorem renamingsAt_eq (c : Cursor) :
    rule.renamingsAt c = (do
      let found ← (rule.protectedNames c.node).mapM fun entry => (rule.search c entry).run c
      return found.flatten.map fun id => ⟨id, c.node.inheritedMembers⟩) := by
  by_cases hclass : c.node.tag = .classDecl
  · cases hkind : c.node.kind with
    | classDecl modifiers keyword name typeParams superclass body ty =>
      unfold renamingsAt
      rw [hkind]
      have hty : c.node.ty?.getD .unknown = ty := by simp [Node.ty?, hkind]
      simp only [search, hty]
    | _ => simp [Node.tag, hkind, Kind.tag] at hclass
  · rw [protectedNames_eq_nil hclass]
    unfold renamingsAt
    split
    · rename_i hkind
      simp [Node.tag, hkind, Kind.tag] at hclass
    · rfl

theorem renamingsAt_eq_ok (h : ∀ name v, ¬rule.Stray c name v) (i : Nat) :
    rule.renamingsAt c = .ok ((rule.findsAt tree i c).map Prod.snd) := by
  have hfound : (rule.protectedNames c.node).mapM (fun entry => (rule.search c entry).run c) =
      .ok ((rule.protectedNames c.node).map fun entry =>
        ((ShadowSearch.region c).filter (rule.counts c entry)).map fun v => v.node.id) := by
    refine Except.mapM_eq_ok fun entry hentry => ShadowSearch.run_eq_ok fun v hv hnamesake => ?_
    have hprotects : rule.Protects c.node entry.1 := protects_iff.mpr ⟨entry.2, hentry⟩
    by_contra hdeclared
    exact h entry.1 v ⟨hprotects, ShadowSearch.mem_region.mp hv, (isNamesake_iff.mp hnamesake).1,
      hdeclared⟩
  have hfinds : (rule.findsAt tree i c).map Prod.snd =
      (rule.protectedNames c.node).flatMap fun entry =>
        ((ShadowSearch.region c).filter (rule.counts c entry)).map fun v =>
          ⟨v.node.id, c.node.inheritedMembers⟩ := by
    have hentries := List.zipIdx_map_fst 0 (rule.protectedNames c.node)
    rw [findsAt, List.map_flatMap]
    nth_rewrite 2 [← hentries]
    rw [List.flatMap_map]
    simp [Function.comp_def]
  rw [renamingsAt_eq, hfound, hfinds]
  simp [bind, Except.bind, pure, Except.pure, List.flatMap_def, List.map_flatten,
    Function.comp_def]

theorem not_stray_of_renamingsAt (hids : tree.DistinctIds) (hc : c ∈ tree.cursors)
    {found : List Renaming} (h : rule.renamingsAt c = .ok found) :
    ∀ name v, ¬rule.Stray c name v := by
  rintro name v ⟨hprotects, hsees, hnamed, hdeclared⟩
  obtain ⟨exclude, hentry⟩ := protects_iff.mp hprotects
  rw [renamingsAt_eq] at h
  obtain ⟨searched, hsearched, _⟩ := Except.bind_eq_ok.mp h
  obtain ⟨ids, hrun⟩ := Except.exists_ok_of_mapM hsearched _ hentry
  by_cases hexclude : exclude = some v.node.id
  · have hfield := ofCursor_of_excluded hids hc hentry (hsees.mem_cursors hc) hexclude
    exact hdeclared (DeclarationKind.ofCursor_eq_ok.mp hfield).1
  · refine hdeclared (ShadowSearch.isDeclared_of_run hrun v (ShadowSearch.mem_region.mpr hsees) ?_)
    exact isNamesake_iff.mpr ⟨hnamed, hexclude⟩

/-- Without stray variables, the rule takes the first of all discoveries of each variable. -/
theorem scheduled_eq_ok (h : ∀ c ∈ tree.cursors, ∀ name v, ¬rule.Stray c name v) :
    rule.scheduled tree = .ok (firsts [] ((rule.finds tree).map Prod.snd)) := by
  have hplaces := List.zipIdx_map_fst 0 tree.cursors
  have hfound : tree.cursors.mapM rule.renamingsAt =
      .ok (tree.cursors.zipIdx.map fun p => (rule.findsAt tree p.2 p.1).map Prod.snd) := by
    nth_rewrite 1 [← hplaces]
    rw [List.mapM_map]
    refine Except.mapM_eq_ok fun p hp => renamingsAt_eq_ok (h p.1 ?_) p.2
    exact List.fst_mem_of_mem_zipIdx hp
  rw [scheduled, hfound]
  simp [finds, bind, Except.bind, pure, Except.pure, List.flatMap_def, List.map_flatten,
    Function.comp_def]

theorem not_stray_of_scheduled (hids : tree.DistinctIds) {renamings : List Renaming}
    (h : rule.scheduled tree = .ok renamings) :
    ∀ c ∈ tree.cursors, ∀ name v, ¬rule.Stray c name v := by
  intro c hc
  obtain ⟨found, hfound, _⟩ := Except.bind_eq_ok.mp h
  obtain ⟨renamings, hrenamings⟩ := Except.exists_ok_of_mapM hfound c hc
  exact not_stray_of_renamingsAt hids hc hrenamings

/-! ## The order of discoveries -/

theorem idxOf_eq (hids : tree.DistinctIds) {k : Nat} (hk : tree.cursors[k]? = some v) :
    tree.ids.idxOf v.node.id = k := by
  have hget : tree.ids[k]? = some v.node.id := by simp [Node.ids, hk]
  obtain ⟨hlt, heq⟩ := List.getElem?_eq_some_iff.mp hget
  rw [← heq]
  exact List.Nodup.idxOf_getElem hids k hlt

theorem mem_finds (hids : tree.DistinctIds) {p : Position} {r : Renaming} :
    (p, r) ∈ rule.finds tree ↔ rule.FoundAt tree r p := by
  simp only [finds, findsAt, List.mem_flatMap, List.mem_map, List.mem_filter, Prod.exists,
    List.mem_zipIdx_iff_getElem?, Prod.mk.injEq]
  constructor
  · rintro ⟨c, i, hc, name, exclude, j, hentry, v, hv, rfl, rfl⟩
    have hcmem := List.mem_of_getElem? hc
    have hhides := (counts_iff hids hcmem (List.mem_of_getElem? hentry)).mp hv
    obtain ⟨k, hk⟩ := List.getElem?_of_mem (hhides.sees.mem_cursors hcmem)
    exact ⟨c, (name, exclude), v, hc, hentry, by rw [idxOf_eq hids hk]; exact hk, hhides, rfl⟩
  · rintro ⟨c, entry, v, hc, hentry, hv, hhides, rfl⟩
    have hcounts := (counts_iff hids (List.mem_of_getElem? hc)
      (List.mem_of_getElem? hentry)).mpr hhides
    refine ⟨c, p.classAt, hc, entry.1, entry.2, p.nameAt, hentry, v, hcounts, ?_, rfl⟩
    rw [idxOf_eq hids hv]

theorem pairwise_zipIdx {α : Type} (l : List α) : l.zipIdx.Pairwise fun p q => p.2 < q.2 := by
  have hsnd : (l.zipIdx.map Prod.snd).Pairwise (· < ·) := by
    rw [List.zipIdx_map_snd]
    exact List.pairwise_lt_range'
  exact List.pairwise_map.mp hsnd

/-- Discoveries are made in order. -/
theorem pairwise_finds (hids : tree.DistinctIds) :
    (rule.finds tree).Pairwise fun x y => x.1.Before y.1 := by
  have hids' : tree.cursors.Pairwise fun v w =>
      tree.ids.idxOf v.node.id < tree.ids.idxOf w.node.id := by
    rw [List.pairwise_iff_getElem]
    intro i j hi hj hlt
    rwa [idxOf_eq hids (List.getElem?_eq_getElem hi), idxOf_eq hids (List.getElem?_eq_getElem hj)]
  refine List.pairwise_flatMap.mpr ⟨fun p hp => ?_, ?_⟩
  · refine List.pairwise_flatMap.mpr ⟨fun q hq => ?_, ?_⟩
    · have hc := List.fst_mem_of_mem_zipIdx hp
      have hsublist : ((ShadowSearch.region p.1).filter (rule.counts p.1 q.1)).Sublist
          tree.cursors := List.filter_sublist.trans (ShadowSearch.region_sublist hc)
      refine List.pairwise_map.mpr ((hids'.sublist hsublist).imp fun hlt => ?_)
      exact .inr ⟨rfl, .inr ⟨rfl, hlt⟩⟩
    · refine (pairwise_zipIdx _).imp fun hlt x hx y hy => ?_
      obtain ⟨v, _, rfl⟩ := List.mem_map.mp hx
      obtain ⟨w, _, rfl⟩ := List.mem_map.mp hy
      exact .inr ⟨rfl, .inl hlt⟩
  · refine (pairwise_zipIdx _).imp fun hlt x hx y hy => ?_
    simp only [findsAt, List.mem_flatMap, List.mem_map] at hx hy
    obtain ⟨_, _, v, _, rfl⟩ := hx
    obtain ⟨_, _, w, _, rfl⟩ := hy
    exact .inl hlt

/-- The renamings that are kept are those of the discoveries at which their targets are first
    seen. -/
theorem exists_firsts {found : List (Position × Renaming)}
    (hfound : found.Pairwise fun x y => x.1.Before y.1) (seen : List NodeId) :
    ∃ kept : List (Position × Renaming), kept.map Prod.snd = firsts seen (found.map Prod.snd) ∧
      kept.Sublist found ∧ (kept.map fun x => x.2.target).Nodup ∧
      (∀ x ∈ kept, x.2.target ∉ seen) ∧
      ∀ x ∈ found, x.2.target ∈ seen ∨
        ∃ y ∈ kept, y.2.target = x.2.target ∧ (y = x ∨ y.1.Before x.1) := by
  induction found generalizing seen with
  | nil => exact ⟨[], rfl, .slnil, .nil, by simp, by simp⟩
  | cons x found ih =>
    obtain ⟨hx, hfound⟩ := List.pairwise_cons.mp hfound
    by_cases hseen : x.2.target ∈ seen
    · obtain ⟨kept, hmap, hsublist, hnodup, hfresh, hcover⟩ := ih hfound seen
      refine ⟨kept, by simp [firsts, hseen, hmap], hsublist.cons x, hnodup, hfresh, ?_⟩
      intro y hy
      rcases List.mem_cons.mp hy with rfl | hy
      · exact .inl hseen
      · exact hcover y hy
    · obtain ⟨kept, hmap, hsublist, hnodup, hfresh, hcover⟩ := ih hfound (x.2.target :: seen)
      refine ⟨x :: kept, by simp [firsts, hseen, hmap], hsublist.cons_cons x, ?_, ?_, ?_⟩
      · refine List.nodup_cons.mpr ⟨fun hmem => ?_, hnodup⟩
        obtain ⟨y, hy, hid⟩ := List.mem_map.mp hmem
        exact hfresh y hy (by simp [hid])
      · intro y hy
        rcases List.mem_cons.mp hy with rfl | hy
        · exact hseen
        · exact fun hmem => hfresh y hy (by simp [hmem])
      · intro y hy
        rcases List.mem_cons.mp hy with rfl | hy
        · exact .inr ⟨y, by simp, rfl, .inl rfl⟩
        · rcases hcover y hy with hmem | ⟨z, hz, hid, hbefore⟩
          · rcases List.mem_cons.mp hmem with hid | hmem
            · exact .inr ⟨x, by simp, hid.symm, .inr (hx y hy)⟩
            · exact .inl hmem
          · exact .inr ⟨z, by simp [hz], hid, hbefore⟩

namespace Position.Before

variable {p q s : Position}

theorem irrefl : ¬p.Before p := by
  unfold Before
  omega

theorem asymm (h : p.Before q) : ¬q.Before p := by
  unfold Before at *
  omega

theorem eq_of_not_before (h : ¬p.Before q) (h' : ¬q.Before p) : p = q := by
  unfold Before at h h'
  obtain ⟨i, j, k⟩ := p
  obtain ⟨i', j', k'⟩ := q
  simp only [Position.mk.injEq] at h h' ⊢
  omega

end Position.Before

theorem FirstFound.position_eq {r : Renaming} {p p' : Position} (h : rule.FirstFound tree r p)
    (h' : rule.FirstFound tree r p') : p = p' :=
  Position.Before.eq_of_not_before (h'.2 r p h.1 rfl) (h.2 r p' h'.1 rfl)

/-! ## What is scheduled -/

/-- The renamings of the rule: one for each variable that hides a member, with the first discovery
    of the variable, in the order of these discoveries. -/
theorem scheduled_spec (hids : tree.DistinctIds) {renamings : List Renaming}
    (h : rule.scheduled tree = .ok renamings) :
    (renamings.map Renaming.target).Nodup ∧
      (∀ id, id ∈ renamings.map Renaming.target ↔
        ∃ c ∈ tree.cursors, ∃ name v, rule.Hides c name v ∧ v.node.id = id) ∧
      (∀ r ∈ renamings, ∃ p, rule.FirstFound tree r p) ∧
      renamings.Pairwise fun r r' =>
        ∀ p p', rule.FirstFound tree r p → rule.FirstFound tree r' p' → p.Before p' := by
  rw [scheduled_eq_ok (not_stray_of_scheduled hids h)] at h
  obtain ⟨kept, hmap, hsublist, hnodup, _, hcover⟩ := exists_firsts (pairwise_finds hids) []
  obtain rfl : kept.map Prod.snd = renamings := hmap.trans (Except.ok.inj h)
  have htargets : (kept.map Prod.snd).map Renaming.target = kept.map fun x => x.2.target := by
    simp
  have hfound (x : Position × Renaming) (hx : x ∈ kept) : rule.FoundAt tree x.2 x.1 :=
    (mem_finds hids).mp (hsublist.subset hx)
  have hfirst (x : Position × Renaming) (hx : x ∈ kept) : rule.FirstFound tree x.2 x.1 := by
    refine ⟨hfound x hx, fun r' p' hr' htarget => ?_⟩
    rcases hcover (p', r') ((mem_finds hids).mpr hr') with hnil | ⟨y, hy, hid, hbefore⟩
    · simp at hnil
    · obtain rfl := List.inj_on_of_nodup_map hnodup hy hx (hid.trans htarget)
      rcases hbefore with rfl | hbefore
      · exact Position.Before.irrefl
      · exact hbefore.asymm
  rw [htargets]
  refine ⟨hnodup, fun id => ⟨fun hmem => ?_, ?_⟩, fun r hr => ?_, ?_⟩
  · obtain ⟨x, hx, rfl⟩ := List.mem_map.mp hmem
    obtain ⟨c, entry, v, hc, _, _, hhides, hr⟩ := hfound x hx
    exact ⟨c, List.mem_of_getElem? hc, entry.1, v, hhides, by rw [hr]⟩
  · rintro ⟨c, hc, name, v, hhides, rfl⟩
    obtain ⟨i, hi⟩ := List.getElem?_of_mem hc
    obtain ⟨exclude, hentry⟩ := protects_iff.mp hhides.isProtected
    obtain ⟨j, hj⟩ := List.getElem?_of_mem hentry
    obtain ⟨k, hk⟩ := List.getElem?_of_mem (hhides.sees.mem_cursors hc)
    have hmem : (⟨i, j, k⟩, ⟨v.node.id, c.node.inheritedMembers⟩) ∈ rule.finds tree :=
      (mem_finds hids).mpr ⟨c, _, v, hi, hj, hk, hhides, rfl⟩
    rcases hcover _ hmem with hnil | ⟨y, hy, hid, _⟩
    · simp at hnil
    · exact List.mem_map.mpr ⟨y, hy, hid⟩
  · obtain ⟨x, hx, rfl⟩ := List.mem_map.mp hr
    exact ⟨x.1, hfirst x hx⟩
  · refine List.pairwise_map.mpr ?_
    refine ((pairwise_finds hids).sublist hsublist).imp_of_mem fun hx hy hbefore p p' hp hp' => ?_
    rwa [hp.position_eq (hfirst _ hx), hp'.position_eq (hfirst _ hy)]

/-- The rule fails exactly if a variable of a protected name, in view of the class, stands outside
    of declarations. Otherwise it leaves the tree alone and schedules one renaming for each variable
    that hides a member, in the order of the first discoveries. -/
theorem apply_schedules (rule : HiddenField) {tree : Node} (hids : tree.DistinctIds) :
    ((∃ e, rule.apply tree = .error e) ↔ ∃ c ∈ tree.cursors, ∃ name v, rule.Stray c name v) ∧
      ((¬∃ c ∈ tree.cursors, ∃ name v, rule.Stray c name v) →
        ∃ renamings : List Renaming,
          rule.apply tree =
            .ok { tree, transforms := [], followUps := renamings.map Rule.rename } ∧
          (renamings.map Renaming.target).Nodup ∧
          (∀ id, id ∈ renamings.map Renaming.target ↔
            ∃ c ∈ tree.cursors, ∃ name v, rule.Hides c name v ∧ v.node.id = id) ∧
          (∀ r ∈ renamings, ∃ p, rule.FirstFound tree r p) ∧
          renamings.Pairwise fun r r' =>
            ∀ p p', rule.FirstFound tree r p → rule.FirstFound tree r' p' → p.Before p') := by
  have hclean : (¬∃ c ∈ tree.cursors, ∃ name v, rule.Stray c name v) →
      ∃ renamings, rule.scheduled tree = .ok renamings := by
    intro hstray
    refine ⟨_, scheduled_eq_ok fun c hc name v hv => ?_⟩
    exact hstray ⟨c, hc, name, v, hv⟩
  refine ⟨⟨?_, ?_⟩, fun hstray => ?_⟩
  · rintro ⟨e, he⟩
    by_contra hstray
    obtain ⟨renamings, hscheduled⟩ := hclean hstray
    rw [apply, hscheduled] at he
    cases he
  · rintro ⟨c, hc, name, v, hv⟩
    cases hscheduled : rule.scheduled tree with
    | ok renamings => exact absurd hv (not_stray_of_scheduled hids hscheduled c hc name v)
    | error e => exact ⟨.tree e, by rw [apply, hscheduled]⟩
  · obtain ⟨renamings, hscheduled⟩ := hclean hstray
    exact ⟨renamings, by rw [apply, hscheduled], scheduled_spec hids hscheduled⟩

/-- In `hidingLocal` nothing is stray, so the rule schedules what hides a member. -/
theorem apply_schedules_hidingLocal :
    let rule : HiddenField := ⟨.default, none⟩
    ∃ renamings : List Renaming,
      rule.apply hidingLocal =
        .ok { tree := hidingLocal, transforms := [], followUps := renamings.map Rule.rename } ∧
      ∀ id, id ∈ renamings.map Renaming.target ↔
        ∃ c ∈ hidingLocal.cursors, ∃ name v, rule.Hides c name v ∧ v.node.id = id := by
  intro rule
  have hspec := apply_schedules rule hidingLocal_distinctIds
  have hok : (rule.apply hidingLocal).isOk = true := by decide
  obtain ⟨renamings, happly, _, hmem, _⟩ := hspec.2 fun hstray => by
    obtain ⟨e, he⟩ := hspec.1.mpr hstray
    rw [he] at hok
    cases hok
  exact ⟨renamings, happly, hmem⟩

end HiddenField

end Restyle
