-- SUMMARY: The ids of built trees are distinct, and every node is younger than all below it.
import Mathlib.Data.List.Flatten
import Restyle.Proofs.Rule.Ids
import Restyle.Tree.Blueprint

/-!
# Ids of built trees

While a tree is built there are trees that stand nowhere yet. Together they are a forest: their ids
are distinct and below the counter, and every node has a larger id than the nodes below it. The
counter gives a new node the largest id of all, so a node that is made from trees of a forest
replaces them there (`Forest.node`), and so does what each constructor makes.

A blueprint may place a node only once. `Ledger` keeps account of that; the nodes that are still
free form a forest at every time (`Ledger.Covers`).
-/

namespace Restyle

namespace Node

/-- The ids of the nodes below a node. -/
def idsBelow (n : Node) : List NodeId := n.children.flatMap ids

/-- Every node of the tree has a larger id than all nodes below it. -/
def ParentLast (tree : Node) : Prop := ∀ n ∈ tree.nodes, ∀ i ∈ n.idsBelow, i < n.id

theorem ids_eq_cons (n : Node) : n.ids = n.id :: n.idsBelow := ids_eq n

theorem parentLast_iff {n : Node} :
    n.ParentLast ↔ (∀ i ∈ n.idsBelow, i < n.id) ∧ ∀ child ∈ n.children, child.ParentLast := by
  simp only [ParentLast]
  rw [nodes_eq]
  simp only [List.mem_cons, List.mem_flatMap, forall_eq_or_imp]
  constructor
  · rintro ⟨hself, hbelow⟩
    exact ⟨hself, fun child hchild m hm => hbelow m ⟨child, hchild, hm⟩⟩
  · rintro ⟨hself, hchildren⟩
    refine ⟨hself, ?_⟩
    rintro m ⟨child, hchild, hm⟩
    exact hchildren child hchild m hm

/-- The youngest node of such a tree is its root. -/
theorem ParentLast.maxId_eq {n : Node} (h : n.ParentLast) : n.maxId = n.id := by
  have hmem := n.maxId_mem_ids
  rw [ids_eq_cons] at hmem
  rcases List.mem_cons.mp hmem with heq | hbelow
  · exact heq
  · have hlt : n.maxId < n.id := h n n.self_mem_nodes _ hbelow
    have hle : n.id ≤ n.maxId := le_maxId (by rw [ids_eq_cons]; exact List.mem_cons_self)
    exact absurd hlt (UInt32.not_lt.mpr hle)

end Node

-- ---------------------------------------------------------------------------
-- Forests
-- ---------------------------------------------------------------------------

/-- Trees with distinct ids from `first` up to, but without, `next`, all with their roots last. -/
structure Forest (first next : NodeId) (trees : List Node) : Prop where
  nodup : (trees.flatMap Node.ids).Nodup
  range : ∀ i ∈ trees.flatMap Node.ids, first ≤ i ∧ i < next
  parentLast : ∀ tree ∈ trees, tree.ParentLast

namespace Forest

variable {first next next' : NodeId} {trees trees' : List Node}

theorem nil (first next : NodeId) : Forest first next [] := ⟨by simp, by simp, by simp⟩

theorem mono (h : Forest first next trees) (hle : next ≤ next') : Forest first next' trees where
  nodup := h.nodup
  range i hi := ⟨(h.range i hi).1, UInt32.lt_of_lt_of_le (h.range i hi).2 hle⟩
  parentLast := h.parentLast

theorem perm (h : Forest first next trees) (hperm : trees.Perm trees') :
    Forest first next trees' := by
  have hids : (trees.flatMap Node.ids).Perm (trees'.flatMap Node.ids) := hperm.flatMap_right _
  exact ⟨hids.nodup_iff.mp h.nodup, fun i hi => h.range i (hids.mem_iff.mpr hi),
    fun tree htree => h.parentLast tree (hperm.mem_iff.mpr htree)⟩

/-- A new node takes the place of its children. -/
theorem node {id : NodeId} {formatting : Formatting} {kind : Kind Node}
    (h : Forest first id (kind.children ++ trees)) (hfirst : first ≤ id)
    (hnext : NodeId.next? id = some next) :
    Forest first next (⟨id, formatting, kind⟩ :: trees) := by
  have hlt : id < next := by
    have := NodeId.toNat_of_next? hnext
    exact UInt32.lt_iff_toNat_lt.mpr (by omega)
  have hids : (List.flatMap Node.ids (⟨id, formatting, kind⟩ :: trees)) =
      id :: (kind.children ++ trees).flatMap Node.ids := by
    rw [List.flatMap_cons, Node.ids_eq, List.flatMap_append]
    rfl
  refine ⟨?_, ?_, ?_⟩
  · rw [hids, List.nodup_cons]
    exact ⟨fun hmem => UInt32.lt_irrefl id (h.range id hmem).2, h.nodup⟩
  · intro i hi
    rw [hids] at hi
    rcases List.mem_cons.mp hi with rfl | hi
    · exact ⟨hfirst, hlt⟩
    · exact ⟨(h.range i hi).1, UInt32.lt_trans (h.range i hi).2 hlt⟩
  · intro tree htree
    rcases List.mem_cons.mp htree with rfl | htree
    · refine Node.parentLast_iff.mpr ⟨fun i hi => ?_, fun child hchild => ?_⟩
      · refine (h.range i ?_).2
        rw [List.flatMap_append]
        exact List.mem_append_left _ hi
      · exact h.parentLast child (List.mem_append_left _ hchild)
    · exact h.parentLast tree (List.mem_append_right _ htree)

/-- A tree that differs only in the text around its root stands for it. -/
theorem withFormatting {tree : Node} (formatting : Formatting)
    (h : Forest first next (tree :: trees)) :
    Forest first next (tree.withFormatting formatting :: trees) := by
  have hids : (tree.withFormatting formatting).ids = tree.ids := by
    rw [Node.ids_eq, Node.ids_eq tree]
    rfl
  refine ⟨?_, ?_, ?_⟩
  · simpa [List.flatMap_cons, hids] using h.nodup
  · simpa [List.flatMap_cons, hids] using h.range
  · intro t ht
    rcases List.mem_cons.mp ht with rfl | ht
    · have htree := Node.parentLast_iff.mp (h.parentLast tree List.mem_cons_self)
      exact Node.parentLast_iff.mpr htree
    · exact h.parentLast t (List.mem_cons_of_mem _ ht)

theorem child {tree child : Node} (h : Forest first next [tree]) (hchild : child ∈ tree.children) :
    Forest first next [child] := by
  have hids : child.ids.Sublist tree.ids := by
    rw [Node.ids_eq tree, List.flatMap_def]
    exact (List.sublist_flatten_of_mem (List.mem_map_of_mem hchild)).cons _
  have hrange := h.range
  have hparentLast := (Node.parentLast_iff.mp (h.parentLast tree List.mem_cons_self)).2
  simp only [List.flatMap_singleton] at hrange
  refine ⟨?_, fun i hi => ?_, ?_⟩
  · simpa using (show tree.ids.Nodup by simpa using h.nodup).sublist hids
  · exact hrange i (hids.subset (by simpa using hi))
  · simpa using hparentLast child hchild

end Forest

-- ---------------------------------------------------------------------------
-- Constructors
-- ---------------------------------------------------------------------------

namespace Build

variable {s s' : NodeId × Unit} {n : Node}

theorem yields_fresh {id : NodeId} :
    Yields fresh s id s' ↔ s.1 = id ∧ NodeId.next? s.1 = some s'.1 := by
  change (fresh s.1 : Except BuildError (NodeId × NodeId)) = .ok (id, s'.1) ↔ _
  unfold fresh
  split <;> simp_all

theorem yields_nodeWith {formatting : Formatting} {kind : Kind Node} :
    Yields (nodeWith formatting kind) s n s' ↔
      n = ⟨s.1, formatting, kind⟩ ∧ NodeId.next? s.1 = some s'.1 := by
  simp only [nodeWith, yields_bind, yields_pure, yields_fresh]
  constructor
  · rintro ⟨id, s₁, ⟨rfl, hnext⟩, rfl, rfl⟩
    exact ⟨rfl, hnext⟩
  · rintro ⟨rfl, hnext⟩
    exact ⟨_, s', ⟨rfl, hnext⟩, rfl, rfl⟩

/-- In every forest, the tree that comes from an action can take the place of some others. -/
def Replaces {α : Type} (tree : α → Node) (trees : List Node) (x : Build α) : Prop :=
  ∀ ⦃s a s'⦄, Yields x s a s' → s.1 ≤ s'.1 ∧
    ∀ first others, first ≤ s.1 → Forest first s.1 (trees ++ others) →
      Forest first s'.1 (tree a :: others)

namespace Replaces

variable {α β : Type} {t : α → Node} {l l' m : List Node} {x : Build α}

theorem perm (h : Replaces t l x) (hperm : l'.Perm l) : Replaces t l' x := by
  intro s a s' hrun
  obtain ⟨hle, hreplace⟩ := h hrun
  exact ⟨hle, fun first others hfirst hforest =>
    hreplace first others hfirst (hforest.perm (hperm.append_right others))⟩

theorem bind {u : β → Node} {f : α → Build β} (hx : Replaces t l x)
    (hf : ∀ a, Replaces u (t a :: m) (f a)) : Replaces u (l ++ m) (x >>= f) := by
  intro s b s' hrun
  obtain ⟨a, s₁, ha, hb⟩ := yields_bind.mp hrun
  obtain ⟨hle, hreplace⟩ := hx ha
  obtain ⟨hle', hreplace'⟩ := hf a hb
  refine ⟨UInt32.le_trans hle hle', fun first others hfirst hforest => ?_⟩
  refine hreplace' first others (UInt32.le_trans hfirst hle) ?_
  rw [List.append_assoc] at hforest
  exact hreplace first (m ++ others) hfirst hforest

theorem pure (a : α) : Replaces t [t a] (Pure.pure a : Build α) := by
  intro s b s' hrun
  obtain ⟨rfl, rfl⟩ := yields_pure.mp hrun
  exact ⟨UInt32.le_refl _, fun _ _ _ hforest => hforest⟩

end Replaces

theorem replaces_nodeWith (formatting : Formatting) (kind : Kind Node) :
    Replaces id kind.children (nodeWith formatting kind) := by
  intro s n s' hrun
  obtain ⟨rfl, hnext⟩ := yields_nodeWith.mp hrun
  have hle := NodeId.toNat_of_next? hnext
  exact ⟨UInt32.le_iff_toNat_le.mpr (by omega),
    fun first others hfirst hforest => hforest.node hfirst hnext⟩

theorem replaces_ident (lead name : String) : Replaces id [] (ident lead name) :=
  replaces_nodeWith _ _

theorem replaces_reference (lead : String) (var : Node) : Replaces id [] (reference lead var) :=
  replaces_nodeWith _ _

theorem replaces_namedVar (lead name : String) (initializer : Option Node) :
    Replaces id initializer.toList (namedVar lead name initializer) := by
  refine (replaces_ident "" name).bind fun name => ?_
  refine (replaces_nodeWith _ _).perm (List.Perm.of_eq ?_)
  cases initializer <;> rfl

theorem replaces_localVar (lead typeName name : String) (initializer : Option Node) :
    Replaces Prod.fst initializer.toList (localVar lead typeName name initializer) := by
  refine (replaces_ident "" typeName).bind fun typeExpr => ?_
  refine Replaces.perm ?_ (List.perm_append_singleton typeExpr _).symm
  refine (replaces_namedVar " " name initializer).bind fun var => ?_
  have hdecl := (replaces_nodeWith (.leading lead) (.variableDecls [] (some typeExpr) [var])).perm
    (List.Perm.swap typeExpr var [])
  exact hdecl.bind (m := []) fun decl => .pure (decl, var)

theorem replaces_lambdaParam (lead name : String) :
    Replaces Prod.fst [] (lambdaParam lead name) := by
  refine (replaces_namedVar "" name none).bind fun var => ?_
  exact (replaces_nodeWith _ _).bind (m := []) fun decl => .pure (decl, var)

theorem mem_children_of_localVar {lead typeName name : String} {initializer : Option Node}
    {decl var : Node} (h : Yields (localVar lead typeName name initializer) s (decl, var) s') :
    var ∈ decl.children := by
  simp only [localVar, node, yields_bind, yields_pure, yields_nodeWith, Prod.mk.injEq] at h
  obtain ⟨typeExpr, _, -, _, _, -, _, _, ⟨rfl, -⟩, ⟨rfl, rfl⟩, -⟩ := h
  simp [Node.children, Kind.children]

theorem mem_children_of_lambdaParam {lead name : String} {decl var : Node}
    (h : Yields (lambdaParam lead name) s (decl, var) s') : var ∈ decl.children := by
  simp only [lambdaParam, node, yields_bind, yields_pure, yields_nodeWith, Prod.mk.injEq] at h
  obtain ⟨_, _, -, _, _, ⟨rfl, -⟩, ⟨rfl, rfl⟩, -⟩ := h
  simp [Node.children, Kind.children]

theorem replaces_method (lead : String) (modifiers : List Node) (returnType : Option Node)
    (name : String) (params : List Node) (body : Option Node) :
    Replaces id (modifiers ++ returnType.toList ++ params ++ body.toList)
      (method lead modifiers returnType name params body) := by
  refine (replaces_ident _ name).bind fun name => (replaces_nodeWith _ _).perm ?_
  have hmiddle : (modifiers ++ returnType.toList ++ name :: (params ++ body.toList)).Perm _ :=
    List.perm_middle
  simpa [Kind.children] using hmiddle.symm

theorem replaces_classDecl (lead : String) (kind : ClassKind) (modifiers : List Node)
    (name : String) (typeParams superclass : Option Node) (body : Node) (ty : Ty) :
    Replaces id (modifiers ++ typeParams.toList ++ superclass.toList ++ [body])
      (classDecl lead kind modifiers name typeParams superclass body ty) := by
  refine (replaces_ident " " name).bind fun name => (replaces_nodeWith _ _).perm ?_
  have hmiddle : (modifiers ++ name :: (typeParams.toList ++ superclass.toList ++ [body])).Perm _ :=
    List.perm_middle
  cases superclass <;> simpa [Kind.children] using hmiddle.symm

theorem replaces_typeParameter (lead name : String) : Replaces id [] (typeParameter lead name) :=
  (replaces_ident "" name).bind fun _ => replaces_nodeWith _ _

end Build

-- ---------------------------------------------------------------------------
-- Steps
-- ---------------------------------------------------------------------------

namespace BuildStep

/-- The node that a step makes, for steps that make one node and nothing below it. -/
def kind? : BuildStep → Option (Formatting × Kind Nat)
  | nodeWith formatting kind => some (formatting, kind)
  | ident lead name ty => some (.leading lead, .ident name ty none)
  | formattedIdent formatting name ty => some (formatting, .ident name ty none)
  | modifier lead keyword => some (.leading lead, .modifier keyword)
  | literal lead text ty => some (.leading lead, .literal text ty)
  | empty lead => some (.leading lead, .empty)
  | variableDecls lead modifiers typeExpr vars =>
    some (.leading lead, .variableDecls modifiers typeExpr vars)
  | typeParameters lead params => some (.leading lead, .typeParameters params [])
  | typeParameterOf lead name bounds => some (.leading lead, .typeParameter name bounds)
  | compilationUnit classes eof => some (.leading "", .compilationUnit classes eof)
  | block lead statements finish => some (.leading lead, .block statements finish)
  | forLoop lead control body => some (.leading lead, .forLoop control body)
  | forControl lead init condition update =>
    some (.leading lead, .forControl init condition update)
  | returnStmt lead expression => some (.leading lead, .returnStmt expression)
  | fieldAccess lead target name => some (.leading lead, .fieldAccess target name)
  | methodInvocation lead select name args =>
    some (.leading lead, .methodInvocation select name args)
  | assign lead target value => some (.leading lead, .assign target value)
  | binary lead left operator right => some (.leading lead, .binary left operator right)
  | unary lead operator operand isPostfix =>
    some (.leading lead, .unary operator operand isPostfix)
  | lambda lead params parenthesized body =>
    some (.leading lead, .lambda params parenthesized body)
  | _ => none

/-- The numbers of the nodes that a step places below a new one. -/
def placed : BuildStep → List Nat
  | namedVar _ _ initializer | localVar _ _ _ initializer => initializer.toList
  | method _ modifiers returnType _ params body =>
    modifiers ++ returnType.toList ++ params ++ body.toList
  | classDecl _ _ modifiers _ typeParams superclass body _ =>
    modifiers ++ typeParams.toList ++ superclass.toList ++ [body]
  | step => (step.kind?.map fun made => made.2.children).getD []

/-- Whether a step is a call of a constructor or copies a node, and does not change a finished
    one. -/
def isCall : BuildStep → Bool
  | withTypeParameters _ _ => false
  | _ => true

theorem run_of_kind? {step : BuildStep} {formatting : Formatting} {kind : Kind Nat}
    (h : step.kind? = some (formatting, kind)) (made : List Node) :
    step.run made = do
      return [← Build.nodeWith formatting (← (noteRepeats kind).traverse (nodeAt made))] := by
  cases step <;> simp only [kind?, Option.some.injEq, Prod.mk.injEq, reduceCtorEq] at h <;>
    obtain ⟨rfl, rfl⟩ := h <;> rfl

end BuildStep

/-- The account of the nodes that have been made: for each number, the number of the node of which
    it is a copy, or itself; and of these, the ones that stand below a node. -/
structure Ledger where
  origins : List Nat := []
  placed : List Nat := []

namespace Ledger

def origin (l : Ledger) (number : Nat) : Nat := l.origins[number]?.getD number

/-- Adds a node with an origin of its own. -/
def add (l : Ledger) (placed : List Nat) : Ledger :=
  ⟨l.origins ++ [l.origins.length], l.placed ++ placed⟩

/-- The account after a step. A copy stands for its original, and the variables that are made
    together with their declarations are placed there. -/
def enter (l : Ledger) (step : BuildStep) : Ledger :=
  let placed := step.placed.map l.origin
  match step with
  | .skipId => l
  | .withLead node _ | .withTrail node _ => { l with origins := l.origins ++ [l.origin node] }
  | .localVar .. | .lambdaParam .. => (l.add placed).add [l.origins.length + 1]
  | _ => l.add placed

end Ledger

/-- Whether a construction places every node at most once, a node and its copies counted as one. -/
def Blueprint.PlacesOnce (blueprint : Blueprint) : Prop :=
  (blueprint.foldl Ledger.enter {}).placed.Nodup

instance (blueprint : Blueprint) : Decidable blueprint.PlacesOnce :=
  inferInstanceAs (Decidable (blueprint.foldl Ledger.enter {}).placed.Nodup)

-- ---------------------------------------------------------------------------
-- Runs
-- ---------------------------------------------------------------------------

namespace Ledger

variable {l : Ledger} {first next next' : NodeId} {made : List Node}

/-- Picked nodes that stand nowhere yet, no two of them copies of one node. -/
structure Free (l : Ledger) (made : List Node) (picks : List (Nat × Node)) : Prop where
  made : ∀ p ∈ picks, made[p.1]? = some p.2
  unplaced : ∀ p ∈ picks, l.origin p.1 ∉ l.placed
  nodup : (picks.map fun p => l.origin p.1).Nodup

/-- Of the nodes that were made, each is a sound tree, and free ones are a forest together. -/
structure Covers (l : Ledger) (first next : NodeId) (made : List Node) : Prop where
  first_le : first ≤ next
  length_eq : l.origins.length = made.length
  origin_lt : ∀ o ∈ l.origins, o < made.length
  sound : ∀ tree ∈ made, Forest first next [tree]
  forest : ∀ picks, l.Free made picks → Forest first next (picks.map Prod.snd)

theorem Covers.mono (h : l.Covers first next made) (hle : next ≤ next') :
    l.Covers first next' made where
  first_le := UInt32.le_trans h.first_le hle
  length_eq := h.length_eq
  origin_lt := h.origin_lt
  sound tree htree := (h.sound tree htree).mono hle
  forest picks hfree := (h.forest picks hfree).mono hle

theorem origin_lt_of_covers (h : l.Covers first next made) {i : Nat} (hi : i < made.length) :
    l.origin i < made.length := by
  rw [← h.length_eq] at hi
  rw [origin, List.getElem?_eq_getElem hi]
  exact h.origin_lt _ (List.getElem_mem hi)

/-- Later nodes do not change the origins of earlier ones. -/
theorem origin_append (l : Ledger) (origins placed : List Nat) {i : Nat}
    (hi : i < l.origins.length) : origin ⟨l.origins ++ origins, placed⟩ i = l.origin i := by
  rw [origin, origin, List.getElem?_append_left hi]

theorem Free.sublist {picks picks' : List (Nat × Node)} (h : l.Free made picks)
    (hsub : picks'.Sublist picks) : l.Free made picks' where
  made p hp := h.made p (hsub.subset hp)
  unplaced p hp := h.unplaced p (hsub.subset hp)
  nodup := h.nodup.sublist (hsub.map _)

/-- Of the free nodes, those that were there before one more node were free then. -/
theorem Free.before {n : Node} {o : Nat} {placed : List Nat} {picks : List (Nat × Node)}
    (h : Free ⟨l.origins ++ [o], l.placed ++ placed⟩ (made ++ [n]) picks)
    (hlength : l.origins.length = made.length) (hold : ∀ p ∈ picks, p.1 < made.length) :
    l.Free made picks ∧ ∀ p ∈ picks, l.origin p.1 ∉ placed := by
  have horigin : ∀ p ∈ picks, origin ⟨l.origins ++ [o], l.placed ++ placed⟩ p.1 = l.origin p.1 :=
    fun p hp => origin_append l [o] _ (hlength ▸ hold p hp)
  have hunplaced : ∀ p ∈ picks, l.origin p.1 ∉ l.placed ++ placed := fun p hp =>
    horigin p hp ▸ h.unplaced p hp
  refine ⟨⟨fun p hp => ?_, fun p hp hmem => ?_, ?_⟩, fun p hp hmem => ?_⟩
  · rw [← h.made p hp, List.getElem?_append_left (hold p hp)]
  · exact hunplaced p hp (List.mem_append_left _ hmem)
  · rw [← List.map_congr_left horigin]
    exact h.nodup
  · exact hunplaced p hp (List.mem_append_right _ hmem)

/-- The last node has the origin that was noted for it. -/
theorem origin_last {o : Nat} {placed : List Nat} (hlength : l.origins.length = made.length) :
    origin ⟨l.origins ++ [o], placed⟩ made.length = o := by
  simp [origin, ← hlength]

/-- A node is either the last one or was there before it. -/
theorem Free.lt_or_eq {n : Node} {picks : List (Nat × Node)} (h : l.Free (made ++ [n]) picks) :
    ∀ p ∈ picks, p.1 < made.length ∨ p = (made.length, n) := by
  intro p hp
  have hget := h.made p hp
  rcases Nat.lt_or_ge p.1 made.length with hlt | hge
  · exact .inl hlt
  · rw [List.getElem?_append_right hge, List.getElem?_singleton] at hget
    split at hget
    · refine .inr (Prod.ext ?_ (Option.some.inj hget).symm)
      omega
    · cases hget

/-- The nodes that are free besides the last one were free before it, and have other origins. -/
theorem Free.besides {n : Node} {o : Nat} {placed : List Nat} {picks : List (Nat × Node)}
    (h : Free ⟨l.origins ++ [o], l.placed ++ placed⟩ (made ++ [n]) picks)
    (hlength : l.origins.length = made.length) (hnew : (made.length, n) ∈ picks) :
    ∃ others, ((made.length, n) :: others).Perm picks ∧ l.Free made others ∧
      ∀ p ∈ others, l.origin p.1 ∉ o :: placed := by
  obtain ⟨before, after, rfl⟩ := List.append_of_mem hnew
  have hsub : (before ++ after).Sublist (before ++ (made.length, n) :: after) :=
    (List.Sublist.refl before).append (List.sublist_cons_self _ _)
  have hperm : (before ++ (made.length, n) :: after).Perm ((made.length, n) :: (before ++ after)) :=
    List.perm_middle
  have hnodup := (hperm.map _).nodup_iff.mp h.nodup
  rw [List.map_cons, List.nodup_cons, origin_last hlength] at hnodup
  have hold : ∀ p ∈ before ++ after, p.1 < made.length := by
    intro p hp
    refine (h.lt_or_eq p (hsub.subset hp)).resolve_right ?_
    rintro rfl
    exact hnodup.1 (List.mem_map.mpr ⟨_, hp, origin_last hlength⟩)
  obtain ⟨hbefore, hunplaced⟩ := (h.sublist hsub).before hlength hold
  refine ⟨before ++ after, hperm.symm, hbefore, fun p hp hmem => ?_⟩
  rcases List.mem_cons.mp hmem with heq | hmem
  · have horigin := origin_append l [o] (l.placed ++ placed) (hlength ▸ hold p hp)
    exact hnodup.1 (List.mem_map.mpr ⟨p, hp, horigin.trans heq⟩)
  · exact hunplaced p hp hmem

/-- The account after one more node, with its origin and the origins that are placed now. -/
theorem Covers.push {n : Node} {o : Nat} {placed : List Nat} (h : l.Covers first next made)
    (hle : next ≤ next') (ho : o ≤ made.length) (hsound : Forest first next' [n])
    (hforest : ∀ picks, l.Free made picks → (∀ p ∈ picks, l.origin p.1 ∉ o :: placed) →
      o ∉ l.placed ++ placed → Forest first next' (n :: picks.map Prod.snd)) :
    Covers ⟨l.origins ++ [o], l.placed ++ placed⟩ first next' (made ++ [n]) where
  first_le := UInt32.le_trans h.first_le hle
  length_eq := by simp [h.length_eq]
  origin_lt o' ho' := by
    rw [List.length_append, List.length_singleton]
    rcases List.mem_append.mp ho' with ho' | ho'
    · exact Nat.lt_succ_of_lt (h.origin_lt o' ho')
    · rw [List.mem_singleton.mp ho']
      exact Nat.lt_succ_of_le ho
  sound tree htree := by
    rcases List.mem_append.mp htree with htree | htree
    · exact (h.sound tree htree).mono hle
    · rw [List.mem_singleton.mp htree]
      exact hsound
  forest picks hfree := by
    by_cases hnew : (made.length, n) ∈ picks
    · obtain ⟨others, hperm, hothers, hne⟩ := hfree.besides h.length_eq hnew
      have hunplaced := hfree.unplaced _ hnew
      rw [origin_last h.length_eq] at hunplaced
      exact (hforest others hothers hne hunplaced).perm (hperm.map Prod.snd)
    · have hold : ∀ p ∈ picks, p.1 < made.length := fun p hp =>
        (hfree.lt_or_eq p hp).resolve_right fun heq => hnew (heq ▸ hp)
      exact (h.forest picks (hfree.before h.length_eq hold).1).mono hle

/-- A tree that was made around free nodes takes their places. -/
theorem Covers.add {n : Node} {args : List (Nat × Node)} (h : l.Covers first next made)
    (hle : next ≤ next') (hargs : ∀ p ∈ args, made[p.1]? = some p.2)
    (hnodup : (l.placed ++ args.map fun p => l.origin p.1).Nodup)
    (hmake : ∀ others, Forest first next (args.map Prod.snd ++ others) →
      Forest first next' (n :: others)) :
    (l.add (args.map fun p => l.origin p.1)).Covers first next' (made ++ [n]) := by
  obtain ⟨-, hself, hdisjoint⟩ := List.nodup_append.mp hnodup
  have hfree : l.Free made args :=
    ⟨hargs, fun p hp hmem => hdisjoint _ hmem _ (List.mem_map_of_mem hp) rfl, hself⟩
  have hsound := hmake [] (by simpa using h.forest args hfree)
  refine h.push hle (Nat.le_of_eq h.length_eq) hsound fun picks hpicks hunplaced _ => hmake _ ?_
  rw [← List.map_append]
  refine h.forest _ ⟨fun p hp => ?_, fun p hp => ?_, ?_⟩
  · exact (List.mem_append.mp hp).elim (hargs p) (hpicks.made p)
  · exact (List.mem_append.mp hp).elim (hfree.unplaced p) (hpicks.unplaced p)
  · rw [List.map_append]
    refine List.nodup_append.mpr ⟨hself, hpicks.nodup, ?_⟩
    rintro o ho _ ho' rfl
    obtain ⟨p, hp, rfl⟩ := List.mem_map.mp ho'
    exact hunplaced p hp (List.mem_cons_of_mem _ ho)

/-- A tree that stands below another one from the start is never free. -/
theorem Covers.hide {n : Node} (h : l.Covers first next made) (hsound : Forest first next [n]) :
    (l.add [l.origins.length]).Covers first next (made ++ [n]) := by
  refine h.push (UInt32.le_refl _) (Nat.le_of_eq h.length_eq) hsound fun _ _ _ hunplaced => ?_
  exact absurd (List.mem_append_right _ (List.mem_singleton_self _)) hunplaced

/-- A declaration that takes the places of free nodes, and its variable. -/
theorem Covers.declare {decl var : Node} {placed : List Nat}
    (h : (l.add placed).Covers first next (made ++ [decl])) (hvar : var ∈ decl.children) :
    ((l.add placed).add [l.origins.length + 1]).Covers first next (made ++ [decl, var]) := by
  have hsound := (h.sound decl (by simp)).child hvar
  have hlength : (l.add placed).origins.length = l.origins.length + 1 := by simp [Ledger.add]
  rw [← hlength]
  simpa using h.hide hsound

/-- A copy with other text around it stands for its original. -/
theorem Covers.copy {n : Node} {i : Nat} (h : l.Covers first next made) (hn : made[i]? = some n)
    (formatting : Formatting) :
    Covers { l with origins := l.origins ++ [l.origin i] } first next
      (made ++ [n.withFormatting formatting]) := by
  have hi : i < made.length := (List.getElem?_eq_some_iff.mp hn).1
  have hcopy : Covers ⟨l.origins ++ [l.origin i], l.placed ++ []⟩ first next
      (made ++ [n.withFormatting formatting]) := by
    refine h.push (UInt32.le_refl _) (Nat.le_of_lt (origin_lt_of_covers h hi))
      ((h.sound n (List.mem_of_getElem? hn)).withFormatting formatting) ?_
    intro picks hpicks hne hunplaced
    rw [List.append_nil] at hunplaced
    refine (h.forest ((i, n) :: picks) ⟨?_, ?_, ?_⟩).withFormatting formatting
    · exact List.forall_mem_cons.mpr ⟨hn, hpicks.made⟩
    · exact List.forall_mem_cons.mpr ⟨hunplaced, hpicks.unplaced⟩
    · rw [List.map_cons, List.nodup_cons]
      refine ⟨fun hmem => ?_, hpicks.nodup⟩
      obtain ⟨p, hp, heq⟩ := List.mem_map.mp hmem
      exact hne p hp (heq ▸ List.mem_cons_self)
  simpa using hcopy

/-- What a constructor makes of free nodes takes their places. -/
theorem Covers.construct {α : Type} {t : α → Node} {x : Build α} {s s' : NodeId × Unit} {a : α}
    {numbers : List Nat} {trees : List Node} (h : l.Covers first s.1 made)
    (hx : Build.Replaces t trees x) (hrun : Yields x s a s') (args : List (Nat × Node))
    (hfst : args.map Prod.fst = numbers) (hsnd : args.map Prod.snd = trees)
    (hargs : ∀ p ∈ args, made[p.1]? = some p.2)
    (hnodup : (l.placed ++ numbers.map l.origin).Nodup) :
    (l.add (numbers.map l.origin)).Covers first s'.1 (made ++ [t a]) := by
  subst hfst hsnd
  rw [List.map_map] at hnodup ⊢
  obtain ⟨hle, hreplace⟩ := hx hrun
  exact h.add hle hargs hnodup fun others => hreplace first others h.first_le

end Ledger

namespace BuildStep

open Ledger

variable {made new : List Node} {s s' : NodeId × Unit} {l : Ledger} {first : NodeId}

theorem yields_nodeAt {i : Nat} {n : Node} :
    Yields (nodeAt made i) s n s' ↔ made[i]? = some n ∧ s = s' := by
  unfold nodeAt
  cases hget : made[i]? with
  | some m => simp [yields_pure]
  | none =>
    constructor
    · intro h
      cases h
    · rintro ⟨h, -⟩
      cases h

theorem passes_nodeAt {picks : List (Nat × Node)} (h : Passes (stepOf (nodeAt made)) picks s s') :
    s = s' ∧ ∀ p ∈ picks, made[p.1]? = some p.2 := by
  induction h with
  | nil s => exact ⟨rfl, by simp⟩
  | cons hp _ ih =>
    obtain ⟨hget, rfl⟩ := yields_nodeAt.mp hp
    exact ⟨ih.1, List.forall_mem_cons.mpr ⟨hget, ih.2⟩⟩

@[simp] theorem children_noteRepeats (kind : Kind Nat) :
    (noteRepeats kind).children = kind.children := by
  cases kind <;> rfl

theorem enter_of_kind? {step : BuildStep} {formatting : Formatting} {kind : Kind Nat}
    (h : step.kind? = some (formatting, kind)) (l : Ledger) :
    l.enter step = l.add (kind.children.map l.origin) := by
  cases step <;> simp only [kind?, Option.some.injEq, Prod.mk.injEq, reduceCtorEq] at h <;>
    obtain ⟨rfl, rfl⟩ := h <;> rfl

/-- A step that makes one node keeps the account right. -/
theorem covers_of_kind? {step : BuildStep} {formatting : Formatting} {kind : Kind Nat}
    (hkind : step.kind? = some (formatting, kind)) (h : l.Covers first s.1 made)
    (hnodup : (l.enter step).placed.Nodup) (hrun : Yields (step.run made) s new s') :
    (l.enter step).Covers first s'.1 (made ++ new) := by
  rw [run_of_kind? hkind] at hrun
  simp only [yields_bind, yields_pure, Kind.yields_traverse] at hrun
  obtain ⟨_, s₁, ⟨z, hfst, rfl, hpass⟩, n, _, hmake, rfl, rfl⟩ := hrun
  obtain ⟨rfl, hargs⟩ := passes_nodeAt hpass
  rw [enter_of_kind? hkind] at hnodup ⊢
  refine h.construct (Build.replaces_nodeWith _ _) hmake z.children ?_ ?_ hargs hnodup
  · rw [← Kind.children_map, hfst, children_noteRepeats]
  · rw [Kind.children_map]

/-- Every call of a constructor keeps the account right. -/
theorem covers_of_isCall {step : BuildStep} (hcall : step.isCall = true)
    (h : l.Covers first s.1 made) (hnodup : (l.enter step).placed.Nodup)
    (hrun : Yields (step.run made) s new s') : (l.enter step).Covers first s'.1 (made ++ new) := by
  rcases hkind : step.kind? with _ | ⟨formatting, kind⟩
  swap
  · exact covers_of_kind? hkind h hnodup hrun
  cases step with
  | skipId =>
    simp only [run, yields_bind, yields_pure, Build.yields_fresh] at hrun
    obtain ⟨_, _, ⟨-, hnext⟩, rfl, rfl⟩ := hrun
    have := NodeId.toNat_of_next? hnext
    rw [List.append_nil]
    exact h.mono (UInt32.le_iff_toNat_le.mpr (by omega))
  | reference lead var =>
    simp only [run, yields_bind, yields_pure, yields_nodeAt] at hrun
    obtain ⟨target, _, ⟨-, rfl⟩, n, _, hmake, rfl, rfl⟩ := hrun
    exact h.construct (Build.replaces_reference lead target) hmake [] rfl rfl (by simp) hnodup
  | namedVar lead name initializer =>
    simp only [run, yields_bind, yields_pure, Kind.yields_mapM_option] at hrun
    obtain ⟨_, _, ⟨z, rfl, rfl, hpass⟩, n, _, hmake, rfl, rfl⟩ := hrun
    obtain ⟨rfl, hargs⟩ := passes_nodeAt hpass
    exact h.construct (Build.replaces_namedVar _ _ _) hmake z.toList
      Option.toList_map.symm Option.toList_map.symm hargs hnodup
  | localVar lead typeName name initializer =>
    simp only [run, yields_bind, yields_pure, Kind.yields_mapM_option] at hrun
    obtain ⟨_, _, ⟨z, rfl, rfl, hpass⟩, ⟨decl, var⟩, _, hmake, rfl, rfl⟩ := hrun
    obtain ⟨rfl, hargs⟩ := passes_nodeAt hpass
    have hdecl := h.construct (Build.replaces_localVar _ _ _ _) hmake z.toList
      Option.toList_map.symm Option.toList_map.symm hargs (List.nodup_append.mp hnodup).1
    exact hdecl.declare (Build.mem_children_of_localVar hmake)
  | lambdaParam lead name =>
    simp only [run, yields_bind, yields_pure] at hrun
    obtain ⟨⟨decl, var⟩, _, hmake, rfl, rfl⟩ := hrun
    have hdecl := h.construct (Build.replaces_lambdaParam _ _) hmake [] rfl rfl (by simp)
      (List.nodup_append.mp hnodup).1
    exact hdecl.declare (Build.mem_children_of_lambdaParam hmake)
  | method lead modifiers returnType name params body =>
    simp only [run, yields_bind, yields_pure, Kind.yields_mapM_option, yields_mapM] at hrun
    obtain ⟨_, _, ⟨ms, rfl, rfl, hms⟩, _, _, ⟨rt, rfl, rfl, hrt⟩, _, _, ⟨ps, rfl, rfl, hps⟩, _, _,
      ⟨b, rfl, rfl, hb⟩, n, _, hmake, rfl, rfl⟩ := hrun
    have hpass := Passes.append_iff.mpr ⟨_, Passes.append_iff.mpr ⟨_, Passes.append_iff.mpr
      ⟨_, hms, hrt⟩, hps⟩, hb⟩
    obtain ⟨rfl, hargs⟩ := passes_nodeAt hpass
    exact h.construct (Build.replaces_method _ _ _ _ _ _) hmake _
      (by simp [placed, Option.toList_map]) (by simp [Option.toList_map]) hargs hnodup
  | classDecl lead kind modifiers name typeParams superclass body ty =>
    simp only [run, yields_bind, yields_pure, Kind.yields_mapM_option, yields_mapM] at hrun
    obtain ⟨_, _, ⟨ms, rfl, rfl, hms⟩, _, _, ⟨ts, rfl, rfl, hts⟩, _, _, ⟨sc, rfl, rfl, hsc⟩, b, _,
      hb, n, _, hmake, rfl, rfl⟩ := hrun
    have hbody : Passes (stepOf (nodeAt made)) [(body, b)] _ _ := .cons hb (.nil _)
    have hpass := Passes.append_iff.mpr ⟨_, Passes.append_iff.mpr ⟨_, Passes.append_iff.mpr
      ⟨_, hms, hts⟩, hsc⟩, hbody⟩
    obtain ⟨rfl, hargs⟩ := passes_nodeAt hpass
    exact h.construct (Build.replaces_classDecl _ _ _ _ _ _ _ _) hmake _
      (by simp [placed, Option.toList_map]) (by simp [Option.toList_map]) hargs hnodup
  | typeParameter lead name =>
    simp only [run, yields_bind, yields_pure] at hrun
    obtain ⟨n, _, hmake, rfl, rfl⟩ := hrun
    exact h.construct (Build.replaces_typeParameter lead name) hmake [] rfl rfl (by simp) hnodup
  | withLead node lead =>
    simp only [run, yields_bind, yields_pure, yields_nodeAt] at hrun
    obtain ⟨n, _, ⟨hn, rfl⟩, rfl, rfl⟩ := hrun
    exact h.copy hn _
  | withTrail node trail =>
    simp only [run, yields_bind, yields_pure, yields_nodeAt] at hrun
    obtain ⟨n, _, ⟨hn, rfl⟩, rfl, rfl⟩ := hrun
    exact h.copy hn _
  | withTypeParameters _ _ => cases hcall
  | _ => cases hkind

end BuildStep

namespace Ledger

/-- What has been placed stays placed. -/
theorem placed_prefix_enter (l : Ledger) (step : BuildStep) :
    l.placed <+: (l.enter step).placed := by
  cases step <;>
    first
    | exact List.prefix_refl _
    | exact List.prefix_append _ _
    | exact (List.prefix_append _ _).trans (List.prefix_append _ _)

theorem placed_prefix_foldl (l : Ledger) (blueprint : Blueprint) :
    l.placed <+: (blueprint.foldl enter l).placed := by
  induction blueprint generalizing l with
  | nil => exact List.prefix_refl _
  | cons step steps ih => exact (l.placed_prefix_enter step).trans (ih _)

end Ledger

namespace Blueprint

variable {first next : NodeId} {blueprint : Blueprint}

/-- A whole run keeps the account right. -/
theorem covers_of_runFrom {l : Ledger} {made : List Node} {steps : List (List Node)}
    {s s' : NodeId × Unit} (hcalls : ∀ step ∈ blueprint, step.isCall = true)
    (h : l.Covers first s.1 made) (hnodup : (blueprint.foldl Ledger.enter l).placed.Nodup)
    (hrun : Yields (blueprint.runFrom made) s steps s') :
    (blueprint.foldl Ledger.enter l).Covers first s'.1 (made ++ steps.flatten) := by
  induction blueprint generalizing l made steps s with
  | nil =>
    obtain ⟨rfl, rfl⟩ := yields_pure.mp hrun
    simpa using h
  | cons step blueprint ih =>
    simp only [runFrom, yields_bind, yields_pure] at hrun
    obtain ⟨new, s₁, hstep, rest, _, hrest, rfl, rfl⟩ := hrun
    have henter := BuildStep.covers_of_isCall (hcalls step List.mem_cons_self) h
      (hnodup.sublist (Ledger.placed_prefix_foldl _ blueprint).sublist) hstep
    have hall := ih (fun step hmem => hcalls step (List.mem_cons_of_mem _ hmem)) henter hnodup hrest
    simpa using hall

theorem covers_nil (first : NodeId) : Ledger.Covers {} first first [] where
  first_le := UInt32.le_refl _
  length_eq := rfl
  origin_lt := by simp
  sound := by simp
  forest picks hfree := by
    have hpicks : picks = [] := List.eq_nil_iff_forall_not_mem.mpr fun p hp => by
      simpa using hfree.made p hp
    rw [hpicks]
    exact Forest.nil first first

/-- The trees of a construction that places every node at most once: their ids are distinct and were
    handed out by the counter, and every node has a larger id than all below it, so that the root
    has the largest of all. -/
theorem ids_of_runFrom {steps : List (List Node)}
    (hcalls : ∀ step ∈ blueprint, step.isCall = true) (honce : blueprint.PlacesOnce)
    (hrun : (blueprint.runFrom []).run first = .ok (steps, next)) :
    ∀ tree ∈ steps.flatten, tree.DistinctIds ∧ (∀ i ∈ tree.ids, first ≤ i ∧ i < next) ∧
      tree.ParentLast ∧ tree.maxId = tree.id := by
  intro tree htree
  have hyields : Yields (blueprint.runFrom []) (first, ()) steps (next, ()) := hrun
  have hcovers := covers_of_runFrom hcalls (covers_nil first) honce hyields
  have hforest := hcovers.sound tree (by simpa using htree)
  have hlast := hforest.parentLast tree (List.mem_singleton_self _)
  refine ⟨?_, ?_, hlast, hlast.maxId_eq⟩
  · simpa [Node.DistinctIds] using hforest.nodup
  · simpa using hforest.range

/-- The construction of `class A<T> { int m(){ int n; return n; } }`, with the text before the
    declaration of `n` changed afterwards. -/
def genericClass : Blueprint :=
  [.localVar "" "int" "n" none, .reference " " 1, .returnStmt " " (some 2), .withLead 0 " ",
    .block "" [4, 3] " ", .ident "" "int" .unknown, .method " " [] (some 6) "m" [] (some 5),
    .typeParameter "" "T", .typeParameters "" [8], .block " " [7] " ",
    .classDecl "" .plain [] "A" (some 9) none 10 .unknown]

/-- Twelve trees come from `genericClass`, the last one being the class, and they are well numbered. -/
theorem ids_of_runFrom_genericClass :
    ∃ steps, (genericClass.runFrom []).run 7 = .ok (steps, 23) ∧
      (∀ step ∈ genericClass, step.isCall = true) ∧ genericClass.PlacesOnce ∧
      steps.map List.length = [2, 1, 1, 1, 1, 1, 1, 1, 1, 1, 1] ∧
      (steps.flatten.getLast?.map fun tree => (tree.tag, tree.id)) = some (.classDecl, 22) ∧
      ∀ tree ∈ steps.flatten, tree.DistinctIds ∧ (∀ i ∈ tree.ids, 7 ≤ i ∧ i < 23) ∧
        tree.ParentLast ∧ tree.maxId = tree.id := by
  obtain ⟨steps, hrun, hlengths, hlast⟩ : ∃ steps,
      (genericClass.runFrom []).run 7 = .ok (steps, 23) ∧
        steps.map List.length = [2, 1, 1, 1, 1, 1, 1, 1, 1, 1, 1] ∧
        (steps.flatten.getLast?.map fun tree => (tree.tag, tree.id)) = some (.classDecl, 22) :=
    ⟨_, rfl, rfl, rfl⟩
  have hcalls : ∀ step ∈ genericClass, step.isCall = true := by decide
  have honce : genericClass.PlacesOnce := by decide
  exact ⟨steps, hrun, hcalls, honce, hlengths, hlast, ids_of_runFrom hcalls honce hrun⟩

end Blueprint

end Restyle
