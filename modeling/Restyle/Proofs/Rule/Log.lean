-- SUMMARY: The log of a run names all places where the tree was changed.
import Restyle.Command.Fix
import Restyle.Proofs.Naming.Renamed
import Restyle.Proofs.Rule.Ids

/-!
# The log

The edits of all rules are accountable: an edit keeps the node that was rebuilt, or it records the
node at which it stands. So a node stays as it is unless it, a node above it or a node below it was
recorded (`Cursor.exists_below_of_edited`). This carries over from one application to a whole run
(`Pipeline.run_accounts`), and a run that records nothing gives the tree back.
-/

namespace Restyle

/-! ## Sessions -/

/-- The nodes that a session has recorded. -/
def Session.recorded {σ : Type} (s : Session σ) : List NodeId := s.log.entries.map Transform.node

@[simp] theorem Session.recorded_record {σ : Type} (s : Session σ) (state : σ) (node : NodeId) :
    Session.recorded ⟨state, s.log.record node⟩ = s.recorded ++ [node] := by
  simp [recorded, TransformLog.record]

/-- Edits that keep the rebuilt node or record the node at which they stand, which is no modifier. -/
def Edit.Accountable {σ ε : Type} (edit : Cursor → Node → Edit σ ε Node) : Prop :=
  ∀ ⦃c : Cursor⦄ ⦃rebuilt n' : Node⦄ ⦃s s' : Session σ⦄, Yields (edit c rebuilt) s n' s' →
    (n' = rebuilt ∧ s'.recorded = s.recorded) ∨
      (c.node.isPlace = true ∧ s'.recorded = s.recorded ++ [c.node.id])

namespace Cursor

/-- No node of a list is the node at the cursor or stands above or below it. -/
def Untouched (recorded : List NodeId) (c : Cursor) : Prop :=
  ∀ i ∈ recorded, i ∉ c.node.ids ∧ i ∉ c.ancestors.map Node.id

instance (recorded : List NodeId) (c : Cursor) : Decidable (c.Untouched recorded) :=
  List.decidableBAll _ recorded

theorem Untouched.mono {recorded recorded' : List NodeId} {c : Cursor}
    (h : c.Untouched recorded') (hsubset : recorded ⊆ recorded') : c.Untouched recorded :=
  fun i hi => h i (hsubset hi)

/-- It is enough to look at the node and at the ids above it. -/
theorem Untouched.congr {recorded : List NodeId} {c c' : Cursor} (h : c.Untouched recorded)
    (hnode : c'.node = c.node) (habove : c'.ancestors.map Node.id = c.ancestors.map Node.id) :
    c'.Untouched recorded := by
  intro i hi
  rw [hnode, habove]
  exact h i hi

variable {σ ε : Type} {edit : Cursor → Node → Edit σ ε Node} {c : Cursor} {n' : Node}
variable {s s' : Session σ}

/-- Nothing is taken out of the log. -/
theorem recorded_subset_of_edited (hedit : Edit.Accountable edit)
    (h : Yields (c.edited edit) s n' s') : s.recorded ⊆ s'.recorded := by
  refine edit_induct (P := fun _ s _ s' => s.recorded ⊆ s'.recorded) ?_ h
  intro c z n' s s₁ s' _ hpass hyields
  have hbelow : s.recorded ⊆ s₁.recorded :=
    (hpass.exists_step (R := fun s s' : Session σ => s.recorded ⊆ s'.recorded)
      (fun _ => List.Subset.refl _) (fun _ _ _ => List.Subset.trans) fun _ _ _ h => h).1
  rcases hedit hyields with ⟨_, hlog⟩ | ⟨_, hlog⟩
  · rw [hlog]
    exact hbelow
  · rw [hlog]
    exact List.subset_append_of_subset_left _ hbelow

/-- All children of an edited node are edited, and what they record stays recorded. -/
theorem exists_yields_of_pairs (hedit : Edit.Accountable edit) {z : Kind (Node × Node)}
    (hpass : Passes (Kind.stepAt fun child i => edited edit ⟨child, c.path, i⟩)
      z.children.zipIdx s s') {p : (Node × Node) × Nat} (hp : p ∈ z.children.zipIdx) :
    ∃ t t', Yields (edited edit ⟨p.1.1, c.path, p.2⟩) t p.1.2 t' ∧
      t'.recorded ⊆ s'.recorded := by
  obtain ⟨t, t', _, hchild, hsubset⟩ :=
    (hpass.exists_step (R := fun s s' : Session σ => s.recorded ⊆ s'.recorded)
      (fun _ => List.Subset.refl _) (fun _ _ _ => List.Subset.trans)
      fun _ _ _ h => recorded_subset_of_edited hedit h).2 p hp
  exact ⟨t, t', hchild, hsubset⟩

/-- Only nodes at and below the cursor are recorded, and no modifiers. -/
theorem mem_recorded_of_edited (hedit : Edit.Accountable edit)
    (h : Yields (c.edited edit) s n' s') {i : NodeId} (hi : i ∈ s'.recorded) :
    i ∈ s.recorded ∨ ∃ d ∈ c.below, d.node.isPlace = true ∧ d.node.id = i := by
  refine edit_induct (P := fun c s _ s' => i ∈ s'.recorded →
    i ∈ s.recorded ∨ ∃ d ∈ c.below, d.node.isPlace = true ∧ d.node.id = i) ?_ h hi
  intro c z n' s s₁ s' hfst hpass hyields hi
  have hchildren : i ∈ s₁.recorded →
      i ∈ s.recorded ∨ ∃ d ∈ c.below, d.node.isPlace = true ∧ d.node.id = i := by
    refine (Passes.exists_step (R := fun s s' : Session σ => i ∈ s'.recorded →
      i ∈ s.recorded ∨ ∃ d ∈ c.below, d.node.isPlace = true ∧ d.node.id = i)
      (fun _ => .inl) ?_ (fun _ _ _ h => h) (hpass.mono fun p hp t t' hstep hi => ?_)).1
    · intro t t' t'' hfirst hsecond hi
      rcases hsecond hi with hi | hbelow
      · exact hfirst hi
      · exact .inr hbelow
    · rcases hstep hi with hi | ⟨d, hd, hplace⟩
      · exact .inl hi
      · exact .inr ⟨d, mem_below.mpr (.inr ⟨_, mem_children_of_pairs hfst hp, hd⟩), hplace⟩
  rcases hedit hyields with ⟨_, hlog⟩ | ⟨hplace, hlog⟩
  · exact hchildren (hlog ▸ hi)
  · rcases List.mem_append.mp (hlog ▸ hi) with hi | hi
    · exact hchildren hi
    · exact .inr ⟨c, c.mem_below_self, hplace, (List.mem_singleton.mp hi).symm⟩

/-- A node of which nothing is recorded stays as it is. -/
theorem edited_eq_self (hedit : Edit.Accountable edit) (h : Yields (c.edited edit) s n' s')
    (hfree : ∀ i ∈ s'.recorded, i ∉ c.node.ids) : n' = c.node := by
  induction c using induct generalizing n' s s' with
  | step c ih =>
    obtain ⟨z, s₁, hfst, hpass, hyields⟩ := yields_edited.mp h
    rcases hedit hyields with ⟨rfl, hlog⟩ | ⟨_, hlog⟩
    · refine Node.rebuild_pairs_self hfst ?_
      intro q hq
      obtain ⟨i, hget⟩ := List.mem_iff_getElem?.mp hq
      have hp : (q, i) ∈ z.children.zipIdx := List.mem_zipIdx_iff_getElem?.mpr hget
      obtain ⟨t, t', hchild, hsubset⟩ := exists_yields_of_pairs hedit hpass hp
      have hmem := mem_children_of_pairs hfst hp
      refine ih _ hmem hchild ?_
      intro j hj hid
      refine hfree j (hlog ▸ hsubset hj) ?_
      rw [Node.ids_eq]
      exact List.mem_cons_of_mem _ (List.mem_flatMap.mpr
        ⟨_, List.mem_of_getElem? (mem_children.mp hmem).1, hid⟩)
    · refine absurd ?_ (hfree c.node.id (by simp [hlog]))
      rw [Node.ids_eq]
      exact List.mem_cons_self

/-- An untouched node is found again below the edited one, under the same ids. -/
theorem exists_below_of_edited (hedit : Edit.Accountable edit)
    (h : Yields (c.edited edit) s n' s') {d : Cursor} (hd : d ∈ c.below)
    (hfree : d.Untouched s'.recorded) {c' : Cursor} (hnode : c'.node = n')
    (habove : c'.ancestors.map Node.id = c.ancestors.map Node.id) :
    ∃ d' ∈ c'.below, d'.node = d.node ∧
      d'.ancestors.map Node.id = d.ancestors.map Node.id := by
  induction c using induct generalizing n' s s' c' with
  | step c ih =>
    rcases mem_below.mp hd with rfl | ⟨e, he, hde⟩
    · have hself := edited_eq_self hedit h fun i hi => (hfree i hi).1
      exact ⟨c', c'.mem_below_self, hnode.trans hself, habove⟩
    · obtain ⟨z, s₁, hfst, hpass, hyields⟩ := yields_edited.mp h
      -- The node at `c` stands above `d`, so its edit has recorded nothing.
      rcases hedit hyields with ⟨rfl, hlog⟩ | ⟨_, hlog⟩
      · obtain ⟨p, hp, rfl⟩ := exists_pair_of_mem_children hfst he
        obtain ⟨t, t', hchild, hsubset⟩ := exists_yields_of_pairs hedit hpass hp
        have hmem : (⟨p.1.2, c'.path, p.2⟩ : Cursor) ∈ c'.children := by
          refine mem_children.mpr ⟨?_, rfl⟩
          simp [hnode, List.mem_zipIdx_iff_getElem?.mp hp]
        have habove' : (Cursor.mk p.1.2 c'.path p.2).ancestors.map Node.id = c.path.map Node.id := by
          simp [path, hnode, habove]
        obtain ⟨d', hd', hsame⟩ := ih _ he hchild hde (hfree.mono (hlog ▸ hsubset)) rfl habove'
        exact ⟨d', mem_below.mpr (.inr ⟨_, hmem, hd'⟩), hsame⟩
      · have hmem : c.node ∈ d.ancestors := by
          refine (ancestors_suffix_of_mem_below hde).subset ?_
          rw [(mem_children.mp he).2]
          exact List.mem_cons_self
        exact absurd (List.mem_map_of_mem hmem) (hfree c.node.id (by simp [hlog])).2

end Cursor

/-! ## The edits of the rules -/

namespace Edit

variable {σ ε : Type} {c : Cursor} {rebuilt new n' : Node} {s s' : Session σ}

/-- Replacing the node at a cursor is accountable, unless it is a modifier. -/
theorem recorded_of_replace (hplace : c.node.isPlace = true)
    (h : Yields (Edit.replace c.node new : Edit σ ε Node) s n' s') :
    (n' = rebuilt ∧ s'.recorded = s.recorded) ∨
      (c.node.isPlace = true ∧ s'.recorded = s.recorded ++ [c.node.id]) := by
  obtain ⟨_, rfl⟩ := yields_replace.mp h
  exact .inr ⟨hplace, Session.recorded_record s s.state _⟩

theorem recorded_of_pure (h : Yields (pure rebuilt : Edit σ ε Node) s n' s') :
    (n' = rebuilt ∧ s'.recorded = s.recorded) ∨
      (c.node.isPlace = true ∧ s'.recorded = s.recorded ++ [c.node.id]) := by
  obtain ⟨rfl, rfl⟩ := yields_pure.mp h
  exact .inl ⟨rfl, rfl⟩

end Edit

theorem ForHeader.edit_accountable {σ ε : Type} (padding : String) :
    Edit.Accountable (edit padding : _ → _ → Edit σ ε Node) := by
  intro c rebuilt n' s s' h
  unfold edit at h
  split at h
  · rename_i hneeds
    obtain ⟨init, hinit⟩ := exists_emptyInitializer hneeds
    obtain ⟨control, body, _, _, hloop, _, _⟩ := emptyInitializer?_eq_some.mp hinit
    exact Edit.recorded_of_replace (by simp [Node.isPlace, Node.tag, hloop, Kind.tag]) h
  · exact Edit.recorded_of_pure h

theorem TypeParameterList.edit_accountable {σ : Type} :
    Edit.Accountable (edit : _ → _ → Edit σ TreeError Node) := by
  intro c rebuilt n' s s' h
  unfold edit at h
  split at h
  · rename_i htag
    unfold editList at h
    dsimp only at h
    split at h
    · exact Edit.recorded_of_replace (by simp [Node.isPlace, htag]) h
    · exact Edit.recorded_of_pure h
  · rename_i htag
    unfold editParameter at h
    obtain ⟨⟨isFirst, isLast⟩, _, hposition, h⟩ := yields_bind.mp h
    obtain ⟨_, rfl⟩ := Edit.yields_ofExcept.mp hposition
    dsimp only at h
    split at h
    · exact Edit.recorded_of_replace (by simp [Node.isPlace, htag]) h
    · exact Edit.recorded_of_pure h
  · exact Edit.recorded_of_pure h

theorem Renaming.edit_accountable {σ ε : Type} (target : NodeId) (name : String) :
    Edit.Accountable (edit target name : _ → _ → Edit σ ε Node) := by
  intro c rebuilt n' s s' h
  unfold edit at h
  split at h
  · rename_i hkind
    split at h
    · exact Edit.recorded_of_replace (by simp [Node.isPlace, Node.tag, hkind, Kind.tag]) h
    · exact Edit.recorded_of_pure h
  · rename_i hkind
    split at h
    · exact Edit.recorded_of_replace (by simp [Node.isPlace, Node.tag, hkind, Kind.tag]) h
    · exact Edit.recorded_of_pure h
  · exact Edit.recorded_of_pure h

theorem AddFinal.edit_accountable : Edit.Accountable edit := by
  intro c rebuilt n' s s' h
  rcases yields_edit.mp h with ⟨_, rfl, rfl⟩ | ⟨next, hqualifies, _, _, rfl⟩
  · exact .inl ⟨rfl, rfl⟩
  · refine .inr ⟨?_, Session.recorded_record s next _⟩
    cases hkind : c.node.kind <;> simp_all [qualifies, Node.isPlace, Node.tag, Kind.tag]

namespace Rule

variable {rule : Rule} {tree : Node} {out : RuleOutput Rule}

/-- A rule leaves the tree alone and records nothing, or it runs a session of accountable edits. -/
theorem exists_session_of_apply (h : rule.apply tree = .ok out) :
    (out.tree = tree ∧ out.transforms = []) ∨
      ∃ (σ ε : Type) (edit : Cursor → Node → Edit σ ε Node) (s s' : Session σ),
        Edit.Accountable edit ∧ s.recorded = [] ∧
          Yields ((Cursor.root tree).edited edit) s out.tree s' ∧
          out.transforms.map Transform.node = s'.recorded := by
  cases rule with
  | hiddenField hidden =>
    rcases apply_cases h with ⟨_, _, _, _, rfl⟩ | ⟨hother, _⟩
    · exact .inl ⟨rfl, rfl⟩
    · exact absurd rfl (hother hidden)
  | rename r =>
    rcases Renaming.apply_cases h with ⟨_, rfl⟩ | ⟨_, name, _, _, _, s, hrun, hlog⟩
    · exact .inl ⟨rfl, rfl⟩
    · exact .inr ⟨_, _, _, _, s, Renaming.edit_accountable _ _, rfl, hrun, by rw [hlog]; rfl⟩
  | forHeader policy =>
    obtain ⟨s, hrun, hlog, _⟩ := RuleOutput.ofSession_eq_ok h
    exact .inr ⟨_, _, _, _, s, ForHeader.edit_accountable _, rfl, hrun, by rw [hlog]; rfl⟩
  | typeParameterList =>
    obtain ⟨s, hrun, hlog, _⟩ := RuleOutput.ofSession_eq_ok h
    exact .inr ⟨_, _, _, _, s, TypeParameterList.edit_accountable, rfl, hrun, by rw [hlog]; rfl⟩
  | addFinal =>
    obtain ⟨first, s, _, hrun, hlog, _⟩ := AddFinal.apply_eq_ok h
    exact .inr ⟨_, _, _, _, s, AddFinal.edit_accountable, rfl, hrun, by rw [hlog]; rfl⟩

/-- A rule records nodes of the tree that are no modifiers. -/
theorem exists_place_of_mem_transforms (h : rule.apply tree = .ok out) {t : Transform}
    (ht : t ∈ out.transforms) :
    ∃ d ∈ tree.cursors, d.node.isPlace = true ∧ d.node.id = t.node := by
  rcases exists_session_of_apply h with ⟨_, hlog⟩ | ⟨σ, ε, edit, s, s', hedit, hempty, hrun, hlog⟩
  · simp [hlog] at ht
  · have hmem : t.node ∈ s'.recorded := hlog ▸ List.mem_map_of_mem ht
    rcases Cursor.mem_recorded_of_edited hedit hrun hmem with hmem | hbelow
    · simp [hempty] at hmem
    · exact hbelow

/-- What a rule does not record stays in its place. -/
theorem exists_cursor_of_apply (h : rule.apply tree = .ok out) {c : Cursor}
    (hc : c ∈ tree.cursors) (hfree : c.Untouched (out.transforms.map Transform.node)) :
    ∃ c' ∈ out.tree.cursors, c'.node = c.node ∧
      c'.ancestors.map Node.id = c.ancestors.map Node.id := by
  rcases exists_session_of_apply h with ⟨htree, _⟩ | ⟨σ, ε, edit, s, s', hedit, _, hrun, hlog⟩
  · exact ⟨c, htree ▸ hc, rfl, rfl⟩
  · have hroot : (Cursor.root out.tree).node = out.tree := rfl
    exact Cursor.exists_below_of_edited hedit hrun hc (hlog ▸ hfree) hroot rfl

end Rule

/-! ## Runs -/

namespace Pipeline

/-- The nodes replaced so far. -/
def Progress.recorded (p : Progress) : List NodeId := p.replaced.map Transform.node

variable {rules : List Rule} {tree : Node} {outcome : Outcome} {p p' : Progress}

theorem exists_cursor_of_applies {rule : Rule} (h : rule.Applies p p') {c : Cursor}
    (hc : c ∈ p.tree.cursors) (hfree : c.Untouched p'.recorded) :
    ∃ c' ∈ p'.tree.cursors, c'.node = c.node ∧
      c'.ancestors.map Node.id = c.ancestors.map Node.id := by
  obtain ⟨out, hout, rfl⟩ := h
  refine Rule.exists_cursor_of_apply hout hc (hfree.mono ?_)
  intro i hi
  simp only [Progress.recorded, List.map_append, List.map_reverse, List.mem_append,
    List.mem_reverse]
  exact .inl hi

theorem recorded_subset_of_applies {rule : Rule} (h : rule.Applies p p') :
    p.recorded ⊆ p'.recorded := by
  obtain ⟨out, _, rfl⟩ := h
  simp [Progress.recorded]

theorem recorded_subset_of_passes {applied : List Rule} (h : Passes Rule.Applies applied p p') :
    p.recorded ⊆ p'.recorded :=
  (h.exists_step (R := fun p p' : Progress => p.recorded ⊆ p'.recorded)
    (fun _ => List.Subset.refl _) (fun _ _ _ => List.Subset.trans)
    fun _ _ _ => recorded_subset_of_applies).1

/-- What is never recorded stays in its place through all applications. -/
theorem exists_cursor_of_passes {applied : List Rule} (h : Passes Rule.Applies applied p p')
    {c : Cursor} (hc : c ∈ p.tree.cursors) (hfree : c.Untouched p'.recorded) :
    ∃ c' ∈ p'.tree.cursors, c'.node = c.node ∧
      c'.ancestors.map Node.id = c.ancestors.map Node.id := by
  induction h generalizing c with
  | nil p => exact ⟨c, hc, rfl, rfl⟩
  | cons hrule hrules ih =>
    obtain ⟨d, hd, hnode, habove⟩ :=
      exists_cursor_of_applies hrule hc (hfree.mono (recorded_subset_of_passes hrules))
    obtain ⟨c', hc', hnode', habove'⟩ := ih hd (hfree.congr hnode habove)
    exact ⟨c', hc', hnode'.trans hnode, habove'.trans habove⟩

theorem exists_cursor_of_run (h : run rules tree = .ok outcome) {c : Cursor}
    (hc : c ∈ tree.cursors) (hfree : c.Untouched (outcome.transforms.map Transform.node)) :
    ∃ c' ∈ outcome.tree.cursors, c'.node = c.node ∧
      c'.ancestors.map Node.id = c.ancestors.map Node.id := by
  obtain ⟨applied, happlied⟩ := exists_applies_of_run h
  refine exists_cursor_of_passes happlied hc ?_
  intro i hi
  simp only [Progress.recorded, List.map_reverse, List.mem_reverse] at hi
  exact hfree i hi

theorem distinctIds_of_run (h : run rules tree = .ok outcome) (hids : tree.DistinctIds) :
    outcome.tree.DistinctIds := by
  obtain ⟨applied, hsteps⟩ := exists_steps_of_run h
  generalize outcome.tree = tree' at hsteps
  clear h
  induction hsteps with
  | nil tree => exact hids
  | cons hstep _ ih => exact ih (hstep.distinctIds hids)

/-- A run that records nothing gives the tree back: its root was not touched. -/
theorem tree_eq_of_transforms_eq_nil (h : run rules tree = .ok outcome)
    (hnil : outcome.transforms = []) : outcome.tree = tree := by
  obtain ⟨c', hc', hnode, habove⟩ := exists_cursor_of_run h (Node.root_mem_cursors tree)
    (by simp [hnil, Cursor.Untouched])
  rcases Node.eq_root_or_mem_children hc' with rfl | ⟨d, _, hd⟩
  · exact hnode
  · simp [(Cursor.mem_children.mp hd).2, Cursor.path, Cursor.root] at habove

end Pipeline

/-! ## Reports -/

namespace Command

variable {rules : List Rule} {tree : Node} {outcome : Outcome} {store store' : FileStore}
variable {path text : String} {report : FileReport}

theorem yields_readTree (hread : store.read path = .ok text) (htree : Node.ofText text = .ok tree) :
    Yields (readTree path : Command (StateM FileStore) Node) store tree store := by
  have haccess : Yields (access path (FileSystem.read path) : Command (StateM FileStore) String)
      store text store := by
    refine yields_bind.mpr ⟨.ok text, store, ?_, yields_pure.mpr ⟨rfl, rfl⟩⟩
    rw [← hread]
    rfl
  refine yields_bind.mpr ⟨text, store, haccess, ?_⟩
  rw [htree]
  exact yields_pure.mpr ⟨rfl, rfl⟩

/-- A file whose tree the rules can work on is reported with the printed tree. -/
theorem yields_completeFile (hread : store.read path = .ok text)
    (htree : Node.ofText text = .ok tree) (hrun : Pipeline.run rules tree = .ok outcome) :
    Yields (completeFile rules none path : Command (StateM FileStore) FileReport) store
      { FileReport.completed path outcome.transforms outcome.tree.print with
        source := some outcome.tree.print } store := by
  refine yields_bind.mpr ⟨tree, store, yields_readTree hread htree, ?_⟩
  refine yields_bind.mpr ⟨outcome, store, ?_, yields_pure.mpr ⟨rfl, rfl⟩⟩
  rw [applyTo, hrun]
  exact yields_pure.mpr ⟨rfl, rfl⟩

/-- Only a failure is turned into another report. -/
theorem yields_fixFile (h : Yields (completeFile rules none path : Command (StateM FileStore) _)
      store report store') :
    Yields (fixFile rules none path : Command (StateM FileStore) FileReport)
      store report store' := by
  change @Eq (Except Abort FileReport × FileStore) _ _ at h
  change @Eq (Except Abort FileReport × FileStore) _ _
  simp only [fixFile, tryCatch, tryCatchThe, MonadExceptOf.tryCatch, ExceptT.tryCatch, ExceptT.run,
    ExceptT.mk, bind, StateT.bind] at h ⊢
  rw [h]
  rfl

/-- The report on a file whose tree the rules can work on. -/
theorem report_eq_of_fixFile (hread : store.read path = .ok text)
    (htree : Node.ofText text = .ok tree) (hrun : Pipeline.run rules tree = .ok outcome)
    (h : Yields (fixFile rules none path : Command (StateM FileStore) FileReport)
      store report store') :
    report = { FileReport.completed path outcome.transforms outcome.tree.print with
      source := some outcome.tree.print } := by
  have hreport := yields_fixFile (yields_completeFile hread htree hrun)
  change @Eq (Except Abort FileReport × FileStore) _ _ at h hreport
  rw [hreport] at h
  exact (Except.ok.inj (Prod.mk.inj h).1).symm

end Command

namespace Pipeline

variable {rules : List Rule} {tree : Node} {outcome : Outcome}

/-- The log accounts for every edit: a node of which nothing at, above or below it is recorded is
    found under its id as it was, and if nothing is recorded at all, the tree is the old one. So a
    file that is reported as unchanged is reported with the tree that was read. -/
theorem run_accounts (hids : tree.DistinctIds) (hrun : run rules tree = .ok outcome) :
    (∀ c ∈ tree.cursors, c.Untouched (outcome.transforms.map Transform.node) →
      (∃ c' ∈ outcome.tree.cursors, c'.node = c.node) ∧
        ∀ c' ∈ outcome.tree.cursors, c'.node.id = c.node.id → c'.node = c.node) ∧
      (outcome.transforms = [] → outcome.tree = tree) ∧
      ∀ (store store' : FileStore) (path text : String) (report : FileReport),
        store.read path = .ok text → Node.ofText text = .ok tree →
        Yields (Command.fixFile rules none path : Command (StateM FileStore) FileReport)
          store report store' →
        report.status = .unchanged → report.source = some tree.print := by
  refine ⟨?_, tree_eq_of_transforms_eq_nil hrun, ?_⟩
  · intro c hc hfree
    obtain ⟨c', hc', hnode, _⟩ := exists_cursor_of_run hrun hc hfree
    refine ⟨⟨c', hc', hnode⟩, ?_⟩
    intro d hd hid
    have heq : d = c' :=
      (distinctIds_of_run hrun hids).eq_of_id_eq hd hc' (by rw [hid, hnode])
    rw [heq, hnode]
  · intro store store' path text report hread htree hfix hstatus
    obtain rfl := Command.report_eq_of_fixFile hread htree hrun hfix
    have hnil : outcome.transforms = [] := by
      simpa [FileReport.completed, List.isEmpty_iff] using hstatus
    rw [tree_eq_of_transforms_eq_nil hrun hnil]

/-- In `hidingLocal` a local variable is renamed and becomes `final`, and the field that it hides
    stays as it is. -/
theorem run_accounts_hidingLocal :
    ∃ outcome, run [Rule.addFinal, .hiddenField ⟨.default, none⟩] hidingLocal = .ok outcome ∧
      outcome.transforms.map Transform.node = [20, 22, 7] ∧
      ∃ c ∈ hidingLocal.cursors, c.node.id = 10 ∧
        (∃ c' ∈ outcome.tree.cursors, c'.node = c.node) ∧
        ∀ c' ∈ outcome.tree.cursors, c'.node.id = c.node.id → c'.node = c.node := by
  have hlog : (run [Rule.addFinal, .hiddenField ⟨.default, none⟩] hidingLocal).toOption.map
      (fun o => o.transforms.map Transform.node) = some [20, 22, 7] := by
    decide +kernel
  cases hrun : run [Rule.addFinal, .hiddenField ⟨.default, none⟩] hidingLocal with
  | error e =>
    rw [hrun] at hlog
    cases hlog
  | ok outcome =>
    rw [hrun] at hlog
    have hlog : outcome.transforms.map Transform.node = [20, 22, 7] := Option.some.inj hlog
    obtain ⟨c, hc, hid, hfree⟩ :
        ∃ c ∈ hidingLocal.cursors, c.node.id = 10 ∧ c.Untouched [20, 22, 7] := by
      decide +kernel
    refine ⟨outcome, rfl, hlog, c, hc, hid, ?_⟩
    exact (run_accounts hidingLocal_distinctIds hrun).1 c hc (hlog ▸ hfree)

end Pipeline

end Restyle
