-- SUMMARY: A walk visits what its policy lets it reach, in pre-order, up to where it is stopped.
import Mathlib.Data.List.Infix
import Mathlib.Data.List.Lex
import Mathlib.Data.List.Nodup
import Restyle.Proofs.Tree.Cursors
import Restyle.Tree.Walk

/-!
# Walks

What a walk reports, for any policy (`Station.trail_nested`). The visits are the stations that the
policy lets the walk reach, in pre-order, up to the first one that stops it: by one induction over
the tree they are a cut (`cutAfter`) of the list of all of these (`Station.entered`). The events are
nested: by a second induction a walk over a tree is either closed or broken off inside of the nodes
on the way to where it was stopped (`Trail.Closed`, `Trail.BrokenOff`).

Pre-order is the order of paths as lists: a node comes before what is below it, and what is below an
earlier child comes before what is below a later one.
-/

namespace Restyle

/-! ## Visits and leaves -/

namespace Mark

variable {α : Type}

def visited? : Mark α → Option α
  | visit a => some a
  | leave _ => none

def left? : Mark α → Option α
  | visit _ => none
  | leave a => some a

/-- Events that lead from one list of open places, the innermost first, to another: a visit opens a
    place, and only the innermost open place is left. -/
inductive Nested : List (Mark α) → List α → List α → Prop
  | nil (opened : List α) : Nested [] opened opened
  | visit {a : α} {events : List (Mark α)} {opened final : List α}
      (h : Nested events (a :: opened) final) : Nested (.visit a :: events) opened final
  | leave {a : α} {events : List (Mark α)} {opened final : List α}
      (h : Nested events opened final) : Nested (.leave a :: events) (a :: opened) final

namespace Nested

variable {events events' : List (Mark α)} {opened middle final : List α}

theorem append (h : Nested events opened middle) (h' : Nested events' middle final) :
    Nested (events ++ events') opened final := by
  induction h with
  | nil => exact h'
  | visit _ ih => exact .visit (ih h')
  | leave _ ih => exact .leave (ih h')

/-- What is visited is left or open in the end. -/
theorem perm (h : Nested events opened final) :
    (events.filterMap visited? ++ opened).Perm (events.filterMap left? ++ final) := by
  induction h with
  | nil => exact .refl _
  | @visit a events opened final _ ih =>
    have hmiddle : (a :: (events.filterMap visited? ++ opened)).Perm
        (events.filterMap visited? ++ a :: opened) := List.perm_middle.symm
    exact hmiddle.trans ih
  | @leave a events opened final _ ih =>
    have hmiddle : (events.filterMap visited? ++ a :: opened).Perm
        (a :: (events.filterMap visited? ++ opened)) := List.perm_middle
    exact hmiddle.trans (ih.cons a)

end Nested

end Mark

namespace Trail

variable {α : Type}

/-- The places visited, in order. -/
def visits (w : Trail α) : List α := w.events.filterMap Mark.visited?

/-- The places left, in order. -/
def leaves (w : Trail α) : List α := w.events.filterMap Mark.left?

@[simp] theorem visits_nothing : (nothing : Trail α).visits = [] := rfl

@[simp] theorem stopped_nothing : (nothing : Trail α).stopped = false := rfl

theorem stopped_andThen (v w : Trail α) : (v.andThen w).stopped = (v.stopped || w.stopped) := by
  cases hv : v.stopped <;> simp [andThen, hv]

theorem visits_andThen (v w : Trail α) :
    (v.andThen w).visits = v.visits ++ if v.stopped then [] else w.visits := by
  cases hv : v.stopped <;> simp [andThen, hv, visits]

@[simp] theorem stopped_around (a : α) (w : Trail α) : (around a w).stopped = w.stopped := by
  cases hw : w.stopped <;> simp [around, hw]

@[simp] theorem visits_around (a : α) (w : Trail α) : (around a w).visits = a :: w.visits := by
  cases hw : w.stopped <;> simp [around, hw, visits, Mark.visited?]

end Trail

namespace Mark.Nested

variable {α : Type} {w : Trail α} {opened : List α}

/-- A walk leaves what it visits, but for the places that are open in the end. -/
theorem visits_perm (h : Nested w.events [] opened) : w.visits.Perm (w.leaves ++ opened) := by
  have hperm := h.perm
  rwa [List.append_nil] at hperm

theorem not_mem_leaves_iff (h : Nested w.events [] opened) (hvisits : w.visits.Nodup) {a : α}
    (ha : a ∈ w.visits) : a ∉ w.leaves ↔ a ∈ opened := by
  have hnodup : (w.leaves ++ opened).Nodup := h.visits_perm.nodup_iff.mp hvisits
  refine ⟨fun hleft => ?_, fun hopen hleft => ?_⟩
  · exact (List.mem_append.mp (h.visits_perm.mem_iff.mp ha)).resolve_left hleft
  · exact (List.nodup_append'.mp hnodup).2.2 hleft hopen

end Mark.Nested

/-! ## Lists up to an element -/

section Cut

variable {α : Type} {p : α → Bool}

/-- A list up to its first element with a property, that one included. -/
def cutAfter (p : α → Bool) : List α → List α
  | [] => []
  | a :: l => a :: if p a then [] else cutAfter p l

theorem cutAfter_append (l l' : List α) :
    cutAfter p (l ++ l') = cutAfter p l ++ if l.any p then [] else cutAfter p l' := by
  induction l with
  | nil => simp [cutAfter]
  | cons a l ih =>
    cases hp : p a with
    | true => simp [cutAfter, hp]
    | false => simp [cutAfter, hp, ih]

theorem any_cutAfter (l : List α) : (cutAfter p l).any p = l.any p := by
  induction l with
  | nil => rfl
  | cons a l ih => cases hp : p a <;> simp [cutAfter, hp, ih]

theorem cutAfter_sublist (l : List α) : (cutAfter p l).Sublist l := by
  induction l with
  | nil => exact .slnil
  | cons a l ih =>
    rw [cutAfter]
    split
    · exact (List.nil_sublist l).cons_cons a
    · exact ih.cons_cons a

/-- What is left of an ordered list are the elements before which none has the property. -/
theorem mem_cutAfter {r : α → α → Prop} (hirrefl : ∀ a, ¬r a a)
    (htrans : ∀ {a b}, r a b → ¬r b a) {l : List α} (hl : l.Pairwise r) {a : α} :
    a ∈ cutAfter p l ↔ a ∈ l ∧ ∀ b ∈ l, p b = true → ¬r b a := by
  induction l with
  | nil => simp [cutAfter]
  | cons c l ih =>
    obtain ⟨hc, hl⟩ := List.pairwise_cons.mp hl
    rw [cutAfter, List.mem_cons, List.mem_cons, List.forall_mem_cons]
    constructor
    · rintro (rfl | ha)
      · exact ⟨.inl rfl, fun _ => hirrefl a, fun b hb _ => htrans (hc b hb)⟩
      · split_ifs at ha with hp
        · simp at ha
        · obtain ⟨ha, hbefore⟩ := (ih hl).mp ha
          exact ⟨.inr ha, fun h => absurd h hp, hbefore⟩
    · rintro ⟨rfl | ha, hfirst, hbefore⟩
      · exact .inl rfl
      · have hp : ¬p c = true := fun h => hfirst h (hc a ha)
        rw [if_neg hp]
        exact .inr ((ih hl).mpr ⟨ha, hbefore⟩)

end Cut

/-! ## Stations -/

namespace Station

/-- The stations at the children. -/
def children (s : Station) : List Station :=
  s.cursor.children.map fun d => ⟨s.path ++ [d.index], d⟩

theorem children_eq (s : Station) : s.children = s.node.children.zipIdx.map fun (n, i) =>
    ⟨s.path ++ [i], ⟨n, s.node :: s.cursor.ancestors, i⟩⟩ := by
  rw [children, Cursor.children, List.map_map]
  rfl

/-- What holds at a station whenever it holds at its children holds at all stations. -/
theorem induct {P : Station → Prop} (step : ∀ s : Station, (∀ d ∈ s.children, P d) → P s)
    (s : Station) : P s := by
  obtain ⟨path, c⟩ := s
  induction c using Cursor.induct generalizing path with
  | step c ih =>
    refine step _ fun d hd => ?_
    obtain ⟨e, he, rfl⟩ := List.mem_map.mp hd
    exact ih e he _

variable (policy : Station → Step)

theorem trail_eq (s : Station) : s.trail policy =
    match policy s with
    | .stop => ⟨[.visit s], true⟩
    | .skipChildren => Trail.around s .nothing
    | .proceed => Trail.around s (Trail.inOrder (s.children.map (trail policy))) := by
  rw [trail, Node.walkBelow, Node.fold_eq, Kind.children_map, List.zipIdx_map, List.map_map,
    children_eq, List.map_map]
  rfl

/-- The stations that a walk comes to unless it is stopped: the start, and the children of those at
    which the policy proceeds. -/
inductive Reached (start : Station) : Station → Prop
  | start : Reached start start
  | child {s d : Station} (hs : Reached start s) (hproceed : policy s = .proceed)
      (hd : d ∈ s.children) : Reached start d

/-- The stations reached by a walk, up to the first in pre-order at which it is stopped. -/
structure Met (start s : Station) : Prop where
  reached : Reached policy start s
  not_cut : ∀ t, Reached policy start t → policy t = .stop → ¬t.path < s.path

end Station

namespace Node

/-- The stations of a tree that a walk reaches, in pre-order. -/
def enteredBelow (policy : Station → Step) : Node → List Node → Nat → List Nat → List Station :=
  fold fun n kind ancestors index path =>
    let here : Station := ⟨path, ⟨n, ancestors, index⟩⟩
    here ::
      if policy here = .proceed then
        kind.children.zipIdx.flatMap fun (below, i) => below (n :: ancestors) i (path ++ [i])
      else []

end Node

namespace Station

variable {policy : Station → Step}

/-- The stations that a walk reaches from a station, in pre-order. -/
def entered (policy : Station → Step) (s : Station) : List Station :=
  s.node.enteredBelow policy s.cursor.ancestors s.cursor.index s.path

theorem entered_eq (s : Station) : s.entered policy =
    s :: if policy s = .proceed then s.children.flatMap (entered policy) else [] := by
  rw [entered, Node.enteredBelow, Node.fold_eq, Kind.children_map, List.zipIdx_map,
    List.flatMap_map, children_eq, List.flatMap_map]
  rfl

theorem mem_entered {s t : Station} : t ∈ s.entered policy ↔
    t = s ∨ policy s = .proceed ∧ ∃ d ∈ s.children, t ∈ d.entered policy := by
  rw [entered_eq, List.mem_cons]
  split <;> simp [*]

theorem Reached.trans {s t u : Station} (h : Reached policy s t) (h' : Reached policy t u) :
    Reached policy s u := by
  induction h' with
  | start => exact h
  | child _ hproceed hd ih => exact .child ih hproceed hd

theorem self_mem_entered (s : Station) : s ∈ s.entered policy := mem_entered.mpr (.inl rfl)

theorem mem_entered_of_mem_children {s t d : Station} (ht : t ∈ s.entered policy)
    (hproceed : policy t = .proceed) (hd : d ∈ t.children) : d ∈ s.entered policy := by
  induction s using induct with
  | step s ih =>
    rcases mem_entered.mp ht with rfl | ⟨hs, e, he, hte⟩
    · exact mem_entered.mpr (.inr ⟨hproceed, d, hd, d.self_mem_entered⟩)
    · exact mem_entered.mpr (.inr ⟨hs, e, he, ih e he hte⟩)

theorem mem_entered_iff_reached {s t : Station} : t ∈ s.entered policy ↔ Reached policy s t := by
  constructor
  · intro h
    induction s using induct with
    | step s ih =>
      rcases mem_entered.mp h with rfl | ⟨hproceed, d, hd, ht⟩
      · exact .start
      · exact .trans (.child .start hproceed hd) (ih d hd ht)
  · intro h
    induction h with
    | start => exact s.self_mem_entered
    | child _ hproceed hd ih => exact mem_entered_of_mem_children ih hproceed hd

/-! ## The order of stations -/

theorem path_prefix_of_mem_entered {s t : Station} (h : t ∈ s.entered policy) :
    s.path <+: t.path := by
  induction s using induct with
  | step s ih =>
    rcases mem_entered.mp h with rfl | ⟨_, d, hd, ht⟩
    · exact List.prefix_refl _
    · obtain ⟨e, _, rfl⟩ := List.mem_map.mp hd
      exact (List.prefix_append _ _).trans (ih _ hd ht)

theorem pairwise_children (s : Station) : s.children.Pairwise fun d e =>
    ∃ i j, i < j ∧ d.path = s.path ++ [i] ∧ e.path = s.path ++ [j] := by
  have hplaces : s.node.children.zipIdx.Pairwise fun p q => p.2 < q.2 := by
    have hrange := List.pairwise_lt_range' (s := 0) (n := s.node.children.length) 1
    rwa [← List.zipIdx_map_snd, List.pairwise_map] at hrange
  rw [children_eq, List.pairwise_map]
  exact hplaces.imp fun h => ⟨_, _, h, rfl, rfl⟩

/-- A walk reaches its stations in the order of their paths. -/
theorem pairwise_entered (s : Station) :
    (s.entered policy).Pairwise fun t u => t.path < u.path := by
  induction s using induct with
  | step s ih =>
    rw [entered_eq]
    split
    · refine List.pairwise_cons.mpr ⟨fun t ht => ?_, List.pairwise_flatMap.mpr ⟨ih, ?_⟩⟩
      · obtain ⟨d, hd, htd⟩ := List.mem_flatMap.mp ht
        obtain ⟨e, _, rfl⟩ := List.mem_map.mp hd
        obtain ⟨rest, hrest⟩ := path_prefix_of_mem_entered htd
        rw [← hrest, List.append_assoc, List.singleton_append]
        conv_lhs => rw [← List.append_nil s.path]
        exact List.append_left_lt (List.nil_lt_cons _ _)
      · refine s.pairwise_children.imp fun {d e} hde t ht u hu => ?_
        obtain ⟨i, j, hlt, hd, he⟩ := hde
        obtain ⟨rest, hrest⟩ := path_prefix_of_mem_entered ht
        obtain ⟨rest', hrest'⟩ := path_prefix_of_mem_entered hu
        rw [← hrest, ← hrest', hd, he, List.append_assoc, List.append_assoc]
        exact List.append_left_lt (List.cons_lt_cons_iff.mpr (.inl hlt))
    · exact List.pairwise_singleton _ _

/-! ## What is visited -/

/-- Whether a walk is stopped at a station. -/
def stops (policy : Station → Step) (s : Station) : Bool := policy s == .stop

/-- A walk through a list of trees visits what it reaches in each, up to the first stop. -/
theorem visits_inOrder {ds : List Station} (h : ∀ d ∈ ds,
      (d.trail policy).stopped = (d.entered policy).any (stops policy) ∧
        (d.trail policy).visits = cutAfter (stops policy) (d.entered policy)) :
    (Trail.inOrder (ds.map (trail policy))).stopped =
        (ds.flatMap (entered policy)).any (stops policy) ∧
      (Trail.inOrder (ds.map (trail policy))).visits =
        cutAfter (stops policy) (ds.flatMap (entered policy)) := by
  induction ds with
  | nil => exact ⟨rfl, rfl⟩
  | cons d ds ih =>
    obtain ⟨⟨hstopped, hvisits⟩, hds⟩ := List.forall_mem_cons.mp h
    obtain ⟨hrest, hrestVisits⟩ := ih hds
    rw [List.map_cons, List.flatMap_cons, Trail.inOrder, Trail.stopped_andThen,
      Trail.visits_andThen, hstopped, hvisits, hrest, hrestVisits, List.any_append, cutAfter_append]
    exact ⟨rfl, rfl⟩

theorem visits_trail (s : Station) :
    (s.trail policy).stopped = (s.entered policy).any (stops policy) ∧
      (s.trail policy).visits = cutAfter (stops policy) (s.entered policy) := by
  induction s using induct with
  | step s ih =>
    rw [trail_eq, entered_eq]
    cases hs : policy s with
    | stop => simp [stops, hs, cutAfter, Trail.visits, Mark.visited?]
    | skipChildren => simp [stops, hs, cutAfter]
    | proceed =>
      obtain ⟨hstopped, hvisits⟩ := visits_inOrder ih
      simp [stops, hs, cutAfter, hstopped, hvisits]

theorem mem_visits_iff_met {s t : Station} :
    t ∈ (s.trail policy).visits ↔ Met policy s t := by
  rw [s.visits_trail.2, mem_cutAfter (r := fun t u => t.path < u.path)
    (fun t => List.lt_irrefl t.path) List.lt_asymm s.pairwise_entered]
  simp only [mem_entered_iff_reached, stops, beq_iff_eq]
  exact ⟨fun h => ⟨h.1, h.2⟩, fun h => ⟨h.reached, h.not_cut⟩⟩

theorem pairwise_visits (s : Station) :
    (s.trail policy).visits.Pairwise fun t u => t.path < u.path := by
  rw [s.visits_trail.2]
  exact s.pairwise_entered.sublist (cutAfter_sublist _)

theorem stopped_iff {s : Station} : (s.trail policy).stopped = true ↔
    ∃ t, Met policy s t ∧ policy t = .stop := by
  rw [s.visits_trail.1, ← any_cutAfter, ← s.visits_trail.2, List.any_eq_true]
  simp only [mem_visits_iff_met, stops, beq_iff_eq]

/-- A walk that goes on everywhere visits all cursors of a tree in their order. -/
theorem visits_trail_proceed (c : Cursor) :
    ((start c).trail fun _ => .proceed).visits.map Station.cursor = c.below := by
  have hnone (s : Station) : stops (fun _ => .proceed) s = false := rfl
  have hwhole (l : List Station) : cutAfter (stops fun _ => .proceed) l = l := by
    induction l with
    | nil => rfl
    | cons s l ih => simp [cutAfter, hnone, ih]
  suffices ∀ s : Station, (s.entered fun _ => .proceed).map Station.cursor = s.cursor.below by
    rw [(start c).visits_trail.2, hwhole, this]
    rfl
  intro s
  induction s using induct with
  | step s ih =>
    rw [entered_eq, Cursor.below_eq, if_pos rfl, List.map_cons, List.map_flatMap,
      List.flatMap_congr ih, children, List.flatMap_map]

end Station

/-! ## Nesting -/

namespace Trail

variable {α : Type}

/-- A walk that leaves all that it visits. -/
structure Closed (w : Trail α) : Prop where
  stopped : w.stopped = false
  nested : ∀ opened, Mark.Nested w.events opened opened

/-- A walk that is stopped at a place, with some places open, the innermost first. -/
structure BrokenOff (last : α) (inner : List α) (w : Trail α) : Prop where
  stopped : w.stopped = true
  last_eq : w.events.getLast? = some (.visit last)
  nested : ∀ opened, Mark.Nested w.events opened (inner ++ opened)

variable {v w : Trail α} {last : α} {inner : List α}

theorem Closed.nothing : (nothing : Trail α).Closed := ⟨rfl, .nil⟩

theorem Closed.andThen (hv : v.Closed) (hw : w.Closed) : (v.andThen w).Closed where
  stopped := by rw [stopped_andThen, hv.stopped, hw.stopped]; rfl
  nested opened := by
    simpa [Trail.andThen, hv.stopped] using (hv.nested opened).append (hw.nested opened)

theorem BrokenOff.andThen (hv : v.BrokenOff last inner) : (v.andThen w).BrokenOff last inner := by
  rwa [Trail.andThen, if_pos hv.stopped]

theorem Closed.andThen_brokenOff (hv : v.Closed) (hw : w.BrokenOff last inner) :
    (v.andThen w).BrokenOff last inner where
  stopped := by rw [stopped_andThen, hw.stopped, Bool.or_true]
  last_eq := by simp [Trail.andThen, hv.stopped, List.getLast?_append, hw.last_eq]
  nested opened := by
    simpa [Trail.andThen, hv.stopped] using (hv.nested opened).append (hw.nested opened)

theorem Closed.around (hw : w.Closed) (a : α) : (around a w).Closed where
  stopped := by rw [stopped_around, hw.stopped]
  nested opened := by
    have hleave := (hw.nested (a :: opened)).append (.leave (.nil opened))
    simpa [Trail.around, hw.stopped] using hleave.visit

theorem BrokenOff.around (hw : w.BrokenOff last inner) (a : α) :
    (around a w).BrokenOff last (inner ++ [a]) where
  stopped := by rw [stopped_around, hw.stopped]
  last_eq := by simp [Trail.around, hw.stopped, List.getLast?_cons, hw.last_eq]
  nested opened := by simpa [Trail.around, hw.stopped] using (hw.nested (a :: opened)).visit

/-- Walks one after another are broken off where one of them is. -/
theorem inOrder_cases {P : α → List α → Prop} {ws : List (Trail α)}
    (h : ∀ w ∈ ws, w.Closed ∨ ∃ last inner, P last inner ∧ w.BrokenOff last inner) :
    (inOrder ws).Closed ∨ ∃ last inner, P last inner ∧ (inOrder ws).BrokenOff last inner := by
  induction ws with
  | nil => exact .inl .nothing
  | cons w ws ih =>
    obtain ⟨hw, hws⟩ := List.forall_mem_cons.mp h
    rcases hw with hw | ⟨last, inner, hP, hw⟩
    · rcases ih hws with hrest | ⟨last, inner, hP, hrest⟩
      · exact .inl (hw.andThen hrest)
      · exact .inr ⟨last, inner, hP, hw.andThen_brokenOff hrest⟩
    · exact .inr ⟨last, inner, hP, hw.andThen⟩

end Trail

namespace Station

variable {policy : Station → Step}

/-- The walk is stopped at `last`, and `inner` are the stations on the way there. -/
def StopsInside (policy : Station → Step) (s last : Station) (inner : List Station) : Prop :=
  policy last = .stop ∧
    ∃ rest, last.path = s.path ++ rest ∧ inner.map path = (rest.inits.map (s.path ++ ·)).reverse

theorem StopsInside.of_child {s d last : Station} {inner : List Station} (hd : d ∈ s.children)
    (h : StopsInside policy d last inner) : StopsInside policy s last (inner ++ [s]) := by
  obtain ⟨hstop, rest, hlast, hinner⟩ := h
  obtain ⟨e, _, rfl⟩ := List.mem_map.mp hd
  refine ⟨hstop, e.index :: rest, by rw [hlast, List.append_assoc]; rfl, ?_⟩
  simp [hinner, Function.comp_def]

/-- A walk leaves all that it visits, or is stopped inside of the nodes around the place where it
    is stopped. -/
theorem closed_or_brokenOff (policy : Station → Step) (s : Station) : (s.trail policy).Closed ∨
    ∃ last inner, StopsInside policy s last inner ∧ (s.trail policy).BrokenOff last inner := by
  induction s using induct with
  | step s ih =>
    rw [trail_eq]
    cases hs : policy s with
    | stop =>
      exact .inr ⟨s, [s], ⟨hs, [], by simp, by simp⟩, rfl, rfl, fun opened => .visit (.nil _)⟩
    | skipChildren => exact .inl (Trail.Closed.nothing.around s)
    | proceed =>
      have hbelow : ∀ w ∈ s.children.map (trail policy), w.Closed ∨ ∃ last inner,
          StopsInside policy s last (inner ++ [s]) ∧ w.BrokenOff last inner := by
        rw [List.forall_mem_map]
        intro d hd
        exact (ih d hd).imp_right fun ⟨last, inner, h, hbroken⟩ =>
          ⟨last, inner, h.of_child hd, hbroken⟩
      rcases Trail.inOrder_cases hbelow with hclosed | ⟨last, inner, h, hbroken⟩
      · exact .inl (hclosed.around s)
      · exact .inr ⟨last, inner ++ [s], h, hbroken.around s⟩

/-- Each station visited has a path of its own. -/
theorem nodup_path_visits (policy : Station → Step) (s : Station) :
    ((s.trail policy).visits.map path).Nodup := by
  refine List.pairwise_map.mpr (s.pairwise_visits.imp fun {t u} hlt heq => ?_)
  rw [heq] at hlt
  exact List.lt_irrefl _ hlt

/-- What a walk reports under a policy. It is stopped if and only if the policy says so at a station
    that it comes to. It visits the stations that it comes to, each once and in pre-order. Its
    events are nested. If it is not stopped, it leaves all that it visits; if it is, the last event
    is the visit that stops it, and what it does not leave are the stations on the way there. -/
theorem trail_nested (policy : Station → Step) (c : Cursor) :
    let w := (start c).trail policy
    (w.stopped = true ↔ ∃ s, Met policy (start c) s ∧ policy s = .stop) ∧
    (∀ s, s ∈ w.visits ↔ Met policy (start c) s) ∧
    (w.visits.Pairwise fun s t => s.path < t.path) ∧
    ∃ opened, Mark.Nested w.events [] opened ∧
      (w.stopped = false → opened = [] ∧ w.leaves.Perm w.visits) ∧
      (w.stopped = true → ∃ s, policy s = .stop ∧ w.events.getLast? = some (.visit s) ∧
        opened.map path = s.path.inits.reverse ∧
        ∀ t ∈ w.visits, t ∉ w.leaves ↔ t.path <+: s.path) := by
  intro w
  refine ⟨stopped_iff, fun s => mem_visits_iff_met, pairwise_visits _, ?_⟩
  rcases (start c).closed_or_brokenOff policy with hclosed | ⟨s, inner, hinside, hbroken⟩
  · have hnested := hclosed.nested []
    refine ⟨[], hnested, fun _ => ⟨rfl, ?_⟩, fun h => ?_⟩
    · simpa using hnested.visits_perm.symm
    · simp [w, hclosed.stopped] at h
  · obtain ⟨hstop, rest, hpath, hinner⟩ := hinside
    obtain rfl : s.path = rest := hpath
    have hnested := hbroken.nested []
    rw [List.append_nil] at hnested
    have hopened : inner.map path = s.path.inits.reverse := by simpa [start] using hinner
    have hvisits := (start c).nodup_path_visits policy
    refine ⟨inner, hnested, fun h => ?_, fun _ => ⟨s, hstop, hbroken.last_eq, hopened, ?_⟩⟩
    · simp [w, hbroken.stopped] at h
    · intro t ht
      have hpaths : t.path ∈ inner.map path ↔ t.path <+: s.path := by
        rw [hopened, List.mem_reverse, List.mem_inits]
      rw [hnested.not_mem_leaves_iff hvisits.of_map ht, ← hpaths]
      -- Visited stations with one path are one station.
      refine ⟨List.mem_map_of_mem, fun h => ?_⟩
      obtain ⟨u, hu, heq⟩ := List.mem_map.mp h
      have hvisited : u ∈ w.visits :=
        hnested.visits_perm.mem_iff.mpr (List.mem_append_right _ hu)
      rwa [← List.inj_on_of_nodup_map hvisits hvisited ht heq]

end Station

end Restyle
