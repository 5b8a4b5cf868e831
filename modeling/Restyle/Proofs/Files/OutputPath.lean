-- SUMMARY: When the path of an output is one name below the output directory.
import Mathlib.Data.List.Infix
import Mathlib.Data.List.TakeWhile
import Restyle.Files.Path

/-!
# Where outputs go

The path of an output is made in two steps: the stem of the input is joined to the directory, and
the extension of the path so made is replaced. The second step looks for the name again. It finds
the stem unless that is a single dot or becomes a double dot without its extension
(`Path.LosesName`); so the path is one name below the directory in all other cases, and in no other
(`Path.outputFor_inside_iff`).
-/

namespace Restyle

namespace Path

/-! ## The name of a path -/

/-- The start of a path to something in a directory: nothing is between it and the name. -/
def IsOpening (before : List Char) : Prop := ∀ c ∈ before.getLast?, c = '/'

theorem IsOpening.eq_nil_or_append {before : List Char} (h : IsOpening before) :
    before = [] ∨ ∃ outer, before = outer ++ ['/'] := by
  rcases List.eq_nil_or_concat before with rfl | ⟨outer, c, rfl⟩
  · exact .inl rfl
  · obtain rfl : c = '/' := h c (by simp)
    exact .inr ⟨outer, by simp⟩

theorem dropIdle_suffix (path : List Char) : dropIdle path <:+ path := by
  fun_induction dropIdle path with
  | case1 rest ih => exact ih.trans (List.suffix_cons _ _)
  | case2 rest ih => exact ih.trans ((List.suffix_cons _ _).trans (List.suffix_cons _ _))
  | case3 => exact List.nil_suffix
  | case4 => exact List.suffix_refl _

/-- Nothing is dropped behind a segment other than a single dot. -/
theorem dropIdle_append {name before : List Char} (hne : name ≠ []) (hdot : name ≠ ['.'])
    (hslash : '/' ∉ name) (hbefore : ∀ c ∈ before.head?, c = '/') :
    dropIdle (name ++ before) = name ++ before := by
  match name, before with
  | [], _ => exact absurd rfl hne
  | ['.'], _ => exact absurd rfl hdot
  | [c], _ =>
    unfold dropIdle
    split <;> simp_all
  | c :: d :: name, _ =>
    unfold dropIdle
    split <;> simp_all

/-- The last segment of a path, and what is before it. -/
theorem lastSegment_append {name before : List Char} (hne : name ≠ []) (hdot : name ≠ ['.'])
    (hslash : '/' ∉ name) (hbefore : IsOpening before) :
    (dropIdle (before ++ name).reverse).takeWhile (fun c => c != '/') = name.reverse ∧
      (dropIdle (before ++ name).reverse).dropWhile (fun c => c != '/') = before.reverse := by
  have hhead : ∀ c ∈ before.reverse.head?, c = '/' := by simpa [IsOpening] using hbefore
  have hkeep : ∀ c ∈ name.reverse, (c != '/') = true := by
    intro c hc
    have hne : c ≠ '/' := fun heq => hslash (heq ▸ List.mem_reverse.mp hc)
    simpa using hne
  have hdropped : dropIdle (before ++ name).reverse = name.reverse ++ before.reverse := by
    rw [List.reverse_append]
    refine dropIdle_append (by simpa using hne) ?_ (by simpa using hslash) hhead
    rw [Ne, List.reverse_eq_iff]
    exact hdot
  rw [hdropped, List.takeWhile_append_of_pos hkeep, List.dropWhile_append_of_pos hkeep]
  cases hrev : before.reverse with
  | nil => simp
  | cons c rest =>
    obtain rfl : c = '/' := hhead c (by simp [hrev])
    simp

/-- The name at the end of a path is found, unless it is a double dot. -/
theorem splitName?_append {name before : List Char} (hne : name ≠ []) (hdot : name ≠ ['.'])
    (hslash : '/' ∉ name) (hbefore : IsOpening before) :
    splitName? (before ++ name) = if name = ['.', '.'] then none else some (before, name) := by
  obtain ⟨hname, houter⟩ := lastSegment_append hne hdot hslash hbefore
  simp only [splitName?, hname, houter, List.reverse_reverse, hne, false_or]

/-- Where a path has its name does not depend on idle segments at its end. -/
theorem splitName?_congr {path path' : List Char}
    (h : dropIdle path.reverse = dropIdle path'.reverse) : splitName? path = splitName? path' := by
  simp only [splitName?, h]

theorem splitName?_append_slash (outer : List Char) :
    splitName? (outer ++ ['/']) = splitName? outer := by
  refine splitName?_congr ?_
  rw [List.reverse_append]
  rfl

theorem splitName?_append_slash_dot (outer : List Char) :
    splitName? (outer ++ ['/', '.']) = splitName? outer := by
  refine splitName?_congr ?_
  rw [List.reverse_append]
  rfl

theorem splitName?_eq_some {path before name : List Char}
    (h : splitName? path = some (before, name)) :
    name ≠ [] ∧ '/' ∉ name ∧ before <+: path := by
  simp only [splitName?] at h
  split_ifs at h with hname
  obtain ⟨hbefore, hname'⟩ := Prod.mk.inj (Option.some.inj h)
  rw [not_or, hname'] at hname
  refine ⟨hname.1, fun hslash => ?_, ?_⟩
  · rw [← hname', List.mem_reverse] at hslash
    simpa using List.mem_takeWhile_imp hslash
  · rw [← hbefore, ← List.reverse_suffix, List.reverse_reverse]
    exact (List.dropWhile_suffix _).trans (dropIdle_suffix _)

/-! ## Stems and extensions -/

theorem stemOf_append {stem extension : List Char} (hne : stem ≠ []) (hdot : '.' ∉ extension) :
    stemOf (stem ++ '.' :: extension) = stem := by
  have hkeep : ∀ c ∈ extension.reverse, (c != '.') = true := by
    intro c hc
    have hne : c ≠ '.' := fun heq => hdot (heq ▸ List.mem_reverse.mp hc)
    simpa using hne
  have hdrop : (stem ++ '.' :: extension).reverse.dropWhile (fun c => c != '.') =
      '.' :: stem.reverse := by
    rw [List.reverse_append, List.reverse_cons, List.append_assoc,
      List.dropWhile_append_of_pos hkeep]
    rfl
  obtain ⟨c, rest, hrest⟩ := List.exists_cons_of_ne_nil (List.reverse_ne_nil_iff.mpr hne)
  rw [stemOf, hdrop, hrest]
  exact List.reverse_eq_iff.mpr hrest.symm

theorem extensionOf_append {stem extension : List Char} (hne : stem ≠ [])
    (hdot : '.' ∉ extension) : extensionOf (stem ++ '.' :: extension) = some extension := by
  simp [extensionOf, stemOf_append hne hdot]

/-- A name is all stem, or its stem and an extension with a dot between them. -/
theorem stemOf_cases (name : List Char) :
    (stemOf name = name ∧ extensionOf name = none) ∨
      ∃ stem extension, stem ≠ [] ∧ '.' ∉ extension ∧ name = stem ++ '.' :: extension := by
  have hsplit := List.takeWhile_append_dropWhile (p := fun c => c != '.') (l := name.reverse)
  have hnone : '.' ∉ name.reverse.takeWhile fun c => c != '.' := fun hmem => by
    simpa using List.mem_takeWhile_imp hmem
  match hdrop : name.reverse.dropWhile fun c => c != '.' with
  | [] =>
    have hstem : stemOf name = name := by simp [stemOf, hdrop]
    exact .inl ⟨hstem, by simp [extensionOf, hstem]⟩
  | [c] =>
    have hstem : stemOf name = name := by simp [stemOf, hdrop]
    exact .inl ⟨hstem, by simp [extensionOf, hstem]⟩
  | c :: d :: stem =>
    have hc := List.head?_dropWhile_not (fun c => c != '.') name.reverse
    rw [hdrop] at hc hsplit
    obtain rfl : c = '.' := by simpa using hc
    refine .inr ⟨(d :: stem).reverse, (name.reverse.takeWhile fun c => c != '.').reverse,
      by simp, by simpa using hnone, ?_⟩
    simpa using congrArg List.reverse hsplit.symm

theorem isPrefix_stemOf (name : List Char) : stemOf name <+: name := by
  rcases stemOf_cases name with h | ⟨stem, extension, hne, hdot, rfl⟩
  · rw [h.1]
  · rw [stemOf_append hne hdot]
    exact List.prefix_append _ _

theorem stemOf_ne_nil {name : List Char} (h : name ≠ []) : stemOf name ≠ [] := by
  rcases stemOf_cases name with hstem | ⟨stem, extension, hne, hdot, rfl⟩
  · rwa [hstem.1]
  · rwa [stemOf_append hne hdot]

/-! ## Joining and replacing the extension -/

/-- What a path to a name in a directory starts with. -/
def opening (directory : List Char) : List Char :=
  match directory.getLast? with
  | none | some '/' => directory
  | some _ => directory ++ ['/']

theorem isOpening_opening (directory : List Char) : IsOpening (opening directory) := by
  unfold opening IsOpening
  split <;> simp_all

theorem toList_join (directory name : String) :
    (join directory name).toList = opening directory.toList ++ name.toList := by
  unfold join opening
  cases directory.toList.getLast? with
  | none => simp
  | some c => by_cases hc : c = '/' <;> simp [hc]

/-- How many bytes a text has. -/
def byteSize (text : List Char) : Nat := (text.map Char.utf8Size).foldr (· + ·) 0

theorem byteSize_reverse (text : List Char) : byteSize text.reverse = byteSize text := by
  simp only [byteSize, ← List.sum_eq_foldr, List.map_reverse, List.sum_reverse]

/-- A character that is cut in part stays. -/
theorem dropBytes_of_lt {count : Nat} {c : Char} (h : count < c.utf8Size) (text : List Char) :
    dropBytes count (c :: text) = c :: text := by
  rw [dropBytes, if_neg (Nat.not_le.mpr h)]

theorem dropBytes_zero (text : List Char) : dropBytes 0 text = text := by
  cases text with
  | nil => rfl
  | cons c text => exact dropBytes_of_lt c.utf8Size_pos text

theorem dropBytes_append (text rest : List Char) :
    dropBytes (byteSize text) (text ++ rest) = rest := by
  induction text with
  | nil => exact dropBytes_zero rest
  | cons c text ih =>
    have hsize : byteSize (c :: text) = c.utf8Size + byteSize text := by simp [byteSize]
    rw [hsize, List.cons_append, dropBytes, if_pos (Nat.le_add_right _ _), Nat.add_sub_cancel_left,
      ih]

theorem dropBytes_suffix (count : Nat) (text : List Char) : dropBytes count text <:+ text := by
  fun_induction dropBytes count text with
  | case1 => exact List.suffix_refl _
  | case2 count c text _ ih => exact ih.trans (List.suffix_cons _ _)
  | case3 => exact List.suffix_refl _

/-- The path when the bytes of the old extension are cut off. -/
def cutExtension (path : List Char) : List Char :=
  (dropBytes (byteSize (((splitName? path).bind fun (_, name) => extensionOf name).getD []))
    path.reverse).reverse

theorem isPrefix_cutExtension (path : List Char) : cutExtension path <+: path := by
  rw [← List.reverse_suffix, cutExtension, List.reverse_reverse]
  exact dropBytes_suffix _ _

theorem cutExtension_of_no_extension {path : List Char}
    (h : ((splitName? path).bind fun (_, name) => extensionOf name) = none) :
    cutExtension path = path := by
  have hdrop := dropBytes_append [] path.reverse
  rw [cutExtension, h]
  exact List.reverse_eq_iff.mpr hdrop

theorem cutExtension_append {start extension : List Char}
    (h : ((splitName? (start ++ extension)).bind fun (_, name) => extensionOf name) =
      some extension) : cutExtension (start ++ extension) = start := by
  have hdrop := dropBytes_append extension.reverse start.reverse
  rw [byteSize_reverse, ← List.reverse_append] at hdrop
  rw [cutExtension, h]
  exact List.reverse_eq_iff.mpr hdrop

theorem toList_withExtension (path extension : String) :
    (withExtension path extension).toList =
      match splitName? (cutExtension path.toList) with
      | some (before, name) => before ++ (stemOf name ++ '.' :: extension.toList)
      | none => cutExtension path.toList := by
  change (setExtension (cutExtension path.toList) extension).toList = _
  unfold setExtension
  cases splitName? (cutExtension path.toList) <;> simp

/-- Of the three bytes that are cut off here, one belongs to the last character of the old
    extension. -/
example : withExtension "..€/." "java" = "..java" := by decide +kernel

/-! ## Stems that are lost -/

/-- A stem that is a single dot, or a double dot once its extension is cut off. -/
def LosesName (stem : List Char) : Prop :=
  stem = ['.'] ∨ ∃ extension, '.' ∉ extension ∧ stem = '.' :: '.' :: extension

section Stem

variable {before stem : List Char}

/-- Behind any other stem the extension is replaced. -/
theorem toList_withExtension_of_keeps (hbefore : IsOpening before) (hne : stem ≠ [])
    (hslash : '/' ∉ stem) (hkeeps : ¬LosesName stem) {path : String}
    (hpath : path.toList = before ++ stem) (extension : String) :
    (withExtension path extension).toList =
      before ++ (stemOf stem ++ '.' :: extension.toList) := by
  have hdot : stem ≠ ['.'] := fun h => hkeeps (.inl h)
  have hdots : stem ≠ ['.', '.'] := fun h => hkeeps (.inr ⟨[], by simp, h⟩)
  have hname : splitName? (before ++ stem) = some (before, stem) := by
    rw [splitName?_append hne hdot hslash hbefore, if_neg hdots]
  rw [toList_withExtension, hpath]
  rcases stemOf_cases stem with ⟨hstem, hnone⟩ | ⟨start, old, hstart, hold, rfl⟩
  · rw [cutExtension_of_no_extension (by rw [hname]; exact hnone), hname]
  · have hcut : cutExtension (before ++ (start ++ '.' :: old)) = before ++ (start ++ ['.']) := by
      have hsplit : before ++ (start ++ '.' :: old) = before ++ (start ++ ['.']) ++ old := by simp
      rw [hsplit] at hname ⊢
      refine cutExtension_append ?_
      rw [hname]
      exact extensionOf_append hstart hold
    have hdotted : start ++ ['.'] ≠ ['.', '.'] := fun h => by
      obtain rfl : start = ['.'] := (List.append_left_inj ['.']).mp h
      exact hkeeps (.inr ⟨old, hold, rfl⟩)
    have hrest : splitName? (before ++ (start ++ ['.'])) = some (before, start ++ ['.']) := by
      rw [splitName?_append (by simp) (by simpa using hstart) ?_ hbefore, if_neg hdotted]
      simp only [List.mem_append, List.mem_cons, not_or] at hslash ⊢
      simp [hslash.1]
    rw [hcut, hrest, stemOf_append hstart hold]
    have hrestStem := stemOf_append hstart (by simp : '.' ∉ ([] : List Char))
    simp only [hrestStem]

/-- A double dot stays without a new extension. -/
theorem toList_withExtension_dots (hbefore : IsOpening before) {old : List Char}
    (hold : '.' ∉ old) (hslash : '/' ∉ old) {path : String}
    (hpath : path.toList = before ++ '.' :: '.' :: old) (extension : String) :
    (withExtension path extension).toList = before ++ ['.', '.'] := by
  have hcut : cutExtension (before ++ '.' :: '.' :: old) = before ++ ['.', '.'] := by
    have hname := splitName?_append (by simp : '.' :: '.' :: old ≠ []) (by simp)
      (by simpa using hslash) hbefore
    by_cases hnil : old = []
    · subst hnil
      exact cutExtension_of_no_extension (by rw [hname]; rfl)
    · have hsplit : before ++ '.' :: '.' :: old = before ++ ['.', '.'] ++ old := by simp
      rw [if_neg (by simpa using hnil)] at hname
      rw [hsplit] at hname ⊢
      refine cutExtension_append ?_
      rw [hname]
      exact extensionOf_append (by simp : ['.'] ≠ []) hold
  have hnone := splitName?_append (by simp : ['.', '.'] ≠ []) (by simp) (by simp) hbefore
  rw [toList_withExtension, hpath, hcut, hnone]
  rfl

/-- What is left of a path to a single dot has its name above the directory. -/
theorem splitName?_of_isPrefix (hbefore : IsOpening before) {rest outer name : List Char}
    (hrest : rest <+: before ++ ['.']) (h : splitName? rest = some (outer, name)) :
    outer.count '/' < before.count '/' := by
  have habove (above : List Char) (hle : above.count '/' < before.count '/')
      (hname : splitName? above = some (outer, name)) : outer.count '/' < before.count '/' :=
    Nat.lt_of_le_of_lt ((splitName?_eq_some hname).2.2.sublist.count_le '/') hle
  rcases hbefore.eq_nil_or_append with rfl | ⟨above, rfl⟩
  · rcases List.prefix_concat_iff.mp hrest with rfl | hrest
    · cases h
    · obtain rfl := List.prefix_nil.mp hrest
      cases h
  · have hlt : above.count '/' < (above ++ ['/']).count '/' := by simp
    rcases List.prefix_concat_iff.mp hrest with rfl | hrest
    · rw [List.append_assoc, List.singleton_append, splitName?_append_slash_dot] at h
      exact habove above hlt h
    · rcases List.prefix_concat_iff.mp hrest with rfl | hrest
      · rw [splitName?_append_slash] at h
        exact habove above hlt h
      · exact habove rest (Nat.lt_of_le_of_lt (hrest.sublist.count_le '/') hlt) h

/-- A single dot gives no name in the directory, unless of one character. -/
theorem length_le_one_of_dot (hbefore : IsOpening before) {path extension : String}
    (hpath : path.toList = before ++ ['.']) {name : List Char}
    (h : (withExtension path extension).toList = before ++ name)
    (hextension : '/' ∉ extension.toList) : name.length ≤ 1 := by
  have hcut := isPrefix_cutExtension path.toList
  rw [toList_withExtension] at h
  rw [hpath] at h hcut
  split at h
  · rename_i outer found hfound
    have hlt := splitName?_of_isPrefix hbefore hcut hfound
    have hfoundSlash := (splitName?_eq_some hfound).2.1
    have hstem : '/' ∉ stemOf found := fun hmem =>
      hfoundSlash ((isPrefix_stemOf found).subset hmem)
    have hcount := congrArg (List.count '/') h
    simp only [List.count_append, List.count_cons, List.count_eq_zero_of_not_mem hstem,
      List.count_eq_zero_of_not_mem hextension] at hcount
    have hdot : ('.' == '/') = false := rfl
    rw [hdot] at hcount
    simp only [Bool.false_eq_true, if_false] at hcount
    omega
  · have hle := hcut.length_le
    rw [h, List.length_append, List.length_append] at hle
    simpa using hle

end Stem

/-! ## Outputs -/

/-- The name of one component, neither the directory itself nor the one above it. -/
structure IsNormal (name : List Char) : Prop where
  ne_nil : name ≠ []
  ne_dot : name ≠ ['.']
  ne_dots : name ≠ ['.', '.']
  no_slash : '/' ∉ name

/-- A name with an extension of two characters or more is no run of dots. -/
theorem isNormal_append {stem extension : List Char} (hlong : 2 ≤ extension.length)
    (hstem : '/' ∉ stem) (hextension : '/' ∉ extension) :
    IsNormal (stem ++ '.' :: extension) where
  ne_nil := by simp
  ne_dot h := by
    have hlength := congrArg List.length h
    simp only [List.length_append, List.length_cons, List.length_nil] at hlength
    omega
  ne_dots h := by
    have hlength := congrArg List.length h
    simp only [List.length_append, List.length_cons, List.length_nil] at hlength
    omega
  no_slash := by simpa using ⟨hstem, hextension⟩

/-- A path without the idle segments at its end. -/
def trimmed (path : List Char) : List Char := (dropIdle path.reverse).reverse

/-- A path that is one normal name with an extension joined to a directory, so that the directory is
    what is above it. -/
def IsFileIn (directory extension path : String) : Prop :=
  ∃ name : String, IsNormal name.toList ∧ extension.toList <:+ name.toList ∧
    path = join directory name ∧ parentOf path.toList = trimmed directory.toList

/-- The stem that an output gets from its input. -/
def outputStem (input : String) : List Char := ((stem? input).getD "out").toList

theorem outputStem_ne_nil (input : String) : outputStem input ≠ [] := by
  unfold outputStem stem?
  cases h : splitName? input.toList with
  | none => simp
  | some found => simpa using stemOf_ne_nil (splitName?_eq_some h).1

theorem not_mem_outputStem (input : String) : '/' ∉ outputStem input := by
  unfold outputStem stem?
  cases h : splitName? input.toList with
  | none => simp
  | some found =>
    have hslash := (splitName?_eq_some h).2.1
    simpa using fun hmem => hslash ((isPrefix_stemOf found.2).subset hmem)

theorem dropIdle_reverse_opening (directory : List Char) :
    dropIdle (opening directory).reverse = dropIdle directory.reverse := by
  unfold opening
  split
  · rfl
  · rfl
  · rw [List.reverse_append]
    rfl

/-- What is above a normal name is the directory, without idle segments at its end. -/
theorem parentOf_append {directory name : List Char} (h : IsNormal name) :
    parentOf (opening directory ++ name) = trimmed directory := by
  have hrest := (lastSegment_append h.ne_nil h.ne_dot h.no_slash (isOpening_opening directory)).2
  rw [parentOf, hrest, dropIdle_reverse_opening, trimmed]

/-- The path of an output is a file in the directory if and only if the stem of the input is not
    lost. -/
theorem outputFor_inside_iff (directory input : String) :
    IsFileIn directory ".java" (outputFor directory input) ↔ ¬LosesName (outputStem input) := by
  have hbefore := isOpening_opening directory.toList
  have hpath : (join directory ((stem? input).getD "out")).toList =
      opening directory.toList ++ outputStem input := toList_join _ _
  constructor
  · rintro ⟨name, hnormal, hextension, heq, -⟩ hloses
    have hlist := congrArg String.toList heq
    rw [toList_join] at hlist
    rcases hloses with hdot | ⟨old, hold, hdots⟩
    · rw [hdot] at hpath
      have hlength := length_le_one_of_dot hbefore hpath hlist (by decide)
      have hle := hextension.length_le
      have hjava : ".java".toList.length = 5 := by decide
      omega
    · have hslash : '/' ∉ old := fun hmem =>
        not_mem_outputStem input (hdots ▸ List.mem_cons_of_mem _ (List.mem_cons_of_mem _ hmem))
      rw [hdots] at hpath
      have hkept := toList_withExtension_dots hbefore hold hslash hpath "java"
      exact hnormal.ne_dots (List.append_cancel_left (hlist.symm.trans hkept))
  · intro hkeeps
    have hlist := toList_withExtension_of_keeps hbefore (outputStem_ne_nil input)
      (not_mem_outputStem input) hkeeps hpath "java"
    have hslash : '/' ∉ stemOf (outputStem input) := fun hmem =>
      not_mem_outputStem input ((isPrefix_stemOf _).subset hmem)
    have hnormal : IsNormal (stemOf (outputStem input) ++ '.' :: "java".toList) :=
      isNormal_append (by decide) hslash (by decide)
    have hname : (outputFor directory input).toList =
        opening directory.toList ++ (stemOf (outputStem input) ++ '.' :: "java".toList) := hlist
    have hjava : ".java".toList = '.' :: "java".toList := by decide
    have htext := String.toList_ofList (l := stemOf (outputStem input) ++ '.' :: "java".toList)
    refine ⟨String.ofList (stemOf (outputStem input) ++ '.' :: "java".toList), ?_, ?_, ?_, ?_⟩
    · rwa [htext]
    · rw [htext, hjava]
      exact List.suffix_append _ _
    · rw [← String.toList_inj, toList_join, htext, hname]
    · rw [hname, parentOf_append hnormal]

/-- The stem of `..json` is a single dot, and its output goes beside the directory. -/
theorem output_beside_directory :
    outputFor "out" "..json" = "out.java" ∧
      ¬IsFileIn "out" ".java" (outputFor "out" "..json") := by
  have houtput : outputFor "out" "..json" = "out.java" := by decide +kernel
  refine ⟨houtput, ?_⟩
  rintro ⟨name, -, -, heq, -⟩
  have hlist := congrArg String.toList (houtput.symm.trans heq)
  rw [toList_join] at hlist
  have hplace := congrArg (fun text => text[3]?) hlist
  simp [opening] at hplace

end Path

end Restyle
