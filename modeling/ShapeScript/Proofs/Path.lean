/-
ShapeScript.Proofs.Path — the names on an absolute path.

Below a root a path comes down to proper names: none is empty, `.` or `..`
(`Path.names`). Its absolute form has these names behind the root, and is
its own absolute form (`absolute_absolute`), so two paths lead to one place
exactly if their names are the same (`placeOf_absolute_eq_iff`).

An extension is one dot with no dot behind it. Putting another text in its
place changes the last name and leads to another place, unless that text
was the extension: `placeOf_withoutExtension_append`.
-/
import Mathlib.Data.List.TakeWhile
import ShapeScript.Disk

namespace ShapeScript.Path

variable {cs ds name : List Char} {names done : List (List Char)}

/-! ## Splitting and joining -/

theorem splitSlashes_slash : splitSlashes ('/' :: cs) = [] :: splitSlashes cs := by
  rw [splitSlashes]

theorem splitSlashes_ne_nil (cs : List Char) : splitSlashes cs ≠ [] := by
  cases cs with
  | nil => exact List.cons_ne_nil _ _
  | cons c cs =>
    unfold splitSlashes
    split <;> exact List.cons_ne_nil _ _

theorem splitSlashes_cons {c : Char} (h : c ≠ '/') (cs : List Char) : ∃ name names,
    splitSlashes cs = name :: names ∧ splitSlashes (c :: cs) = (c :: name) :: names := by
  obtain ⟨name, names, hsplit⟩ := List.exists_cons_of_ne_nil (splitSlashes_ne_nil cs)
  refine ⟨name, names, hsplit, ?_⟩
  rw [splitSlashes]
  · exact h
  · exact hsplit

theorem splitSlashes_append_slash (cs ds : List Char) :
    splitSlashes (cs ++ '/' :: ds) = splitSlashes cs ++ splitSlashes ds := by
  induction cs with
  | nil => exact splitSlashes_slash
  | cons c cs ih =>
    rw [List.cons_append]
    by_cases hc : c = '/'
    · rw [hc, splitSlashes_slash, splitSlashes_slash, ih, List.cons_append]
    · obtain ⟨name, names, hsplit, hcons⟩ := splitSlashes_cons hc cs
      rw [hsplit, List.cons_append] at ih
      obtain ⟨name', names', hsplit', hcons'⟩ := splitSlashes_cons hc (cs ++ '/' :: ds)
      obtain ⟨rfl, rfl⟩ := List.cons.inj (hsplit'.symm.trans ih)
      rw [hcons, hcons', List.cons_append]

theorem splitSlashes_of_not_mem (h : '/' ∉ cs) : splitSlashes cs = [cs] := by
  induction cs with
  | nil => rfl
  | cons c cs ih =>
    rw [List.mem_cons, not_or] at h
    obtain ⟨name, names, hsplit, hcons⟩ := splitSlashes_cons (Ne.symm h.1) cs
    rw [ih h.2] at hsplit
    obtain ⟨rfl, rfl⟩ := List.cons.inj hsplit
    exact hcons

theorem slash_not_mem_of_mem_splitSlashes (h : name ∈ splitSlashes cs) : '/' ∉ name := by
  induction cs generalizing name with
  | nil =>
    rw [splitSlashes, List.mem_singleton] at h
    rw [h]
    exact List.not_mem_nil
  | cons c cs ih =>
    by_cases hc : c = '/'
    · rw [hc, splitSlashes_slash, List.mem_cons] at h
      obtain rfl | h := h
      · exact List.not_mem_nil
      · exact ih h
    · obtain ⟨first, names, hsplit, hcons⟩ := splitSlashes_cons hc cs
      rw [hsplit] at ih
      rw [hcons, List.mem_cons] at h
      obtain rfl | h := h
      · rw [List.mem_cons, not_or]
        exact ⟨Ne.symm hc, ih (.head _)⟩
      · exact ih (.tail _ h)

/-- Joined names are split again. -/
theorem splitSlashes_joinSlashes (hne : names ≠ []) (h : ∀ name ∈ names, '/' ∉ name) :
    splitSlashes (joinSlashes names) = names := by
  induction names with
  | nil => exact absurd rfl hne
  | cons name names ih =>
    rw [List.forall_mem_cons] at h
    cases names with
    | nil => exact splitSlashes_of_not_mem h.1
    | cons next names =>
      rw [joinSlashes.eq_3 _ _ (List.cons_ne_nil _ _), splitSlashes_append_slash,
        splitSlashes_of_not_mem h.1, ih (List.cons_ne_nil _ _) h.2, List.singleton_append]

/-! ## Resolving -/

/-- A name that is kept below a root. -/
structure Proper (name : List Char) : Prop where
  ne_nil : name ≠ []
  ne_dot : name ≠ ['.']
  ne_dots : name ≠ ['.', '.']
  no_slash : '/' ∉ name

/-- Resolves one name below a root. -/
def enter (done : List (List Char)) (name : List Char) : List (List Char) :=
  if name = [] ∨ name = ['.'] then done
  else if name = ['.', '.'] then done.tail
  else name :: done

theorem enter_of_proper (h : Proper name) : enter done name = name :: done := by
  rw [enter, if_neg (not_or.mpr ⟨h.ne_nil, h.ne_dot⟩), if_neg h.ne_dots]

theorem proper_of_mem_enter (hdone : ∀ name ∈ done, Proper name) (hname : '/' ∉ name) :
    ∀ other ∈ enter done name, Proper other := by
  unfold enter
  split
  · exact hdone
  · rename_i h
    rw [not_or] at h
    split
    · exact fun other hother => hdone other (List.mem_of_mem_tail hother)
    · rename_i hdots
      exact List.forall_mem_cons.mpr ⟨⟨h.1, h.2, hdots, hname⟩, hdone⟩

theorem length_enter_le (h : ¬ Proper name) (hname : '/' ∉ name) :
    (enter done name).length ≤ done.length := by
  unfold enter
  split
  · exact Nat.le_refl _
  · rename_i hempty
    rw [not_or] at hempty
    split
    · rw [List.length_tail]
      exact Nat.sub_le _ _
    · rename_i hdots
      exact absurd ⟨hempty.1, hempty.2, hdots, hname⟩ h

/-- Below a root, names are resolved one after the other. -/
theorem resolveNames_eq_foldl (hdone : ∀ name ∈ done, Proper name)
    (h : ∀ name ∈ names, '/' ∉ name) :
    resolveNames true names done = (names.foldl enter done).reverse := by
  induction names generalizing done with
  | nil => rfl
  | cons name names ih =>
    rw [List.forall_mem_cons] at h
    rw [List.foldl_cons, ← ih (proper_of_mem_enter hdone h.1) h.2, resolveNames.eq_def, enter]
    dsimp only
    split
    · rfl
    · split
      · cases done with
        | nil => rfl
        | cons last before =>
          exact congrArg _ (if_neg (hdone last (.head _)).ne_dots)
      · rfl

theorem proper_of_mem_foldl (hdone : ∀ name ∈ done, Proper name)
    (h : ∀ name ∈ names, '/' ∉ name) : ∀ name ∈ names.foldl enter done, Proper name := by
  induction names generalizing done with
  | nil => exact hdone
  | cons name names ih =>
    rw [List.forall_mem_cons] at h
    exact ih (proper_of_mem_enter hdone h.1) h.2

theorem foldl_enter_of_proper (h : ∀ name ∈ names, Proper name) :
    names.foldl enter done = names.reverse ++ done := by
  induction names generalizing done with
  | nil => rfl
  | cons name names ih =>
    rw [List.forall_mem_cons] at h
    rw [List.foldl_cons, ih h.2, enter_of_proper h.1, List.reverse_cons, List.append_assoc,
      List.singleton_append]

/-! ## Absolute paths -/

/-- The names that a path has below the root. -/
def namesOf (workingDirectory path : String) : List (List Char) :=
  ((splitSlashes (join workingDirectory.toList path.toList)).foldl enter []).reverse

theorem proper_of_mem_namesOf (workingDirectory path : String) :
    ∀ name ∈ namesOf workingDirectory path, Proper name := by
  have hnone : ∀ name ∈ ([] : List (List Char)), Proper name := nofun
  intro name hname
  refine proper_of_mem_foldl hnone (fun name h => ?_) name (List.mem_reverse.mp hname)
  exact slash_not_mem_of_mem_splitSlashes h

/-- Proper names are what a path of them has below the root. -/
theorem foldl_enter_joinSlashes (h : ∀ name ∈ names, Proper name) :
    ((splitSlashes (joinSlashes names)).foldl enter []).reverse = names := by
  cases names with
  | nil => rfl
  | cons name names =>
    rw [splitSlashes_joinSlashes (List.cons_ne_nil _ _) fun name hname => (h name hname).no_slash,
      foldl_enter_of_proper h, List.append_nil, List.reverse_reverse]

theorem joinSlashes_ne_slash (h : ∀ name ∈ names, Proper name) (cs : List Char) :
    joinSlashes names ≠ '/' :: cs := by
  cases names with
  | nil => exact nofun
  | cons name names =>
    obtain ⟨c, name, rfl⟩ := List.exists_cons_of_ne_nil (h name (.head _)).ne_nil
    have hc : c ≠ '/' := fun hc => (h _ (.head _)).no_slash (hc ▸ .head _)
    cases names <;> exact fun hslash => hc (List.cons.inj hslash).1

theorem isAbsolute_iff : isAbsolute cs = true ↔ ∃ ds, cs = '/' :: ds := by
  unfold isAbsolute
  split
  · simp
  · rename_i hslash
    exact ⟨nofun, fun ⟨ds, hds⟩ => absurd hds (hslash ds)⟩

theorem rootOf_slash (h : ∀ ds, cs ≠ '/' :: ds) : rootOf ('/' :: cs) = ['/'] := by
  cases cs with
  | nil => rfl
  | cons c cs =>
    rw [rootOf]
    · rintro _ ⟨⟩
      exact h _ rfl
    · rintro _ ⟨⟩
      exact h _ rfl

theorem rootOf_slashes (h : ∀ ds, cs ≠ '/' :: ds) : rootOf ('/' :: '/' :: cs) = ['/', '/'] := by
  rw [rootOf]
  rintro ds rfl
  exact h ds rfl

theorem rootOf_cases (h : isAbsolute cs = true) : rootOf cs = ['/'] ∨ rootOf cs = ['/', '/'] := by
  obtain ⟨ds, rfl⟩ := isAbsolute_iff.mp h
  unfold rootOf
  split
  · exact .inl rfl
  · exact .inr rfl
  · exact .inl rfl
  · rename_i hslash
    exact absurd rfl (hslash ds)

theorem normalize_of_isAbsolute (h : isAbsolute cs = true) : normalize cs =
    rootOf cs ++ joinSlashes ((splitSlashes cs).foldl enter []).reverse := by
  have hnone : ∀ name ∈ ([] : List (List Char)), Proper name := nofun
  have hresolve : resolveNames true (splitSlashes cs) [] = _ :=
    resolveNames_eq_foldl hnone fun _ h => slash_not_mem_of_mem_splitSlashes h
  unfold normalize
  obtain hroot | hroot := rootOf_cases h <;>
  · rw [hroot]
    exact congrArg (_ ++ joinSlashes ·) hresolve

/-- A root with proper names behind it is an absolute path of these
names. -/
theorem normalize_root_append {root : List Char} (hroot : root = ['/'] ∨ root = ['/', '/'])
    (h : ∀ name ∈ names, Proper name) :
    normalize (root ++ joinSlashes names) = root ++ joinSlashes names := by
  have hfirst := joinSlashes_ne_slash h
  have hsame : isAbsolute (root ++ joinSlashes names) = true ∧
      rootOf (root ++ joinSlashes names) = root ∧
      (splitSlashes (root ++ joinSlashes names)).foldl enter [] =
        (splitSlashes (joinSlashes names)).foldl enter [] := by
    generalize joinSlashes names = cs at hfirst
    obtain rfl | rfl := hroot
    · refine ⟨rfl, rootOf_slash hfirst, ?_⟩
      rw [List.singleton_append, splitSlashes_slash]
      rfl
    · refine ⟨rfl, rootOf_slashes hfirst, ?_⟩
      rw [List.cons_append, List.singleton_append, splitSlashes_slash, splitSlashes_slash]
      rfl
  rw [normalize_of_isAbsolute hsame.1, hsame.2.1, hsame.2.2, foldl_enter_joinSlashes h]

section Absolute

variable {workingDirectory path other : String}

theorem isAbsolute_join (hroot : isAbsolute workingDirectory.toList = true) (cs : List Char) :
    isAbsolute (join workingDirectory.toList cs) = true := by
  obtain ⟨ds, hds⟩ := isAbsolute_iff.mp hroot
  unfold join
  split
  · assumption
  · rw [hds]
    split <;> rfl

variable (hroot : isAbsolute workingDirectory.toList = true)
include hroot

/-- The absolute form of a path has its names behind one or two slashes. -/
theorem toList_absolute (path : String) : ∃ root, (root = ['/'] ∨ root = ['/', '/']) ∧
    (absolute workingDirectory path).toList =
      root ++ joinSlashes (namesOf workingDirectory path) := by
  have hjoin := isAbsolute_join hroot path.toList
  refine ⟨_, rootOf_cases hjoin, ?_⟩
  rw [absolute, String.toList_ofList, normalize_of_isAbsolute hjoin]
  rfl

/-- An absolute path is its own absolute form. -/
theorem absolute_absolute :
    absolute workingDirectory (absolute workingDirectory path) = absolute workingDirectory path := by
  obtain ⟨root, hslashes, hchars⟩ := toList_absolute hroot path
  have hjoin : join workingDirectory.toList (absolute workingDirectory path).toList =
      (absolute workingDirectory path).toList := by
    refine if_pos ?_
    rw [hchars]
    obtain rfl | rfl := hslashes <;> rfl
  rw [absolute.eq_1 _ (absolute workingDirectory path), hjoin, hchars,
    normalize_root_append hslashes (proper_of_mem_namesOf _ _), ← hchars, String.ofList_toList]

theorem placeOf_absolute : Disk.placeOf (absolute workingDirectory path) =
    String.ofList ('/' :: joinSlashes (namesOf workingDirectory path)) := by
  obtain ⟨root, hslashes, hchars⟩ := toList_absolute hroot path
  have hfirst := joinSlashes_ne_slash (proper_of_mem_namesOf workingDirectory path)
  unfold Disk.placeOf
  rw [hchars]
  obtain rfl | rfl := hslashes
  · split
    · rename_i cs hcs
      exact absurd (List.cons.inj hcs).2 (hfirst cs)
    · rw [← String.ofList_toList (s := absolute workingDirectory path), hchars]
      rfl
  · rfl

/-- Paths lead to one place if they have the same names. -/
theorem placeOf_absolute_eq_iff :
    Disk.placeOf (absolute workingDirectory path) = Disk.placeOf (absolute workingDirectory other) ↔
      namesOf workingDirectory path = namesOf workingDirectory other := by
  rw [placeOf_absolute hroot, placeOf_absolute hroot, String.ofList_inj, List.cons.injEq]
  refine ⟨fun h => ?_, fun h => ⟨rfl, congrArg joinSlashes h⟩⟩
  rw [← foldl_enter_joinSlashes (proper_of_mem_namesOf workingDirectory path), h.2,
    foldl_enter_joinSlashes (proper_of_mem_namesOf workingDirectory other)]

end Absolute

/-! ## The last name -/

theorem slash_not_mem_lastName (cs : List Char) : '/' ∉ lastName cs := by
  rw [lastName, List.mem_reverse]
  exact fun h => absurd (List.mem_takeWhile_imp h) (by decide)

/-- What stands before the last name of a path is nothing or ends in a
slash. -/
theorem exists_eq_append_lastName (cs : List Char) :
    ∃ head, cs = head ++ lastName cs ∧ (head = [] ∨ ∃ before, head = before ++ ['/']) := by
  have hsplit := List.takeWhile_append_dropWhile (p := (· != '/')) (l := cs.reverse)
  refine ⟨(cs.reverse.dropWhile (· != '/')).reverse, ?_, ?_⟩
  · rw [lastName, ← List.reverse_append, hsplit, List.reverse_reverse]
  · have hhead := List.head?_dropWhile_not (· != '/') cs.reverse
    cases hrest : cs.reverse.dropWhile (· != '/') with
    | nil => exact .inl rfl
    | cons c rest =>
      rw [hrest] at hhead
      obtain rfl : c = '/' := by simpa using hhead
      exact .inr ⟨rest.reverse, List.reverse_cons⟩

theorem isAbsolute_append {head last : List Char} (h : '/' ∉ last) :
    isAbsolute (head ++ last) = isAbsolute head := by
  rw [Bool.eq_iff_iff, isAbsolute_iff, isAbsolute_iff]
  cases head with
  | nil =>
    refine ⟨?_, nofun⟩
    rintro ⟨ds, rfl⟩
    exact absurd (.head _) h
  | cons c head => simp

/-- What a path has in front of its last name when it is joined to a
directory does not depend on that name, and ends in a slash. -/
theorem exists_join_eq {directory head : List Char} (hdirectory : directory ≠ [])
    (hhead : head = [] ∨ ∃ before, head = before ++ ['/']) :
    ∃ before, ∀ last, '/' ∉ last → join directory (head ++ last) = before ++ '/' :: last := by
  have hends {front : List Char} (hfront : ∃ before, front = before ++ ['/']) :
      ∃ before, front ++ head = before ++ ['/'] := by
    obtain rfl | ⟨before, rfl⟩ := hhead
    · rwa [List.append_nil]
    · exact ⟨front ++ before, (List.append_assoc _ _ _).symm⟩
  have hjoin : ∃ front, (∀ last, '/' ∉ last → join directory (head ++ last) = front ++ last) ∧
      ∃ before, front = before ++ ['/'] := by
    by_cases habsolute : isAbsolute head = true
    · refine ⟨head, fun last hlast => if_pos (by rwa [isAbsolute_append hlast]), ?_⟩
      obtain ⟨ds, rfl⟩ := isAbsolute_iff.mp habsolute
      exact hhead.resolve_left (List.cons_ne_nil _ _)
    · by_cases hlast : directory.getLast? = some '/'
      · refine ⟨directory ++ head, fun last hslash => ?_, hends ?_⟩
        · rw [join, isAbsolute_append hslash, if_neg habsolute, if_pos (.inr hlast),
            List.append_assoc]
        · exact List.getLast?_eq_some_iff.mp hlast
      · refine ⟨directory ++ ['/'] ++ head, fun last hslash => ?_, hends ⟨directory, rfl⟩⟩
        have hdir : ¬ (directory.isEmpty = true ∨ directory.getLast? = some '/') := by
          rw [List.isEmpty_iff, not_or]
          exact ⟨hdirectory, hlast⟩
        rw [join, isAbsolute_append hslash, if_neg habsolute, if_neg hdir, List.append_assoc,
          List.append_assoc, List.singleton_append]
  obtain ⟨_, hjoin, before, rfl⟩ := hjoin
  exact ⟨before, fun last hlast => by rw [hjoin last hlast, List.append_assoc,
    List.singleton_append]⟩

/-- The last name of a path is the last one that is resolved. -/
theorem namesOf_append_lastName {workingDirectory : String}
    (hroot : isAbsolute workingDirectory.toList = true) {head : List Char}
    (hhead : head = [] ∨ ∃ before, head = before ++ ['/']) :
    ∃ done, ∀ last, '/' ∉ last →
      namesOf workingDirectory (String.ofList (head ++ last)) = (enter done last).reverse := by
  have hdirectory : workingDirectory.toList ≠ [] := by
    obtain ⟨ds, hds⟩ := isAbsolute_iff.mp hroot
    rw [hds]
    exact List.cons_ne_nil _ _
  obtain ⟨before, hbefore⟩ := exists_join_eq hdirectory hhead
  refine ⟨(splitSlashes before).foldl enter [], fun last hlast => ?_⟩
  rw [namesOf, String.toList_ofList, hbefore last hlast, splitSlashes_append_slash,
    splitSlashes_of_not_mem hlast, List.foldl_append]
  rfl

/-! ## Extensions -/

theorem extensionLength_le (name : List Char) : extensionLength name ≤ name.length := by
  unfold extensionLength
  dsimp only
  split
  · rename_i h
    exact h.1
  · exact Nat.zero_le _

/-- There is at most one dot in an extension. -/
theorem count_dot_le_one :
    (name.drop (name.length - extensionLength name)).count '.' ≤ 1 := by
  unfold extensionLength
  dsimp only
  split
  · rename_i h
    -- Read from its end, the name starts with these characters, and its extension ends one further.
    generalize hafter : name.reverse.takeWhile (· != '.') = after at h ⊢
    have hsplit := List.takeWhile_append_dropWhile (p := (· != '.')) (l := name.reverse)
    have hdotless : after.count '.' = 0 := by
      rw [← hafter, List.count_eq_zero]
      exact fun h => absurd (List.mem_takeWhile_imp h) (by decide)
    rw [hafter] at hsplit
    rw [← List.count_reverse, List.reverse_drop, Nat.sub_sub_self (Nat.add_one_le_of_lt h.1),
      ← hsplit, List.take_length_add_append, List.count_append, hdotless, Nat.zero_add]
    exact List.count_le_length.trans (List.length_take_le _ _)
  · rw [Nat.sub_zero, List.drop_length, List.count_nil]
    exact Nat.zero_le _

/-- A path in three parts: the directory with its slash, and a last name
without a slash, which is a stem and an extension. -/
structure Parts (path : String) (head stem ext : List Char) : Prop where
  whole : path.toList = head ++ (stem ++ ext)
  shortened : (withoutExtension path).toList = head ++ stem
  head : head = [] ∨ ∃ before, head = before ++ ['/']
  no_slash : '/' ∉ stem ++ ext
  one_dot : ext.count '.' ≤ 1

theorem exists_parts (path : String) : ∃ head stem ext, Parts path head stem ext := by
  obtain ⟨head, hpath, hhead⟩ := exists_eq_append_lastName path.toList
  have hslash := slash_not_mem_lastName path.toList
  generalize hname : lastName path.toList = name at hpath hslash
  have hparts := List.take_append_drop (name.length - extensionLength name) name
  refine ⟨head, name.take (name.length - extensionLength name),
    name.drop (name.length - extensionLength name), ?_, ?_, hhead, ?_, count_dot_le_one⟩
  · rw [hparts, hpath]
  · have hlength := extensionLength_le name
    rw [withoutExtension, String.toList_ofList, hname, hpath, List.length_append,
      Nat.add_sub_assoc hlength, List.take_length_add_append]
  · rwa [hparts]

section Replacing

variable {workingDirectory path text : String}

/-- A text with two dots is no extension. -/
theorem withoutExtension_append_ne (h : 1 < text.toList.count '.') :
    withoutExtension path ++ text ≠ path := by
  intro hpath
  obtain ⟨head, stem, ext, hparts⟩ := exists_parts path
  have hchars := congrArg String.toList hpath
  rw [String.toList_append, hparts.shortened, hparts.whole, List.append_assoc] at hchars
  have hext : text.toList = ext := List.append_cancel_left (List.append_cancel_left hchars)
  have hdot := hparts.one_dot
  rw [← hext] at hdot
  omega

/-- Another text in place of the extension leads to another place. -/
theorem placeOf_withoutExtension_append (hroot : isAbsolute workingDirectory.toList = true)
    (hslash : '/' ∉ text.toList) (hdots : ∃ c ∈ text.toList, c ≠ '.') :
    Disk.placeOf (absolute workingDirectory (withoutExtension path ++ text)) =
        Disk.placeOf (absolute workingDirectory path) ↔
      withoutExtension path ++ text = path := by
  refine ⟨fun h => ?_, fun h => by rw [h]⟩
  obtain ⟨head, stem, ext, hparts⟩ := exists_parts path
  obtain ⟨done, hnames⟩ := namesOf_append_lastName hroot hparts.head
  have hnew : withoutExtension path ++ text = .ofList (head ++ (stem ++ text.toList)) := by
    rw [← String.toList_inj, String.toList_append, hparts.shortened, String.toList_ofList,
      List.append_assoc]
  have hold : path = .ofList (head ++ (stem ++ ext)) := by
    rw [← hparts.whole, String.ofList_toList]
  have hno : '/' ∉ stem ++ text.toList := by
    have := hparts.no_slash
    simp only [List.mem_append, not_or] at this ⊢
    exact ⟨this.1, hslash⟩
  have hproper : Proper (stem ++ text.toList) := by
    obtain ⟨c, hc, hdot⟩ := hdots
    have hmem : c ∈ stem ++ text.toList := List.mem_append_right stem hc
    refine ⟨?_, ?_, ?_, hno⟩
    all_goals
      intro h
      rw [h] at hmem
      simp [hdot] at hmem
  rw [placeOf_absolute_eq_iff hroot, hnew, hnames _ hno, enter_of_proper hproper] at h
  rw [hnew, hold]
  rw [hold, hnames _ hparts.no_slash, List.reverse_inj] at h
  by_cases hlast : Proper (stem ++ ext)
  · rw [enter_of_proper hlast] at h
    rw [(List.cons.inj h).1]
  · have hlength : (enter done (stem ++ ext)).length ≤ done.length :=
      length_enter_le hlast hparts.no_slash
    rw [← h, List.length_cons] at hlength
    omega

end Replacing

end ShapeScript.Path
