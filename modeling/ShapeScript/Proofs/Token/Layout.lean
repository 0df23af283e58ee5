/-
ShapeScript.Proofs.Token.Layout — lexemes with gaps between them.

`LaidOut ls text` says that the text writes the lexemes `ls`, in any of
the ways in which each can be written, with a gap between any two and
perhaps gaps around them. `scan_of_laidOut` says that such a text is
scanned, and what is read are those lexemes.

What carries the proof is that a word followed by a gap, or by nothing,
is the longest lexeme at its place (`longest_of_separates`): a string ends
at its quote, whatever follows, and no other lexeme has a gap in it. The
blanks that are dropped around a text are gaps of the layout, because no
lexeme starts or ends with a blank (`Denotes.edges`).
-/
import ShapeScript.Proofs.Token.Scanning

namespace ShapeScript

/-- The text is the lexemes, written one after the other, with gaps in
between and maybe at both ends. -/
inductive LaidOut : List Lexeme → List Char → Prop
  | nil {gap : List Char} (hgap : ∀ c ∈ gap, isGap c) : LaidOut [] gap
  | cons {gap w text : List Char} {l : Lexeme} {ls : List Lexeme} (hgap : ∀ c ∈ gap, isGap c)
      (hw : Denotes w l) (hsep : ls ≠ [] → ∃ c ∈ text.head?, isGap c)
      (htext : LaidOut ls text) : LaidOut (l :: ls) (gap ++ (w ++ text))

/-- A gap stands at the start of the text, or nothing does. -/
def Boundary (text : List Char) : Prop := ∀ c ∈ text.head?, isGap c

/-- No name, number or equals sign goes on into the text. -/
def Separates (text : List Char) : Prop :=
  ∀ c ∈ text.head?, isNameChar c = false ∧ c ≠ '=' ∧ c ≠ '.'

/-! ## Words before a boundary -/

/-- No gap belongs to any other class of characters. -/
theorem isGap_disjoint {c : Char} (h : isGap c) :
    isNameChar c = false ∧ c ≠ '=' ∧ c ≠ '.' := by
  have hchars : c = ' ' ∨ c = '\t' ∨ c = '\n' ∨ c = '\r' := by
    simpa [isGap, or_assoc] using h
  obtain rfl | rfl | rfl | rfl := hchars <;> decide

theorem Boundary.separates {text : List Char} (h : Boundary text) : Separates text :=
  fun c hc => isGap_disjoint (h c hc)

theorem separates_nil : Separates [] := fun _ hc => absurd hc (Option.not_mem_none _)

/-- A word before a text that it does not go on into is the longest at its
place. -/
theorem longest_of_separates {w text : List Char} {l : Lexeme} (hw : Denotes w l)
    (htext : Separates text) : Longest w l (w ++ text) := by
  have hdigit : ∀ c ∈ text.head?, isDigit c = false := fun c hc =>
    (Bool.or_eq_false_iff.mp (htext c hc).1).2
  cases hw with
  | mark hc => exact longest_mark hc text
  | assign => exact longest_assign fun hhead => (htext '=' hhead).2.1 rfl
  | compare => exact longest_compare text
  | @string body hbody =>
    rw [List.cons_append, List.append_assoc, List.singleton_append]
    exact longest_string hbody text
  | @identifier c cs hc hcs =>
    have hname : (cs ++ text).takeWhile isNameChar = cs :=
      takeWhile_append_of_head hcs fun c hc => (htext c hc).1
    have hlongest := longest_identifier hc (cs ++ text)
    rw [hname] at hlongest
    exact hlongest
  | @whole c ds hc hds =>
    have hdigits : (ds ++ text).takeWhile isDigit = ds := takeWhile_append_of_head hds hdigit
    have hpoint : ∀ more, (ds ++ text).dropWhile isDigit ≠ '.' :: more := by
      intro more hmore
      rw [dropWhile_append_of_head hds hdigit] at hmore
      exact (htext '.' (by rw [hmore]; rfl)).2.2 rfl
    have hlongest := longest_whole hc hpoint
    rw [hdigits] at hlongest
    exact hlongest
  | @pointed c ds fs hc hds hfs =>
    have hfraction : (fs ++ text).takeWhile isDigit = fs := takeWhile_append_of_head hfs hdigit
    have hpoint : (ds ++ '.' :: (fs ++ text)).dropWhile isDigit = '.' :: (fs ++ text) :=
      dropWhile_append_cons hds rfl
    have hlongest := longest_pointed hc hpoint
    rw [takeWhile_append_cons hds rfl, hfraction] at hlongest
    rw [List.cons_append, List.append_assoc, List.cons_append]
    exact hlongest

/-! ## Layouts -/

namespace LaidOut

variable {ls : List Lexeme} {text : List Char}

/-- Without lexemes there are only gaps, so a layout is a boundary for
what stands before it. -/
theorem boundary (hsep : ls ≠ [] → ∃ c ∈ text.head?, isGap c) (h : LaidOut ls text) :
    Boundary text := by
  cases h with
  | nil hgap => exact fun c hc => hgap c (List.mem_of_mem_head? hc)
  | cons =>
    obtain ⟨c, hc, hgap⟩ := hsep (List.cons_ne_nil _ _)
    intro c' hc'
    obtain rfl : c = c' := Option.some.inj (hc.symm.trans hc')
    exact hgap

/-- A layout is cut into its lexemes. -/
theorem exists_cut (h : LaidOut ls text) (p : Position) :
    ∃ ts q, Cut p text ts q [] ∧ ts.map Token.lexeme = ls := by
  induction h generalizing p with
  | @nil gap hgap =>
    refine ⟨[], p.over gap [], ?_, rfl⟩
    have hcut : Cut p (gap ++ []) [] (p.over gap []) [] := Cursor.cut_of_gaps hgap .nil
    rwa [List.append_nil] at hcut
  | @cons gap w text l ls hgap hw hsep htext ih =>
    obtain ⟨ts, q, hcut, hls⟩ := ih ((p.over gap (w ++ text)).over w text)
    have hlongest := longest_of_separates hw (boundary hsep htext).separates
    refine ⟨_, q, Cursor.cut_of_gaps hgap (.lexeme hlongest hcut), ?_⟩
    rw [List.map_cons, hls]

end LaidOut

/-! ## Blanks around a layout -/

/-- Above the space, the next blank is a control far beyond the letters. -/
theorem isBlank_eq_false {c : Char} (hlow : 0x20 < c.toNat) (hhigh : c.toNat < 0x85) :
    Text.isBlank c = false := by
  simp only [Text.isBlank, Text.inRanges, Text.blankRanges, List.any_cons, List.any_nil,
    Bool.or_false, Bool.or_eq_false_iff, Bool.and_eq_false_iff, decide_eq_false_iff_not]
  omega

theorem isBlank_of_isGap {c : Char} (h : isGap c) : Text.isBlank c := by
  have hchars : c = ' ' ∨ c = '\t' ∨ c = '\n' ∨ c = '\r' := by
    simpa [isGap, or_assoc] using h
  obtain rfl | rfl | rfl | rfl := hchars <;> decide

theorem not_isBlank_of_isNameChar {c : Char} (h : isNameChar c) : Text.isBlank c = false := by
  simp only [isNameChar, isLetter, isDigit, Bool.or_eq_true, Bool.and_eq_true,
    decide_eq_true_eq, Char.le_def, UInt32.le_iff_toNat_le] at h
  have ha : ('a' : Char).val.toNat = 97 := rfl
  have hz : ('z' : Char).val.toNat = 122 := rfl
  have hA : ('A' : Char).val.toNat = 65 := rfl
  have hZ : ('Z' : Char).val.toNat = 90 := rfl
  have h0 : ('0' : Char).val.toNat = 48 := rfl
  have h9 : ('9' : Char).val.toNat = 57 := rfl
  have hc : c.toNat = c.val.toNat := rfl
  exact isBlank_eq_false (by omega) (by omega)

theorem not_isBlank_of_mark {c : Char} {l : Lexeme} (h : Lexeme.ofChar? c = some l) :
    Text.isBlank c = false := by
  have htest := Lexeme.test_of_ofChar? (p := fun m => !Text.isBlank m.1) (by decide) h
  simpa using htest

theorem edges_of_forall {c : Char} {w : List Char}
    (h : ∀ x ∈ c :: w, Text.isBlank x = false) :
    (∃ x ∈ (c :: w).head?, Text.isBlank x = false) ∧
      ∃ x ∈ (c :: w).getLast?, Text.isBlank x = false := by
  refine ⟨⟨c, rfl, h c List.mem_cons_self⟩, (c :: w).getLast (List.cons_ne_nil c w), ?_, ?_⟩
  · exact List.getLast?_eq_some_getLast (List.cons_ne_nil c w)
  · exact h _ (List.getLast_mem _)

/-- A word has no blank at its two ends. -/
theorem Denotes.edges {w : List Char} {l : Lexeme} (h : Denotes w l) :
    (∃ c ∈ w.head?, Text.isBlank c = false) ∧ ∃ c ∈ w.getLast?, Text.isBlank c = false := by
  have hdigit : ∀ {c}, isDigit c → Text.isBlank c = false :=
    fun hc => not_isBlank_of_isNameChar (by simp [isNameChar, hc])
  cases h with
  | mark hc =>
    refine edges_of_forall fun x hx => ?_
    rw [List.mem_singleton.mp hx]
    exact not_isBlank_of_mark hc
  | assign => exact edges_of_forall (List.forall_mem_singleton.mpr rfl)
  | compare =>
    exact edges_of_forall (List.forall_mem_cons.mpr ⟨rfl, List.forall_mem_singleton.mpr rfl⟩)
  | @string body hbody =>
    refine ⟨⟨'"', rfl, by decide⟩, '"', ?_, by decide⟩
    rw [← List.cons_append, List.getLast?_concat]
    rfl
  | identifier hc hcs =>
    refine edges_of_forall fun x hx => not_isBlank_of_isNameChar ?_
    rcases List.mem_cons.mp hx with rfl | hx
    · simp [isNameChar, hc]
    · exact hcs x hx
  | whole hc hds =>
    refine edges_of_forall fun x hx => hdigit ?_
    rcases List.mem_cons.mp hx with rfl | hx
    · exact hc
    · exact hds x hx
  | pointed hc hds hfs =>
    refine edges_of_forall fun x hx => ?_
    rcases List.mem_cons.mp hx with rfl | hx
    · exact hdigit hc
    rcases List.mem_append.mp hx with hx | hx
    · exact hdigit (hds x hx)
    rcases List.mem_cons.mp hx with rfl | hx
    · decide
    · exact hdigit (hfs x hx)

/-- Blanks are dropped from the end of what follows a character that is
none. -/
theorem dropTrailingBlanks_append {w text : List Char}
    (hw : ∃ c ∈ w.getLast?, Text.isBlank c = false) :
    Text.dropTrailingBlanks (w ++ text) = w ++ Text.dropTrailingBlanks text := by
  obtain ⟨c, hc, hblank⟩ := hw
  obtain ⟨w, rfl⟩ := List.getLast?_eq_some_iff.mp hc
  unfold Text.dropTrailingBlanks
  rw [List.reverse_append, List.dropWhile_append]
  split
  · rename_i hempty
    rw [List.isEmpty_iff] at hempty
    have hlast : (w ++ [c]).reverse.dropWhile Text.isBlank = (w ++ [c]).reverse := by
      rw [List.reverse_append, List.reverse_singleton, List.singleton_append,
        List.dropWhile_cons_of_neg (by simp [hblank])]
    rw [hlast, hempty, List.reverse_reverse, List.reverse_nil, List.append_nil]
  · rw [List.reverse_append, List.reverse_reverse]

/-- A text without a blank at either end has none to drop. -/
theorem strip_eq_self {text : List Char} (hfirst : ∃ c ∈ text.head?, Text.isBlank c = false)
    (hlast : ∃ c ∈ text.getLast?, Text.isBlank c = false) : Text.strip text = text := by
  obtain ⟨c, hc, hblank⟩ := hfirst
  obtain ⟨more, rfl⟩ := List.head?_eq_some_iff.mp hc
  have hleading : Text.dropLeadingBlanks (c :: more) = c :: more := by
    rw [Text.dropLeadingBlanks, List.dropWhile_cons_of_neg (Bool.not_eq_true _ ▸ hblank)]
  have htrailing : Text.dropTrailingBlanks (c :: more ++ []) = c :: more ++ [] :=
    dropTrailingBlanks_append hlast
  rw [List.append_nil] at htrailing
  rw [Text.strip, hleading, htrailing]

theorem dropTrailingBlanks_eq_nil {gap : List Char} (hgap : ∀ c ∈ gap, isGap c) :
    Text.dropTrailingBlanks gap = [] := by
  unfold Text.dropTrailingBlanks
  rw [List.dropWhile_eq_nil_iff.mpr, List.reverse_nil]
  exact fun c hc => isBlank_of_isGap (hgap c (List.mem_reverse.mp hc))

theorem dropTrailingBlanks_prefix (text : List Char) : Text.dropTrailingBlanks text <+: text := by
  have hsuffix := List.dropWhile_suffix Text.isBlank (l := text.reverse)
  rw [← List.reverse_prefix, List.reverse_reverse] at hsuffix
  exact hsuffix

namespace LaidOut

variable {ls : List Lexeme} {text : List Char}

theorem ne_nil {l : Lexeme} (h : LaidOut (l :: ls) text) : text ≠ [] := by
  cases h with
  | @cons gap w text l ls hgap hw hsep htext =>
    obtain ⟨⟨c, hc, _⟩, _⟩ := hw.edges
    intro hnil
    rw [List.append_eq_nil_iff, List.append_eq_nil_iff] at hnil
    rw [hnil.2.1] at hc
    cases hc

theorem dropTrailingBlanks (h : LaidOut ls text) : LaidOut ls (Text.dropTrailingBlanks text) := by
  induction h with
  | nil hgap =>
    rw [dropTrailingBlanks_eq_nil hgap]
    exact .nil nofun
  | @cons gap w text l ls hgap hw hsep htext ih =>
    obtain ⟨_, c, hc, hblank⟩ := hw.edges
    have hlast : ∃ c ∈ (gap ++ w).getLast?, Text.isBlank c = false := by
      refine ⟨c, ?_, hblank⟩
      rw [List.getLast?_append, Option.mem_def.mp hc]
      rfl
    rw [← List.append_assoc, dropTrailingBlanks_append hlast, List.append_assoc]
    refine .cons hgap hw (fun hls => ?_) ih
    obtain ⟨x, hx, hgap⟩ := hsep hls
    obtain ⟨l', ls', rfl⟩ := List.exists_cons_of_ne_nil hls
    obtain ⟨y, more, hy⟩ := List.exists_cons_of_ne_nil ih.ne_nil
    obtain ⟨s, hs⟩ := dropTrailingBlanks_prefix text
    rw [hy] at hs ⊢
    rw [← hs] at hx
    exact ⟨x, hx, hgap⟩

theorem dropLeadingBlanks (h : LaidOut ls text) : LaidOut ls (Text.dropLeadingBlanks text) := by
  unfold Text.dropLeadingBlanks
  cases h with
  | nil hgap =>
    rw [List.dropWhile_eq_nil_iff.mpr fun c hc => isBlank_of_isGap (hgap c hc)]
    exact .nil nofun
  | @cons gap w text l ls hgap hw hsep htext =>
    obtain ⟨⟨c, hc, hblank⟩, _⟩ := hw.edges
    obtain ⟨w, rfl⟩ := List.head?_eq_some_iff.mp hc
    rw [List.cons_append, dropWhile_append_cons (fun c hc => isBlank_of_isGap (hgap c hc)) hblank]
    show LaidOut (l :: ls) ([] ++ (c :: w ++ text))
    exact .cons nofun hw hsep htext

end LaidOut

/-- A layout is scanned, and read as its lexemes. -/
theorem scan_of_laidOut {ls : List Lexeme} {text : String} (h : LaidOut ls text.toList) :
    ∃ ts, scan text = .ok ts ∧ ts.map Token.lexeme = ls := by
  obtain ⟨ts, q, hcut, hls⟩ := h.dropLeadingBlanks.dropTrailingBlanks.exists_cut .origin
  exact ⟨ts, scan_of_cut hcut, hls⟩

end ShapeScript
