/-
ShapeScript.Proofs.Token.LineEnds — scanning a text with unified line ends.

A text that was read from a file has LF for every CR LF and for every lone
CR. The scanner takes both for gaps and counts both as one break, so it
finds the same lexemes at the same positions as in the text itself, or is
stuck at the same character. Only what stands inside a string is more than
a gap: the texts of strings have their line ends unified too.
`scan_unified` says this in one equation.

It is proved for cuts, piece by piece. A lexeme does not end in a CR, so no
CR LF is torn apart between two pieces, and the cut of the unified text is
that of the text with each piece unified (`Cut.unified`).
-/
import Mathlib.Data.List.DropRight
import ShapeScript.Proofs.Token.Layout
import ShapeScript.Text.Lines

namespace ShapeScript

open Text

/-- The text with its line ends unified. -/
def Text.unified (text : String) : String := .ofList (unifyLineEnds text.toList)

/-- The lexeme with the text of a string changed. -/
def Lexeme.mapText (g : String → String) : Lexeme → Lexeme
  | .string text => .string (g text)
  | l => l

def Token.mapText (g : String → String) (t : Token) : Token :=
  { t with lexeme := t.lexeme.mapText g }

/-! ## Unified characters -/

/-- Induction on a text whose CR LF pairs are not taken apart. -/
@[elab_as_elim]
theorem lineEnds_induction {motive : List Char → Prop} (nil : motive [])
    (pair : ∀ rest, motive rest → motive ('\r' :: '\n' :: rest))
    (cons : ∀ c rest, ¬ (c = '\r' ∧ rest.head? = some '\n') → motive rest →
      motive (c :: rest)) (text : List Char) : motive text := by
  induction text using unifyLineEnds.induct with
  | case1 => exact nil
  | case2 rest ih => exact pair rest ih
  | case3 c rest hpair ih =>
    refine cons c rest (fun h => ?_) ih
    obtain ⟨more, rfl⟩ := List.head?_eq_some_iff.mp h.2
    exact hpair more h.1 rfl

section Characters

variable {c : Char} {w text : List Char}

theorem unifyLineEnds_cons (h : ¬ (c = '\r' ∧ text.head? = some '\n')) :
    unifyLineEnds (c :: text) = (if c = '\r' then '\n' else c) :: unifyLineEnds text := by
  rw [unifyLineEnds]
  rintro rest rfl rfl
  exact h ⟨rfl, rfl⟩

theorem unifyLineEnds_of_ne (hc : c ≠ '\r') :
    unifyLineEnds (c :: text) = c :: unifyLineEnds text := by
  rw [unifyLineEnds_cons fun h => hc h.1, if_neg hc]

theorem head?_unifyLineEnds (text : List Char) :
    (unifyLineEnds text).head? = text.head?.map fun c => if c = '\r' then '\n' else c := by
  fun_cases unifyLineEnds text <;> rfl

theorem unifyLineEnds_eq_self (h : '\r' ∉ text) : unifyLineEnds text = text := by
  induction text with
  | nil => rfl
  | cons c text ih =>
    obtain ⟨hc, htext⟩ := List.ne_and_not_mem_of_not_mem_cons h
    rw [unifyLineEnds_of_ne hc.symm, ih htext]

theorem mem_unifyLineEnds (hreturn : c ≠ '\r') (hfeed : c ≠ '\n') :
    c ∈ unifyLineEnds text ↔ c ∈ text := by
  induction text using lineEnds_induction with
  | nil => rfl
  | pair rest ih => simp [unifyLineEnds, ih, hreturn, hfeed]
  | cons d rest hd ih =>
    rw [unifyLineEnds_cons hd, List.mem_cons, List.mem_cons, ih]
    split
    · rename_i hd
      simp [hd, hreturn, hfeed]
    · rfl

/-- Texts are unified apart unless that would tear a CR LF. -/
theorem unifyLineEnds_append (h : ¬ (w.getLast? = some '\r' ∧ text.head? = some '\n')) :
    unifyLineEnds (w ++ text) = unifyLineEnds w ++ unifyLineEnds text := by
  induction w using lineEnds_induction with
  | nil => rfl
  | pair rest ih =>
    have hrest : ¬ (rest.getLast? = some '\r' ∧ text.head? = some '\n') := by
      refine fun h' => h ⟨?_, h'.2⟩
      rw [List.getLast?_cons, List.getLast?_cons, h'.1]
      rfl
    rw [List.cons_append, List.cons_append, unifyLineEnds, ih hrest]
    rfl
  | cons d rest hd ih =>
    have hrest : ¬ (rest.getLast? = some '\r' ∧ text.head? = some '\n') := by
      refine fun h' => h ⟨?_, h'.2⟩
      rw [List.getLast?_cons, h'.1]
      rfl
    have hd' : ¬ (d = '\r' ∧ (rest ++ text).head? = some '\n') := by
      rintro ⟨rfl, hhead⟩
      cases rest with
      | nil => exact h ⟨rfl, hhead⟩
      | cons e more => exact hd ⟨rfl, hhead⟩
    rw [List.cons_append, unifyLineEnds_cons hd, unifyLineEnds_cons hd', ih hrest,
      List.cons_append]

/-- What stands in front of a unified text and has no break in it stands in
front of the text itself. -/
theorem prefix_of_prefix_unifyLineEnds (hw : '\n' ∉ w) (h : w <+: unifyLineEnds text) :
    w <+: text := by
  induction w generalizing text with
  | nil => exact List.nil_prefix
  | cons c w ih =>
    obtain ⟨hc, hw⟩ := List.ne_and_not_mem_of_not_mem_cons hw
    cases text with
    | nil => exact h
    | cons d text =>
      by_cases hd : d = '\r'
      · -- a break comes first in the unified text
        obtain ⟨s, hs⟩ := h
        have hhead := head?_unifyLineEnds (d :: text)
        rw [← hs, List.head?_cons, Option.map_some, if_pos hd] at hhead
        exact absurd (Option.some.inj hhead).symm hc
      · rw [unifyLineEnds_of_ne hd, List.cons_prefix_cons] at h
        rw [List.cons_prefix_cons]
        exact ⟨h.1, ih hw h.2⟩

end Characters

/-! ## Positions -/

namespace Position

variable {p : Position} {c : Char} {next next' : Option Char}

theorem after_of_ne (hc : c ≠ '\r') : p.after c next = p.after c next' := by
  simp [after, hc]

theorem after_return (hnext : next ≠ some '\n') : p.after '\r' next = p.after '\n' next' := by
  simp [after, hnext]

/-- Unifying does not change where characters end, unless a CR might belong
to what follows them. -/
theorem over_unifyLineEnds {w rest rest' : List Char} (hw : w.getLast? ≠ some '\r') :
    p.over (unifyLineEnds w) rest' = p.over w rest := by
  induction w using lineEnds_induction generalizing p with
  | nil => rfl
  | pair w ih =>
    have hlast : w.getLast? ≠ some '\r' := by
      intro h
      rw [List.getLast?_cons, List.getLast?_cons, h] at hw
      exact hw rfl
    have hpair : p.after '\r' (some '\n') = p := rfl
    rw [unifyLineEnds, Position.over, Position.over, Position.over, ih hlast, List.cons_append,
      List.head?_cons, hpair, after_of_ne (by decide)]
  | cons d w hd ih =>
    have hlast : w.getLast? ≠ some '\r' := by
      intro h
      rw [List.getLast?_cons, h] at hw
      exact hw rfl
    rw [unifyLineEnds_cons hd, Position.over, Position.over, ih hlast]
    by_cases hreturn : d = '\r'
    · subst hreturn
      obtain ⟨e, more, rfl⟩ : ∃ e more, w = e :: more :=
        List.exists_cons_of_ne_nil fun hnil => hw (by rw [hnil]; rfl)
      rw [if_pos rfl, ← after_return fun hnext => hd ⟨rfl, hnext⟩]
      rfl
    · rw [if_neg hreturn, after_of_ne hreturn]

end Position

/-! ## Lexemes -/

/-- Nothing in the characters is a gap or a quote. -/
def Solid (w : List Char) : Prop := ∀ c ∈ w, isGap c = false ∧ c ≠ '"'

theorem solid_of_isNameChar {w : List Char} (h : ∀ c ∈ w, isNameChar c) : Solid w := by
  intro c hc
  have hname := h c hc
  constructor
  · rw [Bool.eq_false_iff]
    intro hgap
    rw [(isGap_disjoint hgap).1] at hname
    cases hname
  · rintro rfl
    revert hname
    decide

theorem solid_append {w w' : List Char} (h : Solid w) (h' : Solid w') : Solid (w ++ w') :=
  List.forall_mem_append.mpr ⟨h, h'⟩

/-- A lexeme is a string, or it is solid and unifying does not change it. -/
theorem Denotes.string_or_solid {w : List Char} {l : Lexeme} (h : Denotes w l) :
    (∃ body, '"' ∉ body ∧ w = '"' :: (body ++ ['"']) ∧ l = .string (.ofList body)) ∨
      Solid w ∧ l.mapText Text.unified = l := by
  have hdigits : ∀ {cs : List Char}, (∀ c ∈ cs, isDigit c) → Solid cs := fun hcs =>
    solid_of_isNameChar fun c hc => by simp [isNameChar, hcs c hc]
  have hequals : isGap '=' = false ∧ '=' ≠ '"' := by decide
  cases h with
  | @mark c l hc =>
    have htest := Lexeme.test_of_ofChar? (p := fun m => !isGap m.1 && m.1 != '"') (by decide) hc
    have hsame : l.mapText Text.unified = l := by
      cases l with
      | string text => exact absurd rfl (Lexeme.kind_of_ofChar? hc).2.2
      | _ => rfl
    exact .inr ⟨List.forall_mem_singleton.mpr (by simpa using htest), hsame⟩
  | assign => exact .inr ⟨List.forall_mem_singleton.mpr hequals, rfl⟩
  | compare =>
    refine .inr ⟨?_, rfl⟩
    exact List.forall_mem_cons.mpr ⟨hequals, List.forall_mem_singleton.mpr hequals⟩
  | string hbody => exact .inl ⟨_, hbody, rfl, rfl⟩
  | identifier hc hcs =>
    refine .inr ⟨solid_of_isNameChar (List.forall_mem_cons.mpr ⟨?_, hcs⟩), rfl⟩
    simp [isNameChar, hc]
  | whole hc hds => exact .inr ⟨hdigits (List.forall_mem_cons.mpr ⟨hc, hds⟩), rfl⟩
  | @pointed c ds fs hc hds hfs =>
    refine .inr ⟨?_, rfl⟩
    have hpoint : Solid ['.'] := List.forall_mem_singleton.mpr (by decide)
    exact solid_append (hdigits (List.forall_mem_cons.mpr ⟨hc, hds⟩))
      (solid_append hpoint (hdigits hfs))

theorem Solid.not_mem_of_isGap {w : List Char} {c : Char} (h : Solid w) (hc : isGap c) :
    c ∉ w := by
  intro hmem
  rw [(h c hmem).1] at hc
  cases hc

/-- Characters that start otherwise than with a quote are no string. -/
theorem Denotes.solid {c : Char} {w : List Char} {l : Lexeme} (h : Denotes (c :: w) l)
    (hc : c ≠ '"') : Solid (c :: w) ∧ l.mapText Text.unified = l := by
  obtain ⟨body, _, hw, _⟩ | hsolid := h.string_or_solid
  · exact absurd (List.cons.inj hw).1 hc
  · exact hsolid

/-- A string in a text is one in the unified text, with its own text
unified; another lexeme is the same. -/
theorem Longest.unified {w text : List Char} {l : Lexeme} (h : Longest w l (w ++ text)) :
    Longest (unifyLineEnds w) (l.mapText Text.unified) (unifyLineEnds w ++ unifyLineEnds text) := by
  obtain ⟨body, hbody, rfl, rfl⟩ | ⟨hsolid, hl⟩ := h.1.string_or_solid
  · have hunified : unifyLineEnds ('"' :: (body ++ ['"'])) =
        '"' :: (unifyLineEnds body ++ ['"']) := by
      rw [unifyLineEnds_of_ne (by decide), unifyLineEnds_append (by simp)]
      rfl
    have hquote : '"' ∉ unifyLineEnds body := by
      rwa [mem_unifyLineEnds (by decide) (by decide)]
    have hlongest := longest_string hquote (unifyLineEnds text)
    rw [hunified, List.cons_append, List.append_assoc, Lexeme.mapText, Text.unified,
      String.toList_ofList]
    exact hlongest
  · obtain ⟨hw, _, hmax⟩ := h
    rw [unifyLineEnds_eq_self (hsolid.not_mem_of_isGap rfl), hl]
    refine ⟨hw, List.prefix_append _ _, fun w' l' hw' hpre => hmax w' l' hw' ?_⟩
    cases w with
    | nil => exact absurd hw (not_denotes_nil l)
    | cons c w =>
      cases w' with
      | nil => exact absurd hw' (not_denotes_nil l')
      | cons c' w' =>
        obtain rfl := (List.cons_prefix_cons.mp hpre).1
        have hsolid' := (hw'.solid (hsolid _ List.mem_cons_self).2).1
        refine prefix_of_prefix_unifyLineEnds (hsolid'.not_mem_of_isGap rfl) ?_
        rw [unifyLineEnds_append fun h => ?_, unifyLineEnds_eq_self (hsolid.not_mem_of_isGap rfl)]
        · exact hpre
        · exact hsolid.not_mem_of_isGap rfl (List.mem_of_getLast? h.1)

/-- A text that is stuck is so with its line ends unified, at the same
character. -/
theorem Stuck.unified {c : Char} {text : List Char} (h : Stuck (c :: text)) :
    unifyLineEnds (c :: text) = c :: unifyLineEnds text ∧ Stuck (c :: unifyLineEnds text) := by
  have hgap := h.1 c rfl
  have hreturn : c ≠ '\r' := by
    rintro rfl
    cases hgap
  refine ⟨unifyLineEnds_of_ne hreturn, fun d hd => ?_, fun w l hw hpre => ?_⟩
  · obtain rfl := Option.some.inj hd
    exact hgap
  cases w with
  | nil => exact not_denotes_nil l hw
  | cons d w =>
    by_cases hd : d = '"'
    · -- the closing quote stands in the text itself, too
      subst hd
      obtain ⟨rfl, hmore⟩ := List.cons_prefix_cons.mp hpre
      obtain ⟨body, _, rfl, _⟩ := (denotes_quote_iff w l).mp hw
      have hquote : '"' ∈ text := by
        rw [← mem_unifyLineEnds (by decide) (by decide)]
        exact hmore.mem (by simp)
      obtain ⟨body, after, rfl, hbody⟩ := List.eq_append_cons_of_mem hquote
      exact not_stuck_lexeme (longest_string hbody after) h
    · rw [← unifyLineEnds_of_ne hreturn] at hpre
      exact h.2 _ l hw
        (prefix_of_prefix_unifyLineEnds ((hw.solid hd).1.not_mem_of_isGap rfl) hpre)

/-! ## Cuts -/

/-- A lexeme does not end in a CR. -/
theorem Denotes.getLast?_ne {w : List Char} {l : Lexeme} (h : Denotes w l) :
    w.getLast? ≠ some '\r' := by
  obtain ⟨_, c, hc, hblank⟩ := h.edges
  intro hreturn
  obtain rfl := Option.some.inj (hc.symm.trans hreturn)
  cases hblank

/-- The unified text is cut where the text is. -/
theorem Cut.unified {p q : Position} {text rest : List Char} {ts : List Token}
    (h : Cut p text ts q rest) :
    Cut p (unifyLineEnds text) (ts.map (Token.mapText Text.unified)) q (unifyLineEnds rest) := by
  induction h with
  | nil => exact .nil
  | @gap p q c text rest ts hc _ ih =>
    by_cases hpair : c = '\r' ∧ text.head? = some '\n'
    · -- the pair is one break, and its LF is the next gap
      obtain ⟨rfl, hhead⟩ := hpair
      obtain ⟨more, rfl⟩ := List.head?_eq_some_iff.mp hhead
      exact ih
    · rw [unifyLineEnds_cons hpair]
      by_cases hreturn : c = '\r'
      · subst hreturn
        rw [if_pos rfl]
        refine .gap rfl ?_
        rw [← Position.after_return fun hhead => hpair ⟨rfl, hhead⟩]
        exact ih
      · rw [if_neg hreturn]
        refine .gap hc ?_
        rw [Position.after_of_ne hreturn]
        exact ih
  | @lexeme p q w text rest l ts hw _ ih =>
    have hlast := hw.1.getLast?_ne
    have hover := @Position.over_unifyLineEnds p w text (unifyLineEnds text) hlast
    rw [unifyLineEnds_append fun h => hlast h.1, List.map_cons]
    have hcut := Cut.lexeme hw.unified (hover.symm ▸ ih)
    rw [hover] at hcut
    exact hcut

/-! ## Whole texts -/

theorem dropLeadingBlanks_unifyLineEnds (text : List Char) :
    dropLeadingBlanks (unifyLineEnds text) = unifyLineEnds (dropLeadingBlanks text) := by
  unfold dropLeadingBlanks
  induction text using lineEnds_induction with
  | nil => rfl
  | pair rest ih => exact ih
  | cons c rest hc ih =>
    rw [unifyLineEnds_cons hc]
    by_cases hreturn : c = '\r'
    · subst hreturn
      exact ih
    · rw [if_neg hreturn]
      by_cases hblank : isBlank c
      · rw [List.dropWhile_cons_of_pos hblank, List.dropWhile_cons_of_pos hblank, ih]
      · rw [List.dropWhile_cons_of_neg hblank, List.dropWhile_cons_of_neg hblank,
          unifyLineEnds_of_ne hreturn]

theorem dropTrailingBlanks_unifyLineEnds (text : List Char) :
    dropTrailingBlanks (unifyLineEnds text) = unifyLineEnds (dropTrailingBlanks text) := by
  show (unifyLineEnds text).rdropWhile isBlank = unifyLineEnds (text.rdropWhile isBlank)
  induction text using List.reverseRecOn with
  | nil => rfl
  | append_singleton text c ih =>
    by_cases hpair : text.getLast? = some '\r' ∧ c = '\n'
    · obtain ⟨hlast, rfl⟩ := hpair
      obtain ⟨before, rfl⟩ := List.getLast?_eq_some_iff.mp hlast
      have hbefore : ∀ more, unifyLineEnds (before ++ '\r' :: more) =
          unifyLineEnds before ++ unifyLineEnds ('\r' :: more) := fun _ =>
        unifyLineEnds_append fun h => absurd (Option.some.inj h.2) (by decide)
      have hunified : unifyLineEnds (before ++ ['\r'] ++ ['\n']) =
          unifyLineEnds (before ++ ['\r']) := by
        rw [List.append_assoc, List.singleton_append, hbefore, hbefore]
        rfl
      rw [hunified, ih, List.rdropWhile_concat_pos _ _ '\n' (by decide)]
    · have hsplit : unifyLineEnds (text ++ [c]) = unifyLineEnds text ++ unifyLineEnds [c] :=
        unifyLineEnds_append fun h => hpair ⟨h.1, Option.some.inj h.2⟩
      by_cases hreturn : c = '\r'
      · subst hreturn
        rw [hsplit, List.rdropWhile_concat_pos _ _ '\r' (by decide), ← ih]
        exact List.rdropWhile_concat_pos _ _ '\n' (by decide)
      · have hone : unifyLineEnds [c] = [c] := unifyLineEnds_of_ne hreturn
        rw [hone] at hsplit
        by_cases hblank : isBlank c
        · rw [hsplit, List.rdropWhile_concat_pos _ _ _ hblank,
            List.rdropWhile_concat_pos _ _ _ hblank, ih]
        · rw [hsplit, List.rdropWhile_concat_neg _ _ _ hblank,
            List.rdropWhile_concat_neg _ _ _ hblank, hsplit]

theorem strip_unifyLineEnds (text : List Char) :
    strip (unifyLineEnds text) = unifyLineEnds (strip text) := by
  rw [strip, dropLeadingBlanks_unifyLineEnds, dropTrailingBlanks_unifyLineEnds, strip]

/-- Scanning a text with unified line ends gives the same tokens at the same
places, with the texts of strings unified, or the same failure. -/
theorem scan_unified (text : String) :
    scan (Text.unified text) = (scan text).map fun ts => ts.map (Token.mapText Text.unified) := by
  have hstrip : strip (Text.unified text).toList = unifyLineEnds (strip text.toList) := by
    rw [Text.unified, String.toList_ofList, strip_unifyLineEnds]
  obtain ⟨ts, hscan, q, hcut⟩ | ⟨p, c, hscan, ts, more, hcut, hstuck⟩ := scan_outcome text
  · have hunified := hcut.unified
    rw [← hstrip] at hunified
    rw [hscan, scan_of_cut hunified]
    rfl
  · obtain ⟨hrest, hstuck'⟩ := hstuck.unified
    have hunified := hcut.unified
    rw [← hstrip, hrest] at hunified
    rw [hscan, scan_of_stuck hunified hstuck']
    rfl

/-- No string has a CR in its text. -/
def KeepsLineEnds (ts : List Token) : Prop :=
  ∀ t ∈ ts, ∀ text, t.lexeme = .string text → '\r' ∉ text.toList

theorem KeepsLineEnds.map_mapText {ts : List Token} (h : KeepsLineEnds ts) :
    ts.map (Token.mapText Text.unified) = ts := by
  refine (List.map_congr_left fun t ht => ?_).trans (List.map_id ts)
  obtain ⟨l, span⟩ := t
  cases l with
  | string text =>
    have htext := unifyLineEnds_eq_self (h _ ht text rfl)
    simp only [Token.mapText, Lexeme.mapText, Text.unified, htext, String.ofList_toList]
    rfl
  | _ => rfl

end ShapeScript
