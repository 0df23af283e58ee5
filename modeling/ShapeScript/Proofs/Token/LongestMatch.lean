/-
ShapeScript.Proofs.Token.LongestMatch — cutting a text into lexemes.

`Denotes w l` says that the characters `w` are a way to write the lexeme
`l`, and `Longest` that nothing longer would do at the same place.
`Cut` cuts a text from its left end into gap characters and longest
lexemes. It consumes the text piece by piece, so no character is lost or
read twice, and it gives each token the span of its own characters.

`Stuck` is a text at whose start there is neither a gap nor a lexeme. A
cut that ends where nothing more can be cut is the only one that does:
`Cut.unique` follows from `Longest.unique`, and that from the lemmas that
say, by the first character, what can be written with it.
-/
import Mathlib.Data.List.TakeWhile
import ShapeScript.Token.Scanner

namespace ShapeScript

/-! ## Definitions -/

/-- The characters `w` are a way to write the lexeme. -/
inductive Denotes : List Char → Lexeme → Prop
  | mark {c : Char} {l : Lexeme} (hc : Lexeme.ofChar? c = some l) : Denotes [c] l
  | assign : Denotes ['='] .assign
  | compare : Denotes ['=', '='] .compare
  | string {body : List Char} (hbody : '"' ∉ body) :
      Denotes ('"' :: (body ++ ['"'])) (.string (String.ofList body))
  | identifier {c : Char} {cs : List Char} (hc : isLetter c) (hcs : ∀ x ∈ cs, isNameChar x) :
      Denotes (c :: cs) (.identifier (String.ofList (c :: cs)))
  | whole {c : Char} {ds : List Char} (hc : isDigit c) (hds : ∀ x ∈ ds, isDigit x) :
      Denotes (c :: ds) (.number (Number.ofDigits (c :: ds) []))
  | pointed {c : Char} {ds fs : List Char} (hc : isDigit c) (hds : ∀ x ∈ ds, isDigit x)
      (hfs : ∀ x ∈ fs, isDigit x) :
      Denotes (c :: (ds ++ '.' :: fs)) (.number (Number.ofDigits (c :: ds) fs))

/-- Of all that denotes a lexeme at the start of the text, `w` is the
longest, and it denotes `l`. -/
def Longest (w : List Char) (l : Lexeme) (text : List Char) : Prop :=
  Denotes w l ∧ w <+: text ∧ ∀ w' l', Denotes w' l' → w' <+: text → w'.length ≤ w.length

/-- The position after reading some characters, when `rest` follows them. -/
def Position.over (p : Position) : List Char → List Char → Position
  | [], _ => p
  | c :: cs, rest => (p.after c (cs ++ rest).head?).over cs rest

/-- `Cut p text ts q rest` holds when `text`, which starts at `p`, can be
cut into gaps and longest lexemes up to `rest`, which starts at `q`, and
the lexemes cut off are those of `ts`. -/
inductive Cut : Position → List Char → List Token → Position → List Char → Prop
  | nil {p : Position} {text : List Char} : Cut p text [] p text
  | gap {p q : Position} {c : Char} {text rest : List Char} {ts : List Token} (hc : isGap c)
      (hcut : Cut (p.after c text.head?) text ts q rest) : Cut p (c :: text) ts q rest
  | lexeme {p q : Position} {w text rest : List Char} {l : Lexeme} {ts : List Token}
      (hw : Longest w l (w ++ text)) (hcut : Cut (p.over w text) text ts q rest) :
      Cut p (w ++ text) (⟨l, ⟨p, p.over w text⟩⟩ :: ts) q rest

/-- Neither a gap nor a lexeme stands at the start of the text. -/
def Stuck (text : List Char) : Prop :=
  (∀ c, text.head? = some c → isGap c = false) ∧ ∀ w l, Denotes w l → ¬ w <+: text

/-- The fault of a text that is stuck at a character. A string is the only
lexeme whose first character does not suffice for one. -/
def stuckAt (c : Char) : LexFault :=
  if c = '"' then .unterminatedString else .unexpectedCharacter c

/-! ## First characters -/

/-- The lexemes of one character that need not be told from longer ones. -/
def Lexeme.marks : List (Char × Lexeme) :=
  [('(', .openParen), (')', .closeParen), ('{', .openBrace), ('}', .closeBrace), ('*', .times),
    ('/', .divide), ('+', .plus), ('-', .minus), (':', .colon), (',', .comma)]

theorem Lexeme.ofChar?_eq_some_iff {c : Char} {l : Lexeme} :
    Lexeme.ofChar? c = some l ↔ (c, l) ∈ marks := by
  constructor
  · intro h
    unfold Lexeme.ofChar? at h
    split at h <;> cases h <;> simp [marks]
  · intro h
    simp only [marks, List.mem_cons, List.not_mem_nil, or_false, Prod.mk.injEq] at h
    rcases h with ⟨rfl, rfl⟩ | ⟨rfl, rfl⟩ | ⟨rfl, rfl⟩ | ⟨rfl, rfl⟩ | ⟨rfl, rfl⟩ | ⟨rfl, rfl⟩ |
      ⟨rfl, rfl⟩ | ⟨rfl, rfl⟩ | ⟨rfl, rfl⟩ | ⟨rfl, rfl⟩ <;> rfl

/-- A test that all marks pass is passed by each. -/
theorem Lexeme.test_of_ofChar? {p : Char × Lexeme → Bool} (hall : marks.all p = true) {c : Char}
    {l : Lexeme} (h : Lexeme.ofChar? c = some l) : p (c, l) = true :=
  List.all_eq_true.mp hall (c, l) (ofChar?_eq_some_iff.mp h)

/-- A character of a class without marks is none. -/
theorem Lexeme.ofChar?_eq_none {p : Char → Bool} (hall : marks.all (!p ·.1) = true) {c : Char}
    (h : p c = true) : Lexeme.ofChar? c = none := by
  cases hmark : Lexeme.ofChar? c with
  | none => rfl
  | some l =>
    have hnot := test_of_ofChar? hall hmark
    simp [h] at hnot

theorem Lexeme.ofChar?_of_isLetter {c : Char} (h : isLetter c) : Lexeme.ofChar? c = none :=
  ofChar?_eq_none (by decide) h

theorem Lexeme.ofChar?_of_isDigit {c : Char} (h : isDigit c) : Lexeme.ofChar? c = none :=
  ofChar?_eq_none (by decide) h

theorem isLetter_of_isDigit {c : Char} (h : isDigit c) : isLetter c = false := by
  simp only [isDigit, Bool.and_eq_true, decide_eq_true_eq, Char.le_def, UInt32.le_iff_toNat_le] at h
  simp only [isLetter, Bool.or_eq_false_iff, Bool.and_eq_false_iff, decide_eq_false_iff_not,
    Char.le_def, UInt32.le_iff_toNat_le]
  have h9 : ('9' : Char).val.toNat = 57 := rfl
  have ha : ('a' : Char).val.toNat = 97 := rfl
  have hA : ('A' : Char).val.toNat = 65 := rfl
  omega

theorem isNameChar_of_isLetter {c : Char} (h : isLetter c) : isNameChar c := by
  simp [isNameChar, h]

/-- What starts a lexeme is no gap. -/
theorem isGap_of_denotes {c : Char} {w : List Char} {l : Lexeme} (h : Denotes (c :: w) l) :
    isGap c = false := by
  rw [Bool.eq_false_iff]
  intro hgap
  have hchars : c = ' ' ∨ c = '\t' ∨ c = '\n' ∨ c = '\r' := by
    simpa [isGap, or_assoc] using hgap
  cases h with
  | mark hc => obtain rfl | rfl | rfl | rfl := hchars <;> cases hc
  | assign => revert hgap; decide
  | compare => revert hgap; decide
  | string _ => revert hgap; decide
  | identifier hc _ => obtain rfl | rfl | rfl | rfl := hchars <;> revert hc <;> decide
  | whole hc _ => obtain rfl | rfl | rfl | rfl := hchars <;> revert hc <;> decide
  | pointed hc _ _ => obtain rfl | rfl | rfl | rfl := hchars <;> revert hc <;> decide

theorem not_denotes_nil (l : Lexeme) : ¬ Denotes [] l := by
  intro h
  cases h

/-! ## What can be written with a first character -/

theorem denotes_mark_iff {c : Char} {l : Lexeme} (hc : Lexeme.ofChar? c = some l)
    (w : List Char) (l' : Lexeme) : Denotes (c :: w) l' ↔ w = [] ∧ l' = l := by
  constructor
  · intro h
    cases h with
    | mark hc' => exact ⟨rfl, Option.some.inj (hc'.symm.trans hc)⟩
    | assign => cases hc
    | compare => cases hc
    | string _ => cases hc
    | identifier hletter _ => rw [Lexeme.ofChar?_of_isLetter hletter] at hc; cases hc
    | whole hdigit _ => rw [Lexeme.ofChar?_of_isDigit hdigit] at hc; cases hc
    | pointed hdigit _ _ => rw [Lexeme.ofChar?_of_isDigit hdigit] at hc; cases hc
  · intro h
    obtain ⟨rfl, rfl⟩ := h
    exact .mark hc

theorem denotes_equals_iff (w : List Char) (l : Lexeme) :
    Denotes ('=' :: w) l ↔ w = [] ∧ l = .assign ∨ w = ['='] ∧ l = .compare := by
  constructor
  · intro h
    cases h with
    | mark hc => cases hc
    | assign => exact .inl ⟨rfl, rfl⟩
    | compare => exact .inr ⟨rfl, rfl⟩
    | identifier hc _ => exact absurd hc (by decide)
    | whole hc _ => exact absurd hc (by decide)
    | pointed hc _ _ => exact absurd hc (by decide)
  · intro h
    obtain ⟨rfl, rfl⟩ | ⟨rfl, rfl⟩ := h
    · exact .assign
    · exact .compare

theorem denotes_quote_iff (w : List Char) (l : Lexeme) :
    Denotes ('"' :: w) l ↔
      ∃ body, '"' ∉ body ∧ w = body ++ ['"'] ∧ l = .string (String.ofList body) := by
  constructor
  · intro h
    cases h with
    | mark hc => cases hc
    | string hbody => exact ⟨_, hbody, rfl, rfl⟩
    | identifier hc _ => exact absurd hc (by decide)
    | whole hc _ => exact absurd hc (by decide)
    | pointed hc _ _ => exact absurd hc (by decide)
  · intro h
    obtain ⟨body, hbody, rfl, rfl⟩ := h
    exact .string hbody

theorem denotes_letter_iff {c : Char} (hc : isLetter c) (w : List Char) (l : Lexeme) :
    Denotes (c :: w) l ↔
      (∀ x ∈ w, isNameChar x) ∧ l = .identifier (String.ofList (c :: w)) := by
  constructor
  · intro h
    cases h with
    | mark hmark => rw [Lexeme.ofChar?_of_isLetter hc] at hmark; cases hmark
    | assign => exact absurd hc (by decide)
    | compare => exact absurd hc (by decide)
    | string _ => exact absurd hc (by decide)
    | identifier _ hcs => exact ⟨hcs, rfl⟩
    | whole hdigit _ => rw [isLetter_of_isDigit hdigit] at hc; cases hc
    | pointed hdigit _ _ => rw [isLetter_of_isDigit hdigit] at hc; cases hc
  · intro h
    obtain ⟨hw, rfl⟩ := h
    exact .identifier hc hw

theorem denotes_digit_iff {c : Char} (hc : isDigit c) (w : List Char) (l : Lexeme) :
    Denotes (c :: w) l ↔
      ((∀ x ∈ w, isDigit x) ∧ l = .number (Number.ofDigits (c :: w) [])) ∨
      ∃ ds fs, (∀ x ∈ ds, isDigit x) ∧ (∀ x ∈ fs, isDigit x) ∧ w = ds ++ '.' :: fs ∧
        l = .number (Number.ofDigits (c :: ds) fs) := by
  constructor
  · intro h
    cases h with
    | mark hmark => rw [Lexeme.ofChar?_of_isDigit hc] at hmark; cases hmark
    | assign => exact absurd hc (by decide)
    | compare => exact absurd hc (by decide)
    | string _ => exact absurd hc (by decide)
    | identifier hletter _ => rw [isLetter_of_isDigit hc] at hletter; cases hletter
    | whole _ hds => exact .inl ⟨hds, rfl⟩
    | pointed _ hds hfs => exact .inr ⟨_, _, hds, hfs, rfl, rfl⟩
  · intro h
    obtain ⟨hw, rfl⟩ | ⟨ds, fs, hds, hfs, rfl, rfl⟩ := h
    · exact .whole hc hw
    · exact .pointed hc hds hfs

/-- A character that is none of the first characters starts nothing. -/
theorem not_denotes_other {c : Char} (hmark : Lexeme.ofChar? c = none) (hequals : c ≠ '=')
    (hquote : c ≠ '"') (hletter : isLetter c = false) (hdigit : isDigit c = false)
    (w : List Char) (l : Lexeme) : ¬ Denotes (c :: w) l := by
  intro h
  cases h with
  | mark hc => rw [hmark] at hc; cases hc
  | assign => exact hequals rfl
  | compare => exact hequals rfl
  | string _ => exact hquote rfl
  | identifier hc _ => rw [hletter] at hc; cases hc
  | whole hc _ => rw [hdigit] at hc; cases hc
  | pointed hc _ _ => rw [hdigit] at hc; cases hc

/-- A mark has no text of its own. -/
theorem Lexeme.kind_of_ofChar? {c : Char} {l : Lexeme} (h : Lexeme.ofChar? c = some l) :
    l.kind ≠ .number ∧ l.kind ≠ .identifier ∧ l.kind ≠ .string := by
  have htest := test_of_ofChar? (p := fun m => m.2.kind != .number && m.2.kind != .identifier &&
    m.2.kind != .string) (by decide) h
  simpa [and_assoc] using htest

/-- A name is written as it is, with a letter first. -/
theorem denotes_identifier {w : List Char} {name : String} (h : Denotes w (.identifier name)) :
    w = name.toList ∧ (∃ y ∈ w.head?, isLetter y) ∧ ∀ x ∈ w, isNameChar x := by
  cases h with
  | mark hmark => exact absurd rfl (Lexeme.kind_of_ofChar? hmark).2.1
  | identifier hc hcs =>
    refine ⟨String.toList_ofList.symm, ⟨_, rfl, hc⟩, ?_⟩
    exact List.forall_mem_cons.mpr ⟨isNameChar_of_isLetter hc, hcs⟩

/-- A string is written as it is, in quotes. -/
theorem denotes_string {w : List Char} {text : String} (h : Denotes w (.string text)) :
    w = '"' :: (text.toList ++ ['"']) ∧ '"' ∉ text.toList := by
  cases h with
  | mark hmark => exact absurd rfl (Lexeme.kind_of_ofChar? hmark).2.2
  | string hbody =>
    rw [String.toList_ofList]
    exact ⟨rfl, hbody⟩

/-! ## The longest lexeme -/

/-- A run of characters of a class ends before a text that none of them
starts. -/
theorem takeWhile_append_of_head {p : Char → Bool} {w s : List Char} (hw : ∀ x ∈ w, p x)
    (hs : ∀ c ∈ s.head?, p c = false) : (w ++ s).takeWhile p = w := by
  have hstop : s.takeWhile p = [] := by
    cases s with
    | nil => rfl
    | cons c s => exact List.takeWhile_cons_of_neg (by simp [hs c rfl])
  rw [List.takeWhile_append_of_pos hw, hstop, List.append_nil]

theorem dropWhile_append_of_head {p : Char → Bool} {w s : List Char} (hw : ∀ x ∈ w, p x)
    (hs : ∀ c ∈ s.head?, p c = false) : (w ++ s).dropWhile p = s := by
  rw [List.dropWhile_append_of_pos hw]
  cases s with
  | nil => rfl
  | cons c s => exact List.dropWhile_cons_of_neg (by simp [hs c rfl])

/-- What stands before the first character outside a class. -/
theorem takeWhile_append_cons {p : Char → Bool} {w s : List Char} {c : Char}
    (hw : ∀ x ∈ w, p x) (hc : p c = false) : (w ++ c :: s).takeWhile p = w :=
  takeWhile_append_of_head hw fun _ hx => Option.some.inj hx ▸ hc

/-- What stands from the first character outside a class on. -/
theorem dropWhile_append_cons {p : Char → Bool} {w s : List Char} {c : Char}
    (hw : ∀ x ∈ w, p x) (hc : p c = false) : (w ++ c :: s).dropWhile p = c :: s :=
  dropWhile_append_of_head hw fun _ hx => Option.some.inj hx ▸ hc

/-- Where a character does not occur there are only others. -/
theorem bne_of_not_mem {w : List Char} {c : Char} (hc : c ∉ w) : ∀ x ∈ w, (x != c) = true :=
  fun _ hx => bne_iff_ne.mpr (ne_of_mem_of_not_mem hx hc)

/-- No run of characters of a class is longer than the one `takeWhile`
gives. -/
theorem length_le_takeWhile {p : Char → Bool} {w text : List Char} (hpre : w <+: text)
    (hw : ∀ x ∈ w, p x) : w.length ≤ (text.takeWhile p).length := by
  obtain ⟨s, rfl⟩ := hpre
  rw [List.takeWhile_append_of_pos hw, List.length_append]
  exact Nat.le_add_right _ _

/-- What a list of characters denotes is one lexeme. -/
theorem Denotes.unique {w : List Char} {l l' : Lexeme} (h : Denotes w l) (h' : Denotes w l') :
    l = l' := by
  cases h with
  | mark hc => exact ((denotes_mark_iff hc _ _).mp h').2.symm
  | assign =>
    obtain ⟨_, rfl⟩ | ⟨hw, _⟩ := (denotes_equals_iff _ _).mp h'
    · rfl
    · cases hw
  | compare =>
    obtain ⟨hw, _⟩ | ⟨_, rfl⟩ := (denotes_equals_iff _ _).mp h'
    · cases hw
    · rfl
  | string _ =>
    obtain ⟨body, _, hbody, rfl⟩ := (denotes_quote_iff _ _).mp h'
    rw [List.append_cancel_right hbody]
  | identifier hc _ => exact ((denotes_letter_iff hc _ _).mp h').2.symm
  | whole hc hds =>
    obtain ⟨_, rfl⟩ | ⟨ds, fs, _, _, rfl, _⟩ := (denotes_digit_iff hc _ _).mp h'
    · rfl
    · exact absurd (hds '.' (by simp)) (by decide)
  | pointed hc hds _ =>
    obtain ⟨hw, _⟩ | ⟨ds, fs, hds', _, hw, rfl⟩ := (denotes_digit_iff hc _ _).mp h'
    · exact absurd (hw '.' (by simp)) (by decide)
    · have htake := congrArg (List.takeWhile isDigit) hw
      rw [takeWhile_append_cons hds rfl, takeWhile_append_cons hds' rfl] at htake
      subst htake
      obtain rfl := List.cons_inj_right _ |>.mp (List.append_cancel_left hw)
      rfl

/-- At one place there is one longest lexeme. -/
theorem Longest.unique {w w' : List Char} {l l' : Lexeme} {text : List Char}
    (h : Longest w l text) (h' : Longest w' l' text) : w = w' ∧ l = l' := by
  obtain ⟨hw, hpre, hmax⟩ := h
  obtain ⟨hw', hpre', hmax'⟩ := h'
  have hlength : w.length = w'.length :=
    Nat.le_antisymm (hmax' w l hw hpre) (hmax w' l' hw' hpre')
  obtain rfl : w = w' := (List.prefix_of_prefix_length_le hpre hpre' hlength.le).eq_of_length hlength
  exact ⟨rfl, hw.unique hw'⟩

/-- A lexeme is the longest if no other with its first character is
longer. -/
theorem longest_cons {c : Char} {w text : List Char} {l : Lexeme} (hw : Denotes (c :: w) l)
    (hpre : w <+: text)
    (hmax : ∀ w' l', Denotes (c :: w') l' → w' <+: text → w'.length ≤ w.length) :
    Longest (c :: w) l (c :: text) := by
  refine ⟨hw, (List.cons_prefix_cons.mpr ⟨rfl, hpre⟩), ?_⟩
  intro w' l' hw' hpre'
  cases w' with
  | nil => exact absurd hw' (not_denotes_nil l')
  | cons c' w' =>
    obtain ⟨rfl, htail⟩ := List.cons_prefix_cons.mp hpre'
    exact Nat.succ_le_succ (hmax w' l' hw' htail)

/-- Nothing is denoted at a place if nothing is with its first
character. -/
theorem not_prefix_cons {c : Char} {text : List Char}
    (h : ∀ w l, Denotes (c :: w) l → ¬ w <+: text) (w : List Char) (l : Lexeme)
    (hw : Denotes w l) : ¬ w <+: c :: text := by
  intro hpre
  cases w with
  | nil => exact not_denotes_nil l hw
  | cons c' w =>
    obtain ⟨rfl, htail⟩ := List.cons_prefix_cons.mp hpre
    exact h w l hw htail

theorem longest_mark {c : Char} {l : Lexeme} (hc : Lexeme.ofChar? c = some l)
    (text : List Char) : Longest [c] l (c :: text) := by
  refine longest_cons (.mark hc) (List.nil_prefix) ?_
  intro w' l' hw' _
  obtain ⟨rfl, _⟩ := (denotes_mark_iff hc w' l').mp hw'
  exact Nat.le_refl _

theorem longest_compare (text : List Char) :
    Longest ['=', '='] .compare ('=' :: '=' :: text) := by
  refine longest_cons .compare (List.cons_prefix_cons.mpr ⟨rfl, List.nil_prefix⟩) ?_
  intro w' l' hw' _
  obtain ⟨rfl, _⟩ | ⟨rfl, _⟩ := (denotes_equals_iff w' l').mp hw'
  · exact Nat.zero_le _
  · exact Nat.le_refl _

theorem longest_assign {text : List Char} (htext : text.head? ≠ some '=') :
    Longest ['='] .assign ('=' :: text) := by
  refine longest_cons .assign List.nil_prefix ?_
  intro w' l' hw' hpre
  obtain ⟨rfl, _⟩ | ⟨rfl, _⟩ := (denotes_equals_iff w' l').mp hw'
  · exact Nat.le_refl _
  · obtain ⟨s, rfl⟩ := hpre
    exact absurd rfl htext

theorem longest_string {body : List Char} (hbody : '"' ∉ body) (text : List Char) :
    Longest ('"' :: (body ++ ['"'])) (.string (String.ofList body))
      ('"' :: (body ++ '"' :: text)) := by
  refine longest_cons (.string hbody) ⟨text, by simp⟩ ?_
  intro w' l' hw' hpre
  obtain ⟨body', hbody', rfl, _⟩ := (denotes_quote_iff w' l').mp hw'
  obtain ⟨s, hs⟩ := hpre
  rw [List.append_assoc, List.singleton_append] at hs
  have htake := congrArg (List.takeWhile (· != '"')) hs
  rw [takeWhile_append_cons (bne_of_not_mem hbody') rfl,
    takeWhile_append_cons (bne_of_not_mem hbody) rfl] at htake
  rw [htake]

/-- An opening quote that no quote follows starts nothing. -/
theorem not_prefix_quote {text : List Char} (htext : '"' ∉ text) (w : List Char) (l : Lexeme)
    (hw : Denotes w l) : ¬ w <+: '"' :: text := by
  refine not_prefix_cons ?_ w l hw
  intro w' l' hw' hpre
  obtain ⟨body, _, rfl, _⟩ := (denotes_quote_iff w' l').mp hw'
  exact htext (hpre.mem (by simp))

theorem longest_identifier {c : Char} (hc : isLetter c) (text : List Char) :
    Longest (c :: text.takeWhile isNameChar)
      (.identifier (String.ofList (c :: text.takeWhile isNameChar))) (c :: text) := by
  refine longest_cons (.identifier hc fun x hx => List.mem_takeWhile_imp hx)
    (List.takeWhile_prefix _) ?_
  intro w' l' hw' hpre
  obtain ⟨hchars, _⟩ := (denotes_letter_iff hc w' l').mp hw'
  exact length_le_takeWhile hpre hchars

theorem longest_whole {c : Char} {text : List Char} (hc : isDigit c)
    (hpoint : ∀ more, text.dropWhile isDigit ≠ '.' :: more) :
    Longest (c :: text.takeWhile isDigit)
      (.number (Number.ofDigits (c :: text.takeWhile isDigit) [])) (c :: text) := by
  refine longest_cons (.whole hc fun x hx => List.mem_takeWhile_imp hx)
    (List.takeWhile_prefix _) ?_
  intro w' l' hw' hpre
  obtain ⟨hdigits, _⟩ | ⟨ds, fs, hds, _, rfl, _⟩ := (denotes_digit_iff hc w' l').mp hw'
  · exact length_le_takeWhile hpre hdigits
  · obtain ⟨s, rfl⟩ := hpre
    rw [List.append_assoc, List.cons_append] at hpoint
    exact absurd (dropWhile_append_cons hds rfl) (hpoint (fs ++ s))

theorem longest_pointed {c : Char} {text more : List Char} (hc : isDigit c)
    (hpoint : text.dropWhile isDigit = '.' :: more) :
    Longest (c :: (text.takeWhile isDigit ++ '.' :: more.takeWhile isDigit))
      (.number (Number.ofDigits (c :: text.takeWhile isDigit) (more.takeWhile isDigit)))
      (c :: text) := by
  refine longest_cons (.pointed hc (fun x hx => List.mem_takeWhile_imp hx)
    fun x hx => List.mem_takeWhile_imp hx) ?_ ?_
  · refine ⟨more.dropWhile isDigit, ?_⟩
    rw [List.append_assoc, List.cons_append, List.takeWhile_append_dropWhile, ← hpoint,
      List.takeWhile_append_dropWhile]
  · intro w' l' hw' hpre
    obtain ⟨hdigits, _⟩ | ⟨ds, fs, hds, hfs, rfl, _⟩ := (denotes_digit_iff hc w' l').mp hw'
    · have hle := length_le_takeWhile hpre hdigits
      rw [List.length_append]
      omega
    · obtain ⟨s, rfl⟩ := hpre
      rw [List.append_assoc, List.cons_append] at hpoint ⊢
      rw [dropWhile_append_cons hds rfl] at hpoint
      obtain rfl : fs ++ s = more := List.tail_eq_of_cons_eq hpoint
      have hle := length_le_takeWhile (List.prefix_append fs s) hfs
      rw [takeWhile_append_cons hds rfl]
      simp only [List.length_append, List.length_cons]
      omega

/-- No lexeme stands where a gap does. -/
theorem Longest.isGap_eq_false {w text : List Char} {l : Lexeme} {c : Char}
    (h : Longest w l (c :: text)) : isGap c = false := by
  obtain ⟨hw, hpre, _⟩ := h
  cases w with
  | nil => exact absurd hw (not_denotes_nil l)
  | cons c' w =>
    obtain ⟨rfl, _⟩ := List.cons_prefix_cons.mp hpre
    exact isGap_of_denotes hw

/-- A name ends where no character of a name follows. -/
theorem Longest.head_not_isNameChar {w rest : List Char} {name : String}
    (h : Longest w (.identifier name) (w ++ rest)) : ∀ y ∈ rest.head?, isNameChar y = false := by
  intro y hy
  rw [Bool.eq_false_iff]
  intro hname
  obtain ⟨more, rfl⟩ : ∃ more, rest = y :: more := List.head?_eq_some_iff.mp hy
  obtain ⟨hw, -, hmax⟩ := h
  cases hw with
  | mark hmark => exact absurd rfl (Lexeme.kind_of_ofChar? hmark).2.1
  | @identifier c cs hc hcs =>
    have hlonger : Denotes (c :: (cs ++ [y])) (.identifier (String.ofList (c :: (cs ++ [y])))) :=
      .identifier hc (List.forall_mem_append.mpr ⟨hcs, List.forall_mem_singleton.mpr hname⟩)
    have hle := hmax _ _ hlonger ⟨more, by simp⟩
    simp only [List.length_cons, List.length_append, List.length_nil] at hle
    omega

/-! ## Cuts -/

theorem stuck_nil : Stuck [] := by
  constructor
  · intro c hc
    cases hc
  · intro w l hw hpre
    rw [List.prefix_nil.mp hpre] at hw
    exact not_denotes_nil l hw

theorem not_stuck_gap {c : Char} {text : List Char} (hc : isGap c) : ¬ Stuck (c :: text) := by
  intro h
  rw [h.1 c rfl] at hc
  cases hc

theorem not_stuck_lexeme {w text : List Char} {l : Lexeme} (hw : Longest w l text) :
    ¬ Stuck text :=
  fun h => h.2 w l hw.1 hw.2.1

/-- A cut of a text that starts with a gap starts with that gap. -/
theorem Cut.after_gap {p q : Position} {c : Char} {text rest : List Char} {ts : List Token}
    (hc : isGap c) (h : Cut p (c :: text) ts q rest) (hrest : Stuck rest) :
    Cut (p.after c text.head?) text ts q rest := by
  generalize htext : c :: text = whole at h
  cases h with
  | nil =>
    subst htext
    exact absurd hrest (not_stuck_gap hc)
  | gap _ hcut =>
    obtain ⟨rfl, rfl⟩ := List.cons.inj htext
    exact hcut
  | lexeme hw _ =>
    rw [← htext] at hw
    rw [hw.isGap_eq_false] at hc
    cases hc

/-- A cut of a text that starts with a lexeme starts with that lexeme. -/
theorem Cut.after_lexeme {p q : Position} {w text rest : List Char} {l : Lexeme} {ts : List Token}
    (hw : Longest w l (w ++ text)) (h : Cut p (w ++ text) ts q rest) (hrest : Stuck rest) :
    ∃ more, ts = ⟨l, ⟨p, p.over w text⟩⟩ :: more ∧ Cut (p.over w text) text more q rest := by
  generalize htext : w ++ text = whole at h
  cases h with
  | nil =>
    subst htext
    exact absurd hrest (not_stuck_lexeme hw)
  | gap hc _ =>
    rw [htext] at hw
    rw [hw.isGap_eq_false] at hc
    cases hc
  | lexeme hw' hcut =>
    obtain ⟨rfl, rfl⟩ := (htext ▸ hw).unique hw'
    obtain rfl := List.append_cancel_left htext
    exact ⟨_, rfl, hcut⟩

/-- A text can be cut as far as possible in one way. -/
theorem Cut.unique {p q q' : Position} {text rest rest' : List Char} {ts ts' : List Token}
    (h : Cut p text ts q rest) (hrest : Stuck rest) (h' : Cut p text ts' q' rest')
    (hrest' : Stuck rest') : ts = ts' ∧ q = q' ∧ rest = rest' := by
  induction h generalizing ts' with
  | nil =>
    cases h' with
    | nil => exact ⟨rfl, rfl, rfl⟩
    | gap hc _ => exact absurd hrest (not_stuck_gap hc)
    | lexeme hw _ => exact absurd hrest (not_stuck_lexeme hw)
  | gap hc _ ih => exact ih hrest (h'.after_gap hc hrest')
  | lexeme hw _ ih =>
    obtain ⟨more, rfl, hcut⟩ := h'.after_lexeme hw hrest'
    obtain ⟨rfl, rfl, rfl⟩ := ih hrest hcut
    exact ⟨rfl, rfl, rfl⟩

end ShapeScript
