/-
ShapeScript.Proofs.Editor.Word — the word under a cursor is the name that
stands there.

The editor knows nothing of lexemes: a word is a run of alphanumeric
characters, of any script. The scanner's names are runs of a few of them.
In a document that is a program the two agree wherever a name stands, for
two reasons. What may follow a name is a gap or starts a lexeme, and none
of those is alphanumeric unless it belongs to the name. What may come
before it is no name, since that would have been read on, and no number,
since the grammar has none there (`apart_lexemes`).

`Cursor.Ready` holds of every cursor on the way through such a document:
a letter is next only if no alphanumeric character was just read. One
step keeps it (`Ready.next`), and so every name that is read is set apart
(`setApart_of_readsAt`).
-/
import ShapeScript.Proofs.Document
import ShapeScript.Proofs.Editor.Lines
import ShapeScript.Proofs.Library.Builtin
import ShapeScript.Proofs.Program.Neighbours
import ShapeScript.Proofs.Program.Recognition
import ShapeScript.Proofs.Token.Spans

namespace ShapeScript

/-! ## Where a token stands -/

/-- Reading on from a cursor gives the token at some time, read from one
index to another. -/
inductive Cursor.ReadsAt : Cursor → Token → Nat → Nat → Prop
  | here {c d : Cursor} {t : Token} (h : c.next = (.ok (some t), d)) :
      ReadsAt c t c.skipGap.index d.index
  | later {c d : Cursor} {t u : Token} {i j : Nat} (h : c.next = (.ok (some u), d))
      (hlater : ReadsAt d t i j) : ReadsAt c t i j

/-- The token is read from the characters of the document between two
indices. The blanks in front are not the scanner's, but they count. -/
def Occupies (document : String) (t : Token) (a b : Nat) : Prop :=
  ∃ i j, (Cursor.start document).ReadsAt t i j ∧
    a = (document.toList.takeWhile Text.isBlank).length + i ∧
    b = (document.toList.takeWhile Text.isBlank).length + j

/-! ## The characters of lexemes -/

theorem isAlphanumeric_of_isNameChar {c : Char} (h : isNameChar c) : Text.isAlphanumeric c := by
  have hrange : ∀ {r : Nat × Nat}, r ∈ Text.alphanumericRanges →
      r.1 ≤ c.toNat ∧ c.toNat ≤ r.2 → Text.isAlphanumeric c := fun hr hc =>
    List.any_eq_true.mpr ⟨_, hr, by simpa using hc⟩
  simp only [isNameChar, isLetter, isDigit, Bool.or_eq_true, Bool.and_eq_true,
    decide_eq_true_eq, Char.le_def, UInt32.le_iff_toNat_le] at h
  obtain (h | h) | h := h
  · exact hrange (r := (0x61, 0x7A)) (List.mem_of_getElem? (i := 2) rfl) h
  · exact hrange (r := (0x41, 0x5A)) (List.mem_of_getElem? (i := 1) rfl) h
  · exact hrange (r := (0x30, 0x39)) (List.mem_of_getElem? (i := 0) rfl) h

theorem isAlphanumeric_of_mark {c : Char} {l : Lexeme} (h : Lexeme.ofChar? c = some l) :
    Text.isAlphanumeric c = false := by
  have htest := Lexeme.test_of_ofChar? (p := fun m => !Text.isAlphanumeric m.1)
    (by decide +kernel) h
  simpa using htest

/-- A lexeme starts with a character of a name or with one that is not
alphanumeric. -/
theorem isAlphanumeric_of_denotes {c : Char} {w : List Char} {l : Lexeme} (h : Denotes (c :: w) l)
    (hc : isNameChar c = false) : Text.isAlphanumeric c = false := by
  cases h with
  | mark hmark => exact isAlphanumeric_of_mark hmark
  | assign => decide +kernel
  | compare => decide +kernel
  | string _ => decide +kernel
  | identifier hletter _ => simp [isNameChar, hletter] at hc
  | whole hdigit _ => simp [isNameChar, hdigit] at hc
  | pointed hdigit _ _ => simp [isNameChar, hdigit] at hc

/-- Only numbers and names end with an alphanumeric character. -/
theorem isAlphanumeric_getLast? {w : List Char} {l : Lexeme} (h : Denotes w l)
    (hnumber : l.kind ≠ .number) (hname : l.kind ≠ .identifier) :
    ∀ x ∈ w.getLast?, Text.isAlphanumeric x = false := by
  intro x hx
  cases h with
  | mark hmark =>
    obtain rfl := Option.some.inj hx
    exact isAlphanumeric_of_mark hmark
  | assign =>
    obtain rfl := Option.some.inj hx
    decide +kernel
  | compare =>
    obtain rfl := Option.some.inj hx
    decide +kernel
  | string _ =>
    rw [← List.cons_append, List.getLast?_concat] at hx
    obtain rfl := Option.some.inj hx
    decide +kernel
  | identifier _ _ => exact absurd rfl hname
  | whole _ _ => exact absurd rfl hnumber
  | pointed _ _ _ => exact absurd rfl hnumber

theorem isAlphanumeric_of_isGap {c : Char} (h : isGap c) : Text.isAlphanumeric c = false :=
  Text.isAlphanumeric_of_isBlank (isBlank_of_isGap h)

/-! ## Reading a token -/

namespace Cursor

variable {text : List Char} {c d : Cursor} {t : Token} {ts : List Token}

theorem longest_of_next (h : c.next = (.ok (some t), d)) :
    ∃ w, c.skipGap.Moves w d ∧ Longest w t.lexeme (w ++ d.rest) := by
  unfold next at h
  cases hrest : c.skipGap.rest with
  | nil =>
    have hpeek : c.skipGap.peek = none := by rw [peek, hrest]; rfl
    simp [hpeek] at h
  | cons x more =>
    have hpeek : c.skipGap.peek = some x := by rw [peek, hrest]; rfl
    have hout := tokenAt_outcome hrest
    simp only [hpeek] at h
    generalize c.skipGap.tokenAt x = read at hout h
    cases hout with
    | stuck _ _ => simp at h
    | @token w l _ hmoves hw =>
      obtain ⟨ht, rfl⟩ := Prod.mk.inj h
      obtain rfl := Option.some.inj (Except.ok.inj ht)
      exact ⟨w, hmoves, hmoves.rest_eq ▸ hw⟩

/-- What is read is written by characters of the text. -/
theorem ReadsAt.denotes {i j : Nat} (h : c.ReadsAt t i j) : ∃ w, Denotes w t.lexeme := by
  induction h with
  | here hnext =>
    obtain ⟨w, -, hlongest⟩ := longest_of_next hnext
    exact ⟨w, hlongest.1⟩
  | later _ _ ih => exact ih

/-- What was read before is what was read before and the characters passed
since. -/
theorem On.take_of_moves {w : List Char} (hc : c.On text) (hd : d.On text) (h : c.Moves w d) :
    text.take d.index = text.take c.index ++ w := by
  have hsplit : text.take d.index ++ d.rest = (text.take c.index ++ w) ++ d.rest := by
    rw [List.append_assoc, ← h.rest_eq, hc.rest_eq, hd.rest_eq, List.take_append_drop,
      List.take_append_drop]
  exact List.append_cancel_right hsplit

theorem on_skipGap (h : c.On text) : c.skipGap.On text := h.forwardBy _

theorem on_next (h : c.On text) (hnext : c.next = (.ok (some t), d)) : d.On text := by
  have hpasses := c.passes_next
  rw [hnext] at hpasses
  exact h.of_passes hpasses

theorem tokens_of_next (h : c.next = (.ok (some t), d)) (htokens : c.tokens.1 = .ok ts) :
    ∃ more, ts = t :: more ∧ d.tokens.1 = .ok more := by
  rw [tokens_of_some h] at htokens
  obtain ⟨more, hmore, rfl⟩ := map_eq_ok.mp htokens
  exact ⟨more, rfl, hmore⟩

/-- What can be read to the end starts with a gap or with its first
token. -/
theorem starts_of_tokens (htokens : c.tokens.1 = .ok ts) {y : Char} (hy : y ∈ c.rest.head?) :
    isGap y ∨ ∃ w t more, ts = t :: more ∧ Denotes (y :: w) t.lexeme := by
  obtain ⟨rest, hrest⟩ := List.head?_eq_some_iff.mp hy
  obtain ⟨ts', hts', q, hcut⟩ | ⟨p, x, hfail, _⟩ := c.tokens_outcome
  · obtain rfl := Except.ok.inj (htokens.symm.trans hts')
    rw [hrest] at hcut
    generalize htext : y :: rest = whole at hcut
    cases hcut with
    | nil => cases htext
    | gap hgap _ =>
      obtain ⟨rfl, -⟩ := List.cons.inj htext
      exact .inl hgap
    | @lexeme _ _ w _ _ l more hw _ =>
      cases w with
      | nil => exact absurd hw.1 (not_denotes_nil l)
      | cons x w =>
        obtain ⟨rfl, -⟩ := List.cons.inj htext
        exact .inr ⟨w, _, more, rfl, hw.1⟩
  · rw [hfail] at htokens
    cases htokens

theorem tokens_of_rest_eq_nil (hrest : c.rest = []) (htokens : c.tokens.1 = .ok ts) : ts = [] := by
  obtain ⟨ts', hts', q, hcut⟩ | ⟨p, x, hfail, _⟩ := c.tokens_outcome
  · obtain rfl := Except.ok.inj (htokens.symm.trans hts')
    rw [hrest] at hcut
    exact (hcut.unique stuck_nil .nil stuck_nil).1
  · rw [hfail] at htokens
    cases htokens

/-- The cursor stands in the text where a program's lexemes `ts` are to be
read, and if a letter is next no alphanumeric character was just read. -/
structure Ready (text : List Char) (ts : List Token) (c : Cursor) : Prop where
  on : c.On text
  tokens : c.tokens.1 = .ok ts
  apart : Apart (ts.map Token.lexeme)
  last : ∀ l ∈ (ts.map Token.lexeme).getLast?, l = .closeBrace
  clear : ∀ y ∈ c.rest.head?, isLetter y →
    ∀ x ∈ (text.take c.index).getLast?, Text.isAlphanumeric x = false

/-- Reading a token keeps a cursor ready. A letter behind the token starts
a name, so the token is no number, and it is no name or it would have been
longer. -/
theorem Ready.next (h : c.Ready text ts) (hnext : c.next = (.ok (some t), d)) :
    ∃ more, ts = t :: more ∧ d.Ready text more := by
  obtain ⟨more, rfl, hmore⟩ := tokens_of_next hnext h.tokens
  obtain ⟨w, hmoves, hlongest⟩ := longest_of_next hnext
  refine ⟨more, rfl, on_next h.on hnext, hmore, h.apart.tail, fun l hl => ?_, ?_⟩
  · exact h.last l (@List.mem_getLast?_append_of_mem_getLast? _ [t.lexeme] _ _ hl)
  intro y hy hletter x hx
  rw [On.take_of_moves (on_skipGap h.on) (on_next h.on hnext) hmoves] at hx
  have hne : w ≠ [] := fun hnil => not_denotes_nil _ (hnil ▸ hlongest.1)
  rw [List.getLast?_append_of_ne_nil _ hne] at hx
  refine isAlphanumeric_getLast? hlongest.1 (fun hnumber => ?_) (fun hname => ?_) x hx
  · -- a number: what follows it would be a name
    obtain hgap | ⟨w', t', more', rfl, hw'⟩ := starts_of_tokens hmore hy
    · have := isAlphanumeric_of_isNameChar (isNameChar_of_isLetter hletter)
      rw [isAlphanumeric_of_isGap hgap] at this
      cases this
    · have hname : t'.lexeme.kind = .identifier := by
        rw [((denotes_letter_iff hletter _ _).mp hw').2]
        rfl
      exact (List.isChain_cons_cons.mp h.apart).1 hnumber hname
  · -- a name: the letter would belong to it
    obtain ⟨lexeme, span⟩ := t
    cases lexeme with
    | identifier name =>
      have := hlongest.head_not_isNameChar y hy
      rw [isNameChar_of_isLetter hletter] at this
      cases this
    | _ => cases hname

/-- A name that is read from a ready cursor is set apart, and it is not
all that is left. -/
theorem Ready.setApart (h : c.Ready text ts) (hnext : c.next = (.ok (some t), d)) {name : String}
    (hname : t.lexeme = .identifier name) :
    text.take d.index = text.take c.skipGap.index ++ name.toList ∧
      (∀ x ∈ name.toList, Text.isAlphanumeric x) ∧
      Editor.SetApart (text.take c.skipGap.index) d.rest ∧ d.rest ≠ [] := by
  obtain ⟨more, rfl, hmore⟩ := tokens_of_next hnext h.tokens
  obtain ⟨w, hmoves, hlongest⟩ := longest_of_next hnext
  rw [hname] at hlongest
  obtain ⟨rfl, ⟨y, hy, hletter⟩, hchars⟩ := denotes_identifier hlongest.1
  refine ⟨On.take_of_moves (on_skipGap h.on) (on_next h.on hnext) hmoves,
    fun x hx => isAlphanumeric_of_isNameChar (hchars x hx),
    ⟨fun x hx => ?_, fun x hx => ?_⟩, fun hnil => ?_⟩
  · rw [On.take_of_moves h.on (on_skipGap h.on) (moves_skipGap c)] at hx
    by_cases hgap : c.rest.takeWhile isGap = []
    · -- no gap: the name starts where the cursor stands
      have hrest := (moves_skipGap c).rest_eq
      rw [hgap, hmoves.rest_eq, List.nil_append] at hrest
      rw [hgap, List.append_nil] at hx
      refine h.clear y ?_ hletter x hx
      rw [hrest]
      exact List.mem_head?_append_of_mem_head? hy
    · rw [List.getLast?_append_of_ne_nil _ hgap] at hx
      exact isAlphanumeric_of_isGap (List.mem_takeWhile_imp (List.mem_of_getLast? hx))
  · obtain hgap | ⟨w', t', more', rfl, hw'⟩ := starts_of_tokens hmore hx
    · exact isAlphanumeric_of_isGap hgap
    · exact isAlphanumeric_of_denotes hw' (hlongest.head_not_isNameChar x hx)
  · obtain rfl := tokens_of_rest_eq_nil hnil hmore
    have hlast := h.last t.lexeme rfl
    rw [hname] at hlast
    cases hlast

/-- Every name that is read on the way from a ready cursor is set apart. -/
theorem Ready.setApart_of_readsAt (h : c.Ready text ts) {i j : Nat} (hreads : c.ReadsAt t i j)
    {name : String} (hname : t.lexeme = .identifier name) :
    ∃ before after, text = before ++ (name.toList ++ after) ∧ before.length = i ∧
      before.length + name.toList.length = j ∧ (∀ x ∈ name.toList, Text.isAlphanumeric x) ∧
      Editor.SetApart before after ∧ after ≠ [] := by
  induction hreads generalizing ts with
  | @here c d t hnext =>
    obtain ⟨htake, hchars, hset, hne⟩ := h.setApart hnext hname
    have hgap := on_skipGap h.on
    have hd := on_next h.on hnext
    have hlength := congrArg List.length htake
    rw [List.length_append, List.length_take_of_le hd.index_le,
      List.length_take_of_le hgap.index_le] at hlength
    refine ⟨_, _, ?_, List.length_take_of_le hgap.index_le, ?_, hchars, hset, hne⟩
    · rw [← List.append_assoc, ← htake, hd.rest_eq, List.take_append_drop]
    · rw [List.length_take_of_le hgap.index_le, hlength]
  | later hnext _ ih =>
    obtain ⟨more, rfl, hready⟩ := h.next hnext
    exact ih hready hname

/-- Every token that can be read stands somewhere. -/
theorem exists_readsAt (htokens : c.tokens.1 = .ok ts) (ht : t ∈ ts) : ∃ i j, c.ReadsAt t i j := by
  induction ts generalizing c with
  | nil => cases ht
  | cons u ts ih =>
    obtain ⟨d, hnext, -⟩ | ⟨u', d, hnext, -⟩ | ⟨p, x, d, hnext, -⟩ := c.next_outcome
    · rw [tokens_of_none hnext] at htokens
      cases htokens
    · obtain ⟨more, hts, hmore⟩ := tokens_of_next hnext htokens
      obtain ⟨rfl, rfl⟩ := List.cons.inj hts
      obtain rfl | ht := List.mem_cons.mp ht
      · exact ⟨_, _, .here hnext⟩
      · obtain ⟨i, j, hreads⟩ := ih hmore ht
        exact ⟨i, j, .later hnext hreads⟩
    · rw [tokens_of_error hnext] at htokens
      cases htokens

/-- The start of a document that is a program is ready. -/
theorem ready_start {document : String} {p : Program} (hscan : scan document = .ok ts)
    (hparse : parseProgram ts = .ok p) :
    (start document).Ready (Text.strip document.toList) ts := by
  have hlexemes := lexemes_of_parseProgram hparse
  refine ⟨on_start document, hscan, hlexemes ▸ apart_lexemes p, hlexemes ▸ getLast?_lexemes p, ?_⟩
  intro _ _ _ x hx
  cases hx

end Cursor

/-! ## Documents -/

/-- A document is what is read of it between the blanks around it. -/
theorem eq_strip_append (text : List Char) :
    ∃ trailing, text = text.takeWhile Text.isBlank ++ (Text.strip text ++ trailing) := by
  obtain ⟨trailing, h⟩ := dropTrailingBlanks_prefix (Text.dropLeadingBlanks text)
  exact ⟨trailing, by rw [Text.strip, h, Text.dropLeadingBlanks, List.takeWhile_append_dropWhile]⟩

section Documents

variable {document name : String} {ts : List Token} {p : Program} {t : Token}

/-- Where a name of a document stands it is set apart in the document. -/
theorem setApart_of_occupies
    (hready : (Cursor.start document).Ready (Text.strip document.toList) ts)
    (hname : t.lexeme = .identifier name) {a b : Nat} (h : Occupies document t a b) :
    ∃ before after, document.toList = before ++ (name.toList ++ after) ∧ before.length = a ∧
      before.length + name.toList.length = b ∧ (∀ x ∈ name.toList, Text.isAlphanumeric x) ∧
      Editor.SetApart before after ∧ after ≠ [] := by
  obtain ⟨i, j, hreads, rfl, rfl⟩ := h
  obtain ⟨before, after, hstrip, rfl, rfl, hchars, hset, hafter⟩ :=
    hready.setApart_of_readsAt hreads hname
  obtain ⟨trailing, htext⟩ := eq_strip_append document.toList
  have hleading : ∀ x ∈ document.toList.takeWhile Text.isBlank, Text.isAlphanumeric x = false :=
    fun x hx => Text.isAlphanumeric_of_isBlank (List.mem_takeWhile_imp hx)
  refine ⟨document.toList.takeWhile Text.isBlank ++ before, after ++ trailing, ?_,
    List.length_append, by rw [List.length_append, Nat.add_assoc], hchars, ⟨fun x hx => ?_,
      fun x hx => ?_⟩, fun hnil => hafter (List.append_eq_nil_iff.mp hnil).1⟩
  · rw [hstrip] at htext
    simpa only [List.append_assoc] using htext
  · rw [List.getLast?_append] at hx
    rcases Option.or_eq_some_iff.mp hx with hx | ⟨-, hx⟩
    · exact hset.before x hx
    · exact hleading x (List.mem_of_getLast? hx)
  · rw [List.head?_append_of_ne_nil _ hafter] at hx
    exact hset.after x hx

/-- At any place of a name, from before it to behind it, the name is the
word. -/
theorem wordAt_of_occupies
    (hready : (Cursor.start document).Ready (Text.strip document.toList) ts)
    (hname : t.lexeme = .identifier name) {a b n : Nat} (h : Occupies document t a b)
    (hlow : a ≤ n) (hhigh : n ≤ b) {place : Editor.Place}
    (hplace : place.Names document.toList n) :
    Editor.wordAt document place.line place.character = some name := by
  obtain ⟨before, after, htext, rfl, rfl, hchars, hset, hafter⟩ :=
    setApart_of_occupies hready hname h
  rw [Editor.wordAt_of_setApart htext hset hchars hafter hlow hhigh hplace, String.ofList_toList]

/-- The editor finds the names of a document that is a program. A name
stands in it somewhere, and wherever it stands its characters are those of
the document there; each index from its first character to the one behind
its last has a place, and the word at any place of such an index is the
name. -/
theorem wordAt_of_identifier (hscan : tokensOf document = .ok ts) (hparse : parseProgram ts = .ok p)
    (ht : t ∈ ts) (hname : t.lexeme = .identifier name) :
    (∃ a b, Occupies document t a b) ∧ ∀ a b, Occupies document t a b →
      document.toList.extract a b = name.toList ∧ ∀ n, a ≤ n → n ≤ b →
        (∃ place : Editor.Place, place.Names document.toList n) ∧
        ∀ place : Editor.Place, place.Names document.toList n →
          Editor.wordAt document place.line place.character = some name := by
  have hready := Cursor.ready_start (mapError_eq_ok.mp hscan) hparse
  refine ⟨?_, fun a b hstands => ?_⟩
  · obtain ⟨i, j, hreads⟩ := Cursor.exists_readsAt hready.tokens ht
    exact ⟨_, _, i, j, hreads, rfl, rfl⟩
  · obtain ⟨before, after, htext, rfl, rfl, -, -, hafter⟩ :=
      setApart_of_occupies hready hname hstands
    refine ⟨?_, fun n hlow hhigh => ⟨Editor.exists_names ?_, fun place hplace =>
      wordAt_of_occupies hready hname hstands hlow hhigh hplace⟩⟩
    · rw [htext, List.extract_eq_take_drop, List.drop_left, Nat.add_sub_cancel_left, List.take_left]
    · have := List.length_pos_of_ne_nil hafter
      rw [htext, List.length_append, List.length_append]
      omega

end Documents

/-- A program with a shape on its second line. -/
def secondLine : String := "\n shape main() \x7b\x7d"

def secondLineChars : { cs : List Char // secondLine = .ofList cs } := ⟨_, rfl⟩

theorem secondLineChars_main : (programOfChars secondLineChars.1).any fun p =>
    p.shapes.any (·.name == "main") := by
  decide +kernel

/-- The name of that shape, and what is found from the place behind it. -/
theorem wordAt_secondLine : ∃ ts p t, tokensOf secondLine = .ok ts ∧ parseProgram ts = .ok p ∧
    t ∈ ts ∧ t.lexeme = .identifier "main" ∧ ∃ a b, Occupies secondLine t a b ∧
      secondLine.toList.extract a b = "main".toList ∧ ∃ place : Editor.Place,
        place.Names secondLine.toList b ∧
          Editor.wordAt secondLine place.line place.character = some "main" := by
  have hmain := secondLineChars_main
  rw [Option.any_eq_true] at hmain
  obtain ⟨p, hp, hshape⟩ := hmain
  obtain ⟨s, hs, hname⟩ := List.any_eq_true.mp hshape
  obtain ⟨ts, hscan, hparse⟩ := parse_ofList hp
  rw [← secondLineChars.2] at hscan
  have hmem : Lexeme.identifier "main" ∈ ts.map Token.lexeme := by
    rw [← lexemes_of_parseProgram hparse, ← beq_iff_eq.mp hname]
    exact List.mem_flatMap.mpr ⟨s, hs, .tail _ (.head _)⟩
  obtain ⟨t, ht, hlexeme⟩ := List.mem_map.mp hmem
  have htokens := tokensOf_of_ok hscan
  obtain ⟨⟨a, b, hstands⟩, hall⟩ := wordAt_of_identifier htokens hparse ht hlexeme
  obtain ⟨hchars, hplaces⟩ := hall a b hstands
  have hab : a ≤ b := by
    by_contra hlt
    rw [List.extract_eq_take_drop, Nat.sub_eq_zero_of_le (Nat.le_of_not_le hlt)] at hchars
    cases hchars
  obtain ⟨⟨place, hplace⟩, hword⟩ := hplaces b hab (Nat.le_refl b)
  exact ⟨ts, p, t, htokens, hparse, ht, hlexeme, a, b, hstands, hchars, place, hplace,
    hword place hplace⟩

end ShapeScript
