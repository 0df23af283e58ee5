/-
ShapeScript.Proofs.Token.Spans — tokens span the places of their
characters.

A scanner can be asked for a character, a token of any kind or all that
remain, in any order and wherever it stands, also after an answer that
was an error. Every request passes some characters (`Request.passes`), so
a cursor that stood at the place of its index still does, and
`spans_are_places` concludes that every position ever seen is a count of
the lines and columns before it.

The tokens of a text are cut off one behind the other (`ReadAlong`), and
none ends with a CR, the only character that may leave the position where
it was; so their spans are not empty and follow one another (`Ordered`).
-/
import Mathlib.Data.List.Induction
import ShapeScript.Proofs.Fallible
import ShapeScript.Proofs.Token.Layout
import ShapeScript.Proofs.Token.Places

namespace ShapeScript

/-! ## Requests -/

namespace Cursor

/-- What a scanner can be asked for. -/
inductive Request where
  | peek
  | forward
  | skipGap
  | next
  | tokens
  | equals
  | string
  | identifier
  | number
  deriving DecidableEq, Repr

namespace Request

/-- The cursor after a request, whether it is met or not. -/
def after : Request → Cursor → Cursor
  | peek, c => c
  | forward, c => c.forward
  | skipGap, c => c.skipGap
  | next, c => c.next.2
  | tokens, c => c.tokens.2
  | equals, c => c.equals.2
  | string, c => c.string.2
  | identifier, c => c.identifier.2
  | number, c => c.number.2

/-- The tokens that a request gives. -/
def given : Request → Cursor → List Token
  | peek, _ | forward, _ | skipGap, _ => []
  | next, c => (c.next.1.toOption.join).toList
  | tokens, c => c.tokens.1.toOption.getD []
  | equals, c => [c.equals.1]
  | string, c => c.string.1.toOption.toList
  | identifier, c => c.identifier.1.toOption.toList
  | number, c => c.number.1.toOption.toList

end Request

/-- Where the scanner of a source stands after some requests, one after
the other. -/
def reached (source : String) (requests : List Request) : Cursor :=
  requests.foldl (fun c r => r.after c) (start source)

/-! ## What a request comes to -/

/-- From `c` to `d` some characters are passed. -/
def Passes (c d : Cursor) : Prop := ∃ n, d = c.forwardBy n

section Passes

variable {c d e : Cursor}

theorem passes_forwardBy (n : Nat) (c : Cursor) : c.Passes (c.forwardBy n) := ⟨n, rfl⟩

theorem Passes.trans (h : c.Passes d) (h' : d.Passes e) : c.Passes e := by
  obtain ⟨m, rfl⟩ := h
  obtain ⟨n, rfl⟩ := h'
  exact ⟨m + n, (forwardBy_add m n c).symm⟩

end Passes

theorem passes_equals (c : Cursor) : c.Passes c.equals.2 := by
  unfold equals
  dsimp only
  split
  · exact passes_forwardBy 2 c
  · exact passes_forwardBy 1 c

theorem passes_string (c : Cursor) : c.Passes c.string.2 := by
  have hclosing := (passes_forwardBy 1 c).trans
    (passes_forwardBy (c.forward.rest.takeWhile (· != '"')).length c.forward)
  unfold string
  dsimp only
  split
  · exact hclosing.trans (passes_forwardBy 1 _)
  · exact hclosing

theorem passes_identifier (c : Cursor) : c.Passes c.identifier.2 := by
  unfold identifier
  split
  · exact passes_forwardBy 0 c
  · split
    · exact passes_forwardBy _ c
    · exact passes_forwardBy 0 c

theorem passes_number (c : Cursor) : c.Passes c.number.2 := by
  unfold number
  dsimp only
  split <;> exact passes_forwardBy _ c

theorem passes_tokenAt (c : Cursor) (x : Char) : c.Passes (c.tokenAt x).2 := by
  unfold tokenAt
  split
  · exact passes_forwardBy 1 c
  · split
    · exact c.passes_equals
    · split
      · exact c.passes_string
      · split
        · exact c.passes_identifier
        · split
          · exact c.passes_number
          · exact passes_forwardBy 0 c

theorem passes_next (c : Cursor) : c.Passes c.next.2 := by
  have hgap : c.Passes c.skipGap := passes_forwardBy _ c
  unfold next
  dsimp only
  split
  · exact hgap
  · rename_i x _
    have hread := hgap.trans (c.skipGap.passes_tokenAt x)
    split <;> rename_i hx <;> rwa [hx] at hread

theorem passes_tokens (c : Cursor) : c.Passes c.tokens.2 := by
  induction hn : c.rest.length using Nat.strongRecOn generalizing c with
  | ind n ih =>
    subst hn
    have hread := c.passes_next
    match hnext : c.next with
    | (.error f, d) =>
      rw [tokens_of_error hnext]
      rwa [hnext] at hread
    | (.ok none, d) =>
      rw [tokens_of_none hnext]
      rwa [hnext] at hread
    | (.ok (some t), d) =>
      rw [tokens_of_some hnext]
      rw [hnext] at hread
      exact hread.trans (ih _ (length_next_lt hnext) d rfl)

theorem Request.passes (r : Request) (c : Cursor) : c.Passes (r.after c) := by
  cases r with
  | peek => exact passes_forwardBy 0 c
  | forward => exact passes_forwardBy 1 c
  | skipGap => exact passes_forwardBy _ c
  | next => exact c.passes_next
  | tokens => exact c.passes_tokens
  | equals => exact c.passes_equals
  | string => exact c.passes_string
  | identifier => exact c.passes_identifier
  | number => exact c.passes_number

theorem span_equals (c : Cursor) : c.equals.1.span = ⟨c.pos, c.equals.2.pos⟩ := by
  unfold equals
  dsimp only
  split <;> rfl

theorem span_string {c : Cursor} {t : Token} (h : c.string.1 = .ok t) :
    t.span = ⟨c.pos, c.string.2.pos⟩ := by
  unfold string at h ⊢
  dsimp only at h ⊢
  split at h
  · rename_i hquote
    rw [if_pos hquote]
    obtain rfl := Except.ok.inj h
    rfl
  · cases h

theorem span_identifier {c : Cursor} {t : Token} (h : c.identifier.1 = .ok t) :
    t.span = ⟨c.pos, c.identifier.2.pos⟩ := by
  unfold identifier at h ⊢
  cases hrest : c.rest with
  | nil => simp [hrest] at h
  | cons x more =>
    by_cases hx : isLetter x
    · simp only [hrest, if_pos hx, Except.ok.injEq] at h ⊢
      rw [← h]
      rfl
    · simp [hrest, hx] at h

theorem span_number {c : Cursor} {t : Token} (h : c.number.1 = .ok t) :
    t.span = ⟨c.pos, c.number.2.pos⟩ := by
  unfold number at h ⊢
  dsimp only at h ⊢
  split at h
  · cases h
  · rename_i hdigits
    rw [if_neg hdigits]
    obtain rfl := Except.ok.inj h
    rfl

/-- A token that is asked for by its kind is made of the characters that
are passed for it. -/
theorem Request.span_of_given {r : Request} (hr : r ∈ [equals, string, identifier, number])
    {c : Cursor} {t : Token} (ht : t ∈ r.given c) : t.span = ⟨c.pos, (r.after c).pos⟩ := by
  simp only [List.mem_cons, List.not_mem_nil, or_false] at hr
  obtain rfl | rfl | rfl | rfl := hr
  · obtain rfl := List.mem_singleton.mp ht
    exact c.span_equals
  · exact span_string (toOption_eq_some.mp (Option.mem_toList.mp ht))
  · exact span_identifier (toOption_eq_some.mp (Option.mem_toList.mp ht))
  · exact span_number (toOption_eq_some.mp (Option.mem_toList.mp ht))

/-! ## Reachable cursors -/

variable {text : List Char} {c d : Cursor}

theorem On.of_passes (h : c.On text) (hpasses : c.Passes d) : d.On text := by
  obtain ⟨n, rfl⟩ := hpasses
  exact h.forwardBy n

theorem index_le_of_passes (h : c.Passes d) : c.index ≤ d.index := by
  obtain ⟨n, rfl⟩ := h
  exact c.index_le_forwardBy n

/-- Wherever requests lead, the cursor stands in the text at its index. -/
theorem on_reached (source : String) (requests : List Request) :
    (reached source requests).On (Text.strip source.toList) := by
  induction requests using List.reverseRecOn with
  | nil => exact on_start source
  | append_singleton requests r ih =>
    rw [reached, List.foldl_append]
    exact ih.of_passes (r.passes _)

end Cursor

/-! ## Whole texts -/

/-- The tokens were read from the text one behind the other, from the
index on: each from the characters between two indices, which denote it,
and it spans their places. -/
inductive ReadAlong (text : List Char) : Nat → List Token → Prop
  | nil {i : Nat} : ReadAlong text i []
  | cons {i a b : Nat} {t : Token} {ts : List Token} (hgap : i ≤ a) (hend : b ≤ text.length)
      (hchars : Denotes (text.extract a b) t.lexeme)
      (hspan : t.span = ⟨placeAt text a, placeAt text b⟩) (hmore : ReadAlong text b ts) :
      ReadAlong text i (t :: ts)

/-- Every token ends behind its start, and the next begins no earlier. -/
structure Ordered (ts : List Token) : Prop where
  nonempty : ∀ t ∈ ts, t.span.start < t.span.finish
  disjoint : ts.Pairwise fun t u => t.span.finish ≤ u.span.start

variable {text : List Char}

theorem over_placeAt {w rest : List Char} {i : Nat} (h : text.drop i = w ++ rest) :
    (placeAt text i).over w rest = placeAt text (i + w.length) := by
  induction w generalizing i with
  | nil => rfl
  | cons c w ih =>
    have hc : text[i]? = some c := by rw [← List.head?_drop, h]; rfl
    have hdrop : text.drop (i + 1) = w ++ rest := by rw [← List.drop_drop, h]; rfl
    rw [Position.over, List.length_cons, ← hdrop, List.head?_drop, ← placeAt_succ hc, ih hdrop]
    congr 1
    omega

theorem ReadAlong.of_le {i j : Nat} {ts : List Token} (h : ReadAlong text j ts) (hij : i ≤ j) :
    ReadAlong text i ts := by
  cases h with
  | nil => exact .nil
  | cons hgap hend hchars hspan hmore => exact .cons (Nat.le_trans hij hgap) hend hchars hspan hmore

/-- The tokens of a cut are read along the text. -/
theorem Cut.readAlong {p q : Position} {left rest : List Char} {ts : List Token}
    (h : Cut p left ts q rest) {i : Nat} (hleft : text.drop i = left) (hp : p = placeAt text i) :
    ReadAlong text i ts := by
  induction h generalizing i with
  | nil => exact .nil
  | @gap p q c left rest ts _ _ ih =>
    have hc : text[i]? = some c := by rw [← List.head?_drop, hleft]; rfl
    have hdrop : text.drop (i + 1) = left := by rw [← List.drop_drop, hleft]; rfl
    refine (ih hdrop ?_).of_le (Nat.le_succ i)
    rw [placeAt_succ hc, hp, ← hdrop, List.head?_drop]
  | @lexeme p q w left rest l ts hw _ ih =>
    have hplace : p.over w left = placeAt text (i + w.length) := by rw [hp, over_placeAt hleft]
    have hdrop : text.drop (i + w.length) = left := by
      rw [← List.drop_drop, hleft, List.drop_left]
    refine .cons (Nat.le_refl i) ?_ ?_ ?_ (ih hdrop hplace)
    · have := congrArg List.length hleft
      rw [List.length_drop, List.length_append] at this
      have := hw.1
      cases w with
      | nil => exact absurd this (not_denotes_nil l)
      | cons => simp only [List.length_cons] at *; omega
    · rw [List.extract_eq_take_drop, hleft, Nat.add_sub_cancel_left, List.take_left]
      exact hw.1
    · rw [hplace, hp]

/-- The tokens of a source are read along its text. -/
theorem readAlong_of_scan {source : String} {ts : List Token} (h : scan source = .ok ts) :
    ReadAlong (Text.strip source.toList) 0 ts := by
  obtain ⟨q, hcut⟩ := (scan_eq_ok_iff source ts).mp h
  exact hcut.readAlong rfl placeAt_zero.symm

/-- A token's last character moves the position on. -/
theorem placeAt_lt_of_denotes {a b : Nat} {l : Lexeme} (h : Denotes (text.extract a b) l)
    (hb : b ≤ text.length) : placeAt text a < placeAt text b := by
  obtain ⟨c, hlast, hc⟩ := h.edges.2
  have hne : c ≠ '\r' := by
    rintro rfl
    exact absurd hc (by decide)
  have hlength : (text.extract a b).length = b - a := by
    rw [List.extract_eq_take_drop, List.length_take, List.length_drop]
    omega
  have hab : a < b := by
    by_contra hle
    rw [List.getLast?_eq_getElem?, hlength, Nat.sub_eq_zero_of_le (Nat.not_lt.mp hle)] at hlast
    rw [List.extract_eq_take_drop, Nat.sub_eq_zero_of_le (Nat.not_lt.mp hle)] at hlast
    simp at hlast
  obtain ⟨k, rfl⟩ : ∃ k, b = k + 1 := ⟨b - 1, by omega⟩
  have hk : text[k]? = some c := by
    rw [← hlast, List.getLast?_eq_getElem?, hlength, List.extract_eq_take_drop,
      List.getElem?_take_of_lt (by omega), List.getElem?_drop]
    congr 1
    omega
  rw [placeAt_succ hk]
  exact lt_of_le_of_lt (placeAt_le_placeAt (Nat.le_of_lt_succ hab) (Nat.le_of_succ_le hb))
    (Position.lt_after _ hne _)

theorem ReadAlong.le_start {i : Nat} {ts : List Token} (h : ReadAlong text i ts) :
    ∀ t ∈ ts, placeAt text i ≤ t.span.start := by
  induction h with
  | nil => exact List.forall_mem_nil _
  | @cons i a b t ts hgap hend hchars hspan _ ih =>
    have hab := placeAt_lt_of_denotes hchars hend
    have hlength : a ≤ text.length := by
      by_contra hlt
      rw [List.extract_eq_take_drop, List.drop_eq_nil_of_le (Nat.le_of_not_le hlt),
        List.take_nil] at hchars
      exact not_denotes_nil _ hchars
    have hia := placeAt_le_placeAt hgap hlength
    intro u hu
    rcases List.mem_cons.mp hu with rfl | hu
    · rw [hspan]
      exact hia
    · exact le_trans hia (le_trans hab.le (ih u hu))

theorem ReadAlong.ordered {i : Nat} {ts : List Token} (h : ReadAlong text i ts) : Ordered ts := by
  induction h with
  | nil => exact ⟨List.forall_mem_nil _, List.Pairwise.nil⟩
  | @cons i a b t ts hgap hend hchars hspan hmore ih =>
    constructor
    · refine List.forall_mem_cons.mpr ⟨?_, ih.nonempty⟩
      rw [hspan]
      exact placeAt_lt_of_denotes hchars hend
    · refine List.pairwise_cons.mpr ⟨fun u hu => ?_, ih.disjoint⟩
      rw [hspan]
      exact hmore.le_start u hu

/-- The tokens of a source have spans that follow one another. -/
theorem ordered_of_scan {source : String} {ts : List Token} (h : scan source = .ok ts) :
    Ordered ts :=
  (readAlong_of_scan h).ordered

/-- Whatever lexemes are looked for from a place of the text are read
along the text. -/
theorem Cursor.On.readAlong {c : Cursor} (h : c.On text) {r : Request}
    (hr : r ∈ [Request.next, .tokens]) : ReadAlong text c.index (r.given c) := by
  simp only [List.mem_cons, List.not_mem_nil, or_false] at hr
  obtain rfl | rfl := hr
  · rw [Request.given]
    obtain ⟨d, hnext, _⟩ | ⟨t, d, hnext, hcut⟩ | ⟨p, x, d, hnext, _⟩ := c.next_outcome
    · rw [hnext]
      exact .nil
    · rw [hnext]
      exact (hcut [] d.pos d.rest .nil).readAlong h.rest_eq.symm h.pos_eq
    · rw [hnext]
      exact .nil
  · rw [Request.given]
    obtain ⟨ts, hts, q, hcut⟩ | ⟨p, x, hfail, _⟩ := c.tokens_outcome
    · rw [hts]
      exact hcut.readAlong h.rest_eq.symm h.pos_eq
    · rw [hfail]
      exact .nil

/-- Positions are places, always. Whatever a scanner is asked for and
however often, also after errors, it stands in the text at its index, its
position is the count of the lines and columns before that index, and no
request takes it back. The tokens it finds span the places of their first
characters and of what stands behind their last; one that is asked for by
its kind where it may not fit spans what was passed for it. The spans of
a whole text's tokens follow one another. An LF, a CR and the two together
each count as one line break, wherever they stand. -/
theorem spans_are_places (source : String) (requests : List Cursor.Request) :
    (Cursor.reached source requests).On (Text.strip source.toList) ∧
    (∀ r : Cursor.Request,
      (Cursor.reached source requests).index ≤ (r.after (Cursor.reached source requests)).index) ∧
    (∀ r ∈ [Cursor.Request.next, .tokens],
      ReadAlong (Text.strip source.toList) (Cursor.reached source requests).index
        (r.given (Cursor.reached source requests))) ∧
    (∀ r ∈ [Cursor.Request.equals, .string, .identifier, .number],
      ∀ t ∈ r.given (Cursor.reached source requests),
        t.span = ⟨placeAt (Text.strip source.toList) (Cursor.reached source requests).index,
          placeAt (Text.strip source.toList) (r.after (Cursor.reached source requests)).index⟩) ∧
    (∀ ts, scan source = .ok ts → ReadAlong (Text.strip source.toList) 0 ts ∧ Ordered ts) ∧
    ∀ before brk rest, Text.strip source.toList = before ++ (brk ++ rest) → LineBreak brk rest →
      placeAt (Text.strip source.toList) (before.length + brk.length) =
        ⟨(placeAt (Text.strip source.toList) before.length).line + 1, 0⟩ := by
  have hon := Cursor.on_reached source requests
  refine ⟨hon, fun r => Cursor.index_le_of_passes (r.passes _), fun r hr => hon.readAlong hr,
    ?_, ?_, ?_⟩
  · intro r hr t ht
    rw [← hon.pos_eq, ← (hon.of_passes (r.passes _)).pos_eq]
    exact r.span_of_given hr ht
  · intro ts hts
    have hread := readAlong_of_scan hts
    exact ⟨hread, hread.ordered⟩
  · intro before brk rest htext hbreak
    rw [htext]
    exact placeAt_lineBreak hbreak

end ShapeScript
