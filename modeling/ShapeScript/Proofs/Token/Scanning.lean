/-
ShapeScript.Proofs.Token.Scanning — the scanner takes the longest lexeme.

`Cursor.Outcome` is what reading a token at a cursor must come to: the
longest lexeme there, with the span that it was read from, or a text that
is stuck, with the fault of its first character. There is one lemma for
each reader, `tokenAt_outcome` puts them together, and `tokens_outcome`
carries the result over a whole text: what the scanner gives is a cut, up
to the end of the text or to a place where it is stuck.

`scan_iff` is the main statement. Since a text can be cut as far as
possible in one way only, a text for which there is a cut up to its end
is one that the scanner reads.
-/
import ShapeScript.Proofs.Token.LongestMatch

namespace ShapeScript

namespace Cursor

/-! ## Moving over characters -/

/-- From `c` to `d` the characters `w` are read. -/
structure Moves (c : Cursor) (w : List Char) (d : Cursor) : Prop where
  rest_eq : c.rest = w ++ d.rest
  pos_eq : d.pos = c.pos.over w d.rest

theorem pos_forwardBy {c : Cursor} {w m : List Char} (h : c.rest = w ++ m) :
    (c.forwardBy w.length).pos = c.pos.over w m := by
  induction w generalizing c with
  | nil => rfl
  | cons x w ih =>
    have hrest : c.forward.rest = w ++ m := by rw [rest_forward, h]; rfl
    have hpos : c.forward.pos = c.pos.after x (w ++ m).head? := by
      unfold forward
      rw [h]
      rfl
    rw [List.length_cons, forwardBy, ih hrest, hpos, Position.over]

theorem moves_forwardBy {c : Cursor} {w m : List Char} (h : c.rest = w ++ m) :
    c.Moves w (c.forwardBy w.length) := by
  have hm : (c.forwardBy w.length).rest = m := by rw [rest_forwardBy, h, List.drop_left]
  constructor
  · rw [hm, h]
  · rw [hm, pos_forwardBy h]

theorem moves_forward {c : Cursor} {x : Char} {more : List Char} (h : c.rest = x :: more) :
    c.Moves [x] c.forward :=
  moves_forwardBy h

end Cursor

theorem Position.over_append (p : Position) (w w' rest : List Char) :
    p.over (w ++ w') rest = (p.over w (w' ++ rest)).over w' rest := by
  induction w generalizing p with
  | nil => rfl
  | cons c w ih =>
    rw [List.cons_append, Position.over, Position.over, ih, List.append_assoc]

namespace Cursor

theorem Moves.trans {c d e : Cursor} {w w' : List Char} (h : c.Moves w d) (h' : d.Moves w' e) :
    c.Moves (w ++ w') e := by
  constructor
  · rw [h.rest_eq, h'.rest_eq, List.append_assoc]
  · rw [h'.pos_eq, h.pos_eq, h'.rest_eq, Position.over_append]

theorem moves_skipGap (c : Cursor) : c.Moves (c.rest.takeWhile isGap) c.skipGap :=
  moves_forwardBy List.takeWhile_append_dropWhile.symm

/-! ## One token -/

/-- What reading a token at a cursor must come to. -/
inductive Outcome (c : Cursor) : Scanned Token → Prop
  | token {w : List Char} {l : Lexeme} {d : Cursor} (hmoves : c.Moves w d)
      (hw : Longest w l c.rest) : Outcome c (.ok (c.token d l), d)
  | stuck {x : Char} {more : List Char} {d : Cursor} (hrest : c.rest = x :: more)
      (hnone : ∀ w l, Denotes w l → ¬ w <+: c.rest) :
      Outcome c (.error (.problem ⟨stuckAt x, c.pos⟩), d)

theorem equals_outcome {c : Cursor} {more : List Char} (h : c.rest = '=' :: more) :
    c.Outcome (.ok c.equals.1, c.equals.2) := by
  have hone : c.forward.rest = more := by rw [rest_forward, h]; rfl
  unfold equals
  by_cases hpeek : c.forward.peek = some '='
  · rw [if_pos hpeek]
    rw [peek, List.head?_eq_some_iff] at hpeek
    obtain ⟨more', hmore⟩ := hpeek
    refine .token ((moves_forward h).trans (moves_forward hmore)) ?_
    rw [h, ← hone, hmore]
    exact longest_compare more'
  · rw [if_neg hpeek]
    refine .token (moves_forward h) ?_
    rw [h]
    rw [peek, hone] at hpeek
    exact longest_assign hpeek

theorem string_outcome {c : Cursor} {more : List Char} (h : c.rest = '"' :: more) :
    c.Outcome c.string := by
  have hopened : c.forward.rest = more := by rw [rest_forward, h]; rfl
  unfold string
  simp only [hopened]
  by_cases hquote : '"' ∈ more
  · obtain ⟨body, after, rfl, hbody⟩ := List.eq_append_cons_of_mem hquote
    have hnone : ∀ x ∈ body, (x != '"') = true := by
      intro x hx
      simpa using ne_of_mem_of_not_mem hx hbody
    have hafter : (c.forward.forwardBy body.length).rest = '"' :: after := by
      rw [rest_forwardBy, hopened, List.drop_left]
    have hpeek : (c.forward.forwardBy body.length).peek = some '"' := by rw [peek, hafter]; rfl
    rw [takeWhile_append_cons hnone rfl, if_pos hpeek]
    refine .token ((moves_forward h).trans ((moves_forwardBy hopened).trans
      (moves_forward hafter))) ?_
    rw [h]
    exact longest_string hbody after
  · have hall : more.takeWhile (· != '"') = more := by
      refine List.takeWhile_eq_self_iff.mpr fun x hx => ?_
      simpa using ne_of_mem_of_not_mem hx hquote
    have hpeek : (c.forward.forwardBy more.length).peek ≠ some '"' := by
      rw [peek, rest_forwardBy, hopened, List.drop_length]
      simp
    rw [hall, if_neg hpeek]
    refine .stuck h ?_
    rw [h]
    exact not_prefix_quote hquote

theorem identifier_outcome {c : Cursor} {x : Char} {more : List Char} (h : c.rest = x :: more)
    (hx : isLetter x) : c.Outcome c.identifier := by
  have hname : (x :: more).takeWhile isNameChar = x :: more.takeWhile isNameChar :=
    List.takeWhile_cons_of_pos (by simp [isNameChar, hx])
  unfold identifier
  simp only [h, if_pos hx, hname]
  refine .token (moves_forwardBy (m := more.dropWhile isNameChar) ?_) ?_
  · rw [h, List.cons_append, List.takeWhile_append_dropWhile]
  · rw [h]
    exact longest_identifier hx more

/-- The text of a number without a point. -/
theorem numberTextOf_whole {x : Char} {more : List Char} (hx : isDigit x)
    (hpoint : ∀ s, more.dropWhile isDigit ≠ '.' :: s) :
    numberTextOf (x :: more) = ⟨x :: more.takeWhile isDigit, false, []⟩ := by
  unfold numberTextOf
  rw [List.takeWhile_cons_of_pos hx, List.dropWhile_cons_of_pos hx]
  split
  · rename_i s hs
    exact absurd hs (hpoint s)
  · rfl

/-- The text of a number with a point. -/
theorem numberTextOf_pointed {x : Char} {more s : List Char} (hx : isDigit x)
    (hpoint : more.dropWhile isDigit = '.' :: s) :
    numberTextOf (x :: more) = ⟨x :: more.takeWhile isDigit, true, s.takeWhile isDigit⟩ := by
  unfold numberTextOf
  rw [List.takeWhile_cons_of_pos hx, List.dropWhile_cons_of_pos hx, hpoint]
  rfl

/-- The text of a number is the longest there is. -/
theorem longest_numberTextOf {x : Char} (hx : isDigit x) (more : List Char) :
    Longest (numberTextOf (x :: more)).chars
      (.number (Number.ofDigits (numberTextOf (x :: more)).whole
        (numberTextOf (x :: more)).fraction)) (x :: more) := by
  by_cases hpoint : ∃ s, more.dropWhile isDigit = '.' :: s
  · obtain ⟨s, hs⟩ := hpoint
    rw [numberTextOf_pointed hx hs]
    exact longest_pointed hx hs
  · have hwhole : ∀ s, more.dropWhile isDigit ≠ '.' :: s := fun s hs => hpoint ⟨s, hs⟩
    rw [numberTextOf_whole hx hwhole]
    show Longest (x :: more.takeWhile isDigit ++ []) _ _
    rw [List.append_nil]
    exact longest_whole hx hwhole

theorem number_outcome {c : Cursor} {x : Char} {more : List Char} (h : c.rest = x :: more)
    (hx : isDigit x) : c.Outcome c.number := by
  have hw := longest_numberTextOf hx more
  obtain ⟨s, hs⟩ := hw.2.1
  have hdigits : ((numberTextOf (x :: more)).whole.isEmpty &&
      (numberTextOf (x :: more)).fraction.isEmpty) = false := by
    rw [whole_numberTextOf, List.takeWhile_cons_of_pos hx]
    rfl
  unfold number
  simp only [h, hdigits, Bool.false_eq_true, if_false]
  exact .token (moves_forwardBy (h.trans hs.symm)) (h ▸ hw)

theorem tokenAt_outcome {c : Cursor} {x : Char} {more : List Char} (h : c.rest = x :: more) :
    c.Outcome (c.tokenAt x) := by
  unfold tokenAt
  split
  · rename_i l hmark
    refine .token (moves_forward h) ?_
    rw [h]
    exact longest_mark hmark more
  · rename_i hmark
    by_cases hequals : x = '='
    · rw [if_pos hequals]
      exact equals_outcome (hequals ▸ h)
    · rw [if_neg hequals]
      by_cases hquote : x = '"'
      · rw [if_pos hquote]
        exact string_outcome (hquote ▸ h)
      · rw [if_neg hquote]
        by_cases hletter : isLetter x
        · rw [if_pos hletter]
          exact identifier_outcome h hletter
        · rw [if_neg hletter]
          by_cases hdigit : isDigit x
          · rw [if_pos hdigit]
            exact number_outcome h hdigit
          · rw [if_neg hdigit]
            have hfault : stuckAt x = .unexpectedCharacter x := if_neg hquote
            rw [← hfault]
            refine .stuck h ?_
            rw [h]
            refine not_prefix_cons fun w l hw => ?_
            exact absurd hw (not_denotes_other hmark hequals hquote
              (Bool.eq_false_iff.mpr hletter) (Bool.eq_false_iff.mpr hdigit) w l)

/-! ## All tokens -/

/-- Gaps may be cut off in one piece. -/
theorem cut_of_gaps {p q : Position} {w text rest : List Char} {ts : List Token}
    (hw : ∀ x ∈ w, isGap x) (h : Cut (p.over w text) text ts q rest) :
    Cut p (w ++ text) ts q rest := by
  induction w generalizing p with
  | nil => exact h
  | cons x w ih =>
    have hx := hw x List.mem_cons_self
    exact .gap hx (ih (fun y hy => hw y (List.mem_cons_of_mem x hy)) h)

/-- A cut from where a gap ends is one from where it starts. -/
theorem cut_skipGap {c : Cursor} {q : Position} {rest : List Char} {ts : List Token}
    (h : Cut c.skipGap.pos c.skipGap.rest ts q rest) : Cut c.pos c.rest ts q rest := by
  rw [(moves_skipGap c).rest_eq]
  rw [(moves_skipGap c).pos_eq] at h
  exact cut_of_gaps (fun x hx => List.mem_takeWhile_imp hx) h

theorem rest_skipGap (c : Cursor) : c.skipGap.rest = c.rest.dropWhile isGap := by
  have hsplit : c.rest.takeWhile isGap ++ c.skipGap.rest =
      c.rest.takeWhile isGap ++ c.rest.dropWhile isGap := by
    rw [← (moves_skipGap c).rest_eq, List.takeWhile_append_dropWhile]
  exact List.append_cancel_left hsplit

/-- After a gap there is no further one. -/
theorem isGap_skipGap {c : Cursor} {x : Char} (h : c.skipGap.rest.head? = some x) :
    isGap x = false := by
  have hnot := List.head?_dropWhile_not isGap c.rest
  rw [← rest_skipGap, h] at hnot
  exact hnot

/-- What one step comes to, as a step of a cut. -/
theorem next_outcome (c : Cursor) :
    (∃ d, c.next = (.ok none, d) ∧ ∃ q, Cut c.pos c.rest [] q []) ∨
    (∃ t d, c.next = (.ok (some t), d) ∧
      ∀ ts q rest, Cut d.pos d.rest ts q rest → Cut c.pos c.rest (t :: ts) q rest) ∨
    ∃ p x d, c.next = (.error (.problem ⟨stuckAt x, p⟩), d) ∧
      ∃ more, Cut c.pos c.rest [] p (x :: more) ∧ Stuck (x :: more) := by
  unfold next
  cases hrest : c.skipGap.rest with
  | nil =>
    left
    have hpeek : c.skipGap.peek = none := by rw [peek, hrest]; rfl
    simp only [hpeek]
    refine ⟨_, rfl, c.skipGap.pos, cut_skipGap ?_⟩
    rw [hrest]
    exact .nil
  | cons x more =>
    right
    have hpeek : c.skipGap.peek = some x := by rw [peek, hrest]; rfl
    have hout := tokenAt_outcome hrest
    simp only [hpeek]
    generalize c.skipGap.tokenAt x = read at hout
    cases hout with
    | @token w l d hmoves hw =>
      left
      refine ⟨_, _, rfl, ?_⟩
      intro ts q rest hcut
      refine cut_skipGap ?_
      rw [hmoves.rest_eq] at hw ⊢
      rw [hmoves.pos_eq] at hcut
      rw [token, hmoves.pos_eq]
      exact .lexeme hw hcut
    | @stuck x' more' d hrest' hnone =>
      right
      obtain ⟨rfl, rfl⟩ := List.cons.inj (hrest.symm.trans hrest')
      refine ⟨_, _, _, rfl, more, cut_skipGap ?_, ?_⟩
      · rw [hrest]
        exact .nil
      · rw [← hrest]
        exact ⟨fun y hy => isGap_skipGap hy, hnone⟩

theorem tokens_of_error {c d : Cursor} {f : ScanFailure} (h : c.next = (.error f, d)) :
    c.tokens = (.error f, d) := by
  rw [tokens]
  split <;> simp_all

theorem tokens_of_none {c d : Cursor} (h : c.next = (.ok none, d)) : c.tokens = (.ok [], d) := by
  rw [tokens]
  split <;> simp_all

theorem tokens_of_some {c d : Cursor} {t : Token} (h : c.next = (.ok (some t), d)) :
    c.tokens = (d.tokens.1.map (t :: ·), d.tokens.2) := by
  rw [tokens]
  split
  · rename_i hnext
    rw [h] at hnext
    cases hnext
  · rename_i hnext
    rw [h] at hnext
    cases hnext
  · rename_i hnext
    rw [h] at hnext
    cases hnext
    obtain ⟨read, last⟩ := d.tokens
    cases read <;> rfl

/-- What reading all tokens comes to: the tokens of a cut, up to the end
of the text, or the fault of the place where the cut is stuck. -/
theorem tokens_outcome (c : Cursor) :
    (∃ ts, c.tokens.1 = .ok ts ∧ ∃ q, Cut c.pos c.rest ts q []) ∨
    ∃ p x, c.tokens.1 = .error (.problem ⟨stuckAt x, p⟩) ∧
      ∃ ts more, Cut c.pos c.rest ts p (x :: more) ∧ Stuck (x :: more) := by
  induction hn : c.rest.length using Nat.strongRecOn generalizing c with
  | ind n ih =>
    subst hn
    obtain ⟨d, hnext, hcut⟩ | ⟨t, d, hnext, hstep⟩ | ⟨p, x, d, hnext, more, hcut, hstuck⟩ :=
      c.next_outcome
    · exact .inl ⟨[], by rw [tokens_of_none hnext], hcut⟩
    · rw [tokens_of_some hnext]
      obtain ⟨ts, hts, q, hcut⟩ | ⟨p, x, hfail, ts, more, hcut, hstuck⟩ :=
        ih _ (length_next_lt hnext) d rfl
      · exact .inl ⟨t :: ts, by rw [hts]; rfl, q, hstep ts q [] hcut⟩
      · exact .inr ⟨p, x, by rw [hfail]; rfl, t :: ts, more, hstep ts p _ hcut, hstuck⟩
    · exact .inr ⟨p, x, by rw [tokens_of_error hnext], [], more, hcut, hstuck⟩

end Cursor

/-- What is cut off stands in front of what is left. -/
theorem Cut.exists_append {p q : Position} {text rest : List Char} {ts : List Token}
    (h : Cut p text ts q rest) : ∃ before, text = before ++ rest ∧ q = p.over before rest := by
  induction h with
  | nil => exact ⟨[], rfl, rfl⟩
  | @gap p q c text rest ts hc _ ih =>
    obtain ⟨before, rfl, rfl⟩ := ih
    exact ⟨c :: before, rfl, rfl⟩
  | @lexeme p q w text rest l ts _ _ ih =>
    obtain ⟨before, rfl, rfl⟩ := ih
    exact ⟨w ++ before, (List.append_assoc w before rest).symm, (p.over_append w before rest).symm⟩

/-! ## Whole texts -/

/-- What scanning a text comes to. -/
theorem scan_outcome (text : String) :
    (∃ ts, scan text = .ok ts ∧ ∃ q, Cut .origin (Text.strip text.toList) ts q []) ∨
    ∃ p x, scan text = .error (.problem ⟨stuckAt x, p⟩) ∧
      ∃ ts more, Cut .origin (Text.strip text.toList) ts p (x :: more) ∧ Stuck (x :: more) :=
  (Cursor.start text).tokens_outcome

theorem scan_of_cut {text : String} {ts : List Token} {q : Position}
    (hcut : Cut .origin (Text.strip text.toList) ts q []) : scan text = .ok ts := by
  obtain ⟨ts', hscan, q', hcut'⟩ | ⟨p, x, hscan, ts', more, hcut', hstuck⟩ := scan_outcome text
  · obtain ⟨rfl, _, _⟩ := hcut.unique stuck_nil hcut' stuck_nil
    exact hscan
  · obtain ⟨_, _, hrest⟩ := hcut.unique stuck_nil hcut' hstuck
    cases hrest

theorem scan_of_stuck {text : String} {ts : List Token} {p : Position} {x : Char}
    {more : List Char} (hcut : Cut .origin (Text.strip text.toList) ts p (x :: more))
    (hstuck : Stuck (x :: more)) : scan text = .error (.problem ⟨stuckAt x, p⟩) := by
  obtain ⟨ts', hscan, q, hcut'⟩ | ⟨p', x', hscan, ts', more', hcut', hstuck'⟩ := scan_outcome text
  · obtain ⟨_, _, hrest⟩ := hcut.unique hstuck hcut' stuck_nil
    cases hrest
  · obtain ⟨_, rfl, hrest⟩ := hcut.unique hstuck hcut' hstuck'
    cases hrest
    exact hscan

theorem scan_eq_ok_iff (text : String) (ts : List Token) :
    scan text = .ok ts ↔ ∃ q, Cut .origin (Text.strip text.toList) ts q [] := by
  constructor
  · intro h
    obtain ⟨ts', hscan, hcut⟩ | ⟨p, x, hscan, _⟩ := scan_outcome text
    · rw [h] at hscan
      cases hscan
      exact hcut
    · rw [h] at hscan
      cases hscan
  · intro h
    obtain ⟨q, hcut⟩ := h
    exact scan_of_cut hcut

theorem scan_eq_error_iff (text : String) (f : ScanFailure) :
    scan text = .error f ↔
      ∃ ts p x more, Cut .origin (Text.strip text.toList) ts p (x :: more) ∧
        Stuck (x :: more) ∧ f = .problem ⟨stuckAt x, p⟩ := by
  constructor
  · intro h
    obtain ⟨ts, hscan, _⟩ | ⟨p, x, hscan, ts, more, hcut, hstuck⟩ := scan_outcome text
    · rw [h] at hscan
      cases hscan
    · rw [h] at hscan
      cases hscan
      exact ⟨ts, p, x, more, hcut, hstuck, rfl⟩
  · intro h
    obtain ⟨ts, p, x, more, hcut, hstuck, rfl⟩ := h
    exact scan_of_stuck hcut hstuck

/-- The scanner is the longest-match scanner. It reads a text exactly if
the text without the blanks around it can be cut up to its end, and gives
the tokens of that cut. Otherwise it fails at the first place where
neither a gap nor a lexeme stands: with an unterminated string if a quote
is there, and else with the character as unexpected. Asking for a name or
a number where there is none does not happen. -/
theorem scan_iff (text : String) :
    (∀ ts, scan text = .ok ts ↔ ∃ q, Cut .origin (Text.strip text.toList) ts q []) ∧
    (∀ f, scan text = .error f ↔
      ∃ ts p x more, Cut .origin (Text.strip text.toList) ts p (x :: more) ∧
        Stuck (x :: more) ∧ f = .problem ⟨stuckAt x, p⟩) ∧
    (∀ p, scan text ≠ .error (.problem ⟨.invalidIdentifier, p⟩)) ∧
    ∀ s, scan text ≠ .error (.malformedNumber s) := by
  refine ⟨scan_eq_ok_iff text, scan_eq_error_iff text, ?_, ?_⟩
  · intro p h
    obtain ⟨ts, p', x, more, _, _, hfailure⟩ := (scan_eq_error_iff text _).mp h
    rw [stuckAt] at hfailure
    split at hfailure <;> cases hfailure
  · intro s h
    obtain ⟨ts, p, x, more, _, _, hfailure⟩ := (scan_eq_error_iff text _).mp h
    cases hfailure

end ShapeScript
