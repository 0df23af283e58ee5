/-
ShapeScript.Proofs.Editor.Snippet — a snippet that is filled in is a call.

A snippet has a placeholder for each parameter that it asks for, and
`fillPlaceholders` is what an editor makes of it when each of them is
replaced by a string in quotes. The text that comes of the snippet of a
call is `callText`: a name and arguments in parentheses. It is scanned as
it was meant (`scans_callText`), since no lexeme runs on into the next one,
and read as one call with those arguments (`filled_is_call`). Nothing but
the names matters for this, and they have to be names.
-/
import ShapeScript.Editor
import ShapeScript.Proofs.Document
import ShapeScript.Proofs.Program.Names
import ShapeScript.Proofs.Program.Rereading
import ShapeScript.Proofs.Token.Writing

namespace ShapeScript

namespace Editor

/-! ## Filling in -/

/-- A snippet with each placeholder replaced by a string in quotes, the one
for what stands between its braces. A dollar sign and a brace that are not
closed are no placeholder. -/
def fillPlaceholders (literal : List Char → List Char) (snippet : List Char) : List Char :=
  match snippet with
  | [] => []
  | c :: rest =>
    if c = '$' ∧ rest.head? = some '{' then
      match _h : rest.tail.dropWhile (· != '}') with
      | [] => c :: rest
      | _ :: after =>
        '"' :: (literal (rest.tail.takeWhile (· != '}')) ++ '"' :: fillPlaceholders literal after)
    else c :: fillPlaceholders literal rest
termination_by snippet.length
decreasing_by
  · have hlength := List.length_dropWhile_le (· != '}') rest.tail
    rw [_h, List.length_tail, List.length_cons] at hlength
    simp only [List.length_cons]
    omega
  · exact Nat.lt_succ_self _

/-- An argument with a string as its value. -/
def argumentText (a : String × List Char) : List Char :=
  a.1.toList ++ ':' :: ' ' :: '"' :: (a.2 ++ ['"'])

/-- A call with strings as its arguments. -/
def callText (label : String) (arguments : List (String × List Char)) : List Char :=
  label.toList ++ '(' :: ([',', ' '].intercalate (arguments.map argumentText) ++ [')'])

/-- The arguments that placeholders are replaced by, numbered from `i`. -/
def filledArguments (literal : List Char → List Char) :
    Nat → List String → List (String × List Char)
  | _, [] => []
  | i, n :: names =>
    (n, literal (toString i ++ ":" ++ n).toList) :: filledArguments literal (i + 1) names

section Filling

variable {literal : List Char → List Char} {names : List String}

theorem fill_text {text rest : List Char} (h : '$' ∉ text) :
    fillPlaceholders literal (text ++ rest) = text ++ fillPlaceholders literal rest := by
  induction text with
  | nil => rfl
  | cons c text ih =>
    obtain ⟨hc, htext⟩ := not_or.mp (mt List.mem_cons.mpr h)
    rw [List.cons_append, fillPlaceholders, if_neg fun hopen => hc hopen.1.symm, ih htext]
    rfl

theorem fill_placeholder {inner rest : List Char} (h : '}' ∉ inner) :
    fillPlaceholders literal ('$' :: '{' :: (inner ++ '}' :: rest)) =
      '"' :: (literal inner ++ '"' :: fillPlaceholders literal rest) := by
  have hdrop : (inner ++ '}' :: rest).dropWhile (· != '}') = '}' :: rest :=
    dropWhile_append_cons (bne_of_not_mem h) rfl
  have htake : (inner ++ '}' :: rest).takeWhile (· != '}') = inner :=
    takeWhile_append_cons (bne_of_not_mem h) rfl
  rw [fillPlaceholders, if_pos ⟨rfl, rfl⟩]
  split
  · rename_i hnone
    rw [List.tail_cons, hdrop] at hnone
    cases hnone
  · rename_i hsome
    rw [List.tail_cons, hdrop] at hsome
    obtain ⟨rfl, rfl⟩ := List.cons.inj hsome
    rw [List.tail_cons, htake]

/-- The number and the name in a placeholder have no brace. -/
theorem closeBrace_not_mem {i : Nat} {n : String} (hn : '}' ∉ n.toList) :
    '}' ∉ (toString i ++ ":" ++ n).toList := by
  have hdigits : '}' ∉ (toString i).toList := by
    rw [Nat.toString_eq_repr, Nat.toList_repr]
    intro hmem
    cases Nat.isDigit_of_mem_toDigits (by decide) (by decide) hmem
  simp only [String.toList_append, List.mem_append, not_or]
  exact ⟨⟨hdigits, by decide⟩, hn⟩

theorem fill_argument {i : Nat} {n : String} {rest : List Char}
    (hn : '$' ∉ n.toList ∧ '}' ∉ n.toList) :
    fillPlaceholders literal
        ((n ++ ": $\x7b" ++ toString i ++ ":" ++ n ++ "\x7d").toList ++ rest) =
      argumentText (n, literal (toString i ++ ":" ++ n).toList) ++
        fillPlaceholders literal rest := by
  have hsplit : (n ++ ": $\x7b" ++ toString i ++ ":" ++ n ++ "\x7d").toList ++ rest =
      n.toList ++ ([':', ' '] ++
        ('$' :: '{' :: ((toString i ++ ":" ++ n).toList ++ '}' :: rest))) := by
    simp
  rw [hsplit, fill_text hn.1, fill_text (by decide), fill_placeholder (closeBrace_not_mem hn.2)]
  simp [argumentText]

theorem fill_placeholders (hnames : ∀ n ∈ names, '$' ∉ n.toList ∧ '}' ∉ n.toList) (i : Nat)
    (rest : List Char) :
    fillPlaceholders literal ((joinTexts ", " (placeholders i names)).toList ++ rest) =
      [',', ' '].intercalate ((filledArguments literal i names).map argumentText) ++
        fillPlaceholders literal rest := by
  induction names generalizing i with
  | nil => rfl
  | cons n names ih =>
    obtain ⟨hn, hmore⟩ := List.forall_mem_cons.mp hnames
    cases names with
    | nil =>
      rw [filledArguments, filledArguments, List.map_singleton, List.intercalate_singleton]
      exact fill_argument hn
    | cons m names =>
      have hjoin : (joinTexts ", " (placeholders i (n :: m :: names))).toList ++ rest =
          (n ++ ": $\x7b" ++ toString i ++ ":" ++ n ++ "\x7d").toList ++ ([',', ' '] ++
            ((joinTexts ", " (placeholders (i + 1) (m :: names))).toList ++ rest)) := by
        simp [placeholders, joinTexts]
      rw [hjoin, fill_argument hn, fill_text (by decide), ih hmore]
      simp [filledArguments, List.intercalate_cons_cons]

/-- What a call's snippet becomes. -/
theorem fill_callSnippet {label : String} (hlabel : '$' ∉ label.toList)
    (hnames : ∀ n ∈ names, '$' ∉ n.toList ∧ '}' ∉ n.toList) :
    fillPlaceholders literal (callSnippet label names).toList =
      callText label (filledArguments literal 1 names) := by
  have hsplit : (callSnippet label names).toList =
      label.toList ++ (['('] ++ ((joinTexts ", " (placeholders 1 names)).toList ++ [')'])) := by
    simp [callSnippet]
  rw [hsplit, fill_text hlabel, fill_text (by decide), fill_placeholders hnames,
    ← List.append_nil [')'], fill_text (by decide), fillPlaceholders]
  rfl

end Filling

end Editor

/-! ## Calls with strings -/

/-- An argument with a string as its value. -/
def stringArgument (a : String × List Char) : Argument :=
  ⟨a.1, .string (.ofList a.2) .origin, .origin⟩

/-- A call with strings as its arguments. -/
def stringCall (label : String) (arguments : List (String × List Char)) : Call :=
  ⟨label, arguments.map stringArgument, .origin⟩

section Calls

open Editor

variable {label : String} {arguments : List (String × List Char)}

theorem scans_argument {a : String × List Char} (hname : IsName a.1) (hbody : '"' ∉ a.2)
    {text : List Char} {ls : List Lexeme} (h : Scans text ls) (htext : Separates text) :
    Scans (argumentText a ++ text) ((stringArgument a).lexemes ++ ls) := by
  have hvalue := (h.word (.string hbody) htext).gap (c := ' ') rfl
  have hcolon := hvalue.mark (c := ':') (l := .colon) rfl
  have hscans := hcolon.word hname.denotes (by rintro _ ⟨⟩; decide)
  simpa [argumentText, stringArgument, Argument.lexemes, Expr.lexemes] using hscans

theorem scans_callText (hlabel : IsName label) (hnames : ∀ a ∈ arguments, IsName a.1)
    (hbodies : ∀ a ∈ arguments, '"' ∉ a.2) :
    Scans (callText label arguments) (stringCall label arguments).lexemes := by
  have harguments := @Scans.enclosed [] [] _ arguments argumentText
    (fun a => (stringArgument a).lexemes) .nil
    fun a ha _ _ h htext => scans_argument (hnames a ha) (hbodies a ha) h htext
  have hscans := harguments.word hlabel.denotes (by rintro _ ⟨⟩; decide)
  rw [stringCall, Call.lexemes, enclosedLexemes, List.map_map]
  exact hscans

theorem strip_callText (hlabel : IsName label) :
    Text.strip (callText label arguments) = callText label arguments := by
  obtain ⟨⟨c, hc, hblank⟩, -⟩ := hlabel.denotes.edges
  refine strip_eq_self ⟨c, List.mem_head?_append_of_mem_head? hc, hblank⟩ ⟨')', ?_, by decide⟩
  rw [callText, ← List.cons_append, ← List.append_assoc, List.getLast?_concat]
  rfl

theorem readable_stringCall (hlabel : IsName label) (hnames : ∀ a ∈ arguments, IsName a.1) :
    (stringCall label arguments).Readable := by
  refine ⟨hlabel.free, List.forall_mem_map.mpr fun a ha => ?_⟩
  exact ⟨(hnames a ha).free, trivial, trivial⟩

/-- What is read where such arguments are written has their names, and
strings as values. -/
theorem names_of_alike {xs : List Argument}
    (h : List.Forall₂ (Argument.Alike AnyPositions) xs (arguments.map stringArgument)) :
    xs.map Argument.name = arguments.map Prod.fst ∧
      ∀ x ∈ xs, ∃ s span, x.value = .string s span := by
  rw [List.forall₂_map_right_iff] at h
  induction h with
  | nil => exact ⟨rfl, List.forall_mem_nil _⟩
  | @cons x a _ _ halike _ ih =>
    obtain ⟨span, hvalue⟩ := Expr.SameOutline.of_string halike.value.outline.symm
    refine ⟨?_, List.forall_mem_cons.mpr ⟨⟨_, span, hvalue⟩, ih.2⟩⟩
    rw [List.map_cons, List.map_cons, halike.name, ih.1]
    rfl

/-! ## Snippets -/

/-- The text is one call. -/
def WritesCall (text : String) (c : Call) : Prop :=
  ∃ ts, tokensOf text = .ok ts ∧ (readCall (endOf ts) ts).Gives c []

/-- A text is one call at most. -/
theorem WritesCall.unique {text : String} {c c' : Call} (h : WritesCall text c)
    (h' : WritesCall text c') : c = c' := by
  obtain ⟨ts, hts, short, hc⟩ := h
  obtain ⟨ts', hts', short', hc'⟩ := h'
  obtain rfl := Except.ok.inj (hts.symm.trans hts')
  rw [hc] at hc'
  cases hc'
  rfl

theorem not_mem_of_isName {n : String} (h : IsName n) {x : Char} (hx : isNameChar x = false) :
    x ∉ n.toList := by
  intro hmem
  rw [(denotes_identifier h.denotes).2.2 x hmem] at hx
  cases hx

theorem mem_filledArguments {literal : List Char → List Char} {names : List String} {i : Nat}
    {a : String × List Char} (ha : a ∈ filledArguments literal i names) :
    a.1 ∈ names ∧ ∃ inner, a.2 = literal inner := by
  induction names generalizing i with
  | nil => cases ha
  | cons n names ih =>
    obtain rfl | ha := List.mem_cons.mp ha
    · exact ⟨List.mem_cons_self, _, rfl⟩
    · obtain ⟨hmem, hvalue⟩ := ih ha
      exact ⟨List.mem_cons_of_mem n hmem, hvalue⟩

theorem map_fst_filledArguments (literal : List Char → List Char) (names : List String) (i : Nat) :
    (filledArguments literal i names).map Prod.fst = names := by
  induction names generalizing i with
  | nil => rfl
  | cons n names ih => rw [filledArguments, List.map_cons, ih]

/-- The snippet of a call is one call, whatever strings it is filled with:
a call of what the snippet names, with an argument for each name that it
asks for and a string as its value. -/
theorem filled_is_call {names : List String} (hlabel : IsName label)
    (hnames : ∀ n ∈ names, IsName n)
    {literal : List Char → List Char} (hliteral : ∀ inner, '"' ∉ literal inner) :
    ∃ c, WritesCall (.ofList (fillPlaceholders literal (callSnippet label names).toList)) c ∧
      c.callee = label ∧ c.arguments.map Argument.name = names ∧
        ∀ x ∈ c.arguments, ∃ s span, x.value = .string s span := by
  have harguments : ∀ a ∈ filledArguments literal 1 names, IsName a.1 ∧ '"' ∉ a.2 := fun a ha => by
    obtain ⟨hmem, inner, hvalue⟩ := mem_filledArguments ha
    exact ⟨hnames _ hmem, hvalue ▸ hliteral inner⟩
  have htext : fillPlaceholders literal (callSnippet label names).toList =
      callText label (filledArguments literal 1 names) :=
    fill_callSnippet (not_mem_of_isName hlabel rfl)
      fun n hn => ⟨not_mem_of_isName (hnames n hn) rfl, not_mem_of_isName (hnames n hn) rfl⟩
  have hscans := scans_callText hlabel (fun a ha => (harguments a ha).1)
    fun a ha => (harguments a ha).2
  rw [← htext, ← String.toList_ofList (l := fillPlaceholders _ _)] at hscans
  obtain ⟨ts, hscan, hlexemes⟩ := hscans.scan_eq (by
    rw [String.toList_ofList, htext]
    exact strip_callText hlabel)
  obtain ⟨c, hread, halike⟩ := readCall_rereads (endOf ts)
    (readable_stringCall hlabel fun a ha => (harguments a ha).1) (Spells.iff_map_eq.mpr hlexemes)
    trivial
  obtain ⟨hnames', hvalues⟩ := names_of_alike halike.arguments
  rw [map_fst_filledArguments] at hnames'
  exact ⟨c, ⟨ts, tokensOf_of_ok hscan, hread⟩, halike.callee, hnames', hvalues⟩

end Calls

end ShapeScript
