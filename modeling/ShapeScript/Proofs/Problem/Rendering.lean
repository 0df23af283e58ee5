/-
ShapeScript.Proofs.Problem.Rendering — messages are templates filled in
once.

A template is a text with names in braces. `substitute` fills it in: it
reads the template from left to right, once, and puts in for each name in
braces what is looked up under it. What was put in is never read, so a
brace in it is a brace of the message.

`problem_renders` says that this is what a problem's message is, whatever
the problem: its details have all the fields of its template, each field
stands in the message as it is displayed, and the two ways of showing the
problem put its position in front.
-/
import ShapeScript.Proofs.Fallible
import ShapeScript.Proofs.Problem
import ShapeScript.Proofs.Token.LongestMatch

namespace ShapeScript

/-! ## Definitions -/

/-- A piece of a template as it is written: a field is its name in
braces. -/
def Piece.written : Piece → List Char
  | text s => s.toList
  | field n => '{' :: (n.toList ++ ['}'])

/-- The template of a code as it is written. -/
def Code.written (c : Code) : List Char := c.template.flatMap Piece.written

/-- Fills in a template in one pass: a name in braces is replaced by what is
looked up under it, and everything else is kept. It fails if there is
nothing under a name, or if a brace is not closed. -/
def substitute (look : String → Option String) (template : List Char) : Option (List Char) :=
  match template with
  | [] => some []
  | c :: rest =>
    if c = '{' then
      match _h : rest.dropWhile (· != '}') with
      | [] => none
      | _ :: after =>
        (look (String.ofList (rest.takeWhile (· != '}')))).bind fun s =>
          (substitute look after).map (s.toList ++ ·)
    else (substitute look rest).map (c :: ·)
termination_by template.length
decreasing_by
  · have hlength := List.length_dropWhile_le (· != '}') rest
    rw [_h] at hlength
    exact Nat.lt_succ_of_lt (Nat.lt_of_succ_le hlength)
  · exact Nat.lt_succ_self _

/-- How a problem displays its detail of a name: the frames of a stack one
on a line, other details as they are. -/
def Problem.fieldText (p : Problem) (n : String) : Option String :=
  (p.details.lookup n).bind fun d =>
    if p.code = .stackOverflow then d.frames?.map (joinTexts "\n    ") else some d.display

/-- A position in words, counted from one. -/
def Position.place (pos : Position) : String :=
  "(Line: " ++ toString (pos.line + 1) ++ ", Column: " ++ toString (pos.column + 1) ++ ")"

/-- The text of a piece when fields are looked up. -/
def Piece.expanded (look : String → Option String) : Piece → Option String
  | text s => some s
  | field n => look n

/-- No brace stands in the piece except around a name. -/
def Piece.isPlain : Piece → Bool
  | text s => !s.toList.contains '{'
  | field n => !n.toList.contains '}'

/-! ## Filling in -/

section Substitution

variable {look : String → Option String} {pieces : List Piece}

theorem substitute_text {s rest : List Char} (h : '{' ∉ s) :
    substitute look (s ++ rest) = (substitute look rest).map (s ++ ·) := by
  induction s with
  | nil => simp
  | cons c s ih =>
    obtain ⟨hc, hs⟩ := not_or.mp (mt List.mem_cons.mpr h)
    rw [List.cons_append, substitute, if_neg (Ne.symm hc), ih hs, Option.map_map]
    rfl

theorem substitute_field {name rest : List Char} (h : '}' ∉ name) :
    substitute look ('{' :: (name ++ '}' :: rest)) =
      (look (String.ofList name)).bind fun s => (substitute look rest).map (s.toList ++ ·) := by
  have hdrop : (name ++ '}' :: rest).dropWhile (· != '}') = '}' :: rest :=
    dropWhile_append_cons (bne_of_not_mem h) rfl
  have htake : (name ++ '}' :: rest).takeWhile (· != '}') = name :=
    takeWhile_append_cons (bne_of_not_mem h) rfl
  rw [substitute, if_pos rfl]
  split
  · rename_i hnone
    rw [hdrop] at hnone
    cases hnone
  · rename_i hsome
    rw [hdrop] at hsome
    obtain ⟨rfl, rfl⟩ := List.cons.inj hsome
    rw [htake]

/-- A template that is written out is filled in piece by piece. -/
theorem substitute_written (h : pieces.all Piece.isPlain) :
    substitute look (pieces.flatMap Piece.written) =
      (pieces.mapM (Piece.expanded look)).map fun texts => (String.join texts).toList := by
  induction pieces with
  | nil => simp [substitute]
  | cons piece pieces ih =>
    rw [List.all_cons, Bool.and_eq_true] at h
    rw [List.flatMap_cons, List.mapM_cons]
    cases piece with
    | text s =>
      have hs : '{' ∉ s.toList := by simpa [Piece.isPlain] using h.1
      rw [Piece.written, substitute_text hs, ih h.2]
      cases pieces.mapM (Piece.expanded look) <;> simp [Piece.expanded]
    | field n =>
      have hn : '}' ∉ n.toList := by simpa [Piece.isPlain] using h.1
      rw [Piece.written, List.cons_append, List.append_assoc, List.singleton_append,
        substitute_field hn, ih h.2, String.ofList_toList]
      cases hlook : look n <;> cases pieces.mapM (Piece.expanded look) <;>
        simp [Piece.expanded, hlook]

/-- What a field is replaced by stands in the filled template. -/
theorem infix_of_expanded {texts : List String} (h : pieces.mapM (Piece.expanded look) = some texts)
    {n : String} (hn : .field n ∈ pieces) :
    ∃ s, look n = some s ∧ s.toList <:+: (String.join texts).toList := by
  induction pieces generalizing texts with
  | nil => cases hn
  | cons piece pieces ih =>
    rw [List.mapM_cons] at h
    obtain ⟨s, hs, h⟩ := Option.bind_eq_some_iff.mp h
    obtain ⟨more, hmore, h⟩ := Option.bind_eq_some_iff.mp h
    obtain rfl := Option.some.inj h
    rw [String.join_cons, String.toList_append]
    obtain rfl | hn := List.mem_cons.mp hn
    · exact ⟨s, hs, (List.prefix_append _ _).isInfix⟩
    · obtain ⟨t, ht, hinfix⟩ := ih hmore hn
      exact ⟨t, ht, hinfix.trans (List.suffix_append _ _).isInfix⟩

end Substitution

/-! ## The templates of problems -/

/-- Filling the fields of a template with details is to look each of them
up and to join what was found. -/
theorem expanded_of_fillTemplate {details : Details} {look : String → Option String}
    (hlook : ∀ n, look n = (details.lookup n).map Detail.display) {pieces : List Piece} {s : String}
    (h : fillTemplate details pieces = .ok s) :
    ∃ texts, pieces.mapM (Piece.expanded look) = some texts ∧ String.join texts = s := by
  induction pieces generalizing s with
  | nil =>
    cases h
    exact ⟨[], rfl, rfl⟩
  | cons piece pieces ih =>
    -- the text that the piece gives, and what the rest of the template gives
    have hparts : ∃ t u, piece.expanded look = some t ∧ fillTemplate details pieces = .ok u ∧
        t ++ u = s := by
      cases piece with
      | text t =>
        obtain ⟨u, hu, rfl⟩ := map_eq_ok.mp h
        exact ⟨t, u, rfl, hu, rfl⟩
      | field n =>
        rw [fillTemplate] at h
        split at h
        · cases h
        · rename_i d hd
          obtain ⟨u, hu, rfl⟩ := map_eq_ok.mp h
          exact ⟨d.display, u, by simp [Piece.expanded, hlook, hd], hu, rfl⟩
    obtain ⟨t, u, ht, hu, rfl⟩ := hparts
    obtain ⟨texts, htexts, rfl⟩ := ih hu
    refine ⟨t :: texts, ?_, String.join_cons⟩
    simp [List.mapM_cons, ht, htexts]

theorem template_isPlain (c : Code) : c.template.all Piece.isPlain := by
  cases c <;> decide +kernel

/-- Only a stack is displayed in another way than details are elsewhere. -/
theorem fieldText_of_code_ne {p : Problem} (h : p.code ≠ .stackOverflow) (n : String) :
    p.fieldText n = (p.details.lookup n).map Detail.display := by
  simp only [Problem.fieldText, if_neg h]
  cases p.details.lookup n <;> rfl

theorem expanded_of_code_ne {p : Problem} (h : p.code ≠ .stackOverflow)
    (hfill : fillTemplate p.details p.code.template = .ok p.message) :
    ∃ texts, p.code.template.mapM (Piece.expanded p.fieldText) = some texts ∧
      String.join texts = p.message :=
  expanded_of_fillTemplate (fieldText_of_code_ne h) hfill

/-- The frames of a stack stand in the template one on a line. -/
theorem expanded_overflow (frames : List String) (pos : Position) :
    (Code.template .stackOverflow).mapM
        (Piece.expanded (Problem.fieldText (.eval ⟨.stackOverflow frames, pos⟩))) =
      some ["Stack overflow\n    ", joinTexts "\n    " frames] := by
  have hframes : Problem.fieldText (.eval ⟨.stackOverflow frames, pos⟩) "frames" =
      some (joinTexts "\n    " frames) := by
    simp only [Problem.fieldText, Problem.code, EvalFault.code, Problem.details, EvalFault.details,
      List.lookup_cons_self, Option.bind_some, if_true, frames?_texts, Option.map_some]
  simp only [Code.template, List.mapM_cons, List.mapM_nil, Piece.expanded, hframes]
  rfl

/-- The template of a problem expands to the problem's message. -/
theorem expanded_template (p : Problem) :
    ∃ texts, p.code.template.mapM (Piece.expanded p.fieldText) = some texts ∧
      String.join texts = p.message := by
  obtain ⟨fault, pos⟩ | ⟨fault, pos⟩ | ⟨fault, pos⟩ := p
  · exact expanded_of_code_ne (by cases fault <;> nofun) (fillTemplate_lexFault fault)
  · exact expanded_of_code_ne (by cases fault <;> nofun) (fillTemplate_parseFault fault)
  · by_cases hoverflow : ∃ frames, fault = .stackOverflow frames
    · obtain ⟨frames, rfl⟩ := hoverflow
      refine ⟨_, expanded_overflow frames pos, ?_⟩
      rw [String.join_cons, String.join_cons, String.join_nil, String.append_empty]
      rfl
    · have hne : ∀ frames, fault ≠ .stackOverflow frames := fun frames h => hoverflow ⟨frames, h⟩
      refine expanded_of_code_ne ?_ (fillTemplate_evalFault fault hne)
      cases fault with
      | stackOverflow frames => exact absurd rfl (hne frames)
      | _ => nofun

/-- Every problem has a message, and it is the template of its code filled
in once. The details have every field of the template, and what a field is
displayed as stands in the message as it is, whatever its characters. The
message is shown below its place counted from one, after the name of the
file if there is one, or on the line of its position counted from zero. -/
theorem problem_renders (p : Problem) :
    p.report.message = .ok p.message ∧
      substitute p.fieldText p.code.written = some p.message.toList ∧
      (∀ n, .field n ∈ p.code.template → ∃ d s, p.details.lookup n = some d ∧
        p.fieldText n = some s ∧ s.toList <:+: p.message.toList) ∧
      (∀ file, file = none ∨ file = some "" →
        p.report.render file = .ok ("Error " ++ p.pos.place ++ ":\n" ++ p.message)) ∧
      (∀ path, path ≠ "" → p.report.render (some path) =
        .ok ("Error in '" ++ path ++ "' " ++ p.pos.place ++ ":\n" ++ p.message)) ∧
      p.report.compact =
        .ok ("[" ++ toString p.pos.line ++ ":" ++ toString p.pos.column ++ "]: " ++ p.message) := by
  obtain ⟨texts, htexts, hmessage⟩ := expanded_template p
  have hrender : ∀ file, p.report.render file =
      .ok (renderAt file p.pos.line p.pos.column p.message) := fun file => by
    rw [Report.render, message_report]
    rfl
  have hplace : ∀ heading : String, heading ++ ("(Line: " ++ toString (p.pos.line + 1) ++
      ", Column: " ++ toString (p.pos.column + 1) ++ "):\n") ++ p.message =
        heading ++ p.pos.place ++ ":\n" ++ p.message := fun heading => by
    have hcolon : "):\n" = ")" ++ ":\n" := by decide
    rw [Position.place, hcolon]
    simp only [String.append_assoc]
  refine ⟨message_report p, ?_, fun n hn => ?_, ?_, fun path hpath => ?_, ?_⟩
  · rw [Code.written, substitute_written (template_isPlain p.code), htexts, Option.map_some,
      hmessage]
  · obtain ⟨s, hs, hinfix⟩ := infix_of_expanded htexts hn
    obtain ⟨d, hd, -⟩ := Option.bind_eq_some_iff.mp hs
    exact ⟨d, s, hd, hs, hmessage ▸ hinfix⟩
  · rintro file (rfl | rfl)
    · rw [hrender, ← hplace]
      rfl
    · rw [hrender, ← hplace]
      rfl
  · rw [hrender, ← hplace, renderAt]
    exact hpath
  · rw [Report.compact, message_report]
    rfl

/-- Both fields have a brace, and neither brace is read as one of the
template's. -/
theorem bracedFields_render :
    let p := Problem.parse ⟨.expected "'\x7b' to open the shape body" .closeBrace, ⟨0, 8⟩⟩
    p.message = "Expected '\x7b' to open the shape body. Found a closing brace '\x7d'." ∧
      substitute p.fieldText p.code.written = some p.message.toList ∧
      "'\x7b' to open the shape body".toList <:+: p.message.toList := by
  refine ⟨by decide +kernel, (problem_renders _).2.1, ?_⟩
  obtain ⟨d, s, hd, hs, hinfix⟩ := (problem_renders
    (.parse ⟨.expected "'\x7b' to open the shape body" .closeBrace, ⟨0, 8⟩⟩)).2.2.1 "what"
      (by decide)
  cases hs
  exact hinfix

end ShapeScript
