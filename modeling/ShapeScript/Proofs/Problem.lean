/-
ShapeScript.Proofs.Problem — the message of a problem.

A problem has its message by itself, and also by way of the template of
its code and the details that fill it. `message_report` says that the
second way never fails and gives the same: the details of every fault
have all the fields that the template wants, with values that fit, and
none has the name of something that a report has anyway.
-/
import ShapeScript.Problem.Report

namespace ShapeScript

/-! ## Details -/

/-- Texts are joined as the lists of their characters are. -/
theorem toList_joinTexts (separator : String) (texts : List String) :
    (joinTexts separator texts).toList =
      separator.toList.intercalate (texts.map String.toList) := by
  induction texts with
  | nil => rfl
  | cons s texts ih =>
    cases texts with
    | nil => rw [joinTexts, List.map_singleton, List.intercalate_singleton]
    | cons s' texts =>
      simp only [joinTexts, String.toList_append, ih, List.map_cons, List.intercalate_cons_cons]

/-- A list of texts is shown with commas, and has one frame for each. -/
theorem display_texts (texts : List String) :
    (Detail.list (texts.map .text)).display = joinTexts ", " texts := by
  have hitems : (texts.map DetailItem.text).map DetailItem.display = texts := by
    rw [List.map_map]
    exact List.map_id texts
  rw [Detail.display, hitems]

theorem frames?_texts (texts : List String) :
    (Detail.list (texts.map .text)).frames? = some texts := by
  simp only [Detail.frames?]
  induction texts with
  | nil => rfl
  | cons s texts ih => simp [List.mapM_cons, ih]

theorem display_text (s : String) : (Detail.text s).display = s := rfl

theorem display_count (n : Nat) : (Detail.int n).display = toString n := rfl

/-- No detail of a problem has a name that is taken. -/
theorem find?_ownNames (p : Problem) :
    (p.details.find? fun d => ownNames.contains d.1) = none := by
  obtain ⟨fault, pos⟩ | ⟨fault, pos⟩ | ⟨fault, pos⟩ := p
  · cases fault <;> simp [Problem.details, LexFault.details, ownNames]
  · cases fault <;> simp [Problem.details, ParseFault.details, ownNames]
  · cases fault <;> simp [Problem.details, EvalFault.details, ownNames]

/-! ## Templates -/

theorem fillTemplate_lexFault (f : LexFault) :
    fillTemplate f.details f.code.template = .ok f.message := by
  unfold LexFault.message LexFault.details LexFault.code Code.template
  cases f <;> simp only [fillTemplate, List.lookup_cons_self, Except.map, Detail.display,
    String.append_assoc, String.append_empty]

theorem fillTemplate_parseFault (f : ParseFault) :
    fillTemplate f.details f.code.template = .ok f.message := by
  unfold ParseFault.message ParseFault.details ParseFault.code Code.template
  cases f <;> simp [fillTemplate, List.lookup_cons, Except.map, Detail.display,
    String.append_assoc]

/-- An overflow has a message of its own, so its template is not filled
in. -/
theorem fillTemplate_evalFault (f : EvalFault) (hf : ∀ frames, f ≠ .stackOverflow frames) :
    fillTemplate f.details f.code.template = .ok f.message := by
  unfold EvalFault.message EvalFault.details EvalFault.code Code.template
  cases f with
  | stackOverflow frames => exact absurd rfl (hf frames)
  | missingArguments name missing =>
    simp [fillTemplate, List.lookup_cons, Except.map, display_texts, display_text,
      String.append_assoc]
  | argumentCount name expected received =>
    simp [fillTemplate, List.lookup_cons, Except.map, display_count, display_text,
      String.append_assoc]
  | _ => simp [fillTemplate, List.lookup_cons, Except.map, Detail.display, String.append_assoc]

/-! ## Messages -/

theorem lookup_found (what : String) (found : LexemeKind) :
    (ParseFault.expected what found).details.lookup "found" = some (.kind found) := by
  simp [ParseFault.details, List.lookup_cons]

theorem sentence_report (p : Problem) : p.report.sentence = .ok p.message := by
  -- two faults have branches of their own: a lexeme that was not wanted, where
  -- what was found is looked up first, and an overflow
  obtain e | ⟨fault, pos⟩ | ⟨fault, pos⟩ := p
  · exact fillTemplate_lexFault e.fault
  · have hfill := fillTemplate_parseFault fault
    cases fault with
    | expected what found =>
      have hfound := lookup_found what found
      simp only [Report.sentence, Problem.report, Problem.stage, Problem.code, Problem.details,
        ParseFault.code, hfound]
      exact hfill
    | _ => exact hfill
  · by_cases hoverflow : ∃ frames, fault = .stackOverflow frames
    · obtain ⟨frames, rfl⟩ := hoverflow
      simp only [Report.sentence, Problem.report, Problem.stage, Problem.code, Problem.details,
        EvalFault.code, EvalFault.details, Report.overflow, List.lookup_cons_self,
        frames?_texts frames]
      rfl
    · have hfill := fillTemplate_evalFault fault fun frames h => hoverflow ⟨frames, h⟩
      cases fault with
      | stackOverflow frames => exact absurd ⟨frames, rfl⟩ hoverflow
      | _ => exact hfill

/-- The report of a problem has a message, and it is the problem's. -/
theorem message_report (p : Problem) : p.report.message = .ok p.message := by
  have hfree : (p.report.details.find? fun d => ownNames.contains d.1) = none :=
    find?_ownNames p
  rw [Report.message, hfree]
  exact sentence_report p

end ShapeScript
