/-
ShapeScript.Proofs.Token.Writing — texts put together from lexemes.

`Scans text ls` says that the text is cut into the lexemes `ls`, from
whatever position, up to its end. Such texts are put together from behind:
a gap or the characters of one more lexeme go in front of what is scanned
already. The characters of a lexeme must not go on into what follows them
(`Scans.word`), unless the lexeme is a mark.

Items of a list in parentheses are followed by a comma or by the closing
parenthesis, so it is enough to know how each of them is scanned in front
of a text that it does not go on into (`Scans.enclosed`).
-/
import ShapeScript.Proofs.Token.Layout

namespace ShapeScript

/-- From any position the text is cut into the lexemes, up to its end. -/
def Scans (text : List Char) (ls : List Lexeme) : Prop :=
  ∀ p, ∃ ts q, Cut p text ts q [] ∧ ts.map Token.lexeme = ls

namespace Scans

variable {text w : List Char} {l : Lexeme} {ls : List Lexeme} {c : Char}

theorem nil : Scans [] [] := fun p => ⟨[], p, .nil, rfl⟩

theorem gap (h : Scans text ls) (hc : isGap c) : Scans (c :: text) ls := by
  intro p
  obtain ⟨ts, q, hcut, rfl⟩ := h (p.after c text.head?)
  exact ⟨ts, q, .gap hc hcut, rfl⟩

theorem lexeme (h : Scans text ls) (hw : Longest w l (w ++ text)) :
    Scans (w ++ text) (l :: ls) := by
  intro p
  obtain ⟨ts, q, hcut, rfl⟩ := h (p.over w text)
  exact ⟨_, q, .lexeme hw hcut, rfl⟩

theorem mark (h : Scans text ls) (hc : Lexeme.ofChar? c = some l) :
    Scans (c :: text) (l :: ls) :=
  @lexeme text [c] l ls h (longest_mark hc text)

theorem word (h : Scans text ls) (hw : Denotes w l) (htext : Separates text) :
    Scans (w ++ text) (l :: ls) :=
  h.lexeme (longest_of_separates hw htext)

/-- What is scanned is a text without blanks around it. -/
theorem scan_eq {source : String} (h : Scans source.toList ls)
    (hstrip : Text.strip source.toList = source.toList) :
    ∃ ts, scan source = .ok ts ∧ ts.map Token.lexeme = ls := by
  obtain ⟨ts, q, hcut, hls⟩ := h .origin
  exact ⟨ts, scan_of_cut (q := q) (hstrip.symm ▸ hcut), hls⟩

/-! ## Lists -/

section Lists

variable {α : Type} {items : List α} {chars : α → List Char} {write : α → List Lexeme}

/-- Items with commas between them. -/
theorem joined (h : Scans text ls) (htext : Separates text)
    (hitems : ∀ a ∈ items, ∀ {text ls}, Scans text ls → Separates text →
      Scans (chars a ++ text) (write a ++ ls)) :
    Scans ([',', ' '].intercalate (items.map chars) ++ text)
      ([Lexeme.comma].intercalate (items.map write) ++ ls) := by
  induction items with
  | nil => exact h
  | cons a items ih =>
    obtain ⟨hitem, hmore⟩ := List.forall_mem_cons.mp hitems
    cases items with
    | nil =>
      rw [List.map_singleton, List.map_singleton, List.intercalate_singleton,
        List.intercalate_singleton]
      exact hitem h htext
    | cons b items =>
      have hcomma := ((ih hmore).gap (c := ' ') rfl).mark (c := ',') (l := .comma) rfl
      have hscans := hitem hcomma (by rintro _ ⟨⟩; decide)
      simpa [List.intercalate_cons_cons] using hscans

/-- Items with commas between them, in parentheses. -/
theorem enclosed (h : Scans text ls)
    (hitems : ∀ a ∈ items, ∀ {text ls}, Scans text ls → Separates text →
      Scans (chars a ++ text) (write a ++ ls)) :
    Scans ('(' :: ([',', ' '].intercalate (items.map chars) ++ ')' :: text))
      (.openParen :: ([Lexeme.comma].intercalate (items.map write) ++ .closeParen :: ls)) := by
  have hclose := h.mark (c := ')') (l := .closeParen) rfl
  have hjoined := hclose.joined (by rintro _ ⟨⟩; decide) hitems
  exact hjoined.mark rfl

end Lists

end Scans

end ShapeScript
