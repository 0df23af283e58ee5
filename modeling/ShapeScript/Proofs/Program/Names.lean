/-
ShapeScript.Proofs.Program.Names — the names that a program declares.

What a program calls its shapes and their parameters was read as a name,
so it was written as one, with a letter first, and it is not a reserved
word. `isName_of_parse` says so, from the token that each name was read
from: the readers take their tokens from the front, and so a token that a
reader of a part has seen is a token of the whole.
-/
import ShapeScript.Editor.Signature
import ShapeScript.Proofs.Program.Recognition
import ShapeScript.Proofs.Token.Spans

namespace ShapeScript

/-- A word that can be given as a name. -/
structure IsName (n : String) : Prop where
  denotes : Denotes n.toList (.identifier n)
  free : isReserved n = false

/-- The characters are those of a name that is not reserved. -/
def spellsName : List Char → Bool
  | [] => false
  | c :: cs => isLetter c && cs.all isNameChar && !isReserved (.ofList (c :: cs))

theorem isName_of_spellsName {n : String} (h : spellsName n.toList) : IsName n := by
  unfold spellsName at h
  split at h
  · cases h
  · rename_i c cs hchars
    simp only [Bool.and_eq_true, Bool.not_eq_true', List.all_eq_true] at h
    rw [← hchars, String.ofList_toList] at h
    have hn := Denotes.identifier h.1.1 h.1.2
    rw [← hchars, String.ofList_toList] at hn
    exact ⟨hn, h.2⟩

/-- The name was read from one of the tokens, and it is not reserved. -/
structure NameIn (ts : List Token) (n : String) : Prop where
  mem : .identifier n ∈ ts.map Token.lexeme
  free : isReserved n = false

/-- A name among the last tokens is among all of them. -/
theorem NameIn.of_suffix {ts' ts : List Token} {n : String} (h : NameIn ts' n) (hts : ts' <:+ ts) :
    NameIn ts n :=
  ⟨(hts.map Token.lexeme).subset h.mem, h.free⟩

theorem Spells.suffix {ts rest : List Token} {w : List Lexeme} (h : Spells ts w rest) :
    rest <:+ ts := by
  obtain ⟨used, rfl, -⟩ := h
  exact List.suffix_append used rest

/-! ## Readers -/

section Readers

variable {finish : Position} {α : Type} {ts rest : List Token}

theorem nameIn_of_readName {s : Spelled} (h : (readName finish ts).Gives s rest) :
    NameIn ts s.name ∧ rest <:+ ts := by
  obtain ⟨rfl, hfree⟩ := gives_readName.mp h
  exact ⟨⟨List.mem_map.mpr ⟨_, List.mem_cons_self, rfl⟩, hfree⟩, List.suffix_cons _ _⟩

theorem nameIn_of_readParameter {p : Parameter} (h : (readParameter finish ts).Gives p rest) :
    NameIn ts p.name ∧ rest <:+ ts := by
  refine ⟨?_, ((readParameter_recognises finish).sound h).1.suffix⟩
  obtain ⟨s, middle, hname, ⟨-, rfl, -⟩ | ⟨_, _, _, -, -, -, rfl⟩⟩ :=
    (gives_readParameter finish).mp h
  · exact (nameIn_of_readName hname).1
  · exact (nameIn_of_readName hname).1

variable {item : (ts : List Token) → Reading α ts.length} {name : α → String}

theorem nameIn_of_readSeparated
    (hitem : ∀ {ts a rest}, (item ts).Gives a rest → NameIn ts (name a) ∧ rest <:+ ts)
    {as : List α} (h : (readSeparated item ts).Gives as rest) : ∀ a ∈ as, NameIn ts (name a) := by
  induction as generalizing ts with
  | nil => exact absurd rfl (readSeparated_ne_nil h)
  | cons a as ih =>
    obtain ⟨_, middle, ha, hmore⟩ := gives_readSeparated.mp h
    obtain ⟨-, hlast, -⟩ | ⟨t, more, as', rfl, -, has, hcons⟩ := hmore
    · obtain ⟨rfl, rfl⟩ := List.cons.inj hlast
      exact List.forall_mem_singleton.mpr (hitem ha).1
    · obtain ⟨rfl, rfl⟩ := List.cons.inj hcons
      obtain ⟨hname, hsuffix⟩ := hitem ha
      have hmore : more <:+ ts := (List.suffix_cons t more).trans hsuffix
      exact List.forall_mem_cons.mpr ⟨hname, fun b hb => (ih has b hb).of_suffix hmore⟩

theorem nameIn_of_readEnclosed
    (hitem : ∀ {ts a rest}, (item ts).Gives a rest → NameIn ts (name a) ∧ rest <:+ ts)
    {closing : String} {as : List α × Token}
    (h : (readEnclosed finish item closing ts).Gives as rest) :
    ∀ a ∈ as.1, NameIn ts (name a) := by
  rw [readEnclosed] at h
  split at h
  · obtain ⟨t, -, rfl⟩ := Reading.gives_map.mp h
    exact List.forall_mem_nil _
  · obtain ⟨items, middle, hitems, hclose⟩ := Reading.gives_thenRead.mp h
    obtain ⟨t, -, rfl⟩ := Reading.gives_map.mp hclose
    exact nameIn_of_readSeparated hitem hitems

/-- A declaration takes its names from its tokens. -/
theorem nameIn_of_readShape {s : Shape} (h : (readShape finish ts).Gives s rest) :
    ∀ n ∈ s.name :: s.parameterNames, NameIn ts n := by
  obtain ⟨keyword, afterKeyword, hkeyword, h⟩ := Reading.gives_thenRead.mp h
  obtain ⟨n, afterName, hname, h⟩ := Reading.gives_thenRead.mp h
  obtain ⟨t, afterOpen, hopen, h⟩ := Reading.gives_thenRead.mp h
  obtain ⟨⟨ps, close⟩, afterParameters, hps, h⟩ := Reading.gives_thenRead.mp h
  obtain ⟨b, hb, rfl⟩ := Reading.gives_map.mp h
  obtain ⟨rfl, -⟩ := (gives_readKeyword finish).mp hkeyword
  obtain ⟨rfl, -⟩ := (gives_expect_mark (m := .openParen) (by decide)).mp hopen
  obtain ⟨hn, hafterName⟩ := nameIn_of_readName hname
  have hshape : afterKeyword <:+ keyword :: afterKeyword := List.suffix_cons _ _
  have hparameters := ((List.suffix_cons t afterOpen).trans hafterName).trans hshape
  refine List.forall_mem_cons.mpr ⟨hn.of_suffix hshape, List.forall_mem_map.mpr fun p hp => ?_⟩
  exact (nameIn_of_readEnclosed nameIn_of_readParameter hps p hp).of_suffix hparameters

theorem nameIn_of_readShapes {shapes : List Shape} (h : (readShapes finish ts).Gives shapes rest) :
    ∀ s ∈ shapes, ∀ n ∈ s.name :: s.parameterNames, NameIn ts n := by
  induction shapes generalizing ts with
  | nil => exact List.forall_mem_nil _
  | cons s shapes ih =>
    obtain ⟨hnil, -⟩ | ⟨s', middle, shapes', -, hs, hshapes, hcons⟩ :=
      (gives_readShapes finish).mp h
    · cases hnil
    · obtain ⟨rfl, rfl⟩ := List.cons.inj hcons
      have hmiddle := ((readShape_recognises finish).sound hs).1.suffix
      exact List.forall_mem_cons.mpr ⟨nameIn_of_readShape hs,
        fun s' hs' n hn => (ih hshapes s' hs' n hn).of_suffix hmiddle⟩

end Readers

/-! ## Programs -/

/-- A token of a source is written by some of its characters. -/
theorem ReadAlong.denotes {text : List Char} {i : Nat} {ts : List Token}
    (h : ReadAlong text i ts) : ∀ t ∈ ts, ∃ w, Denotes w t.lexeme := by
  induction h with
  | nil => exact List.forall_mem_nil _
  | cons _ _ hchars _ _ ih => exact List.forall_mem_cons.mpr ⟨⟨_, hchars⟩, ih⟩

/-- Every token of a source was written in it. -/
theorem denotes_of_scan {source : String} {ts : List Token} {l : Lexeme}
    (hscan : scan source = .ok ts) (hl : l ∈ ts.map Token.lexeme) : ∃ w, Denotes w l := by
  obtain ⟨t, ht, rfl⟩ := List.mem_map.mp hl
  exact (readAlong_of_scan hscan).denotes t ht

/-- The shapes of a program and their parameters have names. -/
theorem isName_of_parse {source : String} {ts : List Token} {p : Program}
    (hscan : scan source = .ok ts) (hparse : parseProgram ts = .ok p) :
    ∀ s ∈ p.shapes, ∀ n ∈ s.name :: s.parameterNames, IsName n := by
  intro s hs n hn
  obtain ⟨shapes, hshapes, rfl⟩ := parseProgram_eq_ok.mp hparse
  obtain ⟨hmem, hfree⟩ := nameIn_of_readShapes hshapes s hs n hn
  obtain ⟨w, hw⟩ := denotes_of_scan hscan hmem
  exact ⟨(denotes_identifier hw).1 ▸ hw, hfree⟩

end ShapeScript
