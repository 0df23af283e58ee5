/-
ShapeScript.Proofs.Json.RoundTrip — JSON texts read back.

A text whose parts are set apart by nothing but white space is read as
the value it was written for (`parse?_text`), provided that no object has
two members of one name. The induction is on the value; what it carries
is that the text is read whatever follows, as long as that does not go on
with a number, and what follows an item or a member is a comma, white
space or a bracket.
-/
import ShapeScript.Proofs.Json.Scalars

namespace ShapeScript.Json

variable {cs rest : List Char}

/-! ## White space -/

theorem skipSpace_append {space : List Char} (h : ∀ c ∈ space, isSpace c = true) :
    skipSpace (space ++ cs) = skipSpace cs :=
  List.dropWhile_append_of_pos h

theorem skipSpace_cons {c : Char} (h : isSpace c = false) : skipSpace (c :: cs) = c :: cs := by
  simp [skipSpace, h]

/-- Nothing but white space is put between the parts of a text. -/
def Layout.IsBlank : Layout → Prop
  | oneLine => True
  | indented unit => ∀ c ∈ unit.toList, isSpace c = true

section Layout

variable {layout : Layout} {level : Nat}

theorem isSpace_newline (hlayout : layout.IsBlank) (level : Nat) :
    ∀ c ∈ (layout.newline level).toList, isSpace c = true := by
  cases layout with
  | oneLine => nofun
  | indented unit =>
    intro c hc
    simp only [Layout.newline, String.toList_append, String.toList_join, List.mem_append,
      List.mem_flatMap] at hc
    obtain hc | ⟨u, hu, hc⟩ := hc
    · rw [List.mem_singleton.mp hc]
      rfl
    · rw [List.eq_of_mem_replicate hu] at hc
      exact hlayout c hc

theorem skipSpace_newline (hlayout : layout.IsBlank) (level : Nat) (h : skipSpace cs = cs) :
    skipSpace ((layout.newline level).toList ++ cs) = cs :=
  (skipSpace_append (isSpace_newline hlayout level)).trans h

/-- Items are separated by a comma and white space. -/
theorem toList_separator (hlayout : layout.IsBlank) (level : Nat) : ∃ space : List Char,
    (layout.separator level).toList = ',' :: space ∧ ∀ c ∈ space, isSpace c = true := by
  cases layout with
  | oneLine => exact ⟨[' '], by simp [Layout.separator], List.forall_mem_singleton.mpr rfl⟩
  | indented unit =>
    refine ⟨_, ?_, isSpace_newline hlayout level⟩
    rw [Layout.separator, String.toList_append]
    rfl

/-- What follows the first of the texts in brackets, and then this. -/
def afterFirst (layout : Layout) (level : Nat) (closing : Char) (texts : List String)
    (rest : List Char) : List Char :=
  texts.flatMap (fun t => (layout.separator (level + 1)).toList ++ t.toList) ++
    ((layout.newline level).toList ++ closing :: rest)

theorem toList_bracketed_append {opening closing : String} {c d : Char}
    (hopening : opening.toList = [c]) (hclosing : closing.toList = [d]) (text : String)
    (texts : List String) (rest : List Char) :
    (bracketed layout level opening closing (text :: texts)).toList ++ rest =
      c :: ((layout.newline (level + 1)).toList ++
        (text.toList ++ afterFirst layout level d texts rest)) := by
  simp [bracketed, afterFirst, String.toList_join, List.flatMap_map, hopening, hclosing]

theorem skipSpace_afterFirst_nil (hlayout : layout.IsBlank) {closing : Char}
    (hclosing : isSpace closing = false) :
    skipSpace (afterFirst layout level closing [] rest) = closing :: rest := by
  rw [afterFirst, List.flatMap_nil, List.nil_append, skipSpace_append (isSpace_newline hlayout level),
    skipSpace_cons hclosing]

theorem afterFirst_cons (hlayout : layout.IsBlank) (closing : Char) (t : String) (ts : List String)
    (rest : List Char) :
    ∃ space : List Char, (∀ c ∈ space, isSpace c = true) ∧
      afterFirst layout level closing (t :: ts) rest =
        ',' :: (space ++ (t.toList ++ afterFirst layout level closing ts rest)) := by
  obtain ⟨space, hseparator, hspace⟩ := toList_separator hlayout (level + 1)
  refine ⟨space, hspace, ?_⟩
  simp [afterFirst, hseparator]

theorem endsNumber_cons {c : Char} (h : isNumeral c = false ∧ c ≠ '.' ∧ c ≠ 'e' ∧ c ≠ 'E') :
    EndsNumber (c :: cs) := by
  rintro _ ⟨⟩
  exact h

theorem endsNumber_afterFirst (hlayout : layout.IsBlank) {closing : Char}
    (hclosing : isNumeral closing = false ∧ closing ≠ '.' ∧ closing ≠ 'e' ∧ closing ≠ 'E')
    (ts : List String) : EndsNumber (afterFirst layout level closing ts rest) := by
  cases ts with
  | nil =>
    have hspace := isSpace_newline hlayout level
    rw [afterFirst, List.flatMap_nil, List.nil_append]
    generalize (layout.newline level).toList = space at hspace
    cases space with
    | nil => exact endsNumber_cons hclosing
    | cons c space =>
      have hc : c = ' ' ∨ c = '\n' ∨ c = '\r' ∨ c = '\t' := by
        simpa [isSpace, or_assoc] using hspace c List.mem_cons_self
      refine endsNumber_cons ?_
      obtain rfl | rfl | rfl | rfl := hc <;> decide
  | cons t ts =>
    obtain ⟨space, _, hcons⟩ := afterFirst_cons hlayout closing t ts rest
    rw [hcons]
    exact endsNumber_cons (by decide)

theorem renderItems_eq_map (vs : List Json) :
    renderItems layout level vs = vs.map (render layout level) := by
  induction vs with
  | nil => rfl
  | cons v vs ih => rw [renderItems, ih, List.map_cons]

/-- The text of a member. -/
def memberText (layout : Layout) (level : Nat) (m : String × Json) : String :=
  stringText m.1 ++ ": " ++ render layout level m.2

theorem renderMembers_eq_map (ms : List (String × Json)) :
    renderMembers layout level ms = ms.map (memberText layout level) := by
  induction ms with
  | nil => rfl
  | cons m ms ih => rw [renderMembers, ih, List.map_cons, memberText]

end Layout

/-! ## Values -/

/-- What the text of a value starts with: not with white space or with
what closes an array. -/
def StartsValue (cs : List Char) : Prop :=
  ∃ c more, cs = c :: more ∧ isSpace c = false ∧ c ≠ ']'

/-- Nothing else is read as a value, so an array with items in it is never
taken for an empty one. -/
theorem startsValue_of_gives {v : Json} (h : (valuePart cs).Gives v rest) : StartsValue cs := by
  obtain ⟨hlt, h⟩ := h
  cases cs with
  | nil => cases hlt
  | cons c more =>
    have hnone : isSpace c = true ∨ c = ']' → valuePart (c :: more) = none := by
      intro hc
      have hc : c = ' ' ∨ c = '\n' ∨ c = '\r' ∨ c = '\t' ∨ c = ']' := by
        simpa [isSpace, or_assoc] using hc
      have hword : wordPart (c :: more) words = none := by
        apply wordPart_eq_none
        intro word hword
        rw [toList_words] at hword
        simp only [List.mem_cons, List.not_mem_nil, or_false] at hword
        obtain rfl | rfl | rfl | rfl | rfl | rfl := hword <;> rintro ⟨_, ⟨⟩⟩ <;> simp at hc
      have hnumeral : isNumeral c = false := by
        obtain rfl | rfl | rfl | rfl | rfl := hc <;> rfl
      rw [valuePart, hword]
      · simp [numberPart, wholePart, digitsPart, hnumeral]
      all_goals
        rintro _ ⟨⟩
        simp at hc
    refine ⟨c, more, rfl, ?_, ?_⟩
    · rw [← Bool.not_eq_true]
      intro hspace
      cases (hnone (.inl hspace)).symm.trans h
    · intro hclose
      cases (hnone (.inr hclose)).symm.trans h

theorem StartsValue.skipSpace (h : StartsValue cs) : skipSpace cs = cs := by
  obtain ⟨c, more, rfl, hspace, _⟩ := h
  exact skipSpace_cons hspace

/-! ## Strings, arrays and objects -/

theorem gives_valuePart_string (s : String) (rest : List Char) :
    (valuePart ((stringText s).toList ++ rest)).Gives (string s) rest := by
  have hvalue : string s = string (String.ofList s.toList) := by rw [String.ofList_toList]
  have htext : (stringText s).toList ++ rest =
      '"' :: (s.toList.flatMap escapeChar ++ '"' :: rest) := by
    simp [stringText]
  rw [htext, hvalue, valuePart]
  exact (gives_stringPart s.toList rest).change _ _

/-- The last item: it is followed by the closing bracket. -/
theorem gives_itemsPart_last {v : Json} {after : List Char} (hv : (valuePart cs).Gives v after)
    (hafter : skipSpace after = ']' :: rest) : (itemsPart cs).Gives [v] rest := by
  obtain ⟨hlt, hv⟩ := hv
  have hle := length_skipSpace_le after
  rw [hafter, List.length_cons] at hle
  refine ⟨by omega, ?_⟩
  rw [itemsPart, hv]
  dsimp only
  split
  · rename_i heq
    cases hafter.symm.trans heq
    rfl
  · rename_i heq
    cases hafter.symm.trans heq
  · rename_i hclose _
    exact absurd hafter (hclose rest)

/-- An item before others: it is followed by a comma. -/
theorem gives_itemsPart_cons {v : Json} {vs : List Json} {after more : List Char}
    (hv : (valuePart cs).Gives v after) (hafter : skipSpace after = ',' :: more)
    (hvs : (itemsPart (skipSpace more)).Gives vs rest) : (itemsPart cs).Gives (v :: vs) rest := by
  obtain ⟨hlt, hv⟩ := hv
  rw [itemsPart, hv]
  dsimp only
  split
  · rename_i heq
    cases hafter.symm.trans heq
  · rename_i heq
    cases hafter.symm.trans heq
    exact hvs.change _ _
  · rename_i hcomma
    exact absurd hafter (hcomma more)

theorem gives_valuePart_array {vs : List Json} (hcs : StartsValue (skipSpace cs))
    (h : (itemsPart (skipSpace cs)).Gives vs rest) :
    (valuePart ('[' :: cs)).Gives (array vs) rest := by
  have hne : ¬ (skipSpace cs).head? = some ']' := by
    obtain ⟨c, more, hcs, _, hc⟩ := hcs
    rw [hcs]
    simpa using hc
  rw [valuePart, dif_neg hne]
  exact h.change _ _

theorem gives_valuePart_emptyArray (rest : List Char) :
    (valuePart (("[" ++ "]").toList ++ rest)).Gives (array []) rest := by
  rw [String.toList_append]
  show (valuePart ('[' :: ']' :: rest)).Gives (array []) rest
  have hskip : skipSpace (']' :: rest) = ']' :: rest := skipSpace_cons rfl
  have hclose : (skipSpace (']' :: rest)).head? = some ']' := congrArg List.head? hskip
  rw [valuePart, dif_pos hclose]
  exact ⟨_, rfl⟩

/-- The last member, as for items. -/
theorem gives_membersPart_last {before : List (String × Json)} {name : String}
    {afterName text after : List Char} {v : Json}
    (hname : (stringPart cs).Gives name.toList afterName)
    (hcolon : skipSpace afterName = ':' :: text) (hv : (valuePart (skipSpace text)).Gives v after)
    (hafter : skipSpace after = '\x7d' :: rest) :
    (membersPart ('"' :: cs) before).Gives (setMember before name v) rest := by
  obtain ⟨hlt, hname⟩ := hname
  obtain ⟨hlt', hv⟩ := hv
  have hle := length_skipSpace_le afterName
  have hle' := length_skipSpace_le text
  have hle'' := length_skipSpace_le after
  rw [hcolon, List.length_cons] at hle
  rw [hafter, List.length_cons] at hle''
  refine ⟨by rw [List.length_cons]; omega, ?_⟩
  rw [membersPart, hname]
  dsimp only
  split
  · rename_i heq
    cases hcolon.symm.trans heq
    rw [hv]
    dsimp only
    split
    · rename_i heq
      cases hafter.symm.trans heq
      rw [String.ofList_toList]
    · rename_i heq
      cases hafter.symm.trans heq
    · rename_i hclose _
      exact absurd hafter (hclose rest)
  · rename_i hother
    exact absurd hcolon (hother text)

/-- A member before others. -/
theorem gives_membersPart_cons {before ms : List (String × Json)} {name : String}
    {afterName text after more : List Char} {v : Json}
    (hname : (stringPart cs).Gives name.toList afterName) (hcolon : skipSpace afterName = ':' :: text)
    (hv : (valuePart (skipSpace text)).Gives v after) (hafter : skipSpace after = ',' :: more)
    (hms : (membersPart (skipSpace more) (setMember before name v)).Gives ms rest) :
    (membersPart ('"' :: cs) before).Gives ms rest := by
  obtain ⟨hlt, hname⟩ := hname
  obtain ⟨hlt', hv⟩ := hv
  rw [membersPart, hname]
  dsimp only
  split
  · rename_i heq
    cases hcolon.symm.trans heq
    rw [hv]
    dsimp only
    split
    · rename_i heq
      cases hafter.symm.trans heq
    · rename_i heq
      cases hafter.symm.trans heq
      rw [String.ofList_toList]
      exact hms.change _ _
    · rename_i hcomma
      exact absurd hafter (hcomma more)
  · rename_i hother
    exact absurd hcolon (hother text)

theorem gives_valuePart_object {ms : List (String × Json)} {more : List Char}
    (hcs : skipSpace cs = '"' :: more) (h : (membersPart (skipSpace cs) []).Gives ms rest) :
    (valuePart ('\x7b' :: cs)).Gives (object ms) rest := by
  have hne : ¬ (skipSpace cs).head? = some '\x7d' := by
    rw [hcs]
    simp
  rw [valuePart, dif_neg hne]
  exact h.change _ _

theorem gives_valuePart_emptyObject (rest : List Char) :
    (valuePart (("\x7b" ++ "\x7d").toList ++ rest)).Gives (object []) rest := by
  rw [String.toList_append]
  show (valuePart ('\x7b' :: '\x7d' :: rest)).Gives (object []) rest
  have hskip : skipSpace ('\x7d' :: rest) = '\x7d' :: rest := skipSpace_cons rfl
  have hclose : (skipSpace ('\x7d' :: rest)).head? = some '\x7d' := congrArg List.head? hskip
  rw [valuePart, dif_pos hclose]
  exact ⟨_, rfl⟩

/-! ## All values -/

/-- No object in the value has two members of one name. -/
inductive Distinct : Json → Prop
  | null : Distinct null
  | bool (b : Bool) : Distinct (bool b)
  | int (n : Int) : Distinct (int n)
  | number (x : Float) : Distinct (number x)
  | string (s : String) : Distinct (string s)
  | array {items : List Json} (h : ∀ v ∈ items, Distinct v) : Distinct (array items)
  | object {members : List (String × Json)} (hnames : (members.map Prod.fst).Nodup)
      (h : ∀ m ∈ members, Distinct m.2) : Distinct (object members)

/-- The text of a value at a level is read as the value, whatever follows
that does not go on with a number. -/
def ReadsBack (layout : Layout) (level : Nat) (v : Json) : Prop :=
  ∀ rest, EndsNumber rest → (valuePart ((v.render layout level).toList ++ rest)).Gives v rest

section Nested

variable {layout : Layout} {level : Nat}

theorem ReadsBack.startsValue {v : Json} (h : ReadsBack layout level v)
    (hrest : EndsNumber rest) : StartsValue ((v.render layout level).toList ++ rest) :=
  startsValue_of_gives (h rest hrest)

/-- A value is also read from its text with a blank before it. -/
theorem ReadsBack.afterBlank {v : Json} (h : ReadsBack layout level v) (hrest : EndsNumber rest) :
    (valuePart (skipSpace (' ' :: ((v.render layout level).toList ++ rest)))).Gives v rest := by
  have hskip : skipSpace (' ' :: ((v.render layout level).toList ++ rest)) =
      (v.render layout level).toList ++ rest := (h.startsValue hrest).skipSpace
  rw [hskip]
  exact h rest hrest

/-- The items of an array that is not empty. -/
theorem gives_itemsPart (hlayout : layout.IsBlank) {v : Json} {vs : List Json}
    (hitems : ∀ w ∈ v :: vs, ReadsBack layout (level + 1) w) (rest : List Char) :
    (itemsPart ((v.render layout (level + 1)).toList ++
      afterFirst layout level ']' (vs.map (render layout (level + 1))) rest)).Gives
        (v :: vs) rest := by
  have hends : ∀ ts, EndsNumber (afterFirst layout level ']' ts rest) :=
    endsNumber_afterFirst hlayout (by decide)
  induction vs generalizing v with
  | nil =>
    exact gives_itemsPart_last (hitems v List.mem_cons_self _ (hends _))
      (skipSpace_afterFirst_nil hlayout rfl)
  | cons w vs ih =>
    obtain ⟨hv, hitems⟩ := List.forall_mem_cons.mp hitems
    have hw := hitems w List.mem_cons_self
    obtain ⟨space, hspace, hcons⟩ := afterFirst_cons hlayout ']'
      (w.render layout (level + 1)) (vs.map (render layout (level + 1))) rest
    have hv := hv _ (hends ((w :: vs).map (render layout (level + 1))))
    rw [List.map_cons, hcons] at hv ⊢
    refine gives_itemsPart_cons hv (skipSpace_cons rfl) ?_
    rw [skipSpace_append hspace, (hw.startsValue (hends _)).skipSpace]
    exact ih hitems

/-- The text of a member: its name as a literal, a colon and its value. -/
theorem toList_memberText_append (m : String × Json) (rest : List Char) :
    (memberText layout level m).toList ++ rest =
      '"' :: (m.1.toList.flatMap escapeChar ++
        '"' :: ':' :: ' ' :: ((m.2.render layout level).toList ++ rest)) := by
  simp [memberText, stringText]

theorem skipSpace_memberText (layout : Layout) (level : Nat) (m : String × Json) (rest : List Char) :
    skipSpace ((memberText layout level m).toList ++ rest) =
      (memberText layout level m).toList ++ rest := by
  rw [toList_memberText_append, skipSpace_cons rfl]

/-- A member whose name is not among those before it is put behind them. -/
theorem setMember_of_nodup {before ms : List (String × Json)} {m : String × Json}
    (h : ((before ++ m :: ms).map Prod.fst).Nodup) : setMember before m.1 m.2 = before ++ [m] := by
  rw [List.map_append, List.map_cons, List.nodup_append] at h
  exact setMember_eq_append fun hm => h.2.2 _ hm _ List.mem_cons_self rfl

/-- The members of an object that is not empty. The induction is on those
still to come, for any members before them. -/
theorem gives_membersPart (hlayout : layout.IsBlank) {before : List (String × Json)}
    {m : String × Json} {ms : List (String × Json)}
    (hnames : ((before ++ m :: ms).map Prod.fst).Nodup)
    (hmembers : ∀ n ∈ m :: ms, ReadsBack layout (level + 1) n.2) (rest : List Char) :
    (membersPart ((memberText layout (level + 1) m).toList ++
      afterFirst layout level '\x7d' (ms.map (memberText layout (level + 1))) rest) before).Gives
        (before ++ m :: ms) rest := by
  have hends : ∀ ts, EndsNumber (afterFirst layout level '\x7d' ts rest) :=
    endsNumber_afterFirst hlayout (by decide)
  induction ms generalizing m before with
  | nil =>
    have hm := hmembers m List.mem_cons_self
    rw [toList_memberText_append, ← setMember_of_nodup hnames]
    exact gives_membersPart_last (gives_stringPart _ _) (skipSpace_cons rfl)
      (hm.afterBlank (hends _)) (skipSpace_afterFirst_nil hlayout rfl)
  | cons n ms ih =>
    obtain ⟨hm, hmembers⟩ := List.forall_mem_cons.mp hmembers
    obtain ⟨space, hspace, hcons⟩ := afterFirst_cons hlayout '\x7d'
      (memberText layout (level + 1) n) (ms.map (memberText layout (level + 1))) rest
    have hends := hends ((n :: ms).map (memberText layout (level + 1)))
    rw [toList_memberText_append]
    rw [List.map_cons, hcons] at hends ⊢
    refine gives_membersPart_cons (gives_stringPart _ _) (skipSpace_cons rfl)
      (hm.afterBlank hends) (skipSpace_cons rfl) ?_
    rw [skipSpace_append hspace, skipSpace_memberText, setMember_of_nodup hnames]
    have happend : before ++ m :: n :: ms = before ++ [m] ++ n :: ms := List.append_cons ..
    rw [happend] at hnames ⊢
    exact ih hnames hmembers

theorem readsBack_array (hlayout : layout.IsBlank) {items : List Json}
    (hitems : ∀ v ∈ items, ReadsBack layout (level + 1) v) :
    ReadsBack layout level (array items) := by
  intro rest _
  rw [render, renderItems_eq_map]
  cases items with
  | nil => exact gives_valuePart_emptyArray rest
  | cons v vs =>
    have hread := gives_itemsPart hlayout hitems rest
    have hends : EndsNumber (afterFirst layout level ']' (vs.map (render layout (level + 1))) rest) :=
      endsNumber_afterFirst hlayout (by decide) _
    have hstart := (hitems v List.mem_cons_self).startsValue hends
    have hskip := skipSpace_newline hlayout (level + 1) hstart.skipSpace
    rw [← hskip] at hread
    rw [List.map_cons, toList_bracketed_append (c := '[') (d := ']') rfl rfl]
    exact gives_valuePart_array (hskip.symm ▸ hstart) hread

theorem readsBack_object (hlayout : layout.IsBlank) {members : List (String × Json)}
    (hnames : (members.map Prod.fst).Nodup)
    (hmembers : ∀ m ∈ members, ReadsBack layout (level + 1) m.2) :
    ReadsBack layout level (object members) := by
  intro rest _
  rw [render, renderMembers_eq_map]
  cases members with
  | nil => exact gives_valuePart_emptyObject rest
  | cons m ms =>
    have hread := @gives_membersPart layout level hlayout [] m ms hnames hmembers rest
    rw [List.map_cons, toList_bracketed_append (c := '\x7b') (d := '\x7d') rfl rfl]
    generalize afterFirst layout level '\x7d' (ms.map (memberText layout (level + 1))) rest = after
      at hread ⊢
    have hskip := skipSpace_newline hlayout (level + 1)
      (skipSpace_memberText layout (level + 1) m after)
    rw [← hskip] at hread
    exact gives_valuePart_object (hskip.trans (toList_memberText_append m after)) hread

/-- A value whose objects have no two members of one name is read back from
its text. -/
theorem Distinct.readsBack {v : Json} (hv : Distinct v) (hlayout : layout.IsBlank) :
    ReadsBack layout level v := by
  induction hv generalizing level with
  | null =>
    intro rest _
    rw [render]
    exact gives_valuePart_word (by simp [words]) rest
  | bool b =>
    intro rest _
    cases b <;>
    · rw [render]
      exact gives_valuePart_word (by simp [words]) rest
  | int n => exact fun rest hrest => gives_valuePart_int n hrest
  | number x => exact fun rest hrest => gives_valuePart_number x hrest
  | string s => exact fun rest _ => gives_valuePart_string s rest
  | array _ ih => exact readsBack_array hlayout fun v hv => ih v hv
  | object hnames _ ih => exact readsBack_object hlayout hnames fun m hm => ih m hm

end Nested

theorem parse?_of_gives {s : String} {v : Json}
    (h : (valuePart (skipSpace s.toList)).Gives v []) : parse? s = some v := by
  obtain ⟨_, h⟩ := h
  rw [parse?, h]
  rfl

/-- A value is read from its text. -/
theorem parse?_text {v : Json} (hv : Distinct v) {layout : Layout} (hlayout : layout.IsBlank) :
    parse? (v.text layout) = some v := by
  have hends : EndsNumber [] := nofun
  have hread : ReadsBack layout 0 v := hv.readsBack hlayout
  have hgives := hread [] hends
  rw [← (hread.startsValue hends).skipSpace, List.append_nil] at hgives
  exact parse?_of_gives hgives

end ShapeScript.Json
