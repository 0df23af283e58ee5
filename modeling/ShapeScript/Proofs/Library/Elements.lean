/-
ShapeScript.Proofs.Library.Elements — the elements that builtin shapes
draw.

Each builtin shape is an element with attributes, and each attribute shows
one parameter. `builtinElements` lists them, with the values that the
parameters have by default, and `builtin_draws` says that the library that
is shipped declares exactly these: it is loaded in the kernel and compared.

What a shape that draws an element does is then proved of any element. A
call may give any of the parameters, and if its arguments have values at
all, binding succeeds, since every parameter has a literal to fall back on.
The body is one concatenation that starts with a string, and so it stays a
string whatever is joined to it (`value_of_pieces`): no value of either
type is refused.
-/
import ShapeScript.Problem.Report
import ShapeScript.Proofs.Library.Builtin
import ShapeScript.Proofs.Session.Arguments

namespace ShapeScript

deriving instance DecidableEq for Value

/-! ## Definitions -/

/-- An attribute of an element: its name, the parameter that it shows, and
what that parameter is if a call does not give it. -/
structure Attribute where
  name : String
  parameter : String
  fallback : Value
  deriving DecidableEq

/-- An element that a shape of that name draws. No two of its attributes
show the same parameter. -/
structure Element where
  tag : String
  attributes : List Attribute
  distinct : (attributes.map Attribute.parameter).Nodup := by decide

/-- An attribute that shows a value. -/
def Attribute.text (a : Attribute) (v : Value) : String := " " ++ a.name ++ "='" ++ v.display ++ "'"

/-- The text of an element, its attributes showing the values in order. -/
def Element.text (e : Element) (values : List Value) : String :=
  "<" ++ e.tag ++ String.join (List.zipWith Attribute.text e.attributes values) ++ "/>"

/-- The elements of the builtin shapes. -/
def builtinElements : List Element :=
  [{ tag := "circle"
     attributes :=
      [⟨"cx", "cx", .number 0⟩, ⟨"cy", "cy", .number 0⟩, ⟨"r", "r", .number 10⟩,
       ⟨"fill", "fill", .string "hotpink"⟩, ⟨"stroke", "stroke", .string "none"⟩,
       ⟨"stroke-width", "strokeWidth", .number 0⟩] },
   { tag := "rect"
     attributes :=
      [⟨"x", "x", .number 0⟩, ⟨"y", "y", .number 0⟩, ⟨"width", "width", .number 10⟩,
       ⟨"height", "height", .number 10⟩, ⟨"fill", "fill", .string "hotpink"⟩,
       ⟨"stroke", "stroke", .string "none"⟩, ⟨"stroke-width", "strokeWidth", .number 0⟩] },
   { tag := "ellipse"
     attributes :=
      [⟨"cx", "cx", .number 0⟩, ⟨"cy", "cy", .number 0⟩, ⟨"rx", "rx", .number 10⟩,
       ⟨"ry", "ry", .number 5⟩, ⟨"fill", "fill", .string "hotpink"⟩,
       ⟨"stroke", "stroke", .string "none"⟩, ⟨"stroke-width", "strokeWidth", .number 0⟩] },
   { tag := "line"
     attributes :=
      [⟨"x1", "x1", .number 0⟩, ⟨"y1", "y1", .number 0⟩, ⟨"x2", "x2", .number 10⟩,
       ⟨"y2", "y2", .number 10⟩, ⟨"stroke", "stroke", .string "black"⟩,
       ⟨"stroke-width", "strokeWidth", .number 1⟩] }]

/-- In a call, an attribute shows the value of the argument for its
parameter or, without one, what the parameter falls back on. -/
inductive Call.Shows (c : Call) (scope : Scope) (a : Attribute) : Value → Prop
  | argument {x : Argument} {v : Value} (hx : x ∈ c.arguments) (hname : x.name = a.parameter)
      (hv : x.value.evaluate scope = .ok v) : c.Shows scope a v
  | fallback (hother : ∀ x ∈ c.arguments, x.name ≠ a.parameter) : c.Shows scope a a.fallback

/-- The call gives some of the element's parameters, none twice, and what
it gives has a value in the scope. -/
structure Element.CalledBy (e : Element) (c : Call) (scope : Scope) : Prop where
  callee : c.callee = e.tag
  distinct : (c.arguments.map Argument.name).Nodup
  declared : ∀ x ∈ c.arguments, x.name ∈ e.attributes.map Attribute.parameter
  valued : ∀ x ∈ c.arguments, ∃ v, x.value.evaluate scope = .ok v

/-! ## Concatenations as templates -/

/-- The value that a literal writes. -/
def Expr.literal? : Expr → Option Value
  | .number x _ => some (.number x)
  | .string s _ => some (.string s)
  | _ => none

/-- What a string or a name puts into a concatenation. -/
def Expr.piece? : Expr → Option Piece
  | .string s _ => some (.text s)
  | .name n _ => some (.field n)
  | _ => none

/-- The pieces that are joined by `+`, if the first is a string. -/
def Expr.pieces? : Expr → Option (List Piece)
  | .string s _ => some [.text s]
  | .binary left .plus right _ _ =>
    left.pieces?.bind fun before => right.piece?.map fun last => before ++ [last]
  | _ => none

/-- The text of a piece when names have the values `v`. -/
def Piece.filled (v : String → Value) : Piece → String
  | text s => s
  | field n => (v n).display

namespace Reference

variable {scope : Scope} {v : String → Value}

theorem value_of_literal? {x : Expr} {w : Value} (h : x.literal? = some w) :
    value scope x = .ok w := by
  cases x with
  | number y span => exact congrArg Except.ok (Option.some.inj h)
  | string s span => exact congrArg Except.ok (Option.some.inj h)
  | _ => cases h

theorem display_of_piece? {x : Expr} {piece : Piece} (h : x.piece? = some piece)
    (hbound : ∀ n, piece = .field n → scope.find? n = some (v n)) :
    ∃ w, value scope x = .ok w ∧ w.display = piece.filled v := by
  cases x with
  | string s span =>
    obtain rfl := Option.some.inj h
    exact ⟨.string s, rfl, rfl⟩
  | name n span =>
    obtain rfl := Option.some.inj h
    exact ⟨v n, by rw [value, hbound n rfl], rfl⟩
  | _ => cases h

/-- A concatenation that starts with a string is the string of its pieces,
whatever the types of the names in it are. -/
theorem value_of_pieces {x : Expr} {pieces : List Piece} (h : x.pieces? = some pieces)
    (hbound : ∀ n, .field n ∈ pieces → scope.find? n = some (v n)) :
    value scope x = .ok (.string (String.join (pieces.map (Piece.filled v)))) := by
  fun_induction Expr.pieces? x generalizing pieces with
  | case1 s span =>
    obtain rfl := Option.some.inj h
    simp [value, Piece.filled]
  | case2 left right opPos span ih =>
    obtain ⟨before, hleft, h⟩ := Option.bind_eq_some_iff.mp h
    obtain ⟨last, hright, rfl⟩ := Option.map_eq_some_iff.mp h
    have hlhs := ih hleft fun n hn => hbound n (List.mem_append_left _ hn)
    obtain ⟨w, hrhs, hdisplay⟩ := display_of_piece? hright fun n hn =>
      hbound n (List.mem_append_right _ (List.mem_singleton.mpr hn.symm))
    rw [value, hlhs]
    simp only [bind, Except.bind, hrhs, List.map_append, String.join_append, ← hdisplay,
      List.map_singleton]
    simp [applyBinary, Value.display]
  | case3 => cases h

end Reference

/-! ## Shapes that draw an element -/

/-- What attributes and the end of an element are made of, behind an
opening text. -/
def piecesBehind (opening : String) : List Attribute → List Piece
  | [] => [.text (opening ++ "/>")]
  | a :: rest =>
    .text (opening ++ " " ++ a.name ++ "='") :: .field a.parameter :: piecesBehind "'" rest

/-- What an element is made of. -/
def Element.pieces (e : Element) : List Piece := piecesBehind ("<" ++ e.tag) e.attributes

/-- The shape has a parameter for each attribute, with its default, and its
body is one call of `svg` with what the element is made of. -/
def Element.isDrawnBy (e : Element) (s : Shape) : Bool :=
  s.name == e.tag &&
    s.parameters.map (fun p => (p.name, p.fallback.bind Expr.literal?)) ==
      e.attributes.map (fun a => (a.parameter, some a.fallback)) &&
    match s.body.calls with
    | [c] =>
      c.callee == svgName &&
        match c.arguments with
        | [a] => a.name == svgArgument && a.value.pieces? == some e.pieces
        | _ => false
    | _ => false

theorem filled_piecesBehind (v : String → Value) (opening : String) (attributes : List Attribute) :
    String.join ((piecesBehind opening attributes).map (Piece.filled v)) =
      opening ++ String.join (List.zipWith Attribute.text attributes
        (attributes.map fun a => v a.parameter)) ++ "/>" := by
  induction attributes generalizing opening with
  | nil => simp [piecesBehind, Piece.filled]
  | cons a rest ih =>
    simp [piecesBehind, Piece.filled, ih, Attribute.text, String.join_cons, String.append_assoc]

/-! ## What drawing comes to -/

section Drawing

variable {e : Element} {shape : Shape} {c : Call} {scope bound : Scope}

/-- What it means that a shape draws an element. -/
theorem Element.drawn (h : e.isDrawnBy shape) :
    shape.name = e.tag ∧
      shape.parameters.map (fun p => (p.name, p.fallback.bind Expr.literal?)) =
        e.attributes.map (fun a => (a.parameter, some a.fallback)) ∧
      ∃ inner a, shape.body.calls = [inner] ∧ inner.callee = svgName ∧ inner.arguments = [a] ∧
        a.name = svgArgument ∧ a.value.pieces? = some e.pieces := by
  rw [isDrawnBy, Bool.and_eq_true, Bool.and_eq_true, beq_iff_eq, beq_iff_eq] at h
  obtain ⟨⟨hname, hparameters⟩, hbody⟩ := h
  refine ⟨hname, hparameters, ?_⟩
  split at hbody
  · rename_i inner hcalls
    rw [Bool.and_eq_true, beq_iff_eq] at hbody
    obtain ⟨hcallee, hargument⟩ := hbody
    split at hargument
    · rename_i a harguments
      rw [Bool.and_eq_true, beq_iff_eq, beq_iff_eq] at hargument
      exact ⟨inner, a, hcalls, hcallee, harguments, hargument⟩
    · cases hargument
  · cases hbody

theorem Element.parameterNames_of_isDrawnBy (h : e.isDrawnBy shape) :
    shape.parameterNames = e.attributes.map Attribute.parameter := by
  have hnames := congrArg (List.map Prod.fst) (Element.drawn h).2.1
  rwa [List.map_map, List.map_map] at hnames

/-- Every parameter of the shape is that of an attribute, with its
default. -/
theorem Element.attribute_of_isDrawnBy (h : e.isDrawnBy shape) {p : Parameter}
    (hp : p ∈ shape.parameters) :
    ∃ a ∈ e.attributes, a.parameter = p.name ∧
      ∃ x, p.fallback = some x ∧ x.literal? = some a.fallback := by
  have hmem :=
    List.mem_map_of_mem (f := fun p : Parameter => (p.name, p.fallback.bind Expr.literal?)) hp
  rw [(Element.drawn h).2.1, List.mem_map] at hmem
  obtain ⟨a, ha, hsame⟩ := hmem
  obtain ⟨hname, hfallback⟩ := Prod.mk.inj hsame
  obtain ⟨x, hx, hliteral⟩ := Option.bind_eq_some_iff.mp hfallback.symm
  exact ⟨a, ha, hname, x, hx, hliteral⟩

/-- What an attribute shows is one value. -/
theorem Call.Shows.unique {a : Attribute} {v w : Value}
    (hdistinct : (c.arguments.map Argument.name).Nodup) (hv : c.Shows scope a v)
    (hw : c.Shows scope a w) : v = w := by
  cases hv with
  | argument hx hname hv =>
    cases hw with
    | argument hy hname' hw =>
      obtain rfl := List.inj_on_of_nodup_map hdistinct hx hy (hname.trans hname'.symm)
      exact Except.ok.inj (hv.symm.trans hw)
    | fallback hother => exact absurd hname (hother _ hx)
  | fallback hother =>
    cases hw with
    | argument hy hname' hw => exact absurd hname' (hother _ hy)
    | fallback _ => rfl

namespace Element.CalledBy

theorem accepts (hcall : e.CalledBy c scope) (h : e.isDrawnBy shape) :
    shape.Accepts c.arguments where
  distinct := hcall.distinct
  declared x hx := by
    rw [parameterNames_of_isDrawnBy h]
    exact hcall.declared x hx

/-- Every parameter gets a value, and it is the one that its attribute is to
show. -/
theorem gives (hcall : e.CalledBy c scope) (h : e.isDrawnBy shape) {p : Parameter}
    (hp : p ∈ shape.parameters) :
    ∃ a ∈ e.attributes, a.parameter = p.name ∧ ∃ v, c.Gives scope p v ∧ c.Shows scope a v := by
  obtain ⟨a, ha, hname, x, hfallback, hliteral⟩ := attribute_of_isDrawnBy h hp
  refine ⟨a, ha, hname, ?_⟩
  by_cases hsupplied : c.SuppliesParameter p
  · obtain ⟨y, hy, hyname⟩ := hsupplied
    obtain ⟨v, hv⟩ := hcall.valued y hy
    exact ⟨v, ⟨y.value, .argument hy hyname, hv⟩, .argument hy (hyname.trans hname.symm) hv⟩
  · refine ⟨a.fallback, ⟨x, .fallback hsupplied hfallback, ?_⟩, .fallback fun y hy hyname => ?_⟩
    · rw [evaluate_eq_value]
      exact Reference.value_of_literal? hliteral
    · exact hsupplied ⟨y, hy, hyname.trans hname⟩

theorem exists_bindAll (hcall : e.CalledBy c scope) (h : e.isDrawnBy shape) :
    ∃ bound, Reference.bindAll scope shape c = .ok bound := by
  have haccepts := hcall.accepts h
  obtain ⟨bound, hbound, _⟩ := Reference.foldlM_of_gives haccepts
    fun p (hp : p ∈ shape.parameters) => by
      obtain ⟨a, _, _, v, hv, _⟩ := hcall.gives h hp
      exact ⟨v, hv⟩
  exact ⟨bound, by rw [Reference.bindAll_of_accepts haccepts, hbound]⟩

/-- In the body, an attribute's parameter is what the attribute is to
show. -/
theorem bound_shows (hcall : e.CalledBy c scope) (h : e.isDrawnBy shape)
    (hbind : Reference.bindAll scope shape c = .ok bound) {a : Attribute} (ha : a ∈ e.attributes) :
    ∃ v, bound.find? a.parameter = some v ∧ c.Shows scope a v := by
  have hfind := Reference.find?_of_bindAll hbind a.parameter
  have hdeclared : a.parameter ∈ shape.parameterNames := by
    rw [parameterNames_of_isDrawnBy h]
    exact List.mem_map_of_mem ha
  cases hlast : lastNamed shape.parameters a.parameter with
  | none =>
    obtain ⟨p, hp, hname⟩ := Shape.mem_parameterNames.mp hdeclared
    exact absurd hname (lastNamed_eq_none.mp hlast p hp)
  | some p =>
    rw [hlast] at hfind
    obtain ⟨x, v, hchosen, hv, hfound⟩ := hfind
    obtain ⟨hp, hname⟩ := lastNamed_eq_some hlast
    obtain ⟨a', ha', hname', w, hgives, hshows⟩ := hcall.gives h hp
    obtain rfl : a' = a := List.inj_on_of_nodup_map e.distinct ha' ha (hname'.trans hname)
    have hsame : w = v :=
      hgives.unique (hcall.accepts h) ((gives_iff (hcall.accepts h)).mpr ⟨x, hchosen, hv⟩)
    exact ⟨v, hfound, hsame ▸ hshows⟩

end Element.CalledBy

/-- What an element is made of mentions the parameters of its attributes
only. -/
theorem mem_of_field_mem_piecesBehind {n opening : String} {attributes : List Attribute}
    (h : .field n ∈ piecesBehind opening attributes) : n ∈ attributes.map Attribute.parameter := by
  induction attributes generalizing opening with
  | nil => simp [piecesBehind] at h
  | cons a rest ih =>
    simp only [piecesBehind, List.mem_cons, reduceCtorEq, false_or, Piece.field.injEq] at h
    rw [List.map_cons, List.mem_cons]
    exact h.imp id ih

/-- A call of a shape that draws an element gives the element's text. -/
theorem Session.call_of_isDrawnBy {s : Session} (h : e.isDrawnBy shape)
    (hcall : e.CalledBy c s.scope) (hsvg : e.tag ≠ svgName)
    (hfind : s.registry.find? e.tag = some shape) (hroom : s.stack.length + 2 ≤ s.limit) :
    ∃ values, List.Forall₂ (c.Shows s.scope) e.attributes values ∧
      s.call c = (.ok (e.text values), s) := by
  obtain ⟨bound, hbind⟩ := hcall.exists_bindAll h
  obtain ⟨_, _, inner, a, hcalls, hcallee, harguments, hname, hpieces⟩ := Element.drawn h
  let v : String → Value := fun n => (bound.find? n).getD (.string "")
  have hbound : ∀ x ∈ e.attributes, bound.find? x.parameter = some (v x.parameter) ∧
      c.Shows s.scope x (v x.parameter) := by
    intro x hx
    obtain ⟨w, hw, hshows⟩ := hcall.bound_shows h hbind hx
    have hv : v x.parameter = w := by simp only [v, hw, Option.getD_some]
    exact ⟨hv ▸ hw, hv ▸ hshows⟩
  have hvalue : Reference.value bound a.value =
      .ok (.string (e.text (e.attributes.map fun x => v x.parameter))) := by
    rw [Reference.value_of_pieces hpieces (v := v), Element.pieces, filled_piecesBehind]
    · rfl
    · intro n hn
      obtain ⟨x, hx, rfl⟩ := List.mem_map.mp (mem_of_field_mem_piecesBehind hn)
      exact (hbound x hx).1
  have hinner : Reference.call ⟨s.registry, s.limit⟩ (s.stack ++ [c.callee]) bound inner =
      .ok (e.text (e.attributes.map fun x => v x.parameter)) := by
    rw [Reference.call_of_svg _ hcallee]
    · simp only [Reference.svg, harguments, if_pos hname, hvalue]
      rfl
    · rw [List.length_append, List.length_singleton]
      push_cast
      omega
  refine ⟨e.attributes.map fun x => v x.parameter, ?_, ?_⟩
  · rw [List.forall₂_map_right_iff, List.forall₂_same]
    exact fun x hx => (hbound x hx).2
  · have hfits : (s.stack.length : Int) < s.limit := by omega
    have hrun := @Reference.call_of_shape ⟨s.registry, s.limit⟩ s.stack s.scope c shape hfits
      (hcall.callee ▸ hsvg) (hcall.callee ▸ hfind)
    rw [Session.call_eq, hrun, hbind]
    exact congrArg (·, s) ((Reference.block_singleton hcalls).trans hinner)

end Drawing

/-! ## The builtin shapes -/

/-- The registry has a shape for each of the elements, and it draws it. -/
def Registry.drawsAll (r : Registry) (elements : List Element) : Bool :=
  elements.all fun e => (r.find? e.tag).any e.isDrawnBy

set_option maxRecDepth 10000 in
theorem builtinChars_drawsAll : (programOfChars builtinChars.1).any fun p =>
    (Registry.empty.register p false).toOption.any (·.drawsAll builtinElements) := by
  decide +kernel

/-- The shapes of the library that is shipped draw the builtin elements. -/
theorem builtin_draws {base : Registry} (hload : LibraryText.builtin.load = .ok base) :
    ∀ e ∈ builtinElements, ∃ shape, base.find? e.tag = some shape ∧ e.isDrawnBy shape := by
  obtain ⟨p, hp, hchecked⟩ := Option.any_eq_true _ _ |>.mp builtinChars_drawsAll
  obtain ⟨r, hr, hdraws⟩ := Option.any_eq_true _ _ |>.mp hchecked
  have hload' : LibraryText.builtin.load = .ok r := by
    rw [LibraryText.builtin, builtinChars.2]
    exact load_ofList hp (toOption_eq_some.mp hr)
  obtain rfl := Except.ok.inj (hload'.symm.trans hload)
  intro e he
  exact Option.any_eq_true _ _ |>.mp (List.all_eq_true.mp hdraws e he)

/-- Builtin shapes draw whatever they are given. The library that is shipped
loads, and declares a shape for each builtin element and nothing else. A
call of one of them, from any session over a registry that has the library
and with two free places on its stack, may give any of the parameters, in
any order, with arguments that have values of either type. Then each
attribute has something to show, what was given for it or its default, and
the call succeeds: its text is that of the element showing just this, and
the session is as it was. -/
theorem builtin_renders : ∃ base, LibraryText.builtin.load = .ok base ∧
    base.shapes.map Shape.name = builtinElements.map Element.tag ∧
    ∀ e ∈ builtinElements, ∀ (s : Session) (c : Call),
      (∀ shape ∈ base.shapes, s.registry.find? shape.name = some shape) →
      s.stack.length + 2 ≤ s.limit → e.CalledBy c s.scope →
        (∃ values, List.Forall₂ (c.Shows s.scope) e.attributes values) ∧
          ∀ values, List.Forall₂ (c.Shows s.scope) e.attributes values →
            s.call c = (.ok (e.text values), s) := by
  obtain ⟨base, hload, hnames, _⟩ := builtin_load
  refine ⟨base, hload, hnames, fun e he s c hlibrary hroom hcall => ?_⟩
  obtain ⟨shape, hfind, hdrawn⟩ := builtin_draws hload e he
  obtain ⟨hshape, hname⟩ := Registry.mem_of_find?_eq_some hfind
  have hsvg : ∀ e ∈ builtinElements, e.tag ≠ svgName := by decide
  obtain ⟨values, hshows, htext⟩ := Session.call_of_isDrawnBy hdrawn hcall (hsvg e he)
    (hname ▸ hlibrary shape hshape) hroom
  have hunique : Relator.RightUnique (c.Shows s.scope) :=
    fun _ _ _ hv hw => hv.unique hcall.distinct hw
  refine ⟨⟨values, hshows⟩, fun values' hshows' => ?_⟩
  rw [hunique.forall₂ hshows' hshows]
  exact htext

/-- `rect(fill: 7, width: size)`. -/
def sizedRect : Call :=
  ⟨"rect", [⟨"fill", .number 7 .origin, .origin⟩, ⟨"width", .name "size" .origin, .origin⟩],
    .origin⟩

/-- It gives a number for the color and a string for the width, in an order
of its own. -/
theorem sizedRect_renders : ∃ base, LibraryText.builtin.load = .ok base ∧
    (∀ shape ∈ base.shapes, base.find? shape.name = some shape) ∧
    (Session.call ⟨base, 3, [mainName], [("size", .string "50%")]⟩ sizedRect).1 =
      .ok "<rect x='0' y='0' width='50%' height='10' fill='7' stroke='none' stroke-width='0'/>" := by
  obtain ⟨base, hload, hnames, hrenders⟩ := builtin_renders
  have hlibrary : ∀ shape ∈ base.shapes, base.find? shape.name = some shape :=
    fun shape hshape => Registry.find?_of_mem (by rw [hnames]; decide) hshape
  refine ⟨base, hload, hlibrary, ?_⟩
  have hrect : builtinElements[1] ∈ builtinElements := List.getElem_mem _
  have hfill : sizedRect.arguments[0].value.evaluate [("size", .string "50%")] =
      .ok (.number 7) := evaluate_eq_value _ _
  have hwidth : sizedRect.arguments[1].value.evaluate [("size", .string "50%")] =
      .ok (.string "50%") := evaluate_eq_value _ _
  have hcalled : builtinElements[1].CalledBy sizedRect [("size", .string "50%")] :=
    { callee := rfl
      distinct := by decide
      declared := by decide
      valued := List.forall_mem_cons.mpr ⟨⟨_, hfill⟩, List.forall_mem_singleton.mpr ⟨_, hwidth⟩⟩ }
  have hshows : List.Forall₂ (sizedRect.Shows [("size", .string "50%")])
      builtinElements[1].attributes
      [.number 0, .number 0, .string "50%", .number 10, .number 7, .string "none", .number 0] :=
    .cons (.fallback (by decide)) <| .cons (.fallback (by decide)) <|
      .cons (.argument (.tail _ (.head _)) rfl hwidth) <| .cons (.fallback (by decide)) <|
      .cons (.argument (.head _) rfl hfill) <| .cons (.fallback (by decide)) <|
      .cons (.fallback (by decide)) .nil
  have hcall := (hrenders _ hrect ⟨base, 3, [mainName], [("size", .string "50%")]⟩ sizedRect
    hlibrary (show (1 : Int) + 2 ≤ 3 by decide) hcalled).2 _ hshows
  rw [hcall]
  exact congrArg Except.ok (by decide +kernel)

end ShapeScript
