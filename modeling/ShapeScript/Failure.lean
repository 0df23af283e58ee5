/-
ShapeScript.Failure — why compiling a source gave no document.

Most failures are problems of the source. The other two are not: a
defect says that the compiler broke one of its own invariants, and an
unforeseen failure comes from what it relies on, such as arithmetic or the
text of the builtin library.

The functions of the evaluator may fail in any of these ways. The outcome
of one that fails with problems of evaluation only (`EvalOnly`) can be
given with these as its errors (`evalOutcome`).
-/
import ShapeScript.Token.Scanner
import ShapeScript.Number.Arithmetic

namespace ShapeScript

/-- A failure of compilation. -/
inductive Failure where
  | problem (p : Problem)
  | defect (message : String)
  | unforeseen (message : String)

namespace Failure

/-- What is reported to the host: an unforeseen failure counts as a
defect. -/
def settle : Failure → Failure
  | unforeseen message => defect ("An unexpected internal error occurred: " ++ message)
  | f => f

/-- A problem of evaluation. -/
def ofEval (e : EvalError) : Failure := problem (.eval e)

/-- An error of arithmetic is not foreseen by the evaluator. -/
def ofArithmetic (e : ArithmeticError) : Failure := unforeseen e.message

/-- The failure as a problem of evaluation, if it is one. -/
def eval? : Failure → Option EvalError
  | problem (.eval e) => some e
  | _ => none

theorem eval?_eq_some_iff {f : Failure} {e : EvalError} : f.eval? = some e ↔ f = ofEval e := by
  constructor
  · intro h
    cases f with
    | problem p =>
      cases p with
      | eval e' => rw [ofEval, Option.some.inj h]
      | lex | parse => cases h
    | defect | unforeseen => cases h
  · rintro rfl
    rfl

end Failure

/-! ## Outcomes of evaluation -/

/-- The outcome may be a failure, but only by a problem of evaluation. -/
def EvalOnly {α : Type} (x : Except Failure α) : Prop :=
  ∀ f, x = .error f → f.eval?.isSome = true

section EvalOnly

variable {α β : Type} {x : Except Failure α}

theorem evalOnly_ok (a : α) : EvalOnly (.ok a) := by
  intro f h
  cases h

theorem evalOnly_mapError (x : Except EvalError α) : EvalOnly (x.mapError .ofEval) := by
  intro f h
  cases x with
  | ok a => cases h
  | error e =>
    cases h
    rfl

/-- Arithmetic that has a result does not fail at all. -/
theorem evalOnly_of_isOk {x : Except ArithmeticError α} (h : x.isOk = true) :
    EvalOnly (x.mapError .ofArithmetic) := by
  rw [eq_ok_resultOf x h]
  exact evalOnly_ok _

theorem EvalOnly.isSome {f : Failure} (h : EvalOnly (.error f : Except Failure α)) :
    f.eval?.isSome = true := h f rfl

/-- A failure is passed on as the failure of something else. -/
theorem EvalOnly.rethrow {f : Failure} (h : EvalOnly (.error f : Except Failure α)) :
    EvalOnly (.error f : Except Failure β) := by
  intro f' hf
  cases hf
  exact h.isSome

/-- Two steps fail with problems of evaluation only if each of them does. -/
theorem EvalOnly.bind {g : α → Except Failure β} (hx : EvalOnly x) (hg : ∀ a, EvalOnly (g a)) :
    EvalOnly (x >>= g) := by
  cases x with
  | ok a => exact hg a
  | error f => exact hx.rethrow

theorem EvalOnly.map (hx : EvalOnly x) (g : α → β) : EvalOnly (x.map g) := by
  cases x with
  | ok a => exact evalOnly_ok (g a)
  | error f => exact hx.rethrow

/-- The outcome with its problems of evaluation as errors. -/
def evalOutcome : (x : Except Failure α) → EvalOnly x → Except EvalError α
  | .ok a, _ => .ok a
  | .error f, h => .error (f.eval?.get h.isSome)

/-- Nothing of the outcome is lost. -/
theorem mapError_evalOutcome (h : EvalOnly x) : (evalOutcome x h).mapError .ofEval = x := by
  cases x with
  | ok a => rfl
  | error f =>
    exact congrArg Except.error (Failure.eval?_eq_some_iff.mp (Option.some_get h.isSome).symm).symm

theorem evalOutcome_eq_iff {y : Except EvalError α} (h : EvalOnly x) :
    evalOutcome x h = y ↔ x = y.mapError .ofEval := by
  constructor
  · rintro rfl
    exact (mapError_evalOutcome h).symm
  · rintro rfl
    cases y <;> rfl

end EvalOnly

/-- A scanning step's failure as a failure of compilation. -/
def ScanFailure.toFailure : ScanFailure → Failure
  | problem e => .problem (.lex e)
  | malformedNumber text => .defect ("Lexer produced malformed number text '" ++ text ++ "'.")

/-- The tokens of a source. -/
def tokensOf (source : String) : Except Failure (List Token) :=
  (scan source).mapError ScanFailure.toFailure

end ShapeScript
