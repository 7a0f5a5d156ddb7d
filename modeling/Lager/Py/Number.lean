import Lager.Py.Json
import Lager.Py.Text
import Mathlib.Algebra.Group.Nat.Defs

/-!
# Python's conversions of decoded JSON values

`intOf` is `int(x)` and `iterate` is what `for item in x` goes over, for the values `json.loads` returns.
-/

namespace Lager.Py

/-- `int(x)`: a finite float is truncated, an infinity does not fit, NaN and a text without a number in it are
a `ValueError`. -/
def intOf : Json → Except PyErr Int
  | .bool b => .ok (if b then 1 else 0)
  | .int n => .ok n
  | .float (.fin q) => .ok (q.num.tdiv q.den)
  | .float .nan => .error .valueError
  | .float .posInf => .error .overflowError
  | .float .negInf => .error .overflowError
  | .str s =>
    match intOfTextLimited s.toList with
    | some n => .ok n
    | none => .error .valueError
  | .null => .error .typeError
  | .arr _ => .error .typeError
  | .obj _ => .error .typeError

/-- The items of `for item in x`: a dict gives its keys and a text its characters. -/
def iterate : Json → Except PyErr (List Json)
  | .arr xs => .ok xs
  | .obj kvs => .ok (kvs.map fun kv => .str kv.1)
  | .str s => .ok (s.toList.map fun c => .str (String.singleton c))
  | _ => .error .typeError

/-- `x[k]` for a text `k`: only a dict has such items. -/
def Json.item (x : Json) (k : String) : Except PyErr Json :=
  match x with
  | .obj d =>
    match Dict.get? d k with
    | some v => .ok v
    | none => .error (.keyError k)
  | _ => .error .typeError

/-- `x.get(k, default)`: only a dict has the method. -/
def Json.getOr (x : Json) (k : String) (default : Json) : Except PyErr Json :=
  match x with
  | .obj d => .ok (Dict.getD d k default)
  | _ => .error .attributeError

/-- `x or default`. -/
def Json.orElse (x default : Json) : Json := if x.truthy then x else default

/-- The double nearest to a non-negative integer, ties to even: 53 bits are kept. -/
def roundNat (n : Nat) : Nat :=
  let shift := n.log2 + 1 - 53
  let unit := 2 ^ shift
  let kept := n / unit
  let rest := n % unit
  if 2 * rest > unit ∨ (2 * rest = unit ∧ kept % 2 = 1) then (kept + 1) * unit else kept * unit

/-- `float(n)` of an `int`: `OverflowError` from the halfway point above the largest double on. -/
def floatOfInt (n : Int) : Except PyErr PyFloat :=
  let m := roundNat n.natAbs
  if 2 ^ 1024 ≤ m then .error .overflowError
  else .ok (.fin (if n < 0 then -(m : ℚ) else (m : ℚ)))

namespace PyFloat

/-- `abs(x)`. -/
def abs : PyFloat → PyFloat
  | .fin q => .fin (if q < 0 then -q else q)
  | .posInf => .posInf
  | .negInf => .posInf
  | .nan => .nan

/-- `x <= y`: NaN is not comparable. -/
def le : PyFloat → PyFloat → Bool
  | .nan, _ => false
  | _, .nan => false
  | .negInf, _ => true
  | _, .posInf => true
  | .fin p, .fin q => decide (p ≤ q)
  | _, _ => false

/-- `x > y`. -/
def gt (x y : PyFloat) : Bool := x != .nan && y != .nan && !le x y

theorem not_le_of_gt {x y : PyFloat} (h : gt x y = true) : le x y = false := by
  simp only [gt, Bool.and_eq_true, Bool.not_eq_true'] at h
  exact h.2

end PyFloat

theorem Json.orElse_of_truthy {x : Json} (h : x.truthy = true) (d : Json) : x.orElse d = x := if_pos h

theorem Json.orElse_of_not_truthy {x : Json} (h : ¬x.truthy = true) (d : Json) : x.orElse d = d := if_neg h

@[simp] theorem Json.orElse_orElse (x d : Json) : (x.orElse d).orElse d = x.orElse d := by
  by_cases h : x.truthy = true
  · rw [orElse_of_truthy h, orElse_of_truthy h]
  · rw [orElse_of_not_truthy h]
    exact ite_self d

theorem intOf_error {x : Json} {e : PyErr} (h : intOf x = .error e) :
    e = .typeError ∨ e = .valueError ∨ e = .overflowError := by
  cases x with
  | float f => cases f <;> simp_all [intOf]
  | str s =>
    simp only [intOf] at h
    split at h
    · cases h
    · cases h
      exact .inr (.inl rfl)
  | _ => simp_all [intOf]

end Lager.Py
