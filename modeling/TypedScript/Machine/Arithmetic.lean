import TypedScript.Decimal.Text
import TypedScript.Ir.Command
import TypedScript.Machine.Value

/-!
# Machine arithmetic

Integers are computed in 64 bits and then cut to the width of their type, with the sign of what remains.
-/

namespace TypedScript.Machine

open TypedScript.Ir TypedScript.Decimal

/-- The low bits of a word, with the sign of the highest of them: they are moved to the top and back. -/
def cut (bits : Nat) (r : Int64) : Int64 :=
  let shift := Int64.ofNat (64 - bits)
  r <<< shift >>> shift

/-- A word cut to the width of a type, if that is a narrower integer type. -/
def wrap (type : Option Ir.Ty) (r : Int64) : Int64 :=
  match type with
  | some (.scalar s) => (s.intBits?).elim r fun bits => if bits < 64 then cut bits r else r
  | _ => r

/-- What is left of `x` after taking away multiples of `y`, exactly, with the sign of `x`. -/
def floatRem (x y : Float) : Float :=
  let nan : Float := 0 / 0
  match Binary.ofBits x.toBits, Binary.ofBits y.toBits with
  | .finite negative mx ex, .finite _ my ey =>
    if my = 0 then nan
    else
      let e := min ex ey
      let r := (mx * Nat.pow 2 (ex - e).toNat) % (my * Nat.pow 2 (ey - e).toNat)
      let v := (Float.ofNat r).scaleB e
      if negative then -v else v
  | .finite .., .infinite _ => x
  | _, _ => nan

def floatBinary (op : Op) (x y : Float) : Float :=
  match op with
  | .add => x + y
  | .sub => x - y
  | .mul => x * y
  | .div => x / y
  | .rem => floatRem x y

/-- Integer arithmetic on words, before the result is cut. Division goes toward zero. -/
def intBinary (op : Op) (x y : Int64) : Except Failure Int64 :=
  match op with
  | .add => .ok (x + y)
  | .sub => .ok (x - y)
  | .mul => .ok (x * y)
  | .div => if y = 0 then .error ⟨.divisionByZero, "integer division by zero", []⟩ else .ok (x / y)
  | .rem => if y = 0 then .error ⟨.divisionByZero, "integer division by zero", []⟩ else .ok (x % y)

/-- Arithmetic on two values of one kind. -/
def binary (op : Op) (type : Option Ir.Ty) (x y : Value) : Except Failure Value :=
  match x, y with
  | .float x, .float y => .ok (.float (floatBinary op x y))
  | .int x, .int y => do return .int (wrap type (← intBinary op (.ofInt x) (.ofInt y))).toInt
  | x, y => .error ⟨.typeMismatch, s!"{op.text} of {x.kindName} and {y.kindName}", []⟩

/-- Whether two values in a given order satisfy a comparison. -/
def holds (pred : Pred) (order : Ordering) : Bool :=
  match pred with
  | .eq => order = .eq
  | .ne => order ≠ .eq
  | .lt => order = .lt
  | .le => order ≠ .gt
  | .gt => order = .gt
  | .ge => order ≠ .lt

/-- Compares two floats. A NaN is different from everything. -/
def compareFloats (pred : Pred) (x y : Float) : Bool :=
  if x.isNaN || y.isNaN then pred = .ne
  else holds pred (if x < y then .lt else if x > y then .gt else .eq)

/-- Compares two values of one kind. Pointers have no order. -/
def compare (pred : Pred) (x y : Value) : Except Failure Value :=
  match x, y with
  | .float x, .float y => .ok (.bool (compareFloats pred x y))
  | .int x, .int y => .ok (.bool (holds pred (Ord.compare x y)))
  | .bool x, .bool y => .ok (.bool (holds pred (Ord.compare x.toNat y.toNat)))
  | x, y =>
    if x.kindName ≠ y.kindName then
      .error ⟨.typeMismatch, s!"compare {x.kindName} with {y.kindName}", []⟩
    else
      match pred with
      | .eq => .ok (.bool (x.same y))
      | .ne => .ok (.bool (!x.same y))
      | _ => .error ⟨.typeMismatch, "ordered comparison of pointers", []⟩

end TypedScript.Machine
