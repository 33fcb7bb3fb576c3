import ArrayBridge.Decimal.Shortest

/-!
Doubles as text, in the two forms that results are shown in.
-/
namespace ArrayBridge.Render

def signText (x : Binary64) : String := if x.negative then "-" else ""

/-- The shortest decimal that reads back, never with an exponent; a half of its last digit goes up. -/
def plainNumber (x : Binary64) : String :=
  if x.isNaN then "NaN"
  else if x.isInfinite then signText x ++ "inf"
  else if x.code = 0 then signText x ++ "0"
  else
    let d := Decimal.shortest .up x
    let p := Decimal.positional d.coefficient d.exponent
    signText x ++ String.ofList p.1 ++ (if p.2 = [] then "" else "." ++ String.ofList p.2)

/-- The shortest decimal that reads back; a half of its last digit goes to the even one. From `1e-5` up
to below `1e16` it is positional with a digit behind the point, elsewhere it has an exponent with its
sign. Of a finite double. -/
def jsonNumber (x : Binary64) : String :=
  if x.code = 0 then signText x ++ "0.0"
  else
    let d := Decimal.shortest .toEven x
    let ds := Decimal.digits d.coefficient
    let e := d.exponent + (ds.length - 1 : Nat)
    if -5 ≤ e ∧ e < 16 then
      let p := Decimal.positional d.coefficient d.exponent
      signText x ++ String.ofList p.1 ++ "." ++ (if p.2 = [] then "0" else String.ofList p.2)
    else
      let fraction := String.ofList ds.tail
      signText x ++ String.ofList (ds.take 1) ++ (if fraction = "" then "" else "." ++ fraction) ++
        (if e < 0 then "e-" else "e+") ++ toString e.natAbs

end ArrayBridge.Render
