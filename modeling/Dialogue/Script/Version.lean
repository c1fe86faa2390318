import Dialogue.Text.Numeral

/-! Version numbers of scripts, compared as binary floating-point numbers of 53 bits. -/
namespace Dialogue.Version

open Text

/-- A decimal number: digits with perhaps a point among them, to be moved by `exponent`. -/
structure Decimal where
  digits : Nat
  exponent : Int
  deriving DecidableEq, Repr

/-- What stands after the letter of an exponent. -/
def exponent? : Text → Option Int
  | '-' :: t => (Numeral.digits? t).map fun n => -(n : Int)
  | '+' :: t => (Numeral.digits? t).map fun n => (n : Int)
  | t => (Numeral.digits? t).map fun n => (n : Int)

/-- Digits before and after a point, either of which may be absent but not both. -/
def decimal? (t : Text) : Option Decimal := do
  let (mantissa, exponent) ← match cutAt? (fun c => c = 'e' ∨ c = 'E') t with
    | none => some (t, 0)
    | some (mantissa, rest) => (exponent? rest).map fun e => (mantissa, e)
  let (whole, part) := (cutAt? (· = '.') mantissa).getD (mantissa, [])
  let digits ← Numeral.digits? (whole ++ part)
  some ⟨digits, exponent - part.length⟩

/-- More than two, by more than half of what separates two from the next number that 53 bits
can hold. -/
def Decimal.exceedsTwo (d : Decimal) : Bool :=
  let length := (Numeral.ofNat d.digits).length
  if d.digits = 0 ∨ length + d.exponent ≤ 0 then false
  else if length + d.exponent ≥ 2 then true
  else (Nat.pow 2 53 + 1) * Nat.pow 10 (length - 1) < d.digits * Nat.pow 2 52

/-- A number greater than two; a text that is no number is not. -/
def isNewer (t : Text) : Bool :=
  match t with
  | '-' :: _ => false
  | _ =>
    let unsigned := match t with
      | '+' :: rest => rest
      | _ => t
    if lowerAscii unsigned = "inf" ∨ lowerAscii unsigned = "infinity" then true
    else (decimal? unsigned).any Decimal.exceedsTwo
where
  lowerAscii (t : Text) : Text := t.map Char.toLower

end Dialogue.Version
