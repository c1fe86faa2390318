import Dialogue.Text.Basic

/-! Decimal numerals in the ten digits of ASCII. -/
namespace Dialogue.Numeral

def digitsFrom (value : Nat) : Text → Option Nat
  | [] => some value
  | c :: t => if c.isDigit then digitsFrom (10 * value + (c.toNat - '0'.toNat)) t else none

def digits? (t : Text) : Option Nat := if t = [] then none else digitsFrom 0 t

/-- Digits after an optional plus sign, for a number below `bound`. -/
def below? (bound : Nat) (t : Text) : Option Nat :=
  (digits? (match t with | '+' :: rest => rest | _ => t)).filter (· < bound)

def weight? (t : Text) : Option Nat := below? (Nat.pow 2 32) t

def count? (t : Text) : Option Nat := below? (Nat.pow 2 64) t

def fits (n : Int) : Bool := -9223372036854775808 ≤ n && n < 9223372036854775808

def integer? (t : Text) : Option Int :=
  Option.filter fits <| match t with
    | '-' :: rest => (digits? rest).map fun n => -(n : Int)
    | '+' :: rest => (digits? rest).map fun n => (n : Int)
    | _ => (digits? t).map fun n => (n : Int)

def ofNat (n : Nat) : Text := Nat.toDigits 10 n

def ofInt : Int → Text
  | .ofNat n => ofNat n
  | .negSucc n => '-' :: ofNat (n + 1)

end Dialogue.Numeral
