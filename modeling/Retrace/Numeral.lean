/-!
# Numerals

Natural numbers written in a base up to sixteen, most significant digit first, and the values of
their digits. Digits above nine are written as capital letters and read in either case.
-/

namespace Retrace.Numeral

/-- The digit of value `d`. -/
def digitChar (d : Nat) : Char := Char.ofNat (if d < 10 then 0x30 + d else 0x37 + d)

/-- The value of a digit that occurs in numerals of the given base. -/
def digit? (base : Nat) (c : Char) : Option Nat :=
  let value :=
    if '0' ≤ c ∧ c ≤ '9' then c.toNat - 0x30
    else if 'A' ≤ c ∧ c ≤ 'F' then c.toNat - 0x37
    else if 'a' ≤ c ∧ c ≤ 'f' then c.toNat - 0x57
    else base
  if value < base then some value else none

/-- The numeral of `n`, without leading zeros. -/
def write (base n : Nat) : List Char :=
  if 2 ≤ base ∧ base ≤ n then write base (n / base) ++ [digitChar (n % base)] else [digitChar n]
termination_by n
decreasing_by exact Nat.div_lt_self (by omega) (by omega)

/-- The numeral of `n` with leading zeros up to the given width. -/
def writePadded (base width n : Nat) : List Char :=
  let digits := write base n
  List.replicate (width - digits.length) '0' ++ digits

/-- The value of a numeral, `none` if a character is not a digit of the base. -/
def read? (base : Nat) (digits : List Char) : Option Nat :=
  digits.foldl (fun value c => do return base * (← value) + (← digit? base c)) (some 0)

end Retrace.Numeral
