/-
  ScopeChain.Number
  ─────────────────
  **EXACT NUMBERS BEHIND NUMERIC VALUES.**

  A finite number is kept as its floor and a count of QUANTA of `2^-1074`, the
  spacing of the smallest doubles, so that no comparison rounds.
-/

namespace ScopeChain

/-- A number as comparisons see it. -/
inductive Number where
  | nan (occurrence : Nat)
  | infinite (negative : Bool)
  /-- The number `whole + quanta · 2^-1074`, with fewer quanta than make a unit. -/
  | finite (whole : Int) (quanta : Nat)
  deriving DecidableEq, Repr

def quantaPerUnit : Nat := Nat.pow 2 1074

/-- `2^1024` units, more than every finite double. -/
def overflowQuanta : Nat := Nat.pow 2 2098

namespace Number

def ofInt (i : Int) : Number := .finite i 0

def ofBool (b : Bool) : Number := ofInt (if b then 1 else 0)

def ofQuanta (quanta : Int) : Number :=
  .finite (quanta / quantaPerUnit) (quanta % quantaPerUnit).toNat

/-! ## §2. Rounding to the nearest double. -/

/-- `num / den` rounded to the nearest natural number, a half to the even one. -/
def roundHalfEven (num den : Nat) : Nat :=
  let q := num / den
  let r := num % den
  if 2 * r < den then q
  else if den < 2 * r then q + 1
  else q + q % 2

/-- `num / den` quanta rounded to 53 significant bits, and to whole quanta at least. -/
def roundQuanta (num den : Nat) : Nat :=
  let step := Nat.pow 2 (Nat.log2 (num / den) - 52)
  roundHalfEven num (den * step) * step

/-- The double nearest to `± digits · 10^exponent`, which may be infinite. -/
def ofDecimal (negative : Bool) (digits : Nat) (exponent : Int) : Number :=
  let quanta :=
    match exponent with
    | .ofNat e => roundQuanta (digits * Nat.pow 10 e * quantaPerUnit) 1
    | .negSucc e => roundQuanta (digits * quantaPerUnit) (Nat.pow 10 (e + 1))
  if overflowQuanta ≤ quanta then .infinite negative
  else ofQuanta (if negative then -(quanta : Int) else quanta)

/-! ## §3. Reading a canonical text. -/

/-- The number that decimal digits write. -/
def digitsValue (ds : List Char) : Nat :=
  ds.foldl (fun n d => 10 * n + (d.toNat - '0'.toNat)) 0

/-- The exponent of a decimal: nothing, or `e`, a sign and digits. -/
def exponent? : List Char → Option Int
  | [] => some 0
  | 'e' :: '-' :: ds => if ds.all Char.isDigit then some (-(digitsValue ds : Int)) else none
  | 'e' :: '+' :: ds => if ds.all Char.isDigit then some (digitsValue ds) else none
  | 'e' :: ds => if ds.all Char.isDigit then some (digitsValue ds) else none
  | _ => none

/-- Digits, perhaps a point and more digits, perhaps an exponent. -/
def unsigned? (negative : Bool) (cs : List Char) : Option Number :=
  let whole := cs.takeWhile Char.isDigit
  let rest := cs.dropWhile Char.isDigit
  let (fraction, tail) :=
    match rest with
    | '.' :: r => (r.takeWhile Char.isDigit, r.dropWhile Char.isDigit)
    | r => ([], r)
  if whole.isEmpty then none
  else (exponent? tail).map fun e =>
    ofDecimal negative (digitsValue (whole ++ fraction)) (e - fraction.length)

/-- The number that a canonical text names, `nan` by its occurrence. -/
def ofText? (occurrence : Nat) (text : String) : Option Number :=
  match text.toList with
  | ['n', 'a', 'n'] => some (.nan occurrence)
  | ['i', 'n', 'f'] => some (.infinite false)
  | ['-', 'i', 'n', 'f'] => some (.infinite true)
  | '-' :: cs => unsigned? true cs
  | cs => unsigned? false cs

end Number

end ScopeChain
