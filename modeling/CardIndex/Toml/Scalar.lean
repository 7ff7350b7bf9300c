import CardIndex.Binary64.Basic
import CardIndex.Timestamp.Basic
import CardIndex.Toml.Text

namespace CardIndex.Toml

/-- A value. Of floats and dates only their kind is kept. -/
inductive Value
  | string (s : String)
  | integer (n : Int)
  | float
  | boolean (b : Bool)
  | date
  | array (items : List Value)
  | table (members : List (String × Value))
deriving Inhabited

namespace Scalar

/-- The digits of a number without the underscores, each of which stands between two digits. -/
def digits? (isDigit : Char → Bool) : List Char → Option (List Char)
  | [] => none
  | [c] => if isDigit c then some [c] else none
  | c :: '_' :: cs => if isDigit c then (digits? isDigit cs).map (c :: ·) else none
  | c :: cs => if isDigit c then (digits? isDigit cs).map (c :: ·) else none

/-- Decimal digits without a needless zero in front. -/
def decimalDigits? (cs : List Char) : Option (List Char) :=
  (digits? Char.isDigit cs).bind fun ds => if ds.head? = some '0' ∧ ds ≠ ['0'] then none else some ds

/-- Integers have 64 bits. -/
def fits (n : Int) : Option Int :=
  if Int64.minValue.toInt ≤ n ∧ n ≤ Int64.maxValue.toInt then some n else none

def ofBase (base : Nat) (cs : List Char) : Option Int := do
  let isDigit := fun c => (Text.hexDigit? c).any (· < base)
  let ds ← digits? isDigit cs
  fits (ds.foldl (fun n c => n * base + (Text.hexDigit? c).getD 0) 0 : Nat)

def integer? : List Char → Option Int
  | '0' :: 'x' :: cs => ofBase 16 cs
  | '0' :: 'o' :: cs => ofBase 8 cs
  | '0' :: 'b' :: cs => ofBase 2 cs
  | cs => do
    let (negative, body) := Decimal.takeSign cs
    let n : Int := Nat.ofDigitChars 10 (← decimalDigits? body) 0
    fits (if negative then -n else n)

def isFloatMark (c : Char) : Bool := c = '.' || c = 'e' || c = 'E'

/-- The exponent of a float: a mark, a sign if need be, and digits. -/
def isExponent : List Char → Bool
  | c :: cs => (c = 'e' || c = 'E') && (digits? Char.isDigit (Decimal.takeSign cs).2).isSome
  | [] => false

/-- What follows the digits before the point: a fraction, an exponent, or both. -/
def isFloatTail : List Char → Bool
  | '.' :: cs =>
    let fraction := cs.takeWhile fun c => !isFloatMark c
    let rest := cs.drop fraction.length
    (digits? Char.isDigit fraction).isSome && (rest = [] || isExponent rest)
  | cs => isExponent cs

/-- A float; one that is too large for double precision is none, but below zero there is no such bound. -/
def isFloat (cs : List Char) : Bool :=
  let (negative, body) := Decimal.takeSign cs
  if body = ['i', 'n', 'f'] || body = ['n', 'a', 'n'] then true
  else
    let whole := body.takeWhile fun c => !isFloatMark c
    let fits := (Decimal.ofText? (body.filter (· ≠ '_'))).any fun d => (Binary64.ofDecimal? d).isSome
    (decimalDigits? whole).isSome && isFloatTail (body.drop whole.length) && (negative || fits)

/-- Two digits that spell a number in the given range. -/
def twoDigits? (low high : Nat) : List Char → Option (List Char)
  | a :: b :: cs =>
    let n := Nat.ofDigitChars 10 [a, b] 0
    if a.isDigit && b.isDigit && low ≤ n && n ≤ high then some cs else none
  | _ => none

def char? (c : Char) : List Char → Option (List Char)
  | d :: cs => if d = c then some cs else none
  | [] => none

/-- Takes a day off the front of a text. -/
def day? : List Char → Option (List Char)
  | a :: b :: c :: d :: '-' :: e :: f :: '-' :: g :: h :: cs =>
    let number := fun ds => Nat.ofDigitChars 10 ds 0
    let month := number [e, f]
    if [a, b, c, d, e, f, g, h].all Char.isDigit ∧ 1 ≤ month ∧ month ≤ 12 ∧
        1 ≤ number [g, h] ∧ number [g, h] ≤ daysInMonth (number [a, b, c, d]) month then some cs
    else none
  | _ => none

/-- Takes a time of day off the front of a text. -/
def time? (cs : List Char) : Option (List Char) := do
  let cs ← (twoDigits? 0 23 cs).bind (char? ':')
  let cs ← (twoDigits? 0 59 cs).bind (char? ':')
  match ← twoDigits? 0 60 cs with
  | '.' :: cs => if (cs.head?.map Char.isDigit).getD false then some (cs.dropWhile Char.isDigit) else none
  | cs => some cs

def isZone : List Char → Bool
  | [] => true
  | ['Z'] => true
  | ['z'] => true
  | c :: cs =>
    (c = '+' || c = '-') && ((twoDigits? 0 23 cs).bind (char? ':')).bind (twoDigits? 0 59) = some []

/-- A day, a time of day, or both with a zone if need be. -/
def isDate (cs : List Char) : Bool :=
  match day? cs with
  | some [] => true
  | some (c :: cs) => (c = 'T' || c = 't' || c = ' ') && ((time? cs).map isZone).getD false
  | none => time? cs = some []

/-- The value of a scalar that is not a string. -/
def ofText? (cs : List Char) : Option Value :=
  if cs = ['t', 'r', 'u', 'e'] then some (.boolean true)
  else if cs = ['f', 'a', 'l', 's', 'e'] then some (.boolean false)
  else if isDate cs then some .date
  else if isFloat cs then some .float
  else (integer? cs).map .integer

def endsScalar (c : Char) : Bool := isSpace c || c = '\n' || c = '\r' || c = ',' || c = ']' || c = '}' || c = '#'

/-- Whether a time of day goes on behind a blank. -/
def isTimeStart : List Char → Bool
  | a :: b :: ':' :: _ => a.isDigit && b.isDigit
  | _ => false

/-- Takes a scalar that is not a string off a text. A blank may stand between a day and a time. -/
def take? (cs : List Char) : Option (Value × List Char) :=
  let run := cs.takeWhile (!endsScalar ·)
  let rest := cs.drop run.length
  let whole := match rest with
    | ' ' :: more =>
      if day? run = some [] && isTimeStart more then run ++ ' ' :: more.takeWhile (!endsScalar ·) else run
    | _ => run
  (ofText? whole).map fun v => (v, cs.drop whole.length)

end Scalar

end CardIndex.Toml
