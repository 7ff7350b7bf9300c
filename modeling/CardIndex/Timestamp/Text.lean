import CardIndex.Text.Blank
import CardIndex.Timestamp.Basic

namespace CardIndex.Timestamp

/-- The last `width` digits of a number, with zeros in front. -/
def padded : Nat → Nat → List Char
  | 0, _ => []
  | width + 1, n => padded width (n / 10) ++ [Nat.digitChar (n % 10)]

/-- Years of four digits stand alone; others have a sign and at least four digits. -/
def yearText (year : Int) : List Char :=
  if 0 ≤ year ∧ year ≤ 9999 then padded 4 year.toNat
  else
    let digits := Nat.toDigits 10 year.natAbs
    (if year < 0 then '-' else '+') :: List.replicate (4 - digits.length) '0' ++ digits

/-- The fraction of a second with 0, 3, 6 or 9 digits, as few as are exact. -/
def fractionText (nanosecond : Nat) : List Char :=
  if nanosecond = 0 then []
  else if nanosecond % 1000000 = 0 then '.' :: padded 3 (nanosecond / 1000000)
  else if nanosecond % 1000 = 0 then '.' :: padded 6 (nanosecond / 1000)
  else '.' :: padded 9 nanosecond

def text (t : Timestamp) : String :=
  String.ofList <|
    yearText t.date.year ++ '-' :: padded 2 t.date.month ++ '-' :: padded 2 t.date.day ++
      'T' :: padded 2 t.hour ++ ':' :: padded 2 t.minute ++ ':' :: padded 2 t.second ++
      fractionText t.nanosecond ++ ['Z']

/-- The number at the start of a text, behind white space, of at most `width` digits. -/
def takeNumber? (width : Nat) (cs : List Char) : Option (Nat × List Char) :=
  let cs := Text.trimStart cs
  let digits := (cs.take width).takeWhile Char.isDigit
  if digits = [] then none else some (Nat.ofDigitChars 10 digits 0, cs.drop digits.length)

/-- A year has at most four digits, or a sign and any number of them. -/
def takeYear? (cs : List Char) : Option (Int × List Char) :=
  match Text.trimStart cs with
  | '-' :: cs => if (cs.head?.map Char.isDigit).getD false then
      (takeNumber? cs.length cs).map fun (n, cs) => (-(n : Int), cs) else none
  | '+' :: cs => if (cs.head?.map Char.isDigit).getD false then
      (takeNumber? cs.length cs).map fun (n, cs) => ((n : Int), cs) else none
  | cs => (takeNumber? 4 cs).map fun (n, cs) => ((n : Int), cs)

/-- Takes a separator, behind white space, off a text. -/
def takeSeparator? (separator : Char) (cs : List Char) : Option (List Char) :=
  match Text.trimStart cs with
  | c :: cs => if c = separator then some cs else none
  | [] => none

def takeDateEnd? : List Char → Option (List Char)
  | c :: cs => if c = 'T' ∨ c = 't' ∨ c = ' ' then some cs else none
  | [] => none

/-- An optional fraction of a second; digits after the ninth are dropped. -/
def takeFraction? : List Char → Option (Nat × List Char)
  | '.' :: cs =>
    let digits := (cs.take 9).takeWhile Char.isDigit
    if digits = [] then none
    else
      let filled := digits ++ List.replicate (9 - digits.length) '0'
      some (Nat.ofDigitChars 10 filled 0, cs.dropWhile Char.isDigit)
  | cs => some (0, cs)

def twoDigits? : List Char → Option (Nat × List Char)
  | a :: b :: cs =>
    if a.isDigit && b.isDigit then some (Nat.ofDigitChars 10 [a, b] 0, cs) else none
  | _ => none

/-- A signed distance from universal time, in minutes: two digits of hours, two of minutes, with colons or
white space between them. -/
def takeDistance? (cs : List Char) : Option (Int × List Char) := do
  let (sign, cs) ← match cs with
    | '+' :: cs => some ((1 : Int), cs)
    | '-' :: cs => some (-1, cs)
    | '\u2212' :: cs => some (-1, cs)
    | _ => none
  let (hours, cs) ← twoDigits? cs
  let (minutes, cs) ← twoDigits? (cs.dropWhile fun c => c = ':' || Text.isBlank c)
  if hours < 24 ∧ minutes < 60 then some (sign * (hours * 60 + minutes : Nat), cs) else none

/-- The zone: `Z`, `UTC` in any case, or a distance. -/
def takeZone? : List Char → Option (Int × List Char)
  | 'Z' :: cs => some (0, cs)
  | 'z' :: cs => some (0, cs)
  | a :: b :: c :: cs =>
    if [a, b, c].map Char.toLower = ['u', 't', 'c'] then some (0, cs) else takeDistance? (a :: b :: c :: cs)
  | cs => takeDistance? cs

/-- Reads a moment and takes it to universal time. -/
def ofText? (s : String) : Option Timestamp := do
  let (year, cs) ← takeYear? s.toList
  let cs ← takeSeparator? '-' cs
  let (month, cs) ← takeNumber? 2 cs
  let cs ← takeSeparator? '-' cs
  let (day, cs) ← takeNumber? 2 cs
  let cs ← takeDateEnd? cs
  let (hour, cs) ← takeNumber? 2 cs
  let cs ← takeSeparator? ':' cs
  let (minute, cs) ← takeNumber? 2 cs
  let cs ← takeSeparator? ':' cs
  let (second, cs) ← takeNumber? 2 cs
  let (nanosecond, cs) ← takeFraction? cs
  let (distance, cs) ← takeZone? (Text.trimStart cs)
  if Text.trimStart cs ≠ [] then none
  else
    let date ← Date.of? year month day
    let t ← of? date hour minute second nanosecond
    t.earlier? distance

end CardIndex.Timestamp
