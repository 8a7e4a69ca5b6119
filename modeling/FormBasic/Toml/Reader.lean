import FormBasic.Calendar
import FormBasic.Decimal.Reader
import FormBasic.Toml

/-!
# Reading settings files

A reader for the notation of `Toml.Document`: a key and a value per line, tables in brackets, those
of a list in two pairs of brackets, and comments from a number sign on. Readers take the characters
that are left and give back what they read with the rest.
-/

namespace FormBasic.Toml

/-- Blanks within a line. -/
def isBlank (c : Char) : Bool := c == ' ' || c == '\t'

/-- Characters that end a line. -/
def isNewline (c : Char) : Bool := c == '\n' || c == '\r'

/-- The rest after blanks. -/
def skipBlanks (cs : List Char) : List Char := cs.dropWhile isBlank

/-! ### Strings -/

/-- The character with a number in hexadecimal. -/
def hexChar? (digits : List Char) : Option Char := do
  let n ← Decimal.readNat? 16 digits
  if n.isValidChar then some (Char.ofNat n) else none

/-- The character with a number of exactly so many hexadecimal digits, and the number of characters
of its escape. -/
def numbered? (count : Nat) (cs : List Char) : Option (Char × Nat) := do
  let digits := cs.take count
  if digits.length == count then some (← hexChar? digits, count + 1) else none

/-- The character that an escape stands for, given what follows the backslash, and the number of
characters that belong to the escape. -/
def escape? : List Char → Option (Char × Nat)
  | 'b' :: _ => some ('\x08', 1)
  | 't' :: _ => some ('\t', 1)
  | 'n' :: _ => some ('\n', 1)
  | 'f' :: _ => some ('\x0c', 1)
  | 'r' :: _ => some ('\r', 1)
  | 'e' :: _ => some ('\x1b', 1)
  | '"' :: _ => some ('"', 1)
  | '\\' :: _ => some ('\\', 1)
  | 'x' :: cs => numbered? 2 cs
  | 'u' :: cs => numbered? 4 cs
  | 'U' :: cs => numbered? 8 cs
  | _ => none

/-- A string on one line after its opening quote. In one between apostrophes a backslash is a
character like any other. `skip` counts the characters of an escape still to pass over. -/
def readString (quote : Char) : (skip : Nat) → (acc : List Char) → List Char →
    Option (String × List Char)
  | _, _, [] => none
  | k + 1, acc, _ :: cs => readString quote k acc cs
  | 0, acc, c :: cs =>
    if c == quote then some (String.ofList acc.reverse, cs)
    else if isNewline c then none
    else if c == '\\' && quote == '"' then
      match escape? cs with
      | some (e, n) => readString quote n (e :: acc) cs
      | none => none
    else readString quote 0 (c :: acc) cs

/-- The number of characters that a backslash at the end of a line swallows: the rest of the line,
and all blanks and line ends after it. -/
def continuation? (cs : List Char) : Option Nat :=
  match skipBlanks cs with
  | c :: _ =>
    if isNewline c then some (cs.takeWhile fun c => isBlank c || isNewline c).length else none
  | [] => none

/-- A string of many lines after its three opening quotes. It ends with three quotes, before which
two more may stand that belong to it; `run` counts the quotes just read. -/
def readLongString (quote : Char) : (skip run : Nat) → (acc : List Char) → List Char →
    Option (String × List Char)
  | _, run, acc, [] =>
    if 3 ≤ run && run ≤ 5 then
      some (String.ofList (acc.reverse ++ List.replicate (run - 3) quote), [])
    else none
  | k + 1, run, acc, _ :: cs => readLongString quote k run acc cs
  | 0, run, acc, c :: cs =>
    if c == quote then readLongString quote 0 (run + 1) acc cs
    else if 6 ≤ run then none
    else if 3 ≤ run then
      some (String.ofList (acc.reverse ++ List.replicate (run - 3) quote), c :: cs)
    else
      let acc := List.replicate run quote ++ acc
      if c == '\\' && quote == '"' then
        match continuation? cs with
        | some n => readLongString quote n 0 acc cs
        | none =>
          match escape? cs with
          | some (e, n) => readLongString quote n 0 (e :: acc) cs
          | none => none
      else readLongString quote 0 0 (c :: acc) cs

/-- The rest after a line end at its start. -/
def skipNewline : List Char → List Char
  | '\r' :: '\n' :: cs => cs
  | '\n' :: cs => cs
  | cs => cs

/-- A string of either kind after its first quote. -/
def readQuoted (quote : Char) (cs : List Char) : Option (String × List Char) :=
  match Text.stripLead? [quote, quote] cs with
  | some cs => readLongString quote 0 0 [] (skipNewline cs)
  | none => readString quote 0 [] cs

/-! ### Numbers, moments and words -/

/-- Underscores stand between digits. -/
def underscoresOk (cs : List Char) : Bool :=
  let rec go : (before : Bool) → List Char → Bool
    | before, [] => before
    | before, c :: cs => (c != '_' || before) && go ((Decimal.digitValue? c).isSome) cs
  go false cs

/-- A number without its underscores. -/
def withoutUnderscores (cs : List Char) : List Char := cs.filter (· != '_')

/-- Whether a number starts with a zero that it does not need. -/
def hasLeadingZero (cs : List Char) : Bool :=
  match (Decimal.readSign cs).2 with
  | '0' :: _ :: _ => true
  | _ => false

/-- The numbers that a whole number can be. -/
def inRange (n : Int) : Bool := minSigned 64 ≤ n && n ≤ maxSigned 64

/-- A whole number in hexadecimal, octal or binary, which has no sign. -/
def readRadix? (cs : List Char) : Option Int :=
  let digits (radix : Nat) (cs : List Char) : Option Int := do
    if !underscoresOk cs then none
    let n ← Decimal.readNat? radix (withoutUnderscores cs)
    if inRange n then some (n : Int) else none
  match cs with
  | '0' :: 'x' :: cs => digits 16 cs
  | '0' :: 'o' :: cs => digits 8 cs
  | '0' :: 'b' :: cs => digits 2 cs
  | _ => none

/-- A whole number in decimal. -/
def readDecimal? (cs : List Char) : Option Int :=
  if hasLeadingZero cs || !underscoresOk cs then none
  else Decimal.readInt? (minSigned 64) (maxSigned 64) (withoutUnderscores cs)

/-- The points and exponent marks of numbers. -/
def isMark (c : Char) : Bool := c == '.' || c == 'e' || c == 'E'

/-- The parts of a number between its points and exponent marks. -/
def numberParts (cs : List Char) : List (List Char) :=
  (Text.splitOn ['.'] (cs.map fun c => if isMark c then '.' else c)).filter (!·.isEmpty)

/-- Every point has a digit after it. -/
def pointsOk : List Char → Bool
  | [] => true
  | '.' :: c :: cs => Decimal.isDigit c && pointsOk (c :: cs)
  | ['.'] => false
  | _ :: cs => pointsOk cs

/-- The spellings of the numbers that are not finite. -/
def specialNumbers : List String := ["inf", "+inf", "-inf", "nan", "+nan", "-nan"]

/-- A number with a point or an exponent, or one that is not finite. -/
def readFloat? (cs : List Char) : Option Float :=
  let s := String.ofList cs
  if specialNumbers.contains s then
    Decimal.readDouble? (if s.endsWith "nan" then "nan" else s)
  else
    let parts := numberParts cs
    let startsWithDigit := ((Decimal.readSign cs).2.head?.map Decimal.isDigit).getD false
    let plain := cs.all fun c => Decimal.isDigit c || ['_', '+', '-'].contains c || isMark c
    if plain && cs.any isMark && startsWithDigit && parts.all underscoresOk &&
        !(parts.head?.any hasLeadingZero) && pointsOk cs then
      Decimal.readDouble? (String.ofList (withoutUnderscores cs))
    else none

/-- Exactly two digits with a value up to a bound. -/
def twoDigits? (bound : Nat) : List Char → Option (Nat × List Char)
  | a :: b :: cs => do
    let n ← Decimal.readNat? 10 [a, b]
    if n ≤ bound then some (n, cs) else none
  | _ => none

/-- The rest after a character. -/
def after? (c : Char) : List Char → Option (List Char)
  | d :: cs => if c == d then some cs else none
  | [] => none

/-- The rest after a time of day, whose seconds may be missing. -/
def skipTime? (cs : List Char) : Option (List Char) := do
  let (_, cs) ← twoDigits? 23 cs
  let (_, cs) ← twoDigits? 59 (← after? ':' cs)
  match cs with
  | ':' :: cs =>
    let (_, cs) ← twoDigits? 59 cs
    match cs with
    | '.' :: c :: cs => if Decimal.isDigit c then some (cs.dropWhile Decimal.isDigit) else none
    | cs => some cs
  | cs => some cs

/-- The rest after a date. -/
def skipDate? (cs : List Char) : Option (List Char) := do
  let year ← Decimal.readNat? 10 (cs.take 4)
  let (month, cs) ← twoDigits? 12 (← after? '-' (cs.drop 4))
  let (day, cs) ← twoDigits? 31 (← after? '-' cs)
  if 1 ≤ month && 1 ≤ day && day ≤ Calendar.daysIn year month then some cs else none

/-- Whether something is a zone or nothing. -/
def isZone : List Char → Bool
  | [] => true
  | ['Z'] | ['z'] => true
  | c :: cs =>
    (c == '+' || c == '-') && (do
      let (_, cs) ← twoDigits? 24 cs
      let (_, cs) ← twoDigits? 60 (← after? ':' cs)
      some cs.isEmpty).getD false

/-- Whether something is a date, a time, or a date with a time and perhaps a zone. -/
def isMoment (cs : List Char) : Bool :=
  match skipDate? cs with
  | some [] => true
  | some (c :: cs) =>
    (c == 'T' || c == 't' || c == ' ') && ((skipTime? cs).map isZone).getD false
  | none => skipTime? cs == some []

/-- What a word without quotes means. -/
def readWord? (cs : List Char) : Option Value :=
  if cs == "true".toList then some (.boolean true)
  else if cs == "false".toList then some (.boolean false)
  else if isMoment cs then some (.moment (String.ofList cs))
  else (((readRadix? cs).or (readDecimal? cs)).map .whole).or ((readFloat? cs).map .float)

/-- Whether a character can belong to a word. -/
def isWordChar (c : Char) : Bool := c.isAlphanum || ['_', '+', '-', '.', ':'].contains c

/-- A word without quotes. Between a date and a time there may be a blank. -/
def readWord (cs : List Char) : Option (Value × List Char) :=
  let word := cs.takeWhile isWordChar
  let rest := cs.dropWhile isWordChar
  let (word, rest) := match skipDate? word, rest with
    | some [], ' ' :: d :: cs =>
      if Decimal.isDigit d then
        (word ++ ' ' :: (d :: cs).takeWhile isWordChar, (d :: cs).dropWhile isWordChar)
      else (word, rest)
    | _, _ => (word, rest)
  (readWord? word).map (·, rest)

/-! ### Space -/

/-- The rest after a comment. -/
def skipComment (cs : List Char) : List Char := cs.dropWhile (!isNewline ·)

/-- The rest after blanks, line ends and comments. `inComment` says whether a comment is being
passed over. -/
def skipSpace : (inComment : Bool) → List Char → List Char
  | _, [] => []
  | true, c :: cs => skipSpace (!isNewline c) cs
  | false, c :: cs =>
    if isBlank c || isNewline c then skipSpace false cs
    else if c == '#' then skipSpace true cs
    else c :: cs

/-! ### Keys -/

/-- A part of a key. -/
def readPart : List Char → Option (String × List Char)
  | '"' :: cs => readString '"' 0 [] cs
  | '\x27' :: cs => readString '\x27' 0 [] cs
  | cs =>
    let part := cs.takeWhile isBareChar
    if part.isEmpty then none else some (String.ofList part, cs.dropWhile isBareChar)

/-- A dotted key with at most so many parts, and the blanks around it. -/
def readKey : (bound : Nat) → List Char → Option (Path × List Char)
  | 0, _ => none
  | bound + 1, cs => do
    let (part, cs) ← readPart (skipBlanks cs)
    match skipBlanks cs with
    | '.' :: cs =>
      let (path, cs) ← readKey bound cs
      some (part :: path, cs)
    | cs => some ([part], cs)

/-! ### Collections -/

mutual
/-- A value. The depth of collections and the number of their items are bounded. -/
def readValue : (bound : Nat) → List Char → Option (Value × List Char)
  | 0, _ => none
  | bound + 1, cs =>
    match cs with
    | '"' :: cs => (readQuoted '"' cs).map fun (s, cs) => (.text s, cs)
    | '\x27' :: cs => (readQuoted '\x27' cs).map fun (s, cs) => (.text s, cs)
    | '[' :: cs => readItems bound [] (skipSpace false cs)
    | '{' :: cs => readEntries bound [] (skipSpace false cs)
    | cs => readWord cs

/-- The items of a list; a comma may follow the last. -/
def readItems : (bound : Nat) → (acc : List Value) → List Char → Option (Value × List Char)
  | 0, _, _ => none
  | bound + 1, acc, cs =>
    match cs with
    | ']' :: cs => some (.list acc.reverse, cs)
    | cs =>
      match readValue bound cs with
      | none => none
      | some (v, cs) =>
        match skipSpace false cs with
        | ',' :: cs => readItems bound (v :: acc) (skipSpace false cs)
        | ']' :: cs => some (.list (v :: acc).reverse, cs)
        | _ => none

/-- The entries of a table in braces; a comma may follow the last. -/
def readEntries : (bound : Nat) → (acc : List (Path × Value)) → List Char →
    Option (Value × List Char)
  | 0, _, _ => none
  | bound + 1, acc, cs =>
    match cs with
    | '}' :: cs => some (.table acc.reverse, cs)
    | cs =>
      match readEntry bound cs with
      | none => none
      | some (entry, cs) =>
        match skipSpace false cs with
        | ',' :: cs => readEntries bound (entry :: acc) (skipSpace false cs)
        | '}' :: cs => some (.table (entry :: acc).reverse, cs)
        | _ => none

/-- A key with its value. -/
def readEntry : (bound : Nat) → List Char → Option ((Path × Value) × List Char)
  | 0, _ => none
  | bound + 1, cs =>
    match readKey cs.length cs with
    | some (key, '=' :: cs) =>
      (readValue bound (skipBlanks cs)).map fun (v, cs) => ((key, v), cs)
    | _ => none
end

/-! ### Lines -/

/-- The rest after the end of a line: blanks, perhaps a comment, and a line end. -/
def skipLineEnd (cs : List Char) : Option (List Char) :=
  match skipBlanks cs with
  | [] => some []
  | c :: cs =>
    if c == '#' then some (skipComment cs)
    else if isNewline c then some cs
    else none

/-- A line that says something. -/
def readLine (cs : List Char) : Option (Line × List Char) := do
  match cs with
  | '[' :: '[' :: cs =>
    let (path, cs) ← readKey cs.length cs
    let cs ← after? ']' cs
    let cs ← after? ']' cs
    some (.item path, ← skipLineEnd cs)
  | '[' :: cs =>
    let (path, cs) ← readKey cs.length cs
    let cs ← after? ']' cs
    some (.table path, ← skipLineEnd cs)
  | cs =>
    let ((key, v), cs) ← readEntry (cs.length + 1) cs
    some (.entry key v, ← skipLineEnd cs)

/-- At most so many lines. -/
def readLines : (bound : Nat) → List Char → Option (List Line)
  | bound, cs =>
    match bound, skipSpace false cs with
    | _, [] => some []
    | 0, _ => none
    | bound + 1, cs => do
      let (line, cs) ← readLine cs
      let lines ← readLines bound cs
      some (line :: lines)

/-- Whether there are only characters that a file may hold: no control characters but tabs and line
ends, and carriage returns before line feeds only. -/
def charsOk : List Char → Bool
  | [] => true
  | '\r' :: '\n' :: cs => charsOk cs
  | c :: cs =>
    (c == '\t' || c == '\n' || (32 ≤ c.toNat && c.toNat != 127)) && charsOk cs

/-- The rest after a byte order mark. -/
def skipMark : List Char → List Char
  | '\ufeff' :: cs => cs
  | cs => cs

/-- The document of a text. -/
def Document.read? (s : String) : Option Document := do
  let cs := skipMark s.toList
  if !charsOk cs then none
  Document.ofLines? (← readLines (cs.length + 1) cs)

end FormBasic.Toml
