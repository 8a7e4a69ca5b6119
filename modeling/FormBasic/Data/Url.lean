import FormBasic.Data.Address
import FormBasic.Text.Bytes
import FormBasic.Text.Quoted

/-!
# URLs

Percent encoding, and the parts of a URL with an authority. Which bytes stand for themselves depends
on the part of the URL they stand in.
-/

namespace FormBasic.Data.Url

/-- The parts of a URL that have rules of their own. -/
inductive Part where
  | path
  | user
  | host
  /-- The zone of an address in brackets. -/
  | zone
  | fragment
deriving Repr, DecidableEq

/-- The byte of an ASCII character. -/
def byte (c : Char) : UInt8 := UInt8.ofNat c.toNat

/-- Whether a text has a byte. -/
def hasByte (s : String) (b : UInt8) : Bool := s.toList.any (byte · == b)

/-- Letters and digits. -/
def isAlphanumeric (b : UInt8) : Bool :=
  (48 ≤ b && b ≤ 57) || (65 ≤ b && b ≤ 90) || (97 ≤ b && b ≤ 122)

/-- Whether a byte has to be escaped in a part. -/
def mustEscape (part : Part) (b : UInt8) : Bool :=
  if isAlphanumeric b || hasByte "-_.~" b then false
  else match part with
    | .path => !hasByte "$&+,/:;=@" b
    | .user => !hasByte "$&+,;=" b
    | .host => !hasByte "!$&'()*+,;=:[]<>\"" b
    | .zone => !hasByte "!$&'()*+,;=:[]<>\"" b
    | .fragment => !hasByte "$&+,/:;=?@!()*" b

/-- One hexadecimal digit, in upper case. -/
def hexByte (n : Nat) : UInt8 := if n < 10 then UInt8.ofNat (48 + n) else UInt8.ofNat (55 + n)

/-- Escape the bytes that a part does not allow. -/
def escape (part : Part) (bs : List UInt8) : List UInt8 :=
  bs.flatMap fun b =>
    if mustEscape part b then [byte '%', hexByte (b.toNat / 16), hexByte (b.toNat % 16)] else [b]

/-- The value of a hexadecimal digit. -/
def hexValue? (b : UInt8) : Option Nat :=
  if 48 ≤ b && b ≤ 57 then some (b.toNat - 48)
  else if 65 ≤ b && b ≤ 70 then some (b.toNat - 55)
  else if 97 ≤ b && b ≤ 102 then some (b.toNat - 87)
  else none

/-- Whether a part allows a byte in escaped form: a host only what is not ASCII, and a zone what a
host could hold; both allow the percent sign itself. -/
def allowsEscaped (part : Part) (b : UInt8) : Bool :=
  match part with
  | .host => b == byte '%' || 128 ≤ b
  | .zone => b == byte '%' || b == byte ' ' || !mustEscape .host b
  | _ => true

/-- Whether a part allows a byte as it is; only hosts are strict. -/
def allowsPlain (part : Part) (b : UInt8) : Bool :=
  match part with
  | .host => 128 ≤ b || !mustEscape .host b
  | .zone => 128 ≤ b || !mustEscape .zone b
  | _ => true

/-- Undo escapes; `none` if there is something that the part does not allow. -/
def unescape (part : Part) : List UInt8 → Option (List UInt8)
  | [] => some []
  | b :: bs =>
    if b == byte '%' then
      match bs with
      | h :: l :: bs => do
        let c := UInt8.ofNat ((← hexValue? h) * 16 + (← hexValue? l))
        if allowsEscaped part c then return c :: (← unescape part bs) else none
      | _ => none
    else if allowsPlain part b then (unescape part bs).map (b :: ·)
    else none

/-- Cut at the first occurrence of a byte. -/
def cut (sep : UInt8) : List UInt8 → List UInt8 × Option (List UInt8)
  | [] => ([], none)
  | b :: bs =>
    if b == sep then ([], some bs) else let (before, after) := cut sep bs; (b :: before, after)

/-- Cut at the last occurrence of a byte; the part after it, and the part before it if it occurs. -/
def cutLast (sep : UInt8) (bs : List UInt8) : Option (List UInt8) × List UInt8 :=
  match cut sep bs.reverse with
  | (after, some before) => (some before.reverse, after.reverse)
  | (_, none) => (none, bs)

/-- Whether bytes are nothing, or a colon with digits. -/
def isOptionalPort : List UInt8 → Bool
  | [] => true
  | b :: bs => b == byte ':' && bs.all fun d => 48 ≤ d && d ≤ 57

/-- The last colon and all after it, and all before it. -/
def splitPort (host : List UInt8) : List UInt8 × List UInt8 :=
  match cutLast (byte ':') host with
  | (some before, after) => (before, byte ':' :: after)
  | (none, _) => (host, [])

/-- The number of bytes before an escaped percent sign. -/
def zoneStart? : List UInt8 → Option Nat
  | [] => none
  | b :: bs =>
    if b == byte '%' && bs.take 2 == [byte '2', byte '5'] then some 0
    else (zoneStart? bs).map (· + 1)

/-- Undo the escapes of an address in brackets: its zone has rules of its own. -/
def unescapeAddress (bs : List UInt8) : Option (List UInt8) :=
  match zoneStart? bs with
  | some i => do return (← unescape .host (bs.take i)) ++ (← unescape .zone (bs.drop i))
  | none => unescape .host bs

/-- Read a host in brackets, given what stands between the brackets and after them. -/
def bracketedHost? (inner after : List UInt8) : Option (List UInt8) := do
  if !isOptionalPort after then none
  else
    let address ← unescapeAddress inner
    if Address.isAddress (address.map fun b => Char.ofNat b.toNat) then
      return [byte '['] ++ address ++ [byte ']'] ++ after
    else none

/-- Read a host with an optional port. An opening bracket stands at the start or nowhere. -/
def host? (bs : List UInt8) : Option (List UInt8) :=
  match cutLast (byte '[') bs with
  | (some [], rest) =>
    match cutLast (byte ']') rest with
    | (some inner, after) => bracketedHost? inner after
    | (none, _) => none
  | (some _, _) => none
  | (none, _) => if isOptionalPort (splitPort bs).2 then unescape .host bs else none

/-- Whether bytes may stand before the host. -/
def isUserInfo (bs : List UInt8) : Bool :=
  bs.all fun b => isAlphanumeric b || hasByte "-._:~!$&'()*+,;=%@" b

/-- A user name and an optional password. -/
structure User where
  name : List UInt8
  password : Option (List UInt8)
deriving Repr, DecidableEq

/-- Read a user name and an optional password. -/
def user? (bs : List UInt8) : Option User := do
  if !isUserInfo bs then none
  else
    let (name, password) := cut (byte ':') bs
    let name ← unescape .user name
    match password with
    | some password => return ⟨name, some (← unescape .user password)⟩
    | none => return ⟨name, none⟩

end Url

/-- The parts of a URL after its scheme. -/
structure Url where
  user : Option Url.User
  host : List UInt8
  /-- The path as it stands in the URL. -/
  rawPath : List UInt8
  path : List UInt8
  query : List UInt8
deriving Repr

namespace Url

/-- Read what stands between the scheme and the path. -/
def authority? (bs : List UInt8) : Option (Option User × List UInt8) := do
  match cutLast (byte '@') bs with
  | (some user, host) =>
    let host ← host? host
    return (some (← user? user), host)
  | (none, _) => return (none, ← host? bs)

/-- The query after a path; a question mark on its own at the end is none. -/
def splitQuery (bs : List UInt8) : List UInt8 × List UInt8 :=
  let (path, query) := cut (byte '?') bs
  (path, query.getD [])

/-- Read what follows `scheme://`. -/
def afterScheme? (bs : List UInt8) : Option Url := do
  let (main, fragment) := cut (byte '#') bs
  if main.any fun b => b < 32 || b == 127 then none
  else
    let (rest, query) := splitQuery main
    let (authority, path) := cut (byte '/') rest
    let rawPath := match path with
      | some p => byte '/' :: p
      | none => []
    let (user, host) ← authority? authority
    let path ← unescape .path rawPath
    let _ ← unescape .fragment (fragment.getD [])
    return { user, host, rawPath, path, query }

/-- Whether a path can stand as it is. -/
def isEncodedPath (bs : List UInt8) : Bool :=
  bs.all fun b => hasByte "!$&'()*+,;=:@[]%" b || !mustEscape .path b

/-- The path in escaped form: as it was written, if that is an escaped form. -/
def escapedPath (u : Url) : List UInt8 :=
  if isEncodedPath u.rawPath then u.rawPath else escape .path u.path

/-- The port of a host, empty if there is none. -/
def port (u : Url) : List UInt8 :=
  let tail := (splitPort u.host).2
  if isOptionalPort tail then tail.drop 1 else []

/-- The host without its port and without brackets. -/
def hostname (u : Url) : List UInt8 :=
  let (before, tail) := splitPort u.host
  let name := if isOptionalPort tail then before else u.host
  if name.head? == some (byte '[') && name.getLast? == some (byte ']') then
    (name.drop 1).dropLast
  else name

end Url

end FormBasic.Data
