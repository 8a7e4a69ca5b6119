import FormBasic.Text.Search

/-!
# Network addresses in brackets

The only addresses that stand in brackets are those of eight groups of sixteen bits. A group has one
to four hexadecimal digits, and groups are divided by single colons. One double colon may stand for
a run of zero groups, of at least one, and the last two groups may be written as four octets in
decimal. After a percent sign follows the name of a zone, which is not empty.
-/

namespace FormBasic.Data.Address

/-- Hexadecimal digits. -/
def isHexDigit (c : Char) : Bool :=
  c.isDigit || ('a' ≤ c && c ≤ 'f') || ('A' ≤ c && c ≤ 'F')

/-- A group of sixteen bits. -/
def isGroup (cs : List Char) : Bool :=
  !cs.isEmpty && cs.length ≤ 4 && cs.all isHexDigit

/-- An octet in decimal, without leading zeros. -/
def isOctet (cs : List Char) : Bool :=
  !cs.isEmpty && cs.length ≤ 3 && cs.all Char.isDigit && (cs.length == 1 || cs.head? != some '0') &&
    cs.foldl (fun n c => n * 10 + (c.toNat - 48)) 0 ≤ 255

/-- Four octets divided by points. -/
def isDotted (cs : List Char) : Bool :=
  let octets := Text.splitOn ['.'] cs
  octets.length == 4 && octets.all isOctet

/-- The number of groups that fields stand for; `none` when a field is none. Four octets count as
two groups and can only be the last field. -/
def groupCount? (dotted : Bool) : List (List Char) → Option Nat
  | [] => some 0
  | [f] => if isGroup f then some 1 else if dotted && isDotted f then some 2 else none
  | f :: fs => if isGroup f then (groupCount? dotted fs).map (· + 1) else none

/-- The fields between single colons; no text has no fields. -/
def fields (cs : List Char) : List (List Char) :=
  if cs.isEmpty then [] else Text.splitOn [':'] cs

/-- Whether a text is an address without a zone. -/
def isBare (cs : List Char) : Bool :=
  match Text.splitOn [':', ':'] cs with
  | [all] => groupCount? true (fields all) == some 8
  | [before, after] =>
    match groupCount? false (fields before), groupCount? true (fields after) with
    | some m, some n => m + n < 8
    | _, _ => false
  | _ => false

/-- Whether a text is an address, with or without a zone. -/
def isAddress (cs : List Char) : Bool :=
  match Text.cut '%' cs with
  | (address, some zone) => !zone.isEmpty && isBare address
  | (address, none) => isBare address

end FormBasic.Data.Address
