/-!
# Powers and machine words

Powers of two and ten, and the ranges of signed numbers of so many bits.
-/

namespace FormBasic

/-- A power of two. -/
def twoTo (n : Nat) : Nat := Nat.pow 2 n

/-- A power of ten. -/
def tenTo (n : Nat) : Nat := Nat.pow 10 n

/-- The least signed number of so many bits. -/
def minSigned (bits : Nat) : Int := -(twoTo (bits - 1) : Int)

/-- The greatest signed number of so many bits. -/
def maxSigned (bits : Nat) : Int := (twoTo (bits - 1) : Int) - 1

end FormBasic
