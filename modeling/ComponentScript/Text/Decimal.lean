/-
  ComponentScript.Text.Decimal — decimal numbers in text.
-/

namespace ComponentScript.Text

def digitsValue (ds : List Char) : Nat := ds.foldl (fun n d => n * 10 + (d.toNat - 48)) 0

/-- Whether `mantissa * 10 ^ scale` is too large for a double: at least halfway from the
    largest finite one to the next power of two. -/
def exceedsDouble (mantissa : Nat) (scale : Int) : Bool :=
  mantissa ≠ 0 &&
    (400 < (Nat.log2 mantissa) / 4 + scale ||
      (-400 < (Nat.log2 mantissa) / 3 + scale &&
        (Nat.pow 2 1024 - Nat.pow 2 970) * Nat.pow 10 (-scale).toNat
          ≤ mantissa * Nat.pow 10 scale.toNat))

end ComponentScript.Text
