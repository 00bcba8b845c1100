import PropertyBoard.Json.Shape

/-!
# PropertyBoard.Page

Paging. A page is asked for by its number, from zero, and its size; negative numbers count as zero.

* `Page`: what a caller asks for.
* `Window`: how many rows to pass over and how many to take. A number of rows beyond 64 bits is cut
  to the largest that fits, which is more rows than there can be (`toNat_offset`, `toNat_limit`).
-/

namespace PropertyBoard

structure Page where
  number : Int64
  size : Int64
  deriving Repr, DecidableEq

structure Window where
  offset : UInt64
  limit : UInt64
  deriving Repr, DecidableEq

namespace Page

def window (p : Page) : Window where
  offset := .ofNat (min (p.number.toInt.toNat * p.size.toInt.toNat) maxNat64.toNat)
  limit := .ofNat p.size.toInt.toNat

theorem toNat_offset (p : Page) :
    p.window.offset.toNat = min (p.number.toInt.toNat * p.size.toInt.toNat) maxNat64.toNat := by
  have h : maxNat64.toNat < UInt64.size := by decide
  show (UInt64.ofNat _).toNat = _
  exact UInt64.toNat_ofNat_of_lt' (by omega)

theorem toNat_limit (p : Page) : p.window.limit.toNat = p.size.toInt.toNat := by
  have h : p.size.toInt < 2 ^ 63 := p.size.toInt_lt
  show (UInt64.ofNat _).toNat = _
  exact UInt64.toNat_ofNat_of_lt' (by simp only [UInt64.size]; omega)

/-- The first page. -/
def first (size : Int64) : Page :=
  { number := 0, size }

end Page
end PropertyBoard
