/-!
# PropertyBoard.Text.Wide

Texts that may hold a surrogate by itself. No string can, since such a surrogate is no character,
but an escape in JSON can write one.

* `Wide`: the characters of a text, `none` where a surrogate stands by itself.
* `Wide.ofText`, `Wide.text?`: from a string and back; `text?_ofText` relates the two.
* `Wide.beforeNul`: a text up to its first NUL.
* `Surrogate.pair`: the character of two surrogates.
-/

namespace PropertyBoard

namespace Surrogate

def isHigh (n : Nat) : Bool :=
  0xD800 ≤ n && n ≤ 0xDBFF

def isLow (n : Nat) : Bool :=
  0xDC00 ≤ n && n ≤ 0xDFFF

def pair (high low : Nat) : Char :=
  Char.ofNat (0x10000 + (high - 0xD800) * 0x400 + (low - 0xDC00))

end Surrogate

abbrev Wide := List (Option Char)

namespace Wide

def ofChars (cs : List Char) : Wide :=
  cs.map some

def ofText (s : String) : Wide :=
  ofChars s.toList

/-- The characters, if there are nothing but characters. -/
def chars? (w : Wide) : Option (List Char) :=
  if w.all Option.isSome then some (w.filterMap id) else none

def text? (w : Wide) : Option String :=
  (chars? w).map String.ofList

theorem chars?_ofChars (cs : List Char) : chars? (ofChars cs) = some cs := by
  have h : (ofChars cs).all Option.isSome = true := by simp [ofChars]
  rw [chars?, if_pos h, ofChars, List.filterMap_map]
  simp

theorem text?_ofText (s : String) : text? (ofText s) = some s := by
  simp [text?, ofText, chars?_ofChars]

def beforeNul (w : Wide) : Wide :=
  w.takeWhile (· != some '\x00')

/-- The character of a code point. -/
def ofCode (n : Nat) : Option Char :=
  if Surrogate.isHigh n || Surrogate.isLow n then none else some (Char.ofNat n)

/-- Puts characters in reverse in front of what is written. -/
def onto (cs : List Char) (written : Wide) : Wide :=
  cs.foldl (fun w c => some c :: w) written

end Wide
end PropertyBoard
