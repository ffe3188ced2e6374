import SqlOutline.Text.Basic

/-!
# Letter case of ASCII texts

Where capitals are taken in the sense of Unicode, some letters outside ASCII have ASCII capitals.

## Main definitions

* `upper`, `eqIgnoreCase` — texts without regard to the case of ASCII letters.
* `capitals` — capitals in the sense of Unicode.
-/

namespace SqlOutline.Text

def upper (t : Text) : Text := t.map Char.toUpper

def eqIgnoreCase (s t : Text) : Bool := upper s == upper t

def upperString (t : Text) : String := String.ofList (upper t)

def asciiCapitals : List (Nat × String) :=
  [ (0xDF, "SS"), (0x131, "I"), (0x17F, "S"), (0xFB00, "FF"), (0xFB01, "FI"), (0xFB02, "FL"),
    (0xFB03, "FFI"), (0xFB04, "FFL"), (0xFB05, "ST"), (0xFB06, "ST") ]

/-- The capitals of a character, if they are ASCII letters; any other character stands for
itself. -/
def capitals (c : Char) : Text :=
  match asciiCapitals.lookup c.toNat with
  | some s => s.toList
  | none => [c.toUpper]

def capitalString (t : Text) : String := String.ofList (t.flatMap capitals)

def isAsciiAlpha (c : Char) : Bool :=
  ('a' ≤ c && c ≤ 'z') || ('A' ≤ c && c ≤ 'Z')

def isAsciiDigit (c : Char) : Bool := '0' ≤ c && c ≤ '9'

def isAsciiAlnum (c : Char) : Bool := isAsciiAlpha c || isAsciiDigit c

def isWide (c : Char) : Bool := 0x80 ≤ c.toNat

end SqlOutline.Text
