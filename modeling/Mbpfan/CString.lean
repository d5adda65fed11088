import Mbpfan.Library.CInt
import Mbpfan.Library.Rounding

/-!
# Bytes, strings and numbers of the C library

A string is the list of its bytes without the terminating NUL. `fgetsBuffers size` lists
what the calls of `fgets(buf, size, stream)` store until the stream is at its end, and
`atoi` is that of glibc, the conversion of a saturated long. `strtod` answers `none` for an
infinity and for NaN; a number beyond the range of `double` is left as it is.
-/

namespace Mbpfan

open Library

abbrev CString := List UInt8

def chr (c : Char) : UInt8 := UInt8.ofNat c.toNat

def cstring (s : String) : CString := s.toList.map chr

/-- The string that starts at the first byte of a buffer. -/
def upToNul (buf : List UInt8) : CString := buf.takeWhile (· ≠ 0)

theorem upToNul_append {xs : List UInt8} (h : 0 ∉ xs) (ys : List UInt8) :
    upToNul (xs ++ ys) = xs ++ upToNul ys := by
  apply List.takeWhile_append_of_pos
  intro c hc
  simpa using fun hZero : c = 0 => h (hZero ▸ hc)

/-- `buf` holds the bytes of the current call, last byte first. -/
def fgetsBuffers (size : ℕ) : List UInt8 → List UInt8 → List (List UInt8)
  | [], [] => []
  | buf, [] => [buf.reverse]
  | buf, c :: stream =>
    if c = chr '\n' ∨ buf.length + 2 = size then
      (c :: buf).reverse :: fgetsBuffers size [] stream
    else fgetsBuffers size (c :: buf) stream

def isSpace (c : UInt8) : Bool := c = chr ' ' ∨ 9 ≤ c ∧ c ≤ 13

def isDigit (c : UInt8) : Bool := chr '0' ≤ c ∧ c ≤ chr '9'

def digitsValue (s : CString) : ℤ :=
  (s.takeWhile isDigit).foldl (fun n c => 10 * n + (c.toNat - 48)) 0

def strtol (s : CString) : ℤ :=
  match s.dropWhile isSpace with
  | [] => 0
  | c :: rest =>
    if c = chr '-' then max (-9223372036854775808) (-digitsValue rest)
    else if c = chr '+' then min 9223372036854775807 (digitsValue rest)
    else min 9223372036854775807 (digitsValue (c :: rest))

def atoi (s : CString) : CInt := CInt.wrap (strtol s)

def decimal (n : ℕ) : CString := (Nat.toDigits 10 n).map chr

/-! ## strtod -/

def isHexDigit (c : UInt8) : Bool :=
  isDigit c ∨ chr 'a' ≤ c ∧ c ≤ chr 'f' ∨ chr 'A' ≤ c ∧ c ≤ chr 'F'

def digitValue (c : UInt8) : ℕ :=
  if isDigit c then c.toNat - 48 else if chr 'a' ≤ c then c.toNat - 87 else c.toNat - 55

def toLower (c : UInt8) : UInt8 := if chr 'A' ≤ c ∧ c ≤ chr 'Z' then c + 32 else c

/-- The exponent behind the letter `mark`, 0 when there is none. -/
def exponentPart (mark : Char) (s : CString) : ℤ :=
  match s with
  | [] => 0
  | c :: rest =>
    if toLower c ≠ chr mark then 0
    else if rest.head? = some (chr '-') then -digitsValue rest.tail
    else if rest.head? = some (chr '+') then digitsValue rest.tail
    else digitsValue rest

def numeral (base : ℕ) (digit : UInt8 → Bool) (radix : ℚ) (mark : Char) (s : CString) : ℚ :=
  let whole := s.takeWhile digit
  let rest := s.dropWhile digit
  let fraction := if rest.head? = some (chr '.') then rest.tail.takeWhile digit else []
  let rest := if rest.head? = some (chr '.') then rest.tail.dropWhile digit else rest
  let digits := (whole ++ fraction).foldl (fun n c => base * n + digitValue c) 0
  digits / base ^ fraction.length * radix ^ exponentPart mark rest

def magnitude (s : CString) : Option ℚ :=
  if cstring "inf" <+: s.map toLower ∨ cstring "nan" <+: s.map toLower then none
  else if cstring "0x" <+: s.map toLower then some (numeral 16 isHexDigit 2 'p' (s.drop 2))
  else some (numeral 10 isDigit 10 'e' s)

def double (q : ℚ) : ℚ := roundFloat 53 q

def strtod (s : CString) : Option ℚ :=
  match s.dropWhile isSpace with
  | [] => some 0
  | c :: rest =>
    if c = chr '-' then (magnitude rest).map fun q => double (-q)
    else if c = chr '+' then (magnitude rest).map double
    else (magnitude (c :: rest)).map double

@[simp] theorem strtod_nil : strtod [] = some 0 := rfl

end Mbpfan
