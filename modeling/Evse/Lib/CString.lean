import Mathlib.Data.List.TakeWhile
import Mathlib.Algebra.Order.Ring.Int
import Mathlib.Algebra.Order.Ring.Basic

/-!
# Texts of C

A C string as the list of the bytes before its terminator, and what the standard library reads from it.
-/

namespace CString

/-- The bytes before the terminator. -/
abbrev Text := List UInt8

/-- A string literal of ASCII characters. -/
def ascii (s : String) : Text := s.toList.map fun c => c.toNat.toUInt8

/-- `isspace` in the C locale. -/
def isSpace (c : UInt8) : Bool := c.toNat = 32 || (9 ≤ c.toNat && c.toNat ≤ 13)

def isDigit (c : UInt8) : Bool := 48 ≤ c.toNat && c.toNat ≤ 57

/-- `tolower` in the C locale. -/
def toLower (c : UInt8) : UInt8 := if 65 ≤ c.toNat ∧ c.toNat ≤ 90 then c + 32 else c

/-! ### Decimal integers -/

def isSign (c : UInt8) : Bool := c = 43 || c = 45

/-- Whether the text has a minus sign, and what follows the sign. -/
def splitSign : Text → Bool × Text
  | [] => (false, [])
  | c :: rest => if isSign c then (c = 45, rest) else (false, c :: rest)

def digitsValue (digits : Text) : Nat := digits.foldl (fun value c => value * 10 + (c.toNat - 48)) 0

def withSign (negative : Bool) (value : Nat) : Int := if negative then -value else value

/-- The integer a text is, if it is one: an optional sign, at least one digit, and nothing else. -/
def decimalInt? (text : Text) : Option Int :=
  let (negative, digits) := splitSign text
  if digits ≠ [] ∧ digits.all isDigit then some (withSign negative (digitsValue digits)) else none

/-- The nearest value a signed integer of `bits` bits has. -/
def saturate (bits : Nat) (n : Int) : Int := max (-2 ^ (bits - 1)) (min n (2 ^ (bits - 1) - 1))

/-- `strtol` in base 10, with a `long` of `bits` bits and no end pointer: what is before and after the digits is skipped, and without digits it is 0. -/
def strtol (bits : Nat) (text : Text) : Int :=
  let (negative, digits) := splitSign (text.dropWhile isSpace)
  saturate bits (withSign negative (digitsValue (digits.takeWhile isDigit)))

theorem not_isSpace_of_isDigit {c : UInt8} (h : isDigit c = true) : isSpace c = false := by
  simp only [isDigit, Bool.and_eq_true, decide_eq_true_eq] at h
  simp only [isSpace, Bool.or_eq_false_iff, Bool.and_eq_false_iff, decide_eq_false_iff_not]
  omega

theorem not_isSpace_of_isSign {c : UInt8} (h : isSign c = true) : isSpace c = false := by
  simp only [isSign, Bool.or_eq_true, decide_eq_true_eq] at h
  obtain rfl | rfl := h <;> rfl

theorem not_isSign_of_isDigit {c : UInt8} (h : isDigit c = true) : isSign c = false := by
  cases hsign : isSign c with
  | false => rfl
  | true =>
      simp only [isSign, Bool.or_eq_true, decide_eq_true_eq] at hsign
      obtain rfl | rfl := hsign <;> exact absurd h (by decide)

theorem decimalInt?_eq_some {text : Text} {n : Int} (h : decimalInt? text = some n) :
    (splitSign text).2 ≠ [] ∧ (splitSign text).2.all isDigit = true ∧
      n = withSign (splitSign text).1 (digitsValue (splitSign text).2) := by
  simp only [decimalInt?] at h
  split at h
  next hdigits => exact ⟨hdigits.1, hdigits.2, (Option.some.inj h).symm⟩
  next => simp at h

theorem not_isSpace_head {c : UInt8} {rest : Text} {n : Int} (h : decimalInt? (c :: rest) = some n) :
    isSpace c = false := by
  obtain ⟨-, hdigits, -⟩ := decimalInt?_eq_some h
  by_cases hsign : isSign c = true
  · exact not_isSpace_of_isSign hsign
  · simp only [splitSign, hsign, if_false, List.all_cons, Bool.and_eq_true, Bool.false_eq_true] at hdigits
    exact not_isSpace_of_isDigit hdigits.1

/-- Of a text that is an integer, `strtol` reads the whole. -/
theorem strtol_eq_of_decimalInt {bits : Nat} {text : Text} {n : Int} (h : decimalInt? text = some n) :
    strtol bits text = saturate bits n := by
  have hspace : text.dropWhile isSpace = text := by
    cases text with
    | nil => rfl
    | cons c rest => simp only [List.dropWhile_cons, not_isSpace_head h, Bool.false_eq_true, if_false]
  obtain ⟨-, hdigits, rfl⟩ := decimalInt?_eq_some h
  have htake : (splitSign text).2.takeWhile isDigit = (splitSign text).2 :=
    List.takeWhile_eq_self_iff.2 (List.all_eq_true.1 hdigits)
  simp only [strtol, hspace, htake]

/-- A value of `int` is not cut by a wider `long`. -/
theorem saturate_eq_self {bits width : Nat} {n : Int} (hwidth : width ≤ bits)
    (hlow : -2 ^ (width - 1) ≤ n) (hhigh : n < 2 ^ (width - 1)) : saturate bits n = n := by
  have hpow : (2 : Int) ^ (width - 1) ≤ 2 ^ (bits - 1) :=
    pow_le_pow_right₀ (by decide) (Nat.sub_le_sub_right hwidth 1)
  simp only [saturate]
  omega

/-! ### Texts in pieces -/

/-- A function that calls back once for each piece of a text between delimiters, in order. What it makes of empty pieces is left open. -/
structure Chunks (delimiter : UInt8) where
  chunks : Text → List Text
  chunks_join : ∀ pieces, pieces ≠ [] → (∀ piece ∈ pieces, piece ≠ [] ∧ delimiter ∉ piece) →
    chunks ([delimiter].intercalate pieces) = pieces

/-- One that calls back for empty pieces too. -/
def Chunks.splitting (delimiter : UInt8) : Chunks delimiter where
  chunks text := text.splitOn delimiter
  chunks_join _ hne hpieces := List.splitOn_intercalate delimiter (fun piece h => (hpieces piece h).2) hne

theorem intercalate_cons_eq_append (delimiter : UInt8) (piece : Text) (pieces : List Text) :
    [delimiter].intercalate (piece :: pieces) = piece ++ pieces.flatMap (delimiter :: ·) := by
  induction pieces generalizing piece with
  | nil => simp [List.intercalate]
  | cons next pieces ih =>
    rw [List.intercalate_cons_cons, ih next]
    simp

/-- The text without this character at either end. -/
def trim (c : UInt8) (text : Text) : Text :=
  ((text.dropWhile (· = c)).reverse.dropWhile (· = c)).reverse

theorem dropWhile_eq_self_of_head {c : UInt8} {text : Text} (h : text.head? ≠ some c) :
    text.dropWhile (· = c) = text := by
  cases text with
  | nil => rfl
  | cons first rest =>
    have hne : first ≠ c := by simpa using h
    simp [hne]

theorem trim_eq_self {c : UInt8} {text : Text} (hhead : text.head? ≠ some c) (hlast : text.getLast? ≠ some c) :
    trim c text = text := by
  rw [trim, dropWhile_eq_self_of_head hhead, dropWhile_eq_self_of_head (by rwa [List.head?_reverse]),
    List.reverse_reverse]

/-- What a buffer holds up to its terminator after `snprintf` has written at `offset`, where it has `room`. -/
def snprintfAt (buffer : Text) (offset room : Nat) (formatted : Text) : Text :=
  if room = 0 then buffer else buffer.take offset ++ formatted.take (room - 1)

theorem snprintfAt_end {buffer formatted : Text} {room : Nat} (h : formatted.length < room) :
    snprintfAt buffer buffer.length room formatted = buffer ++ formatted := by
  rw [snprintfAt, if_neg (by omega), List.take_length, List.take_of_length_le (by omega)]

end CString
