import Evse.Lib.CString

/-!
# Searching and copying texts

What `string.h` finds in a text and copies of it. A pointer into a text is the text from there on, so the difference of two pointers is the difference of two lengths.
-/

namespace CString

/-- `strchr`, for a character other than the terminator. -/
def strchr (c : UInt8) (text : Text) : Option Text :=
  match text.dropWhile (· ≠ c) with
  | [] => none
  | rest => some rest

/-- `strstr`, for a text that is not empty. -/
def strstr (needle : Text) : Text → Option Text
  | [] => none
  | c :: rest => if needle <+: c :: rest then some (c :: rest) else strstr needle rest

/-- `strncpy` to the beginning of a buffer: so many bytes, zeros where the text is shorter. -/
def strncpy (buf : List UInt8) (text : Text) (n : Nat) : List UInt8 :=
  text.take n ++ List.replicate (n - text.length) 0 ++ buf.drop n

/-- The text a buffer holds. -/
def readText (buf : List UInt8) : Text := buf.takeWhile (· ≠ 0)

variable {c : UInt8} {text before rest : Text}

theorem dropWhile_append_of_not_mem (h : c ∉ before) :
    (before ++ rest).dropWhile (· ≠ c) = rest.dropWhile (· ≠ c) := by
  apply List.dropWhile_append_of_pos
  intro x hx
  exact decide_eq_true fun hxc => h (hxc ▸ hx)

theorem strchr_append (h : c ∉ before) : strchr c (before ++ c :: rest) = some (c :: rest) := by
  rw [strchr, dropWhile_append_of_not_mem h]
  simp

theorem strchr_eq_none (h : c ∉ text) : strchr c text = none := by
  have hnone : (text ++ []).dropWhile (· ≠ c) = ([] : Text).dropWhile (· ≠ c) := dropWhile_append_of_not_mem h
  rw [List.append_nil, List.dropWhile_nil] at hnone
  rw [strchr, hnone]

/-- The first place at which the text begins, if its first character is not seen before. -/
theorem strstr_append {needle : Text} (h : c ∉ before) :
    strstr (c :: needle) (before ++ c :: needle ++ rest) = some (c :: needle ++ rest) := by
  induction before with
  | nil =>
      rw [List.nil_append, List.cons_append, strstr, if_pos]
      exact List.prefix_append (c :: needle) rest
  | cons x before ih =>
      rw [List.mem_cons, not_or] at h
      have hno : ¬ c :: needle <+: x :: (before ++ c :: needle ++ rest) :=
        fun hbegins => h.1 (List.cons_prefix_cons.1 hbegins).1
      rw [List.cons_append, List.cons_append, strstr, if_neg hno]
      exact ih h.2

/-- A copy that is cut off at neither end reads back. -/
theorem readText_strncpy {buf : List UInt8} {n : Nat} (hzeros : ∀ x ∈ buf, x = 0) (hnul : 0 ∉ text) :
    readText (strncpy buf text n) = text.take n := by
  have htake : ∀ x ∈ text.take n, decide (x ≠ 0) = true :=
    fun x hx => decide_eq_true fun hx0 => hnul (hx0 ▸ List.mem_of_mem_take hx)
  have hrest : (List.replicate (n - text.length) 0 ++ buf.drop n).takeWhile (· ≠ 0) = [] := by
    have hall : ∀ x ∈ List.replicate (n - text.length) 0 ++ buf.drop n, x = 0 := by
      intro x hx
      obtain hpad | hbuf := List.mem_append.1 hx
      · exact List.eq_of_mem_replicate hpad
      · exact hzeros x (List.mem_of_mem_drop hbuf)
    cases hlist : List.replicate (n - text.length) 0 ++ buf.drop n with
    | nil => rfl
    | cons x xs =>
        have hx := hall x (by rw [hlist]; exact List.mem_cons_self)
        simp [hx]
  rw [readText, strncpy, List.append_assoc, List.takeWhile_append_of_pos htake, hrest, List.append_nil]

/-! ### Decimal numbers in a text -/

/-- `strtol` reads the digits at the beginning and stops behind them. -/
theorem strtol_digits {longBits : Nat} {digits : Text} (hdigits : digits.all isDigit = true) (hne : digits ≠ [])
    (hrest : ∀ x ∈ rest.head?, isDigit x = false) :
    strtol longBits (digits ++ rest) = saturate longBits (digitsValue digits) := by
  cases digits with
  | nil => exact absurd rfl hne
  | cons d digits =>
      have hd := List.all_eq_true.1 hdigits
      have hfirst := hd d List.mem_cons_self
      have hspace := not_isSpace_of_isDigit hfirst
      have hsign := not_isSign_of_isDigit hfirst
      have hstop : rest.takeWhile isDigit = [] := by
        cases rest with
        | nil => rfl
        | cons x rest => simp [hrest x rfl]
      rw [strtol, List.cons_append, List.dropWhile_cons, if_neg (by rw [hspace]; exact Bool.false_ne_true), splitSign,
        if_neg (by rw [hsign]; exact Bool.false_ne_true)]
      dsimp only
      rw [← List.cons_append, List.takeWhile_append_of_pos hd, hstop, List.append_nil]
      rfl

/-! ### Hexadecimal bytes -/

def isHex (c : UInt8) : Bool :=
  (48 ≤ c.toNat && c.toNat ≤ 57) || (65 ≤ c.toNat && c.toNat ≤ 70) || (97 ≤ c.toNat && c.toNat ≤ 102)

/-- The value of a hexadecimal digit in either case. -/
def hexDigitValue (c : UInt8) : Nat :=
  if c.toNat ≤ 57 then c.toNat - 48 else if c.toNat ≤ 70 then c.toNat - 55 else c.toNat - 87

def hexValue (digits : Text) : Nat := digits.foldl (fun value c => value * 16 + hexDigitValue c) 0

/-- The digits may have `0x` before them. -/
def skipHexPrefix : Text → Text
  | 48 :: x :: d :: rest => if (x = 120 ∨ x = 88) ∧ isHex d then d :: rest else 48 :: x :: d :: rest
  | text => text

/-- `strtol` in base 16. -/
def strtolHex (bits : Nat) (text : Text) : Int :=
  let (negative, rest) := splitSign (text.dropWhile isSpace)
  saturate bits (withSign negative (hexValue ((skipHexPrefix rest).takeWhile isHex)))

/-- A hexadecimal digit in lower case. -/
def hexDigit (n : Nat) : UInt8 := if n < 10 then .ofNat (48 + n) else .ofNat (87 + n)

/-- The conversion `%02x` of a byte. -/
def printHexByte (b : UInt8) : Text := [hexDigit (b.toNat / 16), hexDigit (b.toNat % 16)]

theorem hexDigit_spec {n : Nat} (h : n < 16) : isHex (hexDigit n) = true ∧ hexDigitValue (hexDigit n) = n := by
  have hall : ∀ n < 16, isHex (hexDigit n) = true ∧ hexDigitValue (hexDigit n) = n := by decide
  exact hall n h

theorem hexDigitValue_lt {c : UInt8} (h : isHex c = true) : hexDigitValue c < 16 := by
  simp only [isHex, Bool.or_eq_true, Bool.and_eq_true, decide_eq_true_eq] at h
  rw [hexDigitValue]
  split_ifs <;> omega

/-- Two digits and something else. -/
theorem strtolHex_pair {longBits : Nat} {a b : UInt8} (ha : isHex a = true) (hb : isHex b = true)
    (hrest : ∀ x ∈ rest.head?, isHex x = false) :
    strtolHex longBits (a :: b :: rest) = saturate longBits ((hexDigitValue a * 16 + hexDigitValue b : Nat) : Int) := by
  have hspace : isSpace a = false := by
    simp only [isHex, Bool.or_eq_true, Bool.and_eq_true, decide_eq_true_eq] at ha
    simp only [isSpace, Bool.or_eq_false_iff, Bool.and_eq_false_iff, decide_eq_false_iff_not]
    omega
  have hsign : isSign a = false := by
    cases hcases : isSign a with
    | false => rfl
    | true =>
        simp only [isSign, Bool.or_eq_true, decide_eq_true_eq] at hcases
        obtain rfl | rfl := hcases <;> exact absurd ha (by decide)
  have hskip : skipHexPrefix (a :: b :: rest) = a :: b :: rest := by
    unfold skipHexPrefix
    split
    · rename_i heq
      cases heq
      rw [if_neg]
      rintro ⟨rfl | rfl, -⟩ <;> exact absurd hb (by decide)
    · rfl
  have hstop : rest.takeWhile isHex = [] := by
    cases rest with
    | nil => rfl
    | cons x rest => simp [hrest x rfl]
  rw [strtolHex, List.dropWhile_cons, if_neg (by rw [hspace]; exact Bool.false_ne_true), splitSign,
    if_neg (by rw [hsign]; exact Bool.false_ne_true)]
  simp only [hskip, List.takeWhile_cons, ha, hb, if_true, hstop]
  simp [hexValue, withSign]

end CString
