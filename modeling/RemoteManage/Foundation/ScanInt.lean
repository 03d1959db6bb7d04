import Mathlib.Data.List.TakeWhile
import RemoteManage.Foundation.CString

/-!
# Scanning numbers out of a text

`sscanf` with a format of `%d` conversions between which one separator stands. A conversion
skips white space, takes an optional sign and as many digits as there are, and fails when
there is none. The scan ends at the first conversion that fails or the first separator that
is missing, and the variables of the conversions that were not reached keep their values.
-/

namespace RemoteManage.Foundation.CString

/-- `isspace`. -/
def isSpace (c : UInt8) : Bool := c = 32 || (9 ≤ c && c ≤ 13)

/-- `isdigit`. -/
def isDigit (c : UInt8) : Bool := 48 ≤ c && c ≤ 57

/-- The number that decimal digits stand for. -/
def digitsValue (digits : List UInt8) : ℕ := digits.foldl (fun value c => 10 * value + (c.toNat - 48)) 0

/-- Whether a minus sign was found, and the text behind the sign. -/
def scanSign (text : List UInt8) : Bool × List UInt8 :=
  if text.head? = some 45 then (true, text.tail)
  else if text.head? = some 43 then (false, text.tail)
  else (false, text)

/-- One `%d`: the number and the text behind it. -/
def scanInt (text : List UInt8) : Option (ℤ × List UInt8) :=
  let (negative, number) := scanSign (text.dropWhile isSpace)
  let digits := number.takeWhile isDigit
  if digits = [] then none
  else some (if negative then -(digitsValue digits : ℤ) else digitsValue digits, number.dropWhile isDigit)

/-- The numbers that `sscanf` finds for `count` conversions with a separator between each two. -/
def scanInts (separator : UInt8) : ℕ → List UInt8 → List ℤ
  | 0, _ => []
  | count + 1, text =>
    match scanInt text with
    | none => []
    | some (value, rest) =>
      value :: if rest.head? = some separator then scanInts separator count rest.tail else []

/-- What a conversion stores for the number it has found: the number itself where an `int` has room
for it. For other numbers the language promises nothing. -/
structure IntStore where
  store : ℤ → Int32
  store_toInt : ∀ value : Int32, store value.toInt = value

/-- The store that keeps the low 32 bits. -/
def IntStore.truncate : IntStore := ⟨Int32.ofInt, Int32.ofInt_toInt⟩

/-- The decimal text of a number. -/
def decimal (value : ℤ) : List UInt8 := bytes (toString value)

/-- The decimal digits of a natural number. -/
def digits (value : ℕ) : List UInt8 := (Nat.toDigits 10 value).map fun c => c.toNat.toUInt8

/-- A natural number is written with its digits. -/
theorem decimal_natCast (value : ℕ) : decimal value = digits value := by
  simp [decimal, bytes, digits, toString, Int.repr]

/-- A negative number is written with a minus sign and its digits. -/
theorem decimal_negSucc (n : ℕ) : decimal (.negSucc n) = 45 :: digits (n + 1) := by
  simp [decimal, bytes, digits, toString, Int.repr]

/-- Each digit of a number is the code of a digit character. -/
theorem exists_digit_of_mem_digits {value : ℕ} {c : UInt8} (h : c ∈ digits value) :
    ∃ d : Char, d.isDigit = true ∧ c = d.toNat.toUInt8 := by
  obtain ⟨d, hd, rfl⟩ := List.mem_map.mp h
  exact ⟨d, Nat.isDigit_of_mem_toDigits (by decide) (le_refl 10) hd, rfl⟩

/-- The bounds of the code of a digit. -/
theorem toNat_bounds_of_isDigit {d : Char} (h : d.isDigit = true) : 48 ≤ d.toNat ∧ d.toNat ≤ 57 := by
  simp only [Char.isDigit, Bool.and_eq_true, decide_eq_true_eq] at h
  exact h

/-- Digits are digits. -/
theorem isDigit_of_mem_digits {value : ℕ} {c : UInt8} (h : c ∈ digits value) : isDigit c = true := by
  obtain ⟨d, hd, rfl⟩ := exists_digit_of_mem_digits h
  have hbounds := toNat_bounds_of_isDigit hd
  simp only [isDigit, Bool.and_eq_true, decide_eq_true_eq, UInt8.le_iff_toNat_le, UInt8.toNat_ofNat']
  constructor
  · change 48 ≤ d.toNat % 256
    omega
  · change d.toNat % 256 ≤ 57
    omega

/-- Digits are evaluated as characters are. -/
theorem foldl_map_digit (l : List Char) (start : ℕ) (h : ∀ c ∈ l, c.isDigit = true) :
    (l.map fun c => c.toNat.toUInt8).foldl (fun value c => 10 * value + (c.toNat - 48)) start =
      Nat.ofDigitChars 10 l start := by
  induction l generalizing start with
  | nil => rfl
  | cons c l ih =>
    have hbounds := toNat_bounds_of_isDigit (h c List.mem_cons_self)
    have hcode : c.toNat.toUInt8.toNat = c.toNat := Nat.mod_eq_of_lt (by omega)
    rw [List.map_cons, List.foldl_cons, ih _ fun d hd => h d (List.mem_cons_of_mem c hd),
      Nat.ofDigitChars_cons, hcode]
    rfl

/-- The digits of a number stand for it. -/
theorem digitsValue_digits (value : ℕ) : digitsValue (digits value) = value := by
  rw [digitsValue, digits, foldl_map_digit _ 0 fun c hc =>
    Nat.isDigit_of_mem_toDigits (by decide) (le_refl 10) hc, Nat.ofDigitChars_ten_toDigits]

/-- A number has digits. -/
theorem digits_ne_nil (value : ℕ) : digits value ≠ [] := by
  rw [digits, ne_eq, List.map_eq_nil_iff]
  exact Nat.toDigits_ne_nil

/-- A digit is neither white space nor a sign. -/
theorem not_isSpace_of_isDigit (c : UInt8) (h : isDigit c = true) : isSpace c = false ∧ c ≠ 45 ∧ c ≠ 43 := by
  simp only [isDigit, Bool.and_eq_true, decide_eq_true_eq, UInt8.le_iff_toNat_le] at h
  change 48 ≤ c.toNat ∧ c.toNat ≤ 57 at h
  have hne (d : UInt8) (hd : d.toNat < 48) : c ≠ d := by
    rintro rfl
    omega
  have hlarge : ¬ c ≤ 13 := by
    rw [UInt8.le_iff_toNat_le]
    change ¬ c.toNat ≤ 13
    omega
  refine ⟨?_, hne 45 (by decide), hne 43 (by decide)⟩
  simp [isSpace, hne 32 (by decide), hlarge]

/-- The text does not go on with a digit. -/
def EndsDigits (rest : List UInt8) : Prop := ∀ c, rest.head? = some c → isDigit c = false

/-- Digits and at least one. -/
def IsNumeral (number : List UInt8) : Prop := number ≠ [] ∧ ∀ c ∈ number, isDigit c = true

/-- A decimal integer: digits with a sign before them or none. -/
inductive IsDecimal : List UInt8 → ℤ → Prop where
  | plain {number} (h : IsNumeral number) : IsDecimal number (digitsValue number)
  | plus {number} (h : IsNumeral number) : IsDecimal (43 :: number) (digitsValue number)
  | minus {number} (h : IsNumeral number) : IsDecimal (45 :: number) (-(digitsValue number))

/-- The digits of a number are a numeral. -/
theorem isNumeral_digits (value : ℕ) : IsNumeral (digits value) :=
  ⟨digits_ne_nil value, fun _ => isDigit_of_mem_digits⟩

/-- The decimal text of a number is a decimal integer. -/
theorem isDecimal_decimal (value : ℤ) : IsDecimal (decimal value) value := by
  cases value with
  | ofNat n =>
    have hplain := IsDecimal.plain (isNumeral_digits n)
    rw [digitsValue_digits] at hplain
    rw [show decimal (.ofNat n) = digits n from decimal_natCast n]
    exact hplain
  | negSucc n =>
    have hminus := IsDecimal.minus (isNumeral_digits (n + 1))
    rw [digitsValue_digits] at hminus
    rw [decimal_negSucc]
    exact hminus

/-- Digits end where the rest of the text begins. -/
theorem takeWhile_numeral {number rest : List UInt8} (h : ∀ c ∈ number, isDigit c = true)
    (hrest : EndsDigits rest) :
    (number ++ rest).takeWhile isDigit = number ∧ (number ++ rest).dropWhile isDigit = rest := by
  rw [List.takeWhile_append_of_pos h, List.dropWhile_append_of_pos h]
  cases rest with
  | nil => exact ⟨List.append_nil _, rfl⟩
  | cons c rest =>
    have hc := hrest c rfl
    rw [List.takeWhile_cons_of_neg (by rw [hc]; decide), List.dropWhile_cons_of_neg (by rw [hc]; decide)]
    exact ⟨List.append_nil _, rfl⟩

/-- What is found behind the sign decides on the number. -/
theorem scanInt_of_numeral {text : List UInt8} {negative : Bool} {number rest : List UInt8}
    (hsign : scanSign (text.dropWhile isSpace) = (negative, number ++ rest)) (hnumber : IsNumeral number)
    (hrest : EndsDigits rest) :
    scanInt text = some (if negative then -(digitsValue number : ℤ) else digitsValue number, rest) := by
  obtain ⟨htake, hdrop⟩ := takeWhile_numeral hnumber.2 hrest
  simp only [scanInt, hsign, htake, hdrop, if_neg hnumber.1]

/-- Behind no white space and no sign the digits begin at once. -/
theorem scanSign_numeral {number : List UInt8} (h : IsNumeral number) (rest : List UInt8) :
    scanSign ((number ++ rest).dropWhile isSpace) = (false, number ++ rest) := by
  obtain ⟨c, tail, rfl⟩ := List.exists_cons_of_ne_nil h.1
  obtain ⟨hspace, hminus, hplus⟩ := not_isSpace_of_isDigit c (h.2 c List.mem_cons_self)
  rw [List.cons_append, List.dropWhile_cons_of_neg (by rw [hspace]; decide)]
  simp [scanSign, hminus, hplus]

/-- A decimal integer is scanned up to its end. -/
theorem scanInt_of_isDecimal {text : List UInt8} {value : ℤ} (h : IsDecimal text value) {rest : List UInt8}
    (hrest : EndsDigits rest) : scanInt (text ++ rest) = some (value, rest) := by
  cases h with
  | plain h => exact scanInt_of_numeral (scanSign_numeral h rest) h hrest
  | @plus number h => exact scanInt_of_numeral (show _ = (false, number ++ rest) from rfl) h hrest
  | @minus number h => exact scanInt_of_numeral (show _ = (true, number ++ rest) from rfl) h hrest

/-- A number written in decimal is scanned up to its end. -/
theorem scanInt_decimal (value : ℤ) {rest : List UInt8} (h : EndsDigits rest) :
    scanInt (decimal value ++ rest) = some (value, rest) :=
  scanInt_of_isDecimal (isDecimal_decimal value) h

/-- Two decimal integers with a separator between them are both scanned. -/
theorem scanInts_of_isDecimal {separator : UInt8} (h : isDigit separator = false) {left right : List UInt8}
    {first second : ℤ} (hleft : IsDecimal left first) (hright : IsDecimal right second) :
    scanInts separator 2 (left ++ separator :: right) = [first, second] := by
  have hend : EndsDigits (separator :: right) := fun c hc => Option.some.inj hc ▸ h
  have hnil : EndsDigits [] := fun c hc => nomatch hc
  have hscan := scanInt_of_isDecimal hright hnil
  rw [List.append_nil] at hscan
  simp [scanInts, scanInt_of_isDecimal hleft hend, hscan]

/-- Numbers written in decimal with separators between them are all scanned. -/
theorem scanInts_intercalate {separator : UInt8} (h : isDigit separator = false) (values : List ℤ) :
    scanInts separator values.length ([separator].intercalate (values.map decimal)) = values := by
  induction values with
  | nil => rfl
  | cons value values ih =>
    cases values with
    | nil =>
      have hend : EndsDigits [] := fun c hc => nomatch hc
      have hscan := scanInt_decimal value hend
      rw [List.append_nil] at hscan
      simp [scanInts, hscan]
    | cons next values =>
      have hend : EndsDigits (separator :: [separator].intercalate ((next :: values).map decimal)) :=
        fun c hc => Option.some.inj hc ▸ h
      have hscan := scanInt_decimal value hend
      have htext : [separator].intercalate ((value :: next :: values).map decimal) =
          decimal value ++ separator :: [separator].intercalate ((next :: values).map decimal) := by
        simp [List.intercalate]
      rw [htext, List.length_cons, scanInts, hscan]
      simp only [List.head?_cons, if_true, List.tail_cons, ih]

/-- There are no more numbers than conversions. -/
theorem scanInts_length_le (separator : UInt8) (count : ℕ) (text : List UInt8) :
    (scanInts separator count text).length ≤ count := by
  induction count generalizing text with
  | zero => exact le_refl 0
  | succ count ih =>
    rw [scanInts]
    cases scanInt text with
    | none => exact Nat.zero_le _
    | some scanned =>
      dsimp only
      split
      · exact Nat.succ_le_succ (ih _)
      · exact Nat.succ_le_succ (Nat.zero_le count)

/-- What is left behind a number stood at the end of the text. -/
theorem scanInt_suffix {text rest : List UInt8} {value : ℤ} (h : scanInt text = some (value, rest)) :
    rest <:+ text := by
  unfold scanInt at h
  obtain ⟨-, hscan⟩ := Option.ite_none_left_eq_some.mp h
  obtain ⟨-, rfl⟩ := Prod.mk.inj (Option.some.inj hscan)
  have hsign : (scanSign (text.dropWhile isSpace)).2 <:+ text.dropWhile isSpace := by
    unfold scanSign
    split
    · exact List.tail_suffix _
    · split
      · exact List.tail_suffix _
      · exact List.suffix_rfl
  exact ((List.dropWhile_suffix _).trans hsign).trans (List.dropWhile_suffix _)

/-- Where no separator stands no second number is reached. -/
theorem scanInts_length_le_one {separator : UInt8} {text : List UInt8} (h : separator ∉ text) (count : ℕ) :
    (scanInts separator count text).length ≤ 1 := by
  cases count with
  | zero => exact Nat.zero_le 1
  | succ count =>
    rw [scanInts]
    cases hscan : scanInt text with
    | none => exact Nat.zero_le 1
    | some scanned =>
      have hrest : scanned.2.head? ≠ some separator := fun hhead =>
        h ((scanInt_suffix hscan).subset (List.mem_of_head? hhead))
      simp [hrest]

end RemoteManage.Foundation.CString
