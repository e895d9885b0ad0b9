import OpcodeLens.Proofs.Number.Rounding
import OpcodeLens.Proofs.Text.Basic

/-!
# The grammar of numerals

A numeral is described here by the parts that it is written from. The reader takes just the texts
that have such a form, and gives each the value of the format nearest to what the parts say.

* `Numeral.Hex`, `Numeral.Decimal`, `Numeral.Magnitude`, `Numeral.Form` : the parts, with the text
  that they are written as and the exact value that they stand for.
* `Numeral.hex?_text`, `Numeral.decimal?_text`, `Numeral.unsigned?_text`, `Numeral.read?_text` :
  what each reader makes of the text of its parts.
* `Numeral.exists_hex`, `Numeral.exists_decimal`, `Numeral.exists_magnitude`,
  `Numeral.exists_form` : a reader takes nothing else.
* `Numeral.read?_whole`, `Numeral.read?_hexText` : digits below 2 ^ 53 are read as what they say.
* `Numeral.isPlain_iff` : the one sign that the plain form has no place for.
* `Numeral.IsNumeral`, `Numeral.read?_of_not_isNumeral` : the texts that are numerals by their plain
  form, and what is made of other ones.
* `Numeral.read_follows_grammar` : **what is read, and as what.**
-/

namespace OpcodeLens

namespace Numeral

variable {source : Text} {c : Char} {base : Nat}

/-! ### Digits -/

/-- Decimal digits as they are written. -/
def digitText (digits : List (Fin 10)) : Text := digits.map fun d => Nat.digitChar d.val

/-- The number that decimal digits stand for. -/
def digitValue (digits : List (Fin 10)) : Nat := digits.foldl (fun n d => 10 * n + d.val) 0

theorem isDigit_digitChar (d : Fin 10) : (Nat.digitChar d.val).isDigit = true := by
  revert d
  decide

theorem digit?_digitChar (d : Fin 10) : digit? 10 (Nat.digitChar d.val) = some d.val := by
  revert d
  decide

theorem isDigit_of_mem_digitText (digits : List (Fin 10)) :
    ∀ c ∈ digitText digits, c.isDigit = true := by
  intro c hc
  obtain ⟨d, -, rfl⟩ := List.mem_map.1 hc
  exact isDigit_digitChar d

/-- A hexadecimal digit, in one of the ways to write it. -/
structure HexDigit where
  /-- What it stands for. -/
  value : Fin 16
  /-- Is a letter written as a capital? -/
  capital : Bool
  deriving DecidableEq, Repr

/-- The digit as it is written. -/
def HexDigit.char (d : HexDigit) : Char :=
  if d.capital then (Nat.digitChar d.value.val).toUpper else Nat.digitChar d.value.val

/-- Hexadecimal digits as they are written. -/
def hexText (digits : List HexDigit) : Text := digits.map HexDigit.char

/-- The number that hexadecimal digits stand for. -/
def hexValue (digits : List HexDigit) : Nat := digits.foldl (fun n d => 16 * n + d.value.val) 0

theorem digit?_char (d : HexDigit) : digit? 16 d.char = some d.value.val := by
  obtain ⟨value, capital⟩ := d
  revert value
  cases capital <;> decide

/-- The characters that are digits, by their place in the character set. -/
theorem toNat_of_digit? {v : Nat} (h : digit? base c = some v) :
    v < base ∧ (v < 10 ∧ c.toNat = 48 + v ∨
      10 ≤ v ∧ v < 16 ∧ (c.toNat = 87 + v ∨ c.toNat = 55 + v)) := by
  unfold digit? at h
  obtain ⟨hvalue, hlt⟩ := Option.filter_eq_some_iff.1 h
  refine ⟨of_decide_eq_true hlt, ?_⟩
  unfold Text.hexDigit? at hvalue
  have hzero : '0'.toNat = 48 := rfl
  have ha : 'a'.toNat = 97 := rfl
  have hA : 'A'.toNat = 65 := rfl
  split_ifs at hvalue with hdigit hsmall hcapital <;> obtain rfl := Option.some.inj hvalue
  · have hlow : 48 ≤ c.toNat := (Char.isDigit_iff_toNat.1 hdigit).1
    have hhigh : c.toNat ≤ 57 := (Char.isDigit_iff_toNat.1 hdigit).2
    omega
  · have hlow : 97 ≤ c.toNat := hsmall.1
    have hhigh : c.toNat ≤ 102 := hsmall.2
    omega
  · have hlow : 65 ≤ c.toNat := hcapital.1
    have hhigh : c.toNat ≤ 70 := hcapital.2
    omega

theorem eq_ofNat {k : Nat} (h : c.toNat = k) : Char.ofNat k = c := by
  rw [← h, Char.ofNat_toNat]

theorem exists_digitChar {v : Nat} (h : digit? 10 c = some v) :
    ∃ d : Fin 10, Nat.digitChar d.val = c := by
  have htable : ∀ d : Fin 10, Nat.digitChar d.val = Char.ofNat (48 + d.val) := by decide
  obtain ⟨hlt, hplace⟩ := toNat_of_digit? h
  have hc : c.toNat = 48 + v := by omega
  exact ⟨⟨v, hlt⟩, (htable ⟨v, hlt⟩).trans (eq_ofNat hc)⟩

theorem exists_hexDigit {v : Nat} (h : digit? 16 c = some v) : ∃ d : HexDigit, d.char = c := by
  have hdigit : ∀ d : Fin 16, d.val < 10 →
      (HexDigit.mk d false).char = Char.ofNat (48 + d.val) := by decide
  have hsmall : ∀ d : Fin 16, 10 ≤ d.val →
      (HexDigit.mk d false).char = Char.ofNat (87 + d.val) := by decide
  have hcapital : ∀ d : Fin 16, 10 ≤ d.val →
      (HexDigit.mk d true).char = Char.ofNat (55 + d.val) := by decide
  obtain ⟨hlt, ⟨hten, hc⟩ | ⟨hten, -, hc | hc⟩⟩ := toNat_of_digit? h
  · exact ⟨⟨⟨v, hlt⟩, false⟩, (hdigit ⟨v, hlt⟩ hten).trans (eq_ofNat hc)⟩
  · exact ⟨⟨⟨v, hlt⟩, false⟩, (hsmall ⟨v, hlt⟩ hten).trans (eq_ofNat hc)⟩
  · exact ⟨⟨⟨v, hlt⟩, true⟩, (hcapital ⟨v, hlt⟩ hten).trans (eq_ofNat hc)⟩

/-- Digits that are written by a table are read by it. -/
theorem digitsFrom?_map {δ : Type} {base : Nat} {char : δ → Char} {val : δ → Nat}
    (h : ∀ d, digit? base (char d) = some (val d)) (n : Nat) (digits : List δ) :
    digitsFrom? base n (digits.map char) =
      some (digits.foldl (fun n d => base * n + val d) n) := by
  induction digits generalizing n with
  | nil => rfl
  | cons d digits ih =>
    rw [List.map_cons, digitsFrom?, h, Option.bind_some]
    exact ih (base * n + val d)

theorem exists_map_of_digitsFrom? {δ : Type} {char : δ → Char}
    (hchar : ∀ {c v}, digit? base c = some v → ∃ d, char d = c) {n m : Nat}
    (h : digitsFrom? base n source = some m) : ∃ digits : List δ, digits.map char = source := by
  induction source generalizing n with
  | nil => exact ⟨[], rfl⟩
  | cons c source ih =>
    rw [digitsFrom?] at h
    obtain ⟨v, hv, hrest⟩ := Option.bind_eq_some_iff.1 h
    obtain ⟨d, rfl⟩ := hchar hv
    obtain ⟨digits, rfl⟩ := ih hrest
    exact ⟨d :: digits, rfl⟩

/-- What is read as digits is a sequence of digits, which is read as what they stand for. -/
theorem digits?_eq_some_iff_map {δ : Type} {char : δ → Char} {val : δ → Nat}
    (hval : ∀ d, digit? base (char d) = some (val d))
    (hchar : ∀ {c v}, digit? base c = some v → ∃ d, char d = c) {m : Nat} :
    digits? base source = some m ↔ ∃ digits : List δ, digits ≠ [] ∧ digits.map char = source ∧
      digits.foldl (fun n d => base * n + val d) 0 = m := by
  constructor
  · intro h
    unfold digits? at h
    split_ifs at h with hempty
    obtain ⟨digits, rfl⟩ := exists_map_of_digitsFrom? hchar h
    rw [digitsFrom?_map hval] at h
    refine ⟨digits, ?_, rfl, Option.some.inj h⟩
    rintro rfl
    exact hempty rfl
  · rintro ⟨digits, hne, rfl, rfl⟩
    have hempty : (digits.map char).isEmpty = false := by simpa using hne
    rw [digits?, hempty]
    exact digitsFrom?_map hval 0 digits

theorem digits?_ten_iff {m : Nat} : digits? 10 source = some m ↔
    ∃ digits, digits ≠ [] ∧ digitText digits = source ∧ digitValue digits = m :=
  digits?_eq_some_iff_map digit?_digitChar exists_digitChar

theorem digits?_digitText {digits : List (Fin 10)} (hne : digits ≠ []) :
    digits? 10 (digitText digits) = some (digitValue digits) :=
  digits?_ten_iff.2 ⟨digits, hne, rfl, rfl⟩

theorem digits?_sixteen_iff {m : Nat} : digits? 16 source = some m ↔
    ∃ digits, digits ≠ [] ∧ hexText digits = source ∧ hexValue digits = m :=
  digits?_eq_some_iff_map digit?_char exists_hexDigit

/-! ### Signs -/

/-- The sign that may stand in front of a numeral. -/
inductive Sign where
  /-- No sign. -/
  | none
  /-- A plus sign. -/
  | plus
  /-- A minus sign. -/
  | minus
  deriving DecidableEq, Repr

/-- The sign as it is written. -/
def Sign.text : Sign → Text
  | .none => []
  | .plus => ['+']
  | .minus => ['-']

/-- A magnitude with the sign. -/
def Sign.apply : Sign → Nat → Int
  | .none, n => n
  | .plus, n => n
  | .minus, n => -n

theorem Sign.natAbs_apply (sign : Sign) (n : Nat) : (sign.apply n).natAbs = n := by
  cases sign <;> simp [apply]

/-- A sign is no digit. -/
theorem ne_sign_of_digit? {v : Nat} (h : digit? base c = some v) : c ≠ '-' ∧ c ≠ '+' := by
  obtain ⟨-, hplace⟩ := toNat_of_digit? h
  constructor <;> rintro rfl
  · have : '-'.toNat = 45 := rfl
    omega
  · have : '+'.toNat = 43 := rfl
    omega

/-- A sign is taken off what does not begin with one itself. -/
theorem takeSign_append (sign : Sign) {rest : Text}
    (h : ∀ c ∈ rest.head?, c ≠ '-' ∧ c ≠ '+') :
    takeSign (sign.text ++ rest) = (decide (sign = .minus), rest) := by
  cases sign with
  | plus => rfl
  | minus => rfl
  | none =>
    change takeSign rest = _
    unfold takeSign
    split
    · exact absurd rfl (h '-' rfl).1
    · exact absurd rfl (h '+' rfl).2
    · rfl

theorem exists_sign_of_takeSign {negative : Bool} {rest : Text}
    (h : takeSign source = (negative, rest)) :
    ∃ sign : Sign, sign.text ++ rest = source ∧ negative = decide (sign = .minus) := by
  unfold takeSign at h
  split at h <;> obtain ⟨rfl, rfl⟩ := Prod.mk.inj h
  · exact ⟨.minus, rfl, rfl⟩
  · exact ⟨.plus, rfl, rfl⟩
  · exact ⟨.none, rfl, rfl⟩

theorem not_sign_head_map {δ : Type} {char : δ → Char} {val : δ → Nat}
    (hval : ∀ d, digit? base (char d) = some (val d)) (digits : List δ) :
    ∀ c ∈ (digits.map char).head?, c ≠ '-' ∧ c ≠ '+' := by
  intro c hc
  obtain ⟨d, -, rfl⟩ := List.mem_map.1 (List.mem_of_mem_head? hc)
  exact ne_sign_of_digit? (hval d)

theorem not_sign_head_digitText (digits : List (Fin 10)) :
    ∀ c ∈ (digitText digits).head?, c ≠ '-' ∧ c ≠ '+' :=
  not_sign_head_map digit?_digitChar digits

theorem not_sign_head_hexText (digits : List HexDigit) :
    ∀ c ∈ (hexText digits).head?, c ≠ '-' ∧ c ≠ '+' :=
  not_sign_head_map digit?_char digits

/-- A number with the sign. -/
def Sign.signed (sign : Sign) (r : Rat) : Rat := if sign = .minus then -r else r

theorem Sign.apply_eq_ite (sign : Sign) (n : Nat) :
    (if decide (sign = .minus) then -(n : Int) else n) = sign.apply n := by
  cases sign <;> rfl

theorem Sign.signed_natCast (sign : Sign) (n : Nat) : sign.signed n = sign.apply n := by
  cases sign <;> simp [signed, apply]

theorem Sign.round?_signed (sign : Sign) (r : Rat) :
    Number.round? (sign.signed r) = (Number.round? r).map sign.signed := by
  cases sign with
  | none => exact (congrFun Option.map_id _).symm
  | plus => exact (congrFun Option.map_id _).symm
  | minus => exact Number.round?_neg r

/-! ### Hexadecimal integers -/

/-- What a hexadecimal integer is written from, after its mark. -/
structure Hex where
  /-- A sign of its own. -/
  sign : Sign
  /-- Its digits. -/
  digits : List HexDigit
  digits_ne : digits ≠ []

/-- The integer as it is written. -/
def Hex.text (hex : Hex) : Text := hex.sign.text ++ hexText hex.digits

/-- The integer that is written. -/
def Hex.value (hex : Hex) : Int := hex.sign.apply (hexValue hex.digits)

/-- Is the integer one of 64 bits? -/
def Hex.Fits (hex : Hex) : Prop := -2 ^ 63 ≤ hex.value ∧ hex.value < 2 ^ 63

theorem hex?_text (hex : Hex) {n : Int} : hex? hex.text = some n ↔ hex.Fits ∧ hex.value = n := by
  obtain ⟨sign, digits, digits_ne⟩ := hex
  have hdigits : digits? 16 (hexText digits) = some (hexValue digits) :=
    digits?_sixteen_iff.2 ⟨digits, digits_ne, rfl, rfl⟩
  unfold hex? Hex.text Hex.Fits Hex.value
  rw [takeSign_append sign (not_sign_head_hexText digits)]
  simp only [hdigits, Option.bind_some, Nat.pow_eq]
  cases sign <;> grind [Sign.apply]

theorem exists_hex {n : Int} (h : hex? source = some n) : ∃ hex : Hex, hex.text = source := by
  rcases hsign : takeSign source with ⟨negative, rest⟩
  unfold hex? at h
  rw [hsign] at h
  obtain ⟨m, hm, -⟩ := Option.bind_eq_some_iff.1 h
  obtain ⟨digits, hne, rfl, -⟩ := digits?_sixteen_iff.1 hm
  obtain ⟨sign, rfl, -⟩ := exists_sign_of_takeSign hsign
  exact ⟨⟨sign, digits, hne⟩, rfl⟩

/-! ### Decimal numbers -/

/-- What the exponent of a decimal number is written from. -/
structure Exponent where
  /-- Is the mark a capital? -/
  capital : Bool
  /-- Its sign. -/
  sign : Sign
  /-- Its digits. -/
  digits : List (Fin 10)
  digits_ne : digits ≠ []

/-- The exponent as it is written. -/
def Exponent.text (exponent : Exponent) : Text :=
  (if exponent.capital then 'E' else 'e') :: (exponent.sign.text ++ digitText exponent.digits)

/-- The power of ten that is written. -/
def Exponent.value (exponent : Exponent) : Int := exponent.sign.apply (digitValue exponent.digits)

theorem exponent?_text (exponent : Option Exponent) :
    exponent? (exponent.elim [] Exponent.text) = some (exponent.elim 0 Exponent.value) := by
  cases exponent with
  | none => rfl
  | some exponent =>
    obtain ⟨capital, sign, digits, digits_ne⟩ := exponent
    have hmark : (decide ((if capital then 'E' else 'e') = 'e') ||
        decide ((if capital then 'E' else 'e') = 'E')) = true := by
      cases capital <;> rfl
    change exponent? ((if capital then 'E' else 'e') :: (sign.text ++ digitText digits)) = _
    rw [exponent?, if_pos hmark, takeSign_append sign (not_sign_head_digitText digits)]
    dsimp only
    rw [digits?_digitText digits_ne]
    exact congrArg some (Sign.apply_eq_ite sign (digitValue digits))

theorem exists_exponent {e : Int} (h : exponent? source = some e) :
    ∃ exponent : Option Exponent, exponent.elim [] Exponent.text = source := by
  cases source with
  | nil => exact ⟨none, rfl⟩
  | cons mark source =>
    rcases hsign : takeSign source with ⟨negative, rest⟩
    rw [exponent?, hsign] at h
    split_ifs at h with hmark
    obtain ⟨n, hn, -⟩ := Option.map_eq_some_iff.1 h
    obtain ⟨m, hm, -⟩ := Option.bind_eq_some_iff.1 hn
    obtain ⟨digits, hne, rfl, -⟩ := digits?_ten_iff.1 hm
    obtain ⟨sign, rfl, -⟩ := exists_sign_of_takeSign hsign
    rw [Bool.or_eq_true, decide_eq_true_iff, decide_eq_true_iff] at hmark
    obtain rfl | rfl := hmark
    · exact ⟨some ⟨false, sign, digits, hne⟩, rfl⟩
    · exact ⟨some ⟨true, sign, digits, hne⟩, rfl⟩

/-- What a decimal number is written from. -/
structure Decimal where
  /-- The digits before the point. -/
  whole : List (Fin 10)
  /-- The digits after the point, if there is one. -/
  fraction : Option (List (Fin 10))
  /-- The exponent, if there is one. -/
  exponent : Option Exponent
  digits_ne : whole ++ fraction.getD [] ≠ []

/-- What follows the digits before the point. -/
def Decimal.tail (decimal : Decimal) : Text :=
  decimal.fraction.elim [] (fun digits => '.' :: digitText digits) ++
    decimal.exponent.elim [] Exponent.text

/-- The number as it is written. -/
def Decimal.text (decimal : Decimal) : Text := digitText decimal.whole ++ decimal.tail

/-- The number that is written. -/
def Decimal.value (decimal : Decimal) : Rat :=
  digitValue (decimal.whole ++ decimal.fraction.getD []) *
    10 ^ (decimal.exponent.elim 0 Exponent.value - (decimal.fraction.getD []).length : Int)

theorem not_isDigit_head_exponent (exponent : Option Exponent) :
    ∀ c ∈ (exponent.elim [] Exponent.text).head?, c.isDigit = false := by
  intro c hc
  cases exponent with
  | none => cases hc
  | some exponent =>
    obtain rfl : (if exponent.capital then 'E' else 'e') = c := Option.some.inj hc
    split_ifs <;> rfl

theorem not_isDigit_head_tail (decimal : Decimal) :
    ∀ c ∈ decimal.tail.head?, c.isDigit = false := by
  obtain ⟨whole, fraction, exponent, digits_ne⟩ := decimal
  cases fraction with
  | none => exact not_isDigit_head_exponent exponent
  | some fraction =>
    intro c hc
    obtain rfl : '.' = c := Option.some.inj hc
    rfl

/-- The parts of a decimal number are put together exactly, before they are rounded. -/
theorem scaled?_parts {whole fraction : List (Fin 10)} {exponent : Option Exponent}
    {behind tail : Text} (hne : whole ++ fraction ≠ []) (hbehind : behind = digitText fraction)
    (htail : tail = exponent.elim [] Exponent.text) :
    ((digits? 10 (digitText whole ++ behind)).bind fun m =>
      (exponent? tail).bind fun e => scaled? m (e - behind.length)) =
      Number.round? (digitValue (whole ++ fraction) *
        10 ^ (exponent.elim 0 Exponent.value - fraction.length : Int)) := by
  have happend : digitText whole ++ digitText fraction = digitText (whole ++ fraction) :=
    List.map_append.symm
  have hlength : (digitText fraction).length = fraction.length := List.length_map _
  rw [hbehind, htail, happend, digits?_digitText hne, Option.bind_some, exponent?_text,
    Option.bind_some, scaled?_eq_round?, hlength]

theorem decimal?_text (decimal : Decimal) :
    decimal? decimal.text = Number.round? decimal.value := by
  have hwhole := isDigit_of_mem_digitText decimal.whole
  have htail := not_isDigit_head_tail decimal
  obtain ⟨whole, fraction, exponent, digits_ne⟩ := decimal
  unfold decimal? Decimal.text
  rw [Text.takeWhile_append_stop hwhole htail, Text.dropWhile_append_stop hwhole htail]
  cases fraction with
  | none =>
    -- The mark of an exponent is not a point.
    obtain _ | ⟨_ | _, _, _, _⟩ := exponent <;> exact scaled?_parts digits_ne rfl rfl
  | some fraction =>
    have hfraction := isDigit_of_mem_digitText fraction
    have hexponent := not_isDigit_head_exponent exponent
    exact scaled?_parts digits_ne (Text.takeWhile_append_stop hfraction hexponent)
      (Text.dropWhile_append_stop hfraction hexponent)

theorem exists_decimal {r : Rat} (h : decimal? source = some r) :
    ∃ decimal : Decimal, decimal.text = source := by
  have hsource : source.takeWhile Char.isDigit ++ source.dropWhile Char.isDigit = source :=
    List.takeWhile_append_dropWhile
  unfold decimal? at h
  generalize source.takeWhile Char.isDigit = whole at h hsource
  generalize source.dropWhile Char.isDigit = after at h hsource
  split at h
  rename_i behind tail hsplit
  obtain ⟨m, hm, hrest⟩ := Option.bind_eq_some_iff.1 h
  obtain ⟨e, he, -⟩ := Option.bind_eq_some_iff.1 hrest
  obtain ⟨digits, hne, hdigits, -⟩ := digits?_ten_iff.1 hm
  obtain ⟨exponent, rfl⟩ := exists_exponent he
  obtain ⟨before, fraction, rfl, rfl, rfl⟩ := List.map_eq_append_iff.1 hdigits
  split at hsplit <;> obtain ⟨hbehind, htail⟩ := Prod.mk.inj hsplit
  · next rest =>
    refine ⟨⟨before, some fraction, exponent, hne⟩, ?_⟩
    rw [← hsource, ← List.takeWhile_append_dropWhile (p := Char.isDigit) (l := rest), hbehind,
      htail]
    rfl
  · have hnil : fraction = [] := List.map_eq_nil_iff.1 hbehind.symm
    subst hnil
    refine ⟨⟨before, none, exponent, hne⟩, ?_⟩
    rw [← hsource, htail]
    rfl

/-! ### Numerals -/

/-- What a numeral is written from, after its sign. -/
inductive Magnitude where
  /-- A hexadecimal integer after its mark, which may be a capital. -/
  | hex (capital : Bool) (integer : Hex)
  /-- A decimal number. -/
  | decimal (number : Decimal)

/-- The mark of hexadecimal digits after a zero. -/
def hexMark (capital : Bool) : Char := if capital then 'X' else 'x'

/-- The magnitude as it is written. -/
def Magnitude.text : Magnitude → Text
  | .hex capital integer => '0' :: hexMark capital :: integer.text
  | .decimal number => number.text

/-- The number that is written. -/
def Magnitude.value : Magnitude → Rat
  | .hex _ integer => integer.value
  | .decimal number => number.value

/-- Can the magnitude be read? Only hexadecimal integers are limited. -/
def Magnitude.Fits : Magnitude → Prop
  | .hex _ integer => integer.Fits
  | .decimal _ => True

/-- Is there no sign but the one in front? -/
def Magnitude.IsPlain : Magnitude → Prop
  | .hex _ integer => integer.sign = .none
  | .decimal _ => True

theorem mem_decimal_text {number : Decimal} (hc : c ∈ number.text) :
    c.isDigit = true ∨ c ∈ ['.', 'e', 'E', '+', '-'] := by
  obtain ⟨whole, fraction, exponent, digits_ne⟩ := number
  obtain hc | hc := List.mem_append.1 hc
  · exact .inl (isDigit_of_mem_digitText whole c hc)
  obtain hc | hc := List.mem_append.1 hc
  · cases fraction with
    | none => cases hc
    | some fraction =>
      obtain rfl | hc := List.mem_cons.1 hc
      · exact .inr List.mem_cons_self
      · exact .inl (isDigit_of_mem_digitText fraction c hc)
  · cases exponent with
    | none => cases hc
    | some exponent =>
      obtain ⟨capital, sign, digits, digits_ne⟩ := exponent
      have hmark : (if capital then 'E' else 'e') ∈ ['.', 'e', 'E', '+', '-'] := by
        cases capital <;> decide
      obtain rfl | hc := List.mem_cons.1 hc
      · exact .inr hmark
      obtain hc | hc := List.mem_append.1 hc
      · exact .inr (by cases sign <;> simp_all [Sign.text])
      · exact .inl (isDigit_of_mem_digitText digits c hc)

theorem hexMark_not_mem (capital : Bool) (number : Decimal) : hexMark capital ∉ number.text := by
  intro hmem
  have hcases := mem_decimal_text hmem
  revert hcases
  cases capital <;> decide

theorem head?_decimal_text (number : Decimal) :
    number.text.head?.any (fun c => c.isDigit || c = '.') = true := by
  obtain ⟨whole, fraction, exponent, digits_ne⟩ := number
  cases whole with
  | cons d whole =>
    change ((Nat.digitChar d.val).isDigit || decide (Nat.digitChar d.val = '.')) = true
    rw [isDigit_digitChar, Bool.true_or]
  | nil =>
    cases fraction with
    | none => exact absurd rfl digits_ne
    | some fraction => rfl

theorem unsigned?_decimal (number : Decimal) : unsigned? number.text = decimal? number.text := by
  unfold unsigned?
  split
  · next rest heq => exact absurd (by simp [heq, hexMark]) (hexMark_not_mem false number)
  · next rest heq => exact absurd (by simp [heq, hexMark]) (hexMark_not_mem true number)
  · exact if_pos (head?_decimal_text number)

theorem unsigned?_text (magnitude : Magnitude) {r : Rat} :
    unsigned? magnitude.text = some r ↔
      magnitude.Fits ∧ Number.round? magnitude.value = some r := by
  cases magnitude with
  | hex capital integer =>
    have hhex : unsigned? ('0' :: hexMark capital :: integer.text) =
        (hex? integer.text).bind fun n => Number.round? n := by
      cases capital <;> rfl
    change unsigned? ('0' :: hexMark capital :: integer.text) = some r ↔ _
    rw [hhex, Option.bind_eq_some_iff]
    constructor
    · rintro ⟨n, hn, hr⟩
      obtain ⟨hfits, rfl⟩ := (hex?_text integer).1 hn
      exact ⟨hfits, hr⟩
    · rintro ⟨hfits, hr⟩
      exact ⟨integer.value, (hex?_text integer).2 ⟨hfits, rfl⟩, hr⟩
  | decimal number =>
    change unsigned? number.text = some r ↔ _
    rw [unsigned?_decimal, decimal?_text]
    exact (and_iff_right trivial).symm

theorem exists_magnitude {r : Rat} (h : unsigned? source = some r) :
    ∃ magnitude : Magnitude, magnitude.text = source := by
  unfold unsigned? at h
  split at h
  · obtain ⟨n, hn, -⟩ := Option.bind_eq_some_iff.1 h
    obtain ⟨integer, rfl⟩ := exists_hex hn
    exact ⟨.hex false integer, rfl⟩
  · obtain ⟨n, hn, -⟩ := Option.bind_eq_some_iff.1 h
    obtain ⟨integer, rfl⟩ := exists_hex hn
    exact ⟨.hex true integer, rfl⟩
  · split_ifs at h
    obtain ⟨number, rfl⟩ := exists_decimal h
    exact ⟨.decimal number, rfl⟩

/-- A magnitude begins without a sign. -/
theorem not_sign_head_text (magnitude : Magnitude) :
    ∀ c ∈ magnitude.text.head?, c ≠ '-' ∧ c ≠ '+' := by
  intro c hc
  cases magnitude with
  | hex capital integer =>
    obtain rfl : '0' = c := Option.some.inj hc
    decide
  | decimal number =>
    have hsome : number.text.head? = some c := hc
    have hhead := head?_decimal_text number
    rw [hsome] at hhead
    constructor <;> rintro rfl <;> exact absurd hhead (by decide)

/-- What a numeral is written from. -/
structure Form where
  /-- The sign in front. -/
  sign : Sign
  /-- What follows it. -/
  magnitude : Magnitude

/-- The numeral as it is written. -/
def Form.text (form : Form) : Text := form.sign.text ++ form.magnitude.text

/-- The number that is written. -/
def Form.value (form : Form) : Rat := form.sign.signed form.magnitude.value

theorem read?_text (form : Form) {r : Rat} :
    read? form.text = some r ↔ form.magnitude.Fits ∧ Number.round? form.value = some r := by
  obtain ⟨sign, magnitude⟩ := form
  have hsigned : (fun r : Rat => if decide (sign = .minus) then -r else r) = sign.signed := by
    funext r
    cases sign <;> rfl
  unfold read? Form.text Form.value
  rw [takeSign_append sign (not_sign_head_text magnitude)]
  dsimp only
  rw [hsigned, Sign.round?_signed, Option.map_eq_some_iff, Option.map_eq_some_iff]
  constructor
  · rintro ⟨v, hv, rfl⟩
    obtain ⟨hfits, hround⟩ := (unsigned?_text magnitude).1 hv
    exact ⟨hfits, v, hround, rfl⟩
  · rintro ⟨hfits, v, hround, rfl⟩
    exact ⟨v, (unsigned?_text magnitude).2 ⟨hfits, hround⟩, rfl⟩

theorem exists_form {r : Rat} (h : read? source = some r) : ∃ form : Form, form.text = source := by
  rcases hsign : takeSign source with ⟨negative, rest⟩
  unfold read? at h
  rw [hsign] at h
  obtain ⟨v, hv, -⟩ := Option.map_eq_some_iff.1 h
  obtain ⟨magnitude, rfl⟩ := exists_magnitude hv
  obtain ⟨sign, rfl, -⟩ := exists_sign_of_takeSign hsign
  exact ⟨⟨sign, magnitude⟩, rfl⟩

/-- The reader takes the numerals that fit, and rounds what they say. -/
theorem read?_eq_some_iff {r : Rat} :
    read? source = some r ↔
      ∃ form : Form, form.text = source ∧ form.magnitude.Fits ∧
        Number.round? form.value = some r := by
  constructor
  · intro h
    obtain ⟨form, rfl⟩ := exists_form h
    exact ⟨form, rfl, (read?_text form).1 h⟩
  · rintro ⟨form, rfl, h⟩
    exact (read?_text form).2 h

/-- **Decimal digits, with or without a sign, are read as what they say.** -/
theorem read?_whole (sign : Sign) {digits : List (Fin 10)} (hne : digits ≠ [])
    (hlt : digitValue digits < 2 ^ 53) :
    read? (sign.text ++ digitText digits) = some (sign.apply (digitValue digits) : Rat) := by
  have hne' : digits ++ Option.getD none [] ≠ [] := by simpa using hne
  let number : Decimal := ⟨digits, none, none, hne'⟩
  have htext : number.text = digitText digits := List.append_nil _
  have hvalue : number.value = digitValue digits := by simp [number, Decimal.value]
  rw [← htext]
  refine (read?_text ⟨sign, .decimal number⟩).2 ⟨trivial, ?_⟩
  change Number.round? (sign.signed number.value) = _
  rw [hvalue, Sign.signed_natCast]
  exact Number.round?_intCast (by rwa [Sign.natAbs_apply])

/-- Hexadecimal digits are read as what they say, like decimal ones. -/
theorem read?_hexText (sign : Sign) (capital : Bool) {digits : List HexDigit} (hne : digits ≠ [])
    (hlt : hexValue digits < 2 ^ 53) :
    read? (sign.text ++ '0' :: hexMark capital :: hexText digits) =
      some (sign.apply (hexValue digits) : Rat) := by
  refine (read?_text ⟨sign, .hex capital ⟨.none, digits, hne⟩⟩).2 ⟨?_, ?_⟩
  · change -2 ^ 63 ≤ (hexValue digits : Int) ∧ (hexValue digits : Int) < 2 ^ 63
    omega
  · change Number.round? (sign.signed ((hexValue digits : Int) : Rat)) = _
    rw [Int.cast_natCast, Sign.signed_natCast]
    exact Number.round?_intCast (by rwa [Sign.natAbs_apply])

/-! ### The second sign -/

/-- Does a second sign follow the mark of hexadecimal digits? -/
def HasSecondSign (source : Text) : Prop :=
  ∃ (sign second : Sign) (capital : Bool) (rest : Text), second ≠ .none ∧
    source = sign.text ++ '0' :: hexMark capital :: (second.text ++ rest)

theorem text_append_ne_hexText {second : Sign} (hsecond : second ≠ .none) (rest : Text)
    (digits : List HexDigit) : second.text ++ rest ≠ hexText digits := by
  intro h
  have hhead := not_sign_head_hexText digits
  rw [← h] at hhead
  cases second with
  | none => exact hsecond rfl
  | plus => exact (hhead '+' rfl).2 rfl
  | minus => exact (hhead '-' rfl).1 rfl

/-- A numeral has the plain form just if it has no second sign. -/
theorem isPlain_iff (form : Form) : form.magnitude.IsPlain ↔ ¬HasSecondSign form.text := by
  obtain ⟨front, magnitude⟩ := form
  constructor
  · rintro hplain ⟨sign, second, capital, rest, hsecond, htext⟩
    -- The sign in front is read off in only one way.
    have hzero : ∀ c ∈ ('0' :: hexMark capital :: (second.text ++ rest)).head?,
        c ≠ '-' ∧ c ≠ '+' := by
      rintro c hc
      obtain rfl : '0' = c := Option.some.inj hc
      decide
    have htake := congrArg takeSign htext
    unfold Form.text at htake
    rw [takeSign_append front (not_sign_head_text magnitude), takeSign_append sign hzero] at htake
    have hmagnitude : magnitude.text = '0' :: hexMark capital :: (second.text ++ rest) :=
      (Prod.mk.inj htake).2
    cases magnitude with
    | hex capital' integer =>
      obtain ⟨own, digits, digits_ne⟩ := integer
      obtain rfl : own = .none := hplain
      have hdigits : hexText digits = second.text ++ rest :=
        (List.cons.inj (List.cons.inj hmagnitude).2).2
      exact text_append_ne_hexText hsecond rest digits hdigits.symm
    | decimal number =>
      have hmark : hexMark capital ∈ number.text := by
        change number.text = _ at hmagnitude
        simp [hmagnitude]
      exact hexMark_not_mem capital number hmark
  · intro hno
    cases magnitude with
    | hex capital integer =>
      by_contra hown
      exact hno ⟨front, integer.sign, capital, hexText integer.digits, hown, rfl⟩
    | decimal number => trivial

/-- Is the text a numeral of the plain form, with no sign but the one in front? -/
def IsNumeral (source : Text) : Prop := ∃ form : Form, form.text = source ∧ form.magnitude.IsPlain

/-- A numeral begins with a sign, a digit or a point. -/
theorem IsNumeral.head? (h : IsNumeral source) :
    source.head?.any (fun c => c.isDigit || ['+', '-', '.'].elem c) = true := by
  obtain ⟨⟨sign, magnitude⟩, rfl, -⟩ := h
  cases sign with
  | plus => rfl
  | minus => rfl
  | none =>
    cases magnitude with
    | hex capital integer => rfl
    | decimal number =>
      change number.text.head?.any _ = true
      have hhead := head?_decimal_text number
      cases hc : number.text.head? with
      | none => simp [hc] at hhead
      | some c =>
        rw [hc, Option.any_some, Bool.or_eq_true, decide_eq_true_iff] at hhead
        obtain hdigit | rfl := hhead
        · rw [Option.any_some, hdigit, Bool.true_or]
        · rfl

theorem HasSecondSign.not_isNumeral (h : HasSecondSign source) : ¬IsNumeral source := by
  rintro ⟨form, rfl, hplain⟩
  exact (isPlain_iff form).1 hplain h

/-- The number that a text with a second sign is taken for: what its parts say, rounded, if the
hexadecimal integer fits into 64 bits. -/
def TakenFor (source : Text) (r : Rat) : Prop :=
  HasSecondSign source ∧ ∃ form : Form, form.text = source ∧ form.magnitude.Fits ∧
    Number.round? form.value = some r

/-- **Of the texts that are no numerals, only those with a second sign are read.** -/
theorem read?_of_not_isNumeral (h : ¬IsNumeral source) {r : Rat} :
    read? source = some r ↔ TakenFor source r := by
  rw [read?_eq_some_iff]
  constructor
  · rintro ⟨form, rfl, hread⟩
    refine ⟨?_, form, rfl, hread⟩
    by_contra hno
    exact h ⟨form, rfl, (isPlain_iff form).2 hno⟩
  · rintro ⟨-, form, htext, hread⟩
    exact ⟨form, htext, hread⟩

/-- **A text is read just if it is a numeral whose hexadecimal integer fits into 64 bits and whose
value rounds to a number; that number is the result. The numeral has at most the one sign in front,
unless a second one follows the mark of hexadecimal digits. Decimal and hexadecimal digits below
2 ^ 53 are read as exactly what they say.** -/
theorem read_follows_grammar (source : Text) :
    (∀ r : Rat, read? source = some r ↔
      ∃ form : Form, form.text = source ∧ form.magnitude.Fits ∧
        Number.round? form.value = some r) ∧
    (∀ form : Form, form.text = source → (form.magnitude.IsPlain ↔ ¬HasSecondSign source)) ∧
    (∀ (sign : Sign) (digits : List (Fin 10)), digits ≠ [] → digitValue digits < 2 ^ 53 →
      source = sign.text ++ digitText digits →
      read? source = some (sign.apply (digitValue digits) : Rat)) ∧
    ∀ (sign : Sign) (capital : Bool) (digits : List HexDigit), digits ≠ [] →
      hexValue digits < 2 ^ 53 → source = sign.text ++ '0' :: hexMark capital :: hexText digits →
      read? source = some (sign.apply (hexValue digits) : Rat) := by
  refine ⟨fun r => read?_eq_some_iff, ?_, ?_, ?_⟩
  · rintro form rfl
    exact isPlain_iff form
  · rintro sign digits hne hlt rfl
    exact read?_whole sign hne hlt
  · rintro sign capital digits hne hlt rfl
    exact read?_hexText sign capital hne hlt

/-- A hexadecimal numeral with a sign, a capital mark and a letter in either case. -/
theorem minus_ff_read :
    hexValue [⟨15, false⟩, ⟨15, true⟩] < 2 ^ 53 ∧
      read? ['-', '0', 'X', 'f', 'F'] = some (-255) :=
  ⟨by decide, (read_follows_grammar ['-', '0', 'X', 'f', 'F']).2.2.2 .minus true
    [⟨15, false⟩, ⟨15, true⟩] (by decide) (by decide) (by decide)⟩

/-- A second sign is read after the mark of hexadecimal digits, although the plain form of numerals
has no place for it. -/
theorem second_sign_read :
    read? ['0', 'x', '-', '5'] = some (-5) ∧
      ¬∃ form : Form, form.text = ['0', 'x', '-', '5'] ∧ form.magnitude.IsPlain := by
  constructor
  · refine (read?_text ⟨.none, .hex false ⟨.minus, [⟨5, false⟩], by decide⟩⟩).2 ⟨?_, ?_⟩
    · change -2 ^ 63 ≤ (-5 : Int) ∧ (-5 : Int) < 2 ^ 63
      decide
    · exact Number.round?_intCast (n := -5) (by decide)
  · rintro ⟨form, htext, hplain⟩
    rw [isPlain_iff, htext] at hplain
    exact hplain ⟨.none, .minus, false, ['5'], by decide, rfl⟩

end Numeral

end OpcodeLens
